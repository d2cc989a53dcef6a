-- The arguments of the operator's program: a configuration file perhaps,
-- then a command, and what belongs to the command.
import AdmissionGate.Text.Blank
import AdmissionGate.Text.Decimal

namespace AdmissionGate.CommandLine

inductive Command where
  | sign (params : List (String × String))
  | pushConfig (blockIp : List String) (maxReqSecond : Nat)
  | health (url : String)
  deriving DecidableEq, Repr

structure Invocation where
  config : Option String
  command : Command
  deriving DecidableEq, Repr

/-- Why arguments name no command to carry out. -/
inductive Usage where
  | help
  | misuse
  deriving DecidableEq, Repr

/-! ## Options -/

/-- An option that takes a value: its long name, and its letter if it has one. -/
structure OptionName where
  long : String
  short : Option Char

/-- Whether an argument can be the value of an option that stands before it. -/
def isValue (arg : String) : Bool := arg == "-" || !Text.startsWith arg "-"

/-- The value that an argument holds for an option, in the forms `--name=value`, `-nvalue` and
`-n=value`. -/
def OptionName.attached? (o : OptionName) (arg : String) : Option String :=
  let long := ("--" ++ o.long ++ "=").toList
  if long.isPrefixOf arg.toList then some (String.ofList (arg.toList.drop long.length))
  else match o.short, arg.toList with
    | some letter, '-' :: c :: value :: rest =>
      if c == letter then
        some (String.ofList (if value == '=' then rest else value :: rest))
      else none
    | _, _ => none

def OptionName.isBare (o : OptionName) (arg : String) : Bool :=
  arg == "--" ++ o.long || (o.short.map fun c => arg == String.ofList ['-', c]).getD false

/-- How an argument begins for some options: one of them with its value, attached or in the next
argument, or none of them. -/
inductive Taken where
  | value (option : Nat) (value : String) (rest : List String)
  | lacking
  | other

def take (options : List OptionName) (arg : String) (rest : List String) : Taken :=
  match options.findIdx? (·.isBare arg) with
  | some i => match rest with
    | v :: more => if isValue v then .value i v more else .lacking
    | [] => .lacking
  | none =>
    match options.findIdx? fun o => (o.attached? arg).isSome with
    | some i => match (options[i]?).bind (·.attached? arg) with
      | some v => .value i v rest
      | none => .other
    | none => .other

def asksForHelp (arg : String) : Bool := arg == "-h" || arg == "--help"

/-- The options among some arguments, as numbers in `options` with their values, and the
arguments that are none, with at most `fuel` steps. After `--` no argument is an option. -/
def sortUpTo (options : List OptionName) :
    Nat → List String → Except Usage (List (Nat × String) × List String)
  | 0, _ => .error .misuse
  | _ + 1, [] => .ok ([], [])
  | fuel + 1, arg :: rest =>
    if arg == "--" then .ok ([], rest)
    else if asksForHelp arg then .error .help
    else match take options arg rest with
      | .lacking => .error .misuse
      | .value i v rest => (sortUpTo options fuel rest).map fun (vs, plain) => ((i, v) :: vs, plain)
      | .other =>
        if isValue arg then (sortUpTo options fuel rest).map fun (vs, plain) => (vs, arg :: plain)
        else .error .misuse

/-- The options among some arguments and the arguments that are none. Each step takes at least
one argument. -/
def sortArguments (options : List OptionName) (args : List String) :
    Except Usage (List (Nat × String) × List String) :=
  sortUpTo options (args.length + 1) args

def valuesOf (i : Nat) (given : List (Nat × String)) : List String :=
  (given.filter (·.1 = i)).map (·.2)

/-- The value of an option that may be given once. -/
def single (i : Nat) (given : List (Nat × String)) : Except Usage (Option String) :=
  match valuesOf i given with
  | [] => .ok none
  | [v] => .ok (some v)
  | _ => .error .misuse

/-! ## Commands -/

/-- A name and a value with the first equals sign between them. -/
def pair? (arg : String) : Option (String × String) :=
  match arg.toList.dropWhile (· != '=') with
  | _ :: value => some (String.ofList (arg.toList.takeWhile (· != '=')), String.ofList value)
  | [] => none

/-- The arguments of `sign` are names with values. -/
def readSign (args : List String) : Except Usage Command := do
  let (_, plain) ← sortArguments [] args
  match plain.mapM pair? with
  | some params => .ok (.sign params)
  | none => .error .misuse

def defaultThreshold : Nat := 10

/-- A threshold; a sign may stand before it. -/
def threshold? (text : String) : Option Nat :=
  match Decimal.readI64? text.toList with
  | some (.ofNat n) => if n ≤ Decimal.maxU32 then some n else none
  | _ => none

/-- The arguments of `push-config` are addresses to block, and at most one threshold. -/
def readPushConfig (args : List String) : Except Usage Command := do
  let (given, plain) ← sortArguments [⟨"block-ip", none⟩, ⟨"max-req-second", none⟩] args
  let threshold ← match ← single 1 given with
    | none => .ok defaultThreshold
    | some text => match threshold? text with
      | some n => .ok n
      | none => .error .misuse
  if plain.isEmpty then .ok (.pushConfig (valuesOf 0 given) threshold) else .error .misuse

def defaultUrl : String := "http://localhost:8080"

/-- The arguments of `health` are at most one address of a service. -/
def readHealth (args : List String) : Except Usage Command := do
  let (given, plain) ← sortArguments [⟨"url", some 'u'⟩] args
  let url ← single 0 given
  if plain.isEmpty then .ok (.health (url.getD defaultUrl)) else .error .misuse

def readCommand (name : String) (args : List String) : Except Usage Command :=
  if name == "sign" then readSign args
  else if name == "push-config" then readPushConfig args
  else if name == "health" then readHealth args
  else if name == "help" then .error .help
  else .error .misuse

/-! ## Invocations -/

def configOption : OptionName := ⟨"config", some 'c'⟩

/-- Reads options up to the command, with at most `fuel` steps. -/
def readUpTo : Nat → Option String → List String → Except Usage Invocation
  | 0, _, _ => .error .misuse
  | _ + 1, _, [] => .error .misuse
  | fuel + 1, config, arg :: rest =>
    if asksForHelp arg then .error .help
    else match take [configOption] arg rest with
      | .lacking => .error .misuse
      | .value _ path rest =>
        if config.isSome || path == "" then .error .misuse else readUpTo fuel (some path) rest
      | .other => (readCommand arg rest).map fun command => ⟨config, command⟩

/-- The invocation that some arguments are. Each step takes at least one of them. -/
def Invocation.ofArguments (args : List String) : Except Usage Invocation :=
  readUpTo (args.length + 1) none args

end AdmissionGate.CommandLine
