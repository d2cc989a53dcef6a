-- HTTP requests as the gate sees them: method, target, headers and body, and
-- what the headers say about the client.
import AdmissionGate.Address.Client
import AdmissionGate.Text.Bytes

namespace AdmissionGate.Http

/-! ## Headers -/

abbrev Headers := List (String × Bytes)

/-- A byte that a header value may hold if it is to be read as text. -/
def isTextByte (b : UInt8) : Bool := b == 0x09 || (0x20 ≤ b && b ≤ 0x7E)

/-- The value of the first header of a name, which is given in lower case. -/
def Headers.find? (hs : Headers) (name : String) : Option Bytes :=
  (List.find? (fun h => Text.lowerAscii h.1 == name) hs).map (·.2)

/-- The text of the first header of a name, unless it holds other than visible ASCII. -/
def Headers.text? (hs : Headers) (name : String) : Option String :=
  match hs.find? name with
  | some value => if value.all isTextByte then Bytes.toText? value else none
  | none => none

/-! ## Targets -/

/-- What a request asks for: a path, and the query behind it, both as they came. -/
structure Target where
  path : String
  query : Option String
  deriving DecidableEq

/-- The target of an origin form: a path, and after a question mark the query. -/
def Target.ofOrigin (s : List Char) : Target :=
  let path := s.takeWhile (· != '?')
  let query := match s.dropWhile (· != '?') with
    | _ :: query => some (String.ofList query)
    | [] => none
  ⟨if path.isEmpty then "/" else String.ofList path, query⟩

/-- What follows `://`, if it occurs. -/
def afterScheme? : List Char → Option (List Char)
  | ':' :: '/' :: '/' :: rest => some rest
  | _ :: rest => afterScheme? rest
  | [] => none

/-- The target of a URI: an origin form, `*`, an absolute URI, or a bare authority, which has
no path. A fragment does not belong to it. -/
def Target.ofText (uri : String) : Target :=
  let s := uri.toList.takeWhile (· != '#')
  match s with
  | '/' :: _ => ofOrigin s
  | ['*'] => ⟨"*", none⟩
  | _ => match afterScheme? s with
    | some rest => ofOrigin (rest.dropWhile fun c => c != '/' && c != '?')
    | none => ⟨"", none⟩

/-! ## Requests -/

structure Request where
  method : String
  target : Target
  headers : Headers
  /-- The body as it was read, `none` if it did not arrive in time. -/
  body : Option Bytes

/-- A text without blanks around it, unless nothing is left. -/
def nonBlank? (s : String) : Option String :=
  let t := Text.trim s
  if t == "" then none else some t

/-- The client that the forwarding headers name: the first address of `X-Forwarded-For`, or
else the one of `X-Real-IP`. -/
def forwardedClient? (hs : Headers) : Option ClientAddress :=
  let hop := (hs.text? "x-forwarded-for").bind fun v =>
    nonBlank? (String.ofList (v.toList.takeWhile (· != ',')))
  hop.or ((hs.text? "x-real-ip").bind nonBlank?)

/-- The client's address. The forwarding headers count only behind a proxy. -/
def clientAddress (hs : Headers) (peer : Ip) (behindProxy : Bool) : ClientAddress :=
  ((if behindProxy then forwardedClient? hs else none)).getD peer.toText

/-- Whether the body is an upload, by the type that it is said to have. -/
def isUpload (hs : Headers) : Bool :=
  ((hs.text? "content-type").map fun v =>
    Text.startsWith (Text.lowerAscii (Text.trimStart v)) "multipart/form-data").getD false

end AdmissionGate.Http
