-- Writing JSON: strings with the shortest escapes, and arrays and objects
-- without blanks.
import AdmissionGate.Text.Hex

namespace AdmissionGate.Json

/-- The letter that stands for a character after a backslash. -/
def escapeLetter? (c : Char) : Option Char :=
  if c == '\x22' then some '\x22'
  else if c == '\\' then some '\\'
  else if c == '\x08' then some 'b'
  else if c == '\x09' then some 't'
  else if c == '\x0a' then some 'n'
  else if c == '\x0c' then some 'f'
  else if c == '\x0d' then some 'r'
  else none

/-- How a character is written in a string: quotes, backslashes and control characters are
escaped, all others stand for themselves. -/
def escape (c : Char) : List Char :=
  match escapeLetter? c with
  | some letter => ['\\', letter]
  | none =>
    if c.toNat < 0x20 then
      ['\\', 'u', '0', '0', Hex.digit (c.toNat / 16), Hex.digit (c.toNat % 16)]
    else [c]

def quote (s : String) : String :=
  String.ofList ('\x22' :: s.toList.flatMap escape ++ ['\x22'])

def writeArray (items : List String) : String := "[" ++ ",".intercalate items ++ "]"

def writeObject (fields : List (String × String)) : String :=
  "\x7b" ++ ",".intercalate (fields.map fun f => quote f.1 ++ ":" ++ f.2) ++ "\x7d"

end AdmissionGate.Json
