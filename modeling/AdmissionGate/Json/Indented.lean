-- JSON for people to read: a value with a line for each item or field,
-- indented by two spaces, and the fields in the order of their names.
import AdmissionGate.Json.Writer
import AdmissionGate.Number.Shortest
import AdmissionGate.Value

namespace AdmissionGate.Value

/-- The start of a line `depth` levels deep. -/
def indent (depth : Nat) : String := "\n" ++ String.ofList (List.replicate (2 * depth) ' ')

/-- Lines between two brackets, which stand close together if there is no line. -/
def bracketed (opening closing : String) (depth : Nat) (lines : List String) : String :=
  if lines.isEmpty then opening ++ closing
  else
    opening ++ indent (depth + 1) ++ ("," ++ indent (depth + 1)).intercalate lines
      ++ indent depth ++ closing

/-- Puts a field at its place among fields in the order of their names. -/
def insertField (f : String × String) : List (String × String) → List (String × String)
  | [] => [f]
  | g :: rest => if f.1 < g.1 then f :: g :: rest else g :: insertField f rest

mutual

/-- The text of a value that stands `depth` levels deep. -/
def indented (depth : Nat) : Value → String
  | .null => "null"
  | .bool b => if b then "true" else "false"
  | .int n => toString n
  | .float x => x.toText
  | .text s => Json.quote s
  | .list items => bracketed "[" "]" depth (indentedItems (depth + 1) items)
  | .map fields =>
    bracketed "\x7b" "\x7d" depth
      (((indentedFields (depth + 1) fields).foldr insertField []).map fun f =>
        Json.quote f.1 ++ ": " ++ f.2)

def indentedItems (depth : Nat) : List Value → List String
  | [] => []
  | v :: rest => indented depth v :: indentedItems depth rest

def indentedFields (depth : Nat) : List (String × Value) → List (String × String)
  | [] => []
  | (name, v) :: rest => (name, indented depth v) :: indentedFields depth rest

end

def toIndentedText (v : Value) : String := v.indented 0

end AdmissionGate.Value
