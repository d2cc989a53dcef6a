-- Request signatures. A signature is the MD5 digest of the signed parameters
-- in the order of their names, followed by a salt that the client selects.
import AdmissionGate.Table
import AdmissionGate.Text.Names
import AdmissionGate.Number.Lenient
import AdmissionGate.Digest.Md5

namespace AdmissionGate

/-- The decoded parameters of a query, one value for each name. -/
abbrev Params := Table String String

namespace Params

/-- The parameter that carries the signature. -/
def signature : String := "_sign"

/-- The parameter that selects the salt. -/
def saltVersion : String := "_sign_ver"

/-- The parameter that carries the client's clock. -/
def timestamp : String := "_timestamp"

/-- The value of a parameter, empty if it is missing. -/
def value (q : Params) (name : String) : String := (q.find? name).getD ""

end Params

/-- What signatures are made with: the names of the signed parameters, and the salts. -/
structure Signer where
  fields : List String
  defaultSalt : String
  salts : Table String String

namespace Signer

/-- A signer over these fields, in order and each once. -/
def make (fields : List String) (defaultSalt : String) (salts : Table String String) : Signer :=
  ⟨Names.sort fields, defaultSalt, salts⟩

/-- The number of the salt that a query selects. -/
def saltNumber (query : Params) : Int :=
  match query.find? Params.saltVersion with
  | some v => lenientInt v
  | none => 0

/-- The salt that a query selects: the one under its number, or else the default. -/
def saltFor (s : Signer) (query : Params) : String :=
  (s.salts.find? (toString (saltNumber query))).getD s.defaultSalt

/-- The text that is hashed: `name=value` for each field with `&` between them, and the salt. -/
def signingString (s : Signer) (query : Params) : String :=
  "&".intercalate (s.fields.map fun name => name ++ "=" ++ query.value name) ++ s.saltFor query

def sign (s : Signer) (query : Params) : String := Md5.hexDigest (s.signingString query)

def verify (s : Signer) (query : Params) : Bool :=
  query.value Params.signature == s.sign query

/-- The text depends on the values of the signed fields and on the salt alone. -/
theorem signingString_congr {s : Signer} {p q : Params}
    (hfields : ∀ name ∈ s.fields, p.value name = q.value name) (hsalt : s.saltFor p = s.saltFor q) :
    s.signingString p = s.signingString q := by
  have hmap : s.fields.map (fun name => name ++ "=" ++ p.value name) =
      s.fields.map (fun name => name ++ "=" ++ q.value name) :=
    List.map_congr_left fun name hname => by rw [hfields name hname]
  rw [signingString, signingString, hmap, hsalt]

/-- The salt depends on one parameter alone. -/
theorem saltFor_congr {s : Signer} {p q : Params}
    (h : p.find? Params.saltVersion = q.find? Params.saltVersion) : s.saltFor p = s.saltFor q := by
  rw [saltFor, saltFor, saltNumber, saltNumber, h]

end Signer

end AdmissionGate
