-- Keyword screening: bytes are refused when a word of SQL or of the shell
-- stands in them as a whole word, in any mixture of cases.
import AdmissionGate.Text.Bytes

namespace AdmissionGate

/-- The words that are screened for, in lower case. Without any, nothing is refused. -/
structure KeywordFilter where
  words : List Bytes

namespace KeywordFilter

/-! ## Words -/

/-- ASCII letters, digits and the underscore make up words; every other byte parts them. -/
def isWordByte (b : UInt8) : Bool :=
  (0x30 ≤ b && b ≤ 0x39) || (0x41 ≤ b && b ≤ 0x5A) || b == 0x5F || (0x61 ≤ b && b ≤ 0x7A)

/-- ASCII letters in lower case, all other bytes as they are. -/
def lowerByte (b : UInt8) : UInt8 := if 0x41 ≤ b && b ≤ 0x5A then b + 0x20 else b

/-! ## The filters -/

def dangerousWords : List String :=
  ["shell", "exec", "select", "update", "delete", "insert", "truncate", "trancate", "char",
    "chr", "substr", "ascii", "declare", "master", "drop", "execute"]

def standard : KeywordFilter := ⟨dangerousWords.map Bytes.ofText⟩

/-- The pattern that stands for the standard filter. -/
def standardPattern : String :=
  "(?i-u)\\b(" ++ "|".intercalate dangerousWords ++ ")\\b"

/-- The filter of a pattern. Only the standard pattern is understood. With any other one
screening is off, as it is with a pattern that is malformed: a well-formed pattern of another
text, by which a general matcher would screen, screens for nothing here. -/
def ofPattern (pattern : String) : KeywordFilter :=
  if pattern = standardPattern then standard else ⟨[]⟩

/-! ## Matching -/

/-- Whether `word` stands at the front of `bs` in any case, with no word byte after it. -/
def standsAt : Bytes → Bytes → Bool
  | [], [] => true
  | [], b :: _ => !isWordByte b
  | _ :: _, [] => false
  | w :: word, b :: bs => lowerByte b == w && standsAt word bs

/-- Whether a screened word stands somewhere in the bytes; `afterWord` tells whether a word
byte came just before them. -/
def matchesFrom (f : KeywordFilter) (afterWord : Bool) : Bytes → Bool
  | [] => false
  | b :: bs =>
    (!afterWord && f.words.any (standsAt · (b :: bs))) || f.matchesFrom (isWordByte b) bs

/-- Whether a screened word stands somewhere in the bytes as a whole word. -/
def isDangerous (f : KeywordFilter) (bs : Bytes) : Bool := f.matchesFrom false bs

end KeywordFilter

end AdmissionGate
