-- The symbols of a query in the encoding of forms: bytes that are written as
-- they are, and escapes. A query is what its symbols are written as, and it is
-- read as what they mean.
import AdmissionGate.Proofs.Text.FormEncoding

namespace AdmissionGate.FormEncoding

/-- A byte with a space for a plus sign. -/
def spacedByte (b : UInt8) : UInt8 := if b == 0x2B then 0x20 else b

/-- A byte that stands for itself, though a plus sign for a space, or the escape of a byte. -/
inductive Symbol where
  | plain (b : UInt8)
  | escape (high low b : UInt8) (reads : Percent.byte? high low = some b)

namespace Symbol

def written : Symbol → Bytes
  | plain b => [b]
  | escape high low _ _ => [0x25, high, low]

def meant : Symbol → UInt8
  | plain b => spacedByte b
  | escape _ _ b _ => b

def isEscape : Symbol → Bool
  | plain _ => false
  | escape .. => true

end Symbol

/-- The symbols of some bytes, told apart as decoding tells them apart. -/
def symbols : Bytes → List Symbol
  | 0x25 :: high :: low :: rest =>
    match h : Percent.byte? high low with
    | some b => .escape high low b h :: symbols rest
    | none => .plain 0x25 :: symbols (high :: low :: rest)
  | b :: rest => .plain b :: symbols rest
  | [] => []

theorem flatMap_written_symbols (bs : Bytes) : (symbols bs).flatMap Symbol.written = bs := by
  fun_induction symbols bs <;> simp_all [Symbol.written]

theorem spaced_cons (b : UInt8) (rest : Bytes) :
    spaced (b :: rest) = spacedByte b :: spaced rest := rfl

theorem isDigit_spacedByte_iff {b : UInt8} :
    Percent.IsDigit (spacedByte b) ↔ Percent.IsDigit b := by
  by_cases hb : b = 0x2B
  · subst hb
    unfold Percent.IsDigit
    decide
  · simp [spacedByte, hb]

theorem spacedByte_of_isDigit {b : UInt8} (h : Percent.IsDigit b) : spacedByte b = b := by
  simp [spacedByte, ne_plus_of_isDigit h]

theorem eq_percent_of_spacedByte {b : UInt8} (h : spacedByte b = 0x25) : b = 0x25 := by
  unfold spacedByte at h
  split at h
  · cases h
  · exact h

theorem map_meant_symbols (bs : Bytes) :
    (symbols bs).map Symbol.meant = Percent.decode (spaced bs) := by
  fun_induction symbols bs with
  | case1 high low rest b hbyte ih =>
    obtain ⟨hhigh, hlow⟩ := Percent.isDigit_of_byte? hbyte
    rw [spaced_cons, spaced_cons, spaced_cons, spacedByte_of_isDigit hhigh,
      spacedByte_of_isDigit hlow, List.map_cons, ih]
    exact (Percent.decode_escape hbyte _).symm
  | case2 high low rest hbyte ih =>
    have hnone := Percent.byte?_eq_none_iff.mp hbyte
    rw [spaced_cons, List.map_cons, ih]
    refine (Percent.decode_percent fun first second more hmore => ?_).symm
    rw [spaced_cons, spaced_cons] at hmore
    cases hmore
    rwa [isDigit_spacedByte_iff, isDigit_spacedByte_iff]
  | case3 b rest hplain ih =>
    rw [spaced_cons, List.map_cons, ih]
    refine (Percent.decode_unescaped fun high low more hb hmore => ?_).symm
    obtain ⟨_, _, rfl, -, hmore⟩ := List.map_eq_cons_iff.mp hmore
    obtain ⟨_, _, rfl, -, -⟩ := List.map_eq_cons_iff.mp hmore
    exact hplain _ _ _ (eq_percent_of_spacedByte hb) rfl
  | case4 => rfl

end AdmissionGate.FormEncoding
