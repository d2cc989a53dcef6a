-- Bytes, and the text they stand for in UTF-8. Bytes that are no text are
-- kept apart as ill-formed parts, so that a strict reading can refuse them
-- and a lenient one can put U+FFFD in their place.

namespace AdmissionGate

abbrev Bytes := List UInt8

namespace Bytes

/-- A property of all bytes can be computed, row by row of sixteen. -/
theorem forall_byte {P : UInt8 → Prop}
    (h : ∀ high < 16, ∀ low < 16, P (UInt8.ofNat (high * 16 + low))) (b : UInt8) : P b := by
  have hb := b.toNat_lt
  have hsplit : b.toNat / 16 * 16 + b.toNat % 16 = b.toNat := by omega
  have hrow := h (b.toNat / 16) (by omega) (b.toNat % 16) (by omega)
  rwa [hsplit, UInt8.ofNat_toNat] at hrow

/-! ## Text to bytes -/

def ofText (s : String) : Bytes := s.toList.flatMap String.utf8EncodeChar

theorem ofText_append (s t : String) : ofText (s ++ t) = ofText s ++ ofText t := by
  simp [ofText]

theorem ofText_intercalate (sep : String) (parts : List String) :
    ofText (sep.intercalate parts) = (ofText sep).intercalate (parts.map ofText) := by
  induction parts with
  | nil => simp [ofText]
  | cons part more ih =>
    cases more with
    | nil => simp
    | cons next more => simp_all [ofText_append]

theorem ofText_ofList (s : List Char) :
    ofText (String.ofList s) = s.flatMap String.utf8EncodeChar := by
  simp [ofText]

theorem ofText_inj {s t : String} : ofText s = ofText t ↔ s = t := by
  constructor
  · intro h
    rw [← String.toByteArray_inj, ← String.utf8Encode_toList, ← String.utf8Encode_toList]
    exact congrArg List.toByteArray h
  · exact congrArg ofText

/-- Fewer characters are fewer bytes. -/
theorem ofText_sublist {s t : List Char} (h : s.Sublist t) :
    (ofText (String.ofList s)).Sublist (ofText (String.ofList t)) := by
  simp only [ofText_ofList]
  induction h with
  | slnil => exact List.Sublist.refl _
  | cons c _ ih => exact ih.trans (List.sublist_append_right _ _)
  | cons_cons c _ ih => exact (List.Sublist.refl _).append ih

/-! ## Bytes to text -/

/-- A character whose first bytes have been read: the continuation bytes that are still
to come after the next one, the range the next one must lie in, and the bits so far. -/
structure Pending where
  more : Nat
  low : UInt8
  high : UInt8
  bits : Nat

/-- What a byte of 0x80 or above begins, if it begins a character at all. The narrower
ranges rule out overlong forms, surrogates and code points past U+10FFFF. -/
def Pending.ofLead (b : UInt8) : Option Pending :=
  if 0xC2 ≤ b ∧ b ≤ 0xDF then some ⟨0, 0x80, 0xBF, b.toNat - 0xC0⟩
  else if b = 0xE0 then some ⟨1, 0xA0, 0xBF, 0⟩
  else if b = 0xED then some ⟨1, 0x80, 0x9F, 0xD⟩
  else if 0xE1 ≤ b ∧ b ≤ 0xEF then some ⟨1, 0x80, 0xBF, b.toNat - 0xE0⟩
  else if b = 0xF0 then some ⟨2, 0x90, 0xBF, 0⟩
  else if 0xF1 ≤ b ∧ b ≤ 0xF3 then some ⟨2, 0x80, 0xBF, b.toNat - 0xF0⟩
  else if b = 0xF4 then some ⟨2, 0x80, 0x8F, 4⟩
  else none

/-- The characters of a byte string, with `none` for each longest ill-formed part. -/
def partsFrom : Option Pending → Bytes → List (Option Char)
  | none, [] => []
  | some _, [] => [none]
  | none, b :: rest =>
    if b < 0x80 then some (Char.ofNat b.toNat) :: partsFrom none rest
    else match Pending.ofLead b with
      | some p => partsFrom (some p) rest
      | none => none :: partsFrom none rest
  | some p, b :: rest =>
    if p.low ≤ b ∧ b ≤ p.high then
      let bits := p.bits * 64 + b.toNat % 64
      match p.more with
      | 0 => some (Char.ofNat bits) :: partsFrom none rest
      | more + 1 => partsFrom (some ⟨more, 0x80, 0xBF, bits⟩) rest
    else if b < 0x80 then none :: some (Char.ofNat b.toNat) :: partsFrom none rest
    else match Pending.ofLead b with
      | some q => none :: partsFrom (some q) rest
      | none => none :: none :: partsFrom none rest

def parts (bs : Bytes) : List (Option Char) := partsFrom none bs

/-- The text of a byte string, if all of it is UTF-8. -/
def toText? (bs : Bytes) : Option String :=
  ((parts bs).mapM id).map String.ofList

/-- The text of a byte string, with U+FFFD for each ill-formed part. -/
def toTextLossy (bs : Bytes) : String :=
  String.ofList ((parts bs).map (·.getD '\uFFFD'))

/-- Whether `part` occurs in `bs` as a run of neighbouring bytes. -/
def holds (part : Bytes) : Bytes → Bool
  | [] => part.isEmpty
  | b :: rest => part.isPrefixOf (b :: rest) || holds part rest

end Bytes

end AdmissionGate
