-- What is written as JSON is one of the texts of what is meant: a quoted text,
-- a number in its digits, and arrays and objects made up of such texts.
import Mathlib.Data.List.Forall2
import AdmissionGate.Json.Writer
import AdmissionGate.Proofs.Json.Documents

namespace AdmissionGate.Json

/-! ## Texts -/

theorem letter_of_escapeLetter? {c l : Char} (h : escapeLetter? c = some l) :
    (c, UInt8.ofNat l.toNat) ∈ letters ∧ l.toNat < 0x80 := by
  revert h
  fun_cases escapeLetter? c <;> rintro ⟨⟩ <;> simp_all [letters]

/-- A hexadecimal digit is written as one of the two that stand for its value. -/
theorem isHexDigit_digit {n : Nat} (h : n < 16) :
    IsHexDigit n (UInt8.ofNat (Hex.digit n).toNat) ∧ (Hex.digit n).toNat < 0x80 := by
  have hall : ∀ n < 16, (Hex.digit n).toNat < 0x80 := by decide
  exact ⟨⟨h, Or.inl (charOf_ofNat (hall n h))⟩, hall n h⟩

theorem spellsChar_escape (c : Char) :
    SpellsChar c (Bytes.ofText (String.ofList (escape c))) := by
  unfold escape
  split
  next l hl =>
    obtain ⟨hletter, hascii⟩ := letter_of_escapeLetter? hl
    rw [Bytes.ofText_ascii (by simpa using hascii)]
    exact .letter hletter
  next hnone =>
    split
    next hcontrol =>
      obtain ⟨hhigh, hhighAscii⟩ := isHexDigit_digit (n := c.toNat / 16) (by omega)
      obtain ⟨hlow, hlowAscii⟩ := isHexDigit_digit (n := c.toNat % 16) (by omega)
      have hzero : IsHexDigit 0 0x30 := ⟨by omega, Or.inl rfl⟩
      have hunit := IsUnit.mk hzero hzero hhigh hlow
      have hvalue : ((0 * 16 + 0) * 16 + c.toNat / 16) * 16 + c.toNat % 16 = c.toNat := by omega
      rw [hvalue] at hunit
      rw [Bytes.ofText_ascii (by simp [hhighAscii, hlowAscii])]
      exact .unit hunit
    next hcontrol =>
      have hquote : c ≠ '\x22' := by
        rintro rfl
        cases hnone
      have hslash : c ≠ '\\' := by
        rintro rfl
        cases hnone
      rw [Bytes.ofText_ofList, List.flatMap_singleton]
      exact .itself hquote hslash (Nat.le_of_not_lt hcontrol)

theorem spellsText_escape (cs : List Char) :
    SpellsText cs (Bytes.ofText (String.ofList (cs.flatMap escape))) := by
  induction cs with
  | nil => exact .nil
  | cons c rest ih =>
    rw [List.flatMap_cons, String.ofList_append, Bytes.ofText_append]
    exact .cons (spellsChar_escape c) ih

/-- A quoted text is a spelling of it. -/
theorem spells_quote (s : String) : Spells (.text (some s)) (Bytes.ofText (quote s)) := by
  have hquote : Bytes.ofText (quote s) =
      0x22 :: (Bytes.ofText (String.ofList (s.toList.flatMap escape)) ++ [0x22]) := by
    rw [quote, Bytes.ofText_ofList, Bytes.ofText_ofList]
    simp only [List.cons_append, List.flatMap_cons, List.flatMap_append, List.flatMap_nil]
    rfl
  rw [hquote]
  exact .text (spellsText_escape s.toList)

/-! ## Numbers -/

/-- The digits of a natural number. -/
def Numeral.ofNat (n : Nat) : Numeral := ⟨false, Nat.toDigits 10 n, none, none⟩

theorem Numeral.isStrict_ofNat (n : Nat) : (Numeral.ofNat n).IsStrict where
  nonempty := Nat.toDigits_ne_nil
  whole _ hc := Decimal.isDigit_of_mem_toDigits hc
  leading := Decimal.leading_toDigits
  fraction _ h := by cases h
  scale _ h := by cases h

/-- A natural number as a JSON value. -/
def ofNat (n : Nat) : Json := .number (Numeral.ofNat n).number

theorem upTo?_ofNat {n max : Nat} (h : n ≤ max) : (ofNat n).upTo? max = some n := by
  have hvalue : Decimal.ofDigits (Numeral.ofNat n).number.literal.whole = n :=
    Decimal.ofDigits_toDigits n
  rw [ofNat, upTo?]
  simp only [hvalue, h, decide_true, Bool.and_true]
  rfl

/-! ## Values -/

/-- Tokens one after another are spelled one after another, where no number runs on. -/
theorem SpellsAll.append {ts us : List Token} {bs rest : Bytes} (h : SpellsAll ts bs)
    (hends : EndsNumber rest) (hrest : SpellsAll us rest) : SpellsAll (ts ++ us) (bs ++ rest) := by
  induction h with
  | nil => exact hrest
  | blank hb _ ih => exact .blank hb ih
  | @cons t ts bs more hspells hnumber _ ih =>
    rw [List.append_assoc]
    refine .cons hspells (fun hn => ?_) ih
    cases more with
    | nil => exact hends
    | cons b more => exact hnumber hn

theorem Spells.one {t : Token} {bs : Bytes} (h : Spells t bs) : SpellsAll [t] bs := by
  have hall := SpellsAll.cons h (fun _ b hb => by cases hb) .nil
  rwa [List.append_nil] at hall

theorem isTextOf_quote (s : String) : IsTextOf (Bytes.ofText (quote s)) (.text (some s)) :=
  (spells_quote s).one

theorem isTextOf_toString (n : Nat) : IsTextOf (Bytes.ofText (toString n)) (ofNat n) := by
  have htext : (Numeral.ofNat n).text = Nat.toDigits 10 n := by
    simp [Numeral.ofNat, Numeral.text, Numeral.body, Numeral.fractionText, Numeral.scaleText]
  rw [Nat.toString_eq_ofList_toDigits, ← htext]
  exact (Spells.number (Numeral.isStrict_ofNat n)).one

/-- Parts with commas between them and a bracket behind them. -/
theorem spellsAll_intercalate {close : Token} {bracket : UInt8} (hclose : Spells close [bracket])
    (hends : EndsNumber [bracket]) {part : String} {parts : List String} {ts : List Token}
    {tss : List (List Token)} (hpart : SpellsAll ts (Bytes.ofText part))
    (hparts : List.Forall₂ (fun s ts => SpellsAll ts (Bytes.ofText s)) parts tss) :
    SpellsAll (ts ++ (tss.flatMap (.comma :: ·) ++ [close]))
      (Bytes.ofText (",".intercalate (part :: parts)) ++ [bracket]) := by
  induction hparts generalizing part ts with
  | nil =>
    rw [String.intercalate_singleton]
    exact hpart.append hends hclose.one
  | @cons next us parts tss hnext _ ih =>
    have hcomma : EndsNumber
        (0x2C :: (Bytes.ofText (",".intercalate (next :: parts)) ++ [bracket])) := by
      intro b hb
      cases hb
      decide
    have hbytes : Bytes.ofText (",".intercalate (part :: next :: parts)) ++ [bracket] =
        Bytes.ofText part ++
          (0x2C :: (Bytes.ofText (",".intercalate (next :: parts)) ++ [bracket])) := by
      rw [String.intercalate_cons_cons, Bytes.ofText_append, Bytes.ofText_append,
        List.append_assoc, List.append_assoc]
      rfl
    rw [hbytes, List.flatMap_cons, List.append_assoc]
    exact hpart.append hcomma (.cons .comma (by rintro ⟨n, h⟩; cases h) (ih hnext))

theorem moreItems_eq (vs : List Json) :
    moreItems vs = (vs.map tokens).flatMap (.comma :: ·) ++ [.closeArray] := by
  induction vs with
  | nil => rfl
  | cons v rest ih => simp [moreItems, ih]

/-- The tokens of a field. -/
def fieldTokens (f : Option String × Json) : List Token := .text f.1 :: .colon :: f.2.tokens

theorem moreFields_eq (fields : List (Option String × Json)) :
    moreFields fields = (fields.map fieldTokens).flatMap (.comma :: ·) ++ [.closeObject] := by
  induction fields with
  | nil => rfl
  | cons f rest ih => simp [moreFields, fieldTokens, ih]

/-- An array of texts of some values is a text of their array. -/
theorem isTextOf_writeArray {items : List String} {vs : List Json}
    (h : List.Forall₂ (fun s v => IsTextOf (Bytes.ofText s) v) items vs) :
    IsTextOf (Bytes.ofText (writeArray items)) (.array vs) := by
  rw [writeArray, Bytes.ofText_append, Bytes.ofText_append, List.append_assoc]
  cases h with
  | nil => exact .cons .openArray (by rintro ⟨n, h⟩; cases h) Spells.closeArray.one
  | cons hitem hitems =>
    rw [IsTextOf, tokens, moreItems_eq]
    refine .cons .openArray (by rintro ⟨n, h⟩; cases h) ?_
    refine spellsAll_intercalate .closeArray (by intro b hb; cases hb; decide) hitem ?_
    exact List.forall₂_map_right_iff.mpr hitems

/-- A field is written as its name and a text of its value. -/
structure IsFieldOf (f : String × String) (field : Option String × Json) : Prop where
  name : field.1 = some f.1
  value : IsTextOf (Bytes.ofText f.2) field.2

theorem spellsAll_field {f : String × String} {field : Option String × Json}
    (h : IsFieldOf f field) :
    SpellsAll (fieldTokens field) (Bytes.ofText (quote f.1 ++ ":" ++ f.2)) := by
  rw [Bytes.ofText_append, Bytes.ofText_append, List.append_assoc, fieldTokens, h.name]
  refine .cons (spells_quote f.1) (by rintro ⟨n, h⟩; cases h) ?_
  exact .cons .colon (by rintro ⟨n, h⟩; cases h) h.value

/-- An object of texts of some values is a text of their object. -/
theorem isTextOf_writeObject {fields : List (String × String)}
    {values : List (Option String × Json)} (h : List.Forall₂ IsFieldOf fields values) :
    IsTextOf (Bytes.ofText (writeObject fields)) (.object values) := by
  rw [writeObject, Bytes.ofText_append, Bytes.ofText_append, List.append_assoc]
  cases h with
  | nil => exact .cons .openObject (by rintro ⟨n, h⟩; cases h) Spells.closeObject.one
  | cons hfield hfields =>
    rw [IsTextOf, tokens, moreFields_eq]
    refine .cons .openObject (by rintro ⟨n, h⟩; cases h) ?_
    refine spellsAll_intercalate .closeObject (by intro b hb; cases hb; decide)
      (spellsAll_field hfield) ?_
    rw [List.forall₂_map_left_iff, List.forall₂_map_right_iff]
    exact hfields.imp fun f field h => spellsAll_field h

end AdmissionGate.Json
