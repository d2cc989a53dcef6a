-- The order of texts by their bytes. Of two characters the smaller one has the
-- smaller bytes, whatever follows them, so texts stand in the order of their
-- bytes, and one begins with another exactly if its bytes do.
import AdmissionGate.Proofs.Text.Utf8

namespace AdmissionGate.Bytes

/-! ## Bytes written as numbers -/

theorem ofNat_cons_lt_iff {m n : Nat} (hm : m < 256) (hn : n < 256) (s t : Bytes) :
    UInt8.ofNat m :: s < UInt8.ofNat n :: t ↔ m < n ∨ m = n ∧ s < t := by
  rw [List.cons_lt_cons_iff, UInt8.ofNat_lt_iff_lt hm hn, ← UInt8.toNat_inj, UInt8.toNat_ofNat',
    UInt8.toNat_ofNat', Nat.mod_eq_of_lt hm, Nat.mod_eq_of_lt hn]

/-- The bytes of a character: as many as its range asks for, with six bits in each but the first. -/
inductive Written (c : Char) : Bytes → Prop
  | one : c.toNat ≤ 0x7F → Written c [UInt8.ofNat c.toNat]
  | two : 0x7F < c.toNat → c.toNat ≤ 0x7FF →
      Written c [UInt8.ofNat (c.toNat / 64 % 32 + 0xC0), UInt8.ofNat (c.toNat % 64 + 0x80)]
  | three : 0x7FF < c.toNat → c.toNat ≤ 0xFFFF →
      Written c [UInt8.ofNat (c.toNat / 4096 % 16 + 0xE0), UInt8.ofNat (c.toNat / 64 % 64 + 0x80),
        UInt8.ofNat (c.toNat % 64 + 0x80)]
  | four : 0xFFFF < c.toNat → c.toNat < 0x110000 →
      Written c [UInt8.ofNat (c.toNat / 262144 % 8 + 0xF0),
        UInt8.ofNat (c.toNat / 4096 % 64 + 0x80), UInt8.ofNat (c.toNat / 64 % 64 + 0x80),
        UInt8.ofNat (c.toNat % 64 + 0x80)]

theorem written_utf8EncodeChar (c : Char) : Written c (String.utf8EncodeChar c) := by
  have hvalid : c.toNat < 0x110000 := by
    rcases c.valid with h | h
    · exact Nat.lt_trans h (by decide)
    · exact h.2
  unfold String.utf8EncodeChar
  simp only
  split
  next hone => exact .one hone
  next hone =>
    split
    next htwo => exact .two (Nat.not_le.mp hone) htwo
    next htwo =>
      split
      next hthree => exact .three (Nat.not_le.mp htwo) hthree
      next hthree => exact .four (Nat.not_le.mp hthree) hvalid

/-- The smaller of two characters has the smaller bytes, and neither begins with the other. -/
theorem utf8EncodeChar_append_lt {c d : Char} (h : c < d) (s t : Bytes) :
    String.utf8EncodeChar c ++ s < String.utf8EncodeChar d ++ t := by
  have hlt : c.toNat < d.toNat := h
  have hc := written_utf8EncodeChar c
  have hd := written_utf8EncodeChar d
  generalize String.utf8EncodeChar c = front at hc
  generalize String.utf8EncodeChar d = back at hd
  -- characters of different sizes differ in their first bytes; others either in the upper half of
  -- their digits in base 64 or only in the lower one
  have hhalves : c.toNat / 4096 < d.toNat / 4096 ∨ c.toNat / 4096 = d.toNat / 4096 := by omega
  rcases hhalves with hupper | hlower <;> cases hc <;> cases hd <;>
    simp only [List.cons_append, List.nil_append] <;>
    simp (disch := omega) only [ofNat_cons_lt_iff] <;> omega

/-! ## Texts -/

theorem utf8Encode_lt {l m : List Char} (h : l < m) :
    l.flatMap String.utf8EncodeChar < m.flatMap String.utf8EncodeChar := by
  induction h with
  | @nil d m =>
    rw [List.flatMap_cons]
    cases hd : String.utf8EncodeChar d with
    | nil => exact absurd hd String.utf8EncodeChar_ne_nil
    | cons b bs => exact List.nil_lt_cons b _
  | @cons c l m _ ih =>
    rw [List.flatMap_cons, List.flatMap_cons]
    exact List.append_left_lt ih
  | @rel c l d m hcd =>
    rw [List.flatMap_cons, List.flatMap_cons]
    exact utf8EncodeChar_append_lt hcd _ _

/-- Texts stand in the order of their bytes. -/
theorem ofText_lt_iff {s t : String} : ofText s < ofText t ↔ s < t := by
  constructor
  · intro h
    rcases Std.lt_trichotomy s t with hlt | rfl | hgt
    · exact hlt
    · exact absurd h (List.lt_irrefl _)
    · have hback := utf8Encode_lt (String.lt_iff.mp hgt)
      exact absurd (List.lt_trans h hback) (List.lt_irrefl _)
  · exact fun h => utf8Encode_lt (String.lt_iff.mp h)

theorem prefix_of_utf8Encode_prefix {l m : List Char}
    (h : l.flatMap String.utf8EncodeChar <+: m.flatMap String.utf8EncodeChar) : l <+: m := by
  induction l generalizing m with
  | nil => exact List.nil_prefix
  | cons c l ih =>
    obtain ⟨rest, hrest⟩ := h
    rw [List.flatMap_cons, List.append_assoc] at hrest
    cases m with
    | nil =>
      have hnil := (List.append_eq_nil_iff.mp hrest).1
      exact absurd hnil String.utf8EncodeChar_ne_nil
    | cons d m =>
      rw [List.flatMap_cons] at hrest
      rcases Std.lt_trichotomy c d with hlt | rfl | hgt
      · have hne := utf8EncodeChar_append_lt hlt (l.flatMap String.utf8EncodeChar ++ rest)
          (m.flatMap String.utf8EncodeChar)
        rw [hrest] at hne
        exact absurd hne (List.lt_irrefl _)
      · exact (List.prefix_cons_inj c).mpr (ih ⟨rest, List.append_cancel_left hrest⟩)
      · have hne := utf8EncodeChar_append_lt hgt (m.flatMap String.utf8EncodeChar)
          (l.flatMap String.utf8EncodeChar ++ rest)
        rw [hrest] at hne
        exact absurd hne (List.lt_irrefl _)

/-- One text begins with another exactly if its bytes do. -/
theorem ofText_prefix_iff {s t : String} :
    ofText s <+: ofText t ↔ s.toList <+: t.toList := by
  constructor
  · exact prefix_of_utf8Encode_prefix
  · rintro ⟨rest, hrest⟩
    refine ⟨rest.flatMap String.utf8EncodeChar, ?_⟩
    rw [ofText, ofText, ← hrest, List.flatMap_append]

end AdmissionGate.Bytes
