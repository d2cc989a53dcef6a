-- Reading back the bytes of a text. A character is written as one ASCII byte,
-- or as a lead byte and up to three tail bytes, and it is read from them
-- whatever follows.
import AdmissionGate.Text.Bytes

namespace AdmissionGate.Bytes

deriving instance DecidableEq for Pending

/-! ## Lead bytes -/

theorem ofLead_two : ∀ k < 32, 2 ≤ k →
    Pending.ofLead (UInt8.ofNat (k + 0xC0)) = some ⟨0, 0x80, 0xBF, k⟩ := by
  decide

theorem ofLead_three : ∀ k < 16, Pending.ofLead (UInt8.ofNat (k + 0xE0)) =
    some ⟨1, if k = 0 then 0xA0 else 0x80, if k = 0xD then 0x9F else 0xBF, k⟩ := by
  decide

theorem ofLead_four : ∀ k < 5, Pending.ofLead (UInt8.ofNat (k + 0xF0)) =
    some ⟨2, if k = 0 then 0x90 else 0x80, if k = 4 then 0x8F else 0xBF, k⟩ := by
  decide

/-- A byte that leads others begins a character. -/
theorem partsFrom_lead {n : Nat} {p : Pending} (hn : 0x80 ≤ n) (hn' : n < 0x100)
    (h : Pending.ofLead (UInt8.ofNat n) = some p) (rest : Bytes) :
    partsFrom none (UInt8.ofNat n :: rest) = partsFrom (some p) rest := by
  have hb : ¬ UInt8.ofNat n < 0x80 := by
    rw [UInt8.lt_iff_toNat_lt, UInt8.toNat_ofNat']
    simp
    omega
  rw [partsFrom, if_neg hb, h]

/-! ## Tail bytes -/

/-- The tail byte that carries the lowest six bits of a number. -/
def tailByte (n : Nat) : UInt8 := UInt8.ofNat (n % 64 + 0x80)

theorem toNat_tailByte (n : Nat) : (tailByte n).toNat = n % 64 + 0x80 := by
  rw [tailByte, UInt8.toNat_ofNat']
  omega

variable {low high : UInt8} {bits n : Nat}

/-- A tail byte in range adds its bits, and one tail byte fewer is to come. -/
theorem partsFrom_tail (more : Nat) (hlow : low.toNat ≤ n % 64 + 0x80)
    (hhigh : n % 64 + 0x80 ≤ high.toNat) (rest : Bytes) :
    partsFrom (some ⟨more + 1, low, high, bits⟩) (tailByte n :: rest) =
      partsFrom (some ⟨more, 0x80, 0xBF, bits * 64 + n % 64⟩) rest := by
  have hbits : (n % 64 + 0x80) % 64 = n % 64 := by omega
  rw [partsFrom, if_pos (by simp only [UInt8.le_iff_toNat_le, toNat_tailByte]; omega),
    toNat_tailByte, hbits]

/-- The last tail byte ends the character. -/
theorem partsFrom_lastTail (hlow : low.toNat ≤ n % 64 + 0x80)
    (hhigh : n % 64 + 0x80 ≤ high.toNat) (rest : Bytes) :
    partsFrom (some ⟨0, low, high, bits⟩) (tailByte n :: rest) =
      some (Char.ofNat (bits * 64 + n % 64)) :: partsFrom none rest := by
  have hbits : (n % 64 + 0x80) % 64 = n % 64 := by omega
  rw [partsFrom, if_pos (by simp only [UInt8.le_iff_toNat_le, toNat_tailByte]; omega),
    toNat_tailByte, hbits]

/-! ## Characters -/

theorem partsFrom_one (hn : n ≤ 0x7F) (rest : Bytes) :
    partsFrom none (UInt8.ofNat n :: rest) = some (Char.ofNat n) :: partsFrom none rest := by
  have hbyte : (UInt8.ofNat n).toNat = n := by
    rw [UInt8.toNat_ofNat']
    omega
  have hascii : UInt8.ofNat n < 0x80 := by
    rw [UInt8.lt_iff_toNat_lt, hbyte]
    simp
    omega
  rw [partsFrom, if_pos hascii, hbyte]

theorem partsFrom_two (hn : 0x7F < n) (hn' : n ≤ 0x7FF) (rest : Bytes) :
    partsFrom none (UInt8.ofNat (n / 64 % 32 + 0xC0) :: tailByte n :: rest) =
      some (Char.ofNat n) :: partsFrom none rest := by
  have hlead := ofLead_two (n / 64 % 32) (by omega) (by omega)
  have hbits : n / 64 % 32 * 64 + n % 64 = n := by omega
  rw [partsFrom_lead (by omega) (by omega) hlead, partsFrom_lastTail (by simp) (by simp; omega),
    hbits]

theorem partsFrom_three (hn : 0x7FF < n) (hn' : n ≤ 0xFFFF) (hvalid : n.isValidChar)
    (rest : Bytes) :
    partsFrom none (UInt8.ofNat (n / 4096 % 16 + 0xE0) :: tailByte (n / 64) :: tailByte n :: rest) =
      some (Char.ofNat n) :: partsFrom none rest := by
  have hlead := ofLead_three (n / 4096 % 16) (by omega)
  have hbits : (n / 4096 % 16 * 64 + n / 64 % 64) * 64 + n % 64 = n := by omega
  -- the narrower ranges keep out overlong forms and surrogates, which no character has
  rw [partsFrom_lead (by omega) (by omega) hlead,
    partsFrom_tail 0 (by split <;> simp; omega) (by split <;> (simp; omega)),
    partsFrom_lastTail (by simp) (by simp; omega), hbits]

theorem partsFrom_four (hn : 0xFFFF < n) (hvalid : n.isValidChar) (rest : Bytes) :
    partsFrom none (UInt8.ofNat (n / 262144 % 8 + 0xF0) :: tailByte (n / 4096) ::
      tailByte (n / 64) :: tailByte n :: rest) = some (Char.ofNat n) :: partsFrom none rest := by
  have hlead := ofLead_four (n / 262144 % 8) (by omega)
  have hbits : ((n / 262144 % 8 * 64 + n / 4096 % 64) * 64 + n / 64 % 64) * 64 + n % 64 = n := by
    omega
  rw [partsFrom_lead (by omega) (by omega) hlead,
    partsFrom_tail 1 (by split <;> simp; omega) (by split <;> (simp; omega)),
    partsFrom_tail 0 (by simp) (by simp; omega),
    partsFrom_lastTail (by simp) (by simp; omega), hbits]

/-- A character is read back from its bytes. -/
theorem partsFrom_utf8EncodeChar (c : Char) (rest : Bytes) :
    partsFrom none (String.utf8EncodeChar c ++ rest) = some c :: partsFrom none rest := by
  have hvalid : c.val.toNat.isValidChar := c.valid
  have hchar : Char.ofNat c.val.toNat = c := Char.ofNat_toNat c
  simp only [String.utf8EncodeChar]
  split
  case isTrue hone => rw [List.singleton_append, partsFrom_one hone, hchar]
  case isFalse hone =>
    split
    case isTrue htwo =>
      exact (partsFrom_two (by omega) htwo rest).trans (by rw [hchar])
    case isFalse htwo =>
      split
      case isTrue hthree =>
        exact (partsFrom_three (by omega) hthree hvalid rest).trans (by rw [hchar])
      case isFalse hthree =>
        exact (partsFrom_four (by omega) hvalid rest).trans (by rw [hchar])

/-- A property of all characters of ASCII can be computed. -/
theorem forall_ascii {P : Char → Prop} (h : ∀ n < 0x80, P (Char.ofNat n)) (c : Char)
    (hc : c.toNat < 0x80) : P c := by
  have hchar := h c.toNat hc
  rwa [Char.ofNat_toNat] at hchar

theorem utf8EncodeChar_of_ascii {c : Char} (h : c.toNat < 0x80) :
    String.utf8EncodeChar c = [UInt8.ofNat c.toNat] := by
  have hsize : c.val.toNat ≤ 0x7F := Nat.le_of_lt_succ h
  rw [String.utf8EncodeChar, if_pos hsize]
  rfl

/-- The bytes of a character that is not ASCII are not ASCII either. -/
theorem le_of_mem_utf8EncodeChar {c : Char} (h : 0x80 ≤ c.toNat) {b : UInt8}
    (hb : b ∈ String.utf8EncodeChar c) : 0x80 ≤ b := by
  have hone : ¬ c.val.toNat ≤ 0x7F := Nat.not_le.mpr h
  rw [UInt8.le_iff_toNat_le]
  simp only [String.utf8EncodeChar, if_neg hone] at hb
  split at hb
  · simp at hb
    rcases hb with rfl | rfl <;> simp <;> omega
  · split at hb
    · simp at hb
      rcases hb with rfl | rfl | rfl <;> simp <;> omega
    · simp at hb
      rcases hb with rfl | rfl | rfl | rfl <;> simp <;> omega

/-! ## Texts -/

theorem ofText_ascii {cs : List Char} (h : ∀ c ∈ cs, c.toNat < 0x80) :
    ofText (String.ofList cs) = cs.map fun c => UInt8.ofNat c.toNat := by
  rw [ofText_ofList]
  induction cs with
  | nil => rfl
  | cons c rest ih =>
    rw [List.flatMap_cons, utf8EncodeChar_of_ascii (h c List.mem_cons_self),
      ih fun d hd => h d (List.mem_cons_of_mem _ hd)]
    rfl

/-- A byte of ASCII is in a text only as the character that it stands for. -/
theorem mem_of_mem_ofText {s : String} {b : UInt8} (hascii : b < 0x80) (h : b ∈ ofText s) :
    Char.ofNat b.toNat ∈ s.toList := by
  obtain ⟨c, hc, hb⟩ := List.mem_flatMap.mp h
  by_cases hsmall : c.toNat < 0x80
  · rw [utf8EncodeChar_of_ascii hsmall, List.mem_singleton] at hb
    have hnat : b.toNat = c.toNat := by
      rw [hb, UInt8.toNat_ofNat', Nat.mod_eq_of_lt (by omega)]
    rwa [hnat, Char.ofNat_toNat]
  · exact absurd hascii (UInt8.not_lt.mpr (le_of_mem_utf8EncodeChar (Nat.not_lt.mp hsmall) hb))

theorem parts_ofText (s : String) : parts (ofText s) = s.toList.map some := by
  unfold parts ofText
  induction s.toList with
  | nil => rfl
  | cons c rest ih => rw [List.flatMap_cons, partsFrom_utf8EncodeChar, ih, List.map_cons]

theorem toText?_ofText (s : String) : toText? (ofText s) = some s := by
  have hall : ∀ l : List Char, (l.map some).mapM id = some l := by
    intro l
    induction l with
    | nil => rfl
    | cons c rest ih => simp [ih]
  rw [toText?, parts_ofText, hall, Option.map_some, String.ofList_toList]

/-- A text is what its bytes stand for. -/
theorem toTextLossy_ofText (s : String) : toTextLossy (ofText s) = s := by
  rw [toTextLossy, parts_ofText, List.map_map]
  exact (congrArg String.ofList (List.map_id _)).trans String.ofList_toList

end AdmissionGate.Bytes
