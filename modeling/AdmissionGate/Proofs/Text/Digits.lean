-- Numbers written in decimal digits, and read back from them.
import Mathlib.Data.List.Induction
import AdmissionGate.Proofs.Text.Utf8
import AdmissionGate.Text.Decimal

namespace AdmissionGate.Decimal

/-- A run ends where something comes that does not belong to it. -/
theorem takeWhile_run {α : Type} {p : α → Bool} {run rest : List α} (hrun : ∀ a ∈ run, p a = true)
    (hrest : ∀ a ∈ rest.head?, p a = false) :
    (run ++ rest).takeWhile p = run ∧ (run ++ rest).dropWhile p = rest := by
  rw [List.takeWhile_append_of_pos hrun, List.dropWhile_append_of_pos hrun]
  cases rest with
  | nil => simp
  | cons a more => simp [hrest a rfl]

theorem ofDigits_eq (ds : List Char) : ofDigits ds = Nat.ofDigitChars 10 ds 0 := by
  simp only [ofDigits, Nat.ofDigitChars_eq_foldl, Nat.mul_comm]

/-- A number is what its digits stand for. -/
theorem ofDigits_toDigits (n : Nat) : ofDigits (Nat.toDigits 10 n) = n := by
  rw [ofDigits_eq, Nat.ofDigitChars_ten_toDigits]

theorem isDigit_of_mem_toDigits {n : Nat} {c : Char} (h : c ∈ Nat.toDigits 10 n) :
    isDigit c = true := by
  have hdigit := Nat.isDigit_of_mem_toDigits (by omega) (by omega) h
  simpa [Char.isDigit, isDigit, Char.le_def] using hdigit

/-- No number but zero is written with a zero in front. -/
theorem head?_toDigits {n : Nat} (h : 0 < n) : (Nat.toDigits 10 n).head? ≠ some '0' := by
  induction n using Nat.strongRecOn with
  | ind n ih =>
    by_cases hlt : n < 10
    · have hall : ∀ n < 10, 0 < n → (Nat.toDigits 10 n).head? ≠ some '0' := by decide
      exact hall n hlt h
    · have hfront := ih (n / 10) (by omega) (by omega)
      rw [Nat.toDigits_of_base_le (by omega) (by omega), List.head?_append]
      cases hhead : (Nat.toDigits 10 (n / 10)).head? with
      | none => exact absurd (List.head?_eq_none_iff.mp hhead) Nat.toDigits_ne_nil
      | some c => rwa [hhead] at hfront

theorem leading_toDigits {n : Nat} (h : 1 < (Nat.toDigits 10 n).length) :
    (Nat.toDigits 10 n).head? ≠ some '0' := by
  refine head?_toDigits (Nat.pos_of_ne_zero ?_)
  rintro rfl
  simp [Nat.toDigits_zero] at h

theorem ofDigits_snoc (ds : List Char) (c : Char) :
    ofDigits (ds ++ [c]) = ofDigits ds * 10 + (c.toNat - '0'.toNat) := List.foldl_append

theorem toNat_of_isDigit {c : Char} (h : isDigit c = true) :
    '0'.toNat ≤ c.toNat ∧ c.toNat ≤ '9'.toNat := by
  unfold isDigit at h
  simp only [Bool.and_eq_true, decide_eq_true_eq] at h
  exact ⟨UInt32.le_iff_toNat_le.mp h.1, UInt32.le_iff_toNat_le.mp h.2⟩

theorem digitChar_of_isDigit {c : Char} (h : isDigit c = true) :
    Nat.digitChar (c.toNat - '0'.toNat) = c := by
  have hall : ∀ n < 10, Nat.digitChar n = Char.ofNat (n + '0'.toNat) := by decide
  obtain ⟨hlow, hhigh⟩ := toNat_of_isDigit h
  have hnine : '9'.toNat = '0'.toNat + 9 := rfl
  rw [hall _ (by omega), Nat.sub_add_cancel hlow, Char.ofNat_toNat]

/-- Digits without a leading zero are the digits of what they stand for. -/
theorem toDigits_ofDigits {ds : List Char} (hne : ds ≠ []) (hdigits : ∀ c ∈ ds, isDigit c = true)
    (hleading : 1 < ds.length → ds.head? ≠ some '0') : Nat.toDigits 10 (ofDigits ds) = ds := by
  induction ds using List.reverseRecOn with
  | nil => exact absurd rfl hne
  | append_singleton front c ih =>
    have hc : isDigit c = true := hdigits c (by simp)
    obtain ⟨hlow, hhigh⟩ := toNat_of_isDigit hc
    have hnine : '9'.toNat = '0'.toNat + 9 := rfl
    rw [ofDigits_snoc]
    by_cases hfront : front = []
    · subst hfront
      rw [ofDigits, List.foldl_nil, Nat.zero_mul, Nat.zero_add,
        Nat.toDigits_of_lt_base (by omega), digitChar_of_isDigit hc, List.nil_append]
    · have hhead : front.head? ≠ some '0' := by
        have hlong : 1 < (front ++ [c]).length := by
          have := List.length_pos_iff.mpr hfront
          simp only [List.length_append, List.length_singleton]
          omega
        have hlead := hleading hlong
        rwa [List.head?_append, List.head?_eq_some_head hfront, Option.some_or,
          ← List.head?_eq_some_head hfront] at hlead
      have hrest := ih hfront (fun d hd => hdigits d (by simp [hd])) (fun _ => hhead)
      have hpos : 0 < ofDigits front := by
        refine Nat.pos_of_ne_zero fun hzero => ?_
        rw [hzero, Nat.toDigits_zero] at hrest
        rw [← hrest] at hhead
        exact hhead rfl
      have hdiv : (ofDigits front * 10 + (c.toNat - '0'.toNat)) / 10 = ofDigits front := by omega
      have hmod : (ofDigits front * 10 + (c.toNat - '0'.toNat)) % 10 = c.toNat - '0'.toNat := by
        omega
      rw [Nat.toDigits_of_base_le (by omega) (by omega), hdiv, hmod, hrest,
        digitChar_of_isDigit hc]

theorem notMem_digits {ds : List Char} (h : ∀ c ∈ ds, isDigit c = true) {c : Char}
    (hc : isDigit c = false) : c ∉ ds := by
  intro hmem
  rw [h c hmem] at hc
  cases hc

theorem toNat_lt_of_isDigit {c : Char} (h : isDigit c = true) : c.toNat < 0x80 :=
  Nat.lt_of_le_of_lt (toNat_of_isDigit h).2 (by decide)

theorem readNat?_digits {ds : List Char} (hne : ds ≠ []) (h : ∀ c ∈ ds, isDigit c = true) :
    readNat? ds = some (ofDigits ds) := by
  rw [readNat?, List.isEmpty_eq_false_iff.mpr hne, List.all_eq_true.mpr h]
  rfl

theorem readNat?_toDigits (n : Nat) : readNat? (Nat.toDigits 10 n) = some n := by
  rw [readNat?_digits Nat.toDigits_ne_nil fun c hc => isDigit_of_mem_toDigits hc,
    ofDigits_toDigits]

/-- A number in range is read from its digits. -/
theorem readUpTo?_toString {n max : Nat} (h : n ≤ max) :
    readUpTo? max (toString n).toList = some n := by
  have hplus : ∀ rest, Nat.toDigits 10 n ≠ '+' :: rest := by
    intro rest heq
    have hplus : isDigit '+' = true := by
      apply isDigit_of_mem_toDigits (n := n)
      rw [heq]
      exact List.mem_cons_self
    cases hplus
  rw [Nat.toString_eq_ofList_toDigits, String.toList_ofList, readUpTo?]
  · simp [readNat?_toDigits, h]
  · exact hplus

end AdmissionGate.Decimal
