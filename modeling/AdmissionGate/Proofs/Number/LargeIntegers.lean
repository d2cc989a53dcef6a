-- Large integers as binary64 numbers. An integer is rounded to 53 bits, which
-- takes it past the largest number exactly from 2 ^ 1024 - 2 ^ 970 on; all
-- below it keep their size to within one bit.
import Mathlib.Algebra.Order.Ring.Nat
import AdmissionGate.Number.Binary64

namespace AdmissionGate.Binary64

/-! ## Rounding -/

theorem le_roundHalfEven (n d : Nat) : n / d ≤ roundHalfEven n d := by
  unfold roundHalfEven
  simp only
  split <;> omega

/-- An odd quotient is rounded up from the middle on. -/
theorem roundHalfEven_of_odd {n d : Nat} (h : n / d % 2 = 1) :
    roundHalfEven n d = if d ≤ 2 * (n % d) then n / d + 1 else n / d := by
  unfold roundHalfEven
  simp only [h, and_true]
  refine ite_congr (propext ?_) (fun _ => rfl) fun _ => rfl
  omega

theorem roundHalfEven_le (n d : Nat) : roundHalfEven n d ≤ n / d + 1 := by
  unfold roundHalfEven
  simp only
  split <;> omega

/-! ## Integers of more than 52 bits -/

variable {n : Nat}

/-- The bits of an integer beyond 53, which rounding drops. -/
def spareBits (n : Nat) : Nat := n.log2 - 52

theorem two_pow_spareBits_le (h : 2 ^ 52 ≤ n) :
    2 ^ 52 * 2 ^ spareBits n ≤ n ∧ n < 2 ^ 53 * 2 ^ spareBits n := by
  have hzero : n ≠ 0 := by omega
  have hlog : 52 ≤ n.log2 := (Nat.le_log2 hzero).mpr h
  have hlow : 2 ^ (52 + spareBits n) ≤ n := by
    rw [spareBits, Nat.add_sub_cancel' hlog]
    exact Nat.log2_self_le hzero
  have hhigh : n < 2 ^ (53 + spareBits n) := by
    have hbits : 53 + spareBits n = n.log2 + 1 := by rw [spareBits]; omega
    rw [hbits]
    exact Nat.lt_log2_self
  exact ⟨Nat.pow_add 2 _ _ ▸ hlow, Nat.pow_add 2 _ _ ▸ hhigh⟩

/-! ## The largest number -/

/-- Of the numbers with at most `top + 1` spare bits the largest is `(2 ^ 53 - 1) * 2 ^ (top + 1)`.
From the middle between it and the next power of two on, integers are rounded to the latter. -/
theorem exceeds_iff (h : 2 ^ 52 ≤ n) (top : Nat) :
    (top + 1 < spareBits n ∨
      spareBits n = top + 1 ∧ roundHalfEven n (2 ^ spareBits n) = 2 ^ 53) ↔
      (2 ^ 54 - 1) * 2 ^ top ≤ n := by
  obtain ⟨hlow, hhigh⟩ := two_pow_spareBits_le h
  rcases Nat.lt_trichotomy (spareBits n) (top + 1) with hless | heq | hmore
  · have hpow : 2 ^ spareBits n ≤ 2 ^ top := Nat.pow_le_pow_right (by decide) (by omega)
    omega
  · have hpow : 2 ^ spareBits n = 2 * 2 ^ top := by rw [heq, Nat.pow_succ']
    have hunit : 0 < 2 ^ top := Nat.two_pow_pos top
    rw [hpow] at hlow hhigh ⊢
    generalize 2 ^ top = unit at hlow hhigh hunit ⊢
    have hsplit := Nat.div_add_mod n (2 * unit)
    have hrest := Nat.mod_lt n (Nat.mul_pos (by decide : 0 < 2) hunit)
    have hquotient : n / (2 * unit) < 2 ^ 53 := Nat.div_lt_of_lt_mul (Nat.mul_comm _ _ ▸ hhigh)
    have hup := roundHalfEven_le n (2 * unit)
    by_cases hlast : n / (2 * unit) = 2 ^ 53 - 1
    · rw [roundHalfEven_of_odd (by omega)]
      rw [hlast] at hsplit ⊢
      split <;> omega
    · -- a smaller quotient leaves a whole step to the last one
      have hbelow : 2 * unit * (n / (2 * unit)) ≤ 2 * unit * (2 ^ 53 - 2) :=
        Nat.mul_le_mul_left _ (by omega)
      omega
  · have hpow : 2 ^ (top + 2) ≤ 2 ^ spareBits n := Nat.pow_le_pow_right (by decide) hmore
    rw [Nat.pow_add] at hpow
    omega

/-- The least integer that is rounded past the largest number. -/
def overflow : Nat := 2 ^ 1024 - 2 ^ 970

theorem two_pow_sub (k : Nat) : 2 ^ (54 + k) - 2 ^ k = (2 ^ 54 - 1) * 2 ^ k := by
  rw [Nat.pow_add, Nat.sub_one_mul]

theorem overflow_eq : overflow = (2 ^ 54 - 1) * 2 ^ 970 := by
  have hbits : 1024 = 54 + 970 := rfl
  rw [overflow, hbits, two_pow_sub 970]

theorem two_pow_le_ten_pow {a k m : Nat} (ha : a ≤ 205 * m) (hk : 62 * m ≤ k) :
    2 ^ a ≤ 10 ^ k :=
  calc 2 ^ a ≤ 2 ^ (205 * m) := Nat.pow_le_pow_right (by decide) ha
    _ = (2 ^ 205) ^ m := Nat.pow_mul 2 205 m
    _ ≤ (10 ^ 62) ^ m := Nat.pow_le_pow_left (by decide) m
    _ = 10 ^ (62 * m) := (Nat.pow_mul 10 62 m).symm
    _ ≤ 10 ^ k := Nat.pow_le_pow_right (by decide) hk

/-- A number of more than 310 digits is too large. -/
theorem overflow_le_ten_pow {k : Nat} (h : 310 ≤ k) : overflow ≤ 10 ^ k :=
  calc overflow ≤ 2 ^ 1024 := Nat.sub_le _ _
    _ ≤ 10 ^ k := two_pow_le_ten_pow (m := 5) (by decide) h

/-- An integer is rounded to 53 bits, or is too large. -/
theorem ofRatio_one (h : 2 ^ 52 ≤ n) (negative : Bool) :
    ofRatio negative n 1 =
      if n < overflow then
        some ⟨negative, roundHalfEven n (2 ^ spareBits n), spareBits n⟩
      else none := by
  have hzero : n ≠ 0 := by omega
  have hlog : 52 ≤ n.log2 := (Nat.le_log2 hzero).mpr h
  have hexponent : max (-1074) (floorLog n 1 - 52) = (spareBits n : Int) := by
    rw [floorLog, if_pos (by omega), Nat.div_one, spareBits]
    omega
  have hexceeds := exceeds_iff h 970
  rw [← overflow_eq] at hexceeds
  unfold ofRatio
  simp only [hzero, if_false, hexponent, Int.natCast_nonneg, if_true, Int.toNat_natCast,
    Nat.one_mul, Nat.pow_eq]
  generalize roundHalfEven n (2 ^ spareBits n) = m at hexceeds ⊢
  by_cases hlimit : n < overflow
  · rw [if_pos hlimit, if_neg]
    have hfits := mt hexceeds.mp (Nat.not_le.mpr hlimit)
    omega
  · rw [if_neg hlimit, if_pos]
    have hlarge := hexceeds.mpr (Nat.not_lt.mp hlimit)
    omega

/-! ## Cut to 64 bits -/

theorem truncate_natCast (negative : Bool) (m k : Nat) :
    truncate ⟨negative, m, k⟩ =
      if negative then - ((m * 2 ^ k : Nat) : Int) else (m * 2 ^ k : Nat) := by
  simp [truncate]

/-- A number that needs more than 63 bits still does when it is rounded. -/
theorem le_rounded (h : 2 ^ 63 ≤ n) :
    2 ^ 63 ≤ roundHalfEven n (2 ^ spareBits n) * 2 ^ spareBits n := by
  have hbits : 11 ≤ spareBits n := by
    have hlog : 63 ≤ n.log2 := (Nat.le_log2 (by omega)).mpr h
    rw [spareBits]
    omega
  have hquotient : 2 ^ 52 ≤ n / 2 ^ spareBits n :=
    (Nat.le_div_iff_mul_le (Nat.two_pow_pos _)).mpr (two_pow_spareBits_le (by omega)).1
  calc 2 ^ 63 = 2 ^ 52 * 2 ^ 11 := rfl
    _ ≤ roundHalfEven n (2 ^ spareBits n) * 2 ^ spareBits n :=
      Nat.mul_le_mul (Nat.le_trans hquotient (le_roundHalfEven _ _))
        (Nat.pow_le_pow_right (by decide) hbits)

/-- An integer beyond 64 bits is moved to the end of their range, unless it is too large to be
rounded at all. -/
theorem clampI64_ofRatio (h : 2 ^ 63 ≤ n) (negative : Bool) :
    (ofRatio negative n 1).map (Decimal.clampI64 ·.truncate) =
      if n < overflow then some (if negative then Decimal.minI64 else Decimal.maxI64)
      else none := by
  rw [ofRatio_one (by omega)]
  by_cases hlimit : n < overflow
  · rw [if_pos hlimit, if_pos hlimit, Option.map_some, truncate_natCast]
    have hrounded := le_rounded h
    generalize roundHalfEven n (2 ^ spareBits n) * 2 ^ spareBits n = size at hrounded ⊢
    unfold Decimal.clampI64 Decimal.minI64 Decimal.maxI64
    cases negative with
    | false =>
      simp only [Bool.false_eq_true, if_false, Option.some.injEq]
      omega
    | true =>
      simp only [if_true, Option.some.injEq]
      omega
  · rw [if_neg hlimit, if_neg hlimit, Option.map_none]

end AdmissionGate.Binary64
