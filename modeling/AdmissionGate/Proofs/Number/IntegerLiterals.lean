-- Integers as clients write them: digits without a limit of length, perhaps
-- with a sign, between blanks. One of 64 bits is read as it is, a larger one
-- as the end of their range, and one too large for a binary64 number as zero.
import AdmissionGate.Firewall.Signer
import AdmissionGate.Proofs.Number.LargeIntegers
import AdmissionGate.Proofs.Address.Dotted
import AdmissionGate.Proofs.Text.Digits

namespace AdmissionGate

open Decimal

/-! ## Leading zeros -/

namespace Decimal

theorem ofDigits_cons (c : Char) (ds : List Char) :
    ofDigits (c :: ds) = 10 ^ ds.length * (c.toNat - '0'.toNat) + ofDigits ds := by
  rw [ofDigits_eq, Nat.ofDigitChars_cons, Nat.ofDigitChars_eq_ofDigitChars_zero, ofDigits_eq,
    Nat.mul_zero, Nat.zero_add]

theorem ofDigits_dropWhile_zero (ds : List Char) :
    ofDigits (ds.dropWhile (· == '0')) = ofDigits ds := by
  induction ds with
  | nil => rfl
  | cons c ds ih =>
    by_cases hc : c = '0'
    · subst hc
      rw [List.dropWhile_cons_of_pos (by simp), ih, ofDigits_cons, Nat.sub_self, Nat.mul_zero,
        Nat.zero_add]
    · rw [List.dropWhile_cons_of_neg (by simpa using hc)]

/-- Digits without a leading zero make a number as long as they are. -/
theorem pow_le_ofDigits {c : Char} {ds : List Char} (hc : isDigit c = true) (hzero : c ≠ '0') :
    10 ^ ds.length ≤ ofDigits (c :: ds) := by
  have hlow := (toNat_of_isDigit hc).1
  have hne : c.toNat ≠ '0'.toNat := fun h => hzero (Char.toNat_inj.mp h)
  rw [ofDigits_cons]
  exact Nat.le_add_right_of_le (Nat.le_mul_of_pos_right _ (by omega))

end Decimal

/-! ## Literals -/

inductive Sign where
  | absent
  | plus
  | minus

namespace Sign

def chars : Sign → List Char
  | absent => []
  | plus => ['+']
  | minus => ['-']

theorem isBlank_of_mem_chars {s : Sign} {c : Char} (h : c ∈ s.chars) : Text.isBlank c = false := by
  cases s with
  | absent => cases h
  | plus =>
    rw [List.mem_singleton.mp h]
    decide
  | minus =>
    rw [List.mem_singleton.mp h]
    decide

/-- Whether a number with this sign is below zero, or would be if it were not zero. -/
def isNegative : Sign → Bool
  | minus => true
  | _ => false

end Sign

/-- An integer as it is written: perhaps a sign, and at least one digit. -/
structure IntegerLiteral where
  sign : Sign
  digits : List Char
  nonempty : digits ≠ []
  areDigits : ∀ c ∈ digits, isDigit c = true

namespace IntegerLiteral

variable (l : IntegerLiteral)

def chars : List Char := l.sign.chars ++ l.digits

/-- The number that the digits stand for, without the sign. -/
def size : Nat := Nat.ofDigitChars 10 l.digits 0

def value : Int := if l.sign.isNegative then - (l.size : Int) else l.size

theorem size_eq : l.size = ofDigits l.digits := (ofDigits_eq _).symm

/-! ## Reading -/

/-- A digit is none of the signs. -/
theorem not_sign_of_isDigit {c : Char} (h : isDigit c = true) : c ≠ '-' ∧ c ≠ '+' := by
  constructor <;> rintro rfl <;> cases h

theorem readI64?_chars : readI64? l.chars =
    if minI64 ≤ l.value ∧ l.value ≤ maxI64 then some l.value else none := by
  have hread : readNat? l.digits = some l.size := by
    rw [readNat?_digits l.nonempty l.areDigits, size_eq]
  have hrange : ∀ n : Int, (some n).filter (fun n => minI64 ≤ n && n ≤ maxI64) =
      if minI64 ≤ n ∧ n ≤ maxI64 then some n else none := by
    intro n
    simp [Option.filter]
  rw [← hrange]
  obtain ⟨sign, digits, hne, hdigits⟩ := l
  cases sign with
  | absent =>
    obtain ⟨c, ds, rfl⟩ := List.exists_cons_of_ne_nil hne
    obtain ⟨hminus, hplus⟩ := not_sign_of_isDigit (hdigits c List.mem_cons_self)
    show readI64? (c :: ds) = _
    unfold readI64?
    split
    next heq => exact absurd (List.head_eq_of_cons_eq heq) hminus
    next heq => exact absurd (List.head_eq_of_cons_eq heq) hplus
    next =>
      rw [hread]
      rfl
  | plus =>
    show readI64? ('+' :: digits) = _
    rw [readI64?, hread]
    rfl
  | minus =>
    show readI64? ('-' :: digits) = _
    rw [readI64?, hread]
    rfl

theorem read?_chars :
    DecimalLiteral.read? l.chars = some ⟨l.sign.isNegative, l.digits, [], 0⟩ := by
  have hall : l.digits.takeWhile isDigit = l.digits ∧ l.digits.dropWhile isDigit = [] := by
    have hrun := @takeWhile_run _ _ _ [] l.areDigits (by simp)
    rwa [List.append_nil] at hrun
  obtain ⟨sign, digits, hne, hdigits⟩ := l
  have hsome : digits.isEmpty = false := List.isEmpty_eq_false_iff.mpr hne
  cases sign with
  | absent =>
    obtain ⟨c, ds, rfl⟩ := List.exists_cons_of_ne_nil hne
    obtain ⟨hminus, hplus⟩ := not_sign_of_isDigit (hdigits c List.mem_cons_self)
    show DecimalLiteral.read? (c :: ds) = _
    unfold DecimalLiteral.read?
    split
    next negative body heq =>
      split at heq
      next hsign => exact absurd (List.head_eq_of_cons_eq hsign) hminus
      next hsign => exact absurd (List.head_eq_of_cons_eq hsign) hplus
      next =>
        cases heq
        simp [hall, DecimalLiteral.readScale?, Sign.isNegative]
  | plus =>
    show DecimalLiteral.read? ('+' :: digits) = _
    simp [DecimalLiteral.read?, hall, hsome, DecimalLiteral.readScale?, Sign.isNegative]
  | minus =>
    show DecimalLiteral.read? ('-' :: digits) = _
    simp [DecimalLiteral.read?, hall, hsome, DecimalLiteral.readScale?, Sign.isNegative]

theorem toBinary64?_whole (negative : Bool) :
    DecimalLiteral.toBinary64? ⟨negative, l.digits, [], 0⟩ =
      Binary64.ofRatio negative l.size 1 := by
  have hhead := List.head?_dropWhile_not (· == '0') l.digits
  have hdigits : ∀ c ∈ l.digits.dropWhile (· == '0'), isDigit c = true := fun c hc =>
    l.areDigits c ((List.dropWhile_sublist _).mem hc)
  rw [size_eq, ← ofDigits_dropWhile_zero]
  unfold DecimalLiteral.toBinary64?
  simp only [List.append_nil, List.length_nil]
  cases hleading : l.digits.dropWhile (· == '0') with
  | nil => rfl
  | cons c ds =>
    rw [hleading] at hhead hdigits
    have hc : isDigit c = true := hdigits c List.mem_cons_self
    have hzero : c ≠ '0' := by simpa using hhead
    have hlong : 10 ^ ds.length ≤ ofDigits (c :: ds) := pow_le_ofDigits hc hzero
    simp only [List.isEmpty_cons, List.length_cons, Bool.false_or, decide_eq_true_eq]
    rw [if_neg (by omega)]
    split
    next hmany =>
      have hlength : 310 ≤ ds.length := by omega
      have hlimit := Nat.le_trans (Binary64.overflow_le_ten_pow hlength) hlong
      have hlarge : 2 ^ 52 ≤ 10 ^ ds.length :=
        Binary64.two_pow_le_ten_pow (m := 1) (by decide) (by omega)
      have hexceeds : ¬ ofDigits (c :: ds) < Binary64.overflow := Nat.not_lt.mpr hlimit
      rw [Binary64.ofRatio_one (Nat.le_trans hlarge hlong), if_neg hexceeds]
    next => simp

theorem strip_chars : Text.strip Text.isBlank l.chars = l.chars := by
  refine Text.strip_eq_self fun c hc => ?_
  rcases List.mem_append.mp hc with hsign | hdigit
  · exact Sign.isBlank_of_mem_chars hsign
  · exact isBlank_of_isDigit (l.areDigits c hdigit)

/-- The size of a literal beyond 64 bits needs more than 63 of them, whatever its sign. -/
theorem le_size (h : ¬ (minI64 ≤ l.value ∧ l.value ≤ maxI64)) :
    2 ^ 63 ≤ l.size ∧ l.value.natAbs = l.size ∧ (l.value < 0 ↔ l.sign.isNegative = true) := by
  unfold value minI64 maxI64 at *
  cases hsign : l.sign.isNegative with
  | false =>
    simp only [hsign, Bool.false_eq_true, if_false, iff_false] at h ⊢
    omega
  | true =>
    simp only [hsign, if_true, iff_true] at h ⊢
    omega

/-- What a literal counts as. -/
theorem lenientInt_chars {before after : List Char} (hbefore : ∀ c ∈ before, Text.isBlank c = true)
    (hafter : ∀ c ∈ after, Text.isBlank c = true) :
    lenientInt (String.ofList (before ++ l.chars ++ after)) =
      if minI64 ≤ l.value ∧ l.value ≤ maxI64 then l.value
      else if l.value.natAbs < Binary64.overflow then (if l.value < 0 then minI64 else maxI64)
      else 0 := by
  unfold lenientInt
  simp only [String.toList_ofList, Text.strip_padded hbefore l.strip_chars hafter, readI64?_chars]
  by_cases hfits : minI64 ≤ l.value ∧ l.value ≤ maxI64
  · rw [if_pos hfits, if_pos hfits]
  · rw [if_neg hfits, if_neg hfits]
    simp only [read?_chars, Option.bind_some, toBinary64?_whole]
    obtain ⟨hlarge, habs, hnegative⟩ := l.le_size hfits
    have hclamp := Binary64.clampI64_ofRatio hlarge l.sign.isNegative
    rw [habs, if_congr hnegative rfl rfl]
    by_cases hlimit : l.size < Binary64.overflow
    · rw [if_pos hlimit] at hclamp
      obtain ⟨x, hx, hend⟩ := Option.map_eq_some_iff.mp hclamp
      rw [hx, if_pos hlimit]
      exact hend
    · rw [if_neg hlimit, Option.map_eq_none_iff] at hclamp
      rw [hclamp, if_neg hlimit]

end IntegerLiteral

/-- Every integer is a literal, as it is printed. -/
theorem exists_literal_toString (n : Int) :
    ∃ l : IntegerLiteral, (toString n).toList = l.chars ∧ l.value = n := by
  have hdigits : ∀ m, ∀ c ∈ Nat.toDigits 10 m, isDigit c = true := fun _ _ hc =>
    isDigit_of_mem_toDigits hc
  cases n with
  | ofNat m =>
    refine ⟨⟨.absent, Nat.toDigits 10 m, Nat.toDigits_ne_nil, hdigits m⟩, ?_, ?_⟩
    · show (toString m).toList = _
      rw [Nat.toString_eq_ofList_toDigits, String.toList_ofList]
      rfl
    · show ((Nat.ofDigitChars 10 (Nat.toDigits 10 m) 0 : Nat) : Int) = m
      rw [Nat.ofDigitChars_ten_toDigits]
  | negSucc m =>
    refine ⟨⟨.minus, Nat.toDigits 10 (m + 1), Nat.toDigits_ne_nil, hdigits _⟩, ?_, ?_⟩
    · show ("-" ++ toString (m + 1)).toList = _
      simp only [String.toList_append, Nat.toString_eq_ofList_toDigits, String.toList_ofList]
      rfl
    · show - ((Nat.ofDigitChars 10 (Nat.toDigits 10 (m + 1)) 0 : Nat) : Int) = _
      rw [Nat.ofDigitChars_ten_toDigits]
      rfl

/-- A literal of any length, between blanks, counts as the integer that it stands for if this fits
into 64 bits. Otherwise it counts as the end of their range on its side of zero, or as zero if it
is too large to be rounded to a binary64 number. So every integer of 64 bits is read from the text
that it is printed as, and a query that gives this text selects the salt that is kept under it. -/
theorem integers_read_exactly :
    (∀ (l : IntegerLiteral) (before after : List Char),
      (∀ c ∈ before, Text.isBlank c = true) → (∀ c ∈ after, Text.isBlank c = true) →
      lenientInt (String.ofList (before ++ l.chars ++ after)) =
        if minI64 ≤ l.value ∧ l.value ≤ maxI64 then l.value
        else if l.value.natAbs < 2 ^ 1024 - 2 ^ 970 then (if l.value < 0 then minI64 else maxI64)
        else 0) ∧
    ∀ n : Int, minI64 ≤ n → n ≤ maxI64 →
      lenientInt (toString n) = n ∧
      ∀ (s : Signer) (q : Params) (salt : String), s.salts.find? (toString n) = some salt →
        q.find? Params.saltVersion = some (toString n) → s.saltFor q = salt := by
  constructor
  · intro l before after hbefore hafter
    exact l.lenientInt_chars hbefore hafter
  · intro n hlow hhigh
    have hread : lenientInt (toString n) = n := by
      obtain ⟨l, hchars, hvalue⟩ := exists_literal_toString n
      have hliteral := @IntegerLiteral.lenientInt_chars l [] [] (by simp) (by simp)
      rw [List.nil_append, List.append_nil, ← hchars, String.ofList_toList, hvalue,
        if_pos ⟨hlow, hhigh⟩] at hliteral
      exact hliteral
    refine ⟨hread, fun s q salt hsalt hversion => ?_⟩
    unfold Signer.saltFor Signer.saltNumber
    simp only [hversion, hread, hsalt, Option.getD_some]

/-- One step below the integers of 64 bits, with leading zeros; and the lowest of them, which
selects a salt. -/
theorem integers_at_the_lower_end :
    lenientInt " -009223372036854775809\t" = minI64 ∧
      let salts := Table.ofList [("-9223372036854775808", "lowest")]
      let q := Table.ofList [("_sign_ver", "-9223372036854775808")]
      (Signer.make [] "default" salts).saltFor q = "lowest" := by
  obtain ⟨hliterals, hnumbers⟩ := integers_read_exactly
  constructor
  · let below : IntegerLiteral :=
      ⟨.minus, "009223372036854775809".toList, by decide, List.all_eq_true.mp (by decide)⟩
    have hspace : ∀ c ∈ [' '], Text.isBlank c = true := List.forall_mem_singleton.mpr (by decide)
    have htab : ∀ c ∈ ['\t'], Text.isBlank c = true := List.forall_mem_singleton.mpr (by decide)
    refine (hliterals below [' '] ['\t'] hspace htab).trans ?_
    decide +kernel
  · exact (hnumbers minI64 (by decide) (by decide)).2 _ _ _ (by decide +kernel) (by decide +kernel)

end AdmissionGate
