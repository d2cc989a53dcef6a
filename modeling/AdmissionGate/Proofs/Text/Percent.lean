-- Percent decoding. It never makes bytes longer, it comes apart at every
-- byte that no escape contains, and it reads back what encoding writes.
import AdmissionGate.Text.Percent

namespace AdmissionGate.Percent

/-- A byte that may stand behind the percent sign of an escape. -/
def IsDigit (b : UInt8) : Prop := (Hex.value? (Char.ofNat b.toNat)).isSome = true

/-- A byte that is in no escape. -/
structure Separates (b : UInt8) : Prop where
  not_percent : b ≠ 0x25
  not_digit : ¬IsDigit b

theorem byte?_eq_none_iff {high low : UInt8} :
    byte? high low = none ↔ ¬(IsDigit high ∧ IsDigit low) := by
  unfold byte? IsDigit
  cases Hex.value? (Char.ofNat high.toNat) <;> cases Hex.value? (Char.ofNat low.toNat) <;> simp

theorem isDigit_of_byte? {high low b : UInt8} (h : byte? high low = some b) :
    IsDigit high ∧ IsDigit low := by
  apply Classical.byContradiction
  intro hnot
  rw [byte?_eq_none_iff.mpr hnot] at h
  cases h

/-! ## Decoding -/

theorem decode_unescaped {b : UInt8} {rest : Bytes}
    (h : ∀ high low more, b = 0x25 → rest = high :: low :: more → False) :
    decode (b :: rest) = b :: decode rest := by
  rw [decode]
  exact h

theorem decode_cons {b : UInt8} (h : b ≠ 0x25) (rest : Bytes) :
    decode (b :: rest) = b :: decode rest :=
  decode_unescaped fun _ _ _ hb _ => h hb

theorem decode_escape {high low b : UInt8} (h : byte? high low = some b) (rest : Bytes) :
    decode (0x25 :: high :: low :: rest) = b :: decode rest := by
  simp [decode, h]

theorem decode_append_of_no_percent {bs : Bytes} (h : 0x25 ∉ bs) (rest : Bytes) :
    decode (bs ++ rest) = bs ++ decode rest := by
  induction bs with
  | nil => rfl
  | cons b more ih =>
    rw [List.mem_cons, not_or] at h
    rw [List.cons_append, decode_cons (Ne.symm h.1), ih h.2, List.cons_append]

/-- A percent sign stands for itself unless two digits follow. -/
theorem decode_percent {rest : Bytes}
    (h : ∀ high low more, rest = high :: low :: more → ¬(IsDigit high ∧ IsDigit low)) :
    decode (0x25 :: rest) = 0x25 :: decode rest := by
  match rest with
  | [] => rfl
  | [_] => rfl
  | high :: low :: more =>
    simp [decode, byte?_eq_none_iff.mpr (h high low more rfl)]

theorem length_decode_le (bs : Bytes) : (decode bs).length ≤ bs.length := by
  induction bs using decode.induct with
  | case1 high low rest b h ih => simp [decode, h]; omega
  | case2 high low rest h ih => simp [decode, h] at ih ⊢; omega
  | case3 b rest h ih => rw [decode_unescaped h]; simpa using ih
  | case4 => simp [decode]

/-- Bytes that decoding does not shorten have no escape in them. -/
theorem decode_eq_self {bs : Bytes} (h : (decode bs).length = bs.length) : decode bs = bs := by
  induction bs using decode.induct with
  | case1 high low rest b hbyte ih =>
    have hle := length_decode_le rest
    simp [decode, hbyte] at h
    omega
  | case2 high low rest hbyte ih =>
    simp [decode, hbyte] at h ih ⊢
    exact ih h
  | case3 b rest hplain ih =>
    rw [decode_unescaped hplain] at h ⊢
    rw [ih (by simpa using h)]
  | case4 => simp [decode]

/-! ## Separators -/

theorem decode_append_cons {b : UInt8} (h : Separates b) (bs rest : Bytes) :
    decode (bs ++ b :: rest) = decode bs ++ b :: decode rest := by
  induction bs using decode.induct with
  | case1 high low more c hbyte ih => simp [decode_escape hbyte, ih]
  | case2 high low more hbyte ih =>
    have hnone : ∀ r, decode (0x25 :: high :: low :: r) = 0x25 :: decode (high :: low :: r) := by
      simp [decode, hbyte]
    simpa [hnone] using ih
  | case3 c more hplain ih =>
    by_cases hc : c = 0x25
    · subst hc
      -- fewer than two bytes precede the separator, so that no escape reaches over it
      rw [List.cons_append, decode_percent, decode_percent, ih, List.cons_append]
      · exact fun high low r hmore => absurd hmore (hplain high low r rfl)
      · match more, hplain with
        | [], _ => rintro high low r heq ⟨hhigh, -⟩; cases heq; exact h.not_digit hhigh
        | [_], _ => rintro high low r heq ⟨-, hlow⟩; cases heq; exact h.not_digit hlow
        | high :: low :: r, hplain => exact absurd rfl (hplain high low r rfl)
    · rw [List.cons_append, decode_cons hc, decode_cons hc, ih, List.cons_append]
  | case4 => simp [decode_cons h.not_percent, decode]

/-- Pieces that a separator stands in front of are decoded one by one. -/
theorem decode_flatMap {b : UInt8} (h : Separates b) (pieces : List Bytes) :
    decode (pieces.flatMap (b :: ·)) = pieces.flatMap (b :: decode ·) := by
  suffices happend : ∀ bs, decode (bs ++ pieces.flatMap (b :: ·)) =
      decode bs ++ pieces.flatMap (b :: decode ·) by simpa [decode] using happend []
  induction pieces with
  | nil => simp
  | cons piece more ih =>
    intro bs
    simp [decode_append_cons h, ih piece]

/-- Where all of a text is unescaped, each of its pieces is. -/
theorem decode_piece_eq_self {b : UInt8} (h : Separates b) {pieces : List Bytes}
    (hself : decode (pieces.flatMap (b :: ·)) = pieces.flatMap (b :: ·)) :
    ∀ piece ∈ pieces, decode piece = piece := by
  rw [decode_flatMap h] at hself
  induction pieces with
  | nil => simp
  | cons first more ih =>
    have hfirst := length_decode_le first
    have hmore := length_decode_le (more.flatMap (b :: ·))
    rw [decode_flatMap h] at hmore
    have happend : decode first ++ more.flatMap (b :: decode ·) =
        first ++ more.flatMap (b :: ·) := by simpa using hself
    have hlength := congrArg List.length happend
    rw [List.length_append, List.length_append] at hlength
    obtain ⟨hfirst, hmore⟩ := List.append_inj happend (by omega)
    rintro piece (_ | ⟨_, hpiece⟩)
    · exact hfirst
    · exact ih hmore piece hpiece

/-! ## Encoding -/

/-- A class of bytes whose escapes can be read back: it leaves the percent sign and the digits
as they are, and what it leaves is ASCII. -/
structure Reads (escaped : UInt8 → Bool) : Prop where
  percent : escaped 0x25 = false
  digit : ∀ b, IsDigit b → escaped b = false
  ascii : ∀ b, escaped b = false → b < 0x80

/-- The bytes that are written for some bytes. -/
def written (escaped : UInt8 → Bool) (bs : Bytes) : Bytes :=
  Bytes.ofText (String.ofList (encode escaped bs))

theorem written_eq (escaped : UInt8 → Bool) (bs : Bytes) :
    written escaped bs = (encode escaped bs).flatMap String.utf8EncodeChar :=
  Bytes.ofText_ofList _

theorem utf8EncodeChar_upperDigit : ∀ n < 16, ∃ b : UInt8,
    String.utf8EncodeChar (Hex.upperDigit n) = [b] ∧ Hex.value? (Char.ofNat b.toNat) = some n := by
  intro n hn
  refine ⟨UInt8.ofNat (Hex.upperDigit n).toNat, ?_⟩
  revert n
  decide

theorem utf8EncodeChar_ascii {b : UInt8} (h : b < 0x80) :
    String.utf8EncodeChar (Char.ofNat b.toNat) = [b] := by
  have hall : ∀ n < 0x80, String.utf8EncodeChar (Char.ofNat n) = [UInt8.ofNat n] := by decide
  rw [hall b.toNat (by simpa [UInt8.lt_iff_toNat_lt] using h), UInt8.ofNat_toNat]

/-- An escape is a percent sign and two digits of the byte. -/
theorem utf8_escape (b : UInt8) : ∃ high low, byte? high low = some b ∧
    (escape b).flatMap String.utf8EncodeChar = [0x25, high, low] := by
  have hb := b.toNat_lt
  obtain ⟨high, hhigh, hhighValue⟩ := utf8EncodeChar_upperDigit (b.toNat / 16) (by omega)
  obtain ⟨low, hlow, hlowValue⟩ := utf8EncodeChar_upperDigit (b.toNat % 16) (by omega)
  have hpercent : String.utf8EncodeChar '%' = [0x25] := by decide
  refine ⟨high, low, ?_, ?_⟩
  · have hdigits : 16 * (b.toNat / 16) + b.toNat % 16 = b.toNat := by omega
    simp only [byte?, hhighValue, hlowValue, Option.bind_eq_bind, Option.bind_some, hdigits,
      UInt8.ofNat_toNat]
  · simp [escape, hhigh, hlow, hpercent]

theorem written_escaped {escaped : UInt8 → Bool} {b : UInt8} (h : escaped b = true) (bs : Bytes) :
    ∃ high low, byte? high low = some b ∧
      written escaped (b :: bs) = 0x25 :: high :: low :: written escaped bs := by
  obtain ⟨high, low, hbyte, hescape⟩ := utf8_escape b
  exact ⟨high, low, hbyte, by simp [written_eq, encode, h, hescape]⟩

theorem written_plain {escaped : UInt8 → Bool} (hreads : Reads escaped) {b : UInt8}
    (h : escaped b = false) (bs : Bytes) :
    written escaped (b :: bs) = b :: written escaped bs := by
  simp [written_eq, encode, h, utf8EncodeChar_ascii (hreads.ascii b h)]

/-- A digit at the front of what is written was there before. -/
theorem eq_cons_of_written {escaped : UInt8 → Bool} (hreads : Reads escaped) {bs more : Bytes}
    {b : UInt8} (hb : IsDigit b) (h : written escaped bs = b :: more) :
    ∃ rest, bs = b :: rest ∧ written escaped rest = more := by
  match bs with
  | [] => simp [written, encode, Bytes.ofText] at h
  | c :: rest =>
    cases hc : escaped c with
    | true =>
      obtain ⟨high, low, -, hwritten⟩ := written_escaped hc rest
      rw [hwritten] at h
      cases h
      exact absurd hb (by simp [IsDigit]; decide)
    | false =>
      rw [written_plain hreads hc] at h
      cases h
      exact ⟨rest, rfl, rfl⟩

/-- A percent sign that stands for itself does so in front of what is written as well. -/
theorem decode_percent_written {escaped : UInt8 → Bool} (hreads : Reads escaped) {rest : Bytes}
    (h : ∀ high low more, rest = high :: low :: more → ¬(IsDigit high ∧ IsDigit low)) :
    decode (0x25 :: written escaped rest) = 0x25 :: decode (written escaped rest) := by
  refine decode_percent fun high low more hwritten ⟨hhigh, hlow⟩ => ?_
  obtain ⟨after, rfl, hafter⟩ := eq_cons_of_written hreads hhigh hwritten
  obtain ⟨_, rfl, -⟩ := eq_cons_of_written hreads hlow hafter
  exact h high low _ rfl ⟨hhigh, hlow⟩

/-- What is written reads as the bytes that it was written for, once these are read. -/
theorem decode_written {escaped : UInt8 → Bool} (hreads : Reads escaped) (bs : Bytes) :
    decode (written escaped bs) = decode bs := by
  induction bs using decode.induct with
  | case1 high low rest b hbyte ih =>
    obtain ⟨hhigh, hlow⟩ := isDigit_of_byte? hbyte
    rw [written_plain hreads hreads.percent, written_plain hreads (hreads.digit _ hhigh),
      written_plain hreads (hreads.digit _ hlow), decode_escape hbyte, decode_escape hbyte, ih]
  | case2 high low rest hbyte ih =>
    have hnone : ∀ x y more, high :: low :: rest = x :: y :: more → ¬(IsDigit x ∧ IsDigit y) := by
      rintro x y more heq
      cases heq
      exact byte?_eq_none_iff.mp hbyte
    rw [written_plain hreads hreads.percent, decode_percent_written hreads hnone,
      decode_percent hnone, ih]
  | case3 b rest hrest ih =>
    rw [decode_unescaped hrest]
    cases hb : escaped b with
    | true =>
      obtain ⟨high, low, hbyte, hwritten⟩ := written_escaped hb rest
      rw [hwritten, decode_escape hbyte, ih]
    | false =>
      rw [written_plain hreads hb]
      by_cases hpercent : b = 0x25
      · subst hpercent
        rw [decode_percent_written hreads
          fun high low more hmore => absurd hmore (hrest high low more rfl), ih]
      · rw [decode_cons hpercent, ih]
  | case4 => rfl

end AdmissionGate.Percent
