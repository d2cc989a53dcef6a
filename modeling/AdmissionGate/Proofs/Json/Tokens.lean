-- Reading the tokens of a JSON text. Every token may be spelled in several
-- ways: a character of a string as itself or escaped, a digit of an escape in
-- either case, a number with or without a fraction and an exponent. Each
-- spelling is read as its token, with any blanks between them.
import AdmissionGate.Json.Token
import AdmissionGate.Proofs.Text.Digits

namespace AdmissionGate.Json

/-! ## Characters -/

/-- The characters that have a letter of their own, with that letter. -/
def letters : List (Char × UInt8) :=
  [('\x22', 0x22), ('\\', 0x5C), ('/', 0x2F), ('\x08', 0x62), ('\x0c', 0x66), ('\n', 0x6E),
    ('\r', 0x72), ('\t', 0x74)]

/-- A hexadecimal digit in either case. -/
def IsHexDigit (n : Nat) (b : UInt8) : Prop :=
  n < 16 ∧ (charOf b = Hex.digit n ∨ charOf b = Hex.upperDigit n)

/-- Four hexadecimal digits of a number. -/
inductive IsUnit : Nat → Bytes → Prop
  | mk {w x y z : Nat} {a b c d : UInt8} : IsHexDigit w a → IsHexDigit x b → IsHexDigit y c →
      IsHexDigit z d → IsUnit (((w * 16 + x) * 16 + y) * 16 + z) [a, b, c, d]

/-- How a character may be written in a string: as itself unless it is a quote, a backslash or
a control character, by its letter, by its number, or by a pair of surrogates. -/
inductive SpellsChar (c : Char) : Bytes → Prop
  | itself : c ≠ '\x22' → c ≠ '\\' → 0x20 ≤ c.toNat → SpellsChar c (String.utf8EncodeChar c)
  | letter {l : UInt8} : (c, l) ∈ letters → SpellsChar c [0x5C, l]
  | unit {digits : Bytes} : IsUnit c.toNat digits → SpellsChar c (0x5C :: 0x75 :: digits)
  | pair {high low : Nat} {highDigits lowDigits : Bytes} : IsUnit high highDigits →
      IsUnit low lowDigits → 0xD800 ≤ high → high ≤ 0xDBFF → 0xDC00 ≤ low → low ≤ 0xDFFF →
      c.toNat = 0x10000 + (high - 0xD800) * 0x400 + (low - 0xDC00) →
      SpellsChar c ((0x5C :: 0x75 :: highDigits) ++ (0x5C :: 0x75 :: lowDigits))

/-- How a text may be written between quotes. -/
inductive SpellsText : List Char → Bytes → Prop
  | nil : SpellsText [] []
  | cons {c : Char} {cs : List Char} {bs rest : Bytes} : SpellsChar c bs → SpellsText cs rest →
      SpellsText (c :: cs) (bs ++ rest)

theorem value?_of_isHexDigit {n : Nat} {b : UInt8} (h : IsHexDigit n b) :
    Hex.value? (charOf b) = some n := by
  have hall : ∀ n < 16,
      Hex.value? (Hex.digit n) = some n ∧ Hex.value? (Hex.upperDigit n) = some n := by decide
  obtain ⟨hn, hlower | hupper⟩ := h
  · rw [hlower]
    exact (hall n hn).1
  · rw [hupper]
    exact (hall n hn).2

theorem unit?_of_isUnit {n : Nat} {digits : Bytes} (h : IsUnit n digits) :
    ∃ a b c d, digits = [a, b, c, d] ∧ unit? a b c d = some n := by
  cases h with
  | mk ha hb hc hd =>
    refine ⟨_, _, _, _, rfl, ?_⟩
    simp [unit?, value?_of_isHexDigit ha, value?_of_isHexDigit hb, value?_of_isHexDigit hc,
      value?_of_isHexDigit hd]

/-! ## Pieces -/

theorem readPieces_byte {b : UInt8} (hquote : b ≠ 0x22) (hslash : b ≠ 0x5C) (hcontrol : ¬ b < 0x20)
    (rest : Bytes) : readPieces (b :: rest) = andPiece (.byte b) (readPieces rest) := by
  have hnone : ¬ (b < 0x20 || b == 0x5C) = true := by simp [hcontrol, hslash]
  rw [readPieces]
  · rw [if_neg hnone]
  · exact hquote
  · rintro - - - - - rfl
    exact absurd rfl hslash
  · rintro - - rfl
    exact absurd rfl hslash

theorem readPieces_letter {e b : UInt8} (h : unescape? e = some b) (rest : Bytes) :
    readPieces (0x5C :: e :: rest) = andPiece (.byte b) (readPieces rest) := by
  have hunit : e ≠ 0x75 := by
    rintro rfl
    cases h
  rw [readPieces]
  · rw [h]
  · intro a b c d more he
    exact absurd he hunit

theorem readPieces_unit {a b c d : UInt8} {u : Nat} (h : unit? a b c d = some u) (rest : Bytes) :
    readPieces (0x5C :: 0x75 :: a :: b :: c :: d :: rest) =
      andPiece (.unit u) (readPieces rest) := by
  rw [readPieces, h]

/-- Pieces in front of what is read of a string. -/
def withPieces (ps : List Piece) (r : Option (List Piece × Bytes)) : Option (List Piece × Bytes) :=
  r.map fun r => (ps ++ r.1, r.2)

theorem readPieces_bytes {bs : Bytes}
    (h : ∀ b ∈ bs, b ≠ 0x22 ∧ b ≠ 0x5C ∧ ¬ b < 0x20) (rest : Bytes) :
    readPieces (bs ++ rest) = withPieces (bs.map .byte) (readPieces rest) := by
  induction bs with
  | nil => cases h : readPieces rest <;> simp [withPieces, h]
  | cons b bs ih =>
    obtain ⟨hquote, hslash, hcontrol⟩ := h b List.mem_cons_self
    rw [List.cons_append, readPieces_byte hquote hslash hcontrol,
      ih fun c hc => h c (List.mem_cons_of_mem _ hc)]
    cases readPieces rest <;> rfl

theorem pieceBytes?_bytes (bs : Bytes) (ps : List Piece) :
    pieceBytes? (bs.map .byte ++ ps) = (pieceBytes? ps).map (bs ++ ·) := by
  induction bs with
  | nil => cases h : pieceBytes? ps <;> simp [h]
  | cons b bs ih =>
    rw [List.map_cons, List.cons_append, pieceBytes?, ih]
    cases pieceBytes? ps <;> rfl

/-- A unit that is no surrogate stands for its character, whatever follows. -/
theorem pieceBytes?_unit {u : Nat} (hhigh : isHighSurrogate u = false)
    (hlow : isLowSurrogate u = false) (ps : List Piece) :
    pieceBytes? (.unit u :: ps) =
      (pieceBytes? ps).map (String.utf8EncodeChar (Char.ofNat u) ++ ·) := by
  rcases ps with _ | ⟨_ | v, ps⟩ <;> simp [pieceBytes?, hhigh, hlow]

theorem pieceBytes?_pair {u v : Nat} (hhigh : isHighSurrogate u = true)
    (hlow : isLowSurrogate v = true) (ps : List Piece) :
    pieceBytes? (.unit u :: .unit v :: ps) =
      (pieceBytes? ps).map (String.utf8EncodeChar (Char.ofNat (pairCode u v)) ++ ·) := by
  simp [pieceBytes?, hhigh, hlow]

/-- No character is a surrogate. -/
theorem not_surrogate (c : Char) :
    isHighSurrogate c.toNat = false ∧ isLowSurrogate c.toNat = false := by
  have hvalid : c.toNat.isValidChar := c.valid
  unfold isHighSurrogate isLowSurrogate
  simp only [Bool.and_eq_false_iff, decide_eq_false_iff_not]
  rcases hvalid with h | h <;> omega

/-! ## Strings -/

/-- No byte of a character that may stand for itself means anything else in a string. -/
theorem of_mem_itself {c : Char} (hquote : c ≠ '\x22') (hslash : c ≠ '\\')
    (hcontrol : 0x20 ≤ c.toNat) :
    ∀ b ∈ String.utf8EncodeChar c, b ≠ 0x22 ∧ b ≠ 0x5C ∧ ¬ b < 0x20 := by
  by_cases hascii : c.toNat < 0x80
  · have hbyte : (UInt8.ofNat c.toNat).toNat = c.toNat := by
      rw [UInt8.toNat_ofNat']
      omega
    rw [Bytes.utf8EncodeChar_of_ascii hascii]
    simp only [List.mem_singleton, forall_eq]
    refine ⟨?_, ?_, ?_⟩
    · intro heq
      rw [heq] at hbyte
      exact hquote (by rw [← Char.ofNat_toNat c, ← hbyte]; rfl)
    · intro heq
      rw [heq] at hbyte
      exact hslash (by rw [← Char.ofNat_toNat c, ← hbyte]; rfl)
    · rw [UInt8.lt_iff_toNat_lt, hbyte]
      exact Nat.not_lt.mpr hcontrol
  · have hall : ∀ b : UInt8, 0x80 ≤ b → b ≠ 0x22 ∧ b ≠ 0x5C ∧ ¬ b < 0x20 :=
      Bytes.forall_byte (by decide)
    intro b hb
    exact hall b (Bytes.le_of_mem_utf8EncodeChar (Nat.le_of_not_lt hascii) hb)

/-- A character is read from each of its spellings, whatever follows. -/
theorem readPieces_char {c : Char} {bs : Bytes} (h : SpellsChar c bs) :
    ∃ ps, (∀ rest, readPieces (bs ++ rest) = withPieces ps (readPieces rest)) ∧
      ∀ qs, pieceBytes? (ps ++ qs) = (pieceBytes? qs).map (String.utf8EncodeChar c ++ ·) := by
  cases h with
  | itself hquote hslash hcontrol =>
    exact ⟨(String.utf8EncodeChar c).map .byte,
      readPieces_bytes (of_mem_itself hquote hslash hcontrol), pieceBytes?_bytes _⟩
  | @letter l hl =>
    have hall : ∀ e ∈ letters, ∃ b, unescape? e.2 = some b ∧ String.utf8EncodeChar e.1 = [b] := by
      decide
    obtain ⟨b, hb, hchar⟩ := hall _ hl
    refine ⟨[.byte b], fun rest => readPieces_letter hb rest, fun qs => ?_⟩
    rw [hchar]
    rfl
  | unit hunit =>
    obtain ⟨a, b, d, e, rfl, hvalue⟩ := unit?_of_isUnit hunit
    obtain ⟨hhigh, hlow⟩ := not_surrogate c
    refine ⟨[.unit c.toNat], fun rest => readPieces_unit hvalue rest, fun qs => ?_⟩
    rw [List.singleton_append, pieceBytes?_unit hhigh hlow, Char.ofNat_toNat]
  | @pair high low _ _ hunitHigh hunitLow h1 h2 h3 h4 hcode =>
    obtain ⟨a, b, d, e, rfl, hhigh⟩ := unit?_of_isUnit hunitHigh
    obtain ⟨a', b', d', e', rfl, hlow⟩ := unit?_of_isUnit hunitLow
    refine ⟨[.unit high, .unit low], fun rest => ?_, fun qs => ?_⟩
    · simp only [List.cons_append, List.nil_append]
      rw [readPieces_unit hhigh, readPieces_unit hlow]
      cases readPieces rest <;> rfl
    · have hpair : pairCode high low = c.toNat := by
        unfold pairCode
        omega
      have hchar : Char.ofNat (pairCode high low) = c := by rw [hpair, Char.ofNat_toNat]
      rw [List.cons_append, List.singleton_append, pieceBytes?_pair, hchar]
      · simp [isHighSurrogate, h1, h2]
      · simp [isLowSurrogate, h3, h4]

/-- A text is read from each of its spellings, up to the closing quote. -/
theorem readPieces_text {cs : List Char} {bs : Bytes} (h : SpellsText cs bs) (rest : Bytes) :
    ∃ ps, readPieces (bs ++ 0x22 :: rest) = some (ps, rest) ∧
      pieceBytes? ps = some (cs.flatMap String.utf8EncodeChar) := by
  induction h with
  | nil => exact ⟨[], rfl, rfl⟩
  | @cons c cs bs more hchar _ ih =>
    obtain ⟨qs, hread, hbytes⟩ := ih
    obtain ⟨ps, hchars, hpieces⟩ := readPieces_char hchar
    refine ⟨ps ++ qs, ?_, ?_⟩
    · rw [List.append_assoc, hchars, hread]
      rfl
    · rw [hpieces, hbytes]
      rfl

theorem pieceText?_of_bytes {ps : List Piece} {s : String}
    (h : pieceBytes? ps = some (Bytes.ofText s)) : pieceText? ps = some s := by
  rw [pieceText?, h, Option.bind_some, Bytes.toText?_ofText]

/-! ## Numbers -/

/-- The power of ten behind a number: its letter, a sign if it has one, and digits. -/
structure Scale where
  letter : Char
  sign : Option Char
  digits : List Char

/-- The parts of a number as it is written. -/
structure Numeral where
  negative : Bool
  whole : List Char
  fraction : Option (List Char)
  scale : Option Scale

namespace Scale

def text (s : Scale) : List Char := s.letter :: (s.sign.toList ++ s.digits)

def value (s : Scale) : Int :=
  if s.sign = some '-' then - (Decimal.ofDigits s.digits : Int) else Decimal.ofDigits s.digits

structure IsStrict (s : Scale) : Prop where
  letter : s.letter = 'e' ∨ s.letter = 'E'
  sign : ∀ c ∈ s.sign, c = '+' ∨ c = '-'
  nonempty : s.digits ≠ []
  digits : ∀ c ∈ s.digits, Decimal.isDigit c = true

theorem IsStrict.readScale? {s : Scale} (h : s.IsStrict) :
    DecimalLiteral.readScale? s.text = some s.value := by
  have hread := Decimal.readNat?_digits h.nonempty h.digits
  have hletter : (s.letter == 'e' || s.letter == 'E') = true := by simpa using h.letter
  cases hsign : s.sign with
  | some c =>
    have htext : s.text = s.letter :: c :: s.digits := by rw [text, hsign]; rfl
    rcases h.sign c hsign with rfl | rfl <;>
      simp [htext, DecimalLiteral.readScale?, h.letter, hread, value, hsign]
  | none =>
    have htext : s.text = s.letter :: s.digits := by rw [text, hsign]; rfl
    have hsigned : ∀ c rest, s.digits = c :: rest → c ≠ '-' ∧ c ≠ '+' := by
      intro c rest hdigits
      have hc := h.digits c (by rw [hdigits]; exact List.mem_cons_self)
      constructor <;> (rintro rfl; revert hc; decide)
    rw [htext, DecimalLiteral.readScale?, if_pos hletter, hread]
    · simp [value, hsign]
    · exact fun rest hdigits => (hsigned _ rest hdigits).1 rfl
    · exact fun rest hdigits => (hsigned _ rest hdigits).2 rfl

end Scale

namespace Numeral

def fractionText (n : Numeral) : List Char :=
  match n.fraction with
  | some digits => '.' :: digits
  | none => []

def scaleText (n : Numeral) : List Char :=
  match n.scale with
  | some s => s.text
  | none => []

/-- All but the sign. -/
def body (n : Numeral) : List Char := n.whole ++ (n.fractionText ++ n.scaleText)

def text (n : Numeral) : List Char := (if n.negative then ['-'] else []) ++ n.body

/-- The number that is meant. -/
def number (n : Numeral) : Number :=
  ⟨⟨n.negative, n.whole, n.fraction.getD [], (n.scale.map (·.value)).getD 0⟩,
    n.fraction.isNone && n.scale.isNone⟩

/-- A number as JSON has it: no zero in front of other digits, and digits behind a point. -/
structure IsStrict (n : Numeral) : Prop where
  nonempty : n.whole ≠ []
  whole : ∀ c ∈ n.whole, Decimal.isDigit c = true
  leading : 1 < n.whole.length → n.whole.head? ≠ some '0'
  fraction : ∀ digits ∈ n.fraction, digits ≠ [] ∧ ∀ c ∈ digits, Decimal.isDigit c = true
  scale : ∀ s ∈ n.scale, s.IsStrict

variable {n : Numeral}

theorem IsStrict.head?_scaleText (h : n.IsStrict) :
    ∀ c ∈ n.scaleText.head?, c = 'e' ∨ c = 'E' := by
  unfold scaleText
  cases hscale : n.scale with
  | none => simp
  | some s => simpa [Scale.text] using (h.scale s hscale).letter

theorem IsStrict.head?_body (h : n.IsStrict) : ∀ c ∈ n.body.head?, Decimal.isDigit c = true := by
  obtain ⟨c, rest, hwhole⟩ := List.exists_cons_of_ne_nil h.nonempty
  intro d hd
  rw [body, hwhole, List.cons_append, List.head?_cons, Option.mem_def, Option.some.injEq] at hd
  exact h.whole d (by rw [hwhole, hd]; exact List.mem_cons_self)

theorem IsStrict.readScale?_text (h : n.IsStrict) :
    DecimalLiteral.readScale? n.scaleText = some ((n.scale.map (·.value)).getD 0) := by
  unfold scaleText
  cases hscale : n.scale with
  | none => rfl
  | some s => exact (h.scale s hscale).readScale?

theorem IsStrict.head?_tail (h : n.IsStrict) :
    ∀ c ∈ (n.fractionText ++ n.scaleText).head?, Decimal.isDigit c = false := by
  unfold fractionText
  cases n.fraction with
  | some digits =>
    simp only [List.cons_append, List.head?_cons, Option.mem_def, Option.some.injEq, forall_eq']
    decide
  | none =>
    intro c hc
    rcases h.head?_scaleText c hc with rfl | rfl <;> decide

/-- Behind the digits in front a point is the one of the fraction. -/
theorem IsStrict.fraction_of_point (h : n.IsStrict) {more : List Char}
    (hpoint : n.fractionText ++ n.scaleText = '.' :: more) :
    ∃ digits, n.fraction = some digits ∧ more = digits ++ n.scaleText := by
  unfold fractionText at hpoint
  cases hfraction : n.fraction with
  | some digits =>
    rw [hfraction] at hpoint
    exact ⟨digits, rfl, (List.cons.inj hpoint).2.symm⟩
  | none =>
    rw [hfraction, List.nil_append] at hpoint
    have hhead := h.head?_scaleText '.' (by rw [hpoint]; rfl)
    simp at hhead

/-- The parts of a number are found in its text. -/
theorem IsStrict.read?_text (h : n.IsStrict) :
    DecimalLiteral.read? n.text = some n.number.literal := by
  obtain ⟨htake, hdrop⟩ := Decimal.takeWhile_run h.whole h.head?_tail
  unfold DecimalLiteral.read?
  split
  next negative body hsign =>
    obtain ⟨rfl, rfl⟩ : negative = n.negative ∧ body = n.body := by
      unfold text at hsign
      cases hnegative : n.negative with
      | true =>
        simp only [hnegative, if_true, List.singleton_append, Prod.mk.injEq] at hsign
        exact ⟨hsign.1.symm, hsign.2.symm⟩
      | false =>
        simp only [hnegative, Bool.false_eq_true, if_false, List.nil_append] at hsign
        split at hsign
        next heq => exact absurd (h.head?_body '-' (by rw [heq]; rfl)) (by decide)
        next heq => exact absurd (h.head?_body '+' (by rw [heq]; rfl)) (by decide)
        next =>
          cases hsign
          exact ⟨rfl, rfl⟩
    have hwhole : n.whole.isEmpty = false := List.isEmpty_eq_false_iff.mpr h.nonempty
    simp only [body, htake, hdrop]
    split
    next more hpoint =>
      obtain ⟨digits, hfraction, rfl⟩ := h.fraction_of_point hpoint
      have hscale : ∀ c ∈ n.scaleText.head?, Decimal.isDigit c = false := by
        intro c hc
        rcases h.head?_scaleText c hc with rfl | rfl <;> decide
      obtain ⟨htake, hdrop⟩ := Decimal.takeWhile_run (h.fraction digits hfraction).2 hscale
      simp [htake, hdrop, hwhole, h.readScale?_text, number, hfraction]
    next hpoint =>
      have hfraction : n.fraction = none := by
        cases hfraction : n.fraction with
        | none => rfl
        | some digits =>
          have hfront : n.fractionText ++ n.scaleText = '.' :: (digits ++ n.scaleText) := by
            rw [fractionText, hfraction]
            rfl
          exact absurd hfront (hpoint _)
      have htail : n.fractionText = [] := by rw [fractionText, hfraction]
      simp [htail, hwhole, h.readScale?_text, number, hfraction]

theorem IsStrict.point_mem (h : n.IsStrict) : '.' ∈ n.text ↔ n.fraction.isSome = true := by
  have hwhole : '.' ∉ n.whole := Decimal.notMem_digits h.whole (by decide)
  have hscale : '.' ∉ n.scaleText := by
    unfold scaleText
    cases hs : n.scale with
    | none => simp
    | some s =>
      obtain ⟨hletter, hsign, -, hdigits⟩ := h.scale s hs
      have hdigits := Decimal.notMem_digits hdigits (c := '.') (by decide)
      have hsign : s.sign ≠ some '.' := fun hs => by simpa using hsign '.' hs
      have hletter : '.' ≠ s.letter := by rcases hletter with h | h <;> rw [h] <;> decide
      simp [Scale.text, hletter, hsign, hdigits]
  unfold text body fractionText
  cases hfraction : n.fraction <;> cases n.negative <;> simp [hwhole, hscale]

theorem IsStrict.letter_mem (h : n.IsStrict) :
    ('e' ∈ n.text ∨ 'E' ∈ n.text) ↔ n.scale.isSome = true := by
  have hdigits : ∀ ds : List Char, (∀ c ∈ ds, Decimal.isDigit c = true) → 'e' ∉ ds ∧ 'E' ∉ ds :=
    fun ds hds => ⟨Decimal.notMem_digits hds (by decide), Decimal.notMem_digits hds (by decide)⟩
  have hfront : ∀ c, c = 'e' ∨ c = 'E' → (c ∈ n.text ↔ c ∈ n.scaleText) := by
    intro c hc
    have hwhole : c ∉ n.whole := by
      rcases hc with rfl | rfl
      · exact (hdigits _ h.whole).1
      · exact (hdigits _ h.whole).2
    have hfraction : c ∉ n.fractionText := by
      unfold fractionText
      cases hf : n.fraction with
      | none => simp
      | some ds =>
        have hds := hdigits ds (h.fraction ds hf).2
        rcases hc with rfl | rfl
        · simp [hds.1]
        · simp [hds.2]
    have hminus : c ≠ '-' := by rcases hc with rfl | rfl <;> decide
    unfold text body
    cases n.negative <;> simp [hwhole, hfraction, hminus]
  rw [hfront 'e' (Or.inl rfl), hfront 'E' (Or.inr rfl), scaleText]
  cases hs : n.scale with
  | none => simp
  | some s => rcases (h.scale s hs).letter with hletter | hletter <;> simp [Scale.text, hletter]

theorem IsStrict.head?_text (h : n.IsStrict) : n.text.head? ≠ some '+' := by
  unfold text
  cases n.negative with
  | true => simp
  | false =>
    intro hplus
    exact absurd (h.head?_body '+' hplus) (by decide)

theorem isNumberByte_of_isDigit {c : Char} (h : Decimal.isDigit c = true) :
    isNumberByte (UInt8.ofNat c.toNat) = true := by
  have hall : ∀ k < 0x80, Decimal.isDigit (Char.ofNat k) = true →
      isNumberByte (UInt8.ofNat k) = true := by decide
  exact hall _ (Decimal.toNat_lt_of_isDigit h) (by rwa [Char.ofNat_toNat])

/-- The characters of a number are ASCII, and no other token has one of them. -/
theorem IsStrict.of_mem_text (h : n.IsStrict) {c : Char} (hc : c ∈ n.text) :
    c.toNat < 0x80 ∧ isNumberByte (UInt8.ofNat c.toNat) = true := by
  have hmark : ∀ c ∈ ['-', '+', '.', 'e', 'E'],
      c.toNat < 0x80 ∧ isNumberByte (UInt8.ofNat c.toNat) = true := by
    simp only [List.forall_mem_cons, List.not_mem_nil, false_implies, implies_true, and_true]
    decide
  have hdigit : ∀ c, Decimal.isDigit c = true →
      c.toNat < 0x80 ∧ isNumberByte (UInt8.ofNat c.toNat) = true :=
    fun c hc => ⟨Decimal.toNat_lt_of_isDigit hc, isNumberByte_of_isDigit hc⟩
  unfold text body fractionText scaleText at hc
  simp only [List.mem_append] at hc
  rcases hc with hc | hc | hc | hc
  · split at hc
    · exact hmark c (by simp at hc; simp [hc])
    · cases hc
  · exact hdigit c (h.whole c hc)
  · split at hc
    next digits hfraction =>
      rcases List.mem_cons.mp hc with rfl | hc
      · exact hmark _ (by simp)
      · exact hdigit c ((h.fraction digits hfraction).2 c hc)
    next => cases hc
  · split at hc
    next s hs =>
      obtain ⟨hletter, hsign, -, hdigits⟩ := h.scale s hs
      rcases List.mem_cons.mp hc with rfl | hc
      · exact hmark _ (by rcases hletter with h | h <;> simp [h])
      · rcases List.mem_append.mp hc with hc | hc
        · exact hmark c (by rcases hsign c (by simpa using hc) with rfl | rfl <;> simp)
        · exact hdigit c (hdigits c hc)
    next => cases hc

end Numeral

theorem charOf_ofNat {c : Char} (h : c.toNat < 0x80) : charOf (UInt8.ofNat c.toNat) = c := by
  have hbyte : (UInt8.ofNat c.toNat).toNat = c.toNat := by
    rw [UInt8.toNat_ofNat']
    omega
  rw [charOf, hbyte, Char.ofNat_toNat]

/-- A number is read from its bytes. -/
theorem number?_text {n : Numeral} (h : n.IsStrict) :
    number? (Bytes.ofText (String.ofList n.text)) = some n.number := by
  have hchars : (Bytes.ofText (String.ofList n.text)).map charOf = n.text := by
    rw [Bytes.ofText_ascii fun c hc => (h.of_mem_text hc).1, List.map_map]
    exact (List.map_congr_left fun c hc => charOf_ofNat (h.of_mem_text hc).1).trans (List.map_id _)
  have hpoint : n.text.contains '.' = n.fraction.isSome := by
    rw [Bool.eq_iff_iff, List.contains_iff_mem]
    exact h.point_mem
  have hletter : (n.text.contains 'e' || n.text.contains 'E') = n.scale.isSome := by
    rw [Bool.eq_iff_iff, Bool.or_eq_true, List.contains_iff_mem, List.contains_iff_mem]
    exact h.letter_mem
  have hstrict : isStrict n.text n.number.literal = true := by
    have hfraction : (n.fraction.getD []).isEmpty = true → (!n.fraction.isSome) = true := by
      cases hf : n.fraction with
      | none => simp
      | some digits => simp [(h.fraction digits hf).1]
    rw [isStrict, Bool.and_eq_true, Bool.and_eq_true, Bool.and_eq_true, hpoint]
    refine ⟨⟨⟨?_, ?_⟩, ?_⟩, decide_eq_true hfraction⟩
    · simpa using h.head?_text
    · simpa [Numeral.number] using h.nonempty
    · rw [Bool.not_eq_true', Bool.and_eq_false_imp]
      intro hlong
      simpa [Numeral.number] using h.leading (of_decide_eq_true hlong)
  unfold number?
  simp only [hchars, h.read?_text, hstrict, if_true, hpoint, Bool.or_assoc, hletter]
  cases hf : n.fraction <;> cases hs : n.scale <;> simp [Numeral.number, hf, hs]

/-! ## Tokens -/

/-- How a token may be spelled. -/
inductive Spells : Token → Bytes → Prop
  | openArray : Spells .openArray [0x5B]
  | closeArray : Spells .closeArray [0x5D]
  | openObject : Spells .openObject [0x7B]
  | closeObject : Spells .closeObject [0x7D]
  | comma : Spells .comma [0x2C]
  | colon : Spells .colon [0x3A]
  | null : Spells .null (Bytes.ofText "null")
  | true : Spells (.bool true) (Bytes.ofText "true")
  | false : Spells (.bool false) (Bytes.ofText "false")
  | number {n : Numeral} : n.IsStrict →
      Spells (.number n.number) (Bytes.ofText (String.ofList n.text))
  | text {s : String} {bs : Bytes} : SpellsText s.toList bs →
      Spells (.text (some s)) (0x22 :: (bs ++ [0x22]))

/-- Space, tab, line feed and carriage return. -/
def blanks : Bytes := [0x20, 0x09, 0x0A, 0x0D]

/-- What may follow a number: blanks, a comma or a closing bracket, or nothing. -/
def EndsNumber (bs : Bytes) : Prop := ∀ b ∈ bs.head?, b ∈ blanks ∨ b ∈ [0x2C, 0x5D, 0x7D]

/-- Bytes that spell some tokens in order, with any blanks between them. -/
inductive SpellsAll : List Token → Bytes → Prop
  | nil : SpellsAll [] []
  | blank {b : UInt8} {ts : List Token} {bs : Bytes} : b ∈ blanks → SpellsAll ts bs →
      SpellsAll ts (b :: bs)
  | cons {t : Token} {ts : List Token} {bs rest : Bytes} : Spells t bs →
      ((∃ n, t = .number n) → EndsNumber rest) → SpellsAll ts rest →
      SpellsAll (t :: ts) (bs ++ rest)

theorem of_isNumberByte : ∀ b, isNumberByte b = Bool.true →
    mark? b = none ∧ (b == 0x22) = Bool.false ∧ isSpace b = Bool.false :=
  Bytes.forall_byte (by decide)

theorem not_isNumberByte_of_ends : ∀ b, b ∈ blanks ∨ b ∈ [0x2C, 0x5D, 0x7D] →
    isNumberByte b = Bool.false :=
  Bytes.forall_byte (by decide)

/-- A number is found up to where it ends. -/
theorem first?_number {n : Numeral} (h : n.IsStrict) {rest : Bytes} (hends : EndsNumber rest) :
    ∃ b more, Bytes.ofText (String.ofList n.text) = b :: more ∧ isSpace b = Bool.false ∧
      first? b (more ++ rest) = some (.number n.number, rest) := by
  have hnumber : ∀ b ∈ Bytes.ofText (String.ofList n.text), isNumberByte b = Bool.true := by
    intro b hb
    rw [Bytes.ofText_ascii fun c hc => (h.of_mem_text hc).1, List.mem_map] at hb
    obtain ⟨c, hc, rfl⟩ := hb
    exact (h.of_mem_text hc).2
  have hread := number?_text h
  generalize Bytes.ofText (String.ofList n.text) = bs at hnumber hread
  cases bs with
  | nil => exact absurd hread (by simp [number?, DecimalLiteral.read?])
  | cons b more =>
    obtain ⟨hmark, hquote, hspace⟩ := of_isNumberByte b (hnumber b List.mem_cons_self)
    have hstop : ∀ a ∈ rest.head?, isNumberByte a = Bool.false := fun a ha =>
      not_isNumberByte_of_ends a (hends a ha)
    obtain ⟨htake, hdrop⟩ :=
      Decimal.takeWhile_run (fun a ha => hnumber a (List.mem_cons_of_mem _ ha)) hstop
    refine ⟨b, more, rfl, hspace, ?_⟩
    simp [first?, hmark, hquote, hnumber b List.mem_cons_self, htake, hdrop, hread]

theorem first?_text {s : String} {bs : Bytes} (h : SpellsText s.toList bs) (rest : Bytes) :
    first? 0x22 (bs ++ 0x22 :: rest) = some (.text (some s), rest) := by
  obtain ⟨ps, hread, hbytes⟩ := readPieces_text h rest
  show (readPieces (bs ++ 0x22 :: rest)).map _ = _
  rw [hread, ← pieceText?_of_bytes hbytes]
  rfl

/-- A token is found at the front of bytes that begin with one of its spellings. -/
theorem first?_of_spells {t : Token} {bs rest : Bytes} (h : Spells t bs)
    (hends : (∃ n, t = .number n) → EndsNumber rest) :
    ∃ b more, bs = b :: more ∧ isSpace b = Bool.false ∧
      first? b (more ++ rest) = some (t, rest) := by
  cases h with
  | openArray => exact ⟨_, _, rfl, rfl, rfl⟩
  | closeArray => exact ⟨_, _, rfl, rfl, rfl⟩
  | openObject => exact ⟨_, _, rfl, rfl, rfl⟩
  | closeObject => exact ⟨_, _, rfl, rfl, rfl⟩
  | comma => exact ⟨_, _, rfl, rfl, rfl⟩
  | colon => exact ⟨_, _, rfl, rfl, rfl⟩
  | null => exact ⟨0x6E, [0x75, 0x6C, 0x6C], rfl, rfl, rfl⟩
  | true => exact ⟨0x74, [0x72, 0x75, 0x65], rfl, rfl, rfl⟩
  | false => exact ⟨0x66, [0x61, 0x6C, 0x73, 0x65], rfl, rfl, rfl⟩
  | number hn => exact first?_number hn (hends ⟨_, rfl⟩)
  | @text s bs hs =>
    refine ⟨0x22, bs ++ [0x22], rfl, rfl, ?_⟩
    rw [List.append_assoc, List.singleton_append]
    exact first?_text hs rest

/-- The tokens are read from their spellings. -/
theorem tokensUpTo_of_spells {ts : List Token} {bs : Bytes} (h : SpellsAll ts bs) {fuel : Nat}
    (hfuel : bs.length < fuel) : tokensUpTo fuel bs = some ts := by
  induction h generalizing fuel with
  | nil =>
    cases fuel with
    | zero => cases hfuel
    | succ fuel => rfl
  | @blank b ts bs hb _ ih =>
    cases fuel with
    | zero => cases hfuel
    | succ fuel =>
      have hspace : blanks.all isSpace = Bool.true := by decide
      rw [tokensUpTo, if_pos (List.all_eq_true.mp hspace b hb)]
      exact ih (Nat.lt_of_succ_lt_succ hfuel)
  | @cons t ts bs rest hspells hends _ ih =>
    obtain ⟨b, more, rfl, hspace, hfirst⟩ := first?_of_spells hspells hends
    cases fuel with
    | zero => cases hfuel
    | succ fuel =>
      have hrest : rest.length < fuel := by
        simp only [List.cons_append, List.length_cons, List.length_append] at hfuel
        omega
      rw [List.cons_append, tokensUpTo, if_neg (by simp [hspace]), hfirst]
      simp only [ih hrest, Option.map_some]

theorem tokens?_of_spells {ts : List Token} {bs : Bytes} (h : SpellsAll ts bs) :
    tokens? bs = some ts :=
  tokensUpTo_of_spells h (Nat.lt_succ_self _)

end AdmissionGate.Json
