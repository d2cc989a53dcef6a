-- Which bytes the keyword screening refuses: those with a screened word among
-- their words, which are their longest runs of word bytes. What stands between
-- the words does not matter, and text is screened as the bytes that it was
-- read from.
import Mathlib.Data.List.TakeWhile
import AdmissionGate.Firewall.Keywords
import AdmissionGate.Proofs.Text.Digits
import AdmissionGate.Proofs.Text.Percent
import AdmissionGate.Proofs.Text.Utf8
import AdmissionGate.Text.Blank

namespace AdmissionGate.KeywordFilter

/-! ## Words -/

/-- The longest runs of word bytes. -/
def wordsOf (bs : Bytes) : List Bytes := (Text.pieces (!isWordByte ·) bs).filter (!·.isEmpty)

@[simp] theorem wordsOf_nil : wordsOf [] = [] := rfl

/-- A byte that belongs to no word parts the words before it from those behind it. -/
theorem wordsOf_append_gap {g : UInt8} (hg : isWordByte g = false) (front back : Bytes) :
    wordsOf (front ++ g :: back) = wordsOf front ++ wordsOf back := by
  unfold wordsOf
  simp only [Text.pieces_eq_splitOnP]
  rw [List.splitOnP_append_cons front back (by simpa using hg), List.filter_append]

theorem wordsOf_gap {g : UInt8} (hg : isWordByte g = false) (back : Bytes) :
    wordsOf (g :: back) = wordsOf back := by
  simpa using wordsOf_append_gap hg [] back

theorem wordsOf_gaps {gaps : Bytes} (h : ∀ g ∈ gaps, isWordByte g = false) (back : Bytes) :
    wordsOf (gaps ++ back) = wordsOf back := by
  induction gaps with
  | nil => rfl
  | cons g more ih =>
    obtain ⟨hg, hmore⟩ := List.forall_mem_cons.mp h
    rw [List.cons_append, wordsOf_gap hg, ih hmore]

theorem wordsOf_append_gaps {gaps : Bytes} (hne : gaps ≠ [])
    (h : ∀ g ∈ gaps, isWordByte g = false) (front back : Bytes) :
    wordsOf (front ++ (gaps ++ back)) = wordsOf front ++ wordsOf back := by
  cases gaps with
  | nil => contradiction
  | cons g more =>
    obtain ⟨hg, hmore⟩ := List.forall_mem_cons.mp h
    rw [List.cons_append, wordsOf_append_gap hg, wordsOf_gaps hmore]

theorem wordsOf_word {w : Bytes} (h : ∀ b ∈ w, isWordByte b = true) (hne : w ≠ []) :
    wordsOf w = [w] := by
  have hpieces : w.splitOnP (!isWordByte ·) = [w] :=
    List.splitOnP_eq_singleton fun b hb => by simp [h b hb]
  rw [wordsOf, Text.pieces_eq_splitOnP, hpieces]
  simp [hne]

/-- Bytes end outside of a word, if not with their last byte. -/
def EndsOutside (front : Bytes) : Prop := ∀ b ∈ front.getLast?, isWordByte b = false

def StartsOutside (back : Bytes) : Prop := ∀ b ∈ back.head?, isWordByte b = false

theorem EndsOutside.behind_gap {g : UInt8} {back : Bytes} (hback : EndsOutside back)
    (hg : isWordByte g = false) (front : Bytes) : EndsOutside (front ++ g :: back) := by
  intro b hb
  rw [List.getLast?_append, List.getLast?_cons, Option.some_or, Option.mem_some_iff] at hb
  cases hlast : back.getLast? with
  | none =>
    rw [hlast] at hb
    exact hb ▸ hg
  | some last =>
    rw [hlast] at hb
    exact hb ▸ hback last hlast

theorem wordsOf_append_of_startsOutside {w back : Bytes} (hback : StartsOutside back) :
    wordsOf (w ++ back) = wordsOf w ++ wordsOf back := by
  cases back with
  | nil => simp
  | cons g more =>
    have hg : isWordByte g = false := hback g rfl
    rw [wordsOf_append_gap hg, wordsOf_gap hg]

theorem wordsOf_append_of_endsOutside {front back : Bytes} (hfront : EndsOutside front) :
    wordsOf (front ++ back) = wordsOf front ++ wordsOf back := by
  cases h : front.getLast? with
  | none =>
    rw [List.getLast?_eq_none_iff] at h
    simp [h]
  | some g =>
    have hg : isWordByte g = false := hfront g h
    obtain ⟨before, rfl⟩ := List.getLast?_eq_some_iff.mp h
    rw [List.append_assoc, List.singleton_append, wordsOf_append_gap hg, wordsOf_append_gap hg]
    simp

/-- Bytes begin with a run of word bytes, perhaps with none, and go on outside of a word. -/
theorem exists_run (bs : Bytes) : ∃ run rest, bs = run ++ rest ∧
    (∀ b ∈ run, isWordByte b = true) ∧ StartsOutside rest := by
  refine ⟨bs.takeWhile isWordByte, bs.dropWhile isWordByte, List.takeWhile_append_dropWhile.symm,
    fun b hb => List.mem_takeWhile_imp hb, fun b hb => ?_⟩
  have hhead := List.head?_dropWhile_not isWordByte bs
  rw [Option.mem_def.mp hb] at hhead
  exact hhead

/-- A word: a run of word bytes that no word byte stands next to. -/
structure IsWordIn (w bs : Bytes) : Prop where
  nonempty : w ≠ []
  word : ∀ b ∈ w, isWordByte b = true
  place : ∃ front back, bs = front ++ w ++ back ∧ EndsOutside front ∧ StartsOutside back

theorem isWordIn_of_mem_wordsOf {w bs : Bytes} (h : w ∈ wordsOf bs) : IsWordIn w bs := by
  -- the words are read off run by run, so the induction is on how many bytes are left
  induction hlength : bs.length using Nat.strongRecOn generalizing bs with
  | ind n ih =>
    obtain ⟨run, rest, rfl, hrun, hrest⟩ := exists_run bs
    rw [wordsOf_append_of_startsOutside hrest, List.mem_append] at h
    obtain h | h := h
    · by_cases hne : run = []
      · simp [hne] at h
      · rw [wordsOf_word hrun hne, List.mem_singleton] at h
        subst h
        exact ⟨hne, hrun, [], rest, by simp, by simp [EndsOutside], hrest⟩
    · cases rest with
      | nil => simp at h
      | cons g more =>
        have hg : isWordByte g = false := hrest g rfl
        rw [wordsOf_gap hg] at h
        rw [List.length_append, List.length_cons] at hlength
        obtain ⟨hne, hword, front, back, rfl, hfront, hback⟩ := ih more.length (by omega) h rfl
        exact ⟨hne, hword, run ++ g :: front, back, by simp, hfront.behind_gap hg run, hback⟩

theorem mem_wordsOf_iff {w bs : Bytes} : w ∈ wordsOf bs ↔ IsWordIn w bs := by
  refine ⟨isWordIn_of_mem_wordsOf, ?_⟩
  rintro ⟨hne, hword, front, back, rfl, hfront, hback⟩
  rw [List.append_assoc, wordsOf_append_of_endsOutside hfront,
    wordsOf_append_of_startsOutside hback, wordsOf_word hword hne]
  simp

/-! ## Screening -/

variable {f : KeywordFilter}

/-- A filter whose words are words. -/
def HasWords (f : KeywordFilter) : Prop :=
  ∀ word ∈ f.words, word ≠ [] ∧ ∀ b ∈ word, isWordByte b = true

theorem hasWords_standard : standard.HasWords := by
  have hall : standard.words.all (fun word => !word.isEmpty && word.all isWordByte) = true := by
    decide
  intro word hword
  simpa using List.all_eq_true.mp hall word hword

/-- Whether a word is screened, in any mixture of cases. -/
def screens (f : KeywordFilter) (w : Bytes) : Bool := f.words.contains (w.map lowerByte)

theorem isWordByte_lowerByte (b : UInt8) : isWordByte (lowerByte b) = isWordByte b := by
  revert b
  exact Bytes.forall_byte (by decide +kernel)

theorem standsAt_iff {word bs : Bytes} (h : ∀ b ∈ word, isWordByte b = true) :
    standsAt word bs = true ↔ (bs.takeWhile isWordByte).map lowerByte = word := by
  induction word generalizing bs with
  | nil =>
    cases bs with
    | nil => simp [standsAt]
    | cons b bs => cases hb : isWordByte b <;> simp [standsAt, hb]
  | cons c word ih =>
    obtain ⟨hc, hword⟩ := List.forall_mem_cons.mp h
    cases bs with
    | nil => simp [standsAt]
    | cons b bs =>
      rw [standsAt, Bool.and_eq_true, beq_iff_eq, ih hword]
      cases hb : isWordByte b with
      | true => simp [hb]
      | false =>
        have hne : lowerByte b ≠ c := by
          rintro rfl
          rw [isWordByte_lowerByte, hb] at hc
          cases hc
        simp [hb, hne]

theorem any_standsAt (hf : f.HasWords) (bs : Bytes) :
    f.words.any (standsAt · bs) = f.screens (bs.takeWhile isWordByte) := by
  rw [Bool.eq_iff_iff, List.any_eq_true, screens, List.contains_iff_mem]
  constructor
  · rintro ⟨word, hword, hstands⟩
    rwa [(standsAt_iff (hf word hword).2).mp hstands]
  · intro hmem
    exact ⟨_, hmem, (standsAt_iff (hf _ hmem).2).mpr rfl⟩

theorem word_of_screens (hf : f.HasWords) {w : Bytes} (h : f.screens w = true) :
    w ≠ [] ∧ ∀ b ∈ w, isWordByte b = true := by
  rw [screens, List.contains_iff_mem] at h
  obtain ⟨hne, hword⟩ := hf _ h
  refine ⟨fun hnil => hne (by rw [hnil]; rfl), fun b hb => ?_⟩
  rw [← isWordByte_lowerByte]
  exact hword _ (List.mem_map_of_mem hb)

theorem screens_nil (hf : f.HasWords) : f.screens [] = false := by
  by_contra h
  exact (word_of_screens hf (Bool.not_eq_false _ ▸ h)).1 rfl

/-- Behind a word byte, the run that goes on is no whole word. -/
theorem matchesFrom_run {run : Bytes} (hrun : ∀ b ∈ run, isWordByte b = true) (rest : Bytes) :
    f.matchesFrom true (run ++ rest) = f.matchesFrom true rest := by
  induction run with
  | nil => rfl
  | cons b run ih =>
    obtain ⟨hb, hrun⟩ := List.forall_mem_cons.mp hrun
    rw [List.cons_append, matchesFrom, hb, ih hrun]
    rfl

theorem isDangerous_gap (hf : f.HasWords) {g : UInt8} (hg : isWordByte g = false) (back : Bytes) :
    f.isDangerous (g :: back) = f.isDangerous back := by
  have hnone : f.words.any (standsAt · (g :: back)) = false := by
    rw [any_standsAt hf, List.takeWhile_cons_of_neg (by simp [hg]), screens_nil hf]
  rw [isDangerous, matchesFrom, hnone, hg]
  rfl

/-- The screening looks at the first run, and then at what follows it. -/
theorem isDangerous_run (hf : f.HasWords) {run rest : Bytes}
    (hrun : ∀ b ∈ run, isWordByte b = true) (hrest : StartsOutside rest) :
    f.isDangerous (run ++ rest) = (f.screens run || f.isDangerous rest) := by
  have htake := (Decimal.takeWhile_run hrun hrest).1
  have hbehind : f.matchesFrom true rest = f.isDangerous rest := by
    cases rest with
    | nil => rfl
    | cons g more =>
      have hg : isWordByte g = false := hrest g rfl
      rw [isDangerous_gap hf hg, isDangerous, matchesFrom, hg]
      rfl
  cases run with
  | nil => rw [screens_nil hf, List.nil_append, Bool.false_or]
  | cons b run =>
    obtain ⟨hb, hrun⟩ := List.forall_mem_cons.mp hrun
    have hany := any_standsAt hf (b :: (run ++ rest))
    rw [← List.cons_append, htake] at hany
    rw [← hbehind, ← matchesFrom_run hrun, isDangerous, List.cons_append, matchesFrom,
      ← List.cons_append, hany, hb]
    rfl

/-- Bytes are refused if one of their words is screened. -/
theorem isDangerous_eq (hf : f.HasWords) (bs : Bytes) :
    f.isDangerous bs = (wordsOf bs).any f.screens := by
  induction hlength : bs.length using Nat.strongRecOn generalizing bs with
  | ind n ih =>
    obtain ⟨run, rest, rfl, hrun, hrest⟩ := exists_run bs
    have hfirst : (wordsOf run).any f.screens = f.screens run := by
      by_cases hne : run = []
      · simp [hne, screens_nil hf]
      · simp [wordsOf_word hrun hne]
    have hmore : f.isDangerous rest = (wordsOf rest).any f.screens := by
      cases rest with
      | nil => rfl
      | cons g more =>
        have hg : isWordByte g = false := hrest g rfl
        rw [List.length_append, List.length_cons] at hlength
        rw [isDangerous_gap hf hg, wordsOf_gap hg, ih more.length (by omega) more rfl]
    rw [isDangerous_run hf hrun hrest, wordsOf_append_of_startsOutside hrest, List.any_append,
      hfirst, hmore]

theorem isDangerous_append_gap (hf : f.HasWords) {g : UInt8} (hg : isWordByte g = false)
    (front back : Bytes) :
    f.isDangerous (front ++ g :: back) = (f.isDangerous front || f.isDangerous back) := by
  simp only [isDangerous_eq hf, wordsOf_append_gap hg, List.any_append]

/-! ## Text -/

theorem isWordByte_of_not_ascii : ∀ b : UInt8, 0x80 ≤ b → isWordByte b = false :=
  Bytes.forall_byte (by decide +kernel)

/-- A character that has been begun can only become one beyond ASCII. -/
structure Begun (p : Bytes.Pending) : Prop where
  low : 0x80 ≤ p.low
  high : p.high ≤ 0xBF
  wide : 1 ≤ p.bits ∨ 0x90 ≤ p.low
  last : p.more = 0 → 2 ≤ p.bits

theorem begun_of_ofLead {b : UInt8} {p : Bytes.Pending} (h : Bytes.Pending.ofLead b = some p) :
    Begun p := by
  have hall : ∀ b : UInt8, ∀ p ∈ Bytes.Pending.ofLead b, 0x80 ≤ p.low ∧ p.high ≤ 0xBF ∧
      (1 ≤ p.bits ∨ 0x90 ≤ p.low) ∧ (p.more = 0 → 2 ≤ p.bits) :=
    Bytes.forall_byte (by decide +kernel)
  obtain ⟨hlow, hhigh, hwide, hlast⟩ := hall b p h
  exact ⟨hlow, hhigh, hwide, hlast⟩

/-- With its next byte, a begun character has more bits than one of ASCII could have there. -/
theorem Begun.bits {p : Bytes.Pending} (h : Begun p) {b : UInt8} (hlow : p.low ≤ b)
    (hhigh : b ≤ p.high) : 2 ≤ p.bits * 64 + b.toNat % 64 ∧
      (p.more = 0 → 0x80 ≤ p.bits * 64 + b.toNat % 64) := by
  obtain ⟨hascii, hrange, hwide, hlast⟩ := h
  simp only [UInt8.le_iff_toNat_le, UInt8.reduceToNat] at hlow hhigh hascii hrange hwide
  omega

/-- The bytes of parts of text, with U+FFFD for what is ill-formed. -/
def bytesOf (parts : List (Option Char)) : Bytes :=
  parts.flatMap fun part => String.utf8EncodeChar (part.getD '\uFFFD')

theorem ofText_toTextLossy (bs : Bytes) :
    Bytes.ofText (Bytes.toTextLossy bs) = bytesOf (Bytes.parts bs) := by
  rw [Bytes.toTextLossy, Bytes.ofText_ofList, List.flatMap_map]
  rfl

theorem gaps_of_not_ascii {n : Nat} (h : 0x80 ≤ n) :
    ∀ g ∈ String.utf8EncodeChar (Char.ofNat n), isWordByte g = false := by
  intro g hg
  by_cases hvalid : n.isValidChar
  · have hchar : (Char.ofNat n).toNat = n := by
      rw [Char.ofNat, dif_pos hvalid]
      rfl
    exact isWordByte_of_not_ascii g (Bytes.le_of_mem_utf8EncodeChar (hchar.symm ▸ h) hg)
  · rw [Char.ofNat, dif_neg hvalid] at hg
    have hzero : g = 0 := List.mem_singleton.mp hg
    rw [hzero]
    rfl

variable (parts : List (Option Char))

theorem bytesOf_ascii {b : UInt8} (h : b < 0x80) :
    bytesOf (some (Char.ofNat b.toNat) :: parts) = b :: bytesOf parts := by
  rw [bytesOf, List.flatMap_cons, Option.getD_some, Percent.utf8EncodeChar_ascii h]
  rfl

theorem wordsOf_bytesOf_char {n : Nat} (h : 0x80 ≤ n) (front : Bytes) :
    wordsOf (front ++ bytesOf (some (Char.ofNat n) :: parts)) =
      wordsOf front ++ wordsOf (bytesOf parts) :=
  wordsOf_append_gaps String.utf8EncodeChar_ne_nil (gaps_of_not_ascii h) front _

theorem wordsOf_bytesOf_none (front : Bytes) :
    wordsOf (front ++ bytesOf (none :: parts)) = wordsOf front ++ wordsOf (bytesOf parts) :=
  wordsOf_bytesOf_char parts (n := 0xFFFD) (by decide) front

/-- Reading bytes as text leaves their words alone, also behind a character that has been begun:
this one parts the words whatever becomes of it. -/
structure LeavesWords (bs : Bytes) : Prop where
  fresh : ∀ front, wordsOf (front ++ bytesOf (Bytes.partsFrom none bs)) = wordsOf (front ++ bs)
  begun : ∀ p, Begun p → ∀ front, wordsOf (front ++ bytesOf (Bytes.partsFrom (some p) bs)) =
    wordsOf front ++ wordsOf bs

theorem leavesWords_nil : LeavesWords [] :=
  ⟨fun _ => rfl, fun _ _ front => wordsOf_bytesOf_none [] front⟩

namespace LeavesWords

variable {rest : Bytes} {b : UInt8}

theorem words_rest (h : LeavesWords rest) :
    wordsOf (bytesOf (Bytes.partsFrom none rest)) = wordsOf rest := by
  simpa using h.fresh []

theorem ascii_cons (h : LeavesWords rest) (hb : b < 0x80) (front : Bytes) :
    wordsOf (front ++ bytesOf (some (Char.ofNat b.toNat) :: Bytes.partsFrom none rest)) =
      wordsOf (front ++ b :: rest) := by
  have hfront := h.fresh (front ++ [b])
  rw [List.append_assoc, List.append_assoc] at hfront
  rw [bytesOf_ascii _ hb]
  exact hfront

theorem fresh_cons (h : LeavesWords rest) (front : Bytes) :
    wordsOf (front ++ bytesOf (Bytes.partsFrom none (b :: rest))) = wordsOf (front ++ b :: rest) := by
  rw [Bytes.partsFrom]
  split
  · case isTrue hb => exact h.ascii_cons hb front
  · case isFalse hb =>
    rw [wordsOf_append_gap (isWordByte_of_not_ascii b (UInt8.not_lt.mp hb))]
    split
    · case h_1 p hlead => exact h.begun p (begun_of_ofLead hlead) front
    · rw [wordsOf_bytesOf_none, h.words_rest]

/-- A byte that goes on with a character ends it or leaves it begun; any other byte makes it
ill-formed and is read anew. -/
theorem begun_cons (h : LeavesWords rest) {p : Bytes.Pending} (hp : Begun p) (front : Bytes) :
    wordsOf (front ++ bytesOf (Bytes.partsFrom (some p) (b :: rest))) =
      wordsOf front ++ wordsOf (b :: rest) := by
  rw [Bytes.partsFrom]
  split
  · case isTrue hrange =>
    have hbits := hp.bits hrange.1 hrange.2
    rw [wordsOf_gap (isWordByte_of_not_ascii b (UInt8.le_trans hp.low hrange.1))]
    split
    · case h_1 hmore => rw [wordsOf_bytesOf_char _ (hbits.2 hmore), h.words_rest]
    · case h_2 more hmore =>
      have hnext : Begun ⟨more, 0x80, 0xBF, p.bits * 64 + b.toNat % 64⟩ :=
        ⟨UInt8.le_refl _, UInt8.le_refl _, .inl (Nat.le_of_succ_le hbits.1), fun _ => hbits.1⟩
      exact h.begun _ hnext front
  · have hanew := h.fresh_cons (b := b) []
    rw [Bytes.partsFrom] at hanew
    split
    · case isTrue hb =>
      rw [if_pos hb] at hanew
      rw [wordsOf_bytesOf_none]
      exact congrArg _ hanew
    · case isFalse hb =>
      rw [if_neg hb] at hanew
      split
      · case h_1 q hlead =>
        rw [hlead] at hanew
        rw [wordsOf_bytesOf_none]
        exact congrArg _ hanew
      · case h_2 hlead =>
        rw [hlead] at hanew
        rw [wordsOf_bytesOf_none]
        exact congrArg _ hanew

end LeavesWords

theorem leavesWords (bs : Bytes) : LeavesWords bs := by
  induction bs with
  | nil => exact leavesWords_nil
  | cons b rest ih => exact ⟨ih.fresh_cons, fun p hp => ih.begun_cons hp⟩

/-- Text has the words of the bytes that it was read from. -/
theorem wordsOf_toTextLossy (bs : Bytes) :
    wordsOf (Bytes.ofText (Bytes.toTextLossy bs)) = wordsOf bs := by
  rw [ofText_toTextLossy]
  exact (leavesWords bs).words_rest

/-- Text is screened as the bytes that it was read from. -/
theorem isDangerous_toTextLossy (hf : f.HasWords) (bs : Bytes) :
    f.isDangerous (Bytes.ofText (Bytes.toTextLossy bs)) = f.isDangerous bs := by
  rw [isDangerous_eq hf, isDangerous_eq hf, wordsOf_toTextLossy]

end AdmissionGate.KeywordFilter
