-- How the spelling of a query bears on its screening. The words of a query as
-- it is written are compared with the words of what it means, symbol by
-- symbol: they differ only where an escape stands for a byte of a word or
-- next to one.
import AdmissionGate.Proofs.Firewall.Keywords
import AdmissionGate.Proofs.Text.Symbols

namespace AdmissionGate

open FormEncoding (Symbol symbols spacedByte)

namespace KeywordFilter

/-! ## Symbols of words -/

theorem isWordByte_of_isDigit {b : UInt8} : Percent.IsDigit b → isWordByte b = true := by
  have hall : ∀ b : UInt8, (Hex.value? (Char.ofNat b.toNat)).isSome = true → isWordByte b = true :=
    Bytes.forall_byte (by decide +kernel)
  exact hall b

/-- A plain symbol means a byte of a word if it is one, and then means it. -/
theorem isWordByte_spacedByte (b : UInt8) : isWordByte (spacedByte b) = isWordByte b := by
  by_cases hb : b = 0x2B
  · subst hb
    rfl
  · simp [spacedByte, hb]

theorem spacedByte_of_isWordByte {b : UInt8} (h : isWordByte b = true) : spacedByte b = b := by
  have hb : b ≠ 0x2B := by
    rintro rfl
    cases h
  simp [spacedByte, hb]

variable {σ front run back : List Symbol}

/-- A word that symbols mean: a run of symbols that mean word bytes, between others. -/
structure IsMeantIn (run front back σ : List Symbol) : Prop where
  split : σ = front ++ run ++ back
  word : ∀ s ∈ run, isWordByte s.meant = true
  before : ∀ s ∈ front.getLast?, isWordByte s.meant = false
  after : ∀ s ∈ back.head?, isWordByte s.meant = false

/-- The words that symbols mean are the words of the meant bytes. -/
theorem isWordIn_meant_iff {w : Bytes} : IsWordIn w (σ.map Symbol.meant) ↔
    w ≠ [] ∧ ∃ front run back, IsMeantIn run front back σ ∧ w = run.map Symbol.meant := by
  constructor
  · rintro ⟨hne, hword, front, back, hsplit, hfront, hback⟩
    obtain ⟨rest, σback, rfl, hrest, rfl⟩ := List.map_eq_append_iff.mp hsplit
    obtain ⟨σfront, run, rfl, rfl, rfl⟩ := List.map_eq_append_iff.mp hrest
    refine ⟨hne, σfront, run, σback, ⟨rfl, by simpa using hword, ?_, ?_⟩, rfl⟩
    · intro s hs
      exact hfront _ (by simp [Option.mem_def.mp hs])
    · intro s hs
      exact hback _ (by simp [Option.mem_def.mp hs])
  · rintro ⟨hne, front, run, back, ⟨rfl, hword, hbefore, hafter⟩, rfl⟩
    refine ⟨hne, by simpa using hword, front.map Symbol.meant, back.map Symbol.meant, by simp,
      ?_, ?_⟩
    · intro b hb
      rw [List.getLast?_map, Option.mem_def, Option.map_eq_some_iff] at hb
      obtain ⟨s, hs, rfl⟩ := hb
      exact hbefore s hs
    · intro b hb
      rw [List.head?_map, Option.mem_def, Option.map_eq_some_iff] at hb
      obtain ⟨s, hs, rfl⟩ := hb
      exact hafter s hs

/-! ## Written words -/

/-- A word that is meant is hidden if it is written with an escape, or directly behind one. -/
def IsHidden (front run : List Symbol) : Prop :=
  (∃ s ∈ run, s.isEscape = true) ∨ ∃ s ∈ front.getLast?, s.isEscape = true

/-- A screened word is written, but not meant: it goes on with an escape, or it begins with the
digits of one. -/
def Feigns (f : KeywordFilter) (σ : List Symbol) : Prop :=
  ∃ front word back, σ = front ++ word.map Symbol.plain ++ back ∧
    ((f.screens word = true ∧ EndsOutside (front.flatMap Symbol.written) ∧
        ∃ s ∈ back.head?, s.isEscape = true ∧ isWordByte s.meant = true) ∨
      (StartsOutside (back.flatMap Symbol.written) ∧ ∃ high low b reads,
        front.getLast? = some (.escape high low b reads) ∧ f.screens (high :: low :: word) = true))

/-- Word bytes that are written at the front of symbols are plain. -/
theorem eq_plain_of_written {w rest : Bytes} (h : σ.flatMap Symbol.written = w ++ rest)
    (hword : ∀ b ∈ w, isWordByte b = true) :
    ∃ back, σ = w.map Symbol.plain ++ back ∧ back.flatMap Symbol.written = rest := by
  induction w generalizing σ with
  | nil => exact ⟨σ, rfl, h⟩
  | cons b w ih =>
    obtain ⟨hb, hword⟩ := List.forall_mem_cons.mp hword
    cases σ with
    | nil => cases h
    | cons s σ =>
      cases s with
      | plain c =>
        rw [List.flatMap_cons] at h
        injection h with hc h
        obtain ⟨back, rfl, hback⟩ := ih h hword
        exact ⟨back, by rw [hc]; rfl, hback⟩
      | escape high low c reads =>
        rw [List.flatMap_cons] at h
        injection h with hpercent
        rw [← hpercent] at hb
        cases hb

theorem EndsOutside.tail {b : UInt8} {bs : Bytes} (h : EndsOutside (b :: bs)) : EndsOutside bs := by
  intro last hlast
  apply h
  rw [List.getLast?_cons, Option.mem_def.mp hlast]
  rfl

/-- Where the written bytes of symbols come apart: between two symbols, or behind the percent
sign of an escape. -/
inductive CutAt (σ : List Symbol) (x rest : Bytes) : Prop where
  | between (front back : List Symbol) (split : σ = front ++ back)
      (hx : x = front.flatMap Symbol.written) (hrest : rest = back.flatMap Symbol.written)
  | inside (front back : List Symbol) (high low b : UInt8) (reads : Percent.byte? high low = some b)
      (split : σ = front ++ .escape high low b reads :: back)
      (hx : x = front.flatMap Symbol.written ++ [0x25])
      (hrest : rest = high :: low :: back.flatMap Symbol.written)

theorem CutAt.cons {x rest : Bytes} (h : CutAt σ x rest) (s : Symbol) :
    CutAt (s :: σ) (s.written ++ x) rest := by
  cases h with
  | between front back split hx hrest =>
    exact .between (s :: front) back (by rw [split]; rfl) (by rw [hx, List.flatMap_cons]) hrest
  | inside front back high low b reads split hx hrest =>
    exact .inside (s :: front) back high low b reads (by rw [split]; rfl)
      (by rw [hx, List.flatMap_cons, List.append_assoc]) hrest

/-- Outside of words, written bytes come apart in no other place. -/
theorem cutAt_of_endsOutside {x rest : Bytes} (h : σ.flatMap Symbol.written = x ++ rest)
    (hx : EndsOutside x) : CutAt σ x rest := by
  induction σ generalizing x with
  | nil =>
    obtain ⟨rfl, rfl⟩ := List.append_eq_nil_iff.mp h.symm
    exact .between [] [] rfl rfl rfl
  | cons s σ ih =>
    cases x with
    | nil => exact .between [] (s :: σ) rfl rfl h.symm
    | cons c x =>
      cases s with
      | plain b =>
        injection h with hb h
        subst hb
        exact (ih h hx.tail).cons (.plain b)
      | escape high low b reads =>
        injection h with hpercent h
        subst hpercent
        match x with
        | [] => exact .inside [] σ high low b reads rfl rfl h.symm
        | [digit] =>
          -- the byte in front of the second digit is the first one
          injection h with hdigit
          have hword := isWordByte_of_isDigit (Percent.isDigit_of_byte? reads).1
          rw [hdigit, hx digit rfl] at hword
          cases hword
        | first :: second :: x =>
          injection h with hfirst h
          injection h with hsecond h
          subst hfirst hsecond
          exact (ih h hx.tail.tail.tail).cons (.escape high low b reads)

/-- What is written ends outside of a word if it ends neither with an escape nor with a plain
byte of a word. -/
theorem endsOutside_written_iff : EndsOutside (front.flatMap Symbol.written) ↔
    ∀ s ∈ front.getLast?, s.isEscape = false ∧ isWordByte s.meant = false := by
  obtain rfl | ⟨before, s, rfl⟩ := List.eq_nil_or_concat front
  · simp [EndsOutside]
  · cases s with
    | plain b =>
      simp [EndsOutside, Symbol.written, Symbol.isEscape, Symbol.meant, isWordByte_spacedByte]
    | escape high low b reads =>
      have hlow := isWordByte_of_isDigit (Percent.isDigit_of_byte? reads).2
      simp [EndsOutside, Symbol.written, Symbol.isEscape, hlow]

theorem startsOutside_written_iff : StartsOutside (back.flatMap Symbol.written) ↔
    ∀ s ∈ back.head?, s.isEscape = true ∨ isWordByte s.meant = false := by
  cases back with
  | nil => simp [StartsOutside]
  | cons s more =>
    cases s with
    | plain b =>
      simp [StartsOutside, Symbol.written, Symbol.isEscape, Symbol.meant, isWordByte_spacedByte]
    | escape high low b reads =>
      have hpercent : isWordByte 0x25 = false := by decide
      simp [StartsOutside, Symbol.written, Symbol.isEscape, hpercent]

/-- Word bytes that are written plainly are what they mean. -/
theorem map_meant_plain {w : Bytes} (h : ∀ b ∈ w, isWordByte b = true) :
    (w.map Symbol.plain).map Symbol.meant = w := by
  have hself : ∀ b ∈ w, (Symbol.meant ∘ Symbol.plain) b = b :=
    fun b hb => spacedByte_of_isWordByte (h b hb)
  rw [List.map_map, List.map_congr_left hself, List.map_id']

/-- Plain symbols that mean word bytes are written as these. -/
theorem written_of_plain (hplain : ∀ s ∈ run, s.isEscape = false)
    (hword : ∀ s ∈ run, isWordByte s.meant = true) :
    run.flatMap Symbol.written = run.map Symbol.meant := by
  induction run with
  | nil => rfl
  | cons s run ih =>
    obtain ⟨hs, hrest⟩ := List.forall_mem_cons.mp hplain
    obtain ⟨hsword, hrestword⟩ := List.forall_mem_cons.mp hword
    cases s with
    | plain b =>
      have hb : isWordByte b = true := by rwa [← isWordByte_spacedByte]
      rw [List.flatMap_cons, List.map_cons, ih hrest hrestword]
      simp [Symbol.written, Symbol.meant, spacedByte_of_isWordByte hb]
    | escape => cases hs

variable {f : KeywordFilter}

/-- A word that is meant and not hidden is written. -/
theorem isWordIn_written_of_meant (h : IsMeantIn run front back σ) (hne : run ≠ [])
    (hhidden : ¬IsHidden front run) : IsWordIn (run.map Symbol.meant) (σ.flatMap Symbol.written) := by
  obtain ⟨hsplit, hword, hbefore, hafter⟩ := h
  simp only [IsHidden, not_or, not_exists, not_and, Bool.not_eq_true] at hhidden
  subst hsplit
  refine ⟨by simpa using hne, by simpa using hword, front.flatMap Symbol.written,
    back.flatMap Symbol.written, ?_, ?_, ?_⟩
  · rw [List.flatMap_append, List.flatMap_append, written_of_plain hhidden.1 hword]
  · exact endsOutside_written_iff.mpr fun s hs => ⟨hhidden.2 s hs, hbefore s hs⟩
  · exact startsOutside_written_iff.mpr fun s hs => Or.inr (hafter s hs)

/-- A word that is written with symbols of its own is meant, unless it goes on with an escape. -/
theorem meant_or_feigned_of_plain {w : Bytes} (hsplit : σ = front ++ w.map Symbol.plain ++ back)
    (hword : ∀ b ∈ w, isWordByte b = true) (hscreens : f.screens w = true)
    (hfront : EndsOutside (front.flatMap Symbol.written))
    (hback : StartsOutside (back.flatMap Symbol.written)) :
    (∃ front run back, IsMeantIn run front back σ ∧ ¬IsHidden front run ∧
      run.map Symbol.meant = w) ∨ Feigns f σ := by
  by_cases hgoes : ∃ s ∈ back.head?, s.isEscape = true ∧ isWordByte s.meant = true
  · exact Or.inr ⟨front, w, back, hsplit, Or.inl ⟨hscreens, hfront, hgoes⟩⟩
  · rw [endsOutside_written_iff] at hfront
    rw [startsOutside_written_iff] at hback
    have hmeant : IsMeantIn (w.map Symbol.plain) front back σ :=
      { split := hsplit
        word := by simpa [Symbol.meant, isWordByte_spacedByte] using hword
        before := fun s hs => (hfront s hs).2
        after := fun s hs => (hback s hs).elim
          (fun hescape => Bool.eq_false_iff.mpr fun hgo => hgoes ⟨s, hs, hescape, hgo⟩) id }
    refine Or.inl ⟨front, w.map Symbol.plain, back, hmeant, ?_, map_meant_plain hword⟩
    rintro (⟨s, hs, hescape⟩ | ⟨s, hs, hescape⟩)
    · obtain ⟨b, -, rfl⟩ := List.mem_map.mp hs
      cases hescape
    · rw [(hfront s hs).1] at hescape
      cases hescape

/-- A word that begins inside of an escape has both of its digits, and is feigned. -/
theorem feigns_of_digits {w y : Bytes} {high low b : UInt8}
    {reads : Percent.byte? high low = some b}
    (hsplit : σ = front ++ .escape high low b reads :: back)
    (hplace : w ++ y = high :: low :: back.flatMap Symbol.written) (hne : w ≠ [])
    (hword : ∀ b ∈ w, isWordByte b = true) (hy : StartsOutside y) (hscreens : f.screens w = true) :
    Feigns f σ := by
  cases w with
  | nil => contradiction
  | cons first w =>
    cases w with
    | nil =>
      simp only [List.cons_append, List.nil_append, List.cons.injEq] at hplace
      have hout : isWordByte low = false := hy low (by rw [hplace.2]; rfl)
      rw [isWordByte_of_isDigit (Percent.isDigit_of_byte? reads).2] at hout
      cases hout
    | cons second w =>
      simp only [List.cons_append, List.cons.injEq] at hplace
      obtain ⟨rfl, rfl, hplace⟩ := hplace
      have hrest : ∀ b ∈ w, isWordByte b = true := fun b hb => hword b (by simp [hb])
      obtain ⟨back, rfl, rfl⟩ := eq_plain_of_written hplace.symm hrest
      exact ⟨front ++ [.escape first second b reads], w, back, by simp [hsplit],
        Or.inr ⟨hy, first, second, b, reads, by simp, hscreens⟩⟩

/-- A word that is written is meant and not hidden, or feigned. -/
theorem meant_or_feigned_of_written {w : Bytes} (h : IsWordIn w (σ.flatMap Symbol.written))
    (hscreens : f.screens w = true) : (∃ front run back, IsMeantIn run front back σ ∧
      ¬IsHidden front run ∧ run.map Symbol.meant = w) ∨ Feigns f σ := by
  obtain ⟨hne, hword, x, y, hplace, hx, hy⟩ := h
  rw [List.append_assoc] at hplace
  cases cutAt_of_endsOutside hplace hx with
  | between front back hsplit hfront hback =>
    obtain ⟨back, rfl, rfl⟩ := eq_plain_of_written hback.symm hword
    rw [← List.append_assoc] at hsplit
    exact meant_or_feigned_of_plain hsplit hword hscreens (hfront ▸ hx) hy
  | inside front back high low b reads hsplit hfront hback =>
    exact Or.inr (feigns_of_digits hsplit hback hne hword hy hscreens)

theorem flatMap_written_plain (w : Bytes) : (w.map Symbol.plain).flatMap Symbol.written = w := by
  simp [List.flatMap_map, Symbol.written]

/-- A feigned word is written. -/
theorem exists_written_of_feigns (hf : f.HasWords) (h : Feigns f σ) :
    ∃ w, IsWordIn w (σ.flatMap Symbol.written) ∧ f.screens w = true := by
  obtain ⟨front, w, back, rfl, ⟨hscreens, hfront, s, hs, hescape, -⟩ |
    ⟨hback, high, low, b, reads, hlast, hscreens⟩⟩ := h
  · obtain ⟨hne, hword⟩ := word_of_screens hf hscreens
    refine ⟨w, ⟨hne, hword, front.flatMap Symbol.written, back.flatMap Symbol.written, ?_, hfront,
      startsOutside_written_iff.mpr fun t ht => ?_⟩, hscreens⟩
    · simp only [List.flatMap_append, flatMap_written_plain]
    · rw [Option.mem_unique ht hs]
      exact Or.inl hescape
  · obtain ⟨hne, hword⟩ := word_of_screens hf hscreens
    obtain ⟨before, rfl⟩ := List.getLast?_eq_some_iff.mp hlast
    refine ⟨high :: low :: w, ⟨hne, hword, before.flatMap Symbol.written ++ [0x25],
      back.flatMap Symbol.written, ?_, ?_, hback⟩, hscreens⟩
    · simp only [List.flatMap_append, flatMap_written_plain]
      simp [Symbol.written]
    · intro last hlast
      rw [List.getLast?_append, List.getLast?_singleton] at hlast
      cases hlast
      rfl

theorem ne_nil_of_screens (hf : f.HasWords) (h : f.screens (run.map Symbol.meant) = true) :
    run ≠ [] := by
  rintro rfl
  exact (word_of_screens hf h).1 rfl

/-- A query is refused if a screened word is meant in it and not hidden, or if one is feigned. -/
theorem isDangerous_written_iff (hf : f.HasWords) :
    f.isDangerous (σ.flatMap Symbol.written) = true ↔
      (∃ front run back, IsMeantIn run front back σ ∧ ¬IsHidden front run ∧
        f.screens (run.map Symbol.meant) = true) ∨ Feigns f σ := by
  simp only [isDangerous_eq hf, List.any_eq_true, mem_wordsOf_iff]
  constructor
  · rintro ⟨w, hw, hscreens⟩
    obtain ⟨front, run, back, hmeant, hhidden, rfl⟩ | hfeigns :=
      meant_or_feigned_of_written hw hscreens
    · exact Or.inl ⟨front, run, back, hmeant, hhidden, hscreens⟩
    · exact Or.inr hfeigns
  · rintro (⟨front, run, back, hmeant, hhidden, hscreens⟩ | hfeigns)
    · have hne := ne_nil_of_screens hf hscreens
      exact ⟨_, isWordIn_written_of_meant hmeant hne hhidden, hscreens⟩
    · exact exists_written_of_feigns hf hfeigns

/-! ## Parameters -/

/-- Whether a screened word stands in a name or a value. -/
def carries (f : KeywordFilter) (params : List (String × String)) : Bool :=
  params.any fun p => f.isDangerous (Bytes.ofText p.1) || f.isDangerous (Bytes.ofText p.2)

/-- What holds of bytes if it does on either side of a separator holds of one of the pieces. -/
theorem any_pieces {holds : Bytes → Bool} {g : UInt8}
    (hsplit : ∀ x y, holds (x ++ g :: y) = (holds x || holds y)) (bs : Bytes) :
    (Text.pieces (· == g) bs).any holds = holds bs := by
  have hparts : ∀ parts : List Bytes, parts ≠ [] →
      parts.any holds = holds ([g].intercalate parts) := by
    intro parts hne
    induction parts with
    | nil => contradiction
    | cons part parts ih =>
      cases parts with
      | nil => simp
      | cons next more =>
        rw [List.any_cons, ih (List.cons_ne_nil next more), List.intercalate_cons_cons,
          List.append_assoc, List.singleton_append, hsplit]
  rw [Text.pieces_eq_splitOnP, ← List.splitOn_eq_splitOnP, hparts _ (List.splitOn_ne_nil g bs),
    List.intercalate_splitOn]

/-- Whether a screened word is in what some bytes of a query mean. -/
def means (f : KeywordFilter) (bs : Bytes) : Bool :=
  f.isDangerous (Percent.decode (FormEncoding.spaced bs))

/-- Pairs, and the name and the value of a pair, mean what they mean next to one another. -/
theorem means_append (hf : f.HasWords) {g : UInt8} (hg : g = 0x26 ∨ g = 0x3D) (x y : Bytes) :
    f.means (x ++ g :: y) = (f.means x || f.means y) := by
  have hplus : spacedByte g = g := by obtain rfl | rfl := hg <;> rfl
  have hgap : isWordByte g = false := by obtain rfl | rfl := hg <;> rfl
  have hseparates : Percent.Separates g := by
    refine ⟨by obtain rfl | rfl := hg <;> decide, fun hdigit => ?_⟩
    rw [isWordByte_of_isDigit hdigit] at hgap
    cases hgap
  rw [means, FormEncoding.spaced_append, FormEncoding.spaced_cons, hplus,
    Percent.decode_append_cons hseparates]
  exact isDangerous_append_gap hf hgap _ _

theorem means_readPair (hf : f.HasWords) (part : Bytes) :
    (f.isDangerous (Bytes.ofText (FormEncoding.readPair part).1) ||
      f.isDangerous (Bytes.ofText (FormEncoding.readPair part).2)) = f.means part := by
  have htext : ∀ bs, f.isDangerous (Bytes.ofText (FormEncoding.decode bs)) = f.means bs :=
    fun bs => isDangerous_toTextLossy hf _
  have hhead := List.head?_dropWhile_not (· != 0x3D) part
  have hpart := List.takeWhile_append_dropWhile (p := (· != 0x3D)) (l := part)
  rw [FormEncoding.readPair, htext, htext]
  cases hvalue : part.dropWhile (· != 0x3D) with
  | nil =>
    rw [hvalue, List.append_nil] at hpart
    rw [hpart, List.drop_nil]
    exact Bool.or_false _
  | cons c value =>
    rw [hvalue] at hhead hpart
    have hc : c = 0x3D := by simpa using hhead
    have hmeans := means_append hf (Or.inr hc) (part.takeWhile (· != 0x3D)) value
    rw [hpart] at hmeans
    exact hmeans.symm

/-- A screened word stands in a name or a value if it is in what the symbols of the query mean. -/
theorem carries_read_iff (hf : f.HasWords) (query : String) :
    f.carries (FormEncoding.read query) = true ↔ ∃ front run back,
      IsMeantIn run front back (symbols (Bytes.ofText query)) ∧
        f.screens (run.map Symbol.meant) = true := by
  have hpairs : f.carries (FormEncoding.read query) = f.means (Bytes.ofText query) := by
    have hwhole : ∀ part : Bytes, (!part.isEmpty && f.means part) = f.means part := by
      intro part
      cases part <;> rfl
    simp only [carries, FormEncoding.read, List.any_map, List.any_filter, Function.comp_def,
      means_readPair hf, hwhole]
    exact any_pieces (means_append hf (Or.inl rfl)) _
  rw [hpairs, means, ← FormEncoding.map_meant_symbols, isDangerous_eq hf, List.any_eq_true]
  simp only [mem_wordsOf_iff, isWordIn_meant_iff]
  constructor
  · rintro ⟨_, ⟨-, front, run, back, hmeant, rfl⟩, hscreens⟩
    exact ⟨front, run, back, hmeant, hscreens⟩
  · rintro ⟨front, run, back, hmeant, hscreens⟩
    exact ⟨_, ⟨(word_of_screens hf hscreens).1, front, run, back, hmeant, rfl⟩, hscreens⟩

/-! ## Spellings of a query -/

theorem isDangerous_query_iff (hf : f.HasWords) (query : String) :
    f.isDangerous (Bytes.ofText query) = true ↔
      (∃ front run back, IsMeantIn run front back (symbols (Bytes.ofText query)) ∧
        ¬IsHidden front run ∧ f.screens (run.map Symbol.meant) = true) ∨
      Feigns f (symbols (Bytes.ofText query)) := by
  have hwritten := isDangerous_written_iff hf (σ := symbols (Bytes.ofText query))
  rwa [FormEncoding.flatMap_written_symbols] at hwritten

/-- No escape stands for a word byte or directly in front of what does. -/
def KeepsWords (σ : List Symbol) : Prop :=
  ∀ front s back, σ = front ++ s :: back → s.isEscape = true →
    isWordByte s.meant = false ∧ ∀ t ∈ back.head?, isWordByte t.meant = false

theorem KeepsWords.not_isHidden (hkeeps : KeepsWords σ) (h : IsMeantIn run front back σ)
    (hne : run ≠ []) : ¬IsHidden front run := by
  obtain ⟨hsplit, hword, -, -⟩ := h
  rintro (⟨s, hs, hescape⟩ | ⟨s, hs, hescape⟩)
  · obtain ⟨before, behind, hrun⟩ := List.append_of_mem hs
    have hout := (hkeeps (front ++ before) s (behind ++ back) (by simp [hsplit, hrun]) hescape).1
    rw [hword s hs] at hout
    cases hout
  · obtain ⟨before, rfl⟩ := List.getLast?_eq_some_iff.mp hs
    obtain ⟨t, more, rfl⟩ := List.exists_cons_of_ne_nil hne
    have hout := (hkeeps before s (t :: more ++ back) (by simp [hsplit]) hescape).2 t rfl
    rw [hword t List.mem_cons_self] at hout
    cases hout

theorem KeepsWords.not_feigns (hkeeps : KeepsWords σ) : ¬Feigns standard σ := by
  rintro ⟨front, w, back, hsplit, ⟨-, -, s, hs, hescape, hgoes⟩ |
    ⟨-, high, low, b, reads, hlast, hscreens⟩⟩
  · obtain ⟨more, rfl⟩ := List.head?_eq_some_iff.mp hs
    have hout := (hkeeps (front ++ w.map Symbol.plain) s more hsplit hescape).1
    rw [hgoes] at hout
    cases hout
  · obtain ⟨before, rfl⟩ := List.getLast?_eq_some_iff.mp hlast
    obtain ⟨-, hword⟩ := word_of_screens hasWords_standard hscreens
    cases w with
    | nil =>
      have hlong : ∀ word ∈ standard.words, 2 < word.length := by decide
      rw [screens, List.contains_iff_mem] at hscreens
      exact absurd (hlong _ hscreens) (by simp)
    | cons c w =>
      have hout := (hkeeps before (.escape high low b reads) (.plain c :: w.map Symbol.plain ++ back)
        (by simp [hsplit]) rfl).2 (.plain c) rfl
      rw [Symbol.meant, isWordByte_spacedByte, hword c (by simp)] at hout
      cases hout

/-- Where escapes keep away from words, a query is screened as its names and values are. -/
theorem isDangerous_of_keepsWords {query : String}
    (hkeeps : KeepsWords (symbols (Bytes.ofText query))) :
    standard.isDangerous (Bytes.ofText query) = standard.carries (FormEncoding.read query) := by
  have hf := hasWords_standard
  rw [Bool.eq_iff_iff, isDangerous_query_iff hf, carries_read_iff hf]
  constructor
  · rintro (⟨front, run, back, hmeant, -, hscreens⟩ | hfeigns)
    · exact ⟨front, run, back, hmeant, hscreens⟩
    · exact absurd hfeigns hkeeps.not_feigns
  · rintro ⟨front, run, back, hmeant, hscreens⟩
    have hne := ne_nil_of_screens hf hscreens
    exact Or.inl ⟨front, run, back, hmeant, hkeeps.not_isHidden hmeant hne, hscreens⟩

/-- Of two queries that are read as the same parameters, one is refused and one is not for two
reasons only. Either a screened word stands in the parameters, and in the query that passes each
such word is hidden; or none does, and the query that is refused feigns one. -/
theorem verdict_differs_by_escapes {refused passed : String}
    (hread : FormEncoding.read refused = FormEncoding.read passed)
    (hrefused : standard.isDangerous (Bytes.ofText refused) = true)
    (hpassed : standard.isDangerous (Bytes.ofText passed) = false) :
    (standard.carries (FormEncoding.read passed) = true ∧
      ∀ front run back, IsMeantIn run front back (symbols (Bytes.ofText passed)) →
        standard.screens (run.map Symbol.meant) = true → IsHidden front run) ∨
    (standard.carries (FormEncoding.read refused) = false ∧
      Feigns standard (symbols (Bytes.ofText refused))) := by
  have hf := hasWords_standard
  cases hcarries : standard.carries (FormEncoding.read passed) with
  | true =>
    refine Or.inl ⟨rfl, fun front run back hmeant hscreens => ?_⟩
    by_contra hhidden
    have hdangerous := (isDangerous_query_iff hf passed).mpr
      (Or.inl ⟨front, run, back, hmeant, hhidden, hscreens⟩)
    rw [hpassed] at hdangerous
    cases hdangerous
  | false =>
    rw [hread, hcarries]
    obtain ⟨front, run, back, hmeant, -, hscreens⟩ | hfeigns :=
      (isDangerous_query_iff hf refused).mp hrefused
    · have htrue := (carries_read_iff hf refused).mpr ⟨front, run, back, hmeant, hscreens⟩
      rw [hread, hcarries] at htrue
      cases htrue
    · exact Or.inr ⟨rfl, hfeigns⟩

/-- The first query writes a word from the digits of an escape, the second does not. -/
theorem word_feigned_with_digits :
    FormEncoding.read "a=%delete" = FormEncoding.read "a=%de%6cete" ∧
      standard.isDangerous (Bytes.ofText "a=%delete") = true ∧
      standard.isDangerous (Bytes.ofText "a=%de%6cete") = false ∧
      ((standard.carries (FormEncoding.read "a=%de%6cete") = true ∧
        ∀ front run back, IsMeantIn run front back (symbols (Bytes.ofText "a=%de%6cete")) →
          standard.screens (run.map Symbol.meant) = true → IsHidden front run) ∨
      (standard.carries (FormEncoding.read "a=%delete") = false ∧
        Feigns standard (symbols (Bytes.ofText "a=%delete")))) := by
  have hread : FormEncoding.read "a=%delete" = FormEncoding.read "a=%de%6cete" := by
    decide +kernel
  have hrefused : standard.isDangerous (Bytes.ofText "a=%delete") = true := by decide +kernel
  have hpassed : standard.isDangerous (Bytes.ofText "a=%de%6cete") = false := by decide +kernel
  exact ⟨hread, hrefused, hpassed, verdict_differs_by_escapes hread hrefused hpassed⟩

/-- Of two spellings of a space, the second one hides the word behind it. -/
theorem word_hidden_behind_space :
    ¬∀ first second : String, FormEncoding.read first = FormEncoding.read second →
      standard.isDangerous (Bytes.ofText first) = standard.isDangerous (Bytes.ofText second) := by
  intro h
  have hsame := h "a=x+select" "a=x%20select" (by decide +kernel)
  revert hsame
  decide +kernel

end KeywordFilter

end AdmissionGate
