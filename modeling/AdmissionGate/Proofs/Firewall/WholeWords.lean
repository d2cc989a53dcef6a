-- The keyword screening as a pattern: the pattern with its alternatives and its
-- tests for a boundary is found in bytes exactly where one of their words is a
-- keyword, whatever stands around it.
import AdmissionGate.Proofs.Firewall.Keywords

namespace AdmissionGate.KeywordFilter

/-! ## Letters in any case -/

/-- The same bytes, but for the case of ASCII letters. -/
def SameLetters (v w : Bytes) : Prop := v.map lowerByte = w.map lowerByte

theorem SameLetters.word {v w : Bytes} (h : SameLetters v w)
    (hw : w ≠ [] ∧ ∀ b ∈ w, isWordByte b = true) : v ≠ [] ∧ ∀ b ∈ v, isWordByte b = true := by
  refine ⟨fun hnil => hw.1 ?_, fun b hb => ?_⟩
  · rw [SameLetters, hnil] at h
    exact List.map_eq_nil_iff.mp h.symm
  · have hmem : lowerByte b ∈ w.map lowerByte := h ▸ List.mem_map_of_mem hb
    obtain ⟨c, hc, hsame⟩ := List.mem_map.mp hmem
    rw [← isWordByte_lowerByte, ← hsame, isWordByte_lowerByte]
    exact hw.2 c hc

/-! ## Patterns -/

/-- The part of the language of patterns that the screening is written in. -/
inductive Pattern where
  | nothing
  | letter (c : UInt8)
  | boundary
  | seq (one next : Pattern)
  | either (one other : Pattern)
  | group (p : Pattern)

namespace Pattern

/-- How a pattern is written. -/
def written : Pattern → Bytes
  | nothing => []
  | letter c => [c]
  | boundary => Bytes.ofText "\\b"
  | seq one next => one.written ++ next.written
  | either one other => one.written ++ Bytes.ofText "|" ++ other.written
  | group p => Bytes.ofText "(" ++ p.written ++ Bytes.ofText ")"

/-- Whether a pattern matches the bytes between `front` and `back`, without regard to the case
of ASCII letters. A boundary matches between two bytes of which exactly one is a word byte; before
the first byte and behind the last one there is none. -/
def Matches : Pattern → Bytes → Bytes → Bytes → Prop
  | nothing, _, part, _ => part = []
  | letter c, _, part, _ => ∃ b, part = [b] ∧ lowerByte b = lowerByte c
  | boundary, front, part, back =>
    part = [] ∧ front.getLast?.any isWordByte ≠ back.head?.any isWordByte
  | seq one next, front, part, back => ∃ part₁ part₂, part = part₁ ++ part₂ ∧
    one.Matches front part₁ (part₂ ++ back) ∧ next.Matches (front ++ part₁) part₂ back
  | either one other, front, part, back =>
    one.Matches front part back ∨ other.Matches front part back
  | group p, front, part, back => p.Matches front part back

/-- A pattern is found in bytes if it matches a part of them. -/
def IsFoundIn (p : Pattern) (bs : Bytes) : Prop :=
  ∃ front part back, bs = front ++ part ++ back ∧ p.Matches front part back

def ofWord (word : Bytes) : Pattern := word.foldr (fun c more => .seq (.letter c) more) .nothing

def anyOf : List Pattern → Pattern
  | [] => .nothing
  | [p] => p
  | p :: q :: more => .either p (anyOf (q :: more))

/-- One of the words between two boundaries. -/
def wholeWord (words : List Bytes) : Pattern :=
  .seq .boundary (.seq (.group (anyOf (words.map ofWord))) .boundary)

/-! ## How they are written -/

theorem written_ofWord (word : Bytes) : (ofWord word).written = word := by
  induction word with
  | nil => rfl
  | cons c word ih => exact congrArg (c :: ·) ih

theorem written_anyOf (ps : List Pattern) :
    (anyOf ps).written = (Bytes.ofText "|").intercalate (ps.map written) := by
  induction ps with
  | nil => rfl
  | cons p more ih =>
    cases more with
    | nil => simp [anyOf]
    | cons q more => simp [anyOf, written, ih]

theorem written_wholeWord (words : List String) :
    (wholeWord (words.map Bytes.ofText)).written =
      Bytes.ofText ("\\b(" ++ "|".intercalate words ++ ")\\b") := by
  have hwords : written ∘ ofWord ∘ Bytes.ofText = Bytes.ofText :=
    funext fun word => written_ofWord (Bytes.ofText word)
  simp only [wholeWord, written, written_anyOf, List.map_map, hwords, Bytes.ofText_append,
    Bytes.ofText_intercalate, List.append_assoc]
  rfl

/-! ## What they match -/

variable {front part back : Bytes}

theorem matches_ofWord {word : Bytes} :
    (ofWord word).Matches front part back ↔ SameLetters part word := by
  induction word generalizing front part with
  | nil => simp [ofWord, Matches, SameLetters]
  | cons c word ih =>
    constructor
    · rintro ⟨_, rest, rfl, ⟨b, rfl, hletter⟩, hrest⟩
      rw [SameLetters, List.singleton_append, List.map_cons, List.map_cons, hletter, ih.mp hrest]
    · intro h
      obtain ⟨b, rest, rfl, hletter, hrest⟩ := List.map_eq_cons_iff.mp h
      exact ⟨[b], rest, rfl, ⟨b, rfl, hletter⟩, ih.mpr hrest⟩

theorem matches_anyOf {ps : List Pattern} (hne : ps ≠ []) :
    (anyOf ps).Matches front part back ↔ ∃ p ∈ ps, p.Matches front part back := by
  induction ps with
  | nil => contradiction
  | cons p more ih =>
    cases more with
    | nil => simp [anyOf]
    | cons q more =>
      rw [anyOf, Matches, ih (List.cons_ne_nil q more)]
      simp

/-- In front of a word there is a boundary if the word does not go on to the front. -/
theorem boundary_before (hne : part ≠ []) (hpart : ∀ b ∈ part, isWordByte b = true) :
    front.getLast?.any isWordByte ≠ (part ++ back).head?.any isWordByte ↔ EndsOutside front := by
  obtain ⟨b, more, rfl⟩ := List.exists_cons_of_ne_nil hne
  have hb : isWordByte b = true := hpart b List.mem_cons_self
  cases hlast : front.getLast? <;> simp [EndsOutside, hlast, hb]

theorem boundary_behind (hne : part ≠ []) (hpart : ∀ b ∈ part, isWordByte b = true) :
    (front ++ part).getLast?.any isWordByte ≠ back.head?.any isWordByte ↔ StartsOutside back := by
  obtain ⟨before, b, rfl⟩ := List.eq_nil_or_concat part |>.resolve_left hne
  have hb : isWordByte b = true := hpart b (by simp)
  cases hhead : back.head? <;> simp [StartsOutside, hhead, hb]

end Pattern

/-! ## Where a keyword is found -/

variable {f : KeywordFilter}

theorem matches_wholeWord (hf : f.HasWords) (hsome : f.words ≠ []) {front part back : Bytes} :
    (Pattern.wholeWord f.words).Matches front part back ↔
      EndsOutside front ∧ StartsOutside back ∧ ∃ word ∈ f.words, SameLetters part word := by
  have hany : ∀ {front part back}, (Pattern.anyOf (f.words.map Pattern.ofWord)).Matches
      front part back ↔ ∃ word ∈ f.words, SameLetters part word := by
    intro front part back
    rw [Pattern.matches_anyOf (by simpa using hsome)]
    simp [Pattern.matches_ofWord]
  constructor
  · -- the boundaries take up no bytes, so the keyword is all that the pattern matches
    rintro ⟨_, _, rfl, ⟨rfl, hopen⟩, part, _, rfl, hwords, rfl, hclose⟩
    obtain ⟨word, hword, hsame⟩ := hany.mp hwords
    obtain ⟨hne, hpart⟩ := hsame.word (hf word hword)
    simp only [List.append_nil, List.nil_append] at hopen hclose ⊢
    exact ⟨(Pattern.boundary_before hne hpart).mp hopen,
      (Pattern.boundary_behind hne hpart).mp hclose, word, hword, hsame⟩
  · rintro ⟨hfront, hback, word, hword, hsame⟩
    obtain ⟨hne, hpart⟩ := hsame.word (hf word hword)
    refine ⟨[], part, rfl, ⟨rfl, (Pattern.boundary_before hne hpart).mpr hfront⟩, part, [],
      (List.append_nil part).symm, hany.mpr ⟨word, hword, hsame⟩, rfl, ?_⟩
    rw [List.append_nil]
    exact (Pattern.boundary_behind hne hpart).mpr hback

/-- The pattern is found exactly in bytes that have a keyword among their words. -/
theorem isFoundIn_wholeWord (hf : f.HasWords) (hsome : f.words ≠ []) {bs : Bytes} :
    (Pattern.wholeWord f.words).IsFoundIn bs ↔
      ∃ w ∈ wordsOf bs, ∃ word ∈ f.words, SameLetters w word := by
  simp only [Pattern.IsFoundIn, matches_wholeWord hf hsome, mem_wordsOf_iff]
  constructor
  · rintro ⟨front, part, back, hbs, hfront, hback, word, hword, hsame⟩
    obtain ⟨hne, hpart⟩ := hsame.word (hf word hword)
    exact ⟨part, ⟨hne, hpart, front, back, hbs, hfront, hback⟩, word, hword, hsame⟩
  · rintro ⟨w, ⟨-, -, front, back, hbs, hfront, hback⟩, word, hword, hsame⟩
    exact ⟨front, w, back, hbs, hfront, hback, word, hword, hsame⟩

/-- A filter whose words are in lower case, as the bytes are that they are compared with. -/
def IsLowered (f : KeywordFilter) : Prop := ∀ word ∈ f.words, word.map lowerByte = word

theorem isLowered_standard : standard.IsLowered := by
  have hall : standard.words.all (fun word => word.map lowerByte == word) = true := by decide
  intro word hword
  simpa using List.all_eq_true.mp hall word hword

theorem screens_iff (hlow : f.IsLowered) {w : Bytes} :
    f.screens w = true ↔ ∃ word ∈ f.words, SameLetters w word := by
  rw [screens, List.contains_iff_mem]
  constructor
  · intro hmem
    exact ⟨_, hmem, (hlow _ hmem).symm⟩
  · rintro ⟨word, hword, hsame⟩
    rw [hsame, hlow word hword]
    exact hword

theorem isDangerous_iff (hf : f.HasWords) (hlow : f.IsLowered) {bs : Bytes} :
    f.isDangerous bs = true ↔ ∃ w ∈ wordsOf bs, ∃ word ∈ f.words, SameLetters w word := by
  simp only [isDangerous_eq hf, List.any_eq_true, screens_iff hlow]

/-! ## The standard screening -/

theorem ofPattern_standardPattern : ofPattern standardPattern = standard := if_pos rfl

theorem ofText_standardPattern :
    Bytes.ofText standardPattern = Bytes.ofText "(?i-u)" ++
      (Pattern.wholeWord (dangerousWords.map Bytes.ofText)).written := by
  have hstart : "(?i-u)\\b(" = "(?i-u)" ++ "\\b(" := by decide
  rw [Pattern.written_wholeWord, ← Bytes.ofText_append, standardPattern, hstart,
    String.append_assoc, String.append_assoc, String.append_assoc]

/-- A filter that looks for keywords as whole words: its pattern with a boundary on either side,
the cut into words and the cut at any byte outside of words all tell the same. -/
structure ScreensFor (f : KeywordFilter) (keywords : List String) : Prop where
  found : ∀ bs, f.isDangerous bs = true ↔
    (Pattern.wholeWord (keywords.map Bytes.ofText)).IsFoundIn bs
  word : ∀ bs, f.isDangerous bs = true ↔
    ∃ w ∈ wordsOf bs, ∃ keyword ∈ keywords, SameLetters w (Bytes.ofText keyword)
  joined : ∀ front g back, isWordByte g = false →
    f.isDangerous (front ++ g :: back) = (f.isDangerous front || f.isDangerous back)

theorem screensFor_standard : standard.ScreensFor dangerousWords where
  found bs := by
    rw [isDangerous_iff hasWords_standard isLowered_standard,
      ← isFoundIn_wholeWord hasWords_standard (by decide)]
    rfl
  word bs := by
    rw [isDangerous_iff hasWords_standard isLowered_standard]
    simp [standard]
  joined front _ back hg := isDangerous_append_gap hasWords_standard hg front back

/-- The standard pattern is read as it is written. It refuses exactly the bytes that have a
keyword among their words, in any mixture of cases, where the words are the longest runs of word
bytes and no byte beyond ASCII belongs to one. -/
theorem standardPattern_screens_whole_words :
    Bytes.ofText standardPattern = Bytes.ofText "(?i-u)" ++
      (Pattern.wholeWord (dangerousWords.map Bytes.ofText)).written ∧
    (ofPattern standardPattern).ScreensFor dangerousWords ∧
    (∀ bs w, w ∈ wordsOf bs ↔ IsWordIn w bs) ∧
    ∀ b : UInt8, 0x80 ≤ b → isWordByte b = false := by
  refine ⟨ofText_standardPattern, ?_, fun bs w => mem_wordsOf_iff, isWordByte_of_not_ascii⟩
  rw [ofPattern_standardPattern]
  exact screensFor_standard

-- a keyword that begins another one does not hide it, and neither is found in a longer word
example :
    standard.isDangerous (Bytes.ofText "cmd=EXECUTE") = true ∧
    standard.isDangerous (Bytes.ofText "executor=1&sub_exec=2") = false := by
  decide

end AdmissionGate.KeywordFilter
