-- White space and trimming. A character is blank when it has Unicode's
-- property White_Space; ASCII has a narrower class of its own.

namespace AdmissionGate.Text

/-- The characters with the property White_Space. -/
def isBlank (c : Char) : Bool :=
  let n := c.toNat
  (0x9 ≤ n && n ≤ 0xD) || n == 0x20 || n == 0x85 || n == 0xA0 || n == 0x1680
    || (0x2000 ≤ n && n ≤ 0x200A) || n == 0x2028 || n == 0x2029 || n == 0x202F
    || n == 0x205F || n == 0x3000

def stripStart (p : α → Bool) (s : List α) : List α := s.dropWhile p

def strip (p : α → Bool) (s : List α) : List α :=
  ((s.dropWhile p).reverse.dropWhile p).reverse

theorem stripStart_eq_self_iff {p : α → Bool} {s : List α} :
    stripStart p s = s ↔ ∀ a, s.head? = some a → p a = false := by
  constructor
  · intro h a ha
    have hhead := List.head?_dropWhile_not p s
    rw [stripStart] at h
    rw [h, ha] at hhead
    exact hhead
  · intro h
    cases s with
    | nil => rfl
    | cons a rest => simp [stripStart, h a rfl]

theorem strip_eq (p : α → Bool) (s : List α) :
    strip p s = (stripStart p (stripStart p s).reverse).reverse := rfl

theorem stripEnd_sublist (p : α → Bool) (s : List α) :
    (stripStart p s.reverse).reverse.Sublist s := by
  rw [← List.reverse_sublist, List.reverse_reverse]
  exact List.dropWhile_sublist p

theorem strip_sublist (p : α → Bool) (s : List α) : (strip p s).Sublist s :=
  (stripEnd_sublist p _).trans (List.dropWhile_sublist p)

/-- Two reductions one after the other leave a list as it is only if each of them does. -/
theorem reduced_eq_self_iff {f g : List α → List α} (hf : ∀ s, (f s).Sublist s)
    (hg : ∀ s, (g s).Sublist s) {s : List α} : f (g s) = s ↔ g s = s ∧ f s = s := by
  constructor
  · intro h
    have hle := (hf (g s)).length_le
    rw [h] at hle
    have hgs := (hg s).eq_of_length_le hle
    rw [hgs] at h
    exact ⟨hgs, h⟩
  · rintro ⟨hgs, hfs⟩
    rw [hgs, hfs]

theorem strip_eq_self_iff {p : α → Bool} {s : List α} : strip p s = s ↔
    (∀ a, s.head? = some a → p a = false) ∧ (∀ a, s.getLast? = some a → p a = false) := by
  rw [strip_eq, reduced_eq_self_iff (stripEnd_sublist p) (g := stripStart p)
    (fun _ => List.dropWhile_sublist p), stripStart_eq_self_iff, List.reverse_eq_iff,
    stripStart_eq_self_iff, List.head?_reverse]

theorem strip_eq_self {p : α → Bool} {s : List α} (h : ∀ a ∈ s, p a = false) : strip p s = s :=
  strip_eq_self_iff.mpr ⟨fun a ha => h a (List.mem_of_head? ha),
    fun a ha => h a (List.mem_of_getLast? ha)⟩

/-- Stripping leaves nothing to strip at either end. -/
theorem strip_ends (p : α → Bool) (s : List α) :
    (∀ a, (strip p s).head? = some a → p a = false) ∧
      ∀ a, (strip p s).getLast? = some a → p a = false := by
  have hend : ∀ l : List α, ∀ a, (stripStart p l).head? = some a → p a = false := by
    intro l a ha
    have hhead := List.head?_dropWhile_not p l
    rw [stripStart] at ha
    rw [ha] at hhead
    exact hhead
  rw [strip_eq]
  constructor
  · -- the front is that of the list before its end was stripped, or nothing is left
    intro a ha
    have hprefix : (stripStart p (stripStart p s).reverse).reverse <+: stripStart p s := by
      rw [← List.reverse_suffix, List.reverse_reverse]
      exact List.dropWhile_suffix p
    obtain ⟨rest, hrest⟩ := hprefix
    refine hend s a ?_
    rw [← hrest, List.head?_append, ha, Option.some_or]
  · intro a ha
    rw [List.getLast?_reverse] at ha
    exact hend _ a ha

/-- What is stripped may stand around a list that has none of it at its ends. -/
theorem strip_padded {p : α → Bool} {before s after : List α} (hbefore : ∀ a ∈ before, p a = true)
    (hs : strip p s = s) (hafter : ∀ a ∈ after, p a = true) :
    strip p (before ++ s ++ after) = s := by
  obtain ⟨hfront, hback⟩ := strip_eq_self_iff.mp hs
  have hstart : stripStart p (before ++ s ++ after) = stripStart p (s ++ after) := by
    rw [stripStart, List.append_assoc, List.dropWhile_append_of_pos hbefore, stripStart]
  rw [strip_eq, hstart]
  cases s with
  | nil =>
    have hnone : stripStart p (after ++ []) = [] := List.dropWhile_append_of_pos hafter
    rw [List.append_nil] at hnone
    rw [List.nil_append, hnone]
    rfl
  | cons a rest =>
    have hkept : stripStart p (a :: rest ++ after) = a :: rest ++ after :=
      stripStart_eq_self_iff.mpr hfront
    have hlast : stripStart p (a :: rest).reverse = (a :: rest).reverse := by
      refine stripStart_eq_self_iff.mpr fun b hb => hback b ?_
      rwa [List.head?_reverse] at hb
    rw [hkept, List.reverse_append, stripStart,
      List.dropWhile_append_of_pos fun b hb => hafter b (List.mem_reverse.mp hb), ← stripStart,
      hlast, List.reverse_reverse]

/-- What is stripped stands around what is left. -/
theorem strip_around (p : α → Bool) (s : List α) : ∃ before after,
    s = before ++ strip p s ++ after ∧ (∀ a ∈ before, p a = true) ∧ ∀ a ∈ after, p a = true := by
  have hends (l : List α) : l = l.takeWhile p ++ stripStart p l :=
    List.takeWhile_append_dropWhile.symm
  have htaken (l : List α) : ∀ a ∈ l.takeWhile p, p a = true :=
    List.all_eq_true.mp List.all_takeWhile
  have hback := congrArg List.reverse (hends (stripStart p s).reverse)
  rw [List.reverse_reverse, List.reverse_append, ← strip_eq] at hback
  refine ⟨s.takeWhile p, ((stripStart p s).reverse.takeWhile p).reverse, ?_, htaken s, ?_⟩
  · rw [List.append_assoc, ← hback]
    exact hends s
  · intro a ha
    exact htaken _ a (List.mem_reverse.mp ha)

theorem strip_eq_nil_iff {p : α → Bool} {s : List α} :
    strip p s = [] ↔ ∀ a ∈ s, p a = true := by
  constructor
  · intro h a ha
    obtain ⟨before, after, hs, hbefore, hafter⟩ := strip_around p s
    rw [h, List.append_nil] at hs
    rw [hs] at ha
    exact (List.mem_append.mp ha).elim (hbefore a) (hafter a)
  · intro h
    have hpadded : strip p (s ++ [] ++ []) = [] := strip_padded h rfl (by simp)
    rwa [List.append_nil, List.append_nil] at hpadded

def trim (s : String) : String := String.ofList (strip isBlank s.toList)

theorem trim_eq_empty_iff {s : String} : trim s = "" ↔ ∀ c ∈ s.toList, isBlank c = true := by
  rw [← strip_eq_nil_iff, trim, ← String.toList_inj, String.toList_ofList]
  rfl

theorem trim_eq_self {s : String} (h : ∀ c ∈ s.toList, isBlank c = false) : trim s = s := by
  rw [trim, strip_eq_self h, String.ofList_toList]

def trimStart (s : String) : String := String.ofList (stripStart isBlank s.toList)

def trimSlashes (s : String) : String := String.ofList (strip (· == '/') s.toList)

def trimSlashesStart (s : String) : String := String.ofList (stripStart (· == '/') s.toList)

theorem trimSlashesStart_eq_self_iff {s : String} :
    trimSlashesStart s = s ↔ s.toList.head? ≠ some '/' := by
  rw [trimSlashesStart, ← String.toList_inj, String.toList_ofList, stripStart_eq_self_iff]
  cases s.toList.head? <;> simp

def trimSlashesEnd (s : String) : String :=
  String.ofList (s.toList.reverse.dropWhile (· == '/')).reverse

def startsWith (s stem : String) : Bool := stem.toList.isPrefixOf s.toList

/-- ASCII letters in lower case, all other characters as they are. -/
def lowerAscii (s : String) : String := String.ofList (s.toList.map Char.toLower)

/-- The pieces of a list between the elements that satisfy `p`: always one more piece
than there are such elements. -/
def pieces (p : α → Bool) : List α → List (List α)
  | [] => [[]]
  | a :: rest =>
    if p a then [] :: pieces p rest
    else match pieces p rest with
      | [] => [[a]]
      | piece :: more => (a :: piece) :: more

theorem pieces_eq_splitOnP (p : α → Bool) (s : List α) : pieces p s = s.splitOnP p := by
  induction s with
  | nil => simp [pieces]
  | cons a rest ih =>
    rw [pieces, List.splitOnP_cons_eq_if_modifyHead, ih]
    split
    · rfl
    · cases h : rest.splitOnP p with
      | nil => exact absurd h (List.splitOnP_ne_nil p rest)
      | cons piece more => rfl

/-- Pieces that are joined: the first one, and each of the others with a separator before it. -/
theorem intercalate_eq (x : List α) (xs : List (List α)) (sep : α) :
    [sep].intercalate (x :: xs) = x ++ xs.flatMap (sep :: ·) := by
  induction xs generalizing x with
  | nil => simp
  | cons y ys ih =>
    rw [List.intercalate_cons_cons, ih]
    simp

end AdmissionGate.Text
