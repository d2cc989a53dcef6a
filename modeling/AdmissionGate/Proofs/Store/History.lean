-- The store over time. The changes that were made tell what the store held
-- at every index it had, and which write under a stem was the last one.
import Mathlib.Data.List.Induction
import AdmissionGate.Proofs.Store.Versions

namespace AdmissionGate.Store

/-! ## Changes in a row -/

/-- The store after some changes, one after another. -/
def after (s : Store) (changes : List Change) : Store := changes.foldl apply s

theorem after_append (s : Store) (changes more : List Change) :
    s.after (changes ++ more) = (s.after changes).after more := List.foldl_append

theorem index_le_apply (s : Store) (c : Change) : s.index ≤ (s.apply c).index := by
  cases c with
  | put key value => exact Nat.le_succ _
  | delete key =>
    simp only [apply, delete]
    split
    · exact Nat.le_succ _
    · exact Nat.le_refl _
  | outage on => exact Nat.le_refl _

theorem index_apply_le (s : Store) (c : Change) : (s.apply c).index ≤ s.index + 1 := by
  cases c with
  | put key value => exact Nat.le_refl _
  | delete key =>
    simp only [apply, delete]
    split
    · exact Nat.le_refl _
    · exact Nat.le_succ _
  | outage on => exact Nat.le_succ _

/-- A change that takes no index leaves the entries as they are. -/
theorem entries_apply_of_index_le {s : Store} {c : Change} (h : (s.apply c).index ≤ s.index) :
    (s.apply c).entries = s.entries := by
  cases c with
  | put key value => exact absurd h (Nat.not_succ_le_self _)
  | delete key =>
    simp only [apply, delete] at h ⊢
    split at h
    · exact absurd h (Nat.not_succ_le_self _)
    next hnot => rw [if_neg hnot]
  | outage on => rfl

/-- An entry that is there after a change was there before it, or has the index of the change
as its version. -/
theorem mem_of_mem_apply {s : Store} {c : Change} {e : Entry} (he : e ∈ (s.apply c).entries)
    (hold : e.version ≤ s.index) : e ∈ s.entries := by
  cases c with
  | put key value =>
    rcases mem_insertEntry he with rfl | he
    · exact absurd hold (Nat.not_succ_le_self _)
    · exact he
  | delete key =>
    simp only [apply, delete] at he
    split at he
    · exact (List.mem_filter.mp he).1
    · exact he
  | outage on => exact he

theorem index_le_after (s : Store) (changes : List Change) : s.index ≤ (s.after changes).index := by
  induction changes generalizing s with
  | nil => exact Nat.le_refl _
  | cons c rest ih => exact Nat.le_trans (index_le_apply s c) (ih (s.apply c))

theorem Sound.after {s : Store} (h : Sound s) (changes : List Change) : Sound (s.after changes) := by
  induction changes generalizing s with
  | nil => exact h
  | cons c rest ih => exact ih (h.apply c)

/-! ## The store as it was -/

/-- The store as it was at an index: the changes were made up to the first one with a higher
index. -/
def asOf (i : Nat) : Store → List Change → Store
  | s, [] => s
  | s, c :: rest => if (s.apply c).index ≤ i then asOf i (s.apply c) rest else s

theorem Sound.asOf {s : Store} (h : Sound s) (i : Nat) (changes : List Change) :
    Sound (s.asOf i changes) := by
  induction changes generalizing s with
  | nil => exact h
  | cons c rest ih =>
    unfold Store.asOf
    split
    · exact ih (h.apply c)
    · exact h

theorem index_asOf_le {i : Nat} {s : Store} (h : s.index ≤ i) (changes : List Change) :
    (s.asOf i changes).index ≤ i := by
  induction changes generalizing s with
  | nil => exact h
  | cons c rest ih =>
    unfold asOf
    split
    next hle => exact ih hle
    next => exact h

/-- At its last index the store is as it is after all changes. -/
theorem asOf_of_after_le {i : Nat} {s : Store} {changes : List Change}
    (h : (s.after changes).index ≤ i) : s.asOf i changes = s.after changes := by
  induction changes generalizing s with
  | nil => rfl
  | cons c rest ih =>
    have hle : (s.apply c).index ≤ i := Nat.le_trans (index_le_after (s.apply c) rest) h
    unfold asOf
    rw [if_pos hle]
    exact ih h

/-- No entry changes as long as the index does not. -/
theorem entries_asOf_of_le {i : Nat} {s : Store} (h : i ≤ s.index) (changes : List Change) :
    (s.asOf i changes).entries = s.entries := by
  induction changes generalizing s with
  | nil => rfl
  | cons c rest ih =>
    unfold asOf
    split
    next hle =>
      rw [ih (Nat.le_trans h (index_le_apply s c)),
        entries_apply_of_index_le (Nat.le_trans hle h)]
    next => rfl

/-- What is changed later does not touch what the store held at an index it has had. -/
theorem entries_asOf_append {i : Nat} {s : Store} {changes : List Change}
    (h : i ≤ (s.after changes).index) (more : List Change) :
    (s.asOf i (changes ++ more)).entries = (s.asOf i changes).entries := by
  induction changes generalizing s with
  | nil => exact entries_asOf_of_le h more
  | cons c rest ih =>
    simp only [List.cons_append, asOf]
    split
    · exact ih h
    · rfl

/-- What the store held is of the past at every later index. -/
theorem past_asOf {i j : Nat} {s : Store} (hs : Sound s) (hij : i ≤ j) {changes : List Change}
    {e : Entry} (he : e ∈ (s.asOf i changes).entries) : Past (s.asOf j changes) e := by
  have hkept : ∀ {s : Store}, Past s e → ∀ changes, Past (s.asOf j changes) e := by
    intro s h changes
    induction changes generalizing s with
    | nil => exact h
    | cons c rest ih =>
      unfold asOf
      split
      · exact ih (h.apply c)
      · exact h
  induction changes generalizing s with
  | nil => exact hs.past he
  | cons c rest ih =>
    by_cases hi : (s.apply c).index ≤ i
    · rw [asOf, if_pos hi] at he
      rw [asOf, if_pos (Nat.le_trans hi hij)]
      exact ih (hs.apply c) he
    · rw [asOf, if_neg hi] at he
      exact hkept (hs.past he) (c :: rest)

/-- An entry with a version up to `j` that the store holds later was there at `j`. -/
theorem mem_asOf_of_version_le {i j : Nat} {s : Store} (hji : j ≤ i) {changes : List Change}
    {e : Entry} (he : e ∈ (s.asOf i changes).entries) (hversion : e.version ≤ j) :
    e ∈ (s.asOf j changes).entries := by
  have hfirst : ∀ {s : Store} {changes : List Change}, e ∈ (s.asOf i changes).entries →
      e.version ≤ s.index → e ∈ s.entries := by
    intro s changes h hv
    induction changes generalizing s with
    | nil => exact h
    | cons c rest ih =>
      unfold asOf at h
      split at h
      · exact mem_of_mem_apply (ih h (Nat.le_trans hv (index_le_apply s c))) hv
      · exact h
  induction changes generalizing s with
  | nil => exact he
  | cons c rest ih =>
    by_cases hj : (s.apply c).index ≤ j
    · rw [asOf, if_pos (Nat.le_trans hj hji)] at he
      rw [asOf, if_pos hj]
      exact ih he
    · have hle := index_apply_le s c
      rw [asOf, if_neg hj]
      exact hfirst he (by omega)

/-! ## Writes under a stem -/

/-- Whether a change writes under a stem: a put of such a key does, and a removal if there is
such a key to remove. -/
def writesUnder (s : Store) (stem : String) : Change → Bool
  | .put key _ => Text.startsWith key stem
  | .delete key => Text.startsWith key stem && s.holds key
  | .outage _ => false

/-- The last of some changes that wrote under a stem. -/
def lastWriteUnder? (stem : String) : Store → List Change → Option Change
  | _, [] => none
  | s, c :: rest =>
    (lastWriteUnder? stem (s.apply c) rest).or (if s.writesUnder stem c then some c else none)

theorem lastWriteUnder?_snoc (stem : String) (s : Store) (changes : List Change) (c : Change) :
    s.lastWriteUnder? stem (changes ++ [c]) =
      if (s.after changes).writesUnder stem c then some c else s.lastWriteUnder? stem changes := by
  induction changes generalizing s with
  | nil =>
    simp only [List.nil_append, lastWriteUnder?, Option.none_or]
    rfl
  | cons d rest ih =>
    simp only [List.cons_append, lastWriteUnder?, ih]
    split
    next h => rw [if_pos (show (s.after (d :: rest)).writesUnder stem c = true from h)]; rfl
    next h => rw [if_neg (show ¬ (s.after (d :: rest)).writesUnder stem c = true from h)]

theorem under_congr {s s' : Store} (h : s.entries = s'.entries) (stem : String) :
    s.under stem = s'.under stem := by
  unfold under
  rw [h]

theorem filter_insertEntry {p : Entry → Bool} {e : Entry} (he : p e = false)
    (hkey : ∀ d : Entry, d.key = e.key → p d = false) (entries : List Entry) :
    (insertEntry e entries).filter p = entries.filter p := by
  induction entries with
  | nil => simp [insertEntry, he]
  | cons d rest ih =>
    unfold insertEntry
    split
    · simp [he]
    · split
      next heq => simp [he, hkey d heq.symm]
      next => simp [List.filter_cons, ih]

/-- A change that does not write under a stem leaves the entries under it as they are. -/
theorem under_apply {s : Store} (hs : Sound s) {stem : String} {c : Change}
    (h : s.writesUnder stem c = false) : (s.apply c).under stem = s.under stem := by
  rw [under_eq_filter (hs.apply c).ordered, under_eq_filter hs.ordered]
  cases c with
  | put key value =>
    refine filter_insertEntry h ?_ _
    rintro d rfl
    exact h
  | delete key =>
    simp only [apply, delete]
    split
    next hheld =>
      have hkey : Text.startsWith key stem = false := by simpa [writesUnder, hheld] using h
      simp only [List.filter_filter]
      apply List.filter_congr
      intro e _
      by_cases he : e.key = key <;> simp [he, hkey]
    next => rfl
  | outage on => rfl

/-- The entry of a key that was just put. -/
theorem mem_put (s : Store) (key : String) (value : Bytes) :
    (⟨key, value, s.index + 1⟩ : Entry) ∈ (s.put key value).entries := by
  have hfind := find?_put s key value key
  rw [if_pos rfl] at hfind
  exact (mem_of_find? hfind).1

/-- If the last write under a stem was no removal, then nothing under it has changed since any
index that is not below the versions of the entries there. -/
theorem under_asOf {s : Store} (hs : Sound s) {stem : String} {changes : List Change} {i : Nat}
    (hlast : ∀ key, s.lastWriteUnder? stem changes ≠ some (.delete key))
    (hversion : ∀ e ∈ (s.after changes).under stem, e.version ≤ i)
    (hi : i ≤ (s.after changes).index) :
    (s.asOf i changes).under stem = (s.after changes).under stem := by
  induction changes using List.reverseRecOn with
  | nil => rfl
  | append_singleton changes c ih =>
    have hbefore := hs.after changes
    have hafter : s.after (changes ++ [c]) = (s.after changes).apply c := after_append _ _ _
    simp only [lastWriteUnder?_snoc] at hlast
    rw [hafter] at hversion hi
    rcases Nat.lt_or_ge i ((s.after changes).apply c).index with hlt | hge
    · -- The change is later than `i`, so it is no put, and no write at all.
      have hwrites : (s.after changes).writesUnder stem c = false := by
        refine Bool.eq_false_iff.mpr fun hwrites => ?_
        simp only [if_pos hwrites] at hlast
        cases c with
        | put key value =>
          have hmem := mem_put (s.after changes) key value
          have hunder := (mem_under_iff (hbefore.apply (.put key value)).ordered stem _).mpr
            ⟨hmem, hwrites⟩
          have hle := hversion _ hunder
          exact absurd hlt (Nat.not_lt.mpr hle)
        | delete key => exact hlast key rfl
        | outage on => cases hwrites
      simp only [hwrites, Bool.false_eq_true, if_false] at hlast
      have hle : i ≤ (s.after changes).index := by
        have := index_apply_le (s.after changes) c
        omega
      rw [hafter, under_apply hbefore hwrites, under_congr (entries_asOf_append hle [c])]
      rw [under_apply hbefore hwrites] at hversion
      exact ih hlast hversion hle
    · rw [asOf_of_after_le (by rw [hafter]; exact hge)]

end AdmissionGate.Store
