-- Versions as they age. The store's entries carry positive versions up to
-- its index, and an entry that the store once held never has a higher version
-- than the one it holds under the same key now, or the same version unless it
-- is the same entry.
import AdmissionGate.Proofs.Store.Order

namespace AdmissionGate.Store

/-! ## The invariant of the store -/

structure Sound (s : Store) : Prop where
  ordered : Ordered s.entries
  positive : ∀ e ∈ s.entries, 0 < e.version
  bounded : ∀ e ∈ s.entries, e.version ≤ s.index

theorem sound_empty : Sound empty := by
  refine ⟨List.Pairwise.nil, ?_, ?_⟩ <;> intro e he <;> cases he

/-- Every change keeps the store sound. -/
theorem Sound.apply {s : Store} (h : Sound s) (c : Change) : Sound (s.apply c) := by
  obtain ⟨hord, hpos, hle⟩ := h
  cases c with
  | put key value =>
    refine ⟨ordered_insertEntry _ hord, ?_, ?_⟩
    · intro e he
      rcases mem_insertEntry he with rfl | he
      · exact Nat.succ_pos _
      · exact hpos e he
    · intro e he
      rcases mem_insertEntry he with rfl | he
      · exact Nat.le_refl _
      · exact Nat.le_succ_of_le (hle e he)
  | delete key =>
    simp only [Store.apply, delete]
    split
    · refine ⟨hord.filter _, ?_, ?_⟩
      · intro e he
        exact hpos e (List.mem_filter.mp he).1
      · intro e he
        exact Nat.le_succ_of_le (hle e (List.mem_filter.mp he).1)
    · exact ⟨hord, hpos, hle⟩
  | outage on => exact ⟨hord, hpos, hle⟩

theorem mem_of_find? {s : Store} {key : String} {e : Entry} (h : s.find? key = some e) :
    e ∈ s.entries ∧ e.key = key := by
  have hkey := List.find?_some h
  exact ⟨List.mem_of_find?_eq_some h, by simpa using hkey⟩

/-! ## Entries of the past -/

/-- How an entry that the store holds, or once held, relates to what it holds now. -/
structure Past (s : Store) (e : Entry) : Prop where
  positive : 0 < e.version
  bounded : e.version ≤ s.index
  oldest : ∀ d, s.find? e.key = some d → e.version ≤ d.version
  same : ∀ d, s.find? e.key = some d → e.version = d.version → e = d

theorem Sound.past {s : Store} (h : Sound s) {e : Entry} (he : e ∈ s.entries) : Past s e := by
  have hfind : s.find? e.key = some e := find?_of_mem h.ordered he
  refine ⟨h.positive e he, h.bounded e he, ?_, ?_⟩ <;> intro d hd <;> rw [hfind] at hd <;>
    cases hd
  · exact Nat.le_refl _
  · intro _
    rfl

/-- An entry of the past stays one over every change, also when its key is written again after
a removal: the new entry has a version of its own. -/
theorem Past.apply {s : Store} {e : Entry} (h : Past s e) (c : Change) : Past (s.apply c) e := by
  obtain ⟨hpos, hle, hold, hsame⟩ := h
  cases c with
  | put key value =>
    refine ⟨hpos, Nat.le_succ_of_le hle, ?_, ?_⟩ <;> intro d hd <;>
      rw [Store.apply, find?_put] at hd
    · split at hd
      · cases hd
        exact Nat.le_succ_of_le hle
      · exact hold d hd
    · intro hv
      split at hd
      · cases hd
        simp only at hv
        omega
      · exact hsame d hd hv
  | delete key =>
    have hindex : s.index ≤ (s.delete key).index := by
      unfold delete
      split
      · exact Nat.le_succ _
      · exact Nat.le_refl _
    refine ⟨hpos, Nat.le_trans hle hindex, ?_, ?_⟩ <;> intro d hd <;>
      rw [Store.apply, find?_delete] at hd
    · split at hd
      · cases hd
      · exact hold d hd
    · intro hv
      split at hd
      · cases hd
      · exact hsame d hd hv
  | outage on => exact ⟨hpos, hle, hold, hsame⟩

/-- An entry of the past with at least the current version is the current entry. -/
theorem Past.eq_of_le {s : Store} {e d : Entry} (h : Past s e) (hd : s.find? e.key = some d)
    (hle : d.version ≤ e.version) : e = d :=
  h.same d hd (Nat.le_antisymm (h.oldest d hd) hle)

end AdmissionGate.Store
