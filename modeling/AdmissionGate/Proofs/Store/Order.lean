-- The order of the store's entries. Keys stand in strict order, so the scan
-- from a stem gives all entries whose key begins with it, and a key finds
-- the only entry that has it.
import AdmissionGate.Store.Basic

namespace AdmissionGate

/-! ## Texts with one stem lie together -/

namespace Text

theorem startsWith_iff (s stem : String) :
    startsWith s stem = true ↔ stem.toList <+: s.toList := List.isPrefixOf_iff_prefix

/-- No list comes before its own front part. -/
theorem not_lt_of_prefix {stem l : List Char} (h : stem <+: l) : ¬ l < stem := by
  obtain ⟨more, rfl⟩ := h
  induction stem with
  | nil => exact List.not_lt_nil _
  | cons c stem ih =>
    rw [List.cons_append, List.cons_lt_cons_iff]
    rintro (hc | ⟨_, hlt⟩)
    · exact absurd hc (Char.lt_irrefl c)
    · exact ih hlt

/-- What lies between a stem and a list that begins with it begins with it too. -/
theorem prefix_of_between {stem a b : List Char} (ha : ¬ a < stem) (hab : a < b)
    (hb : stem <+: b) : stem <+: a := by
  induction stem generalizing a b with
  | nil => exact List.nil_prefix
  | cons c stem ih =>
    obtain ⟨more, rfl⟩ := hb
    cases a with
    | nil => exact absurd (List.nil_lt_cons c stem) ha
    | cons x a =>
      rw [List.cons_lt_cons_iff] at ha
      rw [List.cons_append, List.cons_lt_cons_iff] at hab
      rcases hab with hx | ⟨rfl, hab⟩
      · exact absurd (Or.inl hx) ha
      · have hstem : stem <+: a :=
          ih (fun hlt => ha (Or.inr ⟨rfl, hlt⟩)) hab (List.prefix_append stem more)
        exact List.prefix_cons_inj x |>.mpr hstem

end Text

/-! ## Conditions that hold for a front part of a list -/

theorem takeWhile_eq_filter {α : Type} {p : α → Bool} {l : List α}
    (h : l.Pairwise fun a b => p b = true → p a = true) : l.takeWhile p = l.filter p := by
  induction l with
  | nil => rfl
  | cons a l ih =>
    rw [List.pairwise_cons] at h
    by_cases ha : p a = true
    · rw [List.takeWhile_cons_of_pos ha, List.filter_cons_of_pos ha, ih h.2]
    · rw [List.takeWhile_cons_of_neg ha, List.filter_cons_of_neg ha]
      symm
      rw [List.filter_eq_nil_iff]
      intro b hb hpb
      exact ha (h.1 b hb hpb)

theorem dropWhile_eq_filter {α : Type} {p : α → Bool} {l : List α}
    (h : l.Pairwise fun a b => p b = true → p a = true) :
    l.dropWhile p = l.filter fun a => !p a := by
  induction l with
  | nil => rfl
  | cons a l ih =>
    rw [List.pairwise_cons] at h
    by_cases ha : p a = true
    · rw [List.dropWhile_cons_of_pos ha, List.filter_cons_of_neg (by simp [ha]), ih h.2]
    · rw [List.dropWhile_cons_of_neg ha]
      symm
      rw [List.filter_eq_self]
      intro b hb
      rcases List.mem_cons.mp hb with rfl | hb
      · simpa using ha
      · have hpb : ¬ p b = true := fun hpb => ha (h.1 b hb hpb)
        simpa using hpb

namespace Store

/-! ## Entries in order -/

/-- The keys of some entries stand in strict order. -/
def Ordered (entries : List Entry) : Prop := entries.Pairwise fun d e => d.key < e.key

theorem mem_insertEntry {e d : Entry} {entries : List Entry} (h : d ∈ insertEntry e entries) :
    d = e ∨ d ∈ entries := by
  induction entries with
  | nil => simpa [insertEntry] using h
  | cons c rest ih =>
    unfold insertEntry at h
    split at h
    · simpa using h
    · split at h
      · rcases List.mem_cons.mp h with rfl | h
        · exact Or.inl rfl
        · exact Or.inr (List.mem_cons_of_mem c h)
      · rcases List.mem_cons.mp h with rfl | h
        · exact Or.inr List.mem_cons_self
        · rcases ih h with rfl | h
          · exact Or.inl rfl
          · exact Or.inr (List.mem_cons_of_mem c h)

theorem ordered_insertEntry {entries : List Entry} (e : Entry) (h : Ordered entries) :
    Ordered (insertEntry e entries) := by
  induction entries with
  | nil => exact List.pairwise_singleton _ _
  | cons c rest ih =>
    unfold Ordered at h
    rw [List.pairwise_cons] at h
    unfold insertEntry
    split
    next hlt =>
      refine List.Pairwise.cons ?_ (List.pairwise_cons.mpr h)
      intro d hd
      rcases List.mem_cons.mp hd with rfl | hd
      · exact hlt
      · exact String.lt_trans hlt (h.1 d hd)
    next hlt =>
      split
      next heq =>
        refine List.Pairwise.cons ?_ h.2
        intro d hd
        rw [heq]
        exact h.1 d hd
      next hne =>
        have hgt : c.key < e.key := Decidable.byContradiction fun hnot =>
          hne (String.le_antisymm (String.not_lt.mp hnot) (String.not_lt.mp hlt))
        refine List.Pairwise.cons ?_ (ih h.2)
        intro d hd
        rcases mem_insertEntry hd with rfl | hd
        · exact hgt
        · exact h.1 d hd

/-- A key finds the entry that has it. -/
theorem find?_of_mem {entries : List Entry} (h : Ordered entries) {e : Entry} (he : e ∈ entries) :
    entries.find? (·.key = e.key) = some e := by
  induction entries with
  | nil => cases he
  | cons c rest ih =>
    unfold Ordered at h
    rw [List.pairwise_cons] at h
    rcases List.mem_cons.mp he with rfl | he
    · simp
    · have hne : c.key ≠ e.key := String.ne_of_lt (h.1 e he)
      rw [List.find?_cons_of_neg (by simpa using hne)]
      exact ih h.2 he

/-! ## The listing of a stem -/

/-- The scan from a stem up to the first key without it finds every entry with it. -/
theorem under_eq_filter {s : Store} (h : Ordered s.entries) (stem : String) :
    s.under stem = s.entries.filter fun e => Text.startsWith e.key stem := by
  have hdrop : s.entries.Pairwise fun d e =>
      decide (e.key < stem) = true → decide (d.key < stem) = true := by
    refine h.imp fun {d e} hlt he => ?_
    rw [decide_eq_true_eq] at he ⊢
    exact String.lt_trans hlt he
  have htake : (s.entries.filter fun e => !decide (e.key < stem)).Pairwise fun d e =>
      Text.startsWith e.key stem = true → Text.startsWith d.key stem = true := by
    refine List.Pairwise.imp_of_mem ?_ (h.filter _)
    intro d e hd _ hlt he
    have hnot : ¬ d.key < stem := by simpa using (List.mem_filter.mp hd).2
    rw [Text.startsWith_iff] at he ⊢
    exact Text.prefix_of_between hnot hlt he
  unfold under
  rw [dropWhile_eq_filter hdrop, takeWhile_eq_filter htake, List.filter_filter]
  apply List.filter_congr
  intro e _
  cases hstem : Text.startsWith e.key stem with
  | false => rfl
  | true =>
    have hnot : ¬ e.key < stem :=
      Text.not_lt_of_prefix ((Text.startsWith_iff _ _).mp hstem)
    simp [hnot]

theorem mem_under_iff {s : Store} (h : Ordered s.entries) (stem : String) (e : Entry) :
    e ∈ s.under stem ↔ e ∈ s.entries ∧ Text.startsWith e.key stem = true := by
  rw [under_eq_filter h, List.mem_filter]

end Store

end AdmissionGate
