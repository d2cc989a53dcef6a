-- The batches of a listing. A directory has one exactly if something lies in
-- it, with the values of all that does and the highest version among them.
import AdmissionGate.Proofs.Store.Order
import AdmissionGate.Watch.Subscription

namespace AdmissionGate.Watch

/-! ## The highest version -/

/-- The highest version is the largest of the versions and zero. -/
theorem max?_versions (entries : List Entry) :
    (0 :: entries.map (·.version)).max? = some (maxVersion entries) := by
  rw [List.max?_cons', List.foldl_map]
  rfl

theorem le_maxVersion {entries : List Entry} {e : Entry} (h : e ∈ entries) :
    e.version ≤ maxVersion entries :=
  (List.max?_eq_some_iff.mp (max?_versions entries)).2 _
    (List.mem_cons_of_mem _ (List.mem_map_of_mem h))

/-- An entry that has the highest version, unless that is zero. -/
theorem exists_newest {entries : List Entry} (h : 0 < maxVersion entries) :
    ∃ e ∈ entries, e.version = maxVersion entries := by
  rcases List.mem_cons.mp (List.max?_eq_some_iff.mp (max?_versions entries)).1 with hzero | hmem
  · omega
  · exact List.mem_map.mp hmem

theorem maxVersion_le {entries : List Entry} {v : Nat} (h : ∀ e ∈ entries, e.version ≤ v) :
    maxVersion entries ≤ v := by
  rcases Nat.eq_zero_or_pos (maxVersion entries) with hzero | hpos
  · omega
  · obtain ⟨e, he, heq⟩ := exists_newest hpos
    rw [← heq]
    exact h e he

/-! ## The values by key -/

/-- With keys in order, a key finds the value of its entry. -/
theorem find?_valuesOf {entries : List Entry} (h : Store.Ordered entries) (key : String) :
    (valuesOf entries).find? key = (entries.find? (·.key = key)).map (·.value) := by
  rw [valuesOf, Table.find?_ofList]
  cases hfind : entries.find? (·.key = key) with
  | none =>
    have hnone : ∀ e ∈ entries, ¬ e.key = key := by simpa using hfind
    simpa using hnone
  | some e =>
    have hkey : e.key = key := by simpa using List.find?_some hfind
    have hmem : (e.key, e.value) ∈ (entries.map fun e => (e.key, e.value)).reverse := by
      rw [List.mem_reverse]
      exact List.mem_map_of_mem (List.mem_of_find?_eq_some hfind)
    cases hlast : (entries.map fun e => (e.key, e.value)).reverse.find? (·.1 = key) with
    | none =>
      have hnone := List.find?_eq_none.mp hlast _ hmem
      simp [hkey] at hnone
    | some pair =>
      have hpair := List.mem_of_find?_eq_some hlast
      rw [List.mem_reverse] at hpair
      obtain ⟨d, hd, rfl⟩ := List.mem_map.mp hpair
      -- Both entries have the key, and a key finds only one.
      have hdkey : d.key = key := by simpa using List.find?_some hlast
      have hsame := Store.find?_of_mem h hd
      rw [hdkey, hfind] at hsame
      cases hsame
      rfl

/-! ## The batch of a directory -/

/-- An order in which the directories of a round are visited. -/
structure Tour where
  visit : List Batch → List Batch
  perm : ∀ round, (visit round).Perm round

theorem directory_batchOf? {entries : List Entry} {directory : String} {b : Batch}
    (h : batchOf? entries directory = some b) : b.directory = directory := by
  unfold batchOf? at h
  split at h <;> cases h
  rfl

/-- A batch has the version and the values of the entries in its directory. -/
theorem batchOf?_eq_some {entries : List Entry} {directory : String} {b : Batch}
    (h : batchOf? entries directory = some b) :
    b = ⟨directory, maxVersion (entries.filter fun e => Text.startsWith e.key directory),
      valuesOf (entries.filter fun e => Text.startsWith e.key directory)⟩ := by
  unfold batchOf? at h
  split at h <;> cases h
  rfl

theorem batchOf?_of_mem {entries : List Entry} {directory : String} {e : Entry} (he : e ∈ entries)
    (hin : Text.startsWith e.key directory = true) : ∃ b, batchOf? entries directory = some b := by
  have hmem : e ∈ entries.filter fun e => Text.startsWith e.key directory :=
    List.mem_filter.mpr ⟨he, hin⟩
  unfold batchOf?
  split
  next hnil =>
    rw [hnil] at hmem
    cases hmem
  next => exact ⟨_, rfl⟩

/-- The batches of a round are those of its directories. -/
theorem mem_batches {entries : List Entry} {directories : List String} {b : Batch} :
    b ∈ batches entries directories ↔
      b.directory ∈ directories ∧ batchOf? entries b.directory = some b := by
  unfold batches
  rw [List.mem_filterMap]
  constructor
  · rintro ⟨directory, hmem, hb⟩
    rw [directory_batchOf? hb]
    exact ⟨hmem, hb⟩
  · rintro ⟨hmem, hb⟩
    exact ⟨b.directory, hmem, hb⟩

/-- What a listing of a stem shows of a directory below it is what the store has under that. -/
theorem filter_under {s : Store} (hs : Store.Ordered s.entries) {stem directory : String}
    (h : Text.startsWith directory stem = true) :
    ((s.under stem).filter fun e => Text.startsWith e.key directory) = s.under directory := by
  rw [Store.under_eq_filter hs, Store.under_eq_filter hs, List.filter_filter]
  apply List.filter_congr
  intro e _
  rw [Text.startsWith_iff] at h
  cases hdir : Text.startsWith e.key directory with
  | false => rfl
  | true =>
    have hstem : Text.startsWith e.key stem = true :=
      (Text.startsWith_iff _ _).mpr (h.trans ((Text.startsWith_iff _ _).mp hdir))
    simp [hstem]

end AdmissionGate.Watch
