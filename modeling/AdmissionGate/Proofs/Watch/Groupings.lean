-- The entries of a directory, listed by themselves or grouped out of a listing
-- of the namespace. A store lists what begins with a stem, in the order of the
-- bytes of the keys, and the batches of the namespace show the same entries,
-- also where directories overlap.
import AdmissionGate.Proofs.Store.History
import AdmissionGate.Proofs.Text.ByteOrder
import AdmissionGate.Proofs.Watch.Batches
import AdmissionGate.Proofs.Watch.Offers

namespace AdmissionGate

/-! ## Direct listings -/

namespace Store

/-- Some entries are all those stored under a stem, each once, in the order of the bytes of their
keys. -/
structure IsListing (stored : List Entry) (stem : String) (entries : List Entry) : Prop where
  mem : ∀ e, e ∈ entries ↔ e ∈ stored ∧ Bytes.ofText stem <+: Bytes.ofText e.key
  rising : entries.Pairwise fun d e => Bytes.ofText d.key < Bytes.ofText e.key

theorem ordered_under {s : Store} (h : Ordered s.entries) (stem : String) :
    Ordered (s.under stem) := by
  rw [under_eq_filter h]
  exact h.filter _

theorem isListing_under {s : Store} (h : Ordered s.entries) (stem : String) :
    IsListing s.entries stem (s.under stem) := by
  constructor
  · intro e
    rw [mem_under_iff h, Text.startsWith_iff, Bytes.ofText_prefix_iff]
  · exact (ordered_under h stem).imp fun hlt => Bytes.ofText_lt_iff.mpr hlt

end Store

namespace Watch

/-! ## The batch of some entries -/

/-- A batch shows some entries: each with its value, and the highest of their versions. There is
no such batch without entries. -/
structure IsBatchOf (entries : List Entry) (b : Batch) : Prop where
  values : b.values.entries = entries.map fun e => (e.key, e.value)
  newest : ∃ e ∈ entries, e.version = b.version
  highest : ∀ e ∈ entries, e.version ≤ b.version

theorem entries_valuesOf {entries : List Entry} (h : Store.Ordered entries) :
    (valuesOf entries).entries = entries.map fun e => (e.key, e.value) := by
  refine Table.entries_ofList ?_
  rw [List.pairwise_map]
  exact h.imp fun hlt => String.ne_of_lt hlt

theorem exists_newest_of_ne_nil {entries : List Entry} (h : entries ≠ []) :
    ∃ e ∈ entries, e.version = maxVersion entries := by
  rcases Nat.eq_zero_or_pos (maxVersion entries) with hzero | hpos
  · obtain ⟨e, he⟩ := List.exists_mem_of_ne_nil entries h
    have hle := le_maxVersion he
    exact ⟨e, he, by omega⟩
  · exact exists_newest hpos

theorem isBatchOf_of_ne_nil {entries : List Entry} (h : Store.Ordered entries) (hne : entries ≠ [])
    (directory : String) : IsBatchOf entries ⟨directory, maxVersion entries, valuesOf entries⟩ :=
  ⟨entries_valuesOf h, exists_newest_of_ne_nil hne, fun _ he => le_maxVersion he⟩

theorem IsBatchOf.ne_nil {entries : List Entry} {b : Batch} (h : IsBatchOf entries b) :
    entries ≠ [] := by
  obtain ⟨e, he, -⟩ := h.newest
  exact List.ne_nil_of_mem he

/-- Entries leave no choice for the batch of a directory that shows them. -/
theorem IsBatchOf.eq {entries : List Entry} {b : Batch} (hb : IsBatchOf entries b)
    (h : Store.Ordered entries) : b = ⟨b.directory, maxVersion entries, valuesOf entries⟩ := by
  obtain ⟨directory, version, ⟨values⟩⟩ := b
  obtain ⟨hvalues, ⟨d, hd, hdversion⟩, hhighest⟩ := hb
  obtain ⟨e, he, heversion⟩ := exists_newest_of_ne_nil (List.ne_nil_of_mem hd)
  dsimp only at hvalues hdversion hhighest
  have hge := le_maxVersion hd
  have hle := hhighest e he
  have hversion : version = maxVersion entries := by omega
  have htable : (⟨values⟩ : Table String Bytes) = valuesOf entries := by
    rw [hvalues, ← entries_valuesOf h]
  rw [hversion, htable]

/-- The batch of a directory below a stem, in the listing of the stem, shows what the store lists
under the directory. -/
theorem batchOf?_under_iff {s : Store} (h : Store.Ordered s.entries) {stem directory : String}
    (hunder : Text.startsWith directory stem = true) {b : Batch} :
    batchOf? (s.under stem) directory = some b ↔
      b.directory = directory ∧ IsBatchOf (s.under directory) b := by
  have hord := Store.ordered_under h directory
  constructor
  · intro hb
    have hne : s.under directory ≠ [] := by
      rw [← filter_under h hunder]
      intro hnil
      rw [batchOf?, hnil] at hb
      cases hb
    rw [batchOf?_eq_some hb, filter_under h hunder]
    exact ⟨rfl, isBatchOf_of_ne_nil hord hne directory⟩
  · rintro ⟨rfl, hb⟩
    obtain ⟨e, he⟩ := List.exists_mem_of_ne_nil _ hb.ne_nil
    rw [← filter_under h hunder, List.mem_filter] at he
    obtain ⟨c, hc⟩ := batchOf?_of_mem he.1 he.2
    have heq := batchOf?_eq_some hc
    rw [filter_under h hunder] at heq
    rw [hc, hb.eq hord, heq]

/-- The directories that have a batch are those under which the store lists something. -/
theorem directories_batches {s : Store} (h : Store.Ordered s.entries) {stem : String}
    {directories : List String}
    (hunder : ∀ directory ∈ directories, Text.startsWith directory stem = true) :
    (batches (s.under stem) directories).map (·.directory) =
      directories.filter fun directory => !(s.under directory).isEmpty := by
  induction directories with
  | nil => rfl
  | cons directory rest ih =>
    obtain ⟨hfirst, hrest⟩ := List.forall_mem_cons.mp hunder
    have hmore := ih hrest
    unfold batches at hmore ⊢
    cases hb : batchOf? (s.under stem) directory with
    | none =>
      have hnil : s.under directory = [] := by
        by_contra hne
        have hshown := isBatchOf_of_ne_nil (Store.ordered_under h directory) hne directory
        rw [(batchOf?_under_iff h hfirst).mpr ⟨rfl, hshown⟩] at hb
        cases hb
      rw [List.filterMap_cons_none hb, hmore, List.filter_cons_of_neg (by simp [hnil])]
    | some b =>
      obtain ⟨rfl, hshown⟩ := (batchOf?_under_iff h hfirst).mp hb
      rw [List.filterMap_cons_some hb, List.map_cons, hmore,
        List.filter_cons_of_pos (by simpa using hshown.ne_nil)]

/-- What a registration finds in a directory that is not empty is what the batch of it shows. -/
theorem IsBatchOf.fetchedSnapshot {s : Store} (h : Store.Ordered s.entries) {b : Batch}
    (hb : IsBatchOf (s.under b.directory) b) (hup : s.isAvailable = true) :
    Watcher.fetchedSnapshot (s.list b.directory) = some (.snapshot b.values, b.version) := by
  rw [hb.eq (Store.ordered_under h b.directory)]
  simp [Watcher.fetchedSnapshot, Store.list, Store.answer, Store.snapshot, hup]

/-! ## Both ways agree -/

/-- A store lists exactly the entries whose keys begin with a stem, each once and in the order of
the bytes of the keys. So for any directories below a stem, also overlapping ones, the batches of
the listing of the stem are those that show what the store lists under each directory: its values
by key and the highest version there. A directory has one batch, or none if the store lists
nothing under it; and a registration for it fetches the same as its batch shows. -/
theorem grouped_as_listed (changes : List Change) (stem : String) {directories : List String}
    (hunder : ∀ directory ∈ directories, Text.startsWith directory stem = true) :
    let s := Store.empty.after changes
    let grouped := batches (s.under stem) directories
    (∀ p, Store.IsListing s.entries p (s.under p) ∧
      s.list p = if s.isAvailable then .ok ⟨s.under p, s.index⟩
        else .error (.unavailable .marked)) ∧
    (∀ b, b ∈ grouped ↔ b.directory ∈ directories ∧ IsBatchOf (s.under b.directory) b) ∧
    grouped.map (·.directory) =
      directories.filter (fun directory => !(s.under directory).isEmpty) ∧
    (s.isAvailable = true → ∀ b ∈ grouped,
      Watcher.fetchedSnapshot (s.list b.directory) = some (.snapshot b.values, b.version)) := by
  intro s grouped
  have hord : Store.Ordered s.entries := (Store.sound_empty.after changes).ordered
  have hmem : ∀ b, b ∈ grouped ↔
      b.directory ∈ directories ∧ IsBatchOf (s.under b.directory) b := by
    intro b
    rw [mem_batches]
    constructor
    · rintro ⟨hd, hb⟩
      exact ⟨hd, ((batchOf?_under_iff hord (hunder _ hd)).mp hb).2⟩
    · rintro ⟨hd, hb⟩
      exact ⟨hd, (batchOf?_under_iff hord (hunder _ hd)).mpr ⟨rfl, hb⟩⟩
  refine ⟨fun p => ⟨Store.isListing_under hord p, rfl⟩, hmem, directories_batches hord hunder, ?_⟩
  intro hup b hb
  exact ((hmem b).mp hb).2.fetchedSnapshot hord hup

/-- Two directories that overlap share an entry, and one that is empty has no batch. -/
theorem overlapping_directories_grouped :
    let changes : List Change := [.put "Acm/svc/a" [1], .put "Acm/svc/b" [2], .put "Acm/other" [0],
      .put "Acm/svc/b/c" [3], .put "Acm/svc/b" [4], .put "Acm/tail" [9]]
    let directories := ["Acm/svc/", "Acm/svc/b", "Acm/none/"]
    let grouped := batches ((Store.empty.after changes).under "Acm/") directories
    (∀ directory ∈ directories, Text.startsWith directory "Acm/" = true) ∧
      grouped.map (·.directory) = ["Acm/svc/", "Acm/svc/b"] ∧
      ⟨"Acm/svc/b", 5, ⟨[("Acm/svc/b", [4]), ("Acm/svc/b/c", [3])]⟩⟩ ∈ grouped := by
  intro changes directories grouped
  have hunder : ∀ directory ∈ directories, Text.startsWith directory "Acm/" = true := by decide
  obtain ⟨-, hmem, hdirectories, -⟩ := grouped_as_listed changes "Acm/" hunder
  refine ⟨hunder, ?_, ?_⟩
  · show grouped.map (·.directory) = _
    rw [hdirectories]
    decide
  · refine (hmem _).mpr ⟨by decide, by decide, ?_, by decide⟩
    exact ⟨⟨"Acm/svc/b", [4], 5⟩, by decide, rfl⟩

end Watch

end AdmissionGate
