-- The store as a log of its writes. A put always takes effect, a removal does
-- if the last write of its key was a put, and the writes that took effect are
-- counted from one. The index, what is published of it, and every entry can
-- be read off this log, with whatever outages in between.
import AdmissionGate.Proofs.Store.History

namespace AdmissionGate.Store

/-! ## The log -/

/-- A write that took effect. -/
inductive Write where
  | put (key : String) (value : Bytes)
  | delete (key : String)
  deriving DecidableEq

def Write.key : Write → String
  | .put key _ => key
  | .delete key => key

/-- The last write of a key, and its ordinal among all writes. -/
def lastWrite? (log : List Write) (key : String) : Option (Write × Nat) :=
  (log.zipIdx 1).reverse.find? (·.1.key = key)

/-- What a write leaves under its key: the entry that was put, with the ordinal of the put as
its version, or nothing. -/
def Write.entry? : Write × Nat → Option Entry
  | (.put key value, n) => some ⟨key, value, n⟩
  | (.delete _, _) => none

/-- The entry that the last write of a key left. -/
def entryIn? (log : List Write) (key : String) : Option Entry :=
  (lastWrite? log key).bind Write.entry?

/-- What a change adds to the log. -/
def writesOf (log : List Write) : Change → List Write
  | .put key value => [.put key value]
  | .delete key => if (entryIn? log key).isSome then [.delete key] else []
  | .outage _ => []

/-- The writes that take effect among some changes to an empty store. -/
def logOf (changes : List Change) : List Write :=
  changes.foldl (fun log c => log ++ writesOf log c) []

theorem logOf_snoc (changes : List Change) (c : Change) :
    logOf (changes ++ [c]) = logOf changes ++ writesOf (logOf changes) c := by
  unfold logOf
  rw [List.foldl_append]
  rfl

/-- The log only grows. -/
theorem logOf_prefix {before changes : List Change} (h : before <+: changes) :
    logOf before <+: logOf changes := by
  obtain ⟨later, rfl⟩ := h
  induction later using List.reverseRecOn with
  | nil => simp
  | append_singleton later c ih =>
    rw [← List.append_assoc, logOf_snoc]
    exact ih.trans (List.prefix_append _ _)

theorem lastWrite?_snoc (log : List Write) (w : Write) (key : String) :
    lastWrite? (log ++ [w]) key =
      if key = w.key then some (w, log.length + 1) else lastWrite? log key := by
  unfold lastWrite?
  rw [List.zipIdx_append, List.reverse_append]
  by_cases h : key = w.key
  · simp [h, Nat.add_comm]
  · simp [h, Ne.symm h]

/-- The ordinal of a write tells its place in the log. -/
theorem of_lastWrite? {log : List Write} {key : String} {w : Write} {n : Nat}
    (h : lastWrite? log key = some (w, n)) :
    w.key = key ∧ 1 ≤ n ∧ n ≤ log.length ∧ log[n - 1]? = some w := by
  have hkey : w.key = key := by simpa using List.find?_some h
  have hmem : (w, n) ∈ log.zipIdx 1 := List.mem_reverse.mp (List.mem_of_find?_eq_some h)
  rw [List.mem_zipIdx_iff_le_and_getElem?_sub] at hmem
  obtain ⟨hpos, hget⟩ := hmem
  have hlt := (List.getElem?_eq_some_iff.mp hget).1
  exact ⟨hkey, hpos, by omega, hget⟩

theorem of_entryIn? {log : List Write} {key : String} {e : Entry}
    (h : entryIn? log key = some e) :
    e.key = key ∧ 1 ≤ e.version ∧ e.version ≤ log.length ∧
      log[e.version - 1]? = some (.put e.key e.value) := by
  obtain ⟨⟨w, n⟩, hlast, hentry⟩ := Option.bind_eq_some_iff.mp h
  cases w with
  | put key' value =>
    cases hentry
    exact of_lastWrite? hlast
  | delete key' => cases hentry

/-! ## The store that follows it -/

/-- A store in the state that a log tells. -/
structure IsLoggedBy (s : Store) (log : List Write) : Prop where
  index : s.index = log.length
  /-- Every write was published once, and nothing else was. -/
  channel : s.channel = ⟨log.length, log.length⟩
  entry : ∀ key, s.find? key = entryIn? log key

theorem isLoggedBy_empty : IsLoggedBy empty [] := ⟨rfl, rfl, fun _ => rfl⟩

theorem holds_eq_isSome (s : Store) (key : String) : s.holds key = (s.find? key).isSome := by
  rw [find?, List.isSome_find?, holds]

theorem entryIn?_snoc (log : List Write) (w : Write) (key : String) :
    entryIn? (log ++ [w]) key =
      if key = w.key then Write.entry? (w, log.length + 1) else entryIn? log key := by
  unfold entryIn?
  rw [lastWrite?_snoc]
  split
  · rfl
  · rfl

/-- A write goes to the end of the log, and what is no write leaves store and log as they are. -/
theorem IsLoggedBy.apply {s : Store} {log : List Write} (h : IsLoggedBy s log) (c : Change) :
    IsLoggedBy (s.apply c) (log ++ writesOf log c) := by
  obtain ⟨hindex, hchannel, hentry⟩ := h
  cases c with
  | put key value =>
    refine ⟨?_, ?_, fun k => ?_⟩
    · simp [Store.apply, put, writesOf, hindex]
    · simp [Store.apply, put, writesOf, hindex, hchannel, IndexChannel.send]
    · rw [Store.apply, find?_put, writesOf, entryIn?_snoc, hentry, hindex]
      rfl
  | delete key =>
    have hheld : s.holds key = (entryIn? log key).isSome := by rw [holds_eq_isSome, hentry]
    by_cases hthere : (entryIn? log key).isSome = true
    · rw [hthere] at hheld
      refine ⟨?_, ?_, fun k => ?_⟩
      · simp [Store.apply, delete, writesOf, hheld, hthere, hindex]
      · simp [Store.apply, delete, writesOf, hheld, hthere, hindex, hchannel, IndexChannel.send]
      · rw [Store.apply, find?_delete, writesOf, if_pos hthere, entryIn?_snoc, hentry]
        rfl
    · rw [Bool.not_eq_true] at hthere
      rw [hthere] at hheld
      have hsame : s.apply (.delete key) = s := by simp [Store.apply, delete, hheld]
      rw [hsame, writesOf, hthere, if_neg Bool.false_ne_true, List.append_nil]
      exact ⟨hindex, hchannel, hentry⟩
  | outage on =>
    rw [writesOf, List.append_nil]
    exact ⟨hindex, hchannel, hentry⟩

theorem isLoggedBy_after (changes : List Change) :
    IsLoggedBy (empty.after changes) (logOf changes) := by
  induction changes using List.reverseRecOn with
  | nil => exact isLoggedBy_empty
  | append_singleton changes c ih =>
    rw [after_append, logOf_snoc]
    exact ih.apply c

/-! ## Versions -/

theorem mem_entries_iff {s : Store} {log : List Write} (hs : Sound s) (h : IsLoggedBy s log)
    (e : Entry) : e ∈ s.entries ↔ entryIn? log e.key = some e := by
  rw [← h.entry]
  constructor
  · exact find?_of_mem hs.ordered
  · intro hfind
    exact (mem_of_find? hfind).1

/-- The version of an entry that was there at some time names its put in the log of the whole
run. -/
theorem getElem?_version {before changes : List Change} (hbefore : before <+: changes) {e : Entry}
    (he : e ∈ (empty.after before).entries) :
    1 ≤ e.version ∧ (logOf changes)[e.version - 1]? = some (.put e.key e.value) := by
  have hentry := (mem_entries_iff (sound_empty.after before) (isLoggedBy_after before) e).mp he
  obtain ⟨-, hpos, hle, hget⟩ := of_entryIn? hentry
  refine ⟨hpos, ?_⟩
  obtain ⟨later, hlater⟩ := logOf_prefix hbefore
  rw [← hlater, List.getElem?_append_left (by omega), hget]

/-- Two entries with one version, at whatever times they were there, are one entry. -/
theorem eq_of_version_eq {first second changes : List Change} (hfirst : first <+: changes)
    (hsecond : second <+: changes) {d e : Entry} (hd : d ∈ (empty.after first).entries)
    (he : e ∈ (empty.after second).entries) (h : d.version = e.version) : d = e := by
  obtain ⟨-, hput⟩ := getElem?_version hfirst hd
  obtain ⟨-, hput'⟩ := getElem?_version hsecond he
  rw [h, hput'] at hput
  obtain ⟨key, value, version⟩ := d
  cases hput
  cases h
  rfl

/-- Versions over a run of changes to an empty store. -/
structure NeverRepeats (changes : List Change) : Prop where
  /-- The version of an entry names its put, even after the entry is gone. -/
  named : ∀ before, before <+: changes → ∀ e ∈ (empty.after before).entries,
    (logOf changes)[e.version - 1]? = some (.put e.key e.value)
  /-- No two entries, at whatever times they are there, have one version. -/
  apart : ∀ first second, first <+: changes → second <+: changes →
    ∀ d ∈ (empty.after first).entries, ∀ e ∈ (empty.after second).entries,
      d.version = e.version → d = e
  /-- A put leaves an entry whose version is past all versions that there have been. -/
  fresh : ∀ before key value, before ++ [.put key value] <+: changes →
    ∃ e, (empty.after (before ++ [.put key value])).find? key = some e ∧
      ∀ earlier, earlier <+: before → ∀ d ∈ (empty.after earlier).entries, d.version < e.version

theorem index_le_of_isPrefix {before changes : List Change} (h : before <+: changes) :
    (empty.after before).index ≤ (empty.after changes).index := by
  obtain ⟨later, rfl⟩ := h
  rw [after_append]
  exact index_le_after _ later

theorem neverRepeats (changes : List Change) : NeverRepeats changes where
  named _ hbefore _ he := (getElem?_version hbefore he).2
  apart _ _ hfirst hsecond _ hd _ he h := eq_of_version_eq hfirst hsecond hd he h
  fresh before key value _ := by
    refine ⟨⟨key, value, (empty.after before).index + 1⟩, ?_, ?_⟩
    · rw [after_append]
      exact (find?_put _ key value key).trans (if_pos rfl)
    · intro earlier hearlier d hd
      have hbounded := (sound_empty.after earlier).bounded d hd
      exact Nat.lt_succ_of_le (Nat.le_trans hbounded (index_le_of_isPrefix hearlier))

theorem versions_ne (changes : List Change) :
    (empty.after changes).entries.Pairwise fun d e => d.version ≠ e.version := by
  refine (sound_empty.after changes).ordered.imp_of_mem ?_
  intro d e hd he hlt h
  rw [eq_of_version_eq List.prefix_rfl List.prefix_rfl hd he h] at hlt
  exact String.lt_irrefl _ hlt

/-! ## Outages -/

/-- What an outage says of the reads from then on: whether they are refused. -/
def outage? : Change → Option Bool
  | .outage on => some on
  | _ => none

/-- Whether reads are refused after some changes: what the last outage said. -/
def isOut (changes : List Change) : Bool := (changes.filterMap outage?).getLast?.getD false

theorem isAvailable_apply (s : Store) (c : Change) :
    (s.apply c).isAvailable = ((outage? c).map (!·)).getD s.isAvailable := by
  cases c with
  | put key value => rfl
  | delete key =>
    simp only [Store.apply, delete]
    split
    · rfl
    · rfl
  | outage on => rfl

theorem isAvailable_after (changes : List Change) :
    (empty.after changes).isAvailable = !isOut changes := by
  induction changes using List.reverseRecOn with
  | nil => rfl
  | append_singleton changes c ih =>
    rw [after_append]
    show ((empty.after changes).apply c).isAvailable = _
    rw [isAvailable_apply, ih, isOut, isOut, List.filterMap_append]
    cases hc : outage? c <;> simp [hc]

/-- A store that answers reads. -/
def serving (s : Store) : Store := { s with isAvailable := true }

theorem serving_apply (s : Store) {c : Change} (h : outage? c = none) :
    serving (s.apply c) = (serving s).apply c := by
  cases c with
  | put key value => rfl
  | delete key =>
    simp only [Store.apply, delete]
    have hheld : (serving s).holds key = s.holds key := rfl
    rw [hheld]
    split
    · rfl
    · rfl
  | outage on => cases h

/-- Outages change nothing but whether reads are answered. -/
theorem serving_after (changes : List Change) :
    serving (empty.after changes) = empty.after (changes.filter (outage? · = none)) := by
  induction changes using List.reverseRecOn with
  | nil => rfl
  | append_singleton changes c ih =>
    rw [after_append, List.filter_append]
    show serving ((empty.after changes).apply c) = _
    cases hc : outage? c with
    | some on =>
      cases c with
      | outage on => simpa [outage?, Store.apply, serving] using ih
      | put key value => cases hc
      | delete key => cases hc
    | none =>
      rw [serving_apply _ hc, ih, List.filter_cons_of_pos (by simp [hc]), List.filter_nil,
        after_append]
      rfl

/-! ## Reads -/

/-- What the reads of a store answer: during an outage nothing, and else what a log tells. -/
structure ReadsAs (s : Store) (log : List Write) (out : Bool) : Prop where
  get : ∀ key, s.get key =
    if out then .error (.unavailable .marked) else .ok (entryIn? log key)
  list : ∀ stem, ∃ entries, (∀ e, e ∈ entries ↔
      entryIn? log e.key = some e ∧ Text.startsWith e.key stem = true) ∧
    s.list stem = if out then .error (.unavailable .marked) else .ok ⟨entries, log.length⟩

theorem readsAs_after (changes : List Change) :
    ReadsAs (empty.after changes) (logOf changes) (isOut changes) := by
  have hlogged := isLoggedBy_after changes
  have hsound := sound_empty.after changes
  have hout := isAvailable_after changes
  constructor
  · intro key
    rw [Store.get, answer, hout, hlogged.entry]
    cases isOut changes <;> rfl
  · intro stem
    refine ⟨(empty.after changes).under stem, fun e => ?_, ?_⟩
    · rw [mem_under_iff hsound.ordered, mem_entries_iff hsound hlogged]
    · rw [Store.list, answer, hout, snapshot, hlogged.index]
      cases isOut changes <;> rfl

/-- After any changes the store is the log of the writes that took effect. Its index and the value
on its channel are the number of these writes, each of which was published once; a key has an
entry exactly if its last write was a put, with the value of this put and its ordinal as the
version. So versions lie between one and the index, those of different entries differ, and none
comes again over the run. A removal without an entry leaves the whole store as it is, its channel
included. Outages change nothing but the answers to reads. -/
theorem versioned_log (changes : List Change) :
    let s := empty.after changes
    let log := logOf changes
    IsLoggedBy s log ∧
      (∀ e, e ∈ s.entries ↔ entryIn? log e.key = some e) ∧
      (∀ e ∈ s.entries, 1 ≤ e.version ∧ e.version ≤ s.index) ∧
      s.entries.Pairwise (fun d e => d.version ≠ e.version) ∧
      NeverRepeats changes ∧
      (∀ key, entryIn? log key = none → s.apply (.delete key) = s) ∧
      serving s = empty.after (changes.filter (outage? · = none)) ∧
      ReadsAs s log (isOut changes) := by
  intro s log
  have hlogged : IsLoggedBy s log := isLoggedBy_after changes
  have hsound : Sound s := sound_empty.after changes
  refine ⟨hlogged, mem_entries_iff hsound hlogged, ?_, versions_ne changes, neverRepeats changes, ?_,
    serving_after changes, readsAs_after changes⟩
  · intro e he
    exact ⟨hsound.positive e he, hsound.bounded e he⟩
  · intro key hnone
    have hheld : s.holds key = false := by rw [holds_eq_isSome, hlogged.entry, hnone]; rfl
    simp [Store.apply, delete, hheld]

example : logOf [.put "a" [1], .outage true, .delete "b", .delete "a", .put "a" [2]] =
    [.put "a" [1], .delete "a", .put "a" [2]] := by decide

end AdmissionGate.Store
