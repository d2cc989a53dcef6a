-- Counters of what the gate has done, with the names under which they are
-- published.
import AdmissionGate.Firewall.Verdict
import AdmissionGate.Table

namespace AdmissionGate

/-! ## What is counted -/

inductive Watched where
  | key
  | directory
  deriving DecidableEq, Repr

inductive PollFailure where
  | empty
  | unavailable
  deriving DecidableEq, Repr

/-- The events that are counted: decisions, offers to subscribers, and poll rounds that
brought nothing. -/
inductive Counter where
  | decision (verdict : Verdict)
  | offer (watched : Watched) (accepted : Bool)
  | pollFailure (cause : PollFailure)
  deriving DecidableEq, Repr

/-- The counters that have been touched, and the size of the replay cache after its last
sweep. -/
structure Metrics where
  counts : Table Counter Nat
  replaySignatures : Option Nat
  deriving DecidableEq

namespace Metrics

def empty : Metrics := ⟨Table.empty, none⟩

/-- How often an event has been counted. -/
def count (m : Metrics) (c : Counter) : Nat := (m.counts.find? c).getD 0

def increment (m : Metrics) (c : Counter) : Metrics :=
  { m with counts := m.counts.insert c (m.count c + 1) }

/-- The counters of two parts of the program together. -/
def merge (m n : Metrics) : Metrics :=
  ⟨n.counts.entries.foldl (fun t e => t.insert e.1 ((t.find? e.1).getD 0 + e.2)) m.counts,
    n.replaySignatures.or m.replaySignatures⟩

/-- An increment adds one to its own counter and leaves the others. -/
theorem count_increment (m : Metrics) (c d : Counter) :
    (m.increment c).count d = m.count d + if c = d then 1 else 0 := by
  by_cases h : c = d <;> simp [count, increment, Table.find?_insert, h]

end Metrics

/-! ## Names -/

/-- A published series: its name, and its labels in the order of their names. -/
structure Series where
  name : String
  labels : List (String × String)
  deriving DecidableEq, Repr

namespace Series

def ofCounter : Counter → Series
  | .decision verdict =>
    ⟨"gatekeeper_admissions_total",
      [("outcome", match verdict with
        | .admitted => "admitted"
        | .rejected _ => "rejected"),
       ("reason", verdict.reason)]⟩
  | .offer watched accepted =>
    ⟨"gatekeeper_watch_deliveries_total",
      [("kind", match watched with
        | .key => "key"
        | .directory => "dir"),
       ("outcome", if accepted then "ok" else "error")]⟩
  | .pollFailure cause =>
    ⟨"gatekeeper_store_poll_errors_total",
      [("cause", match cause with
        | .empty => "empty"
        | .unavailable => "unavailable")]⟩

def replaySignatures : Series := ⟨"gatekeeper_replay_signatures", []⟩

/-- No two counters are published as the same series. -/
theorem ofCounter_inj {c d : Counter} :
    Series.ofCounter c = Series.ofCounter d ↔ c = d := by
  constructor
  · intro h
    cases c with
    | decision v =>
      cases d with
      | decision w =>
        have hreason : v.reason = w.reason := by
          simp only [ofCounter, mk.injEq, List.cons.injEq, Prod.mk.injEq] at h
          exact h.2.2.1.2
        rw [Verdict.reason_inj.mp hreason]
      | _ => simp [ofCounter] at h
    | offer watched accepted =>
      cases d with
      | offer watched' accepted' =>
        cases watched <;> cases watched' <;> cases accepted <;> cases accepted' <;>
          first | rfl | simp [ofCounter] at h
      | _ => simp [ofCounter] at h
    | pollFailure cause =>
      cases d with
      | pollFailure cause' =>
        cases cause <;> cases cause' <;> first | rfl | simp [ofCounter] at h
      | _ => simp [ofCounter] at h
  · rintro rfl
    rfl

theorem ofCounter_ne_replaySignatures (c : Counter) :
    Series.ofCounter c ≠ Series.replaySignatures := by
  cases c <;> simp [ofCounter, replaySignatures]

/-- The series as one text, `name{label=value,...}`. -/
def text (s : Series) : String :=
  s.name ++ "\x7b" ++ ",".intercalate (s.labels.map fun l => l.1 ++ "=" ++ l.2) ++ "\x7d"

end Series

/-- The published series and their values. -/
def Metrics.series (m : Metrics) : List (Series × Nat) :=
  m.counts.entries.map (fun e => (Series.ofCounter e.1, e.2))
    ++ (m.replaySignatures.map fun n => (Series.replaySignatures, n)).toList

namespace Metrics

/-- The value under which a series is published, zero if it is not. -/
def value (m : Metrics) (s : Series) : Nat := ((m.series.find? (·.1 = s)).map (·.2)).getD 0

/-- The sum of all series that are published under a name. -/
def total (m : Metrics) (name : String) : Nat :=
  Table.sumOf (fun s : Series => s.name = name) m.series

theorem value_ofCounter (m : Metrics) (c : Counter) :
    m.value (Series.ofCounter c) = m.count c := by
  have hcounts : (m.counts.entries.map fun e => (Series.ofCounter e.1, e.2)).find?
      (·.1 = Series.ofCounter c) =
        (m.counts.entries.find? (·.1 = c)).map fun e => (Series.ofCounter e.1, e.2) := by
    rw [List.find?_map]
    simp only [Function.comp_def, Series.ofCounter_inj]
  have hgauge : (m.replaySignatures.map fun n => (Series.replaySignatures, n)).toList.find?
      (·.1 = Series.ofCounter c) = none := by
    cases m.replaySignatures <;> simp [(Series.ofCounter_ne_replaySignatures c).symm]
  unfold value count series Table.find?
  rw [List.find?_append, hcounts, hgauge, Option.or_none, Option.map_map]
  rfl

/-- An increment adds one to the series of its counter and leaves every other series. -/
theorem value_increment (m : Metrics) (c : Counter) (s : Series) :
    (m.increment c).value s = m.value s + if s = Series.ofCounter c then 1 else 0 := by
  by_cases hs : ∃ d, s = Series.ofCounter d
  · obtain ⟨d, rfl⟩ := hs
    rw [value_ofCounter, value_ofCounter, count_increment]
    simp only [Series.ofCounter_inj, @eq_comm _ c]
  · have hnone : ∀ l : List (Counter × Nat),
        (l.map fun e => (Series.ofCounter e.1, e.2)).find? (·.1 = s) = none := by
      intro l
      simp only [List.find?_eq_none, List.mem_map, decide_eq_true_eq]
      rintro _ ⟨e, _, rfl⟩ heq
      exact hs ⟨e.1, heq.symm⟩
    have hc : s ≠ Series.ofCounter c := fun h => hs ⟨c, h⟩
    unfold value series
    rw [List.find?_append, List.find?_append, hnone, hnone, if_neg hc]
    rfl

/-- An increment adds one to the sum over the name of its counter. -/
theorem total_increment (m : Metrics) (c : Counter) (name : String) :
    (m.increment c).total name
      = m.total name + if (Series.ofCounter c).name = name then 1 else 0 := by
  have hsum := Table.sumOf_insert_succ m.counts c fun c => (Series.ofCounter c).name = name
  simp only [decide_eq_true_eq] at hsum
  simp only [total, series, Table.sumOf_append, Table.sumOf_map, increment, count, hsum]
  exact Nat.add_right_comm _ _ _

end Metrics

end AdmissionGate
