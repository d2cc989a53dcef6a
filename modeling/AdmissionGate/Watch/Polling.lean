-- The poll loop: it lists the namespace from a cursor, again and again. A
-- listing with entries is dispatched and moves the cursor; a round without
-- entries, or one that failed, is counted and followed by a pause.
import AdmissionGate.Watch.Watcher

namespace AdmissionGate.Watch

/-- How a long poll came out. -/
abbrev Outcome := Except StoreError Listing

inductive Next where
  | poll (cursor : Nat)
  | pause (cursor : Nat)
  deriving DecidableEq

def countFailure {H : Type} (w : Watcher H) (cause : PollFailure) : Watcher H :=
  { w with metrics := w.metrics.increment (.pollFailure cause) }

/-- One round of the loop: what it does with the outcome of a poll from `cursor`. -/
def round {H σ : Type} (react : Reaction H σ) (visit : List Batch → List Batch) (w : Watcher H)
    (cursor : Nat) (outcome : Outcome) (s : σ) : Next × Served H σ :=
  match outcome with
  | .ok listing =>
    if listing.entries.isEmpty then (.pause cursor, ⟨countFailure w .empty, s, []⟩)
    else (.poll listing.lastIndex, (w.dispatch react visit listing s).toServed)
  | .error _ => (.pause cursor, ⟨countFailure w .unavailable, s, []⟩)

end AdmissionGate.Watch
