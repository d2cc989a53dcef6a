-- The long poll: a listing that waits until the store's index has moved past
-- a given one, or until a time limit. Changes during the wait come from a
-- schedule, so that a poll is a function of what happens and when.
import AdmissionGate.Store.Basic

namespace AdmissionGate

/-- Changes with the time of each, in milliseconds since the poll began, in order. -/
abbrev Schedule := List (Nat × Change)

/-- How a poll ended: when, with what answer, and with which store and changes to come. -/
structure PollEnd where
  elapsed : Nat
  answer : Except StoreError Listing
  store : Store
  rest : Schedule

namespace Store

/-- Lets changes happen until the index on the store's channel is past `cursor` or `wait` is over;
gives the time, the store then, and the changes still to come. -/
def awaitPast (cursor wait : Nat) : Nat → Store → Schedule → Nat × Store × Schedule
  | now, s, [] => if cursor < s.channel.value then (now, s, []) else (wait, s, [])
  | now, s, (t, change) :: rest =>
    if cursor < s.channel.value then (now, s, (t, change) :: rest)
    else if t < wait then awaitPast cursor wait t (s.apply change) rest
    else (wait, s, (t, change) :: rest)

/-- Lists a stem once the index is past `cursor`, or when `wait` is over. A store that does
not answer fails at once, and also if it does not answer when the wait ends. -/
def listWait (s : Store) (stem : String) (cursor wait : Nat) (schedule : Schedule) : PollEnd :=
  if s.isAvailable then
    let (elapsed, s, rest) := awaitPast cursor wait 0 s schedule
    ⟨elapsed, s.list stem, s, rest⟩
  else ⟨0, s.list stem, s, schedule⟩

/-- The store after all changes of a schedule. -/
def applyAll (s : Store) (schedule : Schedule) : Store :=
  schedule.foldl (fun s c => s.apply c.2) s

end Store

end AdmissionGate
