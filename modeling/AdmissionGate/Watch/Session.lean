-- A session: a store in memory, a watcher with its poll loop over it, and
-- what its handlers look after, all under one clock that moves only when it
-- is told to. The outcomes of polls come from the store or from a script.
import AdmissionGate.Watch.Polling

namespace AdmissionGate.Watch

/-- Where the poll loop stands: not begun, in a poll or in a pause that lasts until some time,
or ended. -/
inductive Loop where
  | idle
  | polling (cursor deadline : Nat)
  | pausing (cursor deadline : Nat)
  | ended
  deriving DecidableEq

inductive Event (H : Type) where
  | offered (offer : Offer H)
  | polled (stem : String) (cursor waitMs : Nat)

/-- A session at one moment, in milliseconds, with the events since they were last taken. -/
structure Session (H σ : Type) where
  clock : Nat
  store : Store
  watcher : Watcher H
  state : σ
  waitMs : Nat
  retryDelayMs : Nat
  loop : Loop
  /-- The outcomes that polls are given, if they do not come from the store. -/
  script : Option (List Outcome)
  events : List (Event H)

namespace Session

variable {H σ : Type}

def start (settings : StoreSettings) (scripted : Bool) (state : σ) : Session H σ where
  clock := 0
  store := Store.empty
  watcher := Watcher.start settings.space
  state := state
  waitMs := settings.waitSecs * 1000
  retryDelayMs := settings.retryDelayMs
  loop := .idle
  script := if scripted then some [] else none
  events := []

def served (x : Session H σ) (r : Served H σ) : Session H σ :=
  { x with
    watcher := r.watcher, state := r.state,
    events := x.events ++ r.offers.map Event.offered }

/-! ## The loop -/

/-- Carries out a round with its outcome: the next poll begins at once, or a pause does. -/
def finishRound (react : Reaction H σ) (x : Session H σ) (cursor : Nat) (outcome : Outcome) :
    Session H σ × Option Nat :=
  match round react id x.watcher cursor outcome x.state with
  | (.poll next, r) => (x.served r, some next)
  | (.pause next, r) => ({ x.served r with loop := .pausing next (x.clock + x.retryDelayMs) }, none)

def beginPoll (x : Session H σ) (cursor : Nat) : Session H σ :=
  { x with
    loop := .polling cursor (x.clock + x.waitMs),
    events := x.events ++ [.polled x.watcher.stem cursor x.waitMs] }

/-- Carries out a round that follows from a poll, and begins the next poll if one follows. -/
def afterPoll (react : Reaction H σ) (x : Session H σ) (cursor : Nat) (outcome : Outcome) :
    Session H σ :=
  match x.finishRound react cursor outcome with
  | (x, some next) => x.beginPoll next
  | (x, none) => x

/-- What the loop does next without time passing, or `none` if it has to wait: a poll ends
when an outcome is at hand, and a pause when it is over. `begun` tells whether the poll has
just begun, when a store that does not answer ends it at once. -/
def advanceLoop? (react : Reaction H σ) (begun : Bool) (x : Session H σ) : Option (Session H σ) :=
  match x.loop, x.script with
  | .polling cursor _, some (outcome :: rest) =>
    some ({ x with script := some rest }.afterPoll react cursor outcome)
  | .polling _ _, some [] => none
  | .polling cursor deadline, none =>
    if (begun && !x.store.isAvailable) || cursor < x.store.channel.value || deadline ≤ x.clock then
      some (x.afterPoll react cursor (x.store.list x.watcher.stem))
    else none
  | .pausing cursor deadline, _ => if deadline ≤ x.clock then some (x.beginPoll cursor) else none
  | _, _ => none

/-- Lets the loop run until it has to wait, at most `fuel` steps. -/
def settle (react : Reaction H σ) : Nat → Bool → Session H σ → Session H σ
  | 0, _, x => x
  | fuel + 1, begun, x =>
    match x.advanceLoop? react begun with
    | some x => settle react fuel true x
    | none => x

/-- Enough steps for the loop to come to rest: each outcome of a script takes at most two, and
over a store the second poll in a row finds nothing newer. More of them make no difference, see
`settle_steps_add`. -/
def steps (x : Session H σ) : Nat :=
  match x.script with
  | some outcomes => 2 * outcomes.length + 2
  | none => 4

/-- Lets the loop run until it has to wait. -/
def run (react : Reaction H σ) (x : Session H σ) : Session H σ := settle react x.steps false x

/-! The loop lets no time pass. -/

theorem clock_afterPoll (react : Reaction H σ) (x : Session H σ) (cursor : Nat)
    (outcome : Outcome) : (x.afterPoll react cursor outcome).clock = x.clock := by
  simp only [afterPoll, finishRound]
  split
  next h => split at h <;> cases h; rfl
  next h => split at h <;> cases h; rfl

theorem clock_advanceLoop? {react : Reaction H σ} {begun : Bool} {x y : Session H σ}
    (h : x.advanceLoop? react begun = some y) : y.clock = x.clock := by
  simp only [advanceLoop?] at h
  split at h
  · cases h; exact clock_afterPoll ..
  · cases h
  · split at h <;> cases h; exact clock_afterPoll ..
  · split at h <;> cases h; rfl
  · cases h

theorem clock_settle (react : Reaction H σ) (fuel : Nat) (begun : Bool) (x : Session H σ) :
    (settle react fuel begun x).clock = x.clock := by
  induction fuel generalizing begun x with
  | zero => rfl
  | succ fuel ih =>
    simp only [settle]
    split
    next y h => rw [ih, clock_advanceLoop? h]
    next => rfl

theorem clock_run (react : Reaction H σ) (x : Session H σ) : (run react x).clock = x.clock :=
  clock_settle ..

/-- When the loop would go on by itself. -/
def wakeTime? (x : Session H σ) : Option Nat :=
  match x.loop, x.script with
  | .polling _ deadline, none => some deadline
  | .pausing _ deadline, _ => some deadline
  | _, _ => none

/-- Lets time pass up to `target`, with the loop running whenever its time has come. -/
def advanceTo (react : Reaction H σ) (target : Nat) (x : Session H σ) : Session H σ :=
  match x.wakeTime? with
  | some t =>
    if x.clock < t ∧ t ≤ target then advanceTo react target (run react { x with clock := t })
    else { x with clock := max x.clock target }
  | none => { x with clock := max x.clock target }
termination_by target - x.clock
decreasing_by rw [clock_run]; simp only; omega

def advance (react : Reaction H σ) (ms : Nat) (x : Session H σ) : Session H σ :=
  advanceTo react (x.clock + ms) x

/-! ## Operations -/

def change (react : Reaction H σ) (c : Change) (x : Session H σ) : Session H σ :=
  run react { x with store := x.store.apply c }

/-- Starts the loop, and tells whether this was the first start. -/
def startLoop (react : Reaction H σ) (x : Session H σ) : Bool × Session H σ :=
  match x.loop with
  | .idle =>
    let y := x.beginPoll 0
    (true, settle react y.steps true y)
  | _ => (false, x)

/-- Ends the loop, and tells whether it was running. -/
def stopLoop (x : Session H σ) : Bool × Session H σ :=
  match x.loop with
  | .polling _ _ => (true, { x with loop := .ended })
  | .pausing _ _ => (true, { x with loop := .ended })
  | _ => (false, x)

def addOutcome (react : Reaction H σ) (outcome : Outcome) (x : Session H σ) : Session H σ :=
  run react { x with script := x.script.map (· ++ [outcome]) }

def subscribeKey (react : Reaction H σ) (name : String) (tolerant : Bool) (handler : H)
    (x : Session H σ) : Except WatchError Unit × Session H σ :=
  let read := x.store.get (x.watcher.fullKey name)
  let (result, r) := x.watcher.subscribeKey react name tolerant handler read x.state
  (result, x.served r)

def subscribeDirectory (react : Reaction H σ) (name : String) (handler : H) (x : Session H σ) :
    Except WatchError Unit × Session H σ :=
  let read := x.store.list (x.watcher.fullKey name)
  let (result, r) := x.watcher.subscribeDirectory react name handler read x.state
  (result, x.served r)

def read {α : Type} (decode : Bytes → Option α) (name : String) (x : Session H σ) :
    Except WatchError α :=
  x.watcher.decodedOf name decode (x.store.get (x.watcher.fullKey name))

end Session

end AdmissionGate.Watch
