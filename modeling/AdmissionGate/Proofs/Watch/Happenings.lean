-- What can happen to a session whose polls are answered one by one, and what
-- each happening does. The subscribers are served with what it means for them,
-- and behind that the loop begins the next poll, makes a pause or stays.
import AdmissionGate.Proofs.Watch.Cursors
import AdmissionGate.Watch.Session

namespace AdmissionGate.Watch

variable {H σ : Type}

/-! ## Answers -/

/-- The outcome of a poll, and when it came. -/
structure Answer where
  time : Nat
  outcome : Outcome

namespace Answer

/-- The index of the listing that an answer brings, if it has entries. -/
def index? (a : Answer) : Option Nat :=
  match a.outcome with
  | .ok listing => if listing.entries.isEmpty then none else some listing.lastIndex
  | .error _ => none

/-- What an answer that brings nothing is counted as. -/
def failure? (a : Answer) : Option PollFailure :=
  match a.outcome with
  | .ok listing => if listing.entries.isEmpty then some .empty else none
  | .error _ => some .unavailable

/-- How long the loop waits after an answer. -/
def pause (delay : Nat) (a : Answer) : Nat := if a.failure?.isSome then delay else 0

theorem pause_of_index {a : Answer} {index : Nat} (h : a.index? = some index) (delay : Nat) :
    a.pause delay = 0 := by
  unfold index? at h
  unfold pause failure?
  split at h
  next listing houtcome =>
    split at h
    · cases h
    next hfull => simp [hfull]
  next => cases h

end Answer

/-! ## What happens to a session -/

/-- Something that happens to a session whose polls are answered one by one. -/
inductive Happening (H : Type) where
  | start
  | stop
  | millisecond
  | answer (outcome : Outcome)
  | change (c : Change)
  | listenKey (name : String) (tolerant : Bool) (handler : H)
  | listenDirectory (name : String) (handler : H)

namespace Happening

def isStart : Happening H → Bool
  | .start => true
  | _ => false

def isMillisecond : Happening H → Bool
  | .millisecond => true
  | _ => false

/-- Whether a happening leaves a loop where it is, as far as starting and stopping go. -/
def Leaves : Happening H → Loop → Prop
  | .start, loop => loop ≠ .idle
  | .stop, loop => loop = .idle ∨ loop = .ended
  | _, _ => True

end Happening

namespace Session

def isPolling (x : Session H σ) : Bool :=
  match x.loop with
  | .polling _ _ => true
  | _ => false

/-- The session after a happening. Only a poll that is under way can be answered. -/
def meet (react : Reaction H σ) (x : Session H σ) : Happening H → Session H σ
  | .start => (x.startLoop react).2
  | .stop => x.stopLoop.2
  | .millisecond => x.advance react 1
  | .answer outcome => if x.isPolling then x.addOutcome react outcome else x
  | .change c => x.change react c
  | .listenKey name tolerant handler => (x.subscribeKey react name tolerant handler).2
  | .listenDirectory name handler => (x.subscribeDirectory react name handler).2

/-- The answer that a happening is, if it is one. -/
def answer? (x : Session H σ) : Happening H → Option Answer
  | .answer outcome => if x.isPolling then some ⟨x.clock, outcome⟩ else none
  | _ => none

/-- What a happening means for the subscribers. A listing with entries is dispatched, once; an
answer that brings nothing is counted; a registration is served; nothing else has to do with
them. -/
def serves (react : Reaction H σ) (x : Session H σ) (e : Happening H) : Served H σ :=
  match x.answer? e, e with
  | some ⟨_, .ok listing⟩, _ =>
    if listing.entries.isEmpty then ⟨countFailure x.watcher .empty, x.state, []⟩
    else (x.watcher.dispatch react id listing x.state).toServed
  | some ⟨_, .error _⟩, _ => ⟨countFailure x.watcher .unavailable, x.state, []⟩
  | none, .listenKey name tolerant handler =>
    (x.watcher.subscribeKey react name tolerant handler
      (x.store.get (x.watcher.fullKey name)) x.state).2
  | none, .listenDirectory name handler =>
    (x.watcher.subscribeDirectory react name handler
      (x.store.list (x.watcher.fullKey name)) x.state).2
  | none, _ => ⟨x.watcher, x.state, []⟩

/-! ## Steps of a quiet session -/

/-- Subscribers are served, and behind that a poll begins if one is named. -/
structure Does (x : Session H σ) (e : Happening H) (y : Session H σ) (r : Served H σ)
    (begun : Option Nat) : Prop where
  watcher : y.watcher = r.watcher
  state : y.state = r.state
  events : y.events = x.events ++ r.offers.map .offered
    ++ begun.toList.map fun cursor => .polled y.watcher.stem cursor y.waitMs
  script : y.script = x.script
  retryDelayMs : y.retryDelayMs = x.retryDelayMs
  clock : y.clock = x.clock + if e.isMillisecond then 1 else 0

/-- Where the loop goes from one session to the next, with an answer or without one. -/
inductive Goes (x : Session H σ) (e : Happening H) (y : Session H σ) :
    Option Answer → Option Nat → Prop
  | rests : y.loop = x.loop → e.Leaves x.loop →
      (∀ cursor deadline, x.loop = .pausing cursor deadline → y.clock < deadline) →
      Goes x e y none none
  | stops : e = .stop → x.loop ≠ .idle → y.loop = .ended → Goes x e y none none
  | begins {deadline : Nat} : e = .start → x.loop = .idle → y.loop = .polling 0 deadline →
      y.clock = x.clock → Goes x e y none (some 0)
  | resumes {cursor deadline : Nat} : e = .millisecond → x.loop = .pausing cursor y.clock →
      y.loop = .polling cursor deadline → Goes x e y none (some cursor)
  | goesOn {a : Answer} {cursor before after : Nat} : e = .answer a.outcome →
      x.loop = .polling cursor before → y.loop = .polling (a.index?.getD cursor) after →
      y.clock = a.time → a.pause x.retryDelayMs = 0 →
      Goes x e y (some a) (some (a.index?.getD cursor))
  | pauses {a : Answer} {cursor before : Nat} : e = .answer a.outcome →
      x.loop = .polling cursor before →
      y.loop = .pausing (a.index?.getD cursor) (a.time + a.pause x.retryDelayMs) →
      y.clock = a.time → 0 < a.pause x.retryDelayMs → Goes x e y (some a) none

/-- A session without an outcome at hand, and with a pause, if it makes one, that is not over. -/
structure Quiet (x : Session H σ) : Prop where
  script : x.script = some []
  pause : ∀ cursor deadline, x.loop = .pausing cursor deadline → x.clock < deadline

variable {x : Session H σ}

/-- Without an outcome at hand the loop goes on only if a pause is over, and then by a poll. -/
theorem settle_quiet (react : Reaction H σ) (fuel : Nat) (begun : Bool)
    (hscript : x.script = some []) :
    settle react (fuel + 2) begun x =
      match x.loop with
      | .pausing cursor deadline => if deadline ≤ x.clock then x.beginPoll cursor else x
      | _ => x := by
  have hpolling : ∀ cursor, (x.beginPoll cursor).advanceLoop? react true = none := by
    intro cursor
    simp [advanceLoop?, beginPoll, hscript]
  cases hloop : x.loop with
  | pausing cursor deadline =>
    by_cases hdue : deadline ≤ x.clock
    · have hstep : x.advanceLoop? react begun = some (x.beginPoll cursor) := by
        simp [advanceLoop?, hloop, hdue]
      simp only [settle, hstep, hpolling, hdue, if_true]
    · simp [settle, advanceLoop?, hloop, hdue]
  | _ => simp [settle, advanceLoop?, hloop, hscript]

theorem steps_quiet (hscript : x.script = some []) : x.steps = 2 := by
  simp [steps, hscript]

theorem run_quiet (react : Reaction H σ) (hx : x.Quiet) :
    run react x = x := by
  rw [run, steps_quiet hx.script, settle_quiet react 0 false hx.script]
  split
  next cursor deadline hloop => rw [if_neg (Nat.not_le.mpr (hx.pause cursor deadline hloop))]
  next => rfl

/-- A registration leaves the loop alone. -/
theorem served_does_goes (r : Served H σ) {e : Happening H} (htime : e.isMillisecond = false)
    (hleaves : e.Leaves x.loop) (hx : x.Quiet) :
    (x.Does e (x.served r) r none) ∧ x.Goes e (x.served r) none none :=
  ⟨⟨rfl, rfl, by simp [served], rfl, rfl, by rw [htime]; rfl⟩, .rests rfl hleaves hx.pause⟩

theorem startLoop_does_goes (react : Reaction H σ) (hx : x.Quiet) :
    ∃ begun, x.Does .start (x.startLoop react).2 ⟨x.watcher, x.state, []⟩ begun ∧
      x.Goes .start (x.startLoop react).2 none begun := by
  by_cases hloop : x.loop = .idle
  · have hstart : (x.startLoop react).2 = x.beginPoll 0 := by
      have hbegun : (x.beginPoll 0).script = some [] := hx.script
      unfold startLoop
      rw [hloop]
      simp only
      rw [steps_quiet hbegun, settle_quiet react 0 true hbegun]
      rfl
    rw [hstart]
    exact ⟨some 0, ⟨rfl, rfl, by simp [beginPoll], rfl, rfl, rfl⟩, .begins rfl hloop rfl rfl⟩
  · have hstart : (x.startLoop react).2 = x := by
      unfold startLoop
      split
      · contradiction
      · rfl
    rw [hstart]
    exact ⟨none, ⟨rfl, rfl, by simp, rfl, rfl, rfl⟩, .rests rfl hloop hx.pause⟩

theorem stopLoop_does_goes (hx : x.Quiet) :
    x.Does .stop x.stopLoop.2 ⟨x.watcher, x.state, []⟩ none ∧
      x.Goes .stop x.stopLoop.2 none none := by
  have hdoes : ∀ loop, x.Does .stop { x with loop } ⟨x.watcher, x.state, []⟩ none := fun _ =>
    ⟨rfl, rfl, by simp, rfl, rfl, rfl⟩
  cases hloop : x.loop with
  | idle =>
    have hstop : x.stopLoop.2 = x := by simp [stopLoop, hloop]
    rw [hstop]
    exact ⟨hdoes x.loop, .rests rfl (Or.inl hloop) hx.pause⟩
  | polling cursor deadline =>
    have hstop : x.stopLoop.2 = { x with loop := .ended } := by simp [stopLoop, hloop]
    rw [hstop]
    exact ⟨hdoes .ended, .stops rfl (by simp [hloop]) rfl⟩
  | pausing cursor deadline =>
    have hstop : x.stopLoop.2 = { x with loop := .ended } := by simp [stopLoop, hloop]
    rw [hstop]
    exact ⟨hdoes .ended, .stops rfl (by simp [hloop]) rfl⟩
  | ended =>
    have hstop : x.stopLoop.2 = x := by simp [stopLoop, hloop]
    rw [hstop]
    exact ⟨hdoes x.loop, .rests rfl (Or.inr hloop) hx.pause⟩

/-- While nothing is due, time just passes. -/
theorem advanceTo_quiet (react : Reaction H σ) {target : Nat} (htarget : x.clock ≤ target)
    (hwake : ∀ t, x.wakeTime? = some t → target < t) :
    advanceTo react target x = { x with clock := target } := by
  rw [advanceTo, Nat.max_eq_right htarget]
  split
  next t ht =>
    have := hwake t ht
    rw [if_neg (by omega)]
  next => rfl

theorem wakeTime?_quiet {t : Nat} (hscript : x.script = some []) (h : x.wakeTime? = some t) :
    ∃ cursor, x.loop = .pausing cursor t := by
  unfold wakeTime? at h
  split at h
  next hnone => rw [hscript] at hnone; cases hnone
  next _ cursor _ hloop => cases h; exact ⟨cursor, hloop⟩
  next => cases h

/-- A millisecond ends a pause if it is the last one of it. -/
theorem advance_one (react : Reaction H σ) (hx : x.Quiet) :
    (∃ cursor, x.loop = .pausing cursor (x.clock + 1) ∧
        x.advance react 1 = { x with clock := x.clock + 1 }.beginPoll cursor) ∨
      (∀ cursor deadline, x.loop = .pausing cursor deadline → x.clock + 1 < deadline) ∧
        x.advance react 1 = { x with clock := x.clock + 1 } := by
  by_cases hdue : ∃ cursor, x.loop = .pausing cursor (x.clock + 1)
  · obtain ⟨cursor, hloop⟩ := hdue
    refine Or.inl ⟨cursor, hloop, ?_⟩
    let y : Session H σ := { x with clock := x.clock + 1 }
    have hrun : run react y = y.beginPoll cursor := by
      have hy : y.script = some [] := hx.script
      rw [run, steps_quiet hy, settle_quiet react 0 false hy]
      simp [y, hloop]
    have hwake : x.wakeTime? = some (x.clock + 1) := by rw [wakeTime?, hloop]
    rw [advance, advanceTo, hwake]
    simp only [Nat.lt_succ_self, Nat.le_refl, and_self, if_true]
    show advanceTo react (x.clock + 1) (run react y) = y.beginPoll cursor
    rw [hrun, advanceTo_quiet react (Nat.le_refl (x.clock + 1))]
    · rfl
    · intro t ht
      obtain ⟨_, hpolling⟩ := wakeTime?_quiet (x := y.beginPoll cursor) hx.script ht
      cases hpolling
  · have hwait : ∀ cursor deadline, x.loop = .pausing cursor deadline → x.clock + 1 < deadline := by
      intro cursor deadline hloop
      have hlt := hx.pause cursor deadline hloop
      have hne : deadline ≠ x.clock + 1 := fun heq => hdue ⟨cursor, heq ▸ hloop⟩
      omega
    refine Or.inr ⟨hwait, advanceTo_quiet react (Nat.le_succ _) ?_⟩
    intro t ht
    obtain ⟨cursor, hloop⟩ := wakeTime?_quiet hx.script ht
    exact hwait cursor t hloop

theorem advance_does_goes (react : Reaction H σ) (hx : x.Quiet) :
    ∃ begun, x.Does .millisecond (x.advance react 1) ⟨x.watcher, x.state, []⟩ begun ∧
      x.Goes .millisecond (x.advance react 1) none begun := by
  rcases advance_one react hx with ⟨cursor, hloop, hadvance⟩ | ⟨hwait, hadvance⟩
  · rw [hadvance]
    exact ⟨some cursor, ⟨rfl, rfl, by simp [beginPoll], rfl, rfl, rfl⟩, .resumes rfl hloop rfl⟩
  · rw [hadvance]
    exact ⟨none, ⟨rfl, rfl, by simp, rfl, rfl, rfl⟩, .rests rfl trivial hwait⟩

/-- The subscribers are served with an answer first. Behind that the loop polls on from the
listing, or makes a pause if the answer brought nothing. -/
theorem afterPoll_eq (react : Reaction H σ) {cursor before : Nat}
    (hloop : x.loop = .polling cursor before) (a : Answer) (htime : a.time = x.clock) :
    x.afterPoll react cursor a.outcome =
      let y := x.served (x.serves react (.answer a.outcome))
      match a.index? with
      | some next => y.beginPoll next
      | none => { y with loop := .pausing cursor (a.time + a.pause x.retryDelayMs) } := by
  obtain ⟨time, outcome⟩ := a
  subst htime
  cases outcome with
  | error why =>
    simp [afterPoll, finishRound, round, serves, answer?, isPolling, hloop, Answer.index?,
      Answer.pause, Answer.failure?]
  | ok listing =>
    by_cases hempty : listing.entries.isEmpty = true
    · simp [afterPoll, finishRound, round, serves, answer?, isPolling, hloop, Answer.index?,
        Answer.pause, Answer.failure?, hempty]
    · simp [afterPoll, finishRound, round, serves, answer?, isPolling, hloop, Answer.index?,
        hempty]

theorem addOutcome_quiet (react : Reaction H σ) (hscript : x.script = some [])
    {cursor before : Nat} (hloop : x.loop = .polling cursor before) (outcome : Outcome) :
    x.addOutcome react outcome = settle react 3 true (x.afterPoll react cursor outcome) := by
  have hback : { x with loop := .polling cursor before, script := some [] } = x := by
    rw [← hscript, ← hloop]
  have hstep : advanceLoop? react false { x with script := some [outcome] }
      = some (x.afterPoll react cursor outcome) := by
    simp only [advanceLoop?, hloop, hback]
  unfold addOutcome run
  rw [hscript]
  show settle react 4 false _ = _
  simp only [Option.map_some, List.nil_append, settle, hstep]

theorem addOutcome_does_goes (react : Reaction H σ) (hscript : x.script = some [])
    {cursor before : Nat} (hloop : x.loop = .polling cursor before) (a : Answer)
    (htime : a.time = x.clock) :
    ∃ begun, x.Does (.answer a.outcome) (x.addOutcome react a.outcome)
        (x.serves react (.answer a.outcome)) begun ∧
      x.Goes (.answer a.outcome) (x.addOutcome react a.outcome) (some a) begun := by
  rw [addOutcome_quiet react hscript hloop, afterPoll_eq react hloop a htime]
  let e : Happening H := .answer a.outcome
  let y := x.served (x.serves react e)
  cases hindex : a.index? with
  | some next =>
    have hsettle : settle react 3 true (y.beginPoll next) = y.beginPoll next :=
      settle_quiet react 1 true hscript
    have hnext : a.index?.getD cursor = next := by rw [hindex]; rfl
    show ∃ begun, x.Does e (settle react 3 true (y.beginPoll next)) _ begun ∧
      x.Goes e (settle react 3 true (y.beginPoll next)) _ begun
    rw [hsettle]
    refine ⟨some next, ⟨rfl, rfl, rfl, rfl, rfl, rfl⟩, ?_⟩
    rw [← hnext]
    exact .goesOn rfl hloop rfl htime.symm (Answer.pause_of_index hindex _)
  | none =>
    let z : Session H σ := { y with loop := .pausing cursor (a.time + a.pause x.retryDelayMs) }
    have hsettle : settle react 3 true z =
        if a.time + a.pause x.retryDelayMs ≤ x.clock then z.beginPoll cursor else z :=
      settle_quiet react 1 true hscript
    have hcursor : a.index?.getD cursor = cursor := by rw [hindex]; rfl
    show ∃ begun, x.Does e (settle react 3 true z) _ begun ∧
      x.Goes e (settle react 3 true z) _ begun
    rw [hsettle]
    split
    next hnow =>
      refine ⟨some cursor, ⟨rfl, rfl, rfl, rfl, rfl, rfl⟩, ?_⟩
      rw [← hcursor]
      exact .goesOn rfl hloop rfl htime.symm (by omega)
    next hlater =>
      refine ⟨none, ⟨rfl, rfl, (List.append_nil _).symm, rfl, rfl, rfl⟩,
        .pauses rfl hloop ?_ htime.symm (by omega)⟩
      rw [hcursor]

/-- One step of a quiet session. -/
theorem meet_does_goes (react : Reaction H σ) (hx : x.Quiet) (e : Happening H) :
    ∃ begun, x.Does e (x.meet react e) (x.serves react e) begun ∧
      x.Goes e (x.meet react e) (x.answer? e) begun := by
  cases e with
  | start => exact startLoop_does_goes react hx
  | stop => exact ⟨none, stopLoop_does_goes hx⟩
  | millisecond => exact advance_does_goes react hx
  | answer outcome =>
    cases hloop : x.loop with
    | polling cursor deadline =>
      have hmeet : x.meet react (.answer outcome) = x.addOutcome react outcome := by
        simp [meet, isPolling, hloop]
      have hanswer : x.answer? (.answer outcome : Happening H) = some ⟨x.clock, outcome⟩ := by
        simp [answer?, isPolling, hloop]
      rw [hmeet, hanswer]
      exact addOutcome_does_goes react hx.script hloop ⟨x.clock, outcome⟩ rfl
    | _ =>
      have hmeet : x.meet react (.answer outcome) = x := by simp [meet, isPolling, hloop]
      have hanswer : x.answer? (.answer outcome : Happening H) = none := by
        simp [answer?, isPolling, hloop]
      have hserves : x.serves react (.answer outcome) = ⟨x.watcher, x.state, []⟩ := by
        simp [serves, hanswer]
      rw [hmeet, hanswer, hserves]
      exact ⟨none, ⟨rfl, rfl, by simp, rfl, rfl, rfl⟩, .rests rfl trivial hx.pause⟩
  | change c =>
    have hrun : x.change react c = { x with store := x.store.apply c } :=
      run_quiet react ⟨hx.script, hx.pause⟩
    rw [meet, hrun]
    exact ⟨none, ⟨rfl, rfl, by simp [serves, answer?], rfl, rfl, rfl⟩,
      .rests rfl trivial hx.pause⟩
  | listenKey name tolerant handler => exact ⟨none, served_does_goes _ rfl trivial hx⟩
  | listenDirectory name handler => exact ⟨none, served_does_goes _ rfl trivial hx⟩

/-- Of the poll failures, only the one that an answer is counts for the subscribers. -/
theorem count_serves (react : Reaction H σ) (x : Session H σ) (e : Happening H)
    (cause : PollFailure) :
    (x.serves react e).watcher.metrics.count (.pollFailure cause) =
      x.watcher.metrics.count (.pollFailure cause)
        + (x.answer? e).toList.countP (·.failure? = some cause) := by
  unfold serves
  split
  next _ time listing h =>
    rw [h]
    split
    next hempty =>
      have hfailure : Answer.failure? ⟨time, .ok listing⟩ = some .empty := if_pos hempty
      simp [countFailure, Metrics.count_increment, hfailure]
    next hfull =>
      have hfailure : Answer.failure? ⟨time, .ok listing⟩ = none := if_neg hfull
      simp [(counted_dispatch ..).pollFailures, hfailure]
  next h =>
    rw [h]
    simp [countFailure, Metrics.count_increment, Answer.failure?]
  next name tolerant handler h =>
    rw [h, metrics_subscribeKey]
    rfl
  next name handler h =>
    rw [h, metrics_subscribeDirectory]
    rfl
  next h =>
    rw [h]
    rfl

end Session

end AdmissionGate.Watch
