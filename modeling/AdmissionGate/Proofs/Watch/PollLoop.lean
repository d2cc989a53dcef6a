-- The poll loop through time. Its first start begins a poll from zero, and
-- from there on polls begin and are answered while time passes and
-- subscriptions come and go. The cursor is kept through rounds that bring
-- nothing, and each of those is followed by one pause.
import AdmissionGate.Proofs.Watch.Happenings

namespace AdmissionGate.Watch

variable {H σ : Type}

/-! ## Polls -/

/-- A poll: when it began, and from where. -/
structure Poll where
  time : Nat
  cursor : Nat
  deriving DecidableEq

/-- The index of the last listing with entries, zero before the first one. -/
def cursorAfter (answers : List Answer) : Nat := (answers.filterMap (·.index?)).getLast?.getD 0

theorem cursorAfter_snoc (answers : List Answer) (a : Answer) :
    cursorAfter (answers ++ [a]) = a.index?.getD (cursorAfter answers) := by
  unfold cursorAfter
  cases h : a.index? with
  | none => simp [h]
  | some index => simp [h]

/-- Polls and answers in turn. Each poll goes on from the last listing with entries before it,
and begins when the pause after the answer before it is over. -/
structure Paced (delay : Nat) (polls : List Poll) (answers : List Answer) : Prop where
  cursors : ∀ i p, polls[i]? = some p → p.cursor = cursorAfter (answers.take i)
  times : ∀ i p a, polls[i + 1]? = some p → answers[i]? = some a →
    p.time = a.time + a.pause delay
  answered : answers.length ≤ polls.length
  polled : polls.length ≤ answers.length + 1

namespace Paced

variable {delay : Nat} {polls : List Poll} {answers : List Answer}

theorem nil : Paced delay [] [] :=
  ⟨by simp, by simp, Nat.le_refl _, Nat.zero_le _⟩

theorem answer (h : Paced delay polls answers) (hlen : polls.length = answers.length + 1)
    (a : Answer) : Paced delay polls (answers ++ [a]) := by
  have hlt : ∀ i p, polls[i]? = some p → i ≤ answers.length := by
    intro i p hp
    have := (List.getElem?_eq_some_iff.mp hp).1
    omega
  refine ⟨?_, ?_, ?_, ?_⟩
  · intro i p hp
    rw [List.take_append_of_le_length (hlt i p hp)]
    exact h.cursors i p hp
  · intro i p b hp hb
    rw [List.getElem?_append_left (hlt (i + 1) p hp)] at hb
    exact h.times i p b hp hb
  · rw [List.length_append, List.length_singleton]
    omega
  · rw [List.length_append]
    omega

theorem poll (h : Paced delay polls answers) (hlen : polls.length = answers.length) {p : Poll}
    (hcursor : p.cursor = cursorAfter answers)
    (htime : ∀ a, answers.getLast? = some a → p.time = a.time + a.pause delay) :
    Paced delay (polls ++ [p]) answers := by
  have hlast : ∀ i q, (polls ++ [p])[i]? = some q →
      polls[i]? = some q ∨ i = answers.length ∧ q = p := by
    intro i q hq
    rw [List.getElem?_append] at hq
    split at hq
    · exact Or.inl hq
    · obtain ⟨hi, rfl⟩ := List.getElem?_eq_some_iff.mp hq
      rw [List.length_singleton] at hi
      exact Or.inr ⟨by omega, by simp⟩
  refine ⟨?_, ?_, ?_, ?_⟩
  · intro i q hq
    rcases hlast i q hq with hq | ⟨rfl, rfl⟩
    · exact h.cursors i q hq
    · rw [List.take_length]
      exact hcursor
  · intro i q a hq ha
    rcases hlast (i + 1) q hq with hq | ⟨hi, rfl⟩
    · exact h.times i q a hq ha
    · refine htime a ?_
      rw [List.getLast?_eq_getElem?, ← hi]
      exact ha
  · rw [List.length_append]
    omega
  · rw [List.length_append, List.length_singleton]
    omega

end Paced

/-! ## What was seen -/

/-- A happening with the session before and after it, and how the handlers answered. -/
structure Note (H σ : Type) where
  react : Reaction H σ
  happening : Happening H
  before : Session H σ
  after : Session H σ

namespace Note

/-- The poll that an event is, if it is the beginning of one. -/
def pollAt? (time : Nat) : Event H → Option Poll
  | .offered _ => none
  | .polled _ cursor _ => some ⟨time, cursor⟩

/-- The polls that began. -/
def polls (n : Note H σ) : List Poll :=
  (n.after.events.drop n.before.events.length).filterMap (pollAt? n.after.clock)

def answer? (n : Note H σ) : Option Answer := n.before.answer? n.happening

def serves (n : Note H σ) : Served H σ := n.before.serves n.react n.happening

/-- The subscribers are served with what the happening means for them, and the events are the
offers of that, with the next poll behind them. -/
structure IsServed (n : Note H σ) : Prop where
  watcher : n.after.watcher = n.serves.watcher
  state : n.after.state = n.serves.state
  events : n.after.events = n.before.events ++ n.serves.offers.map .offered
    ++ n.polls.map fun p => .polled n.after.watcher.stem p.cursor n.after.waitMs

/-- The polls of a note are those that its session began. -/
theorem polls_of_does {n : Note H σ} {begun : Option Nat}
    (h : n.before.Does n.happening n.after n.serves begun) :
    n.polls = begun.toList.map fun cursor => ⟨n.after.clock, cursor⟩ := by
  have hoffers : (n.serves.offers.map Event.offered).filterMap (pollAt? n.after.clock) = [] := by
    simp [List.filterMap_map, Function.comp_def, pollAt?]
  rw [polls, h.events, List.append_assoc, List.drop_left, List.filterMap_append, hoffers]
  cases begun <;> rfl

theorem isServed_of_does {n : Note H σ} {begun : Option Nat}
    (h : n.before.Does n.happening n.after n.serves begun) : n.IsServed := by
  refine ⟨h.watcher, h.state, ?_⟩
  rw [polls_of_does h, h.events, List.map_map]
  rfl

end Note

/-- A session and the notes on everything that happened to it. -/
structure Vigil (H σ : Type) where
  session : Session H σ
  notes : List (Note H σ)

namespace Vigil

/-- A session over a new store, with outcomes that come one by one. -/
def start (settings : StoreSettings) (state : σ) : Vigil H σ :=
  ⟨Session.start settings true state, []⟩

def step (v : Vigil H σ) (e : Reaction H σ × Happening H) : Vigil H σ :=
  let after := v.session.meet e.1 e.2
  ⟨after, v.notes ++ [⟨e.1, e.2, v.session, after⟩]⟩

def run (v : Vigil H σ) (events : List (Reaction H σ × Happening H)) : Vigil H σ :=
  events.foldl step v

def polls (v : Vigil H σ) : List Poll := v.notes.flatMap (·.polls)

def answers (v : Vigil H σ) : List Answer := v.notes.filterMap (·.answer?)

/-- The notes from the first start on. -/
def sinceStart (v : Vigil H σ) : List (Note H σ) := v.notes.dropWhile (!·.happening.isStart)

/-- Where the loop stands after some polls and answers. A poll is missing only while the pause
after the last answer lasts. -/
def Stands (delay clock : Nat) (polls : List Poll) (answers : List Answer) : Loop → Prop
  | .idle => polls = [] ∧ answers = []
  | .polling cursor _ => polls.length = answers.length + 1 ∧ cursor = cursorAfter answers
  | .pausing cursor deadline => polls.length = answers.length ∧ cursor = cursorAfter answers ∧
      clock < deadline ∧ ∃ a, answers.getLast? = some a ∧ deadline = a.time + a.pause delay
  | .ended => True

/-- Polls and answers stay in turn wherever the loop goes. -/
theorem goes_on {delay : Nat} {polls : List Poll} {answers : List Answer} {x y : Session H σ}
    {e : Happening H} {a : Option Answer} {begun : Option Nat} (hgoes : x.Goes e y a begun)
    (hdelay : x.retryDelayMs = delay) (hpaced : Paced delay polls answers)
    (hstands : Stands delay x.clock polls answers x.loop) :
    Paced delay (polls ++ begun.toList.map fun cursor => ⟨y.clock, cursor⟩) (answers ++ a.toList) ∧
      Stands delay y.clock (polls ++ begun.toList.map fun cursor => ⟨y.clock, cursor⟩)
        (answers ++ a.toList) y.loop := by
  subst hdelay
  cases hgoes with
  | rests hloop _ hclock =>
    simp only [Option.toList_none, List.map_nil, List.append_nil]
    refine ⟨hpaced, ?_⟩
    rw [hloop]
    cases hx : x.loop with
    | pausing cursor deadline =>
      rw [hx] at hstands
      obtain ⟨hlen, hcursor, -, hlast⟩ := hstands
      exact ⟨hlen, hcursor, hclock cursor deadline hx, hlast⟩
    | _ =>
      rw [hx] at hstands
      exact hstands
  | stops _ _ hloop =>
    simp only [Option.toList_none, List.map_nil, List.append_nil]
    rw [hloop]
    exact ⟨hpaced, trivial⟩
  | begins _ hx hloop =>
    rw [hx] at hstands
    obtain ⟨rfl, rfl⟩ := hstands
    rw [hloop]
    exact ⟨hpaced.poll rfl rfl (by simp), rfl, rfl⟩
  | @resumes cursor deadline _ hx hloop =>
    rw [hx] at hstands
    obtain ⟨hlen, hcursor, -, last, hlast, hdeadline⟩ := hstands
    simp only [Option.toList_none, List.append_nil]
    rw [hloop]
    refine ⟨hpaced.poll hlen hcursor ?_, ?_, hcursor⟩
    · intro b hb
      rw [hlast, Option.some.injEq] at hb
      rw [← hb]
      exact hdeadline
    · simp [hlen]
  | @goesOn a cursor before after _ hx hloop hclock hpause =>
    rw [hx] at hstands
    obtain ⟨hlen, hcursor⟩ := hstands
    have hnext : a.index?.getD cursor = cursorAfter (answers ++ [a]) := by
      rw [cursorAfter_snoc, hcursor]
    rw [hloop]
    refine ⟨(hpaced.answer hlen a).poll ?_ hnext ?_, ?_, hnext⟩
    · rw [hlen, List.length_append, List.length_singleton]
    · intro b hb
      rw [List.getLast?_concat, Option.some.injEq] at hb
      show y.clock = _
      rw [← hb, hpause, hclock, Nat.add_zero]
    · simp [hlen]
  | @pauses a cursor before _ hx hloop hclock hpause =>
    rw [hx] at hstands
    obtain ⟨hlen, hcursor⟩ := hstands
    have hnext : a.index?.getD cursor = cursorAfter (answers ++ [a]) := by
      rw [cursorAfter_snoc, hcursor]
    simp only [Option.toList_none, List.map_nil, List.append_nil, Option.toList_some]
    rw [hloop]
    refine ⟨hpaced.answer hlen a, ?_, hnext, by omega, a, List.getLast?_concat, rfl⟩
    rw [hlen, List.length_append, List.length_singleton]

/-- The loop is idle up to its first start, which begins a poll from zero at that moment, and it
ends with the first stop after that. -/
structure Lives (started : List (Note H σ)) (polls : List Poll) (loop : Loop) : Prop where
  idle : loop = .idle ↔ started = []
  ended : loop = .ended ↔ ∃ n ∈ started, n.happening = .stop
  first : polls.head? = started.head?.map fun n => ⟨n.before.clock, 0⟩

/-- The first start. -/
theorem Lives.begin {polls : List Poll} {n : Note H σ} {a : Option Answer} {begun : Option Nat}
    (h : Lives ([] : List (Note H σ)) polls n.before.loop)
    (hgoes : n.before.Goes n.happening n.after a begun) :
    Lives (if n.happening.isStart then [n] else [])
      (polls ++ begun.toList.map fun cursor => ⟨n.after.clock, cursor⟩) n.after.loop := by
  have hidle : n.before.loop = .idle := h.idle.mpr rfl
  have hpolls : polls = [] := List.head?_eq_none_iff.mp h.first
  cases hgoes with
  | rests hloop hleaves _ =>
    have hstart : n.happening.isStart = false := by
      cases he : n.happening with
      | start =>
        rw [he] at hleaves
        exact absurd hidle hleaves
      | _ => rfl
    rw [hpolls] at h ⊢
    rw [hstart, hloop]
    exact h
  | stops _ hrunning _ => exact absurd hidle hrunning
  | begins he _ hloop hclock =>
    rw [he, hloop, hpolls, hclock]
    refine ⟨by simp [Happening.isStart], ?_, rfl⟩
    simp [Happening.isStart, he]
  | resumes _ hx _ =>
    rw [hidle] at hx
    cases hx
  | goesOn _ hx _ _ _ =>
    rw [hidle] at hx
    cases hx
  | pauses _ hx _ _ _ =>
    rw [hidle] at hx
    cases hx

/-- After the first start. -/
theorem Lives.snoc {started : List (Note H σ)} {polls : List Poll} {n : Note H σ}
    {a : Option Answer} {begun : Option Nat} (h : Lives started polls n.before.loop)
    (hstarted : started ≠ []) (hgoes : n.before.Goes n.happening n.after a begun) :
    Lives (started ++ [n])
      (polls ++ begun.toList.map fun cursor => ⟨n.after.clock, cursor⟩) n.after.loop := by
  have hrunning : n.before.loop ≠ .idle := fun hidle => hstarted (h.idle.mp hidle)
  obtain ⟨n₀, later, rfl⟩ := List.exists_cons_of_ne_nil hstarted
  obtain ⟨rest, rfl⟩ : ∃ rest, polls = ⟨n₀.before.clock, 0⟩ :: rest :=
    List.head?_eq_some_iff.mp h.first
  have hended : (∃ m ∈ n₀ :: later ++ [n], m.happening = .stop) ↔
      n.before.loop = .ended ∨ n.happening = .stop := by
    rw [h.ended]
    simp [or_and_right, exists_or, or_assoc]
  refine ⟨?_, ?_, rfl⟩
  · cases hgoes <;> simp_all
  · rw [hended]
    cases hgoes with
    | rests hloop hleaves _ =>
      rw [hloop]
      refine ⟨Or.inl, fun hor => hor.elim id fun hstop => ?_⟩
      rw [hstop] at hleaves
      exact hleaves.resolve_left hrunning
    | stops he _ hloop => simp [he, hloop]
    | begins _ hx _ _ => exact absurd hx hrunning
    | resumes he hx hloop => simp [he, hx, hloop]
    | goesOn he hx hloop _ _ => simp [he, hx, hloop]
    | pauses he hx hloop _ _ => simp [he, hx, hloop]

structure Sound (settings : StoreSettings) (v : Vigil H σ) : Prop where
  script : v.session.script = some []
  retryDelayMs : v.session.retryDelayMs = settings.retryDelayMs
  clock : v.session.clock = v.notes.countP (·.happening.isMillisecond)
  served : ∀ n ∈ v.notes, n.IsServed
  lives : Lives v.sinceStart v.polls v.session.loop
  paced : Paced settings.retryDelayMs v.polls v.answers
  stands : Stands settings.retryDelayMs v.session.clock v.polls v.answers v.session.loop
  counted : ∀ cause, v.session.watcher.metrics.count (.pollFailure cause)
    = v.answers.countP (·.failure? = some cause)

theorem sound_start (settings : StoreSettings) (state : σ) :
    Sound settings (start settings state : Vigil H σ) := by
  refine ⟨rfl, rfl, rfl, ?_, ⟨?_, ?_, rfl⟩, Paced.nil, ⟨rfl, rfl⟩, fun _ => rfl⟩
  · intro n hn
    cases hn
  · simp [start, Session.start, sinceStart]
  · simp [start, Session.start, sinceStart]

theorem polls_snoc (v : Vigil H σ) (session : Session H σ) (n : Note H σ) :
    polls ⟨session, v.notes ++ [n]⟩ = v.polls ++ n.polls := by
  rw [polls, polls, List.flatMap_append, List.flatMap_singleton]

theorem answers_snoc (v : Vigil H σ) (session : Session H σ) (n : Note H σ) :
    answers ⟨session, v.notes ++ [n]⟩ = v.answers ++ n.answer?.toList := by
  rw [answers, answers, List.filterMap_append]
  cases h : n.answer? <;> simp [h]

theorem sinceStart_snoc (v : Vigil H σ) (session : Session H σ) (n : Note H σ) :
    sinceStart ⟨session, v.notes ++ [n]⟩ =
      if v.sinceStart.isEmpty then if n.happening.isStart then [n] else []
      else v.sinceStart ++ [n] := by
  rw [sinceStart, List.dropWhile_append]
  cases hstart : n.happening.isStart <;> simp [sinceStart, hstart]

theorem Sound.quiet {settings : StoreSettings} {v : Vigil H σ} (h : v.Sound settings) :
    v.session.Quiet := by
  refine ⟨h.script, fun cursor deadline hloop => ?_⟩
  have hstands := h.stands
  rw [hloop] at hstands
  exact hstands.2.2.1

theorem Sound.step {settings : StoreSettings} {v : Vigil H σ} (h : v.Sound settings)
    (e : Reaction H σ × Happening H) : (v.step e).Sound settings := by
  obtain ⟨react, happening⟩ := e
  let n : Note H σ := ⟨react, happening, v.session, v.session.meet react happening⟩
  have hstep : v.step (react, happening) = ⟨n.after, v.notes ++ [n]⟩ := rfl
  obtain ⟨begun, hdoes, hgoes⟩ : ∃ begun, n.before.Does n.happening n.after n.serves begun ∧
      n.before.Goes n.happening n.after n.answer? begun :=
    Session.meet_does_goes react h.quiet happening
  obtain ⟨hpaced, hstands⟩ := goes_on hgoes h.retryDelayMs h.paced h.stands
  have hpolls := Note.polls_of_does hdoes
  rw [← hpolls] at hpaced hstands
  rw [hstep]
  refine ⟨hdoes.script.trans h.script, hdoes.retryDelayMs.trans h.retryDelayMs, ?_, ?_, ?_, ?_, ?_,
    ?_⟩
  · rw [List.countP_append, List.countP_singleton, ← h.clock]
    exact hdoes.clock
  · intro m hm
    rcases List.mem_append.mp hm with hm | hm
    · exact h.served m hm
    · rw [List.mem_singleton.mp hm]
      exact Note.isServed_of_does hdoes
  · rw [polls_snoc, sinceStart_snoc, hpolls]
    split
    next hstarted =>
      have hlives := h.lives
      rw [List.isEmpty_iff.mp hstarted] at hlives
      exact hlives.begin hgoes
    next hstarted =>
      exact h.lives.snoc (fun hnil => hstarted (List.isEmpty_iff.mpr hnil)) hgoes
  · rw [polls_snoc, answers_snoc]
    exact hpaced
  · rw [polls_snoc, answers_snoc]
    exact hstands
  · intro cause
    rw [answers_snoc, List.countP_append]
    show n.after.watcher.metrics.count _ = v.answers.countP _ + _
    rw [hdoes.watcher, ← h.counted]
    exact Session.count_serves react v.session happening cause

theorem sound_run (settings : StoreSettings) (state : σ)
    (events : List (Reaction H σ × Happening H)) :
    (run (start settings state) events).Sound settings :=
  List.foldlRecOn (motive := Sound settings) _ _ (sound_start settings state)
    fun _ h e _ => h.step e

/-- A run notes everything that happens, in order. -/
theorem notes_run (v : Vigil H σ) (events : List (Reaction H σ × Happening H)) :
    (v.run events).notes.map (fun n => (n.react, n.happening)) =
      v.notes.map (fun n => (n.react, n.happening)) ++ events := by
  induction events generalizing v with
  | nil => exact (List.append_nil _).symm
  | cons e events ih =>
    show ((v.step e).run events).notes.map _ = _
    rw [ih]
    simp [step]

/-- However polls come out, whoever subscribes and however the handlers answer: the first start
begins a poll from zero at that moment, and from then on a poll is under way unless the pause
after an answer lasts or the loop was stopped. A poll starts from the index of the last listing
with entries among the answers to the polls before it, and from zero before the first such
listing. A listing with entries is dispatched when it comes, once, and the next poll begins
behind its offers at the same moment. An answer that brings nothing makes no offer; one pause
after it, and no sooner or later, the next poll begins. The published poll failures are the
answers without entries and those that failed. -/
theorem polls_keep_cursor_and_pace (settings : StoreSettings) (state : σ)
    (events : List (Reaction H σ × Happening H)) :
    let v := run (start settings state) events
    let published := v.session.watcher.metrics
    v.notes.map (fun n => (n.react, n.happening)) = events ∧
      v.session.clock = events.countP (·.2.isMillisecond) ∧
      v.polls.head? = v.sinceStart.head?.map (fun n => ⟨n.before.clock, 0⟩) ∧
      (v.session.isPolling = true ↔
        v.polls.length = v.answers.length + 1 ∧ v.session.loop ≠ .ended) ∧
      (v.session.loop = .ended ↔ ∃ n ∈ v.sinceStart, n.happening = .stop) ∧
      (∀ i p, v.polls[i]? = some p → p.cursor = cursorAfter (v.answers.take i)) ∧
      (∀ i p a, v.polls[i + 1]? = some p → v.answers[i]? = some a →
        p.time = a.time + a.pause settings.retryDelayMs) ∧
      v.answers.length ≤ v.polls.length ∧ v.polls.length ≤ v.answers.length + 1 ∧
      (v.polls.length = v.answers.length → v.session.loop ≠ .ended →
        ∀ a, v.answers.getLast? = some a →
          v.session.clock < a.time + a.pause settings.retryDelayMs) ∧
      (∀ n ∈ v.notes, n.IsServed) ∧
      published.value ⟨"gatekeeper_store_poll_errors_total", [("cause", "empty")]⟩ =
        v.answers.countP (·.failure? = some .empty) ∧
      published.value ⟨"gatekeeper_store_poll_errors_total", [("cause", "unavailable")]⟩ =
        v.answers.countP (·.failure? = some .unavailable) := by
  intro v published
  have hsound : v.Sound settings := sound_run settings state events
  have hnotes : v.notes.map (fun n => (n.react, n.happening)) = events := notes_run _ events
  refine ⟨hnotes, ?_, hsound.lives.first, ?_, hsound.lives.ended, hsound.paced.cursors,
    hsound.paced.times, hsound.paced.answered, hsound.paced.polled, ?_, hsound.served, ?_, ?_⟩
  · rw [hsound.clock, ← hnotes, List.countP_map]
    rfl
  · have hstands := hsound.stands
    unfold Session.isPolling
    cases hloop : v.session.loop <;> rw [hloop] at hstands <;> simp_all [Stands]
  · intro hmissing hended a ha
    have hstands := hsound.stands
    cases hloop : v.session.loop with
    | idle =>
      rw [hloop] at hstands
      rw [hstands.2] at ha
      cases ha
    | polling cursor deadline =>
      rw [hloop] at hstands
      have hone := hstands.1
      omega
    | pausing cursor deadline =>
      rw [hloop] at hstands
      obtain ⟨-, -, hclock, last, hlast, rfl⟩ := hstands
      rw [hlast, Option.some.injEq] at ha
      rw [← ha]
      exact hclock
    | ended => exact absurd hloop hended
  · rw [← hsound.counted]
    exact Metrics.value_ofCounter _ (.pollFailure .empty)
  · rw [← hsound.counted]
    exact Metrics.value_ofCounter _ (.pollFailure .unavailable)

/-- The cursor stays through an answer without entries and an outage, each with a pause after
it, and goes back with a listing whose index is smaller. -/
theorem cursor_kept_through_outage :
    let settings : StoreSettings := { space := "gate", retryDelayMs := 2 }
    let react : Reaction Unit Unit := fun _ payload _ =>
      if payload = .value [1] then .error (.stated "no") else .ok ()
    let full (value : UInt8) (index : Nat) : Happening Unit :=
      .answer (.ok ⟨[⟨"gate/limit", [value], index⟩], index⟩)
    let happenings : List (Happening Unit) :=
      [.millisecond, .start, .listenKey "limit" true (), full 1 7, .answer (.ok ⟨[], 9⟩),
        .millisecond, .millisecond, .answer (.error (.unavailable .marked)), .millisecond,
        .millisecond, full 2 5]
    let v := run (start settings ()) (happenings.map fun e => (react, e))
    let published := v.session.watcher.metrics
    v.polls.length = 5 ∧ v.polls.head? = some ⟨1, 0⟩ ∧ v.polls[1]? = some ⟨1, 7⟩ ∧
      v.polls[2]? = some ⟨3, 7⟩ ∧ v.polls[3]? = some ⟨5, 7⟩ ∧ v.polls[4]? = some ⟨5, 5⟩ ∧
      published.value ⟨"gatekeeper_store_poll_errors_total", [("cause", "empty")]⟩ = 1 ∧
      published.value ⟨"gatekeeper_store_poll_errors_total", [("cause", "unavailable")]⟩ = 1 := by
  intro settings react full happenings v published
  obtain ⟨_, _, hfirst, hpolling, _, hcursors, htimes, _, _, _, _, hempty, hunavailable⟩ :=
    polls_keep_cursor_and_pace settings () (happenings.map fun e => (react, e))
  have hanswers : v.answers.length = 4 := by decide +kernel
  have hlen : v.polls.length = 5 :=
    (hpolling.mp (by decide +kernel)).1.trans (congrArg (· + 1) hanswers)
  have hpoll : ∀ i, i < 4 → v.polls[i + 1]? = v.answers[i]?.map fun a =>
      ⟨a.time + a.pause settings.retryDelayMs, cursorAfter (v.answers.take (i + 1))⟩ := by
    intro i hi
    obtain ⟨p, hp⟩ : ∃ p, v.polls[i + 1]? = some p := ⟨_, List.getElem?_eq_getElem (by omega)⟩
    obtain ⟨a, ha⟩ : ∃ a, v.answers[i]? = some a := ⟨_, List.getElem?_eq_getElem (by omega)⟩
    have hcursor : p.cursor = cursorAfter (v.answers.take (i + 1)) := hcursors (i + 1) p hp
    rw [hp, ha, Option.map_some, ← htimes i p a hp ha, ← hcursor]
  exact ⟨hlen, hfirst.trans (by decide +kernel), (hpoll 0 (by decide)).trans (by decide +kernel),
    (hpoll 1 (by decide)).trans (by decide +kernel),
    (hpoll 2 (by decide)).trans (by decide +kernel),
    (hpoll 3 (by decide)).trans (by decide +kernel), hempty.trans (by decide +kernel),
    hunavailable.trans (by decide +kernel)⟩

end Vigil

end AdmissionGate.Watch
