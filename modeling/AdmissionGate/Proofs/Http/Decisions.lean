-- Which requests the firewall decides on, and what becomes of them. A request
-- is decided once its whole body is there, and the decisions are what the
-- published admissions count.
import AdmissionGate.Http.Service
import AdmissionGate.Proofs.Firewall.Effects

namespace AdmissionGate.Http

/-! ## Reading a body -/

/-- Whether a body is complete before `time` is over. -/
def Transfer.ArrivesWithin (t : Transfer) (time : Nat) : Prop :=
  ∃ last, t.completeAt? = some last ∧ last < time

namespace Transfer

theorem arrivesWithin_nil (ending : Option Nat) (time : Nat) :
    ArrivesWithin ⟨[], ending⟩ time ↔ ending.any (· < time) = true := by
  cases ending <;> simp [ArrivesWithin, completeAt?]

theorem arrivesWithin_cons (delay : Nat) (part : Bytes) (rest : List (Nat × Bytes))
    (ending : Option Nat) (time : Nat) :
    ArrivesWithin ⟨(delay, part) :: rest, ending⟩ time ↔
      delay < time ∧ ArrivesWithin ⟨rest, ending⟩ (time - delay) := by
  cases ending with
  | none => simp [ArrivesWithin, completeAt?]
  | some last =>
    simp only [ArrivesWithin, completeAt?, List.foldr_cons, Option.map_some, Option.some.injEq,
      exists_eq_left']
    omega

/-- A body that is read without going beyond the room for it is one that arrives in time and
fits, and it is read as a whole. -/
theorem readParts_eq_some_iff (ending : Option Nat) (parts : List (Nat × Bytes))
    (room time : Nat) (body : Bytes) :
    readParts ending room time parts = some body ∧ body.length ≤ room ↔
      ArrivesWithin ⟨parts, ending⟩ time ∧ body = Transfer.body ⟨parts, ending⟩ ∧
        body.length ≤ room := by
  induction parts generalizing room time body with
  | nil =>
    rw [readParts, arrivesWithin_nil]
    by_cases hend : ending.any (· < time) = true <;> simp [hend, Transfer.body, eq_comm]
  | cons first rest ih =>
    obtain ⟨delay, part⟩ := first
    rw [arrivesWithin_cons, readParts]
    have hbody : Transfer.body ⟨(delay, part) :: rest, ending⟩
        = part ++ Transfer.body ⟨rest, ending⟩ := rfl
    rw [hbody]
    by_cases hlate : time ≤ delay
    · simp [hlate, Nat.not_lt.mpr hlate]
    rw [if_neg hlate]
    by_cases hlarge : room < part.length
    · rw [if_pos hlarge]
      constructor
      · rintro ⟨hread, hfits⟩
        cases hread
        omega
      · rintro ⟨-, rfl, hfits⟩
        rw [List.length_append] at hfits
        omega
    rw [if_neg hlarge, Option.map_eq_some_iff]
    constructor
    · rintro ⟨⟨tail, hread, rfl⟩, hfits⟩
      rw [List.length_append] at hfits
      obtain ⟨hin, htail, -⟩ :=
        (ih (room - part.length) (time - delay) tail).mp ⟨hread, by omega⟩
      exact ⟨⟨by omega, hin⟩, by rw [htail], by rwa [List.length_append]⟩
    · rintro ⟨⟨-, hin⟩, rfl, hfits⟩
      have htail : (Transfer.body ⟨rest, ending⟩).length ≤ room - part.length := by
        rw [List.length_append] at hfits
        omega
      exact ⟨⟨_, ((ih _ _ _).mpr ⟨hin, rfl, htail⟩).1, rfl⟩, hfits⟩

/-- What goes beyond the room is more than the body may be, whatever follows. -/
theorem read?_eq_some_iff (t : Transfer) (room time : Nat) (body : Bytes) :
    t.read? room time = some body ∧ body.length ≤ room ↔
      t.ArrivesWithin time ∧ body = t.body ∧ body.length ≤ room :=
  readParts_eq_some_iff t.ending t.parts room time body

end Transfer

/-! ## One request -/

/-- Whether the firewall decides on a request: it is no health check, and its whole body
arrives in time and is not too large. -/
def Sending.IsDecided (sent : Sending) (settings : Settings) : Prop :=
  sent.target.path ≠ "/health" ∧
    sent.transfer.ArrivesWithin (settings.timeouts.requestSecs * 1000) ∧
    sent.transfer.body.length ≤ settings.listener.maxBodyBytes

/-- The request as it is when its whole body has been read. -/
def Sending.whole (sent : Sending) : Request :=
  ⟨sent.method, sent.target, sent.headers, some sent.transfer.body⟩

/-- The answer to a request that nothing stands in the way of. -/
def ownAnswer (method path : String) : Response :=
  let shown (text : String) := if method = "HEAD" then "" else text
  if path = "/health" then
    if method ∈ ["GET", "HEAD"] then
      ⟨200, some "application/json", none, shown "\x7b\"status\":\"ok\"\x7d"⟩
    else ⟨405, none, some "GET,HEAD", ""⟩
  else if path = "/ping" then
    if method ∈ ["GET", "HEAD", "POST"] then
      ⟨200, some "text/plain; charset=utf-8", none, shown "pong"⟩
    else ⟨405, none, some "GET,HEAD,POST", ""⟩
  else ⟨404, some "text/plain; charset=utf-8", none, shown "Not Found"⟩

theorem ownAnswer_status (method path : String) : (ownAnswer method path).status ≠ 406 := by
  unfold ownAnswer
  simp only
  split
  · split <;> simp
  · split
    · split <;> simp
    · simp

/-- What a route says to a method, before the service has finished the answer. -/
def Route.reply (route : Route) (method : String) : Response :=
  if route.accepts method then route.answer else .bare 405

theorem Route.isGuarded_ofPath (path : String) :
    (Route.ofPath path).isGuarded = true ↔ path ≠ "/health" := by
  unfold Route.ofPath
  by_cases hhealth : path = "/health"
  · simp [hhealth, Route.isGuarded]
  · by_cases hping : path = "/ping" <;> simp [hhealth, hping, Route.isGuarded]

namespace Service

variable {s : Service} {peer : Ip} {r : Request} {now : Moment}

/-- The firewall decides on a request once its body was read and is not too large. -/
theorem respond_of_body {body : Bytes} (htime : s.settings.timeouts.requestSecs ≠ 0)
    (hpath : r.target.path ≠ "/health") (hbody : r.body = some body)
    (hfits : body.length ≤ s.settings.listener.maxBodyBytes) :
    let decision := s.firewall.judge (s.visit peer r body) now
    s.respond peer r now =
      (match decision.1 with
        | .admitted => (Route.ofPath r.target.path).reply r.method
        | .rejected _ => .bare 406,
        some decision.1, { s with firewall := decision.2 }) := by
  intro decision
  have hguarded := (Route.isGuarded_ofPath r.target.path).mpr hpath
  unfold respond
  simp only [htime, if_false, hguarded, Bool.not_true, Bool.false_eq_true, hbody,
    Nat.not_lt.mpr hfits]
  show (match decision.1 with
    | .admitted => _
    | .rejected _ => _) = _
  cases decision.1 <;> rfl

/-- Of any other request the firewall learns nothing. -/
theorem respond_of_no_body
    (h : s.settings.timeouts.requestSecs = 0 ∨ r.target.path = "/health" ∨
      ∀ body, r.body = some body → s.settings.listener.maxBodyBytes < body.length) :
    (s.respond peer r now).2 = (none, s) ∧
      ((s.respond peer r now).1.status = 408 ∨ (s.respond peer r now).1.status = 413 ∨
        r.target.path = "/health" ∧
          (s.respond peer r now).1 = (Route.ofPath r.target.path).reply r.method) := by
  unfold respond
  simp only
  split
  next => exact ⟨rfl, Or.inl rfl⟩
  next htime =>
    split
    next hguarded =>
      have hpath : r.target.path = "/health" := by
        apply Classical.byContradiction
        intro hpath
        simp [(Route.isGuarded_ofPath r.target.path).mpr hpath] at hguarded
      exact ⟨rfl, Or.inr (Or.inr ⟨hpath, rfl⟩)⟩
    next hguarded =>
      split
      next => exact ⟨rfl, Or.inl rfl⟩
      next body hbody =>
        have hpath : r.target.path ≠ "/health" := by
          rw [← Route.isGuarded_ofPath]
          simpa using hguarded
        rcases h with hzero | hhealth | hlarge
        · exact absurd hzero htime
        · exact absurd hhealth hpath
        · rw [if_pos (hlarge body hbody)]
          exact ⟨rfl, Or.inr (Or.inl rfl)⟩

/-- The service finishes what a route says: it names the methods of the path and leaves out
the body where it has to. -/
theorem handle_of_reply
    (h : (s.respond peer r now).1 = (Route.ofPath r.target.path).reply r.method) :
    (s.handle peer r now).1 = ownAnswer r.method r.target.path := by
  have hfst : (s.handle peer r now).1 =
      { (s.respond peer r now).1 with
        allow := if (Route.ofPath r.target.path).accepts r.method then none
          else (Route.ofPath r.target.path).methods.map (",".intercalate ·)
        body := if r.method == "HEAD" then "" else (s.respond peer r now).1.body } := rfl
  rw [hfst, h]
  unfold Route.ofPath Route.reply ownAnswer
  by_cases hhealth : r.target.path = "/health"
  · by_cases hmethod : r.method ∈ ["GET", "HEAD"]
    · simp [hhealth, Route.accepts, Route.methods, hmethod, Route.answer]
    · simp [hhealth, Route.accepts, Route.methods, hmethod, Response.bare]
  · by_cases hping : r.target.path = "/ping"
    · by_cases hmethod : r.method ∈ ["GET", "HEAD", "POST"]
      · simp [hping, Route.accepts, Route.methods, hmethod, Route.answer, Response.plain]
      · simp [hping, Route.accepts, Route.methods, hmethod, Response.bare]
    · simp [hhealth, hping, Route.accepts, Route.methods, Route.answer, Response.plain]

end Service

/-! ## What became of a request -/

/-- A request that was answered: the response, the decision if there was one, and the service
before and after. -/
structure Answered where
  peer : Ip
  sent : Sending
  now : Moment
  before : Service
  response : Response
  verdict : Option Verdict
  after : Service

/-- The decision on a request comes exactly if it is due, from one call of the firewall on the
whole body, and settles what is answered. Without a decision nothing changes. -/
structure Answered.IsSettled (a : Answered) (settings : Settings) : Prop where
  decided : a.verdict.isSome ↔ a.sent.IsDecided settings
  once : a.sent.IsDecided settings →
    let visit := a.before.visit a.peer a.sent.whole a.sent.transfer.body
    let decision := a.before.firewall.judge visit a.now
    a.verdict = some decision.1 ∧ a.after = { a.before with firewall := decision.2 }
  refused : a.response.status = 406 ↔ ∃ why, a.verdict = some (.rejected why)
  admitted : a.verdict = some .admitted →
    a.response = ownAnswer a.sent.method a.sent.target.path
  undecided : a.verdict = none → a.after = a.before ∧
    (a.response.status = 408 ∨ a.response.status = 413 ∨
      a.sent.target.path = "/health" ∧
        a.response = ownAnswer a.sent.method a.sent.target.path)

/-- A service answers a request. -/
def Service.answer (s : Service) (peer : Ip) (sent : Sending) (now : Moment) : Answered :=
  let (response, verdict, after) := s.serve peer sent now
  ⟨peer, sent, now, s, response, verdict, after⟩

namespace Service

variable {s : Service} {peer : Ip} {sent : Sending} {now : Moment}

/-- A request that is decided is handed to the firewall as a whole, and its verdict chooses the
answer. -/
theorem answer_of_decided (peer : Ip) (now : Moment) (h : sent.IsDecided s.settings) :
    let decision := s.firewall.judge (s.visit peer sent.whole sent.transfer.body) now
    (s.answer peer sent now).verdict = some decision.1 ∧
      (s.answer peer sent now).after = { s with firewall := decision.2 } ∧
      (decision.1 = .admitted →
        (s.answer peer sent now).response = ownAnswer sent.method sent.target.path) ∧
      ∀ why, decision.1 = .rejected why → (s.answer peer sent now).response.status = 406 := by
  intro decision
  obtain ⟨hpath, harrives, hfits⟩ := h
  have htime : s.settings.timeouts.requestSecs ≠ 0 := by
    intro hzero
    obtain ⟨last, -, hlast⟩ := harrives
    simp [hzero] at hlast
  let r := sent.request s.settings.listener.maxBodyBytes (s.settings.timeouts.requestSecs * 1000)
  have hbody : r.body = some sent.transfer.body :=
    ((sent.transfer.read?_eq_some_iff _ _ _).mpr ⟨harrives, rfl, hfits⟩).1
  have hrespond : s.respond peer r now = _ := respond_of_body htime hpath hbody hfits
  refine ⟨?_, ?_, ?_, ?_⟩
  · show (s.respond peer r now).2.1 = _
    rw [hrespond]
    rfl
  · show (s.respond peer r now).2.2 = _
    rw [hrespond]
    rfl
  · intro hdecision
    refine handle_of_reply (r := r) ?_
    rw [hrespond]
    show (match decision.1 with
      | .admitted => _
      | .rejected _ => _) = _
    rw [hdecision]
  · intro why hdecision
    show (s.respond peer r now).1.status = 406
    rw [hrespond]
    show (match decision.1 with
      | .admitted => _
      | .rejected _ => Response.bare 406).status = 406
    rw [hdecision]
    rfl

theorem isSettled_of_decided (h : sent.IsDecided s.settings) :
    (s.answer peer sent now).IsSettled s.settings := by
  obtain ⟨hverdict, hafter, hadmitted, hrejected⟩ := answer_of_decided peer now h
  refine ⟨?_, fun _ => ⟨hverdict, hafter⟩, ?_, ?_, ?_⟩
  · rw [hverdict]
    exact iff_of_true rfl h
  · rw [hverdict]
    cases hdecision : (s.firewall.judge (s.visit peer sent.whole sent.transfer.body) now).1 with
    | admitted =>
      rw [hadmitted hdecision]
      simp [ownAnswer_status]
    | rejected why => exact iff_of_true (hrejected why hdecision) ⟨why, rfl⟩
  · rw [hverdict]
    exact fun hdecision => hadmitted (Option.some.inj hdecision)
  · rw [hverdict]
    exact fun hnone => absurd hnone (by simp)

theorem isSettled_of_not_decided (h : ¬ sent.IsDecided s.settings) :
    (s.answer peer sent now).IsSettled s.settings := by
  let r := sent.request s.settings.listener.maxBodyBytes (s.settings.timeouts.requestSecs * 1000)
  have hlarge : ∀ body, r.body = some body → r.target.path ≠ "/health" →
      s.settings.listener.maxBodyBytes < body.length := by
    intro body hbody hpath
    refine Nat.lt_of_not_le fun hfits => h ?_
    obtain ⟨harrives, rfl, -⟩ := (sent.transfer.read?_eq_some_iff _ _ _).mp ⟨hbody, hfits⟩
    exact ⟨hpath, harrives, hfits⟩
  have hrespond : (s.respond peer r now).2 = (none, s) ∧ _ := respond_of_no_body (by
    by_cases hpath : r.target.path = "/health"
    · exact Or.inr (Or.inl hpath)
    · exact Or.inr (Or.inr fun body hbody => hlarge body hbody hpath))
  obtain ⟨hsnd, hfst⟩ := hrespond
  have hverdict : (s.answer peer sent now).verdict = none := congrArg (·.1) hsnd
  have hafter : (s.answer peer sent now).after = s := congrArg (·.2) hsnd
  have hresponse : (s.answer peer sent now).response.status = 408 ∨
      (s.answer peer sent now).response.status = 413 ∨ sent.target.path = "/health" ∧
        (s.answer peer sent now).response = ownAnswer sent.method sent.target.path :=
    hfst.imp_right (Or.imp_right (And.imp_right handle_of_reply))
  refine ⟨?_, fun hdecided => absurd hdecided h, ?_, ?_, fun _ => ⟨hafter, hresponse⟩⟩
  · rw [hverdict]
    exact iff_of_false Bool.false_ne_true h
  · rw [hverdict]
    refine iff_of_false ?_ (by simp)
    rcases hresponse with hlate | hlarge | ⟨-, hown⟩
    · omega
    · omega
    · rw [hown]
      exact ownAnswer_status _ _
  · rw [hverdict]
    exact fun hnone => absurd hnone (by simp)

theorem isSettled_answer (s : Service) (peer : Ip) (sent : Sending) (now : Moment) :
    (s.answer peer sent now).IsSettled s.settings := by
  by_cases h : sent.IsDecided s.settings
  · exact isSettled_of_decided h
  · exact isSettled_of_not_decided h

end Service

/-- One request is counted once if it was decided, and else not at all. -/
theorem Answered.IsSettled.metrics_after {a : Answered} {settings : Settings}
    (h : a.IsSettled settings) :
    a.after.firewall.metrics = match a.verdict with
      | some v => a.before.firewall.metrics.increment (.decision v)
      | none => a.before.firewall.metrics := by
  cases hverdict : a.verdict with
  | none => rw [(h.undecided hverdict).1]
  | some v =>
    obtain ⟨hdecision, hafter⟩ := h.once (h.decided.mp (by rw [hverdict]; rfl))
    rw [hverdict, Option.some.injEq] at hdecision
    rw [hafter, hdecision, ← Firewall.metrics_check a.before.firewall
      (a.before.visit a.peer a.sent.whole a.sent.transfer.body) a.now]
    rfl

theorem Answered.IsSettled.settings_after {a : Answered} {settings : Settings}
    (h : a.IsSettled settings) : a.after.settings = a.before.settings := by
  cases hverdict : a.verdict with
  | none => rw [(h.undecided hverdict).1]
  | some v => rw [(h.once (h.decided.mp (by rw [hverdict]; rfl))).2]

/-! ## Counted decisions -/

/-- What a service meets: a request from a peer, answered by a clock, or a record that its
firewall is offered. -/
inductive Happening where
  | request (peer : Ip) (sent : Sending) (now : Moment)
  | record (raw : Bytes)

/-- The request of a happening that is one. -/
def Happening.sent? : Happening → Option Sending
  | .request _ sent _ => some sent
  | .record _ => none

/-- A service with all requests that it has answered so far. -/
structure Duty where
  service : Service
  answered : List Answered

namespace Duty

def start (settings : Settings) (built : Moment) : Duty := ⟨Service.start settings built, []⟩

def step (d : Duty) : Happening → Duty
  | .request peer sent now =>
    let a := d.service.answer peer sent now
    ⟨a.after, d.answered ++ [a]⟩
  | .record raw => { d with service := (d.service.applyRecord? raw).getD d.service }

def run (d : Duty) (happenings : List Happening) : Duty := happenings.foldl step d

/-- The name under which decisions are published. -/
def admissions : String := "gatekeeper_admissions_total"

/-- Every request is settled, and the counters hold the decisions. -/
structure Sound (settings : Settings) (d : Duty) : Prop where
  configured : d.service.settings = settings
  settled : ∀ a ∈ d.answered, a.IsSettled settings
  counted : ∀ v, d.service.firewall.metrics.count (.decision v)
    = d.answered.countP (·.verdict = some v)
  total : d.service.firewall.metrics.total admissions = d.answered.countP (·.verdict.isSome)

theorem Sound.start (settings : Settings) (built : Moment) :
    Sound settings (start settings built) := by
  refine ⟨rfl, ?_, fun _ => rfl, rfl⟩
  intro a ha
  exact absurd ha (by simp [Duty.start])

theorem Sound.record {settings : Settings} {d : Duty} (h : d.Sound settings) (raw : Bytes) :
    (d.step (.record raw)).Sound settings := by
  have hservice : (d.service.applyRecord? raw).getD d.service =
      { d.service with firewall := d.service.firewall.offerRecord raw } := by
    unfold Service.applyRecord? Firewall.offerRecord
    cases d.service.firewall.applyRecord? raw <;> rfl
  have hmetrics : (d.service.firewall.offerRecord raw).metrics = d.service.firewall.metrics := by
    unfold Firewall.offerRecord Firewall.applyRecord?
    cases FirewallRecord.ofBytes? raw <;> rfl
  refine ⟨?_, h.settled, ?_, ?_⟩
  · show ((d.service.applyRecord? raw).getD d.service).settings = settings
    rw [hservice, ← h.configured]
  · intro v
    show ((d.service.applyRecord? raw).getD d.service).firewall.metrics.count _ = _
    rw [hservice, hmetrics]
    exact h.counted v
  · show ((d.service.applyRecord? raw).getD d.service).firewall.metrics.total _ = _
    rw [hservice, hmetrics]
    exact h.total

theorem Sound.request {settings : Settings} {d : Duty} (h : d.Sound settings) (peer : Ip)
    (sent : Sending) (now : Moment) : (d.step (.request peer sent now)).Sound settings := by
  have hsettled := d.service.isSettled_answer peer sent now
  have hmetrics := hsettled.metrics_after
  rw [h.configured] at hsettled
  refine ⟨hsettled.settings_after.trans h.configured, ?_, ?_, ?_⟩
  · intro a ha
    rcases List.mem_append.mp ha with hbefore | hnew
    · exact h.settled a hbefore
    · rw [List.mem_singleton.mp hnew]
      exact hsettled
  · intro v
    show (d.service.answer peer sent now).after.firewall.metrics.count _ = List.countP _ (_ ++ [_])
    rw [hmetrics, List.countP_append, List.countP_singleton, ← h.counted v]
    cases (d.service.answer peer sent now).verdict with
    | none => rfl
    | some w => simp [Metrics.count_increment, Service.answer, Service.serve]
  · show (d.service.answer peer sent now).after.firewall.metrics.total _ = List.countP _ (_ ++ [_])
    rw [hmetrics, List.countP_append, List.countP_singleton, ← h.total]
    cases (d.service.answer peer sent now).verdict with
    | none => rfl
    | some w => exact Metrics.total_increment _ _ _

theorem Sound.run {settings : Settings} {d : Duty} (h : d.Sound settings)
    (happenings : List Happening) : (d.run happenings).Sound settings := by
  induction happenings generalizing d with
  | nil => exact h
  | cons happening rest ih =>
    refine ih ?_
    cases happening with
    | request peer sent now => exact h.request peer sent now
    | record raw => exact h.record raw

theorem answered_run (d : Duty) (happenings : List Happening) :
    (d.run happenings).answered.map (·.sent)
      = d.answered.map (·.sent) ++ happenings.filterMap (·.sent?) := by
  induction happenings generalizing d with
  | nil => exact (List.append_nil _).symm
  | cons happening rest ih =>
    refine (ih (d.step happening)).trans ?_
    cases happening with
    | record raw => rfl
    | request peer sent now =>
      simp [step, Happening.sent?, Service.answer]

/-- A service answers each request once, in order. It decides on a request, by one call of its
firewall, exactly if the path is not that of the health check and the whole body arrives in
time and within the limit; the answer is 406 exactly if the decision is a rejection, and an
admitted request is answered by its path and method. A request without a decision changes
nothing. The published admissions are the numbers of decisions, each outcome and reason under
its own labels. -/
theorem decisions_and_admissions (settings : Settings) (built : Moment)
    (happenings : List Happening) :
    let d := (Duty.start settings built).run happenings
    let published := d.service.firewall.metrics
    d.answered.map (·.sent) = happenings.filterMap (·.sent?) ∧
      (∀ a ∈ d.answered, a.IsSettled settings) ∧
      published.total "gatekeeper_admissions_total" = d.answered.countP (·.verdict.isSome) ∧
      published.value ⟨"gatekeeper_admissions_total",
          [("outcome", "admitted"), ("reason", "none")]⟩
        = d.answered.countP (·.verdict = some .admitted) ∧
      ∀ why : Rejection, published.value ⟨"gatekeeper_admissions_total",
          [("outcome", "rejected"), ("reason", why.reason)]⟩
        = d.answered.countP (·.verdict = some (.rejected why)) := by
  intro d published
  have hsound : d.Sound settings := (Sound.start settings built).run happenings
  refine ⟨answered_run _ happenings, hsound.settled, hsound.total, ?_, fun why => ?_⟩
  · rw [← hsound.counted]
    exact Metrics.value_ofCounter _ (.decision .admitted)
  · rw [← hsound.counted]
    exact Metrics.value_ofCounter _ (.decision (.rejected why))

end Duty

end AdmissionGate.Http
