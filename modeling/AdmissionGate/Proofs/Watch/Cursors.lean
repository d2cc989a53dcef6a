-- Where subscriptions stand, and what is counted. Whatever listings are
-- dispatched, a subscriber is offered rising versions past the one it began
-- with. Its two cursors are the highest of those, taken and not, and reports
-- and counters are the numbers of offers by kind and answer.
import AdmissionGate.Proofs.Watch.Calls

namespace AdmissionGate.Watch

variable {H σ : Type}

/-! ## The two cursors -/

/-- The largest of some numbers is the last, if that is above the largest of the others. -/
theorem max?_snoc {l : List Nat} {a b : Nat} (h : l.max? = some a) (hab : a ≤ b) :
    (l ++ [b]).max? = some b := by
  have hle := (List.max?_eq_some_iff.mp h).2
  rw [List.max?_eq_some_iff]
  refine ⟨List.mem_append_right _ List.mem_cons_self, ?_⟩
  intro c hc
  rcases List.mem_append.mp hc with hc | hc
  · exact Nat.le_trans (hle c hc) hab
  · exact Nat.le_of_eq (List.mem_singleton.mp hc)

/-- The offers to a listener. -/
def heardBy (n : Nat) (offers : List (Offer (Listener H))) : List (Offer (Listener H)) :=
  offers.filter (·.handler.number = n)

theorem heardBy_snoc (n : Nat) (offers : List (Offer (Listener H))) (o : Offer (Listener H)) :
    heardBy n (offers ++ [o]) =
      if o.handler.number = n then heardBy n offers ++ [o] else heardBy n offers := by
  simp only [heardBy, filter_snoc, decide_eq_true_eq]

/-- A cursor stands at the highest version of some offers, or at the baseline without any. -/
def StandsAtHighest (baseline : Nat) (offers : List (Offer (Listener H))) (cursor : Nat) : Prop :=
  (baseline :: offers.map (·.version)).max? = some cursor

theorem StandsAtHighest.snoc {baseline cursor : Nat} {offers : List (Offer (Listener H))}
    (h : StandsAtHighest baseline offers cursor) {o : Offer (Listener H)}
    (ho : cursor ≤ o.version) : StandsAtHighest baseline (offers ++ [o]) o.version := by
  unfold StandsAtHighest at h ⊢
  rw [List.map_append, ← List.cons_append]
  exact max?_snoc h ho

/-- Both cursors of every subscription stand where the offers of the rounds have brought them,
from the baseline of its listener. -/
structure Accounted (baseline : Nat → Nat) (offers : List (Offer (Listener H)))
    (w : Watcher (Listener H)) : Prop where
  above : ∀ o ∈ offers, baseline o.handler.number < o.version
  within : ∀ {t name sub}, w.subscription? t name = some sub → sub.delivered ≤ sub.attempted
  attempted : ∀ {t name sub}, w.subscription? t name = some sub →
    StandsAtHighest (baseline sub.handler.number) (heardBy sub.handler.number offers)
      sub.attempted
  delivered : ∀ {t name sub}, w.subscription? t name = some sub →
    StandsAtHighest (baseline sub.handler.number)
      ((heardBy sub.handler.number offers).filter (·.accepted)) sub.delivered

variable {baseline : Nat → Nat} {n : Nat}

theorem Accounted.of_sameSubscriptions {offers : List (Offer (Listener H))}
    {w w' : Watcher (Listener H)} (h : Accounted baseline offers w)
    (hsame : w.SameSubscriptions w') : Accounted baseline offers w' := by
  refine ⟨h.above, ?_, ?_, ?_⟩ <;> intro t name sub hsub <;> rw [hsame] at hsub
  · exact h.within hsub
  · exact h.attempted hsub
  · exact h.delivered hsub

theorem Accounted.of_offered {before : List (Offer (Listener H))}
    {react : Reaction (Listener H) σ} {t : Watched} {name : String} {payload : Payload}
    {version : Nat} {r r' : Served (Listener H) σ}
    (h : Watcher.Offered react t name payload version r r') (hdistinct : Distinct n r.watcher)
    (hr : Accounted baseline (before ++ r.offers) r.watcher) :
    Accounted baseline (before ++ r'.offers) r'.watcher := by
  cases h with
  | passed _ hsame _ => exact hr.of_sameSubscriptions hsame
  | @made w s sub accepted hsub hnew _ hbecomes _ =>
    simp only [← List.append_assoc]
    -- The others have other numbers, so the offer is not one that they have heard.
    have hother : ∀ {t' name' sub'}, ¬ (t = t' ∧ name = name') →
        r.watcher.subscription? t' name' = some sub' →
        sub.handler.number ≠ sub'.handler.number :=
      fun hne hold hnumber => hne (hdistinct.apart hsub hold hnumber)
    have hattempted := hr.attempted hsub
    have hbase : baseline sub.handler.number ≤ sub.attempted :=
      (List.max?_eq_some_iff.mp hattempted).2 _ List.mem_cons_self
    refine ⟨?_, ?_, ?_, ?_⟩
    · intro o ho
      rcases List.mem_append.mp ho with ho | ho
      · exact hr.above o ho
      · rw [List.mem_singleton.mp ho]
        exact Nat.lt_of_le_of_lt hbase hnew
    · intro t' name' sub' hsub'
      rcases hbecomes.cases hsub' with ⟨_, _, rfl⟩ | ⟨_, hold⟩
      · have hle := hr.within hsub
        simp only [Subscription.offered]
        split <;> omega
      · exact hr.within hold
    · intro t' name' sub' hsub'
      rw [heardBy_snoc]
      rcases hbecomes.cases hsub' with ⟨_, _, rfl⟩ | ⟨hne, hold⟩
      · simp only [Subscription.offered, if_true]
        exact hattempted.snoc (Nat.le_of_lt hnew)
      · rw [if_neg (hother hne hold)]
        exact hr.attempted hold
    · intro t' name' sub' hsub'
      rw [heardBy_snoc]
      rcases hbecomes.cases hsub' with ⟨_, _, rfl⟩ | ⟨hne, hold⟩
      · simp only [Subscription.offered, if_true, List.filter_append]
        have hdelivered := hr.delivered hsub
        cases accepted with
        | true => exact hdelivered.snoc (Nat.le_of_lt (Nat.lt_of_le_of_lt (hr.within hsub) hnew))
        | false =>
          show StandsAtHighest _ (_ ++ []) _
          rw [List.append_nil]
          exact hdelivered
      · rw [if_neg (hother hne hold)]
        exact hr.delivered hold

/-- A new subscription stands at its baseline, and no round has offered it anything. -/
theorem Accounted.of_registered {offers : List (Offer (Listener H))}
    {react : Reaction (Listener H) σ} {t : Watched} {name : String} {handler : H}
    {w : Watcher (Listener H)} {s : σ} {fetched : Option (Payload × Nat)}
    {r : Served (Listener H) σ} (h : Watcher.Registered react t name ⟨n, handler⟩ w s fetched r)
    (hbaseline : baseline n = (fetched.map (·.2)).getD 0)
    (hfresh : ∀ o ∈ offers, o.handler.number < n) (hw : Accounted baseline offers w) :
    Accounted baseline offers r.watcher := by
  have hnew : ∀ {w' : Watcher (Listener H)},
      w.Becomes w' t name (.start ⟨n, handler⟩ (baseline n)) → Accounted baseline offers w' := by
    intro w' hbecomes
    have hnone : heardBy n offers = [] := by
      rw [heardBy, List.filter_eq_nil_iff]
      intro o ho
      have hlt := hfresh o ho
      simp only [decide_eq_true_eq]
      omega
    refine ⟨hw.above, ?_, ?_, ?_⟩ <;> intro t' name' sub' hsub' <;>
      rcases hbecomes.cases hsub' with ⟨_, _, rfl⟩ | ⟨_, hold⟩
    · exact Nat.le_refl _
    · exact hw.within hold
    · simp only [Subscription.start, hnone]
      rfl
    · exact hw.attempted hold
    · simp only [Subscription.start, hnone]
      rfl
    · exact hw.delivered hold
  cases h with
  | declined => exact hw
  | awaited hbecomes _ => exact hnew (hbaseline ▸ hbecomes)
  | refused _ => exact hw
  | taken _ hbecomes _ => exact hnew (hbaseline ▸ hbecomes)

theorem Accounted.of_dispatch {before : List (Offer (Listener H))} {w : Watcher (Listener H)}
    (h : Accounted baseline before w) (hdistinct : Distinct n w) (react : Reaction (Listener H) σ)
    (visit : List Batch → List Batch) (listing : Listing) (s : σ) :
    Accounted baseline (before ++ (w.dispatch react visit listing s).offers)
      (w.dispatch react visit listing s).watcher :=
  dispatch_offers h visit listing s fun hoffered _ hsame hr =>
    hr.of_offered hoffered (hdistinct.of_sameHandlers hsame)

/-! ## What is counted -/

/-- How many offers of a kind were answered in a way. -/
def tally (t : Watched) (accepted : Bool) (offers : List (Offer H)) : Nat :=
  offers.countP fun o => o.watched = t ∧ o.accepted = accepted

theorem tally_snoc (t : Watched) (accepted : Bool) (offers : List (Offer H)) (o : Offer H) :
    tally t accepted (offers ++ [o]) =
      tally t accepted offers + if o.watched = t ∧ o.accepted = accepted then 1 else 0 := by
  unfold tally
  rw [List.countP_append, List.countP_singleton]
  simp only [decide_eq_true_eq]

/-- The report on some offers: those taken and those refused, of both kinds together. -/
def tallied (offers : List (Offer H)) : Report :=
  ⟨tally .key true offers + tally .directory true offers,
    tally .key false offers + tally .directory false offers⟩

theorem tallied_snoc (offers : List (Offer H)) (o : Offer H) :
    tallied (offers ++ [o]) = (tallied offers).count o.accepted := by
  unfold tallied Report.count
  simp only [tally_snoc]
  cases o.watched <;> cases o.accepted <;> simp <;> omega

/-- A round over a watcher whose metrics were `before` has counted its offers, by kind and
answer, in its report and in the metrics, and nothing else. -/
structure Counted (before : Metrics) (r : Round H σ) : Prop where
  report : r.report = tallied r.offers
  offers : ∀ t accepted, r.watcher.metrics.count (.offer t accepted) =
    before.count (.offer t accepted) + tally t accepted r.offers
  pollFailures : ∀ cause, r.watcher.metrics.count (.pollFailure cause) =
    before.count (.pollFailure cause)

theorem counted_start (w : Watcher H) (s : σ) : Counted w.metrics (Round.start w s) :=
  ⟨rfl, fun _ _ => rfl, fun _ => rfl⟩

theorem Counted.next {before : Metrics} {r : Round H σ} (h : Counted before r) {w : Watcher H}
    (hw : w.metrics = r.watcher.metrics) (s : σ) (made : Option (Offer H)) :
    Counted before (r.next w s made) := by
  cases made with
  | none =>
    refine ⟨h.report, ?_, ?_⟩ <;> simp only [Round.next, hw]
    · exact h.offers
    · exact h.pollFailures
  | some o =>
    refine ⟨?_, ?_, ?_⟩ <;> simp only [Round.next, hw]
    · rw [tallied_snoc, h.report]
    · intro t accepted
      rw [Metrics.count_increment, tally_snoc, h.offers, Nat.add_assoc]
      simp only [Counter.offer.injEq]
    · intro cause
      rw [Metrics.count_increment, if_neg (by simp), h.pollFailures, Nat.add_zero]

theorem counted_dispatch (react : Reaction H σ) (visit : List Batch → List Batch) (w : Watcher H)
    (listing : Listing) (s : σ) : Counted w.metrics (w.dispatch react visit listing s) := by
  refine (Watcher.dispatch_induction (counted_start w s) ?_ ?_).2
  · intro r _ hr e _
    unfold Watcher.offerEntry
    split
    · exact hr
    · refine hr.next ?_ _ _
      rfl
  · intro r _ hr b _
    unfold Watcher.offerBatch
    split
    · exact hr
    · refine hr.next ?_ _ _
      rfl

theorem metrics_subscribeKey (react : Reaction H σ) (w : Watcher H) (name : String)
    (tolerant : Bool) (handler : H) (read : Except StoreError (Option Entry)) (s : σ) :
    (w.subscribeKey react name tolerant handler read s).2.watcher.metrics = w.metrics := by
  unfold Watcher.subscribeKey
  split
  · split <;> rfl
  · split <;> rfl
  · split <;> rfl

theorem metrics_subscribeDirectory (react : Reaction H σ) (w : Watcher H) (name : String)
    (handler : H) (read : Except StoreError Listing) (s : σ) :
    (w.subscribeDirectory react name handler read s).2.watcher.metrics = w.metrics := by
  unfold Watcher.subscribeDirectory
  split
  · simp only
    split <;> rfl
  · rfl

/-! ## Desks -/

/-- A desk that has served its calls in order, with both cursors, all reports and all counters in
line with the offers of its rounds. -/
structure Kept (space : String) (all : List (Call H)) (x : Desk H σ) : Prop where
  inOrder : x.InOrder space all
  accounted : Accounted (Call.baselineOf all) x.rounds.flatten x.watcher
  reported : x.reports = x.rounds.map tallied
  counted : ∀ t accepted,
    x.watcher.metrics.count (.offer t accepted) = tally t accepted x.rounds.flatten

theorem kept_start (space : String) (all : List (Call H)) (s : σ) :
    Kept space all (Desk.start space s) := by
  refine ⟨Desk.inOrder_start space all s, ⟨?_, ?_, ?_, ?_⟩, rfl, fun _ _ => rfl⟩
  · intro o ho
    cases ho
  all_goals
    intro t name sub hsub
    cases t <;> cases hsub

theorem Kept.step {space : String} {all : List (Call H)} {x : Desk H σ} (h : Kept space all x)
    (m : Conduct H σ) {c : Call H} (hc : all[x.history.length]? = some c) :
    Kept space all (x.step m c) := by
  obtain ⟨hinOrder, haccounted, hreported, hcounted⟩ := h
  have hbaseline := Call.baselineOf_eq hc
  have hfresh : ∀ o ∈ x.rounds.flatten, o.handler.number < x.history.length := fun o ho =>
    hinOrder.orderly.known o (x.rounds_sublist.subset ho)
  refine ⟨hinOrder.step m hc, ?_, ?_, ?_⟩
  · rw [Desk.rounds_step]
    cases c with
    | listenKey name tolerant handler read =>
      refine haccounted.of_registered (Watcher.registered_subscribeKey ..) ?_ hfresh
      rw [hbaseline]
      rcases read with why | _ | e <;> rfl
    | listenDirectory name handler read =>
      refine haccounted.of_registered (Watcher.registered_subscribeDirectory ..) ?_ hfresh
      rw [hbaseline]
      rcases read with why | listing <;> rfl
    | dispatch listing =>
      simp only [List.flatten_append, List.flatten_singleton]
      exact haccounted.of_dispatch hinOrder.orderly.seated.toDistinct _ _ listing x.state
  · rw [Desk.rounds_step]
    cases c with
    | dispatch listing =>
      have hreport : (x.round m listing).report = tallied (x.serve m (.dispatch listing)).offers :=
        (counted_dispatch ..).report
      show x.reports ++ [(x.round m listing).report] = (x.rounds ++ [_]).map tallied
      rw [hreported, hreport, List.map_append, List.map_singleton]
    | _ =>
      show x.reports ++ [] = x.rounds.map tallied
      rw [List.append_nil]
      exact hreported
  · intro t accepted
    rw [Desk.rounds_step]
    cases c with
    | listenKey name tolerant handler read =>
      show Metrics.count (x.watcher.subscribeKey ..).2.watcher.metrics _ = _
      rw [metrics_subscribeKey]
      exact hcounted t accepted
    | listenDirectory name handler read =>
      show Metrics.count (x.watcher.subscribeDirectory ..).2.watcher.metrics _ = _
      rw [metrics_subscribeDirectory]
      exact hcounted t accepted
    | dispatch listing =>
      show Metrics.count (x.watcher.dispatch ..).watcher.metrics _ = _
      rw [(counted_dispatch ..).offers, hcounted]
      simp only [List.flatten_append, List.flatten_singleton, tally, List.countP_append]
      rfl

theorem kept_run (m : Conduct H σ) (space : String) (s : σ) (calls : List (Call H)) :
    Kept space calls ((Desk.start space s).run m calls) := by
  let x := (Desk.start space s).run m calls
  let I (x _ : Desk H σ) : Prop := Kept space calls x
  have hboth : I x x :=
    Desk.run_together (fun _ _ _ hc h => h.step m hc) (kept_start space calls s)
  exact hboth

theorem Kept.heard {space : String} {all : List (Call H)} {x : Desk H σ} (h : Kept space all x)
    {n : Nat} {c : Call H} (hc : all[n]? = some c) :
    ((heardBy n x.rounds.flatten).map (·.version)).Pairwise (· < ·) ∧
      ∀ o ∈ heardBy n x.rounds.flatten, c.baseline < o.version ∧
        (c.place? x.watcher).map (·.watched) = some o.watched := by
  obtain ⟨⟨hhome, horderly⟩, haccounted, _, _⟩ := h
  have hnumber : ∀ o ∈ heardBy n x.rounds.flatten, o.handler.number = n := by
    intro o ho
    simpa using (List.mem_filter.mp ho).2
  refine ⟨?_, fun o ho => ?_⟩
  · rw [List.pairwise_map]
    have hrising := (horderly.rising.sublist x.rounds_sublist).filter (·.handler.number = n)
    exact hrising.imp_of_mem fun ha hb hlt => hlt ((hnumber _ ha).trans (hnumber _ hb).symm)
  · have hround := (List.mem_filter.mp ho).1
    have habove := haccounted.above o hround
    obtain ⟨name, hkind⟩ := horderly.kind o (x.rounds_sublist.subset hround)
    rw [hnumber o ho] at habove hkind
    rw [Call.placeOf, hc, Option.bind_some, ← Call.place?_congr hhome] at hkind
    rw [hkind]
    exact ⟨Call.baselineOf_eq hc ▸ habove, rfl⟩

theorem Kept.cursors {space : String} {all : List (Call H)} {x : Desk H σ} (h : Kept space all x)
    {t : Watched} {name : String} {sub : Subscription (Listener H)}
    (hsub : x.watcher.subscription? t name = some sub) :
    ∃ c, all[sub.handler.number]? = some c ∧ c.place? x.watcher = some ⟨t, name⟩ ∧
      sub.delivered ≤ sub.attempted ∧
      StandsAtHighest c.baseline (heardBy sub.handler.number x.rounds.flatten) sub.attempted ∧
      StandsAtHighest c.baseline
        ((heardBy sub.handler.number x.rounds.flatten).filter (·.accepted)) sub.delivered := by
  obtain ⟨⟨hhome, horderly⟩, haccounted, _, _⟩ := h
  obtain ⟨c, hc, hplace⟩ := Option.bind_eq_some_iff.mp (horderly.seated.seat hsub)
  have hattempted := haccounted.attempted hsub
  have hdelivered := haccounted.delivered hsub
  rw [Call.baselineOf_eq hc] at hattempted hdelivered
  exact ⟨c, hc, (Call.place?_congr hhome c).trans hplace, haccounted.within hsub, hattempted,
    hdelivered⟩

/-- Over any calls, a listener is offered rising versions by the rounds, all past its baseline
and of its kind. A subscription has been offered the highest of them last and has taken the
highest that was accepted, and reports and counters are the numbers of offers. -/
theorem offers_rise_and_are_counted (m : Conduct H σ) (space : String) (s : σ)
    (calls : List (Call H)) :
    let x := (Desk.start space s).run m calls
    let heard (n : Nat) := heardBy n x.rounds.flatten
    (∀ n c, calls[n]? = some c → ((heard n).map (·.version)).Pairwise (· < ·) ∧
      ∀ o ∈ heard n, c.baseline < o.version ∧
        (c.place? x.watcher).map (·.watched) = some o.watched) ∧
    (∀ t name sub, x.watcher.subscription? t name = some sub →
      ∃ c, calls[sub.handler.number]? = some c ∧ c.place? x.watcher = some ⟨t, name⟩ ∧
        sub.delivered ≤ sub.attempted ∧
        StandsAtHighest c.baseline (heard sub.handler.number) sub.attempted ∧
        StandsAtHighest c.baseline ((heard sub.handler.number).filter (·.accepted))
          sub.delivered) ∧
    x.reports = x.rounds.map (fun round =>
      ⟨tally .key true round + tally .directory true round,
        tally .key false round + tally .directory false round⟩) ∧
    ∀ t accepted, x.watcher.metrics.count (.offer t accepted) =
      tally t accepted x.rounds.flatten := by
  intro x heard
  have hkept : Kept space calls x := kept_run m space s calls
  exact ⟨fun _ _ hc => hkept.heard hc, fun _ _ _ hsub => hkept.cursors hsub,
    hkept.reported, hkept.counted⟩

/-- A value that is refused is offered once, and nothing older is offered after it. -/
theorem refused_value_offered_once :
    let m : Conduct Unit Unit :=
      ⟨fun _ _ payload _ => if payload = .value [0] then .error (.stated "zero") else .ok (),
        fun _ => ⟨id, fun _ => .refl _⟩⟩
    let zero : Listing := ⟨[⟨"gate/limit", [0], 10⟩], 10⟩
    let old : Listing := ⟨[⟨"gate/limit", [2], 5⟩], 5⟩
    let calls : List (Call Unit) :=
      [.listenKey "limit" false () (.ok (some ⟨"gate/limit", [1], 1⟩)), .dispatch zero,
        .dispatch zero, .dispatch old]
    let x := (Desk.start "gate" ()).run m calls
    ∃ sub, x.watcher.keys.find? "gate/limit" = some sub ∧ sub.delivered = 1 ∧
      sub.attempted = 10 ∧ x.reports = [⟨0, 1⟩, ⟨0, 0⟩, ⟨0, 0⟩] ∧
      x.watcher.metrics.count (.offer .key false) = 1 := by
  intro m zero old calls x
  have hsome : (x.watcher.keys.find? "gate/limit").isSome = true := by decide +kernel
  obtain ⟨sub, hsub⟩ := Option.isSome_iff_exists.mp hsome
  have hnumber : (x.watcher.keys.find? "gate/limit").map (·.handler.number) = some 0 := by
    decide +kernel
  rw [hsub] at hnumber
  have hzero : sub.handler.number = 0 := Option.some.inj hnumber
  have hattempted : (1 :: (heardBy 0 x.rounds.flatten).map (·.version)).max? = some 10 := by
    decide +kernel
  have hdelivered : (1 :: ((heardBy 0 x.rounds.flatten).filter (·.accepted)).map
      (·.version)).max? = some 1 := by
    decide +kernel
  obtain ⟨_, hcursors, hreports, hcounts⟩ := offers_rise_and_are_counted m "gate" () calls
  obtain ⟨c, hc, _, _, hhighest, htaken⟩ := hcursors .key "gate/limit" sub hsub
  rw [hzero] at hc hhighest htaken
  cases hc
  refine ⟨sub, hsub, Option.some.inj (htaken.symm.trans hdelivered),
    Option.some.inj (hhighest.symm.trans hattempted), ?_, ?_⟩
  · rw [hreports]
    decide +kernel
  · rw [hcounts]
    decide +kernel

end AdmissionGate.Watch
