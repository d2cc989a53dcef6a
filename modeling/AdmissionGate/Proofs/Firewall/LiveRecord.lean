-- The firewall as the subscriber of its record. In whatever order the store
-- changes, listings are taken and dispatched, and requests come in, the live
-- settings are those of the last readable record that was offered.
import AdmissionGate.Proofs.Firewall.Acts
import AdmissionGate.Proofs.Watch.Course
import AdmissionGate.Watch.Following

namespace AdmissionGate.Firewall

open Watch

/-! ## What an offer does to the firewall -/

/-- The settings that an offered value holds, if it is a record. -/
def recorded? : Payload → Option LiveSettings
  | .value raw => (FirewallRecord.ofBytes? raw).map fun r => ⟨r.blockIp, r.maxReqSecond⟩
  | .snapshot _ => none

/-- The settings after some offers: those of the last record among them. -/
def liveAfter (live : LiveSettings) (offers : List (Offer Unit)) : LiveSettings :=
  (offers.filterMap fun o => recorded? o.payload).getLast?.getD live

theorem liveAfter_append (live : LiveSettings) (before after : List (Offer Unit)) :
    liveAfter live (before ++ after) = liveAfter (liveAfter live before) after := by
  unfold liveAfter
  rw [List.filterMap_append, List.getLast?_append]
  cases (after.filterMap fun o => recorded? o.payload).getLast? <;> simp

theorem liveAfter_singleton (live : LiveSettings) (o : Offer Unit) :
    liveAfter live [o] = (recorded? o.payload).getD live := by
  unfold liveAfter
  cases h : recorded? o.payload <;> simp [h]

theorem liveAfter_of_malformed {live : LiveSettings} {offers : List (Offer Unit)}
    (h : ∀ o ∈ offers, recorded? o.payload = none) : liveAfter live offers = live := by
  have hnone : offers.filterMap (fun o => recorded? o.payload) = [] :=
    List.filterMap_eq_nil_iff.mpr h
  rw [liveAfter, hnone]
  rfl

/-- A record takes effect as a whole and touches nothing else; anything but a record changes
nothing. -/
theorem answered_reaction {payload : Payload} {f f' : Firewall} {accepted : Bool}
    (h : Watcher.Answered reaction () payload f accepted f') :
    f' = { f with live := (recorded? payload).getD f.live } := by
  cases payload with
  | snapshot values =>
    cases h with
    | took h =>
      cases h
      rfl
    | refused h => cases h
  | value raw =>
    cases hr : FirewallRecord.ofBytes? raw <;> cases h <;>
      simp_all [reaction, follow, applyRecord?, recorded?]

/-- A firewall that began as `f` has taken what it was offered, and is otherwise as it was. -/
def Takes (f : Firewall) (r : Served Unit Firewall) : Prop :=
  r.state = { f with live := liveAfter f.live r.offers }

theorem takes_self (f : Firewall) (w : Watcher Unit) : Takes f ⟨w, f, []⟩ := rfl

theorem Takes.of_offered {f : Firewall} {t : Watched} {name : String} {payload : Payload}
    {version : Nat} {r r' : Served Unit Firewall}
    (h : Watcher.Offered reaction t name payload version r r') (hr : Takes f r) : Takes f r' := by
  cases h with
  | passed => exact hr
  | made _ _ hans _ _ =>
    unfold Takes at hr ⊢
    simp only
    rw [answered_reaction hans, liveAfter_append, liveAfter_singleton, hr]

theorem takes_registered {t : Watched} {name : String} {w : Watcher Unit} {f : Firewall}
    {fetched : Option (Payload × Nat)} {r : Served Unit Firewall}
    (h : Watcher.Registered reaction t name () w f fetched r) : Takes f r := by
  cases h with
  | declined => exact takes_self f _
  | awaited => exact takes_self f _
  | refused hrefused =>
    unfold Takes
    rw [liveAfter_singleton]
    exact answered_reaction (.refused hrefused)
  | taken htook =>
    unfold Takes
    rw [liveAfter_singleton]
    exact answered_reaction (.took htook)

theorem takes_dispatch (f : Firewall) (w : Watcher Unit) (listing : Listing)
    (visit : List Batch → List Batch) :
    Takes f (w.dispatch reaction visit listing f).toServed := by
  let I (r : Round Unit Firewall) : Prop := Takes f r.toServed
  refine (Watcher.dispatch_induction (I := I) (takes_self f w) ?_ ?_).2
  · intro r _ hr e _
    exact hr.of_offered (Watcher.offered_offerEntry reaction r e)
  · intro r _ hr b _
    exact hr.of_offered (Watcher.offered_offerBatch reaction r b)

/-! ## Where the firewall stands -/

/-- The settings are those of the record that an entry holds, if it holds one. -/
def Obeys (live : LiveSettings) (e : Entry) : Prop :=
  ∀ r, FirewallRecord.ofBytes? e.value = some r → live = ⟨r.blockIp, r.maxReqSecond⟩

theorem obeys_recorded (live : LiveSettings) (e : Entry) :
    Obeys ((recorded? (.value e.value)).getD live) e := by
  intro r hr
  simp [recorded?, hr]

/-- There is no subscription but one to `key`, and it stands at an entry that the settings obey. -/
def StandsAlone (st : Store) (key : String) (w : Watcher Unit) (live : LiveSettings) : Prop :=
  ∀ t name sub, w.subscription? t name = some sub →
    (t = .key ∧ name = key) ∧ StandsAt st key (Obeys live) sub

theorem StandsAlone.of_offered {st : Store} {key : String} {t : Watched} {name : String}
    {payload : Payload} {version : Nat} {r r' : Served Unit Firewall}
    (h : Watcher.Offered reaction t name payload version r r')
    (hentry : t = .key → ∃ e, st.Past e ∧ e.key = name ∧ e.version = version ∧
      payload = .value e.value)
    (hr : StandsAlone st key r.watcher r.state.live) :
    StandsAlone st key r'.watcher r'.state.live := by
  intro t' name' sub' hsub'
  cases h with
  | passed _ hsame _ =>
    simp only at hsub'
    rw [hsame] at hsub'
    exact hr t' name' sub' hsub'
  | made hsub _ hans hbecomes _ =>
    obtain ⟨⟨rfl, rfl⟩, _⟩ := hr _ _ _ hsub
    rcases hbecomes.cases hsub' with ⟨rfl, rfl, rfl⟩ | ⟨hne, hold⟩
    · obtain ⟨e, he, hkey, hversion, rfl⟩ := hentry rfl
      refine ⟨⟨rfl, rfl⟩, Or.inr ⟨e, he, hkey, hversion, ?_⟩⟩
      rw [answered_reaction hans]
      exact obeys_recorded _ e
    · obtain ⟨⟨rfl, rfl⟩, _⟩ := hr t' name' sub' hold
      exact absurd ⟨rfl, rfl⟩ hne

theorem StandsAlone.of_registered {st : Store} {key : String} {w : Watcher Unit} {f : Firewall}
    {fetched : Option (Payload × Nat)} {r : Served Unit Firewall}
    (h : Watcher.Registered reaction .key key () w f fetched r)
    (hentry : ∀ payload version, fetched = some (payload, version) →
      ∃ e, st.Past e ∧ e.key = key ∧ e.version = version ∧ payload = .value e.value)
    (hw : StandsAlone st key w f.live) : StandsAlone st key r.watcher r.state.live := by
  intro t' name' sub' hsub'
  cases h with
  | declined => exact hw t' name' sub' hsub'
  | awaited hbecomes _ =>
    rcases hbecomes.cases hsub' with ⟨rfl, rfl, rfl⟩ | ⟨_, hold⟩
    · exact ⟨⟨rfl, rfl⟩, Or.inl rfl⟩
    · exact hw t' name' sub' hold
  | refused _ => exact hw t' name' sub' hsub'
  | taken htook hbecomes _ =>
    rcases hbecomes.cases hsub' with ⟨rfl, rfl, rfl⟩ | ⟨hne, hold⟩
    · obtain ⟨e, he, hkey, hversion, rfl⟩ := hentry _ _ rfl
      refine ⟨⟨rfl, rfl⟩, Or.inr ⟨e, he, hkey, hversion, ?_⟩⟩
      rw [answered_reaction (.took htook)]
      exact obeys_recorded _ e
    · obtain ⟨⟨rfl, rfl⟩, _⟩ := hw t' name' sub' hold
      exact absurd ⟨rfl, rfl⟩ hne

theorem StandsAlone.of_dispatch {st : Store} {key : String} {w : Watcher Unit} {f : Firewall}
    {listing : Listing} (visit : List Batch → List Batch) (hw : StandsAlone st key w f.live)
    (hpast : ∀ e ∈ listing.entries, st.Past e) :
    StandsAlone st key (w.dispatch reaction visit listing f).watcher
      (w.dispatch reaction visit listing f).state.live := by
  let I (r : Round Unit Firewall) : Prop := StandsAlone st key r.watcher r.state.live
  refine (Watcher.dispatch_induction (I := I) hw ?_ ?_).2
  · intro r _ hr e he
    exact .of_offered (Watcher.offered_offerEntry reaction r e)
      (fun _ => ⟨e, hpast e he, rfl, rfl, rfl⟩) hr
  · intro r _ hr b _
    exact .of_offered (Watcher.offered_offerBatch reaction r b) (fun ht => by cases ht) hr

/-! ## Events -/

/-- Something that happens to the store, to the firewall as a subscriber, or to the firewall on
its own. -/
inductive Event where
  | change (c : Change)
  | subscribe
  | poll
  | dispatch (listing : Listing) (tour : Tour)
  | request (v : Visit) (now : Moment)
  | rotate (now : Moment)
  | sweep (now : Moment)

/-- Whether an event is one of the firewall on its own. -/
def Event.isOwn : Event → Bool
  | .request _ _ => true
  | .rotate _ => true
  | .sweep _ => true
  | _ => false

/-- Subscribes the firewall of a course to its record. -/
def trySubscribe (name : String) (x : Course Unit Firewall) :
    Except WatchError Unit × Served Unit Firewall :=
  x.state.subscribe x.watcher name (x.store.get (x.watcher.fullKey name))

/-- The course after an event, where the record has the name `name`. -/
def happen (name : String) (x : Course Unit Firewall) : Event → Course Unit Firewall
  | .change c => x.step reaction (.change c)
  | .subscribe => x.served (trySubscribe name x).2
  | .poll => x.step reaction .poll
  | .dispatch listing tour => x.step reaction (.dispatch listing tour)
  | .request v now => { x with state := x.state.step (.request v now) }
  | .rotate now => { x with state := x.state.step (.rotate now) }
  | .sweep now => { x with state := x.state.step (.sweep now) }

def observe (name : String) (x : Course Unit Firewall) (events : List Event) :
    Course Unit Firewall := events.foldl (happen name) x

theorem registered_trySubscribe (name : String) (x : Course Unit Firewall) :
    Watcher.Registered reaction .key (x.watcher.fullKey name) () x.watcher x.state
      (Watcher.fetchedValue (x.store.get (x.watcher.fullKey name))) (trySubscribe name x).2 :=
  Watcher.registered_subscribeKey ..

/-- On its own the firewall changes neither its live settings nor anything around it. -/
theorem happen_own (name : String) (x : Course Unit Firewall) {e : Event} (h : e.isOwn = true) :
    ∃ f : Firewall, f.live = x.state.live ∧ happen name x e = { x with state := f } := by
  cases e with
  | request v now =>
    obtain ⟨w, r, m, hjudge⟩ := judge_snd x.state v now
    refine ⟨x.state.step (.request v now), ?_, rfl⟩
    show (x.state.judge v now).2.live = _
    rw [hjudge]
  | rotate now => exact ⟨x.state.step (.rotate now), rfl, rfl⟩
  | sweep now => exact ⟨x.state.step (.sweep now), rfl, rfl⟩
  | change c => cases h
  | subscribe => cases h
  | poll => cases h
  | dispatch listing tour => cases h

/-- As a subscriber the firewall takes what it is offered, and is otherwise left as it is. -/
theorem happen_offered (name : String) (x : Course Unit Firewall) {e : Event}
    (h : e.isOwn = false) :
    ∃ made, (happen name x e).offers = x.offers ++ made ∧
      (happen name x e).state = { x.state with live := liveAfter x.state.live made } := by
  cases e with
  | change c => exact ⟨[], (List.append_nil _).symm, rfl⟩
  | subscribe => exact ⟨_, rfl, takes_registered (registered_trySubscribe name x)⟩
  | poll =>
    simp only [happen, Course.step]
    split <;> exact ⟨[], (List.append_nil _).symm, rfl⟩
  | dispatch listing tour =>
    simp only [happen, Course.step]
    split
    · exact ⟨_, rfl, takes_dispatch x.state x.watcher listing tour.visit⟩
    · exact ⟨[], (List.append_nil _).symm, rfl⟩
  | request v now => cases h
  | rotate now => cases h
  | sweep now => cases h

/-! ## The invariant of a course with a firewall -/

/-- The firewall has followed its record from the settings `base` on. -/
structure Following (key : String) (base : LiveSettings) (x : Course Unit Firewall) : Prop where
  sound : x.Sound
  live : x.state.live = liveAfter base x.offers
  alone : StandsAlone x.store key x.watcher x.state.live

theorem following_start (key space : String) (f : Firewall) :
    Following key f.live (Course.start space f) := by
  refine ⟨Course.sound_start space f, rfl, ?_⟩
  intro t name sub hsub
  cases t <;> cases hsub

theorem sound_happen {x : Course Unit Firewall} (h : x.Sound) (name : String) (e : Event) :
    (happen name x e).Sound := by
  have hown : ∀ f : Firewall, Course.Sound { x with state := f } :=
    fun f => ⟨h.store, h.taken, h.named⟩
  cases e with
  | change c => exact h.step reaction (.change c)
  | subscribe => exact h.step reaction (.listenKey name true ())
  | poll => exact h.step reaction .poll
  | dispatch listing tour => exact h.step reaction (.dispatch listing tour)
  | request v now => exact hown _
  | rotate now => exact hown _
  | sweep now => exact hown _

theorem live_happen {x : Course Unit Firewall} {base : LiveSettings}
    (h : x.state.live = liveAfter base x.offers) (name : String) (e : Event) :
    (happen name x e).state.live = liveAfter base (happen name x e).offers := by
  cases hown : e.isOwn with
  | true =>
    obtain ⟨f, hlive, heq⟩ := happen_own name x hown
    rw [heq]
    exact hlive.trans h
  | false =>
    obtain ⟨made, hmade, hstate⟩ := happen_offered name x hown
    rw [hmade, hstate, liveAfter_append, ← h]

theorem space_happen (name : String) (x : Course Unit Firewall) (e : Event) :
    (happen name x e).watcher.space = x.watcher.space := by
  cases e with
  | subscribe => exact (registered_trySubscribe name x).space
  | poll =>
    simp only [happen, Course.step]
    split <;> rfl
  | dispatch listing tour =>
    simp only [happen, Course.step]
    split
    · exact (Watcher.sameHandlers_dispatch ..).space
    · rfl
  | _ => rfl

theorem Following.happen {name : String} {base : LiveSettings} {x : Course Unit Firewall}
    (h : Following (x.watcher.fullKey name) base x) (e : Event) :
    Following (x.watcher.fullKey name) base (happen name x e) := by
  refine ⟨sound_happen h.sound name e, live_happen h.live name e, ?_⟩
  obtain ⟨hsound, _, halone⟩ := h
  cases hown : e.isOwn with
  | true =>
    obtain ⟨f, hlive, heq⟩ := happen_own name x hown
    rw [heq]
    simp only [hlive]
    exact halone
  | false =>
    cases e with
    | change c =>
      intro t' name' sub hsub
      obtain ⟨hkey, hstands⟩ := halone t' name' sub hsub
      exact ⟨hkey, hstands.mono (fun e he => he.apply c) fun e he => he⟩
    | subscribe =>
      refine .of_registered (registered_trySubscribe name x) ?_ halone
      intro payload version hfetched
      exact Course.past_of_fetchedValue hsound.store hfetched
    | poll =>
      simp only [Firewall.happen, Course.step]
      split <;> exact halone
    | dispatch listing tour =>
      simp only [Firewall.happen, Course.step]
      split
      next htaken => exact halone.of_dispatch tour.visit (hsound.taken listing htaken)
      next => exact halone
    | request v now => cases hown
    | rotate now => cases hown
    | sweep now => cases hown

/-! ## Subscribed firewalls -/

def IsSubscribed (key : String) (w : Watcher Unit) : Prop :=
  (w.subscription? .key key).isSome = true

theorem IsSubscribed.happen {key : String} {x : Course Unit Firewall}
    (h : IsSubscribed key x.watcher) (name : String) (e : Event) :
    IsSubscribed key (happen name x e).watcher := by
  cases e with
  | subscribe => exact (registered_trySubscribe name x).after h
  | poll =>
    simp only [Firewall.happen, Course.step]
    split <;> exact h
  | dispatch listing tour =>
    simp only [Firewall.happen, Course.step]
    split
    · exact (Watcher.sameHandlers_dispatch ..).after.trans h
    · exact h
  | _ => exact h

/-! ## Runs -/

theorem fullKey_happen (name : String) (x : Course Unit Firewall) (e : Event) :
    (happen name x e).watcher.fullKey name = x.watcher.fullKey name := by
  unfold Watcher.fullKey
  rw [space_happen]

theorem fullKey_observe (name : String) (x : Course Unit Firewall) (events : List Event) :
    (observe name x events).watcher.fullKey name = x.watcher.fullKey name := by
  induction events generalizing x with
  | nil => rfl
  | cons e events ih =>
    show (observe name (happen name x e) events).watcher.fullKey name = _
    rw [ih, fullKey_happen]

theorem Following.observe {name : String} {base : LiveSettings} {x : Course Unit Firewall}
    (h : Following (x.watcher.fullKey name) base x) (events : List Event) :
    Following (x.watcher.fullKey name) base (observe name x events) := by
  induction events generalizing x with
  | nil => exact h
  | cons e events ih =>
    have hnext := h.happen e
    rw [← fullKey_happen name x e] at hnext ⊢
    exact ih hnext

theorem IsSubscribed.observe {key : String} {x : Course Unit Firewall}
    (h : IsSubscribed key x.watcher) (name : String) (events : List Event) :
    IsSubscribed key (observe name x events).watcher := by
  induction events generalizing x with
  | nil => exact h
  | cons e events ih => exact ih (h.happen name e)

/-- A firewall that has subscribed stays subscribed. -/
theorem isSubscribed_observe {name : String} {x : Course Unit Firewall} {before : List Event}
    (hok : (trySubscribe name (observe name x before)).1 = .ok ()) (after : List Event) :
    IsSubscribed (x.watcher.fullKey name)
      (observe name x (before ++ .subscribe :: after)).watcher := by
  have hsub : IsSubscribed ((observe name x before).watcher.fullKey name)
      (happen name (observe name x before) .subscribe).watcher := Watcher.subscribed_of_ok hok
  rw [fullKey_observe] at hsub
  unfold Firewall.observe at hsub ⊢
  rw [List.foldl_append, List.foldl_cons]
  exact hsub.observe name after

/-! ## Following the record -/

/-- At every moment the live settings are those of the last record that was offered, and the
configured ones before that. An offer changes nothing but them, and nothing at all if it is no
record. Once the firewall is subscribed, the dispatch of a listing that shows what the store
holds brings the live settings to the stored record. -/
theorem live_settings_follow_record (settings : FirewallSettings) (filter : KeywordFilter)
    (now : Moment) (space name : String) (events : List Event) :
    let first := Course.start space (start settings filter now)
    let x := observe name first events
    x.state.live = liveAfter ⟨[], settings.defaultMaxReqSecond⟩ x.offers ∧
    (∀ e made, e.isOwn = false → (happen name x e).offers = x.offers ++ made →
      (happen name x e).state = { x.state with live := liveAfter x.state.live made } ∧
      ((∀ o ∈ made, recorded? o.payload = none) → (happen name x e).state = x.state)) ∧
    ∀ before after listing tour, events = before ++ .subscribe :: after →
      (trySubscribe name (observe name first before)).1 = .ok () → listing ∈ x.taken →
      listing.entries = (x.store.snapshot x.watcher.stem).entries →
      ∀ e r, x.store.find? (x.watcher.fullKey name) = some e →
        FirewallRecord.ofBytes? e.value = some r →
        (happen name x (.dispatch listing tour)).state.live = ⟨r.blockIp, r.maxReqSecond⟩ := by
  intro first x
  have hx : Following (first.watcher.fullKey name) first.state.live x :=
    (following_start _ space (start settings filter now)).observe events
  have hkey : x.watcher.fullKey name = first.watcher.fullKey name :=
    fullKey_observe name first events
  refine ⟨hx.live, ?_, ?_⟩
  · intro e made hown hmade
    obtain ⟨made', hmade', hstate⟩ := happen_offered name x hown
    obtain rfl : made = made' := List.append_cancel_left (hmade.symm.trans hmade')
    refine ⟨hstate, fun hmalformed => ?_⟩
    rw [hstate, liveAfter_of_malformed hmalformed]
  · intro before after listing tour hevents hok htaken hnow e r he hr
    have hsubscribed : IsSubscribed (x.watcher.fullKey name) x.watcher := by
      rw [hkey]
      show IsSubscribed _ (observe name first events).watcher
      rw [hevents]
      exact isSubscribed_observe hok after
    rw [← hkey] at hx
    have hy := hx.happen (.dispatch listing tour)
    obtain ⟨sub, hsub⟩ := Option.isSome_iff_exists.mp
      (hsubscribed.happen name (.dispatch listing tour))
    have hreached : e.version ≤ sub.attempted := hx.sound.reached_current htaken hnow hsub he
    have hstore : (happen name x (.dispatch listing tour)).store = x.store := by
      show (x.step reaction (.dispatch listing tour)).store = x.store
      rw [Course.step_dispatch htaken]
      rfl
    obtain ⟨_, hstands⟩ := hy.alone _ _ _ hsub
    rw [hstore] at hstands
    exact (hstands.current hx.sound.store he hreached).1 r hr

/-- Subscribed before there is a record, and then offered what is none: the next record still
takes effect. -/
theorem record_after_malformed_value_takes_effect :
    let first := Course.start "gate" (start {} KeywordFilter.standard 0)
    let good := Bytes.ofText "[[\"5.5.5.5\"],20]"
    let old : Listing := ⟨[⟨"gate/limits", [0x7B], 1⟩], 1⟩
    let new : Listing := ⟨[⟨"gate/limits", good, 2⟩], 2⟩
    let tour : Tour := ⟨id, fun _ => .refl _⟩
    let after : List Event :=
      [.change (.put "gate/limits" [0x7B]), .poll, .dispatch old tour, .sweep 60,
        .change (.put "gate/limits" good), .poll]
    let x := observe "limits" first ([] ++ .subscribe :: after)
    (trySubscribe "limits" (observe "limits" first [])).1 = .ok () ∧ new ∈ x.taken ∧
      new.entries = (x.store.snapshot x.watcher.stem).entries ∧
      x.state.live = ⟨[], 10⟩ ∧
      (happen "limits" x (.dispatch new tour)).state.live = ⟨["5.5.5.5"], 20⟩ := by
  intro first good old new tour after x
  have hok : (trySubscribe "limits" (observe "limits" first [])).1 = .ok () := rfl
  have htaken : new ∈ x.taken := by decide +kernel
  have hnow : new.entries = (x.store.snapshot x.watcher.stem).entries := by decide +kernel
  have hstored : x.store.find? (x.watcher.fullKey "limits") = some ⟨"gate/limits", good, 2⟩ := by
    decide +kernel
  have hrecord : FirewallRecord.ofBytes? good = some ⟨["5.5.5.5"], 20⟩ := by decide +kernel
  have hlive : x.state.live = ⟨[], 10⟩ := by decide +kernel
  obtain ⟨_, _, hfollow⟩ := live_settings_follow_record {} KeywordFilter.standard 0 "gate" "limits"
    ([] ++ .subscribe :: after)
  exact ⟨hok, htaken, hnow, hlive,
    hfollow [] after new tour rfl hok htaken hnow _ _ hstored hrecord⟩

end AdmissionGate.Firewall
