-- Key subscribers converge on the store. However many listings were missed,
-- came late or were refused, the dispatch of a listing that is up to date
-- leaves every subscriber with the stored value as the last one it was offered.
import AdmissionGate.Proofs.Watch.Course

namespace AdmissionGate.Watch

variable {H σ : Type}

/-! ## What a listener has heard -/

/-- The last thing that a subscriber was offered is the value of `e`. -/
def Heard (offers : List (Offer (Listener H))) (sub : Subscription (Listener H)) (e : Entry) :
    Prop :=
  (lastOffer? sub.handler.number offers).map (·.payload) = some (.value e.value)

/-! ## The invariant of convergence -/

/-- Every subscriber of a key stands at the value that it heard last. -/
def AllStand (s : Store) (offers : List (Offer (Listener H))) (w : Watcher (Listener H)) : Prop :=
  ∀ name sub, w.subscription? .key name = some sub → StandsAt s name (Heard offers sub) sub

/-- An offer to another listener changes nothing for a subscriber. -/
theorem StandsAt.of_other {s : Store} {name : String} {offers : List (Offer (Listener H))}
    {sub : Subscription (Listener H)} {o : Offer (Listener H)}
    (h : StandsAt s name (Heard offers sub) sub)
    (hother : o.handler.number ≠ sub.handler.number) :
    StandsAt s name (Heard (offers ++ [o]) sub) sub := by
  refine h.mono (fun _ he => he) fun e he => ?_
  unfold Heard
  rw [lastOffer?_snoc, if_neg hother]
  exact he

theorem heard_self (offers : List (Offer (Listener H))) (sub : Subscription (Listener H))
    (e : Entry) (version : Nat) (accepted : Bool) :
    Heard (offers ++ [⟨sub.handler, .value e.value, version, accepted⟩]) sub e := by
  unfold Heard
  rw [lastOffer?_snoc, if_pos rfl]
  rfl

theorem AllStand.of_offered {n : Nat} {s : Store} {offers : List (Offer (Listener H))}
    {react : Reaction (Listener H) σ} {t : Watched} {name : String} {payload : Payload}
    {version : Nat} {r r' : Served (Listener H) σ}
    (h : Watcher.Offered react t name payload version r r')
    (hentry : t = .key → ∃ e, s.Past e ∧ e.key = name ∧ e.version = version ∧
      payload = .value e.value)
    (hdistinct : Distinct n r.watcher) (hr : AllStand s (offers ++ r.offers) r.watcher) :
    AllStand s (offers ++ r'.offers) r'.watcher := by
  intro name' sub' hsub'
  cases h with
  | passed _ hsame _ =>
    simp only at hsub' ⊢
    rw [hsame] at hsub'
    exact hr name' sub' hsub'
  | made hsub _ _ hbecomes _ =>
    simp only at hsub' ⊢
    rw [← List.append_assoc]
    rcases hbecomes.cases hsub' with ⟨ht, rfl, rfl⟩ | ⟨hne, hold⟩
    · obtain ⟨e, he, hkey, hversion, rfl⟩ := hentry ht.symm
      exact Or.inr ⟨e, he, hkey, hversion, heard_self _ _ e _ _⟩
    · exact (hr name' sub' hold).of_other fun hnumber => hne (hdistinct.apart hsub hold hnumber)

theorem AllStand.of_registered {n : Nat} {st : Store} {offers : List (Offer (Listener H))}
    {react : Reaction (Listener H) σ} {t : Watched} {name : String} {handler : H}
    {w : Watcher (Listener H)} {s : σ} {fetched : Option (Payload × Nat)}
    {r : Served (Listener H) σ} (h : Watcher.Registered react t name ⟨n, handler⟩ w s fetched r)
    (hentry : ∀ payload version, t = .key → fetched = some (payload, version) →
      ∃ e, st.Past e ∧ e.key = name ∧ e.version = version ∧ payload = .value e.value)
    (hdistinct : Distinct n w) (hw : AllStand st offers w) :
    AllStand st (offers ++ r.offers) r.watcher := by
  intro name' sub' hsub'
  cases h with
  | declined =>
    rw [List.append_nil]
    exact hw name' sub' hsub'
  | awaited hbecomes _ =>
    rw [List.append_nil]
    rcases hbecomes.cases hsub' with ⟨_, _, rfl⟩ | ⟨_, hold⟩
    · exact Or.inl rfl
    · exact hw name' sub' hold
  | refused _ => exact (hw name' sub' hsub').of_other (Nat.ne_of_gt (hdistinct.below hsub'))
  | taken _ hbecomes _ =>
    rcases hbecomes.cases hsub' with ⟨ht, rfl, rfl⟩ | ⟨_, hold⟩
    · obtain ⟨e, he, hkey, hversion, rfl⟩ := hentry _ _ ht.symm rfl
      exact Or.inr ⟨e, he, hkey, hversion, heard_self _ _ e _ _⟩
    · exact (hw name' sub' hold).of_other (Nat.ne_of_gt (hdistinct.below hold))

theorem AllStand.of_dispatch {n : Nat} {st : Store} {offers : List (Offer (Listener H))}
    {w : Watcher (Listener H)} {listing : Listing} (react : Reaction (Listener H) σ)
    (visit : List Batch → List Batch) (s : σ) (hw : AllStand st offers w)
    (hdistinct : Distinct n w) (hpast : ∀ e ∈ listing.entries, st.Past e) :
    AllStand st (offers ++ (w.dispatch react visit listing s).offers)
      (w.dispatch react visit listing s).watcher := by
  let I (r : Round (Listener H) σ) : Prop := AllStand st (offers ++ r.offers) r.watcher
  refine (Watcher.dispatch_induction (I := I) ?_ ?_ ?_).2
  · show AllStand st (offers ++ []) w
    rw [List.append_nil]
    exact hw
  · intro r hsame hr e he
    exact .of_offered (Watcher.offered_offerEntry react r e)
      (fun _ => ⟨e, hpast e he, rfl, rfl, rfl⟩) (hdistinct.of_sameHandlers hsame) hr
  · intro r hsame hr b _
    -- A batch is for a directory, so it is no entry of a key.
    exact .of_offered (Watcher.offered_offerBatch react r b) (fun ht => by cases ht)
      (hdistinct.of_sameHandlers hsame) hr

/-- A course whose registrations have numbers below `n`, in which every subscriber of a key
stands at what it heard last. -/
structure Converging (n : Nat) (x : Course (Listener H) σ) : Prop where
  sound : x.Sound
  distinct : Distinct n x.watcher
  stands : AllStand x.store x.offers x.watcher

theorem converging_start (space : String) (s : σ) :
    Converging 0 (Course.start space s : Course (Listener H) σ) := by
  refine ⟨Course.sound_start space s, ⟨?_, ?_⟩, ?_⟩
  · intro t name sub hsub
    cases t <;> cases hsub
  · intro t name sub t' name' sub' hsub
    cases t <;> cases hsub
  · intro name sub hsub
    cases hsub

theorem Converging.step {n : Nat} {x : Course (Listener H) σ} (h : Converging n x)
    (react : Reaction (Listener H) σ) (m : Move H) :
    Converging (n + 1) (x.step react (m.map (Listener.mk n))) := by
  refine ⟨h.sound.step _ _, ?_, ?_⟩
  · obtain ⟨_, hdistinct, _⟩ := h
    cases m with
    | change c => exact hdistinct.succ
    | listenKey name tolerant handler =>
      exact .of_registered (Watcher.registered_subscribeKey ..) hdistinct
    | listenDirectory name handler =>
      exact .of_registered (Watcher.registered_subscribeDirectory ..) hdistinct
    | poll =>
      simp only [Move.map, Course.step]
      split <;> exact hdistinct.succ
    | dispatch listing tour =>
      simp only [Move.map, Course.step]
      split
      · exact (hdistinct.of_sameHandlers (Watcher.sameHandlers_dispatch ..)).succ
      · exact hdistinct.succ
  · obtain ⟨hsound, hdistinct, hstands⟩ := h
    cases m with
    | change c =>
      intro name sub hsub
      exact (hstands name sub hsub).mono (fun e he => he.apply c) fun e he => he
    | listenKey name tolerant handler =>
      refine .of_registered (Watcher.registered_subscribeKey ..) ?_ hdistinct hstands
      intro payload version _ hfetched
      exact Course.past_of_fetchedValue hsound.store hfetched
    | listenDirectory name handler =>
      refine .of_registered (Watcher.registered_subscribeDirectory ..) ?_ hdistinct hstands
      intro payload version ht _
      cases ht
    | poll =>
      simp only [Move.map, Course.step]
      split <;> exact hstands
    | dispatch listing tour =>
      simp only [Move.map, Course.step]
      split
      next htaken =>
        exact hstands.of_dispatch react tour.visit x.state hdistinct (hsound.taken listing htaken)
      next => exact hstands

theorem Converging.run {n : Nat} {x : Course (Listener H) σ} (h : Converging n x)
    (react : Reaction (Listener H) σ) (moves : List (Move H)) :
    Converging (n + moves.length) (x.run react (numbered n moves)) := by
  induction moves generalizing n x with
  | nil => exact h
  | cons m moves ih =>
    have hnext := ih (h.step react m)
    rw [List.length_cons, Nat.add_comm moves.length 1, ← Nat.add_assoc]
    exact hnext

/-! ## Convergence -/

/-- Once a listing is dispatched that shows the namespace as the store holds it, every
subscriber of a stored key was offered the stored value last, and stands at its version. -/
theorem key_subscribers_converge (react : Reaction H σ) (space : String) (s : σ)
    (moves : List (Move H)) (listing : Listing) (tour : Tour) :
    let x := (Course.start space s).run (Listener.reaction react) (numbered 0 moves)
    let y := x.step (Listener.reaction react) (.dispatch listing tour)
    listing ∈ x.taken → listing.entries = (x.store.snapshot x.watcher.stem).entries →
    ∀ key sub e, y.watcher.keys.find? key = some sub → y.store.find? key = some e →
      (lastOffer? sub.handler.number y.offers).map (·.payload) = some (.value e.value) ∧
        sub.attempted = e.version := by
  intro x y htaken hnow key sub e hsub he
  have hx : Converging (0 + moves.length) x :=
    (converging_start space s).run (Listener.reaction react) moves
  have hy : Converging (0 + moves.length + 1) y :=
    hx.step (Listener.reaction react) (.dispatch listing tour)
  have hstore : y.store = x.store := by
    rw [show y = _ from Course.step_dispatch htaken]
    rfl
  rw [hstore] at he
  have hreached : e.version ≤ sub.attempted :=
    hx.sound.reached_current htaken hnow hsub he
  have hstands := hy.stands key sub hsub
  rw [hstore] at hstands
  exact hstands.current hx.sound.store he hreached

/-- Registered during an outage, then served from a listing that was out of date: the subscriber
is offered the stored value last, although it refuses it. -/
theorem refused_value_offered_last :
    let react : Reaction Unit Unit := fun _ payload _ =>
      if payload = .value [2] then .error (.stated "no") else .ok ()
    let tour : Tour := ⟨id, fun _ => .refl _⟩
    let old : Listing := ⟨[⟨"gate/limit", [1], 1⟩], 1⟩
    let new : Listing := ⟨[⟨"gate/limit", [2], 2⟩], 2⟩
    let moves : List (Move Unit) :=
      [.change (.put "gate/limit" [1]), .poll, .change (.outage true), .listenKey "limit" true (),
        .change (.outage false), .change (.put "gate/limit" [2]), .dispatch old tour, .poll]
    let x := (Course.start "gate" ()).run (Listener.reaction react) (numbered 0 moves)
    let y := x.step (Listener.reaction react) (.dispatch new tour)
    new ∈ x.taken ∧ new.entries = (x.store.snapshot x.watcher.stem).entries ∧
      ∃ sub e, y.watcher.keys.find? "gate/limit" = some sub ∧
        y.store.find? "gate/limit" = some e ∧ e.value = [2] ∧
        (lastOffer? sub.handler.number y.offers).map (·.payload) = some (.value e.value) ∧
        sub.attempted = e.version := by
  intro react tour old new moves x y
  have htaken : new ∈ x.taken := by decide +kernel
  have hnow : new.entries = (x.store.snapshot x.watcher.stem).entries := by decide +kernel
  have he : y.store.find? "gate/limit" = some ⟨"gate/limit", [2], 2⟩ := by decide +kernel
  have hsome : (y.watcher.keys.find? "gate/limit").isSome = true := by decide +kernel
  obtain ⟨sub, hsub⟩ := Option.isSome_iff_exists.mp hsome
  exact ⟨htaken, hnow, sub, ⟨"gate/limit", [2], 2⟩, hsub, he, rfl,
    key_subscribers_converge react "gate" () moves new tour htaken hnow _ _ _ hsub he⟩

end AdmissionGate.Watch
