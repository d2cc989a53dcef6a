-- Two desks that serve the same calls, with handlers that answer differently
-- at every place but one. Who is offered what at that place does not depend on
-- the others: their refusals, their failed first loads and the order in which
-- directories are visited leave no trace there.
import AdmissionGate.Proofs.Watch.Calls

namespace AdmissionGate.Watch

variable {H σ σ' : Type}

/-! ## Handlers that agree on some listeners -/

/-- Two answers that both take an offer, with related states after it, or both refuse it. -/
inductive Alike (R : σ → σ' → Prop) : Except Refusal σ → Except Refusal σ' → Prop
  | took {s : σ} {s' : σ'} : R s s' → Alike R (.ok s) (.ok s')
  | refused {why why' : Refusal} : Alike R (.error why) (.error why')

theorem Alike.symm {R : σ → σ' → Prop} {a : Except Refusal σ} {a' : Except Refusal σ'}
    (h : Alike R a a') : Alike (fun s' s => R s s') a' a := by
  cases h with
  | took hR => exact .took hR
  | refused => exact .refused

/-- Some listeners answer alike from related states. What the other ones do to the states keeps
them related, whether they do it on one side only or on both. -/
structure Agree (mine : Listener H → Prop) (R : σ → σ' → Prop) (react : Reaction (Listener H) σ)
    (react' : Reaction (Listener H) σ') : Prop where
  own : ∀ l payload s s', mine l → R s s' → Alike R (react l payload s) (react' l payload s')
  left : ∀ l payload s s' next, ¬ mine l → R s s' → react l payload s = .ok next → R next s'
  right : ∀ l payload s s' next, ¬ mine l → R s s' → react' l payload s' = .ok next → R s next

variable {R : σ → σ' → Prop} {react : Reaction (Listener H) σ} {react' : Reaction (Listener H) σ'}

theorem Alike.answered {l : Listener H} {payload : Payload} {s next : σ} {s' next' : σ'}
    {accepted accepted' : Bool} (h : Alike R (react l payload s) (react' l payload s'))
    (hR : R s s') (hanswer : Watcher.Answered react l payload s accepted next)
    (hanswer' : Watcher.Answered react' l payload s' accepted' next') :
    accepted = accepted' ∧ R next next' := by
  cases hanswer with
  | took htook =>
    rw [htook] at h
    cases hanswer' with
    | took htook' =>
      rw [htook'] at h
      cases h with
      | took hnext => exact ⟨rfl, hnext⟩
    | refused hrefused' =>
      rw [hrefused'] at h
      cases h
  | refused hrefused =>
    rw [hrefused] at h
    cases hanswer' with
    | took htook' =>
      rw [htook'] at h
      cases h
    | refused _ => exact ⟨rfl, hR⟩

theorem Agree.symm {mine : Listener H → Prop} (h : Agree mine R react react') :
    Agree mine (fun s' s => R s s') react' react :=
  ⟨fun l payload s' s hl hR => (h.own l payload s s' hl hR).symm,
    fun l payload s' s next hl hR => h.right l payload s s' next hl hR,
    fun l payload s' s next hl hR => h.left l payload s s' next hl hR⟩

/-! ## Watchers that match at one place -/

variable {place : Nat → Option Place} {p : Place} {n : Nat}

/-- The offers to the listeners of a place. -/
def offersAt (place : Nat → Option Place) (p : Place) (offers : List (Offer (Listener H))) :
    List (Offer (Listener H)) :=
  offers.filter fun o => place o.handler.number = some p

theorem offersAt_snoc (offers : List (Offer (Listener H))) (o : Offer (Listener H)) :
    offersAt place p (offers ++ [o]) =
      if place o.handler.number = some p then offersAt place p offers ++ [o]
      else offersAt place p offers := by
  simp only [offersAt, filter_snoc, decide_eq_true_eq]

/-- Two watchers have the same subscription at a place and have just made the same offers to its
listeners. -/
structure Matched (place : Nat → Option Place) (p : Place) (n : Nat) (R : σ → σ' → Prop)
    (r : Served (Listener H) σ) (r' : Served (Listener H) σ') : Prop where
  seated : Seated place n r.watcher
  seated' : Seated place n r'.watcher
  state : R r.state r'.state
  subscription :
    r.watcher.subscription? p.watched p.name = r'.watcher.subscription? p.watched p.name
  offers : offersAt place p r.offers = offersAt place p r'.offers

theorem Matched.symm {r : Served (Listener H) σ} {r' : Served (Listener H) σ'}
    (h : Matched place p n R r r') : Matched place p n (fun s' s => R s s') r' r :=
  ⟨h.seated', h.seated, h.state, h.subscription.symm, h.offers.symm⟩

/-! ## Offers -/

/-- An offer that the subscriber of the place has been made before, on one side only. -/
theorem Matched.offered_again {t : Watched} {name : String} {payload : Payload} {version : Nat}
    {r next : Served (Listener H) σ} {r' : Served (Listener H) σ'}
    (h : Matched place p n R r r')
    (hoffered : Watcher.Offered react t name payload version r next)
    (hreached : r.watcher.HasReached t name version) : Matched place p n R next r' := by
  have hseated := h.seated.of_sameHandlers hoffered.sameHandlers
  cases hoffered with
  | passed _ hsame _ =>
    exact ⟨hseated, h.seated', h.state, (hsame _ _).trans h.subscription, h.offers⟩
  | made hsub hnew _ _ _ => exact absurd (hreached _ hsub) (Nat.not_le_of_lt hnew)

/-- The same offer on both sides, at the place. -/
theorem Matched.offered_here {t : Watched} {name : String} {payload : Payload} {version : Nat}
    {r next : Served (Listener H) σ} {r' next' : Served (Listener H) σ'}
    (h : Matched place ⟨t, name⟩ n R r r')
    (hagree : Agree (fun l => place l.number = some ⟨t, name⟩) R react react')
    (hoffered : Watcher.Offered react t name payload version r next)
    (hoffered' : Watcher.Offered react' t name payload version r' next') :
    Matched place ⟨t, name⟩ n R next next' := by
  have hsubs := h.subscription
  by_cases hreached : r.watcher.HasReached t name version
  · have hreached' : r'.watcher.HasReached t name version := fun sub hsub =>
      hreached sub (hsubs.trans hsub)
    exact ((h.offered_again hoffered hreached).symm.offered_again hoffered' hreached').symm
  · -- The subscription is the same on both sides, so the version is new on both.
    have hseated := h.seated.of_sameHandlers hoffered.sameHandlers
    have hseated' := h.seated'.of_sameHandlers hoffered'.sameHandlers
    cases hoffered with
    | passed hold _ _ => exact absurd hold hreached
    | made hsub hnew hanswer hbecomes _ =>
      cases hoffered' with
      | passed hold' _ _ => exact absurd (hold' _ (hsubs.symm.trans hsub)) (Nat.not_le_of_lt hnew)
      | made hsub' _ hanswer' hbecomes' _ =>
        cases Option.some.inj (hsub.symm.trans (hsubs.trans hsub'))
        have hmine := h.seated.seat hsub
        obtain ⟨rfl, hR⟩ :=
          (hagree.own _ payload _ _ hmine h.state).answered h.state hanswer hanswer'
        refine ⟨hseated, hseated', hR, hbecomes.self.trans hbecomes'.self.symm, ?_⟩
        rw [offersAt_snoc, offersAt_snoc, if_pos hmine, if_pos hmine, h.offers]

/-! ## Handlers that agree at the place -/

section

variable (hagree : Agree (fun l => place l.number = some p) R react react')

include hagree

/-- An offer at another place, on one side only. -/
theorem Matched.offered_elsewhere {t : Watched} {name : String} {payload : Payload}
    {version : Nat} {r next : Served (Listener H) σ} {r' : Served (Listener H) σ'}
    (h : Matched place p n R r r')
    (hoffered : Watcher.Offered react t name payload version r next) (hother : ⟨t, name⟩ ≠ p) :
    Matched place p n R next r' := by
  have hseated := h.seated.of_sameHandlers hoffered.sameHandlers
  cases hoffered with
  | passed _ hsame _ =>
    exact ⟨hseated, h.seated', h.state, (hsame _ _).trans h.subscription, h.offers⟩
  | @made w s sub accepted hsub _ hanswer hbecomes _ =>
    have hnot : ¬ place sub.handler.number = some p := by
      rw [h.seated.seat hsub]
      exact fun heq => hother (Option.some.inj heq)
    refine ⟨hseated, h.seated', ?_, ?_, ?_⟩
    · cases hanswer with
      | took htook => exact hagree.left _ _ _ _ _ hnot h.state htook
      | refused _ => exact h.state
    · exact (becomes_elsewhere hbecomes hother).trans h.subscription
    · rw [offersAt_snoc, if_neg hnot]
      exact h.offers

/-- The same offer on both sides, at whatever place. -/
theorem Matched.offered {t : Watched} {name : String} {payload : Payload} {version : Nat}
    {r next : Served (Listener H) σ} {r' next' : Served (Listener H) σ'}
    (h : Matched place p n R r r')
    (hoffered : Watcher.Offered react t name payload version r next)
    (hoffered' : Watcher.Offered react' t name payload version r' next') :
    Matched place p n R next next' := by
  by_cases hp : (⟨t, name⟩ : Place) = p
  · subst hp
    exact h.offered_here hagree hoffered hoffered'
  · have hleft := h.offered_elsewhere hagree hoffered hp
    exact (hleft.symm.offered_elsewhere hagree.symm hoffered' hp).symm

/-! ## Rounds -/

/-- Batches on one side only, of which those of the place have been offered before. -/
theorem Matched.batches_left (round : List Batch) {r : Round (Listener H) σ}
    {r' : Served (Listener H) σ'} (h : Matched place p n R r.toServed r')
    (hround : ∀ b ∈ round, (⟨.directory, b.directory⟩ : Place) = p →
      r.watcher.HasReached .directory b.directory b.version) :
    Matched place p n R (round.foldl (Watcher.offerBatch react) r).toServed r' := by
  induction round generalizing r with
  | nil => exact h
  | cons b rest ih =>
    have hoffered := Watcher.offered_offerBatch react r b
    refine ih ?_ fun c hc hp => hoffered.keeps (hround c (List.mem_cons_of_mem _ hc) hp)
    by_cases hp : (⟨.directory, b.directory⟩ : Place) = p
    · exact h.offered_again hoffered (hround b List.mem_cons_self hp)
    · exact h.offered_elsewhere hagree hoffered hp

/-- Batches on both sides, in any order, of which the only one of the place is in both. -/
theorem Matched.batches_around {b : Batch} {round round' : List Batch} (hb : b ∈ round)
    (hb' : b ∈ round')
    (hround : ∀ c ∈ round, (⟨.directory, c.directory⟩ : Place) = p → c = b)
    (hround' : ∀ c ∈ round', (⟨.directory, c.directory⟩ : Place) = p → c = b)
    {r : Round (Listener H) σ} {r' : Round (Listener H) σ'}
    (h : Matched place p n R r.toServed r'.toServed) :
    Matched place p n R (round.foldl (Watcher.offerBatch react) r).toServed
      (round'.foldl (Watcher.offerBatch react') r').toServed := by
  obtain ⟨pre, post, rfl, hpre⟩ := List.eq_append_cons_of_mem hb
  obtain ⟨pre', post', rfl, hpre'⟩ := List.eq_append_cons_of_mem hb'
  simp only [List.foldl_append, List.foldl_cons]
  -- Before `b` both sides visit other places only, and after it `b` is nothing new.
  have hbefore : Matched place p n R (pre.foldl (Watcher.offerBatch react) r).toServed
      r'.toServed :=
    h.batches_left hagree pre fun c hc hp =>
      absurd (hround c (List.mem_append_left _ hc) hp ▸ hc) hpre
  have hbefore' : Matched place p n R (pre.foldl (Watcher.offerBatch react) r).toServed
      (pre'.foldl (Watcher.offerBatch react') r').toServed :=
    (hbefore.symm.batches_left hagree.symm pre' fun c hc hp =>
      absurd (hround' c (List.mem_append_left _ hc) hp ▸ hc) hpre').symm
  have hoffered := Watcher.offered_offerBatch react (pre.foldl (Watcher.offerBatch react) r) b
  have hoffered' :=
    Watcher.offered_offerBatch react' (pre'.foldl (Watcher.offerBatch react') r') b
  have hnow := hbefore'.offered hagree hoffered hoffered'
  have hafter := hnow.batches_left hagree post fun c hc hp => by
    rw [hround c (List.mem_append_right _ (List.mem_cons_of_mem _ hc)) hp]
    exact hoffered.reaches
  exact (hafter.symm.batches_left hagree.symm post' fun c hc hp => by
    rw [hround' c (List.mem_append_right _ (List.mem_cons_of_mem _ hc)) hp]
    exact hoffered'.reaches).symm

/-- A round over the same entries, with the directories visited in any order on either side. -/
theorem Matched.batches_any_order (entries : List Entry) (tour tour' : Tour)
    {w w' : Watcher (Listener H)} {r : Round (Listener H) σ} {r' : Round (Listener H) σ'}
    (h : Matched place p n R r.toServed r'.toServed) (hsame : w.SameHandlers r.watcher)
    (hsame' : w'.SameHandlers r'.watcher) :
    Matched place p n R
      ((tour.visit (batches entries w.directories.keys)).foldl (Watcher.offerBatch react)
        r).toServed
      ((tour'.visit (batches entries w'.directories.keys)).foldl (Watcher.offerBatch react')
        r').toServed := by
  have hmem : ∀ {tour : Tour} {directories : List String} {c : Batch},
      c ∈ tour.visit (batches entries directories) ↔
        c.directory ∈ directories ∧ batchOf? entries c.directory = some c := fun {tour _ _} =>
    (tour.perm _).mem_iff.trans mem_batches
  have hkeys : ∀ {v : Watcher (Listener H)} {name : String},
      name ∈ v.directories.keys ↔ (v.subscription? .directory name).isSome = true := fun {v name} =>
    v.directories.mem_keys_iff name
  by_cases hserved : ∃ b, (⟨.directory, b.directory⟩ : Place) = p ∧
      batchOf? entries b.directory = some b ∧
      (r.watcher.subscription? .directory b.directory).isSome = true
  · -- The subscriber of the place has a batch, which both rounds come to.
    obtain ⟨b, rfl, hb, hsub⟩ := hserved
    have hsub' : (r'.watcher.subscription? .directory b.directory).isSome = true :=
      h.subscription ▸ hsub
    have honly : ∀ c, batchOf? entries c.directory = some c →
        (⟨.directory, c.directory⟩ : Place) = ⟨.directory, b.directory⟩ → c = b := by
      intro c hc hplace
      rw [show c.directory = b.directory from congrArg Place.name hplace] at hc
      exact Option.some.inj (hc.symm.trans hb)
    refine h.batches_around hagree (hmem.mpr ⟨?_, hb⟩) (hmem.mpr ⟨?_, hb⟩)
      (fun c hc hplace => ?_) fun c hc hplace => ?_
    · exact hkeys.mpr (hsame.after ▸ hsub)
    · exact hkeys.mpr (hsame'.after ▸ hsub')
    · exact honly c (hmem.mp hc).2 hplace
    · exact honly c (hmem.mp hc).2 hplace
  · -- Nobody at the place waits for any of the batches, on either side.
    have hleft := h.batches_left hagree (tour.visit (batches entries w.directories.keys))
      fun c hc hplace sub hsub =>
        absurd ⟨c, hplace, (hmem.mp hc).2, Option.isSome_iff_exists.mpr ⟨sub, hsub⟩⟩ hserved
    refine (hleft.symm.batches_left hagree.symm _ fun c hc hplace sub hsub => ?_).symm
    subst hplace
    exact absurd ⟨c, rfl, (hmem.mp hc).2,
      Option.isSome_iff_exists.mpr ⟨sub, h.subscription.trans hsub⟩⟩ hserved

/-- A dispatch of the same listing on both sides. -/
theorem Matched.dispatch (tour tour' : Tour) (listing : Listing) {w w' : Watcher (Listener H)}
    {s : σ} {s' : σ'} (h : Matched place p n R ⟨w, s, []⟩ ⟨w', s', []⟩) :
    Matched place p n R (w.dispatch react tour.visit listing s).toServed
      (w'.dispatch react' tour'.visit listing s').toServed := by
  let I (r : Round (Listener H) σ) (r' : Round (Listener H) σ') : Prop :=
    Matched place p n R r.toServed r'.toServed ∧ w.SameHandlers r.watcher ∧
      w'.SameHandlers r'.watcher
  have hentries : I (listing.entries.foldl (Watcher.offerEntry react) (.start w s))
      (listing.entries.foldl (Watcher.offerEntry react') (.start w' s')) := by
    refine List.foldl_rel ⟨h, .refl w, .refl w'⟩ ?_
    rintro e - r r' ⟨hr, hsame, hsame'⟩
    have hoffered := Watcher.offered_offerEntry react r e
    have hoffered' := Watcher.offered_offerEntry react' r' e
    exact ⟨hr.offered hagree hoffered hoffered', hsame.trans hoffered.sameHandlers,
      hsame'.trans hoffered'.sameHandlers⟩
  obtain ⟨hmatched, hsame, hsame'⟩ := hentries
  exact hmatched.batches_any_order hagree listing.entries tour tour' hsame hsame'

/-! ## Registrations -/

/-- A registration at another place leaves this one as it was. -/
theorem registered_elsewhere {t : Watched} {name : String} {handler : H}
    {fetched : Option (Payload × Nat)} {w : Watcher (Listener H)} {s : σ}
    {r : Served (Listener H) σ}
    (h : Watcher.Registered react t name ⟨n, handler⟩ w s fetched r)
    (hplace : place n = some ⟨t, name⟩) (hother : ⟨t, name⟩ ≠ p) :
    (∀ s', R s s' → R r.state s') ∧
      r.watcher.subscription? p.watched p.name = w.subscription? p.watched p.name ∧
      offersAt place p r.offers = [] := by
  have hnot : ¬ place n = some p := by
    rw [hplace]
    exact fun heq => hother (Option.some.inj heq)
  have hoffers : ∀ payload version accepted,
      offersAt place p [(⟨⟨n, handler⟩, payload, version, accepted⟩ : Offer (Listener H))] = [] :=
    fun _ _ _ => by simpa [offersAt] using hnot
  cases h with
  | declined => exact ⟨fun _ hR => hR, rfl, rfl⟩
  | awaited hbecomes _ => exact ⟨fun _ hR => hR, becomes_elsewhere hbecomes hother, rfl⟩
  | refused _ => exact ⟨fun _ hR => hR, rfl, hoffers _ _ _⟩
  | taken htook hbecomes _ =>
    exact ⟨fun s' hR => hagree.left _ _ _ _ _ hnot hR htook, becomes_elsewhere hbecomes hother,
      hoffers _ _ _⟩

/-- The same registration on both sides. Where nothing was fetched, it is for the caller to
show that either both watchers wait for a first value or neither does. -/
theorem Matched.registered {t : Watched} {name : String} {handler : H}
    {fetched : Option (Payload × Nat)} {w w' : Watcher (Listener H)} {s : σ} {s' : σ'}
    {r : Served (Listener H) σ} {r' : Served (Listener H) σ'}
    (h : Matched place p n R ⟨w, s, []⟩ ⟨w', s', []⟩)
    (hregistered : Watcher.Registered react t name ⟨n, handler⟩ w s fetched r)
    (hregistered' : Watcher.Registered react' t name ⟨n, handler⟩ w' s' fetched r')
    (hplace : place n = some ⟨t, name⟩)
    (hnone : fetched = none → w.subscription? t name = w'.subscription? t name →
      r.watcher.subscription? t name = r'.watcher.subscription? t name) :
    Matched place p (n + 1) R r r' := by
  have hseated := Seated.of_registered hregistered hplace h.seated
  have hseated' := Seated.of_registered hregistered' hplace h.seated'
  by_cases hp : (⟨t, name⟩ : Place) = p
  · subst hp
    cases fetched with
    | none =>
      obtain ⟨hstate, hoffers⟩ := hregistered.of_none
      obtain ⟨hstate', hoffers'⟩ := hregistered'.of_none
      refine ⟨hseated, hseated', ?_, hnone rfl h.subscription, by rw [hoffers, hoffers']⟩
      rw [hstate, hstate']
      exact h.state
    | some fetched =>
      obtain ⟨payload, version⟩ := fetched
      have halike := hagree.own ⟨n, handler⟩ payload s s' hplace h.state
      cases hregistered with
      | refused hrefused =>
        cases hregistered' with
        | refused _ => exact ⟨hseated, hseated', h.state, h.subscription, rfl⟩
        | taken htook' _ _ =>
          rw [hrefused, htook'] at halike
          cases halike
      | taken htook hbecomes _ =>
        cases hregistered' with
        | refused hrefused' =>
          rw [htook, hrefused'] at halike
          cases halike
        | taken htook' hbecomes' _ =>
          rw [htook, htook'] at halike
          cases halike with
          | took hR =>
            exact ⟨hseated, hseated', hR, hbecomes.self.trans hbecomes'.self.symm, rfl⟩
  · obtain ⟨hstate, hsub, hoffers⟩ := registered_elsewhere hagree hregistered hplace hp
    obtain ⟨hstate', hsub', hoffers'⟩ := registered_elsewhere hagree.symm hregistered' hplace hp
    exact ⟨hseated, hseated', hstate' _ (hstate _ h.state),
      hsub.trans (h.subscription.trans hsub'.symm), hoffers.trans hoffers'.symm⟩

theorem Matched.subscribeKey {name : String} {tolerant : Bool} {handler : H}
    {read : Except StoreError (Option Entry)} {w w' : Watcher (Listener H)} {s : σ} {s' : σ'}
    (h : Matched place p n R ⟨w, s, []⟩ ⟨w', s', []⟩)
    (hname : w'.fullKey name = w.fullKey name) (hplace : place n = some ⟨.key, w.fullKey name⟩) :
    Matched place p (n + 1) R (w.subscribeKey react name tolerant ⟨n, handler⟩ read s).2
      (w'.subscribeKey react' name tolerant ⟨n, handler⟩ read s').2 := by
  have hregistered' :=
    Watcher.registered_subscribeKey react' w' name tolerant ⟨n, handler⟩ read s'
  rw [hname] at hregistered'
  refine h.registered hagree (Watcher.registered_subscribeKey ..) hregistered' hplace ?_
  have hstart : ∀ {v : Watcher (Listener H)} {sub : Subscription (Listener H)},
      ({ v with keys := v.keys.insert (w.fullKey name) sub } : Watcher (Listener H)).subscription?
        .key (w.fullKey name) = some sub := fun {v sub} => (Watcher.becomes_keys v _ sub).self
  intro hnone hsame
  unfold Watcher.subscribeKey
  rw [hname]
  rcases read with why | _ | e
  · cases tolerant with
    | true => exact hstart.trans hstart.symm
    | false => exact hsame
  · cases tolerant with
    | true => exact hstart.trans hstart.symm
    | false => exact hsame
  · cases hnone

theorem Matched.subscribeDirectory {name : String} {handler : H}
    {read : Except StoreError Listing} {w w' : Watcher (Listener H)} {s : σ} {s' : σ'}
    (h : Matched place p n R ⟨w, s, []⟩ ⟨w', s', []⟩)
    (hname : w'.fullKey name = w.fullKey name)
    (hplace : place n = some ⟨.directory, w.fullKey name⟩) :
    Matched place p (n + 1) R (w.subscribeDirectory react name ⟨n, handler⟩ read s).2
      (w'.subscribeDirectory react' name ⟨n, handler⟩ read s').2 := by
  have hregistered' := Watcher.registered_subscribeDirectory react' w' name ⟨n, handler⟩ read s'
  rw [hname] at hregistered'
  refine h.registered hagree (Watcher.registered_subscribeDirectory ..) hregistered' hplace ?_
  intro hnone hsame
  rcases read with why | listing
  · exact hsame
  · cases hnone

end

/-! ## Desks -/

/-- Two desks have served the same calls in order. At a place they have the same subscription,
and each call has led to the same offers there. -/
structure Parallel (space : String) (all : List (Call H)) (p : Place) (R : σ → σ' → Prop)
    (x : Desk H σ) (x' : Desk H σ') : Prop where
  inOrder : x.InOrder space all
  inOrder' : x'.InOrder space all
  state : R x.state x'.state
  subscription :
    x.watcher.subscription? p.watched p.name = x'.watcher.subscription? p.watched p.name
  offers : x.history.map (fun h => offersAt (Call.placeOf space all) p h.2) =
    x'.history.map fun h => offersAt (Call.placeOf space all) p h.2

variable {space : String} {all : List (Call H)} {x : Desk H σ} {x' : Desk H σ'}

theorem Parallel.length (h : Parallel space all p R x x') :
    x'.history.length = x.history.length := by
  have hlength := congrArg List.length h.offers
  rw [List.length_map, List.length_map] at hlength
  exact hlength.symm

theorem Parallel.matched (h : Parallel space all p R x x') :
    Matched (Call.placeOf space all) p x.history.length R ⟨x.watcher, x.state, []⟩
      ⟨x'.watcher, x'.state, []⟩ :=
  ⟨h.inOrder.orderly.seated, h.length ▸ h.inOrder'.orderly.seated, h.state, h.subscription, rfl⟩

theorem Parallel.serve (h : Parallel space all p R x x') {m : Conduct H σ} {m' : Conduct H σ'}
    (hagree : ∀ k, Agree (fun l => Call.placeOf space all l.number = some p) R (m.react k)
      (m'.react k))
    {c : Call H} (hc : all[x.history.length]? = some c) :
    ∃ n, Matched (Call.placeOf space all) p n R (x.serve m c) (x'.serve m' c) := by
  have hspace : x'.watcher.space = x.watcher.space := h.inOrder'.home.trans h.inOrder.home.symm
  have hname : ∀ name, x'.watcher.fullKey name = x.watcher.fullKey name := fun name => by
    rw [Watcher.fullKey, Watcher.fullKey, hspace]
  have hplace := fun p => h.inOrder.place? hc (p := p)
  unfold Desk.serve Desk.round
  simp only [h.length]
  cases c with
  | listenKey name tolerant handler read =>
    exact ⟨_, h.matched.subscribeKey (hagree _) (hname name) (hplace _ rfl)⟩
  | listenDirectory name handler read =>
    exact ⟨_, h.matched.subscribeDirectory (hagree _) (hname name) (hplace _ rfl)⟩
  | dispatch listing => exact ⟨_, h.matched.dispatch (hagree _) _ _ listing⟩

theorem Parallel.step (h : Parallel space all p R x x') {m : Conduct H σ} {m' : Conduct H σ'}
    (hagree : ∀ k, Agree (fun l => Call.placeOf space all l.number = some p) R (m.react k)
      (m'.react k))
    {c : Call H} (hc : all[x.history.length]? = some c) :
    Parallel space all p R (x.step m c) (x'.step m' c) := by
  obtain ⟨n, hserved⟩ := h.serve hagree hc
  refine ⟨h.inOrder.step m hc, h.inOrder'.step m' (h.length ▸ hc), hserved.state,
    hserved.subscription, ?_⟩
  simp only [Desk.step, List.map_append, List.map_cons, List.map_nil, h.offers, hserved.offers]

/-- Two runs over the same calls, with handlers that agree at one place: there they lead to the
same subscription and, call by call, to the same offers with the same answers. -/
theorem others_cannot_influence (m : Conduct H σ) (m' : Conduct H σ') (space : String) (s : σ)
    (s' : σ') (calls : List (Call H)) (t : Watched) (name : String) (R : σ → σ' → Prop)
    (hstart : R s s')
    (hagree : ∀ k, Agree (fun l => Call.placeOf space calls l.number = some ⟨t, name⟩) R
      (m.react k) (m'.react k)) :
    let x := (Desk.start space s).run m calls
    let x' := (Desk.start space s').run m' calls
    let heard (offers : List (Offer (Listener H))) :=
      offersAt (Call.placeOf space calls) ⟨t, name⟩ offers
    x.history.map (fun h => heard h.2) = x'.history.map (fun h => heard h.2) ∧
      x.watcher.subscription? t name = x'.watcher.subscription? t name := by
  intro x x' heard
  have hparallel : Parallel space calls ⟨t, name⟩ R x x' :=
    Desk.run_together (fun _ _ _ hc h => h.step hagree hc)
      ⟨Desk.inOrder_start space calls s, Desk.inOrder_start space calls s', hstart, by cases t <;> rfl, rfl⟩
  exact ⟨hparallel.offers, hparallel.subscription⟩

/-- A directory that is visited last, after others that take everything, is served as it is
when it is visited first and one of them refuses even its first load. -/
theorem directory_served_beside_refusals :
    let first : Listing := ⟨[⟨"gate/limits/a", [1], 1⟩], 1⟩
    let second : Listing := ⟨[⟨"gate/limits/a", [2], 2⟩], 2⟩
    let calls : List (Call Unit) :=
      [.listenDirectory "" () (.ok first), .listenDirectory "limits" () (.ok first),
        .listenDirectory "limits/" () (.ok first), .dispatch second]
    let willing : Conduct Unit Unit := ⟨fun _ _ _ _ => .ok (), fun _ => ⟨id, fun _ => .refl _⟩⟩
    let unwilling : Conduct Unit Unit :=
      ⟨fun _ l _ _ => if l.number = 0 then .error (.stated "no") else .ok (),
        fun _ => ⟨List.reverse, List.reverse_perm⟩⟩
    let x := (Desk.start "gate" ()).run willing calls
    let x' := (Desk.start "gate" ()).run unwilling calls
    let heard (offers : List (Offer (Listener Unit))) :=
      offersAt (Call.placeOf "gate" calls) ⟨.directory, "gate/limits/"⟩ offers
    x.rounds.map (·.map (·.handler.number)) = [[0, 1, 2]] ∧
      x'.rounds.map (·.map (·.handler.number)) = [[2, 1]] ∧
      x.history.map (fun h => heard h.2) = x'.history.map (fun h => heard h.2) ∧
      x.watcher.subscription? .directory "gate/limits/" =
        x'.watcher.subscription? .directory "gate/limits/" := by
  intro first second calls willing unwilling x x' heard
  have hmine : ¬ Call.placeOf "gate" calls 0 = some ⟨.directory, "gate/limits/"⟩ := by
    decide +kernel
  refine ⟨by decide +kernel, by decide +kernel,
    others_cannot_influence willing unwilling "gate" () () calls .directory "gate/limits/"
      (fun _ _ => True) trivial fun k => ⟨?_, fun _ _ _ _ _ _ _ _ => trivial,
        fun _ _ _ _ _ _ _ _ => trivial⟩⟩
  intro l payload s s' hl _
  have hnumber : l.number ≠ 0 := fun hzero => hmine (hzero ▸ hl)
  simp only [willing, unwilling, if_neg hnumber]
  exact .took trivial

end AdmissionGate.Watch
