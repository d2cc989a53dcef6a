-- What is handed out, and as of when. Every offer of a course shows the store
-- at one of its indexes: the one it has at a registration, or the one at
-- which the listing of a dispatch was taken, however long ago that was.
import AdmissionGate.Proofs.Store.History
import AdmissionGate.Proofs.Watch.Course

namespace AdmissionGate.Watch

variable {H σ : Type}

/-! ## Courses over time -/

/-- The changes of the store among some moves. -/
def changes (moves : List (Move H)) : List Change :=
  moves.filterMap fun
    | .change c => some c
    | _ => none

/-- What an empty store had in a directory at an index, in the course of some changes. -/
def directoryAt (changes : List Change) (directory : String) (i : Nat) : List Entry :=
  (Store.empty.asOf i changes).under directory

theorem directoryAt_append {cs : List Change} {i : Nat} (h : i ≤ (Store.empty.after cs).index)
    (directory : String) (more : List Change) :
    directoryAt (cs ++ more) directory i = directoryAt cs directory i :=
  Store.under_congr (Store.entries_asOf_append h more) directory

theorem directoryAt_after (cs : List Change) (directory : String) :
    directoryAt cs directory (Store.empty.after cs).index =
      (Store.empty.after cs).under directory := by
  unfold directoryAt
  rw [Store.asOf_of_after_le (Nat.le_refl _)]

theorem mem_directoryAt {cs : List Change} {directory : String} {i : Nat} {e : Entry} :
    e ∈ directoryAt cs directory i ↔
      e ∈ (Store.empty.asOf i cs).entries ∧ Text.startsWith e.key directory = true :=
  Store.mem_under_iff (Store.sound_empty.asOf i cs).ordered directory e

/-- The store is what some changes have made of it, and the taken listings show the namespace at
their indexes. -/
structure Dated (cs : List Change) (x : Course H σ) : Prop where
  store : x.store = Store.empty.after cs
  index : ∀ listing ∈ x.taken, listing.lastIndex ≤ x.store.index
  entries : ∀ listing ∈ x.taken,
    listing.entries = directoryAt cs x.watcher.stem listing.lastIndex

theorem dated_start (space : String) (s : σ) : Dated [] (Course.start space s : Course H σ) := by
  refine ⟨rfl, ?_, ?_⟩ <;> intro listing hlisting <;> cases hlisting

/-- What does not touch the store or the taken listings keeps them dated. -/
theorem Dated.of_same {cs : List Change} {x y : Course H σ} (h : Dated cs x)
    (hstore : y.store = x.store) (htaken : y.taken = x.taken)
    (hspace : y.watcher.space = x.watcher.space) : Dated cs y := by
  have hstem : y.watcher.stem = x.watcher.stem := by
    unfold Watcher.stem
    rw [hspace]
  refine ⟨hstore.trans h.store, ?_, ?_⟩
  · rw [htaken, hstore]
    exact h.index
  · rw [htaken, hstem]
    exact h.entries

theorem Dated.step {cs : List Change} {x : Course H σ} (h : Dated cs x) (react : Reaction H σ)
    (m : Move H) : Dated (cs ++ changes [m]) (x.step react m) := by
  have hspace := Course.space_step react x m
  cases m with
  | change c =>
    refine ⟨?_, ?_, ?_⟩
    · show x.store.apply c = Store.empty.after (cs ++ [c])
      rw [Store.after_append, ← h.store]
      rfl
    · intro listing hlisting
      exact Nat.le_trans (h.index listing hlisting) (Store.index_le_apply _ _)
    · intro listing hlisting
      rw [directoryAt_append (h.store ▸ h.index listing hlisting)]
      exact h.entries listing hlisting
  | listenKey name tolerant handler =>
    show Dated (cs ++ []) _
    rw [List.append_nil]
    exact h.of_same rfl rfl hspace
  | listenDirectory name handler =>
    show Dated (cs ++ []) _
    rw [List.append_nil]
    exact h.of_same rfl rfl hspace
  | poll =>
    show Dated (cs ++ []) _
    rw [List.append_nil]
    simp only [Course.step]
    unfold Store.list Store.answer
    split
    next listing hlist =>
      split at hlist <;> cases hlist
      refine ⟨h.store, ?_, ?_⟩ <;> intro l hl <;> rcases List.mem_append.mp hl with hl | hl
      · exact h.index l hl
      · rw [List.mem_singleton.mp hl]
        exact Nat.le_refl _
      · exact h.entries l hl
      · rw [List.mem_singleton.mp hl]
        show x.store.under _ = directoryAt cs _ x.store.index
        rw [h.store, directoryAt_after]
    next => exact h
  | dispatch listing tour =>
    show Dated (cs ++ []) _
    rw [List.append_nil]
    refine h.of_same ?_ ?_ hspace <;> simp only [Course.step] <;> split <;> rfl

/-! ## Offers with their index -/

/-- An offer with the index of the store that it shows. -/
structure Handing (H : Type) where
  index : Nat
  offer : Offer H

namespace Course

/-- The index of what a move hands out. -/
def shownIndex (x : Course H σ) : Move H → Nat
  | .dispatch listing _ => listing.lastIndex
  | _ => x.store.index

/-- What a move hands out. -/
def handed (react : Reaction H σ) (x : Course H σ) (m : Move H) : List (Handing H) :=
  ((x.step react m).offers.drop x.offers.length).map (Handing.mk (x.shownIndex m))

/-- What some moves hand out, in order. -/
def handings (react : Reaction H σ) : Course H σ → List (Move H) → List (Handing H)
  | _, [] => []
  | x, m :: moves => x.handed react m ++ handings react (x.step react m) moves

theorem offers_step (react : Reaction H σ) (x : Course H σ) (m : Move H) :
    (x.step react m).offers = x.offers ++ (x.handed react m).map (·.offer) := by
  have hgrows : ∃ more, (x.step react m).offers = x.offers ++ more := by
    cases m with
    | change c => exact ⟨[], (List.append_nil _).symm⟩
    | listenKey name tolerant handler => exact ⟨_, rfl⟩
    | listenDirectory name handler => exact ⟨_, rfl⟩
    | poll =>
      simp only [step]
      split <;> exact ⟨[], (List.append_nil _).symm⟩
    | dispatch listing tour =>
      simp only [step]
      split
      · exact ⟨_, rfl⟩
      · exact ⟨[], (List.append_nil _).symm⟩
  obtain ⟨more, hmore⟩ := hgrows
  simp [handed, hmore, Function.comp_def]

theorem handed_of_served {react : Reaction H σ} {x : Course H σ} {m : Move H} {r : Served H σ}
    (h : x.step react m = x.served r) :
    x.handed react m = r.offers.map (Handing.mk (x.shownIndex m)) := by
  simp [handed, h, served]

end Course

/-! ## Where registrations go -/

/-- What a move registers a handler for. -/
def Move.place? (w : Watcher (Listener H)) : Move H → Option Place
  | .listenKey name _ _ => some ⟨.key, w.fullKey name⟩
  | .listenDirectory name _ => some ⟨.directory, w.fullKey name⟩
  | _ => none

theorem Move.place?_congr {w w' : Watcher (Listener H)} (h : w'.space = w.space) (m : Move H) :
    m.place? w' = m.place? w := by
  cases m <;> simp only [Move.place?, Watcher.fullKey, h]

variable {place : Nat → Option Place} {n : Nat}

theorem Orderly.step {x : Course (Listener H) σ} (h : Orderly place n x.offers x.watcher)
    (react : Reaction (Listener H) σ) {m : Move H}
    (hplace : ∀ p, m.place? x.watcher = some p → place n = some p) :
    Orderly place (n + 1) (x.step react (m.map (Listener.mk n))).offers
      (x.step react (m.map (Listener.mk n))).watcher := by
  cases m with
  | change c => exact h.succ
  | listenKey name tolerant handler =>
    exact .of_registered (Watcher.registered_subscribeKey ..)
      (fun _ _ => watched_fetchedValue) (hplace _ rfl) h
  | listenDirectory name handler =>
    exact .of_registered (Watcher.registered_subscribeDirectory ..)
      (fun _ _ => watched_fetchedSnapshot) (hplace _ rfl) h
  | poll =>
    simp only [Move.map, Course.step]
    split <;> exact h.succ
  | dispatch listing tour =>
    simp only [Move.map, Course.step]
    split
    · exact (h.of_dispatch react tour.visit listing x.state).succ
    · exact h.succ

/-! ## Directories shown as they were -/

/-- A handing shows a directory as it was at its index. -/
structure Shows (cs : List Change) (directory : String) (h : Handing (Listener H)) : Prop where
  index : h.index ≤ (Store.empty.after cs).index
  payload : h.offer.payload = .snapshot (valuesOf (directoryAt cs directory h.index))
  version : h.offer.version = maxVersion (directoryAt cs directory h.index)

theorem Shows.append {cs : List Change} {directory : String} {h : Handing (Listener H)}
    (hshows : Shows cs directory h) (more : List Change) : Shows (cs ++ more) directory h := by
  obtain ⟨hindex, hpayload, hversion⟩ := hshows
  refine ⟨?_, ?_, ?_⟩
  · rw [Store.after_append]
    exact Nat.le_trans hindex (Store.index_le_after _ more)
  · rw [directoryAt_append hindex]
    exact hpayload
  · rw [directoryAt_append hindex]
    exact hversion

/-- All handings to subscribers of directories show these as they were. -/
def AllShow (place : Nat → Option Place) (cs : List Change) (log : List (Handing (Listener H))) :
    Prop :=
  ∀ h ∈ log, ∀ directory, place h.offer.handler.number = some ⟨.directory, directory⟩ →
    Shows cs directory h

theorem AllShow.append {cs : List Change} {log log' : List (Handing (Listener H))}
    (h : AllShow place cs log) (h' : AllShow place cs log') : AllShow place cs (log ++ log') := by
  intro a ha
  rcases List.mem_append.mp ha with ha | ha
  · exact h a ha
  · exact h' a ha

theorem allShow_nil (place : Nat → Option Place) (cs : List Change) :
    AllShow place cs ([] : List (Handing (Listener H))) := by
  intro h hmem
  cases hmem

/-- A batch of a listing holds what the directory had when the listing was taken. -/
theorem batch_shows {cs : List Change} {stem directory : String} {listing : Listing} {b : Batch}
    (hentries : listing.entries = directoryAt cs stem listing.lastIndex)
    (hstem : Text.startsWith directory stem = true)
    (hb : batchOf? listing.entries directory = some b) :
    b.values = valuesOf (directoryAt cs directory listing.lastIndex) ∧
      b.version = maxVersion (directoryAt cs directory listing.lastIndex) := by
  have hfilter : (listing.entries.filter fun e => Text.startsWith e.key directory) =
      directoryAt cs directory listing.lastIndex := by
    rw [hentries]
    exact filter_under (Store.sound_empty.asOf _ cs).ordered hstem
  rw [batchOf?_eq_some hb, hfilter]
  exact ⟨rfl, rfl⟩

theorem AllShow.of_offered {cs : List Change} {i : Nat} {react : Reaction (Listener H) σ}
    {t : Watched} {name : String} {payload : Payload} {version : Nat}
    {r r' : Served (Listener H) σ} (h : Watcher.Offered react t name payload version r r')
    (hseated : Seated place n r.watcher)
    (hshows : ∀ (l : Listener H) accepted, t = .directory →
      Shows cs name ⟨i, ⟨l, payload, version, accepted⟩⟩)
    (hr : AllShow place cs (r.offers.map (Handing.mk i))) :
    AllShow place cs (r'.offers.map (Handing.mk i)) := by
  cases h with
  | passed => exact hr
  | made hsub _ _ _ _ =>
    rw [List.map_append]
    refine hr.append ?_
    intro h hmem directory hplace
    rw [List.map_singleton, List.mem_singleton] at hmem
    rw [hmem] at hplace ⊢
    rw [hseated.seat hsub] at hplace
    cases hplace
    exact hshows _ _ rfl

theorem AllShow.of_registered {cs : List Change} {i : Nat} {react : Reaction (Listener H) σ}
    {t : Watched} {name : String} {handler : H} {w : Watcher (Listener H)} {s : σ}
    {fetched : Option (Payload × Nat)} {r : Served (Listener H) σ}
    (h : Watcher.Registered react t name ⟨n, handler⟩ w s fetched r)
    (hplace : place n = some ⟨t, name⟩)
    (hshows : ∀ (l : Listener H) accepted payload version, t = .directory →
      fetched = some (payload, version) →
      Shows cs name ⟨i, ⟨l, payload, version, accepted⟩⟩) :
    AllShow place cs (r.offers.map (Handing.mk i)) := by
  have hload : ∀ {payload : Payload} {version : Nat} (accepted : Bool),
      fetched = some (payload, version) →
      AllShow place cs [⟨i, ⟨⟨n, handler⟩, payload, version, accepted⟩⟩] := by
    intro payload version accepted hfetched h hmem directory hdirectory
    rw [List.mem_singleton.mp hmem] at hdirectory ⊢
    rw [hplace] at hdirectory
    cases hdirectory
    exact hshows _ _ _ _ rfl hfetched
  cases h with
  | declined => exact allShow_nil _ _
  | awaited => exact allShow_nil _ _
  | refused => exact hload false rfl
  | taken => exact hload true rfl

/-! ## The last thing a directory was handed -/

/-- Every subscriber of a directory was offered something, and stands at the version of the last
offer. -/
def Latest (offers : List (Offer (Listener H))) (w : Watcher (Listener H)) : Prop :=
  ∀ directory sub, w.subscription? .directory directory = some sub →
    ∃ o, lastOffer? sub.handler.number offers = some o ∧ o.version = sub.attempted

theorem Latest.of_offered {before : List (Offer (Listener H))} {react : Reaction (Listener H) σ}
    {t : Watched} {name : String} {payload : Payload} {version : Nat}
    {r r' : Served (Listener H) σ} (h : Watcher.Offered react t name payload version r r')
    (hdistinct : Distinct n r.watcher) (hr : Latest (before ++ r.offers) r.watcher) :
    Latest (before ++ r'.offers) r'.watcher := by
  intro directory sub' hsub'
  cases h with
  | passed _ hsame _ =>
    simp only at hsub' ⊢
    rw [hsame] at hsub'
    exact hr directory sub' hsub'
  | made hsub _ _ hbecomes _ =>
    simp only [← List.append_assoc] at hsub' ⊢
    rw [lastOffer?_snoc]
    rcases hbecomes.cases hsub' with ⟨_, _, rfl⟩ | ⟨hne, hold⟩
    · exact ⟨_, if_pos rfl, rfl⟩
    · rw [if_neg fun hnumber => hne (hdistinct.apart hsub hold hnumber)]
      exact hr directory sub' hold

theorem Latest.of_registered {offers : List (Offer (Listener H))}
    {react : Reaction (Listener H) σ} {t : Watched} {name : String} {handler : H}
    {w : Watcher (Listener H)} {s : σ} {fetched : Option (Payload × Nat)}
    {r : Served (Listener H) σ} (h : Watcher.Registered react t name ⟨n, handler⟩ w s fetched r)
    (hfetched : t = .directory → fetched ≠ none) (hdistinct : Distinct n w)
    (hw : Latest offers w) : Latest (offers ++ r.offers) r.watcher := by
  have hold : ∀ {directory : String} {sub : Subscription (Listener H)} (payload : Payload)
      (version : Nat) (accepted : Bool), w.subscription? .directory directory = some sub →
      ∃ o, lastOffer? sub.handler.number
          (offers ++ [⟨⟨n, handler⟩, payload, version, accepted⟩]) = some o ∧
        o.version = sub.attempted := by
    intro directory sub payload version accepted hsub
    rw [lastOffer?_snoc, if_neg (Nat.ne_of_gt (hdistinct.below hsub))]
    exact hw directory sub hsub
  intro directory sub' hsub'
  cases h with
  | declined =>
    rw [List.append_nil]
    exact hw directory sub' hsub'
  | awaited hbecomes _ =>
    rw [List.append_nil]
    rcases hbecomes.cases hsub' with ⟨rfl, _, _⟩ | ⟨_, hsub⟩
    · exact absurd rfl (hfetched rfl)
    · exact hw directory sub' hsub
  | refused _ => exact hold _ _ _ hsub'
  | taken _ hbecomes _ =>
    rcases hbecomes.cases hsub' with ⟨_, _, rfl⟩ | ⟨_, hsub⟩
    · rw [lastOffer?_snoc]
      exact ⟨_, if_pos rfl, rfl⟩
    · exact hold _ _ _ hsub

theorem Latest.of_dispatch {before : List (Offer (Listener H))} {w : Watcher (Listener H)}
    (h : Latest before w) (hdistinct : Distinct n w) (react : Reaction (Listener H) σ)
    (visit : List Batch → List Batch) (listing : Listing) (s : σ) :
    Latest (before ++ (w.dispatch react visit listing s).offers)
      (w.dispatch react visit listing s).watcher :=
  dispatch_offers h visit listing s fun hoffered _ hsame hr =>
    hr.of_offered hoffered (hdistinct.of_sameHandlers hsame)

theorem Latest.step {x : Course (Listener H) σ} (h : Latest x.offers x.watcher)
    (hdistinct : Distinct n x.watcher) (react : Reaction (Listener H) σ) (m : Move H) :
    Latest (x.step react (m.map (Listener.mk n))).offers
      (x.step react (m.map (Listener.mk n))).watcher := by
  cases m with
  | change c => exact h
  | listenKey name tolerant handler =>
    refine .of_registered (Watcher.registered_subscribeKey ..) ?_ hdistinct h
    intro ht
    cases ht
  | listenDirectory name handler =>
    simp only [Move.map, Course.step]
    cases hlist : x.store.list (x.watcher.fullKey name) with
    | error why =>
      show Latest (x.offers ++ []) x.watcher
      rw [List.append_nil]
      exact h
    | ok listing =>
      refine .of_registered (Watcher.registered_subscribeDirectory ..) ?_ hdistinct h
      intro _ hnone
      cases hnone
  | poll =>
    simp only [Move.map, Course.step]
    split <;> exact h
  | dispatch listing tour =>
    simp only [Move.map, Course.step]
    split
    · exact h.of_dispatch hdistinct react tour.visit listing x.state
    · exact h

/-! ## Courses of handings -/

/-- A course in which every directory is handed out as it was. -/
structure Told (place : Nat → Option Place) (n : Nat) (cs : List Change)
    (x : Course (Listener H) σ) (log : List (Handing (Listener H))) : Prop where
  sound : x.Sound
  dated : Dated cs x
  orderly : Orderly place n x.offers x.watcher
  offers : x.offers = log.map (·.offer)
  shows : AllShow place cs log
  latest : Latest x.offers x.watcher

theorem told_start (place : Nat → Option Place) (space : String) (s : σ) :
    Told place 0 [] (Course.start space s : Course (Listener H) σ) [] := by
  refine ⟨Course.sound_start space s, dated_start space s, orderly_start place space, rfl,
    allShow_nil place [], ?_⟩
  intro directory sub hsub
  cases hsub

/-- What a move hands out shows directories as they were. -/
theorem Told.allShow_handed {cs : List Change} {x : Course (Listener H) σ}
    {log : List (Handing (Listener H))} (h : Told place n cs x log)
    (react : Reaction (Listener H) σ) {m : Move H}
    (hplace : ∀ p, m.place? x.watcher = some p → place n = some p) :
    AllShow place cs (x.handed react (m.map (Listener.mk n))) := by
  obtain ⟨hsound, hdated, horderly, _, _, _⟩ := h
  have hquiet : ∀ {m : Move (Listener H)}, (x.step react m).offers = x.offers →
      AllShow place cs (x.handed react m) := by
    intro m hm
    unfold Course.handed
    rw [hm, List.drop_length]
    exact allShow_nil _ _
  cases m with
  | change c => exact hquiet rfl
  | listenKey name tolerant handler =>
    rw [Course.handed_of_served rfl]
    refine .of_registered (Watcher.registered_subscribeKey ..) (hplace _ rfl) ?_
    intro l accepted payload version ht
    cases ht
  | listenDirectory name handler =>
    rw [Course.handed_of_served rfl]
    refine .of_registered (Watcher.registered_subscribeDirectory ..) (hplace _ rfl) ?_
    intro l accepted payload version _ hfetched
    unfold Store.list Store.answer Watcher.fetchedSnapshot at hfetched
    split at hfetched <;> cases hfetched
    next listing hlist =>
      split at hlist <;> cases hlist
      refine ⟨Nat.le_of_eq (congrArg Store.index hdated.store), ?_, ?_⟩
      · show Payload.snapshot (valuesOf (x.store.under _)) = _
        simp only [Course.shownIndex, Move.map]
        rw [hdated.store, directoryAt_after]
      · show maxVersion (x.store.under _) = _
        simp only [Course.shownIndex, Move.map]
        rw [hdated.store, directoryAt_after]
  | poll =>
    refine hquiet ?_
    simp only [Move.map, Course.step]
    split <;> rfl
  | dispatch listing tour =>
    simp only [Move.map]
    by_cases htaken : listing ∈ x.taken
    · rw [Course.handed_of_served (Course.step_dispatch htaken)]
      let I (r : Round (Listener H) σ) : Prop :=
        AllShow place cs (r.offers.map (Handing.mk listing.lastIndex))
      refine (Watcher.dispatch_induction (I := I) ?_ ?_ ?_).2
      · exact allShow_nil _ _
      · intro r hsame hr e _
        refine hr.of_offered (Watcher.offered_offerEntry react r e)
          (horderly.seated.of_sameHandlers hsame) ?_
        intro l accepted ht
        cases ht
      · intro r hsame hr b hb
        have hbatch := mem_batches.mp ((tour.perm _).mem_iff.mp hb)
        have hstem : Text.startsWith b.directory x.watcher.stem = true := by
          obtain ⟨sub, hsub⟩ := Option.isSome_iff_exists.mp
            ((Table.mem_keys_iff _ _).mp hbatch.1)
          exact hsound.named .directory b.directory sub hsub
        obtain ⟨hvalues, hversion⟩ :=
          batch_shows (hdated.entries listing htaken) hstem hbatch.2
        refine hr.of_offered (Watcher.offered_offerBatch react r b)
          (horderly.seated.of_sameHandlers hsame) ?_
        intro l accepted _
        exact ⟨hdated.store ▸ hdated.index listing htaken, by rw [hvalues], hversion⟩
    · exact hquiet (by simp only [Course.step, if_neg htaken])

theorem Told.step {cs : List Change} {x : Course (Listener H) σ}
    {log : List (Handing (Listener H))} (h : Told place n cs x log)
    (react : Reaction (Listener H) σ) {m : Move H}
    (hplace : ∀ p, m.place? x.watcher = some p → place n = some p) :
    Told place (n + 1) (cs ++ changes [m]) (x.step react (m.map (Listener.mk n)))
      (log ++ x.handed react (m.map (Listener.mk n))) := by
  refine ⟨h.sound.step _ _, ?_, h.orderly.step react hplace, ?_, ?_,
    h.latest.step h.orderly.seated.toDistinct react m⟩
  · have hchanges : changes [m.map (Listener.mk n)] = changes [m] := by
      cases m <;> rfl
    rw [← hchanges]
    exact h.dated.step react _
  · rw [Course.offers_step, h.offers, List.map_append]
  · intro a ha directory hdirectory
    exact ((h.shows.append (h.allShow_handed react hplace)) a ha directory hdirectory).append _

theorem Told.run {cs : List Change} {x : Course (Listener H) σ}
    {log : List (Handing (Listener H))} (h : Told place n cs x log)
    (react : Reaction (Listener H) σ) {moves : List (Move H)}
    (hplace : ∀ i m p, moves[i]? = some m → m.place? x.watcher = some p →
      place (n + i) = some p) :
    Told place (n + moves.length) (cs ++ changes moves) (x.run react (numbered n moves))
      (log ++ x.handings react (numbered n moves)) := by
  induction moves generalizing n cs x log with
  | nil =>
    show Told place n (cs ++ []) x (log ++ [])
    rw [List.append_nil, List.append_nil]
    exact h
  | cons m moves ih =>
    have hnext := ih (h.step react (hplace 0 m · rfl)) ?_
    · have hchanges : changes (m :: moves) = changes [m] ++ changes moves := by
        rw [changes, changes, changes, ← List.filterMap_append]
        rfl
      rw [hchanges, ← List.append_assoc, List.length_cons, Nat.add_comm moves.length,
        ← Nat.add_assoc]
      simp only [numbered, Course.handings, ← List.append_assoc]
      exact hnext
    · -- Later moves keep their numbers, as the rest is numbered from the next one on.
      intro i m' p hm' hp
      rw [Move.place?_congr (Course.space_step react x _)] at hp
      rw [← hplace (i + 1) m' p hm' hp]
      congr 1
      omega

end AdmissionGate.Watch
