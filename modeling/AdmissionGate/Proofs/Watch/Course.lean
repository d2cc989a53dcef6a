-- Courses of events around a watcher over a store in memory: changes of the
-- store, registrations, polls that take a listing, and dispatches of listings
-- that were taken, each any number of times and in any order. A listing may
-- be out of date by the time it is dispatched.
import AdmissionGate.Proofs.Store.Versions
import AdmissionGate.Proofs.Watch.Batches
import AdmissionGate.Proofs.Watch.Listeners

namespace AdmissionGate.Watch

variable {H K σ : Type}

/-! ## Where a subscriber stands -/

/-- Where a subscriber of a key stands: it has not been offered a version yet, or it stands at
the version of an entry of the past for which `P` holds. -/
def StandsAt (s : Store) (name : String) (P : Entry → Prop) (sub : Subscription H) : Prop :=
  sub.attempted = 0 ∨ ∃ e, s.Past e ∧ e.key = name ∧ e.version = sub.attempted ∧ P e

theorem StandsAt.mono {s s' : Store} {name : String} {P P' : Entry → Prop} {sub : Subscription H}
    (h : StandsAt s name P sub) (hpast : ∀ e, s.Past e → s'.Past e) (hP : ∀ e, P e → P' e) :
    StandsAt s' name P' sub := by
  rcases h with hzero | ⟨e, he, hkey, hversion, hPe⟩
  · exact Or.inl hzero
  · exact Or.inr ⟨e, hpast e he, hkey, hversion, hP e hPe⟩

/-- A subscriber that has reached the stored version stands at the stored entry. -/
theorem StandsAt.current {s : Store} {name : String} {P : Entry → Prop} {sub : Subscription H}
    {d : Entry} (h : StandsAt s name P sub) (hs : s.Sound) (hd : s.find? name = some d)
    (hreached : d.version ≤ sub.attempted) : P d ∧ sub.attempted = d.version := by
  have hpos := hs.positive d (Store.mem_of_find? hd).1
  rcases h with hzero | ⟨e, he, rfl, hversion, hP⟩
  · omega
  · rw [← hversion] at hreached ⊢
    have heq := he.eq_of_le hd hreached
    exact ⟨heq ▸ hP, heq ▸ rfl⟩

/-! ## Courses -/

/-- Something that happens to the store, to the subscriptions, or in the poll loop. -/
inductive Move (H : Type) where
  | change (c : Change)
  | listenKey (name : String) (tolerant : Bool) (handler : H)
  | listenDirectory (name : String) (handler : H)
  | poll
  | dispatch (listing : Listing) (tour : Tour)

/-- A store, a watcher over it and what its handlers look after, with the listings that polls
have taken and all offers made so far. -/
structure Course (H σ : Type) where
  store : Store
  watcher : Watcher H
  state : σ
  taken : List Listing
  offers : List (Offer H)

namespace Course

/-- An empty store, and a watcher of a namespace without subscriptions. -/
def start (space : String) (s : σ) : Course H σ := ⟨Store.empty, Watcher.start space, s, [], []⟩

/-- The course with the watcher served. -/
def served (x : Course H σ) (r : Served H σ) : Course H σ :=
  { x with watcher := r.watcher, state := r.state, offers := x.offers ++ r.offers }

/-- The course after a move. A poll takes no listing while the store does not answer, and only
a listing that was taken can be dispatched. -/
def step (react : Reaction H σ) (x : Course H σ) : Move H → Course H σ
  | .change c => { x with store := x.store.apply c }
  | .listenKey name tolerant handler =>
    x.served (x.watcher.subscribeKey react name tolerant handler
      (x.store.get (x.watcher.fullKey name)) x.state).2
  | .listenDirectory name handler =>
    x.served (x.watcher.subscribeDirectory react name handler
      (x.store.list (x.watcher.fullKey name)) x.state).2
  | .poll =>
    match x.store.list x.watcher.stem with
    | .ok listing => { x with taken := x.taken ++ [listing] }
    | .error _ => x
  | .dispatch listing tour =>
    if listing ∈ x.taken then
      x.served (x.watcher.dispatch react tour.visit listing x.state).toServed
    else x

def run (react : Reaction H σ) (x : Course H σ) (moves : List (Move H)) : Course H σ :=
  moves.foldl (step react) x

/-! ## Names -/

theorem startsWith_fullKey (w : Watcher H) (name : String) :
    Text.startsWith (w.fullKey name) w.stem = true := by
  rw [Text.startsWith_iff]
  simp only [Watcher.fullKey, Watcher.stem, String.toList_append]
  exact List.prefix_append _ _

/-- Every subscription is to a name within the namespace. -/
def Named (w : Watcher H) : Prop :=
  ∀ t name sub, w.subscription? t name = some sub → Text.startsWith name w.stem = true

theorem Named.of_sameHandlers {w w' : Watcher H} (h : Named w) (hsame : w.SameHandlers w') :
    Named w' := by
  intro t name sub hsub
  obtain ⟨old, hold, _⟩ := hsame.before hsub
  rw [Watcher.stem, hsame.space]
  exact h t name old hold

theorem Named.of_becomes {w w' : Watcher H} {t : Watched} {name : String} {sub : Subscription H}
    (h : Named w) (hbecomes : w.Becomes w' t (w.fullKey name) sub) (hspace : w'.space = w.space) :
    Named w' := by
  intro t' name' sub' hsub'
  rw [Watcher.stem, hspace]
  rcases hbecomes.cases hsub' with ⟨_, rfl, _⟩ | ⟨_, hsub'⟩
  · exact startsWith_fullKey w name
  · exact h t' name' sub' hsub'

theorem Named.of_registered {react : Reaction H σ} {t : Watched} {name : String} {handler : H}
    {w : Watcher H} {s : σ} {fetched : Option (Payload × Nat)} {r : Served H σ}
    (h : Watcher.Registered react t (w.fullKey name) handler w s fetched r) (hw : Named w) :
    Named r.watcher := by
  cases h with
  | declined => exact hw
  | awaited hbecomes hspace => exact hw.of_becomes hbecomes hspace
  | refused _ => exact hw
  | taken _ hbecomes hspace => exact hw.of_becomes hbecomes hspace

/-! ## The invariant of a course -/

structure Sound (x : Course H σ) : Prop where
  store : x.store.Sound
  taken : ∀ listing ∈ x.taken, ∀ e ∈ listing.entries, x.store.Past e
  named : Named x.watcher

theorem sound_start (space : String) (s : σ) : Sound (start space s : Course H σ) := by
  refine ⟨Store.sound_empty, ?_, ?_⟩
  · intro listing hlisting
    cases hlisting
  · intro t name sub hsub
    cases t <;> cases hsub

theorem past_of_list {s : Store} {stem : String} {listing : Listing} (h : s.Sound)
    (hlist : s.list stem = .ok listing) : ∀ e ∈ listing.entries, s.Past e := by
  unfold Store.list Store.answer at hlist
  split at hlist
  · cases hlist
    intro e he
    exact h.past ((Store.mem_under_iff h.ordered stem e).mp he).1
  · cases hlist

/-- What a read of a key has for its subscriber is an entry of that key. -/
theorem past_of_fetchedValue {s : Store} {key : String} {payload : Payload} {version : Nat}
    (h : s.Sound) (hfetched : Watcher.fetchedValue (s.get key) = some (payload, version)) :
    ∃ e, s.Past e ∧ e.key = key ∧ e.version = version ∧ payload = .value e.value := by
  unfold Store.get Store.answer at hfetched
  split at hfetched
  · cases hfind : s.find? key with
    | none =>
      rw [hfind] at hfetched
      cases hfetched
    | some e =>
      rw [hfind] at hfetched
      cases hfetched
      obtain ⟨hmem, hkey⟩ := Store.mem_of_find? hfind
      exact ⟨e, h.past hmem, hkey, rfl, rfl⟩
  · cases hfetched

theorem Sound.step {x : Course H σ} (h : Sound x) (react : Reaction H σ) (m : Move H) :
    Sound (x.step react m) := by
  obtain ⟨hstore, htaken, hnamed⟩ := h
  cases m with
  | change c =>
    refine ⟨hstore.apply c, ?_, hnamed⟩
    intro listing hlisting e he
    exact (htaken listing hlisting e he).apply c
  | listenKey name tolerant handler =>
    exact ⟨hstore, htaken, Named.of_registered (Watcher.registered_subscribeKey ..) hnamed⟩
  | listenDirectory name handler =>
    exact ⟨hstore, htaken, Named.of_registered (Watcher.registered_subscribeDirectory ..) hnamed⟩
  | poll =>
    simp only [Course.step]
    split
    next listing hlist =>
      refine ⟨hstore, ?_, hnamed⟩
      intro l hl
      rcases List.mem_append.mp hl with hl | hl
      · exact htaken l hl
      · rw [List.mem_singleton.mp hl]
        exact past_of_list hstore hlist
    next => exact ⟨hstore, htaken, hnamed⟩
  | dispatch listing tour =>
    simp only [Course.step]
    split
    · exact ⟨hstore, htaken, hnamed.of_sameHandlers (Watcher.sameHandlers_dispatch ..)⟩
    · exact ⟨hstore, htaken, hnamed⟩

theorem space_step (react : Reaction H σ) (x : Course H σ) (m : Move H) :
    (x.step react m).watcher.space = x.watcher.space := by
  cases m with
  | change c => rfl
  | listenKey name tolerant handler => exact (Watcher.registered_subscribeKey ..).space
  | listenDirectory name handler => exact (Watcher.registered_subscribeDirectory ..).space
  | poll =>
    simp only [Course.step]
    split <;> rfl
  | dispatch listing tour =>
    simp only [Course.step]
    split
    · exact (Watcher.sameHandlers_dispatch ..).space
    · rfl

/-! ## Dispatches of current listings -/

theorem step_dispatch {react : Reaction H σ} {x : Course H σ} {listing : Listing} {tour : Tour}
    (h : listing ∈ x.taken) : x.step react (.dispatch listing tour) =
      x.served (x.watcher.dispatch react tour.visit listing x.state).toServed := if_pos h

/-- A dispatch of what the store holds now brings every subscriber of a stored key at least to
the stored version. -/
theorem Sound.reached_current {react : Reaction H σ} {x : Course H σ} {listing : Listing}
    {tour : Tour} (h : Sound x) (htaken : listing ∈ x.taken)
    (hnow : listing.entries = (x.store.snapshot x.watcher.stem).entries) {name : String}
    {sub : Subscription H} {e : Entry}
    (hsub : (x.step react (.dispatch listing tour)).watcher.subscription? .key name = some sub)
    (he : x.store.find? name = some e) : e.version ≤ sub.attempted := by
  obtain ⟨hmem, rfl⟩ := Store.mem_of_find? he
  have hnamed : Text.startsWith e.key x.watcher.stem = true := by
    have hafter : Sound (x.step react (.dispatch listing tour)) := h.step react _
    have hprefix := hafter.named .key e.key sub hsub
    rw [step_dispatch htaken] at hprefix
    have hsame := Watcher.sameHandlers_dispatch react tour.visit x.watcher listing x.state
    rw [Watcher.stem, ← hsame.space]
    exact hprefix
  have hlisted : e ∈ listing.entries := by
    rw [hnow]
    exact (Store.mem_under_iff h.store.ordered _ e).mpr ⟨hmem, hnamed⟩
  rw [step_dispatch htaken] at hsub
  exact Watcher.reached_dispatch hlisted sub hsub

end Course

/-! ## Registrations numbered -/

/-- The same move with another handler in a registration. -/
def Move.map (f : H → K) : Move H → Move K
  | .change c => .change c
  | .listenKey name tolerant handler => .listenKey name tolerant (f handler)
  | .listenDirectory name handler => .listenDirectory name (f handler)
  | .poll => .poll
  | .dispatch listing tour => .dispatch listing tour

/-- Moves with a number for each of their registrations, from `n` on. -/
def numbered : Nat → List (Move H) → List (Move (Listener H))
  | _, [] => []
  | n, m :: moves => m.map (Listener.mk n) :: numbered (n + 1) moves

end AdmissionGate.Watch
