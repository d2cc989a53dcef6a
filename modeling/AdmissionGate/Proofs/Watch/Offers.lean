-- What one offer and one registration do. Keys and directories are served
-- alike, so both are described by one relation each, and a dispatch is a
-- chain of offers.
import AdmissionGate.Watch.Watcher

namespace AdmissionGate

open Watch

variable {H σ : Type}

namespace Watcher

/-! ## Subscriptions of both kinds -/

/-- The subscription to a key or to a directory, by its full name. -/
def subscription? (w : Watcher H) : Watched → String → Option (Subscription H)
  | .key, name => w.keys.find? name
  | .directory, name => w.directories.find? name

/-- The subscription to `name` becomes `sub`, and every other one stays. -/
def Becomes (w w' : Watcher H) (t : Watched) (name : String) (sub : Subscription H) : Prop :=
  ∀ t' name', w'.subscription? t' name' =
    if t = t' ∧ name = name' then some sub else w.subscription? t' name'

/-- The subscriptions are the same. -/
def SameSubscriptions (w w' : Watcher H) : Prop :=
  ∀ t name, w'.subscription? t name = w.subscription? t name

theorem becomes_keys (w : Watcher H) (name : String) (sub : Subscription H) :
    Becomes w { w with keys := w.keys.insert name sub } .key name sub := by
  intro t name'
  cases t with
  | key => simp [subscription?, Table.find?_insert]
  | directory => simp [subscription?]

theorem becomes_directories (w : Watcher H) (name : String) (sub : Subscription H) :
    Becomes w { w with directories := w.directories.insert name sub } .directory name sub := by
  intro t name'
  cases t with
  | key => simp [subscription?]
  | directory => simp [subscription?, Table.find?_insert]

theorem Becomes.self {w w' : Watcher H} {t : Watched} {name : String} {sub : Subscription H}
    (h : Becomes w w' t name sub) : w'.subscription? t name = some sub := by
  rw [h, if_pos ⟨rfl, rfl⟩]

/-- A subscription that becomes what it was changes nothing. -/
theorem Becomes.same {w w' : Watcher H} {t : Watched} {name : String} {sub : Subscription H}
    (h : Becomes w w' t name sub) (hsub : w.subscription? t name = some sub) :
    SameSubscriptions w w' := by
  intro t' name'
  rw [h]
  split
  next heq => rw [← heq.1, ← heq.2, hsub]
  next => rfl

/-- After such a change a subscription is the new one, or one that was there before. -/
theorem Becomes.cases {w w' : Watcher H} {t t' : Watched} {name name' : String}
    {sub sub' : Subscription H} (h : Becomes w w' t name sub)
    (hsub : w'.subscription? t' name' = some sub') :
    (t' = t ∧ name' = name ∧ sub' = sub) ∨
      (¬ (t = t' ∧ name = name') ∧ w.subscription? t' name' = some sub') := by
  rw [h] at hsub
  split at hsub
  next heq =>
    cases hsub
    exact Or.inl ⟨heq.1.symm, heq.2.symm, rfl⟩
  next hne => exact Or.inr ⟨hne, hsub⟩

/-! ## One offer -/

/-- How a handler answers an offer, and the state after that. -/
inductive Answered (react : Reaction H σ) (handler : H) (payload : Payload) (s : σ) :
    Bool → σ → Prop
  | took {s' : σ} : react handler payload s = .ok s' → Answered react handler payload s true s'
  | refused {why : Refusal} : react handler payload s = .error why →
      Answered react handler payload s false s

/-- What becomes of a version that is meant for the subscriber of `name`: it is passed over if
there is none or if the version has been offered before, and offered otherwise. -/
inductive Offered (react : Reaction H σ) (t : Watched) (name : String) (payload : Payload)
    (version : Nat) (r : Served H σ) : Served H σ → Prop
  | passed {w : Watcher H} :
      (∀ sub, r.watcher.subscription? t name = some sub → version ≤ sub.attempted) →
      SameSubscriptions r.watcher w → w.space = r.watcher.space →
      Offered react t name payload version r ⟨w, r.state, r.offers⟩
  | made {w : Watcher H} {s : σ} {sub : Subscription H} {accepted : Bool} :
      r.watcher.subscription? t name = some sub → sub.attempted < version →
      Answered react sub.handler payload r.state accepted s →
      Becomes r.watcher w t name (sub.offered version accepted) → w.space = r.watcher.space →
      Offered react t name payload version r
        ⟨w, s, r.offers ++ [⟨sub.handler, payload, version, accepted⟩]⟩

theorem offer_cases (react : Reaction H σ) (sub : Subscription H) (payload : Payload)
    (version : Nat) (s : σ) :
    (version ≤ sub.attempted ∧ offer react sub payload version s = (sub, s, none)) ∨
      ∃ accepted s', sub.attempted < version ∧
        Answered react sub.handler payload s accepted s' ∧
        offer react sub payload version s =
          (sub.offered version accepted, s', some ⟨sub.handler, payload, version, accepted⟩) := by
  by_cases hnew : sub.attempted < version
  · right
    cases hr : react sub.handler payload s with
    | ok s' =>
      exact ⟨true, s', hnew, .took hr, by simp [offer, Subscription.isNew, hnew, hr]⟩
    | error why =>
      exact ⟨false, s, hnew, .refused hr, by simp [offer, Subscription.isNew, hnew, hr]⟩
  · left
    exact ⟨Nat.le_of_not_lt hnew, by simp [offer, Subscription.isNew, hnew]⟩

/-- A version goes to the subscriber of `name`, and `put` puts the subscription back. -/
theorem offered_next {t : Watched} {name : String} {r : Round H σ} {sub : Subscription H}
    {put : Subscription H → Watcher H} (hsub : r.watcher.subscription? t name = some sub)
    (hput : ∀ sub', Becomes r.watcher (put sub') t name sub')
    (hspace : ∀ sub', (put sub').space = r.watcher.space) (react : Reaction H σ)
    (payload : Payload) (version : Nat) :
    let o := offer react sub payload version r.state
    Offered react t name payload version r.toServed (r.next (put o.1) o.2.1 o.2.2).toServed := by
  intro o
  rcases offer_cases react sub payload version r.state with
    ⟨hold, heq⟩ | ⟨accepted, s', hnew, hans, heq⟩
  · rw [show o = _ from heq]
    refine .passed (fun sub' hsub' => ?_) ((hput _).same hsub) (hspace _)
    cases hsub.symm.trans hsub'
    exact hold
  · rw [show o = _ from heq]
    exact .made hsub hnew hans (hput _) (hspace _)

theorem offered_offerEntry (react : Reaction H σ) (r : Round H σ) (e : Entry) :
    Offered react .key e.key (.value e.value) e.version r.toServed
      (offerEntry react r e).toServed := by
  unfold offerEntry
  cases hsub : r.watcher.keys.find? e.key with
  | none => exact .passed (fun sub h => by cases hsub.symm.trans h) (fun _ _ => rfl) rfl
  | some sub =>
    exact offered_next (t := .key) hsub (becomes_keys _ _) (fun _ => rfl) react _ _

theorem offered_offerBatch (react : Reaction H σ) (r : Round H σ) (b : Batch) :
    Offered react .directory b.directory (.snapshot b.values) b.version r.toServed
      (offerBatch react r b).toServed := by
  unfold offerBatch
  cases hsub : r.watcher.directories.find? b.directory with
  | none => exact .passed (fun sub h => by cases hsub.symm.trans h) (fun _ _ => rfl) rfl
  | some sub =>
    exact offered_next (t := .directory) hsub (becomes_directories _ _) (fun _ => rfl) react _ _

/-! ## One registration -/

/-- What becomes of a registration, by what was fetched for the handler. Nothing is registered
without an accepted value, unless the handler may wait for its first one. -/
inductive Registered (react : Reaction H σ) (t : Watched) (name : String) (handler : H)
    (w : Watcher H) (s : σ) : Option (Payload × Nat) → Served H σ → Prop
  | declined : Registered react t name handler w s none ⟨w, s, []⟩
  | awaited {w' : Watcher H} : Becomes w w' t name (.start handler 0) → w'.space = w.space →
      Registered react t name handler w s none ⟨w', s, []⟩
  | refused {payload : Payload} {version : Nat} {why : Refusal} :
      react handler payload s = .error why →
      Registered react t name handler w s (some (payload, version))
        ⟨w, s, [⟨handler, payload, version, false⟩]⟩
  | taken {payload : Payload} {version : Nat} {w' : Watcher H} {s' : σ} :
      react handler payload s = .ok s' → Becomes w w' t name (.start handler version) →
      w'.space = w.space →
      Registered react t name handler w s (some (payload, version))
        ⟨w', s', [⟨handler, payload, version, true⟩]⟩

/-- What a read of a key has for its subscriber. -/
def fetchedValue (read : Except StoreError (Option Entry)) : Option (Payload × Nat) :=
  match read with
  | .ok (some e) => some (.value e.value, e.version)
  | .ok none => none
  | .error _ => none

/-- What a read of a directory has for its subscriber. -/
def fetchedSnapshot (read : Except StoreError Listing) : Option (Payload × Nat) :=
  match read with
  | .ok listing => some (.snapshot (valuesOf listing.entries), maxVersion listing.entries)
  | .error _ => none

theorem registered_subscribeKey (react : Reaction H σ) (w : Watcher H) (name : String)
    (tolerant : Bool) (handler : H) (read : Except StoreError (Option Entry)) (s : σ) :
    Registered react .key (w.fullKey name) handler w s (fetchedValue read)
      (w.subscribeKey react name tolerant handler read s).2 := by
  unfold subscribeKey fetchedValue
  rcases read with why | _ | e
  · simp only
    split
    · exact .awaited (becomes_keys _ _ _) rfl
    · exact .declined
  · simp only
    split
    · exact .awaited (becomes_keys _ _ _) rfl
    · exact .declined
  · simp only
    cases hr : react handler (.value e.value) s with
    | ok s' => exact .taken hr (becomes_keys _ _ _) rfl
    | error why => exact .refused hr

theorem registered_subscribeDirectory (react : Reaction H σ) (w : Watcher H) (name : String)
    (handler : H) (read : Except StoreError Listing) (s : σ) :
    Registered react .directory (w.fullKey name) handler w s (fetchedSnapshot read)
      (w.subscribeDirectory react name handler read s).2 := by
  unfold subscribeDirectory fetchedSnapshot
  rcases read with why | listing
  · exact .declined
  · simp only
    cases hr : react handler (.snapshot (valuesOf listing.entries)) s with
    | ok s' => exact .taken hr (becomes_directories _ _ _) rfl
    | error why => exact .refused hr

/-- A registration that succeeds leaves a subscription, also if there was nothing to offer. -/
theorem subscribed_of_ok {react : Reaction H σ} {w : Watcher H} {name : String} {tolerant : Bool}
    {handler : H} {read : Except StoreError (Option Entry)} {s : σ}
    (h : (w.subscribeKey react name tolerant handler read s).1 = .ok ()) :
    ((w.subscribeKey react name tolerant handler read s).2.watcher.subscription? .key
      (w.fullKey name)).isSome = true := by
  have hself : ∀ sub, (({ w with keys := w.keys.insert (w.fullKey name) sub } : Watcher H)
      |>.subscription? .key (w.fullKey name)).isSome = true := by
    intro sub
    rw [(becomes_keys w _ sub).self]
    rfl
  unfold subscribeKey at h ⊢
  rcases read with why | _ | e
  · cases tolerant with
    | true => exact hself _
    | false => cases h
  · cases tolerant with
    | true => exact hself _
    | false => cases h
  · simp only at h ⊢
    cases hr : react handler (.value e.value) s with
    | ok s' => exact hself _
    | error why =>
      rw [hr] at h
      cases h

theorem Registered.space {react : Reaction H σ} {t : Watched} {name : String} {handler : H}
    {w : Watcher H} {s : σ} {fetched : Option (Payload × Nat)} {r : Served H σ}
    (h : Registered react t name handler w s fetched r) : r.watcher.space = w.space := by
  cases h with
  | declined => rfl
  | awaited _ hspace => exact hspace
  | refused _ => rfl
  | taken _ _ hspace => exact hspace

/-- With nothing fetched there is nothing to offer. -/
theorem Registered.of_none {react : Reaction H σ} {t : Watched} {name : String} {handler : H}
    {w : Watcher H} {s : σ} {r : Served H σ} (h : Registered react t name handler w s none r) :
    r.state = s ∧ r.offers = [] := by
  cases h with
  | declined => exact ⟨rfl, rfl⟩
  | awaited => exact ⟨rfl, rfl⟩

/-- A registration takes no subscription away. -/
theorem Registered.after {react : Reaction H σ} {t t' : Watched} {name name' : String}
    {handler : H} {w : Watcher H} {s : σ} {fetched : Option (Payload × Nat)} {r : Served H σ}
    (h : Registered react t name handler w s fetched r)
    (hsub : (w.subscription? t' name').isSome = true) :
    (r.watcher.subscription? t' name').isSome = true := by
  have hkept : ∀ {w' : Watcher H} {sub : Subscription H}, Becomes w w' t name sub →
      (w'.subscription? t' name').isSome = true := by
    intro w' sub hbecomes
    rw [hbecomes]
    split
    · rfl
    · exact hsub
  cases h with
  | declined => exact hsub
  | awaited hbecomes _ => exact hkept hbecomes
  | refused _ => exact hsub
  | taken _ hbecomes _ => exact hkept hbecomes

/-! ## A dispatch -/

/-- A watcher of the same namespace, with the same keys and directories subscribed to by the same
handlers. -/
structure SameHandlers (w w' : Watcher H) : Prop where
  space : w'.space = w.space
  handlers : ∀ t name,
    (w'.subscription? t name).map (·.handler) = (w.subscription? t name).map (·.handler)

theorem SameHandlers.refl (w : Watcher H) : SameHandlers w w := ⟨rfl, fun _ _ => rfl⟩

theorem SameHandlers.trans {w w' w'' : Watcher H} (h : SameHandlers w w')
    (h' : SameHandlers w' w'') : SameHandlers w w'' :=
  ⟨h'.space.trans h.space, fun t name => (h'.handlers t name).trans (h.handlers t name)⟩

theorem SameHandlers.before {w w' : Watcher H} {t : Watched} {name : String}
    {sub' : Subscription H} (h : SameHandlers w w') (hsub' : w'.subscription? t name = some sub') :
    ∃ sub, w.subscription? t name = some sub ∧ sub.handler = sub'.handler := by
  have hhandler := h.handlers t name
  rw [hsub'] at hhandler
  exact Option.map_eq_some_iff.mp hhandler.symm

theorem SameHandlers.after {w w' : Watcher H} {t : Watched} {name : String}
    (h : SameHandlers w w') :
    (w'.subscription? t name).isSome = (w.subscription? t name).isSome := by
  rw [← Option.isSome_map, h.handlers, Option.isSome_map]

theorem Offered.sameHandlers {react : Reaction H σ} {t : Watched} {name : String}
    {payload : Payload} {version : Nat} {r r' : Served H σ}
    (h : Offered react t name payload version r r') : SameHandlers r.watcher r'.watcher := by
  cases h with
  | passed _ hsame hspace => exact ⟨hspace, fun t' name' => by rw [hsame]⟩
  | made hsub _ _ hbecomes hspace =>
    refine ⟨hspace, fun t' name' => ?_⟩
    rw [hbecomes]
    split
    next heq =>
      rw [← heq.1, ← heq.2, hsub]
      rfl
    next => rfl

/-- What holds of a round before its first offer, and is kept by every offer of its listing,
holds of the round in the end. A dispatch neither adds nor removes a subscription. -/
theorem dispatch_induction {react : Reaction H σ} {visit : List Batch → List Batch}
    {w : Watcher H} {listing : Listing} {s : σ} {I : Round H σ → Prop} (hstart : I (.start w s))
    (hentry : ∀ r, SameHandlers w r.watcher → I r → ∀ e ∈ listing.entries,
      I (offerEntry react r e))
    (hbatch : ∀ r, SameHandlers w r.watcher → I r →
      ∀ b ∈ visit (batches listing.entries w.directories.keys), I (offerBatch react r b)) :
    SameHandlers w (w.dispatch react visit listing s).watcher ∧
      I (w.dispatch react visit listing s) := by
  let J (r : Round H σ) : Prop := SameHandlers w r.watcher ∧ I r
  have hentries : J (listing.entries.foldl (offerEntry react) (.start w s)) := by
    refine List.foldlRecOn (motive := J) _ _ ⟨.refl w, hstart⟩ ?_
    intro r hr e he
    exact ⟨hr.1.trans (offered_offerEntry react r e).sameHandlers, hentry r hr.1 hr.2 e he⟩
  have hround : J (w.dispatch react visit listing s) := by
    refine List.foldlRecOn (motive := J) _ _ hentries ?_
    intro r hr b hb
    exact ⟨hr.1.trans (offered_offerBatch react r b).sameHandlers, hbatch r hr.1 hr.2 b hb⟩
  exact hround

theorem sameHandlers_dispatch (react : Reaction H σ) (visit : List Batch → List Batch)
    (w : Watcher H) (listing : Listing) (s : σ) :
    SameHandlers w (w.dispatch react visit listing s).watcher :=
  (dispatch_induction (I := fun _ => True) trivial (fun _ _ _ _ _ => trivial)
    fun _ _ _ _ _ => trivial).1

/-- The subscriber of `name`, if there is one, has been offered `version` or a later one. -/
def HasReached (w : Watcher H) (t : Watched) (name : String) (version : Nat) : Prop :=
  ∀ sub, w.subscription? t name = some sub → version ≤ sub.attempted

/-- An offer never takes a subscriber back. -/
theorem Offered.keeps {react : Reaction H σ} {t t' : Watched} {name name' : String}
    {payload : Payload} {version v : Nat} {r r' : Served H σ}
    (h : Offered react t name payload version r r') (hv : HasReached r.watcher t' name' v) :
    HasReached r'.watcher t' name' v := by
  intro sub hsub
  cases h with
  | passed _ hsame _ =>
    simp only at hsub
    rw [hsame] at hsub
    exact hv sub hsub
  | @made w s old accepted hold hnew _ hbecomes _ =>
    rcases hbecomes.cases hsub with ⟨rfl, rfl, rfl⟩ | ⟨_, hsub⟩
    · exact Nat.le_trans (hv old hold) (Nat.le_of_lt hnew)
    · exact hv sub hsub

theorem Offered.reaches {react : Reaction H σ} {t : Watched} {name : String}
    {payload : Payload} {version : Nat} {r r' : Served H σ}
    (h : Offered react t name payload version r r') :
    HasReached r'.watcher t name version := by
  intro sub hsub
  cases h with
  | passed hold hsame _ =>
    simp only at hsub
    rw [hsame] at hsub
    exact hold sub hsub
  | made _ _ _ hbecomes _ =>
    rw [hbecomes.self] at hsub
    cases hsub
    exact Nat.le_refl _

/-- What has been reached before a chain of offers stays reached. -/
theorem HasReached.foldl {α : Type} {react : Reaction H σ} {f : Round H σ → α → Round H σ}
    {t : Watched} {name : α → String} {payload : α → Payload} {version : α → Nat}
    (hf : ∀ r a, Offered react t (name a) (payload a) (version a) r.toServed (f r a).toServed)
    {r : Round H σ} {t' : Watched} {name' : String} {v : Nat}
    (h : HasReached r.watcher t' name' v) (l : List α) :
    HasReached (l.foldl f r).watcher t' name' v :=
  List.foldlRecOn (motive := fun r : Round H σ => HasReached r.watcher t' name' v) _ _ h
    fun r hr a _ => (hf r a).keeps hr

/-- A chain of offers reaches each of its versions. -/
theorem reached_foldl {α : Type} {react : Reaction H σ} {f : Round H σ → α → Round H σ}
    {t : Watched} {name : α → String} {payload : α → Payload} {version : α → Nat}
    (hf : ∀ r a, Offered react t (name a) (payload a) (version a) r.toServed (f r a).toServed)
    (r : Round H σ) {l : List α} {a : α} (ha : a ∈ l) :
    HasReached (l.foldl f r).watcher t (name a) (version a) := by
  obtain ⟨before, after, rfl⟩ := List.append_of_mem ha
  rw [List.foldl_append, List.foldl_cons]
  exact HasReached.foldl hf (hf _ a).reaches after

/-- After a dispatch the subscriber of every listed key has been offered its listed version or
a later one. -/
theorem reached_dispatch {react : Reaction H σ} {visit : List Batch → List Batch}
    {w : Watcher H} {listing : Listing} {s : σ} {e : Entry} (he : e ∈ listing.entries) :
    HasReached (w.dispatch react visit listing s).watcher .key e.key e.version := by
  have hentries := reached_foldl (offered_offerEntry react) (.start w s) he
  exact HasReached.foldl (offered_offerBatch react) hentries _

/-- After a dispatch the subscriber of every directory with a batch that is visited has been
offered its version or a later one. -/
theorem reached_dispatch_batch {react : Reaction H σ} {visit : List Batch → List Batch}
    {w : Watcher H} {listing : Listing} {s : σ} {b : Batch}
    (hb : b ∈ visit (batches listing.entries w.directories.keys)) :
    HasReached (w.dispatch react visit listing s).watcher .directory b.directory b.version :=
  reached_foldl (offered_offerBatch react) _ hb

end Watcher

end AdmissionGate
