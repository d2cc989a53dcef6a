-- Listeners: handlers told apart by the registration that brought them. What
-- has been offered to each of them so far goes up in versions, and never past
-- where its subscription stands.
import AdmissionGate.Proofs.Watch.Offers

namespace AdmissionGate.Watch

variable {H σ : Type}

/-! ## Registrations told apart -/

/-- A handler as it was registered. A handler that is registered again gets another number, as
a subscription of its own. -/
structure Listener (H : Type) where
  number : Nat
  handler : H

/-- A listener reacts as its handler does. -/
def Listener.reaction (react : Reaction H σ) : Reaction (Listener H) σ := fun l => react l.handler

/-- The numbers of the subscriptions are below `n`, and no two subscriptions have the same. -/
structure Distinct (n : Nat) (w : Watcher (Listener H)) : Prop where
  below : ∀ {t name sub}, w.subscription? t name = some sub → sub.handler.number < n
  apart : ∀ {t name sub t' name' sub'}, w.subscription? t name = some sub →
    w.subscription? t' name' = some sub' → sub.handler.number = sub'.handler.number →
    t = t' ∧ name = name'

theorem Distinct.succ {n : Nat} {w : Watcher (Listener H)} (h : Distinct n w) :
    Distinct (n + 1) w :=
  ⟨fun hsub => Nat.lt_succ_of_lt (h.below hsub), h.apart⟩

theorem Distinct.of_sameHandlers {n : Nat} {w w' : Watcher (Listener H)} (h : Distinct n w)
    (hsame : w.SameHandlers w') : Distinct n w' := by
  constructor
  · intro t name sub' hsub'
    obtain ⟨sub, hsub, heq⟩ := hsame.before hsub'
    exact heq ▸ h.below hsub
  · intro t name sub t' name' sub' hsub hsub' hnumber
    obtain ⟨a, ha, hahandler⟩ := hsame.before hsub
    obtain ⟨b, hb, hbhandler⟩ := hsame.before hsub'
    rw [← hahandler, ← hbhandler] at hnumber
    exact h.apart ha hb hnumber

/-- A registration under the next number keeps the numbers apart. -/
theorem Distinct.of_becomes {n : Nat} {w w' : Watcher (Listener H)} {t : Watched} {name : String}
    {sub : Subscription (Listener H)} (h : Distinct n w) (hbecomes : w.Becomes w' t name sub)
    (hnumber : sub.handler.number = n) : Distinct (n + 1) w' := by
  constructor
  · intro t' name' sub' hsub'
    rcases hbecomes.cases hsub' with ⟨_, _, rfl⟩ | ⟨_, hold⟩
    · omega
    · exact Nat.lt_succ_of_lt (h.below hold)
  · intro t₁ name₁ sub₁ t₂ name₂ sub₂ hsub₁ hsub₂ heq
    rcases hbecomes.cases hsub₁ with ⟨rfl, rfl, rfl⟩ | ⟨_, hold₁⟩ <;>
      rcases hbecomes.cases hsub₂ with ⟨rfl, rfl, rfl⟩ | ⟨_, hold₂⟩
    · exact ⟨rfl, rfl⟩
    · have := h.below hold₂
      omega
    · have := h.below hold₁
      omega
    · exact h.apart hold₁ hold₂ heq

theorem Distinct.of_registered {n : Nat} {react : Reaction (Listener H) σ} {t : Watched}
    {name : String} {handler : H} {w : Watcher (Listener H)} {s : σ}
    {fetched : Option (Payload × Nat)} {r : Served (Listener H) σ}
    (h : Watcher.Registered react t name ⟨n, handler⟩ w s fetched r) (hw : Distinct n w) :
    Distinct (n + 1) r.watcher := by
  cases h with
  | declined => exact hw.succ
  | awaited hbecomes _ => exact hw.of_becomes hbecomes rfl
  | refused _ => exact hw.succ
  | taken _ hbecomes _ => exact hw.of_becomes hbecomes rfl

/-! ## Places -/

/-- What a registration is for: a key or a directory, by its full name. -/
structure Place where
  watched : Watched
  name : String
  deriving DecidableEq

theorem becomes_elsewhere {w w' : Watcher H} {t : Watched} {name : String}
    {sub : Subscription H} {p : Place} (h : w.Becomes w' t name sub) (hother : ⟨t, name⟩ ≠ p) :
    w'.subscription? p.watched p.name = w.subscription? p.watched p.name := by
  rw [h, if_neg]
  rintro ⟨rfl, rfl⟩
  exact hother rfl

/-- Every subscriber has the number of a registration for what it is subscribed to. -/
structure Seated (place : Nat → Option Place) (n : Nat) (w : Watcher (Listener H)) : Prop
    extends Distinct n w where
  seat : ∀ {t name sub}, w.subscription? t name = some sub →
    place sub.handler.number = some ⟨t, name⟩

variable {place : Nat → Option Place} {n : Nat}

theorem Seated.succ {w : Watcher (Listener H)} (h : Seated place n w) : Seated place (n + 1) w :=
  ⟨h.toDistinct.succ, h.seat⟩

theorem Seated.of_sameHandlers {w w' : Watcher (Listener H)} (h : Seated place n w)
    (hsame : w.SameHandlers w') : Seated place n w' := by
  refine ⟨h.toDistinct.of_sameHandlers hsame, ?_⟩
  intro t name sub' hsub'
  obtain ⟨sub, hsub, heq⟩ := hsame.before hsub'
  exact heq ▸ h.seat hsub

theorem Seated.of_becomes {w w' : Watcher (Listener H)} {t : Watched} {name : String}
    {sub : Subscription (Listener H)} (h : Seated place n w)
    (hbecomes : w.Becomes w' t name sub) (hnumber : sub.handler.number = n)
    (hplace : place n = some ⟨t, name⟩) : Seated place (n + 1) w' := by
  refine ⟨h.toDistinct.of_becomes hbecomes hnumber, ?_⟩
  intro t' name' sub' hsub'
  rcases hbecomes.cases hsub' with ⟨rfl, rfl, rfl⟩ | ⟨_, hold⟩
  · rw [hnumber, hplace]
  · exact h.seat hold

theorem Seated.of_registered {react : Reaction (Listener H) σ} {t : Watched} {name : String}
    {handler : H} {w : Watcher (Listener H)} {s : σ} {fetched : Option (Payload × Nat)}
    {r : Served (Listener H) σ} (h : Watcher.Registered react t name ⟨n, handler⟩ w s fetched r)
    (hplace : place n = some ⟨t, name⟩) (hw : Seated place n w) :
    Seated place (n + 1) r.watcher := by
  cases h with
  | declined => exact hw.succ
  | awaited hbecomes _ => exact hw.of_becomes hbecomes rfl hplace
  | refused _ => exact hw.succ
  | taken _ hbecomes _ => exact hw.of_becomes hbecomes rfl hplace

/-! ## Offers in order -/

/-- What a payload is about. -/
def Payload.watched : Payload → Watched
  | .value _ => .key
  | .snapshot _ => .directory

theorem Offer.watched_eq (o : Offer H) : o.watched = o.payload.watched := by
  unfold Offer.watched
  cases o.payload <;> rfl

theorem watched_fetchedValue {read : Except StoreError (Option Entry)} {payload : Payload}
    {version : Nat} (h : Watcher.fetchedValue read = some (payload, version)) :
    payload.watched = .key := by
  unfold Watcher.fetchedValue at h
  split at h <;> cases h
  rfl

theorem watched_fetchedSnapshot {read : Except StoreError Listing} {payload : Payload}
    {version : Nat} (h : Watcher.fetchedSnapshot read = some (payload, version)) :
    payload.watched = .directory := by
  unfold Watcher.fetchedSnapshot at h
  split at h <;> cases h
  rfl

/-- What holds of the offers so far and the watcher, and is kept by every offer, is kept by a
dispatch. -/
theorem dispatch_offers {I : List (Offer H) → Watcher H → Prop} {react : Reaction H σ}
    {before : List (Offer H)} {w : Watcher H} (h : I before w) (visit : List Batch → List Batch)
    (listing : Listing) (s : σ)
    (hoffered : ∀ {t name payload version} {r r' : Served H σ},
      Watcher.Offered react t name payload version r r' → payload.watched = t →
      w.SameHandlers r.watcher → I (before ++ r.offers) r.watcher →
      I (before ++ r'.offers) r'.watcher) :
    I (before ++ (w.dispatch react visit listing s).offers)
      (w.dispatch react visit listing s).watcher := by
  let J (r : Round H σ) : Prop := I (before ++ r.offers) r.watcher
  have hstart : J (.start w s) := by
    show I (before ++ []) w
    rw [List.append_nil]
    exact h
  exact (Watcher.dispatch_induction (I := J) hstart
    (fun r hsame hr e _ => hoffered (Watcher.offered_offerEntry react r e) rfl hsame hr)
    fun r hsame hr b _ => hoffered (Watcher.offered_offerBatch react r b) rfl hsame hr).2

/-- All offers so far went to numbered listeners, of the kind that they are about, with rising
versions for each. No subscription stands below what its listener was offered. -/
structure Orderly (place : Nat → Option Place) (n : Nat) (offers : List (Offer (Listener H)))
    (w : Watcher (Listener H)) : Prop where
  seated : Seated place n w
  known : ∀ o ∈ offers, o.handler.number < n
  kind : ∀ o ∈ offers, ∃ name, place o.handler.number = some ⟨o.watched, name⟩
  rising : offers.Pairwise fun a b => a.handler.number = b.handler.number → a.version < b.version
  reached : ∀ {t name sub}, w.subscription? t name = some sub →
    ∀ o ∈ offers, o.handler.number = sub.handler.number → o.version ≤ sub.attempted

theorem Orderly.succ {offers : List (Offer (Listener H))} {w : Watcher (Listener H)}
    (h : Orderly place n offers w) : Orderly place (n + 1) offers w :=
  ⟨h.seated.succ, fun o ho => Nat.lt_succ_of_lt (h.known o ho), h.kind, h.rising, h.reached⟩

theorem orderly_start (place : Nat → Option Place) (space : String) :
    Orderly place 0 [] (Watcher.start space : Watcher (Listener H)) := by
  refine ⟨⟨⟨?_, ?_⟩, ?_⟩, by simp, by simp, List.Pairwise.nil, by simp⟩
  · intro t name sub hsub
    cases t <;> cases hsub
  · intro t name sub t' name' sub' hsub
    cases t <;> cases hsub
  · intro t name sub hsub
    cases t <;> cases hsub

/-- The offers stay in order with one more that its listener has not got past. -/
theorem rising_snoc {offers : List (Offer (Listener H))} {o : Offer (Listener H)}
    (h : offers.Pairwise fun a b => a.handler.number = b.handler.number → a.version < b.version)
    (ho : ∀ a ∈ offers, a.handler.number = o.handler.number → a.version < o.version) :
    (offers ++ [o]).Pairwise fun a b =>
      a.handler.number = b.handler.number → a.version < b.version := by
  rw [List.pairwise_append]
  refine ⟨h, List.pairwise_singleton _ _, ?_⟩
  intro a ha b hb
  rw [List.mem_singleton.mp hb]
  exact ho a ha

theorem Orderly.of_offered {before : List (Offer (Listener H))} {react : Reaction (Listener H) σ}
    {t : Watched} {name : String} {payload : Payload} {version : Nat}
    {r r' : Served (Listener H) σ} (h : Watcher.Offered react t name payload version r r')
    (hkind : payload.watched = t) (hr : Orderly place n (before ++ r.offers) r.watcher) :
    Orderly place n (before ++ r'.offers) r'.watcher := by
  have hseated := hr.seated.of_sameHandlers h.sameHandlers
  cases h with
  | passed _ hsame _ =>
    refine ⟨hseated, hr.known, hr.kind, hr.rising, ?_⟩
    intro t' name' sub' hsub'
    simp only at hsub'
    rw [hsame] at hsub'
    exact hr.reached hsub'
  | @made w s sub accepted hsub hnew _ hbecomes _ =>
    have hbelow : ∀ o ∈ before ++ r.offers, o.handler.number = sub.handler.number →
        o.version < version := fun o ho hnumber =>
      Nat.lt_of_le_of_lt (hr.reached hsub o ho hnumber) hnew
    simp only [← List.append_assoc]
    refine ⟨hseated, ?_, ?_, rising_snoc hr.rising hbelow, ?_⟩
    · intro o ho
      rcases List.mem_append.mp ho with ho | ho
      · exact hr.known o ho
      · rw [List.mem_singleton.mp ho]
        exact hr.seated.below hsub
    · intro o ho
      rcases List.mem_append.mp ho with ho | ho
      · exact hr.kind o ho
      · rw [List.mem_singleton.mp ho, Offer.watched_eq, hkind]
        exact ⟨name, hr.seated.seat hsub⟩
    · intro t' name' sub' hsub' o ho hnumber
      rcases hbecomes.cases hsub' with ⟨rfl, rfl, rfl⟩ | ⟨hne, hold⟩ <;>
        rcases List.mem_append.mp ho with ho | ho
      · exact Nat.le_of_lt (hbelow o ho hnumber)
      · rw [List.mem_singleton.mp ho]
        exact Nat.le_refl _
      · exact hr.reached hold o ho hnumber
      · rw [List.mem_singleton.mp ho] at hnumber
        exact absurd (hr.seated.apart hsub hold hnumber) hne

theorem Orderly.of_registered {offers : List (Offer (Listener H))}
    {react : Reaction (Listener H) σ} {t : Watched} {name : String} {handler : H}
    {w : Watcher (Listener H)} {s : σ} {fetched : Option (Payload × Nat)}
    {r : Served (Listener H) σ} (h : Watcher.Registered react t name ⟨n, handler⟩ w s fetched r)
    (hkind : ∀ payload version, fetched = some (payload, version) → payload.watched = t)
    (hplace : place n = some ⟨t, name⟩) (hw : Orderly place n offers w) :
    Orderly place (n + 1) (offers ++ r.offers) r.watcher := by
  have hseated := Seated.of_registered h hplace hw.seated
  have hfresh : ∀ o ∈ offers, o.handler.number ≠ n := fun o ho => Nat.ne_of_lt (hw.known o ho)
  have hload : ∀ {payload : Payload} {version : Nat} (accepted : Bool) (w' : Watcher (Listener H)),
      payload.watched = t → Seated place (n + 1) w' →
      (∀ {t' name' sub'}, w'.subscription? t' name' = some sub' →
        sub'.handler.number = n ∧ version ≤ sub'.attempted ∨
          w.subscription? t' name' = some sub') →
      Orderly place (n + 1) (offers ++ [⟨⟨n, handler⟩, payload, version, accepted⟩]) w' := by
    intro payload version accepted w' hwatched hseated hsubs
    refine ⟨hseated, ?_, ?_, rising_snoc hw.rising fun o ho hnumber =>
      absurd hnumber (hfresh o ho), ?_⟩
    · intro o ho
      rcases List.mem_append.mp ho with ho | ho
      · exact Nat.lt_succ_of_lt (hw.known o ho)
      · rw [List.mem_singleton.mp ho]
        exact Nat.lt_succ_self n
    · intro o ho
      rcases List.mem_append.mp ho with ho | ho
      · exact hw.kind o ho
      · rw [List.mem_singleton.mp ho, Offer.watched_eq, hwatched]
        exact ⟨name, hplace⟩
    · intro t' name' sub' hsub' o ho hnumber
      rcases hsubs hsub' with ⟨hnew, hle⟩ | hold <;> rcases List.mem_append.mp ho with ho | ho
      · exact absurd (hnumber.trans hnew) (hfresh o ho)
      · rw [List.mem_singleton.mp ho]
        exact hle
      · exact hw.reached hold o ho hnumber
      · rw [List.mem_singleton.mp ho] at hnumber
        exact absurd hnumber.symm (Nat.ne_of_lt (hw.seated.below hold))
  cases h with
  | declined =>
    rw [List.append_nil]
    exact hw.succ
  | awaited hbecomes _ =>
    rw [List.append_nil]
    refine ⟨hseated, hw.succ.known, hw.kind, hw.rising, ?_⟩
    intro t' name' sub' hsub' o ho hnumber
    rcases hbecomes.cases hsub' with ⟨_, _, rfl⟩ | ⟨_, hold⟩
    · exact absurd hnumber (hfresh o ho)
    · exact hw.reached hold o ho hnumber
  | refused _ => exact hload false _ (hkind _ _ rfl) hseated Or.inr
  | taken _ hbecomes _ =>
    refine hload true _ (hkind _ _ rfl) hseated fun hsub' => ?_
    rcases hbecomes.cases hsub' with ⟨_, _, rfl⟩ | ⟨_, hold⟩
    · exact Or.inl ⟨rfl, Nat.le_refl _⟩
    · exact Or.inr hold

theorem Orderly.of_dispatch {before : List (Offer (Listener H))} {w : Watcher (Listener H)}
    (h : Orderly place n before w) (react : Reaction (Listener H) σ)
    (visit : List Batch → List Batch) (listing : Listing) (s : σ) :
    Orderly place n (before ++ (w.dispatch react visit listing s).offers)
      (w.dispatch react visit listing s).watcher :=
  dispatch_offers h visit listing s fun hoffered hkind _ hr => hr.of_offered hoffered hkind

/-! ## What a listener has heard -/

theorem filter_snoc {α : Type} (f : α → Bool) (l : List α) (a : α) :
    (l ++ [a]).filter f = if f a then l.filter f ++ [a] else l.filter f := by
  rw [List.filter_append, List.filter_cons]
  split
  · rfl
  · exact List.append_nil _

/-- The last offer that was made to a listener. -/
def lastOffer? (number : Nat) (offers : List (Offer (Listener H))) :
    Option (Offer (Listener H)) :=
  (offers.filter (·.handler.number = number)).getLast?

theorem lastOffer?_snoc (number : Nat) (offers : List (Offer (Listener H)))
    (o : Offer (Listener H)) :
    lastOffer? number (offers ++ [o]) =
      if o.handler.number = number then some o else lastOffer? number offers := by
  simp only [lastOffer?, filter_snoc, decide_eq_true_eq]
  split
  · exact List.getLast?_concat
  · rfl

end AdmissionGate.Watch
