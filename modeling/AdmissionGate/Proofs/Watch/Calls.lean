-- Calls on a watcher, in any order: registrations, with whatever the store
-- had for them, and rounds over any listings at all. How handlers answer may
-- change from one call to the next, and so may the order of directories.
import AdmissionGate.Proofs.Watch.Batches
import AdmissionGate.Proofs.Watch.Listeners

namespace AdmissionGate.Watch

variable {H σ : Type}

/-- A call on a watcher: a registration with what was read for it, or a dispatch. -/
inductive Call (H : Type) where
  | listenKey (name : String) (tolerant : Bool) (handler : H)
      (read : Except StoreError (Option Entry))
  | listenDirectory (name : String) (handler : H) (read : Except StoreError Listing)
  | dispatch (listing : Listing)

namespace Call

/-- What a call registers a handler for. -/
def place? (w : Watcher (Listener H)) : Call H → Option Place
  | .listenKey name _ _ _ => some ⟨.key, w.fullKey name⟩
  | .listenDirectory name _ _ => some ⟨.directory, w.fullKey name⟩
  | .dispatch _ => none

theorem place?_congr {w w' : Watcher (Listener H)} (h : w'.space = w.space) (c : Call H) :
    c.place? w' = c.place? w := by
  cases c <;> simp only [place?, Watcher.fullKey, h]

/-- The version that a registration begins after. -/
def baseline : Call H → Nat
  | .listenKey _ _ _ (.ok (some e)) => e.version
  | .listenDirectory _ _ (.ok listing) => maxVersion listing.entries
  | _ => 0

/-- The places that some calls register handlers for, by number. -/
def placeOf (space : String) (calls : List (Call H)) (n : Nat) : Option Place :=
  calls[n]?.bind (place? (Watcher.start space))

/-- The versions that the registrations among some calls begin after, by number. -/
def baselineOf (calls : List (Call H)) (n : Nat) : Nat := (calls[n]?.map baseline).getD 0

theorem baselineOf_eq {calls : List (Call H)} {n : Nat} {c : Call H} (h : calls[n]? = some c) :
    baselineOf calls n = c.baseline := by
  rw [baselineOf, h]
  rfl

end Call

/-- How handlers answer, and in which order directories are visited, by the number of the call. -/
structure Conduct (H σ : Type) where
  react : Nat → Reaction (Listener H) σ
  tour : Nat → Tour

/-- A watcher with what its handlers look after, the calls it has served, each with the offers
it led to, and the reports of its rounds. -/
structure Desk (H σ : Type) where
  watcher : Watcher (Listener H)
  state : σ
  history : List (Call H × List (Offer (Listener H)))
  reports : List Report

namespace Desk

def start (space : String) (s : σ) : Desk H σ := ⟨Watcher.start space, s, [], []⟩

/-- The round over a listing, if the next call is its dispatch. -/
def round (m : Conduct H σ) (x : Desk H σ) (listing : Listing) : Round (Listener H) σ :=
  let n := x.history.length
  x.watcher.dispatch (m.react n) (m.tour n).visit listing x.state

/-- Serves a call. A handler is registered under the number of its call. -/
def serve (m : Conduct H σ) (x : Desk H σ) (c : Call H) : Served (Listener H) σ :=
  let n := x.history.length
  match c with
  | .listenKey name tolerant handler read =>
    (x.watcher.subscribeKey (m.react n) name tolerant ⟨n, handler⟩ read x.state).2
  | .listenDirectory name handler read =>
    (x.watcher.subscribeDirectory (m.react n) name ⟨n, handler⟩ read x.state).2
  | .dispatch listing => (x.round m listing).toServed

/-- What a call reports, if it is a dispatch. -/
def report? (m : Conduct H σ) (x : Desk H σ) : Call H → Option Report
  | .dispatch listing => some (x.round m listing).report
  | _ => none

def step (m : Conduct H σ) (x : Desk H σ) (c : Call H) : Desk H σ :=
  let r := x.serve m c
  ⟨r.watcher, r.state, x.history ++ [(c, r.offers)], x.reports ++ (x.report? m c).toList⟩

def run (m : Conduct H σ) (x : Desk H σ) (calls : List (Call H)) : Desk H σ :=
  calls.foldl (step m) x

/-- All offers so far. -/
def offers (x : Desk H σ) : List (Offer (Listener H)) := x.history.flatMap (·.2)

/-- The offers of each round so far. -/
def rounds (x : Desk H σ) : List (List (Offer (Listener H))) :=
  x.history.filterMap fun
    | (.dispatch _, offers) => some offers
    | _ => none

theorem offers_step (m : Conduct H σ) (x : Desk H σ) (c : Call H) :
    (x.step m c).offers = x.offers ++ (x.serve m c).offers := by
  simp [offers, step]

theorem length_step (m : Conduct H σ) (x : Desk H σ) (c : Call H) :
    (x.step m c).history.length = x.history.length + 1 := by
  simp [step]

theorem rounds_step (m : Conduct H σ) (x : Desk H σ) (c : Call H) :
    (x.step m c).rounds =
      match c with
      | .dispatch _ => x.rounds ++ [(x.serve m c).offers]
      | _ => x.rounds := by
  cases c <;> simp [rounds, step]

/-! ## What every call keeps -/

theorem space_step (m : Conduct H σ) (x : Desk H σ) (c : Call H) :
    (x.step m c).watcher.space = x.watcher.space := by
  cases c with
  | listenKey name tolerant handler read => exact (Watcher.registered_subscribeKey ..).space
  | listenDirectory name handler read => exact (Watcher.registered_subscribeDirectory ..).space
  | dispatch listing => exact (Watcher.sameHandlers_dispatch ..).space

/-- The offers of rounds are among all offers. -/
theorem rounds_sublist (x : Desk H σ) : x.rounds.flatten.Sublist x.offers := by
  unfold rounds offers
  induction x.history with
  | nil => exact List.Sublist.refl _
  | cons a rest ih =>
    obtain ⟨c, made⟩ := a
    cases c with
    | dispatch listing => exact (List.Sublist.refl made).append ih
    | listenKey name tolerant handler read => exact ih.trans (List.sublist_append_right made _)
    | listenDirectory name handler read => exact ih.trans (List.sublist_append_right made _)

theorem orderly_step {place : Nat → Option Place} {x : Desk H σ}
    (h : Orderly place x.history.length x.offers x.watcher) (m : Conduct H σ) {c : Call H}
    (hplace : ∀ p, c.place? x.watcher = some p → place x.history.length = some p) :
    Orderly place (x.step m c).history.length (x.step m c).offers (x.step m c).watcher := by
  rw [length_step, offers_step]
  cases c with
  | listenKey name tolerant handler read =>
    exact .of_registered (Watcher.registered_subscribeKey ..)
      (fun _ _ => watched_fetchedValue) (hplace _ rfl) h
  | listenDirectory name handler read =>
    exact .of_registered (Watcher.registered_subscribeDirectory ..)
      (fun _ _ => watched_fetchedSnapshot) (hplace _ rfl) h
  | dispatch listing => exact (h.of_dispatch _ _ listing x.state).succ

/-- What holds of two desks, and is kept when they serve the same call, holds after all calls. -/
theorem run_together {σ' : Type} {m : Conduct H σ} {m' : Conduct H σ'} {all : List (Call H)}
    {I : Desk H σ → Desk H σ' → Prop}
    (hstep : ∀ x x' c, all[x.history.length]? = some c → I x x' → I (x.step m c) (x'.step m' c))
    {space : String} {s : σ} {s' : σ'} (hstart : I (start space s) (start space s')) :
    I ((start space s).run m all) ((start space s').run m' all) := by
  -- The calls to come are all but the first ones, as many as have been served.
  have hrun : ∀ (todo : List (Call H)) (x : Desk H σ) (x' : Desk H σ'),
      all.drop x.history.length = todo → I x x' → I (x.run m todo) (x'.run m' todo) := by
    intro todo
    induction todo with
    | nil =>
      intro x x' _ hx
      exact hx
    | cons c todo ih =>
      intro x x' hdrop hx
      have hnow : all[x.history.length]? = some c := by
        rw [← List.head?_drop, hdrop]
        rfl
      refine ih (x.step m c) (x'.step m' c) ?_ (hstep x x' c hnow hx)
      rw [length_step, ← List.tail_drop, hdrop]
      rfl
  exact hrun all _ _ rfl hstart

/-- The handlers are served in order: everybody has the number of a call for what it is
subscribed to. -/
structure InOrder (space : String) (all : List (Call H)) (x : Desk H σ) : Prop where
  home : x.watcher.space = (Watcher.start space : Watcher H).space
  orderly : Orderly (Call.placeOf space all) x.history.length x.offers x.watcher

theorem inOrder_start (space : String) (all : List (Call H)) (s : σ) :
    InOrder space all (start space s) := ⟨rfl, orderly_start _ space⟩

theorem InOrder.place? {space : String} {all : List (Call H)} {x : Desk H σ}
    (h : InOrder space all x) {c : Call H} (hc : all[x.history.length]? = some c) {p : Place}
    (hp : c.place? x.watcher = some p) : Call.placeOf space all x.history.length = some p := by
  rw [Call.placeOf, hc, ← hp]
  exact (Call.place?_congr h.home c).symm

theorem InOrder.step {space : String} {all : List (Call H)} {x : Desk H σ}
    (h : InOrder space all x) (m : Conduct H σ) {c : Call H}
    (hc : all[x.history.length]? = some c) : InOrder space all (x.step m c) :=
  ⟨(space_step m x c).trans h.home, orderly_step h.orderly m fun _ hp => h.place? hc hp⟩

end Desk

end AdmissionGate.Watch
