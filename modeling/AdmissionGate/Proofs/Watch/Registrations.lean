-- A registration as a whole. It makes one subscription or changes nothing, and
-- it asks the handler once, about what was fetched, or not at all if nothing
-- was. Keys and directories are registered alike.
import AdmissionGate.Proofs.Watch.Batches
import AdmissionGate.Proofs.Watch.Offers

namespace AdmissionGate.Watcher

open Watch

variable {H σ : Type}

/-! ## What is fetched -/

/-- What a registration has for its handler, with the version of it, or why it has nothing. -/
abbrev Fetched := Except WatchError (Payload × Nat)

def fetchKey (name : String) : Except StoreError (Option Entry) → Fetched
  | .ok (some e) => .ok (.value e.value, e.version)
  | .ok none => .error (.keyNotFound name)
  | .error why => .error (.store why)

/-- A directory has a snapshot also if it is empty, and then its version is zero. -/
def fetchDirectory : Except StoreError Listing → Fetched
  | .ok listing => .ok (.snapshot (valuesOf listing.entries),
      (listing.entries.map (·.version)).max?.getD 0)
  | .error why => .error (.store why)

/-- The version that a subscription begins after. -/
def baseline : Fetched → Nat
  | .ok (_, version) => version
  | .error _ => 0

/-! ## Registrations of both kinds -/

/-- Registers a handler by what was fetched for it, where `enter` makes the subscription that
begins after a version. -/
def register (enter : Nat → Watcher H) (tolerant : Bool) (handler : H) (fetched : Fetched)
    (w : Watcher H) (name : String) (s : σ) (react : Reaction H σ) :
    Except WatchError Unit × Served H σ :=
  match fetched with
  | .ok (payload, version) =>
    match react handler payload s with
    | .ok s => (.ok (), ⟨enter version, s, [⟨handler, payload, version, true⟩]⟩)
    | .error why => (.error (.refused name why), ⟨w, s, [⟨handler, payload, version, false⟩]⟩)
  | .error why => if tolerant then (.ok (), ⟨enter 0, s, []⟩) else (.error why, ⟨w, s, []⟩)

theorem subscribeKey_eq (react : Reaction H σ) (w : Watcher H) (name : String) (tolerant : Bool)
    (handler : H) (read : Except StoreError (Option Entry)) (s : σ) :
    w.subscribeKey react name tolerant handler read s =
      register (fun v => { w with keys := w.keys.insert (w.fullKey name) (.start handler v) })
        tolerant handler (fetchKey (w.fullKey name) read) w (w.fullKey name) s react := by
  unfold subscribeKey register
  rcases read with why | _ | e
  · rfl
  · rfl
  · rfl

theorem maxVersion_eq_max? (entries : List Entry) :
    maxVersion entries = (entries.map (·.version)).max?.getD 0 := by
  cases entries with
  | nil => rfl
  | cons e rest =>
    rw [maxVersion, List.foldl_cons, Nat.zero_max, List.map_cons, List.max?_cons', List.foldl_map]
    rfl

theorem subscribeDirectory_eq (react : Reaction H σ) (w : Watcher H) (name : String) (handler : H)
    (read : Except StoreError Listing) (s : σ) :
    w.subscribeDirectory react name handler read s =
      register (fun v => { w with
          directories := w.directories.insert (w.fullKey name) (.start handler v) })
        false handler (fetchDirectory read) w (w.fullKey name) s react := by
  rcases read with why | listing
  · rfl
  · rw [fetchDirectory, ← maxVersion_eq_max?]
    rfl

/-! ## All or nothing -/

/-- A registration of a handler, for every way in which handlers may react, makes one subscription
or changes nothing. -/
structure IsAllOrNothing (t : Watched) (name : String) (tolerant : Bool) (handler : H)
    (fetched : Fetched) (w : Watcher H) (s : σ)
    (attempt : Reaction H σ → Except WatchError Unit × Served H σ) : Prop where
  /-- What was fetched has to be taken, whatever is tolerated. -/
  result : ∀ react, (attempt react).1 =
    match fetched with
    | .ok (payload, _) => match react handler payload s with
      | .ok _ => .ok ()
      | .error why => .error (.refused name why)
    | .error why => if tolerant then .ok () else .error why
  /-- What the handlers look after changes only as the handler takes what was fetched. -/
  state : ∀ react, (attempt react).2.state =
    match fetched with
    | .ok (payload, _) => match react handler payload s with
      | .ok s' => s'
      | .error _ => s
    | .error _ => s
  /-- After an error every subscription is as it was. -/
  kept : ∀ react why, (attempt react).1 = .error why → (attempt react).2.watcher = w
  /-- After a success there is the new subscription, and every other one is as it was. -/
  registered : ∀ react, (attempt react).1 = .ok () →
    Becomes w (attempt react).2.watcher t name
      { handler, delivered := baseline fetched, attempted := baseline fetched } ∧
    (attempt react).2.watcher.space = w.space ∧ (attempt react).2.watcher.metrics = w.metrics
  /-- What was fetched is offered once, and nothing else is offered. -/
  offered : ∀ react, (attempt react).2.offers =
    match fetched with
    | .ok (payload, version) => [⟨handler, payload, version, (attempt react).1.isOk⟩]
    | .error _ => []
  /-- The handler has no other say than in its answer to that offer. -/
  asked : ∀ react react' : Reaction H σ,
    (∀ payload version, fetched = .ok (payload, version) →
      react handler payload s = react' handler payload s) → attempt react = attempt react'

theorem isAllOrNothing_register {t : Watched} {name : String} {handler : H} {w : Watcher H}
    {enter : Nat → Watcher H} (henter : ∀ v, Becomes w (enter v) t name (.start handler v) ∧
      (enter v).space = w.space ∧ (enter v).metrics = w.metrics)
    (tolerant : Bool) (fetched : Fetched) (s : σ) :
    IsAllOrNothing t name tolerant handler fetched w s
      (register enter tolerant handler fetched w name s) where
  result react := by
    rcases fetched with why | ⟨payload, version⟩
    · cases tolerant <;> rfl
    · cases hr : react handler payload s <;> simp [register, hr]
  state react := by
    rcases fetched with why | ⟨payload, version⟩
    · cases tolerant <;> rfl
    · cases hr : react handler payload s <;> simp [register, hr]
  kept react why h := by
    rcases fetched with _ | ⟨payload, version⟩
    · cases tolerant with
      | true => cases h
      | false => rfl
    · cases hr : react handler payload s with
      | ok s' => simp [register, hr] at h
      | error why => simp [register, hr]
  registered react h := by
    rcases fetched with _ | ⟨payload, version⟩
    · cases tolerant with
      | true => exact henter 0
      | false => cases h
    · cases hr : react handler payload s with
      | ok s' =>
        simp only [register, hr]
        exact henter version
      | error why => simp [register, hr] at h
  offered react := by
    rcases fetched with _ | ⟨payload, version⟩
    · cases tolerant <;> rfl
    · cases hr : react handler payload s <;> simp [register, hr, Except.isOk, Except.toBool]
  asked react react' h := by
    rcases fetched with _ | ⟨payload, version⟩
    · rfl
    · simp [register, h payload version rfl]

/-- For every watcher, every store by what it answers to reads, and every way in which handlers
react, a registration is all or nothing. That of a key fails without a value unless it is tolerant,
that of a directory fails without a listing, and both fail if the handler refuses what was fetched.
Then nothing has changed. Otherwise the subscription under the full name is new and no other one
has changed; it stands at the version that the handler has just taken, the highest one of a
listing, or at zero if nothing was fetched. The handler was offered what was fetched, once, and
nothing else. -/
theorem registration_all_or_nothing (get : String → Except StoreError (Option Entry))
    (list : String → Except StoreError Listing) (w : Watcher H) (name : String) (handler : H)
    (s : σ) :
    (∀ tolerant, IsAllOrNothing .key (w.fullKey name) tolerant handler
      (fetchKey (w.fullKey name) (get (w.fullKey name))) w s
      fun react => w.subscribeKey react name tolerant handler (get (w.fullKey name)) s) ∧
    IsAllOrNothing .directory (w.fullKey name) false handler
      (fetchDirectory (list (w.fullKey name))) w s
      fun react => w.subscribeDirectory react name handler (list (w.fullKey name)) s := by
  constructor
  · intro tolerant
    simp only [subscribeKey_eq]
    exact isAllOrNothing_register (fun v => ⟨becomes_keys w _ _, rfl, rfl⟩) tolerant _ s
  · simp only [subscribeDirectory_eq]
    exact isAllOrNothing_register (fun v => ⟨becomes_directories w _ _, rfl, rfl⟩) false _ s

end AdmissionGate.Watcher
