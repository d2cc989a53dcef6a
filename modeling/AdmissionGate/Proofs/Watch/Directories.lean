-- Subscribers of directories. A listing that is up to date leaves each of
-- them with all that its directory holds, unless a removal came last there.
-- What they are handed goes back in time only past a removal of the newest
-- entry, the one whose version decides whether a round concerns them.
import AdmissionGate.Proofs.Watch.Handings

namespace AdmissionGate.Watch

variable {H σ : Type}

/-- The places that some moves register handlers for, by number. -/
def placeOf (space : String) (moves : List (Move H)) (n : Nat) : Option Place :=
  moves[n]?.bind (Move.place? (Watcher.start space))

/-- Everything that the course of some moves hands out shows directories as they were. -/
theorem told_run (react : Reaction (Listener H) σ) (space : String) (s : σ)
    (moves : List (Move H)) :
    Told (placeOf space moves) (0 + moves.length) (changes moves)
      ((Course.start space s).run react (numbered 0 moves))
      ((Course.start space s).handings react (numbered 0 moves)) := by
  refine (told_start (placeOf space moves) space s).run react ?_
  intro i m p hm hp
  rw [Nat.zero_add, placeOf, hm]
  exact hp

/-- A version that a directory shows is not above the index at which it is shown. -/
theorem maxVersion_directoryAt_le (cs : List Change) (directory : String) (i : Nat) :
    maxVersion (directoryAt cs directory i) ≤ i := by
  refine maxVersion_le fun e he => ?_
  have hsound := Store.sound_empty.asOf i cs
  exact Nat.le_trans (hsound.bounded e (mem_directoryAt.mp he).1)
    (Store.index_asOf_le (Nat.zero_le i) cs)

/-! ## Convergence -/

/-- A dispatch of what the store holds now brings the subscriber of a directory at least to the
highest version that the directory has. -/
theorem Course.Sound.reached_current_directory {react : Reaction H σ} {x : Course H σ}
    {listing : Listing} {tour : Tour} (h : x.Sound) (htaken : listing ∈ x.taken)
    (hnow : listing.entries = (x.store.snapshot x.watcher.stem).entries) {directory : String}
    {sub : Subscription H}
    (hsub : (x.step react (.dispatch listing tour)).watcher.subscription? .directory directory =
      some sub) {e : Entry} (he : e ∈ x.store.under directory) : e.version ≤ sub.attempted := by
  rw [Course.step_dispatch htaken] at hsub
  obtain ⟨old, hold, _⟩ := (Watcher.sameHandlers_dispatch ..).before hsub
  have hstem := h.named .directory directory old hold
  have hfilter : (listing.entries.filter fun e => Text.startsWith e.key directory) =
      x.store.under directory := by
    rw [hnow]
    exact filter_under h.store.ordered hstem
  obtain ⟨hlisted, hin⟩ := List.mem_filter.mp (hfilter ▸ he)
  obtain ⟨b, hb⟩ := batchOf?_of_mem hlisted hin
  have hbatch := batchOf?_eq_some hb
  rw [hfilter] at hbatch
  have hvisited : b ∈ tour.visit (batches listing.entries x.watcher.directories.keys) := by
    rw [(tour.perm _).mem_iff, mem_batches, directory_batchOf? hb]
    exact ⟨(Table.mem_keys_iff _ _).mpr (Option.isSome_iff_exists.mpr ⟨old, hold⟩), hb⟩
  have hreached : (x.watcher.dispatch react tour.visit listing x.state).watcher.HasReached
      .directory b.directory b.version := Watcher.reached_dispatch_batch hvisited
  rw [hbatch] at hreached
  exact Nat.le_trans (le_maxVersion he) (hreached sub hsub)

/-- The values of what a store has under a directory. -/
theorem find?_valuesOf_under {s : Store} (hs : Store.Ordered s.entries) (directory key : String) :
    (valuesOf (s.under directory)).find? key =
      if Text.startsWith key directory then (s.find? key).map (·.value) else none := by
  have hordered : Store.Ordered (s.under directory) := by
    rw [Store.under_eq_filter hs]
    exact List.Pairwise.filter _ hs
  rw [find?_valuesOf hordered, Store.under_eq_filter hs, List.find?_filter]
  split
  next hin =>
    unfold Store.find?
    congr 2
    funext e
    by_cases he : e.key = key <;> simp [he, hin]
  next hout =>
    rw [Option.map_eq_none_iff, List.find?_eq_none]
    intro e _ he
    rw [decide_eq_true_eq, decide_eq_true_eq] at he
    exact hout (he.2 ▸ he.1)

/-- The last thing that the subscriber of a directory was offered shows it as it was at some
index. -/
theorem Told.last_shows {place : Nat → Option Place} {n : Nat} {cs : List Change}
    {x : Course (Listener H) σ} {log : List (Handing (Listener H))} (h : Told place n cs x log)
    {directory : String} {sub : Subscription (Listener H)}
    (hsub : x.watcher.subscription? .directory directory = some sub) :
    ∃ a, lastOffer? sub.handler.number x.offers = some a.offer ∧
      a.offer.version = sub.attempted ∧ Shows cs directory a := by
  obtain ⟨o, ho, hversion⟩ := h.latest directory sub hsub
  obtain ⟨hoffered, hnumber⟩ := List.mem_filter.mp (List.mem_of_getLast? ho)
  rw [decide_eq_true_eq] at hnumber
  rw [h.offers] at hoffered
  obtain ⟨a, ha, rfl⟩ := List.mem_map.mp hoffered
  refine ⟨a, ho, hversion, h.shows a ha directory ?_⟩
  rw [hnumber]
  exact h.orderly.seated.seat hsub

/-- Once a listing is dispatched that shows the namespace as the store holds it, the last thing
that the subscriber of a directory was offered is all that the store holds there and nothing
else, if the last write there was no removal. -/
theorem directory_subscribers_converge (react : Reaction H σ) (space : String) (s : σ)
    (moves : List (Move H)) (listing : Listing) (tour : Tour) :
    let x := (Course.start space s).run (Listener.reaction react) (numbered 0 moves)
    let y := x.step (Listener.reaction react) (.dispatch listing tour)
    listing ∈ x.taken → listing.entries = (x.store.snapshot x.watcher.stem).entries →
    ∀ directory sub, y.watcher.directories.find? directory = some sub →
      (∀ key, Store.empty.lastWriteUnder? directory (changes moves) ≠ some (.delete key)) →
      ∃ values, (lastOffer? sub.handler.number y.offers).map (·.payload) =
          some (.snapshot values) ∧
        ∀ key, values.find? key =
          if Text.startsWith key directory then (y.store.find? key).map (·.value) else none := by
  intro x y htaken hnow directory sub hsub hlast
  have hx := told_run (Listener.reaction react) space s moves
  obtain ⟨log, hy⟩ : ∃ log,
      Told (placeOf space moves) (0 + moves.length + 1) (changes moves ++ []) y log :=
    ⟨_, hx.step (Listener.reaction react) (m := .dispatch listing tour) (by simp [Move.place?])⟩
  rw [List.append_nil] at hy
  have hstore : y.store = Store.empty.after (changes moves) := hy.dated.store
  have hsame : x.store = y.store := hx.dated.store.trans hstore.symm
  obtain ⟨a, hlatest, hversion, hshows⟩ := hy.last_shows hsub
  -- Its version tells that the last offer is from after the last write.
  have hfresh : directoryAt (changes moves) directory a.index = y.store.under directory := by
    rw [hstore]
    refine Store.under_asOf Store.sound_empty hlast ?_ hshows.index
    intro e he
    rw [← hstore, ← hsame] at he
    have hle := hx.sound.reached_current_directory htaken hnow hsub he
    rw [← hversion, hshows.version] at hle
    exact Nat.le_trans hle (maxVersion_directoryAt_le _ _ _)
  refine ⟨valuesOf (y.store.under directory), ?_, ?_⟩
  · rw [hlatest, Option.map_some, hshows.payload, hfresh]
  · intro key
    exact find?_valuesOf_under hy.sound.store.ordered directory key

/-- A late listing brings a removed entry back, and the dispatch after the next write takes it
away again. -/
theorem late_listing_outlived :
    let react : Reaction Unit Unit := fun _ _ _ => .ok ()
    let tour : Tour := ⟨id, fun _ => .refl _⟩
    let old : Listing := ⟨[⟨"gate/svc/a", [1], 1⟩, ⟨"gate/svc/b", [2], 2⟩], 2⟩
    let new : Listing := ⟨[⟨"gate/svc/a", [3], 4⟩], 4⟩
    let moves : List (Move Unit) :=
      [.change (.put "gate/svc/a" [1]), .change (.put "gate/svc/b" [2]), .poll,
        .change (.delete "gate/svc/b"), .listenDirectory "svc/" (), .listenDirectory "s" (),
        .dispatch old tour, .change (.put "gate/svc/a" [3]), .poll]
    let x := (Course.start "gate" ()).run (Listener.reaction react) (numbered 0 moves)
    let y := x.step (Listener.reaction react) (.dispatch new tour)
    new ∈ x.taken ∧ new.entries = (x.store.snapshot x.watcher.stem).entries ∧
      (∀ key, Store.empty.lastWriteUnder? "gate/svc/" (changes moves) ≠ some (.delete key)) ∧
      ∃ sub values, y.watcher.directories.find? "gate/svc/" = some sub ∧
        (lastOffer? sub.handler.number y.offers).map (·.payload) = some (.snapshot values) ∧
        values.find? "gate/svc/a" = some [3] ∧ values.find? "gate/svc/b" = none := by
  intro react tour old new moves x y
  have htaken : new ∈ x.taken := by decide +kernel
  have hnow : new.entries = (x.store.snapshot x.watcher.stem).entries := by decide +kernel
  have hlast : Store.empty.lastWriteUnder? "gate/svc/" (changes moves) =
      some (.put "gate/svc/a" [3]) := rfl
  have hnot : ∀ key, Store.empty.lastWriteUnder? "gate/svc/" (changes moves) ≠
      some (.delete key) := by
    intro key hkey
    cases hlast.symm.trans hkey
  have hsome : (y.watcher.directories.find? "gate/svc/").isSome = true := by decide +kernel
  obtain ⟨sub, hsub⟩ := Option.isSome_iff_exists.mp hsome
  obtain ⟨values, hvalues, hfind⟩ :=
    directory_subscribers_converge react "gate" () moves new tour htaken hnow _ sub hsub hnot
  refine ⟨htaken, hnow, hnot, sub, values, hsub, hvalues, ?_, ?_⟩
  · rw [hfind]
    decide +kernel
  · rw [hfind]
    decide +kernel

/-! ## Back in time -/

/-- The newest of some entries is gone later, and all that is there then is older. -/
def NewestGone (earlier later : List Entry) : Prop :=
  ∃ e ∈ earlier, (∀ d ∈ earlier, d.version ≤ e.version) ∧
    ∀ d ∈ later, d.key ≠ e.key ∧ d.version < e.version

/-- A directory whose highest version is lower later has lost its newest entry by then. -/
theorem newestGone_of_maxVersion_lt {cs : List Change} {directory : String} {i j : Nat}
    (hij : i ≤ j)
    (h : maxVersion (directoryAt cs directory j) < maxVersion (directoryAt cs directory i)) :
    NewestGone (directoryAt cs directory i) (directoryAt cs directory j) := by
  obtain ⟨e, he, hversion⟩ := exists_newest (Nat.lt_of_le_of_lt (Nat.zero_le _) h)
  have holder : ∀ d ∈ directoryAt cs directory j, d.version < e.version := by
    intro d hd
    have hmax := le_maxVersion hd
    omega
  refine ⟨e, he, fun d hd => ?_, fun d hd => ⟨fun hkey => ?_, holder d hd⟩⟩
  · rw [hversion]
    exact le_maxVersion hd
  · have hpast := Store.past_asOf Store.sound_empty hij (mem_directoryAt.mp he).1
    have hfind := Store.find?_of_mem (Store.sound_empty.asOf j cs).ordered
      (mem_directoryAt.mp hd).1
    have hle := hpast.oldest d (hkey ▸ hfind)
    have hlt := holder d hd
    omega

/-- The subscriber of a directory is handed it as it was before something that it was handed
already, or with an entry that had been removed by then, only if the newest entry that it then
gets had been removed as well, with nothing newer there. -/
theorem handed_back_only_if_newest_gone (react : Reaction H σ) (space : String) (s : σ)
    (moves : List (Move H)) {n : Nat} {name : String} {handler : H}
    (hmove : moves[n]? = some (.listenDirectory name handler)) :
    let held := directoryAt (changes moves) ((Watcher.start space : Watcher H).fullKey name)
    let log := ((Course.start space s).handings (Listener.reaction react) (numbered 0 moves)).filter
      (·.offer.handler.number = n)
    (∀ h ∈ log, h.offer.payload = .snapshot (valuesOf (held h.index))) ∧
      log.Pairwise fun a b =>
        (b.index < a.index ∨ ∃ e ∈ held b.index, e.version ≤ a.index ∧ e ∉ held a.index) →
        NewestGone (held b.index) (held a.index) := by
  intro held log
  have htold := told_run (Listener.reaction react) space s moves
  have hshows : ∀ h ∈ log, Shows (changes moves)
      ((Watcher.start space : Watcher H).fullKey name) h := by
    intro h hmem
    obtain ⟨hlog, hnumber⟩ := List.mem_filter.mp hmem
    rw [decide_eq_true_eq] at hnumber
    refine htold.shows h hlog _ ?_
    rw [hnumber, placeOf, hmove]
    rfl
  have hrising := htold.orderly.rising
  rw [htold.offers, List.pairwise_map] at hrising
  refine ⟨fun h hmem => (hshows h hmem).payload, ?_⟩
  refine List.Pairwise.imp_of_mem ?_ (hrising.filter _)
  intro a b ha hb hversion hback
  have hlt := hversion ?_
  · rw [(hshows a ha).version, (hshows b hb).version] at hlt
    refine newestGone_of_maxVersion_lt ?_ hlt
    rcases hback with hback | ⟨e, he, hle, hnot⟩
    · exact Nat.le_of_lt hback
    · rcases Nat.le_total b.index a.index with hba | hab
      · exact hba
      · -- What is there at the later index with so low a version was there before.
        obtain ⟨hmem, hin⟩ := mem_directoryAt.mp he
        exact absurd (mem_directoryAt.mpr ⟨Store.mem_asOf_of_version_le hab hmem hle, hin⟩) hnot
  · have hna := (List.mem_filter.mp ha).2
    have hnb := (List.mem_filter.mp hb).2
    rw [decide_eq_true_eq] at hna hnb
    rw [hna, hnb]

/-- A listing from before a removal is dispatched to a directory subscribed to after it: the
entry is handed out again, as of an index below that of the registration. -/
theorem removed_entry_handed_out :
    let react : Reaction Unit Unit := fun _ _ _ => .ok ()
    let tour : Tour := ⟨id, fun _ => .refl _⟩
    let old : Listing := ⟨[⟨"gate/svc/a", [1], 1⟩, ⟨"gate/svc/b", [2], 2⟩], 2⟩
    let moves : List (Move Unit) :=
      [.change (.put "gate/svc/a" [1]), .change (.put "gate/svc/b" [2]), .poll,
        .change (.delete "gate/svc/b"), .listenDirectory "svc/" (), .dispatch old tour]
    let log := ((Course.start "gate" ()).handings (Listener.reaction react)
      (numbered 0 moves)).filter (·.offer.handler.number = 4)
    log.map (fun h => (h.index, h.offer.payload)) =
        [(3, .snapshot ⟨[("gate/svc/a", [1])]⟩),
          (2, .snapshot ⟨[("gate/svc/a", [1]), ("gate/svc/b", [2])]⟩)] ∧
      ¬ log.Pairwise fun a b => a.index ≤ b.index := by
  decide +kernel

/-- Of two listings from before a removal, the one whose newest entry is still there is no news
to the directory. The other one is handed out, and its newest entry is the removed one. -/
theorem newest_gone_in_late_listing :
    let react : Reaction Unit Unit := fun _ _ _ => .ok ()
    let tour : Tour := ⟨id, fun _ => .refl _⟩
    let a : Entry := ⟨"gate/svc/a", [1], 1⟩
    let b : Entry := ⟨"gate/svc/b", [2], 2⟩
    let c : Entry := ⟨"gate/svc/c", [3], 3⟩
    let moves : List (Move Unit) :=
      [.change (.put a.key a.value), .change (.put b.key b.value), .poll,
        .change (.put c.key c.value), .poll, .change (.delete c.key),
        .listenDirectory "svc/" (), .dispatch ⟨[a, b], 2⟩ tour, .dispatch ⟨[a, b, c], 3⟩ tour]
    let held := directoryAt (changes moves) "gate/svc/"
    let log := ((Course.start "gate" ()).handings (Listener.reaction react)
      (numbered 0 moves)).filter (·.offer.handler.number = 6)
    moves[6]? = some (.listenDirectory "svc/" ()) ∧ log.map (·.index) = [4, 3] ∧
      (∀ h ∈ log, h.offer.payload = .snapshot (valuesOf (held h.index))) ∧
      NewestGone (held 3) (held 4) := by
  intro react tour a b c moves held log
  have hname : (Watcher.start "gate" : Watcher Unit).fullKey "svc/" = "gate/svc/" := by
    decide +kernel
  have hlog : log.map (·.index) = [4, 3] := by decide +kernel
  obtain ⟨hpayload, hpairs⟩ :=
    handed_back_only_if_newest_gone react "gate" () moves (show moves[6]? = some _ from rfl)
  rw [hname] at hpayload hpairs
  refine ⟨rfl, hlog, hpayload, ?_⟩
  obtain ⟨first, rest, hrest, hfirst, htail⟩ := List.map_eq_cons_iff.mp hlog
  obtain ⟨second, more, rfl, hsecond, _⟩ := List.map_eq_cons_iff.mp htail
  change log.Pairwise _ at hpairs
  rw [hrest] at hpairs
  have hpair := List.rel_of_pairwise_cons hpairs List.mem_cons_self
  rw [hfirst, hsecond] at hpair
  exact hpair (Or.inl (by decide))

end AdmissionGate.Watch
