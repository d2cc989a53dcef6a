-- The loop at rest. Over a script every outcome takes it at most two steps,
-- and over a store a poll that finds something is followed by one that finds
-- nothing newer. So the loop is never cut short by the number of steps that
-- it may take, and between two operations it always waits.
import AdmissionGate.Proofs.Store.LongPolls
import AdmissionGate.Watch.Session

namespace AdmissionGate.Watch

namespace Session

variable {H σ : Type}

/-! ## Waiting -/

/-- The loop cannot go on before an outcome comes, the store moves on or time passes. -/
def Waits (x : Session H σ) : Prop :=
  match x.loop, x.script with
  | .polling _ _, some outcomes => outcomes = []
  | .polling cursor deadline, none => x.store.channel.value ≤ cursor ∧ x.clock < deadline
  | .pausing _ deadline, _ => x.clock < deadline
  | _, _ => True

theorem advanceLoop?_eq_none_iff (react : Reaction H σ) (x : Session H σ) :
    x.advanceLoop? react false = none ↔ x.Waits := by
  unfold advanceLoop? Waits
  cases x.loop with
  | polling cursor deadline => rcases x.script with _ | _ | _ <;> simp
  | pausing cursor deadline => simp
  | _ => simp

/-- A poll that has just begun waits no longer than one that is under way. -/
theorem waits_of_advanceLoop? {react : Reaction H σ} {begun : Bool} {x : Session H σ}
    (h : x.advanceLoop? react begun = none) : x.Waits := by
  rw [← advanceLoop?_eq_none_iff react]
  cases begun with
  | false => exact h
  | true =>
    unfold advanceLoop? at h ⊢
    split at h <;> simp_all

/-! ## Steps of the loop -/

/-- The loop takes `n` steps, from one session to another that has to wait. -/
inductive Settles (react : Reaction H σ) : Bool → Nat → Session H σ → Session H σ → Prop
  | waits {begun : Bool} {x : Session H σ} : x.advanceLoop? react begun = none →
      Settles react begun 0 x x
  | goes {begun : Bool} {n : Nat} {x y z : Session H σ} : x.advanceLoop? react begun = some y →
      Settles react true n y z → Settles react begun (n + 1) x z

variable {react : Reaction H σ} {begun : Bool} {n k : Nat} {x y : Session H σ}

theorem Settles.waits_after (h : Settles react begun n x y) : y.Waits := by
  induction h with
  | waits hnone => exact waits_of_advanceLoop? hnone
  | goes _ _ ih => exact ih

/-- With enough steps allowed, the loop takes all that there are. -/
theorem Settles.settle_eq (h : Settles react begun n x y) {fuel : Nat} (hfuel : n ≤ fuel) :
    settle react fuel begun x = y := by
  induction h generalizing fuel with
  | waits hnone => cases fuel <;> simp [settle, hnone]
  | goes hsome _ ih =>
    obtain ⟨rest, rfl⟩ : ∃ rest, fuel = rest + 1 := ⟨fuel - 1, by omega⟩
    simp only [settle, hsome]
    exact ih (by omega)

/-- The loop has to wait after at most `k` steps. -/
def SettlesWithin (react : Reaction H σ) (begun : Bool) (k : Nat) (x : Session H σ) : Prop :=
  ∃ n y, n ≤ k ∧ Settles react begun n x y

theorem SettlesWithin.mono {l : Nat} (h : SettlesWithin react begun k x) (hkl : k ≤ l) :
    SettlesWithin react begun l x := by
  obtain ⟨n, y, hn, hy⟩ := h
  exact ⟨n, y, Nat.le_trans hn hkl, hy⟩

theorem settlesWithin_of_none (h : x.advanceLoop? react begun = none) :
    SettlesWithin react begun k x :=
  ⟨0, x, Nat.zero_le k, .waits h⟩

theorem SettlesWithin.goes (h : SettlesWithin react true k y)
    (hstep : x.advanceLoop? react begun = some y) : SettlesWithin react begun (k + 1) x := by
  obtain ⟨n, z, hn, hz⟩ := h
  exact ⟨n + 1, z, Nat.succ_le_succ hn, .goes hstep hz⟩

/-! ## What a step leaves -/

/-- The loop moves, and nothing changes but the loop, the subscribers and the events. -/
structure SameSetting (x y : Session H σ) : Prop where
  clock : y.clock = x.clock
  store : y.store = x.store
  script : y.script = x.script
  waitMs : y.waitMs = x.waitMs
  retryDelayMs : y.retryDelayMs = x.retryDelayMs

theorem sameSetting_afterPoll (react : Reaction H σ) (x : Session H σ) (cursor : Nat)
    (outcome : Outcome) : x.SameSetting (x.afterPoll react cursor outcome) := by
  unfold afterPoll finishRound
  split
  next h => split at h <;> cases h; exact ⟨rfl, rfl, rfl, rfl, rfl⟩
  next h => split at h <;> cases h; exact ⟨rfl, rfl, rfl, rfl, rfl⟩

/-- After a poll the loop polls on from a listing, or makes a pause. -/
theorem loop_afterPoll (react : Reaction H σ) (x : Session H σ) (cursor : Nat)
    (outcome : Outcome) :
    (∃ listing, outcome = .ok listing ∧
        (x.afterPoll react cursor outcome).loop =
          .polling listing.lastIndex (x.clock + x.waitMs)) ∨
      (x.afterPoll react cursor outcome).loop = .pausing cursor (x.clock + x.retryDelayMs) := by
  cases outcome with
  | error why => exact Or.inr rfl
  | ok listing =>
    by_cases hempty : listing.entries.isEmpty = true
    · exact Or.inr (by simp [afterPoll, finishRound, round, hempty, served])
    · refine Or.inl ⟨listing, rfl, ?_⟩
      simp [afterPoll, finishRound, round, hempty, served, beginPoll]

/-- Wherever the loop stands, it has to wait one step later than all its polls do. -/
theorem settlesWithin_of_polls (x : Session H σ) (begun : Bool)
    (hpolls : ∀ (y : Session H σ) (begun : Bool) (cursor deadline : Nat), x.SameSetting y →
      y.loop = .polling cursor deadline → SettlesWithin react begun k y) :
    SettlesWithin react begun (k + 1) x := by
  cases hloop : x.loop with
  | polling cursor deadline =>
    exact (hpolls x begun cursor deadline ⟨rfl, rfl, rfl, rfl, rfl⟩ hloop).mono (Nat.le_succ k)
  | pausing cursor deadline =>
    by_cases hdue : deadline ≤ x.clock
    · have hstep : x.advanceLoop? react begun = some (x.beginPoll cursor) := by
        simp [advanceLoop?, hloop, hdue]
      exact (hpolls (x.beginPoll cursor) true _ _ ⟨rfl, rfl, rfl, rfl, rfl⟩ rfl).goes hstep
    · exact settlesWithin_of_none (by simp [advanceLoop?, hloop, hdue])
  | _ => exact settlesWithin_of_none (by simp [advanceLoop?, hloop])

/-! ## Scripts -/

/-- A poll takes an outcome, and a pause that is over at once leads to the next one. -/
theorem settlesWithin_script {outcomes : List Outcome} {cursor deadline : Nat}
    (hscript : x.script = some outcomes) (hloop : x.loop = .polling cursor deadline) :
    SettlesWithin react begun (2 * outcomes.length) x := by
  induction outcomes generalizing x begun cursor deadline with
  | nil => exact settlesWithin_of_none (by simp [advanceLoop?, hloop, hscript])
  | cons outcome rest ih =>
    let y : Session H σ := { x with script := some rest }
    have hstep : x.advanceLoop? react begun = some (y.afterPoll react cursor outcome) := by
      simp [advanceLoop?, hloop, hscript, y]
    refine SettlesWithin.goes (settlesWithin_of_polls _ true fun z _ _ _ hz hpolling => ?_) hstep
    exact ih ((hz.script.trans (sameSetting_afterPoll ..).script).trans rfl) hpolling

/-! ## Stores -/

/-- What the loop over a store relies on: the store has published its index, and polls and
pauses take time. -/
structure Ready (x : Session H σ) : Prop where
  published : x.store.IsPublished
  takesTime : x.script = none → 0 < x.waitMs ∧ 0 < x.retryDelayMs

theorem Ready.of_sameSetting (h : Ready x) (hsame : x.SameSetting y) : Ready y := by
  refine ⟨hsame.store ▸ h.published, ?_⟩
  rw [hsame.script, hsame.waitMs, hsame.retryDelayMs]
  exact h.takesTime

/-- A poll that ends is followed by a pause, or by a poll from where the store stands. -/
theorem settlesWithin_store (h : Ready x) (hscript : x.script = none) {cursor deadline : Nat}
    (hloop : x.loop = .polling cursor deadline) : SettlesWithin react begun 1 x := by
  cases hstep : x.advanceLoop? react begun with
  | none => exact settlesWithin_of_none hstep
  | some y =>
    refine SettlesWithin.goes (k := 0) (settlesWithin_of_none ?_) hstep
    have hy : y = x.afterPoll react cursor (x.store.list x.watcher.stem) := by
      simp only [advanceLoop?, hloop, hscript] at hstep
      split at hstep <;> cases hstep
      rfl
    have hsame : x.SameSetting y := hy ▸ sameSetting_afterPoll ..
    obtain ⟨hwait, hretry⟩ := h.takesTime hscript
    have hnone : y.script = none := hsame.script.trans hscript
    rcases hy ▸ loop_afterPoll react x cursor (x.store.list x.watcher.stem) with
      ⟨listing, hlist, hpolling⟩ | hpausing
    · -- The store has answered, with the index that its channel has.
      have hanswered : x.store.isAvailable = true ∧ x.store.channel.value = listing.lastIndex := by
        unfold Store.list Store.answer at hlist
        split at hlist <;> cases hlist
        exact ⟨by assumption, h.published⟩
      have hlater : ¬ x.clock + x.waitMs ≤ x.clock := by omega
      simp only [advanceLoop?, hpolling, hnone, hsame.store, hsame.clock, hanswered]
      simp only [Nat.lt_irrefl, decide_false, Bool.not_true, Bool.and_false, Bool.false_or, hlater,
        Bool.false_eq_true, if_false]
    · have hlater : ¬ x.clock + x.retryDelayMs ≤ x.clock := by omega
      simp only [advanceLoop?, hpausing, hsame.clock, if_neg hlater]

/-! ## Rest -/

/-- The steps that the loop is allowed are enough for it to come to rest. -/
theorem settlesWithin_steps (h : Ready x) (react : Reaction H σ) (begun : Bool) :
    SettlesWithin react begun x.steps x := by
  unfold steps
  cases hscript : x.script with
  | some outcomes =>
    refine (settlesWithin_of_polls x begun fun y _ _ _ hy hpolling => ?_).mono (Nat.le_succ _)
    exact settlesWithin_script (hy.script.trans hscript) hpolling
  | none =>
    refine (settlesWithin_of_polls (k := 1) x begun fun y _ _ _ hy hpolling => ?_).mono (by decide)
    exact settlesWithin_store (h.of_sameSetting hy) (hy.script.trans hscript) hpolling

/-- More steps than the loop is allowed make no difference. -/
theorem settle_steps_add (h : Ready x) (react : Reaction H σ) (begun : Bool) (more : Nat) :
    settle react (x.steps + more) begun x = settle react x.steps begun x := by
  obtain ⟨n, y, hn, hy⟩ := settlesWithin_steps h react begun
  rw [hy.settle_eq hn, hy.settle_eq (Nat.le_trans hn (Nat.le_add_right _ _))]

/-! ## Operations -/

theorem Ready.advanceLoop? (h : Ready x) (hstep : x.advanceLoop? react begun = some y) :
    Ready y := by
  unfold Session.advanceLoop? at hstep
  split at hstep
  next cursor _ outcome rest _ _ =>
    cases hstep
    have hready : Ready { x with script := some rest } := ⟨h.published, nofun⟩
    exact hready.of_sameSetting (sameSetting_afterPoll react _ cursor outcome)
  next => cases hstep
  next cursor _ _ _ =>
    split at hstep <;> cases hstep
    exact h.of_sameSetting (sameSetting_afterPoll ..)
  next =>
    split at hstep <;> cases hstep
    exact h.of_sameSetting ⟨rfl, rfl, rfl, rfl, rfl⟩
  next => cases hstep

/-- A session whose loop waits until something is done. -/
structure Still (x : Session H σ) : Prop extends Ready x where
  waits : x.Waits

theorem Ready.settle (h : Ready x) (react : Reaction H σ) (begun : Bool) :
    Still (settle react x.steps begun x) := by
  obtain ⟨n, y, hn, hy⟩ := settlesWithin_steps h react begun
  rw [hy.settle_eq hn]
  refine ⟨?_, hy.waits_after⟩
  clear hn
  induction hy with
  | waits _ => exact h
  | goes hstep _ ih => exact ih (h.advanceLoop? hstep)

theorem Waits.lt_wakeTime (h : x.Waits) {t : Nat} (ht : x.wakeTime? = some t) : x.clock < t := by
  unfold Waits at h
  unfold wakeTime? at ht
  split at ht <;> simp_all

/-- The loop still waits at any time before the one at which it would go on by itself. -/
theorem Waits.at_time (h : x.Waits) {now : Nat} (hnow : ∀ t, x.wakeTime? = some t → now < t) :
    Waits { x with clock := now } := by
  unfold Waits at h ⊢
  unfold wakeTime? at hnow
  simp only
  split <;> simp_all

theorem Still.at_time (h : Still x) {now : Nat} (hnow : ∀ t, x.wakeTime? = some t → now < t) :
    Still { x with clock := now } :=
  ⟨⟨h.published, h.takesTime⟩, h.waits.at_time hnow⟩

theorem Still.advanceTo (h : Still x) (react : Reaction H σ) (target : Nat) :
    Still (advanceTo react target x) := by
  fun_induction Session.advanceTo react target x with
  | case1 x t hwake hdue ih =>
    have hready : Ready { x with clock := t } := ⟨h.published, h.takesTime⟩
    exact ih (hready.settle react false)
  | case2 x t hwake hnot =>
    refine h.at_time fun t' ht' => ?_
    have hclock := h.waits.lt_wakeTime ht'
    rw [hwake, Option.some.injEq] at ht'
    omega
  | case3 x hwake =>
    refine h.at_time fun t' ht' => ?_
    rw [hwake] at ht'
    cases ht'

/-- Something that is done with a session. -/
inductive Operation (H : Type) where
  | change (c : Change)
  | advance (ms : Nat)
  | start
  | stop
  | addOutcome (outcome : Outcome)
  | listenKey (name : String) (tolerant : Bool) (handler : H)
  | listenDirectory (name : String) (handler : H)

def perform (react : Reaction H σ) (x : Session H σ) : Operation H → Session H σ
  | .change c => x.change react c
  | .advance ms => x.advance react ms
  | .start => (x.startLoop react).2
  | .stop => x.stopLoop.2
  | .addOutcome outcome => x.addOutcome react outcome
  | .listenKey name tolerant handler => (x.subscribeKey react name tolerant handler).2
  | .listenDirectory name handler => (x.subscribeDirectory react name handler).2

theorem Still.perform (h : Still x) (react : Reaction H σ) (o : Operation H) :
    Still (x.perform react o) := by
  cases o with
  | change c =>
    have hready : Ready { x with store := x.store.apply c } := ⟨h.published.apply c, h.takesTime⟩
    exact hready.settle react false
  | advance ms => exact h.advanceTo react _
  | start =>
    show Still (x.startLoop react).2
    unfold startLoop
    split
    · have hready : Ready (x.beginPoll 0) := h.toReady.of_sameSetting ⟨rfl, rfl, rfl, rfl, rfl⟩
      exact hready.settle react true
    · exact h
  | stop =>
    show Still x.stopLoop.2
    unfold stopLoop
    split
    · exact ⟨⟨h.published, h.takesTime⟩, trivial⟩
    · exact ⟨⟨h.published, h.takesTime⟩, trivial⟩
    · exact h
  | addOutcome outcome =>
    have hready : Ready { x with script := x.script.map (· ++ [outcome]) } :=
      ⟨h.published, fun hnone => h.takesTime (Option.map_eq_none_iff.mp hnone)⟩
    exact hready.settle react false
  | listenKey name tolerant handler => exact ⟨⟨h.published, h.takesTime⟩, h.waits⟩
  | listenDirectory name handler => exact ⟨⟨h.published, h.takesTime⟩, h.waits⟩

/-- Whatever is done with a session and however its handlers answer, in between the loop waits:
it is at rest, and not cut short. Over a store that takes a wait and a delay that are not zero,
as validated settings have them. -/
theorem waits_between_operations (settings : StoreSettings) (scripted : Bool) (state : σ)
    (htime : scripted = false → 0 < settings.waitSecs ∧ 0 < settings.retryDelayMs)
    (operations : List (Reaction H σ × Operation H)) (react : Reaction H σ) :
    (operations.foldl (fun x o => x.perform o.1 o.2)
      (start settings scripted state)).advanceLoop? react false = none := by
  have hstart : Still (start settings scripted state : Session H σ) := by
    refine ⟨⟨rfl, fun hnone => ?_⟩, trivial⟩
    cases scripted with
    | true => cases hnone
    | false =>
      have hpositive := htime rfl
      exact ⟨Nat.mul_pos hpositive.1 (by decide), hpositive.2⟩
  rw [advanceLoop?_eq_none_iff]
  exact (List.foldlRecOn (motive := Still) _ _ hstart fun _ h o _ => h.perform o.1 o.2).waits

end Session

end AdmissionGate.Watch
