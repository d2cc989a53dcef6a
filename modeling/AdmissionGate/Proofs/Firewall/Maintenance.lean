-- How long maintenance lets the replay cache keep a signature. A sweep comes
-- with every sixtieth tick, and each looks half a bucket further into the
-- hour, so that within an hour the sweeps empty every bucket, wherever in the
-- hour they began.
import AdmissionGate.Proofs.Firewall.Acts
import Mathlib.Data.List.Induction

namespace AdmissionGate.Firewall

/-! ## Shifts -/

/-- Something that happens during maintenance: the tick of the next second, a request, or a
record that is offered. A request is early if the clock has come to the next second while the
tick of that second is still to come. -/
inductive Shift.Event where
  | tick
  | request (v : Visit) (early : Bool)
  | record (raw : Bytes)

/-- A firewall under maintenance, with the second of the last tick, the ticks since the last
sweep, and the requests admitted so far, each with the second in which it was. -/
structure Shift where
  clock : Int
  ticks : Nat
  firewall : Firewall
  admissions : List (Int × Visit)

namespace Shift

/-- Maintenance of a new firewall, which begins at `start`. -/
def start (settings : FirewallSettings) (filter : KeywordFilter) (start : Int) : Shift :=
  ⟨start, 0, Firewall.start settings filter start, []⟩

def step (x : Shift) : Event → Shift
  | .tick =>
    let (ticks, firewall) := Firewall.tick (x.clock + 1) (x.ticks, x.firewall)
    { x with clock := x.clock + 1, ticks, firewall }
  | .request v early =>
    let now := if early then x.clock + 1 else x.clock
    let (verdict, firewall) := x.firewall.judge v now
    { x with
      firewall
      admissions := if verdict = .admitted then x.admissions ++ [(now, v)] else x.admissions }
  | .record raw => { x with firewall := x.firewall.offerRecord raw }

def run (x : Shift) (events : List Event) : Shift := events.foldl step x

theorem run_snoc (x : Shift) (events : List Event) (e : Event) :
    x.run (events ++ [e]) = (x.run events).step e := List.foldl_append

end Shift

/-! ## Sweeps -/

/-- Maintenance that began at `start` sweeps with the tick of this second. -/
def SweepsAt (start now : Int) : Prop := (now - start) % sweepTicks = 0

/-- The bucket that a sweep at `now` empties. -/
def sweptSlot (now : Int) : Fin 30 := ReplayCache.slotOf (Moment.partOfHour (now + sweepAhead))

/-- In the hour after any second a sweep comes to every bucket. -/
theorem exists_sweep (start now : Int) (slot : Fin 30) :
    ∃ s : Int, now < s ∧ s ≤ now + 3600 ∧ SweepsAt start s ∧ sweptSlot s = slot := by
  -- the first sweep after `now`, and the minutes from it to the one that comes to the bucket
  obtain ⟨first, hfirst⟩ : ∃ s : Int, s = start + ((now - start) / 60 + 1) * 60 := ⟨_, rfl⟩
  obtain ⟨minutes, hminutes⟩ : ∃ m : Int, m = (2 * slot - (first + 120) / 60) % 60 := ⟨_, rfl⟩
  have hsoon : now < first ∧ first ≤ now + 60 := by omega
  have hwithin : 0 ≤ minutes ∧ minutes < 60 := by omega
  have hslot := slot.isLt
  refine ⟨first + minutes * 60, by omega, by omega, ?_, Fin.ext ?_⟩
  · unfold SweepsAt sweepTicks
    omega
  · unfold sweptSlot ReplayCache.slotOf Moment.partOfHour sweepAhead
    simp only
    omega

/-- The tick that completes the count empties a bucket, and no other touches the cache. -/
theorem replay_tick (now : Moment) (ticks : Nat) (f : Firewall) :
    (tick now (ticks, f)).2.replay =
      if ticks + 1 = sweepTicks then f.replay.clear (Moment.partOfHour (now + sweepAhead))
      else f.replay := by
  unfold tick
  simp only
  split <;> rfl

theorem ticks_tick (now : Moment) (ticks : Nat) (f : Firewall) :
    (tick now (ticks, f)).1 = if ticks + 1 = sweepTicks then 0 else ticks + 1 := by
  unfold tick
  simp only
  split <;> rfl

/-! ## What is still held -/

/-- The signature of a request, and the bucket that it is filed in. -/
def IsFiledAs (v : Visit) (slot : Fin 30) (signature : String) : Prop :=
  ReplayCache.slotOf (timestamp v.query).partOfHour = slot ∧
    v.query.value Params.signature = signature

namespace Shift

variable {start : Int} {x : Shift}

/-- The count of ticks is in step with the clock, and each signature that is held was admitted
since the latest sweep of its bucket. -/
structure Sound (start : Int) (x : Shift) : Prop where
  begun : start ≤ x.clock
  ticks : (x.ticks : Int) = (x.clock - start) % sweepTicks
  held : ∀ b signature, x.firewall.replay.holds b signature = true →
    ∃ m v, (m, v) ∈ x.admissions ∧ IsFiledAs v (ReplayCache.slotOf b) signature ∧ start ≤ m ∧
      ∀ s, SweepsAt start s → m < s → s ≤ x.clock → sweptSlot s ≠ ReplayCache.slotOf b

theorem sound_start (settings : FirewallSettings) (filter : KeywordFilter) (start : Int) :
    Sound start (Shift.start settings filter start) := by
  refine ⟨Int.le_refl _, by simp [Shift.start], ?_⟩
  intro b signature h
  rw [Shift.start, Firewall.start, ReplayCache.holds_empty] at h
  cases h

/-- The next tick is one that sweeps exactly if its second is. -/
theorem Sound.sweeps_iff (h : Sound start x) :
    x.ticks + 1 = sweepTicks ↔ SweepsAt start (x.clock + 1) := by
  have hticks := h.ticks
  unfold SweepsAt
  unfold sweepTicks at *
  omega

theorem Sound.tick (h : Sound start x) : Sound start (x.step .tick) := by
  have hsweeps := h.sweeps_iff
  obtain ⟨hbegun, hticks, hheld⟩ := h
  refine ⟨?_, ?_, ?_⟩
  · show start ≤ x.clock + 1
    omega
  · show (((Firewall.tick (x.clock + 1) (x.ticks, x.firewall)).1 : Nat) : Int) =
      (x.clock + 1 - start) % sweepTicks
    rw [ticks_tick]
    unfold sweepTicks at *
    split <;> omega
  · intro b signature h
    have hreplay : (x.step .tick).firewall.replay = _ :=
      replay_tick (x.clock + 1) x.ticks x.firewall
    rw [hreplay] at h
    have hbefore : x.firewall.replay.holds b signature = true ∧
        (SweepsAt start (x.clock + 1) → sweptSlot (x.clock + 1) ≠ ReplayCache.slotOf b) := by
      split at h
      next =>
        obtain ⟨hother, hold⟩ := (ReplayCache.holds_clear _ _ _ _).mp h
        exact ⟨hold, fun _ => hother⟩
      next hno => exact ⟨h, fun hs => absurd (hsweeps.mpr hs) hno⟩
    obtain ⟨m, v, hmem, hfiled, hstart, hsince⟩ := hheld b signature hbefore.1
    refine ⟨m, v, hmem, hfiled, hstart, fun s hs hms hle => ?_⟩
    have hclock : s ≤ x.clock + 1 := hle
    by_cases hlast : s = x.clock + 1
    · rw [hlast] at hs ⊢
      exact hbefore.2 hs
    · exact hsince s hs hms (by omega)

theorem Sound.request (h : Sound start x) (v : Visit) (early : Bool) :
    Sound start (x.step (.request v early)) := by
  obtain ⟨hbegun, hticks, hheld⟩ := h
  refine ⟨hbegun, hticks, fun b signature h => ?_⟩
  obtain ⟨now, hnow⟩ : ∃ now, now = if early then x.clock + 1 else x.clock := ⟨_, rfl⟩
  have hfirewall : (x.step (.request v early)).firewall = (x.firewall.judge v now).2 := by
    rw [hnow]
    rfl
  have hadmissions : (x.step (.request v early)).admissions =
      if (x.firewall.judge v now).1 = .admitted then x.admissions ++ [(now, v)]
      else x.admissions := by
    rw [hnow]
    rfl
  have hold : x.firewall.replay.holds b signature = true → ∃ m w,
      (m, w) ∈ (x.step (.request v early)).admissions ∧
        IsFiledAs w (ReplayCache.slotOf b) signature ∧ start ≤ m ∧
        ∀ s, SweepsAt start s → m < s → s ≤ x.clock → sweptSlot s ≠ ReplayCache.slotOf b := by
    intro h
    obtain ⟨m, w, hmem, hrest⟩ := hheld b signature h
    refine ⟨m, w, ?_, hrest⟩
    rw [hadmissions]
    split
    · exact List.mem_append_left _ hmem
    · exact hmem
  rw [hfirewall, replay_judge] at h
  split at h
  next hadmitted =>
    rcases (ReplayCache.holds_insert _ _ _ _ _).mp h with h | hfiled
    · exact hold h
    · have hlate : x.clock ≤ now := by
        rw [hnow]
        split <;> omega
      refine ⟨now, v, ?_, hfiled, by omega, fun s _ hms hle => ?_⟩
      · rw [hadmissions, if_pos hadmitted.2]
        exact List.mem_append_right _ (List.mem_singleton_self _)
      · have hclock : s ≤ x.clock := hle
        omega
  next => exact hold h

theorem Sound.step (h : Sound start x) (e : Event) : Sound start (x.step e) := by
  cases e with
  | tick => exact h.tick
  | request v early => exact h.request v early
  | record raw =>
    have hreplay : (x.step (.record raw)).firewall.replay = x.firewall.replay := by
      simp only [Shift.step, offerRecord, applyRecord?]
      cases FirewallRecord.ofBytes? raw <;> rfl
    exact ⟨h.begun, h.ticks, fun b signature hb => h.held b signature (hreplay ▸ hb)⟩

theorem Sound.run (h : Sound start x) (events : List Event) : Sound start (x.run events) := by
  induction events generalizing x with
  | nil => exact h
  | cons e rest ih => exact ih (h.step e)

/-- Every second up to the clock has had its tick. -/
theorem exists_tick (x : Shift) (events : List Event) {s : Int} (hs : x.clock < s)
    (hle : s ≤ (x.run events).clock) :
    ∃ before after, events = before ++ .tick :: after ∧ (x.run before).clock + 1 = s := by
  induction events using List.reverseRecOn with
  | nil =>
    have hclock : s ≤ x.clock := hle
    omega
  | append_singleton events e ih =>
    rw [run_snoc] at hle
    by_cases hearlier : s ≤ (x.run events).clock
    · obtain ⟨before, after, rfl, hclock⟩ := ih hearlier
      exact ⟨before, after ++ [e], by simp, hclock⟩
    · cases e with
      | tick =>
        have hclock : s ≤ (x.run events).clock + 1 := hle
        exact ⟨events, [], rfl, by omega⟩
      | request v early => exact absurd hle hearlier
      | record raw => exact absurd hle hearlier

/-! ## The bound -/

/-- While the clock shows `now`, the second of the last tick or the next one, every signature
in the cache belongs to a request that was admitted less than 3720 seconds ago. And within any
31 times two minutes of maintenance some tick empties any given bucket. -/
theorem held_signatures_are_recent (settings : FirewallSettings) (filter : KeywordFilter)
    (start : Int) (events : List Event) :
    let x := (Shift.start settings filter start).run events
    (∀ now, x.clock ≤ now → now ≤ x.clock + 1 → ∀ b signature,
      x.firewall.replay.holds b signature = true →
        ∃ m v, (m, v) ∈ x.admissions ∧ IsFiledAs v (ReplayCache.slotOf b) signature ∧
          now - 3720 < m) ∧
    ∀ t, start ≤ t → t + 31 * 120 ≤ x.clock + 1 → ∀ b,
      ∃ before after, events = before ++ .tick :: after ∧
        let y := (Shift.start settings filter start).run before
        t ≤ y.clock + 1 ∧ y.clock + 1 < t + 31 * 120 ∧
          (y.step .tick).firewall.replay = y.firewall.replay.clear b := by
  intro x
  have hsound : ∀ events, Sound start ((Shift.start settings filter start).run events) :=
    (sound_start settings filter start).run
  constructor
  · intro now _ hnow b signature hholds
    obtain ⟨m, v, hmem, hfiled, hm, hsince⟩ := (hsound events).held b signature hholds
    refine ⟨m, v, hmem, hfiled, ?_⟩
    obtain ⟨s, hms, hle, hs, hslot⟩ := exists_sweep start m (ReplayCache.slotOf b)
    have hclock : ¬ s ≤ x.clock := fun hpast => hsince s hs hms hpast hslot
    omega
  · intro t ht hwindow b
    obtain ⟨s, hts, hle, hs, hslot⟩ := exists_sweep start t (ReplayCache.slotOf b)
    have hbegun : (Shift.start settings filter start).clock < s := Int.lt_of_le_of_lt ht hts
    obtain ⟨before, after, hevents, rfl⟩ := exists_tick _ events hbegun (show s ≤ x.clock by omega)
    refine ⟨before, after, hevents, by omega, by omega, ?_⟩
    show (Firewall.tick (_ + 1) (_, _)).2.replay = _
    rw [replay_tick, if_pos ((hsound before).sweeps_iff.mpr hs)]
    exact ReplayCache.clear_congr _ hslot

end Shift

end AdmissionGate.Firewall
