-- The law of the rate limit. The window keeps tables of counters for the
-- seconds of a minute; the law knows one number, the requests of a key that
-- were counted since the latest rotation, and reads it off the acts so far.
import AdmissionGate.Proofs.Firewall.Effects

namespace AdmissionGate.Firewall

/-! ## The past

A past is a list of acts, the latest first. -/

/-- The settings that an act puts in force. -/
def Act.settings? : Act → Option LiveSettings
  | .record raw => (FirewallRecord.ofBytes? raw).map fun r => ⟨r.blockIp, r.maxReqSecond⟩
  | _ => none

/-- No other act changes the live settings. -/
theorem live_step (f : Firewall) (a : Act) : (f.step a).live = a.settings?.getD f.live := by
  cases a with
  | request v now =>
    obtain ⟨w, r, m, hframe⟩ := judge_snd f v now
    show (f.judge v now).2.live = _
    rw [hframe]
    rfl
  | rotate now => rfl
  | record raw =>
    show (f.offerRecord raw).live = _
    simp only [offerRecord, applyRecord?, Act.settings?]
    cases FirewallRecord.ofBytes? raw <;> rfl
  | sweep now => rfl

/-- The settings in force after a past: those of its latest record, or the defaults. -/
def inForce (settings : FirewallSettings) (past : List Act) : LiveSettings :=
  (past.findSome? Act.settings?).getD ⟨[], settings.defaultMaxReqSecond⟩

/-- How many requests with a key were counted since the latest rotation, or since the start if
there was none. Each is judged by the settings that were in force when it came. -/
def hitsSinceRotation (settings : FirewallSettings) (key : UInt32) : List Act → Nat
  | [] => 0
  | .rotate _ :: _ => 0
  | .request v _ :: past =>
    hitsSinceRotation settings key past
      + if (inForce settings past).counts v.ip = true ∧ v.ip.rateKey = key then 1 else 0
  | .record _ :: past => hitsSinceRotation settings key past
  | .sweep _ :: past => hitsSinceRotation settings key past

/-! ## The window and the past -/

/-- A firewall knows of its past the settings in force and the number of hits of every key. -/
structure Reckons (settings : FirewallSettings) (past : List Act) (f : Firewall) : Prop where
  live : f.live = inForce settings past
  count : ∀ key,
    f.window.count key = min (hitsSinceRotation settings key past) Decimal.maxU32

theorem reckons_start (settings : FirewallSettings) (filter : KeywordFilter) (built : Moment) :
    Reckons settings [] (start settings filter built) where
  live := rfl
  count key := by
    rw [start, RateWindow.count_start, hitsSinceRotation, Nat.zero_min]

theorem inForce_cons (settings : FirewallSettings) (a : Act) (past : List Act) :
    inForce settings (a :: past) = a.settings?.getD (inForce settings past) := by
  unfold inForce
  rw [List.findSome?_cons]
  cases a.settings? <;> rfl

theorem Reckons.step {settings : FirewallSettings} {past : List Act} {f : Firewall}
    (h : Reckons settings past f) (a : Act) : Reckons settings (a :: past) (f.step a) := by
  refine ⟨by rw [live_step, h.live, inForce_cons], fun key => ?_⟩
  cases a with
  | request v now =>
    show (f.judge v now).2.window.count key = _
    rw [window_judge, hitsSinceRotation, ← h.live]
    by_cases hcounts : f.live.counts v.ip = true
    · rw [if_pos hcounts, RateWindow.count_hit]
      simp only [hcounts, true_and]
      split
      next hkey =>
        rw [hkey, h.count, RateWindow.nextCount_min]
      next => exact h.count key
    · rw [if_neg hcounts, if_neg fun hc => hcounts hc.1]
      exact h.count key
  | rotate now =>
    show (f.window.rotate now.secondOfMinute).count key = _
    rw [RateWindow.count_rotate]
    exact (Nat.zero_min _).symm
  | record raw =>
    show (f.offerRecord raw).window.count key = _
    unfold offerRecord applyRecord?
    cases FirewallRecord.ofBytes? raw <;> exact h.count key
  | sweep now => exact h.count key

theorem Reckons.run {settings : FirewallSettings} {past : List Act} {f : Firewall}
    (h : Reckons settings past f) (acts : List Act) :
    Reckons settings (acts.reverse ++ past) (f.run acts) := by
  induction acts generalizing past f with
  | nil => exact h
  | cons a acts ih =>
    rw [List.reverse_cons, List.append_assoc]
    exact ih (h.step a)

theorem minEnforcedReqSecond_run (f : Firewall) (acts : List Act) :
    (f.run acts).minEnforcedReqSecond = f.minEnforcedReqSecond := by
  obtain ⟨_, _, _, _, h⟩ := run_eq f acts
  rw [h]

/-! ## The law -/

/-- After any run a request is turned away for its rate exactly if it is counted, the threshold
in force is positive and not below the floor, and the requests counted since the latest
rotation, this one included, are more than the threshold, as far as 32 bits can count them.
Every request adds to the count but one that is blocked or from an address that is not checked. -/
theorem rate_limited_exactly (settings : FirewallSettings) (filter : KeywordFilter)
    (built : Moment) (acts : List Act) (v : Visit) (now : Moment) :
    let f := (start settings filter built).run acts
    let past := acts.reverse
    let live := inForce settings past
    let verdict := (f.judge v now).1
    (f.live = live) ∧
      (verdict = .rejected .rateLimited ↔
        (v.ip.isEmpty = false ∧ v.ip.isLocal = false ∧ v.ip ∉ live.blocked) ∧
          0 < live.maxReqSecond ∧ settings.minEnforcedReqSecond ≤ live.maxReqSecond ∧
          live.maxReqSecond <
            min (hitsSinceRotation settings v.ip.rateKey past + 1) Decimal.maxU32) ∧
      ∀ key, hitsSinceRotation settings key (.request v now :: past) =
        hitsSinceRotation settings key past +
          if (v.ip.isEmpty = false ∧ v.ip.isLocal = false ∧ verdict ≠ .rejected .blocked) ∧
            v.ip.rateKey = key then 1 else 0 := by
  intro f past live verdict
  have hreckons : Reckons settings past f := by
    have hrun := (reckons_start settings filter built).run acts
    rwa [List.append_nil] at hrun
  have hfloor : f.minEnforcedReqSecond = settings.minEnforcedReqSecond :=
    minEnforcedReqSecond_run _ acts
  refine ⟨hreckons.live, ?_, fun key => ?_⟩
  · rw [judge_rateLimited_iff, hreckons.count, hreckons.live, LiveSettings.counts_iff,
      RateWindow.nextCount_min]
    simp [isOverLimit, maxReqSecond, hreckons.live, hfloor, and_assoc, live]
  · have hcounts := counts_iff_judge f v now
    rw [hreckons.live] at hcounts
    rw [hitsSinceRotation]
    exact congrArg _ (ite_congr (propext (and_congr_left fun _ => hcounts)) (fun _ => rfl)
      fun _ => rfl)

end AdmissionGate.Firewall
