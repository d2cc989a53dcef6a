-- Runs of the firewall: requests, rotations, records and sweeps in any
-- order. What the firewall asks of a request never changes over a run, and
-- only an admission or a sweep touches the replay cache.
import AdmissionGate.Firewall.Basic

namespace AdmissionGate.Firewall

/-! ## Runs -/

/-- Something that happens to a firewall. -/
inductive Act where
  | request (v : Visit) (now : Moment)
  | rotate (now : Moment)
  | record (raw : Bytes)
  | sweep (now : Moment)

/-- A request that says nothing but who it is from. -/
def plainVisit (ip : ClientAddress) : Visit where
  ip := ip
  rawQuery := ""
  body := []
  isUpload := false
  query := Table.empty

@[simp]
theorem plainVisit_ip (ip : ClientAddress) : (plainVisit ip).ip = ip := rfl

def Act.now? : Act → Option Moment
  | .request _ now => some now
  | .rotate now => some now
  | .record _ => none
  | .sweep now => some now

def step (f : Firewall) : Act → Firewall
  | .request v now => (f.judge v now).2
  | .rotate now => f.rotate now
  | .record raw => f.offerRecord raw
  | .sweep now => f.sweep now

def run (f : Firewall) (acts : List Act) : Firewall := acts.foldl step f

/-- The clock never goes back from one act to a later one. -/
def NeverBack (acts : List Act) : Prop := (acts.filterMap Act.now?).Pairwise (· ≤ ·)

theorem run_append (f : Firewall) (before after : List Act) :
    f.run (before ++ after) = (f.run before).run after := List.foldl_append

theorem NeverBack.of_append_right {before after : List Act} (h : NeverBack (before ++ after)) :
    NeverBack after := by
  rw [NeverBack, List.filterMap_append, List.pairwise_append] at h
  exact h.2.1

theorem NeverBack.le {before after : List Act} (h : NeverBack (before ++ after)) {a b : Act}
    (ha : a ∈ before) (hb : b ∈ after) {s t : Int} (hs : a.now? = some s)
    (ht : b.now? = some t) : s ≤ t := by
  rw [NeverBack, List.filterMap_append, List.pairwise_append] at h
  exact h.2.2 s (List.mem_filterMap.mpr ⟨a, ha, hs⟩) t (List.mem_filterMap.mpr ⟨b, hb, ht⟩)

/-! ## The checks one by one -/

theorem checkAddress_snd (f : Firewall) (ip : ClientAddress) :
    (f.checkAddress ip).2 = { f with window := (f.checkAddress ip).2.window } := by
  unfold checkAddress checkRate
  split
  · rfl
  · split <;> rfl

/-- Whether the signature of a query has been used in the bucket of its timestamp. -/
def isUsed (f : Firewall) (query : Params) : Bool :=
  f.replay.holds (timestamp query).partOfHour (query.value Params.signature)

/-- The replay cache with the signature of a query in the bucket of its timestamp. -/
def replayWith (f : Firewall) (query : Params) : ReplayCache :=
  f.replay.insert (timestamp query).partOfHour (query.value Params.signature)

/-- A signed query is admitted if it is fresh, carries its signature, and was not used. -/
theorem checkSignature_fst (f : Firewall) (query : Params) (now : Moment) :
    (f.checkSignature query now).1 = .admitted ↔
      Moment.age now (timestamp query) ≤ f.maxClockSkewSecs ∧ f.signer.verify query = true ∧
        f.isUsed query = false := by
  simp only [checkSignature, isUsed]
  split
  next h => simp; omega
  next h =>
    split
    next hv => simp at hv; simp [hv]
    next hv =>
      simp only [Bool.not_eq_true, Bool.not_eq_false'] at hv
      split
      next hr => simp [hr]
      next hr => simp at hr; simp [hr, hv]; omega

/-- The signature check files the signature that it admits, and else changes nothing. -/
theorem checkSignature_snd (f : Firewall) (query : Params) (now : Moment) :
    (f.checkSignature query now).2 =
      if (f.checkSignature query now).1 = .admitted then { f with replay := f.replayWith query }
      else f := by
  simp only [checkSignature, replayWith]
  split
  · simp
  · split
    · simp
    · split <;> simp

/-- A request that reaches the signature check is decided there. Any other one is turned away,
or let through unsigned, and leaves everything but the rate window as it was. -/
theorem check_cases (f : Firewall) (v : Visit) (now : Moment) :
    ∃ w, (f.skipSignature = false ∧
        f.check v now = checkSignature { f with window := w } v.query now) ∨
      ((f.skipSignature = true ∨ (f.check v now).1 ≠ .admitted) ∧
        (f.check v now).2 = { f with window := w }) := by
  have hframe := checkAddress_snd f v.ip
  refine ⟨(f.checkAddress v.ip).2.window, ?_⟩
  unfold check
  rcases hc : f.checkAddress v.ip with ⟨_ | why, g⟩
  · rw [hc] at hframe
    simp only at hframe ⊢
    have hskip : g.skipSignature = f.skipSignature := by rw [hframe]
    split
    · exact Or.inr ⟨Or.inr (by simp), hframe⟩
    · split
      next h => exact Or.inr ⟨Or.inl (hskip ▸ h), hframe⟩
      next h =>
        rw [hskip, Bool.not_eq_true] at h
        refine Or.inl ⟨h, ?_⟩
        rw [← hframe]
  · rw [hc] at hframe
    exact Or.inr ⟨Or.inr (by simp), hframe⟩

/-! ## A decision -/

/-- A request that is admitted under signature checking was fresh, carried its signature, and
carried it for the first time. -/
theorem judge_admitted {f : Firewall} {v : Visit} {now : Moment} (hsign : f.skipSignature = false)
    (h : (f.judge v now).1 = .admitted) :
    Moment.age now (timestamp v.query) ≤ f.maxClockSkewSecs ∧ f.signer.verify v.query = true ∧
      f.isUsed v.query = false := by
  have hc : (f.check v now).1 = .admitted := h
  obtain ⟨w, ⟨_, heq⟩ | ⟨hno, _⟩⟩ := check_cases f v now
  · rw [heq] at hc
    obtain ⟨hage, hverify, hused⟩ := (checkSignature_fst _ _ _).mp hc
    exact ⟨hage, hverify, hused⟩
  · rcases hno with hno | hno
    · rw [hsign] at hno
      cases hno
    · exact absurd hc hno

/-- The signature of an admitted request is filed, and no other request changes the cache. -/
theorem replay_judge (f : Firewall) (v : Visit) (now : Moment) :
    (f.judge v now).2.replay =
      if f.skipSignature = false ∧ (f.judge v now).1 = .admitted then f.replayWith v.query
      else f.replay := by
  show (f.check v now).2.replay =
    if f.skipSignature = false ∧ (f.check v now).1 = .admitted then _ else _
  obtain ⟨w, ⟨hsign, heq⟩ | ⟨hno, heq⟩⟩ := check_cases f v now
  · rw [heq, checkSignature_snd]
    simp only [hsign, true_and]
    split <;> rfl
  · have hn : ¬ (f.skipSignature = false ∧ (f.check v now).1 = .admitted) := by
      rintro ⟨hsign, hadm⟩
      rcases hno with hno | hno
      · rw [hsign] at hno
        cases hno
      · exact hno hadm
    rw [heq, if_neg hn]

/-- A decision changes the rate window, the replay cache and the counters at most. -/
theorem judge_snd (f : Firewall) (v : Visit) (now : Moment) :
    ∃ w r m, (f.judge v now).2 = { f with window := w, replay := r, metrics := m } := by
  have hj : (f.judge v now).2 = { (f.check v now).2 with
    metrics := (f.check v now).2.metrics.increment (.decision (f.check v now).1) } := rfl
  obtain ⟨w, ⟨_, heq⟩ | ⟨_, heq⟩⟩ := check_cases f v now
  · rw [heq, checkSignature_snd] at hj
    rw [hj]
    split <;> exact ⟨_, _, _, rfl⟩
  · rw [heq] at hj
    exact ⟨_, _, _, hj⟩

/-! ## What every act leaves alone -/

/-- An act changes no more than the rate window, the live settings, the replay cache and the
counters. -/
theorem step_eq (f : Firewall) (a : Act) :
    ∃ w l r m, f.step a = { f with window := w, live := l, replay := r, metrics := m } := by
  cases a with
  | request v now =>
    obtain ⟨w, r, m, h⟩ := judge_snd f v now
    exact ⟨w, f.live, r, m, h⟩
  | rotate now => exact ⟨_, _, _, _, rfl⟩
  | record raw =>
    simp only [step, offerRecord, applyRecord?]
    cases FirewallRecord.ofBytes? raw <;> exact ⟨_, _, _, _, rfl⟩
  | sweep now => exact ⟨_, _, _, _, rfl⟩

theorem run_eq (f : Firewall) (acts : List Act) :
    ∃ w l r m, f.run acts = { f with window := w, live := l, replay := r, metrics := m } := by
  induction acts generalizing f with
  | nil => exact ⟨_, _, _, _, rfl⟩
  | cons a acts ih =>
    obtain ⟨w, l, r, m, h⟩ := step_eq f a
    obtain ⟨w', l', r', m', h'⟩ := ih (f.step a)
    refine ⟨w', l', r', m', ?_⟩
    rw [h] at h'
    simp only [run, List.foldl_cons, h] at h' ⊢
    exact h'

theorem signer_run (f : Firewall) (acts : List Act) : (f.run acts).signer = f.signer := by
  obtain ⟨_, _, _, _, h⟩ := run_eq f acts
  rw [h]

theorem skipSignature_run (f : Firewall) (acts : List Act) :
    (f.run acts).skipSignature = f.skipSignature := by
  obtain ⟨_, _, _, _, h⟩ := run_eq f acts
  rw [h]

theorem maxClockSkewSecs_run (f : Firewall) (acts : List Act) :
    (f.run acts).maxClockSkewSecs = f.maxClockSkewSecs := by
  obtain ⟨_, _, _, _, h⟩ := run_eq f acts
  rw [h]

end AdmissionGate.Firewall
