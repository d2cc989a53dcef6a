-- How long a used signature is remembered. A sweep empties a bucket by the
-- hour of the clock, while freshness is the age of a timestamp. So the cache
-- forgets a fresh signature only before its timestamp comes.
import AdmissionGate.Proofs.Firewall.Acts

namespace AdmissionGate.Firewall

/-! ## Sweeps and timestamps -/

/-- A sweep at `s` empties the bucket of timestamp `t`. -/
def Reaches (s t : Moment) : Prop := (s + sweepAhead).partOfHour = t.partOfHour

/-- The parts of an hour are as many as the buckets, so each has a bucket of its own. -/
theorem slotOf_partOfHour (s t : Moment) :
    ReplayCache.slotOf s.partOfHour = ReplayCache.slotOf t.partOfHour ↔
      s.partOfHour = t.partOfHour := by
  have hs : s.partOfHour < 30 := by unfold Moment.partOfHour; omega
  have ht : t.partOfHour < 30 := by unfold Moment.partOfHour; omega
  rw [ReplayCache.slotOf, ReplayCache.slotOf, Fin.mk.injEq, Nat.mod_eq_of_lt hs,
    Nat.mod_eq_of_lt ht]

/-- A sweep from `t` on that empties the bucket of `t` comes more than 56 minutes after `t`:
it has to be in the same two minutes of a later hour, less the two minutes it looks ahead. -/
theorem Reaches.before {s t : Int} (h : Reaches s t) (hs : s - t ≤ 3360) : s < t := by
  unfold Reaches Moment.partOfHour sweepAhead at h
  omega

/-- An age that is allowed is the true one: the clamp to 64 bits only hides larger ones. -/
theorem sub_le_of_age_le {now t skew : Int} (hskew : skew ≤ 3360)
    (h : Moment.age now t ≤ skew) : now - t ≤ 3360 := by
  unfold Moment.age Decimal.clampI64 Decimal.minI64 Decimal.maxI64 at h
  omega

/-! ## Used signatures -/

/-- Two queries with the same timestamp, the same signed values and the same salt. -/
structure SameSigned (signer : Signer) (p q : Params) : Prop where
  timestamp : timestamp p = timestamp q
  fields : ∀ name ∈ signer.fields, p.value name = q.value name
  salt : signer.saltFor p = signer.saltFor q

theorem SameSigned.sign_eq {signer : Signer} {p q : Params} (h : SameSigned signer p q) :
    signer.sign p = signer.sign q := by
  rw [Signer.sign, Signer.sign, Signer.signingString_congr h.fields h.salt]

/-- Two such queries that both carry their signature are used together. -/
theorem SameSigned.isUsed_eq {f : Firewall} {p q : Params} (h : SameSigned f.signer p q)
    (hp : f.signer.verify p = true) (hq : f.signer.verify q = true) : f.isUsed p = f.isUsed q := by
  simp only [Signer.verify, beq_iff_eq] at hp hq
  unfold isUsed
  rw [h.timestamp, hp, hq, h.sign_eq]

theorem isUsed_eq_of_replay_eq {f g : Firewall} (h : g.replay = f.replay) (q : Params) :
    g.isUsed q = f.isUsed q := by
  unfold isUsed
  rw [h]

theorem isUsed_of_admitted {f : Firewall} {v : Visit} {now : Moment}
    (hsign : f.skipSignature = false) (h : (f.judge v now).1 = .admitted) :
    (f.step (.request v now)).isUsed v.query = true := by
  show ReplayCache.holds (f.judge v now).2.replay _ _ = true
  rw [replay_judge, if_pos ⟨hsign, h⟩]
  exact (ReplayCache.holds_insert _ _ _ _ _).mpr (Or.inr ⟨rfl, rfl⟩)

/-- A used signature stays used over an act, unless it is a sweep of its bucket. -/
theorem isUsed_step {f : Firewall} {a : Act} {q : Params} (h : f.isUsed q = true)
    (hkeep : ∀ s, a = .sweep s → ¬ Reaches s (timestamp q)) : (f.step a).isUsed q = true := by
  cases a with
  | request v now =>
    show ReplayCache.holds (f.judge v now).2.replay _ _ = true
    rw [replay_judge]
    split
    · exact (ReplayCache.holds_insert _ _ _ _ _).mpr (Or.inl h)
    · exact h
  | rotate now => exact h
  | record raw =>
    rw [← h]
    apply isUsed_eq_of_replay_eq
    simp only [step, offerRecord, applyRecord?]
    cases FirewallRecord.ofBytes? raw <;> rfl
  | sweep s =>
    have hne := hkeep s rfl
    refine (ReplayCache.holds_clear _ _ _ _).mpr ⟨?_, h⟩
    rw [ne_eq, slotOf_partOfHour]
    exact hne

theorem isUsed_run {f : Firewall} {acts : List Act} {q : Params} (h : f.isUsed q = true)
    (hkeep : ∀ s, .sweep s ∈ acts → ¬ Reaches s (timestamp q)) : (f.run acts).isUsed q = true := by
  induction acts generalizing f with
  | nil => exact h
  | cons a acts ih =>
    apply ih (f := f.step a)
    · exact isUsed_step h fun s hs => hkeep s (by simp [hs])
    · intro s hs
      exact hkeep s (List.mem_cons_of_mem a hs)

/-- Between two admissions of the same signature lies a sweep of its bucket, and that sweep
comes before the timestamp. -/
theorem sweep_between_admissions {f : Firewall} {before between : List Act} {first second : Visit}
    {now later : Moment} (hsign : f.skipSignature = false) (hskew : f.maxClockSkewSecs ≤ 3360)
    (hclock : NeverBack (before ++ .request first now :: between ++ [.request second later]))
    (hsame : SameSigned f.signer first.query second.query)
    (hfirst : ((f.run before).judge first now).1 = .admitted)
    (hsecond : ((f.run (before ++ .request first now :: between)).judge second later).1 =
      .admitted) :
    ∃ s, .sweep s ∈ between ∧ now ≤ s ∧ s < timestamp first.query ∧
      Reaches s (timestamp first.query) := by
  have hsign' : (f.run before).skipSignature = false := by rw [skipSignature_run, hsign]
  obtain ⟨_, hverify, _⟩ := judge_admitted hsign' hfirst
  obtain ⟨hage, hverify', hunused⟩ := judge_admitted (by rw [skipSignature_run, hsign]) hsecond
  rw [signer_run] at hverify hverify'
  rw [maxClockSkewSecs_run, ← hsame.timestamp] at hage
  have hforgot : (f.run (before ++ .request first now :: between)).isUsed first.query = false := by
    rw [← hunused]
    apply SameSigned.isUsed_eq
    · rw [signer_run]
      exact hsame
    · rw [signer_run]
      exact hverify
    · rw [signer_run]
      exact hverify'
  have hswept : ∃ s, .sweep s ∈ between ∧ Reaches s (timestamp first.query) := by
    apply Classical.byContradiction
    intro hno
    have hkept : ((f.run before).run (.request first now :: between)).isUsed first.query = true :=
      isUsed_run (f := (f.run before).step (.request first now)) (isUsed_of_admitted hsign' hfirst)
        fun s hs hreach => hno ⟨s, hs, hreach⟩
    rw [← run_append, hforgot] at hkept
    cases hkept
  obtain ⟨s, hs, hreach⟩ := hswept
  have hlater := hclock.le
    (List.mem_append_right _ (List.mem_cons_of_mem _ hs)) (List.mem_singleton_self _) rfl rfl
  rw [List.append_assoc] at hclock
  have hnow := (show NeverBack ([.request first now] ++ _) from hclock.of_append_right).le
    (List.mem_singleton_self _) (List.mem_append_left _ hs) rfl rfl
  have hfresh := sub_le_of_age_le hskew hage
  exact ⟨s, hs, hnow, hreach.before (by omega), hreach⟩

/-! ## Replay safety -/

/-- A timestamp that is not in the future is admitted once: whatever happens in between, and
however often the cache is swept, a later request that signs the same is turned away. -/
theorem past_timestamp_admitted_once (f : Firewall) (before between : List Act)
    (first second : Visit) (now later : Moment) (hsign : f.skipSignature = false)
    (hskew : f.maxClockSkewSecs ≤ 3360)
    (hclock : NeverBack (before ++ .request first now :: between ++ [.request second later]))
    (hsame : SameSigned f.signer first.query second.query)
    (hpast : timestamp first.query ≤ now)
    (hfirst : ((f.run before).judge first now).1 = .admitted) :
    ((f.run (before ++ .request first now :: between)).judge second later).1 ≠ .admitted := by
  intro hsecond
  obtain ⟨s, _, hnow, hbefore, _⟩ :=
    sweep_between_admissions hsign hskew hclock hsame hfirst hsecond
  exact absurd (Int.lt_of_le_of_lt hnow hbefore) (Int.not_lt.mpr hpast)

/-- A request without a body from an address, with this timestamp and this signature. -/
def signedVisit (ip : ClientAddress) (t signature : String) : Visit where
  ip := ip
  rawQuery := ""
  body := []
  isUpload := false
  query := ⟨[(Params.timestamp, t), (Params.signature, signature)]⟩

/-- The last second of a bucket under the greatest skew: the request is still fresh 56 minutes
later, and not even a sweep at that very moment lets it in again. -/
theorem past_timestamp_admitted_once_at_the_edge :
    let f := start { maxClockSkewSecs := 3360 } KeywordFilter.standard 0
    let v := signedVisit "" "119" "d49e14b9252600c5e49be79a7eb1788c"
    let again := signedVisit "9.9.9.9" "119" "d49e14b9252600c5e49be79a7eb1788c"
    f.skipSignature = false ∧ f.maxClockSkewSecs ≤ 3360 ∧
      NeverBack ([.rotate 60] ++ .request v 119 :: [.sweep 119, .sweep 3479] ++
        [.request again 3479]) ∧
      SameSigned f.signer v.query again.query ∧ timestamp v.query ≤ 119 ∧
      ((f.run [.rotate 60]).judge v 119).1 = .admitted ∧
      ((f.run ([.rotate 60] ++ .request v 119 :: [.sweep 119, .sweep 3479])).judge again 3479).1
        ≠ .admitted := by
  intro f v again
  have hclock : NeverBack ([.rotate 60] ++ .request v 119 :: [.sweep 119, .sweep 3479] ++
      [.request again 3479]) := by
    unfold NeverBack
    decide
  have hsame : SameSigned f.signer v.query again.query := ⟨rfl, fun _ _ => rfl, rfl⟩
  have hpast : timestamp v.query ≤ 119 := by decide +kernel
  have hfirst : ((f.run [.rotate 60]).judge v 119).1 = .admitted := by decide +kernel
  exact ⟨rfl, by decide, hclock, hsame, hpast, hfirst,
    past_timestamp_admitted_once f [.rotate 60] [.sweep 119, .sweep 3479] v again 119 3479 rfl
      (by decide) hclock hsame hpast hfirst⟩

/-- A timestamp in the future is not safe in the same way: a sweep in the two minutes before
those of the timestamp empties its bucket while the clock is still behind it. -/
theorem future_timestamp_admitted_twice :
    ¬ ∀ (f : Firewall) (before between : List Act) (first second : Visit) (now later : Moment),
      f.skipSignature = false → f.maxClockSkewSecs ≤ 3360 →
      NeverBack (before ++ .request first now :: between ++ [.request second later]) →
      SameSigned f.signer first.query second.query → now < timestamp first.query →
      ((f.run before).judge first now).1 = .admitted →
      ((f.run (before ++ .request first now :: between)).judge second later).1 ≠ .admitted := by
  intro hall
  exact hall (start {} KeywordFilter.standard 0) [] [.sweep 1700000060]
    (signedVisit "" "1700000160" "69cc286d43f8cafd11584f948040dcca")
    (signedVisit "" "1700000160" "69cc286d43f8cafd11584f948040dcca") 1700000000 1700000061
    rfl (by decide) (by unfold NeverBack; decide) ⟨rfl, fun _ _ => rfl, rfl⟩
    (by decide +kernel) (by decide +kernel) (by decide +kernel)

/-- Whatever its timestamp, a request is admitted once as long as no sweep before the timestamp
empties its bucket. A sweep from the timestamp on does no harm. -/
theorem admitted_once_unless_swept_before_timestamp (f : Firewall) (before between : List Act)
    (first second : Visit) (now later : Moment) (hsign : f.skipSignature = false)
    (hskew : f.maxClockSkewSecs ≤ 3360)
    (hclock : NeverBack (before ++ .request first now :: between ++ [.request second later]))
    (hsame : SameSigned f.signer first.query second.query)
    (hkept : ∀ s, .sweep s ∈ between → s < timestamp first.query →
      ¬ Reaches s (timestamp first.query))
    (hfirst : ((f.run before).judge first now).1 = .admitted) :
    ((f.run (before ++ .request first now :: between)).judge second later).1 ≠ .admitted := by
  intro hsecond
  obtain ⟨s, hs, _, hbefore, hreach⟩ :=
    sweep_between_admissions hsign hskew hclock hsame hfirst hsecond
  exact hkept s hs hbefore hreach

/-- A timestamp 160 seconds ahead, with a sweep in the last second before its bucket is reached
and one at the very moment of the timestamp. -/
theorem admitted_once_between_harmless_sweeps :
    let f := start {} KeywordFilter.standard 0
    let v := signedVisit "" "1700000160" "69cc286d43f8cafd11584f948040dcca"
    let between : List Act := [.sweep 1700000039, .sweep 1700000160]
    f.skipSignature = false ∧ f.maxClockSkewSecs ≤ 3360 ∧
      NeverBack ([] ++ .request v 1700000000 :: between ++ [.request v 1700001840]) ∧
      SameSigned f.signer v.query v.query ∧
      (∀ s, .sweep s ∈ between → s < timestamp v.query → ¬ Reaches s (timestamp v.query)) ∧
      ((f.run []).judge v 1700000000).1 = .admitted ∧
      ((f.run ([] ++ .request v 1700000000 :: between)).judge v 1700001840).1 ≠ .admitted := by
  intro f v between
  have hclock : NeverBack ([] ++ .request v 1700000000 :: between ++ [.request v 1700001840]) := by
    unfold NeverBack
    decide
  have hsame : SameSigned f.signer v.query v.query := ⟨rfl, fun _ _ => rfl, rfl⟩
  have htime : timestamp v.query = 1700000160 := by decide +kernel
  have hkept : ∀ s, .sweep s ∈ between → s < timestamp v.query →
      ¬ Reaches s (timestamp v.query) := by
    intro s hs _
    rw [htime]
    unfold Reaches
    simp only [between, List.mem_cons, Act.sweep.injEq, List.not_mem_nil, or_false] at hs
    rcases hs with rfl | rfl <;> decide
  have hfirst : ((f.run []).judge v 1700000000).1 = .admitted := by decide +kernel
  exact ⟨rfl, by decide, hclock, hsame, hkept, hfirst,
    admitted_once_unless_swept_before_timestamp f [] between v v 1700000000 1700001840 rfl
      (by decide) hclock hsame hkept hfirst⟩

end AdmissionGate.Firewall
