-- What a decision leaves behind. An admitted request files its signature, a
-- request from a client who is counted makes one hit, and every request is
-- counted once under its outcome. Nothing else of the firewall changes.
import AdmissionGate.Proofs.Firewall.Acts

namespace AdmissionGate

/-! ## One hit and one signature -/

/-- Whether requests from an address are counted under these settings: the address is known,
not on the local network, and not blocked. -/
def LiveSettings.counts (live : LiveSettings) (ip : ClientAddress) : Bool :=
  !ip.isEmpty && !ip.isLocal && !live.blocked.contains ip

theorem LiveSettings.counts_iff (live : LiveSettings) (ip : ClientAddress) :
    live.counts ip = true ↔ ip.isEmpty = false ∧ ip.isLocal = false ∧ ip ∉ live.blocked := by
  simp [counts, and_assoc]

/-- The second window is the first with one more hit of a key in the current slot. A counter
at the largest number of 32 bits stays there. -/
structure RateWindow.HasOneMoreHit (w w' : RateWindow) (key : UInt32) : Prop where
  current : w'.current = w.current
  elsewhere : ∀ slot, slot ≠ w.current → w'.slots[slot] = w.slots[slot]
  count : ∀ k, w'.count k = if key = k then min (w.count k + 1) Decimal.maxU32 else w.count k

theorem RateWindow.hasOneMoreHit_hit (w : RateWindow) (key : UInt32) :
    w.HasOneMoreHit (w.hit key) key where
  current := rfl
  elsewhere slot hslot := by
    have hv : w.current.val ≠ slot.val := fun hv => hslot (Fin.ext hv.symm)
    simp [hit, Vector.getElem_set_ne, hv]
  count k := by
    rw [count_hit]
    split
    next h => rw [h, nextCount]
    next => rfl

/-- The second cache is the first with a signature added to a bucket that did not hold it. -/
structure ReplayCache.HasOneMore (c c' : ReplayCache) (b : Nat) (signature : String) : Prop where
  absent : c.holds b signature = false
  holds : ∀ b' s, c'.holds b' s = true ↔
    c.holds b' s = true ∨ slotOf b = slotOf b' ∧ signature = s
  size : c'.size = c.size + 1

theorem ReplayCache.hasOneMore_insert {c : ReplayCache} {b : Nat} {signature : String}
    (h : c.holds b signature = false) : c.HasOneMore (c.insert b signature) b signature where
  absent := h
  holds b' s := holds_insert c b b' signature s
  size := size_insert h

theorem ReplayCache.HasOneMore.ne {c c' : ReplayCache} {b : Nat} {signature : String}
    (h : c.HasOneMore c' b signature) : c' ≠ c := by
  intro heq
  have hsize := h.size
  rw [heq] at hsize
  omega

namespace Firewall

/-! ## The check of the address -/

/-- A client who is counted makes a hit and is then over the limit or not. The others make
none: on the local network and without an address they pass, and else they are blocked. -/
theorem checkAddress_eq (f : Firewall) (ip : ClientAddress) :
    f.checkAddress ip =
      if f.live.counts ip then
        (if f.isOverLimit (RateWindow.nextCount (f.window.count ip.rateKey)) then some .rateLimited
          else none, { f with window := f.window.hit ip.rateKey })
      else (if ip.isEmpty || ip.isLocal then none else some .blocked, f) := by
  unfold checkAddress
  by_cases hlocal : (ip.isEmpty || ip.isLocal) = true
  · have hcounts : f.live.counts ip = false := by
      rw [LiveSettings.counts, ← Bool.not_or, hlocal]
      rfl
    rw [if_pos hlocal, hcounts, if_neg (by simp), if_pos hlocal]
  · have hcounts : f.live.counts ip = !f.isBlocked ip := by
      rw [Bool.not_eq_true] at hlocal
      rw [LiveSettings.counts, ← Bool.not_or, hlocal]
      rfl
    rw [if_neg hlocal, hcounts, if_neg hlocal, checkRate]
    cases f.isBlocked ip with
    | true => rfl
    | false =>
      simp only [RateWindow.count_hit, Bool.false_eq_true, Bool.not_false, if_true, if_false]
      rfl

/-- The reasons that the check of the signature gives. -/
theorem checkSignature_rejected {f : Firewall} {query : Params} {now : Moment} {why : Rejection}
    (h : (f.checkSignature query now).1 = .rejected why) :
    why = .staleTimestamp ∨ why = .badSignature ∨ why = .replayed := by
  simp only [checkSignature] at h
  split at h
  · cases h
    exact Or.inl rfl
  · split at h
    · cases h
      exact Or.inr (Or.inl rfl)
    · split at h
      · cases h
        exact Or.inr (Or.inr rfl)
      · cases h

/-- The first two reasons come from the check of the address, and no later check gives them. -/
theorem check_fst_eq_iff {f : Firewall} {v : Visit} {now : Moment} {why : Rejection}
    (hwhy : why = .blocked ∨ why = .rateLimited) :
    (f.check v now).1 = .rejected why ↔ (f.checkAddress v.ip).1 = some why := by
  unfold check
  rcases f.checkAddress v.ip with ⟨_ | other, g⟩
  · simp only [reduceCtorEq, iff_false]
    intro h
    split at h
    · rcases hwhy with rfl | rfl <;> cases h
    · split at h
      · cases h
      · rcases checkSignature_rejected h with rfl | rfl | rfl <;> simp at hwhy
  · simp

theorem window_check (f : Firewall) (v : Visit) (now : Moment) :
    (f.check v now).2.window = (f.checkAddress v.ip).2.window := by
  unfold check
  rcases f.checkAddress v.ip with ⟨_ | why, g⟩
  · simp only
    split
    · rfl
    · split
      · rfl
      · rw [checkSignature_snd]
        split <;> rfl
  · rfl

theorem metrics_check (f : Firewall) (v : Visit) (now : Moment) :
    (f.check v now).2.metrics = f.metrics := by
  obtain ⟨w, ⟨_, heq⟩ | ⟨_, heq⟩⟩ := check_cases f v now
  · rw [heq, checkSignature_snd]
    split <;> rfl
  · rw [heq]

/-! ## A decision -/

theorem window_judge (f : Firewall) (v : Visit) (now : Moment) :
    (f.judge v now).2.window =
      if f.live.counts v.ip then f.window.hit v.ip.rateKey else f.window := by
  show (f.check v now).2.window = _
  rw [window_check, checkAddress_eq]
  split <;> rfl

/-- A client on the blocklist is turned away as blocked, unless the address is not checked. -/
theorem judge_blocked_iff (f : Firewall) (v : Visit) (now : Moment) :
    (f.judge v now).1 = .rejected .blocked ↔
      v.ip.isEmpty = false ∧ v.ip.isLocal = false ∧ v.ip ∈ f.live.blocked := by
  show (f.check v now).1 = _ ↔ _
  rw [check_fst_eq_iff (Or.inl rfl), checkAddress_eq]
  by_cases hcounts : f.live.counts v.ip = true
  · have hout := ((LiveSettings.counts_iff _ _).mp hcounts).2.2
    rw [if_pos hcounts]
    simp only [hout, and_false, iff_false]
    split <;> simp
  · rw [if_neg hcounts]
    rw [LiveSettings.counts_iff] at hcounts
    cases hempty : v.ip.isEmpty <;> cases hlocal : v.ip.isLocal <;> simp_all

/-- So a client who is not local is counted unless the answer is that it is blocked. -/
theorem counts_iff_judge (f : Firewall) (v : Visit) (now : Moment) :
    f.live.counts v.ip = true ↔ v.ip.isEmpty = false ∧ v.ip.isLocal = false ∧
      (f.judge v now).1 ≠ .rejected .blocked := by
  rw [LiveSettings.counts_iff, ne_eq, judge_blocked_iff]
  constructor
  · rintro ⟨hempty, hlocal, hout⟩
    exact ⟨hempty, hlocal, fun hin => hout hin.2.2⟩
  · rintro ⟨hempty, hlocal, hout⟩
    exact ⟨hempty, hlocal, fun hin => hout ⟨hempty, hlocal, hin⟩⟩

/-- A client is over the limit by the hit that the request itself makes. -/
theorem judge_rateLimited_iff (f : Firewall) (v : Visit) (now : Moment) :
    (f.judge v now).1 = .rejected .rateLimited ↔ f.live.counts v.ip = true ∧
      f.isOverLimit (RateWindow.nextCount (f.window.count v.ip.rateKey)) = true := by
  show (f.check v now).1 = _ ↔ _
  rw [check_fst_eq_iff (Or.inr rfl), checkAddress_eq]
  by_cases hcounts : f.live.counts v.ip = true
  · rw [if_pos hcounts]
    simp [hcounts]
  · rw [if_neg hcounts]
    simp only [hcounts]
    split <;> simp

/-- An admitted request that was signed files its signature. -/
theorem hasOneMore_judge {f : Firewall} {v : Visit} {now : Moment} (hsign : f.skipSignature = false)
    (h : (f.judge v now).1 = .admitted) :
    f.replay.HasOneMore (f.judge v now).2.replay (timestamp v.query).partOfHour
      (v.query.value Params.signature) := by
  rw [replay_judge, if_pos ⟨hsign, h⟩]
  exact ReplayCache.hasOneMore_insert (judge_admitted hsign h).2.2

/-- A decision changes the replay cache exactly if it admits a signed request, and then by its
signature in the bucket of its timestamp, where it was absent. It makes a hit exactly if the
client is counted, which changes the window unless the counter is at its top. It adds one to the
series of its outcome, and changes neither the live settings nor anything else. -/
theorem decision_effects (f : Firewall) (v : Visit) (now : Moment) :
    let verdict := (f.judge v now).1
    let g := (f.judge v now).2
    let files := verdict = .admitted ∧ f.skipSignature = false
    let counted := v.ip.isEmpty = false ∧ v.ip.isLocal = false ∧ v.ip ∉ f.live.blocked
    (g.replay ≠ f.replay ↔ files) ∧
      (files → f.replay.HasOneMore g.replay (timestamp v.query).partOfHour
        (v.query.value Params.signature)) ∧
      (counted → f.window.HasOneMoreHit g.window v.ip.rateKey) ∧
      (g.window ≠ f.window ↔ counted ∧ f.window.count v.ip.rateKey ≠ Decimal.maxU32) ∧
      g.live = f.live ∧
      g = { f with window := g.window, replay := g.replay, metrics := g.metrics } ∧
      ∀ s, g.metrics.value s =
        f.metrics.value s + if s = Series.ofCounter (.decision verdict) then 1 else 0 := by
  intro verdict g files counted
  have hcounted : f.live.counts v.ip = true ↔ counted := LiveSettings.counts_iff _ _
  have hfiles : files → f.replay.HasOneMore g.replay (timestamp v.query).partOfHour
      (v.query.value Params.signature) := fun h => hasOneMore_judge h.2 h.1
  have hwindow : g.window = if f.live.counts v.ip then f.window.hit v.ip.rateKey else f.window :=
    window_judge f v now
  obtain ⟨w, r, m, hframe⟩ := judge_snd f v now
  refine ⟨⟨?_, fun h => (hfiles h).ne⟩, hfiles, ?_, ?_, ?_, ?_, ?_⟩
  · intro hne
    apply Classical.byContradiction
    intro hnot
    refine hne ?_
    show (f.judge v now).2.replay = f.replay
    rw [replay_judge, if_neg fun h => hnot ⟨h.2, h.1⟩]
  · intro h
    rw [hwindow, if_pos (hcounted.mpr h)]
    exact f.window.hasOneMoreHit_hit v.ip.rateKey
  · by_cases h : counted
    · rw [hwindow, if_pos (hcounted.mpr h), ne_eq, RateWindow.hit_eq_self_iff]
      exact (and_iff_right h).symm
    · rw [hwindow, if_neg (mt hcounted.mp h)]
      simp [h]
  · show (f.judge v now).2.live = f.live
    rw [hframe]
  · show (f.judge v now).2 = _
    simp only [g, hframe]
  · intro s
    rw [← metrics_check f v now]
    exact Metrics.value_increment _ _ _

end Firewall

end AdmissionGate
