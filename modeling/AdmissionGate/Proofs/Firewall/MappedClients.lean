-- IPv4 clients under two texts. A listener for both kinds of addresses writes
-- an IPv4 client as a mapped address. The firewall counts it as the same
-- client, but the blocklist goes by the text.
import Mathlib.Data.List.Forall2
import AdmissionGate.Proofs.Address.Dotted
import AdmissionGate.Proofs.Firewall.RateLaw

namespace AdmissionGate

/-! ## Two texts of one client -/

/-- Two texts that say the same of a client, whatever the blocklist. -/
structure ClientAddress.SameClient (ip other : ClientAddress) : Prop where
  isEmpty : other.isEmpty = ip.isEmpty
  isLocal : other.isLocal = ip.isLocal
  rateKey : other.rateKey = ip.rateKey

theorem ClientAddress.sameClient_mappedText (a : Ipv4) : SameClient a.toText a.mappedText where
  isEmpty := by
    rw [isEmpty_eq_false_of_ofText? (Ip.ofText?_toText a),
      isEmpty_eq_false_of_ofText? (Ip.ofText?_mappedText a)]
  isLocal := by rw [isLocal_toText, isLocal_mappedText]
  rateKey := by rw [rateKey_toText, rateKey_mappedText]

/-- The blocklist names both texts or neither, or the client passes it anyway. -/
def LiveSettings.TreatsAlike (live : LiveSettings) (ip other : ClientAddress) : Prop :=
  ip.isLocal = true ∨ (ip ∈ live.blocked ↔ other ∈ live.blocked)

namespace Firewall

variable {f : Firewall} {ip other : ClientAddress}

theorem checkAddress_of_treatsAlike (hsame : ip.SameClient other)
    (halike : f.live.TreatsAlike ip other) : f.checkAddress other = f.checkAddress ip := by
  have hcounts : f.live.counts other = f.live.counts ip := by
    rw [Bool.eq_iff_iff, LiveSettings.counts_iff, LiveSettings.counts_iff, hsame.isEmpty,
      hsame.isLocal]
    rcases halike with hlocal | hblocked
    · simp [hlocal]
    · rw [hblocked]
  rw [checkAddress_eq, checkAddress_eq, hcounts, hsame.isEmpty, hsame.isLocal, hsame.rateKey]

/-- Only the check of the address looks at the address. -/
theorem judge_congr {v : Visit} {now : Moment} (h : f.checkAddress other = f.checkAddress v.ip) :
    f.judge { v with ip := other } now = f.judge v now := by
  unfold judge check
  rw [h]
  rfl

/-- Where the blocklist tells two texts apart, the verdicts are apart. -/
theorem treatsAlike_of_judge_eq {v : Visit} {now : Moment} (hsame : v.ip.SameClient other)
    (hknown : v.ip.isEmpty = false)
    (h : (f.judge { v with ip := other } now).1 = (f.judge v now).1) :
    f.live.TreatsAlike v.ip other := by
  rw [LiveSettings.TreatsAlike, or_iff_not_imp_left, Bool.not_eq_true]
  intro hpublic
  have hblocked := judge_blocked_iff f v now
  have hother := judge_blocked_iff f { v with ip := other } now
  simp only [hsame.isEmpty, hsame.isLocal, hknown, hpublic, true_and] at hblocked hother
  rw [← hblocked, ← hother, h]

/-! ## The mapped text of a client -/

/-- The two texts of an IPv4 client are alike to the local network and share a rate counter.
The whole decision is the same for both, with all that it leaves behind, exactly if the client
is local or the blocklist names both texts or neither. Else the verdicts are not the same. -/
theorem mapped_client_judged_alike_iff (f : Firewall) (v : Visit) (a : Ipv4) (now : Moment) :
    let dotted := (Ip.v4 a).toText
    let mapped := (Ip.v6 (.mapped a)).toText
    let same := a.isLocal = true ∨ (dotted ∈ f.live.blocked ↔ mapped ∈ f.live.blocked)
    ClientAddress.isLocal dotted = a.isLocal ∧ ClientAddress.isLocal mapped = a.isLocal ∧
      ClientAddress.rateKey mapped = ClientAddress.rateKey dotted ∧
      (f.judge { v with ip := mapped } now = f.judge { v with ip := dotted } now ↔ same) ∧
      ((f.judge { v with ip := mapped } now).1 = (f.judge { v with ip := dotted } now).1 ↔
        same) := by
  intro dotted mapped same
  have hmapped : mapped = a.mappedText := Ip.toText_mapped a
  have hsame : ClientAddress.SameClient dotted mapped := by
    rw [hmapped]
    exact ClientAddress.sameClient_mappedText a
  have hlocal : ClientAddress.isLocal dotted = a.isLocal := ClientAddress.isLocal_toText a
  have hknown : dotted.isEmpty = false :=
    ClientAddress.isEmpty_eq_false_of_ofText? (Ip.ofText?_toText a)
  have halike : f.live.TreatsAlike dotted mapped ↔ same := by
    rw [LiveSettings.TreatsAlike, hlocal]
  have hjudge : same → f.judge { v with ip := mapped } now = f.judge { v with ip := dotted } now :=
    fun h => judge_congr (v := { v with ip := dotted })
      (checkAddress_of_treatsAlike hsame (halike.mpr h))
  have hverdict : (f.judge { v with ip := mapped } now).1 =
      (f.judge { v with ip := dotted } now).1 → same :=
    fun h => halike.mp (treatsAlike_of_judge_eq (v := { v with ip := dotted }) hsame hknown h)
  exact ⟨hlocal, hsame.isLocal.trans hlocal, hsame.rateKey,
    ⟨fun h => hverdict (congrArg Prod.fst h), hjudge⟩,
    ⟨hverdict, fun h => congrArg Prod.fst (hjudge h)⟩⟩

/-- A client on the blocklist is let in under its mapped text. -/
theorem blocked_client_admitted_as_mapped :
    ¬ ∀ (settings : FirewallSettings) (filter : KeywordFilter) (built : Moment) (acts : List Act)
      (v : Visit) (a : Ipv4) (now : Moment),
      let f := (start settings filter built).run acts
      (f.judge { v with ip := (Ip.v6 (.mapped a)).toText } now).1 =
        (f.judge { v with ip := (Ip.v4 a).toText } now).1 := by
  intro hall
  have hsame := hall { skipSignature := true } KeywordFilter.standard 0
    [.record (Bytes.ofText "[[\"9.9.9.9\"],10]")] (plainVisit "") ⟨9, 9, 9, 9⟩ 0
  revert hsame
  decide +kernel

/-! ## Runs -/

/-- A blocklist that names every IPv4 client under both texts or under neither. -/
def NamesBoth (live : LiveSettings) : Prop :=
  ∀ a : Ipv4, live.TreatsAlike a.toText a.mappedText

/-- The same act, but perhaps with an IPv4 client's mapped text in place of the dotted one. -/
inductive Respelled : Act → Act → Prop
  | same (act : Act) : Respelled act act
  | mapped (v : Visit) (a : Ipv4) (now : Moment) (h : v.ip = a.toText) :
    Respelled (.request v now) (.request { v with ip := a.mappedText } now)

theorem Respelled.step_eq {act act' : Act} (h : Respelled act act') (hboth : NamesBoth f.live) :
    f.step act' = f.step act := by
  cases h with
  | same => rfl
  | mapped v a now h =>
    have hcheck : f.checkAddress a.mappedText = f.checkAddress v.ip := by
      rw [h]
      exact checkAddress_of_treatsAlike (ClientAddress.sameClient_mappedText a) (hboth a)
    exact congrArg Prod.snd (judge_congr hcheck)

/-- As long as the records name clients under both texts or under neither, a run leaves the
same firewall behind under whichever text the clients come. -/
theorem run_respelled {acts acts' : List Act} (h : List.Forall₂ Respelled acts acts')
    (hboth : NamesBoth f.live)
    (hrecords : ∀ act ∈ acts, ∀ live, act.settings? = some live → NamesBoth live) :
    f.run acts' = f.run acts := by
  induction h generalizing f with
  | nil => rfl
  | @cons act act' acts acts' hact _ ih =>
    have hnext : NamesBoth (f.step act).live := by
      rw [live_step]
      cases hlive : act.settings? with
      | none => exact hboth
      | some live => exact hrecords act List.mem_cons_self live hlive
    show (f.step act').run acts' = (f.step act).run acts
    rw [hact.step_eq hboth]
    exact ih hnext fun other hother => hrecords other (List.mem_cons_of_mem _ hother)

end Firewall

end AdmissionGate
