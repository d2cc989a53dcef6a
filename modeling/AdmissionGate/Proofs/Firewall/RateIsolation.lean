-- Rate counters of different clients. An IPv4 client has a counter that no
-- other IPv4 client shares. An IPv6 client is counted by the beginning of its
-- text, which may spell the number of an IPv4 address.
import AdmissionGate.Proofs.Address.Dotted
import AdmissionGate.Proofs.Firewall.RateLaw

namespace AdmissionGate

/-! ## Shared counters -/

/-- The address whose bytes a text begins with, with zeros for missing ones. -/
def Ipv4.ofHead (bs : Bytes) : Ipv4 := ⟨bs.getD 0 0, bs.getD 1 0, bs.getD 2 0, bs.getD 3 0⟩

namespace ClientAddress

theorem headWord_eq (bs : Bytes) : headWord bs = (Ipv4.ofHead bs).toUInt32 := rfl

/-- The text of an address that is neither this one nor its mapped form. -/
def IsApart (a : Ipv4) (ip : ClientAddress) : Prop :=
  ∃ address, Ip.ofText? ip = some address ∧ address ≠ .v4 a ∧ address ≠ .v6 (.mapped a)

/-- An IPv6 address without an IPv4 address is apart from all of them. -/
theorem isApart_of_unmapped (a : Ipv4) {ip : ClientAddress} {six : Ipv6}
    (hread : Ip.ofText? ip = some (.v6 six)) (hnone : six.toIpv4? = none) : IsApart a ip := by
  refine ⟨_, hread, Ip.noConfusion, ?_⟩
  rintro ⟨⟩
  rw [Ipv6.toIpv4?_mapped] at hnone
  cases hnone

/-- The text of an IPv6 address that is counted as an IPv4 address: it has no dots and begins
with the bytes of the address, or it has dots and no IPv4 address and then counts as 0.0.0.0. -/
inductive CountsAs (a : Ipv4) (ip : ClientAddress) : Prop
  | head (six : Ipv6) (hread : Ip.ofText? ip = some (.v6 six)) (hdot : '.' ∉ ip.toList)
    (hhead : Ipv4.ofHead (Bytes.ofText ip) = a)
  | zero (six : Ipv6) (hread : Ip.ofText? ip = some (.v6 six)) (hdot : '.' ∈ ip.toList)
    (hnone : six.toIpv4? = none) (ha : ⟨0, 0, 0, 0⟩ = a)

theorem countsAs_iff {a : Ipv4} {ip : ClientAddress} {six : Ipv6}
    (hread : Ip.ofText? ip = some (.v6 six)) :
    CountsAs a ip ↔ if '.' ∈ ip.toList then six.toIpv4? = none ∧ ⟨0, 0, 0, 0⟩ = a
      else Ipv4.ofHead (Bytes.ofText ip) = a := by
  constructor
  · rintro (⟨_, _, hdot, hhead⟩ | ⟨other, hother, hdot, hnone, ha⟩)
    · rwa [if_neg hdot]
    · cases hread.symm.trans hother
      rw [if_pos hdot]
      exact ⟨hnone, ha⟩
  · intro h
    split at h
    next hdot => exact .zero six hread hdot h.1 h.2
    next hdot => exact .head six hread hdot h

/-- Of the other addresses, those share a counter with an IPv4 address that are counted as it. -/
theorem rateKey_eq_iff {a : Ipv4} {ip : ClientAddress} (h : IsApart a ip) :
    ip.rateKey = a.toUInt32 ↔ CountsAs a ip := by
  obtain ⟨address, hread, hne, hmapped⟩ := h
  cases address with
  | v4 b =>
    rw [rateKey_of_v4 hread, Ipv4.toUInt32_inj]
    constructor
    · rintro rfl
      exact absurd rfl hne
    · rintro (⟨_, hsix, _, _⟩ | ⟨_, hsix, _, _, _⟩) <;> cases hread.symm.trans hsix
  | v6 six =>
    rw [rateKey_of_v6 hread, countsAs_iff hread]
    by_cases hdot : '.' ∈ ip.toList
    · rw [if_pos hdot, if_pos hdot]
      cases hfour : six.toIpv4? with
      | none =>
        have hzero : (0 : UInt32) = Ipv4.toUInt32 ⟨0, 0, 0, 0⟩ := rfl
        rw [Option.map_none, Option.getD_none, hzero, Ipv4.toUInt32_inj]
        exact (and_iff_right rfl).symm
      | some b =>
        have hsix : six = .mapped b := Ipv6.toIpv4?_eq_some_iff.mp hfour
        rw [Option.map_some, Option.getD_some, Ipv4.toUInt32_inj]
        constructor
        · rintro rfl
          exact absurd (congrArg Ip.v6 hsix) hmapped
        · rintro ⟨hnone, -⟩
          cases hnone
    · rw [if_neg hdot, if_neg hdot, headWord_eq, Ipv4.toUInt32_inj]

/-- The bytes that the text of an IPv6 address may begin with. -/
def headBytes : Bytes := Bytes.ofText ":0123456789ABCDEFabcdef"

theorem head_mem_headBytes {ip : ClientAddress} {six : Ipv6}
    (hread : Ip.ofText? ip = some (.v6 six)) : (Bytes.ofText ip).getD 0 0 ∈ headBytes := by
  have hsix : Ip.readIpv6? ip.toList = some (six, []) := by
    obtain ⟨_, hfour, _⟩ | ⟨_, ⟨⟩, hsix⟩ := Ip.read_of_ofText? hread
    · cases hfour
    · exact hsix
  obtain ⟨c, hhead, hc⟩ := Ip.head_of_readIpv6? hsix
  have hsmall : c.toNat < 128 := by
    rcases hc with hhex | rfl
    · exact Ip.toNat_lt_of_isHexDigit hhex
    · decide
  have hascii : ∀ n < 128, Ip.isHexDigit (Char.ofNat n) = true ∨ Char.ofNat n = ':' →
      ∃ b ∈ headBytes, String.utf8EncodeChar (Char.ofNat n) = [b] := by decide +kernel
  obtain ⟨b, hb, hbyte⟩ := hascii c.toNat hsmall (by rwa [Char.ofNat_toNat])
  obtain ⟨rest, hrest⟩ := List.head?_eq_some_iff.mp hhead
  rw [Char.ofNat_toNat] at hbyte
  rw [Bytes.ofText, hrest, List.flatMap_cons, hbyte]
  exact hb

/-- So an IPv6 address is counted as few IPv4 addresses: their first byte is the code of a
hexadecimal digit or a colon, or they are 0.0.0.0. -/
theorem CountsAs.first_byte {a : Ipv4} {ip : ClientAddress} (h : CountsAs a ip) :
    a.a ∈ headBytes ∨ a = ⟨0, 0, 0, 0⟩ := by
  cases h with
  | head six hread _ hhead =>
    rw [← hhead]
    exact Or.inl (head_mem_headBytes hread)
  | zero _ _ _ _ ha => exact Or.inr ha.symm

end ClientAddress

namespace Firewall

open ClientAddress

/-! ## Runs without some clients -/

/-- Whether an act is a request from one of these addresses. -/
def Act.isFrom (others : ClientAddress → Bool) : Act → Bool
  | .request v _ => others v.ip
  | _ => false

theorem Act.eq_request_of_isFrom {others : ClientAddress → Bool} {act : Act}
    (h : act.isFrom others = true) : ∃ v now, act = .request v now ∧ others v.ip = true := by
  cases act with
  | request v now => exact ⟨v, now, rfl, h⟩
  | rotate now => cases h
  | record raw => cases h
  | sweep now => cases h

/-- What is left of a run without the requests from these addresses. -/
def without (others : ClientAddress → Bool) (acts : List Act) : List Act :=
  acts.filter fun act => !act.isFrom others

@[simp]
theorem without_cons_request (others : ClientAddress → Bool) (v : Visit) (now : Moment)
    (acts : List Act) : without others (.request v now :: acts) =
      if others v.ip = true then without others acts
      else .request v now :: without others acts := by
  rw [without, List.filter_cons]
  by_cases h : others v.ip = true <;> simp [Act.isFrom, h, without]

/-- The verdict on a request from an address. -/
def verdict? (ip : ClientAddress) (f : Firewall) : Act → Option Verdict
  | .request v now => if v.ip = ip then some (f.judge v now).1 else none
  | _ => none

/-- The verdicts on the requests from an address over a run, in their order. -/
def verdicts (ip : ClientAddress) (f : Firewall) : List Act → List Verdict
  | [] => []
  | act :: acts => (verdict? ip f act).toList ++ verdicts ip (f.step act) acts

section

variable {f : Firewall} {ip : ClientAddress} {v : Visit}

theorem verdicts_cons_self (h : v.ip = ip) (now : Moment) (acts : List Act) :
    verdicts ip f (.request v now :: acts) =
      (f.judge v now).1 :: verdicts ip (f.step (.request v now)) acts := by
  rw [verdicts, verdict?, if_pos h]
  rfl

theorem verdicts_cons_other (h : v.ip ≠ ip) (now : Moment) (acts : List Act) :
    verdicts ip f (.request v now :: acts) = verdicts ip (f.step (.request v now)) acts := by
  rw [verdicts, verdict?, if_neg h]
  rfl

end

/-! ## Firewalls that differ in other counters only -/

/-- Two firewalls without signature checking that agree on everything by which they decide on
clients with this key. -/
structure Alike (key : UInt32) (f g : Firewall) : Prop where
  live : g.live = f.live
  filter : g.filter = f.filter
  floor : g.minEnforcedReqSecond = f.minEnforcedReqSecond
  skips : f.skipSignature = true
  skips' : g.skipSignature = true
  count : g.window.count key = f.window.count key

variable {key : UInt32} {f g : Firewall} {ip : ClientAddress}

theorem Alike.refl (h : f.skipSignature = true) : Alike key f f :=
  ⟨rfl, rfl, rfl, h, h, rfl⟩

/-- Without signature checking, the address and the screened words decide. -/
theorem judge_fst_of_skips (h : f.skipSignature = true) (v : Visit) (now : Moment) :
    (f.judge v now).1 = match (f.checkAddress v.ip).1 with
      | some why => .rejected why
      | none => if f.isDangerous v then .rejected .dangerousInput else .admitted := by
  show (f.check v now).1 = _
  have hframe := checkAddress_snd f v.ip
  unfold check
  rcases hcheck : f.checkAddress v.ip with ⟨_ | why, g⟩
  · rw [hcheck] at hframe
    simp only at hframe ⊢
    have hskips : g.skipSignature = true := by rw [hframe, h]
    have hdanger : g.isDangerous v = f.isDangerous v := by rw [hframe]; rfl
    rw [hdanger, hskips]
    split <;> rfl
  · rfl

theorem Alike.checkAddress_eq (h : Alike key f g) (hkey : ip.rateKey = key) :
    (g.checkAddress ip).1 = (f.checkAddress ip).1 := by
  have hover (n : Nat) : g.isOverLimit n = f.isOverLimit n := by
    unfold isOverLimit maxReqSecond
    rw [h.live, h.floor]
  rw [Firewall.checkAddress_eq, Firewall.checkAddress_eq, h.live, hkey, h.count, hover]
  split <;> rfl

theorem Alike.judge_eq (h : Alike key f g) {v : Visit} (hkey : v.ip.rateKey = key)
    (now : Moment) : (g.judge v now).1 = (f.judge v now).1 := by
  have hdanger : g.isDangerous v = f.isDangerous v := by
    unfold isDangerous
    rw [h.filter]
  rw [judge_fst_of_skips h.skips, judge_fst_of_skips h.skips', h.checkAddress_eq hkey, hdanger]

theorem Alike.step (h : Alike key f g) (act : Act) : Alike key (f.step act) (g.step act) := by
  obtain ⟨w, l, r, m, hf⟩ := step_eq f act
  obtain ⟨w', l', r', m', hg⟩ := step_eq g act
  have hcount : (g.step act).window.count key = (f.step act).window.count key := by
    cases act with
    | request v now =>
      show (g.judge v now).2.window.count key = (f.judge v now).2.window.count key
      rw [window_judge, window_judge, h.live]
      split
      · rw [RateWindow.count_hit, RateWindow.count_hit]
        split
        next hkey => rw [hkey, h.count]
        next => exact h.count
      · exact h.count
    | rotate now =>
      show (g.window.rotate _).count key = (f.window.rotate _).count key
      rw [RateWindow.count_rotate, RateWindow.count_rotate]
    | record raw =>
      show (g.offerRecord raw).window.count key = (f.offerRecord raw).window.count key
      unfold offerRecord applyRecord?
      cases FirewallRecord.ofBytes? raw <;> exact h.count
    | sweep now => exact h.count
  refine ⟨by rw [live_step, live_step, h.live], ?_, ?_, ?_, ?_, hcount⟩
  · rw [hf, hg]
    exact h.filter
  · rw [hf, hg]
    exact h.floor
  · rw [hf]
    exact h.skips
  · rw [hg]
    exact h.skips'

/-- A request that is not counted with the key makes no difference. -/
theorem Alike.step_left (h : Alike key f g) {v : Visit} (now : Moment)
    (hother : v.ip.isLocal = true ∨ v.ip.rateKey ≠ key) :
    Alike key (f.step (.request v now)) g := by
  obtain ⟨w, r, m, hf⟩ := judge_snd f v now
  have hcount : (f.judge v now).2.window.count key = f.window.count key := by
    rw [window_judge]
    split
    next hcounts =>
      have hpublic := ((LiveSettings.counts_iff _ _).mp hcounts).2.1
      have hkey : v.ip.rateKey ≠ key := hother.resolve_left (by simp [hpublic])
      rw [RateWindow.count_hit, if_neg hkey]
    next => rfl
  show Alike key (f.judge v now).2 g
  refine ⟨?_, ?_, ?_, ?_, h.skips', h.count.trans hcount.symm⟩ <;> rw [hf]
  · exact h.live
  · exact h.filter
  · exact h.floor
  · exact h.skips

theorem Alike.verdict?_eq (h : Alike ip.rateKey f g) (act : Act) :
    verdict? ip g act = verdict? ip f act := by
  cases act with
  | request v now =>
    simp only [verdict?]
    split
    next hip => rw [h.judge_eq (by rw [hip])]
    next => rfl
  | rotate now => rfl
  | record raw => rfl
  | sweep now => rfl

/-- The verdicts on a client stay the same without clients who are not counted with its key. -/
theorem Alike.verdicts_without {others : ClientAddress → Bool} (h : Alike ip.rateKey f g)
    (hself : others ip = false)
    (hothers : ∀ other, others other = true →
      other.isLocal = true ∨ other.rateKey ≠ ip.rateKey) (acts : List Act) :
    verdicts ip g (without others acts) = verdicts ip f acts := by
  induction acts generalizing f g with
  | nil => rfl
  | cons act acts ih =>
    rw [without]
    by_cases hfrom : act.isFrom others = true
    · rw [List.filter_cons_of_neg (by simp [hfrom])]
      obtain ⟨v, now, rfl, hv⟩ := Act.eq_request_of_isFrom hfrom
      have hne : v.ip ≠ ip := by
        rintro rfl
        rw [hself] at hv
        cases hv
      rw [verdicts_cons_other hne]
      exact ih (h.step_left now (hothers _ hv))
    · rw [List.filter_cons_of_pos (by simp [hfrom]), verdicts, verdicts, h.verdict?_eq]
      exact congrArg _ (ih (h.step act))

/-! ## A shared counter -/

/-- One request in a second. -/
def oneInASecond : FirewallSettings where
  skipSignature := true
  defaultMaxReqSecond := 1
  minEnforcedReqSecond := 1

/-- Under a threshold of one, a client is over it exactly if the counter was hit before. -/
theorem rateLimited_iff_of_oneInASecond (hlive : f.live = ⟨[], 1⟩)
    (hfloor : f.minEnforcedReqSecond = 1) (hknown : ip.isEmpty = false)
    (hpublic : ip.isLocal = false) (now : Moment) :
    (f.judge (plainVisit ip) now).1 = .rejected .rateLimited ↔ 0 < f.window.count ip.rateKey := by
  have hcounts : f.live.counts (plainVisit ip).ip = true := by
    rw [LiveSettings.counts_iff, hlive]
    exact ⟨hknown, hpublic, List.not_mem_nil⟩
  have htop : 1 < Decimal.maxU32 := by decide
  have hnext (n : Nat) : 1 < RateWindow.nextCount n ↔ 0 < n := by
    unfold RateWindow.nextCount
    omega
  rw [judge_rateLimited_iff, and_iff_right hcounts]
  simp [isOverLimit, maxReqSecond, hlive, hfloor, hnext, plainVisit]

/-- After a request from a client with the same counter the next one is over the limit. -/
theorem verdicts_ne_of_shared_counter {other : ClientAddress} (hne : other ≠ ip)
    (hknown : ip.isEmpty = false) (hpublic : ip.isLocal = false)
    (hknown' : other.isEmpty = false) (hpublic' : other.isLocal = false)
    (hkey : other.rateKey = ip.rateKey) :
    let f := start oneInASecond KeywordFilter.standard 0
    let own : Act := .request (plainVisit ip) 0
    verdicts ip f [.request (plainVisit other) 0, own] ≠ verdicts ip f [own] := by
  intro f own
  have hfresh (key : UInt32) : f.window.count key = 0 := RateWindow.count_start _ key
  have hfree : (f.judge (plainVisit ip) 0).1 ≠ .rejected .rateLimited := by
    rw [ne_eq, rateLimited_iff_of_oneInASecond rfl rfl hknown hpublic, hfresh]
    exact Nat.lt_irrefl 0
  have hlimited : ((f.step (.request (plainVisit other) 0)).judge (plainVisit ip) 0).1 =
      .rejected .rateLimited := by
    have hlive := live_step f (.request (plainVisit other) 0)
    have hfloor := minEnforcedReqSecond_run f [.request (plainVisit other) 0]
    refine (rateLimited_iff_of_oneInASecond hlive hfloor hknown hpublic 0).mpr ?_
    have hcounts : f.live.counts (plainVisit other).ip = true := by
      rw [LiveSettings.counts_iff]
      exact ⟨hknown', hpublic', List.not_mem_nil⟩
    show 0 < (f.judge (plainVisit other) 0).2.window.count ip.rateKey
    rw [window_judge, if_pos hcounts, plainVisit_ip, RateWindow.count_hit, if_pos hkey, hfresh]
    decide
  have hown := plainVisit_ip ip
  rw [verdicts_cons_other hne, verdicts_cons_self hown, verdicts_cons_self hown, hlimited]
  intro heq
  exact hfree (List.head_eq_of_cons_eq heq).symm

/-! ## Isolation -/

theorem not_others_toText {a : Ipv4} {others : ClientAddress → Bool}
    (hapart : ∀ ip, others ip = true → IsApart a ip) : others a.toText = false := by
  rw [Bool.eq_false_iff]
  intro h
  obtain ⟨address, hread, hne, -⟩ := hapart _ h
  exact hne (Option.some.inj (hread.symm.trans (Ip.ofText?_toText a)))

/-- Clients that are not counted as an IPv4 client may come and go. -/
theorem verdicts_eq_of_not_countsAs {a : Ipv4} {others : ClientAddress → Bool}
    (hapart : ∀ ip, others ip = true → IsApart a ip)
    (hnone : ∀ ip, others ip = true → ip.isLocal = true ∨ ¬ CountsAs a ip)
    (hskips : f.skipSignature = true) {acts acts' : List Act}
    (hsame : without others acts = without others acts') :
    verdicts a.toText f acts = verdicts a.toText f acts' := by
  have hothers : ∀ ip, others ip = true →
      ip.isLocal = true ∨ ip.rateKey ≠ ClientAddress.rateKey a.toText := by
    intro ip hip
    rw [rateKey_toText, ne_eq, rateKey_eq_iff (hapart ip hip)]
    exact hnone ip hip
  have hself := not_others_toText hapart
  have hrefl : Alike (ClientAddress.rateKey a.toText) f f := Alike.refl hskips
  calc verdicts a.toText f acts
    _ = verdicts a.toText f (without others acts) :=
      (hrefl.verdicts_without hself hothers acts).symm
    _ = verdicts a.toText f (without others acts') := by rw [hsame]
    _ = verdicts a.toText f acts' := hrefl.verdicts_without hself hothers acts'

/-- A public IPv4 client gets the same verdicts whatever requests a set of other addresses adds
to a run, exactly if none of the addresses that is public is counted as it. None ever is if the
first byte of the client's address begins no text of an IPv6 address, 0.0.0.0 apart. -/
theorem verdicts_isolated_iff (a : Ipv4) (hpublic : a.isLocal = false)
    (others : ClientAddress → Bool) (hapart : ∀ ip, others ip = true → IsApart a ip) :
    ((∀ (settings : FirewallSettings) (filter : KeywordFilter) (built : Moment)
      (acts acts' : List Act), settings.skipSignature = true →
      without others acts = without others acts' →
      verdicts a.toText (start settings filter built) acts =
        verdicts a.toText (start settings filter built) acts') ↔
      ∀ ip, others ip = true → ip.isLocal = true ∨ ¬ CountsAs a ip) ∧
    (a.a ∉ headBytes → a ≠ ⟨0, 0, 0, 0⟩ → ∀ ip, ¬ CountsAs a ip) := by
  refine ⟨⟨?_, ?_⟩, fun hbyte hzero ip hcounts => hcounts.first_byte.elim hbyte hzero⟩
  · intro hall ip hip
    obtain ⟨_, hread, -, -⟩ := hapart ip hip
    have hself := not_others_toText hapart
    cases hlocal : ip.isLocal with
    | true => exact Or.inl rfl
    | false =>
      refine Or.inr fun hcounts => ?_
      have hshared : ip.rateKey = ClientAddress.rateKey a.toText :=
        ((rateKey_eq_iff (hapart ip hip)).mpr hcounts).trans (rateKey_toText a).symm
      have hne : ip ≠ a.toText := by
        rintro rfl
        rw [hself] at hip
        cases hip
      refine verdicts_ne_of_shared_counter hne
        (isEmpty_eq_false_of_ofText? (Ip.ofText?_toText a)) ((isLocal_toText a).trans hpublic)
        (isEmpty_eq_false_of_ofText? hread) hlocal hshared (hall _ _ _ _ _ rfl ?_)
      simp [hip, hself]
  · intro hnone settings filter built acts acts' hskips hsame
    exact verdicts_eq_of_not_countsAs hapart hnone hskips hsame

theorem ofText?_documentation :
    Ip.ofText? "2001:db8::1" = some (.v6 (.ofList [0x2001, 0xdb8, 0, 0, 0, 0, 0, 1])) := by
  decide +kernel

/-- A client under a threshold of one, with requests from an IPv6 client around its own. -/
theorem verdicts_isolated_from_other_counter :
    let a : Ipv4 := ⟨8, 8, 8, 8⟩
    let others : ClientAddress → Bool := fun ip => ip == "2001:db8::1"
    let f := start oneInASecond KeywordFilter.standard 0
    let own : Act := .request (plainVisit a.toText) 0
    let other : Act := .request (plainVisit "2001:db8::1") 0
    a.isLocal = false ∧ (∀ ip, others ip = true → IsApart a ip) ∧
      verdicts a.toText f [other, own, other, own] = verdicts a.toText f [own, own] := by
  intro a others f own other
  have hapart : IsApart a "2001:db8::1" := isApart_of_unmapped a ofText?_documentation rfl
  have hothers : ∀ ip, others ip = true → IsApart a ip := by
    intro ip hip
    rwa [eq_of_beq hip]
  have hself : others a.toText = false := by decide +kernel
  have hfrom : others "2001:db8::1" = true := by decide
  obtain ⟨hiff, hfirst⟩ := verdicts_isolated_iff a (by decide) others hothers
  refine ⟨by decide, hothers, hiff.mpr ?_ _ _ _ _ _ rfl (by simp [own, other, hself, hfrom])⟩
  exact fun ip _ => Or.inr (hfirst (by decide +kernel) (by decide) ip)

/-- The text of an IPv6 address may begin with the four bytes of an IPv4 address. -/
theorem verdict_changed_by_other_address :
    ¬ ∀ (settings : FirewallSettings) (filter : KeywordFilter) (built : Moment) (a : Ipv4)
      (others : ClientAddress → Bool) (acts acts' : List Act), settings.skipSignature = true →
      a.isLocal = false → (∀ ip, others ip = true → IsApart a ip) →
      without others acts = without others acts' →
      verdicts a.toText (start settings filter built) acts =
        verdicts a.toText (start settings filter built) acts' := by
  intro hall
  have hapart := isApart_of_unmapped ⟨50, 48, 48, 49⟩ ofText?_documentation rfl
  have hsame := hall oneInASecond KeywordFilter.standard 0 ⟨50, 48, 48, 49⟩ (· == "2001:db8::1")
    [.request (plainVisit "2001:db8::1") 0, .request (plainVisit "50.48.48.49") 0]
    [.request (plainVisit "50.48.48.49") 0] rfl (by decide)
    (fun ip hip => by rwa [eq_of_beq hip]) (by simp)
  revert hsame
  decide +kernel

end Firewall

end AdmissionGate
