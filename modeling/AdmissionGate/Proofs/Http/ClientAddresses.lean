-- The text that stands for a client. It is never empty and has no blanks
-- around it, so that every check of the address reads the same. Where no
-- header names a client, the text is that of the peer.
import AdmissionGate.Proofs.Address.Grouped
import AdmissionGate.Proofs.Http.Decisions

namespace AdmissionGate

/-! ## Texts without blanks around them -/

namespace Text

/-- A text that says something, and begins and ends with it. -/
structure IsBare (text : String) : Prop where
  nonempty : text ≠ ""
  head : ∀ c, text.toList.head? = some c → isBlank c = false
  last : ∀ c, text.toList.getLast? = some c → isBlank c = false

theorem IsBare.trim_eq {text : String} (h : IsBare text) : trim text = text := by
  rw [trim, strip_eq_self_iff.mpr ⟨h.head, h.last⟩, String.ofList_toList]

/-- A bare text, where it stands among blanks. -/
structure IsCore (text : String) (s : List Char) : Prop where
  bare : IsBare text
  among : ∃ before after, s = before ++ text.toList ++ after ∧
    (∀ c ∈ before, isBlank c = true) ∧ ∀ c ∈ after, isBlank c = true

end Text

namespace Ip

theorem isBlank_of_isAddressChar {c : Char} (h : isAddressChar c = true) :
    Text.isBlank c = false := by
  have hascii : c.toNat < 0x80 := by
    simp only [isAddressChar, Bool.or_eq_true, beq_iff_eq] at h
    rcases h with (hhex | rfl) | rfl
    · exact toNat_lt_of_isHexDigit hhex
    · decide
    · decide
  have hall : ∀ c : Char, c.toNat < 0x80 → isAddressChar c = true → Text.isBlank c = false :=
    Bytes.forall_ascii (by decide)
  exact hall c hascii h

theorem isAddressChar_of_mem_written {ip : Ip} {c : Char} (h : c ∈ ip.toText.toList) :
    isAddressChar c = true := by
  cases ip with
  | v4 ip => exact isAddressChar_of_mem_toText h
  | v6 ip => exact (chars_of_ofText?_v6 (ofText?_written (.v6 ip))).2 c h

theorem isBare_toText (ip : Ip) : Text.IsBare ip.toText := by
  have hblank : ∀ c ∈ ip.toText.toList, Text.isBlank c = false := fun c hc =>
    isBlank_of_isAddressChar (isAddressChar_of_mem_written hc)
  refine ⟨?_, fun c hc => hblank c (List.mem_of_head? hc),
    fun c hc => hblank c (List.mem_of_getLast? hc)⟩
  have hempty := ClientAddress.isEmpty_eq_false_of_ofText? (ofText?_written ip)
  rwa [String.isEmpty_eq_false_iff] at hempty

end Ip

namespace ClientAddress

/-- Without blanks around it, a text is judged by the address that it is. -/
theorem isLocal_of_isBare {text : ClientAddress} (h : Text.IsBare text) :
    text.isLocal = (Ip.ofText? text).any Ip.isLocal := by
  unfold isLocal
  rw [h.trim_eq]
  cases Ip.ofText? text <;> rfl

end ClientAddress

namespace Http

/-! ## What the headers name -/

theorem nonBlank?_eq_none_iff {s : String} :
    nonBlank? s = none ↔ ∀ c ∈ s.toList, Text.isBlank c = true := by
  rw [← Text.trim_eq_empty_iff, nonBlank?]
  simp

/-- What is left of a text when it is trimmed. -/
theorem isCore_of_nonBlank? {s text : String} (h : nonBlank? s = some text) :
    Text.IsCore text s.toList := by
  unfold nonBlank? at h
  simp only [beq_iff_eq] at h
  split at h
  · cases h
  · case isFalse hne =>
    cases h
    obtain ⟨hhead, hlast⟩ := Text.strip_ends Text.isBlank s.toList
    have htrim : (Text.trim s).toList = Text.strip Text.isBlank s.toList := String.toList_ofList
    refine ⟨⟨hne, ?_, ?_⟩, ?_⟩
    · rwa [htrim]
    · rwa [htrim]
    · rw [htrim]
      exact Text.strip_around Text.isBlank s.toList

/-- What stands before the first comma. -/
def firstHop (value : String) : List Char := value.toList.takeWhile (· != ',')

namespace Headers

/-- What can be read of the first `X-Forwarded-For` is blank up to its first comma. -/
def NamesNoHop (hs : Headers) : Prop :=
  ∀ v, hs.text? "x-forwarded-for" = some v → ∀ c ∈ firstHop v, Text.isBlank c = true

/-- No forwarding header names a client: there is no hop, and what can be read of the first
`X-Real-IP` is blank. -/
structure NamesNoClient (hs : Headers) : Prop where
  no_hop : hs.NamesNoHop
  no_address : ∀ v, hs.text? "x-real-ip" = some v → ∀ c ∈ v.toList, Text.isBlank c = true

/-- The client that the forwarding headers name, a hop rather than an address. -/
inductive Names (hs : Headers) (client : ClientAddress) : Prop where
  | hop {v : String} (header : hs.text? "x-forwarded-for" = some v)
      (core : Text.IsCore client (firstHop v))
  | address {v : String} (no_hop : hs.NamesNoHop) (header : hs.text? "x-real-ip" = some v)
      (core : Text.IsCore client v.toList)

theorem Names.isBare {hs : Headers} {client : ClientAddress} (h : hs.Names client) :
    Text.IsBare client := by
  cases h with
  | hop _ core => exact core.bare
  | address _ _ core => exact core.bare

end Headers

variable {hs : Headers}

/-- The hop that is read, if there is one. -/
def hop? (hs : Headers) : Option ClientAddress :=
  (hs.text? "x-forwarded-for").bind fun v => nonBlank? (String.ofList (firstHop v))

theorem forwardedClient?_eq (hs : Headers) :
    forwardedClient? hs = (hop? hs).or ((hs.text? "x-real-ip").bind nonBlank?) := rfl

theorem hop?_eq_none_iff : hop? hs = none ↔ hs.NamesNoHop := by
  simp [hop?, Option.bind_eq_none_iff, nonBlank?_eq_none_iff, Headers.NamesNoHop]

theorem forwardedClient?_eq_none_iff : forwardedClient? hs = none ↔ hs.NamesNoClient := by
  rw [forwardedClient?_eq, Option.or_eq_none_iff, hop?_eq_none_iff, Option.bind_eq_none_iff]
  simp only [nonBlank?_eq_none_iff]
  exact ⟨fun h => ⟨h.1, h.2⟩, fun h => ⟨h.no_hop, h.no_address⟩⟩

theorem names_of_forwardedClient? {client : ClientAddress}
    (h : forwardedClient? hs = some client) : hs.Names client := by
  rw [forwardedClient?_eq, Option.or_eq_some_iff, hop?_eq_none_iff, hop?,
    Option.bind_eq_some_iff, Option.bind_eq_some_iff] at h
  rcases h with ⟨v, hheader, hread⟩ | ⟨hnone, v, hheader, hread⟩
  · have hcore := isCore_of_nonBlank? hread
    rw [String.toList_ofList] at hcore
    exact .hop hheader hcore
  · exact .address hnone hheader (isCore_of_nonBlank? hread)

/-! ## The client of a request -/

theorem clientAddress_of_unnamed {behindProxy : Bool} (peer : Ip)
    (h : behindProxy = false ∨ hs.NamesNoClient) :
    clientAddress hs peer behindProxy = peer.toText := by
  unfold clientAddress
  split
  · case isTrue hproxy =>
    have hnone : hs.NamesNoClient := h.resolve_left (by simp [hproxy])
    rw [forwardedClient?_eq_none_iff.mpr hnone, Option.getD_none]
  · rfl

theorem names_clientAddress {behindProxy : Bool} (peer : Ip) (hproxy : behindProxy = true)
    (h : ¬ hs.NamesNoClient) : hs.Names (clientAddress hs peer behindProxy) := by
  rw [← forwardedClient?_eq_none_iff] at h
  obtain ⟨client, hnamed⟩ := Option.ne_none_iff_exists'.mp h
  unfold clientAddress
  rw [if_pos hproxy, hnamed, Option.getD_some]
  exact names_of_forwardedClient? hnamed

theorem isBare_clientAddress (hs : Headers) (peer : Ip) (behindProxy : Bool) :
    Text.IsBare (clientAddress hs peer behindProxy) := by
  by_cases hunnamed : behindProxy = false ∨ hs.NamesNoClient
  · rw [clientAddress_of_unnamed peer hunnamed]
    exact peer.isBare_toText
  · rw [not_or, Bool.not_eq_false] at hunnamed
    exact (names_clientAddress peer hunnamed.1 hunnamed.2).isBare

theorem isEmpty_clientAddress (hs : Headers) (peer : Ip) (behindProxy : Bool) :
    (clientAddress hs peer behindProxy).isEmpty = false :=
  String.isEmpty_eq_false_iff.mpr (isBare_clientAddress hs peer behindProxy).nonempty

theorem isLocal_clientAddress (hs : Headers) (peer : Ip) (behindProxy : Bool) :
    (clientAddress hs peer behindProxy).isLocal =
      (Ip.ofText? (clientAddress hs peer behindProxy)).any Ip.isLocal :=
  ClientAddress.isLocal_of_isBare (isBare_clientAddress hs peer behindProxy)

/-! ## What the firewall sees -/

namespace Service

variable {s : Service} {peer : Ip} {sent : Sending}

/-- A client is known by the text alone: it is counted unless it is local or blocked. -/
theorem counts_clientAddress (s : Service) (peer : Ip) (sent : Sending) :
    let text := clientAddress sent.headers peer s.settings.listener.behindProxy
    s.firewall.live.counts text = true ↔
      (Ip.ofText? text).any Ip.isLocal = false ∧ text ∉ s.firewall.live.blocked := by
  intro text
  rw [LiveSettings.counts_iff, isLocal_clientAddress]
  exact and_iff_right (isEmpty_clientAddress _ peer _)

theorem verdict_blocked_iff (now : Moment) (h : sent.IsDecided s.settings) :
    let text := clientAddress sent.headers peer s.settings.listener.behindProxy
    (s.answer peer sent now).verdict = some (.rejected .blocked) ↔
      (Ip.ofText? text).any Ip.isLocal = false ∧ text ∈ s.firewall.live.blocked := by
  intro text
  rw [(s.answer_of_decided peer now h).1, Option.some_inj, Firewall.judge_blocked_iff]
  show text.isEmpty = false ∧ text.isLocal = false ∧ text ∈ s.firewall.live.blocked ↔ _
  rw [isLocal_clientAddress]
  exact and_iff_right (isEmpty_clientAddress _ peer _)

theorem window_answer (now : Moment) (h : sent.IsDecided s.settings) :
    let text := clientAddress sent.headers peer s.settings.listener.behindProxy
    (s.answer peer sent now).after.firewall.window =
      if s.firewall.live.counts text then s.firewall.window.hit text.rateKey
      else s.firewall.window := by
  rw [(s.answer_of_decided peer now h).2.1]
  exact Firewall.window_judge s.firewall (s.visit peer sent.whole sent.transfer.body) now

end Service

/-- Whatever headers there are, the text of a client is not empty and has no blanks around it, so
that it is judged as the address that it is itself, without trimming. Behind a proxy it is the
client that the headers name, if they name one, and otherwise it is read as the address of the
peer. On each request that is decided, the firewall blocks the client exactly if this text is no
local address and is on the blocklist, counts every other client that is not local under the key
of the same text, and leaves the window alone for those that are local. So no client goes by
unchecked for want of an address. -/
theorem address_checks_read_one_text :
    (∀ (hs : Headers) (peer : Ip) (behindProxy : Bool),
      let text := clientAddress hs peer behindProxy
      Text.IsBare text ∧ text.isLocal = (Ip.ofText? text).any Ip.isLocal ∧
        (behindProxy = false ∨ hs.NamesNoClient → Ip.ofText? text = some peer) ∧
        (behindProxy = true ∧ ¬ hs.NamesNoClient → hs.Names text)) ∧
    ∀ (s : Service) (peer : Ip) (sent : Sending) (now : Moment), sent.IsDecided s.settings →
      let text := clientAddress sent.headers peer s.settings.listener.behindProxy
      let isPublic := (Ip.ofText? text).any Ip.isLocal = false
      let a := s.answer peer sent now
      let window := a.after.firewall.window
      (a.verdict = some (.rejected .blocked) ↔ isPublic ∧ text ∈ s.firewall.live.blocked) ∧
        (isPublic ∧ text ∉ s.firewall.live.blocked →
          s.firewall.window.HasOneMoreHit window text.rateKey) ∧
        (¬ isPublic → window = s.firewall.window) := by
  constructor
  · intro hs peer behindProxy text
    refine ⟨isBare_clientAddress hs peer behindProxy, isLocal_clientAddress hs peer behindProxy,
      fun hunnamed => ?_, fun hnamed => ?_⟩
    · show Ip.ofText? (clientAddress hs peer behindProxy) = some peer
      rw [clientAddress_of_unnamed peer hunnamed, peer.ofText?_written]
    · exact names_clientAddress peer hnamed.1 hnamed.2
  · intro s peer sent now hdecided text isPublic a window
    have hcounts : s.firewall.live.counts text = true ↔
        isPublic ∧ text ∉ s.firewall.live.blocked := s.counts_clientAddress peer sent
    have hwindow : window = if s.firewall.live.counts text then s.firewall.window.hit text.rateKey
        else s.firewall.window := Service.window_answer now hdecided
    refine ⟨Service.verdict_blocked_iff now hdecided, fun hcounted => ?_, fun hlocal => ?_⟩
    · rw [hwindow, if_pos (hcounts.mpr hcounted)]
      exact s.firewall.window.hasOneMoreHit_hit text.rateKey
    · rw [hwindow, if_neg fun h => hlocal (hcounts.mp h).1]

/-- A hop of blanks and an empty `X-Real-IP` name no client, whatever stands behind them. The
peer is on the blocklist with its own text, and is counted where it is not. -/
theorem blank_hop_judged_as_peer :
    let hs : Headers := [("X-Forwarded-For", Bytes.ofText " ,192.168.0.9"),
      ("x-forwarded-for", Bytes.ofText "192.168.0.9"), ("X-Real-IP", [])]
    let peer : Ip := .v6 (.ofList [0x2001, 0xdb8, 0, 0, 0, 0, 0, 1])
    let sent : Sending := ⟨"GET", ⟨"/ping", none⟩, hs, ⟨[], some 0⟩⟩
    let start := Service.start {} 0
    let s (blocked : List String) : Service :=
      { start with firewall := { start.firewall with live := ⟨blocked, 10⟩ } }
    hs.NamesNoClient ∧ Ip.ofText? (clientAddress hs peer true) = some peer ∧
      sent.IsDecided start.settings ∧
      ((s ["2001:db8::1"]).answer peer sent 0).verdict = some (.rejected .blocked) ∧
      (s []).firewall.window.HasOneMoreHit ((s []).answer peer sent 0).after.firewall.window
        0x32303031 := by
  intro hs peer sent start s
  have hhop : hs.text? "x-forwarded-for" = some " ,192.168.0.9" := by decide +kernel
  have haddress : hs.text? "x-real-ip" = some "" := by decide +kernel
  have hnone : hs.NamesNoClient := by
    refine ⟨fun v hv => ?_, fun v hv => ?_⟩
    · cases hhop.symm.trans hv
      exact List.all_eq_true.mp (by decide +kernel)
    · cases haddress.symm.trans hv
      simp
  have hdecided : sent.IsDecided start.settings := ⟨by decide, ⟨0, rfl, by decide⟩, by decide⟩
  have htext : clientAddress hs peer true = "2001:db8::1" := by decide +kernel
  have hpublic : (Ip.ofText? "2001:db8::1").any Ip.isLocal = false := by decide +kernel
  have hkey : ClientAddress.rateKey "2001:db8::1" = 0x32303031 := by decide +kernel
  have hread := (address_checks_read_one_text.1 hs peer true).2.2.1 (Or.inr hnone)
  have hblocked := (address_checks_read_one_text.2 (s ["2001:db8::1"]) peer sent 0 hdecided).1
  have hcounted := (address_checks_read_one_text.2 (s []) peer sent 0 hdecided).2.1
  refine ⟨hnone, hread, hdecided, hblocked.mpr ?_, ?_⟩
  · show (Ip.ofText? (clientAddress hs peer true)).any Ip.isLocal = false ∧
      clientAddress hs peer true ∈ ["2001:db8::1"]
    rw [htext]
    exact ⟨hpublic, List.mem_singleton_self _⟩
  · have hhit := hcounted (by
      show (Ip.ofText? (clientAddress hs peer true)).any Ip.isLocal = false ∧
        clientAddress hs peer true ∉ []
      rw [htext]
      exact ⟨hpublic, List.not_mem_nil⟩)
    have hsame : (clientAddress hs peer true).rateKey = 0x32303031 := by rw [htext, hkey]
    rwa [← hsame]

end Http

end AdmissionGate
