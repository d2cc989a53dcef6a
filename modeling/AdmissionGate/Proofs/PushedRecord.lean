-- The record that the operator's program writes to the store. Its bytes are
-- read back as the addresses and the threshold that were given, whatever the
-- addresses are made of, and they replace the live settings of any firewall.
import AdmissionGate.CommandLine.Run
import AdmissionGate.Firewall.Basic
import AdmissionGate.Proofs.Json.Writing

namespace AdmissionGate

/-! ## Reading what was written -/

namespace FirewallRecord

/-- A record as a JSON value. -/
def toJson (r : FirewallRecord) : Json :=
  .object [(some "block_ip", .array (r.blockIp.map fun ip => .text (some ip))),
    (some "max_req_second", Json.ofNat r.maxReqSecond)]

theorem isTextOf_toText (r : FirewallRecord) :
    Json.IsTextOf (Bytes.ofText r.toText) r.toJson := by
  have hips : Json.IsTextOf (Bytes.ofText (Json.writeArray (r.blockIp.map Json.quote)))
      (.array (r.blockIp.map fun ip => .text (some ip))) := by
    apply Json.isTextOf_writeArray
    rw [List.forall₂_map_left_iff, List.forall₂_map_right_iff, List.forall₂_same]
    exact fun ip _ => Json.isTextOf_quote ip
  apply Json.isTextOf_writeObject
  simp only [List.forall₂_cons]
  exact ⟨⟨rfl, hips⟩, ⟨rfl, Json.isTextOf_toString r.maxReqSecond⟩, .nil⟩

theorem texts?_array (ips : List String) :
    Json.texts? (.array (ips.map fun ip => .text (some ip))) = some ips := by
  show (ips.map fun ip => Json.text (some ip)).mapM Json.text? = some ips
  induction ips with
  | nil => rfl
  | cons ip rest ih =>
    rw [List.map_cons, List.mapM_cons, ih]
    rfl

theorem ofJson?_toJson {r : FirewallRecord} (h : r.maxReqSecond ≤ Decimal.maxU32) :
    ofJson? r.toJson = some r := by
  have hips : Json.single? [("block_ip", .array (r.blockIp.map fun ip => .text (some ip))),
      ("max_req_second", Json.ofNat r.maxReqSecond)] "block_ip" =
        some (some (.array (r.blockIp.map fun ip => .text (some ip)))) := rfl
  have hmax : Json.single? [("block_ip", .array (r.blockIp.map fun ip => .text (some ip))),
      ("max_req_second", Json.ofNat r.maxReqSecond)] "max_req_second" =
        some (some (Json.ofNat r.maxReqSecond)) := rfl
  have hnumber : threshold? (Json.ofNat r.maxReqSecond) = some r.maxReqSecond := Json.upTo?_ofNat h
  show ofFields? [("block_ip", .array (r.blockIp.map fun ip => .text (some ip))),
    ("max_req_second", Json.ofNat r.maxReqSecond)] = some r
  unfold ofFields?
  simp [hips, hmax, texts?_array, hnumber]

/-- A record is read from the bytes that it is written as. -/
theorem ofBytes?_toText {r : FirewallRecord} (h : r.maxReqSecond ≤ Decimal.maxU32) :
    ofBytes? (Bytes.ofText r.toText) = some r := by
  rw [ofBytes?, Json.ofBytes?_of_isTextOf r.isTextOf_toText, Option.bind_some, ofJson?_toJson h]

end FirewallRecord

/-! ## Writing it to the store -/

namespace CommandLine

/-- The call that writes some bytes as the live record of the service with these settings. -/
def recordCall (agent : AgentClient) (s : Settings) (raw : Bytes) : HttpCall :=
  ⟨"PUT", agent.keyUrl (recordKey s), raw⟩

theorem isOk_put_iff (agent : AgentClient) (t : Transport) (key : String) (raw : Bytes) :
    agent.put t key raw = .ok () ↔
      ∃ r, t ⟨"PUT", agent.keyUrl key, raw⟩ = some r ∧ Status.isSuccess r.status = true := by
  unfold AgentClient.put AgentClient.reply
  cases t ⟨"PUT", agent.keyUrl key, raw⟩ with
  | none => simp [bind, Except.bind]
  | some r =>
    simp only [bind, Except.bind, Option.some.injEq, exists_eq_left']
    split
    next hsuccess => simp [hsuccess]
    next hfailure => simp [hfailure]

/-- The program succeeds exactly if the agent takes the one call that writes the record. -/
theorem isOk_pushRecord_iff {env : Environment} {s : Settings} {record : FirewallRecord}
    {agent : AgentClient} (hagent : AgentClient.ofAddress s.store.address = .ok agent) :
    (pushRecord env s record).isOk = true ↔
      ∃ r, env.transport (recordCall agent s (Bytes.ofText record.toText)) = some r ∧
        Status.isSuccess r.status = true := by
  show _ ↔ ∃ r, env.transport ⟨"PUT", agent.keyUrl (recordKey s), _⟩ = some r ∧ _
  rw [← isOk_put_iff]
  unfold pushRecord
  rw [hagent]
  cases hput : agent.put env.transport (recordKey s) (Bytes.ofText record.toText) with
  | ok => simp [bind, Except.bind, Except.mapError, hput, Except.isOk, Except.toBool]
  | error why => simp [bind, Except.bind, Except.mapError, hput, Except.isOk, Except.toBool]

theorem carryOut_pushConfig {env : Environment} {config : Option String} {s : Settings}
    (h : settingsOf env config = .ok s) (ips : List String) (max : Nat) :
    carryOut env ⟨config, .pushConfig ips max⟩ = pushRecord env s ⟨ips, max⟩ := by
  simp only [carryOut, h, bind, Except.bind]

/-- The program writes some addresses and a threshold as bytes that every firewall takes for its
live settings, in place of those that it had: it blocks exactly the given addresses, has the given
threshold, and is otherwise as before. -/
theorem pushed_record_applied (ips : List String) (max : Nat) (hmax : max ≤ Decimal.maxU32) :
    let raw := Bytes.ofText (FirewallRecord.toText ⟨ips, max⟩)
    (∀ env config s agent, settingsOf env config = .ok s →
      AgentClient.ofAddress s.store.address = .ok agent →
        ((carryOut env ⟨config, .pushConfig ips max⟩).isOk = true ↔
          ∃ r, env.transport (recordCall agent s raw) = some r ∧
            Status.isSuccess r.status = true)) ∧
    ∀ f : Firewall, ∃ g, f.applyRecord? raw = some g ∧
      (∀ ip, g.isBlocked ip = true ↔ ip ∈ ips) ∧ g.maxReqSecond = max ∧
      g = { f with live := g.live } := by
  intro raw
  constructor
  · intro env config s agent hsettings hagent
    rw [carryOut_pushConfig hsettings, isOk_pushRecord_iff hagent]
  · intro f
    have hread : FirewallRecord.ofBytes? raw = some ⟨ips, max⟩ :=
      FirewallRecord.ofBytes?_toText hmax
    refine ⟨{ f with live := ⟨ips, max⟩ }, ?_, fun ip => ?_, rfl, rfl⟩
    · rw [Firewall.applyRecord?, hread]
      rfl
    · exact List.contains_iff_mem

/-- An environment without files, in which the agent takes one write and nothing else. -/
def takingOnly (raw : Bytes) : Environment where
  file := fun _ => none
  agentIp := none
  now := 0
  transport := fun call => if call.body = raw then some ⟨200, [], Bytes.ofText "true"⟩ else none

theorem takingOnly_recordCall (agent : AgentClient) (s : Settings) (raw : Bytes) :
    ∃ r, (takingOnly raw).transport (recordCall agent s raw) = some r ∧
      Status.isSuccess r.status = true :=
  ⟨_, if_pos rfl, by decide⟩

/-- The agent of the default settings. -/
theorem ofAddress_default :
    ∃ agent, AgentClient.ofAddress ({} : Settings).store.address = .ok agent := by
  have hreached : (AgentClient.ofAddress ({} : Settings).store.address).isOk = true := by
    decide +kernel
  cases hagent : AgentClient.ofAddress ({} : Settings).store.address with
  | error why =>
    rw [hagent] at hreached
    cases hreached
  | ok agent => exact ⟨agent, rfl⟩

/-- Texts with a quote, a backslash, a control character and a character of four bytes, and one
text twice. -/
def oddAddresses : List String := ["9.9.9.9", "\x22\\\x1f", "9.9.9.9", "😀", ""]

/-- They are written to an agent that takes their bytes, and read by a firewall that had another
record, together with the highest threshold. -/
theorem odd_record_applied :
    let raw := Bytes.ofText (FirewallRecord.toText ⟨oddAddresses, 4294967295⟩)
    let f := (Firewall.start {} KeywordFilter.standard 0).offerRecord
      (Bytes.ofText "[[\x22old\x22],7]")
    4294967295 ≤ Decimal.maxU32 ∧
      (carryOut (takingOnly raw) ⟨none, .pushConfig oddAddresses 4294967295⟩).isOk = true ∧
      ∃ g, f.applyRecord? raw = some g ∧
        (∀ ip, g.isBlocked ip = true ↔ ip ∈ oddAddresses) ∧ g.maxReqSecond = 4294967295 ∧
        g = { f with live := g.live } := by
  obtain ⟨hwritten, hread⟩ := pushed_record_applied oddAddresses 4294967295 (by decide)
  obtain ⟨agent, hagent⟩ := ofAddress_default
  exact ⟨by decide,
    (hwritten _ none {} agent rfl hagent).mpr (takingOnly_recordCall agent {} _), hread _⟩

end CommandLine

end AdmissionGate
