-- The store agent whose IP address comes from the environment. The address
-- and the port of the agent make a text that is read as the address of a
-- store: this leads back to an IPv4 address, and for an IPv6 address nowhere.
import AdmissionGate.Proofs.Url.Hosts
import AdmissionGate.Settings.Loading
import AdmissionGate.Store.Agent

namespace AdmissionGate

namespace AgentClient

theorem afterScheme?_eq_none {s : List Char} (h : '/' ∉ s) : Http.afterScheme? s = none := by
  induction s with
  | nil => rfl
  | cons c rest ih =>
    rw [List.mem_cons, not_or] at h
    unfold Http.afterScheme?
    split
    · simp_all
    · simp_all
    · rfl

/-- An IP address and a port are no URL. -/
theorem hasScheme_authority {text : String} (h : ∀ c ∈ text.toList, Ip.isAddressChar c = true)
    (port : Nat) : hasScheme (text ++ ":" ++ toString port) = false := by
  have hslash : '/' ∉ text.toList ++ ':' :: Nat.toDigits 10 port := by
    intro hmem
    have hinside := (Url.authority_chars h port '/' hmem).inside
    cases hinside
  rw [hasScheme, Url.authority_toList, String.toList_ofList, afterScheme?_eq_none hslash]
  rfl

/-- The client of an IPv4 address and a port has both in its base. -/
theorem ofAddress_ipv4 (ip : Ipv4) {port : Nat} (hport : port ≤ 65535) (hunusual : port ≠ 80) :
    ofAddress (ip.toText ++ ":" ++ toString port) = .ok ⟨.ofHost (.v4 ip) port⟩ := by
  have hchars : ∀ c ∈ ip.toText.toList, Ip.isAddressChar c = true :=
    fun _ => Ip.isAddressChar_of_mem_toText
  simp only [ofAddress, hasScheme_authority hchars, Bool.false_eq_true, if_false,
    Url.ofText?_ipv4 ip hport hunusual]
  rfl

/-- There is no client of the text of an IPv6 address and a port. -/
theorem ofAddress_ipv6 {text : String} {ip : Ipv6} (h : Ip.ofText? text = some (.v6 ip))
    (port : Nat) : ofAddress (text ++ ":" ++ toString port) =
      .error (.invalidAddress (text ++ ":" ++ toString port)) := by
  simp only [ofAddress, hasScheme_authority (Ip.chars_of_ofText?_v6 h).2, Bool.false_eq_true,
    if_false, Url.ofText?_ipv6 h]

end AgentClient

namespace Settings

/-- A blank address is filled with the IP address from the environment and the port. -/
theorem resolveStore_of_ip {s : Settings} {ip : String} (hblank : Text.trim s.store.address = "")
    (hip : Text.trim ip ≠ "") : s.resolveStore (some ip) = .ok { s with
      store := { s.store with address := Text.trim ip ++ ":" ++ toString agentPort } } := by
  simp [resolveStore, hblank, hip]
  rfl

/-- An IP address as the host of a URL. -/
def hostOf : Ip → Host
  | .v4 ip => .v4 ip
  | .v6 ip => .v6 ip

/-- With a blank address, any IP address from the environment is taken. An IPv4 address leads to
the client that has this address and the agent's port in its base; an IPv6 address leads to no
client. -/
theorem agent_client_of_ip {s : Settings} {ip : String} {address : Ip}
    (hblank : Text.trim s.store.address = "") (hip : Ip.ofText? (Text.trim ip) = some address) :
    ∃ resolved, s.resolveStore (some ip) = .ok resolved ∧
      AgentClient.ofAddress resolved.store.address = match address with
        | .v4 _ => .ok ⟨.ofHost (hostOf address) agentPort⟩
        | .v6 _ => .error (.invalidAddress resolved.store.address) := by
  have hne : Text.trim ip ≠ "" :=
    String.isEmpty_eq_false_iff.mp (ClientAddress.isEmpty_eq_false_of_ofText? hip)
  refine ⟨_, resolveStore_of_ip hblank hne, ?_⟩
  cases address with
  | v4 four =>
    have hport : agentPort ≤ 65535 := by decide
    have hclient := AgentClient.ofAddress_ipv4 four hport (by decide)
    rwa [← Ip.ofText?_eq_v4_iff.mp hip] at hclient
  | v6 six => exact AgentClient.ofAddress_ipv6 hip agentPort

/-- Blanks around the address are dropped. -/
theorem agent_client_of_padded_ipv4 :
    Text.trim ({ store := { address := " " } } : Settings).store.address = "" ∧
      Ip.ofText? (Text.trim " 10.1.2.3\n") = some (.v4 ⟨10, 1, 2, 3⟩) ∧
      ∃ resolved, ({ store := { address := " " } } : Settings).resolveStore (some " 10.1.2.3\n") =
        .ok resolved ∧ AgentClient.ofAddress resolved.store.address =
          .ok ⟨.ofHost (.v4 ⟨10, 1, 2, 3⟩) agentPort⟩ := by
  have hblank : Text.trim ({ store := { address := " " } } : Settings).store.address = "" := by
    decide
  have hip : Ip.ofText? (Text.trim " 10.1.2.3\n") = some (.v4 ⟨10, 1, 2, 3⟩) := by decide
  exact ⟨hblank, hip, agent_client_of_ip hblank hip⟩

/-- The agent on the loopback address of IPv6 cannot be reached. -/
theorem ipv6_agent_without_client :
    ¬∀ (s : Settings) (ip : String) (address : Ip), Text.trim s.store.address = "" →
      Ip.ofText? (Text.trim ip) = some address →
        ∃ resolved client, s.resolveStore (some ip) = .ok resolved ∧
          AgentClient.ofAddress resolved.store.address = .ok client ∧
            client.base.host = hostOf address ∧ client.base.port = some agentPort := by
  intro h
  obtain ⟨resolved, client, hresolved, hclient, -⟩ :=
    h { store := { address := "" } } "::1" (.v6 (.ofList [0, 0, 0, 0, 0, 0, 0, 1])) (by decide)
      (by decide)
  have hself : ({ store := { address := "" } } : Settings).resolveStore (some "::1") =
      .ok { store := { address := "::1:8500" } } := by decide
  rw [hself] at hresolved
  cases hresolved
  have hnone : AgentClient.ofAddress "::1:8500" = .error (.invalidAddress "::1:8500") := by decide
  rw [hnone] at hclient
  cases hclient

end Settings

end AdmissionGate
