-- The key under which the operator's program writes the live record, and the
-- key that the service watches. Both join the namespace and the configured
-- key, and they part where the configured key begins with a slash.
import AdmissionGate.CommandLine.Run
import AdmissionGate.Startup
import AdmissionGate.Proofs.Watch.Offers

namespace AdmissionGate

open Watch

namespace Startup

/-- The store key of the live record, as a watcher with these settings knows it. -/
def watchedKey (s : Settings) : String :=
  (Watcher.start s.store.space : Watcher Unit).fullKey s.firewall.configKey

/-- A subscription that succeeds is the only one of a watcher that had none. -/
theorem subscription?_subscribe {f : Firewall} {space name : String}
    {read : Except StoreError (Option Entry)}
    (h : (f.subscribe (Watcher.start space) name read).1 = .ok ()) (kind : Watched) (key : String) :
    ((f.subscribe (Watcher.start space) name read).2.watcher.subscription? kind key).isSome = true ↔
      kind = .key ∧ key = (Watcher.start space : Watcher Unit).fullKey name := by
  have hnone : ∀ kind key, (Watcher.start space : Watcher Unit).subscription? kind key = none := by
    intro kind key
    cases kind <;> rfl
  have honly : ∀ {w' : Watcher Unit} {sub : Subscription Unit},
      (Watcher.start space).Becomes w' .key ((Watcher.start space : Watcher Unit).fullKey name) sub →
      ((w'.subscription? kind key).isSome = true ↔
        kind = .key ∧ key = (Watcher.start space : Watcher Unit).fullKey name) := by
    intro w' sub hbecomes
    rw [hbecomes, hnone, @eq_comm _ kind, @eq_comm _ key]
    split <;> simp [*]
  have hself := Watcher.subscribed_of_ok h
  have hregistered := Watcher.registered_subscribeKey Firewall.reaction (Watcher.start space) name
    true () read f
  unfold Firewall.subscribe
  generalize (Watcher.subscribeKey Firewall.reaction (Watcher.start space) name true () read f).2
    = r at hself hregistered ⊢
  generalize Watcher.fetchedValue read = fetched at hregistered
  cases hregistered with
  | declined => rw [hnone] at hself; cases hself
  | refused _ => rw [hnone] at hself; cases hself
  | awaited hbecomes _ => exact honly hbecomes
  | taken _ hbecomes _ => exact honly hbecomes

/-- A service that runs watches that key, and nothing else. -/
theorem subscription?_start {s : Settings} {taken : List String} {t : Transport} {now : Moment}
    {running : Running} (h : start s taken t now = .ok running) (kind : Watched)
    (key : String) : (running.watcher.subscription? kind key).isSome = true ↔
      kind = .key ∧ key = watchedKey s := by
  unfold start at h
  cases hagent : AgentClient.ofAddress s.store.address with
  | error why =>
    rw [hagent] at h
    cases h
  | ok agent =>
    have hreached : (Except.ok agent).mapError StartupError.store = .ok agent := rfl
    rw [hagent, hreached] at h
    simp only [bind, Except.bind] at h
    split at h
    · cases h
    · cases hresult : ((Http.Service.start s now).firewall.subscribe
        (Watcher.start s.store.space) s.firewall.configKey
          (agent.get t ((Watcher.start s.store.space : Watcher Unit).fullKey s.firewall.configKey))).1 with
      | error why =>
        rw [hresult] at h
        cases h
      | ok =>
        rw [hresult] at h
        cases h
        exact subscription?_subscribe hresult kind key

/-- A service that runs watches the key under which the operator's program writes the record
exactly if the configured key does not begin with a slash. -/
theorem record_key_watched_iff {s : Settings} {taken : List String} {t : Transport} {now : Moment}
    {running : Running} (h : start s taken t now = .ok running) :
    (running.watcher.subscription? .key (CommandLine.recordKey s)).isSome = true ↔
      s.firewall.configKey.toList.head? ≠ some '/' := by
  rw [subscription?_start h, ← Text.trimSlashesStart_eq_self_iff]
  show _ ∧ Text.trimSlashes s.store.space ++ "/" ++ s.firewall.configKey =
    Text.trimSlashes s.store.space ++ "/" ++ Text.trimSlashesStart s.firewall.configKey ↔ _
  rw [String.append_right_inj]
  exact ⟨fun hkey => hkey.2.symm, fun hkey => ⟨rfl, hkey.symm⟩⟩

/-- The default settings, with an agent that does not hold the record yet. -/
theorem record_key_watched_by_default :
    let t : Transport := fun _ => some ⟨404, [], []⟩
    ∃ running, start {} [] t 0 = .ok running ∧
      (running.watcher.subscription? .key (CommandLine.recordKey {})).isSome = true := by
  intro t
  have hstarts : (start {} [] t 0).isOk = true := by decide +kernel
  cases h : start {} [] t 0 with
  | error why =>
    rw [h] at hstarts
    cases hstarts
  | ok running => exact ⟨running, rfl, (record_key_watched_iff h).mpr (by decide)⟩

/-- Settings without a problem can write the record beside the watched key. -/
theorem record_key_not_watched :
    ¬ ∀ s : Settings, s.validate = .ok s → CommandLine.recordKey s = watchedKey s := by
  intro hall
  have hvalid : ({ firewall := { configKey := "/config.firewall" } } : Settings).problems = [] := by
    decide +kernel
  have hkeys := hall { firewall := { configKey := "/config.firewall" } }
    (by rw [Settings.validate, hvalid]; rfl)
  revert hkeys
  decide +kernel

end Startup

end AdmissionGate
