-- The firewall as a subscriber: it follows the record under its key.
import AdmissionGate.Firewall.Basic
import AdmissionGate.Watch.Watcher

namespace AdmissionGate.Firewall

open Watch

/-- What the firewall does with an offered value: it takes a record as a whole and refuses
anything else. Directories do not concern it. -/
def follow (f : Firewall) : Payload → Except Refusal Firewall
  | .value raw => match f.applyRecord? raw with
    | some f => .ok f
    | none => .error .malformedRecord
  | .snapshot _ => .ok f

/-- The reaction of a watcher's only handler, the firewall. -/
def reaction : Reaction Unit Firewall := fun _ payload f => f.follow payload

/-- Subscribes the firewall to its record. A record that is missing or cannot be read is
waited for, with the settings that the firewall has. -/
def subscribe (f : Firewall) (w : Watcher Unit) (name : String)
    (read : Except StoreError (Option Entry)) : Except WatchError Unit × Served Unit Firewall :=
  w.subscribeKey reaction name true () read f

end AdmissionGate.Firewall
