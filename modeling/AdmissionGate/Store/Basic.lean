-- The key-value store: every write takes the next index, an entry carries
-- the index of its last write as its version, and entries are listed in the
-- order of their keys.
import AdmissionGate.Text.Blank
import AdmissionGate.Text.Bytes
import AdmissionGate.Store.Error

namespace AdmissionGate

structure Entry where
  key : String
  value : Bytes
  version : Nat
  deriving DecidableEq

/-- Entries, and the index of the store when they were read. -/
structure Listing where
  entries : List Entry
  lastIndex : Nat
  deriving DecidableEq

/-- The channel on which a store publishes its index: the value that was sent last, and how many
were sent. Who waits on the channel is woken by each value sent, and by nothing else. -/
structure IndexChannel where
  value : Nat
  sent : Nat
  deriving DecidableEq

def IndexChannel.send (c : IndexChannel) (index : Nat) : IndexChannel := ⟨index, c.sent + 1⟩

/-- The entries in the order of their keys, the index of the last write, whether reads are
answered, and the channel of those who wait for the index to move. -/
structure Store where
  entries : List Entry
  index : Nat
  isAvailable : Bool
  channel : IndexChannel

inductive Change where
  | put (key : String) (value : Bytes)
  | delete (key : String)
  | outage (on : Bool)

namespace Store

def empty : Store := ⟨[], 0, true, ⟨0, 0⟩⟩

/-! ## Writing -/

/-- Entries with one more, in the place of the entry of the same key if there is one. -/
def insertEntry (e : Entry) : List Entry → List Entry
  | [] => [e]
  | d :: rest =>
    if e.key < d.key then e :: d :: rest
    else if e.key = d.key then e :: rest
    else d :: insertEntry e rest

def put (s : Store) (key : String) (value : Bytes) : Store :=
  let index := s.index + 1
  { s with
    entries := insertEntry ⟨key, value, index⟩ s.entries, index
    channel := s.channel.send index }

def holds (s : Store) (key : String) : Bool := s.entries.any (·.key = key)

/-- Removes a key; without an entry of that key nothing changes. -/
def delete (s : Store) (key : String) : Store :=
  if s.holds key then
    let index := s.index + 1
    { s with
      entries := s.entries.filter (·.key ≠ key), index
      channel := s.channel.send index }
  else s

def apply (s : Store) : Change → Store
  | .put key value => s.put key value
  | .delete key => s.delete key
  | .outage on => { s with isAvailable := !on }

/-! ## Reading -/

/-- The entries under a stem: those from the first key that is not before the stem up to the
last one that begins with it. -/
def under (s : Store) (stem : String) : List Entry :=
  (s.entries.dropWhile fun e => e.key < stem).takeWhile fun e => Text.startsWith e.key stem

def snapshot (s : Store) (stem : String) : Listing := ⟨s.under stem, s.index⟩

def find? (s : Store) (key : String) : Option Entry := s.entries.find? (·.key = key)

/-- Answers a read, unless reads are not answered. -/
def answer {α : Type} (s : Store) (a : α) : Except StoreError α :=
  if s.isAvailable then .ok a else .error (.unavailable .marked)

def get (s : Store) (key : String) : Except StoreError (Option Entry) := s.answer (s.find? key)

def list (s : Store) (stem : String) : Except StoreError Listing := s.answer (s.snapshot stem)

/-! ## What a key finds -/

theorem find?_insertEntry (e : Entry) (entries : List Entry) (k : String) :
    (insertEntry e entries).find? (·.key = k)
      = if k = e.key then some e else entries.find? (·.key = k) := by
  induction entries with
  | nil => by_cases h : k = e.key <;> simp [insertEntry, h, eq_comm]
  | cons d rest ih =>
    simp only [insertEntry]
    split
    · by_cases h : k = e.key <;> simp [h, eq_comm]
    · split
      next _ he =>
        by_cases h : k = e.key
        · simp [h]
        · have hd : d.key ≠ k := fun hd => h (hd.symm.trans he.symm)
          simp [h, hd, Ne.symm h]
      next _ he =>
        by_cases hd : d.key = k
        · have h : k ≠ e.key := fun h => he (hd.trans h).symm
          simp [hd, h]
        · simp [hd, ih]

/-- After a write the key has its new value, under the next index, and every other key the
entry it had. -/
theorem find?_put (s : Store) (key : String) (value : Bytes) (k : String) :
    (s.put key value).find? k
      = if k = key then some ⟨key, value, s.index + 1⟩ else s.find? k :=
  find?_insertEntry ⟨key, value, s.index + 1⟩ s.entries k

/-- After a removal the key has no entry, and every other key the entry it had. -/
theorem find?_delete (s : Store) (key k : String) :
    (s.delete key).find? k = if k = key then none else s.find? k := by
  by_cases held : s.holds key = true
  · simp only [delete, held, if_true, find?]
    by_cases h : k = key
    · simp [h]
    · simp only [h, if_false, List.find?_filter]
      congr 1
      funext e
      by_cases he : e.key = k <;> simp [he, h]
  · simp only [delete, held, if_false, Bool.false_eq_true]
    by_cases h : k = key
    · simp only [h, if_true, find?, List.find?_eq_none]
      intro e he hk
      exact held (List.any_eq_true.2 ⟨e, he, hk⟩)
    · simp [h]

end Store

end AdmissionGate
