-- The rate window: request counters for each second of the minute. Hits are
-- counted in the slot of the current second, which is emptied when the clock
-- comes into it again, so a limit holds for a calendar second.
import AdmissionGate.Table
import AdmissionGate.Text.Decimal

namespace AdmissionGate

/-- Hit counters by client key, one table for each second of a minute. -/
structure RateWindow where
  slots : Vector (Table UInt32 Nat) 60
  current : Fin 60

namespace RateWindow

/-- The slot of a second; seconds past the minute wrap around. -/
def slotOf (second : Nat) : Fin 60 := ⟨second % 60, Nat.mod_lt _ (by decide)⟩

def start (second : Nat) : RateWindow := ⟨Vector.replicate 60 Table.empty, slotOf second⟩

/-- The hits of a key in the current slot. -/
def count (w : RateWindow) (key : UInt32) : Nat := (w.slots[w.current].find? key).getD 0

/-- Moves to the slot of `second` and empties it. -/
def rotate (w : RateWindow) (second : Nat) : RateWindow :=
  let slot := slotOf second
  ⟨w.slots.set slot Table.empty, slot⟩

/-- The count after one more hit; it stays at the largest number of 32 bits. -/
def nextCount (n : Nat) : Nat := min (n + 1) Decimal.maxU32

/-- Counting on from a number that was cut off is counting first and then cutting off. -/
theorem nextCount_min (n : Nat) :
    nextCount (min n Decimal.maxU32) = min (n + 1) Decimal.maxU32 := by
  unfold nextCount
  omega

def hit (w : RateWindow) (key : UInt32) : RateWindow :=
  ⟨w.slots.set w.current (w.slots[w.current].insert key (nextCount (w.count key))), w.current⟩

/-! ## What is counted -/

theorem count_start (second : Nat) (key : UInt32) : (start second).count key = 0 := by
  simp [start, count, Table.find?_empty]

/-- A hit raises the counter of its own key and no other. -/
theorem count_hit (w : RateWindow) (key k : UInt32) :
    (w.hit key).count k = if key = k then nextCount (w.count key) else w.count k := by
  simp only [count, hit, Fin.getElem_fin, Vector.getElem_set_self, Table.find?_insert]
  split <;> simp

/-- A hit leaves the window as it was only if the counter is at its top. -/
theorem hit_eq_self_iff (w : RateWindow) (key : UInt32) :
    w.hit key = w ↔ w.count key = Decimal.maxU32 := by
  constructor
  · intro h
    have hcount := count_hit w key key
    rw [h, if_pos rfl] at hcount
    unfold nextCount at hcount
    omega
  · intro h
    have hfind : w.slots[w.current].find? key = some Decimal.maxU32 := by
      unfold count at h
      cases hk : w.slots[w.current].find? key with
      | none =>
        rw [hk] at h
        cases h
      | some n =>
        rw [hk] at h
        exact congrArg some h
    have hnext : nextCount (w.count key) = Decimal.maxU32 := by
      rw [h]
      decide
    rw [hit, hnext, Table.insert_eq_self hfind]
    simp

/-- After a rotation nothing has been counted yet. -/
theorem count_rotate (w : RateWindow) (second : Nat) (k : UInt32) :
    (w.rotate second).count k = 0 := by
  simp [count, rotate, Table.find?_empty]

end RateWindow

end AdmissionGate
