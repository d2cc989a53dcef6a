-- Names in the order of their code points, which is also the order of their
-- UTF-8 bytes, each name once.

namespace AdmissionGate.Names

/-- Puts a name at its place in a sorted list, unless it is there already. -/
def insert (n : String) : List String → List String
  | [] => [n]
  | m :: rest => if n < m then n :: m :: rest else if n = m then m :: rest else m :: insert n rest

def sort (names : List String) : List String := names.foldr insert []

theorem mem_insert (n m : String) (names : List String) :
    m ∈ insert n names ↔ m = n ∨ m ∈ names := by
  induction names with
  | nil => simp [insert]
  | cons k rest ih =>
    simp only [insert]
    split
    · simp
    · split
      next h => simp [h]
      next => simp only [List.mem_cons, ih]; exact or_left_comm

/-- Sorting keeps the names that there are. -/
theorem mem_sort (m : String) (names : List String) : m ∈ sort names ↔ m ∈ names := by
  induction names with
  | nil => rfl
  | cons n rest ih =>
    rw [sort, List.foldr_cons, mem_insert, List.mem_cons]
    exact or_congr_right ih

end AdmissionGate.Names
