-- The replay cache: the signatures that have been used, in thirty buckets of
-- two minutes each over the hour of the client's timestamp.

namespace AdmissionGate

/-- Used signatures by bucket, each once. -/
structure ReplayCache where
  buckets : Vector (List String) 30

namespace ReplayCache

/-- The bucket of a number; numbers past the hour wrap around. -/
def slotOf (bucket : Nat) : Fin 30 := ⟨bucket % 30, Nat.mod_lt _ (by decide)⟩

def empty : ReplayCache := ⟨Vector.replicate 30 []⟩

def bucket (c : ReplayCache) (b : Nat) : List String := c.buckets[slotOf b]

def holds (c : ReplayCache) (b : Nat) (signature : String) : Bool :=
  (c.bucket b).contains signature

/-- The cache with a signature in a bucket, unless the bucket holds it already. -/
def insert (c : ReplayCache) (b : Nat) (signature : String) : ReplayCache :=
  if c.holds b signature then c else ⟨c.buckets.set (slotOf b) (signature :: c.bucket b)⟩

def clear (c : ReplayCache) (b : Nat) : ReplayCache := ⟨c.buckets.set (slotOf b) []⟩

def bucketSize (c : ReplayCache) (b : Nat) : Nat := (c.bucket b).length

def size (c : ReplayCache) : Nat := c.buckets.toList.flatten.length

def isEmpty (c : ReplayCache) : Bool := c.buckets.all List.isEmpty

/-! ## What is held -/

theorem holds_empty (b : Nat) (signature : String) : empty.holds b signature = false := by
  simp [holds, bucket, empty]

/-- Bucket after bucket, an insertion changes the one that it is made into. -/
theorem bucket_set (c : ReplayCache) (b b' : Nat) (l : List String) :
    bucket ⟨c.buckets.set (slotOf b) l⟩ b' = if slotOf b = slotOf b' then l else c.bucket b' := by
  by_cases h : slotOf b = slotOf b'
  · simp [bucket, h]
  · have hv : (slotOf b).val ≠ (slotOf b').val := fun hv => h (Fin.ext hv)
    simp [bucket, h, Vector.getElem_set_ne, hv]

/-- After an insertion the cache holds what it held before and the new signature. -/
theorem holds_insert (c : ReplayCache) (b b' : Nat) (signature signature' : String) :
    (c.insert b signature).holds b' signature' = true ↔
      c.holds b' signature' = true ∨ slotOf b = slotOf b' ∧ signature = signature' := by
  unfold insert
  split
  next hold =>
    constructor
    · exact Or.inl
    · rintro (h | ⟨hb, rfl⟩)
      · exact h
      · simpa [holds, bucket, hb] using hold
  next =>
    simp only [holds, bucket_set]
    by_cases hb : slotOf b = slotOf b'
    · simp only [hb, if_true, bucket, List.contains_cons, Bool.or_eq_true, beq_iff_eq, true_and]
      rw [or_comm, @eq_comm _ signature']
    · simp [hb]

theorem length_flatten_set (l : List (List String)) (i : Nat) (hi : i < l.length) (s : String) :
    (l.set i (s :: l[i])).flatten.length = l.flatten.length + 1 := by
  induction l generalizing i with
  | nil => simp at hi
  | cons a l ih =>
    cases i with
    | zero => simp
    | succ i =>
      have := ih i (by simpa using hi)
      simp at this ⊢
      omega

/-- A new signature makes the cache larger by one. -/
theorem size_insert {c : ReplayCache} {b : Nat} {signature : String}
    (h : c.holds b signature = false) : (c.insert b signature).size = c.size + 1 := by
  unfold insert size
  rw [if_neg (by simp [h])]
  simp only [Vector.toList_set, bucket]
  exact length_flatten_set _ _ (by simp) _

theorem clear_congr (c : ReplayCache) {b b' : Nat} (h : slotOf b = slotOf b') :
    c.clear b = c.clear b' := by
  simp only [clear, h]

/-- After a bucket is emptied the cache holds what the other buckets held before. -/
theorem holds_clear (c : ReplayCache) (b b' : Nat) (signature : String) :
    (c.clear b).holds b' signature = true ↔
      slotOf b ≠ slotOf b' ∧ c.holds b' signature = true := by
  simp only [clear, holds, bucket_set]
  by_cases hb : slotOf b = slotOf b' <;> simp [hb]

end ReplayCache

end AdmissionGate
