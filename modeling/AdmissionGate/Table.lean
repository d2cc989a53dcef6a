-- Finite maps with one value for each key, in the order in which the keys
-- first came.

namespace AdmissionGate

structure Table (κ α : Type) where
  entries : List (κ × α)
  deriving DecidableEq

namespace Table

variable {κ α β : Type}

/-! ## Sums of values -/

/-- The sum of the values of some keys. -/
def sumOf (among : κ → Bool) : List (κ × Nat) → Nat
  | [] => 0
  | e :: rest => if among e.1 then e.2 + sumOf among rest else sumOf among rest

theorem sumOf_append (among : κ → Bool) (l more : List (κ × Nat)) :
    sumOf among (l ++ more) = sumOf among l + sumOf among more := by
  induction l with
  | nil => simp [sumOf]
  | cons e rest ih =>
    rw [List.cons_append, sumOf, sumOf, ih]
    split <;> omega

theorem sumOf_map {ι : Type} (f : ι → κ) (among : κ → Bool) (l : List (ι × Nat)) :
    sumOf among (l.map fun e => (f e.1, e.2)) = sumOf (fun i => among (f i)) l := by
  induction l with
  | nil => rfl
  | cons e rest ih => rw [List.map_cons, sumOf, sumOf, ih]

/-! ## Tables -/

variable [DecidableEq κ]

def empty : Table κ α := ⟨[]⟩

def find? (t : Table κ α) (k : κ) : Option α := (t.entries.find? (·.1 = k)).map (·.2)

def holds (t : Table κ α) (k : κ) : Bool := t.entries.any (·.1 = k)

/-- Entries with the value of `k` set: in its place, or at the end if the key is new. -/
def put (k : κ) (a : α) : List (κ × α) → List (κ × α)
  | [] => [(k, a)]
  | e :: rest => if e.1 = k then (k, a) :: rest else e :: put k a rest

def insert (t : Table κ α) (k : κ) (a : α) : Table κ α := ⟨put k a t.entries⟩

def erase (t : Table κ α) (k : κ) : Table κ α := ⟨t.entries.filter (·.1 ≠ k)⟩

/-- The map of a list of pairs, where the last value of a key counts. -/
def ofList (l : List (κ × α)) : Table κ α := l.foldl (fun t e => t.insert e.1 e.2) empty

/-- The keys, in the order in which they first came. -/
def keys (t : Table κ α) : List κ := t.entries.map (·.1)

def size (t : Table κ α) : Nat := t.entries.length

/-! ## What a key finds -/

theorem find?_empty (k : κ) : (empty : Table κ α).find? k = none := rfl

theorem find?_put (l : List (κ × α)) (k k' : κ) (a : α) :
    find? ⟨put k a l⟩ k' = if k = k' then some a else find? ⟨l⟩ k' := by
  induction l with
  | nil => by_cases h : k = k' <;> simp [put, find?, h]
  | cons e rest ih =>
    by_cases he : e.1 = k
    · by_cases h : k = k' <;> simp_all [put, find?]
    · by_cases h : e.1 = k'
      · have hk : k' ≠ k := fun hk => he (h.trans hk)
        simp [put, find?, h, hk, Ne.symm hk]
      · simpa [put, find?, he, h] using ih

/-- After `insert` the key has its new value, and every other key the value it had. -/
theorem find?_insert (t : Table κ α) (k k' : κ) (a : α) :
    (t.insert k a).find? k' = if k = k' then some a else t.find? k' :=
  find?_put t.entries k k' a

/-- If a key has one more than before, so has the sum over any keys that it is among. -/
theorem sumOf_insert_succ (t : Table κ Nat) (k : κ) (among : κ → Bool) :
    sumOf among (t.insert k ((t.find? k).getD 0 + 1)).entries
      = sumOf among t.entries + if among k then 1 else 0 := by
  obtain ⟨l⟩ := t
  show sumOf among (put k (((Table.mk l).find? k).getD 0 + 1) l) = _
  induction l with
  | nil => simp [put, find?, sumOf]
  | cons e rest ih =>
    dsimp only at ih
    by_cases he : e.1 = k
    · subst he
      simp only [put, find?, sumOf, List.find?_cons_of_pos, if_true, Option.map_some,
        Option.getD_some, decide_true]
      split <;> omega
    · have hfind : (Table.mk (e :: rest)).find? k = (Table.mk rest).find? k := by
        simp [find?, he]
      rw [hfind, put, if_neg he, sumOf, sumOf, ih]
      split <;> omega

/-- Setting a key to the value that it has changes nothing. -/
theorem insert_eq_self {t : Table κ α} {k : κ} {a : α} (h : t.find? k = some a) :
    t.insert k a = t := by
  have hput : ∀ l : List (κ × α), (Table.mk l).find? k = some a → put k a l = l := by
    intro l
    induction l with
    | nil => intro h; simp [find?] at h
    | cons e rest ih =>
      intro hk
      by_cases he : e.1 = k
      · subst he
        simp only [find?, List.find?_cons, decide_true, Option.map_some, Option.some.injEq] at hk
        subst hk
        rw [put, if_pos rfl]
      · have hrest : (Table.mk rest).find? k = some a := by simpa [find?, he] using hk
        rw [put, if_neg he, ih hrest]
  rw [insert, hput _ h]

/-- In the map of a list of pairs a key finds the last value that it has there. -/
theorem find?_ofList (l : List (κ × α)) (k : κ) :
    (ofList l).find? k = (l.reverse.find? (·.1 = k)).map (·.2) := by
  have hfold : ∀ (l : List (κ × α)) (t : Table κ α),
      (l.foldl (fun t e => t.insert e.1 e.2) t).find? k
        = ((l.reverse.find? (·.1 = k)).map (·.2)).or (t.find? k) := by
    intro l
    induction l with
    | nil => intro t; simp
    | cons e rest ih =>
      intro t
      rw [List.foldl_cons, ih, find?_insert, List.reverse_cons, List.find?_append]
      cases rest.reverse.find? (·.1 = k) with
      | some d => simp
      | none => by_cases h : e.1 = k <;> simp [h]
  rw [ofList, hfold, find?_empty, Option.or_none]

theorem find?_ofList_none {l : List (κ × α)} {k : κ} (h : ∀ e ∈ l, e.1 ≠ k) :
    (ofList l).find? k = none := by
  rw [find?_ofList, List.find?_eq_none.mpr]
  · rfl
  · intro e he
    simpa using h e (List.mem_reverse.mp he)

/-- The value that a key has in a list of pairs and nowhere behind is the one that counts. -/
theorem find?_ofList_last {before after : List (κ × α)} {k : κ} {a : α}
    (h : ∀ e ∈ after, e.1 ≠ k) : (ofList (before ++ (k, a) :: after)).find? k = some a := by
  have hafter : after.reverse.find? (·.1 = k) = none := by
    rw [List.find?_eq_none]
    intro e he
    simpa using h e (List.mem_reverse.mp he)
  simp [find?_ofList, List.find?_append, hafter]

/-- The map of some keys with their values under a function. -/
theorem find?_ofList_map (ks : List κ) (f : κ → α) (k : κ) :
    (ofList (ks.map fun k => (k, f k))).find? k = if k ∈ ks then some (f k) else none := by
  have hfold : ∀ (ks : List κ) (t : Table κ α),
      (ks.foldl (fun t k => t.insert k (f k)) t).find? k =
        if k ∈ ks then some (f k) else t.find? k := by
    intro ks
    induction ks with
    | nil => intro t; simp
    | cons first rest ih =>
      intro t
      rw [List.foldl_cons, ih, find?_insert]
      by_cases hrest : k ∈ rest
      · simp [hrest]
      · by_cases hfirst : first = k <;> simp [hrest, hfirst, @eq_comm _ k]
  rw [ofList, List.foldl_map, hfold, find?_empty]

theorem ofList_snoc (l : List (κ × α)) (k : κ) (a : α) :
    ofList (l ++ [(k, a)]) = (ofList l).insert k a := List.foldl_append

/-! ## Keys that all differ -/

theorem put_eq_append {l : List (κ × α)} {k : κ} {a : α} (h : ∀ e ∈ l, e.1 ≠ k) :
    put k a l = l ++ [(k, a)] := by
  induction l with
  | nil => rfl
  | cons e rest ih =>
    obtain ⟨he, hrest⟩ := List.forall_mem_cons.mp h
    rw [put, if_neg he, ih hrest, List.cons_append]

/-- The map of pairs with keys of their own has these pairs, in their order. -/
theorem entries_ofList {l : List (κ × α)} (h : l.Pairwise fun d e => d.1 ≠ e.1) :
    (ofList l).entries = l := by
  have hfold : ∀ (l : List (κ × α)) (t : Table κ α),
      (t.entries ++ l).Pairwise (fun d e => d.1 ≠ e.1) →
      (l.foldl (fun t e => t.insert e.1 e.2) t).entries = t.entries ++ l := by
    intro l
    induction l with
    | nil => intro t _; simp
    | cons e rest ih =>
      intro t ht
      have hnew : ∀ d ∈ t.entries, d.1 ≠ e.1 := fun d hd =>
        (List.pairwise_append.mp ht).2.2 d hd e List.mem_cons_self
      have hinsert : (t.insert e.1 e.2).entries = t.entries ++ [e] := put_eq_append hnew
      rw [List.append_cons, ← hinsert] at ht ⊢
      exact ih _ ht
  exact hfold l empty h

/-! ## Keys that are held -/

theorem holds_eq (t : Table κ α) (k : κ) : t.holds k = (t.find? k).isSome := by
  rw [find?, Option.isSome_map, List.isSome_find?, holds]

theorem mem_keys_iff (t : Table κ α) (k : κ) : k ∈ t.keys ↔ (t.find? k).isSome = true := by
  simp [keys, find?]

end Table

end AdmissionGate
