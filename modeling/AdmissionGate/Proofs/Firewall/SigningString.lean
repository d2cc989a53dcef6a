-- What the signing string tells about the signed values. The fields are
-- joined with ampersands and nothing marks an ampersand inside of a value, so
-- that a value can run on into the next field.
import Mathlib.Data.List.Basic
import AdmissionGate.Firewall.Signer
import AdmissionGate.Settings.Basic
import AdmissionGate.Text.FormEncoding

namespace AdmissionGate.Signer

variable {p q : Params}

/-! ## Fields in a row -/

/-- A signed field with its value, as it stands in the signing string. -/
def fieldText (q : Params) (name : String) : List Char :=
  name.toList ++ '=' :: (q.value name).toList

/-- Fields that others stand before. -/
def furtherFields (q : Params) (names : List String) : List Char :=
  names.flatMap fun name => '&' :: fieldText q name

/-- The fields of a signing string, without the salt. -/
def fieldsText (q : Params) : List String → List Char
  | [] => []
  | name :: names => fieldText q name ++ furtherFields q names

theorem signingString_toList (s : Signer) (q : Params) :
    (s.signingString q).toList = fieldsText q s.fields ++ (s.saltFor q).toList := by
  rw [signingString, String.toList_append, String.toList_intercalate, List.map_map]
  congr 1
  have hfield : String.toList ∘ (fun name => name ++ "=" ++ q.value name) = fieldText q := by
    funext name
    simp [fieldText]
  have hsep : "&".toList = ['&'] := rfl
  rw [hfield, hsep]
  cases s.fields with
  | nil => rfl
  | cons name names => rw [List.map_cons, Text.intercalate_eq, List.flatMap_map]; rfl

theorem fieldsText_eq {s : Signer} (hsalt : s.saltFor p = s.saltFor q)
    (h : s.signingString p = s.signingString q) :
    fieldsText p s.fields = fieldsText q s.fields := by
  have htexts := congrArg String.toList h
  rw [signingString_toList, signingString_toList, hsalt] at htexts
  exact List.append_cancel_right htexts

/-! ## Values that run on -/

/-- The longer value is the shorter one with an ampersand behind and more. Unless the name of
the next field holds an ampersand itself, that is the next field's name with a value. -/
def RunsInto (next short long : String) : Prop :=
  ∃ more, long = short ++ "&" ++ more ∧
    ('&' ∉ next.toList → ∃ value, more = next ++ "=" ++ value)

theorem RunsInto.ampersand_mem {next short long : String} (h : RunsInto next short long) :
    '&' ∈ long.toList := by
  obtain ⟨more, rfl, -⟩ := h
  simp

/-- A text that is followed by an ampersand and begins like a name and its equals sign goes
beyond both, unless the name holds an ampersand. -/
theorem beyond_name {name more rest after : List Char} (hname : '&' ∉ name)
    (h : name ++ '=' :: rest = more ++ '&' :: after) : ∃ value, more = name ++ '=' :: value := by
  obtain ⟨part, rfl, hpart⟩ | ⟨part, rfl, hpart⟩ := List.append_eq_append_iff.mp h
  · cases part with
    | nil => simp at hpart
    | cons c value =>
      obtain ⟨rfl, -⟩ := List.cons_eq_cons.mp hpart
      exact ⟨value, rfl⟩
  · cases part with
    | nil => simp at hpart
    | cons c part =>
      obtain ⟨rfl, -⟩ := List.cons_eq_cons.mp hpart
      simp at hname

/-- Where a field and the ones behind it are written alike with different values, one of the
values runs into the next field. -/
theorem runsInto_of_append {next short long : String} {more : List Char}
    {rest after : List Char} (hlong : long.toList = short.toList ++ more) (hmore : more ≠ [])
    (h : '&' :: (next.toList ++ '=' :: rest) = more ++ '&' :: after) :
    RunsInto next short long := by
  cases more with
  | nil => exact absurd rfl hmore
  | cons c more =>
    obtain ⟨rfl, hnext⟩ := List.cons_eq_cons.mp h
    refine ⟨String.ofList more, ?_, fun hname => ?_⟩
    · rw [← String.toList_inj, hlong]
      simp
    · obtain ⟨value, rfl⟩ := beyond_name hname hnext
      exact ⟨String.ofList value, by rw [← String.toList_inj]; simp⟩

/-- The border between two neighbouring fields has moved: the queries agree on the fields before
them, and on the first of the two the value of one runs into the second. -/
inductive BorderMoved (p q : Params) : List String → Prop
  | here {name next : String} {names : List String}
      (h : RunsInto next (p.value name) (q.value name) ∨
        RunsInto next (q.value name) (p.value name)) :
      BorderMoved p q (name :: next :: names)
  | later {name : String} {names : List String} (hname : p.value name = q.value name)
      (h : BorderMoved p q names) : BorderMoved p q (name :: names)

theorem furtherFields_cons (q : Params) (name : String) (names : List String) :
    furtherFields q (name :: names) = '&' :: fieldsText q (name :: names) := rfl

/-- Fields that are written alike hold the same values, unless a border has moved. -/
theorem same_or_borderMoved {names : List String} (h : fieldsText p names = fieldsText q names) :
    (∀ name ∈ names, p.value name = q.value name) ∨ BorderMoved p q names := by
  induction names with
  | nil => simp
  | cons name names ih =>
    have hvalues : (p.value name).toList ++ furtherFields p names =
        (q.value name).toList ++ furtherFields q names := by
      simpa [fieldsText, fieldText] using h
    cases names with
    | nil =>
      left
      simpa [furtherFields, String.toList_inj] using hvalues
    | cons next names =>
      rw [furtherFields_cons, furtherFields_cons] at hvalues
      by_cases hname : p.value name = q.value name
      · rw [hname] at hvalues
        rw [List.forall_mem_cons]
        exact (ih (by simpa using hvalues)).imp (⟨hname, ·⟩) (.later hname)
      · right
        have hnext : ∀ r : Params, fieldsText r (next :: names) =
            next.toList ++ '=' :: ((r.value next).toList ++ furtherFields r names) := by
          simp [fieldsText, fieldText]
        rw [hnext, hnext] at hvalues
        obtain ⟨more, hlong, hmore⟩ | ⟨more, hlong, hmore⟩ := List.append_eq_append_iff.mp hvalues
        · refine .here (.inl (runsInto_of_append hlong ?_ hmore))
          rintro rfl
          exact hname (String.toList_inj.mp (by simpa using hlong.symm))
        · refine .here (.inr (runsInto_of_append hlong ?_ hmore))
          rintro rfl
          exact hname (String.toList_inj.mp (by simpa using hlong))

theorem furtherFields_congr {names : List String} (h : ∀ n ∈ names, p.value n = q.value n) :
    furtherFields p names = furtherFields q names := by
  refine List.flatMap_congr fun n hn => ?_
  rw [fieldText, fieldText, h n hn]

theorem furtherFields_append (q : Params) (front back : List String) :
    furtherFields q (front ++ back) = furtherFields q front ++ furtherFields q back :=
  List.flatMap_append

theorem fieldsText_of_further (q : Params) (names : List String) :
    fieldsText q names = (furtherFields q names).tail := by
  cases names <;> rfl

/-- Moving the border between two neighbours leaves all fields as they are written. -/
theorem fieldsText_eq_of_moved {name next : String} {before after : List String} {v u x : String}
    (hbefore : ∀ n ∈ before, p.value n = q.value n) (hafter : ∀ n ∈ after, p.value n = q.value n)
    (hname : p.value name = v) (hname' : q.value name = v ++ "&" ++ next ++ "=" ++ u)
    (hnext : p.value next = u ++ "&" ++ next ++ "=" ++ x) (hnext' : q.value next = x) :
    fieldsText p (before ++ name :: next :: after) =
      fieldsText q (before ++ name :: next :: after) := by
  have hpair : furtherFields p [name, next] = furtherFields q [name, next] := by
    simp [furtherFields, fieldText, hname, hname', hnext, hnext']
  have hsplit : before ++ name :: next :: after = before ++ [name, next] ++ after := by simp
  rw [fieldsText_of_further, fieldsText_of_further, hsplit]
  simp only [furtherFields_append, furtherFields_congr hbefore, hpair, furtherFields_congr hafter]

/-! ## Ampersands -/

/-- The ampersands in the values of some fields. -/
def ampersands (q : Params) : List String → Nat
  | [] => 0
  | name :: names => (q.value name).toList.count '&' + ampersands q names

theorem ampersands_eq_zero_iff (q : Params) (names : List String) :
    ampersands q names = 0 ↔ ∀ name ∈ names, '&' ∉ (q.value name).toList := by
  induction names with
  | nil => simp [ampersands]
  | cons name names ih => simp [ampersands, ih, List.count_eq_zero]

theorem count_fieldText (q : Params) (name : String) : (fieldText q name).count '&' =
    (q.value name).toList.count '&' + (fieldText Table.empty name).count '&' := by
  have hempty : Params.value Table.empty name = "" := rfl
  simp [fieldText, hempty]
  omega

/-- The text of some fields has the ampersands of their values and those that it always has. -/
theorem count_furtherFields (q : Params) (names : List String) :
    (furtherFields q names).count '&' =
      ampersands q names + (furtherFields Table.empty names).count '&' := by
  induction names with
  | nil => rfl
  | cons name names ih =>
    simp only [furtherFields_cons, fieldsText, List.count_cons, List.count_append, ih, ampersands,
      count_fieldText q]
    omega

theorem ampersands_eq {names : List String} (h : fieldsText p names = fieldsText q names) :
    ampersands p names = ampersands q names := by
  cases names with
  | nil => rfl
  | cons name names =>
    have hcount : List.count '&' (furtherFields p (name :: names)) =
        List.count '&' (furtherFields q (name :: names)) := by
      rw [furtherFields_cons, furtherFields_cons, h]
    rw [count_furtherFields, count_furtherFields q] at hcount
    exact Nat.add_right_cancel hcount

theorem BorderMoved.exists_ampersand {names : List String} (h : BorderMoved p q names) :
    ∃ name ∈ names, '&' ∈ (p.value name).toList ∨ '&' ∈ (q.value name).toList := by
  induction h with
  | @here name next names h =>
    refine ⟨name, by simp, ?_⟩
    exact h.symm.imp RunsInto.ampersand_mem RunsInto.ampersand_mem
  | later _ _ ih =>
    obtain ⟨name, hname, hampersand⟩ := ih
    exact ⟨name, List.mem_cons_of_mem _ hname, hampersand⟩

/-- Fields that are written alike hold the same values if those of one query hold no ampersand. -/
theorem same_of_no_ampersand {names : List String} (h : fieldsText p names = fieldsText q names)
    (hp : ∀ name ∈ names, '&' ∉ (p.value name).toList) :
    ∀ name ∈ names, p.value name = q.value name := by
  have hq : ∀ name ∈ names, '&' ∉ (q.value name).toList := by
    rw [← ampersands_eq_zero_iff] at hp ⊢
    rw [← ampersands_eq h, hp]
  rcases same_or_borderMoved h with hsame | hmoved
  · exact hsame
  · obtain ⟨name, hname, hampersand | hampersand⟩ := hmoved.exists_ampersand
    · exact absurd hampersand (hp name hname)
    · exact absurd hampersand (hq name hname)

/-! ## The signing string -/

/-- Whoever moves a border in a signed query keeps its signature. -/
theorem signingString_eq_of_moved {s : Signer} {name next : String} {before after : List String}
    {v u x : String} (hfields : s.fields = before ++ name :: next :: after)
    (hbefore : ∀ n ∈ before, p.value n = q.value n) (hafter : ∀ n ∈ after, p.value n = q.value n)
    (hname : p.value name = v) (hname' : q.value name = v ++ "&" ++ next ++ "=" ++ u)
    (hnext : p.value next = u ++ "&" ++ next ++ "=" ++ x) (hnext' : q.value next = x)
    (hsalt : s.saltFor p = s.saltFor q) : s.signingString p = s.signingString q := by
  rw [← String.toList_inj, signingString_toList, signingString_toList, hsalt, hfields,
    fieldsText_eq_of_moved hbefore hafter hname hname' hnext hnext']

/-- Two queries with the same salt and the same signing string have the same signed values,
unless the border between two neighbouring fields has moved into or out of a value that holds an
ampersand. If the signed values of one of the queries hold no ampersand, none has moved. -/
theorem signed_values_hashed_apart {s : Signer} (hsalt : s.saltFor p = s.saltFor q)
    (h : s.signingString p = s.signingString q) :
    ((∀ name ∈ s.fields, p.value name = q.value name) ∨ BorderMoved p q s.fields) ∧
      ((∀ name ∈ s.fields, '&' ∉ (p.value name).toList) ∨
          (∀ name ∈ s.fields, '&' ∉ (q.value name).toList) →
        ∀ name ∈ s.fields, p.value name = q.value name) := by
  have hfields := fieldsText_eq hsalt h
  refine ⟨same_or_borderMoved hfields, ?_⟩
  rintro (hp | hq)
  · exact same_of_no_ampersand hfields hp
  · exact fun name hname => (same_of_no_ampersand hfields.symm hq name hname).symm

/-- The signer of the default settings. -/
def standard : Signer :=
  make ({} : FirewallSettings).signedFields ({} : FirewallSettings).defaultSalt
    ({} : FirewallSettings).salts

/-- The last two fields of the standard signer, with the border between them in two places. -/
theorem altered_fields_hashed_alike :
    let p : Params := Table.ofList (FormEncoding.read "format=a&package=b%26package%3Dc")
    let q : Params := Table.ofList (FormEncoding.read "format=a%26package%3Db&package=c")
    standard.saltFor p = standard.saltFor q ∧ standard.signingString p = standard.signingString q ∧
      "format" ∈ standard.fields ∧ p.value "format" ≠ q.value "format" := by
  intro p q
  have hsalt : standard.saltFor p = standard.saltFor q := by decide +kernel
  have hfields : standard.fields = ["_index", "_ipv", "_model", "_platform", "_timestamp"] ++
      "format" :: "package" :: [] := by decide +kernel
  refine ⟨hsalt, ?_, by decide +kernel, by decide +kernel⟩
  exact signingString_eq_of_moved (v := "a") (u := "b") (x := "c") hfields (by decide +kernel)
    (by decide +kernel) (by decide +kernel) (by decide +kernel) (by decide +kernel)
    (by decide +kernel) hsalt

theorem border_moved_in_alike_queries :
    let p : Params := Table.ofList (FormEncoding.read "format=a&package=b%26package%3Dc")
    let q : Params := Table.ofList (FormEncoding.read "format=a%26package%3Db&package=c")
    standard.saltFor p = standard.saltFor q ∧ standard.signingString p = standard.signingString q ∧
      BorderMoved p q standard.fields := by
  intro p q
  have hsalt : standard.saltFor p = standard.saltFor q := by decide +kernel
  have hstring : standard.signingString p = standard.signingString q := by decide +kernel
  exact ⟨hsalt, hstring,
    (signed_values_hashed_apart hsalt hstring).1.resolve_left (by decide +kernel)⟩

end AdmissionGate.Signer
