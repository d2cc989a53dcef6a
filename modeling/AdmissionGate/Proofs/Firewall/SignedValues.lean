-- What a signature depends on: which names are signed, the values that these
-- have, and the number under which a query asks for a salt. The order in which
-- names are configured and everything else in a query play no part.
import Mathlib.Data.List.Sort
import AdmissionGate.Firewall.Signer

namespace AdmissionGate

/-! ## Names in order -/

namespace Names

theorem insert_ascending (n : String) {names : List String} (h : names.Pairwise (· < ·)) :
    (insert n names).Pairwise (· < ·) := by
  induction names with
  | nil => exact List.pairwise_singleton _ n
  | cons m rest ih =>
    obtain ⟨hm, hrest⟩ := List.pairwise_cons.mp h
    unfold insert
    split
    next hlt =>
      refine List.pairwise_cons.mpr ⟨fun k hk => ?_, h⟩
      rcases List.mem_cons.mp hk with rfl | hk
      · exact hlt
      · exact String.lt_trans hlt (hm k hk)
    next hlt =>
      split
      next => exact h
      next hne =>
        refine List.pairwise_cons.mpr ⟨fun k hk => ?_, ih hrest⟩
        rcases (mem_insert n k rest).mp hk with rfl | hk
        · exact ((Std.lt_trichotomy k m).resolve_left hlt).resolve_left hne
        · exact hm k hk

theorem sort_ascending (names : List String) : (sort names).Pairwise (· < ·) := by
  induction names with
  | nil => exact List.Pairwise.nil
  | cons n rest ih => exact insert_ascending n ih

/-- Two lists are sorted alike exactly if they have the same names, however often and in
whatever order. -/
theorem sort_eq_sort_iff {names others : List String} :
    sort names = sort others ↔ ∀ n, n ∈ names ↔ n ∈ others := by
  constructor
  · intro h n
    rw [← mem_sort, h, mem_sort]
  · intro h
    refine (sort_ascending names).eq_of_mem_iff (sort_ascending others) fun n => ?_
    rw [mem_sort, mem_sort, h]

end Names

namespace Signer

/-! ## What a signer sees of a query -/

/-- A signer sees the same in two queries: the values of the signed fields, the signature, and
the number of the salt. -/
structure SeesAlike (s : Signer) (p q : Params) : Prop where
  fields : ∀ name ∈ s.fields, p.value name = q.value name
  signature : p.value Params.signature = q.value Params.signature
  salt : saltNumber p = saltNumber q

variable {s : Signer} {p q : Params}

theorem SeesAlike.signingString_eq (h : s.SeesAlike p q) :
    s.signingString p = s.signingString q := by
  refine signingString_congr h.fields ?_
  rw [saltFor, saltFor, h.salt]

theorem SeesAlike.verify_eq (h : s.SeesAlike p q) : s.verify p = s.verify q := by
  rw [verify, verify, sign, sign, h.signature, h.signingString_eq]

/-- A change of a query that a signer does not notice. -/
inductive Unnoticed (s : Signer) (p q : Params) : Prop
  /-- Parameters are added, removed or changed that are not signed and neither carry the
  signature nor select the salt. -/
  | others (h : ∀ name, name ∈ s.fields ∨ name = Params.signature ∨ name = Params.saltVersion →
      p.find? name = q.find? name)
  /-- The number of the salt is written in another way, and this is no signed field. -/
  | respelled {v w : String} (hfields : Params.saltVersion ∉ s.fields)
      (hp : p.find? Params.saltVersion = some v) (hq : q.find? Params.saltVersion = some w)
      (hnumber : lenientInt v = lenientInt w)
      (h : ∀ name, name ≠ Params.saltVersion → p.find? name = q.find? name)

theorem Unnoticed.seesAlike (h : s.Unnoticed p q) : s.SeesAlike p q := by
  cases h with
  | others h =>
    refine ⟨fun name hname => ?_, ?_, ?_⟩
    · rw [Params.value, Params.value, h name (Or.inl hname)]
    · rw [Params.value, Params.value, h _ (Or.inr (Or.inl rfl))]
    · rw [saltNumber, saltNumber, h _ (Or.inr (Or.inr rfl))]
  | @respelled v w hfields hp hq hnumber h =>
    refine ⟨fun name hname => ?_, ?_, ?_⟩
    · have hne : name ≠ Params.saltVersion := by
        rintro rfl
        exact hfields hname
      rw [Params.value, Params.value, h name hne]
    · rw [Params.value, Params.value, h _ (by decide)]
    · rw [saltNumber, saltNumber, hp, hq]
      exact hnumber

/-! ## Signers of the same names -/

theorem saltFor_congr_salts {t : Signer} (hdefault : s.defaultSalt = t.defaultSalt)
    (hsalts : ∀ number, s.salts.find? number = t.salts.find? number) (q : Params) :
    s.saltFor q = t.saltFor q := by
  rw [saltFor, saltFor, hsalts, hdefault]

/-- Signers of the same fields with the same salts sign alike. -/
theorem signingString_congr_signer {t : Signer} (hfields : s.fields = t.fields)
    (hdefault : s.defaultSalt = t.defaultSalt)
    (hsalts : ∀ number, s.salts.find? number = t.salts.find? number) (q : Params) :
    s.signingString q = t.signingString q := by
  rw [signingString, signingString, hfields, saltFor_congr_salts hdefault hsalts]

/-- Signers that are made from the same set of names and the same salts have the same signing
strings, signatures and verdicts. No signer's signing string or verdict changes with parameters
that are not signed, are not the signature and do not select the salt, nor with the spelling of
the number that selects it, unless this is a signed field itself. -/
theorem signing_follows_signed_values :
    (∀ (fields others : List String) (defaultSalt : String) (salts salts' : Table String String),
      (∀ name, name ∈ fields ↔ name ∈ others) →
      (∀ number, salts.find? number = salts'.find? number) →
      let s := make fields defaultSalt salts
      let t := make others defaultSalt salts'
      ∀ query, s.signingString query = t.signingString query ∧ s.sign query = t.sign query ∧
        s.verify query = t.verify query) ∧
    ∀ (s : Signer) (p q : Params), s.Unnoticed p q →
      s.signingString p = s.signingString q ∧ s.verify p = s.verify q := by
  constructor
  · intro fields others defaultSalt salts salts' hnames hsalts s t query
    have hfields : s.fields = t.fields := Names.sort_eq_sort_iff.mpr hnames
    have hstring : s.signingString query = t.signingString query :=
      signingString_congr_signer hfields rfl hsalts query
    have hsign : s.sign query = t.sign query := by rw [sign, sign, hstring]
    exact ⟨hstring, hsign, by rw [verify, verify, hsign]⟩
  · intro s p q h
    exact ⟨h.seesAlike.signingString_eq, h.seesAlike.verify_eq⟩

/-- Names in another order and repeated; a query with other parameters, and one in which the
number of the salt is written as a decimal fraction. -/
theorem salt_number_respelled :
    let names := ["package", "_ipv", "package"]
    let salts := Table.ofList [("1", "!caihongmeng#")]
    let s := make names "!rilegoule#" salts
    let t := make ["_ipv", "package"] "!rilegoule#" salts
    let p := Table.ofList [("package", "demo"), ("_sign_ver", "1")]
    let paged := Table.ofList [("page", "2"), ("_sign_ver", "1"), ("package", "demo")]
    let respelled := Table.ofList [("package", "demo"), ("_sign_ver", " +01.9 ")]
    s.signingString p = t.signingString p ∧ s.Unnoticed p paged ∧ s.Unnoticed p respelled ∧
      s.signingString p = s.signingString paged ∧ s.verify p = s.verify respelled := by
  intro names salts s t p paged respelled
  have hpaged : s.Unnoticed p paged := by
    refine .others fun name hname => ?_
    have hfields : s.fields = ["_ipv", "package"] := by decide
    rw [hfields, List.mem_pair, or_assoc] at hname
    rcases hname with rfl | rfl | rfl | rfl <;> decide
  have hrespelled : s.Unnoticed p respelled := by
    refine .respelled (v := "1") (w := " +01.9 ") (by decide) (by decide) (by decide)
      (by decide +kernel) fun name hname => ?_
    have hver : "_sign_ver" ≠ name := fun h => hname h.symm
    rw [Table.find?_ofList, Table.find?_ofList]
    simp [hver]
  obtain ⟨hnames, hqueries⟩ := signing_follows_signed_values
  exact ⟨(hnames names ["_ipv", "package"] _ salts salts (by simp [names]) (fun _ => rfl) p).1,
    hpaged, hrespelled, (hqueries s p paged hpaged).1, (hqueries s p respelled hrespelled).2⟩

end Signer

end AdmissionGate
