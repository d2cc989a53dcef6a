-- IPv6 addresses written in groups, with two colons in place of the longest
-- run of zeros. Every address is read from the text that it is written as.
import AdmissionGate.Proofs.Address.Spelling

namespace AdmissionGate

open Decimal

/-! ## Hexadecimal digits -/

namespace Hex

theorem value?_digitChar {n : Nat} (h : n < 16) : value? (Nat.digitChar n) = some n := by
  have hall : ∀ n < 16, value? (Nat.digitChar n) = some n := by decide
  exact hall n h

/-- A number is its digits but the last, and the last. -/
theorem ofNat_of_le {n : Nat} (h : 16 ≤ n) :
    ofNat n = ofNat (n / 16) ++ [Nat.digitChar (n % 16)] := Nat.toDigits_of_base_le (by omega) h

theorem ofNat_of_lt {n : Nat} (h : n < 16) : ofNat n = [Nat.digitChar n] :=
  Nat.toDigits_of_lt_base h

end Hex

namespace Ip

theorem isHexDigit_digitChar {n : Nat} (h : n < 16) : isHexDigit (Nat.digitChar n) = true := by
  rw [isHexDigit, Hex.value?_digitChar h]
  rfl

theorem isHexDigit_of_mem_ofNat {n : Nat} {c : Char} (h : c ∈ Hex.ofNat n) :
    isHexDigit c = true := by
  induction n using Nat.strongRecOn with
  | ind n ih =>
    by_cases hlt : n < 16
    · rw [Hex.ofNat_of_lt hlt, List.mem_singleton] at h
      rw [h]
      exact isHexDigit_digitChar hlt
    · rw [Hex.ofNat_of_le (by omega), List.mem_append, List.mem_singleton] at h
      rcases h with hfront | rfl
      · exact ih (n / 16) (by omega) hfront
      · exact isHexDigit_digitChar (by omega)

/-- A number is what its digits stand for. -/
theorem ofHexDigits_ofNat (n : Nat) : ofHexDigits (Hex.ofNat n) = n := by
  induction n using Nat.strongRecOn with
  | ind n ih =>
    by_cases hlt : n < 16
    · simp [Hex.ofNat_of_lt hlt, ofHexDigits, Hex.value?_digitChar hlt]
    · have hfront := ih (n / 16) (by omega)
      unfold ofHexDigits at hfront ⊢
      rw [Hex.ofNat_of_le (by omega), List.foldl_append, hfront]
      simp only [List.foldl_cons, List.foldl_nil, Hex.value?_digitChar (Nat.mod_lt n (by omega)),
        Option.getD_some]
      omega

end Ip

/-! ## Groups -/

/-- The digits of a group. -/
def groupText (g : UInt16) : List Char := Hex.ofNat g.toNat

/-- Groups that others stand before. -/
def furtherGroups (gs : List UInt16) : List Char := gs.flatMap fun g => ':' :: groupText g

theorem groupsText_toList (g : UInt16) (gs : List UInt16) :
    (Ipv6.groupsText (g :: gs)).toList = groupText g ++ furtherGroups gs := by
  have hcolon : ":".toList = [':'] := rfl
  have hgroup : String.toList ∘ (fun g : UInt16 => String.ofList (Hex.ofNat g.toNat)) =
      groupText := by
    funext g
    exact String.toList_ofList
  rw [Ipv6.groupsText, String.toList_intercalate, List.map_map, hcolon, hgroup, List.map_cons,
    Text.intercalate_eq, List.flatMap_map]
  rfl

theorem groupsText_nil : (Ipv6.groupsText []).toList = [] := rfl

namespace Ip

theorem dot_notMem_groupText (g : UInt16) : '.' ∉ groupText g := by
  intro hdot
  cases isHexDigit_of_mem_ofNat hdot

theorem dot_notMem_furtherGroups (gs : List UInt16) : '.' ∉ furtherGroups gs := by
  simp [furtherGroups, dot_notMem_groupText]

theorem dot_notMem_groupsText (gs : List UInt16) : '.' ∉ (Ipv6.groupsText gs).toList := by
  cases gs with
  | nil => simp [groupsText_nil]
  | cons g gs => simp [groupsText_toList, dot_notMem_groupText, dot_notMem_furtherGroups]

variable {s rest : List Char}

theorem readIpv4?_of_no_dot (h : '.' ∉ s) : readIpv4? s = none := by
  cases hread : readIpv4? s with
  | none => rfl
  | some found => exact absurd (dot_mem_of_readIpv4? hread) h

/-- A group is read from its digits, as far as they go. -/
theorem readGroup?_groupText (g : UInt16) (hrest : ∀ c ∈ rest.head?, isHexDigit c = false) :
    readGroup? (groupText g ++ rest) = some (g, rest) := by
  have hdigits : ∀ c ∈ groupText g, isHexDigit c = true := fun c => isHexDigit_of_mem_ofNat
  obtain ⟨htake, hdrop⟩ := takeWhile_run hdigits hrest
  have hne : groupText g ≠ [] := Nat.toDigits_ne_nil
  have hlength : (groupText g).length ≤ 4 :=
    (Nat.length_toDigits_le_iff (by omega) (by omega)).mpr g.toNat_lt
  have hvalue : ofHexDigits (groupText g) = g.toNat := ofHexDigits_ofNat g.toNat
  unfold readGroup?
  simp only [htake, hdrop, hvalue, UInt16.ofNat_toNat]
  rw [if_neg]
  simp [hne, hlength]

/-- What stands behind groups: nothing, or two colons and more groups. -/
structure Ends (rest : List Char) : Prop where
  no_dot : '.' ∉ rest
  nothing_or_colons : rest = [] ∨ ∃ more, rest = ':' :: ':' :: more

theorem Ends.nil : Ends [] := ⟨by simp, Or.inl rfl⟩

/-- No further group is read from where the groups end. -/
theorem Ends.readGroups_eq (h : Ends rest) (first : Bool) (n : Nat) :
    readGroups first n rest = ([], false, rest) := by
  obtain ⟨-, rfl | ⟨more, rfl⟩⟩ := h
  · cases n <;> cases first <;> simp [readGroups, afterColon?, readIpv4?, readOctet?, readGroup?]
  · cases first with
    | true => exact readGroups_eq_nil isHexDigit_colon n _
    | false =>
      cases n with
      | zero => rfl
      | succ n =>
        have hnone : readIpv4? (':' :: more) = none :=
          readIpv4?_eq_none (isDigit_of_not_isHexDigit isHexDigit_colon)
        simp [readGroups, afterColon?, hnone, readGroup?, isHexDigit_colon]

/-- Where the groups go on or end, no digit follows. -/
theorem head_of_furtherGroups (h : Ends rest) (gs : List UInt16) :
    ∀ c ∈ (furtherGroups gs ++ rest).head?, isHexDigit c = false := by
  cases gs with
  | nil =>
    obtain ⟨-, rfl | ⟨more, rfl⟩⟩ := h
    · simp [furtherGroups]
    · simp [furtherGroups, isHexDigit_colon]
  | cons g gs => simp [furtherGroups, isHexDigit_colon]

/-- One group is read, and then those behind it. -/
theorem readGroups_cons {first : Bool} {g : UInt16} {gs : List UInt16} (n : Nat) (h : Ends rest)
    (hbody : afterColon? first s = some (groupText g ++ (furtherGroups gs ++ rest))) :
    readGroups first (n + 1) s =
      (g :: (readGroups false n (furtherGroups gs ++ rest)).1,
        (readGroups false n (furtherGroups gs ++ rest)).2) := by
  have hdot : '.' ∉ groupText g ++ (furtherGroups gs ++ rest) := by
    simp [dot_notMem_groupText, dot_notMem_furtherGroups, h.no_dot]
  have hgroup := readGroup?_groupText g (head_of_furtherGroups h gs)
  simp only [readGroups, hbody, readIpv4?_of_no_dot hdot, ite_self, hgroup]

theorem readGroups_furtherGroups (h : Ends rest) {n : Nat} {gs : List UInt16}
    (hn : gs.length ≤ n) :
    readGroups false n (furtherGroups gs ++ rest) = (gs, false, rest) := by
  induction gs generalizing n with
  | nil => exact h.readGroups_eq false n
  | cons g gs ih =>
    cases n with
    | zero => cases hn
    | succ n =>
      have hbody : afterColon? false (furtherGroups (g :: gs) ++ rest) =
          some (groupText g ++ (furtherGroups gs ++ rest)) := by
        simp [afterColon?, furtherGroups]
      rw [readGroups_cons n h hbody, ih (Nat.le_of_succ_le_succ hn)]

/-- Groups are read from their text, as long as there is room for them. -/
theorem readGroups_groupsText (h : Ends rest) {n : Nat} {gs : List UInt16} (hn : gs.length ≤ n) :
    readGroups true n ((Ipv6.groupsText gs).toList ++ rest) = (gs, false, rest) := by
  cases gs with
  | nil => exact h.readGroups_eq true n
  | cons g gs =>
    cases n with
    | zero => cases hn
    | succ n =>
      have hbody : afterColon? true ((Ipv6.groupsText (g :: gs)).toList ++ rest) =
          some (groupText g ++ (furtherGroups gs ++ rest)) := by
        rw [groupsText_toList, List.append_assoc]
        rfl
      rw [readGroups_cons n h hbody, readGroups_furtherGroups h (Nat.le_of_succ_le_succ hn)]

end Ip

/-! ## Runs of zeros -/

/-- All groups of a run are there, and zero. -/
def ZeroRun.LiesIn (run : ZeroRun) (gs : List UInt16) : Prop :=
  ∀ i, run.start ≤ i → i < run.start + run.length → gs[i]? = some 0

namespace ZeroRun

variable {run best : ZeroRun} {gs : List UInt16}

theorem liesIn_of_length (h : run.length = 0) : run.LiesIn gs := by
  intro i hlow hhigh
  omega

theorem LiesIn.append (h : run.LiesIn gs) (more : List UInt16) : run.LiesIn (gs ++ more) := by
  intro i hlow hhigh
  have hi := h i hlow hhigh
  rw [List.getElem?_append_left (List.getElem?_eq_some_iff.mp hi).1, hi]

/-- A run that ends with the groups goes on with one more zero. -/
theorem LiesIn.snoc (h : run.LiesIn gs) (hend : run.start + run.length = gs.length) :
    LiesIn ⟨run.start, run.length + 1⟩ (gs ++ [0]) := by
  intro i hlow hhigh
  by_cases hi : i < run.start + run.length
  · exact h.append [0] i hlow hi
  · have hlast : i = gs.length := by
      simp only at hhigh
      omega
    rw [hlast, List.getElem?_concat_length]

/-- The longest run is one of zeros, if so are the runs that it may be: the best one so far,
and the one that has not ended. -/
theorem liesIn_longest {seen : List UInt16} (hbest : best.LiesIn seen) (hrun : run.LiesIn seen)
    (hend : run.length = 0 ∨ run.start + run.length = seen.length) :
    (longest best run seen.length gs).LiesIn (seen ++ gs) := by
  induction gs generalizing best run seen with
  | nil =>
    rw [List.append_nil]
    exact hbest
  | cons g gs ih =>
    have hsplit : seen ++ g :: gs = (seen ++ [g]) ++ gs := by simp
    have hlength : (seen ++ [g]).length = seen.length + 1 := by simp
    unfold longest
    rw [hsplit, ← hlength]
    split
    · case isTrue hzero =>
      subst hzero
      have hlonger : ∃ longer : ZeroRun, (if run.length = 0 then ⟨seen.length, 1⟩
          else ⟨run.start, run.length + 1⟩) = longer ∧ longer.LiesIn (seen ++ [0]) ∧
          longer.start + longer.length = (seen ++ [0]).length := by
        refine ⟨_, rfl, ?_⟩
        split
        · have hnew : LiesIn ⟨seen.length, 0⟩ seen := liesIn_of_length rfl
          exact ⟨hnew.snoc rfl, by simp⟩
        · case isFalse hlong =>
          have hrunEnd := hend.resolve_left hlong
          exact ⟨hrun.snoc hrunEnd, by simp; omega⟩
      obtain ⟨longer, heq, hlies, hlongerEnd⟩ := hlonger
      simp only [heq]
      refine ih ?_ hlies (Or.inr hlongerEnd)
      split
      · exact hlies
      · exact hbest.append [0]
    · exact ih (hbest.append [g]) (liesIn_of_length rfl) (Or.inl rfl)

/-- Around a run stand the groups before it and those behind it. -/
theorem LiesIn.eq_append (h : run.LiesIn gs) :
    gs = gs.take run.start ++ List.replicate run.length 0 ++ gs.drop (run.start + run.length) := by
  have hrun : (gs.drop run.start).take run.length = List.replicate run.length 0 := by
    apply List.ext_getElem?
    intro i
    rw [List.getElem?_take, List.getElem?_replicate, List.getElem?_drop]
    split
    · exact h _ (by omega) (by omega)
    · rfl
  rw [← hrun, ← List.drop_drop, List.append_assoc, List.take_append_drop, List.take_append_drop]

end ZeroRun

/-! ## Addresses -/

theorem Ipv6.ofList_toList (ip : Ipv6) : ofList ip.groups.toList = ip := by
  obtain ⟨groups⟩ := ip
  unfold ofList
  congr
  ext i hi
  simp

namespace Ip

theorem readIpv6?_groupedText (ip : Ipv6) :
    readIpv6? ip.groupedText.toList = some (ip, []) := by
  have height : ip.groups.toList.length = 8 := ip.groups.length_toList
  unfold Ipv6.groupedText
  simp only
  generalize hrun : ZeroRun.longest ⟨0, 0⟩ ⟨0, 0⟩ 0 ip.groups.toList = run
  split
  · case isTrue hlong =>
    have hnone : ∀ seen, ZeroRun.LiesIn ⟨0, 0⟩ seen := fun _ => ZeroRun.liesIn_of_length rfl
    have hlies : run.LiesIn ip.groups.toList := by
      rw [← hrun]
      exact ZeroRun.liesIn_longest (hnone []) (hnone []) (Or.inl rfl)
    have hgroups := hlies.eq_append
    generalize ip.groups.toList.take run.start = front at hgroups ⊢
    generalize ip.groups.toList.drop (run.start + run.length) = back at hgroups ⊢
    have hlength := congrArg List.length hgroups
    simp only [height, List.length_append, List.length_replicate] at hlength
    have hcolons : (Ipv6.groupsText front ++ "::" ++ Ipv6.groupsText back).toList =
        (Ipv6.groupsText front).toList ++ ':' :: ':' :: (Ipv6.groupsText back).toList := by
      simp
    have hends : Ends (':' :: ':' :: (Ipv6.groupsText back).toList) :=
      ⟨by simp [dot_notMem_groupsText], Or.inr ⟨_, rfl⟩⟩
    have hback : readGroups true (7 - front.length) ((Ipv6.groupsText back).toList ++ []) =
        (back, false, []) := readGroups_groupsText .nil (by omega)
    rw [List.append_nil] at hback
    have hzeros : 8 - front.length - back.length = run.length := by omega
    unfold readIpv6?
    rw [hcolons, readGroups_groupsText hends (by omega : front.length ≤ 8)]
    simp only [hback, hzeros, ← hgroups, ip.ofList_toList]
    rw [if_neg (by omega)]
    rfl
  · have hgroups : readGroups true 8 ((Ipv6.groupsText ip.groups.toList).toList ++ []) =
        (ip.groups.toList, false, []) := readGroups_groupsText .nil (Nat.le_of_eq height)
    rw [List.append_nil] at hgroups
    unfold readIpv6?
    rw [hgroups]
    simp only [height, if_true, ip.ofList_toList]

theorem dot_notMem_groupedText (ip : Ipv6) : '.' ∉ ip.groupedText.toList := by
  unfold Ipv6.groupedText
  simp only
  split
  · simp [dot_notMem_groupsText]
  · exact dot_notMem_groupsText _

theorem ofText?_groupedText (ip : Ipv6) : ofText? ip.groupedText = some (.v6 ip) := by
  rw [ofText?, read?, readIpv4?_of_no_dot (dot_notMem_groupedText ip), readIpv6?_groupedText]
  rfl

/-- Every address is read from the text that it is written as. -/
theorem ofText?_written (ip : Ip) : ofText? ip.toText = some ip := by
  cases ip with
  | v4 ip => exact ofText?_toText ip
  | v6 ip =>
    cases hmapped : ip.toIpv4? with
    | none =>
      rw [toText, Ipv6.toText, hmapped]
      exact ofText?_groupedText ip
    | some four =>
      rw [Ipv6.toIpv4?_eq_some_iff.mp hmapped, toText_mapped]
      exact ofText?_mappedText four

end Ip

end AdmissionGate
