-- What a text that is an address looks like. An IPv4 address has one
-- spelling only; the text of an IPv6 address has a colon, and nothing in it
-- but hexadecimal digits, colons and dots.
import Mathlib.Data.List.TakeWhile
import AdmissionGate.Proofs.Address.Dotted
import AdmissionGate.Proofs.Text.Digits

namespace AdmissionGate

open Decimal

/-! ## Dotted text -/

/-- A byte has one spelling. -/
theorem FitsOctet.eq_octetText {ds : List Char} {o : UInt8} (h : FitsOctet ds o) :
    ds = octetText o := by
  rw [octetText, ← h.value, toDigits_ofDigits h.nonempty h.digits h.leading]

namespace Ip

variable {s rest : List Char}

theorem eq_append_of_readOctet? {o : UInt8} (h : readOctet? s = some (o, rest)) :
    s = octetText o ++ rest := by
  unfold readOctet? at h
  simp only at h
  split at h
  · cases h
  · case isFalse hchecks =>
    cases h
    simp only [Bool.or_eq_true, Bool.and_eq_true, decide_eq_true_eq, beq_iff_eq,
      List.isEmpty_iff, not_or, not_and] at hchecks
    obtain ⟨⟨⟨hne, hlength⟩, hvalue⟩, hleading⟩ := hchecks
    have hfits : FitsOctet (s.takeWhile isDigit) (UInt8.ofNat (ofDigits (s.takeWhile isDigit))) :=
      { nonempty := hne
        length := by omega
        value := by
          rw [UInt8.toNat_ofNat']
          omega
        leading := hleading
        digits := fun c hc => List.mem_takeWhile_imp hc }
    rw [← hfits.eq_octetText, List.takeWhile_append_dropWhile]

theorem eq_append_of_readDotOctet? {o : UInt8} (h : readDotOctet? s = some (o, rest)) :
    s = '.' :: (octetText o ++ rest) := by
  unfold readDotOctet? at h
  split at h
  · rw [eq_append_of_readOctet? h]
  · cases h

/-- What is read as an IPv4 address is the text that the address is written as. -/
theorem eq_append_of_readIpv4? {ip : Ipv4} (h : readIpv4? s = some (ip, rest)) :
    s = ip.toText.toList ++ rest := by
  unfold readIpv4? at h
  simp only [Option.bind_eq_bind, Option.bind_eq_some_iff] at h
  obtain ⟨⟨a, s₁⟩, ha, ⟨b, s₂⟩, hb, ⟨c, s₃⟩, hc, ⟨d, s₄⟩, hd, hip⟩ := h
  cases hip
  dsimp only at hb hc hd ⊢
  rw [eq_append_of_readOctet? ha, eq_append_of_readDotOctet? hb, eq_append_of_readDotOctet? hc,
    eq_append_of_readDotOctet? hd, Ipv4.toText_toList]
  simp

theorem ofText?_eq_v4_iff {text : String} {ip : Ipv4} :
    ofText? text = some (.v4 ip) ↔ text = ip.toText := by
  constructor
  · intro h
    obtain ⟨_, heq, hread⟩ | ⟨_, heq, -⟩ := read_of_ofText? h
    · cases heq
      have htext := eq_append_of_readIpv4? hread
      rwa [List.append_nil, String.toList_inj] at htext
    · cases heq
  · rintro rfl
    exact ofText?_toText ip

/-! ## Grouped text -/

/-- A character that the text of an address may hold. -/
def isAddressChar (c : Char) : Bool := isHexDigit c || c == ':' || c == '.'

theorem isAddressChar_of_isDigit {c : Char} (h : isDigit c = true) : isAddressChar c = true := by
  have hhex : isHexDigit c = true := by
    by_contra hnot
    rw [isDigit_of_not_isHexDigit (Bool.not_eq_true _ ▸ hnot)] at h
    cases h
  simp [isAddressChar, hhex]

theorem isAddressChar_of_mem_toText {ip : Ipv4} {c : Char} (h : c ∈ ip.toText.toList) :
    isAddressChar c = true := by
  obtain hdigit | rfl := Ipv4.toText_chars h
  · exact isAddressChar_of_isDigit hdigit
  · rfl

/-- A reader takes characters of addresses from a text, and leaves the rest. -/
def Takes (s rest : List Char) : Prop :=
  ∃ front, s = front ++ rest ∧ ∀ c ∈ front, isAddressChar c = true

theorem Takes.refl (s : List Char) : Takes s s := ⟨[], rfl, by simp⟩

theorem Takes.trans {s mid rest : List Char} (hfirst : Takes s mid) (hsecond : Takes mid rest) :
    Takes s rest := by
  obtain ⟨front, rfl, hfront⟩ := hfirst
  obtain ⟨next, rfl, hnext⟩ := hsecond
  refine ⟨front ++ next, by rw [List.append_assoc], fun c hc => ?_⟩
  exact (List.mem_append.mp hc).elim (hfront c) (hnext c)

theorem takes_colon (rest : List Char) : Takes (':' :: rest) rest := ⟨[':'], rfl, by simp [isAddressChar]⟩

theorem takes_of_readIpv4? {ip : Ipv4} (h : readIpv4? s = some (ip, rest)) : Takes s rest :=
  ⟨ip.toText.toList, eq_append_of_readIpv4? h, fun _ => isAddressChar_of_mem_toText⟩

theorem takes_of_readGroup? {g : UInt16} (h : readGroup? s = some (g, rest)) : Takes s rest := by
  unfold readGroup? at h
  simp only at h
  split at h
  · cases h
  · cases h
    refine ⟨s.takeWhile isHexDigit, List.takeWhile_append_dropWhile.symm, fun c hc => ?_⟩
    simp [isAddressChar, List.mem_takeWhile_imp hc]

theorem takes_of_afterColon? {first : Bool} (h : afterColon? first s = some rest) :
    Takes s rest := by
  unfold afterColon? at h
  split at h
  · cases h
    exact .refl s
  · split at h
    · cases h
      exact takes_colon rest
    · cases h

theorem takes_readGroups (first : Bool) (n : Nat) (s : List Char) :
    Takes s (readGroups first n s).2.2 := by
  induction n generalizing first s with
  | zero => exact .refl s
  | succ n ih =>
    unfold readGroups
    split
    · exact .refl s
    · case h_2 body hbody =>
      have hcolon := takes_of_afterColon? hbody
      split
      · case h_1 ip rest hdotted =>
        split at hdotted
        · exact hcolon.trans (takes_of_readIpv4? hdotted)
        · cases hdotted
      · split
        · exact .refl s
        · case h_2 g rest hgroup =>
          exact hcolon.trans ((takes_of_readGroup? hgroup).trans (ih false rest))

/-- An address is eight groups, or has two colons between what is read in front of them and
what is read behind. -/
theorem readIpv6?_cases {ip : Ipv6} (h : readIpv6? s = some (ip, rest)) :
    ((readGroups true 8 s).1.length = 8 ∧ rest = (readGroups true 8 s).2.2) ∨
      ∃ more n, (readGroups true 8 s).2.2 = ':' :: ':' :: more ∧
        rest = (readGroups true n more).2.2 := by
  unfold readIpv6? at h
  simp only at h
  split at h
  · case isTrue height =>
    cases h
    exact Or.inl ⟨height, rfl⟩
  · split at h
    · cases h
    · split at h
      · case h_1 more hmore =>
        cases h
        exact Or.inr ⟨more, _, hmore, rfl⟩
      · cases h

theorem takes_of_readIpv6? {ip : Ipv6} (h : readIpv6? s = some (ip, rest)) : Takes s rest := by
  have hfront := takes_readGroups true 8 s
  obtain ⟨-, rfl⟩ | ⟨more, n, hmore, rfl⟩ := readIpv6?_cases h
  · exact hfront
  · rw [hmore] at hfront
    exact hfront.trans ((takes_colon _).trans ((takes_colon _).trans (takes_readGroups true n more)))

/-- A group but the first is read only behind a colon. -/
theorem readGroups_of_no_colon (h : ':' ∉ s) (n : Nat) : (readGroups false n s).1 = [] := by
  have hcolon : afterColon? false s = none := by
    unfold afterColon?
    split
    · contradiction
    · split
      · exact absurd List.mem_cons_self h
      · rfl
  cases n with
  | zero => rfl
  | succ n => rw [readGroups, hcolon]

/-- Without a colon there is one group, or the two of an IPv4 address. -/
theorem length_readGroups_le (h : ':' ∉ s) (n : Nat) : (readGroups true n s).1.length ≤ 2 := by
  cases n with
  | zero => exact Nat.zero_le 2
  | succ n =>
    unfold readGroups
    simp only [afterColon?, if_true]
    split
    · exact Nat.le_refl 2
    · split
      · exact Nat.zero_le 2
      · case h_2 g rest hgroup =>
        obtain ⟨front, rfl, -⟩ := takes_of_readGroup? hgroup
        have hrest : ':' ∉ rest := fun hmem => h (List.mem_append_right front hmem)
        simp [readGroups_of_no_colon hrest]

theorem colon_mem_of_readIpv6? {ip : Ipv6} (h : readIpv6? s = some (ip, rest)) : ':' ∈ s := by
  by_contra hcolon
  have hlength := length_readGroups_le hcolon 8
  obtain ⟨height, -⟩ | ⟨more, n, hmore, -⟩ := readIpv6?_cases h
  · omega
  · obtain ⟨front, heq, -⟩ := takes_readGroups true 8 s
    rw [hmore] at heq
    rw [heq] at hcolon
    exact hcolon (List.mem_append_right front List.mem_cons_self)

/-- The text of an IPv6 address has a colon, and only characters of addresses. -/
theorem chars_of_ofText?_v6 {text : String} {ip : Ipv6} (h : ofText? text = some (.v6 ip)) :
    ':' ∈ text.toList ∧ ∀ c ∈ text.toList, isAddressChar c = true := by
  obtain ⟨_, heq, -⟩ | ⟨_, -, hread⟩ := read_of_ofText? h
  · cases heq
  · obtain ⟨front, heq, hfront⟩ := takes_of_readIpv6? hread
    rw [List.append_nil] at heq
    rw [heq]
    exact ⟨heq ▸ colon_mem_of_readIpv6? hread, hfront⟩

end Ip

end AdmissionGate
