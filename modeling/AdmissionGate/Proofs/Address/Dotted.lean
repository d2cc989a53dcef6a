-- IPv4 addresses written with dots, on their own and mapped into IPv6. Both
-- texts are read as the address that they were written for, and both tell
-- the same of the client.
import AdmissionGate.Address.Client

namespace AdmissionGate

open Decimal

/-! ## Bytes in a number -/

/-- A byte is written below a number. -/
theorem or_byte (n : Nat) (b : UInt8) (i : Nat) :
    n <<< (i + 8) ||| b.toNat <<< i = (n * 256 + b.toNat) <<< i := by
  have hadd := Nat.shiftLeft_add_eq_or_of_lt b.toNat_lt n
  rw [Nat.add_comm i 8, Nat.shiftLeft_add, ← Nat.shiftLeft_or_distrib, ← hadd, Nat.shiftLeft_eq n]

namespace Ipv4

theorem toNat_toUInt32 (ip : Ipv4) : ip.toUInt32.toNat =
    ((ip.a.toNat * 256 + ip.b.toNat) * 256 + ip.c.toNat) * 256 + ip.d.toNat := by
  have ha := ip.a.toNat_lt
  have hb := ip.b.toNat_lt
  have hc := ip.c.toNat_lt
  have hshift (n i : Nat) (h : n * 2 ^ i < 2 ^ 32) : n <<< i % 2 ^ 32 = n <<< i := by
    rw [Nat.shiftLeft_eq]
    exact Nat.mod_eq_of_lt h
  simp only [toUInt32, UInt32.toNat_or, UInt32.toNat_shiftLeft, UInt8.toNat_toUInt32,
    UInt32.reduceToNat, Nat.reduceMod]
  rw [hshift _ 24 (by omega), hshift _ 16 (by omega), hshift _ 8 (by omega), or_byte _ _ 16,
    or_byte _ _ 8]
  exact or_byte _ _ 0

/-- The number of an address holds all of it. -/
theorem toUInt32_inj {ip other : Ipv4} : ip.toUInt32 = other.toUInt32 ↔ ip = other := by
  refine ⟨fun h => ?_, congrArg toUInt32⟩
  have hnat := congrArg UInt32.toNat h
  rw [toNat_toUInt32, toNat_toUInt32] at hnat
  obtain ⟨a, b, c, d⟩ := ip
  obtain ⟨a', b', c', d'⟩ := other
  have hd := d.toNat_lt
  have hd' := d'.toNat_lt
  have hc := c.toNat_lt
  have hc' := c'.toNat_lt
  have hb := b.toNat_lt
  have hb' := b'.toNat_lt
  simp only [Ipv4.mk.injEq, ← UInt8.toNat_inj] at hnat ⊢
  omega

end Ipv4

/-- A group of an IPv6 address that is made of two bytes, the higher one first. -/
theorem toNat_group (high low : UInt8) :
    (high.toUInt16 <<< 8 ||| low.toUInt16).toNat = high.toNat * 256 + low.toNat := by
  have hhigh := high.toNat_lt
  have hshift : high.toNat <<< 8 % 2 ^ 16 = high.toNat <<< 8 := by
    rw [Nat.shiftLeft_eq]
    omega
  simp only [UInt16.toNat_or, UInt16.toNat_shiftLeft, UInt8.toNat_toUInt16, UInt16.reduceToNat,
    Nat.reduceMod, hshift]
  exact or_byte _ _ 0

theorem toNat_highByte (g : UInt16) : (g >>> 8).toUInt8.toNat = g.toNat / 256 := by
  have hg := g.toNat_lt
  simp only [UInt16.toNat_toUInt8, UInt16.toNat_shiftRight, UInt16.reduceToNat, Nat.reduceMod,
    Nat.shiftRight_eq_div_pow]
  omega

theorem highByte_group (high low : UInt8) :
    ((high.toUInt16 <<< 8 ||| low.toUInt16) >>> 8).toUInt8 = high := by
  have hlow := low.toNat_lt
  rw [← UInt8.toNat_inj, toNat_highByte, toNat_group]
  omega

theorem lowByte_group (high low : UInt8) :
    (high.toUInt16 <<< 8 ||| low.toUInt16).toUInt8 = low := by
  have hlow := low.toNat_lt
  rw [← UInt8.toNat_inj, UInt16.toNat_toUInt8, toNat_group]
  omega

theorem group_bytes (g : UInt16) :
    (g >>> 8).toUInt8.toUInt16 <<< 8 ||| g.toUInt8.toUInt16 = g := by
  rw [← UInt16.toNat_inj, toNat_group, toNat_highByte, UInt16.toNat_toUInt8]
  omega

/-- An IPv6 address has an IPv4 address exactly if it is that address, mapped. -/
theorem Ipv6.toIpv4?_eq_some_iff {ip : Ipv6} {a : Ipv4} :
    ip.toIpv4? = some a ↔ ip = .mapped a := by
  constructor
  · intro h
    unfold toIpv4? at h
    split at h
    next high low heq =>
      cases h
      obtain ⟨groups⟩ := ip
      congr
      rw [← Vector.toList_inj, heq]
      show _ = [0, 0, 0, 0, 0, 0xffff] ++ Ipv4.toGroups _
      simp only [Ipv4.toGroups, group_bytes]
      rfl
    next => cases h
  · rintro rfl
    have hlist : (Ipv6.mapped a).groups.toList = [0, 0, 0, 0, 0, 0xffff] ++ a.toGroups := rfl
    simp only [toIpv4?, hlist, Ipv4.toGroups, List.cons_append, List.nil_append, highByte_group,
      lowByte_group]

theorem Ipv6.toIpv4?_mapped (a : Ipv4) : (mapped a).toIpv4? = some a :=
  toIpv4?_eq_some_iff.mpr rfl

/-! ## Octets -/

/-- The decimal digits of a byte. -/
def octetText (o : UInt8) : List Char := Nat.toDigits 10 o.toNat

/-- Digits that a byte is read from: one to three, without a leading zero. -/
structure FitsOctet (ds : List Char) (o : UInt8) : Prop where
  nonempty : ds ≠ []
  length : ds.length ≤ 3
  value : ofDigits ds = o.toNat
  leading : 1 < ds.length → ds.head? ≠ some '0'
  digits : ∀ c ∈ ds, isDigit c = true

theorem fitsOctet_octetText (o : UInt8) : FitsOctet (octetText o) o := by
  have hall : ∀ o : UInt8, octetText o ≠ [] ∧ (octetText o).length ≤ 3 ∧
      ofDigits (octetText o) = o.toNat ∧
      (1 < (octetText o).length → (octetText o).head? ≠ some '0') ∧
      (octetText o).all isDigit = true := Bytes.forall_byte (by decide +kernel)
  obtain ⟨hne, hlength, hvalue, hleading, hdigits⟩ := hall o
  exact ⟨hne, hlength, hvalue, hleading, List.all_eq_true.mp hdigits⟩

namespace Ip

variable {s rest : List Char}

/-- A byte is read from its digits, as far as they go. -/
theorem readOctet?_append {ds : List Char} {o : UInt8} (hfits : FitsOctet ds o)
    (hrest : ∀ c ∈ rest.head?, isDigit c = false) :
    readOctet? (ds ++ rest) = some (o, rest) := by
  have htake : (ds ++ rest).takeWhile isDigit = ds := by
    rw [List.takeWhile_append_of_pos hfits.digits]
    cases rest with
    | nil => simp
    | cons c more => simp [hrest c rfl]
  have hdrop : (ds ++ rest).dropWhile isDigit = rest := by
    rw [List.dropWhile_append_of_pos hfits.digits]
    cases rest with
    | nil => rfl
    | cons c more => simp [hrest c rfl]
  have hbound := o.toNat_lt
  have hlength := hfits.length
  unfold readOctet?
  simp only [htake, hdrop, hfits.value, UInt8.ofNat_toNat]
  rw [if_neg]
  simp only [Bool.or_eq_true, Bool.and_eq_true, decide_eq_true_eq, beq_iff_eq,
    List.isEmpty_iff, hfits.nonempty, false_or, not_or, not_and]
  exact ⟨⟨by omega, by omega⟩, hfits.leading⟩

theorem readDotOctet?_octetText (o : UInt8) (hrest : ∀ c ∈ rest.head?, isDigit c = false) :
    readDotOctet? ('.' :: (octetText o ++ rest)) = some (o, rest) :=
  readOctet?_append (fitsOctet_octetText o) hrest

theorem readIpv4?_eq_none {c : Char} (h : isDigit c = false) : readIpv4? (c :: rest) = none := by
  simp [readIpv4?, readOctet?, h]

/-- What is read as an IPv4 address has a dot. -/
theorem dot_mem_of_readIpv4? {ip : Ipv4} (h : readIpv4? s = some (ip, rest)) : '.' ∈ s := by
  rw [readIpv4?] at h
  simp only [Option.bind_eq_bind, Option.bind_eq_some_iff] at h
  obtain ⟨⟨a, s₁⟩, hfirst, ⟨b, s₂⟩, hsecond, -⟩ := h
  have hs₁ : s₁ = s.dropWhile isDigit := by
    simp only [readOctet?] at hfirst
    split at hfirst
    · cases hfirst
    · cases hfirst
      rfl
  have hdot : '.' ∈ s₁ := by
    change readDotOctet? s₁ = _ at hsecond
    unfold readDotOctet? at hsecond
    split at hsecond
    next => exact List.mem_cons_self
    next => cases hsecond
  rw [hs₁] at hdot
  exact (List.dropWhile_sublist _).mem hdot

/-- A text that is an address is read as IPv4 if it can be, and else as IPv6. -/
theorem read_of_ofText? {text : String} {ip : Ip} (h : ofText? text = some ip) :
    (∃ four, ip = .v4 four ∧ readIpv4? text.toList = some (four, [])) ∨
      ∃ six, ip = .v6 six ∧ readIpv6? text.toList = some (six, []) := by
  unfold ofText? read? at h
  cases hfour : readIpv4? text.toList with
  | some found =>
    obtain ⟨four, rest⟩ := found
    rw [hfour] at h
    cases rest with
    | nil =>
      cases h
      exact Or.inl ⟨four, rfl, rfl⟩
    | cons => cases h
  | none =>
    rw [hfour] at h
    cases hsix : readIpv6? text.toList with
    | some found =>
      obtain ⟨six, rest⟩ := found
      rw [hsix] at h
      cases rest with
      | nil =>
        cases h
        exact Or.inr ⟨six, rfl, rfl⟩
      | cons => cases h
    | none =>
      rw [hsix] at h
      cases h

theorem dot_mem_of_ofText? {text : String} {ip : Ipv4} (h : ofText? text = some (.v4 ip)) :
    '.' ∈ text.toList := by
  obtain ⟨_, _, hread⟩ | ⟨_, hsix, _⟩ := read_of_ofText? h
  · exact dot_mem_of_readIpv4? hread
  · cases hsix

end Ip

/-! ## Dotted text -/

namespace Ipv4

theorem toText_toList (ip : Ipv4) : ip.toText.toList =
    octetText ip.a ++ '.' :: (octetText ip.b ++ '.' ::
      (octetText ip.c ++ '.' :: octetText ip.d)) := by
  have hdot : (toString ".").toList = ['.'] := rfl
  simp only [toText, String.toList_append, Nat.toString_eq_repr, Nat.toList_repr, octetText, hdot,
    List.append_assoc]
  rfl

theorem toText_chars {ip : Ipv4} {c : Char} (h : c ∈ ip.toText.toList) :
    isDigit c = true ∨ c = '.' := by
  simp only [toText_toList, List.mem_append, List.mem_cons] at h
  rcases h with h | h | h | h | h | h | h
  all_goals first
    | exact Or.inr h
    | exact Or.inl ((fitsOctet_octetText _).digits c h)

theorem dot_mem_toText (ip : Ipv4) : '.' ∈ ip.toText.toList := by
  simp [toText_toList]

/-- The text of an address that is mapped into IPv6. -/
def mappedText (ip : Ipv4) : String := "::ffff:" ++ ip.toText

theorem mappedText_toList (ip : Ipv4) :
    ip.mappedText.toList = ':' :: ':' :: 'f' :: 'f' :: 'f' :: 'f' :: ':' :: ip.toText.toList := by
  rw [mappedText, String.toList_append]
  rfl

end Ipv4

/-- A mapped address is written in this form. -/
theorem Ip.toText_mapped (ip : Ipv4) : (Ip.v6 (.mapped ip)).toText = ip.mappedText := by
  rw [toText, Ipv6.toText, Ipv6.toIpv4?_mapped]
  rfl

namespace Ip

theorem readIpv4?_toText (ip : Ipv4) : readIpv4? ip.toText.toList = some (ip, []) := by
  have hdot : ∀ s : List Char, ∀ c ∈ ('.' :: s).head?, isDigit c = false := by
    rintro s c ⟨⟩
    decide
  have hlast : readDotOctet? ('.' :: octetText ip.d) = some (ip.d, []) := by
    have hread := @readDotOctet?_octetText [] ip.d (by simp)
    rwa [List.append_nil] at hread
  rw [Ipv4.toText_toList, readIpv4?, readOctet?_append (fitsOctet_octetText _) (hdot _)]
  simp only [Option.bind_eq_bind, Option.bind_some]
  rw [readDotOctet?_octetText _ (hdot _)]
  simp only [Option.bind_some]
  rw [readDotOctet?_octetText _ (hdot _)]
  simp only [Option.bind_some]
  rw [hlast]
  rfl

/-- An IPv4 address is read from its text. -/
theorem ofText?_toText (ip : Ipv4) : ofText? ip.toText = some (.v4 ip) := by
  rw [ofText?, read?, readIpv4?_toText]

/-! ## Grouped text -/

theorem isDigit_of_not_isHexDigit {c : Char} (h : isHexDigit c = false) : isDigit c = false := by
  rw [Bool.eq_false_iff] at h ⊢
  intro hdigit
  simp only [isDigit, Bool.and_eq_true, decide_eq_true_eq] at hdigit
  exact h (by rw [isHexDigit, Hex.value?, if_pos hdigit]; rfl)

theorem toNat_lt_of_isHexDigit {c : Char} (h : isHexDigit c = true) : c.toNat < 128 := by
  have hnat : c.toNat = c.val.toNat := rfl
  have hranges : ('0' ≤ c ∧ c ≤ '9') ∨ ('a' ≤ c ∧ c ≤ 'f') ∨ ('A' ≤ c ∧ c ≤ 'F') := by
    unfold isHexDigit Hex.value? at h
    split at h
    next hc => exact Or.inl hc
    next =>
      split at h
      next hc => exact Or.inr (Or.inl hc)
      next =>
        split at h
        next hc => exact Or.inr (Or.inr hc)
        next => cases h
  simp only [Char.le_def, UInt32.le_iff_toNat_le] at hranges
  have hnine : '9'.val.toNat = 57 := rfl
  have hsmall : 'f'.val.toNat = 102 := rfl
  have hlarge : 'F'.val.toNat = 70 := rfl
  omega

theorem isHexDigit_colon : isHexDigit ':' = false := by decide

/-- No group begins with anything but a digit. -/
theorem readGroups_eq_nil {c : Char} (h : isHexDigit c = false) (n : Nat) (rest : List Char) :
    readGroups true n (c :: rest) = ([], false, c :: rest) := by
  have hgroup : readGroup? (c :: rest) = none := by simp [readGroup?, h]
  cases n with
  | zero => rfl
  | succ n =>
    rw [readGroups]
    simp only [afterColon?, if_true, readIpv4?_eq_none (isDigit_of_not_isHexDigit h), hgroup]
    simp

/-- The text of an IPv6 address begins with a digit or a colon. -/
theorem head_of_readIpv6? {s rest : List Char} {six : Ipv6}
    (h : readIpv6? s = some (six, rest)) :
    ∃ c, s.head? = some c ∧ (isHexDigit c = true ∨ c = ':') := by
  cases s with
  | nil => cases h
  | cons c more =>
    refine ⟨c, rfl, ?_⟩
    by_cases hhex : isHexDigit c = true
    · exact Or.inl hhex
    · rw [Bool.not_eq_true] at hhex
      rw [readIpv6?, readGroups_eq_nil hhex] at h
      simp only [List.length_nil, Bool.false_eq_true, if_false] at h
      rw [if_neg (by decide)] at h
      split at h
      next heq => exact Or.inr (List.head_eq_of_cons_eq heq)
      next => cases h

/-! ## Mapped text -/

theorem readGroup?_ffff (rest : List Char) :
    readGroup? ('f' :: 'f' :: 'f' :: 'f' :: ':' :: rest) = some (0xffff, ':' :: rest) := rfl

/-- An IPv4 address takes the place of the last two groups. -/
theorem readGroups_toText (ip : Ipv4) (n : Nat) :
    readGroups false (n + 2) (':' :: ip.toText.toList) = (ip.toGroups, true, []) := by
  simp [readGroups, afterColon?, readIpv4?_toText]

theorem readGroups_ffff (ip : Ipv4) (n : Nat) :
    readGroups true (n + 3) ('f' :: 'f' :: 'f' :: 'f' :: ':' :: ip.toText.toList) =
      (0xffff :: ip.toGroups, true, []) := by
  have hf : isDigit 'f' = false := by decide
  rw [readGroups]
  simp only [afterColon?, if_true, readIpv4?_eq_none hf, readGroup?_ffff, readGroups_toText]
  simp

/-- A mapped address is read from its text. -/
theorem ofText?_mappedText (ip : Ipv4) : ofText? ip.mappedText = some (.v6 (.mapped ip)) := by
  have hgroups : ip.toGroups.length = 2 := rfl
  rw [ofText?, Ipv4.mappedText_toList, read?, readIpv4?_eq_none (by decide), readIpv6?,
    readGroups_eq_nil isHexDigit_colon]
  simp [readGroups_ffff, hgroups, Ipv6.mapped]

end Ip

/-! ## What the texts tell of the client -/

theorem isBlank_of_isDigit {c : Char} (h : isDigit c = true) : Text.isBlank c = false := by
  simp only [isDigit, Bool.and_eq_true, decide_eq_true_eq, Char.le_def, UInt32.le_iff_toNat_le] at h
  have hlow : '0'.val.toNat = 48 := rfl
  have hhigh : '9'.val.toNat = 57 := rfl
  have hc : c.toNat = c.val.toNat := rfl
  unfold Text.isBlank
  simp only [Bool.or_eq_false_iff, Bool.and_eq_false_iff, decide_eq_false_iff_not,
    beq_eq_false_iff_ne]
  omega

namespace Ipv4

theorem trim_toText (ip : Ipv4) : Text.trim ip.toText = ip.toText := by
  apply Text.trim_eq_self
  intro c hc
  rcases toText_chars hc with hdigit | rfl
  · exact isBlank_of_isDigit hdigit
  · decide

theorem trim_mappedText (ip : Ipv4) : Text.trim ip.mappedText = ip.mappedText := by
  apply Text.trim_eq_self
  intro c hc
  rw [mappedText_toList] at hc
  simp only [List.mem_cons] at hc
  rcases hc with rfl | rfl | rfl | rfl | rfl | rfl | rfl | hc
  iterate 7 decide
  rcases toText_chars hc with hdigit | rfl
  · exact isBlank_of_isDigit hdigit
  · decide

end Ipv4

namespace ClientAddress

theorem isLocal_of_ofText? {text : ClientAddress} {ip : Ip}
    (h : Ip.ofText? (Text.trim text) = some ip) : isLocal text = ip.isLocal := by
  unfold isLocal
  rw [h]

theorem isLocal_toText (ip : Ipv4) : isLocal ip.toText = ip.isLocal := by
  have hread := Ip.ofText?_toText ip
  rw [← ip.trim_toText] at hread
  rw [isLocal_of_ofText? hread, Ip.isLocal]

theorem isLocal_mappedText (ip : Ipv4) : isLocal ip.mappedText = ip.isLocal := by
  have hread := Ip.ofText?_mappedText ip
  rw [← ip.trim_mappedText] at hread
  rw [isLocal_of_ofText? hread, Ip.isLocal, Ipv6.toIpv4?_mapped]

theorem rateKey_of_v4 {text : ClientAddress} {ip : Ipv4} (h : Ip.ofText? text = some (.v4 ip)) :
    rateKey text = ip.toUInt32 := by
  unfold rateKey
  simp [h, Ip.dot_mem_of_ofText? h]

/-- An IPv6 client is counted as its IPv4 address if the text has dots, with the key zero if it
has none, and by the beginning of the text if that is without dots. -/
theorem rateKey_of_v6 {text : ClientAddress} {ip : Ipv6} (h : Ip.ofText? text = some (.v6 ip)) :
    rateKey text = if '.' ∈ text.toList then (ip.toIpv4?.map Ipv4.toUInt32).getD 0
      else headWord (Bytes.ofText text) := by
  unfold rateKey
  simp [h]

theorem rateKey_toText (ip : Ipv4) : rateKey ip.toText = ip.toUInt32 :=
  rateKey_of_v4 (Ip.ofText?_toText ip)

theorem rateKey_mappedText (ip : Ipv4) : rateKey ip.mappedText = ip.toUInt32 := by
  have hdot : '.' ∈ ip.mappedText.toList := by
    simp [Ipv4.mappedText_toList, ip.dot_mem_toText]
  rw [rateKey_of_v6 (Ip.ofText?_mappedText ip), if_pos hdot, Ipv6.toIpv4?_mapped]
  rfl

theorem isEmpty_eq_false_of_ofText? {text : ClientAddress} {ip : Ip}
    (h : Ip.ofText? text = some ip) : text.isEmpty = false := by
  rw [String.isEmpty_eq_false_iff]
  rintro rfl
  cases h

end ClientAddress

end AdmissionGate
