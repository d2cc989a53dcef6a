-- Hosts of URLs that are written as an IP address and a port. An IPv4 address
-- is read as itself. The text of an IPv6 address is cut at its first colon,
-- for a host has colons only in brackets, and then the rest is no port.
import Mathlib.Data.List.Basic
import AdmissionGate.Proofs.Address.Spelling
import AdmissionGate.Proofs.Url.Paths

namespace AdmissionGate

open Decimal

/-! ## Dotted hosts -/

namespace Ipv4

/-- The numbers of an address as it is written. -/
def octetTexts (ip : Ipv4) : List (List Char) :=
  [octetText ip.a, octetText ip.b, octetText ip.c, octetText ip.d]

theorem notMem_toText (ip : Ipv4) {c : Char} (hdigit : isDigit c = false) (hdot : c ≠ '.') :
    c ∉ ip.toText.toList := by
  intro hmem
  obtain h | h := toText_chars hmem
  · rw [hdigit] at h
    cases h
  · exact hdot h

theorem toText_eq_intercalate (ip : Ipv4) : ip.toText.toList = ['.'].intercalate ip.octetTexts := by
  simp [toText_toList, octetTexts]

theorem exists_octet_of_mem {ip : Ipv4} {ds : List Char} (h : ds ∈ ip.octetTexts) :
    ∃ o, ds = octetText o := by
  simp only [octetTexts, List.mem_cons, List.not_mem_nil, or_false] at h
  obtain rfl | rfl | rfl | rfl := h <;> exact ⟨_, rfl⟩

theorem pieces_toText (ip : Ipv4) : Text.pieces (· == '.') ip.toText.toList = ip.octetTexts := by
  have hdots : ∀ ds ∈ ip.octetTexts, '.' ∉ ds := by
    intro ds hds
    obtain ⟨o, rfl⟩ := exists_octet_of_mem hds
    exact notMem_digits (fitsOctet_octetText o).digits rfl
  rw [Text.pieces_eq_splitOnP, ← List.splitOn_eq_splitOnP, toText_eq_intercalate,
    List.splitOn_intercalate '.' hdots (List.cons_ne_nil _ _)]

end Ipv4

namespace Host

/-- What a domain name and a dotted address make of the digits of a byte. -/
theorem octetText_spec : ∀ o : UInt8, labelToAscii (octetText o) = octetText o ∧
    isLabel (octetText o) = true ∧ readPart? (octetText o) = some o.toNat :=
  Bytes.forall_byte (by decide +kernel)

theorem dottedChar_spec {c : Char} (h : isDigit c = true ∨ c = '.') :
    foldChar c = [c] ∧ isForbidden c = false := by
  have hall : ∀ c : Char, c.toNat < 0x80 → isDigit c = true ∨ c = '.' →
      foldChar c = [c] ∧ isForbidden c = false := Bytes.forall_ascii (by decide)
  refine hall c ?_ h
  obtain hdigit | rfl := h
  · exact toNat_lt_of_isDigit hdigit
  · decide

/-- As a domain name, a dotted address is left as it is. -/
theorem domainToAscii?_toText (ip : Ipv4) : domainToAscii? ip.toText = some ip.toText.toList := by
  have hfold : ip.toText.toList.flatMap foldChar = ip.toText.toList := by
    have hself : ∀ c ∈ ip.toText.toList, foldChar c = [c] :=
      fun c hc => (dottedChar_spec (Ipv4.toText_chars hc)).1
    rw [List.flatMap_congr hself, List.flatMap_singleton']
  have hlabels : ip.octetTexts.map labelToAscii = ip.octetTexts := by
    simp [Ipv4.octetTexts, octetText_spec]
  have hallowed : ip.toText.toList.any isForbidden = false :=
    List.any_eq_false.mpr fun c hc => by simp [dottedChar_spec (Ipv4.toText_chars hc)]
  have hlabel : ip.octetTexts.all isLabel = true := by
    simp [Ipv4.octetTexts, octetText_spec]
  have hne : ip.toText.toList.isEmpty = false :=
    List.isEmpty_eq_false_iff_exists_mem.mpr ⟨'.', ip.dot_mem_toText⟩
  unfold domainToAscii?
  simp only [hfold, ip.pieces_toText, hlabels, ← ip.toText_eq_intercalate, hallowed, hlabel, hne]
  rfl

theorem dottedParts_toText (ip : Ipv4) : dottedParts ip.toText.toList = ip.octetTexts := by
  have hlast : octetText ip.d ≠ [] := (fitsOctet_octetText ip.d).nonempty
  unfold dottedParts
  simp [ip.pieces_toText, Ipv4.octetTexts, hlast]

theorem endsInNumber_toText (ip : Ipv4) : endsInNumber ip.toText.toList = true := by
  unfold endsInNumber
  simp [dottedParts_toText, Ipv4.octetTexts, octetText_spec]

theorem ipv4OfParts?_bytes (a b c d : UInt8) :
    ipv4OfParts? [a.toNat, b.toNat, c.toNat, d.toNat] = some ⟨a, b, c, d⟩ := by
  have hbytes : ∀ o : UInt8, ¬255 < o.toNat := fun o => by
    have := o.toNat_lt
    omega
  have hd : d.toNat < 256 := d.toNat_lt
  simp [ipv4OfParts?, hbytes, hd]

/-- The host that a dotted address is read as is the address. -/
theorem ofWeb?_toText (ip : Ipv4) : ofWeb? ip.toText.toList = some (.v4 ip) := by
  have hescape : (0x25 : UInt8) ∉ Bytes.ofText ip.toText := fun hmem =>
    ip.notMem_toText rfl (by decide) (Bytes.mem_of_mem_ofText (by decide) hmem)
  have hdecode := Percent.decode_append_of_no_percent hescape []
  rw [List.append_nil, Percent.decode, List.append_nil] at hdecode
  unfold ofWeb?
  split
  · case h_1 s heq =>
    have hmem : '[' ∈ ip.toText.toList := heq ▸ List.mem_cons_self
    exact absurd hmem (ip.notMem_toText rfl (by decide))
  · simp only [String.ofList_toList, hdecode, Bytes.toText?_ofText, Option.bind_eq_bind,
      Option.bind_some, domainToAscii?_toText, endsInNumber_toText, if_true, dottedParts_toText]
    simp [Ipv4.octetTexts, octetText_spec, ipv4OfParts?_bytes]

end Host

/-! ## A host and a port -/

namespace Url

/-- A character that can stand anywhere in a host and a port, brackets apart. -/
structure IsAuthorityChar (c : Char) : Prop where
  visible : ' ' < c
  kept : isDropped c = false
  inside : SchemeKind.web.endsAuthority c = false
  notAt : c ≠ '@'
  notBracket : c ≠ '['

theorem isAuthorityChar_of_isAddressChar {c : Char} (h : Ip.isAddressChar c = true) :
    IsAuthorityChar c := by
  have hall : ∀ c : Char, c.toNat < 0x80 → Ip.isAddressChar c = true → ' ' < c ∧
      isDropped c = false ∧ SchemeKind.web.endsAuthority c = false ∧ c ≠ '@' ∧ c ≠ '[' :=
    Bytes.forall_ascii (by decide)
  have hascii : c.toNat < 0x80 := by
    simp only [Ip.isAddressChar, Bool.or_eq_true, beq_iff_eq] at h
    obtain (hhex | rfl) | rfl := h
    · exact Ip.toNat_lt_of_isHexDigit hhex
    · decide
    · decide
  obtain ⟨hvisible, hkept, hinside, hat, hbracket⟩ := hall c hascii h
  exact ⟨hvisible, hkept, hinside, hat, hbracket⟩

variable {front more : List Char}

/-- A host ends at its first colon. -/
theorem take_hostLength (hfront : ∀ c ∈ front, IsAuthorityChar c) (hcolon : ':' ∉ front) :
    (front ++ ':' :: more).take (hostLength .web false (front ++ ':' :: more)) = front := by
  induction front with
  | nil => simp [hostLength]
  | cons c rest ih =>
    obtain ⟨hc, hrest⟩ := List.forall_mem_cons.mp hfront
    rw [List.mem_cons, not_or] at hcolon
    have hrest := ih hrest hcolon.2
    have hbracket : (if c == '[' then true else if c == ']' then false else false) = false := by
      simp [hc.notBracket]
    rw [List.cons_append, hostLength, hc.inside, hbracket]
    simp [Ne.symm hcolon.1, hrest]

theorem readUserinfo_none (hfront : ∀ c ∈ front, IsAuthorityChar c) :
    readUserinfo .web front = ("", "", front) := by
  have hat : (front.takeWhile (!SchemeKind.web.endsAuthority ·)).contains '@' = false := by
    rw [← Bool.not_eq_true, List.contains_iff_mem]
    exact fun hmem => (hfront '@' ((List.takeWhile_sublist _).mem hmem)).notAt rfl
  rw [readUserinfo, hat]
  rfl

theorem clean_http {s : List Char} (h : ∀ c ∈ s, IsAuthorityChar c) :
    clean ("http://" ++ String.ofList s).toList =
      'h' :: 't' :: 't' :: 'p' :: ':' :: '/' :: '/' :: s := by
  have hlist : ("http://" ++ String.ofList s).toList =
      ['h', 't', 't', 'p', ':', '/', '/'] ++ s := by simp
  have hscheme : ['h', 't', 't', 'p', ':', '/', '/'].all (fun c => ' ' < c && !isDropped c) =
      true := by decide
  have hall : ∀ c ∈ ['h', 't', 't', 'p', ':', '/', '/'] ++ s, ' ' < c ∧ isDropped c = false := by
    intro c hc
    obtain hc | hc := List.mem_append.mp hc
    · simpa using List.all_eq_true.mp hscheme c hc
    · exact ⟨(h c hc).visible, (h c hc).kept⟩
  rw [hlist]
  exact clean_eq_self_iff.mpr ⟨fun c hc => (hall c hc).2,
    fun c hc => (hall c (List.mem_of_head? hc)).1, fun c hc => (hall c (List.mem_of_getLast? hc)).1⟩

theorem readScheme?_http (s : List Char) :
    readScheme? ('h' :: 't' :: 't' :: 'p' :: ':' :: s) = some ("http", s) := by
  have hlower : Text.lowerAscii "http" = "http" := rfl
  simp [readScheme?, hlower]

/-- Behind its scheme and the slashes, a URL begins with its host. -/
theorem ofText?_http {s : List Char} (h : ∀ c ∈ s, IsAuthorityChar c) :
    ofText? ("http://" ++ String.ofList s) = readRest? .web "http" s := by
  have hslashes : ('/' :: '/' :: s).dropWhile SchemeKind.web.isSeparator = s := by
    have hs : s.dropWhile SchemeKind.web.isSeparator = s := by
      cases s with
      | nil => rfl
      | cons c rest =>
        have hinside := (h c List.mem_cons_self).inside
        simp only [SchemeKind.endsAuthority, Bool.or_eq_false_iff] at hinside
        simp [hinside.1.1]
    simpa [SchemeKind.isSeparator] using hs
  have hkind : SchemeKind.ofScheme "http" = .web := rfl
  rw [ofText?, clean_http h, readScheme?_http]
  simp [hkind, hslashes]

/-- The URL of a host and a port, with nothing behind them. -/
def ofHost (host : Host) (port : Nat) : Url :=
  { scheme := "http", username := "", password := "", host, port := some port, path := [""]
    query := none, fragment := none }

/-- A host is read up to the first colon, and what follows must be a port. -/
theorem readRest?_authority (hchars : ∀ c ∈ front ++ ':' :: more, IsAuthorityChar c)
    (hcolon : ':' ∉ front) {port : Option Nat} (hport : port ≠ some 80)
    (hread : readPort? (':' :: more) = port.map fun p => (some p, [])) :
    readRest? .web "http" (front ++ ':' :: more) =
      (Host.ofWeb? front).bind fun host => port.map (ofHost host) := by
  have hfront : ∀ c ∈ front, IsAuthorityChar c :=
    fun c hc => hchars c (List.mem_append_left _ hc)
  have husual : SchemeKind.webPorts.lookup "http" = some 80 := rfl
  unfold readRest?
  simp only [readUserinfo_none hchars, reduceCtorEq, if_false, take_hostLength hfront hcolon,
    List.drop_left, hread, readHost?]
  cases Host.ofWeb? front with
  | none => rfl
  | some host =>
    cases port with
    | none => rfl
    | some port =>
      rw [ne_eq, Option.some.injEq] at hport
      simp [husual, hport, splitBefore, readPath, readTail, ofHost]

theorem readPort?_digits {port : Nat} (h : port ≤ 65535) :
    readPort? (':' :: Nat.toDigits 10 port) = some (some port, []) := by
  have hdigits : ∀ c ∈ Nat.toDigits 10 port, isDigit c = true :=
    fun c hc => isDigit_of_mem_toDigits hc
  have hrun := takeWhile_run hdigits (show ∀ c ∈ ([] : List Char).head?, isDigit c = false by simp)
  rw [List.append_nil] at hrun
  have hlarge : ¬65535 < port := by omega
  simp [readPort?, hrun, ofDigits_toDigits, Nat.toDigits_ne_nil, hlarge]

/-- There is no port where another colon follows. -/
theorem readPort?_of_colon (hchars : ∀ c ∈ more, IsAuthorityChar c) (hcolon : ':' ∈ more) :
    readPort? (':' :: more) = none := by
  cases hafter : more.dropWhile isDigit with
  | nil => cases List.dropWhile_eq_nil_iff.mp hafter ':' hcolon
  | cons c rest =>
    have hc : c ∈ more := (List.dropWhile_sublist isDigit).mem (hafter ▸ List.mem_cons_self)
    have hinside := (hchars c hc).inside
    simp [SchemeKind.endsAuthority, SchemeKind.isSeparator] at hinside
    simp [readPort?, hafter, hinside]

theorem authority_toList (text : String) (port : Nat) :
    text ++ ":" ++ toString port = String.ofList (text.toList ++ ':' :: Nat.toDigits 10 port) := by
  rw [← String.toList_inj]
  simp

/-- The characters of an address and a port. -/
theorem authority_chars {text : String} (h : ∀ c ∈ text.toList, Ip.isAddressChar c = true)
    (port : Nat) : ∀ c ∈ text.toList ++ ':' :: Nat.toDigits 10 port, IsAuthorityChar c := by
  intro c hc
  rw [List.mem_append, List.mem_cons] at hc
  apply isAuthorityChar_of_isAddressChar
  obtain hc | rfl | hc := hc
  · exact h c hc
  · rfl
  · exact Ip.isAddressChar_of_isDigit (isDigit_of_mem_toDigits hc)

/-- A dotted address and a port are read as what they are. -/
theorem ofText?_ipv4 (ip : Ipv4) {port : Nat} (hport : port ≤ 65535) (hunusual : port ≠ 80) :
    ofText? ("http://" ++ (ip.toText ++ ":" ++ toString port)) =
      some (ofHost (.v4 ip) port) := by
  have haddress : ∀ c ∈ ip.toText.toList, Ip.isAddressChar c = true :=
    fun _ => Ip.isAddressChar_of_mem_toText
  have hchars := authority_chars haddress port
  have hcolon : ':' ∉ ip.toText.toList := ip.notMem_toText rfl (by decide)
  have husual : some port ≠ some 80 := by simpa using hunusual
  rw [authority_toList, ofText?_http hchars,
    readRest?_authority hchars hcolon husual (readPort?_digits hport), Host.ofWeb?_toText]
  rfl

/-- The text of an IPv6 address is cut at a colon in it. -/
theorem ofText?_ipv6 {text : String} {ip : Ipv6} (h : Ip.ofText? text = some (.v6 ip))
    (port : Nat) : ofText? ("http://" ++ (text ++ ":" ++ toString port)) = none := by
  obtain ⟨hcolon, haddress⟩ := Ip.chars_of_ofText?_v6 h
  have hchars := authority_chars haddress port
  rw [authority_toList, ofText?_http hchars]
  obtain ⟨front, back, htext, hfront⟩ := List.eq_append_cons_of_mem hcolon
  rw [htext, List.append_assoc, List.cons_append] at hchars ⊢
  have hmore : ∀ c ∈ back ++ ':' :: Nat.toDigits 10 port, IsAuthorityChar c :=
    fun c hc => hchars c (List.mem_append_right _ (List.mem_cons_of_mem _ hc))
  have hnone := readPort?_of_colon hmore (List.mem_append_right _ List.mem_cons_self)
  have husual : (none : Option Nat) ≠ some 80 := by simp
  rw [readRest?_authority hchars hfront husual hnone]
  simp

end Url

end AdmissionGate
