-- Reading Base64. What was written is read back, and nothing but what is
-- written for some bytes can be read at all.
import AdmissionGate.Proofs.Text.Utf8
import AdmissionGate.Text.Base64

namespace AdmissionGate.Base64

/-! ## Symbols -/

theorem symbol_spec : ∀ n < 64, value? (symbol n) = some n ∧ symbol n ≠ padding := by
  decide

theorem value?_symbol {n : Nat} (h : n < 64) : value? (symbol n) = some n := (symbol_spec n h).1

/-- A byte with a value is the symbol of that value. -/
theorem symbol_value? {b : UInt8} {n : Nat} (h : value? b = some n) : n < 64 ∧ symbol n = b :=
  Bytes.forall_byte (P := fun b => ∀ n ∈ value? b, n < 64 ∧ symbol n = b) (by decide) b n h

theorem firstInvalid?_symbols {l : List Nat} (h : ∀ n ∈ l, n < 64) (offset : Nat) :
    firstInvalid? offset (l.map symbol) = none := by
  induction l generalizing offset with
  | nil => rfl
  | cons n rest ih =>
    rw [List.map_cons, firstInvalid?, value?_symbol (h n List.mem_cons_self)]
    exact ih (fun m hm => h m (List.mem_cons_of_mem _ hm)) _

theorem filterMap_symbols {l : List Nat} (h : ∀ n ∈ l, n < 64) :
    (l.map symbol).filterMap value? = l := by
  induction l with
  | nil => rfl
  | cons n rest ih =>
    rw [List.map_cons, List.filterMap_cons, value?_symbol (h n List.mem_cons_self)]
    simp only
    rw [ih fun m hm => h m (List.mem_cons_of_mem _ hm)]

/-- Bytes among which none is invalid are symbols. -/
theorem eq_symbols_of_firstInvalid? {bs : Bytes} {offset : Nat}
    (h : firstInvalid? offset bs = none) :
    ∃ l : List Nat, (∀ n ∈ l, n < 64) ∧ bs = l.map symbol := by
  induction bs generalizing offset with
  | nil => exact ⟨[], by simp, rfl⟩
  | cons b rest ih =>
    rw [firstInvalid?] at h
    cases hb : value? b with
    | none =>
      rw [hb] at h
      cases h
    | some n =>
      rw [hb] at h
      obtain ⟨l, hl, rfl⟩ := ih h
      obtain ⟨hn, hsymbol⟩ := symbol_value? hb
      refine ⟨n :: l, ?_, by rw [List.map_cons, hsymbol]⟩
      intro m hm
      rcases List.mem_cons.mp hm with rfl | hm
      · exact hn
      · exact hl m hm

/-! ## Groups -/

/-- Four symbols are read as three bytes, whatever follows. -/
theorem decodeFrom_group {a b c d : Nat} (ha : a < 64) (hb : b < 64) (hc : c < 64) (hd : d < 64)
    (offset : Nat) (rest : Bytes) :
    decodeFrom offset (symbol a :: symbol b :: symbol c :: symbol d :: rest) =
      (decodeFrom (offset + 4) rest).map (group a b c d ++ ·) := by
  have hall : ∀ n ∈ [a, b, c, d], n < 64 := by simp [ha, hb, hc, hd]
  have hinvalid := firstInvalid?_symbols hall offset
  have hvalues := filterMap_symbols hall
  simp only [List.map_cons, List.map_nil] at hinvalid hvalues
  cases rest with
  | nil =>
    have hpad : ∀ n ∈ [a, b, c, d], symbol n ≠ padding := fun n hn => (symbol_spec n (hall n hn)).2
    simp only [List.mem_cons, List.not_mem_nil, or_false, forall_eq_or_imp, forall_eq] at hpad
    obtain ⟨hpa, hpb, hpc, hpd⟩ := hpad
    simp [decodeFrom, decodeLast, hpa, hpb, hpc, hpd, hinvalid, hvalues, lastBytes?, firstInvalid?,
      Except.map]
  | cons e rest => rw [decodeFrom, hinvalid, hvalues]

/-- Two symbols and padding are read as one byte. -/
theorem decodeFrom_one {a b : Nat} (ha : a < 64) (hb : b < 64) (offset : Nat) :
    decodeFrom offset [symbol a, symbol b, padding, padding] =
      if b % 16 = 0 then .ok [UInt8.ofNat (a * 4 + b / 16)]
      else .error (.invalidLastSymbol (offset + 1) (symbol b)) := by
  have hall : ∀ n ∈ [a, b], n < 64 := by simp [ha, hb]
  have hinvalid := firstInvalid?_symbols hall offset
  have hvalues := filterMap_symbols hall
  simp only [List.map_cons, List.map_nil] at hinvalid hvalues
  by_cases hzero : b % 16 = 0 <;>
    simp [decodeFrom, decodeLast, (symbol_spec a ha).2, (symbol_spec b hb).2, hinvalid, hvalues,
      lastBytes?, hzero]

/-- Three symbols and padding are read as two bytes. -/
theorem decodeFrom_two {a b c : Nat} (ha : a < 64) (hb : b < 64) (hc : c < 64) (offset : Nat) :
    decodeFrom offset [symbol a, symbol b, symbol c, padding] =
      if c % 4 = 0 then .ok [UInt8.ofNat (a * 4 + b / 16), UInt8.ofNat (b % 16 * 16 + c / 4)]
      else .error (.invalidLastSymbol (offset + 2) (symbol c)) := by
  have hall : ∀ n ∈ [a, b, c], n < 64 := by simp [ha, hb, hc]
  have hinvalid := firstInvalid?_symbols hall offset
  have hvalues := filterMap_symbols hall
  simp only [List.map_cons, List.map_nil] at hinvalid hvalues
  by_cases hzero : c % 4 = 0 <;>
    simp [decodeFrom, decodeLast, (symbol_spec a ha).2, (symbol_spec b hb).2, (symbol_spec c hc).2,
      hinvalid, hvalues, lastBytes?, hzero]

theorem encode_group {a b c d : Nat} (ha : a < 64) (hb : b < 64) (hc : c < 64) (hd : d < 64)
    (bs : Bytes) :
    encode (group a b c d ++ bs) = symbol a :: symbol b :: symbol c :: symbol d :: encode bs := by
  have h1 : (a * 4 + b / 16) % 256 / 4 = a := by omega
  have h2 : (a * 4 + b / 16) % 256 % 4 * 16 + (b % 16 * 16 + c / 4) % 256 / 16 = b := by omega
  have h3 : (b % 16 * 16 + c / 4) % 256 % 16 * 4 + (c % 4 * 64 + d) % 256 / 64 = c := by omega
  have h4 : (c % 4 * 64 + d) % 256 % 64 = d := by omega
  simp only [group, List.cons_append, List.nil_append, encode, UInt8.toNat_ofNat', h1, h2, h3, h4]

/-! ## Round trips -/

theorem decodeFrom_encode (offset : Nat) (bs : Bytes) : decodeFrom offset (encode bs) = .ok bs := by
  fun_induction encode bs generalizing offset with
  | case1 => rfl
  | case2 a =>
    have hbyte := a.toNat_lt
    have hzero : a.toNat % 4 * 16 % 16 = 0 := by omega
    have ha : a.toNat / 4 * 4 + a.toNat % 4 * 16 / 16 = a.toNat := by omega
    rw [decodeFrom_one (by omega) (by omega), if_pos hzero, ha, UInt8.ofNat_toNat]
  | case3 a b =>
    have ha := a.toNat_lt
    have hb := b.toNat_lt
    have hzero : b.toNat % 16 * 4 % 4 = 0 := by omega
    have h1 : a.toNat / 4 * 4 + (a.toNat % 4 * 16 + b.toNat / 16) / 16 = a.toNat := by omega
    have h2 : (a.toNat % 4 * 16 + b.toNat / 16) % 16 * 16 + b.toNat % 16 * 4 / 4 = b.toNat := by
      omega
    rw [decodeFrom_two (by omega) (by omega) (by omega), if_pos hzero, h1, h2, UInt8.ofNat_toNat,
      UInt8.ofNat_toNat]
  | case4 a b c rest ih =>
    have ha := a.toNat_lt
    have hb := b.toNat_lt
    have hc := c.toNat_lt
    have h1 : a.toNat / 4 * 4 + (a.toNat % 4 * 16 + b.toNat / 16) / 16 = a.toNat := by omega
    have h2 : (a.toNat % 4 * 16 + b.toNat / 16) % 16 * 16
        + (b.toNat % 16 * 4 + c.toNat / 64) / 4 = b.toNat := by omega
    have h3 : (b.toNat % 16 * 4 + c.toNat / 64) % 4 * 64 + c.toNat % 64 = c.toNat := by omega
    rw [decodeFrom_group (by omega) (by omega) (by omega) (by omega), ih]
    simp only [Except.map, group, h1, h2, h3, UInt8.ofNat_toNat, List.cons_append, List.nil_append]

theorem length_encode (bs : Bytes) : (encode bs).length % 4 = 0 := by
  fun_induction encode bs with
  | case1 => rfl
  | case2 => simp
  | case3 => simp
  | case4 a b c rest ih =>
    simp only [List.length_cons]
    omega

/-- What was written in Base64 is read back. -/
theorem decode_encode (bs : Bytes) : decode (encode bs) = .ok bs := by
  have hlength : decide ((encode bs).length % 4 = 1) = false := by
    rw [length_encode]
    rfl
  rw [decode, hlength]
  exact decodeFrom_encode 0 bs

/-- Nothing but padding may stand behind the symbols. -/
theorem eq_padding_of_allowed {fill : Bytes} {few : Bool}
    (h : ¬ (!fill.isEmpty && (few || fill.any (· != padding))) = true) :
    fill = List.replicate fill.length padding := by
  rw [List.eq_replicate_iff]
  refine ⟨rfl, fun b hb => Classical.byContradiction fun hne => h ?_⟩
  have hany : fill.any (· != padding) = true := List.any_eq_true.mpr ⟨b, hb, by simpa using hne⟩
  have hsome : fill.isEmpty = false := List.isEmpty_eq_false_iff_exists_mem.mpr ⟨b, hb⟩
  rw [hany, hsome, Bool.or_true]
  rfl

/-- The last group can be read only if it is empty, or made up of symbols and of the padding
that fills it. -/
theorem decodeLast_eq_ok {offset : Nat} {t bs : Bytes} (h : decodeLast offset t = .ok bs) :
    t = [] ∧ bs = [] ∨ ∃ l : List Nat, (∀ n ∈ l, n < 64) ∧ 2 ≤ l.length ∧ l.length ≤ 4 ∧
      t = l.map symbol ++ List.replicate (4 - l.length) padding ∧ lastBytes? l = some bs := by
  unfold decodeLast at h
  have hsplit : t.takeWhile (· != padding) ++ t.dropWhile (· != padding) = t :=
    List.takeWhile_append_dropWhile
  generalize t.dropWhile (· != padding) = fill at h hsplit
  cases hinvalid : firstInvalid? offset (t.takeWhile (· != padding)) with
  | some found => simp [hinvalid] at h
  | none =>
    obtain ⟨l, hl, hsymbols⟩ := eq_symbols_of_firstInvalid? hinvalid
    rw [hsymbols] at hsplit
    simp only [hinvalid] at h
    rw [hsymbols, filterMap_symbols hl, List.length_map] at h
    by_cases hempty : t.isEmpty = true
    · rw [if_pos hempty] at h
      cases h
      exact Or.inl ⟨List.isEmpty_iff.mp hempty, rfl⟩
    rw [if_neg hempty] at h
    split at h
    · cases h
    next hpadded =>
      split at h
      · cases h
      next htwo =>
        split at h
        · cases h
        next hlength =>
          have hfour : l.length + fill.length = 4 := by
            rw [← hsplit, List.length_append, List.length_map] at hlength
            omega
          have hfill : fill = List.replicate (4 - l.length) padding := by
            rw [show 4 - l.length = fill.length by omega]
            exact eq_padding_of_allowed hpadded
          cases hbytes : lastBytes? l with
          | none =>
            rw [hbytes] at h
            cases h
          | some out =>
            rw [hbytes] at h
            cases h
            exact Or.inr ⟨l, hl, by omega, by omega, by rw [← hfill, hsplit], hbytes⟩

theorem encode_of_lastBytes? {l : List Nat} {bs : Bytes} (hl : ∀ n ∈ l, n < 64)
    (htwo : 2 ≤ l.length) (hfour : l.length ≤ 4) (h : lastBytes? l = some bs) :
    l.map symbol ++ List.replicate (4 - l.length) padding = encode bs := by
  match l with
  | [] => simp at htwo
  | [_] => simp at htwo
  | [a, b] =>
    have ha := hl a (by simp)
    have hb := hl b (by simp)
    rw [lastBytes?] at h
    split at h
    next hzero =>
      cases h
      have h1 : (a * 4 + b / 16) % 256 / 4 = a := by omega
      have h2 : (a * 4 + b / 16) % 256 % 4 * 16 = b := by omega
      simp only [encode, UInt8.toNat_ofNat', h1, h2]
      rfl
    next => cases h
  | [a, b, c] =>
    have ha := hl a (by simp)
    have hb := hl b (by simp)
    have hc := hl c (by simp)
    rw [lastBytes?] at h
    split at h
    next hzero =>
      cases h
      have h1 : (a * 4 + b / 16) % 256 / 4 = a := by omega
      have h2 : (a * 4 + b / 16) % 256 % 4 * 16 + (b % 16 * 16 + c / 4) % 256 / 16 = b := by omega
      have h3 : (b % 16 * 16 + c / 4) % 256 % 16 * 4 = c := by omega
      simp only [encode, UInt8.toNat_ofNat', h1, h2, h3]
      rfl
    next => cases h
  | [a, b, c, d] =>
    rw [lastBytes?, Option.some.injEq] at h
    rw [← h, ← List.append_nil (group a b c d),
      encode_group (hl a (by simp)) (hl b (by simp)) (hl c (by simp)) (hl d (by simp))]
    rfl
  | _ :: _ :: _ :: _ :: _ :: _ =>
    simp only [List.length_cons] at hfour
    omega

theorem encode_of_decodeFrom {offset : Nat} {t bs : Bytes} (h : decodeFrom offset t = .ok bs) :
    t = encode bs := by
  fun_induction decodeFrom offset t generalizing bs with
  | case1 offset a b c d e rest i byte hinvalid => cases h
  | case2 offset a b c d e rest hinvalid v w x y hvalues ih =>
    obtain ⟨l, hl, hsymbols⟩ := eq_symbols_of_firstInvalid? hinvalid
    rw [hsymbols, filterMap_symbols hl] at hvalues
    subst hvalues
    obtain ⟨rfl, rfl, rfl, rfl⟩ : a = symbol v ∧ b = symbol w ∧ c = symbol x ∧ d = symbol y := by
      simpa using hsymbols
    cases hrest : decodeFrom (offset + 4) (e :: rest) with
    | error why =>
      rw [hrest] at h
      cases h
    | ok out =>
      rw [hrest] at h
      cases h
      rw [encode_group (hl v (by simp)) (hl w (by simp)) (hl x (by simp)) (hl y (by simp)),
        ← ih hrest]
  | case3 => cases h
  | case4 offset t hshort =>
    rcases decodeLast_eq_ok h with ⟨rfl, rfl⟩ | ⟨l, hl, htwo, hfour, rfl, hbytes⟩
    · rfl
    · exact encode_of_lastBytes? hl htwo hfour hbytes

/-- What can be read is the Base64 form of what is read. -/
theorem decode_eq_ok_iff (t bs : Bytes) : decode t = .ok bs ↔ t = encode bs := by
  constructor
  · intro h
    unfold decode at h
    simp only at h
    split at h
    · cases h
    · exact encode_of_decodeFrom h
  · rintro rfl
    exact decode_encode bs

/-! ## Texts -/

/-- The Base64 form of some bytes, as a text. -/
def text (bs : Bytes) : String := String.ofList ((encode bs).map fun b => Char.ofNat b.toNat)

theorem symbol_ascii (n : Nat) : (symbol n).toNat < 0x80 := by
  by_cases h : n < 64
  · have hall : ∀ n < 64, (symbol n).toNat < 0x80 := by decide
    exact hall n h
  · have hlast : symbol n = 0x2F := by
      unfold symbol
      rw [if_neg (by omega), if_neg (by omega), if_neg (by omega), if_neg (by omega)]
    rw [hlast]
    decide

theorem encode_ascii (bs : Bytes) : ∀ b ∈ encode bs, b.toNat < 0x80 := by
  have hpadding : padding.toNat < 0x80 := by decide
  fun_induction encode bs with
  | case1 => simp
  | case2 => simp [symbol_ascii, hpadding]
  | case3 => simp [symbol_ascii, hpadding]
  | case4 a b c rest ih => simpa [symbol_ascii] using ih

theorem ofText_text (bs : Bytes) : Bytes.ofText (text bs) = encode bs := by
  have hbyte : ∀ n < 0x80, (Char.ofNat n).toNat = n := by decide
  have hchar : ∀ b ∈ encode bs, (Char.ofNat b.toNat).toNat = b.toNat :=
    fun b hb => hbyte _ (encode_ascii bs b hb)
  have hall : ∀ c ∈ (encode bs).map fun b => Char.ofNat b.toNat, c.toNat < 0x80 := by
    intro c hc
    obtain ⟨b, hb, rfl⟩ := List.mem_map.mp hc
    rw [hchar b hb]
    exact encode_ascii bs b hb
  rw [text, Bytes.ofText_ascii hall, List.map_map]
  refine (List.map_congr_left fun b hb => ?_).trans (List.map_id _)
  rw [Function.comp_apply, hchar b hb, UInt8.ofNat_toNat]
  rfl

/-- A text can be read only as the bytes whose Base64 form it is. -/
theorem decode_ofText_iff (t : String) (bs : Bytes) :
    decode (Bytes.ofText t) = .ok bs ↔ t = text bs := by
  rw [decode_eq_ok_iff, ← ofText_text, Bytes.ofText_inj]

end AdmissionGate.Base64
