-- Reading back a query that was written in the encoding of forms. Nothing
-- that is written for a name or a value holds a separator, so that the pairs
-- come apart where they were joined, and each byte is read from what was
-- written for it.
import AdmissionGate.Proofs.Text.Percent
import AdmissionGate.Proofs.Text.Utf8
import AdmissionGate.Text.FormEncoding

namespace AdmissionGate.FormEncoding

/-! ## Bytes -/

/-- The bytes that are written for a byte. -/
def writtenByte (b : UInt8) : Bytes := (encodeByte b).flatMap String.utf8EncodeChar

theorem ofText_encode (s : String) :
    Bytes.ofText (encode s) = (Bytes.ofText s).flatMap writtenByte := by
  rw [encode, Bytes.ofText_ofList, List.flatMap_assoc]
  rfl

theorem of_isPlain : ∀ b, isPlain b = true → b < 0x80 ∧ b ≠ 0x25 ∧ b ≠ 0x2B :=
  Bytes.forall_byte (by decide +kernel)

/-- No byte is written with one that separates names, values and pairs. -/
theorem notMem_writtenByte : ∀ b, 0x26 ∉ writtenByte b ∧ 0x3D ∉ writtenByte b :=
  Bytes.forall_byte (by decide +kernel)

theorem notMem_encode (s : String) :
    0x26 ∉ Bytes.ofText (encode s) ∧ 0x3D ∉ Bytes.ofText (encode s) := by
  simp only [ofText_encode, List.mem_flatMap, not_exists, not_and]
  exact ⟨fun b _ => (notMem_writtenByte b).1, fun b _ => (notMem_writtenByte b).2⟩

/-- Bytes with a space for each plus sign. -/
def spaced (bs : Bytes) : Bytes := bs.map fun b => if b == 0x2B then 0x20 else b

theorem spaced_append (bs rest : Bytes) : spaced (bs ++ rest) = spaced bs ++ spaced rest :=
  List.map_append

theorem ne_plus_of_isDigit {b : UInt8} (h : Percent.IsDigit b) : b ≠ 0x2B := by
  rintro rfl
  revert h
  unfold Percent.IsDigit
  decide

/-- What is written for a byte is read as that byte. -/
theorem decode_writtenByte (b : UInt8) (rest : Bytes) :
    Percent.decode (spaced (writtenByte b) ++ rest) = b :: Percent.decode rest := by
  unfold writtenByte encodeByte
  split
  case isTrue hplain =>
    obtain ⟨hascii, hpercent, hplus⟩ := of_isPlain b hplain
    simp [spaced, Percent.utf8EncodeChar_ascii hascii, hplus, Percent.decode_cons hpercent]
  case isFalse =>
    split
    case isTrue hspace =>
      have hplus : String.utf8EncodeChar '+' = [0x2B] := by decide
      rw [beq_iff_eq] at hspace
      subst hspace
      simp [spaced, hplus, Percent.decode_cons]
    case isFalse =>
      obtain ⟨high, low, hbyte, hescape⟩ := Percent.utf8_escape b
      obtain ⟨hhigh, hlow⟩ := Percent.isDigit_of_byte? hbyte
      have hspaced : spaced [0x25, high, low] = [0x25, high, low] := by
        simp [spaced, ne_plus_of_isDigit hhigh, ne_plus_of_isDigit hlow]
      rw [hescape, hspaced]
      exact Percent.decode_escape hbyte rest

theorem decode_flatMap_writtenByte (bs : Bytes) :
    Percent.decode (spaced (bs.flatMap writtenByte)) = bs := by
  induction bs with
  | nil => rfl
  | cons b rest ih => rw [List.flatMap_cons, spaced_append, decode_writtenByte, ih]

/-! ## Texts and pairs -/

theorem decode_encode (s : String) : decode (Bytes.ofText (encode s)) = s := by
  have hbytes := decode_flatMap_writtenByte (Bytes.ofText s)
  rw [ofText_encode]
  exact (congrArg Bytes.toTextLossy hbytes).trans (Bytes.toTextLossy_ofText s)

/-- The bytes of a pair. -/
def writtenPair (p : String × String) : Bytes :=
  Bytes.ofText (encode p.1) ++ 0x3D :: Bytes.ofText (encode p.2)

theorem ofText_pair (p : String × String) :
    Bytes.ofText (encode p.1 ++ "=" ++ encode p.2) = writtenPair p := by
  have hequals : Bytes.ofText "=" = [0x3D] := by decide
  simp [Bytes.ofText_append, writtenPair, hequals]

theorem notMem_writtenPair (p : String × String) : 0x26 ∉ writtenPair p := by
  simp [writtenPair, (notMem_encode p.1).1, (notMem_encode p.2).1]

theorem readPair_writtenPair (p : String × String) : readPair (writtenPair p) = p := by
  have hname : ∀ b ∈ Bytes.ofText (encode p.1), (b != 0x3D) = true := by
    intro b hb
    rw [bne_iff_ne]
    rintro rfl
    exact (notMem_encode p.1).2 hb
  rw [readPair, writtenPair, List.takeWhile_append_of_pos hname, List.dropWhile_append_of_pos hname]
  simp [decode_encode]

/-! ## Queries -/

theorem ofText_write (pairs : List (String × String)) :
    Bytes.ofText (write pairs) = [0x26].intercalate (pairs.map writtenPair) := by
  have hand : Bytes.ofText "&" = [0x26] := by decide
  have hpairs : Bytes.ofText ∘ (fun p : String × String => encode p.1 ++ "=" ++ encode p.2) =
      writtenPair := by
    funext p
    rw [Function.comp_apply, ofText_pair]
  rw [write, Bytes.ofText_intercalate, List.map_map, hpairs, hand]

theorem pieces_write {pairs : List (String × String)} (h : pairs ≠ []) :
    Text.pieces (· == 0x26) (Bytes.ofText (write pairs)) = pairs.map writtenPair := by
  have hparts : ∀ part ∈ pairs.map writtenPair, 0x26 ∉ part := by
    rw [List.forall_mem_map]
    exact fun p _ => notMem_writtenPair p
  rw [ofText_write, Text.pieces_eq_splitOnP, ← List.splitOn_eq_splitOnP,
    List.splitOn_intercalate 0x26 hparts (by simpa using h)]

/-- A query is read as the pairs that it was written for. -/
theorem read_write (pairs : List (String × String)) : read (write pairs) = pairs := by
  cases pairs with
  | nil => rfl
  | cons p more =>
    have hwhole : ∀ part ∈ (p :: more).map writtenPair, (!part.isEmpty) = true := by
      rw [List.forall_mem_map]
      simp [writtenPair]
    have hread : readPair ∘ writtenPair = id := funext readPair_writtenPair
    rw [read, pieces_write (List.cons_ne_nil p more), List.filter_eq_self.mpr hwhole,
      List.map_map, hread, List.map_id]

end AdmissionGate.FormEncoding
