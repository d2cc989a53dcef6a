-- Where the join of a URL with a reference leads. The path is compared with
-- the reference through the bytes that both stand for, and none of the steps
-- from the reference to the path makes these bytes more: so the path says
-- what the reference says only if each step leaves everything as it is.
import Mathlib.Data.List.TakeWhile
import AdmissionGate.Proofs.Text.Percent
import AdmissionGate.Url.Reading

namespace AdmissionGate

/-- What stands between the pieces stands in front of each of them. -/
theorem Text.flatMap_pieces (p : α → Bool) (b : α) (s : List α) :
    (pieces p s).flatMap (b :: ·) = b :: s.map fun a => if p a then b else a := by
  induction s with
  | nil => simp [pieces]
  | cons a rest ih =>
    unfold pieces
    by_cases ha : p a = true
    · simp [ha, ih]
    · cases hpieces : pieces p rest with
      | nil => simp [hpieces] at ih
      | cons piece more =>
        rw [hpieces] at ih
        simp [ha] at ih ⊢
        exact ih

theorem Text.toNat_toLower (c : Char) : c.toLower.toNat =
    if 65 ≤ c.toNat ∧ c.toNat ≤ 90 then c.toNat + 32 else c.toNat := by
  unfold Char.toLower
  simp only [ge_iff_le, UInt32.le_iff_toNat_le]
  split
  case isTrue h =>
    have h' : 65 ≤ c.toNat ∧ c.toNat ≤ 90 := h
    rw [if_pos h']
    show (c.val + ('a'.val - 'A'.val)).toNat = _
    rw [UInt32.toNat_add]
    show (c.toNat + 32) % 2 ^ 32 = _
    omega
  case isFalse h => exact (if_neg (show ¬(65 ≤ c.toNat ∧ c.toNat ≤ 90) from h)).symm

theorem Text.toLower_eq_iff {c d : Char} (h : d.toNat < 65) : c.toLower = d ↔ c = d := by
  rw [← Char.toNat_inj, ← Char.toNat_inj, toNat_toLower]
  split <;> omega

theorem Text.toLower_eq_e_iff {c : Char} : c.toLower = 'e' ↔ c = 'e' ∨ c = 'E' := by
  rw [← Char.toNat_inj, ← Char.toNat_inj, ← Char.toNat_inj, toNat_toLower]
  have : 'e'.toNat = 101 := rfl
  have : 'E'.toNat = 69 := rfl
  split <;> omega

namespace Url

/-! ## The bytes of a path -/

/-- The bytes that a path stands for, with its escapes read. -/
def decodedPath (path : List String) : Bytes := Percent.decode (Bytes.ofText (pathText path))

theorem separates_slash : Percent.Separates 0x2F :=
  ⟨by decide, by unfold Percent.IsDigit; decide⟩

theorem decodedPath_eq (path : List String) :
    decodedPath path = path.flatMap fun s => 0x2F :: Percent.decode (Bytes.ofText s) := by
  have htext : Bytes.ofText (pathText path) = (path.map Bytes.ofText).flatMap (0x2F :: ·) := by
    simp only [Bytes.ofText, pathText, String.toList_join, List.flatMap_map, List.flatMap_assoc,
      String.toList_append, List.flatMap_append]
    rfl
  rw [decodedPath, htext, Percent.decode_flatMap separates_slash, List.flatMap_map]

@[simp] theorem decodedPath_nil : decodedPath [] = [] := rfl

@[simp] theorem decodedPath_cons (s : String) (path : List String) :
    decodedPath (s :: path) = 0x2F :: Percent.decode (Bytes.ofText s) ++ decodedPath path := by
  simp [decodedPath_eq]

@[simp] theorem decodedPath_append (front back : List String) :
    decodedPath (front ++ back) = decodedPath front ++ decodedPath back := by
  simp [decodedPath_eq]

theorem length_decodedPath_reverse (path : List String) :
    (decodedPath path.reverse).length = (decodedPath path).length := by
  induction path with
  | nil => rfl
  | cons s path ih => simp [ih]; omega

/-! ## Segments that mean directories -/

def isDots (segment : String) : Bool := isHere segment || isAbove segment

/-- Both spellings of a dot in front of some text are read as one. -/
theorem decode_of_lower_dot {s rest : List Char} (h : s.map Char.toLower = '.' :: rest ∨
      s.map Char.toLower = '%' :: '2' :: 'e' :: rest) :
    ∃ more : List Char, more.map Char.toLower = rest ∧
      Percent.decode (s.flatMap String.utf8EncodeChar) =
        0x2E :: Percent.decode (more.flatMap String.utf8EncodeChar) := by
  obtain h | h := h
  · obtain ⟨dot, more, rfl, hdot, hmore⟩ := List.map_eq_cons_iff.mp h
    rw [Text.toLower_eq_iff (by decide)] at hdot
    subst hdot
    exact ⟨more, hmore, Percent.decode_cons (b := 0x2E) (by decide) _⟩
  · obtain ⟨percent, _, rfl, hpercent, h⟩ := List.map_eq_cons_iff.mp h
    obtain ⟨two, _, rfl, htwo, h⟩ := List.map_eq_cons_iff.mp h
    obtain ⟨e, more, rfl, he, hmore⟩ := List.map_eq_cons_iff.mp h
    rw [Text.toLower_eq_iff (by decide)] at hpercent htwo
    subst hpercent htwo
    have hsmall : Percent.byte? 0x32 0x65 = some 0x2E := by decide
    have hcapital : Percent.byte? 0x32 0x45 = some 0x2E := by decide
    obtain rfl | rfl := Text.toLower_eq_e_iff.mp he
    · exact ⟨more, hmore, Percent.decode_escape hsmall _⟩
    · exact ⟨more, hmore, Percent.decode_escape hcapital _⟩

/-- Once read, the segments that mean directories are one dot or two. -/
theorem decode_of_isDots {s : String} (h : isDots s = true) :
    Percent.decode (Bytes.ofText s) = Bytes.ofText "." ∨
      Percent.decode (Bytes.ofText s) = Bytes.ofText ".." := by
  have hend : ∀ {more : List Char}, more.map Char.toLower = [] →
      Percent.decode (more.flatMap String.utf8EncodeChar) = [] := by
    intro more hmore
    rw [List.map_eq_nil_iff.mp hmore]
    rfl
  have hletters : ∀ {t}, Text.lowerAscii s = t → s.toList.map Char.toLower = t.toList := by
    rintro t rfl
    rw [Text.lowerAscii, String.toList_ofList]
  rw [isDots, Bool.or_eq_true, isHere, isAbove, List.contains_iff_mem, List.contains_iff_mem] at h
  simp only [List.mem_cons, List.not_mem_nil, or_false] at h
  obtain h | h := h
  · left
    have hlower : s.toList.map Char.toLower = ['.'] ∨
        s.toList.map Char.toLower = ['%', '2', 'e'] := h.imp hletters hletters
    obtain ⟨more, hmore, hread⟩ := decode_of_lower_dot hlower
    rw [Bytes.ofText, hread, hend hmore]
    rfl
  · right
    have hlower : ∃ rest, (rest = ['.'] ∨ rest = ['%', '2', 'e']) ∧
        (s.toList.map Char.toLower = '.' :: rest ∨
          s.toList.map Char.toLower = '%' :: '2' :: 'e' :: rest) := by
      obtain h | h | h | h := h
      · exact ⟨['.'], .inl rfl, .inl (hletters h)⟩
      · exact ⟨['.'], .inl rfl, .inr (hletters h)⟩
      · exact ⟨['%', '2', 'e'], .inr rfl, .inl (hletters h)⟩
      · exact ⟨['%', '2', 'e'], .inr rfl, .inr (hletters h)⟩
    obtain ⟨rest, hrest, hlower⟩ := hlower
    obtain ⟨more, rfl, hread⟩ := decode_of_lower_dot hlower
    obtain ⟨last, hlast, hread'⟩ := decode_of_lower_dot hrest
    rw [Bytes.ofText, hread, hread', hend hlast]
    rfl

theorem addSegments_cons {rest : List String} (h : rest ≠ []) (above : List String) (s : String) :
    addSegments above (s :: rest) = addSegments
      (if isAbove s then above.drop 1 else if isHere s then above else s :: above) rest := by
  rw [addSegments]
  exact h

theorem addSegments_of_not_dots {segments : List String} (h : ∀ s ∈ segments, isDots s = false)
    (above : List String) : addSegments above segments = segments.reverse ++ above := by
  induction segments generalizing above with
  | nil => simp [addSegments]
  | cons s rest ih =>
    have hs := h s List.mem_cons_self
    simp only [isDots, Bool.or_eq_false_iff] at hs
    cases rest with
    | nil => simp [addSegments, hs]
    | cons next more =>
      rw [addSegments_cons (List.cons_ne_nil _ _), ih fun t ht => h t (List.mem_cons_of_mem _ ht)]
      simp [hs]

theorem follow_of_not_dots {segments : List String} (h : ∀ s ∈ segments, isDots s = false)
    (directory : List String) : follow directory segments = directory ++ segments := by
  simp [follow, addSegments_of_not_dots h]

/-- A path may lose its last segment, and a directory segment its dots. -/
theorem length_decodedPath_addSegments_le (above segments : List String) :
    (decodedPath (addSegments above segments)).length + segments.countP isDots ≤
      (decodedPath above).length + (decodedPath segments).length := by
  induction segments generalizing above with
  | nil => simp [addSegments]
  | cons s rest ih =>
    have htail : (decodedPath above.tail).length ≤ (decodedPath above).length := by
      cases above with
      | nil => simp
      | cons last more => simp; omega
    have hdots : isDots s = true → 1 ≤ (Percent.decode (Bytes.ofText s)).length := by
      intro h
      obtain hread | hread := decode_of_isDots h <;> rw [hread] <;> decide
    have hempty : Percent.decode (Bytes.ofText "") = [] := rfl
    cases rest with
    | nil =>
      cases habove : isAbove s <;> cases hhere : isHere s <;>
        simp [addSegments, isDots, habove, hhere, hempty] at hdots ⊢ <;> omega
    | cons next more =>
      rw [addSegments_cons (List.cons_ne_nil _ _), List.countP_cons, decodedPath_cons s,
        List.length_append]
      generalize hinner : (if isAbove s then above.drop 1 else if isHere s then above
        else s :: above) = inner
      have hstep : (decodedPath inner).length + (if isDots s then 1 else 0) ≤
          (decodedPath above).length + (0x2F :: Percent.decode (Bytes.ofText s)).length := by
        subst hinner
        cases habove : isAbove s <;> cases hhere : isHere s <;>
          simp [isDots, habove, hhere] at hdots ⊢ <;> omega
      have hrest := ih inner
      omega

theorem length_decodedPath_follow_le (directory segments : List String) :
    (decodedPath (follow directory segments)).length + segments.countP isDots ≤
      (decodedPath directory).length + (decodedPath segments).length := by
  have hle := length_decodedPath_addSegments_le directory.reverse segments
  rwa [length_decodedPath_reverse, ← length_decodedPath_reverse (addSegments _ _)] at hle

/-! ## The bytes of a reference -/

/-- Text with every separator written as a slash. -/
def slashed (k : SchemeKind) (s : List Char) : List Char :=
  s.map fun c => if k.isSeparator c then '/' else c

theorem reads_escapedInPath : Percent.Reads escapedInPath where
  percent := by decide
  digit := by
    have hall : ∀ n < 256, (Hex.value? (Char.ofNat n)).isSome = true →
        escapedInPath (UInt8.ofNat n) = false := by decide +kernel
    intro b hb
    simpa using hall b.toNat b.toNat_lt hb
  ascii := by
    intro b hb
    rw [← UInt8.not_le]
    intro hle
    have hdelete : 0x7F ≤ b := UInt8.le_trans (by decide) hle
    simp [escapedInPath, escapedInFragment, hdelete] at hb

theorem decode_escape (s : List Char) :
    Percent.decode (Bytes.ofText (escape escapedInPath s)) =
      Percent.decode (Bytes.ofText (String.ofList s)) :=
  Percent.decode_written reads_escapedInPath _

theorem flatMap_pieces (k : SchemeKind) (s : List Char) :
    ((Text.pieces k.isSeparator s).map fun piece => Bytes.ofText (String.ofList piece)).flatMap
      (0x2F :: ·) = 0x2F :: Bytes.ofText (String.ofList (slashed k s)) := by
  have hslashed := congrArg (List.flatMap String.utf8EncodeChar)
    (Text.flatMap_pieces k.isSeparator '/' s)
  have hslash : String.utf8EncodeChar '/' = [0x2F] := by decide
  simpa [List.flatMap_assoc, List.flatMap_map, Bytes.ofText_ofList, slashed, hslash]
    using hslashed

theorem decodedPath_segmentsOf (k : SchemeKind) (s : List Char) :
    decodedPath (segmentsOf k s) =
      0x2F :: Percent.decode (Bytes.ofText (String.ofList (slashed k s))) := by
  rw [decodedPath_eq, segmentsOf, List.flatMap_map]
  simp only [decode_escape]
  rw [← Percent.decode_cons (by decide), ← flatMap_pieces, Percent.decode_flatMap separates_slash,
    List.flatMap_map]

theorem length_ofText_slashed (k : SchemeKind) (s : List Char) :
    (Bytes.ofText (String.ofList (slashed k s))).length =
      (Bytes.ofText (String.ofList s)).length := by
  simp only [Bytes.ofText_ofList, slashed, List.flatMap_map, List.length_flatMap]
  congr 2
  funext c
  split
  case isTrue hc =>
    simp only [SchemeKind.isSeparator, Bool.or_eq_true, Bool.and_eq_true, beq_iff_eq] at hc
    obtain rfl | ⟨rfl, -⟩ := hc <;> decide
  case isFalse => rfl

theorem slashed_eq_self_iff {k : SchemeKind} {s : List Char} :
    slashed k s = s ↔ (k ≠ .other → '\\' ∉ s) := by
  induction s with
  | nil => simp [slashed]
  | cons c rest ih =>
    have hfirst : (if k.isSeparator c then '/' else c) = c ↔ (k ≠ .other → ¬ '\\' = c) := by
      by_cases hslash : c = '/'
      · simp [hslash]
      · by_cases hbackslash : '\\' = c
        · subst hbackslash
          simp [SchemeKind.isSeparator]
        · simp [SchemeKind.isSeparator, hslash, Ne.symm hbackslash, hbackslash]
    rw [slashed, List.map_cons, List.cons.injEq, ← slashed, ih, hfirst, List.mem_cons, not_or,
      ← forall_and]

/-- In text without escapes, the segments that mean directories are one dot or two. -/
theorem isDots_escape_iff {s : List Char}
    (h : Percent.decode (Bytes.ofText (String.ofList s)) = Bytes.ofText (String.ofList s)) :
    isDots (escape escapedInPath s) = true ↔ s = ['.'] ∨ s = ['.', '.'] := by
  constructor
  · intro hdots
    have hread := decode_of_isDots hdots
    rw [decode_escape, h, Bytes.ofText_inj, Bytes.ofText_inj] at hread
    simpa [← String.toList_inj] using hread
  · rintro (rfl | rfl) <;> decide

theorem isDots_segmentsOf_iff {k : SchemeKind} {s : List Char} (hslashes : slashed k s = s)
    (h : Percent.decode (Bytes.ofText (String.ofList s)) = Bytes.ofText (String.ofList s)) :
    (∀ t ∈ segmentsOf k s, isDots t = false) ↔
      ∀ piece ∈ Text.pieces k.isSeparator s, piece ≠ ['.'] ∧ piece ≠ ['.', '.'] := by
  have hself : Percent.decode (0x2F :: Bytes.ofText (String.ofList (slashed k s))) =
      0x2F :: Bytes.ofText (String.ofList (slashed k s)) := by
    rw [hslashes, Percent.decode_cons (by decide), h]
  rw [← flatMap_pieces] at hself
  have hpieces := Percent.decode_piece_eq_self separates_slash hself
  simp only [List.mem_map, forall_exists_index, and_imp, forall_apply_eq_imp_iff₂] at hpieces
  simp only [segmentsOf, List.mem_map, forall_exists_index, and_imp, forall_apply_eq_imp_iff₂]
  refine forall₂_congr fun piece hpiece => ?_
  rw [← not_or, ← isDots_escape_iff (hpieces piece hpiece), Bool.not_eq_true]

/-- Segments stand for no more bytes than their text and the slash in front of it, and for as
many only if the text has no escape. -/
theorem length_decodedPath_segmentsOf_le (k : SchemeKind) (s : List Char) :
    (decodedPath (segmentsOf k s)).length ≤ 1 + (Bytes.ofText (String.ofList s)).length := by
  have hdecode := Percent.length_decode_le (Bytes.ofText (String.ofList (slashed k s)))
  rw [length_ofText_slashed] at hdecode
  rw [decodedPath_segmentsOf, List.length_cons]
  omega

theorem decode_slashed_of_length {k : SchemeKind} {s : List Char}
    (h : 1 + (Bytes.ofText (String.ofList s)).length ≤ (decodedPath (segmentsOf k s)).length) :
    Percent.decode (Bytes.ofText (String.ofList (slashed k s))) =
      Bytes.ofText (String.ofList (slashed k s)) := by
  have hdecode := Percent.length_decode_le (Bytes.ofText (String.ofList (slashed k s)))
  apply Percent.decode_eq_self
  rw [decodedPath_segmentsOf, List.length_cons, ← length_ofText_slashed k] at h
  omega

/-! ## The path of a reference -/

theorem clean_sublist (s : List Char) : (clean s).Sublist s :=
  List.filter_sublist.trans (Text.strip_sublist _ _)

theorem clean_eq_self_iff {s : List Char} : clean s = s ↔ (∀ c ∈ s, isDropped c = false) ∧
    (∀ c, s.head? = some c → ' ' < c) ∧ ∀ c, s.getLast? = some c → ' ' < c := by
  have hclean := Text.reduced_eq_self_iff (f := List.filter (!isDropped ·))
    (g := Text.strip (· ≤ ' ')) (s := s) (fun _ => List.filter_sublist) (Text.strip_sublist _)
  rw [clean, hclean, Text.strip_eq_self_iff, List.filter_eq_self, and_comm]
  simp

/-- The part of a reference that its path is read from. -/
def pathPart (s : List Char) : List Char :=
  (splitBefore (fun c => c == '?' || c == '#') (clean s)).1

theorem pathPart_sublist (s : List Char) : (pathPart s).Sublist s :=
  (List.takeWhile_sublist _).trans (clean_sublist s)

theorem pathPart_eq_self_iff {s : List Char} : pathPart s = s ↔
    clean s = s ∧ ∀ c ∈ s, c ≠ '?' ∧ c ≠ '#' := by
  have hpart := Text.reduced_eq_self_iff (g := clean) (s := s)
    (fun _ => List.takeWhile_sublist (fun c => !(c == '?' || c == '#'))) clean_sublist
  rw [pathPart, splitBefore, hpart, List.takeWhile_eq_self_iff]
  simp

/-- If all of a reference is its path, then nothing stands behind the path. -/
theorem splitBefore_of_whole {s : List Char} (h : pathPart s = s) :
    splitBefore (fun c => c == '?' || c == '#') (clean s) = (s, []) := by
  refine Prod.ext h ?_
  rw [(pathPart_eq_self_iff.mp h).1, splitBefore, List.dropWhile_eq_nil_iff]
  simpa using (pathPart_eq_self_iff.mp h).2

/-! ## Joins -/

/-- Text that is a path just as it is written: all of it counts, no segment of it means a
directory, slashes alone separate the segments, and nothing is escaped. -/
structure IsVerbatim (k : SchemeKind) (s : List Char) : Prop where
  whole : pathPart s = s
  segments : ∀ t ∈ segmentsOf k s, isDots t = false
  slashes : slashed k s = s
  unescaped : Percent.decode (Bytes.ofText (String.ofList s)) = Bytes.ofText (String.ofList s)

theorem decodedPath_directory {u : Url} (h : u.isDirectory = true) :
    decodedPath u.path = decodedPath u.path.dropLast ++ [0x2F] := by
  rw [isDirectory, beq_iff_eq] at h
  obtain ⟨directory, hpath⟩ := List.getLast?_eq_some_iff.mp h
  rw [hpath, List.dropLast_concat, decodedPath_append]
  rfl

theorem IsVerbatim.decodedPath {k : SchemeKind} {s : List Char} (h : IsVerbatim k s) :
    decodedPath (segmentsOf k s) = 0x2F :: Bytes.ofText (String.ofList s) := by
  rw [decodedPath_segmentsOf, h.slashes, h.unescaped]

theorem IsVerbatim.join {u : Url} {reference : String}
    (h : IsVerbatim (.ofScheme u.scheme) reference.toList) :
    u.join reference = { u with
      path := u.path.dropLast ++ segmentsOf (.ofScheme u.scheme) reference.toList
      query := none, fragment := none } := by
  unfold Url.join
  simp only [splitBefore_of_whole h.whole, follow_of_not_dots h.segments]
  rfl

/-- A path that stands for a directory and all of a reference was read from verbatim text. -/
theorem isVerbatim_of_decodedPath {k : SchemeKind} {directory : List String} {s : List Char}
    (h : Url.decodedPath (follow directory (segmentsOf k (pathPart s))) =
      Url.decodedPath directory ++ 0x2F :: Bytes.ofText (String.ofList s)) : IsVerbatim k s := by
  have hsublist := Bytes.ofText_sublist (pathPart_sublist s)
  generalize hpart : pathPart s = part at h hsublist
  have hlength := congrArg List.length h
  rw [List.length_append, List.length_cons] at hlength
  -- no step makes more of it, and the first and the last are of one length
  have hpath := length_decodedPath_follow_le directory (segmentsOf k part)
  have hsegments := length_decodedPath_segmentsOf_le k part
  have hle := hsublist.length_le
  have hwhole : part = s := by
    rw [← String.ofList_inj, ← Bytes.ofText_inj]
    exact hsublist.eq_of_length (by omega)
  subst hwhole
  have hdots : ∀ t ∈ segmentsOf k part, isDots t = false := by
    have hcount : (segmentsOf k part).countP isDots = 0 := by omega
    simpa [List.countP_eq_zero] using hcount
  have hunescaped := decode_slashed_of_length (k := k) (s := part) (by omega)
  have hslashes : slashed k part = part := by
    rw [follow_of_not_dots hdots, decodedPath_append, decodedPath_segmentsOf, hunescaped,
      List.append_cancel_left_eq, List.cons_inj_right, Bytes.ofText_inj, String.ofList_inj] at h
    exact h
  rw [hslashes] at hunescaped
  exact ⟨hpart, hdots, hslashes, hunescaped⟩

/-- The join of a directory with a reference says what both say exactly if the reference is
verbatim. -/
theorem decodedPath_join_iff {u : Url} (hu : u.isDirectory = true) (reference : String) :
    Url.decodedPath (u.join reference).path =
        Url.decodedPath u.path ++ Bytes.ofText reference ↔
      IsVerbatim (.ofScheme u.scheme) reference.toList := by
  rw [decodedPath_directory hu, List.append_assoc, List.singleton_append]
  constructor
  · intro h
    refine isVerbatim_of_decodedPath (?_ : Url.decodedPath (follow u.path.dropLast _) = _)
    rw [String.ofList_toList]
    exact h
  · intro h
    rw [h.join, decodedPath_append, h.decodedPath, String.ofList_toList]

end Url

end AdmissionGate
