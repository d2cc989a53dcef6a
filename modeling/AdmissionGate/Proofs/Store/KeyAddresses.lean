-- Which entry of the agent a key leads to. The key is joined with the base
-- as it is, so that what URLs give a meaning to keeps it inside of a key:
-- only a plain key is named by its URL.
import AdmissionGate.Proofs.Url.Paths
import AdmissionGate.Store.Agent

namespace AdmissionGate.AgentClient

open Url

/-- The URL of a key names the key under the agent's base: it leads to the same host, asks for
nothing else there, and its path, with escapes read, is that of the base and the key. -/
structure Names (a : AgentClient) (key : String) : Prop where
  scheme : (a.keyUrl key).scheme = a.base.scheme
  host : (a.keyUrl key).host = a.base.host
  port : (a.keyUrl key).port = a.base.port
  query : (a.keyUrl key).query = none
  fragment : (a.keyUrl key).fragment = none
  path : decodedPath (a.keyUrl key).path =
    decodedPath a.base.path ++ Bytes.ofText ("v1/kv/" ++ key)
  /-- It does not lead out of the agent's keys. -/
  below : a.base.path.dropLast ++ ["v1", "kv"] <+: (a.keyUrl key).path

/-- A key that means nothing but itself inside of a URL. -/
structure IsPlain (k : SchemeKind) (key : String) : Prop where
  /-- Nothing ends the path or is dropped from it. -/
  kept : ∀ c ∈ key.toList, c ∉ ['?', '#', '\t', '\n', '\r']
  last : ∀ c, key.toList.getLast? = some c → ' ' < c
  no_backslash : k ≠ .other → '\\' ∉ key.toList
  unescaped : Percent.decode (Bytes.ofText key) = Bytes.ofText key
  /-- No segment means a directory. -/
  no_dots : ∀ piece ∈ Text.pieces k.isSeparator key.toList, piece ≠ ['.'] ∧ piece ≠ ['.', '.']

theorem isDirectory_of_ofAddress {address : String} {a : AgentClient}
    (h : ofAddress address = .ok a) : a.base.isDirectory = true := by
  unfold ofAddress at h
  split at h
  · cases h
    unfold asDirectory
    split
    case isTrue hdirectory => exact hdirectory
    case isFalse => simp [isDirectory]
  · cases h

/-! ## Plain keys -/

theorem keyPath_toList (key : String) :
    ("v1/kv/" ++ key).toList = ['v', '1', '/', 'k', 'v', '/'] ++ key.toList := by
  rw [String.toList_append]
  rfl

theorem segmentsOf_keyPath (k : SchemeKind) (key : String) :
    segmentsOf k ("v1/kv/" ++ key).toList = "v1" :: "kv" :: segmentsOf k key.toList := by
  have hpieces : Text.pieces k.isSeparator ("v1/kv/" ++ key).toList =
      ['v', '1'] :: ['k', 'v'] :: Text.pieces k.isSeparator key.toList := by
    simp [Text.pieces, SchemeKind.isSeparator]
  rw [segmentsOf, hpieces]
  rfl

theorem decode_keyPath (key : String) : Percent.decode (Bytes.ofText ("v1/kv/" ++ key)) =
    Bytes.ofText "v1/kv/" ++ Percent.decode (Bytes.ofText key) := by
  rw [Bytes.ofText_append, Percent.decode_append_of_no_percent (by decide)]

theorem pathPart_keyPath_iff (key : String) :
    pathPart ("v1/kv/" ++ key).toList = ("v1/kv/" ++ key).toList ↔
      (∀ c ∈ key.toList, c ∉ ['?', '#', '\t', '\n', '\r']) ∧
        ∀ c, key.toList.getLast? = some c → ' ' < c := by
  have hkept : ∀ c, c ∉ ['?', '#', '\t', '\n', '\r'] ↔
      isDropped c = false ∧ c ≠ '?' ∧ c ≠ '#' := by
    intro c
    grind [isDropped]
  have hfirst : ∀ c, (['v', '1', '/', 'k', 'v', '/'] ++ key.toList).head? = some c → ' ' < c := by
    rintro c ⟨⟩
    decide
  have hlast : (∀ c, (['v', '1', '/', 'k', 'v', '/'] ++ key.toList).getLast? = some c → ' ' < c) ↔
      ∀ c, key.toList.getLast? = some c → ' ' < c := by
    rw [List.getLast?_append]
    cases key.toList.getLast? <;> simp
  rw [pathPart_eq_self_iff, clean_eq_self_iff, keyPath_toList, hlast, List.forall_mem_append,
    List.forall_mem_append]
  constructor
  · rintro ⟨⟨⟨-, hdropped⟩, -, hend⟩, -, hends⟩
    exact ⟨fun c hc => (hkept c).mpr ⟨hdropped c hc, hends c hc⟩, hend⟩
  · rintro ⟨hall, hend⟩
    exact ⟨⟨⟨by simp [isDropped], fun c hc => ((hkept c).mp (hall c hc)).1⟩, hfirst, hend⟩, by simp,
      fun c hc => ((hkept c).mp (hall c hc)).2⟩

theorem isVerbatim_iff_isPlain (k : SchemeKind) (key : String) :
    IsVerbatim k ("v1/kv/" ++ key).toList ↔ IsPlain k key := by
  have hslashes : slashed k ("v1/kv/" ++ key).toList = ("v1/kv/" ++ key).toList ↔
      slashed k key.toList = key.toList := by
    simp [slashed_eq_self_iff]
  have hunescaped : Percent.decode (Bytes.ofText ("v1/kv/" ++ key)) =
      Bytes.ofText ("v1/kv/" ++ key) ↔ Percent.decode (Bytes.ofText key) = Bytes.ofText key := by
    rw [decode_keyPath, Bytes.ofText_append, List.append_cancel_left_eq]
  have hdots : (∀ t ∈ segmentsOf k ("v1/kv/" ++ key).toList, isDots t = false) ↔
      ∀ t ∈ segmentsOf k key.toList, isDots t = false := by
    rw [segmentsOf_keyPath, List.forall_mem_cons, List.forall_mem_cons]
    exact ⟨fun h => h.2.2, fun h => ⟨by decide, by decide, h⟩⟩
  constructor
  · intro h
    have hkey := hslashes.mp h.slashes
    have hread := h.unescaped
    rw [String.ofList_toList, hunescaped] at hread
    obtain ⟨hkept, hlast⟩ := (pathPart_keyPath_iff key).mp h.whole
    exact {
      kept := hkept
      last := hlast
      no_backslash := slashed_eq_self_iff.mp hkey
      unescaped := hread
      no_dots := (isDots_segmentsOf_iff hkey (by simpa using hread)).mp (hdots.mp h.segments) }
  · intro h
    have hkey := slashed_eq_self_iff.mpr h.no_backslash
    exact {
      whole := (pathPart_keyPath_iff key).mpr ⟨h.kept, h.last⟩
      segments := hdots.mpr ((isDots_segmentsOf_iff hkey (by simpa using h.unescaped)).mpr h.no_dots)
      slashes := hslashes.mpr hkey
      unescaped := by rw [String.ofList_toList]; exact hunescaped.mpr h.unescaped }

/-! ## Addresses of keys -/

variable {address key other : String} {a : AgentClient}

theorem keyUrl_eq (hslash : key.toList.head? ≠ some '/') :
    a.keyUrl key = a.base.join ("v1/kv/" ++ key) := by
  rw [keyUrl, Text.trimSlashesStart_eq_self_iff.mpr hslash]

/-- The path of a key's URL says what the key says only if the key is plain. -/
theorem decodedPath_keyUrl_iff (h : ofAddress address = .ok a)
    (hslash : key.toList.head? ≠ some '/') :
    decodedPath (a.keyUrl key).path =
        decodedPath a.base.path ++ Bytes.ofText ("v1/kv/" ++ key) ↔
      IsPlain (.ofScheme a.base.scheme) key := by
  rw [keyUrl_eq hslash, decodedPath_join_iff (isDirectory_of_ofAddress h), isVerbatim_iff_isPlain]

/-- A key is named by its URL exactly if it is plain, and no two keys that are named lead to
one entry. -/
theorem named_iff_plain (h : ofAddress address = .ok a) (hslash : key.toList.head? ≠ some '/') :
    (a.Names key ↔ IsPlain (.ofScheme a.base.scheme) key) ∧
      ∀ other, a.Names key → a.Names other →
        decodedPath (a.keyUrl key).path = decodedPath (a.keyUrl other).path → key = other := by
  refine ⟨⟨fun hnames => (decodedPath_keyUrl_iff h hslash).mp hnames.path, fun hplain => ?_⟩, ?_⟩
  · have hurl := ((isVerbatim_iff_isPlain _ key).mpr hplain).join
    rw [← keyUrl_eq hslash, segmentsOf_keyPath] at hurl
    exact {
      scheme := by rw [hurl]
      host := by rw [hurl]
      port := by rw [hurl]
      query := by rw [hurl]
      fragment := by rw [hurl]
      path := (decodedPath_keyUrl_iff h hslash).mpr hplain
      below := by rw [hurl]; exact ⟨_, List.append_assoc _ _ _⟩ }
  · intro other hkey hother hpaths
    rw [hkey.path, hother.path, List.append_cancel_left_eq, Bytes.ofText_inj,
      String.append_right_inj] at hpaths
    exact hpaths

theorem ofAddress_agent : ofAddress "agent:8500" =
    .ok ⟨"http", "", "", .domain "agent", some 8500, [""], none, none⟩ := by
  have hurl : Url.ofText? (if hasScheme "agent:8500" then "agent:8500" else
      "http://" ++ "agent:8500") =
      some ⟨"http", "", "", .domain "agent", some 8500, [""], none, none⟩ := by decide +kernel
  rw [ofAddress, hurl]
  rfl

theorem record_key_named : ∃ a, ofAddress "agent:8500" = .ok a ∧
    a.Names "Acm/config.firewall" :=
  ⟨_, ofAddress_agent, (named_iff_plain ofAddress_agent (by decide)).1.mpr
    ⟨by simp, by simp, by simp, by decide, by decide⟩⟩

/-- What follows a question mark in a key is taken for a query, so that the key leads to the
entry of another one. -/
theorem key_with_query_not_named : ∃ a, ofAddress "agent:8500" = .ok a ∧
    ¬a.Names "Acm/a?b" ∧
      decodedPath (a.keyUrl "Acm/a?b").path = decodedPath (a.keyUrl "Acm/a").path := by
  refine ⟨_, ofAddress_agent, fun h => ?_, by decide +kernel⟩
  have hquery := h.query
  revert hquery
  decide +kernel

end AdmissionGate.AgentClient
