-- Listings as a Consul agent sends them. However its answer is spelled, the
-- entries that it stands for are read from it in their order, and a single
-- value that is no Base64 makes the whole of it unreadable.
import AdmissionGate.Proofs.Json.Writing
import AdmissionGate.Proofs.Text.Base64
import AdmissionGate.Store.Agent

namespace AdmissionGate

/-! ## Values -/

namespace AgentEntry

/-- How the agent writes an entry: the value in Base64, and an empty one left out. -/
def ofEntry (e : Entry) : AgentEntry :=
  ⟨e.key, if e.value = [] then none else some (Base64.text e.value), e.version⟩

/-- The value is given, but it is the Base64 form of no bytes. -/
def IsGarbled (e : AgentEntry) : Prop := ∃ t, e.value = some t ∧ ∀ bs, t ≠ Base64.text bs

theorem toEntry_ofEntry (e : Entry) : (ofEntry e).toEntry = .ok e := by
  unfold ofEntry toEntry
  by_cases hempty : e.value = []
  · rw [if_pos hempty, ← hempty]
  · rw [if_neg hempty]
    simp only [(Base64.decode_ofText_iff _ _).mpr rfl]

theorem toEntry_of_isGarbled {e : AgentEntry} (h : e.IsGarbled) :
    ∃ why, e.toEntry = .error (.decode (.value e.key why)) := by
  obtain ⟨t, hvalue, hgarbled⟩ := h
  cases hread : Base64.decode (Bytes.ofText t) with
  | ok bs => exact absurd ((Base64.decode_ofText_iff t bs).mp hread) (hgarbled bs)
  | error why => exact ⟨why, by simp [toEntry, hvalue, hread]⟩

theorem toEntry_of_not_isGarbled {e : AgentEntry} (h : ¬ e.IsGarbled) :
    ∃ d, e.toEntry = .ok d := by
  cases hvalue : e.value with
  | none => exact ⟨⟨e.key, [], e.modifyIndex⟩, by simp [toEntry, hvalue]⟩
  | some t =>
    cases hread : Base64.decode (Bytes.ofText t) with
    | ok bs => exact ⟨⟨e.key, bs, e.modifyIndex⟩, by simp [toEntry, hvalue, hread]⟩
    | error why =>
      refine absurd ⟨t, hvalue, fun bs ht => ?_⟩ h
      rw [(Base64.decode_ofText_iff t bs).mpr ht] at hread
      cases hread

theorem mapM_toEntry_ofEntry (entries : List Entry) :
    (entries.map ofEntry).mapM toEntry = .ok entries := by
  induction entries with
  | nil => rfl
  | cons e rest ih =>
    rw [List.map_cons, List.mapM_cons, toEntry_ofEntry, ih]
    rfl

/-- The first entry whose value is garbled. -/
def IsFirstGarbled (entries : List AgentEntry) (e : AgentEntry) : Prop :=
  ∃ before after, entries = before ++ e :: after ∧ e.IsGarbled ∧ ∀ d ∈ before, ¬ d.IsGarbled

/-- Entries are read up to the first garbled value, and nothing comes of those before it. -/
theorem mapM_toEntry_of_isGarbled {entries : List AgentEntry} (h : ∃ e ∈ entries, e.IsGarbled) :
    ∃ e why, IsFirstGarbled entries e ∧
      entries.mapM toEntry = .error (.decode (.value e.key why)) := by
  induction entries with
  | nil =>
    obtain ⟨e, he, -⟩ := h
    cases he
  | cons d rest ih =>
    by_cases hd : d.IsGarbled
    · obtain ⟨why, hread⟩ := toEntry_of_isGarbled hd
      refine ⟨d, why, ⟨[], rest, rfl, hd, by simp⟩, ?_⟩
      rw [List.mapM_cons, hread]
      rfl
    · obtain ⟨e, he, hgarbled⟩ := h
      have hrest : e ∈ rest := by
        rcases List.mem_cons.mp he with rfl | he
        · exact absurd hgarbled hd
        · exact he
      obtain ⟨first, why, ⟨before, after, rfl, hfirst, hbefore⟩, hread⟩ := ih ⟨e, hrest, hgarbled⟩
      obtain ⟨out, hout⟩ := toEntry_of_not_isGarbled hd
      refine ⟨first, why, ⟨d :: before, after, rfl, hfirst, ?_⟩, ?_⟩
      · intro c hc
        rcases List.mem_cons.mp hc with rfl | hc
        · exact hd
        · exact hbefore c hc
      · rw [List.mapM_cons, hout, hread]
        rfl

/-! ## Objects -/

/-- The value as the agent writes it. -/
def valueJson (e : AgentEntry) : Json :=
  match e.value with
  | none => .null
  | some t => .text (some t)

/-- The names of the fields that are read. -/
def readNames : List String := ["Key", "Value", "ModifyIndex"]

/-- The fields of an entry that are read. -/
def readFields (e : AgentEntry) : List (String × Json) :=
  [("Key", .text (some e.key)), ("Value", e.valueJson), ("ModifyIndex", Json.ofNat e.modifyIndex)]

/-- The object of some fields. -/
def object (fields : List (String × Json)) : Json := .object (fields.map fun f => (some f.1, f.2))

/-- An object that stands for an entry: the fields that are read, among any others. -/
def IsObjectOf (e : AgentEntry) (v : Json) : Prop :=
  ∃ fields further, v = object fields ∧ fields.Perm (e.readFields ++ further) ∧
    ∀ f ∈ further, f.1 ∉ readNames

theorem named?_object (fields : List (String × Json)) :
    Json.named? (fields.map fun f => (some f.1, f.2)) = some fields := by
  induction fields with
  | nil => rfl
  | cons f rest ih =>
    rw [Json.named?] at ih ⊢
    rw [List.map_cons, List.mapM_cons, ih]
    rfl

/-- A field that is read is found, whatever stands around it. -/
theorem single?_of_perm {e : AgentEntry} {fields further : List (String × Json)}
    (hperm : fields.Perm (e.readFields ++ further))
    (hfurther : ∀ f ∈ further, f.1 ∉ readNames) {name : String} {v : Json}
    (hf : (name, v) ∈ e.readFields) : Json.single? fields name = some (some v) := by
  simp only [readFields, List.mem_cons, Prod.mk.injEq, List.not_mem_nil, or_false] at hf
  have hname : name ∈ readNames := by
    rcases hf with ⟨rfl, -⟩ | ⟨rfl, -⟩ | ⟨rfl, -⟩ <;> simp [readNames]
  have hothers : further.filter (·.1 = name) = [] := by
    rw [List.filter_eq_nil_iff]
    intro f hf heq
    exact hfurther f hf (by rwa [of_decide_eq_true heq])
  have hread : e.readFields.filter (·.1 = name) = [(name, v)] := by
    rcases hf with ⟨rfl, rfl⟩ | ⟨rfl, rfl⟩ | ⟨rfl, rfl⟩ <;> simp [readFields]
  have hone : fields.filter (·.1 = name) = [(name, v)] := by
    have hfilter := hperm.filter (·.1 = name)
    rw [List.filter_append, hothers, hread, List.append_nil] at hfilter
    exact List.perm_singleton.mp hfilter
  rw [Json.single?, hone]

/-- An entry is read from each object that stands for it. -/
theorem ofJson?_of_isObjectOf {e : AgentEntry} {v : Json} (h : e.IsObjectOf v)
    (hversion : e.modifyIndex ≤ Decimal.maxU64) : ofJson? v = some e := by
  obtain ⟨fields, further, rfl, hperm, hfurther⟩ := h
  have hkey : Json.single? fields "Key" = some (some (.text (some e.key))) :=
    single?_of_perm hperm hfurther (by simp [readFields])
  have hvalue : Json.single? fields "Value" = some (some e.valueJson) :=
    single?_of_perm hperm hfurther (by simp [readFields])
  have hindex : Json.single? fields "ModifyIndex" = some (some (Json.ofNat e.modifyIndex)) :=
    single?_of_perm hperm hfurther (by simp [readFields])
  have htext : value? e.valueJson = some e.value := by
    unfold valueJson
    cases e.value <;> rfl
  simp [object, ofJson?, named?_object, hkey, hvalue, hindex, Json.text?, htext,
    Json.upTo?_ofNat hversion]

/-! ## Answers -/

theorem mapM_ofJson? {entries : List AgentEntry} {vs : List Json}
    (h : List.Forall₂ IsObjectOf entries vs)
    (hversions : ∀ e ∈ entries, e.modifyIndex ≤ Decimal.maxU64) :
    vs.mapM ofJson? = some entries := by
  induction h with
  | nil => rfl
  | @cons e v entries vs hobject _ ih =>
    rw [List.mapM_cons, ofJson?_of_isObjectOf hobject (hversions e List.mem_cons_self),
      ih fun d hd => hversions d (List.mem_cons_of_mem _ hd)]
    rfl

end AgentEntry

/-- An answer that stands for some entries and an index of the store: the index in a header,
and as its body an array of objects, in any spelling. -/
structure HttpReply.IsReplyOf (r : HttpReply) (entries : List AgentEntry) (lastIndex : Nat) :
    Prop where
  status : r.status = 200
  index : r.headers.find? AgentClient.indexHeader = some (Bytes.ofText (toString lastIndex))
  body : ∃ vs, List.Forall₂ AgentEntry.IsObjectOf entries vs ∧ Json.IsTextOf r.body (.array vs)

/-! ## What the agent writes -/

namespace AgentEntry

/-- The fields of an entry in the order in which the agent writes them. -/
def writtenFields (e : AgentEntry) : List (String × Json) :=
  [("LockIndex", Json.ofNat 0), ("Key", .text (some e.key)), ("Flags", Json.ofNat 0),
    ("Value", e.valueJson), ("CreateIndex", Json.ofNat e.modifyIndex),
    ("ModifyIndex", Json.ofNat e.modifyIndex)]

/-- The same fields, each value as its text. -/
def textFields (e : AgentEntry) : List (String × String) :=
  [("LockIndex", toString 0), ("Key", Json.quote e.key), ("Flags", toString 0),
    ("Value", (e.value.map Json.quote).getD "null"), ("CreateIndex", toString e.modifyIndex),
    ("ModifyIndex", toString e.modifyIndex)]

def toText (e : AgentEntry) : String := Json.writeObject e.textFields

theorem isObjectOf_writtenFields (e : AgentEntry) : e.IsObjectOf (object e.writtenFields) := by
  have hread : e.writtenFields.filter (·.1 ∈ readNames) = e.readFields := by
    simp [writtenFields, readFields, readNames]
  refine ⟨_, e.writtenFields.filter fun f => !decide (f.1 ∈ readNames),
    rfl, ?_, ?_⟩
  · rw [← hread]
    exact (List.filter_append_perm _ _).symm
  · intro f hf
    simpa using (List.mem_filter.mp hf).2

theorem isTextOf_toText (e : AgentEntry) :
    Json.IsTextOf (Bytes.ofText e.toText) (object e.writtenFields) := by
  have hvalue :
      Json.IsTextOf (Bytes.ofText ((e.value.map Json.quote).getD "null")) e.valueJson := by
    unfold valueJson
    cases e.value with
    | none => exact Json.Spells.null.one
    | some t => exact Json.isTextOf_quote t
  have hzero := Json.isTextOf_toString 0
  have hversion := Json.isTextOf_toString e.modifyIndex
  refine Json.isTextOf_writeObject ?_
  simp only [textFields, writtenFields, List.map_cons, List.map_nil, List.forall₂_cons]
  exact ⟨⟨rfl, hzero⟩, ⟨rfl, Json.isTextOf_quote e.key⟩, ⟨rfl, hzero⟩, ⟨rfl, hvalue⟩,
    ⟨rfl, hversion⟩, ⟨rfl, hversion⟩, .nil⟩

end AgentEntry

/-- The answer that the agent writes for some entries. -/
def HttpReply.ofEntries (entries : List AgentEntry) (lastIndex : Nat) : HttpReply :=
  ⟨200, [("X-Consul-Index", Bytes.ofText (toString lastIndex))],
    Bytes.ofText (Json.writeArray (entries.map AgentEntry.toText))⟩

/-- There is an answer for any entries and any index. -/
theorem HttpReply.isReplyOf_ofEntries (entries : List AgentEntry) (lastIndex : Nat) :
    (ofEntries entries lastIndex).IsReplyOf entries lastIndex where
  status := rfl
  index := by
    have hname : (Text.lowerAscii "X-Consul-Index" == AgentClient.indexHeader) = true := by decide
    simp [ofEntries, Http.Headers.find?, hname]
  body := by
    refine ⟨entries.map fun e => AgentEntry.object e.writtenFields, ?_, ?_⟩
    · rw [List.forall₂_map_right_iff, List.forall₂_same]
      exact fun e _ => e.isObjectOf_writtenFields
    · refine Json.isTextOf_writeArray ?_
      rw [List.forall₂_map_left_iff, List.forall₂_map_right_iff, List.forall₂_same]
      exact fun e _ => e.isTextOf_toText

namespace AgentClient

variable {r : HttpReply} {entries : List AgentEntry} {lastIndex : Nat}

theorem listOfBytes?_of_isReplyOf (hr : r.IsReplyOf entries lastIndex)
    (hversions : ∀ e ∈ entries, e.modifyIndex ≤ Decimal.maxU64) :
    AgentEntry.listOfBytes? r.body = some entries := by
  obtain ⟨vs, hobjects, hbody⟩ := hr.body
  rw [AgentEntry.listOfBytes?, Json.ofBytes?_of_isTextOf hbody]
  exact AgentEntry.mapM_ofJson? hobjects hversions

theorem entriesOf_of_isReplyOf (hr : r.IsReplyOf entries lastIndex)
    (hversions : ∀ e ∈ entries, e.modifyIndex ≤ Decimal.maxU64) :
    entriesOf r = entries.mapM AgentEntry.toEntry := by
  have hsuccess : Status.isSuccess r.status = true := by rw [hr.status]; rfl
  rw [entriesOf, if_pos hsuccess, listOfBytes?_of_isReplyOf hr hversions]

theorem indexOf_of_isReplyOf (hr : r.IsReplyOf entries lastIndex)
    (hindex : lastIndex ≤ Decimal.maxU64) : indexOf r = .ok lastIndex := by
  have hdigits : ∀ k < 0x80, Decimal.isDigit (Char.ofNat k) = true →
      Http.isTextByte (UInt8.ofNat k) = true := by decide
  have hvisible : (Bytes.ofText (toString lastIndex)).all Http.isTextByte = true := by
    rw [Nat.toString_eq_ofList_toDigits, Bytes.ofText_ascii fun c hc =>
      Decimal.toNat_lt_of_isDigit (Decimal.isDigit_of_mem_toDigits hc), List.all_eq_true]
    intro b hb
    obtain ⟨c, hc, rfl⟩ := List.mem_map.mp hb
    have hdigit := Decimal.isDigit_of_mem_toDigits hc
    exact hdigits _ (Decimal.toNat_lt_of_isDigit hdigit) (by rwa [Char.ofNat_toNat])
  have htext : r.headers.text? indexHeader = some (toString lastIndex) := by
    rw [Http.Headers.text?, hr.index]
    simp only [hvisible, if_true, Bytes.toText?_ofText]
  rw [indexOf, hr.index, htext, Option.bind_some, Decimal.readUpTo?_toString hindex]

/-! ## Reads -/

/-- The call that reads a key. -/
def readCall (a : AgentClient) (key : String) : HttpCall := ⟨"GET", a.keyUrl key, []⟩

/-- The call that reads the listing of a stem, with more parameters for the agent. -/
def listCall (a : AgentClient) (stem : String) (params : List (String × String)) : HttpCall :=
  ⟨"GET", withParams (a.keyUrl stem) (("recurse", "true") :: params), []⟩

/-- The parameters that ask the agent to wait. -/
def waitParams (cursor wait : Nat) : List (String × String) :=
  [("index", toString cursor), ("wait", s!"{max 1 (wait / 1000)}s")]

/-- What every read gives whose one call is answered with `r`: one listing, and of a key its
entry in this listing. -/
structure Reads (a : AgentClient) (t : Transport) (r : HttpReply) (listing : Listing) : Prop where
  list : ∀ stem, t (a.listCall stem []) = some r → a.list t stem = .ok listing
  listWait : ∀ stem cursor wait, t (a.listCall stem (waitParams cursor wait)) = some r →
    a.listWait t stem cursor wait = .ok listing
  get : ∀ key, t (a.readCall key) = some r →
    a.get t key = .ok (listing.entries.find? (·.key = key))

/-- Every read whose one call is answered with `r` fails with one error. -/
structure Fails (a : AgentClient) (t : Transport) (r : HttpReply) (why : StoreError) : Prop where
  list : ∀ stem, t (a.listCall stem []) = some r → a.list t stem = .error why
  listWait : ∀ stem cursor wait, t (a.listCall stem (waitParams cursor wait)) = some r →
    a.listWait t stem cursor wait = .error why
  get : ∀ key, t (a.readCall key) = some r → a.get t key = .error why

/-- An answer of status 200 is read through its index and its entries, both at most once. -/
theorem listWith_of_answer {a : AgentClient} {t : Transport} {stem : String}
    {params : List (String × String)} (ht : t (a.listCall stem params) = some r)
    (hr : r.IsReplyOf entries lastIndex) (hindex : lastIndex ≤ Decimal.maxU64)
    (hversions : ∀ e ∈ entries, e.modifyIndex ≤ Decimal.maxU64) :
    a.listWith t stem params =
      (entries.mapM AgentEntry.toEntry).map fun found => ⟨found, lastIndex⟩ := by
  have hreply : reply t (a.listCall stem params) = .ok r := by rw [reply, ht]
  have hfound : r.status ≠ 404 := by rw [hr.status]; decide
  show (reply t (a.listCall stem params)).bind listingOf = _
  rw [hreply, Except.bind, listingOf, indexOf_of_isReplyOf hr hindex,
    entriesOf_of_isReplyOf hr hversions]
  simp only [bind, Except.bind, if_neg hfound]
  cases entries.mapM AgentEntry.toEntry <;> rfl

theorem get_of_answer {a : AgentClient} {t : Transport} {key : String}
    (ht : t (a.readCall key) = some r) (hr : r.IsReplyOf entries lastIndex)
    (hversions : ∀ e ∈ entries, e.modifyIndex ≤ Decimal.maxU64) :
    a.get t key = (entries.mapM AgentEntry.toEntry).map fun found =>
      found.find? (·.key = key) := by
  have hreply : reply t (a.readCall key) = .ok r := by rw [reply, ht]
  have hfound : r.status ≠ 404 := by rw [hr.status]; decide
  show (reply t (a.readCall key)).bind _ = _
  rw [hreply, Except.bind, if_neg hfound, entriesOf_of_isReplyOf hr hversions]
  cases entries.mapM AgentEntry.toEntry <;> rfl

/-- Keys that differ leave no choice of the entry of a key. -/
theorem find?_eq_some_iff_of_distinct {entries : List Entry}
    (hkeys : entries.Pairwise fun d e => d.key ≠ e.key) (key : String) (e : Entry) :
    entries.find? (·.key = key) = some e ↔ e ∈ entries ∧ e.key = key := by
  constructor
  · intro h
    have hkey := List.find?_some h
    exact ⟨List.mem_of_find?_eq_some h, of_decide_eq_true hkey⟩
  · rintro ⟨he, rfl⟩
    induction hkeys with
    | nil => cases he
    | @cons d rest hd _ ih =>
      rcases List.mem_cons.mp he with rfl | he
      · simp
      · rw [List.find?_cons_of_neg (by simpa using hd e he)]
        exact ih he

/-- A listing is read back from every answer that stands for it: by `list` and `listWait` with
the same entries in the same order and the same index, and by `get` as the entry of the key, or
as none if there is no such entry. If the value of any entry is no Base64, every read fails, with
an error that names the first such entry, and gives nothing of the others. -/
theorem listings_are_read_back (a : AgentClient) (t : Transport) (r : HttpReply)
    (entries : List AgentEntry) (lastIndex : Nat) (hr : r.IsReplyOf entries lastIndex)
    (hindex : lastIndex ≤ Decimal.maxU64)
    (hversions : ∀ e ∈ entries, e.modifyIndex ≤ Decimal.maxU64) :
    (∀ listing : Listing, entries = listing.entries.map AgentEntry.ofEntry →
      lastIndex = listing.lastIndex →
        Reads a t r listing ∧
        (listing.entries.Pairwise (fun d e => d.key ≠ e.key) →
          ∀ key, t (a.readCall key) = some r → ∃ found, a.get t key = .ok found ∧
            ∀ e, found = some e ↔ e ∈ listing.entries ∧ e.key = key)) ∧
    ((∃ e ∈ entries, e.IsGarbled) →
      ∃ e why, AgentEntry.IsFirstGarbled entries e ∧
        Fails a t r (.decode (.value e.key why))) := by
  constructor
  · rintro listing rfl rfl
    have hdecoded := AgentEntry.mapM_toEntry_ofEntry listing.entries
    have hget : ∀ key, t (a.readCall key) = some r →
        a.get t key = .ok (listing.entries.find? (·.key = key)) := by
      intro key ht
      rw [get_of_answer ht hr hversions, hdecoded]
      rfl
    have hlist : ∀ stem params, t (a.listCall stem params) = some r →
        a.listWith t stem params = .ok listing := by
      intro stem params ht
      rw [listWith_of_answer ht hr hindex hversions, hdecoded]
      rfl
    refine ⟨⟨fun stem => hlist stem [], fun stem cursor wait => hlist stem _, hget⟩, ?_⟩
    intro hkeys key ht
    exact ⟨_, hget key ht, find?_eq_some_iff_of_distinct hkeys key⟩
  · intro hgarbled
    obtain ⟨e, why, hfirst, hread⟩ := AgentEntry.mapM_toEntry_of_isGarbled hgarbled
    have hlist : ∀ stem params, t (a.listCall stem params) = some r →
        a.listWith t stem params = .error (.decode (.value e.key why)) := by
      intro stem params ht
      rw [listWith_of_answer ht hr hindex hversions, hread]
      rfl
    refine ⟨e, why, hfirst, fun stem => hlist stem [], fun stem cursor wait => hlist stem _, ?_⟩
    intro key ht
    rw [get_of_answer ht hr hversions, hread]
    rfl

/-- An agent on this machine. -/
def onThisMachine : AgentClient :=
  ⟨⟨"http", "", "", .domain "localhost", some 8500, [""], none, none⟩⟩

/-- A key with a value, and one without. -/
def settings : Listing :=
  ⟨[⟨"Acm/a", Bytes.ofText "\x7b\x22x\x22:1\x7d", 9⟩, ⟨"Acm/dir/", [], 3⟩], 12⟩

/-- The settings as the agent answers them. -/
def answer : HttpReply :=
  .ofEntries (settings.entries.map AgentEntry.ofEntry) settings.lastIndex

/-- The same answer, but for a value of three asterisks. -/
def garbledAnswer : HttpReply :=
  .ofEntries [⟨"Acm/a", some "***", 9⟩, ⟨"Acm/dir/", none, 3⟩] 12

/-- The settings are read back as a listing and key by key, and not at all once one value is
garbled. -/
theorem settings_are_read_back :
    Reads onThisMachine (fun _ => some answer) answer settings ∧
      (∃ found, onThisMachine.get (fun _ => some answer) "Acm/dir/" = .ok found ∧
        ∀ e, found = some e ↔ e ∈ settings.entries ∧ e.key = "Acm/dir/") ∧
      ∃ e why, AgentEntry.IsFirstGarbled
          [⟨"Acm/a", some "***", 9⟩, ⟨"Acm/dir/", none, 3⟩] e ∧
        Fails onThisMachine (fun _ => some garbledAnswer) garbledAnswer
          (.decode (.value e.key why)) := by
  have hgarbled : AgentEntry.IsGarbled ⟨"Acm/a", some "***", 9⟩ := by
    refine ⟨"***", rfl, fun bs ht => ?_⟩
    have hread := (Base64.decode_ofText_iff "***" bs).mpr ht
    have hfails : Base64.decode (Bytes.ofText "***") = .error (.invalidByte 0 0x2A) := by decide
    rw [hfails] at hread
    cases hread
  have hsettings := listings_are_read_back onThisMachine (fun _ => some answer) answer
    (settings.entries.map AgentEntry.ofEntry) settings.lastIndex
    (HttpReply.isReplyOf_ofEntries _ _) (by decide) (by decide)
  have hstars := listings_are_read_back onThisMachine (fun _ => some garbledAnswer) garbledAnswer
    [⟨"Acm/a", some "***", 9⟩, ⟨"Acm/dir/", none, 3⟩] 12
    (HttpReply.isReplyOf_ofEntries _ _) (by decide) (by decide)
  obtain ⟨hreads, hkeys⟩ := hsettings.1 settings rfl rfl
  exact ⟨hreads, hkeys (by decide) "Acm/dir/" rfl, hstars.2 ⟨_, List.mem_cons_self, hgarbled⟩⟩

end AgentClient

end AdmissionGate
