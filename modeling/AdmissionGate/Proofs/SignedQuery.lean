-- Queries that the operator's program signs. Whatever parameters it is given,
-- the service reads them back from the query with the signature that it asks
-- for.
import AdmissionGate.CommandLine.Run
import AdmissionGate.Http.Service
import AdmissionGate.Proofs.Text.FormEncoding

namespace AdmissionGate.CommandLine

variable {params : Params} {now : Moment}

/-! ## What is signed -/

theorem find?_withTimestamp (name : String) : (withTimestamp params now).find? name =
    if name = Params.timestamp then some ((params.find? Params.timestamp).getD (toString now))
    else params.find? name := by
  unfold withTimestamp
  cases h : params.find? Params.timestamp with
  | none =>
    rw [if_neg (by simp [Table.holds_eq, h]), Table.find?_insert]
    simp [@eq_comm _ name]
  | some t =>
    rw [if_pos (by simp [Table.holds_eq, h])]
    split
    next hname => rw [hname, h]; rfl
    next => rfl

theorem find?_withTimestamp_of_some {name value : String} (h : params.find? name = some value) :
    (withTimestamp params now).find? name = some value := by
  rw [find?_withTimestamp]
  split
  next hname => rw [← hname, h]; rfl
  next => exact h

/-! ## What is read -/

/-- The parameters that the service reads from a signed query. -/
def readBack (settings : FirewallSettings) (params : Params) (now : Moment) : Params :=
  Table.ofList (FormEncoding.read (signedQuery settings params now))

/-- The signer that the program and the service both make from these settings. -/
def signerOf (settings : FirewallSettings) : Signer :=
  Signer.make settings.signedFields settings.defaultSalt settings.salts

/-- The signature is read as it was made, although one may have been given, and every other
parameter as it was signed. -/
theorem find?_readBack (settings : FirewallSettings) (name : String) :
    (readBack settings params now).find? name =
      if name = Params.signature then some ((signerOf settings).sign (withTimestamp params now))
      else (withTimestamp params now).find? name := by
  rw [readBack, signedQuery, FormEncoding.read_write, Table.ofList_snoc, Table.find?_insert,
    Table.find?_ofList_map]
  refine ite_congr (propext eq_comm) (fun _ => rfl) fun _ => ?_
  simp only [Names.mem_sort, Table.mem_keys_iff, Params.value]
  cases (withTimestamp params now).find? name <;> rfl

theorem sign_readBack {settings : FirewallSettings}
    (hfields : Params.signature ∉ settings.signedFields) :
    (signerOf settings).sign (readBack settings params now) =
      (signerOf settings).sign (withTimestamp params now) := by
  have hother : ∀ name, name ≠ Params.signature →
      (readBack settings params now).find? name = (withTimestamp params now).find? name := by
    intro name hname
    rw [find?_readBack, if_neg hname]
  rw [Signer.sign, Signer.sign, Signer.signingString_congr]
  · intro name hname
    have hne : name ≠ Params.signature := by
      rintro rfl
      exact hfields ((Names.mem_sort _ _).mp hname)
    rw [Params.value, Params.value, hother name hne]
  · exact Signer.saltFor_congr (hother _ (by decide))

theorem verify_readBack {settings : FirewallSettings}
    (hfields : Params.signature ∉ settings.signedFields) :
    (signerOf settings).verify (readBack settings params now) = true := by
  rw [Signer.verify, beq_iff_eq, sign_readBack hfields, Params.value, find?_readBack, if_pos rfl]
  rfl

/-! ## The service -/

/-- The query that the program prints is read by a service with the same settings as a query
that carries its signature, each given parameter with its last value, unless it is called as
the signature is, and the present time for a timestamp that is not given. -/
theorem signed_query_accepted (s : Settings) (params : List (String × String)) (now : Moment)
    (hfields : Params.signature ∉ s.firewall.signedFields) :
    let q := signedQuery s.firewall (Table.ofList params) now
    (∀ env config, settingsOf env config = .ok s → env.now = now →
      carryOut env ⟨config, .sign params⟩ = .ok (.line q)) ∧
    ∀ (built : Moment) (peer : Ip) (r : Http.Request) (body : Bytes), r.target.query = some q →
      let service := Http.Service.start s built
      let query := (service.visit peer r body).query
      service.firewall.signer.verify query = true ∧
      (∀ name value before after, params = before ++ (name, value) :: after →
        (∀ p ∈ after, p.1 ≠ name) → name ≠ Params.signature → query.find? name = some value) ∧
      ((∀ p ∈ params, p.1 ≠ Params.timestamp) →
        query.find? Params.timestamp = some (toString now)) := by
  intro q
  constructor
  · rintro env config hsettings rfl
    unfold carryOut
    rw [hsettings]
    rfl
  · intro built peer r body htarget service query
    have hquery : query = readBack s.firewall (Table.ofList params) now := by
      simp only [query, Http.Service.visit, htarget]
      rfl
    refine ⟨?_, ?_, ?_⟩
    · rw [hquery]
      exact verify_readBack hfields
    · rintro name value before after rfl hafter hname
      rw [hquery, find?_readBack, if_neg hname,
        find?_withTimestamp_of_some (Table.find?_ofList_last hafter)]
    · intro hnone
      rw [hquery, find?_readBack, if_neg (by decide), find?_withTimestamp, if_pos rfl,
        Table.find?_ofList_none hnone]
      rfl

/-- A parameter given twice with characters that separate pairs, and a signature of the
caller's own. -/
theorem foreign_signature_replaced :
    Params.signature ∉ ({} : Settings).firewall.signedFields ∧
      let q := signedQuery {} (Table.ofList
        [("package", "x"), ("_sign", "mine"), ("package", "a&b=é +%")]) 1700000000
      let service := Http.Service.start {} 0
      let query := (service.visit (.v4 ⟨203, 0, 113, 9⟩)
        ⟨"GET", ⟨"/ping", some q⟩, [], some []⟩ []).query
      service.firewall.signer.verify query = true ∧ query.find? "package" = some "a&b=é +%" ∧
        query.find? "_timestamp" = some (toString (1700000000 : Moment)) := by
  refine ⟨by decide, ?_⟩
  obtain ⟨hverify, hlast, htimestamp⟩ := (signed_query_accepted {}
    [("package", "x"), ("_sign", "mine"), ("package", "a&b=é +%")] 1700000000 (by decide)).2
    0 (.v4 ⟨203, 0, 113, 9⟩) ⟨"GET", ⟨"/ping", _⟩, [], some []⟩ [] rfl
  exact ⟨hverify, hlast "package" "a&b=é +%" [("package", "x"), ("_sign", "mine")] [] rfl (by simp)
    (by decide), htimestamp (by decide)⟩

end AdmissionGate.CommandLine
