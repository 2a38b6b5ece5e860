import Synthia.Persistence.Governance
import Synthia.Proofs.Grounding

/-!
# Which fact a refusal names

An operation may be unregistered, or registered and not one the organisation is entitled
to. Two queries read the two facts, `classify` reports both of them and the policy has a
reason for each. But the first query joins the second: an entry the organisation is not
entitled to is not found at all. So whether the entry was found says that both facts
hold, and the rule for the second never sees an entry.

The two nodes are right wherever the join takes nothing away, and wrong, both of them,
wherever it does.
-/

namespace Synthia

open Relational

/-- A node's collaborators with their catalogue read from these tables. A row that is no
entry makes the lookup raise, and is not looked up in what follows. -/
def GraphDependencies.reading (deps : GraphDependencies) (catalogue : GovernanceTable)
    (entitlements : EntitlementTable) : GraphDependencies :=
  { deps with
    lookup := fun tenant identity =>
      match OperationCatalogue.lookup catalogue entitlements tenant identity with
      | .error _ => none
      | .ok record => record.map CatalogueRecord.toCatalogueEntry
    isEntitled := OperationCatalogue.isEntitled entitlements }

/-- A catalogue row of this identity exists. -/
def Registered (catalogue : GovernanceTable) (identity : OperationIdentity) : Prop :=
  ∃ row ∈ catalogue.rows, row.catalogueId = identity.catalogueId ∧
    row.version = identity.version

/-- An enabled entitlement of the organisation's to this catalogue id exists. -/
def Entitled (entitlements : EntitlementTable) (tenant : TenantContext) (catalogueId : String) :
    Prop :=
  ∃ row ∈ entitlements.rows, row.tenantId = tenant.tenantId ∧ row.catalogueId = catalogueId ∧
    row.enabled = true

/-- `classify` reports each fact as it is, and `govern` records the reason of the fact
that is missing. -/
structure NamesMissing (catalogue : GovernanceTable) (entitlements : EntitlementTable)
    (deps : GraphDependencies) (context : RunContext) (state : AgentState)
    (proposed : ProposedOperationView) : Prop where
  classified : ∃ view,
    classify (deps.reading catalogue entitlements) context state =
      .ok { classification := some (some view) } ∧
    (view.isRegistered = true ↔ Registered catalogue proposed.identity) ∧
    (view.isEntitled = true ↔ Entitled entitlements context.tenant proposed.catalogueId)
  governed : ∃ update result,
    govern (deps.reading catalogue entitlements) context state = .ok update ∧
    update.governance = some result ∧
    (result.treatmentReason = .notInCatalogue ↔ ¬ Registered catalogue proposed.identity) ∧
    (result.treatmentReason = .notEntitled ↔ Registered catalogue proposed.identity ∧
      ¬ Entitled entitlements context.tenant proposed.catalogueId)

section Queries

variable {catalogue : GovernanceTable} {entitlements : EntitlementTable}
  {tenant : TenantContext} {identity : OperationIdentity}

theorem entitles_iff {catalogueId : String} {row : EntitlementRow} :
    OperationCatalogue.entitles tenant catalogueId row = true ↔
      row.tenantId = tenant.tenantId ∧ row.catalogueId = catalogueId ∧ row.enabled = true := by
  unfold OperationCatalogue.entitles
  rw [Bool.and_eq_true, Bool.and_eq_true, beq_iff_eq, beq_iff_eq, and_assoc,
    and_comm (a := row.enabled = true)]

theorem isEntitled_iff {catalogueId : String} :
    OperationCatalogue.isEntitled entitlements tenant catalogueId = true ↔
      Entitled entitlements tenant catalogueId := by
  unfold OperationCatalogue.isEntitled Entitled
  rw [List.find?_isSome]
  simp only [entitles_iff]

theorem find_catalogue_iff :
    (catalogue.find identity).isSome = true ↔ Registered catalogue identity := by
  rw [Option.isSome_iff_exists]
  constructor
  · rintro ⟨row, hfound⟩
    obtain ⟨hrow, hkey⟩ := Table.find_eq_some.mp hfound
    exact ⟨row, hrow, congrArg OperationIdentity.catalogueId hkey,
      congrArg OperationIdentity.version hkey⟩
  · rintro ⟨row, hrow, hcatalogue, hversion⟩
    refine ⟨row, Table.find_eq_some.mpr ⟨hrow, ?_⟩⟩
    rw [hcatalogue, hversion]

/-- What a lookup that does not raise has found is both facts at once. -/
theorem lookup_iff {found : Option CatalogueRecord}
    (h : OperationCatalogue.lookup catalogue entitlements tenant identity = .ok found) :
    found.isSome = true ↔
      Registered catalogue identity ∧ Entitled entitlements tenant identity.catalogueId := by
  rw [← find_catalogue_iff, ← isEntitled_iff]
  unfold OperationCatalogue.lookup at h
  unfold OperationCatalogue.isEntitled
  cases hrow : catalogue.find identity with
  | none =>
      rw [hrow] at h
      injection h with h
      rw [← h]
      simp
  | some row =>
      cases hentitlement : entitlements.rows.find?
          (OperationCatalogue.entitles tenant identity.catalogueId) with
      | none =>
          rw [hrow, hentitlement] at h
          injection h with h
          rw [← h]
          simp
      | some entitlement =>
          rw [hrow, hentitlement] at h
          dsimp only at h
          cases hrecord : CatalogueRecord.recordFromRow row with
          | error error =>
              rw [hrecord] at h
              cases h
          | ok record =>
              rw [hrecord] at h
              injection h with h
              rw [← h]
              simp

end Queries

theorem GraphDependencies.reading_lookup (deps : GraphDependencies)
    {catalogue : GovernanceTable} {entitlements : EntitlementTable} {tenant : TenantContext}
    {identity : OperationIdentity} {found : Option CatalogueRecord}
    (h : OperationCatalogue.lookup catalogue entitlements tenant identity = .ok found) :
    (deps.reading catalogue entitlements).lookup tenant identity =
      found.map CatalogueRecord.toCatalogueEntry := by
  unfold GraphDependencies.reading
  dsimp only
  rw [h]

/-! ## The two nodes -/

section Nodes

variable {deps : GraphDependencies} {context : RunContext} {state : AgentState}
  {proposed : ProposedOperationView}

theorem classify_eq_ok (hproposal : state.proposal = some proposed) :
    ∃ view, classify deps context state = .ok { classification := some (some view) } ∧
      view.isRegistered = (deps.lookup context.tenant proposed.identity).isSome ∧
      view.isEntitled = deps.isEntitled context.tenant proposed.catalogueId := by
  obtain ⟨decision, hdecision⟩ := assignTreatment_total
    (deps.lookup context.tenant proposed.identity)
    (deps.isEntitled context.tenant proposed.catalogueId)
  unfold classify
  rw [hproposal]
  dsimp only
  rw [hdecision]
  exact ⟨_, rfl, rfl, rfl⟩

/-- The reason recorded is the policy's. -/
theorem govern_reason (hproposal : state.proposal = some proposed) :
    ∃ update result decision, govern deps context state = .ok update ∧
      update.governance = some result ∧
      assignTreatment (deps.lookup context.tenant proposed.identity)
        (deps.isEntitled context.tenant proposed.catalogueId) = .ok decision ∧
      result.treatmentReason = decision.reason := by
  obtain ⟨outcome, houtcome, hgovern⟩ := @govern_eq_ok deps context state proposed hproposal
  obtain ⟨decision, hdecision⟩ := assignTreatment_total
    (deps.lookup context.tenant proposed.identity)
    (deps.isEntitled context.tenant proposed.catalogueId)
  exact ⟨_, _, decision, hgovern, rfl, hdecision, (evaluate_treatment hdecision houtcome).2⟩

/-- The policy says an operation is not in the catalogue exactly when it is given no
entry, and not entitled exactly when it is given one and told so. -/
theorem assignTreatment_reason {entry : Option CatalogueEntry} {isEntitled : Bool}
    {decision : TreatmentDecision} (h : assignTreatment entry isEntitled = .ok decision) :
    (decision.reason = .notInCatalogue ↔ entry.isSome = false) ∧
      (decision.reason = .notEntitled ↔ entry.isSome = true ∧ isEntitled = false) := by
  cases entry with
  | none =>
      rw [assignTreatment_none] at h
      injection h with h
      rw [← h]
      simp
  | some found =>
      rw [assignTreatment_some] at h
      injection h with h
      rw [← h]
      cases isEntitled with
      | false => simp
      | true =>
          split
          · next hfalse => cases hfalse
          · split
            · simp
            · split <;> simp

end Nodes

/-- **A refusal names the missing fact unless the join hid the other.** Where the lookup
raises nothing, both nodes tell an unregistered operation from one the organisation is not
entitled to if and only if there is no row of the proposed identity without an enabled
entitlement to it. -/
theorem names_missing_iff {catalogue : GovernanceTable} {entitlements : EntitlementTable}
    {deps : GraphDependencies} {context : RunContext} {state : AgentState}
    {proposed : ProposedOperationView} (hproposal : state.proposal = some proposed)
    (hlookup : ∃ found, OperationCatalogue.lookup catalogue entitlements context.tenant
      proposed.identity = .ok found) :
    NamesMissing catalogue entitlements deps context state proposed ↔
      (Registered catalogue proposed.identity →
        Entitled entitlements context.tenant proposed.catalogueId) := by
  obtain ⟨found, hlookup⟩ := hlookup
  have hentry : ((deps.reading catalogue entitlements).lookup context.tenant
      proposed.identity).isSome = found.isSome := by
    rw [deps.reading_lookup hlookup]
    exact Option.isSome_map
  have hboth := lookup_iff hlookup
  have hentitled : (deps.reading catalogue entitlements).isEntitled context.tenant
      proposed.catalogueId = true ↔ Entitled entitlements context.tenant proposed.catalogueId :=
    isEntitled_iff
  constructor
  · intro h hregistered
    obtain ⟨view, hclassify, hreports, _⟩ := h.classified
    obtain ⟨own, hown, hfound, _⟩ :=
      @classify_eq_ok (deps.reading catalogue entitlements) context state proposed hproposal
    rw [hown] at hclassify
    injection hclassify with hclassify
    have hsame := congrArg AgentUpdate.classification hclassify
    injection hsame with hsame
    injection hsame with hsame
    rw [← hsame, hfound, hentry, hboth] at hreports
    exact (hreports.mpr hregistered).2
  · intro hjoined
    have hfound : found.isSome = true ↔ Registered catalogue proposed.identity :=
      hboth.trans ⟨fun h => h.1, fun h => ⟨h, hjoined h⟩⟩
    constructor
    · obtain ⟨view, hclassify, hregistered, hreported⟩ :=
        @classify_eq_ok (deps.reading catalogue entitlements) context state proposed hproposal
      refine ⟨view, hclassify, ?_, ?_⟩
      · rw [hregistered, hentry, hfound]
      · rw [hreported, hentitled]
    · obtain ⟨update, result, decision, hgovern, hresult, hdecision, hreason⟩ :=
        @govern_reason (deps.reading catalogue entitlements) context state proposed hproposal
      obtain ⟨hnone, hdenied⟩ := assignTreatment_reason hdecision
      refine ⟨update, result, hgovern, hresult, ?_, ?_⟩
      · rw [hreason, hnone, hentry, ← hfound, Bool.not_eq_true]
      · rw [hreason, hdenied, hentry, hfound, ← hentitled, Bool.not_eq_true]

/-! ### A registered operation, and who may call it -/

namespace SampleCatalogue

def unlockCatalogue : GovernanceTable :=
  ⟨[⟨"unlock_account", 1, .action, .auto, [], false, false, .lowImpact, none, none, none⟩],
    List.nodup_singleton _⟩

def unlockEntitlements : EntitlementTable :=
  ⟨[⟨⟨1⟩, "unlock_account", true⟩], List.nodup_singleton _⟩

def unlockState : AgentState := { proposal := some unlockProposal }

/-- An organisation without the entitlement is told that the operation is not in the
catalogue. -/
theorem unentitled_misnamed :
    (∃ found, OperationCatalogue.lookup unlockCatalogue ⟨[], List.nodup_nil⟩
      unlockContext.tenant unlockProposal.identity = .ok found) ∧
    ¬ NamesMissing unlockCatalogue ⟨[], List.nodup_nil⟩ weakDependencies unlockContext
      unlockState unlockProposal := by
  refine ⟨⟨none, rfl⟩, ?_⟩
  intro h
  obtain ⟨update, result, hgovern, hresult, hregistered, _⟩ := h.governed
  have hreason : (govern (weakDependencies.reading unlockCatalogue ⟨[], List.nodup_nil⟩)
      unlockContext unlockState).toOption.bind
        (fun update => update.governance.map GovernanceResult.treatmentReason) =
          some .notInCatalogue := by decide
  rw [hgovern, Except.toOption, Option.bind_some, hresult, Option.map_some] at hreason
  injection hreason with hreason
  exact hregistered.mp hreason ⟨_, List.mem_singleton.mpr rfl, rfl, rfl⟩

theorem entitled_named :
    NamesMissing unlockCatalogue unlockEntitlements weakDependencies unlockContext unlockState
      unlockProposal :=
  (names_missing_iff rfl ⟨_, rfl⟩).mpr fun _ => ⟨_, List.mem_singleton.mpr rfl, rfl, rfl, rfl⟩

end SampleCatalogue

end Synthia
