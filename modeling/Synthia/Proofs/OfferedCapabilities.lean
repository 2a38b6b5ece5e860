import Synthia.Integrations.Catalogue
import Synthia.Lib.Exceptions
import Mathlib.Data.String.Basic

/-!
# What is offered and what can be invoked

The listing joins every version of a capability with an entitlement that names none; the
re-check looks for the version in force. They agree where an entitled capability has one
version. A version that has been superseded is listed as entitled for good, and refused for
good.

The listing has an end of its own besides: one row whose identifier is blank, and nothing is
listed at all, whatever the re-check would permit.
-/

namespace Synthia.Integrations

open Relational Text

section Offers

variable {κ : Type*} [LinearOrder κ] {collation : String → κ} {views : PublishedViews}
  {registry : ConnectorRegistry} {tenantId : TenantId} {identity : OperationIdentity}

/-! ## The re-check -/

/-- No version of the row's capability is newer. -/
def InForce (views : PublishedViews) (row : CapabilityRow) : Prop :=
  ∀ other ∈ views.governance.rows, other.catalogueId = row.catalogueId →
    other.version ≤ row.version

theorem registeredVersion_eq_some_iff {catalogueId : String} {version : Int} :
    views.catalogue.registeredVersion catalogueId = some version ↔
      ∃ row ∈ views.governance.rows, row.identity = ⟨catalogueId, version⟩ ∧
        InForce views row := by
  have hmem : ∀ number, number ∈ (views.catalogue.governance.filter fun row =>
      row.catalogueId == catalogueId).map GovernanceCatalogueRow.version ↔
      ∃ row ∈ views.governance.rows, row.identity = ⟨catalogueId, number⟩ := by
    intro number
    simp [PublishedViews.catalogue, CapabilityRow.identity, and_assoc]
  unfold CatalogueRepository.registeredVersion
  rw [List.max?_eq_some_iff, hmem]
  constructor
  · intro h
    obtain ⟨⟨row, hrow, hidentity⟩, hgreatest⟩ := h
    refine ⟨row, hrow, hidentity, fun other hother hsame => ?_⟩
    injection hidentity with hid hversion
    rw [hversion]
    exact hgreatest _ ((hmem _).mpr
      ⟨other, hother, by rw [CapabilityRow.identity, hsame, hid]⟩)
  · intro h
    obtain ⟨row, hrow, hidentity, hforce⟩ := h
    refine ⟨⟨row, hrow, hidentity⟩, fun number hnumber => ?_⟩
    obtain ⟨other, hother, hsame⟩ := (hmem number).mp hnumber
    injection hidentity with hid hversion
    injection hsame with hotherId hotherVersion
    rw [← hversion, ← hotherVersion]
    exact hforce other hother (hotherId.trans hid.symm)

/-- The three refusals that are not for want of a binding are for want of an entitlement or
of the version. -/
theorem refusal_noBinding_iff {catalogue : CatalogueRepository} :
    (∀ refusal ∈ (AccessPolicy.evaluate catalogue registry tenantId identity).refusal,
        refusal = .noBinding) ↔
      catalogue.isEntitled tenantId identity.catalogueId = true ∧
        catalogue.registeredVersion identity.catalogueId = some identity.version := by
  unfold AccessPolicy.evaluate
  cases catalogue.isEntitled tenantId identity.catalogueId with
  | false => simp [AccessDecision.refuse]
  | true =>
      cases catalogue.registeredVersion identity.catalogueId with
      | none => simp [AccessDecision.refuse]
      | some registered =>
          by_cases hversion : registered = identity.version
          · cases registry.bindingFor identity <;>
              simp [hversion, AccessDecision.refuse, AccessDecision.allow]
          · simp [hversion, AccessDecision.refuse]

theorem permitted_iff {catalogue : CatalogueRepository} :
    (AccessPolicy.evaluate catalogue registry tenantId identity).permitted = true ↔
      catalogue.isEntitled tenantId identity.catalogueId = true ∧
        catalogue.registeredVersion identity.catalogueId = some identity.version ∧
        (registry.bindingFor identity).isSome = true := by
  unfold AccessPolicy.evaluate
  cases catalogue.isEntitled tenantId identity.catalogueId with
  | false => simp [AccessDecision.refuse, AccessDecision.permitted]
  | true =>
      cases catalogue.registeredVersion identity.catalogueId with
      | none => simp [AccessDecision.refuse, AccessDecision.permitted]
      | some registered =>
          by_cases hversion : registered = identity.version
          · cases registry.bindingFor identity <;>
              simp [hversion, AccessDecision.refuse, AccessDecision.allow,
                AccessDecision.permitted]
          · simp [hversion, AccessDecision.refuse, AccessDecision.permitted]

/-! ## The listing -/

def Blank (catalogueId : String) : Prop := strip (ofString catalogueId) = []

/-- Every row of the catalogue has an identifier to be listed by. -/
def Listable (views : PublishedViews) : Prop :=
  ∀ row ∈ views.governance.rows, ¬ Blank row.catalogueId

theorem capabilityIdentity_eq_ok_iff {catalogueId : String} {version : Int} :
    capabilityIdentity catalogueId version = .ok identity ↔
      ¬ Blank catalogueId ∧ 1 ≤ version ∧ identity = ⟨catalogueId, version⟩ := by
  unfold capabilityIdentity Blank
  split
  next hblank => simp [hblank]
  next hnamed =>
    split
    next hbelow =>
      refine iff_of_false (by simp) fun h => ?_
      omega
    next hversion =>
      rw [Except.ok.injEq, eq_comm]
      exact ⟨fun h => ⟨hnamed, by omega, h⟩, fun h => h.2.2⟩

/-- What a row of the catalogue is shown as. -/
def shown (views : PublishedViews) (tenantId : TenantId) (row : CapabilityRow) :
    Capability where
  identity := row.identity
  kind := row.kind
  entitled := views.catalogue.isEntitled tenantId row.catalogueId
  available := true
  isReferenceFixture := row.isReferenceFixture

/-- An organisation has one entitlement to a capability at most. -/
theorem countP_entitlementOn_le (row : CapabilityRow) :
    views.entitlements.rows.countP (PublishedViews.entitlementOn tenantId row) ≤ 1 := by
  have hcount := List.nodup_iff_count_le_one.mp views.entitlements.unique
    (tenantId, row.catalogueId)
  rw [List.count, List.countP_map] at hcount
  refine le_of_eq_of_le (List.countP_congr fun entitlement _ => ?_) hcount
  simp [PublishedViews.entitlementOn, and_comm]

theorem capabilityOf_eq {row : CapabilityRow} (hrow : row ∈ views.governance.rows)
    (hnamed : ¬ Blank row.catalogueId) :
    PublishedViews.capabilityOf row
        (views.entitlements.rows.find? (PublishedViews.entitlementOn tenantId row)) =
      .ok (shown views tenantId row) := by
  have hidentity : capabilityIdentity row.catalogueId row.version = .ok row.identity :=
    capabilityIdentity_eq_ok_iff.mpr ⟨hnamed, views.versionsStartAtOne row hrow, rfl⟩
  have hentitled : ((views.entitlements.rows.find?
      (PublishedViews.entitlementOn tenantId row)).map TenantEntitlementRow.enabled).getD false =
      views.catalogue.isEntitled tenantId row.catalogueId := by
    have hpred : PublishedViews.entitlementOn tenantId row = fun entitlement =>
        entitlement.tenantId == tenantId && entitlement.catalogueId == row.catalogueId :=
      funext fun entitlement => Bool.and_comm _ _
    unfold CatalogueRepository.isEntitled
    rw [hpred]
    split
    next found hfound =>
      rw [show views.entitlements.rows.find? _ = _ from hfound]
      rfl
    next hnone =>
      rw [show views.entitlements.rows.find? _ = _ from hnone]
      rfl
  unfold PublishedViews.capabilityOf
  rw [hidentity, hentitled]
  rfl

/-- What is listed are the rows of the catalogue, each as it is shown. -/
theorem capabilitiesFor_perm (collation : String → κ) (tenantId : TenantId)
    (h : Listable views) :
    ∃ listed, views.capabilitiesFor collation tenantId = .ok listed ∧
      listed.Perm (views.governance.rows.map (shown views tenantId)) := by
  unfold PublishedViews.capabilitiesFor
  rw [leftJoin_eq_map countP_entitlementOn_le]
  refine ⟨_, Exceptions.mapM_eq_map (g := fun pair => shown views tenantId pair.1)
    fun pair hpair => ?_, ?_⟩
  · obtain ⟨row, hrow, rfl⟩ := List.mem_map.mp (mem_orderBy.mp hpair)
    exact capabilityOf_eq hrow (h row hrow)
  · have hperm := (orderBy_perm (PublishedViews.listingKey collation)
      (views.governance.rows.map fun row => (row, views.entitlements.rows.find?
        (PublishedViews.entitlementOn tenantId row)))).map
        fun pair => shown views tenantId pair.1
    rwa [List.map_map] at hperm

theorem listable_of_eq_ok {listed : List Capability}
    (h : views.capabilitiesFor collation tenantId = .ok listed) : Listable views := by
  intro row hrow hblank
  have hpair : (row, views.entitlements.rows.find?
      (PublishedViews.entitlementOn tenantId row)) ∈
      leftJoin (PublishedViews.entitlementOn tenantId) views.governance.rows
        views.entitlements.rows := by
    rw [leftJoin_eq_map countP_entitlementOn_le]
    exact List.mem_map_of_mem hrow
  obtain ⟨capability, hcapability⟩ :=
    Exceptions.mapM_isOk.mp ⟨listed, h⟩ _ (mem_orderBy.mpr hpair)
  obtain ⟨identity, hidentity, -⟩ := Exceptions.map_eq_ok.mp hcapability
  exact (capabilityIdentity_eq_ok_iff.mp hidentity).1 hblank

/-! ## Offers -/

/-- What is listed as entitled is not refused but for want of a binding, and what is
permitted is listed as entitled once. -/
structure Offered (collation : String → κ) (views : PublishedViews)
    (registry : ConnectorRegistry) (tenantId : TenantId) : Prop where
  invocable : ∀ listed, views.capabilitiesFor collation tenantId = .ok listed →
    ∀ capability ∈ listed, capability.entitled = true →
      ∀ refusal ∈ (AccessPolicy.evaluate views.catalogue registry tenantId
        capability.identity).refusal, refusal = .noBinding
  listed : ∀ identity,
    capabilityIdentity identity.catalogueId identity.version = .ok identity →
    (AccessPolicy.evaluate views.catalogue registry tenantId identity).permitted = true →
    ∃ listed, views.capabilitiesFor collation tenantId = .ok listed ∧
      (listed.countP fun capability =>
        capability.identity == identity && capability.entitled) = 1

/-- What the organisation is entitled to has one version. -/
def SingleVersion (views : PublishedViews) (tenantId : TenantId) : Prop :=
  ∀ row ∈ views.governance.rows,
    views.catalogue.isEntitled tenantId row.catalogueId = true →
      ∀ other ∈ views.governance.rows, other.catalogueId = row.catalogueId →
        other.version = row.version

/-- Nothing the organisation is entitled to has a binding at the version in force. -/
def Unbound (views : PublishedViews) (registry : ConnectorRegistry) (tenantId : TenantId) :
    Prop :=
  ∀ row ∈ views.governance.rows, ¬ Blank row.catalogueId →
    views.catalogue.isEntitled tenantId row.catalogueId = true → InForce views row →
      registry.bindingFor row.identity = none

theorem Offered.inForce (h : Offered collation views registry tenantId)
    (hlistable : Listable views) {row : CapabilityRow} (hrow : row ∈ views.governance.rows)
    (hentitled : views.catalogue.isEntitled tenantId row.catalogueId = true) :
    InForce views row := by
  obtain ⟨listed, hlisted, hperm⟩ := capabilitiesFor_perm collation tenantId hlistable
  have hshown : shown views tenantId row ∈ listed :=
    hperm.mem_iff.mpr (List.mem_map_of_mem hrow)
  have hregistered :=
    (refusal_noBinding_iff.mp (h.invocable listed hlisted _ hshown hentitled)).2
  obtain ⟨newest, hnewest, hsame, hforce⟩ := registeredVersion_eq_some_iff.mp hregistered
  rwa [views.governance.eq_of_key hnewest hrow hsame] at hforce

theorem refusal_of_single (h : SingleVersion views tenantId) {row : CapabilityRow}
    (hrow : row ∈ views.governance.rows)
    (hentitled : views.catalogue.isEntitled tenantId row.catalogueId = true) :
    ∀ refusal ∈ (AccessPolicy.evaluate views.catalogue registry tenantId row.identity).refusal,
      refusal = .noBinding := by
  have hforce : InForce views row := fun other hother hsame =>
    (h row hrow hentitled other hother hsame).le
  exact refusal_noBinding_iff.mpr
    ⟨hentitled, registeredVersion_eq_some_iff.mpr ⟨row, hrow, rfl, hforce⟩⟩

/-- A row of a catalogue that is listed is listed once. -/
theorem countP_listed {listed : List Capability}
    (hperm : listed.Perm (views.governance.rows.map (shown views tenantId)))
    {row : CapabilityRow} (hrow : row ∈ views.governance.rows)
    (hentitled : views.catalogue.isEntitled tenantId row.catalogueId = true) :
    (listed.countP fun capability =>
      capability.identity == row.identity && capability.entitled) = 1 := by
  have hcount : (views.governance.rows.map CapabilityRow.identity).count row.identity = 1 :=
    List.count_eq_one_of_mem views.governance.unique (List.mem_map_of_mem hrow)
  rw [hperm.countP_eq, List.countP_map, ← hcount, List.count, List.countP_map]
  refine List.countP_congr fun other _ => ?_
  simp only [Function.comp_apply, shown, Bool.and_eq_true, beq_iff_eq, and_iff_left_iff_imp]
  intro hsame
  have hid : other.catalogueId = row.catalogueId := congrArg OperationIdentity.catalogueId hsame
  rwa [hid]

/-- **Offered capabilities.** The listing and the re-check agree exactly where nothing
entitled has a second version, or where the listing fails and there was nothing to permit. -/
theorem offered_iff {κ : Type*} [LinearOrder κ] (collation : String → κ)
    (views : PublishedViews) (registry : ConnectorRegistry) (tenantId : TenantId) :
    Offered collation views registry tenantId ↔
      (Listable views ∧ SingleVersion views tenantId) ∨
        (¬ Listable views ∧ Unbound views registry tenantId) := by
  by_cases hlistable : Listable views
  · obtain ⟨listed, hlisted, hperm⟩ := capabilitiesFor_perm collation tenantId hlistable
    rw [or_iff_left (fun h => h.1 hlistable), and_iff_right hlistable]
    constructor
    · intro h row hrow hentitled other hother hsame
      have hforce := h.inForce hlistable hrow hentitled
      have hother_force := h.inForce hlistable hother (by rwa [hsame])
      exact le_antisymm (hforce other hother hsame) (hother_force row hrow hsame.symm)
    · intro h
      constructor
      · intro offered hoffered capability hcapability hentitled
        rw [hlisted] at hoffered
        injection hoffered with hoffered
        rw [← hoffered, hperm.mem_iff] at hcapability
        obtain ⟨row, hrow, rfl⟩ := List.mem_map.mp hcapability
        exact refusal_of_single h hrow hentitled
      · intro identity _ hpermitted
        obtain ⟨hentitled, hregistered, -⟩ := permitted_iff.mp hpermitted
        obtain ⟨row, hrow, hsame, -⟩ := registeredVersion_eq_some_iff.mp hregistered
        obtain rfl : identity = row.identity := hsame.symm
        exact ⟨listed, hlisted, countP_listed hperm hrow hentitled⟩
  · rw [or_iff_right (fun h => hlistable h.1), and_iff_right hlistable]
    constructor
    · intro h row hrow hnamed hentitled hforce
      by_contra hbound
      have hidentity : capabilityIdentity row.catalogueId row.version = .ok row.identity :=
        capabilityIdentity_eq_ok_iff.mpr ⟨hnamed, views.versionsStartAtOne row hrow, rfl⟩
      obtain ⟨listed, hlisted, -⟩ := h.listed row.identity hidentity (permitted_iff.mpr
        ⟨hentitled, registeredVersion_eq_some_iff.mpr ⟨row, hrow, rfl, hforce⟩,
          Option.isSome_iff_ne_none.mpr hbound⟩)
      exact hlistable (listable_of_eq_ok hlisted)
    · intro h
      constructor
      · intro listed hlisted
        exact absurd (listable_of_eq_ok hlisted) hlistable
      · intro identity hidentity hpermitted
        obtain ⟨hentitled, hregistered, hbound⟩ := permitted_iff.mp hpermitted
        obtain ⟨row, hrow, hsame, hforce⟩ := registeredVersion_eq_some_iff.mp hregistered
        obtain rfl : identity = row.identity := hsame.symm
        rw [h row hrow (capabilityIdentity_eq_ok_iff.mp hidentity).1 hentitled hforce] at hbound
        cases hbound

end Offers

/-- A capability with two versions, and an organisation entitled to it. -/
def revisedViews : PublishedViews where
  entitlements := ⟨[⟨⟨1⟩, "ticket.create", true⟩], by decide⟩
  governance := ⟨[⟨⟨"ticket.create", 1, .action⟩, false⟩, ⟨⟨"ticket.create", 2, .action⟩, false⟩],
    by decide⟩
  versionsStartAtOne := by decide

theorem not_offered_revised : ¬ ∀ (views : PublishedViews) (registry : ConnectorRegistry)
    (tenantId : TenantId), Offered id views registry tenantId := by
  intro h
  have hlisted : revisedViews.capabilitiesFor id ⟨1⟩ =
      .ok [⟨⟨"ticket.create", 1⟩, .action, true, true, false⟩,
        ⟨⟨"ticket.create", 2⟩, .action, true, true, false⟩] := by
    decide +kernel
  have hrefused : (AccessPolicy.evaluate revisedViews.catalogue ⟨[], []⟩ ⟨1⟩
      ⟨"ticket.create", 1⟩).refusal = some .versionMismatch := by
    decide +kernel
  have hnoBinding := (h revisedViews ⟨[], []⟩ ⟨1⟩).invocable _ hlisted _ List.mem_cons_self rfl
    .versionMismatch hrefused
  cases hnoBinding

end Synthia.Integrations
