import Synthia.Persistence.Erasure

/-!
# Erasing an organisation

The order of the deletions is checked against the declared keys once, by
evaluation: when a table's turn comes, each key that references it cascades or
belongs to a table already erased. The rest is what is true of such an order in any
schema. No statement is refused and every reference resolves after each; the erased
tables are rid of the tenant's rows; and since a row has the tenant of what it
references, no cascade leaves the tenant.

`integration_job` is in no list. It is rid of the tenant's rows because each of them
references a work item of the tenant, and none is left.
-/

namespace Synthia.Erasure

open ForeignKeys

theorem erasureOrder_admitted : admits foreignKeys cascadeDepth [] erasureOrder = true := by
  decide

/-- What the tables an erasure leaves alone have in common. -/
theorem erased_or_unerased {table : TableName} (hscoped : table ∈ tenantScopedTables) :
    table ∈ erasureOrder ∨ table ∈ unerasedByDesign := by
  revert table
  decide

variable {db : PlatformDatabase} {tenant : TenantContext}

theorem belongsTo_iff {row : Row Column Cell} :
    belongsTo tenant row = true ↔ row .tenantId = some (.uuid tenant.tenantId.value) :=
  owned_iff

/-- Any part of the order is carried out, whatever the database holds. -/
theorem eraseTables_ok (hcarries : CarriesTenant db) (tenant : TenantContext)
    {done rest : List TableName} (horder : erasureOrder = done ++ rest) :
    ∃ removed between, eraseTables done db tenant = .ok (removed, between) := by
  have hadmits : admits foreignKeys cascadeDepth [] done = true :=
    admits_prefix (horder ▸ erasureOrder_admitted)
  exact deleteEach_ok hcarries (fun _ hnone => absurd hnone List.not_mem_nil) hadmits

theorem eraseTables_referential (hconforms : Conforms db) {tables : List TableName}
    {removed : List (TableName × Nat)} {between : PlatformDatabase}
    (h : eraseTables tables db tenant = .ok (removed, between)) :
    Referential foreignKeys between :=
  deleteEach_resolves hconforms.referential h

section Erased

variable {removed : List (TableName × Nat)} {after : PlatformDatabase}

/-- Rows of others, and of no organisation, are where they were. -/
theorem erased_spares (hcarries : CarriesTenant db)
    (h : eraseTenant db tenant = .ok (removed, after)) (table : TableName) :
    (after table).filter (fun row => !belongsTo tenant row) =
      (db table).filter (fun row => !belongsTo tenant row) := by
  have hspares := deleteEach_spares hcarries (Sub.refl db) h
  refine hspares.filter_eq ?_ table
  intro row hother howned
  rw [belongsTo_iff.mpr howned] at hother
  cases hother

theorem erased_table (h : eraseTenant db tenant = .ok (removed, after)) {table : TableName}
    (htable : table ∈ erasureOrder) {row : Row Column Cell} (hrow : row ∈ after table) :
    belongsTo tenant row = false :=
  deleteEach_removes h table htable row hrow

/-- A job goes with its work item. -/
theorem erased_jobs (hconforms : Conforms db) (hcarries : CarriesTenant db)
    (h : eraseTenant db tenant = .ok (removed, after)) {row : Row Column Cell}
    (hrow : row ∈ after .integrationJob) : belongsTo tenant row = false := by
  have hless : Sub after db := deleteEach_sub h
  have hedge : cascadingKey .integrationJob .workItemId .workItem .workItemId ∈ foreignKeys := by
    decide
  rw [← Bool.not_eq_true, belongsTo_iff]
  refine cleared_of_parent (eraseTables_referential hconforms h) (hcarries.of_sub hless) hedge
    ?_ ?_ hrow
  · intro job hjob
    have hkey := hconforms.notNull .integrationJob .workItemId (by decide) job (hless _ _ hjob)
    rw [cascadingKey, Edge.isNull, List.any_cons, List.any_nil, Bool.or_false]
    exact Option.isNone_eq_false_iff.mpr (Option.isSome_iff_ne_none.mpr hkey)
  · intro item hitem
    refine ⟨hconforms.notNull .workItem .tenantId (by decide) item (hless _ _ hitem), ?_⟩
    intro howned
    have hgone := erased_table h (by decide) hitem
    rw [belongsTo_iff.mpr howned] at hgone
    cases hgone

end Erased

/-- **Tenant erasure is complete, isolated and consistent.** In a database the
declarations admit, whose child rows carry their parent's tenant, an erasure is
carried out; no row of the tenant remains in a tenant-scoped table but the audit
table, the jobs included; every other row is where it was, in every table; and each
statement of the order, in its turn, is accepted and leaves every reference
resolved. -/
theorem tenant_erased (hconforms : Conforms db) (hcarries : CarriesTenant db)
    (tenant : TenantContext) :
    (∃ removed after, eraseTenant db tenant = .ok (removed, after) ∧
      (∀ table ∈ .integrationJob :: tenantScopedTables, table ∉ unerasedByDesign →
        ∀ row ∈ after table, belongsTo tenant row = false) ∧
      ∀ table, (after table).filter (fun row => !belongsTo tenant row) =
        (db table).filter (fun row => !belongsTo tenant row)) ∧
    ∀ done rest, erasureOrder = done ++ rest →
      ∃ removed between, eraseTables done db tenant = .ok (removed, between) ∧
        Referential foreignKeys between := by
  constructor
  · obtain ⟨removed, after, h⟩ :=
      eraseTables_ok hcarries tenant (List.append_nil erasureOrder).symm
    refine ⟨removed, after, h, ?_, erased_spares hcarries h⟩
    intro table htable hunerased row hrow
    rcases List.mem_cons.mp htable with hjob | hscoped
    · rw [hjob] at hrow
      exact erased_jobs hconforms hcarries h hrow
    · rcases erased_or_unerased hscoped with herased | hkept
      · exact erased_table h herased hrow
      · exact absurd hkept hunerased
  · intro done rest horder
    obtain ⟨removed, between, h⟩ := eraseTables_ok hcarries tenant horder
    exact ⟨removed, between, h, eraseTables_referential hconforms h⟩

/-! ## Two organisations -/

/-- A row by the columns it has. -/
def rowOf (cells : List (Column × Cell)) : Row Column Cell := fun column => cells.lookup column

def contoso : TenantContext := ⟨⟨1⟩, ⟨11⟩, .active, .endUserIdentity⟩

/-- Two organisations with a work item each; the first has a conversation too, and a
job on its work item. -/
def twoOrganisations : PlatformDatabase
  | .tenantMapping => [rowOf [(.tenantId, .uuid 1)], rowOf [(.tenantId, .uuid 2)]]
  | .chatSession => [rowOf [(.tenantId, .uuid 1), (.sessionId, .uuid 3)]]
  | .message =>
      [rowOf [(.tenantId, .uuid 1), (.messageId, .uuid 4), (.sessionId, .uuid 3)]]
  | .feedback =>
      [rowOf [(.tenantId, .uuid 1), (.messageId, .uuid 4), (.sessionId, .uuid 3)]]
  | .workItem =>
      [rowOf [(.tenantId, .uuid 2), (.workItemId, .uuid 6)],
        rowOf [(.tenantId, .uuid 1), (.workItemId, .uuid 5)]]
  | .integrationJob => [rowOf [(.tenantId, .uuid 1), (.workItemId, .uuid 5)]]
  | .auditEvent => [rowOf [(.tenantId, .uuid 1)]]
  | _ => []

theorem twoOrganisations_conforms : Conforms twoOrganisations := by
  refine ⟨?_, by decide⟩
  intro table
  cases table <;> decide

theorem twoOrganisations_carriesTenant : CarriesTenant twoOrganisations := by
  unfold CarriesTenant
  decide

theorem contoso_erased :
    ∃ removed after, eraseTenant twoOrganisations contoso = .ok (removed, after) ∧
      ∀ row ∈ after .integrationJob, belongsTo contoso row = false := by
  obtain ⟨⟨removed, after, h, hcleared, _⟩, _⟩ :=
    tenant_erased twoOrganisations_conforms twoOrganisations_carriesTenant contoso
  exact ⟨removed, after, h, hcleared .integrationJob (by decide) (by decide)⟩

end Synthia.Erasure
