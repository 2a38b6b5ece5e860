import Synthia.Graph.Run
import Synthia.Persistence.Decisions

/-!
# A work item being decided

One work item, the thread of its conversation, and the tables its decisions are
recorded in. Decisions enter through the two repositories, for this work item or any
other; the graph only reads. A node's collaborators answer from the tables as they
are at that step.

Approval requests, operations and the work items themselves are written by parts of
the platform that are not here. What those parts write is any row the tables take.

`recorded` is not a table. It is what has been recorded on the work item so far, in
order, and no definition but the statements about it reads it.
-/

namespace Synthia

open Relational

/-- The organisation and the work item a conversation is about. -/
structure DecidedItem where
  tenantId : TenantId
  workItemId : WorkItemId
  deriving DecidableEq

namespace DecidedItem

def hasConsent (item : DecidedItem) (row : ConsentRow) : Bool :=
  row.tenantId == item.tenantId && row.workItemId == item.workItemId

def hasApproval (item : DecidedItem) (row : ApprovalRow) : Bool :=
  row.tenantId == item.tenantId && row.workItemId == item.workItemId

def hasOperation (item : DecidedItem) (row : OperationRow) : Bool :=
  row.tenantId == item.tenantId && row.workItemId == item.workItemId

/-- The run contexts of the conversation: its organisation's, before there is a work
item or with this one. -/
def binds (item : DecidedItem) (context : RunContext) : Bool :=
  context.tenant.tenantId == item.tenantId &&
    context.workItemId.all fun workItemId => workItemId == item.workItemId

/-- The actions on this conversation's thread. -/
def hosts (item : DecidedItem) : Action → Bool
  | .turn context _ | .resume context _ _ => item.binds context
  | .node _ | .fail => true

end DecidedItem

structure DecisionWorld where
  workItems : WorkItemTable := ⟨[], List.nodup_nil⟩
  operations : List OperationRow := []
  approvals : ApprovalTable := ⟨⟨[], List.nodup_nil⟩, List.nodup_nil⟩
  consents : ConsentTable := ⟨[], List.nodup_nil⟩
  thread : Thread := {}
  recorded : List HumanDecisionRecord := []

inductive DecisionEvent where
  | consent (tenant : TenantContext) (consentId : ConsentId) (workItemId : WorkItemId)
      (consentedBy : PrincipalId) (verdict : ConsentVerdict) (databaseNow : Instant)
  | verdict (tenant : TenantContext) (approvalId : ApprovalId) (decidedBy : PrincipalId)
      (rolesHeld : RoleSet) (verdict : ApprovalVerdict) (expiresAt databaseNow : Instant)
  | approvalRequested (row : ApprovalRow)
  | operationProposed (row : OperationRow)
  | workWritten (workItems : WorkItemTable)
  | graph (action : Action)

/-- An approval request, where its identifier is free and the work item has none. -/
def ApprovalTable.request (approvals : ApprovalTable) (row : ApprovalRow)
    (hfresh : row.approvalId ∉ approvals.rows.map ApprovalRow.approvalId)
    (hfirst : row.workItemId ∉ approvals.rows.map ApprovalRow.workItemId) : ApprovalTable where
  toTable := approvals.insert row hfresh
  oneEach := by
    show ((approvals.rows ++ [row]).map ApprovalRow.workItemId).Nodup
    rw [List.map_append, List.map_singleton, List.nodup_append]
    refine ⟨approvals.oneEach, List.nodup_singleton _, ?_⟩
    intro a ha b hb hab
    rw [List.mem_singleton] at hb
    rw [hab, hb] at ha
    exact hfirst ha

namespace DecisionWorld

/-- A node's collaborators, reading these tables. The read of a verdict raises on
a role no member has, or on two decided rows; no row recorded here makes it. -/
def reads (world : DecisionWorld) (deps : GraphDependencies) : GraphDependencies :=
  { deps with
    verdictFor := fun tenant workItemId =>
      match ApprovalRepository.decisionFor world.approvals world.operations tenant workItemId with
      | .error _ => none
      | .ok verdict => verdict
    consentFor := ConsentRepository.decisionFor world.consents.rows world.operations }

def readsFor (world : DecisionWorld) : Action → Action
  | .turn context input => .turn context input
  | .node deps => .node (world.reads deps)
  | .resume context deps payload => .resume context (world.reads deps) payload
  | .fail => .fail

/-- The decision an event records on the work item, if it records one: a consent of
the requester's under a free identifier, or a verdict on an approval nobody has
decided. -/
def decisionOn (item : DecidedItem) (world : DecisionWorld) :
    DecisionEvent → Option HumanDecisionRecord
  | .consent tenant consentId workItemId consentedBy verdict databaseNow =>
      if tenant.tenantId = item.tenantId ∧ workItemId = item.workItemId ∧
          (∃ work ∈ world.workItems.rows, work.scopedTo tenant workItemId = true ∧
            work.requestedByOid = consentedBy) ∧
          consentId ∉ world.consents.rows.map ConsentRow.consentId then
        some ⟨consentId.value, consentedBy, .consent verdict, databaseNow, none⟩
      else
        none
  | .verdict tenant approvalId decidedBy _ verdict _ databaseNow =>
      if ∃ row ∈ world.approvals.rows, row.undecided tenant approvalId = true ∧
          item.hasApproval row = true then
        some ⟨approvalId.value, decidedBy, .approval verdict, databaseNow, none⟩
      else
        none
  | .approvalRequested _ | .operationProposed _ | .workWritten _ | .graph _ => none

/-- The tables and the thread after an event. A graph event in a context of another
conversation is not one of this thread's. -/
def written (item : DecidedItem) (world : DecisionWorld) : DecisionEvent → Option DecisionWorld
  | .consent tenant consentId workItemId consentedBy verdict databaseNow =>
      match ConsentRepository.record world.consents world.workItems tenant consentId workItemId
          consentedBy verdict databaseNow with
      | none => some world
      | some recorded => some { world with consents := recorded.2 }
  | .verdict tenant approvalId decidedBy rolesHeld verdict expiresAt databaseNow =>
      some
        { world with
          approvals := (ApprovalRepository.recordVerdict world.approvals tenant approvalId
            decidedBy rolesHeld verdict expiresAt databaseNow).2 }
  | .approvalRequested row =>
      if hfree : row.decidedAt = none ∧
          row.approvalId ∉ world.approvals.rows.map ApprovalRow.approvalId ∧
          row.workItemId ∉ world.approvals.rows.map ApprovalRow.workItemId then
        some { world with approvals := world.approvals.request row hfree.2.1 hfree.2.2 }
      else
        none
  | .operationProposed row => some { world with operations := world.operations ++ [row] }
  | .workWritten workItems => some { world with workItems }
  | .graph action =>
      if item.hosts action then
        some { world with thread := world.thread.step (world.readsFor action) }
      else
        none

def step (item : DecidedItem) (world : DecisionWorld) (event : DecisionEvent) :
    Option DecisionWorld :=
  (world.written item event).map fun after =>
    { after with recorded := world.recorded ++ (world.decisionOn item event).toList }

end DecisionWorld

end Synthia
