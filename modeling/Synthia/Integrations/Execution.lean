import Synthia.Domain.Vocabulary
import Synthia.Lib.Digest
import Synthia.Lib.Json
import Synthia.Messaging.Envelopes

/-!
# Executions

`integrations.domain.execution`: what was attempted, and separately what is
known of it. A refusal claims no confirmation, and the record carries the proof
that it does not.
-/

namespace Synthia

inductive ExecutionOutcome where
  | succeeded
  | failed
  | refusedUnentitled
  | refusedUnregistered
  | refusedVersion
  | refusedWindow
  | unreachable
  deriving DecidableEq, Repr

def ExecutionOutcome.value : ExecutionOutcome → String
  | .succeeded => "succeeded"
  | .failed => "failed"
  | .refusedUnentitled => "refused_unentitled"
  | .refusedUnregistered => "refused_unregistered"
  | .refusedVersion => "refused_version"
  | .refusedWindow => "refused_window"
  | .unreachable => "unreachable"

/-- Whether nothing was attempted externally. -/
def ExecutionOutcome.isRefusal : ExecutionOutcome → Bool
  | .refusedUnentitled | .refusedUnregistered | .refusedVersion | .refusedWindow
  | .unreachable => true
  | .succeeded | .failed => false

namespace Integrations

open Text

/-- One attempt against one external system. -/
structure ExecutionRecord where
  jobId : IntegrationJobId
  tenantId : TenantId
  connectorId : String
  catalogueId : String
  catalogueVersion : Int
  idempotencyKey : List CodePoint
  outcome : ExecutionOutcome
  verification : VerificationOutcome
  correlationId : List CodePoint
  attemptedAt : Instant
  externalReference : Option String := none
  normalizedResult : Option (Json.Value CodePoint) := none
  completedAt : Option Instant := none
  executionId : Uuid
  honest : outcome.isRefusal = true → verification ≠ .serverConfirmed

end Integrations

end Synthia

/-!
## The Integrations Service's key

`integrations.execution.idempotency.derive_key`. Four fields joined by the unit
separator, hashed; the first names the derivation.
-/

namespace Synthia.Integrations

open Text

/-- `_NAMESPACE`. -/
def keyNamespace : List CodePoint := ofString "synthia.integration.execution.v1"

def deriveKey (sha256 : List CodePoint → List CodePoint) (tenantId workItemId operationId : Uuid) :
    List CodePoint :=
  sha256 ([0x1F].intercalate
    [keyNamespace, tenantId.toText, workItemId.toText, operationId.toText])

end Synthia.Integrations
