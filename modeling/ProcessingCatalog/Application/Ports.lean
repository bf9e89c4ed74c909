import ProcessingCatalog.Domain.ProcessingRequest
import ProcessingCatalog.Library.Program

/-!
# The ports of the use cases

A use case is written against a repository, an outbox and a unit of work, and
does not know which adapter serves it. The three ports are records of programs
over the calls `σ` of the adapter, so one definition of each use case runs over
PostgreSQL and in memory alike. Inside `runInTransaction` the only repository
and outbox at hand are those of the transaction.
-/

namespace ProcessingCatalog

open Effect

/-- A computation of the service: it may call the adapter, and may throw. -/
abbrev Computation (σ : Signature) (α : Type) : Type := Program σ Thrown α

/-- The payload of an outgoing event. An absent field is omitted from the JSON. -/
structure OutboxPayload where
  eventId : JsString
  processingRequestId : JsString
  ownerUserId : JsString
  ownerEmail : Option JsString
  sourceStorageKey : Option JsString
  status : Option ProcessingRequestStatus
  zipStorageKey : Option JsString
  failureReason : Option JsString
  attemptId : Option JsString
  occurredAt : JsString
  correlationId : Option JsString
  deriving DecidableEq

/-- Where an outgoing event goes. -/
structure EventRoute where
  queue : JsString
  pattern : JsString
  deriving DecidableEq

namespace EventRoute

def videoValidationRequested : EventRoute :=
  ⟨js "video-validation", js "VideoValidationRequested"⟩

def processingQueued : EventRoute :=
  ⟨js "processing", js "ProcessingQueued"⟩

def terminalEvent : EventRoute :=
  ⟨js "notification.terminal", js "terminal.event"⟩

end EventRoute

structure ProcessingRequestRepository (σ : Signature) where
  save : ProcessingRequest → Computation σ Unit
  update : ProcessingRequest → Computation σ Unit
  findByProcessingRequestId : JsString → Computation σ (Option ProcessingRequest)
  /-- Reads a request and holds it until the enclosing transaction ends. -/
  findForUpdate : JsString → Computation σ (Option ProcessingRequest)
  findByEventId : JsString → Computation σ (Option ProcessingRequest)
  markEventProcessed : JsString → Option JsString → Computation σ Unit
  hasEventBeenProcessed : JsString → Computation σ Bool
  findPageByOwner : JsString → ℕ → ℕ → Computation σ (List ProcessingRequest)
  countByOwner : JsString → Computation σ ℕ
  findByIdAndOwner : JsString → JsString → Computation σ (Option ProcessingRequest)
  findByOwnerAndIdempotencyKey : JsString → JsString → Computation σ (Option ProcessingRequest)
  findByOwnerAndSource : JsString → JsString → Computation σ (Option ProcessingRequest)

structure OutboxWriter (σ : Signature) where
  add : EventRoute → OutboxPayload → Computation σ Unit

structure TransactionContext (σ : Signature) where
  requests : ProcessingRequestRepository σ
  outbox : OutboxWriter σ

structure UnitOfWork (σ : Signature) where
  runInTransaction : {α : Type} → (TransactionContext σ → Computation σ α) → Computation σ α

end ProcessingCatalog
