import ProcessingCatalog.Application.Ports

/-!
# Creating a request

The create looks the owner's key up, then the owner's source, and only then
inserts; an insert that loses the race for one of the two unique indexes reads
the winner back outside the transaction that was rolled back.
-/

namespace ProcessingCatalog

open Effect Domain

/-- `PRINTABLE_ASCII.test(text)`: 1 to 128 characters between `0x20` and `0x7E`. -/
def isPrintableAscii (text : JsString) : Bool :=
  1 ≤ text.length && text.length ≤ 128 && text.all fun unit => 0x20 ≤ unit && unit ≤ 0x7E

def parseCorrelationId : Json → Option JsString
  | .string raw => if isPrintableAscii (trim raw) then some (trim raw) else none
  | _ => none

namespace CreateProcessingRequestUseCase

structure Input where
  eventId : JsString
  ownerUserId : JsString
  ownerEmail : JsString
  sourceStorageKey : JsString
  idempotencyKey : JsString
  /-- Validated when present, whatever its runtime type. -/
  correlationId : Option Json

/-- `created` wrote a request; `replayed` returned one and wrote nothing. -/
inductive Outcome where
  | created
  | replayed
  deriving DecidableEq

structure Result where
  request : ProcessingRequest
  outcome : Outcome
  deriving DecidableEq

/-- Absent stays absent; a present id must parse, and the trimmed value is the one stored. -/
def validCorrelationId : Option Json → Except Thrown (Option JsString)
  | none => .ok none
  | some raw =>
      match parseCorrelationId raw with
      | some parsed => .ok (some parsed)
      | none => domainError (js "correlationId must be 1 to 128 printable ASCII characters")

def replay (bound : ProcessingRequest) (input : Input) : Except Thrown Result :=
  if bound.sourceStorageKey ≠ input.sourceStorageKey then
    .error .idempotencyConflictError
  else
    .ok ⟨bound, .replayed⟩

def validationRequested (input : Input) (request : ProcessingRequest) : OutboxPayload where
  eventId := input.eventId
  processingRequestId := request.processingRequestId
  ownerUserId := request.ownerUserId
  ownerEmail := none
  sourceStorageKey := some request.sourceStorageKey
  status := none
  zipStorageKey := none
  failureReason := none
  attemptId := none
  occurredAt := toISOString request.createdAt
  correlationId := request.correlationId

variable {σ : Signature}

/-- The request, its event and its deduplication record, committed together. -/
def insertion (input : Input) (request : ProcessingRequest) (ctx : TransactionContext σ) :
    Computation σ Unit := do
  ctx.requests.save request
  ctx.outbox.add .videoValidationRequested (validationRequested input request)
  ctx.requests.markEventProcessed input.eventId (some request.processingRequestId)

/-- What a create does with the error of its transaction. -/
def lostRace (repository : ProcessingRequestRepository σ) (input : Input) (error : Thrown) :
    Computation σ Result := do
  match error with
  | .duplicateSourceError _ _ =>
      let some winner ← repository.findByOwnerAndSource input.ownerUserId input.sourceStorageKey
        | throw error
      return ⟨winner, .replayed⟩
  | .duplicateIdempotencyKeyError _ _ =>
      let some winner ←
          repository.findByOwnerAndIdempotencyKey input.ownerUserId input.idempotencyKey
        | throw error
      .ofExcept (replay winner input)
  | _ => throw error

def execute (repository : ProcessingRequestRepository σ) (unitOfWork : UnitOfWork σ)
    (draws : Draws) (input : Input) : Computation σ Result := do
  if isBlank input.eventId then
    throw (.processingRequestDomainError (js "eventId is required"))
  if isBlank input.idempotencyKey then
    throw (.processingRequestDomainError (js "idempotencyKey is required"))
  let correlationId ← .ofExcept (validCorrelationId input.correlationId)
  if let some existing ← repository.findByEventId input.eventId then
    return ⟨existing, .replayed⟩
  let request ← .ofExcept (createProcessingRequest draws {
    ownerUserId := input.ownerUserId
    ownerEmail := input.ownerEmail
    sourceStorageKey := input.sourceStorageKey
    idempotencyKey := some input.idempotencyKey
    correlationId })
  if let some bound ←
      repository.findByOwnerAndIdempotencyKey input.ownerUserId input.idempotencyKey then
    return ← .ofExcept (replay bound input)
  if let some known ←
      repository.findByOwnerAndSource input.ownerUserId input.sourceStorageKey then
    return ⟨known, .replayed⟩
  tryCatch
    (do
      unitOfWork.runInTransaction (insertion input request)
      return ⟨request, .created⟩)
    (lostRace repository input)

end CreateProcessingRequestUseCase

end ProcessingCatalog
