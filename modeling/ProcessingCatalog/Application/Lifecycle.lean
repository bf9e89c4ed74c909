import ProcessingCatalog.Application.Ports

/-!
# The lifecycle use cases

Accept, start, complete and fail, as the source writes them. Each validates its
input, looks for the event without a lock, and then decides under the row lock
of one transaction. They differ in the checks on the input, in the transition
and in the event they record; `LifecycleEvent` holds these differences and
`handle` is the shape they share, and each use case is proved to be an instance
of it.
-/

namespace ProcessingCatalog

open Effect Domain

variable {σ : Signature}

def eventIdRequired : Thrown :=
  .processingRequestDomainError (js "eventId is required")

def processingRequestIdRequired : Thrown :=
  .processingRequestDomainError (js "processingRequestId is required")

def zipStorageKeyRequired : Thrown :=
  .processingRequestDomainError (js "zipStorageKey is required")

def processingRequestNotFound (processingRequestId : JsString) : Thrown :=
  .processingRequestDomainError
    (js "Processing request " ++ processingRequestId ++ js " not found")

namespace AcceptProcessingRequestUseCase

structure Input where
  eventId : JsString
  processingRequestId : JsString
  occurredAt : JsString

def queuedEvent (draws : Draws) (input : Input) (updated : ProcessingRequest) : OutboxPayload where
  eventId := draws.eventUuid.text
  processingRequestId := updated.processingRequestId
  ownerUserId := updated.ownerUserId
  ownerEmail := none
  sourceStorageKey := some updated.sourceStorageKey
  status := none
  zipStorageKey := none
  failureReason := none
  attemptId := updated.attemptId
  occurredAt := input.occurredAt
  correlationId := updated.correlationId

def execute (repository : ProcessingRequestRepository σ) (unitOfWork : UnitOfWork σ)
    (draws : Draws) (input : Input) : Computation σ ProcessingRequest := do
  if isBlank input.eventId then
    throw eventIdRequired
  if isBlank input.processingRequestId then
    throw processingRequestIdRequired
  if ← repository.hasEventBeenProcessed input.eventId then
    if let some existing ← repository.findByEventId input.eventId then
      return existing
  unitOfWork.runInTransaction fun ctx => do
    let some request ← ctx.requests.findForUpdate input.processingRequestId
      | throw (processingRequestNotFound input.processingRequestId)
    if ← ctx.requests.hasEventBeenProcessed input.eventId then
      return request
    let updated ← .ofExcept (acceptProcessingRequest draws request)
    ctx.requests.update updated
    ctx.outbox.add .processingQueued (queuedEvent draws input updated)
    ctx.requests.markEventProcessed input.eventId (some updated.processingRequestId)
    return updated

end AcceptProcessingRequestUseCase

namespace StartProcessingRequestUseCase

structure Input where
  eventId : JsString
  processingRequestId : JsString
  attemptId : JsString
  occurredAt : JsString

def execute (repository : ProcessingRequestRepository σ) (unitOfWork : UnitOfWork σ)
    (draws : Draws) (input : Input) : Computation σ ProcessingRequest := do
  if isBlank input.eventId then
    throw eventIdRequired
  if isBlank input.processingRequestId then
    throw processingRequestIdRequired
  if ← repository.hasEventBeenProcessed input.eventId then
    if let some existing ← repository.findByEventId input.eventId then
      return existing
  unitOfWork.runInTransaction fun ctx => do
    let some request ← ctx.requests.findForUpdate input.processingRequestId
      | throw (processingRequestNotFound input.processingRequestId)
    if ← ctx.requests.hasEventBeenProcessed input.eventId then
      return request
    if isStaleAttempt request (some input.attemptId) then
      ctx.requests.markEventProcessed input.eventId (some request.processingRequestId)
      return request
    let updated ← .ofExcept (startProcessingRequest draws request)
    if !isUnchanged request updated then
      ctx.requests.update updated
    ctx.requests.markEventProcessed input.eventId (some updated.processingRequestId)
    return updated

end StartProcessingRequestUseCase

/-- The terminal event of a request, as the stored request and the outcome make it. -/
def terminalPayload (draws : Draws) (updated : ProcessingRequest)
    (zipStorageKey failureReason : Option JsString) (occurredAt : JsString) : OutboxPayload where
  eventId := draws.eventUuid.text
  processingRequestId := updated.processingRequestId
  ownerUserId := updated.ownerUserId
  ownerEmail := some updated.ownerEmail
  sourceStorageKey := none
  status := some updated.status
  zipStorageKey := zipStorageKey
  failureReason := failureReason
  attemptId := updated.attemptId
  occurredAt := occurredAt
  correlationId := updated.correlationId

namespace CompleteProcessingRequestUseCase

structure Input where
  eventId : JsString
  processingRequestId : JsString
  attemptId : JsString
  zipStorageKey : JsString
  occurredAt : JsString

def completedEvent (draws : Draws) (input : Input) (updated : ProcessingRequest) : OutboxPayload :=
  terminalPayload draws updated updated.zipStorageKey none input.occurredAt

def execute (repository : ProcessingRequestRepository σ) (unitOfWork : UnitOfWork σ)
    (draws : Draws) (input : Input) : Computation σ ProcessingRequest := do
  if isBlank input.eventId then
    throw eventIdRequired
  if isBlank input.processingRequestId then
    throw processingRequestIdRequired
  if isBlank input.zipStorageKey then
    throw zipStorageKeyRequired
  if ← repository.hasEventBeenProcessed input.eventId then
    if let some existing ← repository.findByEventId input.eventId then
      return existing
  unitOfWork.runInTransaction fun ctx => do
    let some request ← ctx.requests.findForUpdate input.processingRequestId
      | throw (processingRequestNotFound input.processingRequestId)
    if ← ctx.requests.hasEventBeenProcessed input.eventId then
      return request
    if isStaleAttempt request (some input.attemptId) then
      ctx.requests.markEventProcessed input.eventId (some request.processingRequestId)
      return request
    let updated ← .ofExcept (completeProcessingRequest draws request input.zipStorageKey)
    if isUnchanged request updated then
      ctx.requests.markEventProcessed input.eventId (some updated.processingRequestId)
      return updated
    ctx.requests.update updated
    ctx.outbox.add .terminalEvent (completedEvent draws input updated)
    ctx.requests.markEventProcessed input.eventId (some updated.processingRequestId)
    return updated

end CompleteProcessingRequestUseCase

namespace FailProcessingRequestUseCase

/-- Which event reported the failure: a refused video, or the end of an attempt. -/
inductive FailureOrigin where
  | validation
  | processing
  deriving DecidableEq

structure Input where
  eventId : JsString
  origin : FailureOrigin
  attemptId : Option JsString
  processingRequestId : JsString
  /-- Declared a `FailureCode`, but whatever JSON value the message carried. -/
  failureCode : Json
  occurredAt : JsString

def failedEvent (draws : Draws) (input : Input) (updated : ProcessingRequest) : OutboxPayload :=
  terminalPayload draws updated none ((failureCode? input.failureCode).map failureReasonFor)
    input.occurredAt

def execute (repository : ProcessingRequestRepository σ) (unitOfWork : UnitOfWork σ)
    (draws : Draws) (input : Input) : Computation σ ProcessingRequest := do
  if isBlank input.eventId then
    throw eventIdRequired
  if isBlank input.processingRequestId then
    throw processingRequestIdRequired
  if !isFailureCode input.failureCode then
    throw (unknownFailureCode draws input.failureCode)
  if ← repository.hasEventBeenProcessed input.eventId then
    if let some existing ← repository.findByEventId input.eventId then
      return existing
  unitOfWork.runInTransaction fun ctx => do
    let some request ← ctx.requests.findForUpdate input.processingRequestId
      | throw (processingRequestNotFound input.processingRequestId)
    if ← ctx.requests.hasEventBeenProcessed input.eventId then
      return request
    if input.origin = .processing && isStaleAttempt request input.attemptId then
      ctx.requests.markEventProcessed input.eventId (some request.processingRequestId)
      return request
    let updated ← .ofExcept (
      if input.origin = .validation then rejectProcessingRequest draws request input.failureCode
      else failProcessingRequest draws request input.failureCode)
    ctx.requests.update updated
    ctx.outbox.add .terminalEvent (failedEvent draws input updated)
    ctx.requests.markEventProcessed input.eventId (some updated.processingRequestId)
    return updated

end FailProcessingRequestUseCase

/-- What an event does to the request it finds under the lock. -/
inductive Decision where
  /-- Only the event is recorded: it is stale, or restates what already holds. -/
  | noted
  /-- The request becomes `updated`, and `entry` is added to the outbox. -/
  | applied (updated : ProcessingRequest) (entry : Option (EventRoute × OutboxPayload))

/-- A decision about `request` keeps its identity, gives it no attempt but a fresh UUID, and
announces nothing about another request. -/
def Decision.Lawful (request : ProcessingRequest) : Decision → Prop
  | .noted => True
  | .applied updated entry =>
      request.SameIdentity updated ∧
        (updated.attemptId = request.attemptId ∨
          ∃ uuid : Uuid, updated.attemptId = some uuid.text) ∧
        ∀ route payload, entry = some (route, payload) →
          payload.processingRequestId = request.processingRequestId

/-- What distinguishes one lifecycle event from another. -/
structure LifecycleEvent where
  eventId : JsString
  processingRequestId : JsString
  /-- The error of the first check on the input that fails. -/
  refusal : Option Thrown
  decide : ProcessingRequest → Except Thrown Decision
  lawful : ∀ {request decision}, decide request = .ok decision → decision.Lawful request

namespace LifecycleEvent

/-- Record what was decided about `request`. -/
def record (event : LifecycleEvent) (ctx : TransactionContext σ) (request : ProcessingRequest) :
    Decision → Computation σ ProcessingRequest
  | .noted => do
      ctx.requests.markEventProcessed event.eventId (some request.processingRequestId)
      return request
  | .applied updated none => do
      ctx.requests.update updated
      ctx.requests.markEventProcessed event.eventId (some updated.processingRequestId)
      return updated
  | .applied updated (some (route, payload)) => do
      ctx.requests.update updated
      ctx.outbox.add route payload
      ctx.requests.markEventProcessed event.eventId (some updated.processingRequestId)
      return updated

/-- What the use cases share once their input is valid: the check for a duplicate without the
lock, and under the lock the same check again before `work`. -/
def handleValid (repository : ProcessingRequestRepository σ) (unitOfWork : UnitOfWork σ)
    (eventId processingRequestId : JsString)
    (work : TransactionContext σ → ProcessingRequest → Computation σ ProcessingRequest) :
    Computation σ ProcessingRequest := do
  if ← repository.hasEventBeenProcessed eventId then
    if let some existing ← repository.findByEventId eventId then
      return existing
  unitOfWork.runInTransaction fun ctx => do
    let some request ← ctx.requests.findForUpdate processingRequestId
      | throw (processingRequestNotFound processingRequestId)
    if ← ctx.requests.hasEventBeenProcessed eventId then
      return request
    work ctx request

/-- Decide about the locked request and record the decision. -/
def handleLocked (event : LifecycleEvent) (ctx : TransactionContext σ)
    (request : ProcessingRequest) : Computation σ ProcessingRequest := do
  let decision ← .ofExcept (event.decide request)
  event.record ctx request decision

/-- The shape of every lifecycle use case. -/
def handle (repository : ProcessingRequestRepository σ) (unitOfWork : UnitOfWork σ)
    (event : LifecycleEvent) : Computation σ ProcessingRequest :=
  match event.refusal with
  | some error => throw error
  | none =>
      handleValid repository unitOfWork event.eventId event.processingRequestId event.handleLocked

theorem handle_of_refusal {event : LifecycleEvent} {error : Thrown}
    (refused : event.refusal = some error) (repository : ProcessingRequestRepository σ)
    (unitOfWork : UnitOfWork σ) : event.handle repository unitOfWork = throw error := by
  simp [handle, refused]

theorem handle_of_valid {event : LifecycleEvent} (valid : event.refusal = none)
    (repository : ProcessingRequestRepository σ) (unitOfWork : UnitOfWork σ) :
    event.handle repository unitOfWork = handleValid repository unitOfWork event.eventId
      event.processingRequestId event.handleLocked := by
  simp [handle, valid]

end LifecycleEvent

/-- The first error of a list of checks, each with the error it throws. -/
def firstRefusal : List (Bool × Thrown) → Option Thrown
  | [] => none
  | (fails, error) :: checks => if fails then some error else firstRefusal checks

namespace AcceptProcessingRequestUseCase

def decide (draws : Draws) (input : Input) (request : ProcessingRequest) :
    Except Thrown Decision := do
  let updated ← acceptProcessingRequest draws request
  return .applied updated (some (.processingQueued, queuedEvent draws input updated))

theorem decide_eq_ok {draws : Draws} {input : Input} {request : ProcessingRequest}
    {decision : Decision} :
    decide draws input request = .ok decision ↔
      ∃ updated, acceptProcessingRequest draws request = .ok updated ∧
        decision =
          .applied updated (some (.processingQueued, queuedEvent draws input updated)) := by
  cases accepted : acceptProcessingRequest draws request <;>
    simp [decide, accepted, pure, Except.pure, bind, Except.bind, eq_comm]

/-- What an accept makes of a request, and of which. -/
theorem decide_eq_applied {draws : Draws} {input : Input}
    {request updated : ProcessingRequest} {entry : Option (EventRoute × OutboxPayload)} :
    decide draws input request = .ok (.applied updated entry) ↔
      request.status = .received ∧
      updated = { request with
        status := .queued, attemptId := some draws.uuid.text, updatedAt := draws.now } ∧
      entry = some (.processingQueued, queuedEvent draws input updated) := by
  rw [decide_eq_ok]
  constructor
  · rintro ⟨_, accepted, same⟩
    cases same
    rcases acceptProcessingRequest_eq_ok.mp accepted with ⟨received, moved⟩
    exact ⟨received, moved, rfl⟩
  · rintro ⟨received, moved, rfl⟩
    exact ⟨updated, acceptProcessingRequest_eq_ok.mpr ⟨received, moved⟩, rfl⟩

theorem decide_lawful {draws : Draws} {input : Input} {request : ProcessingRequest}
    {decision : Decision} (decided : decide draws input request = .ok decision) :
    decision.Lawful request := by
  obtain ⟨updated, accepted, rfl⟩ := decide_eq_ok.mp decided
  obtain ⟨_, rfl⟩ := acceptProcessingRequest_eq_ok.mp accepted
  refine ⟨.refl _, .inr ⟨draws.uuid, rfl⟩, ?_⟩
  rintro route payload ⟨⟩
  rfl

def event (draws : Draws) (input : Input) : LifecycleEvent where
  eventId := input.eventId
  processingRequestId := input.processingRequestId
  refusal := firstRefusal [(isBlank input.eventId, eventIdRequired),
    (isBlank input.processingRequestId, processingRequestIdRequired)]
  decide := decide draws input
  lawful := decide_lawful

theorem execute_eq_handle (repository : ProcessingRequestRepository σ) (unitOfWork : UnitOfWork σ)
    (draws : Draws) (input : Input) :
    execute repository unitOfWork draws input =
      (event draws input).handle repository unitOfWork := by
  unfold execute LifecycleEvent.handle
  cases noEventId : isBlank input.eventId with
  | true => simp [event, firstRefusal, noEventId]
  | false =>
      cases noRequestId : isBlank input.processingRequestId with
      | true => simp [event, firstRefusal, noEventId, noRequestId]
      | false =>
          have valid : (event draws input).refusal = none := by
            simp [event, firstRefusal, noEventId, noRequestId]
          rw [valid]
          refine congrArg (LifecycleEvent.handleValid repository unitOfWork input.eventId
            input.processingRequestId) (funext fun ctx => funext fun request => ?_)
          simp only [LifecycleEvent.handleLocked, event, decide]
          cases acceptProcessingRequest draws request <;> rfl

end AcceptProcessingRequestUseCase

namespace StartProcessingRequestUseCase

def decide (draws : Draws) (input : Input) (request : ProcessingRequest) :
    Except Thrown Decision := do
  if isStaleAttempt request (some input.attemptId) then
    return .noted
  let updated ← startProcessingRequest draws request
  return if isUnchanged request updated then .noted else .applied updated none

theorem decide_eq_ok {draws : Draws} {input : Input} {request : ProcessingRequest}
    {decision : Decision} :
    decide draws input request = .ok decision ↔
      isStaleAttempt request (some input.attemptId) = true ∧ decision = .noted ∨
      isStaleAttempt request (some input.attemptId) = false ∧
        ∃ updated, startProcessingRequest draws request = .ok updated ∧
          decision = if request = updated then .noted else .applied updated none := by
  cases stale : isStaleAttempt request (some input.attemptId) <;>
    cases started : startProcessingRequest draws request <;>
    simp [decide, stale, started, isUnchanged, pure, Except.pure, bind, Except.bind, eq_comm]

theorem decide_eq_noted {draws : Draws} {input : Input} {request : ProcessingRequest} :
    decide draws input request = .ok .noted ↔
      isStaleAttempt request (some input.attemptId) = true ∨
        request.status ≠ .received ∧ request.status ≠ .queued := by
  rw [decide_eq_ok]
  constructor
  · rintro (⟨stale, _⟩ | ⟨_, updated, started, same⟩)
    · exact .inl stale
    · rcases startProcessingRequest_eq_ok.mp started with
        ⟨accepted, ⟨queued, rfl⟩ | ⟨notQueued, rfl⟩⟩
      · split at same
        · next unchanged =>
            have sameStatus := congrArg ProcessingRequest.status unchanged
            simp [queued] at sameStatus
        · cases same
      · exact .inr ⟨accepted, notQueued⟩
  · rintro (stale | ⟨accepted, notQueued⟩)
    · exact .inl ⟨stale, rfl⟩
    · cases stale : isStaleAttempt request (some input.attemptId) with
      | true => exact .inl ⟨rfl, rfl⟩
      | false =>
          exact .inr ⟨rfl, request, startProcessingRequest_eq_ok.mpr
            ⟨accepted, .inr ⟨notQueued, rfl⟩⟩, by simp⟩

theorem decide_eq_applied {draws : Draws} {input : Input}
    {request updated : ProcessingRequest} {entry : Option (EventRoute × OutboxPayload)} :
    decide draws input request = .ok (.applied updated entry) ↔
      isStaleAttempt request (some input.attemptId) = false ∧ request.status = .queued ∧
      updated = { request with status := .processing, updatedAt := draws.now } ∧
      entry = none := by
  rw [decide_eq_ok]
  constructor
  · rintro (⟨_, same⟩ | ⟨current, _, started, same⟩)
    · cases same
    · rcases startProcessingRequest_eq_ok.mp started with ⟨_, ⟨queued, rfl⟩ | ⟨_, rfl⟩⟩
      · split at same
        · cases same
        · cases same
          exact ⟨current, queued, rfl, rfl⟩
      · simp at same
  · rintro ⟨current, queued, rfl, rfl⟩
    refine .inr ⟨current, _, startProcessingRequest_eq_ok.mpr
      ⟨by simp [queued], .inl ⟨queued, rfl⟩⟩, ?_⟩
    rw [if_neg]
    intro same
    have sameStatus := congrArg ProcessingRequest.status same
    simp [queued] at sameStatus

theorem decide_lawful {draws : Draws} {input : Input} {request : ProcessingRequest}
    {decision : Decision} (decided : decide draws input request = .ok decision) :
    decision.Lawful request := by
  obtain ⟨_, rfl⟩ | ⟨_, updated, started, rfl⟩ := decide_eq_ok.mp decided
  · trivial
  · split
    · trivial
    · obtain ⟨_, ⟨_, rfl⟩ | ⟨_, rfl⟩⟩ := startProcessingRequest_eq_ok.mp started <;>
        exact ⟨.refl _, .inl rfl, nofun⟩

def event (draws : Draws) (input : Input) : LifecycleEvent where
  eventId := input.eventId
  processingRequestId := input.processingRequestId
  refusal := firstRefusal [(isBlank input.eventId, eventIdRequired),
    (isBlank input.processingRequestId, processingRequestIdRequired)]
  decide := decide draws input
  lawful := decide_lawful

theorem execute_eq_handle (repository : ProcessingRequestRepository σ) (unitOfWork : UnitOfWork σ)
    (draws : Draws) (input : Input) :
    execute repository unitOfWork draws input =
      (event draws input).handle repository unitOfWork := by
  unfold execute LifecycleEvent.handle
  cases noEventId : isBlank input.eventId with
  | true => simp [event, firstRefusal, noEventId]
  | false =>
      cases noRequestId : isBlank input.processingRequestId with
      | true => simp [event, firstRefusal, noEventId, noRequestId]
      | false =>
          have valid : (event draws input).refusal = none := by
            simp [event, firstRefusal, noEventId, noRequestId]
          rw [valid]
          refine congrArg (LifecycleEvent.handleValid repository unitOfWork input.eventId
            input.processingRequestId) (funext fun ctx => funext fun request => ?_)
          simp only [LifecycleEvent.handleLocked, event, decide]
          cases isStaleAttempt request (some input.attemptId) with
          | true => rfl
          | false =>
              cases startProcessingRequest draws request with
              | error error => rfl
              | ok updated =>
                  cases unchanged : isUnchanged request updated with
                  | true =>
                      have same : request = updated := by simpa [isUnchanged] using unchanged
                      subst same
                      simp [unchanged, LifecycleEvent.record]
                  | false => simp [unchanged, LifecycleEvent.record]

end StartProcessingRequestUseCase

namespace CompleteProcessingRequestUseCase

def decide (draws : Draws) (input : Input) (request : ProcessingRequest) :
    Except Thrown Decision := do
  if isStaleAttempt request (some input.attemptId) then
    return .noted
  let updated ← completeProcessingRequest draws request input.zipStorageKey
  return if isUnchanged request updated then .noted
    else .applied updated (some (.terminalEvent, completedEvent draws input updated))

theorem decide_eq_ok {draws : Draws} {input : Input} {request : ProcessingRequest}
    {decision : Decision} :
    decide draws input request = .ok decision ↔
      isStaleAttempt request (some input.attemptId) = true ∧ decision = .noted ∨
      isStaleAttempt request (some input.attemptId) = false ∧
        ∃ updated, completeProcessingRequest draws request input.zipStorageKey = .ok updated ∧
          decision = if request = updated then .noted
            else .applied updated (some (.terminalEvent, completedEvent draws input updated)) := by
  cases stale : isStaleAttempt request (some input.attemptId) <;>
    cases completed : completeProcessingRequest draws request input.zipStorageKey <;>
    simp [decide, stale, completed, isUnchanged, pure, Except.pure, bind, Except.bind, eq_comm]

theorem decide_eq_noted {draws : Draws} {input : Input} {request : ProcessingRequest}
    (zipped : isBlank input.zipStorageKey = false) :
    decide draws input request = .ok .noted ↔
      isStaleAttempt request (some input.attemptId) = true ∨
        request.status = .completed ∧ request.zipStorageKey = some input.zipStorageKey := by
  rw [decide_eq_ok]
  constructor
  · rintro (⟨stale, _⟩ | ⟨_, updated, completed, same⟩)
    · exact .inl stale
    · rcases completeProcessingRequest_eq_ok.mp completed with
        ⟨_, ⟨ended, sameZip, rfl⟩ | ⟨completable, rfl⟩⟩
      · exact .inr ⟨ended, sameZip⟩
      · split at same
        · next unchanged =>
            have sameStatus := congrArg ProcessingRequest.status unchanged
            simp [sameStatus, completableStatuses] at completable
        · cases same
  · rintro (stale | ⟨ended, sameZip⟩)
    · exact .inl ⟨stale, rfl⟩
    · cases stale : isStaleAttempt request (some input.attemptId) with
      | true => exact .inl ⟨rfl, rfl⟩
      | false =>
          exact .inr ⟨rfl, request, completeProcessingRequest_eq_ok.mpr
            ⟨zipped, .inl ⟨ended, sameZip, rfl⟩⟩, by simp⟩

theorem decide_eq_applied {draws : Draws} {input : Input}
    {request updated : ProcessingRequest} {entry : Option (EventRoute × OutboxPayload)} :
    decide draws input request = .ok (.applied updated entry) ↔
      isStaleAttempt request (some input.attemptId) = false ∧
      isBlank input.zipStorageKey = false ∧
      (request.status = .queued ∨ request.status = .processing) ∧
      updated = { request with
        status := .completed, zipStorageKey := some input.zipStorageKey, updatedAt := draws.now } ∧
      entry = some (.terminalEvent, completedEvent draws input updated) := by
  rw [decide_eq_ok]
  constructor
  · rintro (⟨_, same⟩ | ⟨current, _, completed, same⟩)
    · cases same
    · rcases completeProcessingRequest_eq_ok.mp completed with
        ⟨zipped, ⟨_, _, rfl⟩ | ⟨completable, rfl⟩⟩
      · simp at same
      · split at same
        · cases same
        · cases same
          exact ⟨current, zipped, by simpa [completableStatuses] using completable, rfl, rfl⟩
  · rintro ⟨current, zipped, running, rfl, rfl⟩
    have completable : request.status ∈ completableStatuses := by
      simpa [completableStatuses] using running
    refine .inr ⟨current, _, completeProcessingRequest_eq_ok.mpr
      ⟨zipped, .inr ⟨completable, rfl⟩⟩, ?_⟩
    rw [if_neg]
    intro same
    have sameStatus := congrArg ProcessingRequest.status same
    rcases running with queued | processing
    · simp [queued] at sameStatus
    · simp [processing] at sameStatus

theorem decide_lawful {draws : Draws} {input : Input} {request : ProcessingRequest}
    {decision : Decision} (decided : decide draws input request = .ok decision) :
    decision.Lawful request := by
  obtain ⟨_, rfl⟩ | ⟨_, updated, completed, rfl⟩ := decide_eq_ok.mp decided
  · trivial
  · split
    · trivial
    · obtain ⟨_, ⟨_, _, rfl⟩ | ⟨_, rfl⟩⟩ := completeProcessingRequest_eq_ok.mp completed <;>
      · refine ⟨.refl _, .inl rfl, ?_⟩
        rintro route payload ⟨⟩
        rfl

def event (draws : Draws) (input : Input) : LifecycleEvent where
  eventId := input.eventId
  processingRequestId := input.processingRequestId
  refusal := firstRefusal [(isBlank input.eventId, eventIdRequired),
    (isBlank input.processingRequestId, processingRequestIdRequired),
    (isBlank input.zipStorageKey, zipStorageKeyRequired)]
  decide := decide draws input
  lawful := decide_lawful

theorem execute_eq_handle (repository : ProcessingRequestRepository σ) (unitOfWork : UnitOfWork σ)
    (draws : Draws) (input : Input) :
    execute repository unitOfWork draws input =
      (event draws input).handle repository unitOfWork := by
  unfold execute LifecycleEvent.handle
  cases noEventId : isBlank input.eventId with
  | true => simp [event, firstRefusal, noEventId]
  | false =>
      cases noRequestId : isBlank input.processingRequestId with
      | true => simp [event, firstRefusal, noEventId, noRequestId]
      | false =>
          cases noZip : isBlank input.zipStorageKey with
          | true => simp [event, firstRefusal, noEventId, noRequestId, noZip]
          | false =>
              have valid : (event draws input).refusal = none := by
                simp [event, firstRefusal, noEventId, noRequestId, noZip]
              rw [valid]
              refine congrArg (LifecycleEvent.handleValid repository unitOfWork input.eventId
                input.processingRequestId) (funext fun ctx => funext fun request => ?_)
              simp only [LifecycleEvent.handleLocked, event, decide]
              cases isStaleAttempt request (some input.attemptId) with
              | true => rfl
              | false =>
                  cases completeProcessingRequest draws request input.zipStorageKey with
                  | error error => rfl
                  | ok updated =>
                      cases unchanged : isUnchanged request updated with
                      | true =>
                          have same : request = updated := by simpa [isUnchanged] using unchanged
                          subst same
                          simp [unchanged, LifecycleEvent.record]
                      | false => simp [unchanged, LifecycleEvent.record]

end CompleteProcessingRequestUseCase

namespace FailProcessingRequestUseCase

def decide (draws : Draws) (input : Input) (request : ProcessingRequest) :
    Except Thrown Decision := do
  if input.origin = .processing && isStaleAttempt request input.attemptId then
    return .noted
  let updated ←
    if input.origin = .validation then rejectProcessingRequest draws request input.failureCode
    else failProcessingRequest draws request input.failureCode
  return .applied updated (some (.terminalEvent, failedEvent draws input updated))

theorem decide_eq_ok {draws : Draws} {input : Input} {request : ProcessingRequest}
    {decision : Decision} :
    decide draws input request = .ok decision ↔
      input.origin = .processing ∧ isStaleAttempt request input.attemptId = true ∧
        decision = .noted ∨
      (input.origin = .processing → isStaleAttempt request input.attemptId = false) ∧
        ∃ updated,
          (input.origin = .validation ∧
              rejectProcessingRequest draws request input.failureCode = .ok updated ∨
            input.origin = .processing ∧
              failProcessingRequest draws request input.failureCode = .ok updated) ∧
          decision =
            .applied updated (some (.terminalEvent, failedEvent draws input updated)) := by
  cases origin : input.origin <;> cases stale : isStaleAttempt request input.attemptId <;>
    cases rejected : rejectProcessingRequest draws request input.failureCode <;>
    cases failed : failProcessingRequest draws request input.failureCode <;>
    simp [decide, origin, stale, rejected, failed, pure, Except.pure, bind, Except.bind, eq_comm]

theorem decide_eq_applied {draws : Draws} {input : Input}
    {request updated : ProcessingRequest} {entry : Option (EventRoute × OutboxPayload)} :
    decide draws input request = .ok (.applied updated entry) ↔
      ((input.origin = .validation ∧ request.status = .received) ∨
        input.origin = .processing ∧ isStaleAttempt request input.attemptId = false ∧
          (request.status = .queued ∨ request.status = .processing)) ∧
      (∃ code, failureCode? input.failureCode = some code ∧ updated = { request with
        status := .failed, failureCode := some code, updatedAt := draws.now }) ∧
      entry = some (.terminalEvent, failedEvent draws input updated) := by
  rw [decide_eq_ok]
  constructor
  · rintro (⟨_, _, same⟩ | ⟨current, _, ⟨validation, rejected⟩ | ⟨processing, failed⟩, same⟩)
    · cases same
    · cases same
      rcases rejectProcessingRequest_eq_ok.mp rejected with ⟨received, failing⟩
      exact ⟨.inl ⟨validation, received⟩, failing, rfl⟩
    · cases same
      rcases failProcessingRequest_eq_ok.mp failed with ⟨failable, failing⟩
      have running : request.status = .queued ∨ request.status = .processing := by
        simpa [failableStatuses] using failable
      exact ⟨.inr ⟨processing, current processing, running⟩, failing, rfl⟩
  · rintro ⟨⟨validation, received⟩ | ⟨processing, current, running⟩, failing, rfl⟩
    · have rejected := rejectProcessingRequest_eq_ok.mpr ⟨received, failing⟩
      exact .inr ⟨by simp [validation], _, .inl ⟨validation, rejected⟩, rfl⟩
    · have failable : request.status ∈ failableStatuses := by
        simpa [failableStatuses] using running
      have failed := failProcessingRequest_eq_ok.mpr ⟨failable, failing⟩
      exact .inr ⟨fun _ => current, _, .inr ⟨processing, failed⟩, rfl⟩

theorem decide_lawful {draws : Draws} {input : Input} {request : ProcessingRequest}
    {decision : Decision} (decided : decide draws input request = .ok decision) :
    decision.Lawful request := by
  obtain ⟨_, _, rfl⟩ | ⟨_, updated, ⟨_, rejected⟩ | ⟨_, failed⟩, rfl⟩ := decide_eq_ok.mp decided
  · trivial
  · obtain ⟨_, code, _, rfl⟩ := rejectProcessingRequest_eq_ok.mp rejected
    refine ⟨.refl _, .inl rfl, ?_⟩
    rintro route payload ⟨⟩
    rfl
  · obtain ⟨_, code, _, rfl⟩ := failProcessingRequest_eq_ok.mp failed
    refine ⟨.refl _, .inl rfl, ?_⟩
    rintro route payload ⟨⟩
    rfl

def event (draws : Draws) (input : Input) : LifecycleEvent where
  eventId := input.eventId
  processingRequestId := input.processingRequestId
  refusal := firstRefusal [(isBlank input.eventId, eventIdRequired),
    (isBlank input.processingRequestId, processingRequestIdRequired),
    (!isFailureCode input.failureCode, unknownFailureCode draws input.failureCode)]
  decide := decide draws input
  lawful := decide_lawful

theorem execute_eq_handle (repository : ProcessingRequestRepository σ) (unitOfWork : UnitOfWork σ)
    (draws : Draws) (input : Input) :
    execute repository unitOfWork draws input =
      (event draws input).handle repository unitOfWork := by
  unfold execute LifecycleEvent.handle
  cases noEventId : isBlank input.eventId with
  | true => simp [event, firstRefusal, noEventId]
  | false =>
      cases noRequestId : isBlank input.processingRequestId with
      | true => simp [event, firstRefusal, noEventId, noRequestId]
      | false =>
          cases known : isFailureCode input.failureCode with
          | false => simp [event, firstRefusal, noEventId, noRequestId, known]
          | true =>
              have valid : (event draws input).refusal = none := by
                simp [event, firstRefusal, noEventId, noRequestId, known]
              rw [valid]
              refine congrArg (LifecycleEvent.handleValid repository unitOfWork input.eventId
                input.processingRequestId) (funext fun ctx => funext fun request => ?_)
              simp only [LifecycleEvent.handleLocked, event, decide]
              cases
                (input.origin = .processing && isStaleAttempt request input.attemptId : Bool) with
              | true => rfl
              | false =>
                  by_cases validation : input.origin = .validation
                  · simp only [validation, if_true]
                    cases rejectProcessingRequest draws request input.failureCode <;> rfl
                  · simp only [validation, if_false]
                    cases failProcessingRequest draws request input.failureCode <;> rfl

end FailProcessingRequestUseCase

end ProcessingCatalog
