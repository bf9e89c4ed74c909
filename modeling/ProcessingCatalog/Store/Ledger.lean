import ProcessingCatalog.Store.Tables
import ProcessingCatalog.Application.CreateProcessingRequest
import ProcessingCatalog.Application.Lifecycle

/-!
# The ledger: every operation at one moment

The abstract model of the service. A ledger holds the requests, the recorded
events and the outbox entries in the order they were committed; an operation
happens at one moment, and either answers or throws, and changes the ledger or
does not. It knows neither statements nor connections nor identifiers of outbox
rows.
-/

namespace ProcessingCatalog

open Domain

/-- The committed store, its outbox in commit order. -/
structure Ledger where
  requests : RequestTable
  events : EventTable
  outbox : List OutboxEntry

namespace Ledger

def empty : Ledger := ⟨.empty, .empty, []⟩

def apply (ledger : Ledger) (change : Change OutboxEntry) : Ledger where
  requests := change.applyToRequests ledger.requests
  events := change.applyToEvents ledger.events
  outbox :=
    match change with
    | .insertOutbox entry => ledger.outbox ++ [entry]
    | _ => ledger.outbox

def applyAll (ledger : Ledger) (changes : List (Change OutboxEntry)) : Ledger :=
  changes.foldl apply ledger

@[simp]
theorem applyAll_nil (ledger : Ledger) : ledger.applyAll [] = ledger := rfl

@[simp]
theorem applyAll_cons (ledger : Ledger) (change : Change OutboxEntry)
    (changes : List (Change OutboxEntry)) :
    ledger.applyAll (change :: changes) = (ledger.apply change).applyAll changes := rfl

theorem applyAll_append (ledger : Ledger) (first second : List (Change OutboxEntry)) :
    ledger.applyAll (first ++ second) = (ledger.applyAll first).applyAll second :=
  List.foldl_append

/-- The outbox entries about one request, in commit order. -/
def outboxOf (ledger : Ledger) (processingRequestId : JsString) : List OutboxEntry :=
  ledger.outbox.filter fun entry => entry.payload.processingRequestId = processingRequestId

def isRecorded (ledger : Ledger) (eventId : JsString) : Bool :=
  (ledger.events.find? eventId).isSome

/-- The stored request an event was recorded for. -/
def findByEventId (ledger : Ledger) (eventId : JsString) : Option ProcessingRequestRow := do
  let event ← ledger.events.find? eventId
  let processingRequestId ← event.processingRequestId
  ledger.requests.find? processingRequestId

def findByOwnerAndIdempotencyKey (ledger : Ledger) (ownerUserId idempotencyKey : JsString) :
    Option ProcessingRequestRow :=
  ledger.requests.rows.find? fun row =>
    row.ownerUserId = ownerUserId ∧ row.idempotencyKey = some idempotencyKey

def findByOwnerAndSource (ledger : Ledger) (ownerUserId sourceStorageKey : JsString) :
    Option ProcessingRequestRow :=
  ledger.requests.rows.find? fun row =>
    row.ownerUserId = ownerUserId ∧ row.sourceStorageKey = sourceStorageKey

theorem mem_of_findByOwnerAndIdempotencyKey {ledger : Ledger}
    {ownerUserId idempotencyKey : JsString} {row : ProcessingRequestRow}
    (found : ledger.findByOwnerAndIdempotencyKey ownerUserId idempotencyKey = some row) :
    row ∈ ledger.requests ∧ row.ownerUserId = ownerUserId ∧
      row.idempotencyKey = some idempotencyKey :=
  ⟨List.mem_of_find?_eq_some found, by simpa using List.find?_some found⟩

theorem mem_of_findByOwnerAndSource {ledger : Ledger} {ownerUserId sourceStorageKey : JsString}
    {row : ProcessingRequestRow}
    (found : ledger.findByOwnerAndSource ownerUserId sourceStorageKey = some row) :
    row ∈ ledger.requests ∧ row.ownerUserId = ownerUserId ∧
      row.sourceStorageKey = sourceStorageKey :=
  ⟨List.mem_of_find?_eq_some found, by simpa using List.find?_some found⟩

end Ledger

/-- What an operation answers and changes at one moment. -/
abbrev Performed (α : Type) : Type := Except Thrown α × List (Change OutboxEntry)

def Performed.map {α β : Type} (f : α → β) (performed : Performed α) : Performed β :=
  (performed.1.map f, performed.2)

def invalidUuid : Thrown :=
  .database (.queryFailedError (some (js "22P02")) none)

def uniqueViolation (constraint : JsString) : Thrown :=
  .database (.queryFailedError (some (js "23505")) (some constraint))

namespace LifecycleEvent

/-- The changes an applied decision makes, by the row it leaves. -/
def appliedChanges (event : LifecycleEvent) (row : ProcessingRequestRow)
    (entry : Option (EventRoute × OutboxPayload)) : List (Change OutboxEntry) :=
  .saveRequest row ::
    (entry.toList.map fun (route, payload) => .insertOutbox ⟨route, payload⟩) ++
      [.insertEvent ⟨event.eventId, some row.processingRequestId⟩]

def performDecision (event : LifecycleEvent) (row : ProcessingRequestRow) :
    Decision → Performed ProcessingRequest
  | .noted => (.ok row.toDomain, [.insertEvent ⟨event.eventId, some row.processingRequestId⟩])
  | .applied updated entry =>
      match ProcessingRequestRow.toRow updated with
      | none => (.error invalidUuid, [])
      | some row' => (.ok updated, event.appliedChanges row' entry)

/-- A lifecycle event that is not answered by the request it was recorded for. -/
def performLocked (event : LifecycleEvent) (ledger : Ledger) : Performed ProcessingRequest :=
  match Uuid.parse event.processingRequestId with
  | none => (.error invalidUuid, [])
  | some id =>
      match ledger.requests.find? id with
      | none => (.error (processingRequestNotFound event.processingRequestId), [])
      | some row =>
          if ledger.isRecorded event.eventId then (.ok row.toDomain, [])
          else
            match event.decide row.toDomain with
            | .error error => (.error error, [])
            | .ok decision => event.performDecision row decision

def perform (event : LifecycleEvent) (ledger : Ledger) : Performed ProcessingRequest :=
  match event.refusal with
  | some error => (.error error, [])
  | none =>
      match ledger.findByEventId event.eventId with
      | some existing => (.ok existing.toDomain, [])
      | none => event.performLocked ledger

end LifecycleEvent

namespace CreateProcessingRequestUseCase

/-- The checks a create makes before it reads anything, with the correlation id they let through. -/
def checked (input : Input) : Except Thrown (Option JsString) :=
  if isBlank input.eventId then
    .error (.processingRequestDomainError (js "eventId is required"))
  else if isBlank input.idempotencyKey then
    .error (.processingRequestDomainError (js "idempotencyKey is required"))
  else
    validCorrelationId input.correlationId

/-- The request a create would insert. -/
def requestOf (draws : Draws) (input : Input) (correlationId : Option JsString) :
    Except Thrown ProcessingRequest :=
  createProcessingRequest draws {
    ownerUserId := input.ownerUserId
    ownerEmail := input.ownerEmail
    sourceStorageKey := input.sourceStorageKey
    idempotencyKey := some input.idempotencyKey
    correlationId }

/-- The changes of a create that wins. -/
def insertionChanges (input : Input) (request : ProcessingRequest) (row : ProcessingRequestRow) :
    List (Change OutboxEntry) :=
  [.insertRequest row,
    .insertOutbox ⟨.videoValidationRequested, validationRequested input request⟩,
    .insertEvent ⟨input.eventId, some row.processingRequestId⟩]

def performInsertion (input : Input) (request : ProcessingRequest) (ledger : Ledger) :
    Performed Result :=
  match ProcessingRequestRow.toRow request with
  | none => (.error invalidUuid, [])
  | some row =>
      if (ledger.requests.find? row.processingRequestId).isSome then
        (.error (uniqueViolation (js "processing_request_pkey")), [])
      else if ledger.isRecorded input.eventId then
        (.error (uniqueViolation (js "processed_event_pkey")), [])
      else
        (.ok ⟨request, .created⟩, insertionChanges input request row)

/-- A create whose request is valid: the key decides first, then the source. -/
def performValid (input : Input) (request : ProcessingRequest) (ledger : Ledger) :
    Performed Result :=
  match ledger.findByOwnerAndIdempotencyKey input.ownerUserId input.idempotencyKey with
  | some bound => (replay bound.toDomain input, [])
  | none =>
      match ledger.findByOwnerAndSource input.ownerUserId input.sourceStorageKey with
      | some known => (.ok ⟨known.toDomain, .replayed⟩, [])
      | none => performInsertion input request ledger

def perform (draws : Draws) (input : Input) (ledger : Ledger) : Performed Result :=
  match checked input with
  | .error error => (.error error, [])
  | .ok correlationId =>
      match ledger.findByEventId input.eventId with
      | some existing => (.ok ⟨existing.toDomain, .replayed⟩, [])
      | none =>
          match requestOf draws input correlationId with
          | .error error => (.error error, [])
          | .ok request => performValid input request ledger

end CreateProcessingRequestUseCase

/-- What a call of one of the use cases answers. -/
inductive Answer where
  | result (result : CreateProcessingRequestUseCase.Result)
  | request (request : ProcessingRequest)
  deriving DecidableEq

/-- A call of one of the five writing use cases, with the readings of its clock
and of its random identifiers. -/
inductive Operation where
  | create (draws : Draws) (input : CreateProcessingRequestUseCase.Input)
  | accept (draws : Draws) (input : AcceptProcessingRequestUseCase.Input)
  | start (draws : Draws) (input : StartProcessingRequestUseCase.Input)
  | complete (draws : Draws) (input : CompleteProcessingRequestUseCase.Input)
  | fail (draws : Draws) (input : FailProcessingRequestUseCase.Input)

namespace Operation

/-- The lifecycle event of an operation that is not a create. -/
def event? : Operation → Option LifecycleEvent
  | .create .. => none
  | .accept draws input => some (AcceptProcessingRequestUseCase.event draws input)
  | .start draws input => some (StartProcessingRequestUseCase.event draws input)
  | .complete draws input => some (CompleteProcessingRequestUseCase.event draws input)
  | .fail draws input => some (FailProcessingRequestUseCase.event draws input)

theorem create_or_event (operation : Operation) :
    (∃ draws input, operation = .create draws input) ∨ ∃ event, operation.event? = some event := by
  cases operation with
  | create draws input => exact .inl ⟨draws, input, rfl⟩
  | _ => exact .inr ⟨_, rfl⟩

/-- What holds of the events of the four lifecycle use cases holds of every operation's event. -/
theorem forall_event {property : LifecycleEvent → Prop}
    (accept : ∀ draws input, property (AcceptProcessingRequestUseCase.event draws input))
    (start : ∀ draws input, property (StartProcessingRequestUseCase.event draws input))
    (complete : ∀ draws input, property (CompleteProcessingRequestUseCase.event draws input))
    (fail : ∀ draws input, property (FailProcessingRequestUseCase.event draws input))
    {operation : Operation} {event : LifecycleEvent} (isEvent : operation.event? = some event) :
    property event := by
  cases operation with
  | create draws input => cases isEvent
  | accept draws input =>
      cases isEvent
      exact accept draws input
  | start draws input =>
      cases isEvent
      exact start draws input
  | complete draws input =>
      cases isEvent
      exact complete draws input
  | fail draws input =>
      cases isEvent
      exact fail draws input

def eventId : Operation → JsString
  | .create _ input => input.eventId
  | .accept _ input => input.eventId
  | .start _ input => input.eventId
  | .complete _ input => input.eventId
  | .fail _ input => input.eventId

variable {σ : Effect.Signature}

def execute (repository : ProcessingRequestRepository σ) (unitOfWork : UnitOfWork σ) :
    Operation → Computation σ Answer
  | .create draws input => Answer.result <$>
      CreateProcessingRequestUseCase.execute repository unitOfWork draws input
  | .accept draws input => Answer.request <$>
      AcceptProcessingRequestUseCase.execute repository unitOfWork draws input
  | .start draws input => Answer.request <$>
      StartProcessingRequestUseCase.execute repository unitOfWork draws input
  | .complete draws input => Answer.request <$>
      CompleteProcessingRequestUseCase.execute repository unitOfWork draws input
  | .fail draws input => Answer.request <$>
      FailProcessingRequestUseCase.execute repository unitOfWork draws input

theorem execute_of_event {operation : Operation} {event : LifecycleEvent}
    (isEvent : operation.event? = some event) (repository : ProcessingRequestRepository σ)
    (unitOfWork : UnitOfWork σ) :
    operation.execute repository unitOfWork =
      Answer.request <$> event.handle repository unitOfWork := by
  cases operation with
  | create draws input => simp [event?] at isEvent
  | accept draws input =>
      cases isEvent
      rw [execute, AcceptProcessingRequestUseCase.execute_eq_handle]
  | start draws input =>
      cases isEvent
      rw [execute, StartProcessingRequestUseCase.execute_eq_handle]
  | complete draws input =>
      cases isEvent
      rw [execute, CompleteProcessingRequestUseCase.execute_eq_handle]
  | fail draws input =>
      cases isEvent
      rw [execute, FailProcessingRequestUseCase.execute_eq_handle]

theorem eventId_of_event {operation : Operation} {event : LifecycleEvent}
    (isEvent : operation.event? = some event) : event.eventId = operation.eventId := by
  cases operation <;> cases isEvent <;> rfl

/-- The operation at one moment. -/
def perform (ledger : Ledger) : Operation → Performed Answer
  | .create draws input =>
      Performed.map .result (CreateProcessingRequestUseCase.perform draws input ledger)
  | .accept draws input =>
      Performed.map .request ((AcceptProcessingRequestUseCase.event draws input).perform ledger)
  | .start draws input =>
      Performed.map .request ((StartProcessingRequestUseCase.event draws input).perform ledger)
  | .complete draws input =>
      Performed.map .request ((CompleteProcessingRequestUseCase.event draws input).perform ledger)
  | .fail draws input =>
      Performed.map .request ((FailProcessingRequestUseCase.event draws input).perform ledger)

theorem perform_of_event {operation : Operation} {event : LifecycleEvent}
    (isEvent : operation.event? = some event) (ledger : Ledger) :
    operation.perform ledger = Performed.map .request (event.perform ledger) := by
  cases operation <;> cases isEvent <;> rfl

end Operation

end ProcessingCatalog
