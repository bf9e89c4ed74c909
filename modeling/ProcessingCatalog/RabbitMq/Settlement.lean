import ProcessingCatalog.Library.Traced
import ProcessingCatalog.RabbitMq.Decoding

/-!
# The consumers and the settlement of a message

A delivery is handled inside its correlation scope: the body is read, the use
case called, and the message settled by how that ended. The settlement leaves
effects on the channel and on the counter of consumed messages; a pause before
a requeue is an effect as well.
-/

namespace ProcessingCatalog

open Effect

/-- `JSON.parse(content)`. -/
def jsonParse (content : JsString) : Except Thrown Json :=
  match Json.parse content with
  | some value => .ok value
  | none => .error .syntaxError

/-! ## The consumers -/

section Consumers

variable {σ : Signature} (repository : ProcessingRequestRepository σ) (unitOfWork : UnitOfWork σ)
  (draws : Draws) (content : JsString)

def VideoAcceptedConsumer.handleMessage : Computation σ Unit := do
  let parsed ← .ofExcept (do
    VideoAcceptedConsumer.parseVideoAccepted draws.stack (← jsonParse content))
  let _ ← AcceptProcessingRequestUseCase.execute repository unitOfWork draws {
    eventId := parsed.eventId
    processingRequestId := parsed.processingRequestId
    occurredAt := parsed.occurredAt }
  return ()

def VideoRejectedConsumer.handleMessage : Computation σ Unit := do
  let parsed ← .ofExcept (do VideoRejectedConsumer.parse draws.stack (← jsonParse content))
  let _ ← FailProcessingRequestUseCase.execute repository unitOfWork draws {
    eventId := parsed.eventId
    origin := .validation
    attemptId := none
    processingRequestId := parsed.processingRequestId
    failureCode := parsed.failureCode
    occurredAt := parsed.occurredAt }
  return ()

def ProcessingStartedConsumer.handleMessage : Computation σ Unit := do
  let parsed ← .ofExcept (do ProcessingStartedConsumer.parse draws.stack (← jsonParse content))
  let _ ← StartProcessingRequestUseCase.execute repository unitOfWork draws {
    eventId := parsed.eventId
    processingRequestId := parsed.processingRequestId
    attemptId := parsed.attemptId
    occurredAt := parsed.occurredAt }
  return ()

def ProcessingCompletedConsumer.handleMessage : Computation σ Unit := do
  let parsed ← .ofExcept (do
    ProcessingCompletedConsumer.parseProcessingCompleted draws.stack (← jsonParse content))
  let _ ← CompleteProcessingRequestUseCase.execute repository unitOfWork draws {
    eventId := parsed.eventId
    processingRequestId := parsed.processingRequestId
    attemptId := parsed.attemptId
    zipStorageKey := parsed.zipStorageKey
    occurredAt := parsed.occurredAt }
  return ()

def ProcessingFailedConsumer.handleMessage : Computation σ Unit := do
  let parsed ← .ofExcept (do ProcessingFailedConsumer.parse draws.stack (← jsonParse content))
  let _ ← FailProcessingRequestUseCase.execute repository unitOfWork draws {
    eventId := parsed.eventId
    origin := .processing
    attemptId := some parsed.attemptId
    processingRequestId := parsed.processingRequestId
    failureCode := parsed.failureCode
    occurredAt := parsed.occurredAt }
  return ()

/-- The handler of the consumer of an event. -/
def ConsumedEventName.handleMessage (event : ConsumedEventName) : Computation σ Unit :=
  match event with
  | .videoAccepted => VideoAcceptedConsumer.handleMessage repository unitOfWork draws content
  | .videoRejected => VideoRejectedConsumer.handleMessage repository unitOfWork draws content
  | .processingStarted =>
      ProcessingStartedConsumer.handleMessage repository unitOfWork draws content
  | .processingCompleted =>
      ProcessingCompletedConsumer.handleMessage repository unitOfWork draws content
  | .processingFailed => ProcessingFailedConsumer.handleMessage repository unitOfWork draws content

/-- What a consumer has read from the text of a body. -/
def ConsumedEventName.read (event : ConsumedEventName) (stack : ℕ) (content : JsString) :
    Except Thrown ConsumedEvent := do
  event.parse stack (← jsonParse content)

theorem ofExcept_map_bind {α β γ : Type} (f : α → β) (outcome : Except Thrown α)
    (next : β → Computation σ γ) :
    .ofExcept (f <$> outcome) >>= next = .ofExcept outcome >>= fun value => next (f value) := by
  cases outcome <;> rfl

theorem map_bind_const {α β γ : Type} (f : α → β) (program : Computation σ α)
    (next : Computation σ γ) : ((f <$> program) >>= fun _ => next) = program >>= fun _ => next := by
  simp only [map_eq_pure_bind, bind_assoc, pure_bind]

/-- Every consumer reads the body, and calls its use case with what it has read. -/
theorem ConsumedEventName.handleMessage_eq (event : ConsumedEventName) :
    event.handleMessage repository unitOfWork draws content =
      .ofExcept (event.read draws.stack content) >>= fun parsed =>
        (parsed.operation draws).execute repository unitOfWork >>= fun _ => return () := by
  have read : ∀ {α : Type} (parse : Json → Except Thrown α) (build : α → ConsumedEvent),
      (jsonParse content >>= fun value => build <$> parse value) =
        build <$> (jsonParse content >>= parse) := by
    intro α parse build
    cases jsonParse content <;> rfl
  cases event <;>
    simp only [handleMessage, VideoAcceptedConsumer.handleMessage,
      VideoRejectedConsumer.handleMessage, ProcessingStartedConsumer.handleMessage,
      ProcessingCompletedConsumer.handleMessage, ProcessingFailedConsumer.handleMessage,
      ConsumedEventName.read, ConsumedEventName.parse, read, ofExcept_map_bind,
      ConsumedEvent.operation, Operation.execute, map_bind_const]

end Consumers

/-! ## The settlement -/

/-- How a consumed message was finally settled. -/
inductive ConsumedOutcome where
  | acked
  | deadLettered
  deriving DecidableEq

/-- What the settlement of a message leaves behind. -/
inductive ConsumerEffect where
  /-- The timer before a requeue. -/
  | pause (milliseconds : ℕ)
  | ack
  | nack (allUpTo requeue : Bool)
  /-- One more in `fiapx_events_consumed_total`. -/
  | counted (event : ConsumedEventName) (outcome : ConsumedOutcome)
  deriving DecidableEq

/-- An effect that settles the message. -/
def ConsumerEffect.settles : ConsumerEffect → Bool
  | .ack => true
  | .nack .. => true
  | _ => false

def ConsumerEffect.counts : ConsumerEffect → Bool
  | .counted .. => true
  | _ => false

def isPermanentFailure : Thrown → Bool
  | .processingRequestDomainError _ => true
  | .syntaxError => true
  | _ => false

theorem isPermanentFailure_iff {error : Thrown} :
    isPermanentFailure error = true ↔
      (∃ message, error = .processingRequestDomainError message) ∨ error = .syntaxError := by
  cases error <;> simp [isPermanentFailure]

section Settling

variable {σ : Signature}

def settleFailedMessage (error : Thrown) (backoffMs : ℕ) :
    Computation (σ.traced ConsumerEffect) Unit := do
  if isPermanentFailure error then
    .leave (.nack false false)
  else
    if backoffMs > 0 then
      .leave (.pause backoffMs)
    .leave (.nack false true)

def settleMessage (event : ConsumedEventName) (handle : Computation σ Unit) (backoffMs : ℕ) :
    Computation (σ.traced ConsumerEffect) Unit := do
  match ← handle.traced.attempt with
  | .error error =>
      settleFailedMessage error backoffMs
      if isPermanentFailure error then
        .leave (.counted event .deadLettered)
  | .ok _ =>
      .leave .ack
      .leave (.counted event .acked)

/-- The effects of a settlement, by how the handling has ended. -/
def settlement (event : ConsumedEventName) (backoffMs : ℕ) :
    Except Thrown Unit → List ConsumerEffect
  | .ok _ => [.ack, .counted event .acked]
  | .error error =>
      if isPermanentFailure error then [.nack false false, .counted event .deadLettered]
      else (if backoffMs > 0 then [.pause backoffMs] else []) ++ [.nack false true]

theorem settleMessage_eq (event : ConsumedEventName) (handle : Computation σ Unit) (backoffMs : ℕ) :
    settleMessage event handle backoffMs = handle.concluding (settlement event backoffMs) := by
  apply Program.attempt_bind
  rintro (error | _)
  · cases permanent : isPermanentFailure error <;> by_cases pauses : backoffMs > 0 <;>
      simp [settleFailedMessage, settlement, permanent, pauses, Program.leaveAll] <;> rfl
  · rfl

section Settlement

variable {event : ConsumedEventName} {backoffMs : ℕ} {error : Thrown}

theorem settlement_of_permanent (permanent : isPermanentFailure error = true) :
    settlement event backoffMs (.error error) =
      [.nack false false, .counted event .deadLettered] := by
  simp [settlement, permanent]

theorem countP_settlement (outcome : Except Thrown Unit) :
    (settlement event backoffMs outcome).countP ConsumerEffect.settles = 1 := by
  cases outcome with
  | ok _ => rfl
  | error error =>
      cases permanent : isPermanentFailure error with
      | true => rw [settlement_of_permanent permanent]; rfl
      | false =>
          by_cases pauses : backoffMs > 0 <;>
            simp [settlement, permanent, pauses, ConsumerEffect.settles]

theorem ack_mem_settlement {outcome : Except Thrown Unit}
    (acked : .ack ∈ settlement event backoffMs outcome) : outcome = .ok () := by
  cases outcome with
  | ok _ => rfl
  | error error =>
      cases permanent : isPermanentFailure error <;> by_cases pauses : backoffMs > 0 <;>
        simp [settlement, permanent, pauses] at acked

/-- A message is refused for an error, and requeued unless the error is permanent. -/
theorem nack_mem_settlement {outcome : Except Thrown Unit} {allUpTo requeue : Bool}
    (nacked : .nack allUpTo requeue ∈ settlement event backoffMs outcome) :
    ∃ error, outcome = .error error ∧ requeue = !isPermanentFailure error := by
  cases outcome with
  | ok _ => simp [settlement] at nacked
  | error error =>
      refine ⟨error, rfl, ?_⟩
      cases permanent : isPermanentFailure error <;> by_cases pauses : backoffMs > 0 <;>
        simp [settlement, permanent, pauses] at nacked ⊢ <;> exact nacked.2

end Settlement

/-- The correlation id of a message, in its envelope or without one. -/
def correlationIdOf (content : JsString) : Option JsString := do
  let body := unwrap (← Json.parse content)
  if body.isObject then parseCorrelationId ((body.member? (js "correlationId")).getD .null)
  else none

/-- The id of the scope the handling runs in, and the handling. -/
def withMessageCorrelation {α : Type} (drawn : Uuid) (content : JsString) (handle : α) :
    JsString × α :=
  ((correlationIdOf content).getD drawn.text, handle)

/-- What a consumer does with a message. -/
def ConsumedEventName.consume (repository : ProcessingRequestRepository σ)
    (unitOfWork : UnitOfWork σ) (drawn : Uuid) (draws : Draws) (backoffMs : ℕ)
    (event : ConsumedEventName) (content : JsString) :
    JsString × Computation (σ.traced ConsumerEffect) Unit :=
  withMessageCorrelation drawn content
    (settleMessage event (event.handleMessage repository unitOfWork draws content) backoffMs)

end Settling

end ProcessingCatalog
