import ProcessingCatalog.Persistence.Driver
import ProcessingCatalog.RabbitMq.Failures

/-!
# A delivery alone

A message is delivered, over the driver, to a database that answers every
statement and has nothing else to do. How the handling ends and what it changes
are those of the event that is read from the body, as the driver sends it.
-/

namespace ProcessingCatalog

open Effect TypeOrm Domain

namespace Postgres

/-- The effects of a delivery alone over a database that answers every statement, and the state it
leaves. -/
def deliverAlone (rules : TextRules) (event : ConsumedEventName) (drawn : Uuid) (draws : Draws)
    (backoffMs : ℕ) (content : JsString) (shared : Shared Unit) :
    List ConsumerEffect × Shared Unit :=
  let (_, (shared', _), effects) :=
    (event.consume (repository .dataSource) unitOfWork drawn draws backoffMs content).2.run
      (Program.tracing (answerDriven rules)) ((shared, .idle), [])
  (effects, shared')

/-- How the handling of a message ends when it runs alone, and what it changes. -/
def handledUnder (rules : TextRules) (event : ConsumedEventName) (draws : Draws)
    (content : JsString) (ledger : Ledger) : Performed Unit :=
  match event.read draws.stack content with
  | .error error => (.error error, [])
  | .ok parsed =>
      Performed.map (fun _ => ()) (performUnder rules (parsed.lifecycle draws).sent ledger)

section Sent

variable (draws : Draws) (parsed : ConsumedEvent)

@[simp]
theorem sent_eventId : (parsed.lifecycle draws).sent.eventId = toWellFormed parsed.eventId := by
  cases parsed <;> rfl

@[simp]
theorem sent_processingRequestId :
    (parsed.lifecycle draws).sent.processingRequestId = parsed.processingRequestId := by
  cases parsed <;> rfl

theorem sent_refusal : (parsed.lifecycle draws).sent.refusal = (parsed.lifecycle draws).refusal :=
  rfl

end Sent

/-- A row that is moved on keeps its zip key, unless the event carries one. -/
theorem zipStorageKey_of_applied {draws : Draws} {parsed : ConsumedEvent}
    {request updated : ProcessingRequest} {entry : Option (EventRoute × OutboxPayload)}
    (decided : (parsed.lifecycle draws).decide request = .ok (.applied updated entry)) :
    updated.zipStorageKey = (parsed.zipStorageKey? <|> request.zipStorageKey) := by
  cases parsed with
  | videoAccepted parsed =>
      rcases AcceptProcessingRequestUseCase.decide_eq_applied.mp decided with ⟨_, rfl, _⟩
      rfl
  | videoRejected parsed =>
      simp only [ConsumedEvent.lifecycle, FailProcessingRequestUseCase.event] at decided
      rcases FailProcessingRequestUseCase.decide_eq_applied.mp decided with ⟨_, ⟨_, _, rfl⟩, _⟩
      rfl
  | processingStarted parsed =>
      rcases StartProcessingRequestUseCase.decide_eq_applied.mp decided with ⟨_, _, rfl, _⟩
      rfl
  | processingCompleted parsed =>
      rcases CompleteProcessingRequestUseCase.decide_eq_applied.mp decided with ⟨_, _, _, rfl, _⟩
      rfl
  | processingFailed parsed =>
      simp only [ConsumedEvent.lifecycle, FailProcessingRequestUseCase.event] at decided
      rcases FailProcessingRequestUseCase.decide_eq_applied.mp decided with ⟨_, ⟨_, _, rfl⟩, _⟩
      rfl

section Deliver

variable {rules : TextRules} {event : ConsumedEventName} {drawn : Uuid} {draws : Draws}
  {backoffMs : ℕ} {content : JsString} {shared : Shared Unit} {ledger : Ledger}

theorem read_of_parse {body : Json} (isBody : Json.parse content = some body) :
    event.read draws.stack content = event.parse draws.stack body := by
  simp [ConsumedEventName.read, jsonParse, isBody, bind, Except.bind]

/-- A body that is not read is no JSON, or fails a check, or has a member that does not convert. -/
theorem read_error_cases {error : Thrown} (isRead : event.read draws.stack content = .error error) :
    error = .syntaxError ∨ error.IsDomainError ∨ error.IsConversionError := by
  cases isBody : Json.parse content with
  | none =>
      simp only [ConsumedEventName.read, jsonParse, isBody, bind, Except.bind,
        Except.error.injEq] at isRead
      exact .inl isRead.symm
  | some body =>
      rw [read_of_parse isBody] at isRead
      rcases ConsumedEventName.of_parse_eq_error isRead with
        ⟨_, isDomainError⟩ | ⟨_, name, _, threw⟩
      · exact .inr (.inl isDomainError)
      · rcases stringOf_eq_error.mp threw with ⟨_, conversion, _, _, isConversion⟩
        exact .inr (.inr ⟨conversion, isConversion.symm⟩)

theorem handledUnder_of_error {error : Thrown}
    (isRead : event.read draws.stack content = .error error) :
    handledUnder rules event draws content ledger = (.error error, []) := by
  rw [handledUnder, isRead]

theorem handledUnder_of_ok {parsed : ConsumedEvent}
    (isRead : event.read draws.stack content = .ok parsed) :
    handledUnder rules event draws content ledger =
      Performed.map (fun _ => ()) (performUnder rules (parsed.lifecycle draws).sent ledger) := by
  rw [handledUnder, isRead]

theorem run_handleMessage (rules : TextRules) (event : ConsumedEventName) (draws : Draws)
    (content : JsString) (represents : shared.database.Represents ledger)
    (numbered : Numbered shared.database shared.nextOutboxId)
    (unique : UniqueIndexes shared.database.requests) :
    ∃ shared', (event.handleMessage (repository .dataSource) unitOfWork draws content).run
        (answerDriven rules) (shared, .idle) =
          ((handledUnder rules event draws content ledger).1, shared', .idle) ∧
      Did ledger (handledUnder rules event draws content ledger).2 shared shared' := by
  rw [ConsumedEventName.handleMessage_eq]
  cases isRead : event.read draws.stack content with
  | error error =>
      rw [handledUnder_of_error isRead]
      exact ⟨shared, rfl, did_nothing represents numbered rfl le_rfl⟩
  | ok parsed =>
      rw [handledUnder_of_ok isRead, Program.ofExcept_ok, Program.pure_bind,
        Operation.execute_of_event (parsed.event?_operation draws), map_bind_const]
      exact run_handle_driven (parsed.lifecycle draws) represents numbered unique

/-- The message is settled by how its handling ends, and what the handling changes is stored. -/
theorem deliverAlone_spec (rules : TextRules) (event : ConsumedEventName) (drawn : Uuid)
    (draws : Draws) (backoffMs : ℕ) (content : JsString)
    (represents : shared.database.Represents ledger)
    (numbered : Numbered shared.database shared.nextOutboxId)
    (unique : UniqueIndexes shared.database.requests) :
    (deliverAlone rules event drawn draws backoffMs content shared).1 =
        settlement event backoffMs (handledUnder rules event draws content ledger).1 ∧
      Did ledger (handledUnder rules event draws content ledger).2 shared
        (deliverAlone rules event drawn draws backoffMs content shared).2 := by
  rcases run_handleMessage rules event draws content represents numbered unique with
    ⟨shared', ran, did⟩
  have delivered : deliverAlone rules event drawn draws backoffMs content shared =
      (settlement event backoffMs (handledUnder rules event draws content ledger).1, shared') := by
    unfold deliverAlone ConsumedEventName.consume withMessageCorrelation
    simp only [settleMessage_eq]
    rw [Program.run_concluding ran]
    rfl
  rw [delivered]
  exact ⟨rfl, did⟩

end Deliver

end Postgres

end ProcessingCatalog
