import ProcessingCatalog.RabbitMq.Delivery

/-!
# Which messages are retried for ever

A delivery alone over a database that answers every statement. Every failure of
the parser, of the use case and of the domain is permanent, but for a conversion
to a string that throws; every text the database refuses is not. `Digestible` is
the condition on a message and a store under which neither happens, in terms of
the members of the body and of the row of the request.
-/

namespace ProcessingCatalog

open Effect TypeOrm Domain

namespace ConsumedEvent

/-- No text that has to be there is blank. -/
def NotBlank (parsed : ConsumedEvent) : Prop :=
  isBlank parsed.eventId = false ∧ isBlank parsed.processingRequestId = false ∧
    ∀ zipStorageKey ∈ parsed.zipStorageKey?, isBlank zipStorageKey = false

/-- The input that a use case does not refuse. -/
def Valid (parsed : ConsumedEvent) : Prop :=
  parsed.NotBlank ∧ ∀ failureCode ∈ parsed.failureCode?, isFailureCode failureCode = true

/-- An event of an attempt that is not the request's own. -/
def Stale (parsed : ConsumedEvent) (row : ProcessingRequestRow) : Prop :=
  ∃ attemptId ∈ parsed.attemptId?, isStaleAttempt row.toDomain (some attemptId) = true

/-- An event that says what holds already. -/
def Restates (row : ProcessingRequestRow) : ConsumedEvent → Prop
  | .processingStarted _ => row.status ≠ .received ∧ row.status ≠ .queued
  | .processingCompleted parsed =>
      row.status = .completed ∧ row.zipStorageKey = some parsed.zipStorageKey
  | _ => False

/-- An event that moves a request of this status on. -/
def Moves (status : ProcessingRequestStatus) : ConsumedEvent → Prop
  | .videoAccepted _ => status = .received
  | .videoRejected _ => status = .received
  | .processingStarted _ => status = .queued
  | .processingCompleted _ => status = .queued ∨ status = .processing
  | .processingFailed _ => status = .queued ∨ status = .processing

/-- The texts of the columns of a request that is moved on. -/
def columns (parsed : ConsumedEvent) (row : ProcessingRequestRow) : List JsString :=
  [row.ownerUserId, row.ownerEmail, row.sourceStorageKey] ++
    ((parsed.zipStorageKey? <|> row.zipStorageKey).map toWellFormed).toList ++
    row.idempotencyKey.toList ++ row.correlationId.toList

/-- The texts of the terminal event of a request. -/
def terminalTexts (draws : Draws) (row : ProcessingRequestRow)
    (zipStorageKey failureReason : Option JsString) (occurredAt : JsString) : List JsString :=
  [draws.eventUuid.text, row.processingRequestId.text, row.ownerUserId, occurredAt,
    row.ownerEmail] ++ zipStorageKey.toList ++ failureReason.toList ++
    (row.attemptId.map Uuid.text).toList ++ row.correlationId.toList

/-- The texts of what is announced when a request is moved on. -/
def announced (draws : Draws) (row : ProcessingRequestRow) : ConsumedEvent → List JsString
  | .videoAccepted parsed =>
      [draws.eventUuid.text, row.processingRequestId.text, row.ownerUserId, parsed.occurredAt,
        row.sourceStorageKey, draws.uuid.text] ++ row.correlationId.toList
  | .videoRejected parsed =>
      terminalTexts draws row none
        ((ProcessingCatalog.failureCode? parsed.failureCode).map failureReasonFor) parsed.occurredAt
  | .processingStarted _ => []
  | .processingCompleted parsed =>
      terminalTexts draws row (some parsed.zipStorageKey) none parsed.occurredAt
  | .processingFailed parsed =>
      terminalTexts draws row none
        ((ProcessingCatalog.failureCode? parsed.failureCode).map failureReasonFor) parsed.occurredAt

end ConsumedEvent

namespace Postgres

/-- What PostgreSQL is sent when an event is handled for a row, it accepts: the `eventId`, unless
the event is refused, and the texts of the row and of the announcement, when the row moves on. -/
structure Recordable (rules : TextRules) (draws : Draws) (parsed : ConsumedEvent)
    (row : ProcessingRequestRow) : Prop where
  noted : parsed.Stale row ∨ parsed.Restates row →
    rules.acceptsEventId (toWellFormed parsed.eventId) = true
  moved : ¬ parsed.Stale row → parsed.Moves row.status →
    rules.acceptsEventId (toWellFormed parsed.eventId) = true ∧
      (parsed.columns row).all rules.text = true ∧
        (parsed.announced draws row).all rules.json = true

/-- What an event and the store have to be for the event to end in nothing but an answer or a
permanent failure. -/
structure Storable (rules : TextRules) (draws : Draws) (parsed : ConsumedEvent) (ledger : Ledger) :
    Prop where
  code : parsed.NotBlank → ∀ failureCode ∈ parsed.failureCode?,
    isFailureCode failureCode = false → failureCode.Converts draws.stack
  eventId : parsed.Valid → rules.text (toWellFormed parsed.eventId) = true
  named : parsed.Valid → ledger.findByEventId (toWellFormed parsed.eventId) = none →
    (Uuid.parse parsed.processingRequestId).isSome
  recordable : parsed.Valid → ledger.findByEventId (toWellFormed parsed.eventId) = none →
    ∀ id row, Uuid.parse parsed.processingRequestId = some id →
      ledger.requests.find? id = some row →
      ledger.isRecorded (toWellFormed parsed.eventId) = false → Recordable rules draws parsed row

/-- What a body and a store have to be for the delivery to settle the message finally. A body that
is not JSON, or fails a check of the consumer, is settled for that. -/
def Digestible (rules : TextRules) (event : ConsumedEventName) (draws : Draws)
    (content : JsString) (ledger : Ledger) : Prop :=
  ∀ body, Json.parse content = some body → event.Complete body →
    (∀ name ∈ event.converted, MemberConverts draws.stack (unwrap body) name) ∧
      Storable rules draws (event.named draws.stack (unwrap body)) ledger

section Input

variable {draws : Draws} {parsed : ConsumedEvent}

theorem isPermanentFailure_unknownFailureCode {value : Json} :
    isPermanentFailure (unknownFailureCode draws value) = true ↔ value.Converts draws.stack := by
  rw [← Json.converts_iff, unknownFailureCode]
  cases value.text draws.stack with
  | ok text => simp [isPermanentFailure]
  | error conversion => simp

/-- The checks on the texts that have to be there. -/
def blankChecks (parsed : ConsumedEvent) : List (Bool × Thrown) :=
  [(isBlank parsed.eventId, eventIdRequired),
    (isBlank parsed.processingRequestId, processingRequestIdRequired)] ++
    parsed.zipStorageKey?.toList.map fun zipStorageKey =>
      (isBlank zipStorageKey, zipStorageKeyRequired)

/-- The check on the failure code, of the events that report one. -/
def codeChecks (draws : Draws) (parsed : ConsumedEvent) : List (Bool × Thrown) :=
  parsed.failureCode?.toList.map fun failureCode =>
    (!isFailureCode failureCode, unknownFailureCode draws failureCode)

theorem refusal_eq : (parsed.lifecycle draws).refusal =
    (firstRefusal (blankChecks parsed)).or (firstRefusal (codeChecks draws parsed)) := by
  rw [← firstRefusal_append]
  cases parsed <;> rfl

theorem firstRefusal_blankChecks :
    firstRefusal (blankChecks parsed) = none ↔ parsed.NotBlank := by
  simp [firstRefusal_eq_none_iff, blankChecks, ConsumedEvent.NotBlank]

theorem firstRefusal_codeChecks : firstRefusal (codeChecks draws parsed) = none ↔
    ∀ failureCode ∈ parsed.failureCode?, isFailureCode failureCode = true := by
  simp [firstRefusal_eq_none_iff, codeChecks]

theorem refusal_eq_none_iff : (parsed.lifecycle draws).refusal = none ↔ parsed.Valid := by
  rw [refusal_eq, Option.or_eq_none_iff, firstRefusal_blankChecks, firstRefusal_codeChecks,
    ConsumedEvent.Valid]

/-- A use case refuses its input for ever, unless a failure code it does not know has no text. -/
theorem permanent_refusal_iff :
    (∀ error, (parsed.lifecycle draws).refusal = some error → isPermanentFailure error = true) ↔
      (parsed.NotBlank → ∀ failureCode ∈ parsed.failureCode?,
        isFailureCode failureCode = false → failureCode.Converts draws.stack) := by
  rw [refusal_eq, ← firstRefusal_blankChecks]
  cases blank : firstRefusal (blankChecks parsed) with
  | some refusal =>
      have isDomainError : refusal.IsDomainError := by
        refine firstRefusal_cases (fun check checkMem => ?_) blank
        simp only [blankChecks, List.mem_append, List.mem_cons, List.not_mem_nil, or_false,
          List.mem_map] at checkMem
        rcases checkMem with (rfl | rfl) | ⟨_, _, rfl⟩
        · exact ⟨_, rfl⟩
        · exact ⟨_, rfl⟩
        · exact ⟨_, rfl⟩
      simp [isPermanentFailure_of_isDomainError isDomainError]
  | none =>
      cases reported : parsed.failureCode? with
      | none => simp [codeChecks, reported, firstRefusal]
      | some failureCode =>
          cases known : isFailureCode failureCode <;>
            simp [codeChecks, reported, firstRefusal, known, isPermanentFailure_unknownFailureCode]

end Input

/-! ## What is decided about a row -/

section Decided

variable {draws : Draws} {parsed : ConsumedEvent} {row : ProcessingRequestRow}

/-- An event is only recorded if it is stale, or restates what holds. -/
theorem decide_eq_noted_iff (valid : parsed.Valid) :
    (parsed.lifecycle draws).decide row.toDomain = .ok .noted ↔
      parsed.Stale row ∨ parsed.Restates row := by
  cases parsed with
  | videoAccepted parsed =>
      simp [ConsumedEvent.lifecycle, AcceptProcessingRequestUseCase.event,
        AcceptProcessingRequestUseCase.decide_eq_ok, ConsumedEvent.Stale,
        ConsumedEvent.attemptId?, ConsumedEvent.Restates]
  | videoRejected parsed =>
      simp [ConsumedEvent.lifecycle, FailProcessingRequestUseCase.event,
        FailProcessingRequestUseCase.decide_eq_ok, ConsumedEvent.Stale,
        ConsumedEvent.attemptId?, ConsumedEvent.Restates]
  | processingStarted parsed =>
      simp [ConsumedEvent.lifecycle, StartProcessingRequestUseCase.event,
        StartProcessingRequestUseCase.decide_eq_noted, ConsumedEvent.Stale,
        ConsumedEvent.attemptId?, ConsumedEvent.Restates, ProcessingRequestRow.toDomain]
  | processingCompleted parsed =>
      have zipped : isBlank parsed.zipStorageKey = false := valid.1.2.2 _ rfl
      simp [ConsumedEvent.lifecycle, CompleteProcessingRequestUseCase.event,
        CompleteProcessingRequestUseCase.decide_eq_noted, zipped, ConsumedEvent.Stale,
        ConsumedEvent.attemptId?, ConsumedEvent.Restates, ProcessingRequestRow.toDomain]
  | processingFailed parsed =>
      simp [ConsumedEvent.lifecycle, FailProcessingRequestUseCase.event,
        FailProcessingRequestUseCase.decide_eq_ok, ConsumedEvent.Stale,
        ConsumedEvent.attemptId?, ConsumedEvent.Restates]

theorem requestTexts_resent {updated : ProcessingRequest}
    (same : row.toDomain.SameIdentity updated)
    (zip : updated.zipStorageKey = (parsed.zipStorageKey? <|> row.zipStorageKey)) :
    requestTexts updated.resent = parsed.columns row := by
  obtain ⟨_, owner, email, source, key, correlation, _⟩ := same
  simp only [ProcessingRequestRow.toDomain] at owner email source key correlation
  simp only [requestTexts, ProcessingRequest.resent, ConsumedEvent.columns, zip, owner, email,
    source, key, correlation]

theorem payloadTexts_terminalPayload {updated : ProcessingRequest}
    (same : row.toDomain.SameIdentity updated)
    (attempt : updated.attemptId = row.attemptId.map Uuid.text)
    (zipStorageKey failureReason : Option JsString) (occurredAt : JsString) :
    payloadTexts (terminalPayload draws updated zipStorageKey failureReason occurredAt) =
      ConsumedEvent.terminalTexts draws row zipStorageKey failureReason occurredAt := by
  obtain ⟨id, owner, email, _, _, correlation, _⟩ := same
  simp only [ProcessingRequestRow.toDomain] at id owner email correlation
  simp [payloadTexts, terminalPayload, ConsumedEvent.terminalTexts, id, owner, email, correlation,
    attempt]

/-- An event that is applied moves the row on. -/
theorem moves_of_applied {updated : ProcessingRequest} {entry : Option (EventRoute × OutboxPayload)}
    (decided : (parsed.lifecycle draws).decide row.toDomain = .ok (.applied updated entry)) :
    (¬ parsed.Stale row ∧ parsed.Moves row.status) ∧
      requestTexts updated.resent = parsed.columns row ∧
      (entry.toList.flatMap fun announcement => payloadTexts announcement.2) =
        parsed.announced draws row := by
  cases parsed with
  | videoAccepted parsed =>
      rcases AcceptProcessingRequestUseCase.decide_eq_applied.mp decided with
        ⟨received, rfl, rfl⟩
      exact ⟨⟨by simp [ConsumedEvent.Stale, ConsumedEvent.attemptId?], received⟩,
        requestTexts_resent (.refl _) rfl, by simp [payloadTexts, ConsumedEvent.announced,
          AcceptProcessingRequestUseCase.queuedEvent, ProcessingRequestRow.toDomain]⟩
  | videoRejected parsed =>
      simp only [ConsumedEvent.lifecycle, FailProcessingRequestUseCase.event] at decided
      rcases FailProcessingRequestUseCase.decide_eq_applied.mp decided with
        ⟨⟨_, received⟩ | ⟨other, _⟩, ⟨code, _, rfl⟩, rfl⟩
      · exact ⟨⟨by simp [ConsumedEvent.Stale, ConsumedEvent.attemptId?], received⟩,
          requestTexts_resent (.refl _) rfl, (List.append_nil _).trans
            (payloadTexts_terminalPayload (.refl _) rfl _ _ _)⟩
      · cases other
  | processingStarted parsed =>
      rcases StartProcessingRequestUseCase.decide_eq_applied.mp decided with
        ⟨current, queued, rfl, rfl⟩
      exact ⟨⟨by simp [ConsumedEvent.Stale, ConsumedEvent.attemptId?, current], queued⟩,
        requestTexts_resent (.refl _) rfl, rfl⟩
  | processingCompleted parsed =>
      rcases CompleteProcessingRequestUseCase.decide_eq_applied.mp decided with
        ⟨current, _, running, rfl, rfl⟩
      exact ⟨⟨by simp [ConsumedEvent.Stale, ConsumedEvent.attemptId?, current], running⟩,
        requestTexts_resent (.refl _) rfl, (List.append_nil _).trans
          (payloadTexts_terminalPayload (.refl _) rfl _ _ _)⟩
  | processingFailed parsed =>
      simp only [ConsumedEvent.lifecycle, FailProcessingRequestUseCase.event] at decided
      rcases FailProcessingRequestUseCase.decide_eq_applied.mp decided with
        ⟨⟨other, _⟩ | ⟨_, current, running⟩, ⟨code, _, rfl⟩, rfl⟩
      · cases other
      · exact ⟨⟨by simp [ConsumedEvent.Stale, ConsumedEvent.attemptId?, current], running⟩,
          requestTexts_resent (.refl _) rfl, (List.append_nil _).trans
            (payloadTexts_terminalPayload (.refl _) rfl _ _ _)⟩

/-- An event that moves the row on is applied. -/
theorem applied_of_moves (draws : Draws) (valid : parsed.Valid) (current : ¬ parsed.Stale row)
    (moves : parsed.Moves row.status) : ∃ updated entry,
      (parsed.lifecycle draws).decide row.toDomain = .ok (.applied updated entry) := by
  cases parsed with
  | videoAccepted parsed =>
      exact ⟨_, _, AcceptProcessingRequestUseCase.decide_eq_applied.mpr ⟨moves, rfl, rfl⟩⟩
  | videoRejected parsed =>
      rcases Option.isSome_iff_exists.mp (valid.2 _ rfl) with ⟨code, isCode⟩
      simp only [ConsumedEvent.lifecycle, FailProcessingRequestUseCase.event,
        FailProcessingRequestUseCase.decide_eq_applied]
      exact ⟨_, _, ⟨.inl ⟨trivial, moves⟩, ⟨code, isCode, rfl⟩, rfl⟩⟩
  | processingStarted parsed =>
      have notStale : isStaleAttempt row.toDomain (some parsed.attemptId) = false := by
        simpa [ConsumedEvent.Stale, ConsumedEvent.attemptId?] using current
      exact ⟨_, _, StartProcessingRequestUseCase.decide_eq_applied.mpr
        ⟨notStale, moves, rfl, rfl⟩⟩
  | processingCompleted parsed =>
      have notStale : isStaleAttempt row.toDomain (some parsed.attemptId) = false := by
        simpa [ConsumedEvent.Stale, ConsumedEvent.attemptId?] using current
      exact ⟨_, _, CompleteProcessingRequestUseCase.decide_eq_applied.mpr
        ⟨notStale, valid.1.2.2 _ rfl, moves, rfl, rfl⟩⟩
  | processingFailed parsed =>
      have notStale : isStaleAttempt row.toDomain (some parsed.attemptId) = false := by
        simpa [ConsumedEvent.Stale, ConsumedEvent.attemptId?] using current
      rcases Option.isSome_iff_exists.mp (valid.2 _ rfl) with ⟨code, isCode⟩
      simp only [ConsumedEvent.lifecycle, FailProcessingRequestUseCase.event,
        FailProcessingRequestUseCase.decide_eq_applied]
      exact ⟨_, _, ⟨.inr ⟨trivial, notStale, moves⟩, ⟨code, isCode, rfl⟩, rfl⟩⟩

/-- The database accepts all that a decision writes. -/
theorem acceptsDecision_applied {rules : TextRules} {event : LifecycleEvent}
    {updated : ProcessingRequest} {entry : Option (EventRoute × OutboxPayload)}
    (lawful : (Decision.applied updated entry).Lawful row.toDomain) :
    (event.performDecision row (.applied updated entry)).2.all rules.acceptsChange = true ↔
      rules.acceptsEventId event.eventId = true ∧ rules.acceptsRequest updated = true ∧
        (entry.toList.flatMap fun announcement => payloadTexts announcement.2).all
          rules.json = true := by
  rcases lawful.exists_row with ⟨row', rfl, _⟩
  cases entry with
  | none =>
      simp [LifecycleEvent.performDecision, LifecycleEvent.appliedChanges, TextRules.acceptsChange,
        and_comm]
  | some announcement =>
      simp [LifecycleEvent.performDecision, LifecycleEvent.appliedChanges, TextRules.acceptsChange,
        TextRules.acceptsPayload, and_comm, and_left_comm]

/-- Whatever is decided about a row, the database accepts what is written for it. -/
theorem recordable_iff {rules : TextRules} (valid : parsed.Valid) :
    (∀ decision, (parsed.lifecycle draws).sent.decide row.toDomain = .ok decision →
      ((parsed.lifecycle draws).sent.performDecision row decision).2.all rules.acceptsChange =
        true) ↔ Recordable rules draws parsed row := by
  have decides : ∀ {decision}, (parsed.lifecycle draws).sent.decide row.toDomain = .ok decision ↔
      ∃ before, (parsed.lifecycle draws).decide row.toDomain = .ok before ∧
        before.sent = decision := map_eq_ok
  have isEventId := sent_eventId draws parsed
  constructor
  · intro accepts
    constructor
    · intro onlyNoted
      have accepted := accepts .noted
        (decides.mpr ⟨_, (decide_eq_noted_iff valid).mpr onlyNoted, rfl⟩)
      simpa [LifecycleEvent.performDecision, TextRules.acceptsChange, isEventId] using accepted
    · intro current moves
      rcases applied_of_moves draws valid current moves with ⟨updated, entry, decided⟩
      have accepted := accepts (.applied updated.resent entry) (decides.mpr ⟨_, decided, rfl⟩)
      have lawful := ((parsed.lifecycle draws).lawful decided).sent
      rcases moves_of_applied decided with ⟨_, columns, announced⟩
      rw [acceptsDecision_applied lawful, isEventId, announced, TextRules.acceptsRequest,
        columns] at accepted
      exact accepted
  · rintro recordable decision decided
    rcases decides.mp decided with ⟨_ | ⟨updated, entry⟩, before, rfl⟩
    · have accepted := recordable.noted ((decide_eq_noted_iff valid).mp before)
      simpa [LifecycleEvent.performDecision, TextRules.acceptsChange, isEventId, Decision.sent]
        using accepted
    · have lawful := ((parsed.lifecycle draws).lawful before).sent
      rcases moves_of_applied before with ⟨⟨current, moves⟩, columns, announced⟩
      rw [Decision.sent, acceptsDecision_applied lawful, isEventId, announced,
        TextRules.acceptsRequest, columns]
      exact recordable.moved current moves

end Decided

/-- The transition of a valid event writes a row, so it does not fail. -/
theorem performDecision_eq_ok {event : LifecycleEvent} {row : ProcessingRequestRow}
    {decision : Decision} (decided : event.decide row.toDomain = .ok decision) :
    ∃ request, (event.performDecision row decision).1 = .ok request := by
  cases decision with
  | noted => exact ⟨_, rfl⟩
  | applied updated entry =>
      rcases (event.lawful decided).exists_row with ⟨row', rfl, _⟩
      exact ⟨row'.toDomain, by simp [LifecycleEvent.performDecision]⟩

section Permanent

variable {rules : TextRules} {draws : Draws} {parsed : ConsumedEvent} {ledger : Ledger}

theorem storable_of_permanent
    (permanent : ∀ error, (performUnder rules (parsed.lifecycle draws).sent ledger).1 =
      .error error → isPermanentFailure error = true) : Storable rules draws parsed ledger := by
  have valid : parsed.Valid → (parsed.lifecycle draws).sent.refusal = none :=
    refusal_eq_none_iff.mpr
  have accepted : parsed.Valid → rules.text (toWellFormed parsed.eventId) = true := by
    intro isValid
    cases accepted : rules.text (toWellFormed parsed.eventId) with
    | true => rfl
    | false =>
        have failed := permanent (.database textRefused)
          (by rw [performUnder_of_refused (valid isValid) (by rw [sent_eventId, accepted])])
        cases failed
  have locked : parsed.Valid → ledger.findByEventId (toWellFormed parsed.eventId) = none →
      ∀ error, (rules.enforce ((parsed.lifecycle draws).sent.performLocked ledger)).1 =
        .error error → isPermanentFailure error = true := by
    intro isValid unlinked error failed
    apply permanent error
    rw [performUnder_of_accepted (valid isValid) (by rw [sent_eventId, accepted isValid]),
      sent_eventId, unlinked]
    exact failed
  constructor
  · refine permanent_refusal_iff.mp fun error refused => permanent error ?_
    rw [performUnder_of_refusal ((sent_refusal draws parsed).trans refused)]
  · exact accepted
  · intro isValid unlinked
    cases parsedId : Uuid.parse parsed.processingRequestId with
    | some id => rfl
    | none =>
        have failed := locked isValid unlinked invalidUuid (by
          rw [LifecycleEvent.performLocked, sent_processingRequestId, parsedId,
            TextRules.enforce_nothing])
        cases failed
  · intro isValid unlinked id row parsedId found unrecorded
    refine (recordable_iff isValid).mp fun decision decided => ?_
    cases written : ((parsed.lifecycle draws).sent.performDecision row decision).2.all
      rules.acceptsChange with
    | true => rfl
    | false =>
        have failed := locked isValid unlinked (.database textRefused) (by
          rw [LifecycleEvent.performLocked, sent_processingRequestId, parsedId]
          simp [found, unrecorded, decided, TextRules.enforce, written])
        cases failed

/-- What a transition throws, over the driver as without it, is a rule of the domain. -/
theorem decide_sent_eq_error (isValid : parsed.Valid) {request : ProcessingRequest} {error : Thrown}
    (refused : (parsed.lifecycle draws).sent.decide request = .error error) :
    error.IsDomainError :=
  decide_eq_error (refusal_eq_none_iff.mpr isValid) (map_eq_error.mp refused)

theorem permanent_of_storable (storable : Storable rules draws parsed ledger) {error : Thrown}
    (failed : (performUnder rules (parsed.lifecycle draws).sent ledger).1 = .error error) :
    isPermanentFailure error = true := by
  cases valid : (parsed.lifecycle draws).refusal with
  | some refusal =>
      rw [performUnder_of_refusal ((sent_refusal draws parsed).trans valid)] at failed
      cases failed
      exact permanent_refusal_iff.mpr storable.code _ valid
  | none =>
  have isValid := refusal_eq_none_iff.mp valid
  rw [performUnder_of_accepted ((sent_refusal draws parsed).trans valid)
    (by rw [sent_eventId, storable.eventId isValid]), sent_eventId] at failed
  cases unlinked : ledger.findByEventId (toWellFormed parsed.eventId) with
  | some existing =>
      rw [unlinked] at failed
      cases failed
  | none =>
  rw [unlinked] at failed
  rcases Option.isSome_iff_exists.mp (storable.named isValid unlinked) with ⟨id, parsedId⟩
  simp only [LifecycleEvent.performLocked, sent_processingRequestId, parsedId] at failed
  cases found : ledger.requests.find? id with
  | none =>
      simp only [found, TextRules.enforce_nothing, Except.error.injEq] at failed
      rw [← failed]
      rfl
  | some row =>
  cases recorded : ledger.isRecorded (toWellFormed parsed.eventId) with
  | true => simp [found, recorded, TextRules.enforce_nothing] at failed
  | false =>
  cases decided : (parsed.lifecycle draws).sent.decide row.toDomain with
  | error refusal =>
      simp only [found, sent_eventId, recorded, decided, Bool.false_eq_true, if_false,
        TextRules.enforce_nothing, Except.error.injEq] at failed
      rw [← failed]
      exact isPermanentFailure_of_isDomainError (decide_sent_eq_error isValid decided)
  | ok decision =>
      have recordable := storable.recordable isValid unlinked id row parsedId found recorded
      have written := (recordable_iff isValid).mpr recordable decision decided
      rcases performDecision_eq_ok decided with ⟨request, answered⟩
      simp [found, recorded, decided, TextRules.enforce, written, answered] at failed

end Permanent

/-- The message is acked or refused without a requeue, and not requeued. -/
def SettledFinally (effects : List ConsumerEffect) : Prop :=
  (.ack ∈ effects ∨ .nack false false ∈ effects) ∧ ∀ allUpTo, .nack allUpTo true ∉ effects

instance (effects : List ConsumerEffect) : Decidable (SettledFinally effects) :=
  decidable_of_iff ((.ack ∈ effects ∨ .nack false false ∈ effects) ∧
    .nack false true ∉ effects ∧ .nack true true ∉ effects) (by
      simp [SettledFinally, Bool.forall_bool])

theorem settledFinally_settlement {event : ConsumedEventName} {backoffMs : ℕ}
    {outcome : Except Thrown Unit} :
    SettledFinally (settlement event backoffMs outcome) ↔
      ∀ error, outcome = .error error → isPermanentFailure error = true := by
  constructor
  · rintro ⟨_, notRequeued⟩ error rfl
    cases permanent : isPermanentFailure error with
    | true => rfl
    | false =>
        have requeued : .nack false true ∈ settlement event backoffMs (.error error) := by
          simp [settlement, permanent]
        exact absurd requeued (notRequeued false)
  · intro permanent
    cases outcome with
    | ok _ => simp [SettledFinally, settlement]
    | error error => simp [SettledFinally, settlement, permanent error rfl]

section Deliver

variable {rules : TextRules} {event : ConsumedEventName} {draws : Draws} {content : JsString}
  {ledger : Ledger}

/-- A body that cannot be read is refused for ever, unless a member fails to convert. -/
theorem permanent_of_read {error : Thrown}
    (isRead : event.read draws.stack content = .error error) :
    isPermanentFailure error = true ↔ ∀ body, Json.parse content = some body →
      event.Complete body →
        ∀ name ∈ event.converted, MemberConverts draws.stack (unwrap body) name := by
  cases isBody : Json.parse content with
  | none =>
      simp only [ConsumedEventName.read, jsonParse, isBody, bind, Except.bind,
        Except.error.injEq] at isRead
      subst isRead
      refine ⟨?_, fun _ => rfl⟩
      rintro _ _ ⟨⟩
  | some body =>
      rw [read_of_parse isBody] at isRead
      rcases ConsumedEventName.of_parse_eq_error isRead with
        ⟨incomplete, isDomainError⟩ | ⟨complete, name, converted, threw⟩
      · refine ⟨?_, fun _ => isPermanentFailure_of_isDomainError isDomainError⟩
        rintro _ _ ⟨⟩ complete
        exact absurd complete incomplete
      · rcases stringOf_eq_error.mp threw with ⟨_, conversion, _, _, rfl⟩
        refine ⟨by simp, fun converts => ?_⟩
        rw [memberConverts_iff.mp (converts body rfl complete name converted)] at threw
        cases threw

end Deliver

/-- A delivery alone settles its message finally if and only if the message is digestible: its
members convert to strings, the database accepts its text and what is written for it, and its
request is named by a UUID, unless its event is answered without looking for one. -/
theorem settledFinally_iff (rules : TextRules) (event : ConsumedEventName) (drawn : Uuid)
    (draws : Draws) (backoffMs : ℕ) (content : JsString) {shared : Shared Unit}
    (numbered : Numbered shared.database shared.nextOutboxId)
    (unique : UniqueIndexes shared.database.requests) :
    SettledFinally (deliverAlone rules event drawn draws backoffMs content shared).1 ↔
      Digestible rules event draws content (.ofDatabase shared.database) := by
  have represents := Database.represents_ofDatabase shared.database
  rw [(deliverAlone_spec _ _ _ _ _ _ represents numbered unique).1, settledFinally_settlement]
  cases isRead : event.read draws.stack content with
  | error error =>
      rw [handledUnder_of_error isRead]
      constructor
      · intro permanent body isBody complete
        have converts := (permanent_of_read isRead).mp (permanent error rfl) body isBody complete
        rw [read_of_parse isBody, ConsumedEventName.parse_of_complete complete converts] at isRead
        cases isRead
      · rintro digestible _ ⟨⟩
        exact (permanent_of_read isRead).mpr fun body isBody complete =>
          (digestible body isBody complete).1
  | ok parsed =>
      rw [handledUnder_of_ok isRead]
      have handled : ∀ {error},
          (Performed.map (fun _ => ()) (performUnder rules (parsed.lifecycle draws).sent
            (.ofDatabase shared.database))).1 = .error error ↔
          (performUnder rules (parsed.lifecycle draws).sent (.ofDatabase shared.database)).1 =
            .error error := map_eq_error
      have named : ∀ body, Json.parse content = some body → event.Complete body ∧
          (∀ name ∈ event.converted, MemberConverts draws.stack (unwrap body) name) ∧
          event.named draws.stack (unwrap body) = parsed := by
        intro body isBody
        rw [read_of_parse isBody] at isRead
        exact ConsumedEventName.parse_eq_ok_iff.mp isRead
      constructor
      · intro permanent body isBody complete
        rcases named body isBody with ⟨_, converts, isNamed⟩
        refine ⟨converts, ?_⟩
        rw [isNamed]
        exact storable_of_permanent fun error failed => permanent error (handled.mpr failed)
      · intro digestible error failed
        cases isBody : Json.parse content with
        | none => simp [ConsumedEventName.read, jsonParse, isBody, bind, Except.bind] at isRead
        | some body =>
            rcases named body isBody with ⟨complete, _, isNamed⟩
            have storable := (digestible body isBody complete).2
            rw [isNamed] at storable
            exact permanent_of_storable storable (handled.mp failed)

/-- An acceptance that names its request `processingRequestId`. -/
def acceptanceBody (processingRequestId : String) : JsString :=
  js "\x7b\"eventId\":\"e-1\",\"processingRequestId\":\"" ++ js processingRequestId ++
    js "\",\"occurredAt\":\"2026-09-21T01:10:00.000Z\"\x7d"

def poisonDraws : Draws :=
  ⟨1789953000000, .repeated 1, .repeated 2, 3000⟩

/-- A text that is no UUID comes as far as the database, which refuses it: the message goes back to
the queue, as it does on every delivery. -/
theorem malformed_id_is_requeued :
    (deliverAlone .lenient .videoAccepted poisonDraws.eventUuid poisonDraws 1000
        (acceptanceBody "abc") ⟨.empty, 1, []⟩).1 = [.pause 1000, .nack false true] ∧
      ¬ ∀ (event : ConsumedEventName) (content : JsString) (shared : Shared Unit),
        SettledFinally (deliverAlone .lenient event poisonDraws.eventUuid poisonDraws 1000 content
          shared).1 := by
  have requeued : (deliverAlone .lenient .videoAccepted poisonDraws.eventUuid poisonDraws 1000
      (acceptanceBody "abc") ⟨.empty, 1, []⟩).1 = [.pause 1000, .nack false true] := by
    decide +kernel
  refine ⟨requeued, fun settled => ?_⟩
  have final := settled .videoAccepted (acceptanceBody "abc") ⟨.empty, 1, []⟩
  rw [requeued] at final
  exact final.2 false (List.mem_cons_of_mem _ List.mem_cons_self)

theorem settledFinally_iff_unknown :
    Digestible .lenient .videoAccepted poisonDraws
      (acceptanceBody "6f1c2a34-0b7d-4c59-9e21-3d5a8b0c4e17") (.ofDatabase .empty) := by
  have numbered : Numbered .empty 1 := by simp [Numbered, Database.empty]
  have final : SettledFinally (deliverAlone .lenient .videoAccepted poisonDraws.eventUuid
      poisonDraws 1000 (acceptanceBody "6f1c2a34-0b7d-4c59-9e21-3d5a8b0c4e17")
      ⟨.empty, 1, []⟩).1 := by
    decide +kernel
  exact (settledFinally_iff .lenient .videoAccepted poisonDraws.eventUuid poisonDraws 1000 _
    numbered uniqueIndexes_empty).mp final

end Postgres

end ProcessingCatalog
