import ProcessingCatalog.RabbitMq.Failures

/-!
# What a Worker sends back

The three events a Worker sends about an attempt it was given, and what the use
cases make of them when the attempt is the request's own.
-/

namespace ProcessingCatalog

open Domain

namespace ConsumedEvent

/-- An event of the Worker about the attempt `attemptId` of a request. -/
def Echoes (processingRequestId attemptId : JsString) : ConsumedEvent → Prop
  | .processingStarted parsed =>
      parsed.processingRequestId = processingRequestId ∧ parsed.attemptId = attemptId
  | .processingCompleted parsed =>
      parsed.processingRequestId = processingRequestId ∧ parsed.attemptId = attemptId
  | .processingFailed parsed =>
      parsed.processingRequestId = processingRequestId ∧ parsed.attemptId = attemptId
  | _ => False

/-- An identifier and a zip key that are not blank, and a code the Catalog knows. -/
def WellFormed : ConsumedEvent → Prop
  | .videoAccepted parsed => isBlank parsed.eventId = false
  | .videoRejected parsed =>
      isBlank parsed.eventId = false ∧ isFailureCode parsed.failureCode = true
  | .processingStarted parsed => isBlank parsed.eventId = false
  | .processingCompleted parsed =>
      isBlank parsed.eventId = false ∧ isBlank parsed.zipStorageKey = false
  | .processingFailed parsed =>
      isBlank parsed.eventId = false ∧ isFailureCode parsed.failureCode = true

variable {parsed : ConsumedEvent} {id attemptId : Uuid} {draws : Draws}

theorem Echoes.processingRequestId (echoes : parsed.Echoes id.text attemptId.text) :
    (parsed.lifecycle draws).processingRequestId = id.text := by
  cases parsed with
  | videoAccepted => exact echoes.elim
  | videoRejected => exact echoes.elim
  | processingStarted => exact echoes.1
  | processingCompleted => exact echoes.1
  | processingFailed => exact echoes.1

/-- A well-formed event about a request with an identifier is not refused for its input. -/
theorem Echoes.refusal (echoes : parsed.Echoes id.text attemptId.text)
    (wellFormed : parsed.WellFormed) : (parsed.lifecycle draws).refusal = none := by
  have named : isBlank id.text = false := Uuid.isBlank_of_parse (Uuid.parse_text id)
  cases parsed with
  | videoAccepted => exact echoes.elim
  | videoRejected => exact echoes.elim
  | processingStarted parsed =>
      rw [← echoes.1] at named
      simp only [WellFormed] at wellFormed
      simp [lifecycle, StartProcessingRequestUseCase.event, firstRefusal, named, wellFormed]
  | processingCompleted parsed =>
      rw [← echoes.1] at named
      simp only [WellFormed] at wellFormed
      simp [lifecycle, CompleteProcessingRequestUseCase.event, firstRefusal, named, wellFormed]
  | processingFailed parsed =>
      rw [← echoes.1] at named
      simp only [WellFormed] at wellFormed
      simp [lifecycle, FailProcessingRequestUseCase.event, firstRefusal, named, wellFormed]

end ConsumedEvent

section Current

variable {request : ProcessingRequest} {attemptId : JsString}

theorem isStaleAttempt_of_current (current : request.attemptId = some attemptId) :
    isStaleAttempt request (some attemptId) = false := by
  simp [isStaleAttempt, current]

/-- An event about the request's own attempt is refused only when the request has ended. -/
theorem ConsumedEvent.Echoes.terminal_of_refused {parsed : ConsumedEvent} {id : JsString}
    {draws : Draws} (echoes : parsed.Echoes id attemptId)
    (valid : (parsed.lifecycle draws).refusal = none)
    (current : request.attemptId = some attemptId) (accepted : request.status ≠ .received)
    {error : Thrown} (refused : (parsed.lifecycle draws).decide request = .error error) :
    request.status.Terminal := by
  by_contra notEnded
  have running : request.status = .queued ∨ request.status = .processing := by
    cases status : request.status <;>
      simp [status, ProcessingRequestStatus.Terminal] at accepted notEnded ⊢
  have notStale := isStaleAttempt_of_current current
  suffices decided : ∃ decision, (parsed.lifecycle draws).decide request = .ok decision by
    rcases decided with ⟨decision, decided⟩
    rw [refused] at decided
    cases decided
  cases parsed with
  | videoAccepted => exact echoes.elim
  | videoRejected => exact echoes.elim
  | processingStarted parsed =>
      have started : ∃ updated, startProcessingRequest draws request = .ok updated := by
        rcases running with queued | processing
        · exact ⟨_, startProcessingRequest_eq_ok.mpr ⟨accepted, .inl ⟨queued, rfl⟩⟩⟩
        · exact ⟨_, startProcessingRequest_eq_ok.mpr
            ⟨accepted, .inr ⟨by simp [processing], rfl⟩⟩⟩
      rcases started with ⟨updated, started⟩
      exact ⟨_, StartProcessingRequestUseCase.decide_eq_ok.mpr
        (.inr ⟨echoes.2 ▸ notStale, _, started, rfl⟩)⟩
  | processingCompleted parsed =>
      have zip := firstRefusal_eq_none_iff.mp valid
        (isBlank parsed.zipStorageKey, zipStorageKeyRequired)
        (List.mem_cons_of_mem _ (List.mem_cons_of_mem _ List.mem_cons_self))
      have completable : request.status ∈ completableStatuses := by
        simpa [completableStatuses] using running
      have completed : ∃ updated,
          completeProcessingRequest draws request parsed.zipStorageKey = .ok updated :=
        ⟨_, completeProcessingRequest_eq_ok.mpr ⟨zip, .inr ⟨completable, rfl⟩⟩⟩
      rcases completed with ⟨updated, completed⟩
      exact ⟨_, CompleteProcessingRequestUseCase.decide_eq_ok.mpr
        (.inr ⟨echoes.2 ▸ notStale, _, completed, rfl⟩)⟩
  | processingFailed parsed =>
      have known := firstRefusal_eq_none_iff.mp valid
        (!isFailureCode parsed.failureCode, unknownFailureCode draws parsed.failureCode)
        (List.mem_cons_of_mem _ (List.mem_cons_of_mem _ List.mem_cons_self))
      have known : isFailureCode parsed.failureCode = true := by simpa using known
      rcases Option.isSome_iff_exists.mp known with ⟨code, isCode⟩
      have failable : request.status ∈ failableStatuses := by
        simpa [failableStatuses] using running
      have failed : ∃ updated,
          failProcessingRequest draws request parsed.failureCode = .ok updated :=
        ⟨_, failProcessingRequest_eq_ok.mpr ⟨failable, code, isCode, rfl⟩⟩
      rcases failed with ⟨updated, failed⟩
      exact ⟨_, FailProcessingRequestUseCase.decide_eq_ok.mpr
        (.inr ⟨fun _ => echoes.2 ▸ notStale, _, .inr ⟨rfl, failed⟩, rfl⟩)⟩

end Current

end ProcessingCatalog
