import ProcessingCatalog.RabbitMq.Settlement
import ProcessingCatalog.Store.Ledger

/-!
# What the consumers throw

Every failure of a use case for its input or for a rule of the domain is a
domain error, which is permanent, but for a conversion to a string that throws.
-/

namespace ProcessingCatalog

open Effect Domain

/-- The failures that the source calls domain errors. -/
def Thrown.IsDomainError (error : Thrown) : Prop :=
  ∃ message, error = .processingRequestDomainError message

/-- The failures of a conversion to a string. -/
def Thrown.IsConversionError (error : Thrown) : Prop :=
  ∃ conversion, error = conversionThrew conversion

theorem isPermanentFailure_of_isDomainError {error : Thrown} (isDomainError : error.IsDomainError) :
    isPermanentFailure error = true :=
  isPermanentFailure_iff.mpr (.inl isDomainError)

@[simp]
theorem isPermanentFailure_conversionThrew (conversion : Json.ConversionError) :
    isPermanentFailure (conversionThrew conversion) = false := by
  cases conversion <;> rfl

theorem firstRefusal_cases {checks : List (Bool × Thrown)} {fact : Thrown → Prop}
    (all : ∀ check ∈ checks, fact check.2) {error : Thrown}
    (refused : firstRefusal checks = some error) : fact error := by
  induction checks with
  | nil => cases refused
  | cons check checks ih =>
      unfold firstRefusal at refused
      split at refused
      · cases refused
        exact all check List.mem_cons_self
      · exact ih (fun other otherMem => all other (List.mem_cons_of_mem _ otherMem)) refused

theorem firstRefusal_eq_none_iff {checks : List (Bool × Thrown)} :
    firstRefusal checks = none ↔ ∀ check ∈ checks, check.1 = false := by
  induction checks with
  | nil => simp [firstRefusal]
  | cons check checks ih => cases fails : check.1 <;> simp [firstRefusal, fails, ih]

theorem firstRefusal_append (first second : List (Bool × Thrown)) :
    firstRefusal (first ++ second) = (firstRefusal first).or (firstRefusal second) := by
  induction first with
  | nil => rfl
  | cons check checks ih => cases fails : check.1 <;> simp [firstRefusal, fails, ih]

theorem unknownFailureCode_cases (draws : Draws) (value : Json) :
    (unknownFailureCode draws value).IsDomainError ∨
      (unknownFailureCode draws value).IsConversionError := by
  unfold unknownFailureCode
  cases value.text draws.stack with
  | ok text => exact .inl ⟨_, rfl⟩
  | error conversion => exact .inr ⟨conversion, rfl⟩

/-- What a use case throws for its own input. -/
theorem refusal_cases {draws : Draws} {parsed : ConsumedEvent} {error : Thrown}
    (refused : (parsed.lifecycle draws).refusal = some error) :
    error.IsDomainError ∨ error.IsConversionError := by
  have required : ∀ message,
      (Thrown.processingRequestDomainError message).IsDomainError ∨
        (Thrown.processingRequestDomainError message).IsConversionError :=
    fun message => .inl ⟨message, rfl⟩
  cases parsed with
  | videoAccepted parsed =>
      apply firstRefusal_cases _ refused
      simp [eventIdRequired, processingRequestIdRequired, required]
  | videoRejected parsed =>
      apply firstRefusal_cases _ refused
      simp only [List.forall_mem_cons, eventIdRequired, processingRequestIdRequired, required,
        unknownFailureCode_cases]
      simp
  | processingStarted parsed =>
      apply firstRefusal_cases _ refused
      simp [eventIdRequired, processingRequestIdRequired, required]
  | processingCompleted parsed =>
      apply firstRefusal_cases _ refused
      simp [eventIdRequired, processingRequestIdRequired, zipStorageKeyRequired, required]
  | processingFailed parsed =>
      apply firstRefusal_cases _ refused
      simp only [List.forall_mem_cons, eventIdRequired, processingRequestIdRequired, required,
        unknownFailureCode_cases]
      simp

theorem FailProcessingRequestUseCase.decide_eq_error {draws : Draws} {input : Input}
    (valid : (event draws input).refusal = none) {request : ProcessingRequest} {error : Thrown}
    (refused : decide draws input request = .error error) : error.IsDomainError := by
  have known : isFailureCode input.failureCode = true := by
    have passed := firstRefusal_eq_none_iff.mp valid
      (!isFailureCode input.failureCode, unknownFailureCode draws input.failureCode)
      (List.mem_cons_of_mem _ (List.mem_cons_of_mem _ List.mem_cons_self))
    simpa using passed
  unfold FailProcessingRequestUseCase.decide at refused
  split at refused
  · cases refused
  · simp only at refused
    split at refused
    · rcases bind_eq_error.mp refused with transition | ⟨_, _, recorded⟩
      · exact rejectProcessingRequest_eq_error known transition
      · cases recorded
    · rcases bind_eq_error.mp refused with transition | ⟨_, _, recorded⟩
      · exact failProcessingRequest_eq_error known transition
      · cases recorded

/-- What a use case throws once its input is valid, it throws for a rule of the domain. -/
theorem decide_eq_error {draws : Draws} {parsed : ConsumedEvent}
    (valid : (parsed.lifecycle draws).refusal = none) {request : ProcessingRequest} {error : Thrown}
    (refused : (parsed.lifecycle draws).decide request = .error error) : error.IsDomainError := by
  cases parsed with
  | videoAccepted parsed =>
      rcases bind_eq_error.mp refused with transition | ⟨_, _, recorded⟩
      · exact acceptProcessingRequest_eq_error transition
      · cases recorded
  | videoRejected parsed => exact FailProcessingRequestUseCase.decide_eq_error valid refused
  | processingStarted parsed =>
      simp only [ConsumedEvent.lifecycle, StartProcessingRequestUseCase.event,
        StartProcessingRequestUseCase.decide] at refused
      split at refused
      · cases refused
      · rcases bind_eq_error.mp refused with transition | ⟨_, _, recorded⟩
        · exact startProcessingRequest_eq_error transition
        · cases recorded
  | processingCompleted parsed =>
      simp only [ConsumedEvent.lifecycle, CompleteProcessingRequestUseCase.event,
        CompleteProcessingRequestUseCase.decide] at refused
      split at refused
      · cases refused
      · rcases bind_eq_error.mp refused with transition | ⟨_, _, recorded⟩
        · exact completeProcessingRequest_eq_error transition
        · cases recorded
  | processingFailed parsed => exact FailProcessingRequestUseCase.decide_eq_error valid refused

end ProcessingCatalog
