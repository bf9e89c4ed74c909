import ProcessingCatalog.Application.CreateProcessingRequest
import ProcessingCatalog.Interface.OwnedProcessingRequestsController

/-!
# The route of a create

The body is untyped JSON. Each of its fields is checked in order: present, a
string, not blank, not too long, where the length is the number of UTF-16 units.
What the use case rejects is answered by the status of its error.
-/

namespace ProcessingCatalog

open Effect CreateProcessingRequestUseCase

/-- What the use case reads of a body whose fields were checked. -/
structure CreateProcessingRequestDto where
  ownerUserId : JsString
  ownerEmail : JsString
  sourceStorageKey : JsString
  idempotencyKey : JsString
  /-- Left to the use case to validate. -/
  correlationId : Option Json

namespace CreateProcessingRequestController

/-- The outcome of a check: a value, the exception of the route, or another error. -/
abbrev Checked (α : Type) : Type := ExceptT HttpException (Except Thrown) α

def maxOwnerUserIdLength : ℕ := 255

def maxOwnerEmailLength : ℕ := 255

def maxSourceStorageKeyLength : ℕ := 1024

/-- The API's limit on the `Idempotency-Key` header. -/
def maxIdempotencyKeyLength : ℕ := 255

/-- `dto[field]`, which throws where there is no body. -/
def property (dto : Json) (field : JsString) : Except Thrown (Option Json) :=
  if dto.isNull then .error .typeError else .ok (dto.member? field)

/-- The checks of `requireString` on the value it read. -/
def checkString (field : JsString) (maxLength : ℕ) : Option Json → Except HttpException JsString
  | none => .error (.badRequestException (field ++ js " is required"))
  | some .null => .error (.badRequestException (field ++ js " is required"))
  | some (.string value) =>
      if isBlank value then
        .error (.badRequestException (field ++ js " is required"))
      else if maxLength < value.length then
        .error (.badRequestException
          (field ++ js " must be at most " ++ decimal maxLength ++ js " characters"))
      else
        .ok value
  | some _ => .error (.badRequestException (field ++ js " must be a string"))

def requireString (dto : Json) (field : JsString) (maxLength : ℕ) : Checked JsString :=
  ExceptT.mk ((property dto field).map (checkString field maxLength))

def validateDto (dto : Json) : Checked CreateProcessingRequestDto := do
  let ownerUserId ← requireString dto (js "ownerUserId") maxOwnerUserIdLength
  let ownerEmail ← requireString dto (js "ownerEmail") maxOwnerEmailLength
  let sourceStorageKey ← requireString dto (js "sourceStorageKey") maxSourceStorageKeyLength
  let idempotencyKey ← requireString dto (js "idempotencyKey") maxIdempotencyKeyLength
  return ⟨ownerUserId, ownerEmail, sourceStorageKey, idempotencyKey,
    dto.member? (js "correlationId")⟩

/-- The input of the use case, with the event identifier the route draws. -/
def inputOf (eventId : Uuid) (dto : CreateProcessingRequestDto) : Input where
  eventId := eventId.text
  ownerUserId := dto.ownerUserId
  ownerEmail := dto.ownerEmail
  sourceStorageKey := dto.sourceStorageKey
  idempotencyKey := dto.idempotencyKey
  correlationId := dto.correlationId

/-- The body of an answer. -/
structure CreatedBody where
  processingRequestId : JsString
  status : ProcessingRequestStatus
  ownerUserId : JsString
  sourceStorageKey : JsString
  createdAt : JsString

/-- The status and the body of an answer: 201 for a new request, 200 for one that is replayed. -/
def answerOf (result : Result) : ℕ × CreatedBody :=
  let request := result.request
  (match result.outcome with
    | .created => 201
    | .replayed => 200,
    ⟨request.processingRequestId, request.status, request.ownerUserId, request.sourceStorageKey,
      toISOString request.createdAt⟩)

variable {σ : Signature}

/-- The exception that answers an error of the use case. -/
def exceptionOf (error : Thrown) : Computation σ (Except HttpException (ℕ × CreatedBody)) :=
  match error with
  | .idempotencyConflictError => return .error (.conflictException
      (js "idempotencyKey is already used for a different sourceStorageKey"))
  | .processingRequestDomainError message => return .error (.badRequestException message)
  | error => throw error

def create (repository : ProcessingRequestRepository σ) (unitOfWork : UnitOfWork σ)
    (eventId : Uuid) (draws : Draws) (dto : Json) :
    OwnedProcessingRequestsController.Response σ (ℕ × CreatedBody) := do
  let checked ← ExceptT.mk (.ofExcept (validateDto dto).run)
  ExceptT.mk (tryCatch
    (do
      let result ← execute repository unitOfWork draws (inputOf eventId checked)
      return .ok (answerOf result))
    exceptionOf)

section Checks

variable {body : Json} {field value : JsString} {maxLength : ℕ}

theorem checkString_eq_ok {member : Option Json} :
    checkString field maxLength member = .ok value ↔
      member = some (.string value) ∧ isBlank value = false ∧ value.length ≤ maxLength := by
  unfold checkString
  split
  · simp
  · simp
  · next text =>
      cases blank : isBlank text with
      | true =>
          refine iff_of_false (by simp) ?_
          rintro ⟨⟨⟩, notBlank, _⟩
          rw [blank] at notBlank
          cases notBlank
      | false =>
          simp only [Bool.false_eq_true, if_false]
          split
          · next long =>
              refine iff_of_false (by simp) ?_
              rintro ⟨⟨⟩, _, short⟩
              omega
          · next short =>
              constructor
              · rintro ⟨⟩
                exact ⟨rfl, blank, Nat.le_of_not_lt short⟩
              · rintro ⟨⟨⟩, _, _⟩
                rfl
  · next notNull notString =>
      refine iff_of_false (by simp) ?_
      rintro ⟨⟨⟩, _⟩
      exact notString value rfl

/-- A field that is refused is named by the error. -/
theorem checkString_eq_error {member : Option Json} {exception : HttpException}
    (refused : checkString field maxLength member = .error exception) :
    ∃ reason, exception = .badRequestException (field ++ reason) := by
  unfold checkString at refused
  split at refused
  · cases refused
    exact ⟨_, rfl⟩
  · cases refused
    exact ⟨_, rfl⟩
  · split at refused
    · cases refused
      exact ⟨_, rfl⟩
    · split at refused
      · cases refused
        exact ⟨_, by rw [List.append_assoc, List.append_assoc]⟩
      · cases refused
  · cases refused
    exact ⟨_, rfl⟩

/-- A field passes if and only if it is a string that is not blank and not too long. -/
theorem requireString_eq_ok :
    (requireString body field maxLength).run = .ok (.ok value) ↔
      body.member? field = some (.string value) ∧ isBlank value = false ∧
        value.length ≤ maxLength := by
  have ran : (requireString body field maxLength).run =
      (property body field).map (checkString field maxLength) := rfl
  rw [ran, property]
  cases noBody : body.isNull with
  | true =>
      refine iff_of_false (fun passed => ?_) ?_
      · cases passed
      · cases body <;> simp_all [Json.isNull, Json.member?]
  | false =>
      have passes := @checkString_eq_ok field value maxLength (body.member? field)
      rw [← passes]
      simp [Except.map]

theorem checked_bind_eq_ok {α β : Type} {first : Checked α} {next : α → Checked β} {result : β} :
    (first >>= next).run = .ok (.ok result) ↔
      ∃ middle, first.run = .ok (.ok middle) ∧ (next middle).run = .ok (.ok result) := by
  rw [ExceptT.run_bind, bind_eq_ok]
  constructor
  · rintro ⟨outcome, ran, rest⟩
    cases outcome with
    | error exception => cases rest
    | ok middle => exact ⟨middle, ran, rest⟩
  · rintro ⟨middle, ran, rest⟩
    exact ⟨.ok middle, ran, rest⟩

theorem checked_bind_eq_error {α β : Type} {first : Checked α} {next : α → Checked β}
    {exception : HttpException} :
    (first >>= next).run = .ok (.error exception) ↔ first.run = .ok (.error exception) ∨
      ∃ middle, first.run = .ok (.ok middle) ∧ (next middle).run = .ok (.error exception) := by
  rw [ExceptT.run_bind, bind_eq_ok]
  constructor
  · rintro ⟨outcome, ran, rest⟩
    cases outcome with
    | error other =>
        cases rest
        exact .inl ran
    | ok middle => exact .inr ⟨middle, ran, rest⟩
  · rintro (ran | ⟨middle, ran, rest⟩)
    · exact ⟨.error exception, ran, rfl⟩
    · exact ⟨.ok middle, ran, rest⟩

/-- A body is refused with a 400 that begins with the name of a field. -/
theorem validateDto_eq_error {exception : HttpException}
    (refused : (validateDto body).run = .ok (.error exception)) :
    ∃ field ∈ [js "ownerUserId", js "ownerEmail", js "sourceStorageKey", js "idempotencyKey"],
      ∃ reason, exception = .badRequestException (field ++ reason) := by
  have named : ∀ {field maxLength},
      (requireString body field maxLength).run = .ok (.error exception) →
        ∃ reason, exception = .badRequestException (field ++ reason) := by
    intro field maxLength ran
    have ran : (property body field).map (checkString field maxLength) = .ok (.error exception) :=
      ran
    cases read : property body field with
    | error error =>
        rw [read] at ran
        cases ran
    | ok member =>
        rw [read] at ran
        exact checkString_eq_error (Except.ok.inj ran)
  simp only [validateDto, checked_bind_eq_error] at refused
  rcases refused with owner | ⟨_, _, email | ⟨_, _, source | ⟨_, _, key | ⟨_, _, passed⟩⟩⟩⟩
  · exact ⟨_, by simp, named owner⟩
  · exact ⟨_, by simp, named email⟩
  · exact ⟨_, by simp, named source⟩
  · exact ⟨_, by simp, named key⟩
  · cases passed

/-- A body is accepted if and only if each of its fields passes. -/
theorem validateDto_eq_ok {dto : CreateProcessingRequestDto} :
    (validateDto body).run = .ok (.ok dto) ↔
      (requireString body (js "ownerUserId") maxOwnerUserIdLength).run =
        .ok (.ok dto.ownerUserId) ∧
      (requireString body (js "ownerEmail") maxOwnerEmailLength).run = .ok (.ok dto.ownerEmail) ∧
      (requireString body (js "sourceStorageKey") maxSourceStorageKeyLength).run =
        .ok (.ok dto.sourceStorageKey) ∧
      (requireString body (js "idempotencyKey") maxIdempotencyKeyLength).run =
        .ok (.ok dto.idempotencyKey) ∧
      dto.correlationId = body.member? (js "correlationId") := by
  simp only [validateDto, checked_bind_eq_ok]
  constructor
  · rintro ⟨owner, hasOwner, email, hasEmail, source, hasSource, key, hasKey, isDto⟩
    cases isDto
    exact ⟨hasOwner, hasEmail, hasSource, hasKey, rfl⟩
  · rintro ⟨hasOwner, hasEmail, hasSource, hasKey, isCorrelation⟩
    refine ⟨_, hasOwner, _, hasEmail, _, hasSource, _, hasKey, ?_⟩
    rw [← isCorrelation]
    rfl

end Checks

end CreateProcessingRequestController

end ProcessingCatalog
