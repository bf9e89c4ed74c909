import ProcessingCatalog.Domain.Uuid
import ProcessingCatalog.JavaScript.Json

/-!
# The aggregate and its transitions

The transitions are pure: the clock and the random identifiers they read are
arguments here. A transition that restates what already holds returns the
request it was given, so comparing the two values is the source's comparison of
the two references.
-/

namespace ProcessingCatalog

/-- What a statement sent to the database may fail with. -/
inductive DatabaseError where
  | queryFailedError (code : Option JsString) (constraint : Option JsString)
  | pessimisticLockTransactionRequired
  | connectionError
  deriving DecidableEq

/-- What the code throws. -/
inductive Thrown where
  | processingRequestDomainError (message : JsString)
  | duplicateIdempotencyKeyError (ownerUserId idempotencyKey : JsString)
  | duplicateSourceError (ownerUserId sourceStorageKey : JsString)
  | idempotencyConflictError
  | syntaxError
  | typeError
  | rangeError
  | database (error : DatabaseError)
  deriving DecidableEq

inductive ProcessingRequestStatus where
  | received
  | queued
  | processing
  | completed
  | failed
  deriving DecidableEq

def ProcessingRequestStatus.text : ProcessingRequestStatus → JsString
  | .received => js "RECEIVED"
  | .queued => js "QUEUED"
  | .processing => js "PROCESSING"
  | .completed => js "COMPLETED"
  | .failed => js "FAILED"

/-- A status no transition leaves. -/
def ProcessingRequestStatus.Terminal (status : ProcessingRequestStatus) : Prop :=
  status = .completed ∨ status = .failed

instance (status : ProcessingRequestStatus) : Decidable status.Terminal :=
  inferInstanceAs (Decidable (_ ∨ _))

/-- The closed vocabulary of safe failure codes. -/
inductive FailureCode where
  | formatoInvalido
  | duracaoExcedida
  | processamentoFalhou
  deriving DecidableEq

def FailureCode.text : FailureCode → JsString
  | .formatoInvalido => js "FORMATO_INVALIDO"
  | .duracaoExcedida => js "DURACAO_EXCEDIDA"
  | .processamentoFalhou => js "PROCESSAMENTO_FALHOU"

def failureCodes : List FailureCode :=
  [.formatoInvalido, .duracaoExcedida, .processamentoFalhou]

/-- The code a value is: `isFailureCode` together with the type it narrows to. -/
def failureCode? : Json → Option FailureCode
  | .string value => failureCodes.find? fun code => code.text = value
  | _ => none

def isFailureCode (value : Json) : Bool :=
  (failureCode? value).isSome

structure ProcessingRequest where
  processingRequestId : JsString
  ownerUserId : JsString
  ownerEmail : JsString
  sourceStorageKey : JsString
  status : ProcessingRequestStatus
  attemptId : Option JsString
  zipStorageKey : Option JsString
  failureCode : Option FailureCode
  idempotencyKey : Option JsString
  correlationId : Option JsString
  createdAt : Date
  updatedAt : Date
  deriving DecidableEq

/-- The fields a request keeps for ever once it is stored. -/
def ProcessingRequest.SameIdentity (before after : ProcessingRequest) : Prop :=
  after.processingRequestId = before.processingRequestId ∧
    after.ownerUserId = before.ownerUserId ∧ after.ownerEmail = before.ownerEmail ∧
    after.sourceStorageKey = before.sourceStorageKey ∧
    after.idempotencyKey = before.idempotencyKey ∧
    after.correlationId = before.correlationId ∧ after.createdAt = before.createdAt

theorem ProcessingRequest.SameIdentity.refl (request : ProcessingRequest) :
    request.SameIdentity request :=
  ⟨rfl, rfl, rfl, rfl, rfl, rfl, rfl⟩

theorem ProcessingRequest.SameIdentity.symm {before after : ProcessingRequest}
    (same : before.SameIdentity after) : after.SameIdentity before := by
  obtain ⟨id, owner, email, source, key, correlation, created⟩ := same
  exact ⟨id.symm, owner.symm, email.symm, source.symm, key.symm, correlation.symm, created.symm⟩

theorem ProcessingRequest.SameIdentity.trans {first second third : ProcessingRequest}
    (left : first.SameIdentity second) (right : second.SameIdentity third) :
    first.SameIdentity third := by
  obtain ⟨id, owner, email, source, key, correlation, created⟩ := left
  obtain ⟨id', owner', email', source', key', correlation', created'⟩ := right
  exact ⟨id'.trans id, owner'.trans owner, email'.trans email, source'.trans source,
    key'.trans key, correlation'.trans correlation, created'.trans created⟩

/-- The clock and the random identifiers one execution reads, and the call stack it runs on. -/
structure Draws where
  now : Date
  /-- The identifier the domain draws: of the request created, or of the attempt. -/
  uuid : Uuid
  /-- The identifier the use case draws for the event it records. -/
  eventUuid : Uuid
  /-- How deep arrays may nest that are converted to a string. -/
  stack : ℕ

namespace Domain

def domainError {α : Type} (message : JsString) : Except Thrown α :=
  .error (.processingRequestDomainError message)

structure CreateProcessingRequestInput where
  ownerUserId : JsString
  ownerEmail : JsString
  sourceStorageKey : JsString
  idempotencyKey : Option JsString
  correlationId : Option JsString

def createProcessingRequest (draws : Draws) (input : CreateProcessingRequestInput) :
    Except Thrown ProcessingRequest := do
  if isBlank input.ownerUserId then
    domainError (js "ownerUserId is required")
  if isBlank input.ownerEmail then
    domainError (js "ownerEmail is required")
  if isBlank input.sourceStorageKey then
    domainError (js "sourceStorageKey is required")
  return {
    processingRequestId := draws.uuid.text
    ownerUserId := input.ownerUserId
    ownerEmail := input.ownerEmail
    sourceStorageKey := input.sourceStorageKey
    status := .received
    attemptId := none
    zipStorageKey := none
    failureCode := none
    idempotencyKey := input.idempotencyKey
    correlationId := input.correlationId
    createdAt := draws.now
    updatedAt := draws.now }

def acceptProcessingRequest (draws : Draws) (request : ProcessingRequest) :
    Except Thrown ProcessingRequest := do
  if request.status ≠ .received then
    domainError (js "Cannot accept request in " ++ request.status.text ++ js " status")
  return { request with
    status := .queued, attemptId := some draws.uuid.text, updatedAt := draws.now }

/-- Whether an attempt event belongs to an attempt other than the current one. -/
def isStaleAttempt (request : ProcessingRequest) (attemptId : Option JsString) : Bool :=
  request.attemptId.isSome && attemptId ≠ request.attemptId

def isUnchanged (before after : ProcessingRequest) : Bool :=
  before = after

def completableStatuses : List ProcessingRequestStatus :=
  [.queued, .processing]

def completeProcessingRequest (draws : Draws) (request : ProcessingRequest)
    (zipStorageKey : JsString) : Except Thrown ProcessingRequest := do
  if isBlank zipStorageKey then
    domainError (js "zipStorageKey is required")
  if request.status = .completed ∧ request.zipStorageKey = some zipStorageKey then
    return request
  if request.status ∉ completableStatuses then
    domainError (js "Cannot complete request in " ++ request.status.text ++ js " status")
  return { request with
    status := .completed, zipStorageKey := some zipStorageKey, updatedAt := draws.now }

def startProcessingRequest (draws : Draws) (request : ProcessingRequest) :
    Except Thrown ProcessingRequest := do
  if request.status = .received then
    domainError (js "Cannot start request in " ++ request.status.text ++ js " status")
  if request.status ≠ .queued then
    return request
  return { request with status := .processing, updatedAt := draws.now }

def failableStatuses : List ProcessingRequestStatus :=
  [.queued, .processing]

/-- What a conversion to a string throws, where it is not caught. -/
def conversionThrew : Json.ConversionError → Thrown
  | .typeError => .typeError
  | .rangeError => .rangeError

/-- What throwing `Unknown failure code ${String(value)}` throws: converting the
value to a string may itself throw. -/
def unknownFailureCode (draws : Draws) (value : Json) : Thrown :=
  match value.text draws.stack with
  | .ok text => .processingRequestDomainError (js "Unknown failure code " ++ text)
  | .error error => conversionThrew error

def failProcessingRequest (draws : Draws) (request : ProcessingRequest) (failureCode : Json) :
    Except Thrown ProcessingRequest := do
  if request.status ∉ failableStatuses then
    domainError (js "Cannot fail request in " ++ request.status.text ++ js " status")
  let some code := failureCode? failureCode | throw (unknownFailureCode draws failureCode)
  return { request with status := .failed, failureCode := some code, updatedAt := draws.now }

def rejectProcessingRequest (draws : Draws) (request : ProcessingRequest) (failureCode : Json) :
    Except Thrown ProcessingRequest := do
  if request.status ≠ .received then
    domainError (js "Cannot reject request in " ++ request.status.text ++ js " status")
  let some code := failureCode? failureCode | throw (unknownFailureCode draws failureCode)
  return { request with status := .failed, failureCode := some code, updatedAt := draws.now }

/-- The sentence shown to the owner for a failure code. -/
def failureReasonFor : FailureCode → JsString
  | .formatoInvalido => js "O arquivo enviado nao e um video MP4 ou MOV valido."
  | .duracaoExcedida => js "O video excede a duracao maxima de 10 minutos."
  | .processamentoFalhou => js "Nao foi possivel processar o video. Tente enviar novamente."

/-! ## What each transition does -/

theorem createProcessingRequest_eq_ok {draws : Draws} {input : CreateProcessingRequestInput}
    {request : ProcessingRequest} :
    createProcessingRequest draws input = .ok request ↔
      isBlank input.ownerUserId = false ∧ isBlank input.ownerEmail = false ∧
      isBlank input.sourceStorageKey = false ∧
      request = {
        processingRequestId := draws.uuid.text, ownerUserId := input.ownerUserId,
        ownerEmail := input.ownerEmail, sourceStorageKey := input.sourceStorageKey,
        status := .received, attemptId := none, zipStorageKey := none, failureCode := none,
        idempotencyKey := input.idempotencyKey, correlationId := input.correlationId,
        createdAt := draws.now, updatedAt := draws.now } := by
  unfold createProcessingRequest domainError
  cases isBlank input.ownerUserId <;> cases isBlank input.ownerEmail <;>
    cases isBlank input.sourceStorageKey <;>
    simp [pure, Except.pure, bind, Except.bind, eq_comm]

theorem createProcessingRequest_eq_error {draws : Draws} {input : CreateProcessingRequestInput}
    {error : Thrown} (refused : createProcessingRequest draws input = .error error) :
    ∃ message, error = .processingRequestDomainError message := by
  unfold createProcessingRequest domainError at refused
  cases noOwner : isBlank input.ownerUserId <;> cases noEmail : isBlank input.ownerEmail <;>
    cases noSource : isBlank input.sourceStorageKey <;>
    simp [noOwner, noEmail, noSource, pure, Except.pure, bind, Except.bind] at refused <;>
    exact ⟨_, refused.symm⟩

theorem acceptProcessingRequest_eq_ok {draws : Draws} {request updated : ProcessingRequest} :
    acceptProcessingRequest draws request = .ok updated ↔
      request.status = .received ∧ updated = { request with
        status := .queued, attemptId := some draws.uuid.text, updatedAt := draws.now } := by
  unfold acceptProcessingRequest domainError
  by_cases received : request.status = .received <;>
    simp [received, pure, Except.pure, bind, Except.bind, eq_comm]

theorem startProcessingRequest_eq_ok {draws : Draws} {request updated : ProcessingRequest} :
    startProcessingRequest draws request = .ok updated ↔
      request.status ≠ .received ∧
        (request.status = .queued ∧
            updated = { request with status := .processing, updatedAt := draws.now } ∨
          request.status ≠ .queued ∧ updated = request) := by
  unfold startProcessingRequest domainError
  cases request.status <;> simp [pure, Except.pure, bind, Except.bind, eq_comm]

theorem completeProcessingRequest_eq_ok {draws : Draws} {request updated : ProcessingRequest}
    {zipStorageKey : JsString} :
    completeProcessingRequest draws request zipStorageKey = .ok updated ↔
      isBlank zipStorageKey = false ∧
        (request.status = .completed ∧ request.zipStorageKey = some zipStorageKey ∧
            updated = request ∨
          request.status ∈ completableStatuses ∧ updated = { request with
            status := .completed
            zipStorageKey := some zipStorageKey
            updatedAt := draws.now }) := by
  unfold completeProcessingRequest domainError
  cases isBlank zipStorageKey with
  | true => simp [bind, Except.bind]
  | false =>
      cases request.status <;> by_cases same : request.zipStorageKey = some zipStorageKey <;>
        simp [completableStatuses, same, pure, Except.pure, bind, Except.bind, eq_comm]

theorem failProcessingRequest_eq_ok {draws : Draws} {request updated : ProcessingRequest}
    {failureCode : Json} :
    failProcessingRequest draws request failureCode = .ok updated ↔
      request.status ∈ failableStatuses ∧ ∃ code, failureCode? failureCode = some code ∧
        updated = { request with
          status := .failed, failureCode := some code, updatedAt := draws.now } := by
  unfold failProcessingRequest domainError
  by_cases failable : request.status ∈ failableStatuses <;>
    cases known : failureCode? failureCode <;>
    simp [failable, throw, throwThe, MonadExceptOf.throw, pure, Except.pure, bind, Except.bind,
      eq_comm]

theorem rejectProcessingRequest_eq_ok {draws : Draws} {request updated : ProcessingRequest}
    {failureCode : Json} :
    rejectProcessingRequest draws request failureCode = .ok updated ↔
      request.status = .received ∧ ∃ code, failureCode? failureCode = some code ∧
        updated = { request with
          status := .failed, failureCode := some code, updatedAt := draws.now } := by
  unfold rejectProcessingRequest domainError
  by_cases received : request.status = .received <;>
    cases known : failureCode? failureCode <;>
    simp [received, throw, throwThe, MonadExceptOf.throw, pure, Except.pure, bind, Except.bind,
      eq_comm]

/-! ## What each transition throws -/

theorem acceptProcessingRequest_eq_error {draws : Draws} {request : ProcessingRequest}
    {error : Thrown} (refused : acceptProcessingRequest draws request = .error error) :
    ∃ message, error = .processingRequestDomainError message := by
  unfold acceptProcessingRequest domainError at refused
  by_cases received : request.status = .received <;>
    simp [received, pure, Except.pure, bind, Except.bind] at refused
  exact ⟨_, refused.symm⟩

theorem startProcessingRequest_eq_error {draws : Draws} {request : ProcessingRequest}
    {error : Thrown} (refused : startProcessingRequest draws request = .error error) :
    ∃ message, error = .processingRequestDomainError message := by
  unfold startProcessingRequest domainError at refused
  cases status : request.status <;>
    simp [status, pure, Except.pure, bind, Except.bind] at refused
  exact ⟨_, refused.symm⟩

theorem completeProcessingRequest_eq_error {draws : Draws} {request : ProcessingRequest}
    {zipStorageKey : JsString} {error : Thrown}
    (refused : completeProcessingRequest draws request zipStorageKey = .error error) :
    ∃ message, error = .processingRequestDomainError message := by
  unfold completeProcessingRequest domainError at refused
  cases blank : isBlank zipStorageKey with
  | true =>
      simp [blank, bind, Except.bind] at refused
      exact ⟨_, refused.symm⟩
  | false =>
      cases status : request.status <;>
        by_cases same : request.zipStorageKey = some zipStorageKey <;>
        simp [blank, status, same, completableStatuses, pure, Except.pure, bind, Except.bind]
          at refused <;>
        exact ⟨_, refused.symm⟩

theorem failProcessingRequest_eq_error {draws : Draws} {request : ProcessingRequest}
    {failureCode : Json} (known : isFailureCode failureCode = true) {error : Thrown}
    (refused : failProcessingRequest draws request failureCode = .error error) :
    ∃ message, error = .processingRequestDomainError message := by
  rcases Option.isSome_iff_exists.mp known with ⟨code, isCode⟩
  unfold failProcessingRequest domainError at refused
  by_cases failable : request.status ∈ failableStatuses <;>
    simp [failable, isCode, pure, Except.pure, bind, Except.bind] at refused
  exact ⟨_, refused.symm⟩

theorem rejectProcessingRequest_eq_error {draws : Draws} {request : ProcessingRequest}
    {failureCode : Json} (known : isFailureCode failureCode = true) {error : Thrown}
    (refused : rejectProcessingRequest draws request failureCode = .error error) :
    ∃ message, error = .processingRequestDomainError message := by
  rcases Option.isSome_iff_exists.mp known with ⟨code, isCode⟩
  unfold rejectProcessingRequest domainError at refused
  by_cases received : request.status = .received <;>
    simp [received, isCode, pure, Except.pure, bind, Except.bind] at refused
  exact ⟨_, refused.symm⟩

end Domain

end ProcessingCatalog
