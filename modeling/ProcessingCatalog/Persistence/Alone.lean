import ProcessingCatalog.Persistence.Sessions

/-!
# One call at a time

A program run alone over the database: every statement is answered at once, and
of several unique indexes an insert violates, the first is reported. Which text
PostgreSQL accepts is a parameter: a text value, a string of a JSON document and
an index entry each have limits of their own (a NUL, a lone surrogate, the size
of a page). A statement that carries other text is refused.
-/

namespace ProcessingCatalog

open Effect TypeOrm

namespace Postgres

/-- What PostgreSQL accepts of the text it is sent. -/
structure TextRules where
  text : JsString → Bool
  json : JsString → Bool
  /-- The texts of an index entry. -/
  indexed : List JsString → Bool

/-- The rules that refuse nothing. -/
def TextRules.lenient : TextRules := ⟨fun _ => true, fun _ => true, fun _ => true⟩

/-- The text columns of a request. -/
def requestTexts (request : ProcessingRequest) : List JsString :=
  [request.ownerUserId, request.ownerEmail, request.sourceStorageKey] ++
    request.zipStorageKey.toList ++ request.idempotencyKey.toList ++ request.correlationId.toList

/-- The strings of an outbox payload. -/
def payloadTexts (payload : OutboxPayload) : List JsString :=
  [payload.eventId, payload.processingRequestId, payload.ownerUserId, payload.occurredAt] ++
    payload.ownerEmail.toList ++ payload.sourceStorageKey.toList ++ payload.zipStorageKey.toList ++
    payload.failureReason.toList ++ payload.attemptId.toList ++ payload.correlationId.toList

namespace TextRules

variable (rules : TextRules)

def acceptsEventId (eventId : JsString) : Bool :=
  rules.text eventId && rules.indexed [eventId]

def acceptsRequest (request : ProcessingRequest) : Bool :=
  (requestTexts request).all rules.text

/-- The entries a new request makes in the two indexes of its owner. -/
def indexesRequest (request : ProcessingRequest) : Bool :=
  rules.indexed [request.ownerUserId, request.sourceStorageKey] &&
    request.idempotencyKey.all fun key => rules.indexed [request.ownerUserId, key]

def acceptsPayload (payload : OutboxPayload) : Bool :=
  (payloadTexts payload).all rules.json

def acceptsChange : Change OutboxEntry → Bool
  | .insertRequest row => rules.acceptsRequest row.toDomain && rules.indexesRequest row.toDomain
  | .saveRequest row => rules.acceptsRequest row.toDomain
  | .insertEvent event => rules.acceptsEventId event.eventId
  | .insertOutbox entry => rules.acceptsPayload entry.payload

end TextRules

theorem TextRules.lenient_acceptsChange (change : Change OutboxEntry) :
    lenient.acceptsChange change = true := by
  cases change <;>
    simp [acceptsChange, lenient, acceptsRequest, indexesRequest, acceptsPayload, acceptsEventId]

/-- The text a query compares with text columns. -/
def Query.texts : Query → List JsString
  | .findRequest (.processingRequestId _) => []
  | .findRequest (.processingRequestIdAndOwner _ ownerUserId) => [ownerUserId]
  | .findRequest (.ownerAndIdempotencyKey ownerUserId idempotencyKey) =>
      [ownerUserId, idempotencyKey]
  | .findRequest (.ownerAndSource ownerUserId sourceStorageKey) => [ownerUserId, sourceStorageKey]
  | .findPageByOwner ownerUserId _ _ => [ownerUserId]
  | .countByOwner ownerUserId => [ownerUserId]
  | .findEvent eventId => [eventId]
  | .countEvents eventId => [eventId]

def Modification.accepted (rules : TextRules) : Modification → Bool
  | .insertRequest request => rules.acceptsRequest request && rules.indexesRequest request
  | .saveRequest request => rules.acceptsRequest request
  | .insertEvent eventId _ => rules.acceptsEventId eventId
  | .insertOutbox entry => rules.acceptsPayload entry.payload

def Statement.accepted (rules : TextRules) : Statement → Bool
  | .query _ asked => asked.texts.all rules.text
  | .modify _ modification => modification.accepted rules
  | _ => true

/-- The refusal of a statement for the text it carries. -/
def textRefused : DatabaseError :=
  .queryFailedError (some (js "22021")) none

/-- The answer to a statement of the only session. -/
def answerAlone (rules : TextRules) (state : Shared Unit × Connection) (statement : Statement) :
    signature.Reply statement × Shared Unit × Connection :=
  if statement.accepted rules then
    let choices : List Choice := .proceed :: UniqueIndex.all.map .violate
    (choices.findSome? fun choice =>
      execute (fun _ => false) choice () state.1 state.2 false statement).getD
        (.error .connectionError, state)
  else
    (.error textRefused, state.1, state.2.afterFailure statement)

/-- Run a program alone: what it answers, and the shared state it leaves. -/
def runAlone {α : Type} (rules : TextRules) (program : Computation signature α)
    (shared : Shared Unit) : Except Thrown α × Shared Unit :=
  let (outcome, shared', _) := program.run (answerAlone rules) (shared, .idle)
  (outcome, shared')

section Answers

variable {rules : TextRules} {shared : Shared Unit} {own : Connection} {transaction : Transaction}

/-- The first choice decides, when it has an answer. -/
theorem answerAlone_of_proceed {statement : Statement}
    {answer : signature.Reply statement × Shared Unit × Connection}
    (accepted : statement.accepted rules = true)
    (answered : execute (fun _ => false) .proceed () shared own false statement = some answer) :
    answerAlone rules (shared, own) statement = answer := by
  simp [answerAlone, accepted, answered]

theorem run_send (statement : Statement) (reply : Except DatabaseError statement.Result)
    {shared' : Shared Unit} {own' : Connection}
    (answered : answerAlone rules (shared, own) statement = (reply, shared', own')) :
    (send statement).run (answerAlone rules) (shared, own) = (replied reply, shared', own') := by
  simp only [send, Program.run, answered]
  cases reply <;> rfl

theorem run_refused (statement : Statement) (refused : statement.accepted rules = false) :
    (send statement).run (answerAlone rules) (shared, own) =
      (.error (.database textRefused), shared, own.afterFailure statement) :=
  run_send statement (.error textRefused) (by simp [answerAlone, refused])

theorem run_startTransaction :
    (send .startTransaction).run (answerAlone rules) (shared, .idle) =
      (.ok (), shared, .opened .empty) :=
  run_send .startTransaction (.ok ()) (answerAlone_of_proceed rfl rfl)

theorem run_commitTransaction :
    (send .commitTransaction).run (answerAlone rules) (shared, .opened transaction) =
      (.ok (), shared.commit () transaction.writes, .idle) :=
  run_send .commitTransaction (.ok ()) (answerAlone_of_proceed rfl rfl)

theorem run_rollbackTransaction :
    (send .rollbackTransaction).run (answerAlone rules) (shared, own) =
      (.ok (), shared, .idle) :=
  run_send .rollbackTransaction (.ok ()) (answerAlone_of_proceed rfl rfl)

/-- A query the connection can see tables for. -/
theorem run_query (manager : Manager) (query : Query) {view : Database}
    (accepted : (Statement.query manager query).accepted rules = true)
    (seen : own.view shared.database manager = .ok view) {result : query.Result}
    (ran : query.run view = .ok result) :
    (send (.query manager query)).run (answerAlone rules) (shared, own) =
      (.ok result, shared, own) := by
  refine run_send (.query manager query) (.ok result) (answerAlone_of_proceed accepted ?_)
  have combined : (own.view shared.database manager >>= query.run) = .ok result := by
    rw [seen]
    exact ran
  simp only [execute, executeQuery, combined]

theorem run_findRequestForUpdate_none {text : JsString} {id : Uuid}
    (parsed : Uuid.parse text = some id) (absent : shared.database.requests.find? id = none) :
    (send (.findRequestForUpdate .transactional text)).run (answerAlone rules)
        (shared, .opened .empty) = (.ok none, shared, .opened .empty) := by
  refine run_send (.findRequestForUpdate .transactional text) (.ok none)
    (answerAlone_of_proceed rfl ?_)
  simp only [execute, executeFindForUpdate, parsed, Transaction.empty, Database.applyAll_nil,
    absent]

theorem run_findRequestForUpdate_some {text : JsString} {id : Uuid} {row : ProcessingRequestRow}
    (parsed : Uuid.parse text = some id) (found : shared.database.requests.find? id = some row) :
    (send (.findRequestForUpdate .transactional text)).run (answerAlone rules)
        (shared, .opened .empty) = (.ok (some row), shared, .opened ⟨[], [id]⟩) := by
  refine run_send (.findRequestForUpdate .transactional text) (.ok (some row))
    (answerAlone_of_proceed rfl ?_)
  simp only [execute, executeFindForUpdate, parsed, Transaction.empty, Database.applyAll_nil, found]
  rfl

theorem run_findRequestForUpdate_malformed {text : JsString} (malformed : Uuid.parse text = none) :
    (send (.findRequestForUpdate .transactional text)).run (answerAlone rules)
        (shared, .opened .empty) =
      (.error (.database .invalidTextRepresentation), shared, .aborted) := by
  refine run_send (.findRequestForUpdate .transactional text) (.error .invalidTextRepresentation)
    (answerAlone_of_proceed rfl ?_)
  simp only [execute, executeFindForUpdate, malformed]

theorem run_modify (transaction : Transaction) (modification : Modification) {write : Write}
    (accepted : modification.accepted rules = true)
    (attempted : modification.attempt (fun _ => false) .proceed shared.nextOutboxId
      (shared.database.applyAll transaction.writes) = some (.ok write)) :
    (send (.modify .transactional modification)).run (answerAlone rules)
        (shared, .opened transaction) =
      (.ok (), shared.advance write, .opened (transaction.record write)) := by
  refine run_send (.modify .transactional modification) (.ok ())
    (answerAlone_of_proceed accepted ?_)
  simp only [execute, executeModification, Connection.view, attempted, Option.map_some]

/-- The transaction of a unit of work whose work returns is committed. -/
theorem run_runInTransaction_ok {α : Type}
    {work : TransactionContext signature → Computation signature α} {value : α}
    {shared' : Shared Unit}
    (worked : (work ⟨repository .transactional, outboxWriter .transactional⟩).run
      (answerAlone rules) (shared, .opened .empty) = (.ok value, shared', .opened transaction)) :
    (unitOfWork.runInTransaction work).run (answerAlone rules) (shared, .idle) =
      (.ok value, shared'.commit () transaction.writes, .idle) := by
  refine Program.run_tryCatch_of_ok ?_ _
  rw [Program.run_bind_of_ok run_startTransaction, Program.run_bind_of_ok worked,
    Program.run_bind_of_ok run_commitTransaction]
  rfl

/-- The transaction of a unit of work whose work throws is rolled back. -/
theorem run_runInTransaction_error {α : Type}
    {work : TransactionContext signature → Computation signature α} {error : Thrown}
    {shared' : Shared Unit}
    (worked : (work ⟨repository .transactional, outboxWriter .transactional⟩).run
      (answerAlone rules) (shared, .opened .empty) = (.error error, shared', own)) :
    (unitOfWork.runInTransaction work).run (answerAlone rules) (shared, .idle) =
      (.error error, shared', .idle) := by
  have threw : (do
      send .startTransaction
      let result ← work ⟨repository .transactional, outboxWriter .transactional⟩
      send .commitTransaction
      return result : Computation signature α).run (answerAlone rules) (shared, .idle) =
        (.error error, shared', own) := by
    rw [Program.run_bind_of_ok run_startTransaction, Program.run_bind_of_error worked]
  refine (Program.run_tryCatch_of_error threw _).trans ?_
  rw [Program.run_bind_of_ok (Program.run_tryCatch_of_ok run_rollbackTransaction _)]
  rfl

end Answers

end Postgres

end ProcessingCatalog
