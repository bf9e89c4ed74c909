import ProcessingCatalog.Persistence.Postgres

/-!
# The TypeORM adapter

The repository, the outbox writer and the unit of work over PostgreSQL. One
class serves a plain connection and a transaction: which one is decided by the
manager it is built over.
-/

namespace ProcessingCatalog

open Effect Postgres

namespace TypeOrm

/-- Send a statement. Its failure rejects the promise. -/
def send (statement : Statement) : Computation signature statement.Result :=
  .call statement fun
    | .ok result => .pure result
    | .error error => .throw (.database error)

/-- The unique index a failed insert violated, if any. -/
def violatedUniqueIndex : Thrown → Option JsString
  | .database (.queryFailedError code constraint) =>
      if code = some (js "23505") then constraint else none
  | _ => none

/-- What `save` throws in place of the error of its insert. -/
def lostRaceError (request : ProcessingRequest) (error : Thrown) : Thrown :=
  let index := violatedUniqueIndex error
  if index = some (js "uq_processing_request_owner_idempotency") then
    .duplicateIdempotencyKeyError request.ownerUserId (request.idempotencyKey.getD (js "undefined"))
  else if index = some (js "uq_processing_request_owner_source") then
    .duplicateSourceError request.ownerUserId request.sourceStorageKey
  else
    error

def findOne (manager : Manager) (criteria : Criteria) :
    Computation signature (Option ProcessingRequest) := do
  let row ← send (.query manager (.findRequest criteria))
  return row.map ProcessingRequestRow.toDomain

/-- `TypeOrmProcessingRequestRepository`, built over a manager. -/
def repository (manager : Manager) : ProcessingRequestRepository signature where
  save request :=
    tryCatch (send (.modify manager (.insertRequest request)))
      fun error => throw (lostRaceError request error)
  update request := send (.modify manager (.saveRequest request))
  findByProcessingRequestId processingRequestId :=
    findOne manager (.processingRequestId processingRequestId)
  findForUpdate processingRequestId := do
    let row ← send (.findRequestForUpdate manager processingRequestId)
    return row.map ProcessingRequestRow.toDomain
  findByEventId eventId := do
    let event ← send (.query manager (.findEvent eventId))
    match event.bind ProcessedEvent.processingRequestId with
    | none => return none
    | some processingRequestId =>
        findOne manager (.processingRequestId processingRequestId.text)
  markEventProcessed eventId processingRequestId :=
    send (.modify manager (.insertEvent eventId processingRequestId))
  hasEventBeenProcessed eventId := do
    let count ← send (.query manager (.countEvents eventId))
    return decide (0 < count)
  findPageByOwner ownerUserId offset limit := do
    let rows ← send (.query manager (.findPageByOwner ownerUserId offset limit))
    return rows.map ProcessingRequestRow.toDomain
  countByOwner ownerUserId := send (.query manager (.countByOwner ownerUserId))
  findByIdAndOwner processingRequestId ownerUserId :=
    findOne manager (.processingRequestIdAndOwner processingRequestId ownerUserId)
  findByOwnerAndIdempotencyKey ownerUserId idempotencyKey :=
    findOne manager (.ownerAndIdempotencyKey ownerUserId idempotencyKey)
  findByOwnerAndSource ownerUserId sourceStorageKey :=
    findOne manager (.ownerAndSource ownerUserId sourceStorageKey)

/-- `TransactionalOutboxWriter`. -/
def outboxWriter (manager : Manager) : OutboxWriter signature where
  add route payload := send (.modify manager (.insertOutbox ⟨route, payload⟩))

/-- `TypeOrmUnitOfWork`: `dataSource.transaction` commits when the work resolves and rolls back
when it throws. A rollback that fails does not replace the error of the work. -/
def unitOfWork : UnitOfWork signature where
  runInTransaction work :=
    tryCatch
      (do
        send .startTransaction
        let result ← work ⟨repository .transactional, outboxWriter .transactional⟩
        send .commitTransaction
        return result)
      (fun error => do
        tryCatch (send .rollbackTransaction) fun _ => return ()
        throw error)

end TypeOrm

end ProcessingCatalog
