import ProcessingCatalog.Application.Ports
import ProcessingCatalog.Library.Interleaving
import ProcessingCatalog.Library.KeyedTable
import ProcessingCatalog.Store.Tables

/-!
# The adapter without a database

`InMemoryProcessingRequestRepository`, `InMemoryOutboxWriter` and
`InMemoryUnitOfWork`: two maps and an array in the memory of one process. Every
call is answered at once and from the maps as they are; there is no lock, and
nothing is rolled back. Each call is one step, and steps of other executions may
come between any two of them.
-/

namespace ProcessingCatalog

open Effect

namespace InMemory

/-- An entry of `eventIdToRequestId`. -/
structure EventLink where
  eventId : JsString
  /-- Empty when the event was recorded for no request. -/
  processingRequestId : JsString
  deriving DecidableEq

/-- The two maps of the repository, and the entries of the outbox writer. -/
structure Store where
  requests : KeyedTable ProcessingRequest.processingRequestId
  eventIdToRequestId : KeyedTable EventLink.eventId
  entries : List OutboxEntry

/-- `compare(a, b)` is not positive: the code-unit order of strings. -/
def pageOrder (left right : ProcessingRequest) : Bool :=
  right.createdAt < left.createdAt ∨ right.createdAt = left.createdAt ∧
    left.processingRequestId ≤ right.processingRequestId

namespace Store

def empty : Store := ⟨.empty, .empty, []⟩

def ownedBy (store : Store) (ownerUserId : JsString) : List ProcessingRequest :=
  store.requests.rows.filter fun request => request.ownerUserId = ownerUserId

def save (store : Store) (request : ProcessingRequest) : Except Thrown Unit × Store :=
  let owned := store.ownedBy request.ownerUserId
  match request.idempotencyKey.filter fun key => owned.any (·.idempotencyKey = some key) with
  | some key => (.error (.duplicateIdempotencyKeyError request.ownerUserId key), store)
  | none =>
      if owned.any (·.sourceStorageKey = request.sourceStorageKey) then
        (.error (.duplicateSourceError request.ownerUserId request.sourceStorageKey), store)
      else
        (.ok (), { store with requests := store.requests.upsert request })

def update (store : Store) (request : ProcessingRequest) : Store :=
  { store with requests := store.requests.upsert request }

def findByProcessingRequestId (store : Store) (processingRequestId : JsString) :
    Option ProcessingRequest :=
  store.requests.find? processingRequestId

def findByEventId (store : Store) (eventId : JsString) : Option ProcessingRequest := do
  let link ← store.eventIdToRequestId.find? eventId
  if link.processingRequestId = [] then none
  else store.requests.find? link.processingRequestId

def markEventProcessed (store : Store) (eventId : JsString)
    (processingRequestId : Option JsString) : Store :=
  { store with
    eventIdToRequestId := store.eventIdToRequestId.upsert ⟨eventId, processingRequestId.getD []⟩ }

def hasEventBeenProcessed (store : Store) (eventId : JsString) : Bool :=
  (store.eventIdToRequestId.find? eventId).isSome

def findPageByOwner (store : Store) (ownerUserId : JsString) (offset limit : ℕ) :
    List ProcessingRequest :=
  (((store.ownedBy ownerUserId).mergeSort pageOrder).drop offset).take limit

def countByOwner (store : Store) (ownerUserId : JsString) : ℕ :=
  (store.ownedBy ownerUserId).length

def findByIdAndOwner (store : Store) (processingRequestId ownerUserId : JsString) :
    Option ProcessingRequest :=
  (store.requests.find? processingRequestId).filter (·.ownerUserId = ownerUserId)

def findByOwnerAndIdempotencyKey (store : Store) (ownerUserId idempotencyKey : JsString) :
    Option ProcessingRequest :=
  (store.ownedBy ownerUserId).find? (·.idempotencyKey = some idempotencyKey)

def findByOwnerAndSource (store : Store) (ownerUserId sourceStorageKey : JsString) :
    Option ProcessingRequest :=
  (store.ownedBy ownerUserId).find? (·.sourceStorageKey = sourceStorageKey)

def add (store : Store) (route : EventRoute) (payload : OutboxPayload) : Store :=
  { store with entries := store.entries ++ [⟨route, payload⟩] }

end Store

/-- The calls of the repository and of the outbox writer. -/
inductive Call where
  | save (request : ProcessingRequest)
  | update (request : ProcessingRequest)
  | findByProcessingRequestId (processingRequestId : JsString)
  | findForUpdate (processingRequestId : JsString)
  | findByEventId (eventId : JsString)
  | markEventProcessed (eventId : JsString) (processingRequestId : Option JsString)
  | hasEventBeenProcessed (eventId : JsString)
  | findPageByOwner (ownerUserId : JsString) (offset limit : ℕ)
  | countByOwner (ownerUserId : JsString)
  | findByIdAndOwner (processingRequestId ownerUserId : JsString)
  | findByOwnerAndIdempotencyKey (ownerUserId idempotencyKey : JsString)
  | findByOwnerAndSource (ownerUserId sourceStorageKey : JsString)
  | add (route : EventRoute) (payload : OutboxPayload)

abbrev Call.Reply : Call → Type
  | .save _ => Except Thrown Unit
  | .update _ => Unit
  | .findByProcessingRequestId _ => Option ProcessingRequest
  | .findForUpdate _ => Option ProcessingRequest
  | .findByEventId _ => Option ProcessingRequest
  | .markEventProcessed .. => Unit
  | .hasEventBeenProcessed _ => Bool
  | .findPageByOwner .. => List ProcessingRequest
  | .countByOwner _ => ℕ
  | .findByIdAndOwner .. => Option ProcessingRequest
  | .findByOwnerAndIdempotencyKey .. => Option ProcessingRequest
  | .findByOwnerAndSource .. => Option ProcessingRequest
  | .add .. => Unit

abbrev signature : Signature := ⟨Call, Call.Reply⟩

/-- The answer to a call, and the store it leaves. -/
def Store.answer (store : Store) : (call : Call) → call.Reply × Store
  | .save request => store.save request
  | .update request => ((), store.update request)
  | .findByProcessingRequestId processingRequestId =>
      (store.findByProcessingRequestId processingRequestId, store)
  | .findForUpdate processingRequestId =>
      (store.findByProcessingRequestId processingRequestId, store)
  | .findByEventId eventId => (store.findByEventId eventId, store)
  | .markEventProcessed eventId processingRequestId =>
      ((), store.markEventProcessed eventId processingRequestId)
  | .hasEventBeenProcessed eventId => (store.hasEventBeenProcessed eventId, store)
  | .findPageByOwner ownerUserId offset limit =>
      (store.findPageByOwner ownerUserId offset limit, store)
  | .countByOwner ownerUserId => (store.countByOwner ownerUserId, store)
  | .findByIdAndOwner processingRequestId ownerUserId =>
      (store.findByIdAndOwner processingRequestId ownerUserId, store)
  | .findByOwnerAndIdempotencyKey ownerUserId idempotencyKey =>
      (store.findByOwnerAndIdempotencyKey ownerUserId idempotencyKey, store)
  | .findByOwnerAndSource ownerUserId sourceStorageKey =>
      (store.findByOwnerAndSource ownerUserId sourceStorageKey, store)
  | .add route payload => ((), store.add route payload)

/-- Make a call: its promise settles in the next step. -/
def send (call : Call) : Computation signature call.Reply :=
  .call call .pure

/-- `InMemoryProcessingRequestRepository`. -/
def repository : ProcessingRequestRepository signature where
  save request := do
    let outcome ← send (.save request)
    .ofExcept outcome
  update request := send (.update request)
  findByProcessingRequestId processingRequestId :=
    send (.findByProcessingRequestId processingRequestId)
  findForUpdate processingRequestId := send (.findForUpdate processingRequestId)
  findByEventId eventId := send (.findByEventId eventId)
  markEventProcessed eventId processingRequestId :=
    send (.markEventProcessed eventId processingRequestId)
  hasEventBeenProcessed eventId := send (.hasEventBeenProcessed eventId)
  findPageByOwner ownerUserId offset limit := send (.findPageByOwner ownerUserId offset limit)
  countByOwner ownerUserId := send (.countByOwner ownerUserId)
  findByIdAndOwner processingRequestId ownerUserId :=
    send (.findByIdAndOwner processingRequestId ownerUserId)
  findByOwnerAndIdempotencyKey ownerUserId idempotencyKey :=
    send (.findByOwnerAndIdempotencyKey ownerUserId idempotencyKey)
  findByOwnerAndSource ownerUserId sourceStorageKey :=
    send (.findByOwnerAndSource ownerUserId sourceStorageKey)

/-- `InMemoryOutboxWriter`. -/
def outboxWriter : OutboxWriter signature where
  add route payload := send (.add route payload)

/-- `InMemoryUnitOfWork`: the work itself, over the maps everybody else uses. -/
def unitOfWork : UnitOfWork signature where
  runInTransaction work := work ⟨repository, outboxWriter⟩

end InMemory

end ProcessingCatalog
