import ProcessingCatalog.Store.Tables
import ProcessingCatalog.Library.Interleaving
import Mathlib.Data.Fintype.Basic

/-!
# PostgreSQL as the service sees it

Each session has a connection with at most one open transaction, at the READ
COMMITTED level. A statement of a transaction sees what is committed at its
moment and the transaction's own writes. `SELECT ... FOR UPDATE` holds a row
until the transaction ends, and an insert that meets an equal key of a
transaction still open waits for that transaction: a statement that must wait
has no answer yet. A unique violation is raised only against rows that are
committed or the transaction's own. Any statement may fail; a transaction one of
whose statements failed can only be rolled back. A commit that is answered with
an error is taken to have rolled back: the loss of the answer of a commit that
succeeded is not modelled. Identifiers of outbox rows are handed out when the row
is inserted and never taken back.

The sequence of committed transactions is recorded beside the tables.
-/

namespace ProcessingCatalog

open Effect

namespace DatabaseError

def uniqueViolation (constraint : JsString) : DatabaseError :=
  .queryFailedError (some (js "23505")) (some constraint)

def invalidTextRepresentation : DatabaseError :=
  .queryFailedError (some (js "22P02")) none

def inFailedTransaction : DatabaseError :=
  .queryFailedError (some (js "25P02")) none

/-- A failure that says nothing about the rows: any error but a unique violation. -/
def IsInfrastructure : DatabaseError → Prop
  | .queryFailedError code _ => code ≠ some (js "23505")
  | _ => True

instance (error : DatabaseError) : Decidable error.IsInfrastructure := by
  cases error <;> unfold IsInfrastructure <;> infer_instance

end DatabaseError

namespace Postgres

/-- The two managers a repository may be built over. -/
inductive Manager where
  | dataSource
  | transactional
  deriving DecidableEq

/-- The `where` of a `findOne` over `processing_request`. -/
inductive Criteria where
  | processingRequestId (processingRequestId : JsString)
  | processingRequestIdAndOwner (processingRequestId ownerUserId : JsString)
  | ownerAndIdempotencyKey (ownerUserId idempotencyKey : JsString)
  | ownerAndSource (ownerUserId sourceStorageKey : JsString)

/-- The rows selected, unless a `uuid` column is compared with other text. -/
def Criteria.selects : Criteria → Except DatabaseError (ProcessingRequestRow → Bool)
  | .processingRequestId text =>
      match Uuid.parse text with
      | some id => .ok fun row => row.processingRequestId = id
      | none => .error .invalidTextRepresentation
  | .processingRequestIdAndOwner text ownerUserId =>
      match Uuid.parse text with
      | some id => .ok fun row => row.processingRequestId = id ∧ row.ownerUserId = ownerUserId
      | none => .error .invalidTextRepresentation
  | .ownerAndIdempotencyKey ownerUserId idempotencyKey =>
      .ok fun row => row.ownerUserId = ownerUserId ∧ row.idempotencyKey = some idempotencyKey
  | .ownerAndSource ownerUserId sourceStorageKey =>
      .ok fun row => row.ownerUserId = ownerUserId ∧ row.sourceStorageKey = sourceStorageKey

inductive Query where
  | findRequest (criteria : Criteria)
  | findPageByOwner (ownerUserId : JsString) (offset limit : ℕ)
  | countByOwner (ownerUserId : JsString)
  | findEvent (eventId : JsString)
  | countEvents (eventId : JsString)

/-- `ORDER BY created_at DESC, processing_request_id ASC`. -/
def pageOrder (left right : ProcessingRequestRow) : Bool :=
  right.createdAt < left.createdAt ∨ right.createdAt = left.createdAt ∧
    left.processingRequestId.digits ≤ right.processingRequestId.digits

namespace Query

abbrev Result : Query → Type
  | .findRequest _ => Option ProcessingRequestRow
  | .findPageByOwner .. => List ProcessingRequestRow
  | .countByOwner _ => ℕ
  | .findEvent _ => Option ProcessedEvent
  | .countEvents _ => ℕ

def run (database : Database) : (query : Query) → Except DatabaseError query.Result
  | .findRequest criteria => criteria.selects.map database.requests.rows.find?
  | .findPageByOwner ownerUserId offset limit =>
      let owned := database.requests.rows.filter fun row => row.ownerUserId = ownerUserId
      .ok (((owned.mergeSort pageOrder).drop offset).take limit)
  | .countByOwner ownerUserId =>
      .ok (database.requests.rows.countP fun row => row.ownerUserId = ownerUserId)
  | .findEvent eventId => .ok (database.events.find? eventId)
  | .countEvents eventId => .ok (database.events.rows.countP fun event => event.eventId = eventId)

end Query

/-- The writing statements, with the values the adapter gives them. -/
inductive Modification where
  | insertRequest (request : ProcessingRequest)
  | saveRequest (request : ProcessingRequest)
  | insertEvent (eventId : JsString) (processingRequestId : Option JsString)
  | insertOutbox (entry : OutboxEntry)

inductive Statement where
  | startTransaction
  | commitTransaction
  | rollbackTransaction
  | query (manager : Manager) (asked : Query)
  | findRequestForUpdate (manager : Manager) (processingRequestId : JsString)
  | modify (manager : Manager) (modification : Modification)

abbrev Statement.Result : Statement → Type
  | .startTransaction => Unit
  | .commitTransaction => Unit
  | .rollbackTransaction => Unit
  | .query _ asked => asked.Result
  | .findRequestForUpdate .. => Option ProcessingRequestRow
  | .modify .. => Unit

abbrev signature : Signature where
  Call := Statement
  Reply statement := Except DatabaseError statement.Result

/-- An open transaction: what it wrote, and the rows it holds. -/
structure Transaction where
  writes : List Write
  locks : List Uuid
  deriving DecidableEq

namespace Transaction

def empty : Transaction := ⟨[], []⟩

/-- Add a write. An update also takes the lock of its row. -/
def record (transaction : Transaction) (write : Write) : Transaction where
  writes := transaction.writes ++ [write]
  locks :=
    match write with
    | .saveRequest row => transaction.locks.insert row.processingRequestId
    | _ => transaction.locks

def locksRow (id : Uuid) (transaction : Transaction) : Bool :=
  id ∈ transaction.locks

/-- Whether an uncommitted row collides with one to be inserted. -/
def insertsCollidingRow (row : ProcessingRequestRow) (transaction : Transaction) : Bool :=
  transaction.writes.any fun
    | .insertRequest other => UniqueIndex.all.any fun index => index.Collides other row
    | _ => false

def recordsEvent (eventId : JsString) (transaction : Transaction) : Bool :=
  transaction.writes.any fun
    | .insertEvent event => event.eventId = eventId
    | _ => false

end Transaction

/-- The connection of a session. -/
inductive Connection where
  | idle
  | opened (transaction : Transaction)
  /-- A statement failed: nothing but the end of the transaction is accepted. -/
  | aborted
  deriving DecidableEq

/-- The transaction whose writes and locks are in force. -/
def Connection.pending : Connection → Transaction
  | .opened transaction => transaction
  | _ => .empty

/-- What PostgreSQL is free to decide about a statement. -/
inductive Choice where
  | proceed
  /-- The unique index an insert is reported to violate, when it violates several. -/
  | violate (index : UniqueIndex)
  | fail (error : DatabaseError)
  deriving DecidableEq

namespace Modification

/-- Whether a row can be stored without colliding with another one. -/
def freeFor (database : Database) (row : ProcessingRequestRow) (index : UniqueIndex) : Bool :=
  database.requests.rows.all fun other => ¬ index.Collides other row

/-- `freeFor`, for a row that may replace the one with its identifier. -/
def freeForUpdate (database : Database) (row : ProcessingRequestRow) (index : UniqueIndex) : Bool :=
  database.requests.rows.all fun other =>
    other.processingRequestId = row.processingRequestId ∨ ¬ index.Collides other row

/-- Insert a row whose freedom from collisions is `free`. -/
def attemptRow (choice : Choice) (free : UniqueIndex → Bool) (blocked : Bool) (write : Write) :
    Option (Except DatabaseError Write) :=
  match choice with
  | .proceed => if UniqueIndex.all.all free ∧ ¬ blocked then some (.ok write) else none
  | .violate index =>
      if free index then none else some (.error (.uniqueViolation index.constraint))
  | .fail _ => none

/-- The write a modification makes, from the tables its transaction sees. `others` tells
whether another open transaction satisfies a test; without an answer the statement waits. -/
def attempt (others : (Transaction → Bool) → Bool) (choice : Choice) (nextOutboxId : ℕ)
    (view : Database) : Modification → Option (Except DatabaseError Write)
  | .insertRequest request =>
      match ProcessingRequestRow.toRow request with
      | none => some (.error .invalidTextRepresentation)
      | some row =>
          attemptRow choice (freeFor view row) (others (Transaction.insertsCollidingRow row))
            (.insertRequest row)
  | .saveRequest request =>
      match ProcessingRequestRow.toRow request with
      | none => some (.error .invalidTextRepresentation)
      | some row =>
          attemptRow choice (freeForUpdate view row)
            (others (Transaction.locksRow row.processingRequestId) ||
              others (Transaction.insertsCollidingRow row))
            (.saveRequest row)
  | .insertEvent eventId processingRequestId =>
      match ProcessingRequestRow.uuidColumn processingRequestId with
      | none => some (.error .invalidTextRepresentation)
      | some id =>
          if (view.events.find? eventId).isSome then
            some (.error (.uniqueViolation (js "processed_event_pkey")))
          else if others (Transaction.recordsEvent eventId) then none
          else some (.ok (.insertEvent ⟨eventId, id⟩))
  | .insertOutbox entry => some (.ok (.insertOutbox ⟨nextOutboxId, entry, none⟩))

end Modification

variable {ι : Type}

/-- What the sessions share: the committed tables, the sequence of outbox
identifiers, and the committed transactions in commit order. -/
structure Shared (ι : Type) where
  database : Database
  nextOutboxId : ℕ
  committed : List (ι × List Write)

namespace Shared

def advance (shared : Shared ι) : Write → Shared ι
  | .insertOutbox row => { shared with nextOutboxId := row.id + 1 }
  | _ => shared

def commit (shared : Shared ι) (index : ι) (writes : List Write) : Shared ι :=
  { shared with
    database := shared.database.applyAll writes
    committed := shared.committed ++ [(index, writes)] }

end Shared

/-- The state a failed statement leaves its connection in. -/
def Connection.afterFailure (own : Connection) : Statement → Connection
  | .rollbackTransaction => .idle
  | .query .dataSource _ => own
  | .findRequestForUpdate .dataSource _ => own
  | .modify .dataSource _ => own
  | _ =>
      match own with
      | .opened _ => .aborted
      | own => own

/-- The tables a statement sees, unless its transaction is aborted. -/
def Connection.view (own : Connection) (database : Database) :
    Manager → Except DatabaseError Database
  | .dataSource => .ok database
  | .transactional =>
      match own with
      | .idle => .ok database
      | .opened transaction => .ok (database.applyAll transaction.writes)
      | .aborted => .error .inFailedTransaction

section Execution

variable (others : (Transaction → Bool) → Bool) (choice : Choice) (index : ι)
  (shared : Shared ι) (own : Connection)

def executeQuery (manager : Manager) (query : Query) :
    Except DatabaseError query.Result × Shared ι × Connection :=
  match own.view shared.database manager >>= query.run with
  | .ok result => (.ok result, shared, own)
  | .error error => (.error error, shared, own.afterFailure (.query manager query))

/-- `SELECT ... FOR UPDATE`, which needs an open transaction. -/
def executeFindForUpdate (processingRequestId : JsString) :
    Option (Except DatabaseError (Option ProcessingRequestRow) × Shared ι × Connection) :=
  match own with
  | .idle => some (.error .pessimisticLockTransactionRequired, shared, own)
  | .aborted => some (.error .inFailedTransaction, shared, own)
  | .opened transaction =>
      match Uuid.parse processingRequestId with
      | none => some (.error .invalidTextRepresentation, shared, .aborted)
      | some id =>
          match (shared.database.applyAll transaction.writes).requests.find? id with
          | none => some (.ok none, shared, own)
          | some row =>
              if others (Transaction.locksRow id) then none
              else some (.ok (some row), shared,
                .opened { transaction with locks := transaction.locks.insert id })

/-- A write joins the open transaction, or is committed on its own when there is none. -/
def executeModification (manager : Manager) (modification : Modification) :
    Option (Except DatabaseError Unit × Shared ι × Connection) :=
  match own.view shared.database manager with
  | .error error => some (.error error, shared, own)
  | .ok view =>
      (modification.attempt others choice shared.nextOutboxId view).map fun
        | .error error => (.error error, shared, own.afterFailure (.modify manager modification))
        | .ok write =>
            match manager, own with
            | .transactional, .opened transaction =>
                (.ok (), shared.advance write, .opened (transaction.record write))
            | _, _ => (.ok (), (shared.advance write).commit index [write], own)

/-- The answer to a statement, unless it has to wait. -/
def execute (faults : Bool) :
    (statement : Statement) → Option (signature.Reply statement × Shared ι × Connection) :=
  match choice with
  | .fail error => fun statement =>
      if faults ∧ error.IsInfrastructure then
        some (.error error, shared, own.afterFailure statement)
      else
        none
  | _ => fun
      | .startTransaction =>
          match own with
          | .idle => some (.ok (), shared, .opened .empty)
          | _ => none
      | .commitTransaction =>
          match own with
          | .opened transaction => some (.ok (), shared.commit index transaction.writes, .idle)
          | _ => some (.ok (), shared, .idle)
      | .rollbackTransaction => some (.ok (), shared, .idle)
      | .query manager query => some (executeQuery shared own manager query)
      | .findRequestForUpdate manager processingRequestId =>
          match manager with
          | .dataSource => some (.error .pessimisticLockTransactionRequired, shared, own)
          | .transactional => executeFindForUpdate others shared own processingRequestId
      | .modify manager modification =>
          executeModification others choice index shared own manager modification

end Execution

variable [Fintype ι] [DecidableEq ι]

/-- Whether an open transaction of another session satisfies a test. -/
def othersOf (index : ι) (connections : ι → Connection) (test : Transaction → Bool) : Bool :=
  decide (∃ other, other ≠ index ∧ test (connections other).pending = true)

/-- PostgreSQL serving the sessions `ι`. With `faults`, any statement may fail. -/
abbrev machine (ι : Type) [Fintype ι] [DecidableEq ι] (faults : Bool) : Machine signature ι where
  Shared := Shared ι
  Local := Connection
  Choice := Choice
  Event := Empty
  answer choice index shared connections statement :=
    execute (othersOf index connections) choice index shared (connections index) faults statement
  environment := nofun

end Postgres

end ProcessingCatalog
