import ProcessingCatalog.Library.Interleaving
import ProcessingCatalog.Store.Tables

/-!
# The outbox relay

`OutboxRelay.drain` publishes the pending rows of the outbox in the order of
their identifiers and marks each of them once the broker has confirmed it. Any
number of drains run against one outbox, which writers go on filling.

A writer's row is given its identifier when it is inserted and becomes visible
when its transaction commits, in whatever order the writers commit. A drain
works in a transaction of its own, which the server may end at any moment,
taking back its marks and its lock while the drain is still waiting for the
broker. A publish puts the message in flight; it may reach the broker late, or
never, whether or not the drain is still waiting for its confirm.
-/

namespace ProcessingCatalog

open Effect

/-- The request an outbox row is about. -/
def OutboxRow.request (row : OutboxRow) : JsString :=
  row.entry.payload.processingRequestId

namespace Relay

/-- What is sent to a queue: `{ pattern, data }`. -/
structure Message where
  pattern : JsString
  data : OutboxPayload
  deriving DecidableEq

/-- One publish, which its promise stands for. The broker sees the queue and the message;
`origin` is the row they were read from. -/
structure Delivery where
  tag : ℕ
  origin : ℕ
  queue : JsString
  message : Message
  deriving DecidableEq

/-- Why the promise of a publish is rejected. -/
inductive PublishError where
  | refused (reason : JsString)
  | timeout
  deriving DecidableEq

/-- What a drain throws. -/
inductive Failure where
  | database (error : DatabaseError)
  | publish (error : PublishError)
  deriving DecidableEq

structure PendingOutboxRow where
  id : ℕ
  queue : JsString
  pattern : JsString
  payload : OutboxPayload
  deriving DecidableEq

def PendingOutboxRow.ofRow (row : OutboxRow) : PendingOutboxRow :=
  ⟨row.id, row.entry.route.queue, row.entry.route.pattern, row.entry.payload⟩

inductive Statement where
  | startTransaction
  | commitTransaction
  | rollbackTransaction
  /-- `SELECT pg_try_advisory_xact_lock($1)` -/
  | tryAdvisoryXactLock (key : ℤ)
  /-- `SELECT ... WHERE published_at IS NULL ORDER BY id LIMIT $1` -/
  | selectPending (limit : ℕ)
  /-- `UPDATE outbox SET published_at = now() WHERE id = $1` -/
  | markPublished (id : ℕ)

abbrev Statement.Result : Statement → Type
  | .startTransaction => Unit
  | .commitTransaction => Unit
  | .rollbackTransaction => Unit
  | .tryAdvisoryXactLock _ => Bool
  | .selectPending _ => List PendingOutboxRow
  | .markPublished _ => Unit

inductive Call where
  | statement (statement : Statement)
  | publish (origin : ℕ) (queue : JsString) (message : Message)
  | awaitConfirm (delivery : Delivery)
  | recordOutboxPublishFailure

abbrev signature : Signature where
  Call := Call
  Reply
    | .statement statement => Except DatabaseError statement.Result
    | .publish .. => Delivery
    | .awaitConfirm _ => Except PublishError Unit
    | .recordOutboxPublishFailure => Unit

/-- Send a statement. Its failure rejects the promise. -/
def query (statement : Statement) : Program signature Failure statement.Result :=
  .call (.statement statement) fun
    | .ok result => .pure result
    | .error error => .throw (.database error)

/-- `dataSource.transaction` commits when the work resolves and rolls back when it throws. A
rollback that fails does not replace the error of the work. -/
def transaction {α : Type} (work : Program signature Failure α) : Program signature Failure α :=
  tryCatch
    (do
      query .startTransaction
      let result ← work
      query .commitTransaction
      return result)
    (fun error => do
      tryCatch (query .rollbackTransaction) fun _ => return ()
      throw error)

/-- `RabbitMQConnection.sendToQueue`, on behalf of the row `origin`. -/
def sendToQueue (origin : ℕ) (queue pattern : JsString) (event : OutboxPayload) :
    Program signature Failure Unit :=
  .call (.publish origin queue ⟨pattern, event⟩) fun delivery =>
    .call (.awaitConfirm delivery) fun
      | .ok () => .pure ()
      | .error error => .throw (.publish error)

/-- `catalogMetrics.recordOutboxPublishFailure`. -/
def recordOutboxPublishFailure : Program signature Failure Unit :=
  .call .recordOutboxPublishFailure .pure

/-- The loop of `drain`: how many rows were sent, and the failure it stopped at, if any. -/
def publishRows (sent : ℕ) : List PendingOutboxRow → Program signature Failure (ℕ × Option Failure)
  | [] => .pure (sent, none)
  | row :: rows => do
      let failure ←
        tryCatch
          (do
            sendToQueue row.id row.queue row.pattern row.payload
            return none)
          (fun error => do
            recordOutboxPublishFailure
            return some error)
      match failure with
      | some error => return (sent, some error)
      | none =>
          query (.markPublished row.id)
          publishRows (sent + 1) rows

def outboxRelayLockKey : ℤ := -3576818703360397482

/-- `OutboxRelay.drain`. -/
def drain (batchSize : ℕ) : Program signature Failure ℕ := do
  let (published, failure) ← transaction do
    let locked ← query (.tryAdvisoryXactLock outboxRelayLockKey)
    if ¬ locked then
      return (0, none)
    let rows ← query (.selectPending batchSize)
    publishRows 0 rows
  match failure with
  | some error => throw error
  | none => return published

/-- The transaction of a drain, as the server has it. -/
inductive Transaction where
  | idle
  /-- Started at `now`, with the rows it has marked. -/
  | opened (now : Date) (marks : List ℕ)
  /-- A statement failed, or the server ended it: its marks are gone. -/
  | aborted
  deriving DecidableEq

/-- What the server and the broker decide freely about a call. -/
inductive Choice where
  | proceed (now : Date)
  | fail (error : DatabaseError)
  | reject (error : PublishError)
  deriving DecidableEq

/-- What happens beside the drains. -/
inductive Event (ι : Type) where
  /-- A writer inserts a row. -/
  | insert (entry : OutboxEntry)
  /-- The writer of a row commits. -/
  | commit (row : OutboxRow)
  /-- The writer of a row rolls back. -/
  | rollback (row : OutboxRow)
  /-- The broker receives a message in flight, which the connection may send again. -/
  | arrive (delivery : Delivery)
  /-- A message in flight is lost. -/
  | lose (delivery : Delivery)
  /-- The server ends the transaction of a drain. -/
  | abort (index : ι)

/-- What the drains `ι` and the writers share. -/
structure Shared (ι : Type) where
  /-- The committed rows. -/
  outbox : OutboxTable
  /-- The rows whose writers have not committed. -/
  uncommitted : List OutboxRow
  nextOutboxId : ℕ
  transactions : ι → Transaction
  /-- The holders of the advisory locks. -/
  locks : ℤ → Option ι
  nextTag : ℕ
  inFlight : List Delivery
  received : List Delivery
  /-- The deliveries whose confirm a drain has seen. -/
  confirmed : List Delivery
  publishFailures : ℕ

namespace Shared

variable {ι : Type}

/-- An outbox nobody has written to. -/
def initial : Shared ι where
  outbox := .empty
  uncommitted := []
  nextOutboxId := 1
  transactions _ := .idle
  locks _ := none
  nextTag := 1
  inFlight := []
  received := []
  confirmed := []
  publishFailures := 0

/-- The rows a drain that has made these marks selects. -/
def pending (shared : Shared ι) (marks : List ℕ) : List OutboxRow :=
  shared.outbox.rows.filter fun row => row.publishedAt = none ∧ row.id ∉ marks

/-- A row, after the marks of a transaction that started at `now`. -/
def mark (now : Date) (marks : List ℕ) (row : OutboxRow) : OutboxRow :=
  if row.id ∈ marks then { row with publishedAt := some now } else row

@[simp]
theorem mark_id (now : Date) (marks : List ℕ) (row : OutboxRow) :
    (mark now marks row).id = row.id := by
  unfold mark
  split <;> rfl

@[simp]
theorem mark_entry (now : Date) (marks : List ℕ) (row : OutboxRow) :
    (mark now marks row).entry = row.entry := by
  unfold mark
  split <;> rfl

/-- The marks of a transaction, committed. -/
def commitMarks (shared : Shared ι) (start : Date) (marks : List ℕ) : Shared ι :=
  { shared with outbox := shared.outbox.mapRows (mark start marks) (mark_id start marks) }

variable [DecidableEq ι]

def setTransaction (shared : Shared ι) (index : ι) (transaction : Transaction) : Shared ι :=
  { shared with transactions := Function.update shared.transactions index transaction }

/-- The end of a transaction releases its locks. -/
def release (shared : Shared ι) (index : ι) (left : Transaction) : Shared ι :=
  { shared.setTransaction index left with
    locks := fun key => if shared.locks key = some index then none else shared.locks key }

/-- A statement of a drain. Only the start is accepted outside an open transaction. -/
def execute (now : Date) (index : ι) (shared : Shared ι) :
    (statement : Statement) → Except DatabaseError statement.Result × Shared ι
  | .startTransaction =>
      match shared.transactions index with
      | .idle => (.ok (), shared.setTransaction index (.opened now []))
      | _ => (.error .connectionError, shared)
  | .commitTransaction =>
      match shared.transactions index with
      | .opened start marks =>
          (.ok (), (shared.release index .idle).commitMarks start marks)
      | _ => (.error .connectionError, shared)
  | .rollbackTransaction => (.ok (), shared.release index .idle)
  | .tryAdvisoryXactLock key =>
      match shared.transactions index with
      | .opened _ _ =>
          match shared.locks key with
          | none =>
              (.ok true, { shared with locks := Function.update shared.locks key (some index) })
          | some holder => (.ok (holder = index), shared)
      | _ => (.error .connectionError, shared)
  | .selectPending limit =>
      match shared.transactions index with
      | .opened _ marks => (.ok (((shared.pending marks).take limit).map .ofRow), shared)
      | _ => (.error .connectionError, shared)
  | .markPublished id =>
      match shared.transactions index with
      | .opened start marks => (.ok (), shared.setTransaction index (.opened start (marks ++ [id])))
      | _ => (.error .connectionError, shared)

/-- A statement that fails aborts the transaction. -/
def fail (index : ι) (shared : Shared ι) : Shared ι :=
  match shared.transactions index with
  | .opened _ _ => shared.setTransaction index .aborted
  | _ => shared

/-- The answer to a call of a drain. A confirm needs the broker to have received the message. -/
def answer (choice : Choice) (index : ι) (shared : Shared ι) :
    (call : Call) → Option (signature.Reply call × Shared ι)
  | .statement statement =>
      match choice with
      | .proceed now => some (shared.execute now index statement)
      | .fail error => some (.error error, shared.fail index)
      | .reject _ => none
  | .publish origin queue message =>
      let delivery : Delivery := ⟨shared.nextTag, origin, queue, message⟩
      some (delivery, { shared with
        nextTag := shared.nextTag + 1
        inFlight := shared.inFlight ++ [delivery] })
  | .awaitConfirm delivery =>
      match choice with
      | .proceed _ =>
          if delivery ∈ shared.received then
            some (.ok (), { shared with confirmed := shared.confirmed ++ [delivery] })
          else
            none
      | .reject error => some (.error error, shared)
      | .fail _ => none
  | .recordOutboxPublishFailure =>
      some ((), { shared with publishFailures := shared.publishFailures + 1 })

/-- A later row of a request is only inserted when its earlier rows have been committed or
rolled back. -/
def environment (shared : Shared ι) : Event ι → Option (Shared ι)
  | .insert entry =>
      let row : OutboxRow := ⟨shared.nextOutboxId, entry, none⟩
      if ∀ other ∈ shared.uncommitted, other.request ≠ row.request then
        some { shared with
          uncommitted := shared.uncommitted ++ [row]
          nextOutboxId := shared.nextOutboxId + 1 }
      else
        none
  | .commit row =>
      if row ∈ shared.uncommitted then
        some { shared with
          outbox := shared.outbox.insert row
          uncommitted := shared.uncommitted.erase row }
      else
        none
  | .rollback row => some { shared with uncommitted := shared.uncommitted.erase row }
  | .arrive delivery =>
      if delivery ∈ shared.inFlight then
        some { shared with received := shared.received ++ [delivery] }
      else
        none
  | .lose delivery => some { shared with inFlight := shared.inFlight.erase delivery }
  | .abort index =>
      match shared.transactions index with
      | .idle => none
      | _ => some (shared.release index .aborted)

end Shared

/-- The drains `ι` over one outbox and one broker. -/
abbrev machine (ι : Type) [DecidableEq ι] : Machine signature ι where
  Shared := Shared ι
  Local := Unit
  Choice := Choice
  Event := Event ι
  answer choice index shared _ call :=
    (shared.answer choice index call).map fun (reply, shared') => (reply, shared', ())
  environment event shared := shared.environment event

/-- Every drain about to run over an outbox nobody has written to. -/
def start {ι : Type} [DecidableEq ι] (batchSize : ι → ℕ) :
    Machine.World (machine ι) Failure ℕ where
  shared := .initial
  locals _ := ()
  programs index := drain (batchSize index)

end Relay

end ProcessingCatalog
