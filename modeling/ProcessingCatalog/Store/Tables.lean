import ProcessingCatalog.Application.Ports
import ProcessingCatalog.Library.KeyedTable
import ProcessingCatalog.Library.SortedTable
import Mathlib.Data.Nat.Basic

/-!
# The three tables

The rows of `processing_request`, `processed_event` and `outbox`, the unique
indexes of the first, and the changes a transaction makes to them. Text is
stored and compared exactly, which is what the service gets if it is well
formed: the driver sends a surrogate that is not half of a pair as U+FFFD, so
what is said of the tables assumes that no text sent to them has one. The
columns that no code in this development reads back (`processed_at`, the outbox
row's `created_at`) are left out.
-/

namespace ProcessingCatalog

/-- A row of `processing_request`, whose two `uuid` columns hold canonical values only. -/
structure ProcessingRequestRow where
  processingRequestId : Uuid
  ownerUserId : JsString
  ownerEmail : JsString
  sourceStorageKey : JsString
  status : ProcessingRequestStatus
  attemptId : Option Uuid
  zipStorageKey : Option JsString
  failureCode : Option FailureCode
  idempotencyKey : Option JsString
  correlationId : Option JsString
  createdAt : Date
  updatedAt : Date
  deriving DecidableEq

namespace ProcessingRequestRow

def toDomain (row : ProcessingRequestRow) : ProcessingRequest where
  processingRequestId := row.processingRequestId.text
  ownerUserId := row.ownerUserId
  ownerEmail := row.ownerEmail
  sourceStorageKey := row.sourceStorageKey
  status := row.status
  attemptId := row.attemptId.map Uuid.text
  zipStorageKey := row.zipStorageKey
  failureCode := row.failureCode
  idempotencyKey := row.idempotencyKey
  correlationId := row.correlationId
  createdAt := row.createdAt
  updatedAt := row.updatedAt

@[simp]
theorem toDomain_processingRequestId (row : ProcessingRequestRow) :
    row.toDomain.processingRequestId = row.processingRequestId.text := rfl

/-- A nullable `uuid` column, written from text. -/
def uuidColumn : Option JsString → Option (Option Uuid)
  | none => some none
  | some text => (Uuid.parse text).map some

/-- The row a request is written as, when both its identifiers are UUIDs. -/
def toRow (request : ProcessingRequest) : Option ProcessingRequestRow := do
  let processingRequestId ← Uuid.parse request.processingRequestId
  let attemptId ← uuidColumn request.attemptId
  return {
    processingRequestId
    ownerUserId := request.ownerUserId
    ownerEmail := request.ownerEmail
    sourceStorageKey := request.sourceStorageKey
    status := request.status
    attemptId
    zipStorageKey := request.zipStorageKey
    failureCode := request.failureCode
    idempotencyKey := request.idempotencyKey
    correlationId := request.correlationId
    createdAt := request.createdAt
    updatedAt := request.updatedAt }

@[simp]
theorem uuidColumn_text (uuid : Option Uuid) : uuidColumn (uuid.map Uuid.text) = some uuid := by
  cases uuid with
  | none => rfl
  | some uuid => simp [uuidColumn]

/-- What is read from a row is written back as the same row. -/
@[simp]
theorem toRow_toDomain (row : ProcessingRequestRow) : toRow row.toDomain = some row := by
  simp [toRow, toDomain]

theorem toDomain_injective : Function.Injective toDomain := by
  intro left right same
  have rows := congrArg toRow same
  simpa using rows

/-- The fields no later write changes. -/
def SameIdentity (before after : ProcessingRequestRow) : Prop :=
  before.toDomain.SameIdentity after.toDomain

theorem SameIdentity.refl (row : ProcessingRequestRow) : row.SameIdentity row :=
  ProcessingRequest.SameIdentity.refl _

theorem SameIdentity.symm {before after : ProcessingRequestRow}
    (same : before.SameIdentity after) : after.SameIdentity before :=
  ProcessingRequest.SameIdentity.symm same

theorem SameIdentity.trans {first second third : ProcessingRequestRow}
    (left : first.SameIdentity second) (right : second.SameIdentity third) :
    first.SameIdentity third :=
  ProcessingRequest.SameIdentity.trans left right

theorem SameIdentity.processingRequestId {before after : ProcessingRequestRow}
    (same : before.SameIdentity after) : after.processingRequestId = before.processingRequestId :=
  Uuid.text_injective same.1

end ProcessingRequestRow

/-- The unique indexes of `processing_request`, in the order an insert checks them. -/
inductive UniqueIndex where
  | primaryKey
  | ownerIdempotency
  | ownerSource
  deriving DecidableEq

namespace UniqueIndex

def all : List UniqueIndex := [.primaryKey, .ownerIdempotency, .ownerSource]

def constraint : UniqueIndex → JsString
  | .primaryKey => js "processing_request_pkey"
  | .ownerIdempotency => js "uq_processing_request_owner_idempotency"
  | .ownerSource => js "uq_processing_request_owner_source"

/-- Whether two rows have equal entries in an index. Null keys are never equal. -/
def Collides (left right : ProcessingRequestRow) : UniqueIndex → Prop
  | .primaryKey => left.processingRequestId = right.processingRequestId
  | .ownerIdempotency =>
      left.ownerUserId = right.ownerUserId ∧ left.idempotencyKey = right.idempotencyKey ∧
        left.idempotencyKey.isSome
  | .ownerSource =>
      left.ownerUserId = right.ownerUserId ∧ left.sourceStorageKey = right.sourceStorageKey

instance (left right : ProcessingRequestRow) (index : UniqueIndex) :
    Decidable (index.Collides left right) := by
  cases index <;> unfold Collides <;> infer_instance

theorem Collides.symm {left right : ProcessingRequestRow} {index : UniqueIndex}
    (collides : index.Collides left right) : index.Collides right left := by
  cases index with
  | primaryKey => exact Eq.symm collides
  | ownerIdempotency =>
      obtain ⟨owner, key, defined⟩ := collides
      exact ⟨owner.symm, key.symm, key ▸ defined⟩
  | ownerSource => exact ⟨collides.1.symm, collides.2.symm⟩

/-- A later version of a row collides with what the row itself collides with. -/
theorem Collides.of_sameIdentity {before after other : ProcessingRequestRow} {index : UniqueIndex}
    (same : before.SameIdentity after) (collides : index.Collides other after) :
    index.Collides other before := by
  have ⟨_, owner, _, source, key, _⟩ := same
  simp only [ProcessingRequestRow.toDomain] at owner source key
  cases index with
  | primaryKey => exact (collides : _ = _).trans same.processingRequestId
  | ownerIdempotency => exact ⟨collides.1.trans owner, collides.2.1.trans key, collides.2.2⟩
  | ownerSource => exact ⟨collides.1.trans owner, collides.2.trans source⟩

end UniqueIndex

/-- A row of `processed_event`. -/
structure ProcessedEvent where
  eventId : JsString
  processingRequestId : Option Uuid
  deriving DecidableEq

/-- What an outbox row carries. -/
structure OutboxEntry where
  route : EventRoute
  payload : OutboxPayload
  deriving DecidableEq

/-- A row of `outbox`. -/
structure OutboxRow where
  id : ℕ
  entry : OutboxEntry
  publishedAt : Option Date
  deriving DecidableEq

abbrev RequestTable := KeyedTable ProcessingRequestRow.processingRequestId

abbrev EventTable := KeyedTable ProcessedEvent.eventId

abbrev OutboxTable := SortedTable OutboxRow.id

/-- No two requests have equal entries in one of the unique indexes. -/
def UniqueIndexes (requests : RequestTable) : Prop :=
  ∀ index : UniqueIndex, ∀ left ∈ requests, ∀ right ∈ requests,
    index.Collides left right → left = right

theorem uniqueIndexes_empty : UniqueIndexes .empty := by
  intro index left leftMem
  simp at leftMem

/-- A row that collides with nothing may be inserted. -/
theorem UniqueIndexes.insert {requests : RequestTable} (unique : UniqueIndexes requests)
    {row : ProcessingRequestRow}
    (free : ∀ stored ∈ requests, ∀ index : UniqueIndex, ¬ index.Collides stored row) :
    UniqueIndexes (requests.upsert row) := by
  intro index left leftMem right rightMem collides
  rcases KeyedTable.mem_upsert.mp leftMem with rfl | ⟨oldLeft, _⟩ <;>
    rcases KeyedTable.mem_upsert.mp rightMem with rfl | ⟨oldRight, _⟩
  · rfl
  · exact absurd collides.symm (free right oldRight index)
  · exact absurd collides (free left oldLeft index)
  · exact unique index left oldLeft right oldRight collides

/-- A later version of a stored row may replace it. -/
theorem UniqueIndexes.save {requests : RequestTable} (unique : UniqueIndexes requests)
    {before row : ProcessingRequestRow} (beforeMem : before ∈ requests)
    (same : before.SameIdentity row) : UniqueIndexes (requests.upsert row) := by
  have clear : ∀ stored ∈ requests, stored.processingRequestId ≠ row.processingRequestId →
      ∀ index : UniqueIndex, ¬ index.Collides stored row := by
    intro stored storedMem different index collides
    have same' := unique index stored storedMem before beforeMem (collides.of_sameIdentity same)
    exact different (same' ▸ same.processingRequestId.symm)
  intro index left leftMem right rightMem collides
  rcases KeyedTable.mem_upsert.mp leftMem with rfl | ⟨oldLeft, differentLeft⟩ <;>
    rcases KeyedTable.mem_upsert.mp rightMem with rfl | ⟨oldRight, differentRight⟩
  · rfl
  · exact absurd collides.symm (clear right oldRight differentRight index)
  · exact absurd collides (clear left oldLeft differentLeft index)
  · exact unique index left oldLeft right oldRight collides

/-- A change to the tables, where `ω` is what is known of an outbox row. -/
inductive Change (ω : Type) where
  | insertRequest (row : ProcessingRequestRow)
  | saveRequest (row : ProcessingRequestRow)
  | insertEvent (event : ProcessedEvent)
  | insertOutbox (row : ω)
  deriving DecidableEq

namespace Change

variable {ω ω' : Type}

def map (f : ω → ω') : Change ω → Change ω'
  | .insertRequest row => .insertRequest row
  | .saveRequest row => .saveRequest row
  | .insertEvent event => .insertEvent event
  | .insertOutbox row => .insertOutbox (f row)

/-- Whether a change is more than the record that an event was handled. -/
def TouchesRequestOrOutbox : Change ω → Prop
  | .insertEvent _ => False
  | _ => True

def applyToRequests (requests : RequestTable) : Change ω → RequestTable
  | .insertRequest row => requests.upsert row
  | .saveRequest row => requests.upsert row
  | _ => requests

def applyToEvents (events : EventTable) : Change ω → EventTable
  | .insertEvent event => events.upsert event
  | _ => events

@[simp]
theorem applyToRequests_map (f : ω → ω') (requests : RequestTable) (change : Change ω) :
    (change.map f).applyToRequests requests = change.applyToRequests requests := by
  cases change <;> rfl

@[simp]
theorem applyToEvents_map (f : ω → ω') (events : EventTable) (change : Change ω) :
    (change.map f).applyToEvents events = change.applyToEvents events := by
  cases change <;> rfl

end Change

/-- A write of a transaction: outbox rows already have their identifiers. -/
abbrev Write := Change OutboxRow

/-- The committed tables. -/
structure Database where
  requests : RequestTable
  events : EventTable
  outbox : OutboxTable
  deriving DecidableEq

namespace Database

def empty : Database := ⟨.empty, .empty, .empty⟩

def applyToOutbox (outbox : OutboxTable) : Write → OutboxTable
  | .insertOutbox row => outbox.insert row
  | _ => outbox

def apply (database : Database) (write : Write) : Database where
  requests := write.applyToRequests database.requests
  events := write.applyToEvents database.events
  outbox := applyToOutbox database.outbox write

def applyAll (database : Database) (writes : List Write) : Database :=
  writes.foldl apply database

@[simp]
theorem applyAll_nil (database : Database) : database.applyAll [] = database := rfl

@[simp]
theorem applyAll_cons (database : Database) (write : Write) (writes : List Write) :
    database.applyAll (write :: writes) = (database.apply write).applyAll writes := rfl

theorem applyAll_append (database : Database) (first second : List Write) :
    database.applyAll (first ++ second) = (database.applyAll first).applyAll second :=
  List.foldl_append

/-- A write stores a row under its key. -/
def Stores (writes : List Write) (row : ProcessingRequestRow) : Prop :=
  .insertRequest row ∈ writes ∨ .saveRequest row ∈ writes

theorem mem_requests_applyAll {database : Database} {writes : List Write}
    {row : ProcessingRequestRow} (rowMem : row ∈ (database.applyAll writes).requests) :
    row ∈ database.requests ∨ Stores writes row := by
  induction writes generalizing database with
  | nil => exact .inl rowMem
  | cons write writes ih =>
      rcases ih rowMem with applied | inserted | saved
      · cases write with
        | insertRequest stored =>
            rcases KeyedTable.mem_upsert.mp applied with rfl | ⟨old, _⟩
            · exact .inr (.inl List.mem_cons_self)
            · exact .inl old
        | saveRequest stored =>
            rcases KeyedTable.mem_upsert.mp applied with rfl | ⟨old, _⟩
            · exact .inr (.inr List.mem_cons_self)
            · exact .inl old
        | insertEvent event => exact .inl applied
        | insertOutbox row => exact .inl applied
      · exact .inr (.inl (List.mem_cons_of_mem _ inserted))
      · exact .inr (.inr (List.mem_cons_of_mem _ saved))

/-- Writes leave a row alone unless they store another under its identifier. -/
theorem find?_requests_applyAll {database : Database} {writes : List Write} {id : Uuid}
    (untouched : ∀ row, Stores writes row → row.processingRequestId ≠ id) :
    (database.applyAll writes).requests.find? id = database.requests.find? id := by
  induction writes generalizing database with
  | nil => rfl
  | cons write writes ih =>
      have rest : ∀ row, Stores writes row → row.processingRequestId ≠ id := fun row stores =>
        untouched row (stores.imp (List.mem_cons_of_mem _) (List.mem_cons_of_mem _))
      rw [applyAll_cons, ih rest]
      cases write with
      | insertRequest row =>
          exact KeyedTable.find?_upsert_of_ne _ (untouched row (.inl List.mem_cons_self))
      | saveRequest row =>
          exact KeyedTable.find?_upsert_of_ne _ (untouched row (.inr List.mem_cons_self))
      | insertEvent event => rfl
      | insertOutbox row => rfl

/-- A stored identifier stays stored. -/
theorem isSome_find?_applyAll {database : Database} {writes : List Write} {id : Uuid}
    (stored : (database.requests.find? id).isSome) :
    ((database.applyAll writes).requests.find? id).isSome := by
  induction writes generalizing database with
  | nil => exact stored
  | cons write writes ih =>
      refine ih ?_
      cases write with
      | insertRequest row =>
          simp only [apply, Change.applyToRequests, KeyedTable.find?_upsert]
          split <;> simp [stored]
      | saveRequest row =>
          simp only [apply, Change.applyToRequests, KeyedTable.find?_upsert]
          split <;> simp [stored]
      | insertEvent event => exact stored
      | insertOutbox row => exact stored

theorem mem_events_applyAll {database : Database} {writes : List Write} {event : ProcessedEvent}
    (eventMem : event ∈ (database.applyAll writes).events) :
    event ∈ database.events ∨ .insertEvent event ∈ writes := by
  induction writes generalizing database with
  | nil => exact .inl eventMem
  | cons write writes ih =>
      rcases ih eventMem with applied | inserted
      · cases write with
        | insertEvent recorded =>
            rcases KeyedTable.mem_upsert.mp applied with rfl | ⟨old, _⟩
            · exact .inr List.mem_cons_self
            · exact .inl old
        | insertRequest row => exact .inl applied
        | saveRequest row => exact .inl applied
        | insertOutbox row => exact .inl applied
      · exact .inr (List.mem_cons_of_mem _ inserted)

/-- A recorded event stays as it is when no write records its identifier again. -/
theorem mem_events_applyAll_of_mem {database : Database} {writes : List Write}
    {event : ProcessedEvent} (eventMem : event ∈ database.events)
    (untouched : ∀ other, .insertEvent other ∈ writes → other.eventId ≠ event.eventId) :
    event ∈ (database.applyAll writes).events := by
  induction writes generalizing database with
  | nil => exact eventMem
  | cons write writes ih =>
      refine ih ?_ fun other otherMem => untouched other (List.mem_cons_of_mem _ otherMem)
      cases write with
      | insertEvent recorded =>
          exact KeyedTable.mem_upsert.mpr
            (.inr ⟨eventMem, (untouched recorded List.mem_cons_self).symm⟩)
      | insertRequest row => exact eventMem
      | saveRequest row => exact eventMem
      | insertOutbox row => exact eventMem

/-- Writes leave the record of an event alone unless they record it. -/
theorem find?_events_applyAll {database : Database} {writes : List Write} {eventId : JsString}
    (untouched : ∀ event, .insertEvent event ∈ writes → event.eventId ≠ eventId) :
    (database.applyAll writes).events.find? eventId = database.events.find? eventId := by
  induction writes generalizing database with
  | nil => rfl
  | cons write writes ih =>
      rw [applyAll_cons, ih fun event eventMem => untouched event (List.mem_cons_of_mem _ eventMem)]
      cases write with
      | insertEvent event =>
          exact KeyedTable.find?_upsert_of_ne _ (untouched event List.mem_cons_self)
      | insertRequest row => rfl
      | saveRequest row => rfl
      | insertOutbox row => rfl

theorem mem_outbox_applyAll {database : Database} {writes : List Write} {row : OutboxRow}
    (rowMem : row ∈ (database.applyAll writes).outbox) :
    row ∈ database.outbox ∨ .insertOutbox row ∈ writes := by
  induction writes generalizing database with
  | nil => exact .inl rowMem
  | cons write writes ih =>
      rcases ih rowMem with applied | inserted
      · cases write with
        | insertOutbox added =>
            rcases SortedTable.mem_insert.mp applied with rfl | ⟨old, _⟩
            · exact .inr List.mem_cons_self
            · exact .inl old
        | insertRequest row => exact .inl applied
        | saveRequest row => exact .inl applied
        | insertEvent event => exact .inl applied
      · exact .inr (List.mem_cons_of_mem _ inserted)

/-- An outbox row stays when no write inserts another under its identifier. -/
theorem mem_outbox_applyAll_of_mem {database : Database} {writes : List Write} {row : OutboxRow}
    (rowMem : row ∈ database.outbox)
    (untouched : ∀ other, .insertOutbox other ∈ writes → row.id ≠ other.id) :
    row ∈ (database.applyAll writes).outbox := by
  induction writes generalizing database with
  | nil => exact rowMem
  | cons write writes ih =>
      refine ih ?_ fun other otherMem => untouched other (List.mem_cons_of_mem _ otherMem)
      cases write with
      | insertOutbox added =>
          exact SortedTable.mem_insert.mpr (.inr ⟨rowMem, untouched added List.mem_cons_self⟩)
      | insertRequest row => exact rowMem
      | saveRequest row => exact rowMem
      | insertEvent event => exact rowMem

/-- The outbox rows of one request, in the order of their identifiers. -/
def outboxOf (database : Database) (processingRequestId : JsString) : List OutboxEntry :=
  (database.outbox.rows.filter fun row =>
    row.entry.payload.processingRequestId = processingRequestId).map OutboxRow.entry

end Database

end ProcessingCatalog
