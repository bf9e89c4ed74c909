import ProcessingCatalog.Library.Reversible
import ProcessingCatalog.Persistence.TextSizes
import ProcessingCatalog.Store.Tables

/-!
# The migrations

The statements of each migration, forth and back, and how `runMigrations` and
`undoLastMigration` run them: all that are pending in one transaction, in the
order of the timestamps in their names, and the last one executed in another.
-/

namespace ProcessingCatalog

namespace Migrations

inductive TableName where
  | processingRequest
  | processedEvent
  | outbox
  deriving DecidableEq

inductive ColumnName where
  | processingRequestId
  | ownerUserId
  | sourceStorageKey
  | status
  | attemptId
  | zipStorageKey
  | failureCode
  | createdAt
  | updatedAt
  | eventId
  | processedAt
  | id
  | queue
  | pattern
  | payload
  | publishedAt
  | idempotencyKey
  | ownerEmail
  | correlationId
  deriving DecidableEq

inductive IndexName where
  | idxProcessingRequestOwner
  | idxOutboxPending
  | idxProcessingRequestOwnerCreated
  | uqProcessingRequestOwnerIdempotency
  | uqProcessingRequestOwnerSource
  deriving DecidableEq

inductive DataType where
  | uuid
  | text
  | varchar (length : ℕ)
  | timestamptz
  | bigserial
  | jsonb

inductive Value where
  | uuid (value : Uuid)
  | text (value : JsString)
  | timestamptz (value : Date)
  | bigint (value : ℕ)
  | jsonb (value : OutboxPayload)
  deriving DecidableEq

def DataType.Fits : DataType → Value → Prop
  | .uuid, .uuid _ => True
  | .text, .text _ => True
  | .varchar length, .text value => value.length ≤ length
  | .timestamptz, .timestamptz _ => True
  | .bigserial, .bigint _ => True
  | .jsonb, .jsonb _ => True
  | _, _ => False

abbrev catalog : Ddl.Vocabulary where
  TableName := TableName
  ColumnName := ColumnName
  IndexName := IndexName
  DataType := DataType
  Value := Value
  Fits := DataType.Fits

/-- The sizes in an index of the values whose types do not tell. -/
class EntrySizes extends TextSizes where
  document : OutboxPayload → IndexTuple.Attribute

/-- Every text takes the room that its bytes take. -/
abbrev EntrySizes.incompressible : EntrySizes where
  toTextSizes := .incompressible
  document _ := .varying 0

section Storage

variable [sizes : EntrySizes]

def Value.stored : Value → IndexTuple.Attribute
  | .uuid _ => .fixed .char 16
  | .text value => sizes.toTextSizes.stored value
  | .timestamptz _ => .fixed .double 8
  | .bigint _ => .fixed .double 8
  | .jsonb value => sizes.document value

def storedColumn (value : Option Value) : IndexTuple.Attribute :=
  value.elim .null Value.stored

instance : Ddl.Storage catalog where
  fits entry := IndexTuple.Fits (entry.map storedColumn)

end Storage

def notNull (name : ColumnName) (type : DataType) : Ddl.Column catalog :=
  ⟨name, type, false, none, nofun⟩

def nullable (name : ColumnName) (type : DataType) : Ddl.Column catalog :=
  ⟨name, type, true, none, nofun⟩

def index (table : TableName) (columns : List ColumnName) : Ddl.Index catalog :=
  ⟨table, false, columns, [], none⟩

def uniqueIndex (table : TableName) (columns : List ColumnName) : Ddl.Index catalog :=
  ⟨table, true, columns, [], none⟩

structure Migration where
  name : JsString
  up : List (Ddl.Statement catalog)
  down : List (Ddl.Statement catalog)

def createProcessingRequest : Migration where
  name := js "CreateProcessingRequest1789953000000"
  up :=
    [.createTable .processingRequest {
        columns := [notNull .processingRequestId .uuid, notNull .ownerUserId .text,
          notNull .sourceStorageKey .text, notNull .status .text, nullable .attemptId .uuid,
          nullable .zipStorageKey .text, nullable .failureCode .text,
          notNull .createdAt .timestamptz, notNull .updatedAt .timestamptz]
        primaryKey := [.processingRequestId]
        keyed := by simp [notNull] },
      .createTable .processedEvent {
        columns := [notNull .eventId .text, nullable .processingRequestId .uuid,
          notNull .processedAt .timestamptz]
        primaryKey := [.eventId]
        keyed := by simp [notNull] },
      .createIndex .idxProcessingRequestOwner (index .processingRequest [.ownerUserId])]
  down :=
    [.dropIndex .idxProcessingRequestOwner, .dropTable .processedEvent,
      .dropTable .processingRequest]

def createOutbox : Migration where
  name := js "CreateOutbox1789953100000"
  up :=
    [.createTable .outbox {
        columns := [notNull .id .bigserial, notNull .queue .text, notNull .pattern .text,
          notNull .payload .jsonb, notNull .createdAt .timestamptz,
          nullable .publishedAt .timestamptz]
        primaryKey := [.id]
        keyed := by simp [notNull] },
      .createIndex .idxOutboxPending
        { index .outbox [.id] with whereNull := some .publishedAt }]
  down := [.dropIndex .idxOutboxPending, .dropTable .outbox]

def indexProcessingRequestOwnerCreatedAt : Migration where
  name := js "IndexProcessingRequestOwnerCreatedAt1789955000000"
  up :=
    [.createIndex .idxProcessingRequestOwnerCreated
        { index .processingRequest [.ownerUserId, .createdAt, .processingRequestId] with
          descending := [.createdAt] },
      .dropIndex .idxProcessingRequestOwner]
  down :=
    [.createIndex .idxProcessingRequestOwner (index .processingRequest [.ownerUserId]),
      .dropIndex .idxProcessingRequestOwnerCreated]

def addIdempotencyKey : Migration where
  name := js "AddIdempotencyKey1789956000000"
  up :=
    [.addColumn .processingRequest (nullable .idempotencyKey .text),
      .createIndex .uqProcessingRequestOwnerIdempotency
        (uniqueIndex .processingRequest [.ownerUserId, .idempotencyKey])]
  down :=
    [.dropIndex .uqProcessingRequestOwnerIdempotency,
      .dropColumn .processingRequest .idempotencyKey]

def uniqueOwnerSource : Migration where
  name := js "UniqueOwnerSource1789957000000"
  up :=
    [.createIndex .uqProcessingRequestOwnerSource
        (uniqueIndex .processingRequest [.ownerUserId, .sourceStorageKey])]
  down := [.dropIndex .uqProcessingRequestOwnerSource]

def addOwnerEmail : Migration where
  name := js "AddOwnerEmail1789958000000"
  up :=
    [.addColumn .processingRequest {
        notNull .ownerEmail .text with
        default := some (.text [])
        fits := by
          rintro _ ⟨⟩
          trivial },
      .dropDefault .processingRequest .ownerEmail]
  down := [.dropColumn .processingRequest .ownerEmail]

def addCorrelationId : Migration where
  name := js "AddCorrelationId1789959000000"
  up := [.addColumn .processingRequest (nullable .correlationId (.varchar 128))]
  down := [.dropColumn .processingRequest .correlationId]

/-- The migrations of the data source. -/
def migrations : List Migration :=
  [createProcessingRequest, createOutbox, indexProcessingRequestOwnerCreatedAt, addIdempotencyKey,
    uniqueOwnerSource, addOwnerEmail, addCorrelationId]

/-- The last thirteen characters of a name are a number. -/
def timestamp (name : JsString) : ℕ :=
  (name.drop (name.length - 13)).foldl (fun number unit => 10 * number + (unit.toNat - 48)) 0

def getMigrations : List Migration :=
  migrations.mergeSort fun left right => timestamp left.name ≤ timestamp right.name

theorem getMigrations_eq : getMigrations = migrations := by
  refine List.mergeSort_of_pairwise ?_
  decide +kernel

inductive MigrationError where
  | refused (refusal : Ddl.Refusal catalog)
  | notFound (name : JsString)

/-- A database, with the names that its table of migrations lists. -/
structure Deployment where
  executed : List JsString
  database : Ddl.Database catalog

section Run

variable [EntrySizes]

/-- The migrations forth, up to the first statement that is refused. -/
def runUps (database : Ddl.Database catalog) :
    List Migration → Except (Ddl.Refusal catalog) (Ddl.Database catalog)
  | [] => .ok database
  | migration :: migrations =>
      Ddl.run database migration.up >>= fun next => runUps next migrations

/-- What is pending runs in one transaction: the database is as it was when one migration fails. -/
def runMigrations (deployment : Deployment) : Except MigrationError Deployment :=
  let pending := getMigrations.filter fun migration => migration.name ∉ deployment.executed
  match runUps deployment.database pending with
  | .error refusal => .error (.refused refusal)
  | .ok database => .ok ⟨deployment.executed ++ pending.map Migration.name, database⟩

def undoLastMigration (deployment : Deployment) : Except MigrationError Deployment :=
  match deployment.executed.getLast? with
  | none => .ok deployment
  | some name =>
      match getMigrations.find? fun migration => migration.name = name with
      | none => .error (.notFound name)
      | some migration =>
          match Ddl.run deployment.database migration.down with
          | .error refusal => .error (.refused refusal)
          | .ok database =>
              .ok ⟨deployment.executed.filter fun executed => executed ≠ name, database⟩

end Run

/-- The columns of `processing_request` once so many migrations have run. -/
def requestColumns (version : ℕ) : List (Ddl.Column catalog) :=
  [notNull .processingRequestId .uuid, notNull .ownerUserId .text,
    notNull .sourceStorageKey .text, notNull .status .text, nullable .attemptId .uuid,
    nullable .zipStorageKey .text, nullable .failureCode .text,
    notNull .createdAt .timestamptz, notNull .updatedAt .timestamptz] ++
  (if 4 ≤ version then [nullable .idempotencyKey .text] else []) ++
  (if 6 ≤ version then [notNull .ownerEmail .text] else []) ++
  (if 7 ≤ version then [nullable .correlationId (.varchar 128)] else [])

def requestTable (version : ℕ) : Ddl.Table catalog where
  columns := requestColumns version
  primaryKey := [.processingRequestId]
  keyed := by simp [requestColumns, notNull]

def eventTable : Ddl.Table catalog where
  columns := [notNull .eventId .text, nullable .processingRequestId .uuid,
    notNull .processedAt .timestamptz]
  primaryKey := [.eventId]
  keyed := by simp [notNull]

def outboxTable : Ddl.Table catalog where
  columns := [notNull .id .bigserial, notNull .queue .text, notNull .pattern .text,
    notNull .payload .jsonb, notNull .createdAt .timestamptz,
    nullable .publishedAt .timestamptz]
  primaryKey := [.id]
  keyed := by simp [notNull]

/-- The schema once so many migrations have run. -/
def schemaAt (version : ℕ) : Ddl.Schema catalog where
  tables
    | .processingRequest => if 1 ≤ version then some (requestTable version) else none
    | .processedEvent => if 1 ≤ version then some eventTable else none
    | .outbox => if 2 ≤ version then some outboxTable else none
  indexes
    | .idxProcessingRequestOwner =>
        if version = 1 ∨ version = 2 then some (index .processingRequest [.ownerUserId]) else none
    | .idxOutboxPending =>
        if 2 ≤ version then
          some { index .outbox [.id] with whereNull := some .publishedAt }
        else none
    | .idxProcessingRequestOwnerCreated =>
        if 3 ≤ version then
          some { index .processingRequest [.ownerUserId, .createdAt, .processingRequestId] with
            descending := [.createdAt] }
        else none
    | .uqProcessingRequestOwnerIdempotency =>
        if 4 ≤ version then some (uniqueIndex .processingRequest [.ownerUserId, .idempotencyKey])
        else none
    | .uqProcessingRequestOwnerSource =>
        if 5 ≤ version then some (uniqueIndex .processingRequest [.ownerUserId, .sourceStorageKey])
        else none

end Migrations

end ProcessingCatalog
