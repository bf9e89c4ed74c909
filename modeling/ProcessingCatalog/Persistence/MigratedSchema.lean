import ProcessingCatalog.Messaging.CorrelationKept
import ProcessingCatalog.Persistence.Migrating

/-!
# The schema the service writes to

What the service stores, written as the columns of the last version: PostgreSQL
accepts a row of the service exactly when the rows with it keep the constraints
that the migrations have made, and every state the service reaches is a database
that the migrations could have been run on.
-/

namespace ProcessingCatalog

open Effect

namespace Migrations

def requestColumnsOf (row : ProcessingRequestRow) : Ddl.Row catalog
  | .processingRequestId => some (.uuid row.processingRequestId)
  | .ownerUserId => some (.text row.ownerUserId)
  | .ownerEmail => some (.text row.ownerEmail)
  | .sourceStorageKey => some (.text row.sourceStorageKey)
  | .status => some (.text row.status.text)
  | .attemptId => row.attemptId.map .uuid
  | .zipStorageKey => row.zipStorageKey.map .text
  | .failureCode => row.failureCode.map fun code => .text code.text
  | .idempotencyKey => row.idempotencyKey.map .text
  | .correlationId => row.correlationId.map .text
  | .createdAt => some (.timestamptz row.createdAt)
  | .updatedAt => some (.timestamptz row.updatedAt)
  | _ => none

def eventColumnsOf (processedAt : Date) (event : ProcessedEvent) : Ddl.Row catalog
  | .eventId => some (.text event.eventId)
  | .processingRequestId => event.processingRequestId.map .uuid
  | .processedAt => some (.timestamptz processedAt)
  | _ => none

def outboxColumnsOf (createdAt : Date) (row : OutboxRow) : Ddl.Row catalog
  | .id => some (.bigint row.id)
  | .queue => some (.text row.entry.route.queue)
  | .pattern => some (.text row.entry.route.pattern)
  | .payload => some (.jsonb row.entry.payload)
  | .createdAt => some (.timestamptz createdAt)
  | .publishedAt => row.publishedAt.map .timestamptz
  | _ => none

/-- The columns that nothing reads back. -/
structure Stamps where
  processedAt : JsString → Date
  createdAt : ℕ → Date

def rowsOf (stamps : Stamps) (database : Database) : Ddl.Rows catalog
  | .processingRequest => database.requests.rows.map requestColumnsOf
  | .processedEvent => database.events.rows.map fun event =>
      eventColumnsOf (stamps.processedAt event.eventId) event
  | .outbox => database.outbox.rows.map fun row => outboxColumnsOf (stamps.createdAt row.id) row

def indexColumns : UniqueIndex → List ColumnName
  | .primaryKey => [.processingRequestId]
  | .ownerIdempotency => [.ownerUserId, .idempotencyKey]
  | .ownerSource => [.ownerUserId, .sourceStorageKey]

/-- Its correlation id fits its column. -/
def Fits (row : ProcessingRequestRow) : Prop :=
  ∀ id, row.correlationId = some id → id.length ≤ 128

section Columns

theorem clash_iff_collides {left right : ProcessingRequestRow} (index : UniqueIndex) :
    @Ddl.Clash catalog (indexColumns index) (requestColumnsOf left) (requestColumnsOf right) ↔
      index.Collides left right := by
  cases index with
  | primaryKey => simp [Ddl.Clash, indexColumns, requestColumnsOf, UniqueIndex.Collides]
  | ownerIdempotency =>
      have sameText : left.idempotencyKey.map Value.text = right.idempotencyKey.map Value.text ↔
          left.idempotencyKey = right.idempotencyKey :=
        (Option.map_injective fun _ _ => Value.text.inj).eq_iff
      simp [Ddl.Clash, indexColumns, requestColumnsOf, UniqueIndex.Collides, sameText, and_comm]
  | ownerSource => simp [Ddl.Clash, indexColumns, requestColumnsOf, UniqueIndex.Collides]

theorem distinct_requests_iff {rows : List ProcessingRequestRow} (index : UniqueIndex) :
    @Ddl.Distinct catalog (indexColumns index) (rows.map requestColumnsOf) ↔
      rows.Pairwise fun left right => ¬ index.Collides left right := by
  simp only [Ddl.Distinct, List.pairwise_map, clash_iff_collides]

theorem admits_request_iff (row : ProcessingRequestRow) :
    (requestTable 7).Admits (requestColumnsOf row) ↔ Fits row := by
  constructor
  · intro admits id isId
    refine admits.values (nullable .correlationId (.varchar 128)) ?_ (.text id) ?_
    · simp [requestTable, requestColumns]
    · simp [nullable, requestColumnsOf, isId]
  · intro fits
    refine ⟨?_, ?_, ?_⟩
    · simpa [requestTable, requestColumns, notNull, nullable, requestColumnsOf, DataType.Fits,
        Fits] using fits
    · simp [requestTable, requestColumns, notNull, nullable, requestColumnsOf]
    · intro name nameNotMem
      cases name
      all_goals first | rfl | exact absurd (by decide) nameNotMem

theorem admits_event (processedAt : Date) (event : ProcessedEvent) :
    eventTable.Admits (eventColumnsOf processedAt event) := by
  refine ⟨?_, ?_, ?_⟩
  · simp [eventTable, notNull, nullable, eventColumnsOf, DataType.Fits]
  · simp [eventTable, notNull, nullable, eventColumnsOf]
  · intro name nameNotMem
    cases name
    all_goals first | rfl | exact absurd (by decide) nameNotMem

theorem admits_outbox (createdAt : Date) (row : OutboxRow) :
    outboxTable.Admits (outboxColumnsOf createdAt row) := by
  refine ⟨?_, ?_, ?_⟩
  · simp [outboxTable, notNull, nullable, outboxColumnsOf, DataType.Fits]
  · simp [outboxTable, notNull, nullable, outboxColumnsOf]
  · intro name nameNotMem
    cases name
    all_goals first | rfl | exact absurd (by decide) nameNotMem

end Columns

section Schema

variable {rows : Ddl.Rows catalog}

/-- What the last version asks of the rows. -/
theorem valid_iff : Ddl.Database.Valid ⟨schemaAt 7, rows⟩ ↔
    ((∀ row ∈ rows .processingRequest, (requestTable 7).Admits row) ∧
      (∀ row ∈ rows .processedEvent, eventTable.Admits row) ∧
      ∀ row ∈ rows .outbox, outboxTable.Admits row) ∧
    (∀ index, @Ddl.Distinct catalog (indexColumns index) (rows .processingRequest)) ∧
    @Ddl.Distinct catalog [.eventId] (rows .processedEvent) ∧
    @Ddl.Distinct catalog [.id] (rows .outbox) := by
  constructor
  · intro valid
    refine ⟨⟨valid.admitted .processingRequest _ rfl, valid.admitted .processedEvent _ rfl,
      valid.admitted .outbox _ rfl⟩, fun index => ?_, valid.keyed .processedEvent _ rfl,
      valid.keyed .outbox _ rfl⟩
    cases index with
    | primaryKey => exact valid.keyed .processingRequest _ rfl
    | ownerIdempotency =>
        exact holds_unique.mp (valid.indexed .uqProcessingRequestOwnerIdempotency _ rfl)
    | ownerSource => exact holds_unique.mp (valid.indexed .uqProcessingRequestOwnerSource _ rfl)
  · rintro ⟨⟨requests, events, outbox⟩, distinct, eventIds, ids⟩
    refine ⟨supported_schemaAt le_rfl, ?_, ?_, ?_, ?_⟩
    · intro name missing
      cases name <;> cases missing
    · intro name table isTable
      cases name <;> cases isTable
      · exact requests
      · exact events
      · exact outbox
    · intro name table isTable
      cases name <;> cases isTable
      · exact distinct .primaryKey
      · exact eventIds
      · exact ids
    · intro name index isIndex
      cases name with
      | uqProcessingRequestOwnerIdempotency =>
          cases isIndex
          exact holds_unique.mpr (distinct .ownerIdempotency)
      | uqProcessingRequestOwnerSource =>
          cases isIndex
          exact holds_unique.mpr (distinct .ownerSource)
      | idxProcessingRequestOwner => cases isIndex
      | idxOutboxPending =>
          cases isIndex
          exact nofun
      | idxProcessingRequestOwnerCreated =>
          cases isIndex
          exact nofun

end Schema

section Rows

variable {stamps : Stamps} {database : Database}

theorem uniqueIndexes_iff_pairwise {requests : RequestTable} : UniqueIndexes requests ↔
    ∀ index : UniqueIndex,
      requests.rows.Pairwise fun left right => ¬ index.Collides left right := by
  constructor
  · intro unique index
    refine (List.Nodup.of_map _ requests.keys_nodup).pairwise_of_forall_ne ?_
    intro left leftMem right rightMem different collides
    exact different (unique index left leftMem right rightMem collides)
  · intro apart index left leftMem right rightMem collides
    by_contra different
    have symmetric : Std.Symm fun left right => ¬ index.Collides left right :=
      ⟨fun _ _ apart collides => apart collides.symm⟩
    exact (apart index).forall leftMem rightMem different collides

theorem distinct_events :
    @Ddl.Distinct catalog [.eventId] (rowsOf stamps database .processedEvent) := by
  refine List.pairwise_map.mpr ?_
  refine (List.pairwise_map.mp database.events.keys_nodup).imp ?_
  rintro left right different ⟨_, equal⟩
  have same := (equal .eventId List.mem_cons_self).2
  exact different (by simpa [eventColumnsOf] using same)

theorem distinct_outbox : @Ddl.Distinct catalog [.id] (rowsOf stamps database .outbox) := by
  refine List.pairwise_map.mpr ?_
  refine database.outbox.sorted.imp ?_
  rintro left right lower ⟨_, equal⟩
  have same := (equal .id List.mem_cons_self).2
  exact lower.ne (by simpa [outboxColumnsOf] using same)

/-- The tables of the service are valid rows of the last version exactly when their unique indexes
hold and their correlation ids fit. -/
theorem valid_rowsOf_iff : Ddl.Database.Valid ⟨schemaAt 7, rowsOf stamps database⟩ ↔
    (∀ row ∈ database.requests, Fits row) ∧ UniqueIndexes database.requests := by
  have requests : (∀ row ∈ rowsOf stamps database .processingRequest,
      (requestTable 7).Admits row) ↔ ∀ row ∈ database.requests, Fits row := by
    simp only [rowsOf, List.forall_mem_map, admits_request_iff]
    rfl
  have unique : (∀ index, @Ddl.Distinct catalog (indexColumns index)
      (rowsOf stamps database .processingRequest)) ↔ UniqueIndexes database.requests := by
    rw [uniqueIndexes_iff_pairwise]
    exact forall_congr' fun index => distinct_requests_iff index
  rw [valid_iff, requests, unique]
  constructor
  · rintro ⟨⟨fits, _, _⟩, unique, _, _⟩
    exact ⟨fits, unique⟩
  · rintro ⟨fits, unique⟩
    refine ⟨⟨fits, ?_, ?_⟩, unique, distinct_events, distinct_outbox⟩
    · exact List.forall_mem_map.mpr fun event _ => admits_event _ event
    · exact List.forall_mem_map.mpr fun row _ => admits_outbox _ row

theorem distinct_concat {columns : List ColumnName} {rows : List (Ddl.Row catalog)}
    {row : Ddl.Row catalog} : @Ddl.Distinct catalog columns (rows ++ [row]) ↔
      @Ddl.Distinct catalog columns rows ∧
        ∀ other ∈ rows, ¬ @Ddl.Clash catalog columns other row := by
  simp [Ddl.Distinct, List.pairwise_append]

def withRequest (rows : Ddl.Rows catalog) (row : ProcessingRequestRow) : Ddl.Rows catalog :=
  Function.update rows .processingRequest (rows .processingRequest ++ [requestColumnsOf row])

def withEvent (rows : Ddl.Rows catalog) (processedAt : Date) (event : ProcessedEvent) :
    Ddl.Rows catalog :=
  Function.update rows .processedEvent
    (rows .processedEvent ++ [eventColumnsOf processedAt event])

open Postgres.Modification in
/-- A request is accepted when the rows with it are valid. -/
theorem freeFor_iff_valid (valid : Ddl.Database.Valid ⟨schemaAt 7, rowsOf stamps database⟩)
    {row : ProcessingRequestRow} (fits : Fits row) :
    (∀ index, freeFor database row index = true) ↔
      Ddl.Database.Valid ⟨schemaAt 7, withRequest (rowsOf stamps database) row⟩ := by
  have free : ∀ index, freeFor database row index = true ↔
      ∀ other ∈ rowsOf stamps database .processingRequest,
        ¬ @Ddl.Clash catalog (indexColumns index) other (requestColumnsOf row) := by
    intro index
    simp only [freeFor, List.all_eq_true, decide_eq_true_eq, rowsOf, List.forall_mem_map,
      clash_iff_collides]
  rcases valid_iff.mp valid with ⟨⟨requests, events, outbox⟩, distinct, eventIds, ids⟩
  rw [valid_iff]
  constructor
  · intro isFree
    refine ⟨⟨?_, events, outbox⟩, fun index => ?_, eventIds, ids⟩
    · intro stored storedMem
      rcases List.mem_append.mp storedMem with old | new
      · exact requests stored old
      · rw [List.mem_singleton.mp new]
        exact (admits_request_iff row).mpr fits
    · exact distinct_concat.mpr ⟨distinct index, (free index).mp (isFree index)⟩
  · rintro ⟨_, apart, _, _⟩ index
    exact (free index).mpr (distinct_concat.mp (apart index)).2

open Postgres.Modification in
/-- A later version of a request is accepted when the rows it leaves are valid. -/
theorem freeForUpdate_iff_valid (valid : Ddl.Database.Valid ⟨schemaAt 7, rowsOf stamps database⟩)
    {row : ProcessingRequestRow} (fits : Fits row) :
    (∀ index, freeForUpdate database row index = true) ↔
      Ddl.Database.Valid ⟨schemaAt 7, rowsOf stamps (database.apply (.saveRequest row))⟩ := by
  rcases valid_rowsOf_iff.mp valid with ⟨allFit, unique⟩
  have free : ∀ index, freeForUpdate database row index = true ↔
      ∀ other ∈ database.requests, other.processingRequestId ≠ row.processingRequestId →
        ¬ index.Collides other row := by
    intro index
    simp only [freeForUpdate, List.all_eq_true, decide_eq_true_eq, or_iff_not_imp_left]
    rfl
  rw [valid_rowsOf_iff]
  constructor
  · intro isFree
    refine ⟨fun stored storedMem => ?_, ?_⟩
    · rcases KeyedTable.mem_upsert.mp storedMem with rfl | ⟨old, _⟩
      · exact fits
      · exact allFit stored old
    · intro index left leftMem right rightMem collides
      rcases KeyedTable.mem_upsert.mp leftMem with rfl | ⟨oldLeft, differentLeft⟩
      · rcases KeyedTable.mem_upsert.mp rightMem with rfl | ⟨oldRight, differentRight⟩
        · rfl
        · exact absurd collides.symm ((free index).mp (isFree index) right oldRight differentRight)
      · rcases KeyedTable.mem_upsert.mp rightMem with rfl | ⟨oldRight, _⟩
        · exact absurd collides ((free index).mp (isFree index) left oldLeft differentLeft)
        · exact unique index left oldLeft right oldRight collides
  · rintro ⟨_, uniqueAfter⟩ index
    refine (free index).mpr fun other otherMem different collides => different ?_
    have same := uniqueAfter index other (KeyedTable.mem_upsert.mpr (.inr ⟨otherMem, different⟩))
      row (KeyedTable.mem_upsert.mpr (.inl rfl)) collides
    rw [same]

/-- An event is accepted when the rows with it are valid. -/
theorem find?_eq_none_iff_valid
    (valid : Ddl.Database.Valid ⟨schemaAt 7, rowsOf stamps database⟩) (processedAt : Date)
    (event : ProcessedEvent) : database.events.find? event.eventId = none ↔
      Ddl.Database.Valid ⟨schemaAt 7, withEvent (rowsOf stamps database) processedAt event⟩ := by
  have free : database.events.find? event.eventId = none ↔
      ∀ other ∈ rowsOf stamps database .processedEvent,
        ¬ @Ddl.Clash catalog [.eventId] other (eventColumnsOf processedAt event) := by
    simp [KeyedTable.find?, rowsOf, Ddl.Clash, eventColumnsOf]
  rcases valid_iff.mp valid with ⟨⟨requests, events, outbox⟩, distinct, eventIds, ids⟩
  rw [valid_iff, free]
  constructor
  · intro isFree
    refine ⟨⟨requests, ?_, outbox⟩, distinct, ?_, ids⟩
    · intro stored storedMem
      rcases List.mem_append.mp storedMem with old | new
      · exact events stored old
      · rw [List.mem_singleton.mp new]
        exact admits_event processedAt event
    · exact distinct_concat.mpr ⟨eventIds, isFree⟩
  · rintro ⟨_, _, apart, _⟩
    exact (distinct_concat.mp apart).2

end Rows

end Migrations

namespace Postgres

open Migrations

variable {ι : Type} [Fintype ι] [DecidableEq ι] {operations : ι → Operation} {nextOutboxId : ℕ}
  {world : Machine.World (machine ι true) Thrown Answer}

theorem fits_reached
    (reached : Machine.Reaches (start true operations .empty nextOutboxId) world)
    {row : ProcessingRequestRow} (rowMem : row ∈ world.shared.database.requests) : Fits row := by
  rcases correlated_reached reached with ⟨ledger, represents, correlated⟩
  rcases correlated.created row (represents.requests ▸ rowMem) with
    ⟨index, draws, input, correlationId, isCreate, valid, same⟩
  rcases CreateProcessingRequestUseCase.correlationId_of_checked valid with ⟨rfl, _⟩
  have isParsed : row.correlationId = input.correlationId.bind parseCorrelationId :=
    same.correlationId
  intro id isId
  rcases Option.bind_eq_some_iff.mp (isParsed.symm.trans isId) with ⟨raw, _, isParsed⟩
  exact (isPrintableAscii_iff.mp
    (isCorrelationId_iff.mp (isCorrelationId_of_parse isParsed)).1).1.2

theorem uniqueIndexes_reached
    (reached : Machine.Reaches (start true operations .empty nextOutboxId) world) :
    UniqueIndexes world.shared.database.requests := by
  rcases (invariant_reached numbered_empty reached).represents with ⟨ledger, history, represents⟩
  rw [represents.requests]
  exact history.uniqueIndexes uniqueIndexes_empty

/-- In every state the calls of the use cases reach, the tables are a database that the migrations
leave, and PostgreSQL takes a request, a later version of one, or an event exactly when the rows
with it keep every constraint that the migrations made. -/
theorem migrated_schema_enforced
    (reached : Machine.Reaches (start true operations .empty nextOutboxId) world)
    (stamps : Stamps) :
    AtVersion 7 ⟨migrations.map Migration.name,
      ⟨schemaAt 7, rowsOf stamps world.shared.database⟩⟩ ∧
    (∀ row, Fits row →
      ((∀ index, Modification.freeFor world.shared.database row index = true) ↔
        Ddl.Database.Valid
          ⟨schemaAt 7, withRequest (rowsOf stamps world.shared.database) row⟩) ∧
      ((∀ index, Modification.freeForUpdate world.shared.database row index = true) ↔
        Ddl.Database.Valid
          ⟨schemaAt 7, rowsOf stamps (world.shared.database.apply (.saveRequest row))⟩)) ∧
    ∀ processedAt event, world.shared.database.events.find? event.eventId = none ↔
      Ddl.Database.Valid
        ⟨schemaAt 7, withEvent (rowsOf stamps world.shared.database) processedAt event⟩ := by
  have valid : Ddl.Database.Valid ⟨schemaAt 7, rowsOf stamps world.shared.database⟩ :=
    valid_rowsOf_iff.mpr ⟨fun row rowMem => fits_reached reached rowMem,
      uniqueIndexes_reached reached⟩
  refine ⟨⟨le_rfl, rfl, rfl, valid⟩, fun row fits => ⟨?_, ?_⟩, fun processedAt event => ?_⟩
  · exact freeFor_iff_valid valid fits
  · exact freeForUpdate_iff_valid valid fits
  · exact find?_eq_none_iff_valid valid processedAt event

/-- Once an upload is stored, its row is not taken again. -/
theorem migrated_schema_enforced_upload :
    ∃ world : Machine.World (machine Unit true) Thrown Answer,
      ∃ row ∈ world.shared.database.requests,
        AtVersion 7 ⟨migrations.map Migration.name,
          ⟨schemaAt 7, rowsOf ⟨fun _ => 0, fun _ => 0⟩ world.shared.database⟩⟩ ∧
        ¬ Ddl.Database.Valid ⟨schemaAt 7,
          withRequest (rowsOf ⟨fun _ => 0, fun _ => 0⟩ world.shared.database) row⟩ := by
  have ran : ((Machine.runActions (start true System.tracedUpload .empty 1)
      (List.replicate 8 (.session () .proceed))).map fun world =>
        world.shared.database.requests.rows.length) = some 1 := by
    decide +kernel
  rcases Option.map_eq_some_iff.mp ran with ⟨world, ran, stored⟩
  rcases List.length_eq_one_iff.mp stored with ⟨row, only⟩
  have rowMem : row ∈ world.shared.database.requests := by
    rw [KeyedTable.mem_def, only]
    exact List.mem_singleton_self row
  have reached := Machine.reaches_of_runActions ran
  rcases migrated_schema_enforced reached ⟨fun _ => 0, fun _ => 0⟩ with ⟨isLast, accepts, _⟩
  refine ⟨world, row, rowMem, isLast, fun valid => ?_⟩
  have free := (accepts row (fits_reached reached rowMem)).1.mpr valid .primaryKey
  simp only [Modification.freeFor, List.all_eq_true, decide_eq_true_eq] at free
  exact free row rowMem rfl

end Postgres

end ProcessingCatalog
