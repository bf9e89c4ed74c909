import ProcessingCatalog.Persistence.Migrations
import Mathlib.Logic.Relation
import Mathlib.Tactic.IntervalCases

/-!
# Migrating a database and taking it back

From whatever version a database is at, and whatever valid rows it holds, the
pending migrations bring it to the last one, unless an index that they are to
make cannot be over the rows: an entry in it would be too long, or two requests
share the owner and the source that are to be unique. Then nothing changes. The
rows keep every column. Undoing migrations is never refused, and leaves what the
older schema has room for.
-/

namespace ProcessingCatalog

namespace Migrations

theorem altered_of_same {schema expected : Ddl.Schema catalog}
    {statements : List (Ddl.Statement catalog)} {altered : Ddl.Schema catalog}
    (isAltered : Ddl.alterAll schema statements = .ok altered)
    (tables : ∀ name, altered.tables name = expected.tables name)
    (indexes : ∀ name, altered.indexes name = expected.indexes name) :
    Ddl.alterAll schema statements = .ok expected := by
  rcases altered with ⟨_, _⟩
  rcases expected with ⟨_, _⟩
  cases (funext tables : _ = _)
  cases (funext indexes : _ = _)
  exact isAltered

theorem alterAll_up {version : ℕ} (before : version < 7) :
    Ddl.alterAll (schemaAt version) (migrations.get ⟨version, before⟩).up =
      .ok (schemaAt (version + 1)) := by
  interval_cases version
  all_goals
    refine altered_of_same rfl (fun name => ?_) fun name => ?_
    · cases name <;> rfl
    · cases name <;> rfl

/-- The rows with the columns that migrations from a version on fill. -/
def upgraded (version : ℕ) (rows : Ddl.Rows catalog) : Ddl.Rows catalog :=
  if version < 6 then rows.setColumn .processingRequest .ownerEmail (some (.text [])) else rows

/-- No two requests of an owner are for one source. -/
def OneRequestEach (rows : Ddl.Rows catalog) : Prop :=
  @Ddl.Distinct catalog [.ownerUserId, .sourceStorageKey] (rows .processingRequest)

instance (rows : Ddl.Rows catalog) : Decidable (OneRequestEach rows) :=
  inferInstanceAs (Decidable (Ddl.Distinct _ _))

section Up

variable {version : ℕ} {rows : Ddl.Rows catalog}

theorem setColumn_of_absent {column : ColumnName}
    (valid : Ddl.Database.Valid ⟨schemaAt version, rows⟩) (since : 1 ≤ version)
    (absent : (schemaAt version).hasColumn .processingRequest column = false) :
    rows.setColumn .processingRequest column none = rows := by
  have isTable : (schemaAt version).tables .processingRequest = some (requestTable version) :=
    if_pos since
  have null : ∀ row ∈ rows .processingRequest, Function.update row column none = row := by
    intro row rowMem
    refine Function.update_eq_self_iff.mpr (Eq.symm ?_)
    refine (valid.admitted _ _ isTable row rowMem).absent column ?_
    simpa [Ddl.Schema.hasColumn, isTable] using absent
  unfold Ddl.Rows.setColumn
  rw [List.map_congr_left null, List.map_id', Function.update_eq_self]

theorem holds_unique {columns : List ColumnName} :
    (uniqueIndex .processingRequest columns).Holds (rows .processingRequest) ↔
      @Ddl.Distinct catalog columns (rows .processingRequest) := by
  have all : (rows .processingRequest).filter (uniqueIndex .processingRequest columns).enters =
      rows .processingRequest := List.filter_eq_self.mpr fun _ _ => rfl
  rw [Ddl.Index.Holds, all]
  exact ⟨fun holds => holds rfl, fun distinct _ => distinct⟩

/-- Rows whose key is null are told apart by it. -/
theorem holds_newKey (rows : Ddl.Rows catalog) :
    (uniqueIndex .processingRequest [.ownerUserId, .idempotencyKey]).Holds
      (rows.setColumn .processingRequest .idempotencyKey none .processingRequest) := by
  refine fun _ => Ddl.distinct_of_null (List.mem_cons_of_mem _ List.mem_cons_self) ?_
  intro row rowMem
  have converted := (List.mem_filter.mp rowMem).1
  simp only [Ddl.Rows.setColumn, Function.update_self, List.mem_map] at converted
  rcases converted with ⟨before, _, rfl⟩
  rfl

section Objections

variable [EntrySizes]

/-- The entries of the requests in an index over some columns are not too long. -/
def EntriesFit (columns : List ColumnName) (rows : Ddl.Rows catalog) : Prop :=
  ∀ row ∈ rows .processingRequest, IndexTuple.Fits ((columns.map row).map storedColumn)

instance (columns : List ColumnName) (rows : Ddl.Rows catalog) :
    Decidable (EntriesFit columns rows) :=
  inferInstanceAs (Decidable (∀ _ ∈ _, _))

theorem fits_whole (made : Ddl.Index catalog) (whole : made.whereNull = none)
    (isRequest : made.table = .processingRequest) :
    made.Fits (rows made.table) ↔ EntriesFit made.columns rows := by
  have enters : ∀ row, made.enters row = true := by simp [Ddl.Index.enters, whole]
  rw [isRequest]
  refine forall₂_congr fun row _ => ?_
  exact (forall_prop_of_true (enters row)).trans decide_eq_true_iff

/-- An index over the first columns of another has shorter entries. -/
theorem EntriesFit.of_append {columns others : List ColumnName}
    (fit : EntriesFit (columns ++ others) rows) : EntriesFit columns rows := by
  intro row rowMem
  have entry := fit row rowMem
  rw [List.map_append, List.map_append] at entry
  exact entry.of_append

/-- The columns of the index by owner and date. -/
def ownerCreated : List ColumnName :=
  [.ownerUserId, .createdAt, .processingRequestId]

/-- The columns of the unique index by owner and source. -/
def ownerSource : List ColumnName :=
  [.ownerUserId, .sourceStorageKey]

/-- A key that is null takes no more room beside the owner than a date and an identifier. -/
theorem EntriesFit.with_null (valid : Ddl.Database.Valid ⟨schemaAt version, rows⟩)
    (since : 1 ≤ version) (fit : EntriesFit ownerCreated rows) :
    EntriesFit [.ownerUserId, .idempotencyKey]
      (rows.setColumn .processingRequest .idempotencyKey none) := by
  intro row rowMem
  simp only [Ddl.Rows.setColumn, Function.update_self, List.mem_map] at rowMem
  rcases rowMem with ⟨before, beforeMem, rfl⟩
  have isTable : (schemaAt version).tables .processingRequest = some (requestTable version) :=
    if_pos since
  have admits := valid.admitted _ _ isTable before beforeMem
  have isCreatedAt : notNull .createdAt .timestamptz ∈ (requestTable version).columns := by
    simp [requestTable, requestColumns]
  rcases Option.isSome_iff_exists.mp (admits.notNull _ isCreatedAt rfl) with ⟨createdAt, stamped⟩
  have isStamp := admits.values _ isCreatedAt createdAt stamped
  have eightBytes : storedColumn (before .createdAt) = .fixed .double 8 := by
    cases createdAt <;> cases isStamp
    exact congrArg storedColumn stamped
  have entry : IndexTuple.Fits ([storedColumn (before .ownerUserId)] ++
      [storedColumn (before .createdAt), storedColumn (before .processingRequestId)]) :=
    fit before beforeMem
  refine entry.with_null fun offset => ?_
  rw [List.foldl_cons, eightBytes]
  have aligned := IndexTuple.Alignment.double.le_up offset
  exact (Nat.add_le_add_right aligned 8).trans (IndexTuple.le_foldl_place _ _)

/-- A new index without conditions is over rows that it tells apart and whose entries fit. -/
theorem objection_index {schema : Ddl.Schema catalog} {name : IndexName}
    (missing : schema.indexes name = none) {made : Ddl.Index catalog}
    (whole : made.whereNull = none) (isRequest : made.table = .processingRequest)
    {taken : Prop} [Decidable taken]
    (isTaken : made.Holds (rows made.table) ∧ EntriesFit made.columns rows ↔ taken) :
    (Ddl.Statement.createIndex name made).objection schema rows =
      if taken then none else some (.cannotIndex name) := by
  rw [Ddl.Statement.objection_createIndex missing]
  exact if_congr ((and_congr_right fun _ => fits_whole made whole isRequest).trans isTaken) rfl rfl

theorem objection_of_empty {schema : Ddl.Schema catalog} {name : IndexName}
    (missing : schema.indexes name = none) {made : Ddl.Index catalog}
    (empty : rows made.table = []) :
    (Ddl.Statement.createIndex name made).objection schema rows = none := by
  rw [Ddl.Statement.objection_createIndex missing, empty]
  exact if_pos ⟨fun _ => List.Pairwise.nil, nofun⟩

theorem objectionAll_createProcessingRequest (empty : rows .processingRequest = []) :
    Ddl.objectionAll (schemaAt 0) rows createProcessingRequest.up = none := by
  have isObjection : Ddl.objectionAll (schemaAt 0) rows createProcessingRequest.up =
      (Ddl.Statement.objection _ rows (.createIndex .idxProcessingRequestOwner
        (index .processingRequest [.ownerUserId]))).or none := rfl
  rw [isObjection, objection_of_empty rfl empty]
  rfl

theorem objectionAll_createOutbox (empty : rows .outbox = []) :
    Ddl.objectionAll (schemaAt 1) rows createOutbox.up = none := by
  have isObjection : Ddl.objectionAll (schemaAt 1) rows createOutbox.up =
      (Ddl.Statement.objection _ rows (.createIndex .idxOutboxPending
        { index .outbox [.id] with whereNull := some .publishedAt })).or none := rfl
  rw [isObjection, objection_of_empty rfl empty]
  rfl

theorem objectionAll_indexProcessingRequestOwnerCreatedAt (rows : Ddl.Rows catalog) :
    Ddl.objectionAll (schemaAt 2) rows indexProcessingRequestOwnerCreatedAt.up =
      if EntriesFit ownerCreated rows then none
      else some (.cannotIndex .idxProcessingRequestOwnerCreated) := by
  have objected : Ddl.Statement.objection (schemaAt 2) rows
      (.createIndex .idxProcessingRequestOwnerCreated
        { index .processingRequest ownerCreated with descending := [.createdAt] }) =
      if EntriesFit ownerCreated rows then none
      else some (.cannotIndex .idxProcessingRequestOwnerCreated) :=
    objection_index rfl rfl rfl (and_iff_right fun unique => absurd unique Bool.false_ne_true)
  exact (Option.or_none).trans objected

/-- The new key is null in every row. -/
theorem objectionAll_addIdempotencyKey (valid : Ddl.Database.Valid ⟨schemaAt 3, rows⟩)
    (fit : EntriesFit ownerCreated rows) :
    Ddl.objectionAll (schemaAt 3) rows addIdempotencyKey.up = none := by
  have taken := And.intro (holds_newKey rows) (fit.with_null valid (by omega))
  have unobjected : Ddl.Statement.objection
      ((schemaAt 3).setTable .processingRequest (some (requestTable 4)))
      (rows.setColumn .processingRequest .idempotencyKey none)
      (.createIndex .uqProcessingRequestOwnerIdempotency
        (uniqueIndex .processingRequest [.ownerUserId, .idempotencyKey])) = none :=
    (objection_index rfl rfl rfl (iff_of_true taken trivial)).trans (if_pos trivial)
  exact (Option.or_none).trans unobjected

theorem objectionAll_uniqueOwnerSource (rows : Ddl.Rows catalog) :
    Ddl.objectionAll (schemaAt 4) rows uniqueOwnerSource.up =
      if OneRequestEach rows ∧ EntriesFit ownerSource rows then none
      else some (.cannotIndex .uqProcessingRequestOwnerSource) := by
  have objected : Ddl.Statement.objection (schemaAt 4) rows
      (.createIndex .uqProcessingRequestOwnerSource
        (uniqueIndex .processingRequest ownerSource)) =
      if OneRequestEach rows ∧ EntriesFit ownerSource rows then none
      else some (.cannotIndex .uqProcessingRequestOwnerSource) :=
    objection_index rfl rfl rfl (and_congr_left' holds_unique)
  exact (Option.or_none).trans objected

/-- Why the next migration of a version is refused for the rows. -/
def objectionAt (version : ℕ) (rows : Ddl.Rows catalog) : Option (Ddl.Refusal catalog) :=
  if version = 2 ∧ ¬ EntriesFit ownerCreated rows then
    some (.cannotIndex .idxProcessingRequestOwnerCreated)
  else if version = 4 ∧ ¬ (OneRequestEach rows ∧ EntriesFit ownerSource rows) then
    some (.cannotIndex .uqProcessingRequestOwnerSource)
  else none

/-- Why one of the migrations from a version on is refused for the rows. -/
def objectionFrom (version : ℕ) (rows : Ddl.Rows catalog) : Option (Ddl.Refusal catalog) :=
  if version < 3 ∧ ¬ EntriesFit ownerCreated rows then
    some (.cannotIndex .idxProcessingRequestOwnerCreated)
  else if version < 5 ∧ ¬ (OneRequestEach rows ∧ EntriesFit ownerSource rows) then
    some (.cannotIndex .uqProcessingRequestOwnerSource)
  else none

theorem objectionFrom_eq_or (version : ℕ) (rows : Ddl.Rows catalog) :
    objectionFrom version rows =
      (objectionAt version rows).or (objectionFrom (version + 1) rows) := by
  by_cases isSecond : version = 2
  · subst isSecond
    by_cases fit : EntriesFit ownerCreated rows
    · simp [objectionFrom, objectionAt, fit]
    · simp [objectionFrom, objectionAt, fit]
  by_cases isFourth : version = 4
  · subst isFourth
    by_cases taken : OneRequestEach rows ∧ EntriesFit ownerSource rows
    · simp [objectionFrom, objectionAt, taken]
    · simp [objectionFrom, objectionAt, taken]
  -- The other migrations have no reason of their own.
  have sameFirst : version + 1 < 3 ↔ version < 3 := by omega
  have sameSecond : version + 1 < 5 ↔ version < 5 := by omega
  simp only [objectionFrom, objectionAt, isSecond, isFourth, sameFirst, sameSecond, false_and,
    if_false, Option.none_or]

theorem entriesFit_of_stored (stored : Ddl.Database.Stored ⟨schemaAt version, rows⟩)
    {name : IndexName} {made : Ddl.Index catalog}
    (isIndex : (schemaAt version).indexes name = some made) (whole : made.whereNull = none)
    (isRequest : made.table = .processingRequest) : EntriesFit made.columns rows :=
  (fits_whole made whole isRequest).mp (stored name made isIndex)

theorem entriesFit_ownerCreated (stored : Ddl.Database.Stored ⟨schemaAt version, rows⟩)
    (since : 3 ≤ version) : EntriesFit ownerCreated rows := by
  have isIndex : (schemaAt version).indexes .idxProcessingRequestOwnerCreated =
      some { index .processingRequest ownerCreated with descending := [.createdAt] } := if_pos since
  have fit := entriesFit_of_stored stored isIndex rfl rfl
  exact fit

theorem entriesFit_ownerSource (stored : Ddl.Database.Stored ⟨schemaAt version, rows⟩)
    (since : 5 ≤ version) : EntriesFit ownerSource rows := by
  have isIndex : (schemaAt version).indexes .uqProcessingRequestOwnerSource =
      some (uniqueIndex .processingRequest ownerSource) := if_pos since
  have fit := entriesFit_of_stored stored isIndex rfl rfl
  exact fit

theorem objectionAll_up (before : version < 7)
    (valid : Ddl.Database.Valid ⟨schemaAt version, rows⟩)
    (stored : Ddl.Database.Stored ⟨schemaAt version, rows⟩) :
    Ddl.objectionAll (schemaAt version) rows (migrations.get ⟨version, before⟩).up =
      objectionAt version rows := by
  interval_cases version
  · exact objectionAll_createProcessingRequest (valid.absent .processingRequest rfl)
  · exact objectionAll_createOutbox (valid.absent .outbox rfl)
  · have objected := objectionAll_indexProcessingRequestOwnerCreatedAt rows
    by_cases fit : EntriesFit ownerCreated rows
    · rw [if_pos fit] at objected
      exact objected.trans (by simp [objectionAt, fit])
    · rw [if_neg fit] at objected
      exact objected.trans (by simp [objectionAt, fit])
  · exact objectionAll_addIdempotencyKey valid (entriesFit_ownerCreated stored (by omega))
  · have objected := objectionAll_uniqueOwnerSource rows
    by_cases taken : OneRequestEach rows ∧ EntriesFit ownerSource rows
    · rw [if_pos taken] at objected
      exact objected.trans (by simp [objectionAt, taken])
    · rw [if_neg taken] at objected
      exact objected.trans (by simp [objectionAt, taken])
  · rfl
  · rfl

end Objections

theorem convertAll_up (before : version < 7)
    (valid : Ddl.Database.Valid ⟨schemaAt version, rows⟩) :
    Ddl.convertAll (schemaAt version) rows (migrations.get ⟨version, before⟩).up =
      if version = 5 then rows.setColumn .processingRequest .ownerEmail (some (.text []))
      else rows := by
  interval_cases version
  · rfl
  · rfl
  · rfl
  · exact setColumn_of_absent valid (by omega) rfl
  · rfl
  · rfl
  · exact setColumn_of_absent valid (by omega) rfl

variable [EntrySizes]

/-- The schema no longer depends on the rows: what is left is whether they are in the way, and what
becomes of them. -/
theorem run_up (before : version < 7) (valid : Ddl.Database.Valid ⟨schemaAt version, rows⟩)
    (stored : Ddl.Database.Stored ⟨schemaAt version, rows⟩) :
    Ddl.run ⟨schemaAt version, rows⟩ (migrations.get ⟨version, before⟩).up =
      (objectionAt version rows).elim
        (.ok ⟨schemaAt (version + 1),
          if version = 5 then rows.setColumn .processingRequest .ownerEmail (some (.text []))
          else rows⟩) .error := by
  rw [Ddl.run_of_alterAll (alterAll_up before), objectionAll_up before valid stored,
    convertAll_up before valid]

/-- All migrations from a version on. -/
theorem runUps_drop (pending : ℕ) (last : version + pending = 7)
    (valid : Ddl.Database.Valid ⟨schemaAt version, rows⟩)
    (stored : Ddl.Database.Stored ⟨schemaAt version, rows⟩) :
    runUps ⟨schemaAt version, rows⟩ (migrations.drop version) =
      (objectionFrom version rows).elim (.ok ⟨schemaAt 7, upgraded version rows⟩) .error := by
  induction pending generalizing version rows with
  | zero =>
      obtain rfl : version = 7 := by omega
      rfl
  | succ pending ih =>
      -- One migration, and then all those after it, from the rows that it leaves.
      have before : version < 7 := by omega
      have first : migrations.drop version =
          migrations.get ⟨version, before⟩ :: migrations.drop (version + 1) :=
        List.drop_eq_getElem_cons before
      have ran := run_up before valid stored
      rw [first, runUps, ran, objectionFrom_eq_or]
      cases objected : objectionAt version rows with
      | some refusal => rfl
      | none =>
          rw [objected] at ran
          have continued := ih (by omega) (valid.run ran) (stored.run valid ran)
          refine Eq.trans continued ?_
          by_cases isFifth : version = 5
          · subst isFifth
            rfl
          · have sameRows : upgraded (version + 1) rows = upgraded version rows := by
              have sameAge : version + 1 < 6 ↔ version < 6 := by omega
              simp only [upgraded, sameAge]
            simp only [isFifth, if_false, sameRows, Option.none_or]

end Up
/-- The first migrations have run, and their schema has valid rows. -/
structure AtVersion (version : ℕ) (deployment : Deployment) : Prop where
  le : version ≤ 7
  executed : deployment.executed = (migrations.take version).map Migration.name
  schema : deployment.database.schema = schemaAt version
  valid : deployment.database.Valid

/-- And the entries of these are not too long. -/
structure Migrated [EntrySizes] (version : ℕ) (deployment : Deployment) : Prop
    extends AtVersion version deployment where
  stored : deployment.database.Stored

section Names

theorem nodup_names : (migrations.map Migration.name).Nodup := by
  decide +kernel

theorem pending_eq (version : ℕ) :
    (migrations.filter fun migration =>
      migration.name ∉ (migrations.take version).map Migration.name) =
        migrations.drop version := by
  have disjoint : ∀ migration ∈ migrations.drop version,
      migration.name ∉ (migrations.take version).map Migration.name := by
    intro migration migrationMem nameMem
    have parts := nodup_names
    rw [← List.take_append_drop version migrations, List.map_append, List.nodup_append] at parts
    exact parts.2.2 _ nameMem _ (List.mem_map_of_mem migrationMem) rfl
  have done : (migrations.take version).filter (fun migration =>
      migration.name ∉ (migrations.take version).map Migration.name) = [] := by
    refine List.filter_eq_nil_iff.mpr fun migration migrationMem => ?_
    simpa using List.mem_map_of_mem (f := Migration.name) migrationMem
  have left : (migrations.drop version).filter (fun migration =>
      migration.name ∉ (migrations.take version).map Migration.name) =
        migrations.drop version := by
    refine List.filter_eq_self.mpr fun migration migrationMem => ?_
    simpa using disjoint migration migrationMem
  calc (migrations.filter fun migration =>
        migration.name ∉ (migrations.take version).map Migration.name)
      = (migrations.take version ++ migrations.drop version).filter (fun migration =>
          migration.name ∉ (migrations.take version).map Migration.name) := by
        rw [List.take_append_drop]
    _ = migrations.drop version := by rw [List.filter_append, done, left, List.nil_append]

variable {version : ℕ} (before : version < 7)

theorem take_succ_names : (migrations.take (version + 1)).map Migration.name =
    (migrations.take version).map Migration.name ++
      [(migrations.get ⟨version, before⟩).name] := by
  have next : migrations.take (version + 1) =
      migrations.take version ++ [migrations.get ⟨version, before⟩] :=
    List.take_succ_eq_append_getElem before
  rw [next, List.map_append, List.map_singleton]

theorem name_notMem_take : (migrations.get ⟨version, before⟩).name ∉
    (migrations.take version).map Migration.name := by
  have parts := nodup_names.sublist ((List.take_sublist (version + 1) migrations).map _)
  rw [take_succ_names before, List.nodup_append] at parts
  exact fun nameMem => parts.2.2 _ nameMem _ (List.mem_singleton_self _) rfl

theorem find?_name : (migrations.find? fun migration =>
    migration.name = (migrations.get ⟨version, before⟩).name) =
      some (migrations.get ⟨version, before⟩) := by
  refine List.find?_eq_some_iff_getElem.mpr ⟨by simp, version, before, rfl, ?_⟩
  intro earlier isEarlier
  have inList : earlier < migrations.length := isEarlier.trans before
  have earlierMem : migrations.get ⟨earlier, inList⟩ ∈ migrations.take version :=
    List.mem_take_iff_getElem.mpr ⟨earlier, lt_min isEarlier inList, rfl⟩
  have different : (migrations.get ⟨earlier, inList⟩).name ≠
      (migrations.get ⟨version, before⟩).name := by
    intro same
    exact name_notMem_take before (same ▸ List.mem_map_of_mem earlierMem)
  simpa using different

end Names

section Deployments

variable {version : ℕ} {deployment : Deployment}

theorem up_grows : ∀ migration ∈ migrations, ∀ statement ∈ migration.up,
    statement.grows = true := by
  simp [migrations, createProcessingRequest, createOutbox, indexProcessingRequestOwnerCreatedAt,
    addIdempotencyKey, uniqueOwnerSource, addOwnerEmail, addCorrelationId, Ddl.Statement.grows]

theorem alterAll_down (before : version < 7) :
    Ddl.alterAll (schemaAt (version + 1)) (migrations.get ⟨version, before⟩).down =
      .ok (schemaAt version) := by
  interval_cases version
  all_goals
    refine altered_of_same rfl (fun name => ?_) fun name => ?_
    · cases name <;> rfl
    · cases name <;> rfl

theorem down_shrinks (before : version < 7) :
    ∀ statement ∈ (migrations.get ⟨version, before⟩).down, statement.shrinks = true := by
  interval_cases version
  all_goals
    refine List.forall_iff_forall_mem.mp ?_
    repeat' constructor

theorem down_quiet (before : version < 7) (other : version ≠ 2) :
    ∀ statement ∈ (migrations.get ⟨version, before⟩).down, statement.quiet = true := by
  interval_cases version
  case «2» => exact absurd rfl other
  all_goals
    refine List.forall_iff_forall_mem.mp ?_
    repeat' constructor

/-- A database at a version, with what that version has room for. -/
def broughtBack (version : ℕ) (deployment : Deployment) : Deployment :=
  ⟨(migrations.take version).map Migration.name,
    ⟨schemaAt version, (schemaAt version).project deployment.database.rows⟩⟩

theorem broughtBack_self (at' : AtVersion version deployment) :
    broughtBack version deployment = deployment := by
  rcases deployment with ⟨executed, schema, rows⟩
  rcases at' with ⟨le, rfl, rfl, valid⟩
  simp only [broughtBack, Ddl.Schema.project_of_valid valid]

/-- What an older schema leaves of the requests has their owner, source, date and identifier. -/
theorem project_requests (version : ℕ) (rows : Ddl.Rows catalog) :
    (schemaAt version).project rows .processingRequest = [] ∨
      ∃ convert : Ddl.Row catalog → Ddl.Row catalog,
        (schemaAt version).project rows .processingRequest =
          (rows .processingRequest).map convert ∧
        ∀ row, ∀ column ∈ ownerCreated ++ ownerSource, convert row column = row column := by
  by_cases created : 1 ≤ version
  · have isTable : (schemaAt version).tables .processingRequest = some (requestTable version) :=
      if_pos created
    refine .inr ⟨fun row column => if column ∈ (requestTable version).names then row column
      else none, ?_, fun row column columnMem => if_pos ?_⟩
    · simp only [Ddl.Schema.project, isTable, Option.elim_some]
    · have isBase : column = .ownerUserId ∨ column = .createdAt ∨ column = .processingRequestId ∨
          column = .ownerUserId ∨ column = .sourceStorageKey := by
        simpa [ownerCreated, ownerSource] using columnMem
      rcases isBase with rfl | rfl | rfl | rfl | rfl <;>
        simp [Ddl.Table.names, requestTable, requestColumns, notNull]
  · have noTable : (schemaAt version).tables .processingRequest = none := if_neg created
    exact .inl (by simp [Ddl.Schema.project, noTable])

theorem oneRequestEach_project (version : ℕ) {rows : Ddl.Rows catalog}
    (held : OneRequestEach rows) : OneRequestEach ((schemaAt version).project rows) := by
  unfold OneRequestEach at held ⊢
  rcases project_requests version rows with none | ⟨convert, isMap, same⟩
  · rw [none]
    exact List.Pairwise.nil
  · rw [isMap]
    exact (Ddl.distinct_map fun row _ column columnMem =>
      same row column (List.mem_append_right _ columnMem)).mpr held

/-- A database with all migrations, and the rows as they are upgraded from a version. -/
def broughtForth (version : ℕ) (deployment : Deployment) : Deployment :=
  ⟨migrations.map Migration.name, ⟨schemaAt 7, upgraded version deployment.database.rows⟩⟩

variable [EntrySizes]

theorem runMigrations_eq (at' : Migrated version deployment) :
    runMigrations deployment =
      (objectionFrom version deployment.database.rows).elim
        (.ok (broughtForth version deployment)) fun refusal => .error (.refused refusal) := by
  rcases deployment with ⟨executed, schema, rows⟩
  rcases at' with ⟨⟨le, rfl, rfl, valid⟩, stored⟩
  have ran := runUps_drop (7 - version) (by omega) valid stored
  have names : (migrations.take version).map Migration.name ++
      (migrations.drop version).map Migration.name = migrations.map Migration.name := by
    rw [← List.map_append, List.take_append_drop]
  simp only [runMigrations, getMigrations_eq, pending_eq, ran]
  cases objectionFrom version rows with
  | some refusal => rfl
  | none => simp only [Option.elim_none, names, broughtForth]

theorem runUps_eq_run (database : Ddl.Database catalog) (pending : List Migration) :
    runUps database pending = Ddl.run database (pending.flatMap Migration.up) := by
  induction pending generalizing database with
  | nil => rfl
  | cons migration pending ih =>
      rw [runUps, List.flatMap_cons, Ddl.run_append database]
      cases Ddl.run database migration.up with
      | error refusal => rfl
      | ok next => exact ih next

/-- The statements that are pending, run one after the other. -/
theorem run_pending (at' : Migrated version deployment)
    (accepted : objectionFrom version deployment.database.rows = none) :
    Ddl.run deployment.database ((migrations.drop version).flatMap Migration.up) =
      .ok (broughtForth version deployment).database := by
  rcases deployment with ⟨executed, schema, rows⟩
  rcases at' with ⟨⟨le, rfl, rfl, valid⟩, stored⟩
  have ran := runUps_drop (7 - version) (by omega) valid stored
  rwa [accepted, runUps_eq_run] at ran

theorem migrated_broughtForth (at' : Migrated version deployment)
    (accepted : objectionFrom version deployment.database.rows = none) :
    Migrated 7 (broughtForth version deployment) := by
  have ran := run_pending at' accepted
  exact ⟨⟨le_rfl, rfl, rfl, at'.valid.run ran⟩, at'.stored.run at'.valid ran⟩

/-- The older schema sees nothing of what the migrations add. -/
theorem project_broughtForth (at' : Migrated version deployment)
    (accepted : objectionFrom version deployment.database.rows = none) :
    (schemaAt version).project (broughtForth version deployment).database.rows =
      deployment.database.rows := by
  have growing : ∀ statement ∈ (migrations.drop version).flatMap Migration.up,
      statement.grows = true := by
    intro statement statementMem
    rcases List.mem_flatMap.mp statementMem with ⟨migration, migrationMem, isUp⟩
    exact up_grows migration (List.mem_of_mem_drop migrationMem) statement isUp
  have kept := Ddl.grown_of_run at'.valid (run_pending at' accepted) growing
  exact at'.schema ▸ kept.2

variable {rows : Ddl.Rows catalog}

/-- The index by owner that comes back has shorter entries than the one it comes back for. -/
theorem objectionAll_down (before : version < 7)
    (stored : Ddl.Database.Stored ⟨schemaAt (version + 1), rows⟩) :
    Ddl.objectionAll (schemaAt (version + 1)) rows (migrations.get ⟨version, before⟩).down =
      none := by
  by_cases isSecond : version = 2
  · subst isSecond
    have created : EntriesFit ([.ownerUserId] ++ [.createdAt, .processingRequestId]) rows :=
      entriesFit_ownerCreated stored (by omega)
    have fit : EntriesFit [.ownerUserId] rows := EntriesFit.of_append created
    have apart : (index .processingRequest [.ownerUserId]).Holds (rows .processingRequest) :=
      fun unique => absurd unique Bool.false_ne_true
    have taken := And.intro apart fit
    have unobjected : Ddl.Statement.objection (schemaAt 3) rows
        (.createIndex .idxProcessingRequestOwner (index .processingRequest [.ownerUserId])) =
          none :=
      (objection_index rfl rfl rfl (iff_of_true taken trivial)).trans (if_pos trivial)
    exact (Option.or_none).trans unobjected
  · exact Ddl.objectionAll_of_quiet (down_quiet before isSecond) _ _

/-- The last migration is undone whatever the rows are. -/
theorem undoLastMigration_eq (at' : Migrated (version + 1) deployment) :
    undoLastMigration deployment = .ok (broughtBack version deployment) ∧
      Migrated version (broughtBack version deployment) ∧
      (schemaAt version).Within (schemaAt (version + 1)) := by
  rcases deployment with ⟨executed, schema, rows⟩
  rcases at' with ⟨⟨le, rfl, rfl, valid⟩, stored⟩
  have before : version < 7 := by omega
  have ran := Ddl.run_of_alterAll (alterAll_down before) rows
  rw [objectionAll_down before stored] at ran
  rcases Ddl.shrunk_of_run valid ran (down_shrinks before) with ⟨within, left⟩
  simp only at left
  rw [left] at ran
  have last : ((migrations.take (version + 1)).map Migration.name).getLast? =
      some (migrations.get ⟨version, before⟩).name := by
    rw [take_succ_names before, List.getLast?_append, List.getLast?_singleton]
    rfl
  have earlier : ((migrations.take version).map Migration.name).filter (fun executed =>
      executed ≠ (migrations.get ⟨version, before⟩).name) =
        (migrations.take version).map Migration.name := by
    refine List.filter_eq_self.mpr fun name nameMem => ?_
    have different : name ≠ (migrations.get ⟨version, before⟩).name := by
      rintro rfl
      exact name_notMem_take before nameMem
    simpa using different
  have names : ((migrations.take (version + 1)).map Migration.name).filter (fun executed =>
      executed ≠ (migrations.get ⟨version, before⟩).name) =
        (migrations.take version).map Migration.name := by
    rw [take_succ_names before, List.filter_append, earlier]
    simp
  refine ⟨?_, ⟨⟨by omega, rfl, rfl, valid.run ran⟩, stored.run valid ran⟩, within⟩
  simp only [undoLastMigration, last, getMigrations_eq, find?_name before, names]
  rw [ran]
  rfl

/-- So many migrations are undone, the last one first. -/
def undoMigrations : ℕ → Deployment → Except MigrationError Deployment
  | 0, deployment => .ok deployment
  | count + 1, deployment => undoLastMigration deployment >>= undoMigrations count

theorem undoMigrations_eq {count : ℕ} (at' : Migrated (version + count) deployment) :
    undoMigrations count deployment = .ok (broughtBack version deployment) ∧
      Migrated version (broughtBack version deployment) ∧
      (schemaAt version).Within (schemaAt (version + count)) := by
  induction count generalizing deployment with
  | zero =>
      have same : broughtBack version deployment = deployment := broughtBack_self at'.toAtVersion
      rw [same]
      exact ⟨rfl, at', .refl _⟩
  | succ count ih =>
      have last : Migrated (version + count + 1) deployment := at'
      rcases undoLastMigration_eq last with ⟨undone, between, within⟩
      rcases ih between with ⟨rest, back, further⟩
      have same : broughtBack version (broughtBack (version + count) deployment) =
          broughtBack version deployment := by
        simp only [broughtBack, Ddl.Schema.project_project further]
      rw [same] at rest back
      refine ⟨?_, back, further.trans within⟩
      rw [undoMigrations, undone]
      exact rest

theorem entriesFit_project (version : ℕ) {columns : List ColumnName}
    (among : ∀ column ∈ columns, column ∈ ownerCreated ++ ownerSource)
    (fit : EntriesFit columns rows) : EntriesFit columns ((schemaAt version).project rows) := by
  unfold EntriesFit at fit ⊢
  rcases project_requests version rows with none | ⟨convert, isMap, same⟩
  · rw [none]
    exact nofun
  · rw [isMap, List.forall_mem_map]
    intro row rowMem
    rw [List.map_congr_left fun column columnMem => same row column (among column columnMem)]
    exact fit row rowMem

/-- What is left of rows that all the indexes held is not in the way of any. -/
theorem objectionFrom_broughtBack (earlier : ℕ) (at' : Migrated version deployment)
    (since : 5 ≤ version) :
    objectionFrom earlier (broughtBack earlier deployment).database.rows = none := by
  rcases deployment with ⟨executed, schema, rows⟩
  rcases at' with ⟨⟨le, rfl, rfl, valid⟩, stored⟩
  have held : OneRequestEach rows :=
    holds_unique.mp (valid.indexed .uqProcessingRequestOwnerSource _ (if_pos since))
  have created : EntriesFit ownerCreated ((schemaAt earlier).project rows) :=
    entriesFit_project earlier (fun _ columnMem => List.mem_append_left _ columnMem)
      (entriesFit_ownerCreated stored (by omega))
  have source : EntriesFit ownerSource ((schemaAt earlier).project rows) :=
    entriesFit_project earlier (fun _ columnMem => List.mem_append_right _ columnMem)
      (entriesFit_ownerSource stored since)
  have apart := oneRequestEach_project earlier held
  simp only [objectionFrom, broughtBack, created, source, apart, and_self, not_true_eq_false,
    and_false, if_false]

end Deployments

/-- The databases that come of an empty one: with migrations run and undone, and with any rows
written that the schema of the moment admits and its indexes have room for. -/
inductive Reaches [EntrySizes] : Deployment → Prop where
  | fresh : Reaches ⟨[], ⟨.empty, fun _ => []⟩⟩
  | write {deployment : Deployment} (reached : Reaches deployment) {rows : Ddl.Rows catalog}
      (valid : Ddl.Database.Valid ⟨deployment.database.schema, rows⟩)
      (stored : Ddl.Database.Stored ⟨deployment.database.schema, rows⟩) :
      Reaches ⟨deployment.executed, ⟨deployment.database.schema, rows⟩⟩
  | migrate {deployment next : Deployment} (reached : Reaches deployment)
      (ran : runMigrations deployment = .ok next) : Reaches next
  | undo {deployment next : Deployment} (reached : Reaches deployment)
      (undone : undoLastMigration deployment = .ok next) : Reaches next

section Reached

variable {version : ℕ} {deployment : Deployment}

theorem atVersion_fresh : AtVersion 0 ⟨[], ⟨.empty, fun _ => []⟩⟩ where
  le := Nat.zero_le _
  executed := rfl
  schema := by
    have tables : (Ddl.Schema.empty : Ddl.Schema catalog).tables = (schemaAt 0).tables := by
      funext name
      cases name <;> rfl
    have indexes : (Ddl.Schema.empty : Ddl.Schema catalog).indexes = (schemaAt 0).indexes := by
      funext name
      cases name <;> rfl
    exact congrArg₂ Ddl.Schema.mk tables indexes
  valid := ⟨nofun, fun _ _ => rfl, nofun, nofun, nofun⟩

theorem AtVersion.unique {other : ℕ} (at' : AtVersion version deployment)
    (also : AtVersion other deployment) : version = other := by
  have counted := congrArg List.length (at'.executed.symm.trans also.executed)
  have all : migrations.length = 7 := rfl
  have le := at'.le
  have leOther := also.le
  simp only [List.length_map, List.length_take] at counted
  omega

variable [EntrySizes]

theorem migrated_fresh : Migrated 0 ⟨[], ⟨.empty, fun _ => []⟩⟩ :=
  ⟨atVersion_fresh, nofun⟩

/-- A database without reason to refuse is brought to the last version. -/
theorem migrated_of_run {next : Deployment} (at' : Migrated version deployment)
    (ran : runMigrations deployment = .ok next) :
    objectionFrom version deployment.database.rows = none ∧
      next = broughtForth version deployment := by
  rw [runMigrations_eq at'] at ran
  cases objected : objectionFrom version deployment.database.rows with
  | some refusal =>
      rw [objected] at ran
      cases ran
  | none =>
      rw [objected] at ran
      cases ran
      exact ⟨rfl, rfl⟩

theorem exists_migrated (reached : Reaches deployment) :
    ∃ version, Migrated version deployment := by
  induction reached with
  | fresh => exact ⟨0, migrated_fresh⟩
  | write _ valid stored ih =>
      rcases ih with ⟨version, at'⟩
      exact ⟨version, ⟨at'.le, at'.executed, at'.schema, valid⟩, stored⟩
  | migrate _ ran ih =>
      rcases ih with ⟨version, at'⟩
      rcases migrated_of_run at' ran with ⟨accepted, rfl⟩
      exact ⟨7, migrated_broughtForth at' accepted⟩
  | undo _ undone ih =>
      rcases ih with ⟨version, at'⟩
      cases version with
      | zero =>
          rw [undoLastMigration, at'.executed] at undone
          cases undone
          exact ⟨0, at'⟩
      | succ version =>
          rcases undoLastMigration_eq at' with ⟨isUndone, back, _⟩
          cases isUndone.symm.trans undone
          exact ⟨version, back⟩

theorem reaches_undoMigrations {count : ℕ} {next : Deployment} (reached : Reaches deployment)
    (undone : undoMigrations count deployment = .ok next) : Reaches next := by
  induction count generalizing deployment with
  | zero =>
      cases undone
      exact reached
  | succ count ih =>
      rw [undoMigrations] at undone
      cases first : undoLastMigration deployment with
      | error error =>
          rw [first] at undone
          cases undone
      | ok between =>
          rw [first] at undone
          exact ih (reached.undo first) undone

/-- Every version is reached, without rows. -/
theorem exists_reached (le : version ≤ 7) : ∃ deployment, Reaches deployment ∧
    Migrated version deployment := by
  have accepted : objectionFrom 0 (fun _ => []) = none := by
    have apart : OneRequestEach (fun _ => []) := List.Pairwise.nil
    have fit (columns : List ColumnName) : EntriesFit columns (fun _ => []) := nofun
    simp only [objectionFrom, apart, fit, and_self, not_true_eq_false, and_false, if_false]
  have ran : runMigrations ⟨[], ⟨.empty, fun _ => []⟩⟩ =
      .ok (broughtForth 0 ⟨[], ⟨.empty, fun _ => []⟩⟩) := by
    rw [runMigrations_eq migrated_fresh, accepted]
    rfl
  have total : version + (7 - version) = 7 := by omega
  have full : Migrated (version + (7 - version)) (broughtForth 0 ⟨[], ⟨.empty, fun _ => []⟩⟩) :=
    total.symm ▸ migrated_broughtForth migrated_fresh accepted
  rcases undoMigrations_eq full with ⟨undone, back, _⟩
  exact ⟨_, reaches_undoMigrations (Reaches.fresh.migrate ran) undone, back⟩

/-- Every version is reached, with all rows that its schema admits and its indexes have room for. -/
theorem reaches_of_migrated (at' : Migrated version deployment) : Reaches deployment := by
  rcases deployment with ⟨executed, schema, rows⟩
  rcases at' with ⟨⟨le, rfl, rfl, valid⟩, stored⟩
  rcases exists_reached le with ⟨⟨_, _, _⟩, reached, ⟨_, rfl, rfl, _⟩, _⟩
  exact reached.write valid stored

end Reached

/-- The indexes of a version are over columns that it has. -/
theorem supported_schemaAt {version : ℕ} (le : version ≤ 7) : ∀ name index,
    (schemaAt version).indexes name = some index →
      ∃ table, (schemaAt version).tables index.table = some table ∧
        ∀ column ∈ index.mentioned, column ∈ table.names := by
  let _ := EntrySizes.incompressible
  rcases exists_reached le with ⟨_, _, at'⟩
  exact at'.schema ▸ at'.valid.supported

section Results

variable [EntrySizes]

/-- From whatever a deployment has come to, the pending migrations run unless one of two indexes
that they are to make cannot be over the rows: the one by owner and date, when the entry of a
request is too long, or the unique one by owner and source, when that is so or two requests share
both. Then the first of them that is pending is refused by its name, and nothing has changed.
Otherwise the database is at the last version, the rows are as they were but for the owner's
address, which is blank in rows older than it, all the older schema has can be read off them, and
a second run changes nothing. -/
theorem pending_migrations_run {deployment : Deployment} (reached : Reaches deployment) :
    ∃ version, AtVersion version deployment ∧
      (version < 3 ∧ ¬ EntriesFit ownerCreated deployment.database.rows →
        runMigrations deployment =
          .error (.refused (.cannotIndex .idxProcessingRequestOwnerCreated))) ∧
      ((3 ≤ version ∨ EntriesFit ownerCreated deployment.database.rows) ∧ version < 5 ∧
          ¬ (OneRequestEach deployment.database.rows ∧
            EntriesFit ownerSource deployment.database.rows) →
        runMigrations deployment =
          .error (.refused (.cannotIndex .uqProcessingRequestOwnerSource))) ∧
      ((3 ≤ version ∨ EntriesFit ownerCreated deployment.database.rows) ∧
          (5 ≤ version ∨ OneRequestEach deployment.database.rows ∧
            EntriesFit ownerSource deployment.database.rows) →
        ∃ next, runMigrations deployment = .ok next ∧ AtVersion 7 next ∧
          next.database.rows = upgraded version deployment.database.rows ∧
          (schemaAt version).project next.database.rows = deployment.database.rows ∧
          runMigrations next = .ok next) := by
  rcases exists_migrated reached with ⟨version, at'⟩
  have ran := runMigrations_eq at'
  refine ⟨version, at'.toAtVersion, ?_, ?_, ?_⟩
  · intro tooLong
    rw [ran, objectionFrom, if_pos tooLong]
    rfl
  · rintro ⟨fit, refused⟩
    have first : ¬ (version < 3 ∧ ¬ EntriesFit ownerCreated deployment.database.rows) :=
      fun tooLong => fit.elim (Nat.not_le.mpr tooLong.1) tooLong.2
    rw [ran, objectionFrom, if_neg first, if_pos refused]
    rfl
  · rintro ⟨fit, taken⟩
    have accepted : objectionFrom version deployment.database.rows = none := by
      have first : ¬ (version < 3 ∧ ¬ EntriesFit ownerCreated deployment.database.rows) :=
        fun tooLong => fit.elim (Nat.not_le.mpr tooLong.1) tooLong.2
      have second : ¬ (version < 5 ∧ ¬ (OneRequestEach deployment.database.rows ∧
          EntriesFit ownerSource deployment.database.rows)) :=
        fun refused => taken.elim (Nat.not_le.mpr refused.1) refused.2
      rw [objectionFrom, if_neg first, if_neg second]
    have last := migrated_broughtForth at' accepted
    refine ⟨broughtForth version deployment, ?_, last.toAtVersion, rfl,
      project_broughtForth at' accepted, ?_⟩
    · rw [ran, accepted]
      rfl
    · have noMore : objectionFrom 7 (broughtForth version deployment).database.rows = none := by
        simp [objectionFrom]
      rw [runMigrations_eq last, noMore]
      rfl

end Results

/-- A request from before there were keys. -/
def legacyRow (processingRequestId : Uuid) (sourceStorageKey : JsString) : Ddl.Row catalog
  | .processingRequestId => some (.uuid processingRequestId)
  | .ownerUserId => some (.text (js "owner"))
  | .sourceStorageKey => some (.text sourceStorageKey)
  | .status => some (.text ProcessingRequestStatus.received.text)
  | .createdAt => some (.timestamptz 1789953000000)
  | .updatedAt => some (.timestamptz 1789953000000)
  | _ => none

/-- Two requests of an owner, one of them for a given source, before one source was one request. -/
def legacy (sourceStorageKey : JsString) : Deployment where
  executed := (migrations.take 4).map Migration.name
  database := ⟨schemaAt 4, fun
    | .processingRequest =>
        [legacyRow (.repeated 1) (js "uploads/a.mp4"), legacyRow (.repeated 2) sourceStorageKey]
    | _ => []⟩

theorem admits_legacyRow (processingRequestId : Uuid) (sourceStorageKey : JsString) :
    (requestTable 4).Admits (legacyRow processingRequestId sourceStorageKey) where
  values := by
    simp [requestTable, requestColumns, notNull, nullable, legacyRow, DataType.Fits]
  notNull := by
    simp [requestTable, requestColumns, Migrations.notNull, nullable, legacyRow]
  absent name nameNotMem := by
    cases name
    all_goals first | rfl | exact absurd (by decide) nameNotMem

theorem atVersion_legacy (sourceStorageKey : JsString) : AtVersion 4 (legacy sourceStorageKey) where
  le := by omega
  executed := rfl
  schema := rfl
  valid := {
    supported := supported_schemaAt (by omega)
    absent := fun name missing => by cases name <;> first | rfl | cases missing
    admitted := by
      intro name table isTable row rowMem
      cases name with
      | processingRequest =>
          cases isTable
          rcases List.mem_pair.mp rowMem with rfl | rfl
          · exact admits_legacyRow _ _
          · exact admits_legacyRow _ _
      | processedEvent => cases rowMem
      | outbox => cases rowMem
    keyed := by
      intro name table isTable
      cases name with
      | processingRequest =>
          cases isTable
          refine List.pairwise_pair.mpr ?_
          rintro ⟨_, equal⟩
          have same := (equal .processingRequestId List.mem_cons_self).2
          have different : Uuid.repeated 1 ≠ Uuid.repeated 2 := by decide
          exact different (by simpa [legacyRow] using same)
      | processedEvent => exact List.Pairwise.nil
      | outbox => exact List.Pairwise.nil
    indexed := by
      intro name index isIndex unique
      cases name with
      | uqProcessingRequestOwnerIdempotency =>
          cases isIndex
          refine Ddl.distinct_of_null (List.mem_cons_of_mem _ List.mem_cons_self) ?_
          intro row rowMem
          rcases List.mem_pair.mp (List.mem_filter.mp rowMem).1 with rfl | rfl
          · rfl
          · rfl
      | uqProcessingRequestOwnerSource => cases isIndex
      | idxProcessingRequestOwner => cases isIndex
      | idxOutboxPending =>
          cases isIndex
          cases unique
      | idxProcessingRequestOwnerCreated =>
          cases isIndex
          cases unique }

theorem storedColumn_owner :
    @storedColumn .incompressible (some (.text (js "owner"))) = .varying 5 := by
  have owner : utf8Length (js "owner") = 5 := by decide +kernel
  exact congrArg IndexTuple.Attribute.varying owner

/-- Whatever the source is, the indexes of its version have room for it. -/
theorem migrated_legacy (sourceStorageKey : JsString) :
    @Migrated .incompressible 4 (legacy sourceStorageKey) := by
  let _ := EntrySizes.incompressible
  have created (id : Uuid) :
      IndexTuple.Fits ((ownerCreated.map (legacyRow id sourceStorageKey)).map storedColumn) := by
    change IndexTuple.Fits [storedColumn (some (.text (js "owner"))), .fixed .double 8,
      .fixed .char 16]
    rw [storedColumn_owner]
    decide
  have key (id : Uuid) : IndexTuple.Fits
      (([.ownerUserId, .idempotencyKey].map (legacyRow id sourceStorageKey)).map storedColumn) := by
    change IndexTuple.Fits [storedColumn (some (.text (js "owner"))), .null]
    rw [storedColumn_owner]
    decide
  refine ⟨atVersion_legacy sourceStorageKey, fun name index isIndex row rowMem _ => ?_⟩
  cases name with
  | idxProcessingRequestOwner => cases isIndex
  | idxOutboxPending =>
      cases isIndex
      cases rowMem
  | idxProcessingRequestOwnerCreated =>
      cases isIndex
      rcases List.mem_pair.mp rowMem with rfl | rfl
      · exact decide_eq_true (created (.repeated 1))
      · exact decide_eq_true (created (.repeated 2))
  | uqProcessingRequestOwnerIdempotency =>
      cases isIndex
      rcases List.mem_pair.mp rowMem with rfl | rfl
      · exact decide_eq_true (key (.repeated 1))
      · exact decide_eq_true (key (.repeated 2))
  | uqProcessingRequestOwnerSource => cases isIndex

/-- A source as long as a request may have, of the ideographs from U+4E00 on. -/
def longSource : JsString :=
  (List.range 1024).map fun index => UInt16.ofNat (0x4E00 + index)

/-- Two requests for one source keep a database from being migrated, and so does a source that is
too long. Two requests for different sources do not, and both get a blank address. -/
theorem pending_migrations_run_legacy :
    @runMigrations .incompressible (legacy (js "uploads/a.mp4")) =
      .error (.refused (.cannotIndex .uqProcessingRequestOwnerSource)) ∧
    (OneRequestEach (legacy longSource).database.rows ∧
      @runMigrations .incompressible (legacy longSource) =
        .error (.refused (.cannotIndex .uqProcessingRequestOwnerSource))) ∧
    ∃ next, @runMigrations .incompressible (legacy (js "uploads/b.mp4")) = .ok next ∧
      (next.database.rows .processingRequest).map (fun row => row .ownerEmail) =
        [some (.text []), some (.text [])] := by
  let _ := EntrySizes.incompressible
  have shared : ¬ OneRequestEach (legacy (js "uploads/a.mp4")).database.rows := by decide +kernel
  have long : ¬ EntriesFit ownerSource (legacy longSource).database.rows := by decide +kernel
  have apart : OneRequestEach (legacy (js "uploads/b.mp4")).database.rows := by decide +kernel
  have fit : EntriesFit ownerSource (legacy (js "uploads/b.mp4")).database.rows := by
    decide +kernel
  refine ⟨?_, ⟨by decide +kernel, ?_⟩, ?_⟩
  · have at' := migrated_legacy (js "uploads/a.mp4")
    rcases pending_migrations_run (reaches_of_migrated at') with ⟨version, found, _, refused, _⟩
    cases found.unique at'.toAtVersion
    exact refused ⟨.inl (by omega), by omega, fun taken => shared taken.1⟩
  · have at' := migrated_legacy longSource
    rcases pending_migrations_run (reaches_of_migrated at') with ⟨version, found, _, refused, _⟩
    cases found.unique at'.toAtVersion
    exact refused ⟨.inl (by omega), by omega, fun taken => long taken.2⟩
  · have at' := migrated_legacy (js "uploads/b.mp4")
    rcases pending_migrations_run (reaches_of_migrated at') with ⟨version, found, _, _, runs⟩
    cases found.unique at'.toAtVersion
    rcases runs ⟨.inl (by omega), .inr ⟨apart, fit⟩⟩ with ⟨next, ran, _, upgraded, _⟩
    refine ⟨next, ran, ?_⟩
    rw [upgraded]
    rfl

/-- Migrations are undone whatever the rows are: what is left is what the older schema has room
for. Undoing what has just been run restores the database as it was, and once the unique index on
the owner and the source stands, what was undone can be run again, with blank addresses, keys and
correlation ids where these had gone. -/
theorem migrations_are_undone [EntrySizes] {deployment : Deployment}
    (reached : Reaches deployment) :
    ∃ version, AtVersion version deployment ∧
      (∀ next, runMigrations deployment = .ok next →
        undoMigrations (7 - version) next = .ok deployment) ∧
      ∀ earlier ≤ version, ∃ back, undoMigrations (version - earlier) deployment = .ok back ∧
        AtVersion earlier back ∧
        back.database.rows = (schemaAt earlier).project deployment.database.rows ∧
        (5 ≤ version → ∃ again, runMigrations back = .ok again ∧ AtVersion 7 again ∧
          again.database.rows =
            upgraded earlier ((schemaAt earlier).project deployment.database.rows)) := by
  rcases exists_migrated reached with ⟨version, at'⟩
  have le := at'.le
  refine ⟨version, at'.toAtVersion, fun next ran => ?_, fun earlier isEarlier => ?_⟩
  · rcases migrated_of_run at' ran with ⟨accepted, rfl⟩
    have total : version + (7 - version) = 7 := by omega
    have last : Migrated (version + (7 - version)) (broughtForth version deployment) :=
      total.symm ▸ migrated_broughtForth at' accepted
    have old := Ddl.Schema.project_of_valid at'.valid
    rw [at'.schema] at old
    have restored : broughtBack version (broughtForth version deployment) = deployment :=
      calc broughtBack version (broughtForth version deployment)
          = broughtBack version deployment := by
            simp only [broughtBack, project_broughtForth at' accepted, old]
        _ = deployment := broughtBack_self at'.toAtVersion
    rw [(undoMigrations_eq last).1, restored]
  · have total : earlier + (version - earlier) = version := by omega
    have later : Migrated (earlier + (version - earlier)) deployment := total.symm ▸ at'
    rcases undoMigrations_eq later with ⟨undone, back, _⟩
    refine ⟨broughtBack earlier deployment, undone, back.toAtVersion, rfl, fun since => ?_⟩
    have accepted := objectionFrom_broughtBack earlier at' since
    refine ⟨broughtForth earlier (broughtBack earlier deployment), ?_,
      (migrated_broughtForth back accepted).toAtVersion, rfl⟩
    rw [runMigrations_eq back, accepted]
    rfl

/-- What has been migrated is taken back to what it was. -/
theorem migrations_are_undone_legacy : ∃ next,
    @runMigrations .incompressible (legacy (js "uploads/b.mp4")) = .ok next ∧
      @undoMigrations .incompressible 3 next = .ok (legacy (js "uploads/b.mp4")) := by
  let _ := EntrySizes.incompressible
  have apart : OneRequestEach (legacy (js "uploads/b.mp4")).database.rows := by decide +kernel
  have fit : EntriesFit ownerSource (legacy (js "uploads/b.mp4")).database.rows := by
    decide +kernel
  have at' := migrated_legacy (js "uploads/b.mp4")
  have accepted : objectionFrom 4 (legacy (js "uploads/b.mp4")).database.rows = none := by
    simp [objectionFrom, apart, fit]
  have ran := runMigrations_eq at'
  rw [accepted] at ran
  rcases migrations_are_undone (reaches_of_migrated at') with ⟨version, found, restored, _⟩
  cases found.unique at'.toAtVersion
  exact ⟨_, ran, restored _ ran⟩

end Migrations

end ProcessingCatalog
