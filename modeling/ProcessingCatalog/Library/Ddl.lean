import Mathlib.Data.List.Pairwise
import Mathlib.Logic.Function.Basic

/-!
# Statements that define tables

A relational schema, the rows stored under it, and the statements that change
the schema, with what each of them does to the rows. A statement is refused for
what it names, which the schema decides, or for the rows it meets: a column that
may not be null and has no default, two rows a unique index would hold apart, or
a row whose entry in an index is too long. How long an entry may be is a
parameter.

The schema a sequence of statements leads to does not depend on the rows, so that
it can be computed once, for all of them.
-/

namespace Ddl

/-- The names a schema uses, its types and the values they admit. -/
structure Vocabulary where
  TableName : Type
  ColumnName : Type
  IndexName : Type
  DataType : Type
  Value : Type
  Fits : DataType → Value → Prop

variable (voc : Vocabulary)

/-- The entries that are not too long for an index. -/
class Storage where
  fits : List (Option voc.Value) → Bool

structure Column where
  name : voc.ColumnName
  type : voc.DataType
  nullable : Bool
  default : Option voc.Value
  fits : ∀ value, default = some value → voc.Fits type value

structure Table where
  columns : List (Column voc)
  primaryKey : List voc.ColumnName
  keyed : ∀ name ∈ primaryKey, name ∈ columns.map Column.name

/-- An index. A partial one leaves out the rows whose column is not null. -/
structure Index where
  table : voc.TableName
  unique : Bool
  columns : List voc.ColumnName
  descending : List voc.ColumnName
  whereNull : Option voc.ColumnName

structure Schema where
  tables : voc.TableName → Option (Table voc)
  indexes : voc.IndexName → Option (Index voc)

/-- The columns of a row, `none` for null and where the table has no such column. -/
abbrev Row := voc.ColumnName → Option voc.Value

/-- The rows of every table. -/
abbrev Rows := voc.TableName → List (Row voc)

structure Database where
  schema : Schema voc
  rows : Rows voc

/-- Why a statement is refused. -/
inductive Refusal where
  | undefinedTable (table : voc.TableName)
  | undefinedColumn (column : voc.ColumnName)
  | notNullViolation (column : voc.ColumnName)
  /-- Two rows are equal in a unique index, or the entry of one is too long. -/
  | cannotIndex (index : voc.IndexName)

inductive Statement where
  /-- `CREATE TABLE IF NOT EXISTS` -/
  | createTable (name : voc.TableName) (table : Table voc)
  /-- `DROP TABLE IF EXISTS` -/
  | dropTable (name : voc.TableName)
  /-- `ALTER TABLE ... ADD COLUMN IF NOT EXISTS` -/
  | addColumn (table : voc.TableName) (column : Column voc)
  /-- `ALTER TABLE ... ALTER COLUMN ... DROP DEFAULT` -/
  | dropDefault (table : voc.TableName) (column : voc.ColumnName)
  /-- `ALTER TABLE ... DROP COLUMN IF EXISTS` -/
  | dropColumn (table : voc.TableName) (column : voc.ColumnName)
  /-- `CREATE INDEX IF NOT EXISTS` -/
  | createIndex (name : voc.IndexName) (index : Index voc)
  /-- `DROP INDEX IF EXISTS` -/
  | dropIndex (name : voc.IndexName)

variable {voc}

/-- Two rows have equal entries in some columns. Null entries are never equal. -/
def Clash (columns : List voc.ColumnName) (left right : Row voc) : Prop :=
  columns ≠ [] ∧ ∀ column ∈ columns, (left column).isSome ∧ left column = right column

def Distinct (columns : List voc.ColumnName) (rows : List (Row voc)) : Prop :=
  rows.Pairwise fun left right => ¬ Clash columns left right

theorem Clash.congr {columns : List voc.ColumnName} {left left' right right' : Row voc}
    (sameLeft : ∀ column ∈ columns, left' column = left column)
    (sameRight : ∀ column ∈ columns, right' column = right column) :
    Clash columns left' right' ↔ Clash columns left right := by
  refine and_congr_right fun _ => forall₂_congr fun column columnMem => ?_
  rw [sameLeft column columnMem, sameRight column columnMem]

theorem distinct_map {columns : List voc.ColumnName} {rows : List (Row voc)}
    {convert : Row voc → Row voc}
    (same : ∀ row ∈ rows, ∀ column ∈ columns, convert row column = row column) :
    Distinct columns (rows.map convert) ↔ Distinct columns rows := by
  rw [Distinct, List.pairwise_map]
  refine List.Pairwise.iff_of_mem fun leftMem rightMem => ?_
  exact not_congr (Clash.congr (same _ leftMem) (same _ rightMem))

/-- Rows are distinct on a column that is null in all of them. -/
theorem distinct_of_null {columns : List voc.ColumnName} {rows : List (Row voc)}
    {column : voc.ColumnName} (columnMem : column ∈ columns)
    (null : ∀ row ∈ rows, row column = none) : Distinct columns rows := by
  refine List.Pairwise.imp_of_mem ?_ (List.pairwise_of_forall fun _ _ => trivial)
  rintro left right leftMem _ _ ⟨_, equal⟩
  simpa [null left leftMem] using (equal column columnMem).1

namespace Table

def names (table : Table voc) : List voc.ColumnName :=
  table.columns.map Column.name

theorem name_mem_names {table : Table voc} {column : Column voc}
    (columnMem : column ∈ table.columns) : column.name ∈ table.names :=
  List.mem_map_of_mem columnMem

/-- A row a table may hold. -/
structure Admits (table : Table voc) (row : Row voc) : Prop where
  values : ∀ column ∈ table.columns, ∀ value, row column.name = some value →
    voc.Fits column.type value
  notNull : ∀ column ∈ table.columns, column.nullable = false → (row column.name).isSome
  absent : ∀ name, name ∉ table.names → row name = none

end Table

namespace Index

def mentioned (index : Index voc) : List voc.ColumnName :=
  index.columns ++ index.whereNull.toList

/-- Whether a row has an entry in an index. -/
def enters (index : Index voc) (row : Row voc) : Bool :=
  index.whereNull.all fun column => (row column).isNone

/-- The rows are distinct, where an index is to hold them apart. -/
def Holds (index : Index voc) (rows : List (Row voc)) : Prop :=
  index.unique = true → Distinct index.columns (rows.filter index.enters)

/-- The entries of the rows are not too long. -/
def Fits [Storage voc] (index : Index voc) (rows : List (Row voc)) : Prop :=
  ∀ row ∈ rows, index.enters row = true → Storage.fits (index.columns.map row) = true

theorem enters_congr {index : Index voc} {row row' : Row voc}
    (same : ∀ column ∈ index.mentioned, row' column = row column) :
    index.enters row' = index.enters row := by
  cases partly : index.whereNull with
  | none => simp [enters, partly]
  | some column =>
      have sameColumn := same column (by simp [mentioned, partly])
      simp [enters, partly, sameColumn]

theorem holds_map {index : Index voc} {rows : List (Row voc)} {convert : Row voc → Row voc}
    (same : ∀ row ∈ rows, ∀ column ∈ index.mentioned, convert row column = row column) :
    index.Holds (rows.map convert) ↔ index.Holds rows := by
  have entries : ∀ row ∈ rows, index.enters (convert row) = index.enters row :=
    fun row rowMem => enters_congr (same row rowMem)
  have filtered : (rows.map convert).filter index.enters =
      (rows.filter index.enters).map convert := by
    rw [List.filter_map]
    congr 1
    exact List.filter_congr entries
  rw [Holds, Holds, filtered]
  refine imp_congr_right fun _ => distinct_map fun row rowMem column columnMem => ?_
  exact same row (List.mem_filter.mp rowMem).1 column (List.mem_append_left _ columnMem)

theorem fits_map [Storage voc] {index : Index voc} {rows : List (Row voc)}
    {convert : Row voc → Row voc}
    (same : ∀ row ∈ rows, ∀ column ∈ index.mentioned, convert row column = row column) :
    index.Fits (rows.map convert) ↔ index.Fits rows := by
  refine List.forall_mem_map.trans (forall₂_congr fun row rowMem => ?_)
  have entry : index.columns.map (convert row) = index.columns.map row :=
    List.map_congr_left fun column columnMem =>
      same row rowMem column (List.mem_append_left _ columnMem)
  rw [enters_congr (same row rowMem), entry]

end Index

/-- The rows keep the constraints of the schema, whose indexes are over columns it has. -/
structure Database.Valid (database : Database voc) : Prop where
  supported : ∀ name index, database.schema.indexes name = some index →
    ∃ table, database.schema.tables index.table = some table ∧
      ∀ column ∈ index.mentioned, column ∈ table.names
  absent : ∀ name, database.schema.tables name = none → database.rows name = []
  admitted : ∀ name table, database.schema.tables name = some table →
    ∀ row ∈ database.rows name, table.Admits row
  keyed : ∀ name table, database.schema.tables name = some table →
    Distinct table.primaryKey (database.rows name)
  indexed : ∀ name index, database.schema.indexes name = some index →
    index.Holds (database.rows index.table)

/-- In no index the entry of a row is too long. -/
def Database.Stored [Storage voc] (database : Database voc) : Prop :=
  ∀ name index, database.schema.indexes name = some index →
    index.Fits (database.rows index.table)

namespace Table

def addColumn (table : Table voc) (column : Column voc) : Table voc where
  columns := table.columns ++ [column]
  primaryKey := table.primaryKey
  keyed name nameMem := by simpa using .inl (by simpa using table.keyed name nameMem)

@[simp]
theorem names_addColumn (table : Table voc) (column : Column voc) :
    (table.addColumn column).names = table.names ++ [column.name] := by
  simp [names, addColumn]

variable [DecidableEq voc.ColumnName]

def dropDefault (table : Table voc) (name : voc.ColumnName) : Table voc where
  columns := table.columns.map fun column =>
    if column.name = name then { column with default := none, fits := nofun } else column
  primaryKey := table.primaryKey
  keyed other otherMem := by
    rcases List.mem_map.mp (table.keyed other otherMem) with ⟨column, columnMem, rfl⟩
    refine List.mem_map.mpr ⟨_, List.mem_map_of_mem columnMem, ?_⟩
    split <;> rfl

/-- A key goes with any of its columns. -/
def dropColumn (table : Table voc) (name : voc.ColumnName) : Table voc where
  columns := table.columns.filter fun column => column.name ≠ name
  primaryKey := if name ∈ table.primaryKey then [] else table.primaryKey
  keyed other otherMem := by
    split at otherMem
    · cases otherMem
    · rename_i kept
      rcases List.mem_map.mp (table.keyed other otherMem) with ⟨column, columnMem, rfl⟩
      refine List.mem_map_of_mem (List.mem_filter.mpr ⟨columnMem, ?_⟩)
      simpa using fun same : column.name = name => kept (same ▸ otherMem)

@[simp]
theorem names_dropDefault (table : Table voc) (name : voc.ColumnName) :
    (table.dropDefault name).names = table.names := by
  simp only [names, dropDefault, List.map_map]
  refine List.map_congr_left fun column _ => ?_
  simp only [Function.comp_apply]
  split <;> rfl

@[simp]
theorem mem_names_dropColumn {table : Table voc} {name other : voc.ColumnName} :
    other ∈ (table.dropColumn name).names ↔ other ∈ table.names ∧ other ≠ name := by
  simp only [names, dropColumn, List.mem_map, List.mem_filter, decide_eq_true_eq]
  constructor
  · rintro ⟨column, ⟨columnMem, different⟩, rfl⟩
    exact ⟨⟨column, columnMem, rfl⟩, different⟩
  · rintro ⟨⟨column, columnMem, rfl⟩, different⟩
    exact ⟨column, ⟨columnMem, different⟩, rfl⟩

end Table

namespace Schema

def empty : Schema voc := ⟨fun _ => none, fun _ => none⟩

def keepIndexes (schema : Schema voc) (keeps : Index voc → Bool) : Schema voc :=
  { schema with indexes := fun name => (schema.indexes name).filter keeps }

@[simp]
theorem keepIndexes_true (schema : Schema voc) : schema.keepIndexes (fun _ => true) = schema := by
  have kept : ∀ index : Option (Index voc), index.filter (fun _ => true) = index := by
    rintro (_ | index) <;> rfl
  simp [keepIndexes, kept]

def hasColumn [DecidableEq voc.ColumnName] (schema : Schema voc) (table : voc.TableName)
    (column : voc.ColumnName) : Bool :=
  (schema.tables table).any fun table => column ∈ table.names

/-- What a schema has room for. -/
def project [DecidableEq voc.ColumnName] (schema : Schema voc) (rows : Rows voc) :
    Rows voc := fun name =>
  (schema.tables name).elim [] fun table =>
    (rows name).map fun row column => if column ∈ table.names then row column else none

def setTable [DecidableEq voc.TableName] (schema : Schema voc) (name : voc.TableName)
    (table : Option (Table voc)) : Schema voc :=
  { schema with tables := Function.update schema.tables name table }

def setIndex [DecidableEq voc.IndexName] (schema : Schema voc) (name : voc.IndexName)
    (index : Option (Index voc)) : Schema voc :=
  { schema with indexes := Function.update schema.indexes name index }

end Schema

section Execution

variable [DecidableEq voc.TableName] [DecidableEq voc.ColumnName] [DecidableEq voc.IndexName]
  [DecidableEq voc.Value]

instance (columns : List voc.ColumnName) (left right : Row voc) :
    Decidable (Clash columns left right) :=
  inferInstanceAs (Decidable (_ ∧ _))

instance (columns : List voc.ColumnName) (rows : List (Row voc)) :
    Decidable (Distinct columns rows) :=
  inferInstanceAs (Decidable (rows.Pairwise _))

instance (index : Index voc) (rows : List (Row voc)) : Decidable (index.Holds rows) :=
  inferInstanceAs (Decidable (_ → _))

instance [Storage voc] (index : Index voc) (rows : List (Row voc)) : Decidable (index.Fits rows) :=
  inferInstanceAs (Decidable (∀ _ ∈ _, _))

def Rows.setColumn (rows : Rows voc) (table : voc.TableName) (column : voc.ColumnName)
    (value : Option voc.Value) : Rows voc :=
  Function.update rows table ((rows table).map fun row => Function.update row column value)

namespace Statement

/-- What a statement does to the schema, or why it is refused for what it names. An index goes
with its table, and with any of its columns. -/
def alter (schema : Schema voc) : Statement voc → Except (Refusal voc) (Schema voc)
  | .createTable name table =>
      match schema.tables name with
      | some _ => .ok schema
      | none => .ok (schema.setTable name (some table))
  | .dropTable name =>
      .ok ((schema.setTable name none).keepIndexes fun index => index.table ≠ name)
  | .addColumn name column =>
      match schema.tables name with
      | none => .error (.undefinedTable name)
      | some table =>
          if column.name ∈ table.names then .ok schema
          else .ok (schema.setTable name (some (table.addColumn column)))
  | .dropDefault name column =>
      match schema.tables name with
      | none => .error (.undefinedTable name)
      | some table =>
          if column ∈ table.names then .ok (schema.setTable name (some (table.dropDefault column)))
          else .error (.undefinedColumn column)
  | .dropColumn name column =>
      match schema.tables name with
      | none => .error (.undefinedTable name)
      | some table =>
          .ok ((schema.setTable name (some (table.dropColumn column))).keepIndexes fun index =>
            ¬ (index.table = name ∧ column ∈ index.mentioned))
  | .createIndex name index =>
      match schema.tables index.table with
      | none => .error (.undefinedTable index.table)
      | some table =>
          match index.mentioned.find? fun column => column ∉ table.names with
          | some column => .error (.undefinedColumn column)
          | none =>
              match schema.indexes name with
              | some _ => .ok schema
              | none => .ok (schema.setIndex name (some index))
  | .dropIndex name => .ok (schema.setIndex name none)

/-- What a statement does to the rows. -/
def convert (schema : Schema voc) (rows : Rows voc) : Statement voc → Rows voc
  | .dropTable name => Function.update rows name []
  | .addColumn name column =>
      if schema.hasColumn name column.name then rows
      else rows.setColumn name column.name column.default
  | .dropColumn name column => rows.setColumn name column none
  | _ => rows

variable [Storage voc]

/-- Why a statement is refused for the rows it meets. -/
def objection (schema : Schema voc) (rows : Rows voc) : Statement voc → Option (Refusal voc)
  | .addColumn name column =>
      if ¬ schema.hasColumn name column.name ∧ column.nullable = false ∧ column.default.isNone ∧
          rows name ≠ [] then
        some (.notNullViolation column.name)
      else none
  | .createIndex name index =>
      if (schema.indexes name).isNone ∧
          ¬ (index.Holds (rows index.table) ∧ index.Fits (rows index.table)) then
        some (.cannotIndex name)
      else none
  | _ => none

def execute (database : Database voc) (statement : Statement voc) :
    Except (Refusal voc) (Database voc) :=
  match statement.alter database.schema, statement.objection database.schema database.rows with
  | .error refusal, _ => .error refusal
  | .ok _, some refusal => .error refusal
  | .ok schema, none => .ok ⟨schema, statement.convert database.schema database.rows⟩

end Statement

variable [Storage voc]

/-- A sequence of statements, up to the first that is refused. -/
def run (database : Database voc) : List (Statement voc) → Except (Refusal voc) (Database voc)
  | [] => .ok database
  | statement :: statements => statement.execute database >>= fun next => run next statements

theorem run_cons (database : Database voc) (statement : Statement voc)
    (statements : List (Statement voc)) : run database (statement :: statements) =
      statement.execute database >>= fun next => run next statements := rfl

theorem run_append (database : Database voc) (first second : List (Statement voc)) :
    run database (first ++ second) = run database first >>= fun next => run next second := by
  induction first generalizing database with
  | nil => rfl
  | cons statement first ih =>
      rw [List.cons_append, run_cons, run_cons]
      cases statement.execute database with
      | error refusal => rfl
      | ok next => exact ih next

theorem Statement.execute_eq_ok {database next : Database voc} {statement : Statement voc} :
    statement.execute database = .ok next ↔
      statement.alter database.schema = .ok next.schema ∧
      statement.objection database.schema database.rows = none ∧
      next.rows = statement.convert database.schema database.rows := by
  unfold execute
  cases altered : statement.alter database.schema with
  | error refusal => simp
  | ok schema =>
      cases objected : statement.objection database.schema database.rows with
      | some refusal => simp
      | none =>
          cases next
          simp [eq_comm]

end Execution

namespace Statement

/-- A statement that is not refused for the rows it meets. -/
def quiet : Statement voc → Bool
  | .addColumn _ column => column.nullable || column.default.isSome
  | .createIndex .. => false
  | _ => true

variable [DecidableEq voc.ColumnName] [DecidableEq voc.Value] [Storage voc]

theorem objection_of_quiet {statement : Statement voc} (isQuiet : statement.quiet = true)
    (schema : Schema voc) (rows : Rows voc) : statement.objection schema rows = none := by
  cases statement with
  | addColumn name column =>
      refine if_neg ?_
      rintro ⟨_, required, noDefault, _⟩
      have noSome : column.default.isSome = false := by simpa using noDefault
      simp [quiet, required, noSome] at isQuiet
  | createIndex name index => cases isQuiet
  | _ => rfl

theorem objection_createIndex {schema : Schema voc} {name : voc.IndexName}
    (missing : schema.indexes name = none) (rows : Rows voc) (index : Index voc) :
    (createIndex name index).objection schema rows =
      if index.Holds (rows index.table) ∧ index.Fits (rows index.table) then none
      else some (.cannotIndex name) := by
  simp only [objection, missing, Option.isNone_none, true_and, ite_not]

end Statement

section Sequences

variable [DecidableEq voc.TableName] [DecidableEq voc.ColumnName] [DecidableEq voc.IndexName]
  [DecidableEq voc.Value] [Storage voc]

/-- The schema that statements lead to when the rows give no reason to refuse one. -/
def alterAll (schema : Schema voc) : List (Statement voc) → Except (Refusal voc) (Schema voc)
  | [] => .ok schema
  | statement :: statements => statement.alter schema >>= fun next => alterAll next statements

/-- Why one of the statements is refused for the rows it meets. -/
def objectionAll (schema : Schema voc) (rows : Rows voc) :
    List (Statement voc) → Option (Refusal voc)
  | [] => none
  | statement :: statements =>
      match statement.alter schema with
      | .error _ => none
      | .ok next =>
          (statement.objection schema rows).or
            (objectionAll next (statement.convert schema rows) statements)

/-- What statements do to the rows. -/
def convertAll (schema : Schema voc) (rows : Rows voc) : List (Statement voc) → Rows voc
  | [] => rows
  | statement :: statements =>
      match statement.alter schema with
      | .error _ => rows
      | .ok next => convertAll next (statement.convert schema rows) statements

/-- Statements that name what there is do to the schema the same for all rows, unless they are
refused for these. -/
theorem run_of_alterAll {schema schema' : Schema voc} {statements : List (Statement voc)}
    (altered : alterAll schema statements = .ok schema') (rows : Rows voc) :
    run ⟨schema, rows⟩ statements = (objectionAll schema rows statements).elim
      (.ok ⟨schema', convertAll schema rows statements⟩) .error := by
  induction statements generalizing schema rows with
  | nil =>
      cases altered
      rfl
  | cons statement statements ih =>
      rw [alterAll] at altered
      rw [run_cons, Statement.execute, objectionAll, convertAll]
      cases first : statement.alter schema with
      | error refusal =>
          rw [first] at altered
          cases altered
      | ok next =>
          rw [first] at altered
          cases objected : statement.objection schema rows with
          | some refusal => rfl
          | none => exact ih altered (statement.convert schema rows)

theorem objectionAll_of_quiet {statements : List (Statement voc)}
    (quiet : ∀ statement ∈ statements, statement.quiet = true) (schema : Schema voc)
    (rows : Rows voc) : objectionAll schema rows statements = none := by
  induction statements generalizing schema rows with
  | nil => rfl
  | cons statement statements ih =>
      rcases List.forall_mem_cons.mp quiet with ⟨isQuiet, quiet⟩
      rw [objectionAll]
      cases statement.alter schema with
      | error refusal => rfl
      | ok next => simp [Statement.objection_of_quiet isQuiet, ih quiet]

end Sequences

end Ddl
