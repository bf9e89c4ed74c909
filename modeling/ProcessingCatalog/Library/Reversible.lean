import ProcessingCatalog.Library.DdlValidity

/-!
# What statements lose

Some statements only add to a schema: the schema before them still sees all the
rows it had. Others only take from it, and leave of the rows what the schema after
them has room for. So what statements of the first kind have added, statements of
the second kind that lead back can take away again, and nothing else.
-/

namespace Ddl

variable {voc : Vocabulary}

namespace Schema

section Order

/-- Whatever columns the one has, the other has. -/
def Within (inner outer : Schema voc) : Prop :=
  ∀ name table, inner.tables name = some table →
    ∃ table', outer.tables name = some table' ∧ ∀ column ∈ table.names, column ∈ table'.names

theorem Within.refl (schema : Schema voc) : schema.Within schema :=
  fun _ table isTable => ⟨table, isTable, fun _ columnMem => columnMem⟩

theorem Within.trans {first second third : Schema voc} (left : first.Within second)
    (right : second.Within third) : first.Within third := by
  intro name table isTable
  rcases left name table isTable with ⟨between, isBetween, columns⟩
  rcases right name between isBetween with ⟨outer, isOuter, columns'⟩
  exact ⟨outer, isOuter, fun column columnMem => columns' column (columns column columnMem)⟩

variable [DecidableEq voc.TableName]

theorem within_setTable {schema : Schema voc} {name : voc.TableName} {table : Table voc}
    (larger : ∀ old, schema.tables name = some old → ∀ column ∈ old.names, column ∈ table.names) :
    schema.Within (schema.setTable name (some table)) := by
  intro other old isOld
  by_cases same : other = name
  · subst same
    exact ⟨table, by simp [Schema.setTable], larger old isOld⟩
  · exact ⟨old, by simpa [Schema.setTable, Function.update_of_ne same] using isOld,
      fun _ columnMem => columnMem⟩

theorem within_of_setTable {schema : Schema voc} {name : voc.TableName} {table table' : Table voc}
    (isTable : schema.tables name = some table)
    (smaller : ∀ column ∈ table'.names, column ∈ table.names) :
    (schema.setTable name (some table')).Within schema := by
  intro other new isNew
  by_cases same : other = name
  · subst same
    simp only [Schema.setTable, Function.update_self, Option.some.injEq] at isNew
    exact ⟨table, isTable, isNew ▸ smaller⟩
  · exact ⟨new, by simpa [Schema.setTable, Function.update_of_ne same] using isNew,
      fun _ columnMem => columnMem⟩

end Order

variable [DecidableEq voc.ColumnName]

theorem project_of_valid {schema : Schema voc} {rows : Rows voc}
    (valid : Database.Valid ⟨schema, rows⟩) : schema.project rows = rows := by
  funext name
  cases isTable : schema.tables name with
  | none => simpa [project, isTable] using (valid.absent name isTable).symm
  | some table =>
      have same : ∀ row ∈ rows name,
          (fun column => if column ∈ table.names then row column else none) = row := by
        intro row rowMem
        funext column
        split
        · rfl
        · rename_i absent
          exact ((valid.admitted name table isTable row rowMem).absent column absent).symm
      simpa [project, isTable] using (List.map_congr_left same).trans (List.map_id' _)

theorem project_project {inner outer : Schema voc} (within : inner.Within outer)
    (rows : Rows voc) : inner.project (outer.project rows) = inner.project rows := by
  funext name
  cases isTable : inner.tables name with
  | none => simp [project, isTable]
  | some table =>
      rcases within name table isTable with ⟨table', isTable', columns⟩
      simp only [project, isTable, isTable', Option.elim_some, List.map_map]
      refine List.map_congr_left fun row _ => funext fun column => ?_
      by_cases columnMem : column ∈ table.names
      · simp [columnMem, columns column columnMem]
      · simp [columnMem]

variable [DecidableEq voc.TableName]

/-- A column that a schema does not have is not seen. -/
theorem project_setColumn {schema : Schema voc} {name : voc.TableName} {column : voc.ColumnName}
    (unseen : schema.hasColumn name column = false) (rows : Rows voc) (value : Option voc.Value) :
    schema.project (rows.setColumn name column value) = schema.project rows := by
  funext other
  cases isTable : schema.tables other with
  | none => simp [project, isTable]
  | some table =>
      by_cases same : other = name
      · subst same
        have foreign : column ∉ table.names := by simpa [hasColumn, isTable] using unseen
        simp only [project, isTable, Option.elim_some, Rows.setColumn, Function.update_self,
          List.map_map]
        refine List.map_congr_left fun row _ => funext fun among => ?_
        by_cases amongMem : among ∈ table.names
        · have different : among ≠ column := by
            rintro rfl
            exact foreign amongMem
          simp [amongMem, Function.update_of_ne different]
        · simp [amongMem]
      · simp [project, isTable, Rows.setColumn, Function.update_of_ne same]

theorem project_dropTable {schema : Schema voc} {name : voc.TableName}
    (unseen : schema.tables name = none) (rows : Rows voc) :
    schema.project (Function.update rows name []) = schema.project rows := by
  funext other
  by_cases same : other = name
  · simp [project, same, unseen]
  · simp [project, Function.update_of_ne same]

end Schema

namespace Statement

/-- A statement that takes no table and no column away. -/
def grows : Statement voc → Bool
  | .dropTable _ | .dropColumn .. => false
  | _ => true

/-- A statement that adds no table and no column. -/
def shrinks : Statement voc → Bool
  | .createTable .. | .addColumn .. => false
  | _ => true

variable [DecidableEq voc.TableName] [DecidableEq voc.ColumnName] [DecidableEq voc.IndexName]

theorem within_alter_of_grows {schema schema' : Schema voc} {statement : Statement voc}
    (altered : statement.alter schema = .ok schema') (growing : statement.grows = true) :
    schema.Within schema' := by
  cases statement with
  | createTable name table =>
      simp only [alter] at altered
      split at altered
      · cases altered
        exact .refl _
      · rename_i missing
        cases altered
        refine Schema.within_setTable fun old isOld => ?_
        cases missing.symm.trans isOld
  | dropTable name => cases growing
  | addColumn name column =>
      simp only [alter] at altered
      split at altered
      · cases altered
      · rename_i table isTable
        split at altered
        · cases altered
          exact .refl _
        · cases altered
          refine Schema.within_setTable fun old isOld among amongMem => ?_
          cases isTable.symm.trans isOld
          simp [amongMem]
  | dropDefault name column =>
      simp only [alter] at altered
      split at altered
      · cases altered
      · rename_i table isTable
        split at altered
        · cases altered
          refine Schema.within_setTable fun old isOld among amongMem => ?_
          cases isTable.symm.trans isOld
          simpa using amongMem
        · cases altered
  | dropColumn name column => cases growing
  | createIndex name index =>
      simp only [alter] at altered
      repeat' split at altered
      all_goals cases altered
      · exact .refl _
      · exact .refl _
  | dropIndex name =>
      cases altered
      exact .refl _

theorem within_alter_of_shrinks {schema schema' : Schema voc} {statement : Statement voc}
    (altered : statement.alter schema = .ok schema') (shrinking : statement.shrinks = true) :
    schema'.Within schema := by
  cases statement with
  | createTable name table => cases shrinking
  | dropTable name =>
      cases altered
      intro other table isTable
      by_cases same : other = name
      · simp [Schema.keepIndexes, Schema.setTable, same] at isTable
      · refine ⟨table, ?_, fun _ columnMem => columnMem⟩
        simpa [Schema.keepIndexes, Schema.setTable, Function.update_of_ne same] using isTable
  | addColumn name column => cases shrinking
  | dropDefault name column =>
      simp only [alter] at altered
      split at altered
      · cases altered
      · rename_i table isTable
        split at altered
        · cases altered
          exact Schema.within_of_setTable isTable fun among amongMem => by simpa using amongMem
        · cases altered
  | dropColumn name column =>
      simp only [alter] at altered
      split at altered
      · cases altered
      · rename_i table isTable
        cases altered
        exact Schema.within_of_setTable isTable fun among amongMem =>
          (Table.mem_names_dropColumn.mp amongMem).1
  | createIndex name index =>
      simp only [alter] at altered
      repeat' split at altered
      all_goals cases altered
      · exact .refl _
      · exact .refl _
  | dropIndex name =>
      cases altered
      exact .refl _

variable [DecidableEq voc.Value] [Storage voc]

variable {database next : Database voc} {statement : Statement voc}

/-- Nothing is lost of the rows. -/
theorem project_of_grows (executed : statement.execute database = .ok next)
    (growing : statement.grows = true) :
    database.schema.project next.rows = database.schema.project database.rows := by
  rcases execute_eq_ok.mp executed with ⟨_, _, converted⟩
  rw [converted]
  cases statement with
  | dropTable name => cases growing
  | dropColumn name column => cases growing
  | addColumn name column =>
      by_cases old : database.schema.hasColumn name column.name = true
      · simp [convert, old]
      · simp only [convert, old, Bool.false_eq_true, if_false]
        exact Schema.project_setColumn (by simpa using old) _ _
  | createTable name table => rfl
  | dropDefault name column => rfl
  | createIndex name index => rfl
  | dropIndex name => rfl

/-- What is left is what the schema that is left has room for. -/
theorem project_of_shrinks (executed : statement.execute database = .ok next)
    (shrinking : statement.shrinks = true) :
    next.schema.project next.rows = next.schema.project database.rows := by
  rcases execute_eq_ok.mp executed with ⟨altered, _, converted⟩
  rw [converted]
  cases statement with
  | createTable name table => cases shrinking
  | addColumn name column => cases shrinking
  | dropTable name =>
      rw [← Except.ok.inj altered]
      exact Schema.project_dropTable (by simp [Schema.keepIndexes, Schema.setTable]) _
  | dropColumn name column =>
      simp only [alter] at altered
      split at altered
      · cases altered
      · rw [← Except.ok.inj altered]
        refine Schema.project_setColumn ?_ _ _
        simp [Schema.hasColumn, Schema.keepIndexes, Schema.setTable]
  | dropDefault name column => rfl
  | createIndex name index => rfl
  | dropIndex name => rfl

end Statement

section Runs

variable [DecidableEq voc.TableName] [DecidableEq voc.ColumnName] [DecidableEq voc.IndexName]

variable [DecidableEq voc.Value] [Storage voc] {database next last : Database voc}
  {statements : List (Statement voc)}

theorem run_cons_eq_ok {statement : Statement voc} :
    run database (statement :: statements) = .ok last ↔
      ∃ next, statement.execute database = .ok next ∧ run next statements = .ok last := by
  rw [run_cons]
  cases statement.execute database with
  | error refusal => exact ⟨nofun, nofun⟩
  | ok next =>
      constructor
      · exact fun ran => ⟨next, rfl, ran⟩
      · rintro ⟨_, ⟨⟩, ran⟩
        exact ran

/-- Statements that only add lose nothing. -/
theorem grown_of_run (valid : database.Valid) (ran : run database statements = .ok next)
    (growing : ∀ statement ∈ statements, statement.grows = true) :
    database.schema.Within next.schema ∧ database.schema.project next.rows = database.rows := by
  induction statements generalizing database with
  | nil =>
      cases ran
      exact ⟨.refl _, Schema.project_of_valid valid⟩
  | cons statement statements ih =>
      rcases run_cons_eq_ok.mp ran with ⟨between, executed, ran⟩
      rcases List.forall_mem_cons.mp growing with ⟨grows, growing⟩
      have altered := (Statement.execute_eq_ok.mp executed).1
      have within := Statement.within_alter_of_grows altered grows
      rcases ih (valid.execute executed) ran growing with ⟨further, kept⟩
      refine ⟨within.trans further, ?_⟩
      calc database.schema.project next.rows
          = database.schema.project (between.schema.project next.rows) :=
            (Schema.project_project within _).symm
        _ = database.schema.project between.rows := by rw [kept]
        _ = database.schema.project database.rows := Statement.project_of_grows executed grows
        _ = database.rows := Schema.project_of_valid valid

/-- Statements that only take leave what the schema they lead to has room for. -/
theorem shrunk_of_run (valid : database.Valid) (ran : run database statements = .ok next)
    (shrinking : ∀ statement ∈ statements, statement.shrinks = true) :
    next.schema.Within database.schema ∧ next.rows = next.schema.project database.rows := by
  induction statements generalizing database with
  | nil =>
      cases ran
      exact ⟨.refl _, (Schema.project_of_valid valid).symm⟩
  | cons statement statements ih =>
      rcases run_cons_eq_ok.mp ran with ⟨between, executed, ran⟩
      rcases List.forall_mem_cons.mp shrinking with ⟨shrinks, shrinking⟩
      have altered := (Statement.execute_eq_ok.mp executed).1
      have within := Statement.within_alter_of_shrinks altered shrinks
      have validBetween := valid.execute executed
      rcases ih validBetween ran shrinking with ⟨further, left⟩
      refine ⟨further.trans within, ?_⟩
      calc next.rows
          = next.schema.project between.rows := left
        _ = next.schema.project (between.schema.project between.rows) :=
            (Schema.project_project further _).symm
        _ = next.schema.project (between.schema.project database.rows) := by
            rw [Statement.project_of_shrinks executed shrinks]
        _ = next.schema.project database.rows := Schema.project_project further _

end Runs

end Ddl
