import ProcessingCatalog.Library.Ddl

/-!
# Statements keep the constraints

Whatever statements run, the rows keep the constraints of the schema: what a
statement adds to the schema holds of the rows when the statement is not refused,
and what it leaves in the schema is not affected by what it does to the rows.
-/

namespace Ddl

variable {database next : Database voc}

namespace Database.Valid

section Indexes

variable [DecidableEq voc.IndexName]

theorem createIndex (valid : database.Valid) {name : voc.IndexName} {index : Index voc}
    {table : Table voc} (isTable : database.schema.tables index.table = some table)
    (columns : ∀ column ∈ index.mentioned, column ∈ table.names)
    (holds : index.Holds (database.rows index.table)) :
    Database.Valid ⟨database.schema.setIndex name (some index), database.rows⟩ where
  supported other among isAmong := by
    by_cases same : other = name
    · simp only [Schema.setIndex, same, Function.update_self, Option.some.injEq] at isAmong
      exact isAmong ▸ ⟨table, isTable, columns⟩
    · simp only [Schema.setIndex, Function.update_of_ne same] at isAmong
      exact valid.supported other among isAmong
  absent := valid.absent
  admitted := valid.admitted
  keyed := valid.keyed
  indexed other among isAmong := by
    by_cases same : other = name
    · simp only [Schema.setIndex, same, Function.update_self, Option.some.injEq] at isAmong
      exact isAmong ▸ holds
    · simp only [Schema.setIndex, Function.update_of_ne same] at isAmong
      exact valid.indexed other among isAmong

theorem dropIndex (valid : database.Valid) (name : voc.IndexName) :
    Database.Valid ⟨database.schema.setIndex name none, database.rows⟩ where
  supported other among isAmong := by
    by_cases same : other = name
    · simp [Schema.setIndex, same] at isAmong
    · simp only [Schema.setIndex, Function.update_of_ne same] at isAmong
      exact valid.supported other among isAmong
  absent := valid.absent
  admitted := valid.admitted
  keyed := valid.keyed
  indexed other among isAmong := by
    by_cases same : other = name
    · simp [Schema.setIndex, same] at isAmong
    · simp only [Schema.setIndex, Function.update_of_ne same] at isAmong
      exact valid.indexed other among isAmong

end Indexes

variable [DecidableEq voc.TableName]

/-- A table may get other columns, and its rows other values, where these are admitted and the
indexes that are left do not see a difference. -/
theorem reshape (valid : database.Valid) {name : voc.TableName} {table table' : Table voc}
    (isTable : database.schema.tables name = some table) {convert : Row voc → Row voc}
    {keeps : Index voc → Bool}
    (admits : ∀ row ∈ database.rows name, table.Admits row → table'.Admits (convert row))
    (keyed : Distinct table'.primaryKey ((database.rows name).map convert))
    (kept : ∀ index : Index voc, index.table = name → keeps index = true →
      ∀ column ∈ index.mentioned, column ∈ table.names →
        column ∈ table'.names ∧ ∀ row, convert row column = row column) :
    Database.Valid ⟨(database.schema.setTable name (some table')).keepIndexes keeps,
      Function.update database.rows name ((database.rows name).map convert)⟩ where
  supported other index isIndex := by
    rcases Option.filter_eq_some_iff.mp isIndex with ⟨wasIndex, keeping⟩
    rcases valid.supported other index wasIndex with ⟨holder, isHolder, columns⟩
    by_cases same : index.table = name
    · cases isTable.symm.trans (same ▸ isHolder)
      refine ⟨table', by simp [Schema.keepIndexes, Schema.setTable, same], ?_⟩
      intro column columnMem
      exact (kept index same keeping column columnMem (columns column columnMem)).1
    · refine ⟨holder, ?_, columns⟩
      simpa [Schema.keepIndexes, Schema.setTable, Function.update_of_ne same] using isHolder
  absent other missing := by
    by_cases same : other = name
    · simp [Schema.keepIndexes, Schema.setTable, same] at missing
    · simp only [Schema.keepIndexes, Schema.setTable, Function.update_of_ne same] at missing
      simpa [Function.update_of_ne same] using valid.absent other missing
  admitted other holder isHolder row rowMem := by
    by_cases same : other = name
    · subst same
      simp only [Schema.keepIndexes, Schema.setTable, Function.update_self,
        Option.some.injEq] at isHolder rowMem
      subst isHolder
      rcases List.mem_map.mp rowMem with ⟨before, beforeMem, rfl⟩
      exact admits before beforeMem (valid.admitted other table isTable before beforeMem)
    · simp only [Schema.keepIndexes, Schema.setTable, Function.update_of_ne same] at isHolder rowMem
      exact valid.admitted other holder isHolder row rowMem
  keyed other holder isHolder := by
    by_cases same : other = name
    · subst same
      simp only [Schema.keepIndexes, Schema.setTable, Function.update_self,
        Option.some.injEq] at isHolder ⊢
      exact isHolder ▸ keyed
    · simp only [Schema.keepIndexes, Schema.setTable, Function.update_of_ne same] at isHolder ⊢
      exact valid.keyed other holder isHolder
  indexed other index isIndex := by
    rcases Option.filter_eq_some_iff.mp isIndex with ⟨wasIndex, keeping⟩
    have held := valid.indexed other index wasIndex
    rcases valid.supported other index wasIndex with ⟨holder, isHolder, columns⟩
    by_cases same : index.table = name
    · cases isTable.symm.trans (same ▸ isHolder)
      rw [same] at held
      simp only [same, Function.update_self]
      refine (Index.holds_map fun row _ column columnMem => ?_).mpr held
      exact (kept index same keeping column columnMem (columns column columnMem)).2 row
    · simpa [Function.update_of_ne same] using held

theorem dropTable (valid : database.Valid) (name : voc.TableName) :
    Database.Valid ⟨(database.schema.setTable name none).keepIndexes fun index =>
      index.table ≠ name, Function.update database.rows name []⟩ where
  supported other index isIndex := by
    rcases Option.filter_eq_some_iff.mp isIndex with ⟨wasIndex, keeping⟩
    rcases valid.supported other index wasIndex with ⟨holder, isHolder, columns⟩
    have different : index.table ≠ name := by simpa using keeping
    refine ⟨holder, ?_, columns⟩
    simpa [Schema.keepIndexes, Schema.setTable, Function.update_of_ne different] using isHolder
  absent other missing := by
    by_cases same : other = name
    · simp [same]
    · simp only [Schema.keepIndexes, Schema.setTable, Function.update_of_ne same] at missing
      simpa [Function.update_of_ne same] using valid.absent other missing
  admitted other holder isHolder row rowMem := by
    by_cases same : other = name
    · simp [Schema.keepIndexes, Schema.setTable, same] at isHolder
    · simp only [Schema.keepIndexes, Schema.setTable, Function.update_of_ne same] at isHolder rowMem
      exact valid.admitted other holder isHolder row rowMem
  keyed other holder isHolder := by
    by_cases same : other = name
    · simp [Schema.keepIndexes, Schema.setTable, same] at isHolder
    · simp only [Schema.keepIndexes, Schema.setTable, Function.update_of_ne same] at isHolder ⊢
      exact valid.keyed other holder isHolder
  indexed other index isIndex := by
    rcases Option.filter_eq_some_iff.mp isIndex with ⟨wasIndex, keeping⟩
    have different : index.table ≠ name := by simpa using keeping
    simpa [Function.update_of_ne different] using valid.indexed other index wasIndex

theorem createTable (valid : database.Valid) {name : voc.TableName} (table : Table voc)
    (missing : database.schema.tables name = none) :
    Database.Valid ⟨database.schema.setTable name (some table), database.rows⟩ where
  supported other index isIndex := by
    rcases valid.supported other index isIndex with ⟨holder, isHolder, columns⟩
    have different : index.table ≠ name := by
      rintro same
      cases (same ▸ isHolder).symm.trans missing
    refine ⟨holder, ?_, columns⟩
    simpa [Schema.setTable, Function.update_of_ne different] using isHolder
  absent other stillMissing := by
    by_cases same : other = name
    · exact same ▸ valid.absent name missing
    · simp only [Schema.setTable, Function.update_of_ne same] at stillMissing
      exact valid.absent other stillMissing
  admitted other holder isHolder row rowMem := by
    by_cases same : other = name
    · simp [same, valid.absent name missing] at rowMem
    · simp only [Schema.setTable, Function.update_of_ne same] at isHolder
      exact valid.admitted other holder isHolder row rowMem
  keyed other holder isHolder := by
    by_cases same : other = name
    · simp [same, valid.absent name missing, Distinct]
    · simp only [Schema.setTable, Function.update_of_ne same] at isHolder
      exact valid.keyed other holder isHolder
  indexed := valid.indexed

variable [DecidableEq voc.ColumnName]

theorem addColumn (valid : database.Valid) {name : voc.TableName} {table : Table voc}
    (isTable : database.schema.tables name = some table) {column : Column voc}
    (new : column.name ∉ table.names)
    (filled : column.nullable = false → column.default = none → database.rows name = []) :
    Database.Valid ⟨database.schema.setTable name (some (table.addColumn column)),
      database.rows.setColumn name column.name column.default⟩ := by
  have other : ∀ name ∈ table.names, name ≠ column.name := by
    rintro name nameMem rfl
    exact new nameMem
  have reshaped : Database.Valid ⟨(database.schema.setTable name
      (some (table.addColumn column))).keepIndexes fun _ => true,
      database.rows.setColumn name column.name column.default⟩ := by
    refine valid.reshape isTable ?_ ?_ ?_
    · intro row rowMem admits
      refine ⟨?_, ?_, ?_⟩
      · intro among amongMem value isValue
        rcases List.mem_append.mp amongMem with old | added
        · rw [Function.update_of_ne (other _ (Table.name_mem_names old))] at isValue
          exact admits.values among old value isValue
        · cases List.mem_singleton.mp added
          rw [Function.update_self] at isValue
          exact column.fits value isValue
      · intro among amongMem required
        rcases List.mem_append.mp amongMem with old | added
        · rw [Function.update_of_ne (other _ (Table.name_mem_names old))]
          exact admits.notNull among old required
        · cases List.mem_singleton.mp added
          rw [Function.update_self]
          refine Option.isSome_iff_ne_none.mpr fun noDefault => ?_
          simp [filled required noDefault] at rowMem
      · intro name nameNotMem
        rw [Table.names_addColumn, List.mem_append, not_or, List.mem_singleton] at nameNotMem
        rw [Function.update_of_ne nameNotMem.2]
        exact admits.absent name nameNotMem.1
    · refine (distinct_map fun row _ name nameMem => ?_).mpr (valid.keyed name table isTable)
      exact Function.update_of_ne (other name (table.keyed name nameMem)) _ _
    · intro index _ _ name _ nameMem
      rw [Table.names_addColumn]
      exact ⟨List.mem_append_left _ nameMem,
        fun row => Function.update_of_ne (other name nameMem) _ _⟩
  simpa using reshaped

theorem dropDefault (valid : database.Valid) {name : voc.TableName} {table : Table voc}
    (isTable : database.schema.tables name = some table) (column : voc.ColumnName) :
    Database.Valid ⟨database.schema.setTable name (some (table.dropDefault column)),
      database.rows⟩ := by
  have reshaped : Database.Valid ⟨(database.schema.setTable name
      (some (table.dropDefault column))).keepIndexes fun _ => true,
      Function.update database.rows name ((database.rows name).map fun row => row)⟩ := by
    refine valid.reshape isTable ?_ ?_ ?_
    · intro row _ admits
      refine ⟨?_, ?_, ?_⟩
      · intro among amongMem
        rcases List.mem_map.mp amongMem with ⟨old, oldMem, rfl⟩
        have values := admits.values old oldMem
        split <;> exact values
      · intro among amongMem
        rcases List.mem_map.mp amongMem with ⟨old, oldMem, rfl⟩
        have notNull := admits.notNull old oldMem
        split <;> exact notNull
      · intro name nameNotMem
        exact admits.absent name (by simpa using nameNotMem)
    · simpa [Table.dropDefault] using valid.keyed name table isTable
    · intro index _ _ name _ nameMem
      exact ⟨by simpa using nameMem, fun _ => rfl⟩
  simpa using reshaped

theorem dropColumn (valid : database.Valid) {name : voc.TableName} {table : Table voc}
    (isTable : database.schema.tables name = some table) (column : voc.ColumnName) :
    Database.Valid ⟨(database.schema.setTable name (some (table.dropColumn column))).keepIndexes
      fun index => ¬ (index.table = name ∧ column ∈ index.mentioned),
      database.rows.setColumn name column none⟩ := by
  refine valid.reshape isTable ?_ ?_ ?_
  · intro row _ admits
    refine ⟨?_, ?_, ?_⟩
    · intro among amongMem value isValue
      rcases List.mem_filter.mp amongMem with ⟨old, different⟩
      rw [Function.update_of_ne (by simpa using different)] at isValue
      exact admits.values among old value isValue
    · intro among amongMem required
      rcases List.mem_filter.mp amongMem with ⟨old, different⟩
      rw [Function.update_of_ne (by simpa using different)]
      exact admits.notNull among old required
    · intro name nameNotMem
      by_cases same : name = column
      · rw [same, Function.update_self]
      · rw [Function.update_of_ne same]
        exact admits.absent name fun nameMem =>
          nameNotMem (Table.mem_names_dropColumn.mpr ⟨nameMem, same⟩)
  · by_cases inKey : column ∈ table.primaryKey
    · simp [Table.dropColumn, inKey, Distinct, Clash, List.pairwise_of_forall]
    · have sameKey : (table.dropColumn column).primaryKey = table.primaryKey := if_neg inKey
      rw [sameKey]
      refine (distinct_map fun row _ name nameMem => ?_).mpr (valid.keyed name table isTable)
      refine Function.update_of_ne ?_ _ _
      rintro rfl
      exact inKey nameMem
  · intro index ofTable keeping name nameMem nameOf
    have different : name ≠ column := by
      rintro rfl
      simp [ofTable, nameMem] at keeping
    exact ⟨Table.mem_names_dropColumn.mpr ⟨nameOf, different⟩,
      fun row => Function.update_of_ne different _ _⟩

variable [DecidableEq voc.IndexName] [DecidableEq voc.Value] [Storage voc]

/-- A statement that is not refused keeps the constraints, whatever it changes. -/
theorem execute (valid : database.Valid) {statement : Statement voc}
    (executed : statement.execute database = .ok next) : next.Valid := by
  rcases database with ⟨schema, rows⟩
  rcases next with ⟨schema', rows'⟩
  rcases Statement.execute_eq_ok.mp executed with ⟨altered, unobjected, rfl⟩
  simp only at altered unobjected
  cases statement with
  | createTable name table =>
      simp only [Statement.alter] at altered
      split at altered
      · cases altered
        exact valid
      · rename_i missing
        cases altered
        exact valid.createTable table missing
  | dropTable name =>
      cases altered
      exact valid.dropTable name
  | addColumn name column =>
      simp only [Statement.alter] at altered
      split at altered
      · cases altered
      · rename_i table isTable
        have isColumn : schema.hasColumn name column.name = decide (column.name ∈ table.names) := by
          simp [Schema.hasColumn, isTable]
        split at altered
        · rename_i old
          cases altered
          simpa [Statement.convert, isColumn, old] using valid
        · rename_i new
          cases altered
          simp only [Statement.convert, isColumn, new, decide_false, Bool.false_eq_true, if_false]
          refine valid.addColumn isTable new fun required noDefault => ?_
          simpa [Statement.objection, isColumn, new, required, noDefault] using unobjected
  | dropDefault name column =>
      simp only [Statement.alter] at altered
      split at altered
      · cases altered
      · rename_i table isTable
        split at altered
        · cases altered
          exact valid.dropDefault isTable column
        · cases altered
  | dropColumn name column =>
      simp only [Statement.alter] at altered
      split at altered
      · cases altered
      · rename_i table isTable
        cases altered
        exact valid.dropColumn isTable column
  | createIndex name index =>
      simp only [Statement.alter] at altered
      split at altered
      · cases altered
      · rename_i table isTable
        split at altered
        · cases altered
        · rename_i columns
          split at altered
          · cases altered
            exact valid
          · rename_i missing
            cases altered
            refine valid.createIndex isTable ?_ ?_
            · simpa using columns
            · have taken : index.Holds (rows index.table) ∧ index.Fits (rows index.table) := by
                simpa [Statement.objection, missing] using unobjected
              exact taken.1
  | dropIndex name =>
      cases altered
      exact valid.dropIndex name

theorem run (valid : database.Valid) {statements : List (Statement voc)}
    (ran : Ddl.run database statements = .ok next) : next.Valid := by
  induction statements generalizing database with
  | nil =>
      cases ran
      exact valid
  | cons statement statements ih =>
      rw [run_cons] at ran
      cases executed : statement.execute database with
      | error refusal =>
          rw [executed] at ran
          cases ran
      | ok between =>
          rw [executed] at ran
          exact ih (valid.execute executed) ran

end Database.Valid

section Stored

/-- Rows that an index does not tell from others. -/
def Index.SameEntries (index : Index voc) (rows rows' : List (Row voc)) : Prop :=
  ∃ converted : Row voc → Row voc, rows' = rows.map converted ∧
    ∀ row, ∀ column ∈ index.mentioned, converted row column = row column

theorem Index.SameEntries.refl (index : Index voc) (rows : List (Row voc)) :
    index.SameEntries rows rows :=
  ⟨id, (List.map_id rows).symm, fun _ _ _ => rfl⟩

variable [DecidableEq voc.TableName] [DecidableEq voc.ColumnName]

theorem Index.sameEntries_setColumn {index : Index voc} {table : voc.TableName}
    {column : voc.ColumnName} (unseen : index.table = table → column ∉ index.mentioned)
    (rows : Rows voc) (value : Option voc.Value) :
    index.SameEntries (rows index.table) (rows.setColumn table column value index.table) := by
  by_cases same : index.table = table
  · refine ⟨fun row => Function.update row column value, ?_, fun row among amongMem => ?_⟩
    · rw [same, Rows.setColumn, Function.update_self]
    · refine Function.update_of_ne ?_ _ _
      rintro rfl
      exact unseen same amongMem
  · rw [Rows.setColumn, Function.update_of_ne same]
    exact .refl index _

variable [DecidableEq voc.IndexName]

/-- An index is made by one kind of statement, and kept by the others where they do not take away
what it is over. -/
theorem Statement.index_of_alter {schema schema' : Schema voc} {statement : Statement voc}
    (altered : statement.alter schema = .ok schema') {name : voc.IndexName} {index : Index voc}
    (isIndex : schema'.indexes name = some index) :
    schema.indexes name = some index ∨
      schema.indexes name = none ∧ statement = .createIndex name index := by
  cases statement with
  | createTable table definition =>
      simp only [alter] at altered
      split at altered <;> cases altered <;> exact .inl isIndex
  | dropTable table =>
      cases altered
      exact .inl (Option.filter_eq_some_iff.mp isIndex).1
  | addColumn table column =>
      simp only [alter] at altered
      repeat' split at altered
      all_goals cases altered
      all_goals exact .inl isIndex
  | dropDefault table column =>
      simp only [alter] at altered
      repeat' split at altered
      all_goals cases altered
      exact .inl isIndex
  | dropColumn table column =>
      simp only [alter] at altered
      split at altered
      · cases altered
      · cases altered
        exact .inl (Option.filter_eq_some_iff.mp isIndex).1
  | createIndex created definition =>
      simp only [alter] at altered
      repeat' split at altered
      all_goals cases altered
      · exact .inl isIndex
      · rename_i missing
        by_cases same : name = created
        · subst same
          simp only [Schema.setIndex, Function.update_self, Option.some.injEq] at isIndex
          exact .inr ⟨missing, by rw [isIndex]⟩
        · simp only [Schema.setIndex, Function.update_of_ne same] at isIndex
          exact .inl isIndex
  | dropIndex dropped =>
      cases altered
      by_cases same : name = dropped
      · simp [Schema.setIndex, same] at isIndex
      · simp only [Schema.setIndex, Function.update_of_ne same] at isIndex
        exact .inl isIndex

/-- An index that is kept sees the rows as they were. -/
theorem Statement.sameEntries_convert (valid : database.Valid) {schema' : Schema voc}
    {statement : Statement voc} (altered : statement.alter database.schema = .ok schema')
    {name : voc.IndexName} {index : Index voc}
    (wasIndex : database.schema.indexes name = some index)
    (isIndex : schema'.indexes name = some index) :
    index.SameEntries (database.rows index.table)
      (statement.convert database.schema database.rows index.table) := by
  cases statement with
  | createTable table definition => exact .refl index _
  | dropDefault table column => exact .refl index _
  | createIndex created definition => exact .refl index _
  | dropIndex dropped => exact .refl index _
  | dropTable table =>
      cases altered
      have different : index.table ≠ table := by
        simpa using (Option.filter_eq_some_iff.mp isIndex).2
      rw [convert, Function.update_of_ne different]
      exact .refl index _
  | addColumn table column =>
      rw [convert]
      split
      · exact .refl index _
      · rename_i new
        refine Index.sameEntries_setColumn ?_ _ _
        rintro rfl columnMem
        rcases valid.supported name index wasIndex with ⟨holder, isHolder, columns⟩
        exact new (by simp [Schema.hasColumn, isHolder, columns _ columnMem])
  | dropColumn table column =>
      refine Index.sameEntries_setColumn ?_ _ _
      rintro rfl columnMem
      simp only [alter] at altered
      split at altered
      · cases altered
      · cases altered
        simpa [columnMem] using (Option.filter_eq_some_iff.mp isIndex).2

variable [DecidableEq voc.Value] [Storage voc]

/-- A statement that is not refused leaves every entry short enough. -/
theorem Database.Stored.execute (stored : database.Stored) (valid : database.Valid)
    {statement : Statement voc} (executed : statement.execute database = .ok next) :
    next.Stored := by
  rcases Statement.execute_eq_ok.mp executed with ⟨altered, unobjected, converted⟩
  intro name index isIndex
  rcases Statement.index_of_alter altered isIndex with wasIndex | ⟨missing, rfl⟩
  · rcases Statement.sameEntries_convert valid altered wasIndex isIndex with ⟨_, isMap, same⟩
    rw [converted, isMap, Index.fits_map fun row _ => same row]
    exact stored name index wasIndex
  · have taken : index.Holds (database.rows index.table) ∧ index.Fits (database.rows index.table) :=
      by simpa [Statement.objection, missing] using unobjected
    rw [converted]
    exact taken.2

theorem Database.Stored.run (stored : database.Stored) (valid : database.Valid)
    {statements : List (Statement voc)} (ran : Ddl.run database statements = .ok next) :
    next.Stored := by
  induction statements generalizing database with
  | nil =>
      cases ran
      exact stored
  | cons statement statements ih =>
      rw [run_cons] at ran
      cases executed : statement.execute database with
      | error refusal =>
          rw [executed] at ran
          cases ran
      | ok between =>
          rw [executed] at ran
          exact ih (stored.execute valid executed) (valid.execute executed) ran

end Stored

end Ddl
