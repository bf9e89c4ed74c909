import Mathlib.Data.List.Nodup
import Mathlib.Data.List.Basic
import Mathlib.Tactic.Common

/-!
# Tables with a key

A table holds its rows in insertion order, and no two rows share a key. Writing
a row replaces the row with its key where it stands, or is appended when there
is none: the meaning of an insertion-ordered map's `set`, and of an upsert by
primary key.
-/

/-- Rows in insertion order, at most one for each key. -/
@[ext]
structure KeyedTable {ρ κ : Type} (key : ρ → κ) where
  rows : List ρ
  keys_nodup : (rows.map key).Nodup

namespace KeyedTable

variable {ρ κ : Type} {key : ρ → κ}

instance : Membership ρ (KeyedTable key) where
  mem table row := row ∈ table.rows

theorem mem_def {table : KeyedTable key} {row : ρ} : row ∈ table ↔ row ∈ table.rows := Iff.rfl

/-- The table without rows. -/
def empty : KeyedTable key := ⟨[], List.nodup_nil⟩

instance : Inhabited (KeyedTable key) := ⟨empty⟩

@[simp]
theorem rows_empty : (empty : KeyedTable key).rows = [] := rfl

@[simp]
theorem not_mem_empty (row : ρ) : row ∉ (empty : KeyedTable key) := by
  simp [mem_def]

instance [DecidableEq ρ] : DecidableEq (KeyedTable key) := fun left right =>
  decidable_of_iff (left.rows = right.rows) KeyedTable.ext_iff.symm

theorem eq_of_key_eq {table : KeyedTable key} {left right : ρ} (leftMem : left ∈ table)
    (rightMem : right ∈ table) (same : key left = key right) : left = right :=
  List.inj_on_of_nodup_map table.keys_nodup leftMem rightMem same

variable [DecidableEq κ]

/-- The row with a key. -/
def find? (table : KeyedTable key) (k : κ) : Option ρ :=
  table.rows.find? fun row => key row = k

theorem find?_eq_some_iff {table : KeyedTable key} {k : κ} {row : ρ} :
    table.find? k = some row ↔ row ∈ table ∧ key row = k := by
  constructor
  · intro found
    exact ⟨List.mem_of_find?_eq_some found, by simpa using List.find?_some found⟩
  · rintro ⟨rowMem, rfl⟩
    cases found : table.find? (key row) with
    | none =>
        have absent := List.find?_eq_none.mp found row rowMem
        simp at absent
    | some other =>
        have otherMem : other ∈ table := List.mem_of_find?_eq_some found
        have sameKey : key other = key row := by simpa using List.find?_some found
        rw [eq_of_key_eq otherMem rowMem sameKey]

theorem find?_eq_none_iff {table : KeyedTable key} {k : κ} :
    table.find? k = none ↔ ∀ row ∈ table, key row ≠ k := by
  simp [find?, mem_def]

theorem find?_key {table : KeyedTable key} {row : ρ} (rowMem : row ∈ table) :
    table.find? (key row) = some row :=
  find?_eq_some_iff.mpr ⟨rowMem, rfl⟩

theorem key_of_find? {table : KeyedTable key} {k : κ} {row : ρ}
    (found : table.find? k = some row) : key row = k :=
  (find?_eq_some_iff.mp found).2

theorem mem_of_find? {table : KeyedTable key} {k : κ} {row : ρ}
    (found : table.find? k = some row) : row ∈ table :=
  (find?_eq_some_iff.mp found).1

private def replaceRow (key : ρ → κ) (row other : ρ) : ρ :=
  if key other = key row then row else other

private theorem key_replaceRow (row other : ρ) :
    key (replaceRow key row other) = key other := by
  by_cases same : key other = key row <;> simp [replaceRow, same]

/-- The rows after `row` is written. -/
def upsertRows (key : ρ → κ) (rows : List ρ) (row : ρ) : List ρ :=
  if key row ∈ rows.map key then
    rows.map fun other => if key other = key row then row else other
  else
    rows ++ [row]

theorem upsertRows_nodup {rows : List ρ} (nodup : (rows.map key).Nodup) (row : ρ) :
    ((upsertRows key rows row).map key).Nodup := by
  unfold upsertRows
  split
  · have sameKeys : (rows.map (replaceRow key row)).map key = rows.map key := by
      simp only [List.map_map]
      exact List.map_congr_left fun other _ => key_replaceRow row other
    rw [show (fun other => if key other = key row then row else other) =
      replaceRow key row from rfl, sameKeys]
    exact nodup
  · rename_i absent
    simp only [List.map_append, List.map_cons, List.map_nil]
    refine List.nodup_append.mpr ⟨nodup, List.nodup_singleton _, ?_⟩
    rintro k kMem other otherMem rfl
    rw [List.mem_singleton.mp otherMem] at kMem
    exact absent kMem

/-- Write a row under its key. -/
def upsert (table : KeyedTable key) (row : ρ) : KeyedTable key :=
  ⟨upsertRows key table.rows row, upsertRows_nodup table.keys_nodup row⟩

theorem length_upsert_of_mem {table : KeyedTable key} {row other : ρ} (otherMem : other ∈ table)
    (same : key other = key row) : (table.upsert row).rows.length = table.rows.length := by
  have replaces : key row ∈ table.rows.map key := List.mem_map.mpr ⟨other, otherMem, same⟩
  simp only [upsert, upsertRows, replaces, if_true, List.length_map]

theorem mem_upsert {table : KeyedTable key} {row other : ρ} :
    other ∈ table.upsert row ↔ other = row ∨ (other ∈ table ∧ key other ≠ key row) := by
  simp only [mem_def, upsert, upsertRows]
  split
  · rename_i present
    simp only [List.mem_map] at present
    constructor
    · intro otherMem
      obtain ⟨source, sourceMem, rfl⟩ := List.mem_map.mp otherMem
      by_cases same : key source = key row
      · simp [same]
      · exact .inr (by simpa [same] using sourceMem)
    · rintro (rfl | ⟨otherMem, different⟩)
      · obtain ⟨source, sourceMem, same⟩ := present
        exact List.mem_map.mpr ⟨source, sourceMem, by simp [same]⟩
      · exact List.mem_map.mpr ⟨other, otherMem, by simp [different]⟩
  · rename_i absent
    simp only [List.mem_append, List.mem_singleton]
    constructor
    · rintro (otherMem | rfl)
      · exact .inr ⟨otherMem, fun same => absent (same ▸ List.mem_map_of_mem otherMem)⟩
      · exact .inl rfl
    · rintro (rfl | ⟨otherMem, _⟩)
      · exact .inr rfl
      · exact .inl otherMem

theorem find?_upsert (table : KeyedTable key) (row : ρ) (k : κ) :
    (table.upsert row).find? k = if key row = k then some row else table.find? k := by
  split
  · rename_i same
    exact find?_eq_some_iff.mpr ⟨mem_upsert.mpr (.inl rfl), same⟩
  · rename_i different
    apply Option.ext
    intro other
    simp only [find?_eq_some_iff, mem_upsert]
    constructor
    · rintro ⟨rfl | ⟨otherMem, _⟩, same⟩
      · exact absurd same different
      · exact ⟨otherMem, same⟩
    · rintro ⟨otherMem, rfl⟩
      exact ⟨.inr ⟨otherMem, fun same => different same.symm⟩, rfl⟩

@[simp]
theorem find?_upsert_self (table : KeyedTable key) (row : ρ) :
    (table.upsert row).find? (key row) = some row := by
  simp [find?_upsert]

theorem find?_upsert_of_ne (table : KeyedTable key) {row : ρ} {k : κ} (different : key row ≠ k) :
    (table.upsert row).find? k = table.find? k := by
  simp [find?_upsert, different]

/-- A row with a new key is appended. -/
theorem rows_upsert_of_find?_none {table : KeyedTable key} {row : ρ}
    (absent : table.find? (key row) = none) :
    (table.upsert row).rows = table.rows ++ [row] := by
  have notMem : key row ∉ table.rows.map key := by
    rw [find?_eq_none_iff] at absent
    intro present
    obtain ⟨other, otherMem, same⟩ := List.mem_map.mp present
    exact absent other otherMem same
  simp [upsert, upsertRows, notMem]

section Map

variable {ρ' κ' : Type} {key' : ρ' → κ'} [DecidableEq κ'] {f : ρ → ρ'} {g : κ → κ'}

/-- A table whose rows are the images of another's, under the images of their keys, is read like
the other one. -/
theorem find?_map (injective : Function.Injective g) (keys : ∀ row, key' (f row) = g (key row))
    {table : KeyedTable key} {image : KeyedTable key'} (rows : image.rows = table.rows.map f)
    (k : κ) : image.find? (g k) = (table.find? k).map f := by
  have same : (fun row : ρ => decide (key' (f row) = g k)) = fun row => decide (key row = k) := by
    funext row
    simp [keys, injective.eq_iff]
  rw [find?, find?, rows, List.find?_map, Function.comp_def, same]

/-- It is also written like the other one. -/
theorem rows_upsert_map (injective : Function.Injective g)
    (keys : ∀ row, key' (f row) = g (key row)) {table : KeyedTable key} {image : KeyedTable key'}
    (rows : image.rows = table.rows.map f) (row : ρ) :
    (image.upsert (f row)).rows = (table.upsert row).rows.map f := by
  have present : key' (f row) ∈ (table.rows.map f).map key' ↔ key row ∈ table.rows.map key := by
    simp [keys, injective.eq_iff]
  simp only [upsert, upsertRows, rows, present]
  split
  · simp only [List.map_map]
    refine List.map_congr_left fun other _ => ?_
    by_cases same : key other = key row
    · simp [keys, same]
    · simp [keys, same, injective.eq_iff]
  · simp

end Map

section Filter

variable {selects : ρ → Bool} {table part : KeyedTable key}

/-- A table of the rows a predicate selects from another is read as the other, filtered. -/
theorem find?_of_filter (rows : part.rows = table.rows.filter selects) (k : κ) :
    part.find? k = (table.find? k).filter selects := by
  apply Option.ext
  intro row
  rw [Option.filter_eq_some_iff]
  simp only [find?_eq_some_iff, mem_def, rows, List.mem_filter]
  tauto

/-- Writing a selected row, in place of a selected one if it replaces any. -/
theorem rows_upsert_of_selected (rows : part.rows = table.rows.filter selects) {row : ρ}
    (selected : selects row = true)
    (replaced : ∀ other ∈ table, key other = key row → selects other = true) :
    (part.upsert row).rows = (table.upsert row).rows.filter selects := by
  have present : key row ∈ part.rows.map key ↔ key row ∈ table.rows.map key := by
    simp only [rows, List.mem_map, List.mem_filter]
    constructor
    · rintro ⟨other, ⟨otherMem, _⟩, same⟩
      exact ⟨other, otherMem, same⟩
    · rintro ⟨other, otherMem, same⟩
      exact ⟨other, ⟨otherMem, replaced other otherMem same⟩, same⟩
  simp only [upsert, upsertRows, present]
  split
  · rw [rows, List.filter_map]
    congr 1
    refine List.filter_congr fun other otherMem => ?_
    by_cases same : key other = key row
    · simp [same, selected, replaced other otherMem same]
    · simp [same]
  · simp [rows, selected, List.filter_append]

/-- Writing a row that is not selected, in place of none that is. -/
theorem filter_rows_upsert_of_not_selected {row : ρ} (skipped : selects row = false)
    (replaced : ∀ other ∈ table, key other = key row → selects other = false) :
    (table.upsert row).rows.filter selects = table.rows.filter selects := by
  simp only [upsert, upsertRows]
  split
  · rw [List.filter_map]
    have same : table.rows.filter (selects ∘ fun other =>
        if key other = key row then row else other) = table.rows.filter selects := by
      refine List.filter_congr fun other otherMem => ?_
      by_cases same : key other = key row
      · simp [same, skipped, replaced other otherMem same]
      · simp [same]
    rw [same]
    refine (List.map_congr_left fun other otherMem => ?_).trans (List.map_id _)
    rcases List.mem_filter.mp otherMem with ⟨stored, selected⟩
    have different : key other ≠ key row := by
      intro same
      rw [replaced other stored same] at selected
      cases selected
    simp [different]
  · simp [skipped, List.filter_append]

end Filter
end KeyedTable
