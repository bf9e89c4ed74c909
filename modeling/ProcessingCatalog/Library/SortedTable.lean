import Mathlib.Data.List.Nodup
import Mathlib.Order.Lattice
import Mathlib.Tactic.Common

/-!
# Tables in key order

A table read in the order of its key. Rows may be inserted in any order, as
when a sequence hands out keys to transactions that commit in another order;
the table keeps them sorted, so a scan of the rows a predicate selects is the
selected rows in key order.
-/

/-- Rows in strictly increasing order of their keys. -/
@[ext]
structure SortedTable {ρ κ : Type} [LinearOrder κ] (key : ρ → κ) where
  rows : List ρ
  sorted : rows.Pairwise fun left right => key left < key right

namespace SortedTable

variable {ρ κ : Type} [LinearOrder κ] {key : ρ → κ}

instance : Membership ρ (SortedTable key) where
  mem table row := row ∈ table.rows

theorem mem_def {table : SortedTable key} {row : ρ} : row ∈ table ↔ row ∈ table.rows := Iff.rfl

/-- The table without rows. -/
def empty : SortedTable key := ⟨[], List.Pairwise.nil⟩

instance : Inhabited (SortedTable key) := ⟨empty⟩

@[simp]
theorem rows_empty : (empty : SortedTable key).rows = [] := rfl

@[simp]
theorem not_mem_empty (row : ρ) : row ∉ (empty : SortedTable key) := by
  simp [mem_def]

instance [DecidableEq ρ] : DecidableEq (SortedTable key) := fun left right =>
  decidable_of_iff (left.rows = right.rows) SortedTable.ext_iff.symm

/-- Insert a row where its key belongs, in place of a row with the same key. -/
def insert (table : SortedTable key) (row : ρ) : SortedTable key where
  rows := (table.rows.filter fun other => key other < key row) ++
    row :: table.rows.filter fun other => key row < key other
  sorted := by
    refine List.pairwise_append.mpr ⟨table.sorted.filter _, ?_, ?_⟩
    · refine List.pairwise_cons.mpr ⟨?_, table.sorted.filter _⟩
      intro other otherMem
      simpa using (List.mem_filter.mp otherMem).2
    · intro left leftMem right rightMem
      have below : key left < key row := by simpa using (List.mem_filter.mp leftMem).2
      rcases List.mem_cons.mp rightMem with rfl | above
      · exact below
      · exact below.trans (by simpa using (List.mem_filter.mp above).2)

theorem mem_insert {table : SortedTable key} {row other : ρ} :
    other ∈ table.insert row ↔ other = row ∨ (other ∈ table ∧ key other ≠ key row) := by
  simp only [mem_def, insert, List.mem_append, List.mem_cons, List.mem_filter, decide_eq_true_eq,
    ne_eq]
  constructor
  · rintro (⟨otherMem, below⟩ | rfl | ⟨otherMem, above⟩)
    · exact .inr ⟨otherMem, below.ne⟩
    · exact .inl rfl
    · exact .inr ⟨otherMem, above.ne'⟩
  · rintro (rfl | ⟨otherMem, different⟩)
    · exact .inr (.inl rfl)
    · rcases lt_or_gt_of_ne different with below | above
      · exact .inl ⟨otherMem, below⟩
      · exact .inr (.inr ⟨otherMem, above⟩)

/-- Sorted rows are those below an unused key followed by those above it. -/
private theorem filter_lt_append_filter_gt {k : κ} {rows : List ρ}
    (sorted : rows.Pairwise fun left right => key left < key right)
    (unused : ∀ other ∈ rows, key other ≠ k) :
    (rows.filter fun other => key other < k) ++ (rows.filter fun other => k < key other) =
      rows := by
  induction rows with
  | nil => rfl
  | cons first rest ih =>
      have ⟨firstLess, restSorted⟩ := List.pairwise_cons.mp sorted
      have restUnused : ∀ other ∈ rest, key other ≠ k :=
        fun other otherMem => unused other (List.mem_cons_of_mem _ otherMem)
      rcases lt_or_gt_of_ne (unused first List.mem_cons_self) with below | above
      · simp only [List.filter_cons, below, not_lt_of_gt below, decide_true, decide_false,
          if_true, List.cons_append]
        exact congrArg (first :: ·) (ih restSorted restUnused)
      · have allAbove : ∀ other ∈ first :: rest, k < key other := by
          intro other otherMem
          rcases List.mem_cons.mp otherMem with rfl | otherRest
          · exact above
          · exact above.trans (firstLess other otherRest)
        rw [List.filter_eq_nil_iff.mpr fun other otherMem => by
            simpa using (allAbove other otherMem).le,
          List.filter_eq_self.mpr fun other otherMem => by
            simpa using allAbove other otherMem, List.nil_append]

/-- A row with a new key is one more row. -/
theorem rows_insert_perm {table : SortedTable key} {row : ρ}
    (fresh : ∀ other ∈ table, key other ≠ key row) :
    (table.insert row).rows.Perm (table.rows ++ [row]) := by
  have same := filter_lt_append_filter_gt table.sorted fresh
  refine List.perm_middle.trans ?_
  rw [same]
  exact (List.perm_append_singleton row table.rows).symm

/-- A scan that does not select the new row does not see it. -/
theorem filter_insert_of_not {table : SortedTable key} {row : ρ} {selects : ρ → Bool}
    (skipped : selects row = false) (fresh : ∀ other ∈ table, key other ≠ key row) :
    (table.insert row).rows.filter selects = table.rows.filter selects := by
  calc (table.insert row).rows.filter selects
      = ((table.rows.filter fun other => key other < key row) ++
          (table.rows.filter fun other => key row < key other)).filter selects := by
        simp [insert, skipped]
    _ = table.rows.filter selects := by rw [filter_lt_append_filter_gt table.sorted fresh]

/-- A selected row whose key is above all selected rows comes last in the scan. -/
theorem filter_insert_of_last {table : SortedTable key} {row : ρ} {selects : ρ → Bool}
    (selected : selects row = true)
    (last : ∀ other ∈ table, selects other = true → key other < key row) :
    (table.insert row).rows.filter selects = table.rows.filter selects ++ [row] := by
  have below : (table.rows.filter fun other => key other < key row).filter selects =
      table.rows.filter selects := by
    rw [List.filter_filter]
    refine List.filter_congr fun other otherMem => ?_
    cases chosen : selects other with
    | false => simp
    | true => simpa using last other otherMem chosen
  have above : (table.rows.filter fun other => key row < key other).filter selects = [] := by
    rw [List.filter_filter]
    refine List.filter_eq_nil_iff.mpr fun other otherMem => ?_
    cases chosen : selects other with
    | false => simp
    | true => simpa using (last other otherMem chosen).le
  simp only [insert, List.filter_append, List.filter_cons, selected, if_true, below, above]

/-- Change rows without changing their keys. -/
def mapRows (table : SortedTable key) (change : ρ → ρ) (keeps : ∀ row, key (change row) = key row) :
    SortedTable key where
  rows := table.rows.map change
  sorted := List.pairwise_map.mpr (table.sorted.imp fun {left right} less => by
    simpa only [keeps] using less)

theorem mem_mapRows {table : SortedTable key} {change : ρ → ρ}
    {keeps : ∀ row, key (change row) = key row} {row : ρ} :
    row ∈ table.mapRows change keeps ↔ ∃ other ∈ table, change other = row := by
  simp [mem_def, mapRows]

/-- Rows below one of the first rows of a scan are among the first rows too. -/
theorem mem_take_of_key_lt {rows : List ρ}
    (sorted : rows.Pairwise fun left right => key left < key right) {count : ℕ} {row other : ρ}
    (rowMem : row ∈ rows.take count) (otherMem : other ∈ rows) (below : key other < key row) :
    other ∈ rows.take count := by
  rw [← List.take_append_drop count rows] at sorted otherMem
  rcases List.mem_append.mp otherMem with first | later
  · exact first
  · have above := (List.pairwise_append.mp sorted).2.2 row rowMem other later
    exact absurd above below.not_gt

/-- A row is among the first rows of a scan as soon as these outnumber the rows before it. -/
theorem mem_take_of_countP_le {rows : List ρ}
    (sorted : rows.Pairwise fun left right => key left < key right) {count : ℕ} {row : ρ}
    (rowMem : row ∈ rows) (enough : rows.countP (fun other => key other ≤ key row) ≤ count) :
    row ∈ rows.take count := by
  rw [← List.take_append_drop count rows] at sorted rowMem enough
  rcases List.mem_append.mp rowMem with first | later
  · exact first
  · rw [List.countP_append] at enough
    have all : (rows.take count).countP (fun other => key other ≤ key row) =
        (rows.take count).length := by
      refine List.countP_eq_length.mpr fun other otherMem => ?_
      simpa using ((List.pairwise_append.mp sorted).2.2 other otherMem row later).le
    have counted : 0 < (rows.drop count).countP (fun other => key other ≤ key row) :=
      List.countP_pos_iff.mpr ⟨row, later, by simp⟩
    have remains : 0 < (rows.drop count).length := List.length_pos_of_mem later
    simp only [List.length_take, List.length_drop] at all remains
    omega

/-- Without its first rows, a scan is the rest of it. -/
theorem filter_key_not_mem_take {rows : List ρ}
    (sorted : rows.Pairwise fun left right => key left < key right) (count : ℕ) :
    rows.filter (fun row => key row ∉ (rows.take count).map key) = rows.drop count := by
  have apart : ∀ row ∈ rows.take count, ∀ other ∈ rows.drop count, key row ≠ key other := by
    intro row rowMem other otherMem
    rw [← List.take_append_drop count rows] at sorted
    exact ((List.pairwise_append.mp sorted).2.2 row rowMem other otherMem).ne
  have first : (rows.take count).filter (fun row => key row ∉ (rows.take count).map key) = [] := by
    refine List.filter_eq_nil_iff.mpr fun row rowMem => ?_
    simp only [decide_eq_true_eq, not_not]
    exact List.mem_map_of_mem rowMem
  have later : (rows.drop count).filter (fun row => key row ∉ (rows.take count).map key) =
      rows.drop count := by
    refine List.filter_eq_self.mpr fun other otherMem => ?_
    simp only [decide_eq_true_eq]
    intro found
    rcases List.mem_map.mp found with ⟨row, rowMem, same⟩
    exact apart row rowMem other otherMem same
  calc rows.filter (fun row => key row ∉ (rows.take count).map key)
      = (rows.take count ++ rows.drop count).filter
          (fun row => key row ∉ (rows.take count).map key) := by
        rw [List.take_append_drop]
    _ = rows.drop count := by rw [List.filter_append, first, later, List.nil_append]

/-- Where a selected row has all rows before it selected, the selected rows come first. -/
theorem filter_initial {rows : List ρ} {selects : ρ → Bool}
    (closed : rows.Pairwise fun left right => selects right → selects left) :
    rows.filter selects <+: rows := by
  induction rows with
  | nil => exact List.prefix_refl _
  | cons first rest ih =>
      rcases List.pairwise_cons.mp closed with ⟨firstClosed, restClosed⟩
      cases chosen : selects first with
      | true =>
          rw [List.filter_cons_of_pos chosen]
          exact (List.prefix_cons_inj first).mpr (ih restClosed)
      | false =>
          have noneSelected : rest.filter selects = [] := by
            refine List.filter_eq_nil_iff.mpr fun other otherMem selected => ?_
            simp [firstClosed other otherMem selected] at chosen
          rw [List.filter_cons_of_neg (by simp [chosen]), noneSelected]
          exact List.nil_prefix

theorem eq_of_key_eq {table : SortedTable key} {left right : ρ} (leftMem : left ∈ table)
    (rightMem : right ∈ table) (same : key left = key right) : left = right :=
  List.inj_on_of_nodup_map (List.pairwise_map.mpr (table.sorted.imp fun less => less.ne))
    leftMem rightMem same

end SortedTable
