import ProcessingCatalog.Store.LedgerSteps
import Mathlib.Data.List.Induction

/-!
# Histories, and the ledger a database represents

A history performs operations one after another on a ledger. A database
represents a ledger when it has the same requests, the same recorded events and
the same outbox entries, those of one request in the same order; rows of
different requests may stand in another order than they were committed in,
because identifiers are handed out before the commit.
-/

namespace ProcessingCatalog

/-- A write without the identifier of its outbox row. -/
def Change.forget (write : Write) : Change OutboxEntry :=
  write.map OutboxRow.entry

variable {ι : Type}

/-- The committed sessions, in order, with what each of them wrote; every one
performed its operation on the ledger left by those before it. -/
inductive History (operations : ι → Operation) (initial : Ledger) :
    List (ι × List Write) → Ledger → Prop where
  | start : History operations initial [] initial
  | commit {past : List (ι × List Write)} {ledger : Ledger} {index : ι} {writes : List Write}
      (before : History operations initial past ledger)
      (performed : ((operations index).perform ledger).2 = writes.map Change.forget) :
      History operations initial (past ++ [(index, writes)])
        (ledger.applyAll (writes.map Change.forget))

namespace History

variable {operations : ι → Operation} {initial : Ledger}

theorem nil_eq {ledger : Ledger} (history : History operations initial [] ledger) :
    ledger = initial := by
  generalize none : ([] : List (ι × List Write)) = committed at history
  cases history with
  | start => rfl
  | commit before performed => simp at none

/-- The last commit of a history. -/
theorem snoc_cases {past : List (ι × List Write)} {index : ι} {writes : List Write}
    {ledger : Ledger} (history : History operations initial (past ++ [(index, writes)]) ledger) :
    ∃ before, History operations initial past before ∧
      ((operations index).perform before).2 = writes.map Change.forget ∧
      ledger = before.applyAll (writes.map Change.forget) := by
  generalize committed_eq : past ++ [(index, writes)] = committed at history
  cases history with
  | start => simp at committed_eq
  | commit before performed =>
      obtain ⟨rfl, same⟩ := List.append_inj' committed_eq rfl
      cases same
      exact ⟨_, before, performed, rfl⟩

theorem unique {committed : List (ι × List Write)} {left right : Ledger}
    (leftHistory : History operations initial committed left)
    (rightHistory : History operations initial committed right) : left = right := by
  induction leftHistory generalizing right with
  | start => exact rightHistory.nil_eq.symm
  | commit before performed ih =>
      obtain ⟨middle, rightBefore, _, rfl⟩ := rightHistory.snoc_cases
      rw [ih rightBefore]

/-- The moment of a commit, and what its operation did there. -/
theorem performed {committed : List (ι × List Write)} {ledger : Ledger}
    (history : History operations initial committed ledger) {entry : ι × List Write}
    (entryMem : entry ∈ committed) :
    ∃ past before, past <+: committed ∧ History operations initial past before ∧
      ((operations entry.1).perform before).2 = entry.2.map Change.forget := by
  induction history with
  | start => simp at entryMem
  | commit before performed ih =>
      rcases List.mem_append.mp entryMem with old | new
      · rcases ih old with ⟨past, middle, isPast, history, performed⟩
        exact ⟨past, middle, isPast.trans (List.prefix_append _ _), history, performed⟩
      · rw [List.mem_singleton] at new
        subst new
        exact ⟨_, _, List.prefix_append _ _, before, performed⟩

theorem of_append {past more : List (ι × List Write)} {ledger : Ledger}
    (history : History operations initial (past ++ more) ledger) :
    ∃ before, History operations initial past before := by
  induction more using List.reverseRecOn generalizing ledger with
  | nil => exact ⟨ledger, by simpa using history⟩
  | append_singleton more entry ih =>
      rw [← List.append_assoc] at history
      obtain ⟨before, shorter, _⟩ := history.snoc_cases
      exact ih shorter

end History

namespace Ledger

/-- The ledger of a database that no session has changed yet. -/
def ofDatabase (database : Database) : Ledger :=
  ⟨database.requests, database.events, database.outbox.rows.map OutboxRow.entry⟩

end Ledger

namespace Database

structure Represents (database : Database) (ledger : Ledger) : Prop where
  requests : database.requests = ledger.requests
  events : database.events = ledger.events
  outbox : (database.outbox.rows.map OutboxRow.entry).Perm ledger.outbox
  outboxOf : ∀ processingRequestId,
    database.outboxOf processingRequestId = ledger.outboxOf processingRequestId

theorem represents_ofDatabase (database : Database) :
    database.Represents (.ofDatabase database) where
  requests := rfl
  events := rfl
  outbox := List.Perm.refl _
  outboxOf processingRequestId := by
    simp [Database.outboxOf, Ledger.outboxOf, Ledger.ofDatabase, List.filter_map, Function.comp_def]

/-- Whether two outbox rows are about one request. -/
def SameRequest (left right : OutboxRow) : Prop :=
  left.entry.payload.processingRequestId = right.entry.payload.processingRequestId

/-- An outbox row that comes after every row of its request. -/
def AppendsOutbox (database : Database) (row : OutboxRow) : Prop :=
  ∀ other ∈ database.outbox, other.id ≠ row.id ∧ (SameRequest other row → other.id < row.id)

theorem outboxOf_apply_insertOutbox {database : Database} {row : OutboxRow}
    (appends : database.AppendsOutbox row) (processingRequestId : JsString) :
    (database.apply (.insertOutbox row)).outboxOf processingRequestId =
      database.outboxOf processingRequestId ++
        if row.entry.payload.processingRequestId = processingRequestId then [row.entry]
        else [] := by
  simp only [Database.outboxOf, apply, applyToOutbox]
  split
  · rename_i same
    rw [SortedTable.filter_insert_of_last (by simpa using same)]
    · simp
    · intro other otherMem selected
      exact (appends other otherMem).2 (by simp only [SameRequest, same]; simpa using selected)
  · rename_i different
    rw [SortedTable.filter_insert_of_not (by simpa using different)
      fun other otherMem => (appends other otherMem).1]
    simp

theorem Represents.apply {database : Database} {ledger : Ledger} {write : Write}
    (represents : database.Represents ledger)
    (appends : ∀ row, write = .insertOutbox row → database.AppendsOutbox row) :
    (database.apply write).Represents (ledger.apply write.forget) where
  requests := by
    simp [Database.apply, Ledger.apply, Change.forget, represents.requests]
  events := by
    simp [Database.apply, Ledger.apply, Change.forget, represents.events]
  outbox := by
    cases write with
    | insertOutbox row =>
        have inserted := SortedTable.rows_insert_perm fun other otherMem =>
          (appends row rfl other otherMem).1
        refine (inserted.map OutboxRow.entry).trans ?_
        rw [List.map_append]
        exact represents.outbox.append_right _
    | insertRequest row => exact represents.outbox
    | saveRequest row => exact represents.outbox
    | insertEvent event => exact represents.outbox
  outboxOf processingRequestId := by
    cases write with
    | insertOutbox row =>
        rw [outboxOf_apply_insertOutbox (appends row rfl), represents.outboxOf]
        simp only [Ledger.outboxOf, Ledger.apply, Change.forget, Change.map, List.filter_append,
          List.filter_cons, List.filter_nil, decide_eq_true_eq]
    | insertRequest row => exact represents.outboxOf processingRequestId
    | saveRequest row => exact represents.outboxOf processingRequestId
    | insertEvent event => exact represents.outboxOf processingRequestId

/-- The outbox rows of a list of writes, in order. -/
def outboxRows (writes : List Write) : List OutboxRow :=
  writes.filterMap fun
    | .insertOutbox row => some row
    | _ => none

@[simp]
theorem mem_outboxRows {writes : List Write} {row : OutboxRow} :
    row ∈ outboxRows writes ↔ .insertOutbox row ∈ writes := by
  simp only [outboxRows, List.mem_filterMap]
  constructor
  · rintro ⟨write, writeMem, isRow⟩
    cases write <;> simp at isRow
    exact isRow ▸ writeMem
  · exact fun rowMem => ⟨_, rowMem, rfl⟩

@[simp]
theorem outboxRows_append (first second : List Write) :
    outboxRows (first ++ second) = outboxRows first ++ outboxRows second :=
  List.filterMap_append

/-- A transaction whose outbox rows come after every row of their requests, in the order it
inserted them, does to the database what its changes do to the ledger. -/
theorem Represents.applyAll {database : Database} {ledger : Ledger} {writes : List Write}
    (represents : database.Represents ledger)
    (appends : ∀ row, .insertOutbox row ∈ writes → database.AppendsOutbox row)
    (ascending : (outboxRows writes).Pairwise fun left right => left.id < right.id) :
    (database.applyAll writes).Represents (ledger.applyAll (writes.map Change.forget)) := by
  induction writes generalizing database ledger with
  | nil => exact represents
  | cons write writes ih =>
      have applied : (database.apply write).Represents (ledger.apply write.forget) :=
        represents.apply fun row isRow => appends row (isRow ▸ List.mem_cons_self)
      cases write with
      | insertOutbox row =>
          obtain ⟨later, ascending⟩ : (∀ other ∈ outboxRows writes, row.id < other.id) ∧
              (outboxRows writes).Pairwise _ := List.pairwise_cons.mp ascending
          refine ih applied ?_ ascending
          intro other otherMem stored storedMem
          rcases SortedTable.mem_insert.mp storedMem with rfl | ⟨old, _⟩
          · have less := later other (mem_outboxRows.mpr otherMem)
            exact ⟨less.ne, fun _ => less⟩
          · exact appends other (List.mem_cons_of_mem _ otherMem) stored old
      | insertRequest row =>
          exact ih applied (fun row rowMem => appends row (List.mem_cons_of_mem _ rowMem)) ascending
      | saveRequest row =>
          exact ih applied (fun row rowMem => appends row (List.mem_cons_of_mem _ rowMem)) ascending
      | insertEvent event =>
          exact ih applied (fun row rowMem => appends row (List.mem_cons_of_mem _ rowMem)) ascending

end Database

end ProcessingCatalog
