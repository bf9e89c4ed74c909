import ProcessingCatalog.Persistence.Sessions
import ProcessingCatalog.Store.Shape
import Mathlib.Data.Fintype.Basic

/-!
# Every stored request is well formed
-/

namespace ProcessingCatalog

open Effect

namespace Postgres

/-- The commit that left the request as it stands was that of a validation rejection. -/
def FailedByRejection {ι : Type} (operations : ι → Operation) (shared : Shared ι)
    (row : ProcessingRequestRow) : Prop :=
  ∃ entry ∈ shared.committed, .saveRequest row ∈ entry.2 ∧
    ∃ draws input, operations entry.1 = .fail draws input ∧ input.origin = .validation

variable {ι : Type}

/-- A write was made by an operation on a ledger of the shape. -/
theorem performed_of_write {operations : ι → Operation} {committed : List (ι × List Write)}
    {ledger : Ledger} (history : History operations .empty committed ledger)
    {entry : ι × List Write} (entryMem : entry ∈ committed) {write : Write}
    (writeMem : write ∈ entry.2) :
    ∃ before : Ledger, before.Shape ∧
      write.forget ∈ ((operations entry.1).perform before).2 := by
  rcases history.performed entryMem with ⟨_, before, _, pastHistory, performed⟩
  refine ⟨before, pastHistory.shape Ledger.shape_empty, ?_⟩
  rw [performed]
  exact List.mem_map_of_mem writeMem

variable [Fintype ι] [DecidableEq ι]

theorem shaped_reached {operations : ι → Operation} {nextOutboxId : ℕ}
    {world : Machine.World (machine ι true) Thrown Answer}
    (reached : Machine.Reaches (start true operations .empty nextOutboxId) world) :
    ∀ row ∈ world.shared.database.requests, row.toDomain.Shaped := by
  rcases (invariant_reached numbered_empty reached).represents with ⟨ledger, history, represents⟩
  rw [represents.requests]
  exact (history.shape Ledger.shape_empty).shaped

/-- In every committed state any run of the use cases reaches from the empty store, each request
has the shape of its status, and each recorded event points to a stored request. -/
theorem requests_shaped (operations : ι → Operation) {nextOutboxId : ℕ}
    {world : Machine.World (machine ι true) Thrown Answer}
    (reached : Machine.Reaches (start true operations .empty nextOutboxId) world) :
    (∀ row ∈ world.shared.database.requests, row.toDomain.Shaped ∧
      (row.status = .failed →
        (row.attemptId = none ↔ FailedByRejection operations world.shared row))) ∧
    ∀ event ∈ world.shared.database.events, ∃ row ∈ world.shared.database.requests,
      event.processingRequestId = some row.processingRequestId := by
  have invariant := invariant_reached numbered_empty reached
  rcases invariant.represents with ⟨ledger, history, represents⟩
  have shape : ledger.Shape := history.shape Ledger.shape_empty
  constructor
  · intro row rowMem
    refine ⟨shaped_reached reached row rowMem, fun failed => ?_⟩
    constructor
    · intro noAttempt
      rw [invariant.database_eq] at rowMem
      rcases Database.mem_requests_applyAll rowMem with stored | inserted | saved
      · simp [Database.empty] at stored
      · rcases List.mem_flatMap.mp inserted with ⟨entry, entryMem, writeMem⟩
        rcases performed_of_write history entryMem writeMem with ⟨before, _, performed⟩
        have received : row.status = .received := Operation.received_of_inserted performed
        rw [received] at failed
        cases failed
      · rcases List.mem_flatMap.mp saved with ⟨entry, entryMem, writeMem⟩
        rcases performed_of_write history entryMem writeMem with ⟨before, shapeBefore, performed⟩
        rcases Operation.fail_of_saved shapeBefore performed failed with
          ⟨draws, input, isFail, rejected⟩
        refine ⟨entry, entryMem, writeMem, draws, input, isFail, rejected.mp ?_⟩
        simp [ProcessingRequestRow.toDomain, noAttempt]
    · rintro ⟨entry, entryMem, saved, draws, input, isFail, validation⟩
      rcases performed_of_write history entryMem saved with ⟨before, shapeBefore, performed⟩
      rcases Operation.fail_of_saved shapeBefore performed failed with
        ⟨draws', input', isFail', rejected⟩
      rw [isFail] at isFail'
      cases isFail'
      simpa [ProcessingRequestRow.toDomain] using rejected.mpr validation
  · rw [represents.events, represents.requests]
    exact shape.recorded

/-- An upload and the rejection of its video. -/
def uploadAndRejection : Fin 2 → Operation
  | 0 => .create ⟨1789953000000, .repeated 1, .repeated 2, 3000⟩
      ⟨js "e-1", js "owner", js "owner@example.com", js "uploads/a.mp4", js "key", none⟩
  | 1 => .fail ⟨1789953060000, .repeated 3, .repeated 4, 3000⟩
      ⟨js "e-2", .validation, none, Uuid.text (.repeated 1),
        .string (js "DURACAO_EXCEDIDA"), js "2026-09-21T01:11:00.000Z"⟩

theorem rejection_reached : ∃ world,
    Machine.Reaches (start true uploadAndRejection .empty 1) world ∧
      ∃ row ∈ world.shared.database.requests, row.status = .failed := by
  have ran : ((Machine.runActions (start true uploadAndRejection .empty 1)
      (List.replicate 8 (.session 0 .proceed) ++ List.replicate 8 (.session 1 .proceed))).map
        fun world => world.shared.database.requests.rows.map (·.status)) = some [.failed] := by
    decide +kernel
  rcases Option.map_eq_some_iff.mp ran with ⟨world, ran, statuses⟩
  have stored : ∃ row ∈ world.shared.database.requests.rows, row.status = .failed :=
    List.mem_map.mp (statuses ▸ List.mem_singleton.mpr rfl)
  exact ⟨world, Machine.reaches_of_runActions ran, stored⟩

theorem requests_shaped_rejection : ∃ row : ProcessingRequestRow, row.status = .failed ∧
    ∃ shared : Shared (Fin 2), row ∈ shared.database.requests ∧ row.toDomain.Shaped ∧
      (row.attemptId = none ↔ FailedByRejection uploadAndRejection shared row) := by
  rcases rejection_reached with ⟨world, reached, row, rowMem, failed⟩
  rcases (requests_shaped uploadAndRejection reached).1 row rowMem with ⟨shaped, rejected⟩
  exact ⟨row, failed, world.shared, rowMem, shaped, rejected failed⟩

end Postgres

end ProcessingCatalog
