import ProcessingCatalog.Persistence.Sessions
import ProcessingCatalog.Store.Agreement
import Mathlib.Data.Fintype.Basic

/-!
# Outbox and state never disagree
-/

namespace ProcessingCatalog

open Effect

namespace Postgres

variable {ι : Type} [Fintype ι] [DecidableEq ι]

theorem agrees_reached {operations : ι → Operation} {nextOutboxId : ℕ}
    {world : Machine.World (machine ι true) Thrown Answer}
    (reached : Machine.Reaches (start true operations .empty nextOutboxId) world) :
    ∀ row ∈ world.shared.database.requests,
      Agrees row.toDomain (world.shared.database.outboxOf row.processingRequestId.text) := by
  rcases (invariant_reached numbered_empty reached).represents with ⟨ledger, history, represents⟩
  have agreement : ledger.Agreement := history.agreement Ledger.agreement_empty
  intro row rowMem
  rw [represents.outboxOf]
  rw [represents.requests] at rowMem
  exact agreement.agrees row rowMem

/-- In every committed state any run of the use cases reaches from the empty store, what the
outbox has announced about a stored request is what is stored of it, once. -/
theorem outbox_agrees (operations : ι → Operation) {nextOutboxId : ℕ}
    {world : Machine.World (machine ι true) Thrown Answer}
    (reached : Machine.Reaches (start true operations .empty nextOutboxId) world) :
    ∀ row ∈ world.shared.database.requests,
      Agrees row.toDomain (world.shared.database.outboxOf row.processingRequestId.text) :=
  agrees_reached reached

/-- An upload and the acceptance of its video. -/
def uploadAndAcceptance : Fin 2 → Operation
  | 0 => .create ⟨1789953000000, .repeated 1, .repeated 2, 3000⟩
      ⟨js "e-1", js "owner", js "owner@example.com", js "uploads/a.mp4", js "key", none⟩
  | 1 => .accept ⟨1789953060000, .repeated 3, .repeated 4, 3000⟩
      ⟨js "e-2", Uuid.text (.repeated 1), js "2026-09-21T01:11:00.000Z"⟩

theorem outbox_agrees_upload : ∃ row : ProcessingRequestRow, row.status = .queued ∧
    ∃ database : Database, row ∈ database.requests ∧
      Agrees row.toDomain (database.outboxOf row.processingRequestId.text) := by
  have ran : ((Machine.runActions (start true uploadAndAcceptance .empty 1)
      (List.replicate 8 (.session 0 .proceed) ++ List.replicate 8 (.session 1 .proceed))).map
        fun world => world.shared.database.requests.rows.map (·.status)) = some [.queued] := by
    decide +kernel
  obtain ⟨world, ran, statuses⟩ := Option.map_eq_some_iff.mp ran
  obtain ⟨row, rowMem, queued⟩ :
      ∃ row ∈ world.shared.database.requests.rows, row.status = .queued :=
    List.mem_map.mp (statuses ▸ List.mem_singleton.mpr rfl)
  exact ⟨row, queued, _, rowMem,
    outbox_agrees uploadAndAcceptance (Machine.reaches_of_runActions ran) row rowMem⟩

end Postgres

end ProcessingCatalog
