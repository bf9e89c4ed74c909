import ProcessingCatalog.Persistence.OutboxAgreement
import ProcessingCatalog.Store.Forward
import Mathlib.Data.Fintype.Basic

/-!
# Requests only move forward, and finished requests are frozen
-/

namespace ProcessingCatalog

open Effect

namespace Postgres

variable {ι : Type}

/-- What a step may do to a stored request. -/
structure Advances {faults : Bool} [Fintype ι] [DecidableEq ι] (operations : ι → Operation)
    (action : Machine.Action (machine ι faults)) (row row' : ProcessingRequestRow) : Prop where
  forward : row.toDomain.Forward row'.toDomain
  frozen : row.status.Terminal → row' = row
  /-- Only an operation that names the request changes it. -/
  named : row' ≠ row → ∃ index choice, action = .session index choice ∧
    (operations index).named? = some row.processingRequestId

variable [Fintype ι] [DecidableEq ι]

theorem advances_of_step {operations : ι → Operation} {nextOutboxId : ℕ}
    {world next : Machine.World (machine ι true) Thrown Answer}
    (reached : Machine.Reaches (start true operations .empty nextOutboxId) world)
    {action : Machine.Action (machine ι true)} (stepped : Machine.step world action = some next) :
    ∀ row ∈ world.shared.database.requests, ∃ row' ∈ next.shared.database.requests,
      row'.processingRequestId = row.processingRequestId ∧
        Advances operations action row row' := by
  intro row rowMem
  rcases represents_of_step numbered_empty reached stepped with
    ⟨ledger, after, history, represents, represents', unchanged | ⟨index, choice, own, left⟩⟩
  · refine ⟨row, ?_, rfl, .refl _, fun _ => rfl, fun changed => absurd rfl changed⟩
    rw [represents'.requests, unchanged, ← represents.requests]
    exact rowMem
  · have agreement : ledger.Agreement := history.agreement Ledger.agreement_empty
    have leaves := (operations index).leaves ledger
    rw [← left] at leaves
    rw [represents.requests] at rowMem
    rcases leaves.forward agreement row rowMem with ⟨row', rowMem', sameId, forward, foreign⟩
    refine ⟨row', represents'.requests ▸ rowMem', sameId, forward, ?_, ?_⟩
    · exact fun ended => ProcessingRequestRow.toDomain_injective (forward.frozen ended)
    · intro changed
      refine ⟨index, choice, own, ?_⟩
      by_contra other
      exact changed (foreign other)

theorem later_reached {operations : ι → Operation} {nextOutboxId : ℕ}
    {world later : Machine.World (machine ι true) Thrown Answer}
    (reached : Machine.Reaches (start true operations .empty nextOutboxId) world)
    (run : Machine.Reaches world later) :
    ∀ row ∈ world.shared.database.requests, ∃ row' ∈ later.shared.database.requests,
      row'.processingRequestId = row.processingRequestId ∧ row.toDomain.Later row'.toDomain := by
  intro row rowMem
  induction run with
  | refl => exact ⟨row, rowMem, rfl, .refl _⟩
  | tail before stepped ih =>
      rcases ih with ⟨row', rowMem', sameId, later⟩
      rcases stepped with ⟨action, taken⟩
      rcases advances_of_step (reached.trans before) taken row' rowMem' with
        ⟨row'', rowMem'', sameId', advances⟩
      exact ⟨row'', rowMem'', sameId'.trans sameId, later.forward advances.forward⟩

/-- From any state any run of the use cases reaches, each step leaves every stored request in
place, unchanged or moved forward by an operation that names it; and over any further steps its
identity and its attempt stay, and once finished all of it. -/
theorem requests_move_forward (operations : ι → Operation) {nextOutboxId : ℕ}
    {world : Machine.World (machine ι true) Thrown Answer}
    (reached : Machine.Reaches (start true operations .empty nextOutboxId) world) :
    (∀ action next, Machine.step world action = some next →
      ∀ row ∈ world.shared.database.requests, ∃ row' ∈ next.shared.database.requests,
        row'.processingRequestId = row.processingRequestId ∧ Advances operations action row row') ∧
    ∀ later, Machine.Reaches world later →
      ∀ row ∈ world.shared.database.requests, ∃ row' ∈ later.shared.database.requests,
        row'.processingRequestId = row.processingRequestId ∧
          row.toDomain.Later row'.toDomain :=
  ⟨fun _ _ => advances_of_step reached, fun _ => later_reached reached⟩

/-- The acceptance of an uploaded video. -/
theorem requests_move_forward_acceptance : ∃ row row' : ProcessingRequestRow,
    row.status = .received ∧ row'.status = .queued ∧ row.toDomain.Later row'.toDomain := by
  have ran : ((Machine.runActions (start true uploadAndAcceptance .empty 1)
      (List.replicate 8 (.session 0 .proceed))).bind fun world =>
        (Machine.runActions world (List.replicate 8 (.session 1 .proceed))).map fun later =>
          (world.shared.database.requests.rows.map (·.status),
            later.shared.database.requests.rows.map (·.status))) =
      some ([.received], [.queued]) := by
    decide +kernel
  rcases Option.bind_eq_some_iff.mp ran with ⟨world, uploaded, ran⟩
  rcases Option.map_eq_some_iff.mp ran with ⟨later, accepted, statuses⟩
  rcases Prod.mk.inj statuses with ⟨received, queued⟩
  have stored : ∃ row ∈ world.shared.database.requests.rows, row.status = .received :=
    List.mem_map.mp (received ▸ List.mem_singleton.mpr rfl)
  rcases stored with ⟨row, rowMem, isReceived⟩
  rcases (requests_move_forward uploadAndAcceptance (Machine.reaches_of_runActions uploaded)).2
    later (Machine.reaches_of_runActions accepted) row rowMem with ⟨row', rowMem', _, moved⟩
  have isQueued : row'.status = .queued := by
    have among : row'.status ∈ later.shared.database.requests.rows.map (·.status) :=
      List.mem_map_of_mem rowMem'
    simpa [queued] using among
  exact ⟨row, row', isReceived, isQueued, moved⟩

end Postgres

end ProcessingCatalog
