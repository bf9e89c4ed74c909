import ProcessingCatalog.Persistence.SerialRun
import ProcessingCatalog.Store.Agreement
import ProcessingCatalog.Store.Deduplication

/-!
# Event handling is serializable

Whatever the interleaving, the committed tables are those the committed calls
leave when they run one at a time in commit order.
-/

namespace ProcessingCatalog

open Effect TypeOrm

namespace Postgres

variable {ι : Type} [Fintype ι] [DecidableEq ι] {operations : ι → Operation}
  {initial : Database} {nextOutboxId : ℕ}

/-- A call that threw is none of the committed ones. -/
theorem uncommitted_of_throw {faults : Bool} (numbered : Numbered initial nextOutboxId)
    {world : Machine.World (machine ι faults) Thrown Answer}
    (reached : Machine.Reaches (start faults operations initial nextOutboxId) world) {index : ι}
    {error : Thrown} (threw : world.programs index = .throw error) :
    Uncommitted index world.shared := by
  have ended : Ended faults operations initial index (.error error) world.shared :=
    ended_reached numbered reached threw
  unfold Ended at ended
  cases isOperation : operations index with
  | create draws input =>
      rw [isOperation] at ended
      obtain ⟨result, isOutcome, ended⟩ := ended
      cases result with
      | ok result => cases isOutcome
      | error _ => exact ended.1
  | _ =>
      rw [isOperation] at ended
      obtain ⟨result, isOutcome, ended⟩ := ended
      cases result with
      | ok result => cases isOutcome
      | error _ => exact ended

/-- Any interleaving of any calls, failing at any statement, leaves the requests, the recorded
events and each request's outbox rows that its committed calls leave one at a time, in commit
order. No call commits twice, one that threw has not committed, and no event takes effect twice. -/
theorem serializable (operations : ι → Operation) (unique : UniqueIndexes initial.requests)
    (numbered : Numbered initial nextOutboxId)
    {world : Machine.World (machine ι true) Thrown Answer}
    (reached : Machine.Reaches (start true operations initial nextOutboxId) world) :
    let order := world.shared.committed.map Prod.fst
    let serial := (runSerially .lenient operations order ⟨initial, nextOutboxId, []⟩).2.database
    (world.shared.database.requests = serial.requests ∧
      world.shared.database.events = serial.events ∧
      ∀ processingRequestId, world.shared.database.outboxOf processingRequestId =
        serial.outboxOf processingRequestId) ∧
    order.Nodup ∧
    (∀ index error, world.programs index = .throw error → index ∉ order) ∧
    ∀ left ∈ world.shared.committed, ∀ right ∈ world.shared.committed,
      (operations left.1).eventId = (operations right.1).eventId →
      Effective left.2 → Effective right.2 → left = right := by
  have invariant := invariant_reached numbered reached
  obtain ⟨ledger, history, represents⟩ := invariant.represents
  have serial := (runSerially_eq .lenient operations (world.shared.committed.map Prod.fst)
    ⟨initial, nextOutboxId, []⟩ (Database.represents_ofDatabase initial) numbered unique).2
  rw [performSeriallyUnder_lenient, performSerially_of_history history] at serial
  refine ⟨⟨?_, ?_, fun id => ?_⟩, invariant.once, ?_, ?_⟩
  · rw [represents.requests, serial.requests]
  · rw [represents.events, serial.events]
  · rw [represents.outboxOf, serial.outboxOf]
  · intro index error threw committed
    obtain ⟨entry, entryMem, isIndex⟩ := List.mem_map.mp committed
    exact uncommitted_of_throw numbered reached threw entry entryMem isIndex
  · intro left leftMem right rightMem same leftEffective rightEffective
    exact history.effective_once leftMem rightMem same leftEffective rightEffective

/-- An upload, and the acceptance of its video delivered twice. -/
def redeliveredAcceptance : Fin 3 → Operation
  | 0 => .create ⟨1789953000000, .repeated 1, .repeated 2, 3000⟩
      ⟨js "e-1", js "owner", js "owner@example.com", js "uploads/a.mp4", js "key", none⟩
  | 1 => .accept ⟨1789953060000, .repeated 3, .repeated 4, 3000⟩
      ⟨js "e-2", Uuid.text (.repeated 1), js "2026-09-21T01:11:00.000Z"⟩
  | 2 => .accept ⟨1789953061000, .repeated 5, .repeated 6, 3000⟩
      ⟨js "e-2", Uuid.text (.repeated 1), js "2026-09-21T01:11:00.000Z"⟩

/-- Both deliveries miss the event before either holds the row. -/
theorem serializable_redelivery : ∃ committed : List (Fin 3 × List Write),
    committed.map Prod.fst = [0, 1, 2] ∧
    ∀ left ∈ committed, ∀ right ∈ committed,
      (redeliveredAcceptance left.1).eventId = (redeliveredAcceptance right.1).eventId →
      Effective left.2 → Effective right.2 → left = right := by
  have ran : ((Machine.runActions (start true redeliveredAcceptance .empty 1)
      (([0, 0, 0, 0, 0, 0, 0, 0, 1, 1, 2, 2, 1, 1, 1, 1, 1, 1, 2, 2, 2] : List (Fin 3)).map
        fun index => .session index .proceed)).map
        fun world => world.shared.committed.map Prod.fst) = some [0, 1, 2] := by
    decide +kernel
  obtain ⟨world, ran, order⟩ := Option.map_eq_some_iff.mp ran
  exact ⟨world.shared.committed, order, (serializable redeliveredAcceptance uniqueIndexes_empty
    (by simp [Numbered, Database.empty]) (Machine.reaches_of_runActions ran)).2.2.2⟩

end Postgres

end ProcessingCatalog
