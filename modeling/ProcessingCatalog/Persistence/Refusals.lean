import ProcessingCatalog.Persistence.Sessions
import ProcessingCatalog.Store.Forward

/-!
# Why a call was refused

A call of a lifecycle use case that begins in some reachable state and throws,
whatever the other calls do meanwhile, throws for its own input, or in the
database, or for its request as it stood at a moment since that state; and if it
commits, it commits what its event does at such a moment.
-/

namespace ProcessingCatalog

open Effect TypeOrm

namespace Postgres

variable {ι : Type} [Fintype ι] [DecidableEq ι] {faults : Bool} {operations : ι → Operation}
  {initial : Database} {nextOutboxId : ℕ}

/-- A call that has not begun. -/
structure Waiting (operations : ι → Operation) (index : ι)
    (world : Machine.World (machine ι faults) Thrown Answer) : Prop where
  program : world.programs index =
    (operations index).execute (repository .dataSource) unitOfWork
  connection : world.locals index = .idle
  uncommitted : Uncommitted index world.shared

/-- At the start no call has begun. -/
theorem waiting_start (index : ι) :
    Waiting operations index (start faults operations initial nextOutboxId) :=
  ⟨rfl, rfl, by simp [start, Uncommitted]⟩

/-- A call has not begun while it has not had a turn. -/
theorem waiting_of_untouched (numbered : Numbered initial nextOutboxId) {index : ι}
    {actions : List (Machine.Action (machine ι faults))}
    {world : Machine.World (machine ι faults) Thrown Answer}
    (ran : Machine.runActions (start faults operations initial nextOutboxId) actions = some world)
    (untouched : ∀ choice, .session index choice ∉ actions) :
    Waiting operations index world := by
  have stood := Machine.runActions_untouched ran untouched
  have waiting : Waiting operations index (start faults operations initial nextOutboxId) :=
    waiting_start index
  exact ⟨stood.1, stood.2, (holds_start numbered).asserted_of_untouched
    (discipline_sound faults operations initial) ran untouched (persistent_uncommitted.stable _)
    waiting.uncommitted⟩

variable {world later : Machine.World (machine ι faults) Thrown Answer} {index : ι}
  {event : LifecycleEvent}

/-- How a call that begins in the state `world` has ended. -/
theorem accounted_reached (numbered : Numbered initial nextOutboxId)
    (reached : Machine.Reaches (start faults operations initial nextOutboxId) world)
    (waiting : Waiting operations index world)
    (isEvent : (operations index).event? = some event) (run : Machine.Reaches world later)
    {outcome : Except Thrown Answer} (finished : later.programs index = .ofExcept outcome) :
    ∃ result : Except Thrown ProcessingRequest, outcome = result.map .request ∧
      LifecycleAccounted operations initial event index world.shared.committed result
        later.shared := by
  have holds := holds_reached numbered reached
  have begun : Begun index world.shared.committed world.shared :=
    ⟨waiting.uncommitted, List.prefix_refl _⟩
  have verified : (discipline faults operations initial).Verified index
      (fun outcome _ shared => ∃ result : Except Thrown ProcessingRequest,
        outcome = result.map .request ∧ LifecycleAccounted operations initial event index
          world.shared.committed result shared)
      (world.programs index) (world.locals index) (Begun index world.shared.committed) := by
    rw [waiting.program, waiting.connection, Operation.execute_of_event isEvent, map_eq_pure_bind]
    unfold Discipline.Verified
    rw [Discipline.follows_bind]
    refine (follows_lifecycle_accounted isEvent).mono fun outcome own assertion ⟨_, ended⟩ => ?_
    cases outcome with
    | ok request => exact fun shared holds => ⟨.ok request, rfl, ended shared holds⟩
    | error error => exact fun shared holds => ⟨.error error, rfl, ended shared holds⟩
  have focused := holds.refocus (persistent_begun.stable _) begun verified
  have ended := (focused.reaches (discipline_sound faults operations initial) run).ended finished
  simpa only [Function.update_self] using ended

/-- Commits are only added. -/
theorem committed_reached (numbered : Numbered initial nextOutboxId)
    (reached : Machine.Reaches (start faults operations initial nextOutboxId) world)
    (run : Machine.Reaches world later) : world.shared.committed <+: later.shared.committed := by
  induction run with
  | refl => exact List.prefix_refl _
  | tail before stepped ih =>
      rcases stepped with ⟨action, taken⟩
      rcases committed_of_step numbered (reached.trans before) taken with
        ⟨_, same⟩ | ⟨index, _, transaction, _, _, isNext⟩
      · exact same ▸ ih
      · rw [isNext]
        exact ih.trans (List.prefix_append _ _)

/-- What a call that begins in the state `world` commits, its operation does at a moment since. -/
theorem performed_since (numbered : Numbered initial nextOutboxId)
    (reached : Machine.Reaches (start faults operations initial nextOutboxId) world)
    (waiting : Waiting operations index world) (run : Machine.Reaches world later)
    {writes : List Write} (committed : (index, writes) ∈ later.shared.committed) :
    SawSince operations initial world.shared.committed
      (fun ledger => ((operations index).perform ledger).2 = writes.map Change.forget)
      later.shared := by
  rcases (invariant_reached numbered (reached.trans run)).represents with ⟨_, history, _⟩
  rcases committed_reached numbered reached run with ⟨more, extended⟩
  rw [← extended] at committed history
  have added : (index, writes) ∈ more := (List.mem_append.mp committed).resolve_left
    fun old => waiting.uncommitted _ old rfl
  rcases List.append_of_mem added with ⟨since, rest, rfl⟩
  have split : world.shared.committed ++ (since ++ (index, writes) :: rest) =
      (world.shared.committed ++ since ++ [(index, writes)]) ++ rest := by simp
  rw [split] at history
  rcases history.of_append with ⟨after, upToCommit⟩
  rcases upToCommit.snoc_cases with ⟨ledger, before, performed, _⟩
  refine ⟨_, ledger, List.prefix_append _ since, ?_, before, performed⟩
  rw [← extended, split, List.append_assoc]
  exact List.prefix_append _ _

/-- A request, from a state of a run to a moment since and on to a later state. -/
theorem stored_at_moment (numbered : Numbered .empty nextOutboxId)
    {world later : Machine.World (machine ι true) Thrown Answer}
    (reached : Machine.Reaches (start true operations .empty nextOutboxId) world)
    (run : Machine.Reaches world later) {fact : Ledger → Prop}
    (saw : SawSince operations .empty world.shared.committed fact later.shared)
    {row : ProcessingRequestRow} (rowMem : row ∈ world.shared.database.requests) :
    SawSince operations .empty world.shared.committed (fun ledger =>
      fact ledger ∧ ∃ seen ∈ ledger.requests, seen.toDomain.WellFormed ∧
        seen.processingRequestId = row.processingRequestId ∧ row.toDomain.Later seen.toDomain ∧
          ∃ kept ∈ later.shared.database.requests,
            kept.processingRequestId = seen.processingRequestId ∧
              seen.toDomain.Later kept.toDomain) later.shared := by
  rcases saw with ⟨moment, ledger, since, isPast, history, holds⟩
  rcases (invariant_reached numbered reached).represents with ⟨before, past, represents⟩
  rcases (invariant_reached numbered (reached.trans run)).represents with
    ⟨after, whole, represents'⟩
  rcases past.later Ledger.agreement_empty since history row (represents.requests ▸ rowMem) with
    ⟨seen, seenMem, sameId, toMoment⟩
  rcases history.later Ledger.agreement_empty isPast whole seen seenMem with
    ⟨kept, keptMem, sameId', fromMoment⟩
  have wellFormed := (history.agreement Ledger.agreement_empty).wellFormed seen seenMem
  exact ⟨moment, ledger, since, isPast, history, holds, seen, seenMem, wellFormed, sameId, toMoment,
    kept, represents'.requests ▸ keptMem, sameId', fromMoment⟩

end Postgres

end ProcessingCatalog
