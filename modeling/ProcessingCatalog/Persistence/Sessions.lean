import ProcessingCatalog.Persistence.CreateVerified
import ProcessingCatalog.Store.Deduplication

/-!
# Any run of any operations

The world in which a finite family of calls of the use cases runs over one
database, and what holds in every state some interleaving of their statements
leads to.
-/

namespace ProcessingCatalog

open Effect TypeOrm

namespace Postgres

variable {ι : Type} [Fintype ι] [DecidableEq ι]

/-- The calls, none of which has sent a statement yet. -/
def start (faults : Bool) (operations : ι → Operation) (initial : Database) (nextOutboxId : ℕ) :
    Machine.World (machine ι faults) Thrown Answer where
  shared := ⟨initial, nextOutboxId, []⟩
  locals _ := .idle
  programs index := (operations index).execute (repository .dataSource) unitOfWork

/-- The identifiers of outbox rows that the sequence has handed out so far. -/
def Numbered (database : Database) (nextOutboxId : ℕ) : Prop :=
  ∀ row ∈ database.outbox, row.id < nextOutboxId

theorem numbered_empty {nextOutboxId : ℕ} : Numbered .empty nextOutboxId := by
  simp [Numbered, Database.empty]

/-- How an operation may end. -/
def Ended (faults : Bool) (operations : ι → Operation) (initial : Database) (index : ι)
    (outcome : Except Thrown Answer) (shared : Shared ι) : Prop :=
  match operations index with
  | .create draws input => ∃ result, outcome = result.map .result ∧
      CreateEnded faults operations initial index draws input result shared
  | operation => ∃ result : Except Thrown ProcessingRequest, outcome = result.map .request ∧
      LifecycleEnded operation.eventId index result shared

variable {faults : Bool} {operations : ι → Operation} {initial : Database} {nextOutboxId : ℕ}

omit [Fintype ι] [DecidableEq ι] in
theorem ended_of_event {index : ι} {event : LifecycleEvent}
    (isEvent : (operations index).event? = some event) {outcome : Except Thrown Answer}
    {result : Except Thrown ProcessingRequest} (answered : outcome = result.map .request)
    {shared : Shared ι} (ended : LifecycleEnded (operations index).eventId index result shared) :
    Ended faults operations initial index outcome shared := by
  unfold Ended
  cases isOperation : operations index with
  | create draws input => simp [isOperation, Operation.event?] at isEvent
  | _ => exact ⟨result, answered, isOperation ▸ ended⟩

omit [Fintype ι] [DecidableEq ι] in
theorem ended_of_create {index : ι} {draws : Draws} {input : CreateProcessingRequestUseCase.Input}
    (isCreate : operations index = .create draws input) {outcome : Except Thrown Answer}
    {result : Except Thrown CreateProcessingRequestUseCase.Result}
    (answered : outcome = result.map .result) {shared : Shared ι}
    (ended : CreateEnded faults operations initial index draws input result shared) :
    Ended faults operations initial index outcome shared := by
  simp only [Ended, isCreate]
  exact ⟨result, answered, ended⟩

/-- Every operation is verified from its first statement on. -/
theorem verified (index : ι) :
    (discipline faults operations initial).Verified index
      (fun outcome _ shared => Ended faults operations initial index outcome shared)
      ((operations index).execute (repository .dataSource) unitOfWork) .idle
      (Uncommitted index) := by
  unfold Discipline.Verified
  rcases (operations index).create_or_event with ⟨draws, input, isCreate⟩ | ⟨event, isEvent⟩
  · have program : (operations index).execute (repository .dataSource) unitOfWork =
        Answer.result <$> CreateProcessingRequestUseCase.execute (repository .dataSource) unitOfWork
          draws input := by
      rw [isCreate, Operation.execute]
    rw [program, map_eq_pure_bind, Discipline.follows_bind]
    refine (follows_create isCreate).mono fun outcome own assertion post => ?_
    rcases post with ⟨_, ended⟩
    cases outcome with
    | ok result => exact fun shared holds => ended_of_create isCreate rfl (ended shared holds)
    | error error => exact fun shared holds => ended_of_create isCreate rfl (ended shared holds)
  · rw [Operation.execute_of_event isEvent, map_eq_pure_bind, Discipline.follows_bind]
    refine (follows_lifecycle isEvent).mono fun outcome own assertion post => ?_
    rcases post with ⟨_, ended⟩
    rw [Operation.eventId_of_event isEvent] at ended
    cases outcome with
    | ok request => exact fun shared holds => ended_of_event isEvent rfl (ended shared holds)
    | error error => exact fun shared holds => ended_of_event isEvent rfl (ended shared holds)

theorem holds_start (numbered : Numbered initial nextOutboxId) :
    (discipline faults operations initial).Holds
      (fun index outcome _ shared => Ended faults operations initial index outcome shared)
      (start faults operations initial nextOutboxId) := by
  refine ⟨?_, fun index => ⟨Uncommitted index, persistent_uncommitted.stable _, ?_,
    verified index⟩⟩
  · exact {
      database_eq := rfl
      represents := ⟨_, .start, Database.represents_ofDatabase initial⟩
      once := List.nodup_nil
      outbox_below := numbered
      admissible := fun index => admissible_empty _ _
      apart := fun index other _ => apart_empty _ }
  · simp [start, Uncommitted]

variable {world : Machine.World (machine ι faults) Thrown Answer}

theorem holds_reached (numbered : Numbered initial nextOutboxId)
    (reached : Machine.Reaches (start faults operations initial nextOutboxId) world) :
    (discipline faults operations initial).Holds
      (fun index outcome _ shared => Ended faults operations initial index outcome shared) world :=
  (holds_start numbered).reaches (discipline_sound faults operations initial) reached

/-- The invariant holds in every state of every run. -/
theorem invariant_reached (numbered : Numbered initial nextOutboxId)
    (reached : Machine.Reaches (start faults operations initial nextOutboxId) world) :
    Invariant operations initial world.shared world.locals :=
  (holds_reached numbered reached).1

/-- A call that has ended, has ended as its operation may. -/
theorem ended_reached (numbered : Numbered initial nextOutboxId)
    (reached : Machine.Reaches (start faults operations initial nextOutboxId) world) {index : ι}
    {outcome : Except Thrown Answer} (finished : world.programs index = .ofExcept outcome) :
    Ended faults operations initial index outcome world.shared :=
  (holds_reached numbered reached).ended finished

/-- A step leaves the committed tables as they are, or commits the transaction of a session. -/
theorem committed_of_step (numbered : Numbered initial nextOutboxId)
    (reached : Machine.Reaches (start faults operations initial nextOutboxId) world)
    {next : Machine.World (machine ι faults) Thrown Answer}
    {action : Machine.Action (machine ι faults)}
    (stepped : Machine.step world action = some next) :
    (next.shared.database = world.shared.database ∧
        next.shared.committed = world.shared.committed) ∨
      ∃ index choice transaction, action = .session index choice ∧
        world.locals index = .opened transaction ∧
        next.shared = world.shared.commit index transaction.writes := by
  cases action with
  | environment event => cases event
  | session index choice =>
      rcases (holds_reached numbered reached).guaranteed_of_step stepped with
        ⟨statement, reply, own, answered, guaranteed⟩
      have transition := execute_transition answered
      generalize isOwn : world.locals index = connection at transition guaranteed
      generalize next.shared = shared' at transition
      cases transition with
      | unchanged => exact .inl ⟨rfl, rfl⟩
      | locked => exact .inl ⟨rfl, rfl⟩
      | @written _ _ write => cases write <;> exact .inl ⟨rfl, rfl⟩
      | @committed transaction opened =>
          exact .inr ⟨index, choice, transaction, rfl, isOwn.trans opened, rfl⟩
      | autocommitted outside =>
          rcases guaranteed with ⟨transactional, transaction, opened, _⟩
          rcases outside with rfl | notOpened
          · cases transactional
          · exact absurd opened (notOpened transaction)

/-- What the committed tables represent after a step is what they represented before, or what the
operation of a session leaves of it. -/
theorem represents_of_step (numbered : Numbered initial nextOutboxId)
    (reached : Machine.Reaches (start faults operations initial nextOutboxId) world)
    {next : Machine.World (machine ι faults) Thrown Answer}
    {action : Machine.Action (machine ι faults)}
    (stepped : Machine.step world action = some next) :
    ∃ ledger after, History operations (.ofDatabase initial) world.shared.committed ledger ∧
      world.shared.database.Represents ledger ∧ next.shared.database.Represents after ∧
      (after = ledger ∨ ∃ index choice, action = .session index choice ∧
        after = ledger.applyAll ((operations index).perform ledger).2) := by
  rcases (invariant_reached numbered reached).represents with ⟨ledger, history, represents⟩
  have nextInvariant := invariant_reached numbered (reached.tail ⟨action, stepped⟩)
  rcases nextInvariant.represents with ⟨after, nextHistory, nextRepresents⟩
  refine ⟨ledger, after, history, represents, nextRepresents, ?_⟩
  rcases committed_of_step numbered reached stepped with
    ⟨_, same⟩ | ⟨index, choice, transaction, own, _, isNext⟩
  · rw [same] at nextHistory
    exact .inl (nextHistory.unique history)
  · rw [isNext] at nextHistory
    rcases nextHistory.snoc_cases with ⟨before, shorter, performed, isAfter⟩
    refine .inr ⟨index, choice, own, ?_⟩
    rw [isAfter, ← performed, shorter.unique history]

/-- A step takes no row out of the outbox, and adds one only after the rows of its request. -/
theorem outbox_of_step (numbered : Numbered initial nextOutboxId)
    (reached : Machine.Reaches (start faults operations initial nextOutboxId) world)
    {next : Machine.World (machine ι faults) Thrown Answer}
    {action : Machine.Action (machine ι faults)}
    (stepped : Machine.step world action = some next) :
    (∀ row ∈ world.shared.database.outbox, row ∈ next.shared.database.outbox) ∧
      ∀ row ∈ next.shared.database.outbox,
        row ∈ world.shared.database.outbox ∨ world.shared.database.AppendsOutbox row := by
  rcases committed_of_step numbered reached stepped with
    ⟨same, _⟩ | ⟨index, _, transaction, _, opened, isNext⟩
  · rw [same]
    exact ⟨fun _ => id, fun _ => .inl⟩
  · have admissible := (invariant_reached numbered reached).admissible index
    rw [opened] at admissible
    rw [isNext]
    constructor
    · intro row rowMem
      exact Database.mem_outbox_applyAll_of_mem rowMem fun added addedMem =>
        (admissible.outbox_appends added addedMem row rowMem).1
    · intro row rowMem
      exact (Database.mem_outbox_applyAll rowMem).imp_right (admissible.outbox_appends row)

/-- The event of a call is recorded by no other call, and was not recorded before. -/
def Fresh (operations : ι → Operation) (initial : Database) (index : ι) : Prop :=
  initial.events.find? (operations index).eventId = none ∧
    ∀ other, other ≠ index → (operations other).eventId ≠ (operations index).eventId

omit [Fintype ι] [DecidableEq ι] in
/-- A call with a fresh event that has committed nothing has not recorded it. -/
theorem not_recorded_of_uncommitted {shared : Shared ι} {connections : ι → Connection}
    (invariant : Invariant operations initial shared connections) {index : ι}
    (fresh : Fresh operations initial index) (uncommitted : Uncommitted index shared) :
    ¬ Recorded (operations index).eventId shared := by
  intro recorded
  obtain ⟨ledger, history, _⟩ := invariant.represents
  obtain ⟨event, found⟩ := Option.isSome_iff_exists.mp recorded
  have eventMem := KeyedTable.mem_of_find? found
  have named := KeyedTable.key_of_find? found
  rw [invariant.database_eq] at eventMem
  rcases Database.mem_events_applyAll eventMem with old | written
  · exact KeyedTable.find?_eq_none_iff.mp fresh.1 event old named
  · obtain ⟨entry, entryMem, writeMem⟩ := List.mem_flatMap.mp written
    have isOwn := history.eventId_of_write entryMem writeMem
    exact fresh.2 entry.1 (uncommitted entry entryMem) (isOwn.symm.trans named)

end Postgres

end ProcessingCatalog
