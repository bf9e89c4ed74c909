import ProcessingCatalog.InMemory.Alone
import ProcessingCatalog.Persistence.RedeliveryAbsorbed

/-!
# The duplicate check without the lock

A lifecycle use case looks for its event before its transaction, and answers a
duplicate at once; under the lock of the request it looks again. Here each is
compared with the variant that relies on the check under the lock alone. The
first check finds the request through the record of the event, the second
through the identifier of the input.
-/

namespace ProcessingCatalog

open Effect TypeOrm

namespace LifecycleEvent

variable {σ : Signature}

/-- The work of the transaction, with its own check for a duplicate. -/
def workUnderLock (event : LifecycleEvent) (ctx : TransactionContext σ) :
    Computation σ ProcessingRequest := do
  let some request ← ctx.requests.findForUpdate event.processingRequestId
    | throw (processingRequestNotFound event.processingRequestId)
  if ← ctx.requests.hasEventBeenProcessed event.eventId then
    return request
  event.handleLocked ctx request

/-- What is left of `handle` without the check before the transaction. -/
def handleUnderLock (unitOfWork : UnitOfWork σ) (event : LifecycleEvent) :
    Computation σ ProcessingRequest :=
  match event.refusal with
  | some error => throw error
  | none => unitOfWork.runInTransaction event.workUnderLock

theorem handleUnderLock_of_refusal {event : LifecycleEvent} {error : Thrown}
    (refused : event.refusal = some error) (unitOfWork : UnitOfWork σ) :
    event.handleUnderLock unitOfWork = throw error := by
  simp [handleUnderLock, refused]

theorem handleUnderLock_of_valid {event : LifecycleEvent} (valid : event.refusal = none)
    (unitOfWork : UnitOfWork σ) :
    event.handleUnderLock unitOfWork = unitOfWork.runInTransaction event.workUnderLock := by
  simp [handleUnderLock, valid]

end LifecycleEvent

/-- The ends of a use case and of its variant: the state left is the same, and under a condition
the outcome, too. -/
structure SameEnd {α S : Type} (condition : Prop) (left right : Except Thrown α × S) : Prop where
  state : left.2 = right.2
  outcome : condition → left.1 = right.1

/-! ## Over the maps -/

namespace InMemory

/-- If an event is recorded, it is for the request it names. -/
def Store.RecordsOwn (store : Store) (event : LifecycleEvent) : Prop :=
  ∀ link, store.eventIdToRequestId.find? event.eventId = some link →
    link.processingRequestId = event.processingRequestId

theorem runAlone_handleUnderLock {event : LifecycleEvent} (valid : event.refusal = none)
    (store : Store) :
    runAlone (event.handleUnderLock unitOfWork) store = store.performLocked event := by
  rw [LifecycleEvent.handleUnderLock_of_valid valid]
  exact runAlone_locked event store

/-- What the first check answers, the second does if it finds the request by its identifier. -/
theorem performLocked_of_linked {store : Store} {event : LifecycleEvent}
    {existing : ProcessingRequest} (linked : store.findByEventId event.eventId = some existing) :
    SameEnd (store.RecordsOwn event) (.ok existing, store) (store.performLocked event) := by
  rcases Option.bind_eq_some_iff.mp linked with ⟨link, recorded, found⟩
  split at found
  · cases found
  have processed : store.hasEventBeenProcessed event.eventId = true := by
    rw [Store.hasEventBeenProcessed, recorded]
    rfl
  unfold Store.performLocked
  constructor
  · cases store.requests.find? event.processingRequestId with
    | none => rfl
    | some request => simp [processed]
  · intro own
    rw [← own link recorded, found]
    simp [processed]

theorem sameEnd_underLock (event : LifecycleEvent) (store : Store) :
    SameEnd (store.RecordsOwn event)
      (runAlone (event.handle repository unitOfWork) store)
      (runAlone (event.handleUnderLock unitOfWork) store) := by
  cases valid : event.refusal with
  | some error =>
      rw [LifecycleEvent.handle_of_refusal valid, LifecycleEvent.handleUnderLock_of_refusal valid]
      exact ⟨rfl, fun _ => rfl⟩
  | none =>
      rw [runAlone_handle, runAlone_handleUnderLock valid, Store.performEvent, valid]
      cases linked : store.findByEventId event.eventId with
      | none => exact ⟨rfl, fun _ => rfl⟩
      | some existing => exact performLocked_of_linked linked

end InMemory

/-! ## Over PostgreSQL -/

namespace Postgres

/-- If an event is recorded, it is for the request it names. -/
def RecordsOwn (database : Database) (event : LifecycleEvent) : Prop :=
  ∀ recorded, database.events.find? event.eventId = some recorded →
    ∃ id, recorded.processingRequestId = some id ∧
      Uuid.parse event.processingRequestId = some id

/-- The request an event names is stored. -/
def Names (database : Database) (event : LifecycleEvent) : Prop :=
  ∃ id row, Uuid.parse event.processingRequestId = some id ∧
    database.requests.find? id = some row

section Alone

variable {rules : TextRules} {shared : Shared Unit} {ledger : Ledger} {event : LifecycleEvent}

/-- The variant, for an event whose identifier is accepted. -/
theorem run_handleUnderLock (represents : shared.database.Represents ledger)
    (numbered : Numbered shared.database shared.nextOutboxId)
    (unique : UniqueIndexes shared.database.requests) (valid : event.refusal = none)
    (accepted : rules.text event.eventId = true) :
    ∃ shared', (event.handleUnderLock unitOfWork).run (answerAlone rules) (shared, .idle) =
        ((rules.enforce (event.performLocked ledger)).1, shared', .idle) ∧
      Did ledger (rules.enforce (event.performLocked ledger)).2 shared shared' := by
  rw [LifecycleEvent.handleUnderLock_of_valid valid]
  have worked : Worked rules shared (event.performLocked ledger)
      ((event.workUnderLock ⟨repository .transactional, outboxWriter .transactional⟩).run
        (answerAlone rules) (shared, .opened .empty)) :=
    worked_lifecycle represents unique accepted
  exact run_runInTransaction represents numbered worked

/-- The variant, for an event whose identifier is refused: it changes nothing, and meets the
refusal if it finds the request. -/
theorem run_handleUnderLock_refused (valid : event.refusal = none)
    (refused : rules.text event.eventId = false) :
    ∃ outcome, (event.handleUnderLock unitOfWork).run (answerAlone rules) (shared, .idle) =
        (outcome, shared, .idle) ∧
      (Names shared.database event → outcome = .error (.database textRefused)) := by
  rw [LifecycleEvent.handleUnderLock_of_valid valid]
  cases parsed : Uuid.parse event.processingRequestId with
  | none =>
      refine ⟨_, run_runInTransaction_error
        (Program.run_bind_of_error (run_findForUpdate_malformed parsed) _), ?_⟩
      rintro ⟨id, row, isId, _⟩
      cases parsed.symm.trans isId
  | some id =>
  cases found : shared.database.requests.find? id with
  | none =>
      have threw : (event.workUnderLock
          ⟨repository .transactional, outboxWriter .transactional⟩).run (answerAlone rules)
            (shared, .opened .empty) =
          (.error (processingRequestNotFound event.processingRequestId), shared,
            .opened .empty) :=
        Program.run_bind_of_ok (run_findForUpdate_none parsed found) _
      refine ⟨_, run_runInTransaction_error threw, ?_⟩
      rintro ⟨id', row, isId, stored⟩
      cases parsed.symm.trans isId
      cases found.symm.trans stored
  | some row =>
      have asked : ((repository .transactional).hasEventBeenProcessed event.eventId).run
          (answerAlone rules) (shared, .opened ⟨[], [id]⟩) =
          (.error (.database textRefused), shared, .aborted) :=
        Program.run_bind_of_error (run_refused (.query .transactional (.countEvents event.eventId))
          (by simp [Statement.accepted, Query.texts, refused])) _
      have threw : (event.workUnderLock
          ⟨repository .transactional, outboxWriter .transactional⟩).run (answerAlone rules)
            (shared, .opened .empty) = (.error (.database textRefused), shared, .aborted) :=
        (Program.run_bind_of_ok (run_findForUpdate_some parsed found) _).trans
          (Program.run_bind_of_error asked _)
      exact ⟨_, run_runInTransaction_error threw, fun _ => rfl⟩

/-- What the first check answers, the second does if it finds the request by its identifier. -/
theorem performLocked_of_linked {existing : ProcessingRequestRow}
    (represents : shared.database.Represents ledger)
    (linked : ledger.findByEventId event.eventId = some existing) :
    (event.performLocked ledger).2 = [] ∧
      (RecordsOwn shared.database event →
        (event.performLocked ledger).1 = .ok existing.toDomain) := by
  rcases Option.bind_eq_some_iff.mp linked with ⟨recorded, isRecorded, rest⟩
  rcases Option.bind_eq_some_iff.mp rest with ⟨id, isLink, found⟩
  have processed : ledger.isRecorded event.eventId = true := by
    rw [Ledger.isRecorded, isRecorded]
    rfl
  unfold LifecycleEvent.performLocked
  constructor
  · cases Uuid.parse event.processingRequestId with
    | none => rfl
    | some id =>
        simp only
        cases ledger.requests.find? id with
        | none => rfl
        | some row => simp [processed]
  · intro own
    rcases own recorded (represents.events.symm ▸ isRecorded) with ⟨id', isLink', parsed⟩
    cases isLink.symm.trans isLink'
    simp [parsed, found, processed]

/-- How a program that runs alone ends, and the tables it leaves. -/
def ends {α : Type} (rules : TextRules) (program : Computation signature α)
    (shared : Shared Unit) : Except Thrown α × Database :=
  ((runAlone rules program shared).1, (runAlone rules program shared).2.database)

theorem ends_of_run {α : Type} {program : Computation signature α} {outcome : Except Thrown α}
    {shared' : Shared Unit}
    (ran : program.run (answerAlone rules) (shared, .idle) = (outcome, shared', .idle)) :
    ends rules program shared = (outcome, shared'.database) := by
  rw [ends, runAlone, ran]

theorem ends_map {α β : Type} (f : α → β) (program : Computation signature α) :
    ends rules (f <$> program) shared =
      ((ends rules program shared).1.map f, (ends rules program shared).2) := by
  simp only [ends, runAlone, Program.run_map f rfl]

theorem sameEnd_underLock (rules : TextRules) (event : LifecycleEvent)
    (represents : shared.database.Represents ledger)
    (numbered : Numbered shared.database shared.nextOutboxId)
    (unique : UniqueIndexes shared.database.requests) :
    SameEnd (RecordsOwn shared.database event ∧
        (rules.text event.eventId = false → Names shared.database event))
      (ends rules (event.handle (repository .dataSource) unitOfWork) shared)
      (ends rules (event.handleUnderLock unitOfWork) shared) := by
  cases valid : event.refusal with
  | some error =>
      rw [LifecycleEvent.handle_of_refusal valid, LifecycleEvent.handleUnderLock_of_refusal valid]
      exact ⟨rfl, fun _ => rfl⟩
  | none =>
  rcases run_handle rules event represents numbered unique with ⟨left, ran, did⟩
  rw [ends_of_run ran]
  cases accepted : rules.text event.eventId with
  | false =>
      rw [performUnder_of_refused valid accepted] at did ⊢
      rcases @run_handleUnderLock_refused rules shared event valid accepted with
        ⟨outcome, ran', isOutcome⟩
      rw [ends_of_run ran']
      exact ⟨did.database, fun condition => (isOutcome (condition.2 rfl)).symm⟩
  | true =>
      rcases run_handleUnderLock represents numbered unique valid accepted with
        ⟨left', ran', did'⟩
      rw [ends_of_run ran']
      rw [performUnder_of_accepted valid accepted] at did ⊢
      cases linked : ledger.findByEventId event.eventId with
      | none =>
          rw [linked] at did
          exact ⟨did.database.trans did'.database.symm, fun _ => rfl⟩
      | some existing =>
          rw [linked] at did
          rcases performLocked_of_linked represents linked with ⟨nothing, answers⟩
          have same : event.performLocked ledger = ((event.performLocked ledger).1, []) :=
            Prod.ext rfl nothing
          rw [same, rules.enforce_nothing] at did' ⊢
          exact ⟨did.database.trans did'.database.symm,
            fun condition => (answers condition.1).symm⟩

end Alone

end Postgres

/-- Every lifecycle use case, compared with the variant that checks for a duplicate under the lock
alone: over the maps, whatever they hold, and over PostgreSQL, in any reachable state, both leave
the same; and if the event is not recorded, or recorded for the request it names, both end the same
way, where over PostgreSQL the identifier of the event must be one that the database accepts, or
the request one that it holds. -/
theorem unlocked_check_optimises (operation : Operation) (event : LifecycleEvent)
    (isEvent : operation.event? = some event) :
    (∀ store : InMemory.Store, SameEnd (store.RecordsOwn event)
      (InMemory.runAlone (operation.execute InMemory.repository InMemory.unitOfWork) store)
      (InMemory.runAlone (Answer.request <$> event.handleUnderLock InMemory.unitOfWork) store)) ∧
    ∀ {ι : Type} [Fintype ι] [DecidableEq ι] (operations : ι → Operation) (nextOutboxId : ℕ)
      (world : Machine.World (Postgres.machine ι true) Thrown Answer),
      Machine.Reaches (Postgres.start true operations .empty nextOutboxId) world →
        ∀ rules : Postgres.TextRules, SameEnd
          (Postgres.RecordsOwn world.shared.database event ∧
            (rules.text event.eventId = false → Postgres.Names world.shared.database event))
          (Postgres.ends rules (operation.execute (repository .dataSource) unitOfWork)
            (Postgres.storeOf world.shared))
          (Postgres.ends rules (Answer.request <$> event.handleUnderLock unitOfWork)
            (Postgres.storeOf world.shared)) := by
  rw [Operation.execute_of_event isEvent, Operation.execute_of_event isEvent]
  constructor
  · intro store
    have same := InMemory.sameEnd_underLock event store
    rw [InMemory.runAlone_map, InMemory.runAlone_map]
    exact ⟨same.state, fun own => congrArg (Except.map Answer.request) (same.outcome own)⟩
  · intro ι _ _ operations nextOutboxId world reached rules
    have invariant := Postgres.invariant_reached Postgres.numbered_empty reached
    rcases invariant.represents with ⟨ledger, history, represents⟩
    have unique : UniqueIndexes world.shared.database.requests := by
      rw [represents.requests]
      exact history.uniqueIndexes uniqueIndexes_empty
    have stands : (Postgres.storeOf world.shared).database.Represents ledger := represents
    have same := Postgres.sameEnd_underLock rules event stands invariant.outbox_below unique
    rw [Postgres.ends_map, Postgres.ends_map]
    exact ⟨same.state, fun own => congrArg (Except.map Answer.request) (same.outcome own)⟩

/-- The acceptance of an uploaded video, by the use case and by its variant. -/
theorem unlocked_check_optimises_acceptance : ∃ database : Database,
    database.requests.rows.map (·.status) = [.received] ∧ ∃ shared : Postgres.Shared Unit,
      shared.database = database ∧
      (Postgres.ends .lenient ((Postgres.uploadAndAcceptance 1).execute (repository .dataSource)
          unitOfWork) shared).1 =
        (Postgres.ends .lenient (Answer.request <$> (AcceptProcessingRequestUseCase.event
          ⟨1789953060000, .repeated 3, .repeated 4, 3000⟩ ⟨js "e-2", Uuid.text (.repeated 1),
            js "2026-09-21T01:11:00.000Z"⟩).handleUnderLock unitOfWork) shared).1 := by
  have ran : ((Machine.runActions (Postgres.start true Postgres.uploadAndAcceptance .empty 1)
      (List.replicate 8 (.session 0 .proceed))).map fun world =>
        (world.shared.database.requests.rows.map (·.status),
          world.shared.database.events.find? (js "e-2"))) = some ([.received], none) := by
    decide +kernel
  rcases Option.map_eq_some_iff.mp ran with ⟨world, ran, read⟩
  rcases Prod.mk.inj read with ⟨received, unrecorded⟩
  refine ⟨world.shared.database, received, Postgres.storeOf world.shared, rfl, ?_⟩
  refine ((unlocked_check_optimises (Postgres.uploadAndAcceptance 1) _ rfl).2
    Postgres.uploadAndAcceptance 1 world (Machine.reaches_of_runActions ran) .lenient).outcome
      ⟨?_, ?_⟩
  · intro recorded isRecorded
    cases unrecorded.symm.trans isRecorded
  · rintro ⟨⟩

/-- A start whose event is named with a NUL, which PostgreSQL does not store in text, about a
request that was never created. -/
def startWithNul : Operation :=
  .start ⟨1789953120000, .repeated 5, .repeated 6, 3000⟩
    ⟨js "e" ++ [0], Uuid.text (.repeated 1), js "a-1", js "2026-09-21T01:12:00.000Z"⟩

/-- The use case ends in the error of the database, its variant in the domain error: the event is
not recorded, and yet the two do not end the same way. -/
theorem unlocked_check_meets_nul :
    let rules : Postgres.TextRules := ⟨fun text => !text.contains 0, fun _ => true, fun _ => true⟩
    let event := StartProcessingRequestUseCase.event ⟨1789953120000, .repeated 5, .repeated 6, 3000⟩
      ⟨js "e" ++ [0], Uuid.text (.repeated 1), js "a-1", js "2026-09-21T01:12:00.000Z"⟩
    startWithNul.event? = some event ∧
      Database.empty.events.find? event.eventId = none ∧
      Postgres.ends rules (startWithNul.execute (repository .dataSource) unitOfWork)
        ⟨.empty, 1, []⟩ = (.error (.database Postgres.textRefused), .empty) ∧
      Postgres.ends rules (Answer.request <$> event.handleUnderLock unitOfWork) ⟨.empty, 1, []⟩ =
        (.error (processingRequestNotFound (Uuid.text (.repeated 1))), .empty) := by
  refine ⟨rfl, rfl, Prod.ext ?_ rfl, Prod.ext ?_ rfl⟩
  · decide +kernel
  · decide +kernel

end ProcessingCatalog
