import ProcessingCatalog.Library.Progress
import ProcessingCatalog.Persistence.Serializability

/-!
# No call waits for ever

A call sends at most eleven statements. A call that waits for a row or for a
unique entry, waits for a transaction that has got further than its own: nobody
holds anything when it asks for a row or inserts a request, and nobody asks for
anything once it has recorded its event. So the calls never wait in a circle,
and a run that no fault interrupts ends with all of them answered.
-/

namespace ProcessingCatalog

open Effect TypeOrm

namespace Postgres

/-! ## How many statements a call sends -/

section Bounds

variable {Possible : (statement : Statement) → signature.Reply statement → Prop} {α : Type}

theorem atMost_send (statement : Statement) : (send statement).AtMost Possible 1 := by
  intro reply _
  cases reply <;> trivial

theorem atMost_findOne (manager : Manager) (criteria : Criteria) :
    (findOne manager criteria).AtMost Possible 1 :=
  (atMost_send _).map _

theorem atMost_findByEventId (manager : Manager) (eventId : JsString) :
    ((repository manager).findByEventId eventId).AtMost Possible 2 := by
  refine (atMost_send _).bind fun event => ?_
  cases event.bind ProcessedEvent.processingRequestId with
  | none => exact Program.atMost_pure _ 1
  | some processingRequestId => exact atMost_findOne manager _

theorem atMost_hasEventBeenProcessed (manager : Manager) (eventId : JsString) :
    ((repository manager).hasEventBeenProcessed eventId).AtMost Possible 1 :=
  (atMost_send _).map _

theorem atMost_runInTransaction {work : TransactionContext signature → Computation signature α}
    {calls : ℕ} (worked :
      (work ⟨repository .transactional, outboxWriter .transactional⟩).AtMost Possible calls) :
    (unitOfWork.runInTransaction work).AtMost Possible (calls + 3) := by
  have rolledBack (error : Thrown) : Program.AtMost Possible (do
      tryCatch (send .rollbackTransaction) fun _ => return ()
      throw error : Computation signature α) 1 :=
    .bind (.tryCatch (atMost_send .rollbackTransaction) fun _ => Program.atMost_pure () 0)
      fun _ => Program.atMost_throw error 0
  refine Program.AtMost.mono (.tryCatch (.bind (atMost_send .startTransaction) fun _ =>
    .bind worked fun result => .bind (atMost_send .commitTransaction) fun _ =>
      Program.atMost_pure result 0) rolledBack) ?_
  omega

theorem atMost_insertion (input : CreateProcessingRequestUseCase.Input)
    (request : ProcessingRequest) :
    (CreateProcessingRequestUseCase.insertion input request
      ⟨repository .transactional, outboxWriter .transactional⟩).AtMost Possible 3 :=
  .bind (.tryCatch (atMost_send _) fun _ => Program.atMost_throw _ 0) fun _ =>
    .bind (atMost_send _) fun _ => atMost_send _

theorem atMost_lostRace (input : CreateProcessingRequestUseCase.Input) (error : Thrown) :
    (CreateProcessingRequestUseCase.lostRace (repository .dataSource) input error).AtMost
      Possible 1 := by
  unfold CreateProcessingRequestUseCase.lostRace
  split
  · refine (atMost_findOne _ _).bind fun winner => ?_
    cases winner with
    | none => exact Program.atMost_throw _ 0
    | some winner => exact Program.atMost_pure _ 0
  · refine (atMost_findOne _ _).bind fun winner => ?_
    cases winner with
    | none => exact Program.atMost_throw _ 0
    | some winner => exact Program.atMost_ofExcept _ 0
  · exact Program.atMost_throw _ 1

theorem atMost_create (draws : Draws) (input : CreateProcessingRequestUseCase.Input) :
    (CreateProcessingRequestUseCase.execute (repository .dataSource) unitOfWork draws input).AtMost
      Possible 11 := by
  unfold CreateProcessingRequestUseCase.execute
  cases isBlank input.eventId with
  | true => exact Program.atMost_throw _ 11
  | false =>
  cases isBlank input.idempotencyKey with
  | true => exact Program.atMost_throw _ 11
  | false =>
  simp only [Bool.false_eq_true, if_false]
  refine (Program.atMost_ofExcept _ 0).bind fun correlationId => ?_
  refine (atMost_findByEventId _ _).bind fun existing => ?_
  cases existing with
  | some existing => exact Program.atMost_pure _ 9
  | none =>
  refine (Program.atMost_ofExcept _ 0).bind fun request => ?_
  refine (atMost_findOne _ _).bind fun bound => ?_
  cases bound with
  | some bound => exact Program.atMost_ofExcept _ 8
  | none =>
  refine (atMost_findOne _ _).bind fun known => ?_
  cases known with
  | some known => exact Program.atMost_pure _ 7
  | none =>
  exact .tryCatch (.bind (atMost_runInTransaction (atMost_insertion input request)) fun _ =>
    Program.atMost_pure _ 0) (atMost_lostRace input)

theorem atMost_record (event : LifecycleEvent) (request : ProcessingRequest)
    (decision : Decision) :
    (event.record ⟨repository .transactional, outboxWriter .transactional⟩ request
      decision).AtMost Possible 3 := by
  cases decision with
  | noted => exact (atMost_send _).bind fun _ => Program.atMost_pure _ 2
  | applied updated entry =>
      cases entry with
      | none =>
          exact (atMost_send _).bind fun _ => (atMost_send _).bind fun _ => Program.atMost_pure _ 1
      | some entry =>
          exact (atMost_send _).bind fun _ => (atMost_send _).bind fun _ =>
            (atMost_send _).bind fun _ => Program.atMost_pure _ 0

/-- The transaction of a lifecycle execution. -/
theorem atMost_locked (event : LifecycleEvent) :
    (unitOfWork.runInTransaction fun ctx => do
      let some request ← ctx.requests.findForUpdate event.processingRequestId
        | throw (processingRequestNotFound event.processingRequestId)
      if ← ctx.requests.hasEventBeenProcessed event.eventId then
        return request
      event.handleLocked ctx request).AtMost Possible 8 := by
  refine atMost_runInTransaction ?_
  refine ((atMost_send _).map _).bind fun found => ?_
  cases found with
  | none => exact Program.atMost_throw _ 4
  | some request =>
  refine (atMost_hasEventBeenProcessed _ _).bind fun processed => ?_
  cases processed with
  | true => exact Program.atMost_pure _ 3
  | false => exact (Program.atMost_ofExcept _ 0).bind (atMost_record event request)

theorem atMost_handle (event : LifecycleEvent) :
    (event.handle (repository .dataSource) unitOfWork).AtMost Possible 11 := by
  unfold LifecycleEvent.handle
  cases event.refusal with
  | some error => exact Program.atMost_throw _ 11
  | none =>
  refine (atMost_hasEventBeenProcessed _ _).bind fun processed => ?_
  cases processed with
  | false => exact (atMost_locked event).mono (by omega)
  | true =>
  refine (atMost_findByEventId _ _).bind fun existing => ?_
  cases existing with
  | some existing => exact Program.atMost_pure _ 8
  | none => exact atMost_locked event

theorem atMost_execute (operation : Operation) :
    (operation.execute (repository .dataSource) unitOfWork).AtMost Possible 11 := by
  rcases operation.create_or_event with ⟨draws, input, rfl⟩ | ⟨event, isEvent⟩
  · exact (atMost_create draws input).map _
  · rw [Operation.execute_of_event isEvent]
    exact (atMost_handle event).map _

end Bounds

/-! ## In which order a call asks for what it holds -/

/-- How far the transaction of a call has got. -/
inductive Stage where
  | idle
  /-- Open, and holding nothing yet. -/
  | opened
  | holding
  /-- The event is recorded, and nothing is asked for any more. -/
  | recorded
  | aborted
  deriving DecidableEq

namespace Stage

/-- What a call may send at a stage. A row is asked for, and a request inserted, only while the
transaction holds nothing. -/
def Allows : Stage → Statement → Prop
  | stage, .startTransaction => stage = .idle
  | stage, .findRequestForUpdate manager _ => manager = .transactional ∧ stage = .opened
  | stage, .modify manager (.insertRequest _) => manager = .transactional ∧ stage = .opened
  | stage, .modify manager _ => manager = .transactional ∧ stage = .holding
  | _, _ => True

def afterFailure (stage : Stage) : Statement → Stage
  | .rollbackTransaction => .idle
  | .query .dataSource _ => stage
  | _ => if stage = .idle then .idle else .aborted

def afterSuccess (stage : Stage) : Statement → Stage
  | .startTransaction => .opened
  | .commitTransaction => .idle
  | .rollbackTransaction => .idle
  | .query .. => stage
  | .modify _ (.insertEvent ..) => .recorded
  | _ => .holding

/-- The connections of a call at a stage. -/
def Fits : Stage → Connection → Prop
  | .idle, own => own = .idle
  | .opened, own => own = .opened .empty
  | .holding, own => ∃ transaction, own = .opened transaction ∧
      ∀ event, .insertEvent event ∉ transaction.writes
  | .recorded, own => ∃ transaction, own = .opened transaction
  | .aborted, own => own = .aborted

end Stage

abbrev protocol : Protocol signature where
  Phase := Stage
  Allows := Stage.Allows
  after stage statement
    | .ok _ => stage.afterSuccess statement
    | .error _ => stage.afterFailure statement

namespace Stage.Fits

variable {ι : Type} {others : (Transaction → Bool) → Bool} {choice : Choice} {index : ι}
  {shared shared' : Shared ι} {stage : Stage} {own own' : Connection}

theorem broken (fits : stage.Fits own) :
    (stage.afterFailure .commitTransaction).Fits (own.afterFailure .commitTransaction) := by
  cases stage with
  | idle => exact congrArg (Connection.afterFailure · .commitTransaction) fits
  | opened => exact congrArg (Connection.afterFailure · .commitTransaction) fits
  | holding =>
      rcases fits with ⟨transaction, rfl, _⟩
      rfl
  | recorded =>
      rcases fits with ⟨transaction, rfl⟩
      rfl
  | aborted => exact congrArg (Connection.afterFailure · .commitTransaction) fits

theorem afterFailure {statement : Statement} (fits : stage.Fits own)
    (allowed : stage.Allows statement) :
    (stage.afterFailure statement).Fits (own.afterFailure statement) := by
  cases statement with
  | startTransaction => exact fits.broken
  | commitTransaction => exact fits.broken
  | rollbackTransaction => rfl
  | query manager query =>
      cases manager with
      | dataSource => exact fits
      | transactional => exact fits.broken
  | findRequestForUpdate manager text =>
      obtain ⟨rfl, _⟩ : manager = .transactional ∧ stage = .opened := allowed
      exact fits.broken
  | modify manager modification =>
      obtain rfl : manager = .transactional := by cases modification <;> exact allowed.1
      exact fits.broken

theorem of_executeFindForUpdate {text : JsString}
    {reply : Except DatabaseError (Option ProcessingRequestRow)}
    (answered : executeFindForUpdate others shared (.opened .empty) text =
      some (reply, shared', own')) :
    (protocol.after .opened (.findRequestForUpdate .transactional text) reply).Fits own' := by
  unfold executeFindForUpdate at answered
  simp only at answered
  split at answered
  · cases answered
    rfl
  · split at answered
    · cases answered
      exact ⟨.empty, rfl, by simp [Transaction.empty]⟩
    · split at answered
      · cases answered
      · cases answered
        exact ⟨_, rfl, by simp [Transaction.empty]⟩

theorem of_executeModification {manager : Manager} {modification : Modification}
    {reply : Except DatabaseError Unit} (fits : stage.Fits own)
    (allowed : stage.Allows (.modify manager modification))
    (answered : executeModification others choice index shared own manager modification =
      some (reply, shared', own')) :
    (protocol.after stage (.modify manager modification) reply).Fits own' := by
  obtain ⟨rfl, transaction, rfl, unrecorded⟩ : manager = .transactional ∧ ∃ transaction,
      own = .opened transaction ∧ ∀ event, .insertEvent event ∉ transaction.writes := by
    cases modification <;> obtain ⟨rfl, rfl⟩ := allowed
    · exact ⟨rfl, .empty, fits, by simp [Transaction.empty]⟩
    all_goals exact ⟨rfl, fits⟩
  obtain ⟨attempt, attempted, settled⟩ := Option.map_eq_some_iff.mp answered
  cases attempt with
  | error error =>
      cases settled
      exact fits.afterFailure allowed
  | ok write =>
      cases settled
      cases modification with
      | insertEvent eventId processingRequestId => exact ⟨_, rfl⟩
      | insertRequest request =>
          rcases attempt_insertRequest attempted with ⟨row, _, rfl, _⟩
          exact ⟨_, rfl, by simpa [Transaction.record] using unrecorded⟩
      | saveRequest request =>
          simp only [Modification.attempt] at attempted
          split at attempted
          · cases attempted
          · obtain ⟨rfl, _⟩ := attemptRow_eq_ok attempted
            exact ⟨_, rfl, by simpa [Transaction.record] using unrecorded⟩
      | insertOutbox entry =>
          cases attempted
          exact ⟨_, rfl, by simpa [Transaction.record] using unrecorded⟩

/-- An answer leaves the connection at the stage the reply leads to. -/
theorem of_execute {faults : Bool} {statement : Statement} {reply : signature.Reply statement}
    (fits : stage.Fits own) (allowed : stage.Allows statement)
    (answered : execute others choice index shared own faults statement =
      some (reply, shared', own')) :
    (protocol.after stage statement reply).Fits own' := by
  unfold execute at answered
  split at answered
  · split at answered
    · cases answered
      exact fits.afterFailure allowed
    · cases answered
  · cases statement with
    | startTransaction =>
        obtain rfl : stage = .idle := allowed
        cases fits
        cases answered
        rfl
    | commitTransaction => cases own <;> cases answered <;> rfl
    | rollbackTransaction =>
        cases answered
        rfl
    | query manager query =>
        have executed := Option.some.inj answered
        unfold executeQuery at executed
        split at executed
        · cases executed
          exact fits
        · cases executed
          exact fits.afterFailure allowed
    | findRequestForUpdate manager text =>
        obtain ⟨rfl, rfl⟩ : manager = .transactional ∧ stage = .opened := allowed
        cases fits
        exact of_executeFindForUpdate answered
    | modify manager modification => exact fits.of_executeModification allowed answered

end Stage.Fits

/-! ## Every call obeys the protocol -/

section Obeys

variable {α : Type} {leaf : Except Thrown α → Stage → Prop} {stage : Stage}

theorem obeys_send {statement : Statement} {leaf : Except Thrown statement.Result → Stage → Prop}
    (allowed : stage.Allows statement)
    (sent : ∀ result, leaf (.ok result) (stage.afterSuccess statement))
    (failed : ∀ error, leaf (.error (.database error)) (stage.afterFailure statement)) :
    (send statement).Obeys protocol leaf stage := by
  refine ⟨allowed, fun reply => ?_⟩
  cases reply with
  | ok result => exact sent result
  | error error => exact failed error

theorem obeys_query {query : Query} {leaf : Except Thrown query.Result → Stage → Prop}
    (asked : ∀ outcome, leaf outcome stage) :
    (send (.query .dataSource query)).Obeys protocol leaf stage :=
  obeys_send trivial (fun _ => asked _) fun _ => asked _

theorem obeys_findOne {criteria : Criteria}
    {leaf : Except Thrown (Option ProcessingRequest) → Stage → Prop}
    (asked : ∀ outcome, leaf outcome stage) :
    (findOne .dataSource criteria).Obeys protocol leaf stage := by
  unfold findOne
  rw [Program.obeys_bind]
  refine obeys_query fun outcome => ?_
  cases outcome with
  | ok row => exact asked _
  | error error => exact asked _

theorem obeys_findByEventId {eventId : JsString}
    {leaf : Except Thrown (Option ProcessingRequest) → Stage → Prop}
    (asked : ∀ outcome, leaf outcome stage) :
    ((repository .dataSource).findByEventId eventId).Obeys protocol leaf stage := by
  simp only [repository]
  rw [Program.obeys_bind]
  refine obeys_query fun outcome => ?_
  cases outcome with
  | error error => exact asked _
  | ok event =>
      simp only
      cases event.bind ProcessedEvent.processingRequestId with
      | none => exact asked _
      | some processingRequestId => exact obeys_findOne asked

theorem obeys_hasEventBeenProcessed {manager : Manager} {eventId : JsString}
    {leaf : Except Thrown Bool → Stage → Prop} (asked : ∀ processed, leaf (.ok processed) stage)
    (failed : ∀ error, leaf (.error (.database error))
      (stage.afterFailure (.query manager (.countEvents eventId)))) :
    ((repository manager).hasEventBeenProcessed eventId).Obeys protocol leaf stage := by
  simp only [repository]
  rw [Program.obeys_bind]
  exact obeys_send trivial (fun _ => asked _) failed

theorem obeys_findForUpdate {processingRequestId : JsString}
    {leaf : Except Thrown (Option ProcessingRequest) → Stage → Prop}
    (found : ∀ request, leaf (.ok request) .holding)
    (failed : ∀ error, leaf (.error (.database error)) .aborted) :
    ((repository .transactional).findForUpdate processingRequestId).Obeys protocol leaf
      .opened := by
  simp only [repository]
  rw [Program.obeys_bind]
  exact obeys_send ⟨rfl, rfl⟩ (fun _ => found _) failed

/-- Whatever becomes of a transaction, it leaves the connection free. -/
theorem obeys_runInTransaction
    {work : TransactionContext signature → Computation signature α}
    (worked : (work ⟨repository .transactional, outboxWriter .transactional⟩).Obeys protocol
      (fun _ _ => True) .opened) (closed : ∀ outcome, leaf outcome .idle) :
    (unitOfWork.runInTransaction work).Obeys protocol leaf .idle := by
  have rolledBack (error : Thrown) (reached : Stage) : (do
      tryCatch (send .rollbackTransaction) fun _ => return ()
      throw error : Computation signature α).Obeys protocol leaf reached := by
    rw [Program.obeys_bind, Program.obeys_tryCatch]
    exact obeys_send trivial (fun _ => closed _) fun _ => closed _
  simp only [unitOfWork]
  rw [Program.obeys_tryCatch, Program.obeys_bind]
  refine obeys_send rfl (fun _ => ?_) fun _ => rolledBack _ _
  simp only
  rw [Program.obeys_bind]
  refine worked.mono fun outcome reached _ => ?_
  cases outcome with
  | error error => exact rolledBack error reached
  | ok result =>
      simp only
      rw [Program.obeys_bind]
      exact obeys_send trivial (fun _ => closed _) fun _ => rolledBack _ _

theorem obeys_insertion (input : CreateProcessingRequestUseCase.Input)
    (request : ProcessingRequest) :
    (CreateProcessingRequestUseCase.insertion input request
      ⟨repository .transactional, outboxWriter .transactional⟩).Obeys protocol (fun _ _ => True)
      .opened := by
  unfold CreateProcessingRequestUseCase.insertion
  simp only [repository, outboxWriter]
  rw [Program.obeys_bind, Program.obeys_tryCatch]
  refine obeys_send ⟨rfl, rfl⟩ (fun _ => ?_) fun _ => trivial
  simp only
  rw [Program.obeys_bind]
  refine obeys_send ⟨rfl, rfl⟩ (fun _ => ?_) fun _ => trivial
  exact obeys_send ⟨rfl, rfl⟩ (fun _ => trivial) fun _ => trivial

theorem obeys_lostRace {leaf : Except Thrown CreateProcessingRequestUseCase.Result → Stage → Prop}
    (input : CreateProcessingRequestUseCase.Input) (error : Thrown)
    (asked : ∀ outcome, leaf outcome stage) :
    (CreateProcessingRequestUseCase.lostRace (repository .dataSource) input error).Obeys protocol
      leaf stage := by
  unfold CreateProcessingRequestUseCase.lostRace
  split
  · rw [Program.obeys_bind]
    refine obeys_findOne fun outcome => ?_
    rcases outcome with _ | _ | winner <;> exact asked _
  · rw [Program.obeys_bind]
    refine obeys_findOne fun outcome => ?_
    rcases outcome with _ | _ | winner
    · exact asked _
    · exact asked _
    · exact Program.obeys_ofExcept.mpr (asked _)
  · exact asked _

theorem obeys_create {leaf : Except Thrown CreateProcessingRequestUseCase.Result → Stage → Prop}
    (draws : Draws) (input : CreateProcessingRequestUseCase.Input)
    (closed : ∀ outcome, leaf outcome .idle) :
    (CreateProcessingRequestUseCase.execute (repository .dataSource) unitOfWork draws input).Obeys
      protocol leaf .idle := by
  unfold CreateProcessingRequestUseCase.execute
  cases isBlank input.eventId with
  | true => exact closed _
  | false =>
  cases isBlank input.idempotencyKey with
  | true => exact closed _
  | false =>
  simp only [Bool.false_eq_true, if_false]
  rw [Program.obeys_bind, Program.obeys_ofExcept]
  cases CreateProcessingRequestUseCase.validCorrelationId input.correlationId with
  | error error => exact closed _
  | ok correlationId =>
  simp only
  rw [Program.obeys_bind]
  refine obeys_findByEventId fun outcome => ?_
  rcases outcome with _ | _ | existing
  · exact closed _
  · simp only
    rw [Program.obeys_bind, Program.obeys_ofExcept]
    split
    · rw [Program.obeys_bind]
      refine obeys_findOne fun outcome => ?_
      rcases outcome with _ | _ | bound
      · exact closed _
      · simp only
        rw [Program.obeys_bind]
        refine obeys_findOne fun outcome => ?_
        rcases outcome with _ | _ | known
        · exact closed _
        · simp only
          rw [Program.obeys_tryCatch, Program.obeys_bind]
          refine obeys_runInTransaction (obeys_insertion input _) fun outcome => ?_
          cases outcome with
          | ok _ => exact closed _
          | error error => exact obeys_lostRace input error closed
        · exact closed _
      · exact Program.obeys_ofExcept.mpr (closed _)
    · exact closed _
  · exact closed _

theorem obeys_record (event : LifecycleEvent) (request : ProcessingRequest)
    (decision : Decision) :
    (event.record ⟨repository .transactional, outboxWriter .transactional⟩ request
      decision).Obeys protocol (fun _ _ => True) .holding := by
  cases decision with
  | noted =>
      simp only [LifecycleEvent.record, repository]
      rw [Program.obeys_bind]
      exact obeys_send ⟨rfl, rfl⟩ (fun _ => trivial) fun _ => trivial
  | applied updated entry =>
      cases entry with
      | none =>
          simp only [LifecycleEvent.record, repository]
          rw [Program.obeys_bind]
          refine obeys_send ⟨rfl, rfl⟩ (fun _ => ?_) fun _ => trivial
          simp only
          rw [Program.obeys_bind]
          exact obeys_send ⟨rfl, rfl⟩ (fun _ => trivial) fun _ => trivial
      | some entry =>
          simp only [LifecycleEvent.record, repository, outboxWriter]
          rw [Program.obeys_bind]
          refine obeys_send ⟨rfl, rfl⟩ (fun _ => ?_) fun _ => trivial
          simp only
          rw [Program.obeys_bind]
          refine obeys_send ⟨rfl, rfl⟩ (fun _ => ?_) fun _ => trivial
          simp only
          rw [Program.obeys_bind]
          exact obeys_send ⟨rfl, rfl⟩ (fun _ => trivial) fun _ => trivial

theorem obeys_locked {leaf : Except Thrown ProcessingRequest → Stage → Prop}
    (event : LifecycleEvent) (closed : ∀ outcome, leaf outcome .idle) :
    (unitOfWork.runInTransaction fun ctx => do
      let some request ← ctx.requests.findForUpdate event.processingRequestId
        | throw (processingRequestNotFound event.processingRequestId)
      if ← ctx.requests.hasEventBeenProcessed event.eventId then
        return request
      event.handleLocked ctx request).Obeys protocol leaf .idle := by
  refine obeys_runInTransaction ?_ closed
  simp only
  rw [Program.obeys_bind]
  refine obeys_findForUpdate (fun found => ?_) fun _ => trivial
  cases found with
  | none => trivial
  | some request =>
  simp only
  rw [Program.obeys_bind]
  refine obeys_hasEventBeenProcessed (fun processed => ?_) fun _ => trivial
  cases processed with
  | true => trivial
  | false =>
  simp only [Bool.false_eq_true, if_false]
  unfold LifecycleEvent.handleLocked
  rw [Program.obeys_bind, Program.obeys_ofExcept]
  cases event.decide request with
  | error error => trivial
  | ok decision => exact obeys_record event request decision

theorem obeys_handle {leaf : Except Thrown ProcessingRequest → Stage → Prop}
    (event : LifecycleEvent) (closed : ∀ outcome, leaf outcome .idle) :
    (event.handle (repository .dataSource) unitOfWork).Obeys protocol leaf .idle := by
  unfold LifecycleEvent.handle
  cases event.refusal with
  | some error => exact closed _
  | none =>
  unfold LifecycleEvent.handleValid
  rw [Program.obeys_bind]
  refine obeys_hasEventBeenProcessed (fun processed => ?_) fun _ => closed _
  cases processed with
  | false => exact obeys_locked event closed
  | true =>
  simp only [if_true]
  rw [Program.obeys_bind]
  refine obeys_findByEventId fun outcome => ?_
  rcases outcome with _ | _ | existing
  · exact closed _
  · exact obeys_locked event closed
  · exact closed _

theorem obeys_execute {leaf : Except Thrown Answer → Stage → Prop} (operation : Operation)
    (closed : ∀ outcome, leaf outcome .idle) :
    (operation.execute (repository .dataSource) unitOfWork).Obeys protocol leaf .idle := by
  rcases operation.create_or_event with ⟨draws, input, rfl⟩ | ⟨event, isEvent⟩
  · simp only [Operation.execute]
    rw [map_eq_pure_bind, Program.obeys_bind]
    refine obeys_create draws input fun outcome => ?_
    cases outcome <;> exact closed _
  · rw [Operation.execute_of_event isEvent, map_eq_pure_bind, Program.obeys_bind]
    refine obeys_handle event fun outcome => ?_
    cases outcome <;> exact closed _

end Obeys

/-! ## Who waits for whom -/

/-- Whether the transaction has recorded an event. -/
def Transaction.hasRecorded (transaction : Transaction) : Bool :=
  transaction.writes.any fun
    | .insertEvent _ => true
    | _ => false

/-- How much a connection holds: nothing, something, or the record of its event as well. -/
def Connection.rank (own : Connection) : ℕ :=
  if own.pending = .empty then 0 else if own.pending.hasRecorded then 2 else 1

/-- The statement is served, not failed. -/
def Choice.Proceeds : Choice → Prop
  | .fail _ => False
  | _ => True

theorem Connection.rank_pos {own : Connection} (holds : own.pending ≠ .empty) : 0 < own.rank := by
  unfold Connection.rank
  rw [if_neg holds]
  split <;> omega

theorem Connection.rank_of_hasRecorded {own : Connection}
    (recorded : own.pending.hasRecorded = true) : own.rank = 2 := by
  have holds : own.pending ≠ .empty := by
    rintro isEmpty
    rw [isEmpty] at recorded
    cases recorded
  rw [Connection.rank, if_neg holds, if_pos recorded]

theorem Connection.rank_le_one {own : Connection}
    (unrecorded : ∀ event, .insertEvent event ∉ own.pending.writes) : own.rank ≤ 1 := by
  unfold Connection.rank
  split
  · omega
  · rw [if_neg]
    simp only [Transaction.hasRecorded, List.any_eq_true, not_exists, not_and]
    intro write writeMem recorded
    cases write with
    | insertEvent event => exact unrecorded event writeMem
    | _ => cases recorded

theorem Stage.Fits.rank_opened {own : Connection} (fits : Stage.opened.Fits own) :
    own.rank = 0 := by
  cases fits
  rfl

section Waits

variable {ι : Type} [Fintype ι] [DecidableEq ι] {operations : ι → Operation} {initial : Database}
  {index : ι} {shared : Shared ι} {connections : ι → Connection} {faults : Bool}

theorem exists_other {test : Transaction → Bool}
    (blocked : othersOf index connections test = true) :
    ∃ other, other ≠ index ∧ test (connections other).pending = true :=
  of_decide_eq_true blocked

/-- A row that waits for nobody is stored, or refused for a collision. -/
theorem attemptRow_answers (free : UniqueIndex → Bool) {blocked : Bool} (write : Write)
    (clear : blocked = false) :
    ∃ choice : Choice, choice.Proceeds ∧
      (Modification.attemptRow choice free blocked write).isSome := by
  by_cases allFree : UniqueIndex.all.all free = true
  · exact ⟨.proceed, trivial, by simp [Modification.attemptRow, allFree, clear]⟩
  · simp only [List.all_eq_true, not_forall] at allFree
    rcases allFree with ⟨taken, _, notFree⟩
    exact ⟨.violate taken, trivial, by simp [Modification.attemptRow, notFree]⟩

/-- A row that is saved is locked by nobody else, and collides with nobody's insert. -/
theorem clear_of_saveRequest (invariant : Invariant operations initial shared connections)
    {transaction : Transaction} (opened : connections index = .opened transaction)
    {row before : ProcessingRequestRow} (locked : row.processingRequestId ∈ transaction.locks)
    (beforeMem : before ∈ shared.database.requests) (same : before.SameIdentity row) :
    (othersOf index connections (Transaction.locksRow row.processingRequestId) ||
      othersOf index connections (Transaction.insertsCollidingRow row)) = false := by
  rw [Bool.or_eq_false_iff]
  constructor
  · by_contra blocked
    rcases exists_other (Bool.not_eq_false _ ▸ blocked) with ⟨other, different, otherLocks⟩
    have apart := invariant.apart index other different.symm
    rw [opened] at apart
    exact apart.locks _ locked (of_decide_eq_true otherLocks)
  · by_contra blocked
    rcases exists_other (Bool.not_eq_false _ ▸ blocked) with ⟨other, different, otherInserts⟩
    rcases List.any_eq_true.mp otherInserts with ⟨write, writeMem, collides⟩
    cases write with
    | insertRequest inserted =>
        rcases List.any_eq_true.mp collides with ⟨uniqueIndex, _, collision⟩
        have collision := of_decide_eq_true collision
        exact (invariant.admissible other).inserted inserted writeMem before beforeMem uniqueIndex
          (UniqueIndex.Collides.of_sameIdentity same collision).symm
    | _ => cases collides

/-- A write is answered, unless somebody holds more than the session that waits. -/
theorem attempt_answers_or_waits (invariant : Invariant operations initial shared connections)
    {stage : Stage} {modification : Modification} {transaction : Transaction}
    (opened : connections index = .opened transaction) (fits : stage.Fits (connections index))
    (allowed : stage.Allows (.modify .transactional modification))
    (guaranteed : modification.Guaranteed (operations index).eventId shared transaction)
    (nextOutboxId : ℕ) (view : Database) :
    (∃ choice : Choice, choice.Proceeds ∧ (modification.attempt (othersOf index connections) choice
      nextOutboxId view).isSome) ∨
    ∃ other, (connections index).rank < (connections other).rank := by
  cases modification with
  | insertRequest request =>
      simp only [Modification.attempt]
      cases ProcessingRequestRow.toRow request with
      | none => exact .inl ⟨.proceed, trivial, rfl⟩
      | some row =>
          obtain ⟨_, rfl⟩ : _ ∧ stage = .opened := allowed
          cases blocked : othersOf index connections (Transaction.insertsCollidingRow row) with
          | false => exact .inl (attemptRow_answers _ _ blocked)
          | true =>
              rcases exists_other blocked with ⟨other, _, inserts⟩
              refine .inr ⟨other, ?_⟩
              rw [fits.rank_opened]
              refine Connection.rank_pos fun isEmpty => ?_
              rw [isEmpty] at inserts
              cases inserts
  | saveRequest request =>
      rcases guaranteed with ⟨row, before, rfl, locked, beforeMem, same⟩
      simp only [Modification.attempt, ProcessingRequestRow.toRow_toDomain]
      exact .inl (attemptRow_answers _ _
        (clear_of_saveRequest invariant opened locked beforeMem same))
  | insertEvent eventId processingRequestId =>
      obtain ⟨_, rfl⟩ : _ ∧ stage = .holding := allowed
      simp only [Modification.attempt]
      split
      · exact .inl ⟨.proceed, trivial, rfl⟩
      · split
        · exact .inl ⟨.proceed, trivial, rfl⟩
        · split
          · rename_i blocked
            rcases exists_other blocked with ⟨other, _, records⟩
            refine .inr ⟨other, ?_⟩
            rcases fits with ⟨own, isOwn, unrecorded⟩
            have least : (connections index).rank ≤ 1 := by
              rw [isOwn]
              exact Connection.rank_le_one unrecorded
            have most : (connections other).rank = 2 := by
              refine Connection.rank_of_hasRecorded ?_
              rcases List.any_eq_true.mp records with ⟨write, writeMem, recorded⟩
              refine List.any_eq_true.mpr ⟨write, writeMem, ?_⟩
              cases write <;> simp_all
            omega
          · exact .inl ⟨.proceed, trivial, rfl⟩
  | insertOutbox entry => exact .inl ⟨.proceed, trivial, rfl⟩

/-- So is any statement. -/
theorem execute_answers_or_waits (faults : Bool)
    (invariant : Invariant operations initial shared connections)
    {stage : Stage} {statement : Statement} (fits : stage.Fits (connections index))
    (allowed : stage.Allows statement)
    (guaranteed : Guaranteed operations index (connections index) shared statement) :
    (∃ choice : Choice, choice.Proceeds ∧ (execute (othersOf index connections) choice index shared
      (connections index) faults statement).isSome) ∨
    ∃ other, (connections index).rank < (connections other).rank := by
  cases statement with
  | startTransaction =>
      obtain rfl : stage = .idle := allowed
      refine .inl ⟨.proceed, trivial, ?_⟩
      rw [fits]
      rfl
  | commitTransaction =>
      refine .inl ⟨.proceed, trivial, ?_⟩
      cases connections index <;> rfl
  | rollbackTransaction => exact .inl ⟨.proceed, trivial, rfl⟩
  | query manager query => exact .inl ⟨.proceed, trivial, rfl⟩
  | findRequestForUpdate manager text =>
      obtain ⟨rfl, rfl⟩ : manager = .transactional ∧ stage = .opened := allowed
      have opened : connections index = .opened .empty := fits
      by_cases blocked : ∃ id, Uuid.parse text = some id ∧
          othersOf index connections (Transaction.locksRow id) = true
      · rcases blocked with ⟨id, _, blocked⟩
        rcases exists_other blocked with ⟨other, _, locks⟩
        refine .inr ⟨other, ?_⟩
        rw [fits.rank_opened]
        refine Connection.rank_pos fun isEmpty => ?_
        rw [isEmpty] at locks
        cases locks
      · refine .inl ⟨.proceed, trivial, ?_⟩
        simp only [execute, executeFindForUpdate, opened]
        split
        · rfl
        · rename_i id parsed
          split
          · rfl
          · rw [if_neg fun locks => blocked ⟨id, parsed, locks⟩]
            rfl
  | modify manager modification =>
      rcases guaranteed with ⟨rfl, transaction, opened, guaranteed⟩
      rcases attempt_answers_or_waits invariant opened fits allowed guaranteed shared.nextOutboxId
        (shared.database.applyAll transaction.writes) with ⟨choice, proceeds, answered⟩ | waits
      · refine .inl ⟨choice, proceeds, ?_⟩
        cases choice with
        | fail error => exact proceeds.elim
        | _ => simpa [execute, executeModification, opened, Connection.view] using answered
      · exact .inr waits

end Waits

/-! ## Runs that end -/

section Runs

variable {ι : Type} [Fintype ι] [DecidableEq ι] {operations : ι → Operation} {initial : Database}
  {nextOutboxId : ℕ} {faults : Bool}

/-- The steps of a session whose statement is served. -/
def Served : Machine.Action (machine ι faults) → Prop
  | .session _ choice => choice.Proceeds
  | .environment _ => True

theorem respects : (machine ι faults).Respects protocol Stage.Fits :=
  fun answered fits allowed => fits.of_execute allowed answered

theorem obeys_start : (start faults operations initial nextOutboxId).Obeys protocol Stage.Fits
    fun _ stage => stage = .idle :=
  fun index => ⟨.idle, rfl, obeys_execute (operations index) fun _ => rfl⟩

theorem atMost_start : (start faults operations initial nextOutboxId).AtMost (fun _ _ => True)
    fun _ => 11 :=
  fun index => atMost_execute (operations index)

variable {world : Machine.World (machine ι true) Thrown Answer}

/-- A call that has not ended and is served by no choice waits for one that holds more. -/
theorem waits_for_more (numbered : Numbered initial nextOutboxId)
    (reached : Machine.Reaches (start true operations initial nextOutboxId) world) {index : ι}
    {statement : Statement} {resume} (running : world.programs index = .call statement resume)
    (blocked : ∀ choice next, choice.Proceeds →
      Machine.step world (.session index choice) ≠ some next) :
    ∃ other, (∃ statement resume, world.programs other = .call statement resume) ∧
      (world.locals index).rank < (world.locals other).rank := by
  have holds := holds_reached numbered reached
  have obeys := obeys_start.reaches respects reached
  have guaranteed :
      Guaranteed operations index (world.locals index) world.shared statement := by
    rcases holds.2 index with ⟨assertion, _, asserted, verified⟩
    rw [running] at verified
    exact (verified (.fail .connectionError) world.shared world.locals _ _ _ holds.1 rfl asserted
      rfl).1
  rcases obeys index with ⟨stage, fits, obeyed⟩
  rw [running] at obeyed
  rcases execute_answers_or_waits true holds.1 fits obeyed.1 guaranteed with
    ⟨choice, proceeds, answered⟩ | ⟨other, less⟩
  · rcases Machine.exists_step_of_answer running answered with ⟨next, stepped⟩
    exact absurd stepped (blocked choice next proceeds)
  · refine ⟨other, ?_, less⟩
    rcases obeys other with ⟨reachedStage, otherFits, otherObeys⟩
    cases program : world.programs other with
    | call statement resume => exact ⟨statement, resume, rfl⟩
    | _ =>
        rw [program] at otherObeys
        cases otherObeys
        rw [otherFits] at less
        exact absurd less (Nat.not_lt_zero _)

theorem exists_served_of_reaches (numbered : Numbered initial nextOutboxId)
    (reached : Machine.Reaches (start true operations initial nextOutboxId) world)
    (unfinished : ¬ world.Finished) :
    ∃ index choice next, Choice.Proceeds choice ∧
      Machine.step world (.session index choice) = some next := by
  have waits (index : ι)
      (running : ∃ statement resume, world.programs index = .call statement resume)
      (blocked : ¬ ∃ choice next, Choice.Proceeds choice ∧
        Machine.step world (.session index choice) = some next) :
      ∃ other, (∃ statement resume, world.programs other = .call statement resume) ∧
        (world.locals index).rank < (world.locals other).rank := by
    rcases running with ⟨statement, resume, running⟩
    exact waits_for_more numbered reached running fun choice next proceeds stepped =>
      blocked ⟨choice, next, proceeds, stepped⟩
  rcases exists_of_rank _ waits (Machine.World.exists_running unfinished) with
    ⟨index, _, choice, next, proceeds, stepped⟩
  exact ⟨index, choice, next, proceeds, stepped⟩

/-- In every reachable state some call that has not ended is served: no two calls ever wait for
each other, whatever failed before. -/
theorem exists_served (operations : ι → Operation) (numbered : Numbered initial nextOutboxId)
    {world : Machine.World (machine ι true) Thrown Answer}
    (reached : Machine.Reaches (start true operations initial nextOutboxId) world)
    (unfinished : ¬ world.Finished) :
    ∃ index choice next, Choice.Proceeds choice ∧
      Machine.step world (.session index choice) = some next :=
  exists_served_of_reaches numbered reached unfinished

/-- The calls whose statements are answered, in order. -/
def callsInTurn (turns : List (Fin 3)) : List (Machine.Action (machine (Fin 3) true)) :=
  turns.map fun index => .session index .proceed

/-- The first delivery of an acceptance holds the row, and the second waits for it. -/
theorem exists_served_held : ∃ world : Machine.World (machine (Fin 3) true) Thrown Answer,
    Machine.runActions (start true redeliveredAcceptance .empty 1)
      (callsInTurn [0, 0, 0, 0, 0, 0, 0, 0, 1, 1, 1, 2, 2]) = some world ∧
    (Machine.step world (.session 2 Choice.proceed)).isNone = true ∧
    ∃ index choice next, Choice.Proceeds choice ∧
      Machine.step world (.session index choice) = some next := by
  have ran : ((Machine.runActions (start true redeliveredAcceptance .empty 1)
      (callsInTurn [0, 0, 0, 0, 0, 0, 0, 0, 1, 1, 1, 2, 2])).map fun world =>
        ((Machine.step world (.session 2 Choice.proceed)).isNone,
          (world.programs 2).outcome?.isNone)) = some (true, true) := by
    decide +kernel
  rcases Option.map_eq_some_iff.mp ran with ⟨world, ran, waiting⟩
  obtain ⟨waits, running⟩ := Prod.mk.inj waiting
  refine ⟨world, ran, waits,
    exists_served redeliveredAcceptance numbered_empty (Machine.reaches_of_runActions ran) ?_⟩
  intro finished
  rcases finished 2 with ⟨outcome, ended⟩
  rw [Program.outcome?_eq_some_iff.mpr ended] at running
  cases running

/-- Whatever the order of the statements and whichever of them fail, a run of the calls takes at
most eleven steps for each of them. -/
theorem length_le_of_runActions {world : Machine.World (machine ι faults) Thrown Answer}
    {actions : List (Machine.Action (machine ι faults))}
    (ran : Machine.runActions (start faults operations initial nextOutboxId) actions =
      some world) : actions.length ≤ 11 * Fintype.card ι := by
  have sessions : actions.countP Machine.Action.isSession = actions.length :=
    List.countP_eq_length.mpr fun action _ => by
      cases action with
      | session index choice => rfl
      | environment event => cases event
  rcases atMost_start.runActions (fun _ => trivial) ran with ⟨left, _, less⟩
  rw [sessions, Finset.sum_const_nat fun _ _ => rfl] at less
  rw [Nat.mul_comm]
  exact (Nat.le_add_right _ _).trans less

/-- From every reachable state, steps that are served answer all calls. -/
theorem exists_finished_of_reaches (numbered : Numbered initial nextOutboxId)
    (reached : Machine.Reaches (start true operations initial nextOutboxId) world) :
    ∃ last, Machine.ReachesBy Served world last ∧ last.Finished := by
  rcases atMost_start.reaches (fun _ => trivial) reached with ⟨left, atMost⟩
  refine atMost.exists_finished (fun _ => trivial) fun middle further unfinished => ?_
  exact exists_served_of_reaches numbered
    (reached.trans (Machine.ReachesBy.reaches further)) unfinished

/-- However a run of the calls began and whatever failed on the way, steps that are served answer
them all, and it has taken at most eleven steps for each call. -/
theorem calls_can_finish (numbered : Numbered initial nextOutboxId)
    {actions : List (Machine.Action (machine ι true))}
    (ran : Machine.runActions (start true operations initial nextOutboxId) actions =
      some world) :
    ∃ more last, Machine.runActions world more = some last ∧ (∀ action ∈ more, Served action) ∧
      last.Finished ∧ actions.length + more.length ≤ 11 * Fintype.card ι := by
  rcases exists_finished_of_reaches numbered (Machine.reaches_of_runActions ran) with
    ⟨last, continued, finished⟩
  rcases Machine.exists_runActions continued with ⟨more, continued, served⟩
  refine ⟨more, last, continued, served, finished, ?_⟩
  have whole := length_le_of_runActions (Machine.runActions_append ran continued)
  rwa [List.length_append] at whole

theorem calls_can_finish_held : ∃ world : Machine.World (machine (Fin 3) true) Thrown Answer,
    Machine.runActions (start true redeliveredAcceptance .empty 1)
      (callsInTurn [0, 0, 0, 0, 0, 0, 0, 0, 1, 1, 1, 2, 2]) = some world ∧
    ∃ more last, Machine.runActions world more = some last ∧ (∀ action ∈ more, Served action) ∧
      last.Finished ∧ 13 + more.length ≤ 11 * Fintype.card (Fin 3) := by
  have ran : ((Machine.runActions (start true redeliveredAcceptance .empty 1)
      (callsInTurn [0, 0, 0, 0, 0, 0, 0, 0, 1, 1, 1, 2, 2])).map fun _ => ()) = some () := by
    decide +kernel
  rcases Option.map_eq_some_iff.mp ran with ⟨world, ran, _⟩
  exact ⟨world, ran, calls_can_finish numbered_empty ran⟩

end Runs

end Postgres

end ProcessingCatalog
