import ProcessingCatalog.Persistence.Assertions

/-!
# The rules of the statements

How a session that sends a statement goes on: one rule for each statement, over
any condition on where the session ends. Assertions come in two strengths. A
persistent assertion survives every step of the other sessions; an assertion
about the row a transaction holds survives as long as the transaction is open,
and falls back to a persistent one when a statement fails.
-/

namespace ProcessingCatalog

open Effect TypeOrm

namespace Postgres

variable {ι : Type} [Fintype ι] [DecidableEq ι] {faults : Bool} {operations : ι → Operation}
  {initial : Database} {index : ι} {α : Type}

theorem Persistent.stable {assertion : Shared ι → Prop}
    (persistent : Persistent operations index assertion) (own : Connection) :
    (discipline faults operations initial).Stable index own assertion :=
  fun shared shared' rely => persistent shared shared' rely.toIdle

theorem rowIs_stable {own : Connection} {id : Uuid} {row : ProcessingRequestRow}
    (locked : id ∈ own.pending.locks) :
    (discipline faults operations initial).Stable index own (RowIs id row) :=
  fun _ _ rely found => (rely.locked id locked).trans found

section Rules

variable {base assertion : Shared ι → Prop} {transaction : Transaction} {own : Connection}

/-- A statement may fail with this error, whatever the tables hold. -/
def MayFail (faults : Bool) (error : DatabaseError) : Prop :=
  faults = true ∧ error.IsInfrastructure

/-- The outcome of sending a statement. -/
def replied {β : Type} : Except DatabaseError β → Except Thrown β
  | .ok result => .ok result
  | .error error => .error (.database error)

theorem follows_send {statement : Statement}
    {leaf : Except Thrown statement.Result → Connection → (Shared ι → Prop) → Prop}
    (answered : ∀ choice shared connections reply shared' own',
      Invariant operations initial shared connections → connections index = own →
      assertion shared →
      execute (othersOf index connections) choice index shared own faults statement =
        some (reply, shared', own') →
      Guaranteed operations index own shared statement ∧
      ∃ next, (discipline faults operations initial).Stable index own' next ∧ next shared' ∧
        leaf (replied reply) own' next) :
    (discipline faults operations initial).Follows index leaf (send statement) own assertion := by
  intro choice shared connections reply shared' own' invariant owns holds executed
  obtain ⟨guaranteed, next, stable, established, rest⟩ :=
    answered choice shared connections reply shared' own' invariant owns holds
      (by rw [← owns]; exact executed)
  refine ⟨guaranteed, next, stable, established, ?_⟩
  cases reply with
  | ok result => exact rest
  | error error => exact rest

/-- A statement may fail, and then what is asserted for ever is left; what remains to be shown is
how it is served. -/
theorem follows_send_or_fail {statement : Statement}
    {leaf : Except Thrown statement.Result → Connection → (Shared ι → Prop) → Prop}
    (persistent : Persistent operations index base)
    (entails : ∀ shared, assertion shared → base shared)
    (failed : ∀ error, MayFail faults error →
      leaf (.error (.database error)) (own.afterFailure statement) base)
    (guaranteed : ∀ shared connections, Invariant operations initial shared connections →
      connections index = own → assertion shared →
      Guaranteed operations index own shared statement)
    (served : ∀ choice shared connections reply shared' own', (∀ error, choice ≠ .fail error) →
      Invariant operations initial shared connections → connections index = own →
      assertion shared →
      execute (othersOf index connections) choice index shared own faults statement =
        some (reply, shared', own') →
      ∃ next, (discipline faults operations initial).Stable index own' next ∧ next shared' ∧
        leaf (replied reply) own' next) :
    (discipline faults operations initial).Follows index leaf (send statement) own assertion := by
  refine follows_send fun choice shared connections reply shared' own' invariant owns holds
    executed => ⟨guaranteed shared connections invariant owns holds, ?_⟩
  cases choice with
  | fail error =>
      simp only [execute] at executed
      split at executed
      · rename_i fails
        cases executed
        exact ⟨base, persistent.stable _, entails shared holds, failed error fails⟩
      · cases executed
  | proceed =>
      exact served .proceed shared connections reply shared' own' nofun invariant owns holds
        executed
  | violate collided =>
      exact served (.violate collided) shared connections reply shared' own' nofun invariant owns
        holds executed

theorem follows_startTransaction
    {leaf : Except Thrown Unit → Connection → (Shared ι → Prop) → Prop}
    (persistent : Persistent operations index base)
    (failed : ∀ error, MayFail faults error → leaf (.error (.database error)) .idle base)
    (started : leaf (.ok ()) (.opened .empty) base) :
    (discipline faults operations initial).Follows index leaf (send .startTransaction) .idle
      base := by
  refine follows_send_or_fail persistent (fun _ holds => holds) failed (fun _ _ _ _ _ => trivial)
    fun choice shared connections reply shared' own' proceeds _ _ holds executed => ?_
  unfold execute at executed
  split at executed
  · exact absurd rfl (proceeds _)
  · cases executed
    exact ⟨base, persistent.stable _, holds, started⟩

/-- Ending a transaction that has thrown: whatever becomes of the rollback, the error is
thrown on and the connection is free. -/
theorem follows_rollback {leaf : Except Thrown α → Connection → (Shared ι → Prop) → Prop}
    (persistent : Persistent operations index base) (entails : ∀ shared, assertion shared →
      base shared) {error : Thrown} (thrown : leaf (.error error) .idle base) :
    (discipline faults operations initial).Follows index leaf
      (do
        tryCatch (send .rollbackTransaction) fun _ => return ()
        throw error : Computation signature α) own assertion := by
  rw [Discipline.follows_bind, Discipline.follows_tryCatch]
  refine follows_send fun choice shared connections reply shared' own' _ _ holds executed => ?_
  refine ⟨trivial, base, persistent.stable own', ?_⟩
  have ended : shared' = shared ∧ own' = .idle := by
    unfold execute at executed
    split at executed
    · split at executed
      · cases executed
        exact ⟨rfl, rfl⟩
      · cases executed
    · cases executed
      exact ⟨rfl, rfl⟩
  obtain ⟨rfl, rfl⟩ := ended
  refine ⟨entails shared' holds, ?_⟩
  cases reply with
  | ok result => exact thrown
  | error failure => exact thrown

/-- A query, which sees what its connection sees. -/
theorem follows_query_of_view {manager : Manager} {query : Query}
    {leaf : Except Thrown query.Result → Connection → (Shared ι → Prop) → Prop}
    {view : Database → Database}
    (views : ∀ database, own.view database manager = .ok (view database))
    (persistent : Persistent operations index base)
    (entails : ∀ shared, assertion shared → base shared)
    (failed : ∀ error, (MayFail faults error ∨ ∃ database, query.run database = .error error) →
      leaf (.error (.database error)) (own.afterFailure (.query manager query)) base)
    (answered : ∀ result, (∃ database, query.run database = .ok result) →
      ∃ next, (discipline faults operations initial).Stable index own next ∧
      (∀ shared, assertion shared → Represented operations initial shared →
        query.run (view shared.database) = .ok result → next shared) ∧
      leaf (.ok result) own next) :
    (discipline faults operations initial).Follows index leaf
      (send (.query manager query)) own assertion := by
  refine follows_send_or_fail persistent entails (fun error fails => failed error (.inl fails))
    (fun _ _ _ _ _ => trivial)
    fun choice shared connections reply shared' own' proceeds invariant _ holds executed => ?_
  unfold execute at executed
  split at executed
  · exact absurd rfl (proceeds _)
  · have answer := Option.some.inj executed
    simp only [executeQuery, views, bind, Except.bind] at answer
    split at answer
    · rename_i result ran
      cases answer
      obtain ⟨next, stable, established, rest⟩ := answered result ⟨_, ran⟩
      exact ⟨next, stable, established _ holds invariant.represents ran, rest⟩
    · rename_i error ran
      cases answer
      exact ⟨base, persistent.stable _, entails _ holds, failed error (.inr ⟨_, ran⟩)⟩

/-- A query outside the transaction. -/
theorem follows_query {query : Query}
    {leaf : Except Thrown query.Result → Connection → (Shared ι → Prop) → Prop}
    (persistent : Persistent operations index base)
    (entails : ∀ shared, assertion shared → base shared)
    (failed : ∀ error, (MayFail faults error ∨ ∃ database, query.run database = .error error) →
      leaf (.error (.database error)) .idle base)
    (answered : ∀ result, (∃ database, query.run database = .ok result) →
      ∃ next, Persistent operations index next ∧
      (∀ shared, assertion shared → Represented operations initial shared →
        query.run shared.database = .ok result → next shared) ∧
      leaf (.ok result) .idle next) :
    (discipline faults operations initial).Follows index leaf
      (send (.query .dataSource query)) .idle assertion := by
  refine follows_query_of_view (fun _ => rfl) persistent entails failed fun result ran => ?_
  obtain ⟨next, nextPersistent, established, rest⟩ := answered result ran
  exact ⟨next, nextPersistent.stable _, established, rest⟩

/-- A query of an open transaction, which sees its own writes. -/
theorem follows_query_transactional {query : Query}
    {leaf : Except Thrown query.Result → Connection → (Shared ι → Prop) → Prop}
    (persistent : Persistent operations index base)
    (entails : ∀ shared, assertion shared → base shared)
    (failed : ∀ error, (MayFail faults error ∨ ∃ database, query.run database = .error error) →
      leaf (.error (.database error)) .aborted base)
    (answered : ∀ result, (∃ database, query.run database = .ok result) → ∃ next,
      (discipline faults operations initial).Stable index (.opened transaction) next ∧
      (∀ shared, assertion shared →
        query.run (shared.database.applyAll transaction.writes) = .ok result → next shared) ∧
      leaf (.ok result) (.opened transaction) next) :
    (discipline faults operations initial).Follows index leaf
      (send (.query .transactional query)) (.opened transaction) assertion := by
  refine follows_query_of_view (fun _ => rfl) persistent entails failed fun result ran => ?_
  obtain ⟨next, stable, established, rest⟩ := answered result ran
  exact ⟨next, stable, fun shared holds _ => established shared holds, rest⟩

/-- The row lock: once it is granted the row stays as it was read. -/
theorem follows_findRequestForUpdate {text : JsString}
    {leaf : Except Thrown (Option ProcessingRequestRow) → Connection → (Shared ι → Prop) → Prop}
    (persistent : Persistent operations index base)
    (failed : ∀ error, leaf (.error (.database error)) .aborted base)
    (absent : ∀ id, Uuid.parse text = some id → ∃ next, Persistent operations index next ∧
      (∀ shared, base shared → Represented operations initial shared →
        shared.database.requests.find? id = none → next shared) ∧
      leaf (.ok none) (.opened .empty) next)
    (found : ∀ id row, Uuid.parse text = some id → row.processingRequestId = id →
      ∃ next, Persistent operations index next ∧
      (∀ shared, base shared → Represented operations initial shared → RowIs id row shared →
        next shared) ∧
      leaf (.ok (some row)) (.opened ⟨[], [id]⟩) fun shared => next shared ∧ RowIs id row shared) :
    (discipline faults operations initial).Follows index leaf
      (send (.findRequestForUpdate .transactional text)) (.opened .empty) base := by
  refine follows_send_or_fail persistent (fun _ holds => holds) (fun error _ => failed error)
    (fun _ _ _ _ _ => rfl)
    fun choice shared connections reply shared' own' proceeds invariant _ holds executed => ?_
  unfold execute at executed
  split at executed
  · exact absurd rfl (proceeds _)
  · simp only [executeFindForUpdate] at executed
    split at executed
    · cases executed
      exact ⟨base, persistent.stable _, holds, failed _⟩
    · rename_i id parsed
      split at executed
      · rename_i missing
        cases executed
        obtain ⟨next, nextPersistent, established, rest⟩ := absent id parsed
        exact
          ⟨next, nextPersistent.stable _, established _ holds invariant.represents missing, rest⟩
      · rename_i row isRow
        split at executed
        · cases executed
        · cases executed
          obtain ⟨next, nextPersistent, established, rest⟩ :=
            found id row parsed (KeyedTable.key_of_find? isRow)
          exact ⟨_, (nextPersistent.stable _).and (rowIs_stable (List.mem_singleton.mpr rfl)),
            ⟨established _ holds invariant.represents isRow, isRow⟩, rest⟩

/-- A write of an open transaction. -/
theorem follows_modify {modification : Modification}
    {leaf : Except Thrown Unit → Connection → (Shared ι → Prop) → Prop}
    (persistent : Persistent operations index base)
    (entails : ∀ shared, assertion shared → base shared)
    (guaranteed : ∀ shared, assertion shared →
      modification.Guaranteed (operations index).eventId shared transaction)
    (failed : ∀ error, MayFail faults error → leaf (.error (.database error)) .aborted base)
    (refused : ∀ error, (∃ others choice nextOutboxId view,
        modification.attempt others choice nextOutboxId view = some (.error error)) →
      ∃ next, Persistent operations index next ∧
      (∀ shared others choice nextOutboxId, assertion shared →
        modification.attempt others choice nextOutboxId
          (shared.database.applyAll transaction.writes) = some (.error error) → next shared) ∧
      leaf (.error (.database error)) .aborted next)
    (written : ∀ write, (∃ others choice nextOutboxId view,
        modification.attempt others choice nextOutboxId view = some (.ok write)) →
      (discipline faults operations initial).Stable index
          (.opened (transaction.record write)) assertion ∧
        (∀ shared, assertion shared → assertion (shared.advance write)) ∧
        leaf (.ok ()) (.opened (transaction.record write)) assertion) :
    (discipline faults operations initial).Follows index leaf
      (send (.modify .transactional modification)) (.opened transaction) assertion := by
  refine follows_send_or_fail persistent entails failed
    (fun shared _ _ _ holds => ⟨rfl, transaction, rfl, guaranteed shared holds⟩)
    fun choice shared connections reply shared' own' proceeds _ _ holds executed => ?_
  unfold execute at executed
  split at executed
  · exact absurd rfl (proceeds _)
  · have modified : executeModification (othersOf index connections) choice index shared
        (.opened transaction) .transactional modification = some (reply, shared', own') := executed
    obtain ⟨attempt, attempted, settled⟩ := Option.map_eq_some_iff.mp modified
    cases attempt with
    | error error =>
        cases settled
        obtain ⟨next, nextPersistent, established, rest⟩ := refused error ⟨_, _, _, _, attempted⟩
        exact ⟨next, nextPersistent.stable _, established _ _ _ _ holds attempted, rest⟩
    | ok write =>
        cases settled
        obtain ⟨stable, advanced, rest⟩ := written write ⟨_, _, _, _, attempted⟩
        exact ⟨assertion, stable, advanced shared holds, rest⟩

/-- The commit. What it commits must be what the operation does at that moment, when the
transaction can be committed at all. -/
theorem follows_commitTransaction
    {leaf : Except Thrown Unit → Connection → (Shared ι → Prop) → Prop}
    (persistent : Persistent operations index base)
    (entails : ∀ shared, assertion shared → base shared)
    (fresh : ∀ shared, assertion shared → ∀ entry ∈ shared.committed, entry.1 ≠ index)
    (guaranteed : ∀ shared ledger, assertion shared →
      Admissible (operations index).eventId shared transaction →
      shared.database.Represents ledger →
      ((operations index).perform ledger).2 = transaction.writes.map Change.forget)
    (failed : ∀ error, MayFail faults error → leaf (.error (.database error)) .aborted base)
    (committed : ∃ next, Persistent operations index next ∧
      (∀ shared ledger, assertion shared →
        History operations (.ofDatabase initial) shared.committed ledger →
        shared.database.Represents ledger →
        Admissible (operations index).eventId shared transaction →
        next (shared.commit index transaction.writes)) ∧
      leaf (.ok ()) .idle next) :
    (discipline faults operations initial).Follows index leaf
      (send .commitTransaction) (.opened transaction) assertion := by
  have admissible : ∀ shared connections, Invariant operations initial shared connections →
      connections index = .opened transaction →
      Admissible (operations index).eventId shared transaction := by
    intro shared connections invariant owns
    simpa [owns, Connection.pending] using invariant.admissible index
  refine follows_send_or_fail persistent entails failed ?_ ?_
  · refine fun shared connections invariant owns holds => ⟨fresh shared holds, ?_⟩
    rintro _ ⟨⟩ ledger represents
    exact guaranteed shared ledger holds (admissible _ _ invariant owns) represents
  · intro choice shared connections reply shared' own' proceeds invariant owns holds executed
    unfold execute at executed
    split at executed
    · exact absurd rfl (proceeds _)
    · cases executed
      obtain ⟨ledger, history, represents⟩ := invariant.represents
      obtain ⟨next, nextPersistent, established, rest⟩ := committed
      exact ⟨next, nextPersistent.stable _,
        established shared ledger holds history represents (admissible _ _ invariant owns), rest⟩

/-- A transaction that throws is rolled back to what is asserted for ever. -/
def RollsBack (operations : ι → Operation) (index : ι)
    (leaf : Except Thrown α → Connection → (Shared ι → Prop) → Prop) (error : Thrown)
    (assertion : Shared ι → Prop) : Prop :=
  ∃ next, Persistent operations index next ∧ (∀ shared, assertion shared → next shared) ∧
    leaf (.error error) .idle next

/-- Where the work of a transaction may end, for the transaction to end where `leaf` allows:
it returns to be committed, or throws to be rolled back. -/
def InTransaction (faults : Bool) (operations : ι → Operation) (initial : Database) (index : ι)
    (leaf : Except Thrown α → Connection → (Shared ι → Prop) → Prop) :
    Except Thrown α → Connection → (Shared ι → Prop) → Prop
  | .error error, _, assertion => RollsBack operations index leaf error assertion
  | .ok value, own, assertion => (discipline faults operations initial).Follows index
      (fun outcome own assertion =>
        match outcome with
        | .error error => RollsBack operations index leaf error assertion
        | .ok _ => leaf (.ok value) own assertion)
      (send .commitTransaction) own assertion

theorem InTransaction.weaken {leaf : Except Thrown α → Connection → (Shared ι → Prop) → Prop}
    {outcome : Except Thrown α} {assertion' : Shared ι → Prop}
    (entails : ∀ shared, assertion' shared → assertion shared)
    (ends : InTransaction faults operations initial index leaf outcome own assertion) :
    InTransaction faults operations initial index leaf outcome own assertion' := by
  cases outcome with
  | error error =>
      rcases ends with ⟨next, persistent, told, rest⟩
      exact ⟨next, persistent, fun shared holds => told shared (entails shared holds), rest⟩
  | ok value =>
      intro choice shared locals reply shared' own' invariant owns holds answered
      exact ends choice shared locals reply shared' own' invariant owns (entails shared holds)
        answered

/-- The unit of work: the work of the transaction, then its commit; wherever either throws, a
rollback. -/
theorem follows_runInTransaction {work : TransactionContext signature → Computation signature α}
    {leaf : Except Thrown α → Connection → (Shared ι → Prop) → Prop}
    (persistent : Persistent operations index base)
    (notStarted : ∀ error, MayFail faults error → leaf (.error (.database error)) .idle base)
    (worked : (discipline faults operations initial).Follows index
      (InTransaction faults operations initial index leaf)
      (work ⟨repository .transactional, outboxWriter .transactional⟩) (.opened .empty) base) :
    (discipline faults operations initial).Follows index leaf
      (unitOfWork.runInTransaction work) .idle base := by
  simp only [unitOfWork]
  rw [Discipline.follows_tryCatch, Discipline.follows_bind]
  refine follows_startTransaction persistent (fun error fails => ?_) ?_
  · exact follows_rollback persistent (fun _ holds => holds) (notStarted error fails)
  · rw [Discipline.follows_bind]
    refine worked.mono fun outcome own asserted reached => ?_
    cases outcome with
    | error error =>
        obtain ⟨next, nextPersistent, entails, rest⟩ := reached
        exact follows_rollback nextPersistent entails rest
    | ok value =>
        simp only
        rw [Discipline.follows_bind]
        refine Discipline.Follows.mono reached fun outcome own asserted reached => ?_
        cases outcome with
        | error error =>
            obtain ⟨next, nextPersistent, entails, rest⟩ := reached
            exact follows_rollback nextPersistent entails rest
        | ok _ => exact reached

/-! ## The repository's reads -/

theorem follows_findForUpdate {text : JsString}
    {leaf : Except Thrown (Option ProcessingRequest) → Connection → (Shared ι → Prop) → Prop}
    (persistent : Persistent operations index base)
    (failed : ∀ error, leaf (.error (.database error)) .aborted base)
    (absent : ∀ id, Uuid.parse text = some id → ∃ next, Persistent operations index next ∧
      (∀ shared, base shared → Represented operations initial shared →
        shared.database.requests.find? id = none → next shared) ∧
      leaf (.ok none) (.opened .empty) next)
    (found : ∀ id row, Uuid.parse text = some id → row.processingRequestId = id →
      ∃ next, Persistent operations index next ∧
      (∀ shared, base shared → Represented operations initial shared → RowIs id row shared →
        next shared) ∧
      leaf (.ok (some row.toDomain)) (.opened ⟨[], [id]⟩)
        fun shared => next shared ∧ RowIs id row shared) :
    (discipline faults operations initial).Follows index leaf
      ((repository .transactional).findForUpdate text) (.opened .empty) base := by
  simp only [repository]
  rw [Discipline.follows_bind]
  exact follows_findRequestForUpdate persistent failed absent found

theorem follows_hasEventBeenProcessed {eventId : JsString}
    {leaf : Except Thrown Bool → Connection → (Shared ι → Prop) → Prop}
    (persistent : Persistent operations index base)
    (failed : ∀ error, MayFail faults error → leaf (.error (.database error)) .idle base)
    (unseen : leaf (.ok false) .idle base)
    (seen : leaf (.ok true) .idle fun shared => base shared ∧ Recorded eventId shared) :
    (discipline faults operations initial).Follows index leaf
      ((repository .dataSource).hasEventBeenProcessed eventId) .idle base := by
  simp only [repository]
  rw [Discipline.follows_bind]
  refine follows_query persistent (fun _ holds => holds) ?_ fun count _ => ?_
  · rintro error (fails | ⟨database, ran⟩)
    · exact failed error fails
    · cases ran
  · by_cases positive : 0 < count
    · refine ⟨_, persistent.and (persistent_recorded eventId), fun shared holds _ ran =>
        ⟨holds, recorded_of_countEvents ran positive⟩, ?_⟩
      simp only [positive, decide_true]
      exact seen
    · refine ⟨base, persistent, fun _ holds _ _ => holds, ?_⟩
      simp only [positive, decide_false]
      exact unseen

/-- The check for a duplicate under the lock, before the transaction has written. -/
theorem follows_hasEventBeenProcessed_transactional {eventId : JsString} {locks : List Uuid}
    {leaf : Except Thrown Bool → Connection → (Shared ι → Prop) → Prop}
    (persistent : Persistent operations index base)
    (entails : ∀ shared, assertion shared → base shared)
    (stable : (discipline faults operations initial).Stable index (.opened ⟨[], locks⟩) assertion)
    (failed : ∀ error, MayFail faults error → leaf (.error (.database error)) .aborted base)
    (unseen : leaf (.ok false) (.opened ⟨[], locks⟩) assertion)
    (seen : leaf (.ok true) (.opened ⟨[], locks⟩)
      fun shared => assertion shared ∧ Recorded eventId shared) :
    (discipline faults operations initial).Follows index leaf
      ((repository .transactional).hasEventBeenProcessed eventId) (.opened ⟨[], locks⟩)
      assertion := by
  simp only [repository]
  rw [Discipline.follows_bind]
  refine follows_query_transactional persistent entails ?_ fun count _ => ?_
  · rintro error (fails | ⟨database, ran⟩)
    · exact failed error fails
    · cases ran
  · by_cases positive : 0 < count
    · refine ⟨_, stable.and ((persistent_recorded eventId).stable _), fun shared holds ran =>
        ⟨holds, recorded_of_countEvents ran positive⟩, ?_⟩
      simp only [positive, decide_true]
      exact seen
    · refine ⟨assertion, stable, fun _ holds _ => holds, ?_⟩
      simp only [positive, decide_false]
      exact unseen

theorem follows_findOne {criteria : Criteria}
    {leaf : Except Thrown (Option ProcessingRequest) → Connection → (Shared ι → Prop) → Prop}
    (persistent : Persistent operations index base)
    (entails : ∀ shared, assertion shared → base shared)
    (failed : ∀ error, (MayFail faults error ∨ criteria.selects = .error error) →
      leaf (.error (.database error)) .idle base)
    (answered : ∀ selects row, criteria.selects = .ok selects → ∃ next,
      Persistent operations index next ∧
      (∀ shared, assertion shared → Represented operations initial shared →
        shared.database.requests.rows.find? selects = row → next shared) ∧
      leaf (.ok (row.map ProcessingRequestRow.toDomain)) .idle next) :
    (discipline faults operations initial).Follows index leaf (findOne .dataSource criteria) .idle
      assertion := by
  unfold findOne
  rw [Discipline.follows_bind]
  refine follows_query persistent entails ?_ fun row ran => ?_
  · rintro error (fails | ⟨database, ran⟩)
    · exact failed error (.inl fails)
    · cases selected : criteria.selects with
      | error error' =>
          simp only [Query.run, selected, Except.map, Except.error.injEq] at ran
          exact failed error (.inr (ran ▸ selected))
      | ok selects => simp [Query.run, selected, Except.map] at ran
  · obtain ⟨_, ran⟩ := ran
    cases selected : criteria.selects with
    | error error => simp [Query.run, selected, Except.map] at ran
    | ok selects =>
        obtain ⟨next, nextPersistent, established, rest⟩ := answered selects row selected
        refine ⟨next, nextPersistent, fun shared holds represented ran =>
          established shared holds represented ?_, rest⟩
        simpa [Query.run, selected, Except.map] using ran

theorem follows_findByEventId {eventId : JsString}
    {leaf : Except Thrown (Option ProcessingRequest) → Connection → (Shared ι → Prop) → Prop}
    (persistent : Persistent operations index base)
    (entails : ∀ shared, assertion shared → base shared)
    (failed : ∀ error, MayFail faults error → leaf (.error (.database error)) .idle base)
    (missing : leaf (.ok none) .idle base)
    (found : ∀ row : ProcessingRequestRow, leaf (.ok (some row.toDomain)) .idle
      fun shared => base shared ∧ Recorded eventId shared) :
    (discipline faults operations initial).Follows index leaf
      ((repository .dataSource).findByEventId eventId) .idle assertion := by
  simp only [repository]
  rw [Discipline.follows_bind]
  refine follows_query persistent entails ?_ fun event _ => ?_
  · rintro error (fails | ⟨database, ran⟩)
    · exact failed error fails
    · cases ran
  · cases linked : event.bind ProcessedEvent.processingRequestId with
    | none => exact ⟨base, persistent, fun _ holds _ _ => entails _ holds, by
        simp only [linked]
        exact missing⟩
    | some id =>
        have isRecorded : ∀ database : Database,
            (Query.findEvent eventId).run database = .ok event →
              (database.events.find? eventId).isSome := by
          intro database ran
          simp only [Query.run, Except.ok.injEq] at ran
          rw [ran, Option.isSome_iff_exists]
          exact (Option.bind_eq_some_iff.mp linked).imp fun _ found => found.1
        refine ⟨_, persistent.and (persistent_recorded eventId), fun shared holds _ ran =>
          ⟨entails _ holds, isRecorded _ ran⟩, ?_⟩
        simp only [linked]
        refine follows_findOne persistent (fun _ holds => holds.1) ?_ fun selects row _ => ?_
        · rintro error (fails | refused)
          · exact failed error fails
          · simp [Criteria.selects] at refused
        · cases row with
          | none => exact ⟨base, persistent, fun _ holds _ _ => holds.1, missing⟩
          | some row => exact ⟨_, persistent.and (persistent_recorded eventId),
              fun _ holds _ _ => holds, found row⟩

end Rules

end Postgres

end ProcessingCatalog
