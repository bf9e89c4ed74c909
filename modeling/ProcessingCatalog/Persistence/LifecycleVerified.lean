import ProcessingCatalog.Persistence.StatementRules

/-!
# The lifecycle use cases over PostgreSQL

Each execution is followed through its statements. Between the row lock and the
commit the row stays as it was read, and at the commit its event cannot be
recorded by another transaction; so what the transaction wrote is what the event
does at the moment of the commit.
-/

namespace ProcessingCatalog

open Effect TypeOrm

/-- The request an event names, as a ledger has it, is why the event is refused. -/
def LifecycleEvent.Refused (event : LifecycleEvent) (error : Thrown) (ledger : Ledger) : Prop :=
  ∃ id, Uuid.parse event.processingRequestId = some id ∧
    (ledger.requests.find? id = none ∧
        error = processingRequestNotFound event.processingRequestId ∨
      ∃ row, ledger.requests.find? id = some row ∧ event.decide row.toDomain = .error error)

namespace Postgres

variable {ι : Type} {faults : Bool} {operations : ι → Operation} {initial : Database} {index : ι}

/-- How a lifecycle execution may end: with its event recorded, or with nothing committed. -/
def LifecycleEnded {α : Type} (eventId : JsString) (index : ι) (outcome : Except Thrown α)
    (shared : Shared ι) : Prop :=
  match outcome with
  | .ok _ => Recorded eventId shared
  | .error _ => Uncommitted index shared

/-- Where a lifecycle execution may end. -/
def LifecyclePost {α : Type} (eventId : JsString) (index : ι) (outcome : Except Thrown α)
    (own : Connection) (assertion : Shared ι → Prop) : Prop :=
  own = .idle ∧ ∀ shared, assertion shared → LifecycleEnded eventId index outcome shared

/-- Why an execution threw: for its input, in the database, or for the request as it stood at some
moment since `past`. -/
inductive Explained (operations : ι → Operation) (initial : Database) (event : LifecycleEvent)
    (past : List (ι × List Write)) (shared : Shared ι) : Thrown → Prop where
  | input {error : Thrown} (refused : event.refusal = some error) :
      Explained operations initial event past shared error
  | database (failure : DatabaseError) :
      Explained operations initial event past shared (.database failure)
  | request {error : Thrown} (valid : event.refusal = none)
      (refused : SawSince operations initial past (event.Refused error) shared) :
      Explained operations initial event past shared error

/-- How a lifecycle execution may end, with the reason of what it throws. -/
def LifecycleAccounted {α : Type} (operations : ι → Operation) (initial : Database)
    (event : LifecycleEvent) (index : ι) (past : List (ι × List Write)) (outcome : Except Thrown α)
    (shared : Shared ι) : Prop :=
  match outcome with
  | .ok _ => Recorded event.eventId shared
  | .error error =>
      Uncommitted index shared ∧ Explained operations initial event past shared error

/-- Where a lifecycle execution may end, with the reason of what it throws. -/
def AccountedPost {α : Type} (operations : ι → Operation) (initial : Database)
    (event : LifecycleEvent) (index : ι) (past : List (ι × List Write)) (outcome : Except Thrown α)
    (own : Connection) (assertion : Shared ι → Prop) : Prop :=
  own = .idle ∧ ∀ shared, assertion shared →
    LifecycleAccounted operations initial event index past outcome shared

section RollsBack

variable {α : Type} {event : LifecycleEvent} {past : List (ι × List Write)} {error : Thrown}
  {assertion : Shared ι → Prop}

/-- An execution that throws what is explained for ever is rolled back. -/
theorem rollsBack_explained {told : Shared ι → Prop} (persistent : Persistent operations index told)
    (entails : ∀ shared, assertion shared → told shared)
    (explains : ∀ shared, told shared →
      Uncommitted index shared ∧ Explained operations initial event past shared error) :
    RollsBack (α := α) operations index (AccountedPost operations initial event index past) error
      assertion :=
  ⟨told, persistent, entails, rfl, explains⟩

theorem rollsBack_database {failure : DatabaseError}
    (entails : ∀ shared, assertion shared → Uncommitted index shared) :
    RollsBack (α := α) operations index (AccountedPost operations initial event index past)
      (.database failure) assertion :=
  rollsBack_explained persistent_uncommitted entails fun _ fresh => ⟨fresh, .database failure⟩

end RollsBack

theorem perform_changes {event : LifecycleEvent}
    (isEvent : (operations index).event? = some event) (ledger : Ledger) :
    ((operations index).perform ledger).2 = (event.perform ledger).2 := by
  rw [Operation.perform_of_event isEvent]
  rfl

variable [Fintype ι] [DecidableEq ι]

section Transaction

variable {event : LifecycleEvent} {past : List (ι × List Write)} {transaction : Transaction}
  {assertion : Shared ι → Prop}

/-- A transaction that did what its operation does, and leaves the event recorded, may be
committed. -/
theorem returned_lifecycle {value : ProcessingRequest}
    (entails : ∀ shared, assertion shared → Uncommitted index shared)
    (guaranteed : ∀ shared ledger, assertion shared →
      Admissible (operations index).eventId shared transaction →
      shared.database.Represents ledger →
      ((operations index).perform ledger).2 = transaction.writes.map Change.forget)
    (recorded : ∀ shared, assertion shared →
      Recorded event.eventId (shared.commit index transaction.writes)) :
    InTransaction faults operations initial index
      (AccountedPost operations initial event index past) (.ok value) (.opened transaction)
      assertion := by
  refine follows_commitTransaction persistent_uncommitted entails entails guaranteed
    (fun error _ => rollsBack_database fun _ fresh => fresh) ⟨Recorded event.eventId,
      persistent_recorded event.eventId, fun shared ledger holds _ _ _ => recorded shared holds, ?_⟩
  exact ⟨rfl, fun _ isRecorded => isRecorded⟩

/-- A write of the execution that is not refused joins the transaction. -/
theorem follows_modify_lifecycle {modification : Modification}
    {leaf : Except Thrown Unit → Connection → (Shared ι → Prop) → Prop}
    (entails : ∀ shared, assertion shared → Uncommitted index shared)
    (guaranteed : ∀ shared, assertion shared →
      modification.Guaranteed (operations index).eventId shared transaction)
    (threw : ∀ error, leaf (.error (.database error)) .aborted (Uncommitted index))
    (written : ∀ write, (∃ others choice nextOutboxId view,
        modification.attempt others choice nextOutboxId view = some (.ok write)) →
      (discipline faults operations initial).Stable index
          (.opened (transaction.record write)) assertion ∧
        (∀ shared, assertion shared → assertion (shared.advance write)) ∧
        leaf (.ok ()) (.opened (transaction.record write)) assertion) :
    (discipline faults operations initial).Follows index leaf
      (send (.modify .transactional modification)) (.opened transaction) assertion :=
  follows_modify persistent_uncommitted entails guaranteed (fun error _ => threw error)
    (fun error _ => ⟨Uncommitted index, persistent_uncommitted,
      fun shared _ _ _ holds _ => entails shared holds, threw error⟩) written

end Transaction

/-- What is asserted while an execution holds its row. -/
def Holding (index : ι) (id : Uuid) (row : ProcessingRequestRow) (shared : Shared ι) : Prop :=
  Uncommitted index shared ∧ RowIs id row shared

theorem holding_stable {own : Connection} {id : Uuid} {row : ProcessingRequestRow}
    (locked : id ∈ own.pending.locks) :
    (discipline faults operations initial).Stable index own (Holding index id row) :=
  (persistent_uncommitted.stable own).and (rowIs_stable locked)

section Execution

variable {event : LifecycleEvent} {past : List (ι × List Write)} {id : Uuid}
  {row : ProcessingRequestRow}

/-- The last two steps of a decision: the event is recorded, and the transaction committed. -/
theorem follows_mark (isEvent : (operations index).event? = some event)
    (valid : event.refusal = none) (parsed : Uuid.parse event.processingRequestId = some id)
    {decision : Decision} (decided : event.decide row.toDomain = .ok decision)
    {transaction : Transaction} {row' : ProcessingRequestRow}
    (locked : id ∈ transaction.locks)
    (performed : (event.performDecision row decision).2 =
      transaction.writes.map Change.forget ++
        [.insertEvent ⟨event.eventId, some row'.processingRequestId⟩])
    (value : ProcessingRequest) :
    (discipline faults operations initial).Follows index
      (InTransaction faults operations initial index
        (AccountedPost operations initial event index past))
      (do
        (repository .transactional).markEventProcessed event.eventId
          (some row'.toDomain.processingRequestId)
        return value)
      (.opened transaction) (Holding index id row) := by
  rw [Discipline.follows_bind]
  refine follows_modify_lifecycle (fun _ holds => holds.1)
    (fun _ _ => Operation.eventId_of_event isEvent)
    (fun error => rollsBack_database fun _ fresh => fresh) ?_
  rintro write ⟨others, choice, nextOutboxId, view, attempted⟩
  obtain ⟨recordedId, isId, rfl, _, _⟩ := attempt_insertEvent attempted
  have named : some row'.processingRequestId = recordedId := by
    simpa [ProcessingRequestRow.toDomain, ProcessingRequestRow.uuidColumn] using isId
  subst named
  refine ⟨holding_stable locked, fun _ holds => holds, ?_⟩
  refine returned_lifecycle (fun _ holds => holds.1) ?_ ?_
  · intro shared ledger holds admissible represents
    have unrecorded := unrecorded_of_admissible admissible represents
      (List.mem_append_right _ List.mem_cons_self)
    rw [perform_changes isEvent, LifecycleEvent.perform_decided valid unrecorded parsed
      (represents.requests ▸ holds.2) decided, performed]
    simp [Transaction.record, Change.forget, Change.map]
  · intro shared _
    simp [Recorded, Shared.commit, Transaction.record, Database.applyAll_append, Database.apply,
      Change.applyToEvents]

/-- Saving the locked row. -/
theorem follows_update {row' : ProcessingRequestRow} {transaction : Transaction}
    {leaf : Except Thrown Unit → Connection → (Shared ι → Prop) → Prop}
    (locked : row'.processingRequestId ∈ transaction.locks)
    (same : row.SameIdentity row')
    (threw : ∀ error, leaf (.error (.database error)) .aborted (Uncommitted index))
    (saved : leaf (.ok ()) (.opened (transaction.record (.saveRequest row')))
      (Holding index row'.processingRequestId row)) :
    (discipline faults operations initial).Follows index leaf
      ((repository .transactional).update row'.toDomain) (.opened transaction)
      (Holding index row'.processingRequestId row) := by
  refine follows_modify_lifecycle (fun _ holds => holds.1) ?_ threw ?_
  · intro shared holds
    exact ⟨row', row, rfl, locked, KeyedTable.mem_of_find? holds.2, same⟩
  · rintro write ⟨others, choice, nextOutboxId, view, attempted⟩
    obtain rfl := attempt_saveRequest attempted
    exact ⟨holding_stable (List.mem_insert_of_mem locked), fun _ holds => holds, saved⟩

/-- Announcing a change of the locked row. -/
theorem follows_add {route : EventRoute} {payload : OutboxPayload} {transaction : Transaction}
    {leaf : Except Thrown Unit → Connection → (Shared ι → Prop) → Prop}
    (locked : id ∈ transaction.locks) (concerns : payload.processingRequestId = id.text)
    (threw : ∀ error, leaf (.error (.database error)) .aborted (Uncommitted index))
    (added : ∀ nextOutboxId, leaf (.ok ())
      (.opened (transaction.record (.insertOutbox ⟨nextOutboxId, ⟨route, payload⟩, none⟩)))
      (Holding index id row)) :
    (discipline faults operations initial).Follows index leaf
      ((outboxWriter .transactional).add route payload) (.opened transaction)
      (Holding index id row) := by
  refine follows_modify_lifecycle (fun _ holds => holds.1)
    (fun _ _ => ⟨id, concerns, .inl locked⟩) threw ?_
  rintro write ⟨others, choice, nextOutboxId, view, attempted⟩
  obtain rfl := attempt_insertOutbox attempted
  exact ⟨holding_stable locked, fun _ holds => holds, added nextOutboxId⟩

/-- What is decided about the locked row is recorded and committed. -/
theorem follows_record (isEvent : (operations index).event? = some event)
    (valid : event.refusal = none) (parsed : Uuid.parse event.processingRequestId = some id)
    (isId : row.processingRequestId = id) {decision : Decision}
    (decided : event.decide row.toDomain = .ok decision) :
    (discipline faults operations initial).Follows index
      (InTransaction faults operations initial index
        (AccountedPost operations initial event index past))
      (event.record ⟨repository .transactional, outboxWriter .transactional⟩ row.toDomain decision)
      (.opened ⟨[], [id]⟩) (Holding index id row) := by
  have threw : ∀ error, InTransaction (α := ProcessingRequest) faults operations initial index
      (AccountedPost operations initial event index past) (.error (.database error)) .aborted
      (Uncommitted index) := fun _ => rollsBack_database fun _ fresh => fresh
  cases decision with
  | noted =>
      exact follows_mark isEvent valid parsed decided (List.mem_singleton.mpr rfl) rfl _
  | applied updated entry =>
      have lawful := event.lawful decided
      obtain ⟨row', rfl, same⟩ := lawful.exists_row
      have isId' : row'.processingRequestId = id := same.processingRequestId.trans isId
      subst isId'
      cases entry with
      | none =>
          rw [LifecycleEvent.record, Discipline.follows_bind]
          refine follows_update (List.mem_singleton.mpr rfl) same threw ?_
          refine follows_mark isEvent valid parsed decided (by simp [Transaction.record]) ?_ _
          simp [LifecycleEvent.performDecision, LifecycleEvent.appliedChanges, Transaction.record,
            Change.forget, Change.map]
      | some announced =>
          obtain ⟨route, payload⟩ := announced
          rw [LifecycleEvent.record, Discipline.follows_bind]
          refine follows_update (List.mem_singleton.mpr rfl) same threw ?_
          simp only
          rw [Discipline.follows_bind]
          have concerns : payload.processingRequestId = row'.processingRequestId.text :=
            (lawful.2.2 route payload rfl).trans same.1.symm
          refine follows_add (by simp [Transaction.record]) concerns threw fun nextOutboxId => ?_
          refine follows_mark isEvent valid parsed decided (by simp [Transaction.record]) ?_ _
          simp [LifecycleEvent.performDecision, LifecycleEvent.appliedChanges, Transaction.record,
            Change.forget, Change.map]

/-- What an execution knows before it has found its request: it has committed nothing, and `past`
is past. -/
def Begun (index : ι) (past : List (ι × List Write)) (shared : Shared ι) : Prop :=
  Uncommitted index shared ∧ past <+: shared.committed

omit [Fintype ι] [DecidableEq ι] in
theorem persistent_begun : Persistent operations index (Begun index past) :=
  persistent_uncommitted.and persistent_since

/-- The transaction of a lifecycle execution. -/
theorem follows_locked (isEvent : (operations index).event? = some event)
    (valid : event.refusal = none) :
    (discipline faults operations initial).Follows index
      (AccountedPost operations initial event index past)
      (unitOfWork.runInTransaction fun ctx => do
        let some request ← ctx.requests.findForUpdate event.processingRequestId
          | throw (processingRequestNotFound event.processingRequestId)
        if ← ctx.requests.hasEventBeenProcessed event.eventId then
          return request
        event.handleLocked ctx request)
      .idle (Begun index past) := by
  have failed : ∀ {failure} (own : Connection) {assertion : Shared ι → Prop},
      (∀ shared, assertion shared → Uncommitted index shared) →
      InTransaction (α := ProcessingRequest) faults operations initial index
        (AccountedPost operations initial event index past) (.error (.database failure)) own
        assertion :=
    fun _ _ entails => rollsBack_database entails
  refine follows_runInTransaction persistent_begun
    (fun error _ => ⟨rfl, fun _ begun => ⟨begun.1, .database error⟩⟩) ?_
  rw [Discipline.follows_bind]
  refine follows_findForUpdate persistent_begun (fun _ => failed _ fun _ begun => begun.1)
    (fun id parsed => ?_) fun id row parsed isId => ?_
  · -- The request is not stored.
    have told : Persistent operations index fun shared => Uncommitted index shared ∧
        SawSince operations initial past
          (event.Refused (processingRequestNotFound event.processingRequestId)) shared :=
      persistent_uncommitted.and (persistent_sawSince _)
    refine ⟨_, told, fun shared begun represented missing => ⟨begun.1, ?_⟩,
      rollsBack_explained told (fun _ holds => holds) fun _ holds =>
        ⟨holds.1, .request valid holds.2⟩⟩
    exact represented.sawSince begun.2 fun ledger represents =>
      ⟨id, parsed, .inl ⟨represents.requests ▸ missing, rfl⟩⟩
  · have told : Persistent operations index fun shared => Uncommitted index shared ∧
        SawSince operations initial past (fun ledger => ledger.requests.find? id = some row)
          shared :=
      persistent_uncommitted.and (persistent_sawSince _)
    refine ⟨_, told, fun shared begun represented isRow => ⟨begun.1, ?_⟩, ?_⟩
    · exact represented.sawSince begun.2 fun ledger represents => represents.requests ▸ isRow
    simp only
    rw [Discipline.follows_bind]
    refine follows_hasEventBeenProcessed_transactional persistent_uncommitted
      (fun _ holds => holds.1.1) ((told.stable _).and (rowIs_stable (List.mem_singleton.mpr rfl)))
      (fun _ _ => failed _ fun _ fresh => fresh) ?_ ?_
    · -- The event is not recorded: it is decided under the lock.
      change (discipline faults operations initial).Follows index _
        (.ofExcept (event.decide row.toDomain) >>= fun decision =>
          event.record _ row.toDomain decision) _ _
      cases decided : event.decide row.toDomain with
      | error error =>
          refine rollsBack_explained told (fun _ holds => holds.1) fun shared holds =>
            ⟨holds.1, .request valid (holds.2.mono fun ledger isRow => ?_)⟩
          exact ⟨id, parsed, .inr ⟨row, isRow, decided⟩⟩
      | ok decision =>
          exact Discipline.Follows.weaken InTransaction.weaken
            (follows_record isEvent valid parsed isId decided) fun _ holds => ⟨holds.1.1, holds.2⟩
    · -- Another delivery recorded it first: the transaction commits nothing.
      refine returned_lifecycle (fun _ holds => holds.1.1.1) ?_ ?_
      · intro shared ledger holds _ represents
        rw [perform_changes isEvent, LifecycleEvent.perform_recorded]
        · rfl
        · rw [isRecorded_of_represents represents]
          exact holds.2
      · exact fun shared holds => holds.2

/-- Every lifecycle execution ends with its event recorded, or throws, for a reason, and has
committed nothing; and what it commits is what its event does at the moment of the commit. -/
theorem follows_lifecycle_accounted (isEvent : (operations index).event? = some event) :
    (discipline faults operations initial).Follows index
      (AccountedPost operations initial event index past)
      (event.handle (repository .dataSource) unitOfWork) .idle (Begun index past) := by
  have failed : ∀ error, AccountedPost (α := ProcessingRequest) operations initial event index past
      (.error (.database error)) .idle (Begun index past) :=
    fun error => ⟨rfl, fun _ begun => ⟨begun.1, .database error⟩⟩
  cases refused : event.refusal with
  | some error =>
      rw [LifecycleEvent.handle_of_refusal refused]
      exact ⟨rfl, fun _ begun => ⟨begun.1, .input refused⟩⟩
  | none =>
      rw [LifecycleEvent.handle_of_valid refused]
      unfold LifecycleEvent.handleValid
      rw [Discipline.follows_bind]
      refine follows_hasEventBeenProcessed persistent_begun (fun error _ => failed _) ?_ ?_
      · exact follows_locked isEvent refused
      · simp only [if_true]
        rw [Discipline.follows_bind]
        refine follows_findByEventId persistent_begun (fun _ holds => holds.1)
          (fun error _ => failed _) ?_ fun row => ?_
        · exact follows_locked isEvent refused
        · exact ⟨rfl, fun _ holds => holds.2⟩

/-- Every lifecycle execution ends with its event recorded, or throws and has committed nothing;
and what it commits is what its event does at the moment of the commit. -/
theorem follows_lifecycle (isEvent : (operations index).event? = some event) :
    (discipline faults operations initial).Follows index (LifecyclePost event.eventId index)
      (event.handle (repository .dataSource) unitOfWork) .idle (Uncommitted index) := by
  have weaken : ∀ {outcome own} {assertion assertion' : Shared ι → Prop},
      (∀ shared, assertion' shared → assertion shared) →
      AccountedPost (α := ProcessingRequest) operations initial event index [] outcome own
        assertion →
      AccountedPost operations initial event index [] outcome own assertion' :=
    fun entails ends => ⟨ends.1, fun shared holds => ends.2 shared (entails shared holds)⟩
  have accounted : (discipline faults operations initial).Follows index
      (AccountedPost operations initial event index [])
      (event.handle (repository .dataSource) unitOfWork) .idle (Uncommitted index) :=
    Discipline.Follows.weaken weaken (follows_lifecycle_accounted isEvent)
      fun _ fresh => ⟨fresh, List.nil_prefix⟩
  refine accounted.mono fun outcome own assertion ⟨isIdle, ended⟩ => ⟨isIdle, ?_⟩
  intro shared holds
  cases outcome with
  | ok value => exact ended shared holds
  | error error => exact (ended shared holds).1

end Execution

end Postgres

end ProcessingCatalog
