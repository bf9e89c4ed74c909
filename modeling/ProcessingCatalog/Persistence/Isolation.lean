import ProcessingCatalog.Persistence.TypeOrm
import ProcessingCatalog.Store.History

/-!
# What the sessions may do to each other

The invariant of the database under any interleaving, what a session whose
transaction is open may rely on, and what the code guarantees at each statement.
The invariant says that the committed tables represent a history of the
operations, and that every open transaction can still be committed: its locks
are its own, what it inserted collides with nothing committed or pending, and
its outbox rows come after every committed row of their requests.
-/

namespace ProcessingCatalog

open Effect

namespace Postgres

variable {ι : Type}

/-! ## What a statement can do -/

section Transitions

variable {others : (Transaction → Bool) → Bool} {choice : Choice} {index : ι}
  {shared shared' : Shared ι} {own own' : Connection} {faults : Bool}

/-- What an answer can do to the shared state and to the connection. -/
inductive Transition (others : (Transaction → Bool) → Bool) (choice : Choice) (index : ι)
    (shared : Shared ι) (own : Connection) : Statement → Shared ι → Connection → Prop where
  | unchanged {statement own'} (same : own' = own ∨ own'.pending = .empty) :
      Transition others choice index shared own statement shared own'
  | locked {transaction text id row} (opened : own = .opened transaction)
      (parsed : Uuid.parse text = some id)
      (found : (shared.database.applyAll transaction.writes).requests.find? id = some row)
      (free : others (Transaction.locksRow id) = false) :
      Transition others choice index shared own (.findRequestForUpdate .transactional text) shared
        (.opened { transaction with locks := transaction.locks.insert id })
  | written {transaction modification write} (opened : own = .opened transaction)
      (attempted : modification.attempt others choice shared.nextOutboxId
        (shared.database.applyAll transaction.writes) = some (.ok write)) :
      Transition others choice index shared own (.modify .transactional modification)
        (shared.advance write) (.opened (transaction.record write))
  | committed {transaction} (opened : own = .opened transaction) :
      Transition others choice index shared own .commitTransaction
        (shared.commit index transaction.writes) .idle
  | autocommitted {manager modification shared'}
      (outside : manager = .dataSource ∨ ∀ transaction, own ≠ .opened transaction) :
      Transition others choice index shared own (.modify manager modification) shared' own

theorem pending_afterFailure (own : Connection) (statement : Statement) :
    own.afterFailure statement = own ∨ (own.afterFailure statement).pending = .empty := by
  unfold Connection.afterFailure
  split <;> first | exact .inl rfl | exact .inr rfl | skip
  cases own with
  | idle => exact .inl rfl
  | aborted => exact .inl rfl
  | opened transaction => exact .inr rfl

theorem executeModification_transition {manager : Manager} {modification : Modification}
    {reply : Except DatabaseError Unit}
    (answered : executeModification others choice index shared own manager modification =
      some (reply, shared', own')) :
    Transition others choice index shared own (.modify manager modification) shared' own' := by
  unfold executeModification at answered
  split at answered
  · cases answered
    exact .unchanged (.inl rfl)
  · rename_i view viewed
    obtain ⟨attempt, attempted, settled⟩ := Option.map_eq_some_iff.mp answered
    cases attempt with
    | error error =>
        cases settled
        exact .unchanged (pending_afterFailure own _)
    | ok write =>
        cases manager with
        | dataSource =>
            cases settled
            exact .autocommitted (.inl rfl)
        | transactional =>
            cases own with
            | opened transaction =>
                cases settled
                cases viewed
                exact .written rfl attempted
            | idle =>
                cases settled
                exact .autocommitted (.inr nofun)
            | aborted =>
                cases settled
                exact .autocommitted (.inr nofun)

theorem executeFindForUpdate_transition {text : JsString}
    {reply : Except DatabaseError (Option ProcessingRequestRow)}
    (answered : executeFindForUpdate others shared own text = some (reply, shared', own')) :
    Transition others choice index shared own (.findRequestForUpdate .transactional text)
      shared' own' := by
  unfold executeFindForUpdate at answered
  split at answered
  · cases answered
    exact .unchanged (.inl rfl)
  · cases answered
    exact .unchanged (.inl rfl)
  · rename_i transaction
    split at answered
    · cases answered
      exact .unchanged (.inr rfl)
    · rename_i id parsed
      split at answered
      · cases answered
        exact .unchanged (.inl rfl)
      · rename_i row found
        split at answered
        · cases answered
        · rename_i free
          cases answered
          exact .locked rfl parsed found (by simpa using free)

theorem executeQuery_transition {manager : Manager} {query : Query} :
    Transition others choice index shared own (.query manager query)
      (executeQuery shared own manager query).2.1 (executeQuery shared own manager query).2.2 := by
  unfold executeQuery
  split
  · exact .unchanged (.inl rfl)
  · exact .unchanged (pending_afterFailure own _)

theorem execute_transition {statement : Statement} {reply : signature.Reply statement}
    (answered : execute others choice index shared own faults statement =
      some (reply, shared', own')) :
    Transition others choice index shared own statement shared' own' := by
  unfold execute at answered
  split at answered
  · split at answered
    · cases answered
      exact .unchanged (pending_afterFailure own statement)
    · cases answered
  · cases statement with
    | startTransaction =>
        cases own with
        | idle =>
            cases answered
            exact .unchanged (.inr rfl)
        | opened transaction => cases answered
        | aborted => cases answered
    | commitTransaction =>
        cases own with
        | opened transaction =>
            cases answered
            exact .committed rfl
        | idle =>
            cases answered
            exact .unchanged (.inr rfl)
        | aborted =>
            cases answered
            exact .unchanged (.inr rfl)
    | rollbackTransaction =>
        cases answered
        exact .unchanged (.inr rfl)
    | query manager query =>
        have transition : Transition others choice index shared own (.query manager query) _ _ :=
          executeQuery_transition
        rw [Option.some.inj answered] at transition
        exact transition
    | findRequestForUpdate manager text =>
        cases manager with
        | dataSource =>
            cases answered
            exact .unchanged (.inl rfl)
        | transactional => exact executeFindForUpdate_transition answered
    | modify manager modification => exact executeModification_transition answered

end Transitions

/-! ## The invariant -/

/-- What an open transaction needs of the committed tables to be committed. -/
structure Admissible (eventId : JsString) (shared : Shared ι) (transaction : Transaction) :
    Prop where
  locked_stored : ∀ id ∈ transaction.locks, (shared.database.requests.find? id).isSome
  saved : ∀ row, .saveRequest row ∈ transaction.writes →
    row.processingRequestId ∈ transaction.locks ∧
      ∃ before ∈ shared.database.requests, before.SameIdentity row
  inserted : ∀ row, .insertRequest row ∈ transaction.writes →
    ∀ other ∈ shared.database.requests, ∀ index : UniqueIndex, ¬ index.Collides other row
  event_new : ∀ event, .insertEvent event ∈ transaction.writes →
    ∀ other ∈ shared.database.events, other.eventId ≠ event.eventId
  event_named : ∀ event, .insertEvent event ∈ transaction.writes → event.eventId = eventId
  outbox_below : ∀ row, .insertOutbox row ∈ transaction.writes → row.id < shared.nextOutboxId
  outbox_appends : ∀ row, .insertOutbox row ∈ transaction.writes →
    shared.database.AppendsOutbox row
  outbox_ascending : (Database.outboxRows transaction.writes).Pairwise
    fun left right => left.id < right.id
  outbox_owned : ∀ row, .insertOutbox row ∈ transaction.writes → ∃ id : Uuid,
    row.entry.payload.processingRequestId = id.text ∧
      (id ∈ transaction.locks ∨
        ∃ stored, .insertRequest stored ∈ transaction.writes ∧ stored.processingRequestId = id)

theorem admissible_empty (eventId : JsString) (shared : Shared ι) :
    Admissible eventId shared .empty where
  locked_stored := by simp [Transaction.empty]
  saved := by simp [Transaction.empty]
  inserted := by simp [Transaction.empty]
  event_new := by simp [Transaction.empty]
  event_named := by simp [Transaction.empty]
  outbox_below := by simp [Transaction.empty]
  outbox_appends := by simp [Transaction.empty]
  outbox_ascending := by simp [Transaction.empty, Database.outboxRows]
  outbox_owned := by simp [Transaction.empty]

/-- Two open transactions that do not stand in each other's way. -/
structure Apart (left right : Transaction) : Prop where
  locks : ∀ id ∈ left.locks, id ∉ right.locks
  inserted : ∀ row other, .insertRequest row ∈ left.writes → .insertRequest other ∈ right.writes →
    ∀ index : UniqueIndex, ¬ index.Collides row other
  events : ∀ event other, .insertEvent event ∈ left.writes → .insertEvent other ∈ right.writes →
    event.eventId ≠ other.eventId
  outbox : ∀ row other, .insertOutbox row ∈ left.writes → .insertOutbox other ∈ right.writes →
    row.id ≠ other.id

theorem Apart.symm {left right : Transaction} (apart : Apart left right) : Apart right left where
  locks id rightMem leftMem := apart.locks id leftMem rightMem
  inserted row other rowMem otherMem index collides :=
    apart.inserted other row otherMem rowMem index collides.symm
  events event other eventMem otherMem same := apart.events other event otherMem eventMem same.symm
  outbox row other rowMem otherMem same := apart.outbox other row otherMem rowMem same.symm

theorem apart_empty (transaction : Transaction) : Apart .empty transaction where
  locks := by simp [Transaction.empty]
  inserted := by simp [Transaction.empty]
  events := by simp [Transaction.empty]
  outbox := by simp [Transaction.empty]

/-- What holds between any two statements of any sessions. -/
structure Invariant (operations : ι → Operation) (initial : Database) (shared : Shared ι)
    (connections : ι → Connection) : Prop where
  database_eq : shared.database = initial.applyAll (shared.committed.flatMap Prod.snd)
  represents : ∃ ledger, History operations (.ofDatabase initial) shared.committed ledger ∧
    shared.database.Represents ledger
  once : (shared.committed.map Prod.fst).Nodup
  outbox_below : ∀ row ∈ shared.database.outbox, row.id < shared.nextOutboxId
  admissible : ∀ index, Admissible (operations index).eventId shared (connections index).pending
  apart : ∀ index other, index ≠ other →
    Apart (connections index).pending (connections other).pending

/-- What session `index` relies on while the others take their steps. -/
structure Rely (operations : ι → Operation) (index : ι) (own : Connection)
    (shared shared' : Shared ι) : Prop where
  committed : ∃ more, shared'.committed = shared.committed ++ more ∧
    ∀ entry ∈ more, entry.1 ≠ index
  kept : ∀ row ∈ shared.database.requests, ∃ row' ∈ shared'.database.requests,
    row.SameIdentity row'
  locked : ∀ id ∈ own.pending.locks,
    shared'.database.requests.find? id = shared.database.requests.find? id
  recorded : ∀ event ∈ shared.database.events, event ∈ shared'.database.events
  foreign : ∀ event ∈ shared'.database.events, event ∈ shared.database.events ∨
    ∃ other ≠ index, event.eventId = (operations other).eventId

/-- What the code guarantees of a write, by the transaction it joins. -/
def Modification.Guaranteed (eventId : JsString) (shared : Shared ι) (transaction : Transaction) :
    Modification → Prop
  | .insertRequest _ => transaction.writes = []
  | .saveRequest request => ∃ row before, request = row.toDomain ∧
      row.processingRequestId ∈ transaction.locks ∧ before ∈ shared.database.requests ∧
      before.SameIdentity row
  | .insertEvent recorded _ => recorded = eventId
  | .insertOutbox entry => ∃ id : Uuid, entry.payload.processingRequestId = id.text ∧
      (id ∈ transaction.locks ∨
        ∃ stored, .insertRequest stored ∈ transaction.writes ∧ stored.processingRequestId = id)

/-- What the code guarantees of a statement: an operation commits once, and the transaction it
commits wrote what the operation does at that moment. -/
def Guaranteed (operations : ι → Operation) (index : ι) (own : Connection) (shared : Shared ι) :
    Statement → Prop
  | .commitTransaction => (∀ entry ∈ shared.committed, entry.1 ≠ index) ∧
      ∀ transaction, own = .opened transaction → ∀ ledger, shared.database.Represents ledger →
        ((operations index).perform ledger).2 = transaction.writes.map Change.forget
  | .findRequestForUpdate _ _ => own.pending.writes = []
  | .modify manager modification => manager = .transactional ∧
      ∃ transaction, own = .opened transaction ∧
        modification.Guaranteed (operations index).eventId shared transaction
  | _ => True

variable [Fintype ι] [DecidableEq ι]

def discipline (faults : Bool) (operations : ι → Operation) (initial : Database) :
    Discipline (machine ι faults) where
  Invariant := Invariant operations initial
  Rely := Rely operations
  Guarantee index own statement shared _ _ := Guaranteed operations index own shared statement

end Postgres

end ProcessingCatalog
