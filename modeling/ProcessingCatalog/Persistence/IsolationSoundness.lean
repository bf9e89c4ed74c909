import ProcessingCatalog.Persistence.Isolation

/-!
# The discipline of the sessions is sound

What the code guarantees at each statement preserves the invariant and what the
other sessions rely on. The only statement that changes the committed tables is
a commit, and the transactions still open stay admissible through it because
they stand apart from the one committed.
-/

namespace ProcessingCatalog

open Effect

namespace Postgres

variable {ι : Type} {index : ι} {shared : Shared ι} {eventId otherEventId : JsString}
  {transaction other : Transaction}

/-! ## Committing an admissible transaction -/

theorem Admissible.not_inserted_of_stored (admissible : Admissible eventId shared transaction)
    {id : Uuid} (stored : (shared.database.requests.find? id).isSome) {row : ProcessingRequestRow}
    (inserted : .insertRequest row ∈ transaction.writes) : row.processingRequestId ≠ id := by
  rintro rfl
  obtain ⟨present, found⟩ := Option.isSome_iff_exists.mp stored
  exact admissible.inserted row inserted present (KeyedTable.mem_of_find? found) .primaryKey
    (KeyedTable.key_of_find? found)

/-- A commit keeps every request, with its identity. -/
theorem Admissible.kept (admissible : Admissible eventId shared transaction)
    {row : ProcessingRequestRow} (rowMem : row ∈ shared.database.requests) :
    ∃ row' ∈ (shared.database.applyAll transaction.writes).requests, row.SameIdentity row' := by
  have stored : (shared.database.requests.find? row.processingRequestId).isSome := by
    simp [KeyedTable.find?_key rowMem]
  have still : ((shared.database.applyAll transaction.writes).requests.find?
      row.processingRequestId).isSome := Database.isSome_find?_applyAll stored
  obtain ⟨row', found⟩ := Option.isSome_iff_exists.mp still
  have row'Mem := KeyedTable.mem_of_find? found
  have sameKey : row'.processingRequestId = row.processingRequestId := KeyedTable.key_of_find? found
  refine ⟨row', row'Mem, ?_⟩
  rcases Database.mem_requests_applyAll row'Mem with old | inserted | saved
  · rw [KeyedTable.eq_of_key_eq old rowMem sameKey]
    exact .refl _
  · exact absurd sameKey (admissible.not_inserted_of_stored stored inserted)
  · obtain ⟨_, before, beforeMem, same⟩ := admissible.saved row' saved
    rw [← KeyedTable.eq_of_key_eq beforeMem rowMem (same.processingRequestId.symm.trans sameKey)]
    exact same

/-- A commit changes no row that another transaction holds. -/
theorem Admissible.locked (admissible : Admissible eventId shared transaction)
    (otherAdmissible : Admissible otherEventId shared other) (apart : Apart transaction other)
    {id : Uuid} (locked : id ∈ other.locks) :
    (shared.database.applyAll transaction.writes).requests.find? id =
      shared.database.requests.find? id := by
  refine Database.find?_requests_applyAll fun row stores => ?_
  rcases stores with inserted | saved
  · exact admissible.not_inserted_of_stored (otherAdmissible.locked_stored id locked) inserted
  · rintro rfl
    exact apart.locks _ (admissible.saved row saved).1 locked

theorem Admissible.recorded (admissible : Admissible eventId shared transaction)
    {event : ProcessedEvent} (eventMem : event ∈ shared.database.events) :
    event ∈ (shared.database.applyAll transaction.writes).events :=
  Database.mem_events_applyAll_of_mem eventMem fun written writtenMem =>
    (admissible.event_new written writtenMem event eventMem).symm

/-- Two transactions never insert outbox rows of one request. -/
theorem Admissible.not_sameRequest (admissible : Admissible eventId shared transaction)
    (otherAdmissible : Admissible otherEventId shared other) (apart : Apart transaction other)
    {row otherRow : OutboxRow} (rowMem : .insertOutbox row ∈ transaction.writes)
    (otherMem : .insertOutbox otherRow ∈ other.writes) : ¬ Database.SameRequest row otherRow := by
  intro same
  obtain ⟨id, named, owned⟩ := admissible.outbox_owned row rowMem
  obtain ⟨id', named', owned'⟩ := otherAdmissible.outbox_owned otherRow otherMem
  obtain rfl : id = id' := Uuid.text_injective (named.symm.trans (Eq.trans same named'))
  rcases owned with locked | ⟨stored, inserted, storedId⟩ <;>
    rcases owned' with locked' | ⟨stored', inserted', storedId'⟩
  · exact apart.locks id locked locked'
  · exact otherAdmissible.not_inserted_of_stored (admissible.locked_stored id locked) inserted'
      storedId'
  · exact admissible.not_inserted_of_stored (otherAdmissible.locked_stored id locked') inserted
      storedId
  · exact apart.inserted stored stored' inserted inserted' .primaryKey
      (storedId.trans storedId'.symm)

/-- An open transaction stays admissible when another one is committed. -/
theorem Admissible.after_commit (admissible : Admissible eventId shared transaction)
    (otherAdmissible : Admissible otherEventId shared other) (apart : Apart transaction other) :
    Admissible otherEventId (shared.commit index transaction.writes) other where
  locked_stored id locked :=
    Database.isSome_find?_applyAll (otherAdmissible.locked_stored id locked)
  saved row saved := by
    obtain ⟨locked, before, beforeMem, same⟩ := otherAdmissible.saved row saved
    obtain ⟨before', before'Mem, same'⟩ := admissible.kept beforeMem
    exact ⟨locked, before', before'Mem, same'.symm.trans same⟩
  inserted row inserted stored storedMem uniqueIndex collides := by
    rcases Database.mem_requests_applyAll storedMem with old | inserted' | saved
    · exact otherAdmissible.inserted row inserted stored old uniqueIndex collides
    · exact apart.inserted stored row inserted' inserted uniqueIndex collides
    · obtain ⟨_, before, beforeMem, same⟩ := admissible.saved stored saved
      exact otherAdmissible.inserted row inserted before beforeMem uniqueIndex
        (collides.symm.of_sameIdentity same).symm
  event_new event eventMem recorded recordedMem := by
    rcases Database.mem_events_applyAll recordedMem with old | inserted
    · exact otherAdmissible.event_new event eventMem recorded old
    · exact apart.events recorded event inserted eventMem
  event_named := otherAdmissible.event_named
  outbox_below := otherAdmissible.outbox_below
  outbox_appends row rowMem stored storedMem := by
    rcases Database.mem_outbox_applyAll storedMem with old | inserted
    · exact otherAdmissible.outbox_appends row rowMem stored old
    · exact ⟨apart.outbox stored row inserted rowMem, fun same =>
        absurd same (admissible.not_sameRequest otherAdmissible apart inserted rowMem)⟩
  outbox_ascending := otherAdmissible.outbox_ascending
  outbox_owned := otherAdmissible.outbox_owned

/-! ## Growing a transaction -/

/-- A transaction that has written nothing may lock a stored row. -/
theorem Admissible.lock (admissible : Admissible eventId shared transaction)
    (nothing : transaction.writes = []) {id : Uuid}
    (stored : (shared.database.requests.find? id).isSome) :
    Admissible eventId shared { transaction with locks := transaction.locks.insert id } where
  locked_stored locked lockedMem := by
    rcases List.mem_insert_iff.mp lockedMem with rfl | old
    · exact stored
    · exact admissible.locked_stored locked old
  saved := by simp [nothing]
  inserted := by simp [nothing]
  event_new := by simp [nothing]
  event_named := by simp [nothing]
  outbox_below := by simp [nothing]
  outbox_appends := by simp [nothing]
  outbox_ascending := by simp [nothing, Database.outboxRows]
  outbox_owned := by simp [nothing]

theorem Admissible.insertRequest (admissible : Admissible eventId shared transaction)
    {row : ProcessingRequestRow}
    (free : ∀ stored ∈ shared.database.requests, ∀ index : UniqueIndex,
      ¬ index.Collides stored row) :
    Admissible eventId shared (transaction.record (.insertRequest row)) where
  locked_stored := admissible.locked_stored
  saved := by simpa [Transaction.record] using admissible.saved
  inserted inserted insertedMem := by
    simp only [Transaction.record, List.mem_append, List.mem_singleton,
      Change.insertRequest.injEq] at insertedMem
    rcases insertedMem with old | rfl
    · exact admissible.inserted inserted old
    · exact free
  event_new := by simpa [Transaction.record] using admissible.event_new
  event_named := by simpa [Transaction.record] using admissible.event_named
  outbox_below := by simpa [Transaction.record] using admissible.outbox_below
  outbox_appends := by simpa [Transaction.record] using admissible.outbox_appends
  outbox_ascending := by
    simpa [Transaction.record, Database.outboxRows] using admissible.outbox_ascending
  outbox_owned outboxRow rowMem := by
    have old : .insertOutbox outboxRow ∈ transaction.writes := by
      simpa [Transaction.record] using rowMem
    obtain ⟨id, named, locked | ⟨stored, inserted, storedId⟩⟩ :=
      admissible.outbox_owned outboxRow old
    · exact ⟨id, named, .inl locked⟩
    · exact ⟨id, named, .inr ⟨stored, List.mem_append_left _ inserted, storedId⟩⟩

theorem Admissible.saveRequest (admissible : Admissible eventId shared transaction)
    {row before : ProcessingRequestRow} (locked : row.processingRequestId ∈ transaction.locks)
    (beforeMem : before ∈ shared.database.requests) (same : before.SameIdentity row) :
    Admissible eventId shared (transaction.record (.saveRequest row)) where
  locked_stored := by
    simpa [Transaction.record, List.insert_of_mem locked] using admissible.locked_stored
  saved saved savedMem := by
    simp only [Transaction.record, List.mem_append, List.mem_singleton,
      Change.saveRequest.injEq, List.insert_of_mem locked] at savedMem ⊢
    rcases savedMem with old | rfl
    · exact admissible.saved saved old
    · exact ⟨locked, before, beforeMem, same⟩
  inserted := by simpa [Transaction.record] using admissible.inserted
  event_new := by simpa [Transaction.record] using admissible.event_new
  event_named := by simpa [Transaction.record] using admissible.event_named
  outbox_below := by simpa [Transaction.record] using admissible.outbox_below
  outbox_appends := by simpa [Transaction.record] using admissible.outbox_appends
  outbox_ascending := by
    simpa [Transaction.record, Database.outboxRows] using admissible.outbox_ascending
  outbox_owned := by
    simpa [Transaction.record, List.insert_of_mem locked] using admissible.outbox_owned

theorem Admissible.insertEvent (admissible : Admissible eventId shared transaction)
    {event : ProcessedEvent} (named : event.eventId = eventId)
    (new : ∀ stored ∈ shared.database.events, stored.eventId ≠ event.eventId) :
    Admissible eventId shared (transaction.record (.insertEvent event)) where
  locked_stored := admissible.locked_stored
  saved := by simpa [Transaction.record] using admissible.saved
  inserted := by simpa [Transaction.record] using admissible.inserted
  event_new recorded recordedMem := by
    simp only [Transaction.record, List.mem_append, List.mem_singleton,
      Change.insertEvent.injEq] at recordedMem
    rcases recordedMem with old | rfl
    · exact admissible.event_new recorded old
    · exact new
  event_named recorded recordedMem := by
    simp only [Transaction.record, List.mem_append, List.mem_singleton,
      Change.insertEvent.injEq] at recordedMem
    rcases recordedMem with old | rfl
    · exact admissible.event_named recorded old
    · exact named
  outbox_below := by simpa [Transaction.record] using admissible.outbox_below
  outbox_appends := by simpa [Transaction.record] using admissible.outbox_appends
  outbox_ascending := by
    simpa [Transaction.record, Database.outboxRows] using admissible.outbox_ascending
  outbox_owned := by simpa [Transaction.record] using admissible.outbox_owned

/-- A new outbox row takes the next identifier, above all those handed out before. -/
theorem Admissible.insertOutbox (admissible : Admissible eventId shared transaction)
    {entry : OutboxEntry} (below : ∀ row ∈ shared.database.outbox, row.id < shared.nextOutboxId)
    (owned : ∃ id : Uuid, entry.payload.processingRequestId = id.text ∧
      (id ∈ transaction.locks ∨
        ∃ stored, .insertRequest stored ∈ transaction.writes ∧ stored.processingRequestId = id)) :
    Admissible eventId (shared.advance (.insertOutbox ⟨shared.nextOutboxId, entry, none⟩))
      (transaction.record (.insertOutbox ⟨shared.nextOutboxId, entry, none⟩)) where
  locked_stored := admissible.locked_stored
  saved := by simpa [Transaction.record, Shared.advance] using admissible.saved
  inserted := by simpa [Transaction.record, Shared.advance] using admissible.inserted
  event_new := by simpa [Transaction.record, Shared.advance] using admissible.event_new
  event_named := by simpa [Transaction.record] using admissible.event_named
  outbox_below row rowMem := by
    simp only [Transaction.record, List.mem_append, List.mem_singleton,
      Change.insertOutbox.injEq] at rowMem
    rcases rowMem with old | rfl
    · exact Nat.lt_succ_of_lt (admissible.outbox_below row old)
    · exact Nat.lt_succ_self _
  outbox_appends row rowMem stored storedMem := by
    simp only [Transaction.record, List.mem_append, List.mem_singleton,
      Change.insertOutbox.injEq] at rowMem
    rcases rowMem with old | rfl
    · exact admissible.outbox_appends row old stored storedMem
    · exact ⟨(below stored storedMem).ne, fun _ => below stored storedMem⟩
  outbox_ascending := by
    simp only [Transaction.record, Database.outboxRows_append]
    refine List.pairwise_append.mpr ⟨admissible.outbox_ascending, List.pairwise_singleton _ _, ?_⟩
    intro row rowMem added addedMem
    rw [Database.mem_outboxRows, List.mem_singleton, Change.insertOutbox.injEq] at addedMem
    subst addedMem
    exact admissible.outbox_below row (Database.mem_outboxRows.mp rowMem)
  outbox_owned row rowMem := by
    simp only [Transaction.record, List.mem_append, List.mem_singleton,
      Change.insertOutbox.injEq] at rowMem
    rcases rowMem with old | rfl
    · obtain ⟨id, named, locked | ⟨stored, inserted, storedId⟩⟩ := admissible.outbox_owned row old
      · exact ⟨id, named, .inl locked⟩
      · exact ⟨id, named, .inr ⟨stored, List.mem_append_left _ inserted, storedId⟩⟩
    · obtain ⟨id, named, locked | ⟨stored, inserted, storedId⟩⟩ := owned
      · exact ⟨id, named, .inl locked⟩
      · exact ⟨id, named, .inr ⟨stored, List.mem_append_left _ inserted, storedId⟩⟩

/-! ## Standing apart while a transaction grows -/

theorem Apart.lock (apart : Apart transaction other) {id : Uuid}
    (free : other.locksRow id = false) :
    Apart { transaction with locks := transaction.locks.insert id } other where
  locks locked lockedMem := by
    rcases List.mem_insert_iff.mp lockedMem with rfl | old
    · simpa [Transaction.locksRow] using free
    · exact apart.locks locked old
  inserted := apart.inserted
  events := apart.events
  outbox := apart.outbox

theorem Apart.insertRequest (apart : Apart transaction other) {row : ProcessingRequestRow}
    (free : other.insertsCollidingRow row = false) :
    Apart (transaction.record (.insertRequest row)) other where
  locks := apart.locks
  inserted inserted otherRow insertedMem otherMem index collides := by
    simp only [Transaction.record, List.mem_append, List.mem_singleton,
      Change.insertRequest.injEq] at insertedMem
    rcases insertedMem with old | rfl
    · exact apart.inserted inserted otherRow old otherMem index collides
    · have clear := List.any_eq_false.mp free _ otherMem
      simp only [List.any_eq_true, decide_eq_true_eq, not_exists, not_and] at clear
      exact clear index (by cases index <;> simp [UniqueIndex.all]) collides.symm
  events := by simpa [Transaction.record] using apart.events
  outbox := by simpa [Transaction.record] using apart.outbox

theorem Apart.saveRequest (apart : Apart transaction other) {row : ProcessingRequestRow}
    (locked : row.processingRequestId ∈ transaction.locks) :
    Apart (transaction.record (.saveRequest row)) other where
  locks := by simpa [Transaction.record, List.insert_of_mem locked] using apart.locks
  inserted := by simpa [Transaction.record] using apart.inserted
  events := by simpa [Transaction.record] using apart.events
  outbox := by simpa [Transaction.record] using apart.outbox

theorem Apart.insertEvent (apart : Apart transaction other) {event : ProcessedEvent}
    (free : other.recordsEvent event.eventId = false) :
    Apart (transaction.record (.insertEvent event)) other where
  locks := apart.locks
  inserted := by simpa [Transaction.record] using apart.inserted
  events recorded otherEvent recordedMem otherMem := by
    simp only [Transaction.record, List.mem_append, List.mem_singleton,
      Change.insertEvent.injEq] at recordedMem
    rcases recordedMem with old | rfl
    · exact apart.events recorded otherEvent old otherMem
    · have clear := List.any_eq_false.mp free _ otherMem
      simpa [eq_comm] using clear
  outbox := by simpa [Transaction.record] using apart.outbox

theorem Apart.insertOutbox (apart : Apart transaction other) {row : OutboxRow}
    (below : ∀ otherRow, .insertOutbox otherRow ∈ other.writes → otherRow.id < row.id) :
    Apart (transaction.record (.insertOutbox row)) other where
  locks := apart.locks
  inserted := by simpa [Transaction.record] using apart.inserted
  events := by simpa [Transaction.record] using apart.events
  outbox added otherRow addedMem otherMem := by
    simp only [Transaction.record, List.mem_append, List.mem_singleton,
      Change.insertOutbox.injEq] at addedMem
    rcases addedMem with old | rfl
    · exact apart.outbox added otherRow old otherMem
    · exact (below otherRow otherMem).ne'

/-! ## What an attempted write guarantees -/

section Attempts

variable {others : (Transaction → Bool) → Bool} {choice : Choice} {nextOutboxId : ℕ}
  {view : Database} {write : Write}

theorem attemptRow_eq_ok {free : UniqueIndex → Bool} {blocked : Bool} {attempted : Write}
    (succeeded : Modification.attemptRow choice free blocked attempted = some (.ok write)) :
    write = attempted ∧ (∀ index, free index = true) ∧ blocked = false := by
  unfold Modification.attemptRow at succeeded
  split at succeeded
  · split at succeeded
    · rename_i clear
      cases succeeded
      refine ⟨rfl, fun index => ?_, by simpa using clear.2⟩
      exact List.all_eq_true.mp clear.1 index (by cases index <;> simp [UniqueIndex.all])
    · cases succeeded
  · split at succeeded <;> cases succeeded
  · cases succeeded

/-- A row is refused for a collision it has in the tables its transaction sees. -/
theorem attemptRow_eq_error {row : ProcessingRequestRow} {blocked : Bool} {attempted : Write}
    {error : DatabaseError}
    (refused : Modification.attemptRow choice (Modification.freeFor view row) blocked attempted =
      some (.error error)) :
    ∃ index : UniqueIndex, error = .uniqueViolation index.constraint ∧
      ∃ stored ∈ view.requests, index.Collides stored row := by
  unfold Modification.attemptRow at refused
  split at refused
  · split at refused <;> cases refused
  · rename_i index
    split at refused
    · cases refused
    · rename_i taken
      cases refused
      refine ⟨index, rfl, ?_⟩
      simpa [Modification.freeFor, KeyedTable.mem_def] using taken
  · cases refused

theorem attempt_insertRequest {request : ProcessingRequest}
    (succeeded : (Modification.insertRequest request).attempt others choice nextOutboxId view =
      some (.ok write)) :
    ∃ row, ProcessingRequestRow.toRow request = some row ∧ write = .insertRequest row ∧
      (∀ stored ∈ view.requests, ∀ index : UniqueIndex, ¬ index.Collides stored row) ∧
      others (Transaction.insertsCollidingRow row) = false := by
  simp only [Modification.attempt] at succeeded
  split at succeeded
  · cases succeeded
  · rename_i row isRow
    obtain ⟨rfl, free, clear⟩ := attemptRow_eq_ok succeeded
    refine ⟨row, isRow, rfl, fun stored storedMem index => ?_, clear⟩
    simpa using List.all_eq_true.mp (free index) stored storedMem

theorem attempt_saveRequest {row : ProcessingRequestRow}
    (succeeded : (Modification.saveRequest row.toDomain).attempt others choice nextOutboxId view =
      some (.ok write)) : write = .saveRequest row := by
  simp only [Modification.attempt, ProcessingRequestRow.toRow_toDomain] at succeeded
  exact (attemptRow_eq_ok succeeded).1

theorem attempt_insertEvent {eventId : JsString} {processingRequestId : Option JsString}
    (succeeded : (Modification.insertEvent eventId processingRequestId).attempt others choice
      nextOutboxId view = some (.ok write)) :
    ∃ id, ProcessingRequestRow.uuidColumn processingRequestId = some id ∧
      write = .insertEvent ⟨eventId, id⟩ ∧ view.events.find? eventId = none ∧
      others (Transaction.recordsEvent eventId) = false := by
  simp only [Modification.attempt] at succeeded
  split at succeeded
  · cases succeeded
  · rename_i id isId
    split at succeeded
    · cases succeeded
    · rename_i absent
      split at succeeded
      · cases succeeded
      · rename_i clear
        cases succeeded
        exact ⟨id, isId, rfl, by simpa using absent, by simpa using clear⟩

theorem attempt_insertEvent_error (choice : Choice) (nextOutboxId : ℕ) {eventId : JsString}
    {id : Uuid} {error : DatabaseError}
    (refused : (Modification.insertEvent eventId (some id.text)).attempt others choice
      nextOutboxId view = some (.error error)) : (view.events.find? eventId).isSome := by
  simp only [Modification.attempt, ProcessingRequestRow.uuidColumn, Uuid.parse_text,
    Option.map_some] at refused
  split at refused
  · assumption
  · split at refused <;> cases refused

theorem attempt_insertOutbox {entry : OutboxEntry}
    (succeeded : (Modification.insertOutbox entry).attempt others choice nextOutboxId view =
      some (.ok write)) : write = .insertOutbox ⟨nextOutboxId, entry, none⟩ := by
  cases succeeded
  rfl

end Attempts

/-! ## The invariant through one statement -/

section Steps

variable {operations : ι → Operation} {initial : Database} {shared' : Shared ι} {own' : Connection}
  {connections : ι → Connection} {statement : Statement} {choice : Choice}

/-- The other transactions do not see identifiers being handed out. -/
theorem Admissible.advance (admissible : Admissible eventId shared transaction)
    (entry : OutboxEntry) :
    Admissible eventId (shared.advance (.insertOutbox ⟨shared.nextOutboxId, entry, none⟩))
      transaction where
  locked_stored := admissible.locked_stored
  saved := admissible.saved
  inserted := admissible.inserted
  event_new := admissible.event_new
  event_named := admissible.event_named
  outbox_below row rowMem := Nat.lt_succ_of_lt (admissible.outbox_below row rowMem)
  outbox_appends := admissible.outbox_appends
  outbox_ascending := admissible.outbox_ascending
  outbox_owned := admissible.outbox_owned

theorem Rely.of_same {own : Connection} (committed : shared'.committed = shared.committed)
    (database : shared'.database = shared.database) : Rely operations index own shared shared' where
  committed := ⟨[], by simp [committed], by simp⟩
  kept row rowMem := ⟨row, by rwa [database], .refl row⟩
  locked id _ := by rw [database]
  recorded event eventMem := by rwa [database]
  foreign event eventMem := .inl (by rwa [database] at eventMem)

variable [DecidableEq ι]

/-- The parts of the invariant a step of one session has to re-establish. -/
theorem Invariant.update (invariant : Invariant operations initial shared connections)
    (database_eq : shared'.database = initial.applyAll (shared'.committed.flatMap Prod.snd))
    (represents : ∃ ledger, History operations (.ofDatabase initial) shared'.committed ledger ∧
      shared'.database.Represents ledger)
    (once : (shared'.committed.map Prod.fst).Nodup)
    (outbox_below : ∀ row ∈ shared'.database.outbox, row.id < shared'.nextOutboxId)
    (own : Admissible (operations index).eventId shared' own'.pending)
    (others : ∀ other, other ≠ index →
      Admissible (operations other).eventId shared' (connections other).pending)
    (apart : ∀ other, other ≠ index → Apart own'.pending (connections other).pending) :
    Invariant operations initial shared' (Function.update connections index own') where
  database_eq := database_eq
  represents := represents
  once := once
  outbox_below := outbox_below
  admissible session := by
    by_cases same : session = index
    · subst same
      simpa using own
    · simpa [same] using others session same
  apart left right different := by
    by_cases sameLeft : left = index
    · subst sameLeft
      simpa [different.symm] using apart right different.symm
    · by_cases sameRight : right = index
      · subst sameRight
        simpa [different] using (apart left different).symm
      · simpa [sameLeft, sameRight] using invariant.apart left right different

/-- The commit of an open transaction. -/
theorem Invariant.committed (invariant : Invariant operations initial shared connections)
    (opened : connections index = .opened transaction)
    (fresh : ∀ entry ∈ shared.committed, entry.1 ≠ index)
    (guaranteed : ∀ ledger, shared.database.Represents ledger →
      ((operations index).perform ledger).2 = transaction.writes.map Change.forget) :
    Invariant operations initial (shared.commit index transaction.writes)
      (Function.update connections index .idle) := by
  have own : Admissible (operations index).eventId shared transaction := by
    simpa [opened, Connection.pending] using invariant.admissible index
  obtain ⟨ledger, history, represents⟩ := invariant.represents
  refine invariant.update ?_ ⟨_, history.commit (guaranteed ledger represents),
    represents.applyAll own.outbox_appends own.outbox_ascending⟩ ?_ ?_ (admissible_empty _ _) ?_ ?_
  · simp [Shared.commit, invariant.database_eq, Database.applyAll_append]
  · simp only [Shared.commit, List.map_append, List.map_cons, List.map_nil]
    refine List.nodup_append.mpr ⟨invariant.once, List.nodup_singleton _, ?_⟩
    rintro _ entryMem session sessionMem rfl
    obtain ⟨entry, old, rfl⟩ := List.mem_map.mp entryMem
    exact fresh entry old (List.mem_singleton.mp sessionMem)
  · intro row rowMem
    rcases Database.mem_outbox_applyAll rowMem with old | inserted
    · exact invariant.outbox_below row old
    · exact own.outbox_below row inserted
  · intro other different
    refine own.after_commit (invariant.admissible other) ?_
    simpa [opened, Connection.pending] using invariant.apart index other different.symm
  · exact fun other _ => apart_empty _

variable [Fintype ι]

theorem othersOf_eq_false {test : Transaction → Bool}
    (none : othersOf index connections test = false) {other : ι} (different : other ≠ index) :
    test (connections other).pending = false := by
  simp only [othersOf, decide_eq_false_iff_not, not_exists, not_and, Bool.not_eq_true] at none
  exact none other different

/-- A write that joins the transaction of one session. -/
theorem Invariant.written (invariant : Invariant operations initial shared connections)
    {modification : Modification} {write : Write}
    (opened : connections index = .opened transaction)
    (guaranteed : modification.Guaranteed (operations index).eventId shared transaction)
    (attempted : modification.attempt (othersOf index connections) choice shared.nextOutboxId
      (shared.database.applyAll transaction.writes) = some (.ok write)) :
    Invariant operations initial (shared.advance write)
      (Function.update connections index (.opened (transaction.record write))) := by
  have own : Admissible (operations index).eventId shared transaction := by
    simpa [opened, Connection.pending] using invariant.admissible index
  have apart : ∀ other, other ≠ index → Apart transaction (connections other).pending := by
    intro other different
    simpa [opened, Connection.pending] using invariant.apart index other different.symm
  cases modification with
  | insertRequest request =>
      have nothing : transaction.writes = [] := guaranteed
      obtain ⟨row, _, rfl, free, clear⟩ := attempt_insertRequest attempted
      rw [nothing] at free
      exact invariant.update invariant.database_eq invariant.represents invariant.once
        invariant.outbox_below
        (own.insertRequest free) (fun other _ => invariant.admissible other)
        fun other different => (apart other different).insertRequest
          (othersOf_eq_false clear different)
  | saveRequest request =>
      obtain ⟨row, before, rfl, locked, beforeMem, same⟩ := guaranteed
      obtain rfl := attempt_saveRequest attempted
      exact invariant.update invariant.database_eq invariant.represents invariant.once
        invariant.outbox_below
        (own.saveRequest locked beforeMem same) (fun other _ => invariant.admissible other)
        fun other different => (apart other different).saveRequest locked
  | insertEvent eventId processingRequestId =>
      have named : eventId = (operations index).eventId := guaranteed
      obtain ⟨id, _, rfl, absent, clear⟩ := attempt_insertEvent attempted
      have new : ∀ stored ∈ shared.database.events, stored.eventId ≠ eventId := fun stored old =>
        KeyedTable.find?_eq_none_iff.mp absent stored (own.recorded old)
      exact invariant.update invariant.database_eq invariant.represents invariant.once
        invariant.outbox_below
        (own.insertEvent named new) (fun other _ => invariant.admissible other)
        fun other different => (apart other different).insertEvent
          (othersOf_eq_false clear different)
  | insertOutbox entry =>
      obtain rfl := attempt_insertOutbox attempted
      exact invariant.update invariant.database_eq invariant.represents invariant.once
        (fun row rowMem => Nat.lt_succ_of_lt (invariant.outbox_below row rowMem))
        (own.insertOutbox invariant.outbox_below guaranteed)
        (fun other _ => (invariant.admissible other).advance entry)
        fun other different => (apart other different).insertOutbox
          (invariant.admissible other).outbox_below

/-- A guaranteed statement keeps the invariant. -/
theorem Invariant.step (invariant : Invariant operations initial shared connections)
    (guaranteed : Guaranteed operations index (connections index) shared statement)
    (transition : Transition (othersOf index connections) choice index shared (connections index)
      statement shared' own') :
    Invariant operations initial shared' (Function.update connections index own') := by
  generalize ownEq : connections index = own at transition guaranteed
  cases transition with
  | unchanged same =>
      rcases same with rfl | empty
      · rwa [← ownEq, Function.update_eq_self]
      · exact invariant.update invariant.database_eq invariant.represents invariant.once
          invariant.outbox_below (empty ▸ admissible_empty _ _)
          (fun other _ => invariant.admissible other) fun other _ => empty ▸ apart_empty _
  | @locked transaction text id row opened parsed found free =>
      subst opened
      have nothing : transaction.writes = [] := guaranteed
      have own : Admissible (operations index).eventId shared transaction := by
        simpa [ownEq, Connection.pending] using invariant.admissible index
      refine invariant.update invariant.database_eq invariant.represents invariant.once
        invariant.outbox_below
        (own.lock nothing ?_) (fun other _ => invariant.admissible other)
        fun other different => Apart.lock ?_ (othersOf_eq_false free different)
      · simpa [nothing] using Option.isSome_of_eq_some found
      · simpa [ownEq, Connection.pending] using invariant.apart index other different.symm
  | written opened attempted =>
      subst opened
      obtain ⟨_, _, same, modificationGuaranteed⟩ := guaranteed
      cases same
      exact invariant.written ownEq modificationGuaranteed attempted
  | committed opened =>
      subst opened
      exact invariant.committed ownEq guaranteed.1 (guaranteed.2 _ rfl)
  | autocommitted outside =>
      obtain ⟨transactional, transaction, opened, _⟩ := guaranteed
      rcases outside with rfl | notOpened
      · cases transactional
      · exact absurd opened (notOpened transaction)

/-- The other sessions can rely on what they do through a guaranteed statement. -/
theorem Invariant.rely (invariant : Invariant operations initial shared connections)
    (guaranteed : Guaranteed operations index (connections index) shared statement)
    (transition : Transition (othersOf index connections) choice index shared (connections index)
      statement shared' own') {other : ι} (different : other ≠ index) :
    Rely operations other (connections other) shared shared' := by
  generalize ownEq : connections index = own at transition guaranteed
  cases transition with
  | unchanged same => exact .of_same rfl rfl
  | locked opened parsed found free => exact .of_same rfl rfl
  | @written transaction modification write opened attempted =>
      cases write <;> exact .of_same rfl rfl
  | @committed transaction opened =>
      subst opened
      have own : Admissible (operations index).eventId shared transaction := by
        simpa [ownEq, Connection.pending] using invariant.admissible index
      have apart : Apart transaction (connections other).pending := by
        simpa [ownEq, Connection.pending] using invariant.apart index other different.symm
      exact {
        committed := ⟨_, rfl, by simp [different.symm]⟩
        kept := fun row rowMem => own.kept rowMem
        locked := fun id locked => own.locked (invariant.admissible other) apart locked
        recorded := fun event eventMem => own.recorded eventMem
        foreign := fun event eventMem => (Database.mem_events_applyAll eventMem).imp_right
          fun inserted => ⟨index, different.symm, own.event_named event inserted⟩ }
  | autocommitted outside =>
      obtain ⟨transactional, transaction, opened, _⟩ := guaranteed
      rcases outside with rfl | notOpened
      · cases transactional
      · exact absurd opened (notOpened transaction)

end Steps

/-- The guarantees of the sessions preserve the invariant and what they rely on. -/
theorem discipline_sound [Fintype ι] [DecidableEq ι] (faults : Bool)
    (operations : ι → Operation) (initial : Database) :
    (discipline faults operations initial).Sound where
  answer_invariant invariant answered guaranteed :=
    Invariant.step invariant guaranteed (execute_transition answered)
  answer_rely invariant answered guaranteed _ different :=
    Invariant.rely invariant guaranteed (execute_transition answered) different
  environment_invariant := by
    rintro ⟨⟩
  environment_rely := by
    rintro ⟨⟩

end Postgres

end ProcessingCatalog
