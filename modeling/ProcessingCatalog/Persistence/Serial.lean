import ProcessingCatalog.Persistence.Alone

/-!
# A call alone does what it does at one moment

The statements of a call that runs alone, followed to their end: it answers and
changes what the operation answers and changes of the ledger at one moment. For
the lifecycle events this is proved under any rules of the text PostgreSQL
accepts; a call that meets a refusal changes nothing.
-/

namespace ProcessingCatalog

open Effect TypeOrm Domain

/-- A change whose outbox entry gets an identifier. -/
def Change.numbered (id : ℕ) (change : Change OutboxEntry) : Write :=
  change.map fun entry => ⟨id, entry, none⟩

@[simp]
theorem Change.forget_numbered (id : ℕ) (change : Change OutboxEntry) :
    (change.numbered id).forget = change := by
  cases change <;> rfl

/-- The outbox entries of a list of changes. -/
def Change.entries (changes : List (Change OutboxEntry)) : List OutboxEntry :=
  changes.filterMap fun
    | .insertOutbox entry => some entry
    | _ => none

namespace Database

theorem outboxRows_numbered (id : ℕ) (changes : List (Change OutboxEntry)) :
    outboxRows (changes.map (Change.numbered id)) =
      (Change.entries changes).map fun entry => ⟨id, entry, none⟩ := by
  induction changes with
  | nil => rfl
  | cons change changes ih =>
      cases change with
      | insertOutbox entry => exact congrArg (OutboxRow.mk id entry none :: ·) ih
      | _ => exact ih

end Database

namespace Postgres

/-- What a call that ran alone did: these changes, their outbox row numbered next. -/
structure Did (ledger : Ledger) (changes : List (Change OutboxEntry))
    (shared shared' : Shared Unit) : Prop where
  database : shared'.database =
    shared.database.applyAll (changes.map (Change.numbered shared.nextOutboxId))
  represents : shared'.database.Represents (ledger.applyAll changes)
  numbered : Numbered shared'.database shared'.nextOutboxId

section Did

variable {ledger : Ledger} {shared shared' : Shared Unit}

theorem did_nothing (represents : shared.database.Represents ledger)
    (numbered : Numbered shared.database shared.nextOutboxId)
    (same : shared'.database = shared.database)
    (later : shared.nextOutboxId ≤ shared'.nextOutboxId) : Did ledger [] shared shared' where
  database := same
  represents := same ▸ represents
  numbered row rowMem := (numbered row (same ▸ rowMem)).trans_le later

theorem did_changes (represents : shared.database.Represents ledger)
    (numbered : Numbered shared.database shared.nextOutboxId)
    {changes : List (Change OutboxEntry)} (atMostOne : (Change.entries changes).length ≤ 1)
    (applied : shared'.database =
      shared.database.applyAll (changes.map (Change.numbered shared.nextOutboxId)))
    (later : shared.nextOutboxId + (Change.entries changes).length ≤ shared'.nextOutboxId) :
    Did ledger changes shared shared' := by
  have isRow : ∀ row, .insertOutbox row ∈ changes.map (Change.numbered shared.nextOutboxId) →
      row.id = shared.nextOutboxId ∧ 0 < (Change.entries changes).length := by
    intro row rowMem
    have listed := Database.mem_outboxRows.mpr rowMem
    rw [Database.outboxRows_numbered] at listed
    rcases List.mem_map.mp listed with ⟨entry, entryMem, rfl⟩
    exact ⟨rfl, List.length_pos_of_mem entryMem⟩
  refine ⟨applied, ?_, ?_⟩
  · have represented : (shared.database.applyAll
        (changes.map (Change.numbered shared.nextOutboxId))).Represents
        (ledger.applyAll
          ((changes.map (Change.numbered shared.nextOutboxId)).map Change.forget)) := by
      refine represents.applyAll ?_ ?_
      · intro row rowMem other otherMem
        have less := numbered other otherMem
        rw [← (isRow row rowMem).1] at less
        exact ⟨less.ne, fun _ => less⟩
      · rw [Database.outboxRows_numbered]
        cases listed : Change.entries changes with
        | nil => exact List.Pairwise.nil
        | cons entry rest =>
            rw [listed, List.length_cons] at atMostOne
            rw [List.length_eq_zero_iff.mp (by omega : rest.length = 0)]
            exact List.pairwise_singleton _ _
    simpa [applied, Function.comp_def] using represented
  · intro row rowMem
    rw [applied] at rowMem
    rcases Database.mem_outbox_applyAll rowMem with old | new
    · have less := numbered row old
      omega
    · have ⟨isNext, numbersOne⟩ := isRow row new
      omega

end Did

/-! ## The statements -/

section Statements

variable {rules : TextRules} {shared : Shared Unit} {own : Connection} {transaction : Transaction}
  {ledger : Ledger}

theorem countEvents_pos (database : Database) (eventId : JsString) :
    decide (0 < database.events.rows.countP fun event => event.eventId = eventId) =
      (database.events.find? eventId).isSome := by
  rw [Bool.eq_iff_iff, decide_eq_true_eq, List.countP_pos_iff]
  simp [KeyedTable.find?]

theorem run_hasEventBeenProcessed {eventId : JsString} (accepted : rules.text eventId = true)
    {manager : Manager} {view : Database} (seen : own.view shared.database manager = .ok view) :
    ((repository manager).hasEventBeenProcessed eventId).run (answerAlone rules) (shared, own) =
      (.ok (view.events.find? eventId).isSome, shared, own) := by
  refine (Program.run_bind_of_ok (run_query manager (.countEvents eventId)
    (by simp [Statement.accepted, Query.texts, accepted]) seen rfl) _).trans ?_
  rw [← countEvents_pos]
  rfl

theorem run_hasEventBeenProcessed_refused {eventId : JsString}
    (refused : rules.text eventId = false) :
    ((repository .dataSource).hasEventBeenProcessed eventId).run (answerAlone rules)
        (shared, .idle) = (.error (.database textRefused), shared, .idle) :=
  Program.run_bind_of_error (run_refused (.query .dataSource (.countEvents eventId))
    (by simp [Statement.accepted, Query.texts, refused])) _

theorem run_findOne (criteria : Criteria) {selects : ProcessingRequestRow → Bool}
    (selected : criteria.selects = .ok selects)
    (accepted : (Query.findRequest criteria).texts.all rules.text = true) :
    (findOne .dataSource criteria).run (answerAlone rules) (shared, .idle) =
      (.ok ((shared.database.requests.rows.find? selects).map ProcessingRequestRow.toDomain),
        shared, .idle) := by
  have ran : (Query.findRequest criteria).run shared.database =
      .ok (shared.database.requests.rows.find? selects) := by
    simp [Query.run, selected, Except.map]
  exact Program.run_bind_of_ok (run_query .dataSource (.findRequest criteria) accepted rfl ran) _

theorem run_findOne_refused (criteria : Criteria)
    (refused : (Query.findRequest criteria).texts.all rules.text = false) :
    (findOne .dataSource criteria).run (answerAlone rules) (shared, .idle) =
      (.error (.database textRefused), shared, .idle) :=
  Program.run_bind_of_error (run_refused (.query .dataSource (.findRequest criteria)) refused) _

theorem run_findByEventId_refused {eventId : JsString} (refused : rules.text eventId = false) :
    ((repository .dataSource).findByEventId eventId).run (answerAlone rules) (shared, .idle) =
      (.error (.database textRefused), shared, .idle) :=
  Program.run_bind_of_error (run_refused (.query .dataSource (.findEvent eventId))
    (by simp [Statement.accepted, Query.texts, refused])) _

theorem run_findByEventId (represents : shared.database.Represents ledger) {eventId : JsString}
    (accepted : rules.text eventId = true) :
    ((repository .dataSource).findByEventId eventId).run (answerAlone rules) (shared, .idle) =
      (.ok ((ledger.findByEventId eventId).map ProcessingRequestRow.toDomain), shared, .idle) := by
  refine (Program.run_bind_of_ok (run_query .dataSource (.findEvent eventId)
    (by simp [Statement.accepted, Query.texts, accepted]) rfl rfl) _).trans ?_
  rw [Ledger.findByEventId, ← represents.events, ← represents.requests]
  cases recorded : shared.database.events.find? eventId with
  | none => rfl
  | some event =>
      cases linked : event.processingRequestId with
      | none => simp [linked]
      | some id =>
          simp only [Option.bind_some, linked]
          refine (run_findOne (.processingRequestId id.text)
            (by rw [Criteria.selects, Uuid.parse_text]) rfl).trans ?_
          simp [linked, KeyedTable.find?]

theorem run_findForUpdate_malformed {text : JsString} (malformed : Uuid.parse text = none) :
    ((repository .transactional).findForUpdate text).run (answerAlone rules)
        (shared, .opened .empty) =
      (.error (.database .invalidTextRepresentation), shared, .aborted) :=
  Program.run_bind_of_error (run_findRequestForUpdate_malformed malformed) _

theorem run_findForUpdate_none {text : JsString} {id : Uuid} (parsed : Uuid.parse text = some id)
    (absent : shared.database.requests.find? id = none) :
    ((repository .transactional).findForUpdate text).run (answerAlone rules)
        (shared, .opened .empty) = (.ok none, shared, .opened .empty) :=
  Program.run_bind_of_ok (run_findRequestForUpdate_none parsed absent) _

theorem run_findForUpdate_some {text : JsString} {id : Uuid} {row : ProcessingRequestRow}
    (parsed : Uuid.parse text = some id) (found : shared.database.requests.find? id = some row) :
    ((repository .transactional).findForUpdate text).run (answerAlone rules)
        (shared, .opened .empty) = (.ok (some row.toDomain), shared, .opened ⟨[], [id]⟩) :=
  Program.run_bind_of_ok (run_findRequestForUpdate_some parsed found) _

end Statements

/-! ## The writes of a transaction -/

section Writes

variable {rules : TextRules} {shared : Shared Unit} {transaction : Transaction} {view : Database}

theorem attempt_saveRequest_alone (unique : UniqueIndexes view.requests)
    {before row : ProcessingRequestRow} (beforeMem : before ∈ view.requests)
    (same : before.SameIdentity row) (nextOutboxId : ℕ) :
    (Modification.saveRequest row.toDomain).attempt (fun _ => false) .proceed nextOutboxId view =
      some (.ok (.saveRequest row)) := by
  have free : UniqueIndex.all.all (Modification.freeForUpdate view row) = true := by
    simp only [List.all_eq_true, Modification.freeForUpdate, decide_eq_true_eq]
    intro index _ other otherMem
    by_cases collides : index.Collides other row
    · have isBefore := unique index other otherMem before beforeMem (collides.of_sameIdentity same)
      exact .inl (isBefore ▸ same.processingRequestId.symm)
    · exact .inr collides
  simp [Modification.attempt, Modification.attemptRow, free]

theorem attempt_insertRequest_alone {row : ProcessingRequestRow}
    (free : ∀ stored ∈ view.requests, ∀ index : UniqueIndex, ¬ index.Collides stored row)
    (nextOutboxId : ℕ) :
    (Modification.insertRequest row.toDomain).attempt (fun _ => false) .proceed nextOutboxId view =
      some (.ok (.insertRequest row)) := by
  have free : UniqueIndex.all.all (Modification.freeFor view row) = true := by
    simp only [List.all_eq_true, Modification.freeFor, decide_eq_true_eq]
    exact fun index _ other otherMem => free other otherMem index
  simp [Modification.attempt, Modification.attemptRow, free]

theorem attempt_insertEvent_alone {eventId : JsString}
    (unrecorded : view.events.find? eventId = none) (id : Uuid) (nextOutboxId : ℕ) :
    (Modification.insertEvent eventId (some id.text)).attempt (fun _ => false) .proceed
      nextOutboxId view = some (.ok (.insertEvent ⟨eventId, some id⟩)) := by
  simp [Modification.attempt, ProcessingRequestRow.uuidColumn, unrecorded]

/-- The record of an event that is not recorded yet. -/
theorem run_markEventProcessed {eventId : JsString} (accepted : rules.acceptsEventId eventId = true)
    (unrecorded : (shared.database.applyAll transaction.writes).events.find? eventId = none)
    (id : Uuid) :
    ((repository .transactional).markEventProcessed eventId (some id.text)).run
        (answerAlone rules) (shared, .opened transaction) =
      (.ok (), shared, .opened (transaction.record (.insertEvent ⟨eventId, some id⟩))) :=
  run_modify transaction (.insertEvent eventId (some id.text)) accepted
    (attempt_insertEvent_alone unrecorded id _)

theorem run_update (transaction : Transaction)
    (unique : UniqueIndexes (shared.database.applyAll transaction.writes).requests)
    {before row : ProcessingRequestRow}
    (beforeMem : before ∈ (shared.database.applyAll transaction.writes).requests)
    (same : before.SameIdentity row) (accepted : rules.acceptsRequest row.toDomain = true) :
    ((repository .transactional).update row.toDomain).run (answerAlone rules)
        (shared, .opened transaction) =
      (.ok (), shared, .opened (transaction.record (.saveRequest row))) :=
  run_modify transaction (.saveRequest row.toDomain) accepted
    (attempt_saveRequest_alone unique beforeMem same _)

theorem run_add {route : EventRoute} {payload : OutboxPayload}
    (accepted : rules.acceptsPayload payload = true) :
    ((outboxWriter .transactional).add route payload).run (answerAlone rules)
        (shared, .opened transaction) =
      (.ok (), { shared with nextOutboxId := shared.nextOutboxId + 1 }, .opened (transaction.record
        (.insertOutbox ⟨shared.nextOutboxId, ⟨route, payload⟩, none⟩))) :=
  run_modify transaction (.insertOutbox ⟨route, payload⟩) accepted rfl

theorem run_markEventProcessed_refused {eventId : JsString}
    (refused : rules.acceptsEventId eventId = false) (processingRequestId : Option JsString) :
    ((repository .transactional).markEventProcessed eventId processingRequestId).run
        (answerAlone rules) (shared, .opened transaction) =
      (.error (.database textRefused), shared, .aborted) :=
  run_refused (.modify .transactional (.insertEvent eventId processingRequestId)) refused

theorem run_update_refused {request : ProcessingRequest}
    (refused : rules.acceptsRequest request = false) :
    ((repository .transactional).update request).run (answerAlone rules)
        (shared, .opened transaction) = (.error (.database textRefused), shared, .aborted) :=
  run_refused (.modify .transactional (.saveRequest request)) refused

theorem run_add_refused {route : EventRoute} {payload : OutboxPayload}
    (refused : rules.acceptsPayload payload = false) :
    ((outboxWriter .transactional).add route payload).run (answerAlone rules)
        (shared, .opened transaction) = (.error (.database textRefused), shared, .aborted) :=
  run_refused (.modify .transactional (.insertOutbox ⟨route, payload⟩)) refused

end Writes

/-! ## A transaction -/

/-- What PostgreSQL lets an operation do: all of it, or nothing when a change carries text it
does not accept. -/
def TextRules.enforce {α : Type} (rules : TextRules) (performed : Performed α) : Performed α :=
  if performed.2.all rules.acceptsChange then performed
  else (.error (.database textRefused), [])

theorem TextRules.enforce_nothing {α : Type} (rules : TextRules) (outcome : Except Thrown α) :
    rules.enforce (outcome, []) = (outcome, []) := by
  simp [enforce]

theorem TextRules.enforce_lenient {α : Type} (performed : Performed α) :
    lenient.enforce performed = performed := by
  have accepted : performed.2.all lenient.acceptsChange = true :=
    List.all_eq_true.mpr fun change _ => lenient_acceptsChange change
  simp [enforce, accepted]

/-- Where the work of a transaction ends that does what an operation does. -/
inductive Worked {α : Type} (rules : TextRules) (shared : Shared Unit) (performed : Performed α) :
    Except Thrown α × Shared Unit × Connection → Prop where
  | returned {value : α} {changes : List (Change OutboxEntry)} {locks : List Uuid}
      (enforced : rules.enforce performed = (.ok value, changes))
      (atMostOne : (Change.entries changes).length ≤ 1) :
      Worked rules shared performed (.ok value,
        { shared with nextOutboxId := shared.nextOutboxId + (Change.entries changes).length },
        .opened ⟨changes.map (Change.numbered shared.nextOutboxId), locks⟩)
  | threw {error : Thrown} {nextOutboxId : ℕ} {own : Connection}
      (enforced : rules.enforce performed = (.error error, []))
      (later : shared.nextOutboxId ≤ nextOutboxId) :
      Worked rules shared performed (.error error, { shared with nextOutboxId }, own)

section Transaction

variable {rules : TextRules} {shared : Shared Unit} {ledger : Ledger}

theorem Worked.of_accepted {α : Type} {value : α} {changes : List (Change OutboxEntry)}
    {locks : List Uuid} (accepted : changes.all rules.acceptsChange = true)
    (atMostOne : (Change.entries changes).length ≤ 1)
    {ended : Except Thrown α × Shared Unit × Connection}
    (isEnd : ended = (.ok value,
      { shared with nextOutboxId := shared.nextOutboxId + (Change.entries changes).length },
      .opened ⟨changes.map (Change.numbered shared.nextOutboxId), locks⟩)) :
    Worked rules shared (.ok value, changes) ended := by
  rw [isEnd]
  exact .returned (by simp [TextRules.enforce, accepted]) atMostOne

theorem Worked.of_refused {α : Type} {outcome : Except Thrown α}
    {changes : List (Change OutboxEntry)} (refused : changes.all rules.acceptsChange = false)
    {nextOutboxId : ℕ} (later : shared.nextOutboxId ≤ nextOutboxId) {own : Connection}
    {ended : Except Thrown α × Shared Unit × Connection}
    (isEnd : ended = (.error (.database textRefused), { shared with nextOutboxId }, own)) :
    Worked rules shared (outcome, changes) ended := by
  rw [isEnd]
  exact .threw (by simp [TextRules.enforce, refused]) later

/-- The transaction of such work does what the operation does. -/
theorem run_runInTransaction {α : Type} (represents : shared.database.Represents ledger)
    (numbered : Numbered shared.database shared.nextOutboxId) {performed : Performed α}
    {work : TransactionContext signature → Computation signature α}
    (worked : Worked rules shared performed
      ((work ⟨repository .transactional, outboxWriter .transactional⟩).run
        (answerAlone rules) (shared, .opened .empty))) :
    ∃ shared', (unitOfWork.runInTransaction work).run (answerAlone rules) (shared, .idle) =
      ((rules.enforce performed).1, shared', .idle) ∧
      Did ledger (rules.enforce performed).2 shared shared' := by
  generalize ended : (work ⟨repository .transactional, outboxWriter .transactional⟩).run
    (answerAlone rules) (shared, .opened .empty) = endState at worked
  cases worked with
  | returned enforced atMostOne =>
      refine ⟨_, (run_runInTransaction_ok ended).trans (by rw [enforced]), ?_⟩
      rw [enforced]
      exact did_changes represents numbered atMostOne rfl le_rfl
  | threw enforced later =>
      refine ⟨_, (run_runInTransaction_error ended).trans (by rw [enforced]), ?_⟩
      rw [enforced]
      exact did_nothing represents numbered rfl later

variable {event : LifecycleEvent} {row : ProcessingRequestRow} {id : Uuid}

/-- The record of the decision about a locked row. -/
theorem worked_record (unique : UniqueIndexes shared.database.requests)
    (found : shared.database.requests.find? id = some row)
    (unrecorded : shared.database.events.find? event.eventId = none) {decision : Decision}
    (decided : event.decide row.toDomain = .ok decision) :
    Worked rules shared (event.performDecision row decision)
      ((event.record ⟨repository .transactional, outboxWriter .transactional⟩ row.toDomain
        decision).run (answerAlone rules) (shared, .opened ⟨[], [id]⟩)) := by
  cases decision with
  | noted =>
      simp only [LifecycleEvent.record, LifecycleEvent.performDecision,
        ProcessingRequestRow.toDomain_processingRequestId]
      cases eventId : rules.acceptsEventId event.eventId with
      | false =>
          refine .of_refused (by simp [TextRules.acceptsChange, eventId]) le_rfl
            (Program.run_bind_of_error (run_markEventProcessed_refused eventId _) _)
      | true =>
          refine .of_accepted (by simp [TextRules.acceptsChange, eventId])
            (by simp [Change.entries])
            (Program.run_bind_of_ok (run_markEventProcessed eventId ?_ _) _)
          exact unrecorded
  | applied updated entry =>
      obtain ⟨row', rfl, same⟩ := (event.lawful decided).exists_row
      have stored := KeyedTable.mem_of_find? found
      simp only [LifecycleEvent.performDecision, ProcessingRequestRow.toRow_toDomain]
      cases columns : rules.acceptsRequest row'.toDomain with
      | false =>
          have refused : (event.appliedChanges row' entry).all rules.acceptsChange = false := by
            simp [LifecycleEvent.appliedChanges, TextRules.acceptsChange, columns]
          cases entry <;> exact .of_refused refused le_rfl
            (Program.run_bind_of_error (run_update_refused columns) _)
      | true =>
      have updates : ((repository .transactional).update row'.toDomain).run (answerAlone rules)
          (shared, .opened ⟨[], [id]⟩) =
            (.ok (), shared, .opened (Transaction.record ⟨[], [id]⟩ (.saveRequest row'))) :=
        run_update ⟨[], [id]⟩ unique stored same columns
      cases entry with
      | none =>
          rw [LifecycleEvent.record, ProcessingRequestRow.toDomain_processingRequestId,
            Program.run_bind_of_ok updates]
          cases eventId : rules.acceptsEventId event.eventId with
          | false =>
              exact .of_refused (by simp [LifecycleEvent.appliedChanges, TextRules.acceptsChange,
                eventId]) le_rfl
                (Program.run_bind_of_error (run_markEventProcessed_refused eventId _) _)
          | true =>
              refine .of_accepted (by simp [LifecycleEvent.appliedChanges, TextRules.acceptsChange,
                eventId, columns]) (by simp [LifecycleEvent.appliedChanges, Change.entries])
                (Program.run_bind_of_ok (run_markEventProcessed eventId ?_ _) _)
              exact unrecorded
      | some announced =>
          obtain ⟨route, payload⟩ := announced
          rw [LifecycleEvent.record, ProcessingRequestRow.toDomain_processingRequestId,
            Program.run_bind_of_ok updates]
          cases json : rules.acceptsPayload payload with
          | false =>
              exact .of_refused (by simp [LifecycleEvent.appliedChanges, TextRules.acceptsChange,
                json]) le_rfl (Program.run_bind_of_error (run_add_refused json) _)
          | true =>
          rw [Program.run_bind_of_ok (run_add json)]
          cases eventId : rules.acceptsEventId event.eventId with
          | false =>
              exact .of_refused (by simp [LifecycleEvent.appliedChanges, TextRules.acceptsChange,
                eventId]) (Nat.le_succ _)
                (Program.run_bind_of_error (run_markEventProcessed_refused eventId _) _)
          | true =>
              refine .of_accepted (by simp [LifecycleEvent.appliedChanges, TextRules.acceptsChange,
                eventId, columns, json]) (by simp [LifecycleEvent.appliedChanges, Change.entries])
                (Program.run_bind_of_ok (run_markEventProcessed eventId ?_ _) _)
              exact unrecorded

/-- The work of a lifecycle event: the row is locked, the event looked for again, and the
decision about the row recorded. -/
theorem worked_lifecycle (represents : shared.database.Represents ledger)
    (unique : UniqueIndexes shared.database.requests)
    (accepted : rules.text event.eventId = true) :
    Worked rules shared (event.performLocked ledger)
      (Program.run (answerAlone rules) (shared, .opened .empty) (do
        let some request ← (repository .transactional).findForUpdate event.processingRequestId
          | throw (processingRequestNotFound event.processingRequestId)
        if ← (repository .transactional).hasEventBeenProcessed event.eventId then
          return request
        event.handleLocked ⟨repository .transactional, outboxWriter .transactional⟩ request)) := by
  unfold LifecycleEvent.performLocked
  cases parsed : Uuid.parse event.processingRequestId with
  | none =>
      rw [Program.run_bind_of_error (run_findForUpdate_malformed parsed)]
      exact .threw (rules.enforce_nothing _) le_rfl
  | some id =>
  cases found : ledger.requests.find? id with
  | none =>
      rw [Program.run_bind_of_ok
        (run_findForUpdate_none parsed (represents.requests.symm ▸ found))]
      simp only [found]
      exact .threw (rules.enforce_nothing _) le_rfl
  | some row =>
  have stored : shared.database.requests.find? id = some row := represents.requests.symm ▸ found
  rw [Program.run_bind_of_ok (run_findForUpdate_some parsed stored)]
  simp only [found]
  rw [Program.run_bind_of_ok (run_hasEventBeenProcessed accepted rfl), Ledger.isRecorded,
    ← represents.events]
  cases recorded : shared.database.events.find? event.eventId with
  | some existing =>
      simp only [Database.applyAll_nil, recorded, Option.isSome_some, if_true]
      exact .of_accepted List.all_nil (Nat.zero_le 1) rfl
  | none =>
      simp only [Database.applyAll_nil, recorded, Option.isSome_none, Bool.false_eq_true, if_false,
        LifecycleEvent.handleLocked]
      cases decided : event.decide row.toDomain with
      | error error => exact .threw (rules.enforce_nothing _) le_rfl
      | ok decision => exact worked_record unique stored recorded decided

end Transaction

/-- A lifecycle event at one moment, under the rules of the text PostgreSQL accepts. -/
def performUnder (rules : TextRules) (event : LifecycleEvent) (ledger : Ledger) :
    Performed ProcessingRequest :=
  if event.refusal.isNone && !rules.text event.eventId then (.error (.database textRefused), [])
  else rules.enforce (event.perform ledger)

theorem performUnder_of_refusal {rules : TextRules} {event : LifecycleEvent} {error : Thrown}
    (refused : event.refusal = some error) (ledger : Ledger) :
    performUnder rules event ledger = (.error error, []) := by
  simp [performUnder, LifecycleEvent.perform, refused, TextRules.enforce_nothing]

theorem performUnder_of_refused {rules : TextRules} {event : LifecycleEvent}
    (valid : event.refusal = none) (refused : rules.text event.eventId = false) (ledger : Ledger) :
    performUnder rules event ledger = (.error (.database textRefused), []) := by
  simp [performUnder, valid, refused]

theorem performUnder_of_accepted {rules : TextRules} {event : LifecycleEvent}
    (valid : event.refusal = none) (accepted : rules.text event.eventId = true) (ledger : Ledger) :
    performUnder rules event ledger =
      match ledger.findByEventId event.eventId with
      | some existing => (.ok existing.toDomain, [])
      | none => rules.enforce (event.performLocked ledger) := by
  rw [performUnder, LifecycleEvent.perform]
  simp only [valid, accepted, Option.isNone_none, Bool.not_true, Bool.and_false,
    Bool.false_eq_true, if_false]
  cases ledger.findByEventId event.eventId with
  | none => rfl
  | some existing => exact rules.enforce_nothing _

theorem performUnder_lenient (event : LifecycleEvent) (ledger : Ledger) :
    performUnder .lenient event ledger = event.perform ledger := by
  have accepted : TextRules.lenient.text event.eventId = true := rfl
  simp [performUnder, accepted, TextRules.enforce_lenient]

/-- A lifecycle event does all it does at one moment, or is refused. -/
theorem performUnder_cases (rules : TextRules) (event : LifecycleEvent) (ledger : Ledger) :
    performUnder rules event ledger = event.perform ledger ∨
      performUnder rules event ledger = (.error (.database textRefused), []) := by
  unfold performUnder TextRules.enforce
  split_ifs
  · exact .inr rfl
  · exact .inl rfl
  · exact .inr rfl

section Alone

variable {shared : Shared Unit} {ledger : Ledger}

/-- A lifecycle event that runs alone does what it does at one moment. -/
theorem run_handle (rules : TextRules) (event : LifecycleEvent)
    (represents : shared.database.Represents ledger)
    (numbered : Numbered shared.database shared.nextOutboxId)
    (unique : UniqueIndexes shared.database.requests) :
    ∃ shared', (event.handle (repository .dataSource) unitOfWork).run (answerAlone rules)
        (shared, .idle) = ((performUnder rules event ledger).1, shared', .idle) ∧
      Did ledger (performUnder rules event ledger).2 shared shared' := by
  have unchanged : Did ledger [] shared shared := did_nothing represents numbered rfl le_rfl
  cases valid : event.refusal with
  | some error =>
      rw [LifecycleEvent.handle_of_refusal valid, performUnder_of_refusal valid]
      exact ⟨shared, rfl, unchanged⟩
  | none =>
  rw [LifecycleEvent.handle_of_valid valid]
  cases accepted : rules.text event.eventId with
  | false =>
      rw [performUnder_of_refused valid accepted]
      exact ⟨shared, Program.run_bind_of_error (run_hasEventBeenProcessed_refused accepted) _,
        unchanged⟩
  | true =>
  rw [performUnder_of_accepted valid accepted]
  unfold LifecycleEvent.handleValid
  rw [Program.run_bind_of_ok (run_hasEventBeenProcessed accepted rfl)]
  cases recorded : shared.database.events.find? event.eventId with
  | none =>
      have unlinked : ledger.findByEventId event.eventId = none := by
        rw [Ledger.findByEventId, ← represents.events, recorded]
        rfl
      simp only [unlinked, Option.isSome_none, Bool.false_eq_true, if_false]
      exact run_runInTransaction represents numbered (worked_lifecycle represents unique accepted)
  | some _ =>
      simp only [Option.isSome_some, if_true]
      rw [Program.run_bind_of_ok (run_findByEventId represents accepted)]
      cases linked : ledger.findByEventId event.eventId with
      | none =>
          exact run_runInTransaction represents numbered
            (worked_lifecycle represents unique accepted)
      | some existing => exact ⟨shared, rfl, unchanged⟩

end Alone

end Postgres

end ProcessingCatalog
