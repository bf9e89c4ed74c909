import ProcessingCatalog.Persistence.Serial
import ProcessingCatalog.Store.SerialOrder

/-!
# Calls one after another

A create that runs alone also does what it does at one moment, as far as
PostgreSQL accepts its texts. So calls that run one after another leave the
database what they leave at one moment each.
-/

namespace ProcessingCatalog

open Effect TypeOrm Domain

namespace Postgres

/-- A step that carries text PostgreSQL does not accept is refused, and nothing is changed. -/
def TextRules.guard {α : Type} (accepted : Bool) (performed : Performed α) : Performed α :=
  if accepted then performed else (.error (.database textRefused), [])

section Create

open CreateProcessingRequestUseCase

/-- The transaction of a create at one moment, under the rules of the text PostgreSQL accepts: the
row, its event and the record of the event, each refused for its own text. -/
def insertionUnder (rules : TextRules) (input : Input) (row : ProcessingRequestRow)
    (ledger : Ledger) : Performed Result :=
  TextRules.guard (rules.acceptsChange (.insertRequest row)) <|
  if (ledger.requests.find? row.processingRequestId).isSome then
    performInsertion input row.toDomain ledger
  else
    TextRules.guard (rules.acceptsPayload (validationRequested input row.toDomain)) <|
    TextRules.guard (rules.acceptsEventId input.eventId) <|
    performInsertion input row.toDomain ledger

/-- The lookups of a create whose request is valid. -/
def validUnder (rules : TextRules) (input : Input) (row : ProcessingRequestRow)
    (ledger : Ledger) : Performed Result :=
  TextRules.guard (rules.text input.ownerUserId && rules.text input.idempotencyKey) <|
  match ledger.findByOwnerAndIdempotencyKey input.ownerUserId input.idempotencyKey with
  | some bound => (replay bound.toDomain input, [])
  | none =>
      TextRules.guard (rules.text input.ownerUserId && rules.text input.sourceStorageKey) <|
      match ledger.findByOwnerAndSource input.ownerUserId input.sourceStorageKey with
      | some known => (.ok ⟨known.toDomain, .replayed⟩, [])
      | none => insertionUnder rules input row ledger

/-- A create at one moment, under the rules of the text PostgreSQL accepts. -/
def createUnder (rules : TextRules) (draws : Draws) (input : Input) (ledger : Ledger) :
    Performed Result :=
  match checked input with
  | .error error => (.error error, [])
  | .ok correlationId =>
      TextRules.guard (rules.text input.eventId) <|
      match ledger.findByEventId input.eventId with
      | some existing => (.ok ⟨existing.toDomain, .replayed⟩, [])
      | none =>
          match requestOf draws input correlationId with
          | .error error => (.error error, [])
          | .ok _ => validUnder rules input (requestRow draws input correlationId) ledger

variable {rules : TextRules} {shared : Shared Unit} {transaction : Transaction} {ledger : Ledger}
  {draws : Draws} {input : Input} {correlationId : Option JsString}

@[simp]
theorem TextRules.guard_true {α : Type} (performed : Performed α) :
    TextRules.guard true performed = performed := rfl

@[simp]
theorem TextRules.guard_false {α : Type} (performed : Performed α) :
    TextRules.guard false performed = (.error (.database textRefused), []) := rfl

theorem run_findByOwnerAndIdempotencyKey (represents : shared.database.Represents ledger)
    {ownerUserId idempotencyKey : JsString}
    (accepted : (rules.text ownerUserId && rules.text idempotencyKey) = true) :
    ((repository .dataSource).findByOwnerAndIdempotencyKey ownerUserId idempotencyKey).run
        (answerAlone rules) (shared, .idle) =
      (.ok ((ledger.findByOwnerAndIdempotencyKey ownerUserId idempotencyKey).map
        ProcessingRequestRow.toDomain), shared, .idle) := by
  rw [Ledger.findByOwnerAndIdempotencyKey, ← represents.requests]
  exact run_findOne (.ownerAndIdempotencyKey ownerUserId idempotencyKey) rfl
    (by simpa [Query.texts] using accepted)

theorem run_findByOwnerAndIdempotencyKey_refused {ownerUserId idempotencyKey : JsString}
    (refused : (rules.text ownerUserId && rules.text idempotencyKey) = false) :
    ((repository .dataSource).findByOwnerAndIdempotencyKey ownerUserId idempotencyKey).run
        (answerAlone rules) (shared, .idle) =
      (.error (.database textRefused), shared, .idle) :=
  run_findOne_refused (.ownerAndIdempotencyKey ownerUserId idempotencyKey)
    (by simpa [Query.texts] using refused)

theorem run_findByOwnerAndSource (represents : shared.database.Represents ledger)
    {ownerUserId sourceStorageKey : JsString}
    (accepted : (rules.text ownerUserId && rules.text sourceStorageKey) = true) :
    ((repository .dataSource).findByOwnerAndSource ownerUserId sourceStorageKey).run
        (answerAlone rules) (shared, .idle) =
      (.ok ((ledger.findByOwnerAndSource ownerUserId sourceStorageKey).map
        ProcessingRequestRow.toDomain), shared, .idle) := by
  rw [Ledger.findByOwnerAndSource, ← represents.requests]
  exact run_findOne (.ownerAndSource ownerUserId sourceStorageKey) rfl
    (by simpa [Query.texts] using accepted)

theorem run_findByOwnerAndSource_refused {ownerUserId sourceStorageKey : JsString}
    (refused : (rules.text ownerUserId && rules.text sourceStorageKey) = false) :
    ((repository .dataSource).findByOwnerAndSource ownerUserId sourceStorageKey).run
        (answerAlone rules) (shared, .idle) =
      (.error (.database textRefused), shared, .idle) :=
  run_findOne_refused (.ownerAndSource ownerUserId sourceStorageKey)
    (by simpa [Query.texts] using refused)

theorem run_save {row : ProcessingRequestRow}
    (accepted : rules.acceptsChange (.insertRequest row) = true)
    (free : ∀ stored ∈ shared.database.requests, ∀ index : UniqueIndex,
      ¬ index.Collides stored row) :
    ((repository .transactional).save row.toDomain).run (answerAlone rules)
        (shared, .opened .empty) =
      (.ok (), shared, .opened (Transaction.empty.record (.insertRequest row))) :=
  Program.run_tryCatch_of_ok (run_modify .empty (.insertRequest row.toDomain) accepted
    (attempt_insertRequest_alone free _)) _

/-- An insert whose text is refused. -/
theorem run_save_refused {row : ProcessingRequestRow}
    (refused : rules.acceptsChange (.insertRequest row) = false) :
    ((repository .transactional).save row.toDomain).run (answerAlone rules)
        (shared, .opened .empty) =
      (.error (.database textRefused), shared, .aborted) :=
  Program.run_tryCatch_of_error
    (run_refused (.modify .transactional (.insertRequest row.toDomain)) refused) _

/-- An insert whose identifier is taken. -/
theorem run_save_taken {row : ProcessingRequestRow}
    (accepted : rules.acceptsChange (.insertRequest row) = true)
    (taken : (shared.database.requests.find? row.processingRequestId).isSome) :
    ((repository .transactional).save row.toDomain).run (answerAlone rules)
        (shared, .opened .empty) =
      (.error (uniqueViolation (js "processing_request_pkey")), shared, .aborted) := by
  have collides : Modification.freeFor shared.database row .primaryKey = false := by
    obtain ⟨stored, found⟩ := Option.isSome_iff_exists.mp taken
    refine List.all_eq_false.mpr ⟨stored, KeyedTable.mem_of_find? found, ?_⟩
    simp [UniqueIndex.Collides, KeyedTable.key_of_find? found]
  have accepted : (Modification.insertRequest row.toDomain).accepted rules = true := accepted
  have answered : answerAlone rules (shared, .opened .empty)
      (.modify .transactional (.insertRequest row.toDomain)) =
        (.error (.uniqueViolation (js "processing_request_pkey")), shared, .aborted) := by
    simp [answerAlone, Statement.accepted, accepted, UniqueIndex.all, execute,
      executeModification, Connection.view, Modification.attempt, Modification.attemptRow,
      Transaction.empty, collides, UniqueIndex.constraint, Connection.afterFailure]
  refine (Program.run_tryCatch_of_error (run_send (.modify .transactional
    (.insertRequest row.toDomain)) (.error _) answered) _).trans ?_
  rfl

/-- The record of an event that is recorded already. -/
theorem run_markEventProcessed_recorded {eventId : JsString}
    (accepted : rules.acceptsEventId eventId = true)
    (recorded : ((shared.database.applyAll transaction.writes).events.find? eventId).isSome)
    (id : Uuid) :
    ((repository .transactional).markEventProcessed eventId (some id.text)).run
        (answerAlone rules) (shared, .opened transaction) =
      (.error (uniqueViolation (js "processed_event_pkey")), shared, .aborted) := by
  have attempted : (Modification.insertEvent eventId (some id.text)).attempt (fun _ => false)
      .proceed shared.nextOutboxId (shared.database.applyAll transaction.writes) =
        some (.error (.uniqueViolation (js "processed_event_pkey"))) := by
    simp [Modification.attempt, ProcessingRequestRow.uuidColumn, recorded]
  refine run_send (.modify .transactional (.insertEvent eventId (some id.text)))
    (.error (.uniqueViolation (js "processed_event_pkey")))
    (answerAlone_of_proceed accepted ?_)
  simp only [execute, executeModification, Connection.view, attempted, Option.map_some]
  rfl

/-- What an insertion does: nothing, with an error of the database, or everything. -/
theorem insertionUnder_cases (rules : TextRules) (input : Input) (row : ProcessingRequestRow)
    (ledger : Ledger) :
    (∃ failure, insertionUnder rules input row ledger = (.error (.database failure), [])) ∨
      insertionUnder rules input row ledger = (.ok ⟨row.toDomain, .created⟩,
        insertionChanges input row.toDomain row) ∧
      (insertionChanges input row.toDomain row).all rules.acceptsChange = true := by
  simp only [insertionUnder, performInsertion, ProcessingRequestRow.toRow_toDomain]
  cases columns : rules.acceptsChange (.insertRequest row) with
  | false => exact .inl ⟨_, rfl⟩
  | true =>
  cases (ledger.requests.find? row.processingRequestId).isSome with
  | true => exact .inl ⟨_, rfl⟩
  | false =>
  cases json : rules.acceptsPayload (validationRequested input row.toDomain) with
  | false => exact .inl ⟨_, rfl⟩
  | true =>
  cases eventId : rules.acceptsEventId input.eventId with
  | false => exact .inl ⟨_, rfl⟩
  | true =>
  cases ledger.isRecorded input.eventId with
  | true => exact .inl ⟨_, rfl⟩
  | false =>
      refine .inr ⟨rfl, ?_⟩
      simp only [insertionChanges, List.all_cons, List.all_nil, columns, Bool.true_and,
        Bool.and_true, Bool.and_eq_true]
      exact ⟨json, eventId⟩

/-- The transaction of a create whose lookups found nothing. -/
theorem worked_insertion (represents : shared.database.Represents ledger)
    (unbound : ledger.findByOwnerAndIdempotencyKey input.ownerUserId input.idempotencyKey = none)
    (unknown : ledger.findByOwnerAndSource input.ownerUserId input.sourceStorageKey = none)
    {row : ProcessingRequestRow} (isRow : row = requestRow draws input correlationId) :
    Worked rules shared (Performed.map (fun _ => ()) (insertionUnder rules input row ledger))
      ((insertion input row.toDomain ⟨repository .transactional, outboxWriter .transactional⟩).run
        (answerAlone rules) (shared, .opened .empty)) := by
  simp only [insertionUnder, insertion]
  cases columns : rules.acceptsChange (.insertRequest row) with
  | false =>
      rw [Program.run_bind_of_error (run_save_refused columns)]
      exact .threw (rules.enforce_nothing _) le_rfl
  | true =>
  cases taken : (ledger.requests.find? row.processingRequestId).isSome with
  | true =>
      rw [Program.run_bind_of_error (run_save_taken columns (represents.requests.symm ▸ taken))]
      simp only [TextRules.guard_true, if_true, performInsertion,
        ProcessingRequestRow.toRow_toDomain, taken]
      exact .threw (rules.enforce_nothing _) le_rfl
  | false =>
  have newId : ledger.requests.find? draws.uuid = none := by simpa [isRow, requestRow] using taken
  have free : ∀ stored ∈ ledger.requests, ∀ index : UniqueIndex,
      ¬ index.Collides stored row := isRow ▸ free_of_lookups unbound unknown newId
  rw [← represents.requests] at free
  rw [Program.run_bind_of_ok (run_save columns free)]
  simp only [TextRules.guard_true, Bool.false_eq_true, if_false]
  cases json : rules.acceptsPayload (validationRequested input row.toDomain) with
  | false =>
      rw [Program.run_bind_of_error (run_add_refused json)]
      exact .threw (rules.enforce_nothing _) le_rfl
  | true =>
  rw [Program.run_bind_of_ok (run_add json), ProcessingRequestRow.toDomain_processingRequestId]
  cases eventId : rules.acceptsEventId input.eventId with
  | false =>
      rw [run_markEventProcessed_refused eventId]
      exact .threw (rules.enforce_nothing _) (Nat.le_succ _)
  | true =>
  simp only [TextRules.guard_true, performInsertion, ProcessingRequestRow.toRow_toDomain, taken,
    Bool.false_eq_true, if_false]
  cases recorded : ledger.isRecorded input.eventId with
  | true =>
      rw [Ledger.isRecorded, ← represents.events] at recorded
      rw [run_markEventProcessed_recorded eventId ?isRecorded]
      · exact .threw (rules.enforce_nothing _) (Nat.le_succ _)
      case isRecorded => exact recorded
  | false =>
      rw [Ledger.isRecorded, ← represents.events, Option.isSome_eq_false_iff,
        Option.isNone_iff_eq_none] at recorded
      rw [run_markEventProcessed eventId ?isNew]
      · have accepted :
            (insertionChanges input row.toDomain row).all rules.acceptsChange = true := by
          simp only [insertionChanges, List.all_cons, List.all_nil, columns, Bool.true_and,
            Bool.and_true, Bool.and_eq_true]
          exact ⟨json, eventId⟩
        have announcesOnce :
            (Change.entries (insertionChanges input row.toDomain row)).length ≤ 1 := Nat.le_refl 1
        exact .of_accepted accepted announcesOnce rfl
      case isNew => exact recorded

theorem enforce_insertionUnder (input : Input) (row : ProcessingRequestRow) (ledger : Ledger) :
    rules.enforce (Performed.map (fun _ => ()) (insertionUnder rules input row ledger)) =
      Performed.map (fun _ => ()) (insertionUnder rules input row ledger) := by
  rcases insertionUnder_cases rules input row ledger with ⟨failure, threw⟩ | ⟨inserted, accepted⟩
  · rw [threw]
    exact rules.enforce_nothing _
  · rw [inserted]
    exact if_pos accepted

/-- What becomes of the transaction of a create that found no request. -/
theorem run_insertion (represents : shared.database.Represents ledger)
    (numbered : Numbered shared.database shared.nextOutboxId)
    (unbound : ledger.findByOwnerAndIdempotencyKey input.ownerUserId input.idempotencyKey = none)
    (unknown : ledger.findByOwnerAndSource input.ownerUserId input.sourceStorageKey = none)
    {row : ProcessingRequestRow} (isRow : row = requestRow draws input correlationId) :
    ∃ shared', (tryCatch
        (do
          unitOfWork.runInTransaction (insertion input row.toDomain)
          return ⟨row.toDomain, .created⟩)
        (lostRace (repository .dataSource) input)).run (answerAlone rules) (shared, .idle) =
          ((insertionUnder rules input row ledger).1, shared', .idle) ∧
      Did ledger (insertionUnder rules input row ledger).2 shared shared' := by
  rcases run_runInTransaction represents numbered
    (worked_insertion represents unbound unknown isRow) with ⟨shared', ran, did⟩
  rw [enforce_insertionUnder] at ran did
  refine ⟨shared', ?_, did⟩
  rcases insertionUnder_cases rules input row ledger with ⟨failure, threw⟩ | ⟨inserted, _⟩
  · rw [threw] at ran ⊢
    exact Program.run_tryCatch_of_error (Program.run_bind_of_error ran _) _
  · rw [inserted] at ran ⊢
    exact Program.run_tryCatch_of_ok (Program.run_bind_of_ok ran _) _

/-- A create that runs alone does what it does at one moment. -/
theorem run_create (rules : TextRules) (draws : Draws) (input : Input)
    (represents : shared.database.Represents ledger)
    (numbered : Numbered shared.database shared.nextOutboxId) :
    ∃ shared', (CreateProcessingRequestUseCase.execute (repository .dataSource) unitOfWork draws
        input).run (answerAlone rules) (shared, .idle) =
          ((createUnder rules draws input ledger).1, shared', .idle) ∧
      Did ledger (createUnder rules draws input ledger).2 shared shared' := by
  have unchanged : Did ledger [] shared shared := did_nothing represents numbered rfl le_rfl
  unfold CreateProcessingRequestUseCase.execute
  cases noEventId : isBlank input.eventId with
  | true => exact ⟨shared, by simp [createUnder, checked, noEventId], by
      simpa [createUnder, checked, noEventId] using unchanged⟩
  | false =>
  cases noKey : isBlank input.idempotencyKey with
  | true => exact ⟨shared, by simp [createUnder, checked, noEventId, noKey], by
      simpa [createUnder, checked, noEventId, noKey] using unchanged⟩
  | false =>
  simp only [Bool.false_eq_true, if_false]
  cases correlation : validCorrelationId input.correlationId with
  | error error => exact ⟨shared, by simp [createUnder, checked, noEventId, noKey, correlation], by
      simpa [createUnder, checked, noEventId, noKey, correlation] using unchanged⟩
  | ok correlationId =>
  have valid : checked input = .ok correlationId := by
    simp [checked, noEventId, noKey, correlation]
  simp only [Program.ofExcept_ok, Program.pure_bind, createUnder, valid]
  cases eventId : rules.text input.eventId with
  | false =>
      rw [Program.run_bind_of_error (run_findByEventId_refused eventId)]
      exact ⟨shared, rfl, unchanged⟩
  | true =>
  rw [Program.run_bind_of_ok (run_findByEventId represents eventId)]
  cases linked : ledger.findByEventId input.eventId with
  | some existing => exact ⟨shared, rfl, unchanged⟩
  | none =>
  simp only [Option.map_none]
  cases requested : requestOf draws input correlationId with
  | error error =>
      unfold requestOf at requested
      rw [requested]
      exact ⟨shared, rfl, unchanged⟩
  | ok request =>
  obtain rfl := eq_toDomain_of_requestOf requested
  unfold requestOf at requested
  rw [requested]
  simp only [Program.ofExcept_ok, Program.pure_bind, TextRules.guard_true, validUnder]
  cases key : rules.text input.ownerUserId && rules.text input.idempotencyKey with
  | false =>
      rw [Program.run_bind_of_error (run_findByOwnerAndIdempotencyKey_refused key)]
      exact ⟨shared, rfl, unchanged⟩
  | true =>
  rw [Program.run_bind_of_ok (run_findByOwnerAndIdempotencyKey represents key)]
  cases unbound : ledger.findByOwnerAndIdempotencyKey input.ownerUserId input.idempotencyKey with
  | some bound => exact ⟨shared, by simp, unchanged⟩
  | none =>
  simp only [Option.map_none, TextRules.guard_true]
  cases source : rules.text input.ownerUserId && rules.text input.sourceStorageKey with
  | false =>
      rw [Program.run_bind_of_error (run_findByOwnerAndSource_refused source)]
      exact ⟨shared, rfl, unchanged⟩
  | true =>
  rw [Program.run_bind_of_ok (run_findByOwnerAndSource represents source)]
  cases unknown : ledger.findByOwnerAndSource input.ownerUserId input.sourceStorageKey with
  | some known => exact ⟨shared, rfl, unchanged⟩
  | none => exact run_insertion represents numbered unbound unknown rfl

/-- Where PostgreSQL accepts all text, a create does all it does at one moment. -/
theorem createUnder_lenient (draws : Draws) (input : Input) (ledger : Ledger) :
    createUnder .lenient draws input ledger = perform draws input ledger := by
  have text : ∀ text, TextRules.lenient.text text = true := fun _ => rfl
  have row : ∀ row, TextRules.lenient.acceptsChange (.insertRequest row) = true :=
    fun row => TextRules.lenient_acceptsChange (.insertRequest row)
  have json : ∀ payload, TextRules.lenient.acceptsPayload payload = true := fun payload =>
    TextRules.lenient_acceptsChange (.insertOutbox ⟨.videoValidationRequested, payload⟩)
  have eventId : ∀ eventId, TextRules.lenient.acceptsEventId eventId = true := fun eventId =>
    TextRules.lenient_acceptsChange (.insertEvent ⟨eventId, none⟩)
  unfold createUnder perform
  cases checked input with
  | error error => rfl
  | ok correlationId =>
      simp only [text, TextRules.guard_true]
      cases requested : requestOf draws input correlationId with
      | error error => rfl
      | ok request =>
          rw [eq_toDomain_of_requestOf requested]
          simp only [validUnder, insertionUnder, text, row, json, eventId, Bool.and_self,
            TextRules.guard_true, ite_self]
          rfl

/-- A step is refused, or what is behind it is done or refused. -/
theorem TextRules.guard_or {α : Type} {performed full : Performed α}
    (rest : performed = full ∨ performed = (.error (.database textRefused), []))
    (accepted : Bool) :
    TextRules.guard accepted performed = full ∨
      TextRules.guard accepted performed = (.error (.database textRefused), []) := by
  cases accepted
  · exact .inr rfl
  · exact rest

/-- A create does all it does at one moment, or is refused. -/
theorem createUnder_cases (rules : TextRules) (draws : Draws) (input : Input) (ledger : Ledger) :
    createUnder rules draws input ledger = perform draws input ledger ∨
      createUnder rules draws input ledger = (.error (.database textRefused), []) := by
  unfold createUnder perform
  cases checked input with
  | error error => exact .inl rfl
  | ok correlationId =>
  apply TextRules.guard_or
  cases ledger.findByEventId input.eventId with
  | some existing => exact .inl rfl
  | none =>
  simp only
  cases requested : requestOf draws input correlationId with
  | error error => exact .inl rfl
  | ok request =>
  rw [eq_toDomain_of_requestOf requested]
  simp only [validUnder, performValid]
  apply TextRules.guard_or
  cases ledger.findByOwnerAndIdempotencyKey input.ownerUserId input.idempotencyKey with
  | some bound => exact .inl rfl
  | none =>
  apply TextRules.guard_or
  cases ledger.findByOwnerAndSource input.ownerUserId input.sourceStorageKey with
  | some known => exact .inl rfl
  | none =>
  apply TextRules.guard_or
  split
  · exact .inl rfl
  · exact TextRules.guard_or (TextRules.guard_or (.inl rfl) _) _

end Create

/-- A call at one moment, under the rules of the text PostgreSQL accepts. -/
def operationUnder (rules : TextRules) (ledger : Ledger) : Operation → Performed Answer
  | .create draws input => Performed.map .result (createUnder rules draws input ledger)
  | .accept draws input => Performed.map .request
      (performUnder rules (AcceptProcessingRequestUseCase.event draws input) ledger)
  | .start draws input => Performed.map .request
      (performUnder rules (StartProcessingRequestUseCase.event draws input) ledger)
  | .complete draws input => Performed.map .request
      (performUnder rules (CompleteProcessingRequestUseCase.event draws input) ledger)
  | .fail draws input => Performed.map .request
      (performUnder rules (FailProcessingRequestUseCase.event draws input) ledger)

section Serial

variable {rules : TextRules} {ledger : Ledger}

theorem operationUnder_of_event {operation : Operation} {event : LifecycleEvent}
    (isEvent : operation.event? = some event) (ledger : Ledger) :
    operationUnder rules ledger operation =
      Performed.map .request (performUnder rules event ledger) := by
  cases operation <;> cases isEvent <;> rfl

/-- A call does all it does at one moment, or is refused. -/
theorem operationUnder_cases (rules : TextRules) (operation : Operation) (ledger : Ledger) :
    operationUnder rules ledger operation = operation.perform ledger ∨
      operationUnder rules ledger operation = (.error (.database textRefused), []) := by
  rcases operation.create_or_event with ⟨draws, input, rfl⟩ | ⟨event, isEvent⟩
  · rcases createUnder_cases rules draws input ledger with full | refused
    · exact .inl (by rw [operationUnder, full, Operation.perform])
    · exact .inr (by rw [operationUnder, refused]; rfl)
  · rw [operationUnder_of_event isEvent, Operation.perform_of_event isEvent]
    rcases performUnder_cases rules event ledger with full | refused
    · exact .inl (by rw [full])
    · exact .inr (by rw [refused]; rfl)

theorem operationUnder_lenient (operation : Operation) (ledger : Ledger) :
    operationUnder .lenient ledger operation = operation.perform ledger := by
  rcases operation.create_or_event with ⟨draws, input, rfl⟩ | ⟨event, isEvent⟩
  · rw [operationUnder, createUnder_lenient, Operation.perform]
  · rw [operationUnder_of_event isEvent, performUnder_lenient, Operation.perform_of_event isEvent]

theorem changes_operationUnder (rules : TextRules) (operation : Operation) (ledger : Ledger) :
    (operationUnder rules ledger operation).2 = (operation.perform ledger).2 ∨
      (operationUnder rules ledger operation).2 = [] := by
  rcases operationUnder_cases rules operation ledger with full | refused
  · exact .inl (by rw [full])
  · exact .inr (by rw [refused])

/-- A call that runs alone does what it does at one moment. -/
theorem runAlone_execute (rules : TextRules) (operation : Operation) {shared : Shared Unit}
    (represents : shared.database.Represents ledger)
    (numbered : Numbered shared.database shared.nextOutboxId)
    (unique : UniqueIndexes shared.database.requests) :
    (runAlone rules (operation.execute (repository .dataSource) unitOfWork) shared).1 =
        (operationUnder rules ledger operation).1 ∧
      Did ledger (operationUnder rules ledger operation).2 shared
        (runAlone rules (operation.execute (repository .dataSource) unitOfWork) shared).2 := by
  rcases operation.create_or_event with ⟨draws, input, rfl⟩ | ⟨event, isEvent⟩
  · rcases run_create rules draws input represents numbered with ⟨shared', ran, did⟩
    simp only [runAlone, Operation.execute, Program.run_map _ ran]
    exact ⟨rfl, did⟩
  · rcases run_handle rules event represents numbered unique with ⟨shared', ran, did⟩
    simp only [Operation.execute_of_event isEvent, operationUnder_of_event isEvent, runAlone,
      Program.run_map _ ran]
    exact ⟨rfl, did⟩

variable {ι : Type}

/-- Run calls one after another, each alone: what each of them answers, and the shared state the
last of them leaves. -/
def runSerially (rules : TextRules) (operations : ι → Operation) :
    List ι → Shared Unit → List (Except Thrown Answer) × Shared Unit
  | [], shared => ([], shared)
  | index :: rest, shared =>
      let (outcome, shared') :=
        runAlone rules ((operations index).execute (repository .dataSource) unitOfWork) shared
      let (outcomes, shared'') := runSerially rules operations rest shared'
      (outcome :: outcomes, shared'')

/-- The ledger such calls leave, and what they answer. -/
def performSeriallyUnder (rules : TextRules) (operations : ι → Operation) :
    List ι → Ledger → List (Except Thrown Answer) × Ledger
  | [], ledger => ([], ledger)
  | index :: rest, ledger =>
      let (outcome, changes) := operationUnder rules ledger (operations index)
      let (outcomes, ledger') :=
        performSeriallyUnder rules operations rest (ledger.applyAll changes)
      (outcome :: outcomes, ledger')

theorem performSeriallyUnder_cons (operations : ι → Operation) (index : ι) (rest : List ι)
    (ledger : Ledger) :
    performSeriallyUnder rules operations (index :: rest) ledger =
      ((operationUnder rules ledger (operations index)).1 ::
          (performSeriallyUnder rules operations rest
            (ledger.applyAll (operationUnder rules ledger (operations index)).2)).1,
        (performSeriallyUnder rules operations rest
          (ledger.applyAll (operationUnder rules ledger (operations index)).2)).2) :=
  rfl

theorem performSeriallyUnder_lenient (operations : ι → Operation) (order : List ι)
    (ledger : Ledger) :
    performSeriallyUnder .lenient operations order ledger =
      performSerially operations order ledger := by
  induction order generalizing ledger with
  | nil => rfl
  | cons index rest ih =>
      rw [performSeriallyUnder_cons, performSerially_cons, operationUnder_lenient, ih]

/-- Calls that run one after another do what they do at one moment each. -/
theorem runSerially_eq (rules : TextRules) (operations : ι → Operation) (order : List ι)
    (shared : Shared Unit) (represents : shared.database.Represents ledger)
    (numbered : Numbered shared.database shared.nextOutboxId)
    (unique : UniqueIndexes shared.database.requests) :
    (runSerially rules operations order shared).1 =
        (performSeriallyUnder rules operations order ledger).1 ∧
      (runSerially rules operations order shared).2.database.Represents
        (performSeriallyUnder rules operations order ledger).2 := by
  induction order generalizing shared ledger with
  | nil => exact ⟨rfl, represents⟩
  | cons index rest ih =>
      have ⟨answered, did⟩ :=
        runAlone_execute rules (operations index) represents numbered unique
      have kept : UniqueIndexes (runAlone rules ((operations index).execute
          (repository .dataSource) unitOfWork) shared).2.database.requests := by
        rw [did.represents.requests]
        rw [represents.requests] at unique
        rcases changes_operationUnder rules (operations index) ledger with full | nothing
        · exact full ▸ unique.perform (operations index)
        · exact nothing ▸ unique
      have ⟨answers, left⟩ := ih _ did.represents did.numbered kept
      exact ⟨congrArg₂ _ answered answers, left⟩

theorem runSerially_append (operations : ι → Operation) (first second : List ι)
    (shared : Shared Unit) :
    runSerially rules operations (first ++ second) shared =
      ((runSerially rules operations first shared).1 ++
          (runSerially rules operations second (runSerially rules operations first shared).2).1,
        (runSerially rules operations second (runSerially rules operations first shared).2).2) := by
  induction first generalizing shared with
  | nil => rfl
  | cons index rest ih => simp [runSerially, ih]

end Serial

end Postgres

end ProcessingCatalog
