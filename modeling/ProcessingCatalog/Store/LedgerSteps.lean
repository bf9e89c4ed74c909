import ProcessingCatalog.Store.Ledger

/-!
# What an operation does to the ledger

The changes of every operation, by cases: none, the record of an event, an
updated request with what is announced about it, or a request inserted with its
announcement. The invariants of the store are proved from these cases.
-/

namespace ProcessingCatalog

open Domain

namespace LifecycleEvent

variable {event : LifecycleEvent} {ledger : Ledger} {row : ProcessingRequestRow} {id : Uuid}

theorem findByEventId_eq_none (unrecorded : ledger.isRecorded event.eventId = false) :
    ledger.findByEventId event.eventId = none := by
  simp only [Ledger.isRecorded, Option.isSome_eq_false_iff, Option.isNone_iff_eq_none] at unrecorded
  simp [Ledger.findByEventId, unrecorded]

/-- A recorded event changes nothing. -/
theorem perform_recorded (recorded : ledger.isRecorded event.eventId = true) :
    (event.perform ledger).2 = [] := by
  unfold perform
  split
  · rfl
  · split
    · rfl
    · unfold performLocked
      split
      · rfl
      · split
        · rfl
        · simp [recorded]

theorem perform_decided (valid : event.refusal = none)
    (unrecorded : ledger.isRecorded event.eventId = false)
    (parsed : Uuid.parse event.processingRequestId = some id)
    (found : ledger.requests.find? id = some row) {decision : Decision}
    (decided : event.decide row.toDomain = .ok decision) :
    event.perform ledger = event.performDecision row decision := by
  simp [perform, valid, findByEventId_eq_none unrecorded, performLocked, parsed, found, unrecorded,
    decided]

end LifecycleEvent

/-- A request a lawful decision leaves is that of a row with the same identity. -/
theorem Decision.Lawful.exists_row {row : ProcessingRequestRow} {updated : ProcessingRequest}
    {entry : Option (EventRoute × OutboxPayload)}
    (lawful : (Decision.applied updated entry).Lawful row.toDomain) :
    ∃ row' : ProcessingRequestRow, updated = row'.toDomain ∧ row.SameIdentity row' := by
  obtain ⟨same, attempt, _⟩ := lawful
  have attempt' : ∃ attemptId : Option Uuid, updated.attemptId = attemptId.map Uuid.text := by
    rcases attempt with kept | ⟨uuid, drawn⟩
    · exact ⟨row.attemptId, kept⟩
    · exact ⟨some uuid, drawn⟩
  obtain ⟨attemptId, isAttempt⟩ := attempt'
  have sameId : updated.processingRequestId = row.processingRequestId.text := same.1
  refine ⟨{
    processingRequestId := row.processingRequestId, ownerUserId := updated.ownerUserId,
    ownerEmail := updated.ownerEmail, sourceStorageKey := updated.sourceStorageKey,
    status := updated.status, attemptId, zipStorageKey := updated.zipStorageKey,
    failureCode := updated.failureCode, idempotencyKey := updated.idempotencyKey,
    correlationId := updated.correlationId, createdAt := updated.createdAt,
    updatedAt := updated.updatedAt }, ?_, ?_⟩
  · cases updated
    simp only [ProcessingRequestRow.toDomain] at sameId isAttempt ⊢
    rw [sameId, isAttempt]
  · obtain ⟨_, owner, email, source, key, correlation, created⟩ := same
    exact ⟨rfl, owner, email, source, key, correlation, created⟩

/-- The changes of a lifecycle event: none; only its record; or a later version of the request it
names, the entry announced about it, and the record. -/
theorem LifecycleEvent.changes_cases (event : LifecycleEvent) (ledger : Ledger) :
    (event.perform ledger).2 = [] ∨
    ∃ row ∈ ledger.requests, ledger.isRecorded event.eventId = false ∧
      Uuid.parse event.processingRequestId = some row.processingRequestId ∧
      (event.decide row.toDomain = .ok .noted ∧
          (event.perform ledger).2 =
            [.insertEvent ⟨event.eventId, some row.processingRequestId⟩] ∨
        ∃ row' entry, row.SameIdentity row' ∧
          event.decide row.toDomain = .ok (.applied row'.toDomain entry) ∧
          (event.perform ledger).2 = event.appliedChanges row' entry) := by
  by_cases recorded : ledger.isRecorded event.eventId = true
  · exact .inl (event.perform_recorded recorded)
  have unrecorded : ledger.isRecorded event.eventId = false := by simpa using recorded
  cases valid : event.refusal with
  | some error => exact .inl (by simp [perform, valid])
  | none =>
  cases parsed : Uuid.parse event.processingRequestId with
  | none => exact .inl (by simp [perform, valid, findByEventId_eq_none unrecorded, performLocked,
      parsed])
  | some id =>
  cases found : ledger.requests.find? id with
  | none => exact .inl (by simp [perform, valid, findByEventId_eq_none unrecorded, performLocked,
      parsed, found])
  | some row =>
  cases decided : event.decide row.toDomain with
  | error error => exact .inl (by simp [perform, valid, findByEventId_eq_none unrecorded,
      performLocked, parsed, found, unrecorded, decided])
  | ok decision =>
      right
      refine ⟨row, KeyedTable.mem_of_find? found, unrecorded,
        congrArg some (KeyedTable.key_of_find? found).symm, ?_⟩
      rw [perform_decided valid unrecorded parsed found decided]
      cases decision with
      | noted => exact .inl ⟨decided, rfl⟩
      | applied updated entry =>
          obtain ⟨row', rfl, same⟩ := (event.lawful decided).exists_row
          exact .inr ⟨row', entry, same, decided, by simp [performDecision]⟩

namespace CreateProcessingRequestUseCase

variable {draws : Draws} {input : Input} {correlationId : Option JsString} {ledger : Ledger}

/-- The row a create inserts. -/
def requestRow (draws : Draws) (input : Input) (correlationId : Option JsString) :
    ProcessingRequestRow where
  processingRequestId := draws.uuid
  ownerUserId := input.ownerUserId
  ownerEmail := input.ownerEmail
  sourceStorageKey := input.sourceStorageKey
  status := .received
  attemptId := none
  zipStorageKey := none
  failureCode := none
  idempotencyKey := some input.idempotencyKey
  correlationId := correlationId
  createdAt := draws.now
  updatedAt := draws.now

theorem eq_toDomain_of_requestOf {request : ProcessingRequest}
    (valid : requestOf draws input correlationId = .ok request) :
    request = (requestRow draws input correlationId).toDomain := by
  obtain ⟨_, _, _, rfl⟩ := createProcessingRequest_eq_ok.mp valid
  rfl

/-- The error of an input a create refuses before it reads the owner's requests. -/
def Invalid (draws : Draws) (input : Input) (error : Thrown) : Prop :=
  checked input = .error error ∨
    ∃ correlationId, checked input = .ok correlationId ∧
      requestOf draws input correlationId = .error error

/-- An input a create refuses for no field of its own. -/
def Valid (draws : Draws) (input : Input) : Prop :=
  ∃ correlationId, checked input = .ok correlationId ∧
    requestOf draws input correlationId = .ok (requestRow draws input correlationId).toDomain

theorem perform_of_invalid {error : Thrown} (invalid : Invalid draws input error)
    (unlinked : ledger.findByEventId input.eventId = none) :
    perform draws input ledger = (.error error, []) := by
  rcases invalid with unchecked | ⟨correlationId, valid, refused⟩
  · simp [perform, unchecked]
  · simp [perform, valid, unlinked, refused]

/-- A row of the ledger that makes a create answer by its key. -/
theorem perform_of_bound (valid : checked input = .ok correlationId)
    {request : ProcessingRequest} (isRequest : requestOf draws input correlationId = .ok request)
    (unlinked : ledger.findByEventId input.eventId = none) {bound : ProcessingRequestRow}
    (found : ledger.findByOwnerAndIdempotencyKey input.ownerUserId input.idempotencyKey =
      some bound) :
    perform draws input ledger = (replay bound.toDomain input, []) := by
  simp [perform, valid, isRequest, unlinked, performValid, found]

theorem perform_of_known (valid : checked input = .ok correlationId)
    {request : ProcessingRequest} (isRequest : requestOf draws input correlationId = .ok request)
    (unlinked : ledger.findByEventId input.eventId = none)
    (unbound : ledger.findByOwnerAndIdempotencyKey input.ownerUserId input.idempotencyKey = none)
    {known : ProcessingRequestRow}
    (found : ledger.findByOwnerAndSource input.ownerUserId input.sourceStorageKey = some known) :
    perform draws input ledger = (.ok ⟨known.toDomain, .replayed⟩, []) := by
  simp [perform, valid, isRequest, unlinked, performValid, unbound, found]

/-- A row the lookups of a create did not find collides with nothing. -/
theorem free_of_lookups
    (unbound : ledger.findByOwnerAndIdempotencyKey input.ownerUserId input.idempotencyKey = none)
    (unknown : ledger.findByOwnerAndSource input.ownerUserId input.sourceStorageKey = none)
    (newId : ledger.requests.find? draws.uuid = none) :
    ∀ stored ∈ ledger.requests, ∀ index : UniqueIndex,
      ¬ index.Collides stored (requestRow draws input correlationId) := by
  intro stored storedMem index collides
  cases index with
  | primaryKey => exact KeyedTable.find?_eq_none_iff.mp newId stored storedMem collides
  | ownerIdempotency =>
      have missed := List.find?_eq_none.mp unbound stored storedMem
      simp only [decide_eq_true_eq, not_and] at missed
      exact missed collides.1 collides.2.1
  | ownerSource =>
      have missed := List.find?_eq_none.mp unknown stored storedMem
      simp only [decide_eq_true_eq, not_and] at missed
      exact missed collides.1 collides.2

/-- A create whose row collides with nothing inserts it. -/
theorem perform_of_free (valid : checked input = .ok correlationId)
    {request : ProcessingRequest} (isRequest : requestOf draws input correlationId = .ok request)
    (unrecorded : ledger.isRecorded input.eventId = false)
    (free : ∀ stored ∈ ledger.requests, ∀ index : UniqueIndex,
      ¬ index.Collides stored (requestRow draws input correlationId)) :
    perform draws input ledger = (.ok ⟨request, .created⟩,
      insertionChanges input request (requestRow draws input correlationId)) := by
  have isRow :
      ProcessingRequestRow.toRow request = some (requestRow draws input correlationId) := by
    rw [eq_toDomain_of_requestOf isRequest, ProcessingRequestRow.toRow_toDomain]
  have unlinked : ledger.findByEventId input.eventId = none := by
    simp only [Ledger.isRecorded, Option.isSome_eq_false_iff,
      Option.isNone_iff_eq_none] at unrecorded
    simp [Ledger.findByEventId, unrecorded]
  have unbound :
      ledger.findByOwnerAndIdempotencyKey input.ownerUserId input.idempotencyKey = none := by
    refine List.find?_eq_none.mpr fun stored storedMem => ?_
    simp only [decide_eq_true_eq, not_and]
    exact fun owner key => free stored storedMem .ownerIdempotency ⟨owner, key, by simp [key]⟩
  have unknown : ledger.findByOwnerAndSource input.ownerUserId input.sourceStorageKey = none := by
    refine List.find?_eq_none.mpr fun stored storedMem => ?_
    simp only [decide_eq_true_eq, not_and]
    exact fun owner source => free stored storedMem .ownerSource ⟨owner, source⟩
  have newId : ledger.requests.find? (requestRow draws input correlationId).processingRequestId =
      none :=
    KeyedTable.find?_eq_none_iff.mpr fun stored storedMem => free stored storedMem .primaryKey
  simp [perform, valid, unlinked, isRequest, performValid, unbound, unknown, performInsertion,
    isRow, newId, unrecorded]

end CreateProcessingRequestUseCase

/-- The changes of a create: none, or those of an insertion that collides with nothing. -/
theorem CreateProcessingRequestUseCase.changes_cases (draws : Draws) (input : Input)
    (ledger : Ledger) :
    (perform draws input ledger).2 = [] ∨
    ∃ correlationId, checked input = .ok correlationId ∧
      requestOf draws input correlationId =
        .ok (requestRow draws input correlationId).toDomain ∧
      ledger.isRecorded input.eventId = false ∧
      (∀ stored ∈ ledger.requests, ∀ index : UniqueIndex,
        ¬ index.Collides stored (requestRow draws input correlationId)) ∧
      perform draws input ledger =
        (.ok ⟨(requestRow draws input correlationId).toDomain, .created⟩,
          insertionChanges input (requestRow draws input correlationId).toDomain
            (requestRow draws input correlationId)) := by
  cases valid : checked input with
  | error error => exact .inl (by simp [perform, valid])
  | ok correlationId =>
  cases linked : ledger.findByEventId input.eventId with
  | some existing => exact .inl (by simp [perform, valid, linked])
  | none =>
  cases isRequest : requestOf draws input correlationId with
  | error error => exact .inl (by simp [perform, valid, linked, isRequest])
  | ok request =>
  obtain rfl := eq_toDomain_of_requestOf isRequest
  cases bound : ledger.findByOwnerAndIdempotencyKey input.ownerUserId input.idempotencyKey with
  | some row => exact .inl (by simp [perform_of_bound valid isRequest linked bound])
  | none =>
  cases known : ledger.findByOwnerAndSource input.ownerUserId input.sourceStorageKey with
  | some row => exact .inl (by simp [perform_of_known valid isRequest linked bound known])
  | none =>
  cases taken : ledger.requests.find? draws.uuid with
  | some row => exact .inl (by simp [perform, valid, linked, isRequest, performValid, bound, known,
      performInsertion, requestRow, taken])
  | none =>
  cases recorded : ledger.isRecorded input.eventId with
  | true => exact .inl (by simp [perform, valid, linked, isRequest, performValid, bound, known,
      performInsertion, requestRow, taken, recorded])
  | false =>
      exact .inr ⟨correlationId, rfl, isRequest, rfl, free_of_lookups bound known taken,
        perform_of_free valid isRequest recorded (free_of_lookups bound known taken)⟩

open CreateProcessingRequestUseCase in
/-- The changes an operation may make, with everything it checked on its way there. -/
inductive Operation.Changes (operation : Operation) (ledger : Ledger) :
    List (Change OutboxEntry) → Prop where
  | nothing : operation.Changes ledger []
  /-- A create inserts its request. -/
  | inserted {draws : Draws} {input : Input} {correlationId : Option JsString}
      (isCreate : operation = .create draws input)
      (valid : checked input = .ok correlationId)
      (isRequest : requestOf draws input correlationId =
        .ok (requestRow draws input correlationId).toDomain)
      (unrecorded : ledger.isRecorded input.eventId = false)
      (free : ∀ stored ∈ ledger.requests, ∀ index : UniqueIndex,
        ¬ index.Collides stored (requestRow draws input correlationId)) :
      operation.Changes ledger (insertionChanges input
        (requestRow draws input correlationId).toDomain (requestRow draws input correlationId))
  /-- A lifecycle event is recorded, and changes nothing. -/
  | noted {event : LifecycleEvent} {row : ProcessingRequestRow}
      (isEvent : operation.event? = some event) (rowMem : row ∈ ledger.requests)
      (named : Uuid.parse event.processingRequestId = some row.processingRequestId)
      (unrecorded : ledger.isRecorded event.eventId = false)
      (decided : event.decide row.toDomain = .ok .noted) :
      operation.Changes ledger [.insertEvent ⟨event.eventId, some row.processingRequestId⟩]
  /-- A lifecycle event changes the request it names. -/
  | applied {event : LifecycleEvent} {row row' : ProcessingRequestRow}
      {entry : Option (EventRoute × OutboxPayload)}
      (isEvent : operation.event? = some event) (rowMem : row ∈ ledger.requests)
      (named : Uuid.parse event.processingRequestId = some row.processingRequestId)
      (unrecorded : ledger.isRecorded event.eventId = false)
      (same : row.SameIdentity row')
      (decided : event.decide row.toDomain = .ok (.applied row'.toDomain entry)) :
      operation.Changes ledger (event.appliedChanges row' entry)

theorem Operation.changes (operation : Operation) (ledger : Ledger) :
    operation.Changes ledger (operation.perform ledger).2 := by
  rcases operation.create_or_event with ⟨draws, input, rfl⟩ | ⟨event, isEvent⟩
  · rcases CreateProcessingRequestUseCase.changes_cases draws input ledger with
      nothing | ⟨correlationId, valid, isRequest, unrecorded, free, performed⟩
    · simp only [perform, Performed.map, nothing]
      exact .nothing
    · simp only [perform, Performed.map, performed]
      exact .inserted rfl valid isRequest unrecorded free
  · rw [perform_of_event isEvent, Performed.map]
    rcases event.changes_cases ledger with nothing |
      ⟨row, rowMem, unrecorded, named, ⟨decided, noted⟩ | ⟨row', entry, same, decided, applied⟩⟩
    · rw [nothing]
      exact .nothing
    · rw [noted]
      exact .noted isEvent rowMem named unrecorded decided
    · rw [applied]
      exact .applied isEvent rowMem named unrecorded same decided

/-! ### Reading the changes -/

/-- The create whose request an operation inserts. -/
theorem Operation.create_of_inserted {operation : Operation} {ledger : Ledger}
    {row : ProcessingRequestRow} (inserted : .insertRequest row ∈ (operation.perform ledger).2) :
    row ∈ (ledger.applyAll (operation.perform ledger).2).requests ∧
      ∃ draws input correlationId, operation = .create draws input ∧
        CreateProcessingRequestUseCase.checked input = .ok correlationId ∧
        row = CreateProcessingRequestUseCase.requestRow draws input correlationId := by
  have changes := operation.changes ledger
  generalize (operation.perform ledger).2 = made at changes inserted ⊢
  cases changes with
  | nothing => cases inserted
  | @inserted draws input correlationId isCreate valid isRequest unrecorded free =>
      simp only [CreateProcessingRequestUseCase.insertionChanges, List.mem_cons,
        Change.insertRequest.injEq, reduceCtorEq, List.not_mem_nil, or_false] at inserted
      subst inserted
      exact ⟨KeyedTable.mem_upsert.mpr (.inl rfl), draws, input, correlationId, isCreate, valid,
        rfl⟩
  | noted => simp at inserted
  | applied => simp [LifecycleEvent.appliedChanges] at inserted

namespace LifecycleEvent

variable {event : LifecycleEvent} {row : ProcessingRequestRow}
  {entry : Option (EventRoute × OutboxPayload)}

theorem insertEvent_mem_appliedChanges {recorded : ProcessedEvent} :
    .insertEvent recorded ∈ event.appliedChanges row entry ↔
      recorded = ⟨event.eventId, some row.processingRequestId⟩ := by
  cases entry <;> simp [appliedChanges]

theorem saveRequest_mem_appliedChanges {saved : ProcessingRequestRow} :
    .saveRequest saved ∈ event.appliedChanges row entry ↔ saved = row := by
  cases entry <;> simp [appliedChanges]

end LifecycleEvent

/-- The decision a saved request comes from. -/
theorem Operation.decided_of_saved {operation : Operation} {ledger : Ledger}
    {row : ProcessingRequestRow} (saved : .saveRequest row ∈ (operation.perform ledger).2) :
    ∃ event before entry, operation.event? = some event ∧ before ∈ ledger.requests ∧
      before.SameIdentity row ∧
      event.decide before.toDomain = .ok (.applied row.toDomain entry) := by
  have changes := operation.changes ledger
  generalize (operation.perform ledger).2 = made at changes saved
  cases changes with
  | nothing => cases saved
  | inserted => simp [CreateProcessingRequestUseCase.insertionChanges] at saved
  | noted => simp at saved
  | applied isEvent rowMem named unrecorded same decided =>
      rw [LifecycleEvent.saveRequest_mem_appliedChanges] at saved
      subst saved
      exact ⟨_, _, _, isEvent, rowMem, same, decided⟩

namespace Ledger

variable {ledger : Ledger} {event : LifecycleEvent} {row : ProcessingRequestRow}
  {entry : Option (EventRoute × OutboxPayload)}

@[simp]
theorem requests_applied :
    (ledger.applyAll (event.appliedChanges row entry)).requests = ledger.requests.upsert row := by
  cases entry <;> rfl

@[simp]
theorem events_applied :
    (ledger.applyAll (event.appliedChanges row entry)).events =
      ledger.events.upsert ⟨event.eventId, some row.processingRequestId⟩ := by
  cases entry <;> rfl

end Ledger

/-- The unique indexes are kept by every operation. -/
theorem UniqueIndexes.perform {ledger : Ledger} (unique : UniqueIndexes ledger.requests)
    (operation : Operation) :
    UniqueIndexes (ledger.applyAll (operation.perform ledger).2).requests := by
  have changes := operation.changes ledger
  generalize (operation.perform ledger).2 = made at changes
  cases changes with
  | nothing => exact unique
  | inserted isCreate valid isRequest unrecorded free => exact unique.insert free
  | noted => exact unique
  | applied isEvent rowMem named unrecorded same decided =>
      rw [Ledger.requests_applied]
      exact unique.save rowMem same

end ProcessingCatalog
