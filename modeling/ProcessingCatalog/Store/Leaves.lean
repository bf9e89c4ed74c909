import ProcessingCatalog.Store.Agreement

/-!
# What an operation leaves

The ledger after an operation, by cases, with everything the operation checked
on its way there. Two-state properties of the store are read off from these
cases.
-/

namespace ProcessingCatalog

open Domain CreateProcessingRequestUseCase

/-- The ledgers an operation may leave. -/
inductive Operation.Leaves (operation : Operation) (ledger : Ledger) : Ledger → Prop where
  | unchanged : operation.Leaves ledger ledger
  /-- A create inserted its request. -/
  | inserted {draws : Draws} {input : Input} {correlationId : Option JsString}
      (isCreate : operation = .create draws input)
      (valid : checked input = .ok correlationId)
      (isRequest : requestOf draws input correlationId =
        .ok (requestRow draws input correlationId).toDomain)
      (unrecorded : ledger.isRecorded input.eventId = false)
      (free : ∀ stored ∈ ledger.requests, ∀ index : UniqueIndex,
        ¬ index.Collides stored (requestRow draws input correlationId)) :
      operation.Leaves ledger {
        requests := ledger.requests.upsert (requestRow draws input correlationId)
        events := ledger.events.upsert ⟨input.eventId, some draws.uuid⟩
        outbox := ledger.outbox ++ [⟨.videoValidationRequested,
          validationRequested input (requestRow draws input correlationId).toDomain⟩] }
  /-- A lifecycle event was recorded, and changed nothing. -/
  | noted {event : LifecycleEvent} {row : ProcessingRequestRow}
      (isEvent : operation.event? = some event) (rowMem : row ∈ ledger.requests)
      (named : Uuid.parse event.processingRequestId = some row.processingRequestId)
      (unrecorded : ledger.isRecorded event.eventId = false)
      (decided : event.decide row.toDomain = .ok .noted) :
      operation.Leaves ledger { ledger with
        events := ledger.events.upsert ⟨event.eventId, some row.processingRequestId⟩ }
  /-- A lifecycle event changed the request it names. -/
  | applied {event : LifecycleEvent} {row row' : ProcessingRequestRow}
      {entry : Option (EventRoute × OutboxPayload)}
      (isEvent : operation.event? = some event) (rowMem : row ∈ ledger.requests)
      (named : Uuid.parse event.processingRequestId = some row.processingRequestId)
      (unrecorded : ledger.isRecorded event.eventId = false)
      (same : row.SameIdentity row')
      (decided : event.decide row.toDomain = .ok (.applied row'.toDomain entry)) :
      operation.Leaves ledger {
        requests := ledger.requests.upsert row'
        events := ledger.events.upsert ⟨event.eventId, some row.processingRequestId⟩
        outbox := ledger.outbox ++ announced entry }

theorem Operation.leaves (operation : Operation) (ledger : Ledger) :
    operation.Leaves ledger (ledger.applyAll (operation.perform ledger).2) := by
  have changes := operation.changes ledger
  generalize (operation.perform ledger).2 = made at changes
  cases changes with
  | nothing => exact .unchanged
  | inserted isCreate valid isRequest unrecorded free =>
      exact .inserted isCreate valid isRequest unrecorded free
  | noted isEvent rowMem named unrecorded decided =>
      exact .noted isEvent rowMem named unrecorded decided
  | @applied event row row' entry isEvent rowMem named unrecorded same decided =>
      have isLeft : ledger.applyAll (event.appliedChanges row' entry) = {
          requests := ledger.requests.upsert row'
          events := ledger.events.upsert ⟨event.eventId, some row.processingRequestId⟩
          outbox := ledger.outbox ++ announced entry } := by
        rw [← same.processingRequestId, ← Ledger.requests_applied, ← Ledger.events_applied,
          ← Ledger.outbox_applied]
      rw [isLeft]
      exact .applied isEvent rowMem named unrecorded same decided

end ProcessingCatalog
