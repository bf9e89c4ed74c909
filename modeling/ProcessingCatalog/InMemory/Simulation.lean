import ProcessingCatalog.InMemory.Alone
import ProcessingCatalog.Store.Redelivery

/-!
# The maps simulate the ledger

The maps hold what a ledger holds, written out as text. A call that names
requests by canonical identifiers, and draws an identifier no request has, is
answered from the maps as from the ledger and leaves them in step; no error
leaves a part of its writes behind, although nothing is rolled back.
-/

namespace ProcessingCatalog

open Effect Domain

namespace InMemory

/-- The entry of the map an event is recorded as. -/
def EventLink.ofRow (event : ProcessedEvent) : EventLink :=
  ⟨event.eventId, (event.processingRequestId.map Uuid.text).getD []⟩

/-- The maps hold what a ledger holds. -/
structure Matches (store : Store) (ledger : Ledger) : Prop where
  requests : store.requests.rows = ledger.requests.rows.map ProcessingRequestRow.toDomain
  events : store.eventIdToRequestId.rows = ledger.events.rows.map EventLink.ofRow
  entries : store.entries = ledger.outbox

theorem EventLink.eventId_ofRow (event : ProcessedEvent) :
    (EventLink.ofRow event).eventId = id event.eventId := rfl

theorem matches_empty : Matches .empty .empty := ⟨rfl, rfl, rfl⟩

namespace Matches

variable {store : Store} {ledger : Ledger}

theorem find? (matched : Matches store ledger) (id : Uuid) :
    store.requests.find? id.text = (ledger.requests.find? id).map ProcessingRequestRow.toDomain :=
  KeyedTable.find?_map Uuid.text_injective ProcessingRequestRow.toDomain_processingRequestId
    matched.requests id

theorem findEvent (matched : Matches store ledger) (eventId : JsString) :
    store.eventIdToRequestId.find? eventId =
      (ledger.events.find? eventId).map EventLink.ofRow :=
  KeyedTable.find?_map Function.injective_id EventLink.eventId_ofRow matched.events eventId

theorem hasEventBeenProcessed (matched : Matches store ledger) (eventId : JsString) :
    store.hasEventBeenProcessed eventId = ledger.isRecorded eventId := by
  simp [Store.hasEventBeenProcessed, Ledger.isRecorded, matched.findEvent]

theorem findByEventId (matched : Matches store ledger) (eventId : JsString) :
    store.findByEventId eventId =
      (ledger.findByEventId eventId).map ProcessingRequestRow.toDomain := by
  cases found : ledger.events.find? eventId with
  | none => simp [Store.findByEventId, Ledger.findByEventId, matched.findEvent, found]
  | some event =>
      cases points : event.processingRequestId with
      | none =>
          simp [Store.findByEventId, Ledger.findByEventId, matched.findEvent, found,
            EventLink.ofRow, points]
      | some id =>
          have written : id.text ≠ [] := by
            intro blank
            have parsed := Uuid.parse_text id
            rw [blank] at parsed
            cases parsed
          simp [Store.findByEventId, Ledger.findByEventId, matched.findEvent, found,
            EventLink.ofRow, points, written, matched.find?]

theorem findByOwnerAndIdempotencyKey (matched : Matches store ledger)
    (ownerUserId idempotencyKey : JsString) :
    store.findByOwnerAndIdempotencyKey ownerUserId idempotencyKey =
      (ledger.findByOwnerAndIdempotencyKey ownerUserId idempotencyKey).map
        ProcessingRequestRow.toDomain := by
  simp only [Store.findByOwnerAndIdempotencyKey, Store.ownedBy, matched.requests,
    Ledger.findByOwnerAndIdempotencyKey, List.filter_map, List.find?_map, List.find?_filter]
  congr 2
  funext row
  simp only [Function.comp_apply, Bool.decide_and, Bool.decide_eq_true]
  rfl

theorem findByOwnerAndSource (matched : Matches store ledger)
    (ownerUserId sourceStorageKey : JsString) :
    store.findByOwnerAndSource ownerUserId sourceStorageKey =
      (ledger.findByOwnerAndSource ownerUserId sourceStorageKey).map
        ProcessingRequestRow.toDomain := by
  simp only [Store.findByOwnerAndSource, Store.ownedBy, matched.requests,
    Ledger.findByOwnerAndSource, List.filter_map, List.find?_map, List.find?_filter]
  congr 2
  funext row
  simp only [Function.comp_apply, Bool.decide_and, Bool.decide_eq_true]
  rfl

/-! ### The writes -/

theorem update (matched : Matches store ledger) (row : ProcessingRequestRow) :
    Matches (store.update row.toDomain) (ledger.apply (.saveRequest row)) where
  requests := KeyedTable.rows_upsert_map Uuid.text_injective
    ProcessingRequestRow.toDomain_processingRequestId matched.requests row
  events := matched.events
  entries := matched.entries

theorem markEventProcessed (matched : Matches store ledger) (eventId : JsString) (id : Uuid) :
    Matches (store.markEventProcessed eventId (some id.text))
      (ledger.apply (.insertEvent ⟨eventId, some id⟩)) where
  requests := matched.requests
  events := KeyedTable.rows_upsert_map Function.injective_id EventLink.eventId_ofRow matched.events
    ⟨eventId, some id⟩
  entries := matched.entries

theorem announce (matched : Matches store ledger) (entry : Option (EventRoute × OutboxPayload)) :
    Matches (store.announce entry) (ledger.applyAll
      (entry.toList.map fun (route, payload) => .insertOutbox ⟨route, payload⟩)) := by
  cases entry with
  | none => simpa [Store.announce] using matched
  | some entry => exact ⟨matched.requests, matched.events, congrArg (· ++ [_]) matched.entries⟩

end Matches

/-! ## The operations -/

/-- What is left of the maps and of the ledger after the same call: the same answer, and maps and
ledger that match again. -/
structure Agrees {α : Type} (left : Left α) (ledger : Ledger) (performed : Performed α) : Prop where
  answer : left.1 = performed.1
  matched : Matches left.2 (ledger.applyAll performed.2)

theorem Agrees.map {α β : Type} {left : Left α} {ledger : Ledger} {performed : Performed α}
    (agrees : Agrees left ledger performed) (f : α → β) :
    Agrees (left.map f) ledger (performed.map f) :=
  ⟨congrArg (Except.map f) agrees.answer, agrees.matched⟩

section Operations

variable {store : Store} {ledger : Ledger}

theorem agrees_decision (matched : Matches store ledger) (event : LifecycleEvent)
    {row : ProcessingRequestRow} {decision : Decision} (lawful : decision.Lawful row.toDomain) :
    Agrees (store.performDecision event row.toDomain decision) ledger
      (event.performDecision row decision) := by
  cases decision with
  | noted => exact ⟨rfl, matched.markEventProcessed event.eventId row.processingRequestId⟩
  | applied updated entry =>
      rcases lawful.exists_row with ⟨row', rfl, _⟩
      rw [LifecycleEvent.performDecision, ProcessingRequestRow.toRow_toDomain]
      refine ⟨rfl, ?_⟩
      have announced := (matched.update row').announce entry
      have marked := announced.markEventProcessed event.eventId row'.processingRequestId
      simp only [LifecycleEvent.appliedChanges, List.cons_append, Ledger.applyAll_cons,
        Ledger.applyAll_append, Ledger.applyAll_nil]
      exact marked

/-- An event that names its request canonically. -/
theorem agrees_event (matched : Matches store ledger) {event : LifecycleEvent} {id : Uuid}
    (named : event.processingRequestId = id.text) :
    Agrees (store.performEvent event) ledger (event.perform ledger) := by
  rw [Store.performEvent, LifecycleEvent.perform]
  cases event.refusal with
  | some error => exact ⟨rfl, matched⟩
  | none =>
      simp only [matched.findByEventId]
      cases ledger.findByEventId event.eventId with
      | some existing => exact ⟨rfl, matched⟩
      | none =>
          simp only [Option.map_none, Store.performLocked, LifecycleEvent.performLocked, named,
            Uuid.parse_text, matched.find?, matched.hasEventBeenProcessed]
          cases found : ledger.requests.find? id with
          | none => exact ⟨rfl, matched⟩
          | some row =>
              simp only [Option.map_some]
              split
              · exact ⟨rfl, matched⟩
              · cases decided : event.decide row.toDomain with
                | error error => exact ⟨rfl, matched⟩
                | ok decision => exact agrees_decision matched event (event.lawful decided)

open CreateProcessingRequestUseCase in
/-- A create that draws an identifier no request has. -/
theorem agrees_create (matched : Matches store ledger) (shape : ledger.Shape) {draws : Draws}
    {input : Input} (unused : ledger.requests.find? draws.uuid = none) :
    Agrees (store.performCreate draws input) ledger
      (CreateProcessingRequestUseCase.perform draws input ledger) := by
  rw [Store.performCreate, CreateProcessingRequestUseCase.perform]
  cases checked input with
  | error error => exact ⟨rfl, matched⟩
  | ok correlationId =>
      simp only [matched.findByEventId]
      cases linked : ledger.findByEventId input.eventId with
      | some existing => exact ⟨rfl, matched⟩
      | none =>
          simp only [Option.map_none]
          cases requested : requestOf draws input correlationId with
          | error error => exact ⟨rfl, matched⟩
          | ok request =>
              simp only [Store.performValid, performValid, matched.findByOwnerAndIdempotencyKey,
                matched.findByOwnerAndSource]
              cases ledger.findByOwnerAndIdempotencyKey input.ownerUserId input.idempotencyKey with
              | some bound => exact ⟨rfl, matched⟩
              | none =>
                  simp only [Option.map_none]
                  cases ledger.findByOwnerAndSource input.ownerUserId input.sourceStorageKey with
                  | some known => exact ⟨rfl, matched⟩
                  | none =>
                      have unrecorded : ledger.isRecorded input.eventId = false := by
                        by_contra recorded
                        rcases shape.linked (by simpa using recorded) with ⟨row, isLinked⟩
                        simp [linked] at isLinked
                      let row := requestRow draws input correlationId
                      have newId : ledger.requests.find? row.processingRequestId = none := unused
                      have isRow : request = row.toDomain := eq_toDomain_of_requestOf requested
                      rw [isRow]
                      simp only [Option.map_none, performInsertion,
                        ProcessingRequestRow.toRow_toDomain, newId, unrecorded,
                        Option.isSome_none, Bool.false_eq_true, if_false]
                      have announced := (matched.update row).announce
                        (some (.videoValidationRequested, validationRequested input row.toDomain))
                      exact ⟨rfl,
                        announced.markEventProcessed input.eventId row.processingRequestId⟩

/-- A call whose identifiers are canonical: an event names its request by the text of a UUID. -/
def Canonical (operation : Operation) : Prop :=
  ∀ event, operation.event? = some event → ∃ id : Uuid, event.processingRequestId = id.text

/-- The identifier a create draws for its request. -/
def drawn? : Operation → Option Uuid
  | .create draws _ => some draws.uuid
  | _ => none

/-- A canonical call does the same over the maps and over the ledger. -/
theorem agrees_perform (matched : Matches store ledger) (shape : ledger.Shape)
    {operation : Operation} (canonical : Canonical operation)
    (unused : ∀ id, drawn? operation = some id → ledger.requests.find? id = none) :
    Agrees (perform operation store) ledger (operation.perform ledger) := by
  rcases operation.create_or_event with ⟨draws, input, rfl⟩ | ⟨event, isEvent⟩
  · exact (agrees_create matched shape (unused _ rfl)).map Answer.result
  · rcases canonical event isEvent with ⟨id, named⟩
    rw [perform_of_event isEvent, Operation.perform_of_event isEvent]
    exact (agrees_event matched named).map Answer.request

/-- The stored identifiers after an operation are those before it, and the one it drew. -/
theorem find?_of_perform {operation : Operation} {id : Uuid}
    (absent : ledger.requests.find? id = none) (notDrawn : drawn? operation ≠ some id) :
    (ledger.applyAll (operation.perform ledger).2).requests.find? id = none := by
  have left := operation.leaves ledger
  generalize ledger.applyAll (operation.perform ledger).2 = after at left
  cases left with
  | unchanged => exact absent
  | noted => exact absent
  | inserted isCreate =>
      subst isCreate
      refine (KeyedTable.find?_upsert_of_ne _ ?_).trans absent
      exact fun same => notDrawn (congrArg some same)
  | applied isEvent rowMem named unrecorded same =>
      refine (KeyedTable.find?_upsert_of_ne _ ?_).trans absent
      intro isId
      exact KeyedTable.find?_eq_none_iff.mp absent _ rowMem (same.processingRequestId ▸ isId)

end Operations

end InMemory

end ProcessingCatalog
