import ProcessingCatalog.Application.OwnedReads
import ProcessingCatalog.InMemory.Adapter
import ProcessingCatalog.Store.Ledger

/-!
# One call at a time, over the maps

What each use case does when it runs alone over the maps: its answer, and the
maps it leaves. No call of it sees another execution's step, so it happens as if
at one moment.
-/

namespace ProcessingCatalog

open Effect Domain

namespace InMemory

/-- What a call answers, and the maps it leaves. -/
abbrev Left (α : Type) : Type := Except Thrown α × Store

/-- Run a program alone. -/
def runAlone {α : Type} (program : Computation signature α) (store : Store) : Left α :=
  program.run Store.answer store

namespace Store

/-- Add the entry of a decision, if it has one. -/
def announce (store : Store) (entry : Option (EventRoute × OutboxPayload)) : Store :=
  { store with
    entries := store.entries ++ entry.toList.map fun (route, payload) => ⟨route, payload⟩ }

def performDecision (event : LifecycleEvent) (request : ProcessingRequest) (store : Store) :
    Decision → Left ProcessingRequest
  | .noted =>
      (.ok request, store.markEventProcessed event.eventId (some request.processingRequestId))
  | .applied updated entry =>
      (.ok updated, ((store.update updated).announce entry).markEventProcessed event.eventId
        (some updated.processingRequestId))

/-- A lifecycle event that is not answered by the request it was recorded for. -/
def performLocked (event : LifecycleEvent) (store : Store) : Left ProcessingRequest :=
  match store.requests.find? event.processingRequestId with
  | none => (.error (processingRequestNotFound event.processingRequestId), store)
  | some request =>
      if store.hasEventBeenProcessed event.eventId then (.ok request, store)
      else
        match event.decide request with
        | .error error => (.error error, store)
        | .ok decision => store.performDecision event request decision

def performEvent (event : LifecycleEvent) (store : Store) : Left ProcessingRequest :=
  match event.refusal with
  | some error => (.error error, store)
  | none =>
      match store.findByEventId event.eventId with
      | some existing => (.ok existing, store)
      | none => store.performLocked event

open CreateProcessingRequestUseCase in
/-- The maps with a new request, its announcement and its event. -/
def insertion (input : Input) (request : ProcessingRequest) (store : Store) : Store :=
  ((store.update request).add .videoValidationRequested
    (validationRequested input request)).markEventProcessed input.eventId
      (some request.processingRequestId)

open CreateProcessingRequestUseCase in
/-- A create whose request is valid: the key decides first, then the source. -/
def performValid (input : Input) (request : ProcessingRequest) (store : Store) : Left Result :=
  match store.findByOwnerAndIdempotencyKey input.ownerUserId input.idempotencyKey with
  | some bound => (replay bound input, store)
  | none =>
      match store.findByOwnerAndSource input.ownerUserId input.sourceStorageKey with
      | some known => (.ok ⟨known, .replayed⟩, store)
      | none => (.ok ⟨request, .created⟩, store.insertion input request)

open CreateProcessingRequestUseCase in
def performCreate (draws : Draws) (input : Input) (store : Store) : Left Result :=
  match checked input with
  | .error error => (.error error, store)
  | .ok correlationId =>
      match store.findByEventId input.eventId with
      | some existing => (.ok ⟨existing, .replayed⟩, store)
      | none =>
          match requestOf draws input correlationId with
          | .error error => (.error error, store)
          | .ok request => store.performValid input request

end Store

def Left.map {α β : Type} (f : α → β) (left : Left α) : Left β :=
  (left.1.map f, left.2)

/-- The operation at one moment. -/
def perform (operation : Operation) (store : Store) : Left Answer :=
  match operation with
  | .create draws input => Left.map .result (store.performCreate draws input)
  | .accept draws input =>
      Left.map .request (store.performEvent (AcceptProcessingRequestUseCase.event draws input))
  | .start draws input =>
      Left.map .request (store.performEvent (StartProcessingRequestUseCase.event draws input))
  | .complete draws input =>
      Left.map .request (store.performEvent (CompleteProcessingRequestUseCase.event draws input))
  | .fail draws input =>
      Left.map .request (store.performEvent (FailProcessingRequestUseCase.event draws input))

theorem perform_of_event {operation : Operation} {event : LifecycleEvent}
    (isEvent : operation.event? = some event) (store : Store) :
    perform operation store = Left.map .request (store.performEvent event) := by
  cases operation <;> cases isEvent <;> rfl

theorem runAlone_map {α β : Type} (f : α → β) (program : Computation signature α) (store : Store) :
    runAlone (f <$> program) store = Left.map f (runAlone program store) :=
  Program.run_map f rfl

section Calls

variable (store : Store)

theorem run_findForUpdate (processingRequestId : JsString) :
    (repository.findForUpdate processingRequestId).run Store.answer store =
      (.ok (store.requests.find? processingRequestId), store) := rfl

theorem run_findByEventId (eventId : JsString) :
    (repository.findByEventId eventId).run Store.answer store =
      (.ok (store.findByEventId eventId), store) := rfl

theorem run_hasEventBeenProcessed (eventId : JsString) :
    (repository.hasEventBeenProcessed eventId).run Store.answer store =
      (.ok (store.hasEventBeenProcessed eventId), store) := rfl

theorem run_findByOwnerAndIdempotencyKey (ownerUserId idempotencyKey : JsString) :
    (repository.findByOwnerAndIdempotencyKey ownerUserId idempotencyKey).run Store.answer store =
      (.ok (store.findByOwnerAndIdempotencyKey ownerUserId idempotencyKey), store) := rfl

theorem run_findByOwnerAndSource (ownerUserId sourceStorageKey : JsString) :
    (repository.findByOwnerAndSource ownerUserId sourceStorageKey).run Store.answer store =
      (.ok (store.findByOwnerAndSource ownerUserId sourceStorageKey), store) := rfl

theorem run_findByIdAndOwner (processingRequestId ownerUserId : JsString) :
    (repository.findByIdAndOwner processingRequestId ownerUserId).run Store.answer store =
      (.ok (store.findByIdAndOwner processingRequestId ownerUserId), store) := rfl

end Calls

theorem runAlone_record (event : LifecycleEvent) (request : ProcessingRequest) (store : Store)
    (decision : Decision) :
    runAlone (event.record ⟨repository, outboxWriter⟩ request decision) store =
      store.performDecision event request decision := by
  cases decision with
  | noted => rfl
  | applied updated entry =>
      cases entry with
      | none =>
          have same : (store.update updated).announce none = store.update updated := by
            simp [Store.announce]
          rw [Store.performDecision, same]
          rfl
      | some entry => rfl

theorem runAlone_handleLocked (event : LifecycleEvent) (request : ProcessingRequest)
    (store : Store) :
    runAlone (event.handleLocked ⟨repository, outboxWriter⟩ request) store =
      match event.decide request with
      | .error error => (.error error, store)
      | .ok decision => store.performDecision event request decision := by
  rw [LifecycleEvent.handleLocked]
  cases event.decide request with
  | error error => rfl
  | ok decision => exact runAlone_record event request store decision

/-- An event that the record did not answer. -/
theorem runAlone_locked (event : LifecycleEvent) (store : Store) :
    runAlone (unitOfWork.runInTransaction fun ctx => do
        let some request ← ctx.requests.findForUpdate event.processingRequestId
          | throw (processingRequestNotFound event.processingRequestId)
        if ← ctx.requests.hasEventBeenProcessed event.eventId then
          return request
        event.handleLocked ctx request) store = store.performLocked event := by
  rw [Store.performLocked, runAlone, unitOfWork, Program.run_bind_of_ok (run_findForUpdate _ _)]
  cases store.requests.find? event.processingRequestId with
  | none => rfl
  | some request =>
      rw [Program.run_bind_of_ok (run_hasEventBeenProcessed _ _)]
      cases store.hasEventBeenProcessed event.eventId with
      | true => rfl
      | false => exact runAlone_handleLocked event request store

theorem runAlone_handle (event : LifecycleEvent) (store : Store) :
    runAlone (event.handle repository unitOfWork) store = store.performEvent event := by
  rw [Store.performEvent]
  cases valid : event.refusal with
  | some error =>
      rw [LifecycleEvent.handle_of_refusal valid]
      rfl
  | none =>
      rw [LifecycleEvent.handle_of_valid valid, LifecycleEvent.handleValid, runAlone,
        Program.run_bind_of_ok (run_hasEventBeenProcessed _ _)]
      cases recorded : store.hasEventBeenProcessed event.eventId with
      | true =>
          simp only [if_true]
          rw [Program.run_bind_of_ok (run_findByEventId _ _)]
          cases store.findByEventId event.eventId with
          | none => exact runAlone_locked event store
          | some existing => rfl
      | false =>
          have unlinked : store.findByEventId event.eventId = none := by
            have absent : store.eventIdToRequestId.find? event.eventId = none := by
              simpa [Store.hasEventBeenProcessed] using recorded
            simp [Store.findByEventId, absent]
          rw [unlinked]
          exact runAlone_locked event store

section Create

open CreateProcessingRequestUseCase

variable {draws : Draws} {input : Input} {store : Store} {request : ProcessingRequest}

/-- A request whose key and source were both looked up in vain is saved. -/
theorem save_of_free
    (unbound : store.findByOwnerAndIdempotencyKey input.ownerUserId input.idempotencyKey = none)
    (unknown : store.findByOwnerAndSource input.ownerUserId input.sourceStorageKey = none)
    (owner : request.ownerUserId = input.ownerUserId)
    (key : request.idempotencyKey = some input.idempotencyKey)
    (source : request.sourceStorageKey = input.sourceStorageKey) :
    store.save request = (.ok (), store.update request) := by
  have noKey : (store.ownedBy input.ownerUserId).any
      (·.idempotencyKey = some input.idempotencyKey) = false := by
    simpa [Store.findByOwnerAndIdempotencyKey] using unbound
  have noSource : (store.ownedBy input.ownerUserId).any
      (·.sourceStorageKey = input.sourceStorageKey) = false := by
    simpa [Store.findByOwnerAndSource] using unknown
  have free : (some input.idempotencyKey).filter (fun key =>
      (store.ownedBy input.ownerUserId).any (·.idempotencyKey = some key)) = none := by
    rw [Option.filter_eq_none_iff]
    rintro key ⟨⟩
    simp [noKey]
  simp only [Store.save, owner, key, source, free, noSource, Bool.false_eq_true, if_false]
  rfl

theorem runAlone_create (draws : Draws) (input : Input) (store : Store) :
    runAlone (execute repository unitOfWork draws input) store =
      store.performCreate draws input := by
  unfold execute Store.performCreate checked
  cases isBlank input.eventId with
  | true => rfl
  | false =>
  cases isBlank input.idempotencyKey with
  | true => rfl
  | false =>
  simp only [Bool.false_eq_true, if_false]
  cases validCorrelationId input.correlationId with
  | error error => rfl
  | ok correlationId =>
  simp only [Program.ofExcept_ok, Program.pure_bind]
  rw [runAlone, Program.run_bind_of_ok (run_findByEventId _ _)]
  cases store.findByEventId input.eventId with
  | some existing => rfl
  | none =>
  cases requested : requestOf draws input correlationId with
  | error error =>
      unfold requestOf at requested
      rw [requested]
      rfl
  | ok request =>
  have created := createProcessingRequest_eq_ok.mp requested
  unfold requestOf at requested
  rw [requested]
  simp only [Program.ofExcept_ok, Program.pure_bind, Store.performValid]
  rw [Program.run_bind_of_ok (run_findByOwnerAndIdempotencyKey _ _ _)]
  cases unbound : store.findByOwnerAndIdempotencyKey input.ownerUserId input.idempotencyKey with
  | some bound => simp
  | none =>
  simp only []
  rw [Program.run_bind_of_ok (run_findByOwnerAndSource _ _ _)]
  cases unknown : store.findByOwnerAndSource input.ownerUserId input.sourceStorageKey with
  | some known => rfl
  | none =>
  have free : store.save request = (.ok (), store.update request) := by
    rcases created with ⟨_, _, _, rfl⟩
    exact save_of_free unbound unknown rfl rfl rfl
  have saved : (repository.save request).run Store.answer store =
      (.ok (), store.update request) := by
    have answered : (repository.save request).run Store.answer store = store.save request :=
      Program.run_ofExcept _ _ _
    rw [answered, free]
  have inserted : (insertion input request ⟨repository, outboxWriter⟩).run Store.answer store =
      (.ok (), store.insertion input request) :=
    Program.run_bind_of_ok saved _
  exact Program.run_tryCatch_of_ok (Program.run_bind_of_ok inserted _) _

end Create

/-! ### The reads -/

theorem runAlone_listOwned (input : ListOwnedProcessingRequestsQuery.Input) (store : Store) :
    runAlone (ListOwnedProcessingRequestsQuery.execute repository input) store =
      (.ok ⟨(store.findPageByOwner input.ownerUserId ((input.page - 1) * input.pageSize)
        input.pageSize).map toOwnedItem, input.page, input.pageSize,
          store.countByOwner input.ownerUserId⟩, store) := rfl

theorem runAlone_getOwned (input : GetOwnedProcessingRequestQuery.Input) (store : Store) :
    runAlone (GetOwnedProcessingRequestQuery.execute repository input) store =
      (.ok ((store.findByIdAndOwner input.processingRequestId input.ownerUserId).map toOwnedItem),
        store) := rfl

theorem runAlone_getArchive (input : GetOwnedArchiveQuery.Input) (store : Store) :
    runAlone (GetOwnedArchiveQuery.execute repository input) store =
      (.ok ((store.findByIdAndOwner input.processingRequestId input.ownerUserId).elim .notFound
        GetOwnedArchiveQuery.archiveOf), store) := by
  refine (Program.run_bind_of_ok (run_findByIdAndOwner _ _ _) _).trans ?_
  cases store.findByIdAndOwner input.processingRequestId input.ownerUserId <;> rfl

/-! ### The operations -/

theorem runAlone_execute (operation : Operation) (store : Store) :
    runAlone (operation.execute repository unitOfWork) store = perform operation store := by
  rcases operation.create_or_event with ⟨draws, input, rfl⟩ | ⟨event, isEvent⟩
  · rw [Operation.execute, runAlone_map, runAlone_create]
    rfl
  · rw [Operation.execute_of_event isEvent, runAlone_map, runAlone_handle,
      perform_of_event isEvent]

end InMemory

end ProcessingCatalog
