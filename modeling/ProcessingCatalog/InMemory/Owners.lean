import ProcessingCatalog.InMemory.Alone
import ProcessingCatalog.Interface.OwnedProcessingRequestsController

/-!
# Owners do not interfere

A run is compared with the run that is left of it when the creates of all other
owners, and the events about their requests, are dropped. What one owner has in
the maps is the same after both, so the same calls are answered alike, and the
owner reads the same.
-/

namespace ProcessingCatalog

open Effect Domain

namespace InMemory

/-! ## What an owner has in the maps -/

/-- Whether an event was recorded for a request of an owner. -/
def Store.linksTo (store : Store) (ownerUserId : JsString) (link : EventLink) : Bool :=
  (store.requests.find? link.processingRequestId).any (·.ownerUserId = ownerUserId)

/-- `part` holds what an owner has in `whole`, and no more: its requests, in their order, and the
events recorded for them. -/
structure PartOf (ownerUserId : JsString) (whole part : Store) : Prop where
  requests : part.requests.rows = whole.requests.rows.filter (·.ownerUserId = ownerUserId)
  events : ∀ eventId, part.eventIdToRequestId.find? eventId =
    (whole.eventIdToRequestId.find? eventId).filter (whole.linksTo ownerUserId)
  linked : ∀ link ∈ whole.eventIdToRequestId, ∃ request ∈ whole.requests,
    request.processingRequestId = link.processingRequestId

theorem partOf_empty (ownerUserId : JsString) : PartOf ownerUserId .empty .empty where
  requests := rfl
  events _ := rfl
  linked _ linkMem := absurd linkMem (KeyedTable.not_mem_empty _)

theorem linksTo_of_stored {store : Store} {request : ProcessingRequest}
    (stored : request ∈ store.requests) (ownerUserId eventId : JsString) :
    store.linksTo ownerUserId ⟨eventId, request.processingRequestId⟩ =
      (request.ownerUserId = ownerUserId : Bool) := by
  simp [Store.linksTo, KeyedTable.find?_key stored]

/-- A written request of the same owner as the one it replaces, if it replaces one, changes no
link's owner. -/
theorem linksTo_update {store : Store} {request : ProcessingRequest} {ownerUserId : JsString}
    (replaced : ∀ other ∈ store.requests, other.processingRequestId = request.processingRequestId →
      (other.ownerUserId = ownerUserId ↔ request.ownerUserId = ownerUserId))
    {link : EventLink} (linked : ∃ other ∈ store.requests,
      other.processingRequestId = link.processingRequestId) :
    (store.update request).linksTo ownerUserId link = store.linksTo ownerUserId link := by
  rcases linked with ⟨other, otherMem, sameId⟩
  have before : store.requests.find? link.processingRequestId = some other :=
    sameId ▸ KeyedTable.find?_key otherMem
  simp only [Store.linksTo, Store.update, KeyedTable.find?_upsert, before]
  split
  · rename_i written
    simp [replaced other otherMem (sameId.trans written.symm)]
  · rfl

namespace PartOf

variable {ownerUserId : JsString} {whole part : Store} {request : ProcessingRequest}

theorem find? (isPart : PartOf ownerUserId whole part) (id : JsString) :
    part.requests.find? id = (whole.requests.find? id).filter (·.ownerUserId = ownerUserId) :=
  KeyedTable.find?_of_filter isPart.requests id

theorem ownedBy (isPart : PartOf ownerUserId whole part) :
    part.ownedBy ownerUserId = whole.ownedBy ownerUserId := by
  simp [Store.ownedBy, isPart.requests, List.filter_filter]

theorem findByIdAndOwner (isPart : PartOf ownerUserId whole part) (id : JsString) :
    part.findByIdAndOwner id ownerUserId = whole.findByIdAndOwner id ownerUserId := by
  rw [Store.findByIdAndOwner, Store.findByIdAndOwner, isPart.find?, Option.filter_filter]
  simp

/-- A link that the part has, the whole has too. -/
theorem link_of_part (isPart : PartOf ownerUserId whole part) {eventId : JsString}
    {link : EventLink} (found : part.eventIdToRequestId.find? eventId = some link) :
    whole.eventIdToRequestId.find? eventId = some link := by
  rw [isPart.events, Option.filter_eq_some_iff] at found
  exact found.1

/-! ### Writes -/

theorem linked_update (isPart : PartOf ownerUserId whole part) (request : ProcessingRequest)
    (link : EventLink) (linkMem : link ∈ whole.eventIdToRequestId) :
    ∃ other ∈ (whole.update request).requests,
      other.processingRequestId = link.processingRequestId := by
  rcases isPart.linked link linkMem with ⟨other, otherMem, sameId⟩
  by_cases replaced : other.processingRequestId = request.processingRequestId
  · exact ⟨request, KeyedTable.mem_upsert.mpr (.inl rfl), replaced.symm.trans sameId⟩
  · exact ⟨other, KeyedTable.mem_upsert.mpr (.inr ⟨otherMem, replaced⟩), sameId⟩

theorem events_update (isPart : PartOf ownerUserId whole part)
    (replaced : ∀ other ∈ whole.requests, other.processingRequestId = request.processingRequestId →
      (other.ownerUserId = ownerUserId ↔ request.ownerUserId = ownerUserId))
    (eventId : JsString) :
    part.eventIdToRequestId.find? eventId =
      (whole.eventIdToRequestId.find? eventId).filter
        ((whole.update request).linksTo ownerUserId) := by
  rw [isPart.events]
  cases found : whole.eventIdToRequestId.find? eventId with
  | none => rfl
  | some link =>
      simp only [Option.filter,
        linksTo_update replaced (isPart.linked link (KeyedTable.mem_of_find? found))]

/-- Both write a request of the owner. -/
theorem update (isPart : PartOf ownerUserId whole part) (owned : request.ownerUserId = ownerUserId)
    (replaced : ∀ other ∈ whole.requests, other.processingRequestId = request.processingRequestId →
      other.ownerUserId = ownerUserId) :
    PartOf ownerUserId (whole.update request) (part.update request) where
  requests := KeyedTable.rows_upsert_of_selected isPart.requests (by simpa using owned)
    fun other otherMem same => by simpa using replaced other otherMem same
  events := isPart.events_update fun other otherMem same =>
    iff_of_true (replaced other otherMem same) owned
  linked := isPart.linked_update request

/-- Only the whole writes a request, of another owner. -/
theorem updateOther (isPart : PartOf ownerUserId whole part)
    (notOwned : request.ownerUserId ≠ ownerUserId)
    (replaced : ∀ other ∈ whole.requests, other.processingRequestId = request.processingRequestId →
      other.ownerUserId ≠ ownerUserId) :
    PartOf ownerUserId (whole.update request) part where
  requests := isPart.requests.trans (KeyedTable.filter_rows_upsert_of_not_selected
    (by simpa using notOwned)
    fun other otherMem same => by simpa using replaced other otherMem same).symm
  events := isPart.events_update fun other otherMem same =>
    iff_of_false (replaced other otherMem same) notOwned
  linked := isPart.linked_update request

theorem linked_markEventProcessed (isPart : PartOf ownerUserId whole part)
    (stored : request ∈ whole.requests) (eventId : JsString) :
    ∀ link ∈ (whole.markEventProcessed eventId
        (some request.processingRequestId)).eventIdToRequestId,
      ∃ other ∈ whole.requests, other.processingRequestId = link.processingRequestId := by
  intro link linkMem
  rcases KeyedTable.mem_upsert.mp linkMem with rfl | ⟨old, _⟩
  · exact ⟨request, stored, rfl⟩
  · exact isPart.linked link old

/-- Both record an event, for a request of the owner. -/
theorem markEventProcessed (isPart : PartOf ownerUserId whole part)
    (stored : request ∈ whole.requests) (owned : request.ownerUserId = ownerUserId)
    (eventId : JsString) :
    PartOf ownerUserId
      (whole.markEventProcessed eventId (some request.processingRequestId))
      (part.markEventProcessed eventId (some request.processingRequestId)) where
  requests := isPart.requests
  events other := by
    simp only [Store.markEventProcessed, KeyedTable.find?_upsert, Option.getD_some]
    split
    · have visible := linksTo_of_stored stored ownerUserId eventId
      simp only [owned, decide_true] at visible
      exact ((Option.filter_eq_some_iff).mpr ⟨rfl, visible⟩).symm
    · exact isPart.events other
  linked := isPart.linked_markEventProcessed stored eventId

/-- Only the whole records an event, for a request of another owner. -/
theorem markOther (isPart : PartOf ownerUserId whole part) (stored : request ∈ whole.requests)
    (notOwned : request.ownerUserId ≠ ownerUserId) {eventId : JsString}
    (unrecorded : whole.eventIdToRequestId.find? eventId = none) :
    PartOf ownerUserId (whole.markEventProcessed eventId (some request.processingRequestId))
      part where
  requests := isPart.requests
  events other := by
    simp only [Store.markEventProcessed, KeyedTable.find?_upsert, Option.getD_some]
    split
    · rename_i isEvent
      have invisible := linksTo_of_stored stored ownerUserId eventId
      simp only [notOwned, decide_false] at invisible
      have absent : part.eventIdToRequestId.find? other = none := by
        rw [isPart.events, ← show eventId = other from isEvent, unrecorded]
        rfl
      rw [absent, eq_comm, Option.filter_eq_none_iff]
      rintro link ⟨⟩
      exact (Bool.eq_false_iff.mp invisible)
    · exact isPart.events other
  linked := isPart.linked_markEventProcessed stored eventId

/-- What the whole adds to the outbox is nobody's to read. -/
theorem announceOther (isPart : PartOf ownerUserId whole part)
    (entry : Option (EventRoute × OutboxPayload)) :
    PartOf ownerUserId (whole.announce entry) part :=
  ⟨isPart.requests, isPart.events, isPart.linked⟩

theorem announce (isPart : PartOf ownerUserId whole part)
    (entry : Option (EventRoute × OutboxPayload)) :
    PartOf ownerUserId (whole.announce entry) (part.announce entry) :=
  ⟨isPart.requests, isPart.events, isPart.linked⟩

end PartOf

/-! ## The operations -/

/-- An identifier a create draws is new, and so is its event; an event that was recorded before was
recorded for the request it names. -/
def Consistent (store : Store) (operation : Operation) : Prop :=
  match operation with
  | .create draws input =>
      store.eventIdToRequestId.find? input.eventId = none ∧
        store.requests.find? draws.uuid.text = none
  | _ => ∀ event ∈ operation.event?, ∀ link ∈ store.eventIdToRequestId.find? event.eventId,
      link.processingRequestId = event.processingRequestId

/-- Not a create by another owner, nor an event that names a request of another owner. -/
def Concerns (ownerUserId : JsString) (store : Store) (operation : Operation) : Prop :=
  match operation with
  | .create _ input => input.ownerUserId = ownerUserId
  | _ => ∀ event ∈ operation.event?, ∀ request ∈ store.requests.find? event.processingRequestId,
      request.ownerUserId = ownerUserId

instance (ownerUserId : JsString) (store : Store) (operation : Operation) :
    Decidable (Concerns ownerUserId store operation) :=
  match operation with
  | .create _ input => inferInstanceAs (Decidable (input.ownerUserId = ownerUserId))
  | .accept .. => inferInstanceAs (Decidable (∀ event ∈ _, _))
  | .start .. => inferInstanceAs (Decidable (∀ event ∈ _, _))
  | .complete .. => inferInstanceAs (Decidable (∀ event ∈ _, _))
  | .fail .. => inferInstanceAs (Decidable (∀ event ∈ _, _))

/-- An event recorded, if at all, for the request it names is answered by that request. -/
theorem performEvent_of_consistent {store : Store} {event : LifecycleEvent}
    (consistent : ∀ link, store.eventIdToRequestId.find? event.eventId = some link →
      link.processingRequestId = event.processingRequestId) :
    store.performEvent event =
      match event.refusal with
      | some error => (.error error, store)
      | none => store.performLocked event := by
  rw [Store.performEvent]
  cases event.refusal with
  | some error => rfl
  | none =>
      cases found : store.findByEventId event.eventId with
      | none => rfl
      | some existing =>
          rw [Store.findByEventId, Option.bind_eq_bind, Option.bind_eq_some_iff] at found
          rcases found with ⟨link, recorded, points⟩
          have processed : store.hasEventBeenProcessed event.eventId = true := by
            simp [Store.hasEventBeenProcessed, recorded]
          split at points
          · cases points
          · rw [consistent link recorded] at points
            simp [Store.performLocked, points, processed]

theorem unrecorded_of_not_processed {store : Store} {eventId : JsString}
    (notProcessed : ¬ store.hasEventBeenProcessed eventId = true) :
    store.eventIdToRequestId.find? eventId = none := by
  simpa [Store.hasEventBeenProcessed] using notProcessed

namespace PartOf

variable {ownerUserId : JsString} {whole part : Store}

section Events

variable {event : LifecycleEvent} {request : ProcessingRequest}

/-- Both carry out the same decision about a request of the owner. -/
theorem performDecision (isPart : PartOf ownerUserId whole part) {decision : Decision}
    (lawful : decision.Lawful request) (stored : request ∈ whole.requests)
    (owned : request.ownerUserId = ownerUserId) :
    (whole.performDecision event request decision).1 =
        (part.performDecision event request decision).1 ∧
      PartOf ownerUserId (whole.performDecision event request decision).2
        (part.performDecision event request decision).2 := by
  cases decision with
  | noted => exact ⟨rfl, isPart.markEventProcessed stored owned event.eventId⟩
  | applied updated entry =>
      have owned' : updated.ownerUserId = ownerUserId := lawful.1.2.1.trans owned
      have written := isPart.update owned' fun other otherMem same => by
        rw [KeyedTable.eq_of_key_eq otherMem stored (same.trans lawful.1.1)]
        exact owned
      exact ⟨rfl, (written.announce entry).markEventProcessed
        (KeyedTable.mem_upsert.mpr (.inl rfl)) owned' event.eventId⟩

/-- Only the whole carries out a decision, about a request of another owner. -/
theorem performDecisionOther (isPart : PartOf ownerUserId whole part) {decision : Decision}
    (lawful : decision.Lawful request) (stored : request ∈ whole.requests)
    (notOwned : request.ownerUserId ≠ ownerUserId)
    (unrecorded : whole.eventIdToRequestId.find? event.eventId = none) :
    PartOf ownerUserId (whole.performDecision event request decision).2 part := by
  cases decision with
  | noted => exact isPart.markOther stored notOwned unrecorded
  | applied updated entry =>
      have notOwned' : updated.ownerUserId ≠ ownerUserId :=
        fun owned => notOwned (lawful.1.2.1.symm.trans owned)
      have written := isPart.updateOther notOwned' fun other otherMem same => by
        rw [KeyedTable.eq_of_key_eq otherMem stored (same.trans lawful.1.1)]
        exact notOwned
      exact (written.announceOther entry).markOther (KeyedTable.mem_upsert.mpr (.inl rfl))
        notOwned' unrecorded

theorem hasEventBeenProcessed (isPart : PartOf ownerUserId whole part)
    (stored : request ∈ whole.requests) (owned : request.ownerUserId = ownerUserId)
    (consistent : ∀ link, whole.eventIdToRequestId.find? event.eventId = some link →
      link.processingRequestId = request.processingRequestId) :
    part.hasEventBeenProcessed event.eventId = whole.hasEventBeenProcessed event.eventId := by
  rw [Store.hasEventBeenProcessed, Store.hasEventBeenProcessed, isPart.events]
  cases recorded : whole.eventIdToRequestId.find? event.eventId with
  | none => rfl
  | some link =>
      have visible := linksTo_of_stored stored ownerUserId link.eventId
      rw [← consistent link recorded] at visible
      simp [Option.filter, visible, owned]

/-- An event about a request of the owner, or about none. -/
theorem performEvent (isPart : PartOf ownerUserId whole part)
    (consistent : ∀ link, whole.eventIdToRequestId.find? event.eventId = some link →
      link.processingRequestId = event.processingRequestId)
    (concerns : ∀ request, whole.requests.find? event.processingRequestId = some request →
      request.ownerUserId = ownerUserId) :
    (whole.performEvent event).1 = (part.performEvent event).1 ∧
      PartOf ownerUserId (whole.performEvent event).2 (part.performEvent event).2 := by
  rw [performEvent_of_consistent consistent,
    performEvent_of_consistent fun link found => consistent link (isPart.link_of_part found)]
  cases event.refusal with
  | some error => exact ⟨rfl, isPart⟩
  | none =>
      have inPart := isPart.find? event.processingRequestId
      rw [Store.performLocked, Store.performLocked]
      cases found : whole.requests.find? event.processingRequestId with
      | none =>
          rw [found, Option.filter_none] at inPart
          rw [inPart]
          exact ⟨rfl, isPart⟩
      | some request =>
          have owned := concerns request found
          have stored := KeyedTable.mem_of_find? found
          have sameId := KeyedTable.key_of_find? found
          rw [found, Option.filter_some_pos (by simpa using owned)] at inPart
          have processed : part.hasEventBeenProcessed event.eventId =
              whole.hasEventBeenProcessed event.eventId :=
            isPart.hasEventBeenProcessed stored owned (sameId.symm ▸ consistent)
          simp only [inPart, processed]
          split
          · exact ⟨rfl, isPart⟩
          · cases decided : event.decide request with
            | error error => exact ⟨rfl, isPart⟩
            | ok decision => exact isPart.performDecision (event.lawful decided) stored owned

/-- An event about a request of another owner. -/
theorem performEventOther (isPart : PartOf ownerUserId whole part)
    (consistent : ∀ link, whole.eventIdToRequestId.find? event.eventId = some link →
      link.processingRequestId = event.processingRequestId)
    (found : whole.requests.find? event.processingRequestId = some request)
    (notOwned : request.ownerUserId ≠ ownerUserId) :
    PartOf ownerUserId (whole.performEvent event).2 part := by
  rw [performEvent_of_consistent consistent]
  cases event.refusal with
  | some error => exact isPart
  | none =>
      simp only [Store.performLocked, found]
      split
      · exact isPart
      · rename_i notProcessed
        cases decided : event.decide request with
        | error error => exact isPart
        | ok decision =>
            exact isPart.performDecisionOther (event.lawful decided) (KeyedTable.mem_of_find? found)
              notOwned (unrecorded_of_not_processed notProcessed)

end Events

section Creates

open CreateProcessingRequestUseCase

variable {draws : Draws} {input : Input} {request : ProcessingRequest}

theorem findByEventId_of_unrecorded {store : Store} {eventId : JsString}
    (unrecorded : store.eventIdToRequestId.find? eventId = none) :
    store.findByEventId eventId = none := by
  simp [Store.findByEventId, unrecorded]

theorem unrecorded (isPart : PartOf ownerUserId whole part) {eventId : JsString}
    (unrecorded : whole.eventIdToRequestId.find? eventId = none) :
    part.eventIdToRequestId.find? eventId = none := by
  rw [isPart.events, unrecorded]
  rfl

/-- Both insert a new request of the owner. -/
theorem insertion (isPart : PartOf ownerUserId whole part)
    (unused : whole.requests.find? request.processingRequestId = none)
    (owned : request.ownerUserId = ownerUserId) :
    PartOf ownerUserId (whole.insertion input request) (part.insertion input request) := by
  have written := isPart.update owned fun other otherMem same =>
    absurd same (KeyedTable.find?_eq_none_iff.mp unused other otherMem)
  exact (written.announce (some (.videoValidationRequested, validationRequested input request))
    ).markEventProcessed (KeyedTable.mem_upsert.mpr (.inl rfl)) owned input.eventId

/-- Only the whole inserts a new request, of another owner. -/
theorem insertionOther (isPart : PartOf ownerUserId whole part)
    (unrecorded : whole.eventIdToRequestId.find? input.eventId = none)
    (unused : whole.requests.find? request.processingRequestId = none)
    (notOwned : request.ownerUserId ≠ ownerUserId) :
    PartOf ownerUserId (whole.insertion input request) part := by
  have written := isPart.updateOther notOwned fun other otherMem same =>
    absurd same (KeyedTable.find?_eq_none_iff.mp unused other otherMem)
  exact (written.announceOther (some (.videoValidationRequested, validationRequested input request))
    ).markOther (KeyedTable.mem_upsert.mpr (.inl rfl)) notOwned unrecorded

/-- A create by the owner: its key and its source are looked up among its own requests. -/
theorem performCreate (isPart : PartOf ownerUserId whole part)
    (unrecorded : whole.eventIdToRequestId.find? input.eventId = none)
    (unused : whole.requests.find? draws.uuid.text = none)
    (owned : input.ownerUserId = ownerUserId) :
    (whole.performCreate draws input).1 = (part.performCreate draws input).1 ∧
      PartOf ownerUserId (whole.performCreate draws input).2
        (part.performCreate draws input).2 := by
  rw [Store.performCreate, Store.performCreate]
  cases checked input with
  | error error => exact ⟨rfl, isPart⟩
  | ok correlationId =>
      simp only [findByEventId_of_unrecorded unrecorded,
        findByEventId_of_unrecorded (isPart.unrecorded unrecorded)]
      cases requested : requestOf draws input correlationId with
      | error error => exact ⟨rfl, isPart⟩
      | ok request =>
          have sameOwned := isPart.ownedBy
          rw [← owned] at sameOwned
          simp only [Store.performValid, Store.findByOwnerAndIdempotencyKey,
            Store.findByOwnerAndSource, sameOwned]
          split
          · exact ⟨rfl, isPart⟩
          · split
            · exact ⟨rfl, isPart⟩
            · rcases createProcessingRequest_eq_ok.mp requested with ⟨_, _, _, rfl⟩
              exact ⟨rfl, isPart.insertion unused owned⟩

/-- A create by another owner. -/
theorem performCreateOther (isPart : PartOf ownerUserId whole part)
    (unrecorded : whole.eventIdToRequestId.find? input.eventId = none)
    (unused : whole.requests.find? draws.uuid.text = none)
    (notOwned : input.ownerUserId ≠ ownerUserId) :
    PartOf ownerUserId (whole.performCreate draws input).2 part := by
  rw [Store.performCreate]
  cases checked input with
  | error error => exact isPart
  | ok correlationId =>
      simp only [findByEventId_of_unrecorded unrecorded]
      cases requested : requestOf draws input correlationId with
      | error error => exact isPart
      | ok request =>
          simp only [Store.performValid]
          split
          · exact isPart
          · split
            · exact isPart
            · rcases createProcessingRequest_eq_ok.mp requested with ⟨_, _, _, rfl⟩
              exact isPart.insertionOther unrecorded unused notOwned

end Creates

/-- An operation that concerns the owner is answered alike, and leaves its part. -/
theorem kept (isPart : PartOf ownerUserId whole part) {operation : Operation}
    (consistent : Consistent whole operation) (concerns : Concerns ownerUserId whole operation) :
    (perform operation whole).1 = (perform operation part).1 ∧
      PartOf ownerUserId (perform operation whole).2 (perform operation part).2 := by
  rcases operation.create_or_event with ⟨draws, input, rfl⟩ | ⟨event, isEvent⟩
  · rcases isPart.performCreate consistent.1 consistent.2 concerns with ⟨answered, left⟩
    exact ⟨congrArg (Except.map Answer.result) answered, left⟩
  · rw [perform_of_event isEvent, perform_of_event isEvent]
    have both : (∀ link, whole.eventIdToRequestId.find? event.eventId = some link →
          link.processingRequestId = event.processingRequestId) ∧
        ∀ request, whole.requests.find? event.processingRequestId = some request →
          request.ownerUserId = ownerUserId := by
      cases operation with
      | create => cases isEvent
      | _ => exact ⟨consistent event isEvent, concerns event isEvent⟩
    rcases isPart.performEvent both.1 both.2 with ⟨answered, left⟩
    exact ⟨congrArg (Except.map Answer.request) answered, left⟩

/-- Any other operation leaves the owner's part as it is. -/
theorem dropped (isPart : PartOf ownerUserId whole part) {operation : Operation}
    (consistent : Consistent whole operation)
    (concerns : ¬ Concerns ownerUserId whole operation) :
    PartOf ownerUserId (perform operation whole).2 part := by
  rcases operation.create_or_event with ⟨draws, input, rfl⟩ | ⟨event, isEvent⟩
  · exact isPart.performCreateOther consistent.1 consistent.2 concerns
  · rw [perform_of_event isEvent]
    have both : (∀ link, whole.eventIdToRequestId.find? event.eventId = some link →
          link.processingRequestId = event.processingRequestId) ∧
        ∃ request, whole.requests.find? event.processingRequestId = some request ∧
          request.ownerUserId ≠ ownerUserId := by
      cases operation with
      | create => cases isEvent
      | _ =>
          refine ⟨consistent event isEvent, ?_⟩
          simpa [Concerns, isEvent] using concerns
    rcases both with ⟨recorded, request, found, notOwned⟩
    exact isPart.performEventOther recorded found notOwned

end PartOf

/-! ## Runs -/

def runOperation (operation : Operation) (store : Store) : Left Answer :=
  runAlone (operation.execute repository unitOfWork) store

/-- What operations answer, one after another. -/
def answers : List Operation → Store → List (Except Thrown Answer)
  | [], _ => []
  | operation :: rest, store =>
      (runOperation operation store).1 :: answers rest (runOperation operation store).2

/-- What operations leave, one after another. -/
def leftAfter (operations : List Operation) (store : Store) : Store :=
  operations.foldl (fun store operation => (runOperation operation store).2) store

/-- The operations of a run that concern an owner, with what they answered in it. -/
def keptFor (ownerUserId : JsString) :
    List Operation → Store → List (Operation × Except Thrown Answer)
  | [], _ => []
  | operation :: rest, store =>
      let others := keptFor ownerUserId rest (runOperation operation store).2
      if Concerns ownerUserId store operation then
        (operation, (runOperation operation store).1) :: others
      else
        others

/-- Every operation of a run is consistent with what those before it left. -/
def ConsistentRun : List Operation → Store → Prop
  | [], _ => True
  | operation :: rest, store =>
      Consistent store operation ∧ ConsistentRun rest (runOperation operation store).2

theorem PartOf.run {ownerUserId : JsString} {operations : List Operation} {whole part : Store}
    (isPart : PartOf ownerUserId whole part) (consistent : ConsistentRun operations whole) :
    answers ((keptFor ownerUserId operations whole).map Prod.fst) part =
        (keptFor ownerUserId operations whole).map Prod.snd ∧
      PartOf ownerUserId (leftAfter operations whole)
        (leftAfter ((keptFor ownerUserId operations whole).map Prod.fst) part) := by
  induction operations generalizing whole part with
  | nil => exact ⟨rfl, isPart⟩
  | cons operation rest ih =>
      rcases consistent with ⟨here, later⟩
      have performed : ∀ store, runOperation operation store = perform operation store :=
        runAlone_execute operation
      by_cases concerns : Concerns ownerUserId whole operation
      · rcases isPart.kept here concerns with ⟨answered, left⟩
        rw [← performed, ← performed] at answered left
        rcases ih left later with ⟨answers, isPart'⟩
        simp only [keptFor, concerns, if_true]
        exact ⟨congrArg₂ _ answered.symm answers, isPart'⟩
      · have left := isPart.dropped here concerns
        rw [← performed] at left
        simp only [keptFor, concerns, if_false]
        exact ih left later

/-! ### Identifiers of which each has one use -/

/-- The identifier a create draws, or an event names. -/
def requestId : Operation → JsString
  | .create draws _ => draws.uuid.text
  | .accept _ input => input.processingRequestId
  | .start _ input => input.processingRequestId
  | .complete _ input => input.processingRequestId
  | .fail _ input => input.processingRequestId

/-- Two operations of a run, in this order: a create comes with an event and an identifier that are
new, and an event that comes again names the same request. -/
structure Unmixed (earlier later : Operation) : Prop where
  event : earlier.eventId = later.eventId →
    later.event?.isSome ∧ requestId earlier = requestId later
  create : earlier.event?.isNone → later.event?.isNone → requestId earlier ≠ requestId later

instance (earlier later : Operation) : Decidable (Unmixed earlier later) :=
  decidable_of_iff ((earlier.eventId = later.eventId →
      later.event?.isSome ∧ requestId earlier = requestId later) ∧
    (earlier.event?.isNone → later.event?.isNone → requestId earlier ≠ requestId later))
    ⟨fun both => ⟨both.1, both.2⟩, fun unmixed => ⟨unmixed.event, unmixed.create⟩⟩

/-- What an operation may add to the maps. -/
structure Adds (operation : Operation) (before after : Store) : Prop where
  links : ∀ link ∈ after.eventIdToRequestId, link ∈ before.eventIdToRequestId ∨
    link = ⟨operation.eventId, requestId operation⟩
  requests : ∀ request ∈ after.requests,
    (∃ old ∈ before.requests, old.processingRequestId = request.processingRequestId) ∨
      operation.event?.isNone ∧ request.processingRequestId = requestId operation

theorem adds_refl (operation : Operation) (store : Store) : Adds operation store store :=
  ⟨fun _ linkMem => .inl linkMem, fun request requestMem => .inl ⟨request, requestMem, rfl⟩⟩

section Adds

variable {operation : Operation} {store : Store}

theorem Adds.markEventProcessed {after : Store} (adds : Adds operation store after) :
    Adds operation store
      (after.markEventProcessed operation.eventId (some (requestId operation))) where
  links link linkMem := by
    rcases KeyedTable.mem_upsert.mp linkMem with rfl | ⟨old, _⟩
    · exact .inr rfl
    · exact adds.links link old
  requests := adds.requests

theorem Adds.update {after : Store} (adds : Adds operation store after)
    {request : ProcessingRequest}
    (named : (∃ old ∈ store.requests, old.processingRequestId = request.processingRequestId) ∨
      operation.event?.isNone ∧ request.processingRequestId = requestId operation) :
    Adds operation store (after.update request) where
  links := adds.links
  requests other otherMem := by
    rcases KeyedTable.mem_upsert.mp otherMem with rfl | ⟨old, _⟩
    · exact named
    · exact adds.requests other old

theorem Adds.announce {after : Store} (adds : Adds operation store after)
    (entry : Option (EventRoute × OutboxPayload)) : Adds operation store (after.announce entry) :=
  ⟨adds.links, adds.requests⟩

theorem adds_performEvent {event : LifecycleEvent} (isEvent : operation.event? = some event) :
    Adds operation store (store.performEvent event).2 := by
  have sameEvent : event.eventId = operation.eventId := Operation.eventId_of_event isEvent
  have sameRequest : event.processingRequestId = requestId operation := by
    cases operation <;> cases isEvent <;> rfl
  rw [Store.performEvent]
  split
  · exact adds_refl operation store
  · split
    · exact adds_refl operation store
    · rw [Store.performLocked]
      split
      · exact adds_refl operation store
      · rename_i request found
        have named := (KeyedTable.key_of_find? found).trans sameRequest
        split
        · exact adds_refl operation store
        · cases decided : event.decide request with
          | error error => exact adds_refl operation store
          | ok decision =>
              have lawful := event.lawful decided
              cases decision with
              | noted =>
                  simp only [Store.performDecision, sameEvent, named]
                  exact (adds_refl operation store).markEventProcessed
              | applied updated entry =>
                  have written := (adds_refl operation store).update
                    (.inl ⟨request, KeyedTable.mem_of_find? found, lawful.1.1.symm⟩)
                  simp only [Store.performDecision, sameEvent, lawful.1.1.trans named]
                  exact (written.announce entry).markEventProcessed

open CreateProcessingRequestUseCase in
theorem adds_performCreate (draws : Draws) (input : Input) :
    Adds (.create draws input) store (store.performCreate draws input).2 := by
  rw [Store.performCreate]
  split
  · exact adds_refl _ store
  · rename_i correlationId _
    split
    · exact adds_refl _ store
    · cases requested : requestOf draws input correlationId with
      | error error => exact adds_refl _ store
      | ok request =>
          simp only [Store.performValid]
          split
          · exact adds_refl _ store
          · split
            · exact adds_refl _ store
            · have drawn : request.processingRequestId = draws.uuid.text := by
                rcases createProcessingRequest_eq_ok.mp requested with ⟨_, _, _, rfl⟩
                rfl
              have written := (adds_refl (.create draws input) store).update (.inr ⟨rfl, drawn⟩)
              simp only [Store.insertion, drawn]
              exact (written.announce (some (.videoValidationRequested,
                validationRequested input request))).markEventProcessed

theorem adds_runOperation (operation : Operation) (store : Store) :
    Adds operation store (runOperation operation store).2 := by
  rw [runOperation, runAlone_execute]
  rcases operation.create_or_event with ⟨draws, input, rfl⟩ | ⟨event, isEvent⟩
  · exact adds_performCreate draws input
  · rw [perform_of_event isEvent]
    exact adds_performEvent isEvent

end Adds

/-- The maps hold nothing that the operations to come use otherwise. -/
structure Clear (store : Store) (operations : List Operation) : Prop where
  events : ∀ link ∈ store.eventIdToRequestId, ∀ operation ∈ operations,
    link.eventId = operation.eventId →
      operation.event?.isSome ∧ link.processingRequestId = requestId operation
  requests : ∀ request ∈ store.requests, ∀ operation ∈ operations, operation.event?.isNone →
    request.processingRequestId ≠ requestId operation

theorem Clear.consistent {store : Store} {operation : Operation} {rest : List Operation}
    (clear : Clear store (operation :: rest)) : Consistent store operation := by
  have recorded : ∀ event ∈ operation.event?,
      ∀ link ∈ store.eventIdToRequestId.find? event.eventId,
        link.processingRequestId = event.processingRequestId := by
    intro event isEvent link found
    have sameEvent : event.eventId = operation.eventId := Operation.eventId_of_event isEvent
    rcases KeyedTable.find?_eq_some_iff.mp found with ⟨linkMem, isLink⟩
    have points := (clear.events link linkMem operation List.mem_cons_self
      (isLink.trans sameEvent)).2
    cases operation <;> cases isEvent <;> exact points
  cases operation with
  | create draws input =>
      refine ⟨KeyedTable.find?_eq_none_iff.mpr fun link linkMem isEvent => ?_,
        KeyedTable.find?_eq_none_iff.mpr fun request requestMem =>
          clear.requests request requestMem _ List.mem_cons_self rfl⟩
      have isEventOf := (clear.events link linkMem _ List.mem_cons_self isEvent).1
      cases isEventOf
  | _ => exact recorded

theorem Clear.after {store : Store} {operation : Operation} {rest : List Operation}
    (clear : Clear store (operation :: rest)) (unmixed : ∀ later ∈ rest, Unmixed operation later) :
    Clear (runOperation operation store).2 rest where
  events link linkMem later laterMem sameEvent := by
    rcases (adds_runOperation operation store).links link linkMem with old | rfl
    · exact clear.events link old later (List.mem_cons_of_mem _ laterMem) sameEvent
    · exact (unmixed later laterMem).event sameEvent
  requests request requestMem later laterMem isCreate := by
    rcases (adds_runOperation operation store).requests request requestMem with
      ⟨old, oldMem, sameId⟩ | ⟨created, drawn⟩
    · exact sameId ▸ clear.requests old oldMem later (List.mem_cons_of_mem _ laterMem) isCreate
    · exact drawn ▸ (unmixed later laterMem).create created isCreate

/-- Operations whose identifiers are not mixed up are consistent, whatever the earlier ones did. -/
theorem consistentRun_of_unmixed {operations : List Operation} {store : Store}
    (unmixed : operations.Pairwise Unmixed) (clear : Clear store operations) :
    ConsistentRun operations store := by
  induction operations generalizing store with
  | nil => trivial
  | cons operation rest ih =>
      rcases List.pairwise_cons.mp unmixed with ⟨here, later⟩
      exact ⟨clear.consistent, ih later (clear.after here)⟩

theorem clear_empty (operations : List Operation) : Clear .empty operations where
  events _ linkMem := absurd linkMem (KeyedTable.not_mem_empty _)
  requests _ requestMem := absurd requestMem (KeyedTable.not_mem_empty _)

/-! ## What the owner reads -/

open OwnedProcessingRequestsController in
/-- What a route answers from the maps. -/
def asked {α : Type} (route : Response signature α) (store : Store) :
    Except Thrown (Except HttpException α) :=
  (runAlone route.run store).1

section Reads

open OwnedProcessingRequestsController

variable (ownerUserId id : JsString) (page pageSize : Option Json) (store : Store)

/-- A route goes on with the answer of the query it asks. -/
theorem asked_query {α β : Type} {query : Computation signature α} {answer : α}
    (answered : runAlone query store = (.ok answer, store)) (next : α → Response signature β) :
    asked (ExceptT.lift query >>= next) store = asked (next answer) store := by
  rw [asked, ExceptT.run_bind_lift, runAlone, Program.run_bind_of_ok answered]
  rfl

theorem asked_list :
    asked (list repository ownerUserId page pageSize) store = .ok (do
      requireOwner ownerUserId
      let page ← parsePage page
      let pageSize ← parsePageSize pageSize
      return ⟨(store.findPageByOwner ownerUserId ((page - 1) * pageSize) pageSize).map toOwnedItem,
        page, pageSize, store.countByOwner ownerUserId⟩) := by
  rw [list]
  cases requireOwner ownerUserId with
  | error error => rfl
  | ok _ =>
      cases parsePage page with
      | error error => rfl
      | ok page => cases parsePageSize pageSize <;> rfl

theorem asked_findOne :
    asked (findOne repository ownerUserId id) store = .ok (do
      requireOwner ownerUserId
      if !isUuid id then
        throw notFound
      match store.findByIdAndOwner id ownerUserId with
      | some request => return toOwnedItem request
      | none => throw notFound) := by
  rw [findOne]
  cases requireOwner ownerUserId with
  | error error => rfl
  | ok _ =>
      cases isUuid id with
      | false => rfl
      | true =>
          refine (asked_query store (runAlone_getOwned ⟨ownerUserId, id⟩ store) _).trans ?_
          cases store.findByIdAndOwner id ownerUserId <;> rfl

theorem asked_findArchive :
    asked (findArchive repository ownerUserId id) store = .ok (do
      requireOwner ownerUserId
      if !isUuid id then
        throw notFound
      match (store.findByIdAndOwner id ownerUserId).elim .notFound
        GetOwnedArchiveQuery.archiveOf with
      | .notFound => throw notFound
      | .notCompleted => throw notCompleted
      | .ready zipStorageKey => return zipStorageKey) := by
  rw [findArchive]
  cases requireOwner ownerUserId with
  | error error => rfl
  | ok _ =>
      cases isUuid id with
      | false => rfl
      | true =>
          refine (asked_query store (runAlone_getArchive ⟨ownerUserId, id⟩ store) _).trans ?_
          cases (store.findByIdAndOwner id ownerUserId).elim .notFound
            GetOwnedArchiveQuery.archiveOf <;> rfl

/-- Two stores from which an owner reads the same. -/
structure ReadAlike (left right : Store) : Prop where
  list : ∀ page pageSize, asked (list repository ownerUserId page pageSize) left =
    asked (list repository ownerUserId page pageSize) right
  findOne : ∀ id, asked (findOne repository ownerUserId id) left =
    asked (findOne repository ownerUserId id) right
  findArchive : ∀ id, asked (findArchive repository ownerUserId id) left =
    asked (findArchive repository ownerUserId id) right

theorem PartOf.readAlike {ownerUserId : JsString} {whole part : Store}
    (isPart : PartOf ownerUserId whole part) : ReadAlike ownerUserId whole part where
  list page pageSize := by
    simp only [asked_list, Store.findPageByOwner, Store.countByOwner, isPart.ownedBy]
  findOne id := by
    simp only [asked_findOne, isPart.findByIdAndOwner]
  findArchive id := by
    simp only [asked_findArchive, isPart.findByIdAndOwner]

variable {store}

/-- A miss is answered alike, whatever its reason. -/
theorem asked_of_miss {id other : JsString} (miss : store.findByIdAndOwner id ownerUserId = none)
    (otherMiss : store.findByIdAndOwner other ownerUserId = none) :
    asked (findOne repository ownerUserId id) store =
        asked (findOne repository ownerUserId other) store ∧
      asked (findArchive repository ownerUserId id) store =
        asked (findArchive repository ownerUserId other) store := by
  simp only [asked_findOne, asked_findArchive, miss, otherMiss, Option.elim_none]
  constructor <;> cases isUuid id <;> cases isUuid other <;> rfl

theorem findByIdAndOwner_of_other {ownerUserId : JsString} {request : ProcessingRequest}
    (stored : request ∈ store.requests) (notOwned : request.ownerUserId ≠ ownerUserId) :
    store.findByIdAndOwner request.processingRequestId ownerUserId = none := by
  rw [Store.findByIdAndOwner, KeyedTable.find?_key stored]
  exact Option.filter_some_neg (by simpa using notOwned)

end Reads

open OwnedProcessingRequestsController in
/-- Drop the creates of the other owners, and the events about their requests: what is left of the
run is answered as before, and the owner reads what it read. The request of another owner is
answered like one that does not exist. -/
theorem owners_do_not_interfere (ownerUserId : JsString) (operations : List Operation)
    (consistent : ConsistentRun operations .empty) :
    let kept := keptFor ownerUserId operations .empty
    let whole := leftAfter operations .empty
    answers (kept.map Prod.fst) .empty = kept.map Prod.snd ∧
      ReadAlike ownerUserId whole (leftAfter (kept.map Prod.fst) .empty) ∧
      ∀ request ∈ whole.requests, request.ownerUserId ≠ ownerUserId →
        ∀ unknown, whole.requests.find? unknown = none →
          asked (findOne repository ownerUserId request.processingRequestId) whole =
              asked (findOne repository ownerUserId unknown) whole ∧
            asked (findArchive repository ownerUserId request.processingRequestId) whole =
              asked (findArchive repository ownerUserId unknown) whole := by
  intro kept whole
  rcases (partOf_empty ownerUserId).run consistent with ⟨answered, isPart⟩
  refine ⟨answered, isPart.readAlike, ?_⟩
  intro request stored notOwned unknown absent
  have missed : whole.findByIdAndOwner unknown ownerUserId = none := by
    rw [Store.findByIdAndOwner, absent]
    rfl
  exact asked_of_miss ownerUserId (findByIdAndOwner_of_other stored notOwned) missed

/-- Two owners upload the same source under the same key; both requests are accepted. -/
def twoOwners : List Operation :=
  [.create ⟨1789953000000, .repeated 1, .repeated 2, 3000⟩
      ⟨js "e-1", js "ada", js "ada@example.com", js "uploads/a.mp4", js "key", none⟩,
    .create ⟨1789953060000, .repeated 3, .repeated 4, 3000⟩
      ⟨js "e-2", js "bob", js "bob@example.com", js "uploads/a.mp4", js "key", none⟩,
    .accept ⟨1789953120000, .repeated 5, .repeated 6, 3000⟩
      ⟨js "e-3", Uuid.text (.repeated 3), js "2026-09-21T01:12:00.000Z"⟩,
    .accept ⟨1789953180000, .repeated 7, .repeated 8, 3000⟩
      ⟨js "e-4", Uuid.text (.repeated 1), js "2026-09-21T01:13:00.000Z"⟩]

theorem owners_do_not_interfere_two :
    (keptFor (js "ada") twoOwners .empty).length = 2 ∧
      answers ((keptFor (js "ada") twoOwners .empty).map Prod.fst) .empty =
        (keptFor (js "ada") twoOwners .empty).map Prod.snd ∧
      ReadAlike (js "ada") (leftAfter twoOwners .empty)
        (leftAfter ((keptFor (js "ada") twoOwners .empty).map Prod.fst) .empty) := by
  have consistent : ConsistentRun twoOwners .empty :=
    consistentRun_of_unmixed (by decide +kernel) (clear_empty _)
  rcases owners_do_not_interfere (js "ada") twoOwners consistent with ⟨answered, alike, _⟩
  exact ⟨by decide +kernel, answered, alike⟩

end InMemory

end ProcessingCatalog
