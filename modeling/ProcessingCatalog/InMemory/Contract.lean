import ProcessingCatalog.InMemory.Browsing

/-!
# The contract of the executions over the maps

What a create or an event may ask of the maps, and what it may rely on while it
waits. An update, however old the request it overwrites with, keeps the identity
of a request that is stored, and `save` looks for the owner's source and key in
the step that stores. So the maps never hold two requests of an owner for one
source or one key, and nobody is robbed of a request that is stored.
-/

namespace ProcessingCatalog

open Effect CreateProcessingRequestUseCase

/-- No event requests a validation. -/
theorem Operation.route_ne_of_applied {operation : Operation} {event : LifecycleEvent}
    (isEvent : operation.event? = some event) {request updated : ProcessingRequest}
    {route : EventRoute} {payload : OutboxPayload}
    (decided : event.decide request = .ok (.applied updated (some (route, payload)))) :
    route ≠ .videoValidationRequested := by
  cases operation with
  | create draws input => cases isEvent
  | accept draws input =>
      cases isEvent
      rcases AcceptProcessingRequestUseCase.decide_eq_applied.mp decided with ⟨_, _, same⟩
      cases same
      decide
  | start draws input =>
      cases isEvent
      rcases StartProcessingRequestUseCase.decide_eq_applied.mp decided with ⟨_, _, _, same⟩
      cases same
  | complete draws input =>
      cases isEvent
      rcases CompleteProcessingRequestUseCase.decide_eq_applied.mp decided with
        ⟨_, _, _, _, same⟩
      cases same
      decide
  | fail draws input =>
      cases isEvent
      rcases FailProcessingRequestUseCase.decide_eq_applied.mp decided with ⟨_, _, same⟩
      cases same
      decide

namespace InMemory

/-- The validations requested of a request. -/
def Store.validations (store : Store) (processingRequestId : JsString) : List OutboxEntry :=
  store.entries.filter fun entry =>
    entry.route = .videoValidationRequested ∧
      entry.payload.processingRequestId = processingRequestId

/-- The request is stored, as far as its identity goes. -/
def Store.Holds (store : Store) (request : ProcessingRequest) : Prop :=
  ∃ stored ∈ store.requests, request.SameIdentity stored

/-- No owner has two requests for one source or for one key. -/
def Store.Unique (store : Store) : Prop :=
  ∀ left ∈ store.requests, ∀ right ∈ store.requests, left.ownerUserId = right.ownerUserId →
    left.sourceStorageKey = right.sourceStorageKey ∨
      (left.idempotencyKey = right.idempotencyKey ∧ left.idempotencyKey.isSome) →
    left = right

/-- A create has left no trace. -/
structure Store.Untouched (store : Store) (draws : Draws) (input : Input) : Prop where
  request : store.requests.find? draws.uuid.text = none
  event : store.hasEventBeenProcessed input.eventId = false
  validations : store.validations draws.uuid.text = []

/-- The identifiers the creates draw are new, and no other call has the event of a create. -/
structure Fresh {ι : Type} (operations : ι → Operation) (initial : Store) : Prop where
  untouched : ∀ index draws input, operations index = .create draws input →
    initial.Untouched draws input
  drawn : DistinctDraws operations
  events : ∀ index draws input, operations index = .create draws input →
    ∀ other, (operations other).eventId = input.eventId → other = index

/-! ## What a call may do, and what it relies on -/

/-- What an operation may ask of the maps. -/
def Permitted (operation : Operation) (store : Store) : Call → Prop
  | .save request => ∃ draws input, operation = .create draws input ∧
      request.processingRequestId = draws.uuid.text ∧
      store.requests.find? draws.uuid.text = none
  | .update request => store.Holds request
  | .add route payload => route = .videoValidationRequested →
      ∃ uuid, drawn? operation = some uuid ∧ payload.processingRequestId = uuid.text
  | .markEventProcessed eventId _ => eventId = operation.eventId
  | _ => True

/-- What the other operations may do to the maps while this one waits. -/
structure Tolerates (operation : Operation) (store store' : Store) : Prop where
  kept : ∀ request, store.Holds request → store'.Holds request
  recorded : ∀ eventId, store.hasEventBeenProcessed eventId = true →
    store'.hasEventBeenProcessed eventId = true
  create : ∀ draws input, operation = .create draws input →
    (store.requests.find? draws.uuid.text = none →
      store'.requests.find? draws.uuid.text = none) ∧
    (store.hasEventBeenProcessed input.eventId = false →
      store'.hasEventBeenProcessed input.eventId = false) ∧
    store'.validations draws.uuid.text = store.validations draws.uuid.text

/-- What the operations make of the maps: requests are only added, by creates. -/
structure Store.Grown {ι : Type} (operations : ι → Operation) (initial store : Store) : Prop where
  unique : store.Unique
  kept : ∀ request, initial.Holds request → store.Holds request
  origin : ∀ request ∈ store.requests,
    (initial.requests.find? request.processingRequestId).isSome ∨
      ∃ index draws input, operations index = .create draws input ∧
        request.processingRequestId = draws.uuid.text

/-- Each operation asks only for what it may ask. -/
def contract {ι : Type} (operations : ι → Operation) (initial : Store) :
    Discipline (machine ι) where
  Invariant store _ := Store.Grown operations initial store
  Rely index _ := Tolerates (operations index)
  Guarantee index _ call store _ _ := Permitted (operations index) store call

section Sound

variable {ι : Type} {operations : ι → Operation} {initial store : Store}

theorem Store.Holds.of_mem {request : ProcessingRequest} (requestMem : request ∈ store.requests) :
    store.Holds request :=
  ⟨request, requestMem, .refl request⟩

/-- Whatever is stored under its identifier has the identity of a request that is held. -/
theorem Store.Holds.sameIdentity {request stored : ProcessingRequest} (holds : store.Holds request)
    (storedMem : stored ∈ store.requests)
    (sameId : stored.processingRequestId = request.processingRequestId) :
    request.SameIdentity stored := by
  rcases holds with ⟨other, otherMem, same⟩
  rwa [KeyedTable.eq_of_key_eq storedMem otherMem (sameId.trans same.1.symm)]

theorem Store.Holds.of_kept {store' : Store} {request : ProcessingRequest}
    (holds : store.Holds request)
    (kept : ∀ stored ∈ store.requests, ∃ stored' ∈ store'.requests, stored.SameIdentity stored') :
    store'.Holds request := by
  rcases holds with ⟨stored, storedMem, same⟩
  rcases kept stored storedMem with ⟨stored', storedMem', same'⟩
  exact ⟨stored', storedMem', same.trans same'⟩

/-- What `save` does: it refuses, for a request of the owner that is stored, or it stores. -/
theorem Store.save_cases (store : Store) (request : ProcessingRequest) :
    (∃ key, store.save request =
        (.error (.duplicateIdempotencyKeyError request.ownerUserId key), store) ∧
      request.idempotencyKey = some key ∧
      ∃ bound ∈ store.requests, bound.ownerUserId = request.ownerUserId ∧
        bound.idempotencyKey = some key) ∨
    (store.save request =
        (.error (.duplicateSourceError request.ownerUserId request.sourceStorageKey), store) ∧
      ∃ known ∈ store.requests, known.ownerUserId = request.ownerUserId ∧
        known.sourceStorageKey = request.sourceStorageKey) ∨
    (store.save request = (.ok (), store.update request) ∧
      ∀ other ∈ store.requests, other.ownerUserId = request.ownerUserId →
        other.sourceStorageKey ≠ request.sourceStorageKey ∧
          (request.idempotencyKey.isSome → other.idempotencyKey ≠ request.idempotencyKey)) := by
  simp only [Store.save]
  split
  · next key bound =>
      rcases Option.filter_eq_some_iff.mp bound with ⟨isKey, taken⟩
      rcases List.any_eq_true.mp taken with ⟨other, otherMem, sameKey⟩
      rcases List.mem_filter.mp otherMem with ⟨otherMem, owns⟩
      exact .inl ⟨key, rfl, isKey, other, otherMem, of_decide_eq_true owns,
        of_decide_eq_true sameKey⟩
  · next unbound =>
      split
      · next known =>
          rcases List.any_eq_true.mp known with ⟨other, otherMem, sameSource⟩
          rcases List.mem_filter.mp otherMem with ⟨otherMem, owns⟩
          exact .inr (.inl ⟨rfl, other, otherMem, of_decide_eq_true owns,
            of_decide_eq_true sameSource⟩)
      · next unknown =>
          refine .inr (.inr ⟨rfl, fun other otherMem owner => ⟨fun sameSource => ?_,
            fun isKey sameKey => ?_⟩⟩)
          · refine unknown (List.any_eq_true.mpr ⟨other, ?_, decide_eq_true sameSource⟩)
            exact List.mem_filter.mpr ⟨otherMem, decide_eq_true owner⟩
          · rcases Option.isSome_iff_exists.mp isKey with ⟨key, isKey⟩
            refine Option.filter_eq_none_iff.mp unbound key isKey ?_
            refine List.any_eq_true.mpr ⟨other, ?_, decide_eq_true (sameKey.trans isKey)⟩
            exact List.mem_filter.mpr ⟨otherMem, decide_eq_true owner⟩

/-- A request that no stored request of its owner is like may be stored. -/
theorem Store.Unique.update (unique : store.Unique) {updated : ProcessingRequest}
    (alone : ∀ other ∈ store.requests, other.processingRequestId ≠ updated.processingRequestId →
      other.ownerUserId = updated.ownerUserId →
      other.sourceStorageKey ≠ updated.sourceStorageKey ∧
        (updated.idempotencyKey.isSome → other.idempotencyKey ≠ updated.idempotencyKey)) :
    (store.update updated).Unique := by
  have apart : ∀ other ∈ store.requests, other.processingRequestId ≠ updated.processingRequestId →
      other.ownerUserId = updated.ownerUserId →
      ¬ (other.sourceStorageKey = updated.sourceStorageKey ∨
        (other.idempotencyKey = updated.idempotencyKey ∧ updated.idempotencyKey.isSome)) := by
    rintro other otherMem different owner (source | ⟨key, isKey⟩)
    · exact (alone other otherMem different owner).1 source
    · exact (alone other otherMem different owner).2 isKey key
  intro left leftMem right rightMem owner same
  rcases KeyedTable.mem_upsert.mp leftMem with isLeft | ⟨leftOld, leftOther⟩
  · rcases KeyedTable.mem_upsert.mp rightMem with isRight | ⟨rightOld, rightOther⟩
    · exact isLeft.trans isRight.symm
    · rw [isLeft] at owner same
      refine absurd ?_ (apart right rightOld rightOther owner.symm)
      exact same.imp Eq.symm fun ⟨key, isKey⟩ => ⟨key.symm, isKey⟩
  · rcases KeyedTable.mem_upsert.mp rightMem with isRight | ⟨rightOld, rightOther⟩
    · rw [isRight] at owner same
      refine absurd ?_ (apart left leftOld leftOther owner)
      exact same.imp_right fun ⟨key, isKey⟩ => ⟨key, key ▸ isKey⟩
    · exact unique left leftOld right rightOld owner same

/-- An update of a request that is held takes no source and no key from another. -/
theorem Store.Unique.update_of_holds (unique : store.Unique) {updated : ProcessingRequest}
    (held : store.Holds updated) : (store.update updated).Unique := by
  refine unique.update fun other otherMem different owner => ?_
  rcases held with ⟨stored, storedMem, sameId, sameOwner, _, sameSource, sameKey, _⟩
  have conflict : ¬ (other.sourceStorageKey = stored.sourceStorageKey ∨
      (other.idempotencyKey = stored.idempotencyKey ∧ other.idempotencyKey.isSome)) := by
    intro same
    have isStored := unique other otherMem stored storedMem (owner.trans sameOwner.symm) same
    exact different (isStored ▸ sameId)
  refine ⟨fun source => conflict (.inl (source.trans sameSource.symm)), fun isKey key => ?_⟩
  exact conflict (.inr ⟨key.trans sameKey.symm, key ▸ isKey⟩)

/-- What is permitted leaves every request in its place. -/
theorem Permitted.kept {operation : Operation} {call : Call}
    (permitted : Permitted operation store call) : ∀ stored ∈ store.requests,
    ∃ stored' ∈ (store.answer call).2.requests, stored.SameIdentity stored' := by
  intro stored storedMem
  cases call with
  | save request =>
      rcases permitted with ⟨draws, input, _, isId, new⟩
      rcases save_cases store request with saved | refused
      · have different := KeyedTable.find?_eq_none_iff.mp new stored storedMem
        rw [Store.answer, saved]
        exact ⟨stored, KeyedTable.mem_upsert.mpr (.inr ⟨storedMem, isId ▸ different⟩), .refl _⟩
      · rw [Store.answer, refused]
        exact ⟨stored, storedMem, .refl _⟩
  | update request =>
      have grown : InMemory.Grown operation store (store.update request) :=
        .update permitted (.refl request)
      exact grown.kept stored storedMem
  | _ => exact ⟨stored, storedMem, .refl _⟩

/-- What is permitted only adds requests. -/
theorem Store.Grown.answer (grown : Store.Grown operations initial store) {index : ι} {call : Call}
    (permitted : Permitted (operations index) store call) :
    Store.Grown operations initial (store.answer call).2 := by
  have kept : ∀ request, initial.Holds request → (store.answer call).2.Holds request :=
    fun request held => (grown.kept request held).of_kept permitted.kept
  cases call with
  | save request =>
      rcases permitted with ⟨draws, input, isCreate, isId, new⟩
      rcases store.save_cases request with ⟨key, refused, _⟩ | ⟨refused, _⟩ | ⟨saved, free⟩
      · rw [Store.answer, refused]
        exact grown
      · rw [Store.answer, refused]
        exact grown
      · rw [Store.answer, saved] at kept ⊢
        refine ⟨grown.unique.update fun other otherMem _ => free other otherMem, kept, ?_⟩
        intro other otherMem
        rcases KeyedTable.mem_upsert.mp otherMem with rfl | ⟨otherMem, _⟩
        · exact .inr ⟨index, draws, input, isCreate, isId⟩
        · exact grown.origin other otherMem
  | update request =>
      refine ⟨grown.unique.update_of_holds permitted, kept, fun other otherMem => ?_⟩
      rcases KeyedTable.mem_upsert.mp otherMem with isUpdated | ⟨otherMem, _⟩
      · rcases permitted with ⟨stored, storedMem, sameId, _⟩
        rw [isUpdated, ← sameId]
        exact grown.origin stored storedMem
      · exact grown.origin other otherMem
  | _ => exact ⟨grown.unique, kept, grown.origin⟩

theorem Store.hasEventBeenProcessed_mark (store : Store) (marked eventId : JsString)
    (processingRequestId : Option JsString) :
    (store.markEventProcessed marked processingRequestId).hasEventBeenProcessed eventId =
      (decide (marked = eventId) || store.hasEventBeenProcessed eventId) := by
  unfold Store.markEventProcessed Store.hasEventBeenProcessed
  rw [KeyedTable.find?_upsert]
  split
  · next same =>
      have isMarked : marked = eventId := same
      simp [isMarked]
  · next different =>
      have notMarked : marked ≠ eventId := different
      simp [notMarked]

/-- A validation requested of a request joins the others of that request. -/
theorem Store.validations_add (store : Store) (route : EventRoute) (payload : OutboxPayload)
    (processingRequestId : JsString) :
    (store.add route payload).validations processingRequestId =
      store.validations processingRequestId ++
        if route = .videoValidationRequested ∧
            payload.processingRequestId = processingRequestId then
          [⟨route, payload⟩]
        else [] := by
  simp only [Store.add, Store.validations, List.filter_append, List.filter_cons, List.filter_nil,
    decide_eq_true_eq]

theorem Tolerates.of_eq {operation : Operation} {store' : Store}
    (requests : store'.requests = store.requests)
    (events : store'.eventIdToRequestId = store.eventIdToRequestId)
    (validations : ∀ draws input, operation = .create draws input →
      store'.validations draws.uuid.text = store.validations draws.uuid.text) :
    Tolerates operation store store' where
  kept request holds := by
    rcases holds with ⟨stored, storedMem, same⟩
    exact ⟨stored, requests ▸ storedMem, same⟩
  recorded eventId recorded := by rwa [Store.hasEventBeenProcessed, events]
  create draws input isCreate := by
    refine ⟨fun new => by rwa [requests], fun unrecorded => ?_, validations draws input isCreate⟩
    rwa [Store.hasEventBeenProcessed, events]

/-- Storing a request is tolerated where it replaces none but one with its identity, and is not
the one a waiting create would store. -/
theorem Tolerates.update {operation : Operation} {updated : ProcessingRequest}
    (kept : ∀ request, store.Holds request → (store.update updated).Holds request)
    (other : ∀ draws input, operation = .create draws input →
      store.requests.find? draws.uuid.text = none →
      updated.processingRequestId ≠ draws.uuid.text) :
    Tolerates operation store (store.update updated) where
  kept := kept
  recorded _ recorded := recorded
  create draws input isCreate := by
    refine ⟨fun new => ?_, fun unrecorded => unrecorded, rfl⟩
    exact (KeyedTable.find?_upsert_of_ne _ (other draws input isCreate new)).trans new

/-- What one operation is permitted, every other one tolerates. -/
theorem Permitted.tolerates (fresh : Fresh operations initial) {index other : ι} {call : Call}
    (permitted : Permitted (operations index) store call) (different : other ≠ index) :
    Tolerates (operations other) store (store.answer call).2 := by
  have unchanged : Tolerates (operations other) store store := .of_eq rfl rfl fun _ _ _ => rfl
  have kept : ∀ request, store.Holds request → (store.answer call).2.Holds request :=
    fun request held => held.of_kept permitted.kept
  cases call with
  | save request =>
      rcases permitted with ⟨draws, input, isCreate, isId, new⟩
      rcases store.save_cases request with ⟨key, refused, _⟩ | ⟨refused, _⟩ | ⟨saved, _⟩
      · rw [Store.answer, refused]
        exact unchanged
      · rw [Store.answer, refused]
        exact unchanged
      · rw [Store.answer, saved]
        rw [Store.answer, saved] at kept
        refine .update kept ?_
        intro draws' input' isOther _ sameId
        have sameUuid : draws'.uuid = draws.uuid := Uuid.text_injective (sameId.symm.trans isId)
        refine different (fresh.drawn other index draws.uuid ?_ ?_)
        · rw [isOther, drawn?, sameUuid]
        · rw [isCreate, drawn?]
  | update request =>
      refine .update kept ?_
      intro draws input _ new sameId
      rcases permitted with ⟨stored, storedMem, same⟩
      exact KeyedTable.find?_eq_none_iff.mp new stored storedMem (same.1.trans sameId)
  | markEventProcessed eventId processingRequestId =>
      refine ⟨fun _ holds => holds, fun recordedId recorded => ?_, fun draws input isCreate =>
        ⟨fun new => new, fun unrecorded => ?_, rfl⟩⟩
      · exact (Store.hasEventBeenProcessed_mark _ _ _ _).trans (by rw [recorded, Bool.or_true])
      · have notOwn : eventId ≠ input.eventId := fun same =>
          different (fresh.events other draws input isCreate index
            (permitted.symm.trans same)).symm
        refine (Store.hasEventBeenProcessed_mark _ _ _ _).trans ?_
        rw [unrecorded, decide_eq_false notOwn, Bool.or_false]
  | add route payload =>
      refine .of_eq rfl rfl fun draws input isCreate => ?_
      have notOwn : ¬ (route = .videoValidationRequested ∧
          payload.processingRequestId = draws.uuid.text) := by
        rintro ⟨isValidation, isAbout⟩
        rcases permitted isValidation with ⟨uuid, isDrawn, isAbout'⟩
        have sameUuid : draws.uuid = uuid := Uuid.text_injective (isAbout.symm.trans isAbout')
        refine different (fresh.drawn other index uuid ?_ isDrawn)
        rw [isCreate, drawn?, sameUuid]
      exact (Store.validations_add _ _ _ _).trans (by rw [if_neg notOwn, List.append_nil])
  | _ => exact unchanged

theorem sound_creation [DecidableEq ι] (fresh : Fresh operations initial) :
    (contract operations initial).Sound where
  answer_invariant := by
    intro choice index shared locals call reply shared' own grown answered permitted
    cases answered
    exact grown.answer permitted
  answer_rely := by
    intro choice index shared locals call reply shared' own unique answered permitted
    cases answered
    exact fun other different => permitted.tolerates fresh different
  environment_invariant := by
    intro event
    exact event.elim
  environment_rely := by
    intro event
    exact event.elim

end Sound

end InMemory

end ProcessingCatalog
