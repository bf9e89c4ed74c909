import ProcessingCatalog.InMemory.Contract

/-!
# Creation is exactly once without a database

Creates and events over the maps of one process, interleaved at every await.
The lookups of a create may all miss and still come too late; then the insert is
refused, and the create reads the winner back, which is still there. Whichever
of the creates of an upload wins, all of them answer the one request it stored.
-/

namespace ProcessingCatalog

open Effect CreateProcessingRequestUseCase

namespace InMemory

/-- How a create ends, of the request it stores and of the requests it meets. -/
def CreateEnded (draws : Draws) (input : Input) (store : Store) : Except Thrown Result → Prop
  | .ok ⟨request, .created⟩ =>
      (∃ correlationId, checked input = .ok correlationId ∧
          request = (requestRow draws input correlationId).toDomain) ∧
        store.Holds request ∧ store.hasEventBeenProcessed input.eventId = true ∧
        store.validations draws.uuid.text =
          [⟨.videoValidationRequested, validationRequested input request⟩]
  | .ok ⟨request, .replayed⟩ =>
      request.ownerUserId = input.ownerUserId ∧
        request.sourceStorageKey = input.sourceStorageKey ∧ store.Holds request ∧
        store.Untouched draws input
  | .error error =>
      store.Untouched draws input ∧ (Invalid draws input error ∨
        error = .idempotencyConflictError ∧ ∃ bound, store.Holds bound ∧
          bound.ownerUserId = input.ownerUserId ∧
          bound.idempotencyKey = some input.idempotencyKey ∧
          bound.sourceStorageKey ≠ input.sourceStorageKey)

/-- An assertion that the other operations leave true. -/
def Persistent (operation : Operation) (assertion : Store → Prop) : Prop :=
  ∀ store store', Tolerates operation store store' → assertion store → assertion store'

section Verified

variable {ι : Type} {operations : ι → Operation} {initial : Store} {index : ι}
  {operation : Operation} {draws : Draws} {input : Input}

theorem Persistent.and {left right : Store → Prop} (leftKept : Persistent operation left)
    (rightKept : Persistent operation right) :
    Persistent operation fun store => left store ∧ right store :=
  fun _ _ tolerated holds =>
    ⟨leftKept _ _ tolerated holds.1, rightKept _ _ tolerated holds.2⟩

theorem persistent_const (operation : Operation) (fact : Prop) :
    Persistent operation fun _ => fact :=
  fun _ _ _ holds => holds

theorem persistent_holds (operation : Operation) (request : ProcessingRequest) :
    Persistent operation fun store => store.Holds request :=
  fun _ _ tolerated => tolerated.kept request

theorem persistent_untouched (isCreate : operation = .create draws input) :
    Persistent operation fun store => store.Untouched draws input := by
  intro store store' tolerated untouched
  rcases tolerated.create draws input isCreate with ⟨request, event, validations⟩
  exact ⟨request untouched.request, event untouched.event, validations.trans untouched.validations⟩

/-- What is asserted once a call is answered may depend on the reply. -/
theorem follows_call {α : Type} {call : Call} {resume : call.Reply → Computation signature α}
    {leaf : Except Thrown α → Option ProcessingRequest → (Store → Prop) → Prop}
    {assertion : Store → Prop} {own : Option ProcessingRequest}
    (permitted : ∀ store, assertion store → Permitted (operations index) store call)
    (next : call.Reply → Store → Prop)
    (persistent : ∀ reply, Persistent (operations index) (next reply))
    (established : ∀ store, assertion store → next (store.answer call).1 (store.answer call).2)
    (rest : ∀ reply own, (contract operations initial).Follows index leaf (resume reply) own
      (next reply)) :
    (contract operations initial).Follows index leaf (.call call resume) own assertion := by
  intro choice store locals reply store' own' unique _ holds answered
  cases answered
  exact ⟨permitted store holds, _, persistent _, established store holds, rest _ _⟩

/-- A read is permitted, and leaves the maps as they are. -/
theorem follows_read {α : Type} {call : Call} {resume : call.Reply → Computation signature α}
    {leaf : Except Thrown α → Option ProcessingRequest → (Store → Prop) → Prop}
    {assertion : Store → Prop} {own : Option ProcessingRequest}
    (permitted : ∀ store, Permitted (operations index) store call)
    (unchanged : ∀ store : Store, (store.answer call).2 = store)
    (next : call.Reply → Store → Prop)
    (persistent : ∀ reply, Persistent (operations index) (next reply))
    (established : ∀ store, assertion store → next (store.answer call).1 store)
    (rest : ∀ reply own, (contract operations initial).Follows index leaf (resume reply) own
      (next reply)) :
    (contract operations initial).Follows index leaf (.call call resume) own assertion := by
  refine follows_call (fun store _ => permitted store) next persistent (fun store holds => ?_) rest
  rw [unchanged]
  exact established store holds

/-- An event records itself. -/
theorem follows_mark {event : LifecycleEvent} (isEvent : (operations index).event? = some event)
    (processingRequestId : Option JsString) (result : ProcessingRequest)
    {own : Option ProcessingRequest} {assertion : Store → Prop} :
    (contract operations initial).Follows index (fun _ _ _ => True)
      (do
        repository.markEventProcessed event.eventId processingRequestId
        return result) own assertion := by
  refine follows_call (fun _ _ => Operation.eventId_of_event isEvent) (fun _ _ => True) ?_ ?_ ?_
  · exact fun _ => persistent_const _ _
  · exact fun _ _ => trivial
  · exact fun _ _ => trivial

/-- What an event writes of the request it read keeps the identity of that request. -/
theorem follows_handleLocked {event : LifecycleEvent}
    (isEvent : (operations index).event? = some event) (request : ProcessingRequest)
    (own : Option ProcessingRequest) :
    (contract operations initial).Follows index (fun _ _ _ => True)
      (event.handleLocked ⟨repository, outboxWriter⟩ request) own
      fun store => store.Holds request := by
  unfold LifecycleEvent.handleLocked
  cases decided : event.decide request with
  | error error => trivial
  | ok decision =>
      cases decision with
      | noted => exact follows_mark isEvent _ _
      | applied updated entry =>
          have same : request.SameIdentity updated := (event.lawful decided).1
          have updates : ∀ store : Store, store.Holds request →
              Permitted (operations index) store (.update updated) := by
            rintro store ⟨stored, storedMem, isStored⟩
            exact ⟨stored, storedMem, same.symm.trans isStored⟩
          cases entry with
          | none =>
              refine follows_call updates (fun _ _ => True) ?_ ?_ ?_
              · exact fun _ => persistent_const _ _
              · exact fun _ _ => trivial
              · exact fun _ _ => follows_mark isEvent _ _
          | some entry =>
              rcases entry with ⟨route, payload⟩
              refine follows_call updates (fun _ _ => True) ?_ ?_ ?_
              · exact fun _ => persistent_const _ _
              · exact fun _ _ => trivial
              · intro _ _
                refine follows_call ?_ (fun _ _ => True) ?_ ?_ ?_
                · exact fun _ _ isValidation =>
                    absurd isValidation (Operation.route_ne_of_applied isEvent decided)
                · exact fun _ => persistent_const _ _
                · exact fun _ _ => trivial
                · exact fun _ _ => follows_mark isEvent _ _

/-- The transaction of an event writes of the request it reads in it. -/
theorem follows_transaction {event : LifecycleEvent}
    (isEvent : (operations index).event? = some event) (own : Option ProcessingRequest) :
    (contract operations initial).Follows index (fun _ _ _ => True)
      (unitOfWork.runInTransaction fun ctx => do
        let some request ← ctx.requests.findForUpdate event.processingRequestId
          | throw (processingRequestNotFound event.processingRequestId)
        if ← ctx.requests.hasEventBeenProcessed event.eventId then
          return request
        event.handleLocked ctx request) own fun _ => True := by
  refine follows_read (fun _ => trivial) (fun _ => rfl)
    (fun reply store => ∀ request, reply = some request → store.Holds request) ?_ ?_ ?_
  · exact fun _ _ _ tolerated held request isReply => tolerated.kept request (held request isReply)
  · exact fun _ _ _ found => .of_mem (KeyedTable.mem_of_find? found)
  · rintro (_ | request) own
    · trivial
    · refine follows_read (fun _ => trivial) (fun _ => rfl) (fun _ store => store.Holds request)
        ?_ ?_ ?_
      · exact fun _ => persistent_holds _ _
      · exact fun _ held => held request rfl
      · rintro (_ | _) own
        · exact follows_handleLocked isEvent request own
        · trivial

/-- An event asks only for what it may ask. -/
theorem follows_event {event : LifecycleEvent}
    (isEvent : (operations index).event? = some event) (own : Option ProcessingRequest) :
    (contract operations initial).Follows index (fun _ _ _ => True)
      (event.handle repository unitOfWork) own fun _ => True := by
  cases valid : event.refusal with
  | some error =>
      rw [LifecycleEvent.handle_of_refusal valid]
      trivial
  | none =>
      rw [LifecycleEvent.handle_of_valid valid]
      refine follows_read (fun _ => trivial) (fun _ => rfl) (fun _ _ => True) ?_ ?_ ?_
      · exact fun _ => persistent_const _ _
      · exact fun _ _ => trivial
      · rintro (_ | _) own
        · exact follows_transaction isEvent own
        · refine follows_read (fun _ => trivial) (fun _ => rfl) (fun _ _ => True) ?_ ?_ ?_
          · exact fun _ => persistent_const _ _
          · exact fun _ _ => trivial
          · rintro (_ | existing) own
            · exact follows_transaction isEvent own
            · trivial

/-- Another request of the owner, of the maps or of a moment ago. -/
structure Store.Meets (store : Store) (input : Input) (request : ProcessingRequest) : Prop where
  holds : store.Holds request
  owner : request.ownerUserId = input.ownerUserId

theorem persistent_meets (operation : Operation) (request : ProcessingRequest) :
    Persistent operation fun store => store.Meets input request :=
  fun _ _ tolerated meets => ⟨tolerated.kept request meets.holds, meets.owner⟩

theorem Store.meets_of_findByKey {store : Store} {bound : ProcessingRequest}
    (found : store.findByOwnerAndIdempotencyKey input.ownerUserId input.idempotencyKey =
      some bound) :
    store.Meets input bound ∧ bound.idempotencyKey = some input.idempotencyKey := by
  rcases List.mem_filter.mp (List.mem_of_find?_eq_some found) with ⟨boundMem, owns⟩
  exact ⟨⟨.of_mem boundMem, of_decide_eq_true owns⟩,
    of_decide_eq_true (List.find?_some found :)⟩

theorem Store.meets_of_findBySource {store : Store} {known : ProcessingRequest}
    (found : store.findByOwnerAndSource input.ownerUserId input.sourceStorageKey = some known) :
    store.Meets input known ∧ known.sourceStorageKey = input.sourceStorageKey := by
  rcases List.mem_filter.mp (List.mem_of_find?_eq_some found) with ⟨knownMem, owns⟩
  exact ⟨⟨.of_mem knownMem, of_decide_eq_true owns⟩, of_decide_eq_true (List.find?_some found :)⟩

/-- A create that met a request under its key ends with it, or in conflict with its source. -/
theorem createEnded_replay {store : Store} {bound : ProcessingRequest}
    (untouched : store.Untouched draws input) (met : store.Meets input bound)
    (key : bound.idempotencyKey = some input.idempotencyKey) :
    CreateEnded draws input store (replay bound input) := by
  unfold replay
  split
  · next other => exact ⟨untouched, .inr ⟨rfl, bound, met.holds, met.owner, key, other⟩⟩
  · next same => exact ⟨met.owner, not_not.mp same, met.holds, untouched⟩

theorem verified_replay {bound : ProcessingRequest} {own : Option ProcessingRequest}
    {assertion : Store → Prop}
    (met : ∀ store, assertion store → store.Untouched draws input ∧ store.Meets input bound ∧
      bound.idempotencyKey = some input.idempotencyKey) :
    (contract operations initial).Verified index
      (fun outcome _ store => CreateEnded draws input store outcome)
      (.ofExcept (replay bound input)) own assertion := by
  refine Discipline.follows_ofExcept.mpr fun store holds => ?_
  rcases met store holds with ⟨untouched, meets, key⟩
  exact createEnded_replay untouched meets key

/-- A request that is met under a key is found under it. -/
theorem Store.findByKey_isSome {store : Store} {winner : ProcessingRequest}
    (met : store.Meets input winner)
    (key : winner.idempotencyKey = some input.idempotencyKey) :
    store.findByOwnerAndIdempotencyKey input.ownerUserId input.idempotencyKey ≠ none := by
  rcases met.holds with ⟨stored, storedMem, _, owner, _, _, sameKey, _⟩
  intro missing
  refine List.find?_eq_none.mp missing stored (List.mem_filter.mpr ⟨storedMem, ?_⟩) ?_
  · exact decide_eq_true (owner.trans met.owner)
  · exact decide_eq_true (sameKey.trans key)

theorem Store.findBySource_isSome {store : Store} {winner : ProcessingRequest}
    (met : store.Meets input winner)
    (source : winner.sourceStorageKey = input.sourceStorageKey) :
    store.findByOwnerAndSource input.ownerUserId input.sourceStorageKey ≠ none := by
  rcases met.holds with ⟨stored, storedMem, _, owner, _, sameSource, _⟩
  intro missing
  refine List.find?_eq_none.mp missing stored (List.mem_filter.mpr ⟨storedMem, ?_⟩) ?_
  · exact decide_eq_true (owner.trans met.owner)
  · exact decide_eq_true (sameSource.trans source)

/-- A request that a call without a trace has read back stays one that meets its input. -/
theorem persistent_found (isCreate : operation = .create draws input)
    (isBound : ProcessingRequest → Prop) (reply : Option ProcessingRequest) :
    Persistent operation fun store => reply ≠ none ∧ store.Untouched draws input ∧
      ∀ bound, reply = some bound → store.Meets input bound ∧ isBound bound := by
  refine (persistent_const _ _).and ((persistent_untouched isCreate).and ?_)
  intro _ _ tolerated met bound found
  exact ⟨persistent_meets _ _ _ _ tolerated (met bound found).1, (met bound found).2⟩

/-- A create whose insert was refused for its key reads the winner back: it is still there. -/
theorem verified_lostKey (isCreate : operations index = .create draws input)
    {own : Option ProcessingRequest} {owner key : JsString} :
    (contract operations initial).Verified index
      (fun outcome _ store => CreateEnded draws input store outcome)
      (lostRace repository input (.duplicateIdempotencyKeyError owner key)) own
      fun store => store.Untouched draws input ∧ ∃ winner, store.Meets input winner ∧
        winner.idempotencyKey = some input.idempotencyKey := by
  refine follows_read (fun _ => trivial) (fun _ => rfl) (fun reply store =>
    reply ≠ none ∧ store.Untouched draws input ∧ ∀ bound, reply = some bound →
      store.Meets input bound ∧ bound.idempotencyKey = some input.idempotencyKey) ?_ ?_ ?_
  · exact persistent_found isCreate _
  · rintro store ⟨untouched, winner, met, key⟩
    exact ⟨Store.findByKey_isSome met key, untouched, fun _ found => Store.meets_of_findByKey found⟩
  · rintro (_ | bound) own
    · exact fun _ holds => (holds.1 rfl).elim
    · exact verified_replay fun _ holds => ⟨holds.2.1, holds.2.2 bound rfl⟩

theorem verified_lostSource (isCreate : operations index = .create draws input)
    {own : Option ProcessingRequest} {owner source : JsString} :
    (contract operations initial).Verified index
      (fun outcome _ store => CreateEnded draws input store outcome)
      (lostRace repository input (.duplicateSourceError owner source)) own
      fun store => store.Untouched draws input ∧ ∃ winner, store.Meets input winner ∧
        winner.sourceStorageKey = input.sourceStorageKey := by
  refine follows_read (fun _ => trivial) (fun _ => rfl) (fun reply store =>
    reply ≠ none ∧ store.Untouched draws input ∧ ∀ known, reply = some known →
      store.Meets input known ∧ known.sourceStorageKey = input.sourceStorageKey) ?_ ?_ ?_
  · exact persistent_found isCreate _
  · rintro store ⟨untouched, winner, met, source⟩
    exact ⟨Store.findBySource_isSome met source, untouched,
      fun _ found => Store.meets_of_findBySource found⟩
  · rintro (_ | known) own
    · exact fun _ holds => (holds.1 rfl).elim
    · intro store holds
      rcases holds.2.2 known rfl with ⟨met, sameSource⟩
      exact ⟨met.owner, sameSource, met.holds, holds.2.1⟩

/-- What `save` tells a create: its request is stored, or another one is in its place. -/
def Saved (draws : Draws) (input : Input) (request : ProcessingRequest) :
    Except Thrown Unit → Store → Prop
  | .ok (), store => store.Holds request ∧ store.validations draws.uuid.text = []
  | .error (.duplicateIdempotencyKeyError _ _), store =>
      store.Untouched draws input ∧ ∃ winner, store.Meets input winner ∧
        winner.idempotencyKey = some input.idempotencyKey
  | .error (.duplicateSourceError _ _), store =>
      store.Untouched draws input ∧ ∃ winner, store.Meets input winner ∧
        winner.sourceStorageKey = input.sourceStorageKey
  | .error _, _ => False

theorem persistent_saved (isCreate : operation = .create draws input)
    (request : ProcessingRequest) (reply : Except Thrown Unit) :
    Persistent operation (Saved draws input request reply) := by
  intro store store' tolerated saved
  have untouched := persistent_untouched isCreate store store' tolerated
  cases reply with
  | ok =>
      exact ⟨tolerated.kept request saved.1,
        (tolerated.create draws input isCreate).2.2.trans saved.2⟩
  | error error =>
      cases error with
      | duplicateIdempotencyKeyError owner key =>
          rcases saved with ⟨none, winner, met, sameKey⟩
          exact ⟨untouched none, winner, persistent_meets _ _ _ _ tolerated met, sameKey⟩
      | duplicateSourceError owner source =>
          rcases saved with ⟨none, winner, met, sameSource⟩
          exact ⟨untouched none, winner, persistent_meets _ _ _ _ tolerated met, sameSource⟩
      | _ => exact saved

theorem saved_of_untouched {store : Store} {request : ProcessingRequest}
    (untouched : store.Untouched draws input) (owner : request.ownerUserId = input.ownerUserId)
    (source : request.sourceStorageKey = input.sourceStorageKey)
    (key : request.idempotencyKey = some input.idempotencyKey) :
    Saved draws input request (store.save request).1 (store.save request).2 := by
  rcases store.save_cases request with
    ⟨taken, refused, isKey, bound, boundMem, owns, sameKey⟩ |
    ⟨refused, known, knownMem, owns, sameSource⟩ | ⟨saved, _⟩
  · rw [refused]
    exact ⟨untouched, bound, ⟨.of_mem boundMem, owns.trans owner⟩,
      sameKey.trans (isKey.symm.trans key)⟩
  · rw [refused]
    exact ⟨untouched, known, ⟨.of_mem knownMem, owns.trans owner⟩, sameSource.trans source⟩
  · rw [saved]
    exact ⟨.of_mem (KeyedTable.mem_upsert.mpr (.inl rfl)), untouched.validations⟩

/-- The insert of a create stores its request, or the create reads the winner back. -/
theorem verified_insertion (isCreate : operations index = .create draws input)
    {correlationId : Option JsString} (valid : checked input = .ok correlationId)
    (own : Option ProcessingRequest) :
    (contract operations initial).Verified index
      (fun outcome _ store => CreateEnded draws input store outcome)
      (tryCatch
        (do
          unitOfWork.runInTransaction
            (insertion input (requestRow draws input correlationId).toDomain)
          return ⟨(requestRow draws input correlationId).toDomain, .created⟩)
        (lostRace repository input)) own fun store => store.Untouched draws input := by
  apply Discipline.follows_tryCatch.mpr
  refine follows_call ?_ (Saved draws input (requestRow draws input correlationId).toDomain)
    ?_ ?_ ?_
  · exact fun _ untouched => ⟨draws, input, isCreate, rfl, untouched.request⟩
  · exact persistent_saved isCreate _
  · exact fun _ untouched => saved_of_untouched untouched rfl rfl rfl
  · rintro (error | ⟨⟩) own
    · cases error with
      | duplicateIdempotencyKeyError owner key => exact verified_lostKey isCreate
      | duplicateSourceError owner source => exact verified_lostSource isCreate
      | _ => exact fun _ impossible => impossible.elim
    · refine follows_call ?_ (fun _ store =>
        store.Holds (requestRow draws input correlationId).toDomain ∧
        store.validations draws.uuid.text = [⟨.videoValidationRequested,
          validationRequested input (requestRow draws input correlationId).toDomain⟩]) ?_ ?_ ?_
      · exact fun _ _ _ => ⟨draws.uuid, by rw [isCreate, drawn?], rfl⟩
      · refine fun _ => (persistent_holds _ _).and fun _ _ tolerated only => ?_
        exact (tolerated.create draws input isCreate).2.2.trans only
      · rintro store ⟨held, none⟩
        refine ⟨held, (Store.validations_add _ _ _ _).trans ?_⟩
        rw [none, if_pos ⟨rfl, rfl⟩, List.nil_append]
      · intro _ own
        refine follows_call ?_ (fun _ store =>
          store.Holds (requestRow draws input correlationId).toDomain ∧
          store.hasEventBeenProcessed input.eventId = true ∧
          store.validations draws.uuid.text = [⟨.videoValidationRequested,
            validationRequested input (requestRow draws input correlationId).toDomain⟩]) ?_ ?_ ?_
        · exact fun _ _ => by rw [isCreate]; rfl
        · refine fun _ => (persistent_holds _ _).and (Persistent.and ?_ ?_)
          · exact fun _ _ tolerated recorded => tolerated.recorded _ recorded
          · exact fun _ _ tolerated only =>
              (tolerated.create draws input isCreate).2.2.trans only
        · rintro store ⟨held, only⟩
          refine ⟨held, ?_, only⟩
          exact (Store.hasEventBeenProcessed_mark _ _ _ _).trans (by simp)
        · exact fun _ _ _ holds => ⟨⟨correlationId, valid, rfl⟩, holds⟩

/-- A create ends as it may end, whatever the others do meanwhile. -/
theorem verified_create (isCreate : operations index = .create draws input)
    (own : Option ProcessingRequest) :
    (contract operations initial).Verified index
      (fun outcome _ store => CreateEnded draws input store outcome)
      (execute repository unitOfWork draws input) own fun store => store.Untouched draws input := by
  have untouched := persistent_untouched isCreate
  unfold Discipline.Verified execute
  cases noEventId : isBlank input.eventId with
  | true => exact fun _ untouched => ⟨untouched, .inl (.inl (by simp [checked, noEventId]))⟩
  | false =>
  cases noKey : isBlank input.idempotencyKey with
  | true => exact fun _ untouched => ⟨untouched, .inl (.inl (by simp [checked, noEventId, noKey]))⟩
  | false =>
  simp only [Bool.false_eq_true, if_false]
  cases correlation : validCorrelationId input.correlationId with
  | error error =>
      exact fun _ untouched =>
        ⟨untouched, .inl (.inl (by simp [checked, noEventId, noKey, correlation]))⟩
  | ok correlationId =>
  have valid : checked input = .ok correlationId := by
    simp [checked, noEventId, noKey, correlation]
  simp only [Program.ofExcept_ok, Program.pure_bind]
  refine follows_read (fun _ => trivial) (fun _ => rfl)
    (fun reply store => reply = none ∧ store.Untouched draws input) ?_ ?_ ?_
  · exact fun _ => (persistent_const _ _).and untouched
  · intro store untouched
    have unlinked : store.eventIdToRequestId.find? input.eventId = none :=
      Option.isNone_iff_eq_none.mp (Option.isSome_eq_false_iff.mp untouched.event)
    exact ⟨by rw [Store.answer, Store.findByEventId, unlinked]; rfl, untouched⟩
  · rintro (_ | existing) own
    rotate_left
    · exact fun _ holds => (Option.some_ne_none _ holds.1).elim
    cases requested : requestOf draws input correlationId with
    | error error =>
        have isError := requested
        unfold requestOf at requested
        rw [requested]
        exact fun _ holds => ⟨holds.2, .inl (.inr ⟨correlationId, valid, isError⟩)⟩
    | ok request =>
    obtain rfl := eq_toDomain_of_requestOf requested
    unfold requestOf at requested
    rw [requested]
    simp only [Program.ofExcept_ok, Program.pure_bind]
    refine follows_read (fun _ => trivial) (fun _ => rfl) (fun reply store =>
      store.Untouched draws input ∧ ∀ bound, reply = some bound →
        store.Meets input bound ∧ bound.idempotencyKey = some input.idempotencyKey) ?_ ?_ ?_
    · refine fun reply => untouched.and fun _ _ tolerated met bound isBound => ?_
      exact ⟨persistent_meets _ _ _ _ tolerated (met bound isBound).1, (met bound isBound).2⟩
    · exact fun _ holds => ⟨holds.2, fun _ found => Store.meets_of_findByKey found⟩
    rintro (_ | bound) own
    rotate_left
    · exact verified_replay fun _ holds => ⟨holds.1, holds.2 bound rfl⟩
    refine follows_read (fun _ => trivial) (fun _ => rfl) (fun reply store =>
      store.Untouched draws input ∧ ∀ known, reply = some known →
        store.Meets input known ∧ known.sourceStorageKey = input.sourceStorageKey) ?_ ?_ ?_
    · refine fun reply => untouched.and fun _ _ tolerated met known isKnown => ?_
      exact ⟨persistent_meets _ _ _ _ tolerated (met known isKnown).1, (met known isKnown).2⟩
    · exact fun _ holds => ⟨holds.1, fun _ found => Store.meets_of_findBySource found⟩
    rintro (_ | known) own
    rotate_left
    · intro store holds
      rcases holds.2 known rfl with ⟨met, source⟩
      exact ⟨met.owner, source, met.holds, holds.1⟩
    exact (verified_insertion isCreate valid own).weaken
      (fun entails met store holds => met store (entails store holds)) fun _ holds => holds.1

end Verified

/-! ## Runs -/

/-- What creates and events leave behind, and what the creates have answered. -/
structure CreatedOnce {ι : Type} (operations : ι → Operation) (initial : Store)
    (world : World ι) : Prop where
  grown : Store.Grown operations initial world.shared
  answered : ∀ index draws input outcome, operations index = .create draws input →
    world.programs index = .ofExcept outcome →
    ∃ result, outcome = result.map .result ∧ CreateEnded draws input world.shared result
  /-- A request that is new has been created by the call that answers so. -/
  created : ∀ request ∈ world.shared.requests,
    initial.requests.find? request.processingRequestId = none →
    ∃ index draws input, operations index = .create draws input ∧
      request.processingRequestId = draws.uuid.text ∧
      ∀ outcome, world.programs index = .ofExcept outcome →
        ∃ answered, outcome = .ok (.result ⟨answered, .created⟩) ∧ answered.SameIdentity request
  /-- All that answer an upload name one request, and one of them at most has created it. -/
  agreed : ∀ left right draws input draws' input' result result',
    operations left = .create draws input → operations right = .create draws' input' →
    world.programs left = .pure (.result result) →
    world.programs right = .pure (.result result') →
    input.ownerUserId = input'.ownerUserId → input.sourceStorageKey = input'.sourceStorageKey →
    result.request.processingRequestId = result'.request.processingRequestId ∧
      (result.outcome = .created → result'.outcome = .created → left = right)

section Runs

variable {ι : Type} {operations : ι → Operation} {initial : Store} {world : World ι}

/-- A create that is answered is answered with a stored request of its upload. -/
theorem CreateEnded.of_ok {draws : Draws} {input : Input} {store : Store} {result : Result}
    (how : CreateEnded draws input store (.ok result)) :
    result.request.ownerUserId = input.ownerUserId ∧
      result.request.sourceStorageKey = input.sourceStorageKey ∧ store.Holds result.request ∧
      (result.outcome = .created → result.request.processingRequestId = draws.uuid.text) := by
  rcases result with ⟨request, _ | _⟩
  · rcases how with ⟨⟨correlationId, _, isRequest⟩, held, _⟩
    subst isRequest
    exact ⟨rfl, rfl, held, fun _ => rfl⟩
  · exact ⟨how.1, how.2.1, how.2.2.1, nofun⟩

/-- How an operation may end. -/
def Ended (operation : Operation) (outcome : Except Thrown Answer) (store : Store) : Prop :=
  ∀ draws input, operation = .create draws input →
    ∃ result, outcome = result.map .result ∧ CreateEnded draws input store result

/-- What an operation relies on before its first step. -/
def Awaited (operation : Operation) (store : Store) : Prop :=
  ∀ draws input, operation = .create draws input → store.Untouched draws input

theorem verified_operation (index : ι) (own : Option ProcessingRequest) :
    (contract operations initial).Verified index
      (fun outcome _ store => Ended (operations index) outcome store)
      ((operations index).execute repository unitOfWork) own (Awaited (operations index)) := by
  unfold Discipline.Verified
  rcases (operations index).create_or_event with ⟨draws, input, isCreate⟩ | ⟨event, isEvent⟩
  · have program : (operations index).execute repository unitOfWork =
        Answer.result <$> execute repository unitOfWork draws input := by
      rw [isCreate, Operation.execute]
    rw [program, map_eq_pure_bind, Discipline.follows_bind]
    have verified : (contract operations initial).Verified index
        (fun outcome _ store => CreateEnded draws input store outcome)
        (execute repository unitOfWork draws input) own (Awaited (operations index)) :=
      (verified_create isCreate own).weaken
        (fun entails met store holds => met store (entails store holds))
        fun store awaited => awaited draws input isCreate
    refine verified.mono fun outcome own assertion met => ?_
    cases outcome with
    | ok result =>
        intro store holds draws' input' isCreate'
        cases isCreate.symm.trans isCreate'
        exact ⟨.ok result, rfl, met store holds⟩
    | error error =>
        intro store holds draws' input' isCreate'
        cases isCreate.symm.trans isCreate'
        exact ⟨.error error, rfl, met store holds⟩
  · have noCreate : ∀ outcome store, Ended (operations index) outcome store := by
      intro outcome store draws input isCreate
      rw [isCreate] at isEvent
      cases isEvent
    rw [Operation.execute_of_event isEvent, map_eq_pure_bind, Discipline.follows_bind]
    have followed : (contract operations initial).Follows index (fun _ _ _ => True)
        (event.handle repository unitOfWork) own (Awaited (operations index)) :=
      (follows_event isEvent own).weaken (fun _ _ => trivial) fun _ _ => trivial
    refine followed.mono fun outcome own assertion _ => ?_
    cases outcome with
    | ok request => exact fun store _ => noCreate _ store
    | error error => exact fun store _ => noCreate _ store

theorem holds_start (unique : initial.Unique) (fresh : Fresh operations initial) :
    (contract operations initial).Holds
      (fun index outcome _ store => Ended (operations index) outcome store)
      (start operations initial) := by
  refine ⟨⟨unique, fun _ => id, fun request requestMem => .inl ?_⟩, fun index =>
    ⟨Awaited (operations index), ?_, fresh.untouched index, verified_operation index none⟩⟩
  · exact Option.isSome_iff_exists.mpr ⟨request, KeyedTable.find?_key requestMem⟩
  · exact fun store store' tolerated awaited draws input isCreate =>
      persistent_untouched isCreate store store' tolerated (awaited draws input isCreate)

variable [DecidableEq ι]

/-- Among any creates and events over the maps of one process, interleaved at every await: each
upload is created once, by the call that says so, and everyone else who is answered is given that
request, although nothing locks the maps between a lookup and the insert. -/
theorem creates_once_in_memory (unique : initial.Unique) (fresh : Fresh operations initial)
    (reached : Machine.Reaches (start operations initial) world) :
    CreatedOnce operations initial world := by
  have holds := (holds_start unique fresh).reaches (sound_creation fresh) reached
  have grown : Store.Grown operations initial world.shared := holds.1
  have answered : ∀ index draws input outcome, operations index = .create draws input →
      world.programs index = .ofExcept outcome →
      ∃ result, outcome = result.map .result ∧ CreateEnded draws input world.shared result :=
    fun index draws input outcome isCreate ended => holds.ended ended draws input isCreate
  refine ⟨grown, answered, ?_, ?_⟩
  · intro request requestMem new
    rcases grown.origin request requestMem with old | ⟨index, draws, input, isCreate, isId⟩
    · rw [new] at old
      cases old
    refine ⟨index, draws, input, isCreate, isId, fun outcome ended => ?_⟩
    have stored : world.shared.requests.find? draws.uuid.text = some request :=
      isId ▸ KeyedTable.find?_key requestMem
    rcases answered index draws input outcome isCreate ended with ⟨result, rfl, how⟩
    rcases result with error | ⟨answer, _ | _⟩
    · cases how.1.request.symm.trans stored
    · have isDrawn : answer.processingRequestId = draws.uuid.text := how.of_ok.2.2.2 rfl
      exact ⟨answer, rfl, how.2.1.sameIdentity requestMem (isId.trans isDrawn.symm)⟩
    · cases how.2.2.2.request.symm.trans stored
  · intro left right draws input draws' input' result result' isLeft isRight leftEnded rightEnded
      sameOwner sameSource
    rcases answered left draws input (.ok (.result result)) isLeft leftEnded with
      ⟨_ | _, same, how⟩
    · cases same
    cases same
    rcases answered right draws' input' (.ok (.result result')) isRight rightEnded with
      ⟨_ | _, same, how'⟩
    · cases same
    cases same
    rcases how.of_ok with ⟨owner, source, ⟨stored, storedMem, identity⟩, isDrawn⟩
    rcases how'.of_ok with ⟨owner', source', ⟨stored', storedMem', identity'⟩, isDrawn'⟩
    have isStored : stored = stored' := by
      refine grown.unique stored storedMem stored' storedMem' ?_ (.inl ?_)
      · exact (identity.2.1.trans (owner.trans sameOwner)).trans (identity'.2.1.trans owner').symm
      · exact (identity.2.2.2.1.trans (source.trans sameSource)).trans
          (identity'.2.2.2.1.trans source').symm
    have sameId : result.request.processingRequestId = result'.request.processingRequestId :=
      identity.1.symm.trans (isStored ▸ identity'.1)
    refine ⟨sameId, fun created created' => fresh.drawn left right draws.uuid ?_ ?_⟩
    · rw [isLeft, drawn?]
    · rw [isRight, drawn?, Uuid.text_injective
        ((isDrawn created).symm.trans (sameId.trans (isDrawn' created')))]

end Runs

/-- One upload posted twice, under different keys, and the acceptance of its video. -/
def twoPostsAndAcceptance : Fin 3 → Operation
  | 0 => .create ⟨1789953000000, .repeated 1, .repeated 2, 3000⟩
      ⟨js "e-1", js "owner", js "owner@example.com", js "uploads/a.mp4", js "key", none⟩
  | 1 => .create ⟨1789953000001, .repeated 3, .repeated 4, 3000⟩
      ⟨js "e-2", js "owner", js "owner@example.com", js "uploads/a.mp4", js "other", none⟩
  | 2 => .accept ⟨1789953060000, .repeated 5, .repeated 6, 3000⟩
      ⟨js "e-3", Uuid.text (.repeated 1), js "2026-09-21T01:11:00.000Z"⟩

theorem fresh_twoPostsAndAcceptance : Fresh twoPostsAndAcceptance .empty where
  untouched _ _ _ _ := ⟨rfl, rfl, rfl⟩
  drawn left right uuid isLeft isRight := by
    have apart : ∀ left right, drawn? (twoPostsAndAcceptance left) ≠ none →
        drawn? (twoPostsAndAcceptance left) = drawn? (twoPostsAndAcceptance right) →
        left = right := by
      decide
    exact apart left right (by simp [isLeft]) (isLeft.trans isRight.symm)
  events index draws input isCreate other same := by
    have apart : ∀ left right, (twoPostsAndAcceptance left).eventId =
        (twoPostsAndAcceptance right).eventId → left = right := by
      decide
    exact apart other index (same.trans (by rw [isCreate, Operation.eventId]))

/-- Both posts look the upload up before either has stored it. -/
theorem creates_once_in_memory_twoPosts : ∃ world : World (Fin 3),
    world.shared.requests.rows.map (·.status) = [.queued] ∧
      CreatedOnce twoPostsAndAcceptance .empty world := by
  have ran : ((Machine.runActions (start twoPostsAndAcceptance .empty)
      (inThrees [0, 1, 0] ++ List.replicate 2 (.session 1 ()) ++ inThrees [2, 2])).map fun world =>
        world.shared.requests.rows.map (·.status)) = some [.queued] := by
    decide +kernel
  rcases Option.map_eq_some_iff.mp ran with ⟨world, reached, statuses⟩
  have unique : Store.empty.Unique := fun left leftMem =>
    (KeyedTable.not_mem_empty left leftMem).elim
  exact ⟨world, statuses, creates_once_in_memory unique fresh_twoPostsAndAcceptance
    (Machine.reaches_of_runActions reached)⟩

end InMemory

end ProcessingCatalog
