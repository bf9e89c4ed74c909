import ProcessingCatalog.InMemory.Interference
import ProcessingCatalog.InMemory.Interchange
import ProcessingCatalog.Persistence.Browsing

/-!
# Browsing over the maps

Nothing holds a request between the read of an execution and its update, but an
update keeps what identifies the request that was read, and a new request comes
under an identifier of its own. So here, too, a stored request never leaves its
place in its owner's listing.
-/

namespace ProcessingCatalog

open Effect CreateProcessingRequestUseCase

namespace InMemory

/-! ## What one execution does to the requests -/

/-- What an operation may do to the stored requests: each keeps its identity, and at most the one
that the operation creates is added. -/
structure Grown (operation : Operation) (store left : Store) : Prop where
  kept : ∀ request ∈ store.requests, ∃ request' ∈ left.requests, request.SameIdentity request'
  added : ∀ request ∈ left.requests, (∃ before ∈ store.requests, request.SameIdentity before) ∨
    operation.CreatesFor request.ownerUserId ∧
      ∃ uuid, drawn? operation = some uuid ∧ request.processingRequestId = uuid.text

theorem Grown.same {operation : Operation} {store left : Store}
    (requests : left.requests = store.requests) : Grown operation store left where
  kept request requestMem := ⟨request, requests ▸ requestMem, .refl _⟩
  added request requestMem := .inl ⟨request, requests ▸ requestMem, .refl _⟩

theorem Grown.update {operation : Operation} {store : Store} {read updated : ProcessingRequest}
    (known : ∃ stored ∈ store.requests, read.SameIdentity stored)
    (same : read.SameIdentity updated) : Grown operation store (store.update updated) where
  kept request requestMem := by
    by_cases replaced : request.processingRequestId = updated.processingRequestId
    · rcases known with ⟨stored, storedMem, sameRead⟩
      have isStored : request = stored :=
        KeyedTable.eq_of_key_eq requestMem storedMem
          (replaced.trans (same.1.trans sameRead.1.symm))
      exact ⟨updated, KeyedTable.mem_upsert.mpr (.inl rfl), isStored ▸ sameRead.symm.trans same⟩
    · exact ⟨request, KeyedTable.mem_upsert.mpr (.inr ⟨requestMem, replaced⟩), .refl _⟩
  added request requestMem := by
    rcases KeyedTable.mem_upsert.mp requestMem with rfl | ⟨old, _⟩
    · rcases known with ⟨stored, storedMem, sameRead⟩
      exact .inl ⟨stored, storedMem, same.symm.trans sameRead⟩
    · exact .inl ⟨request, old, .refl _⟩

/-- A save writes the request, or nothing. -/
theorem save_cases (store : Store) (request : ProcessingRequest) :
    (store.save request).2 = store.update request ∨ (store.save request).2 = store := by
  simp only [Store.save]
  split
  · exact .inr rfl
  · split
    · exact .inr rfl
    · exact .inl rfl

theorem Grown.save {operation : Operation} {store : Store} {request : ProcessingRequest}
    (creates : operation.CreatesFor request.ownerUserId) {uuid : Uuid}
    (drawn : drawn? operation = some uuid) (named : request.processingRequestId = uuid.text)
    (unused : store.requests.find? uuid.text = none) :
    Grown operation store (store.save request).2 := by
  rcases save_cases store request with saved | refused
  · rw [saved]
    constructor
    · intro other otherMem
      have different := KeyedTable.find?_eq_none_iff.mp unused other otherMem
      exact ⟨other, KeyedTable.mem_upsert.mpr (.inr ⟨otherMem, named ▸ different⟩), .refl _⟩
    · intro other otherMem
      rcases KeyedTable.mem_upsert.mp otherMem with rfl | ⟨old, _⟩
      · exact .inr ⟨creates, uuid, drawn, named⟩
      · exact .inl ⟨other, old, .refl _⟩
  · rw [refused]
    exact .same rfl

/-! ## Every execution follows the discipline -/

variable {ι : Type}

/-- What an execution last read for update is still stored, but for what events change. -/
def Known (read : Option ProcessingRequest) (store : Store) : Prop :=
  ∀ request, read = some request → ∃ stored ∈ store.requests, request.SameIdentity stored

/-- The identifier an operation draws is not stored yet. -/
def Unused (operation : Operation) (store : Store) : Prop :=
  ∀ uuid, drawn? operation = some uuid → store.requests.find? uuid.text = none

/-- Stored requests keep their identity, and nobody uses the identifier another one draws. -/
def discipline (operations : ι → Operation) : Discipline (machine ι) where
  Invariant _ _ := True
  Rely index _ store left :=
    (∀ request ∈ store.requests, ∃ request' ∈ left.requests, request.SameIdentity request') ∧
      (Unused (operations index) store → Unused (operations index) left)
  Guarantee index _ _ store left _ := Grown (operations index) store left

/-- No two creates draw one identifier. -/
def DistinctDraws (operations : ι → Operation) : Prop :=
  ∀ index other uuid, drawn? (operations index) = some uuid →
    drawn? (operations other) = some uuid → index = other

theorem discipline_sound [DecidableEq ι] {operations : ι → Operation}
    (distinct : DistinctDraws operations) : (discipline operations).Sound where
  answer_invariant _ _ _ := trivial
  answer_rely _ _ grown other different := by
    refine ⟨grown.kept, fun unused uuid drawn => ?_⟩
    refine KeyedTable.find?_eq_none_iff.mpr fun request requestMem named => ?_
    rcases grown.added request requestMem with ⟨before, beforeMem, same⟩ | ⟨_, uuid', drawn', isId⟩
    · exact KeyedTable.find?_eq_none_iff.mp (unused uuid drawn) before beforeMem
        (same.1.trans named)
    · have sameUuid : uuid' = uuid := Uuid.text_injective (isId.symm.trans named)
      exact different (distinct other _ uuid drawn (sameUuid ▸ drawn'))
  environment_invariant {event} := nomatch event
  environment_rely {event} := nomatch event

section Rules

variable {operations : ι → Operation} {index : ι} {read : Option ProcessingRequest}

theorem stable_known : (discipline operations).Stable index read (Known read) := by
  rintro store left ⟨kept, _⟩ known request isRead
  rcases known request isRead with ⟨stored, storedMem, same⟩
  rcases kept stored storedMem with ⟨stored', storedMem', same'⟩
  exact ⟨stored', storedMem', same.trans same'⟩

theorem stable_unused :
    (discipline operations).Stable index read (Unused (operations index)) :=
  fun _ _ rely => rely.2

/-- The program of an execution, followed from an assertion to any end. -/
abbrev Keeps {α : Type} (operations : ι → Operation) (index : ι)
    (program : Computation signature α) (read : Option ProcessingRequest)
    (assertion : Store → Prop) : Prop :=
  (discipline operations).Follows index (fun _ _ _ => True) program read assertion

variable {α : Type}

/-- An execution notes only what it reads for update. -/
theorem answered_quietly {call : Call} (notLocks : ∀ text, call ≠ .findForUpdate text)
    {choice : (machine ι).Choice} {store left : Store} {reads : ι → Option ProcessingRequest}
    {reply : call.Reply} {own : Option ProcessingRequest}
    (answered : (machine ι).answer choice index store reads call = some (reply, left, own)) :
    left = (store.answer call).2 ∧ own = reads index := by
  cases call with
  | findForUpdate text => exact absurd rfl (notLocks text)
  | _ =>
      cases answered
      exact ⟨rfl, rfl⟩

/-- A call that writes at most what the operation may write. -/
theorem keeps_write {call : Call} {resume : call.Reply → Computation signature α}
    {assertion : Store → Prop} (notLocks : ∀ text, call ≠ .findForUpdate text)
    (known : ∀ store, assertion store → Known read store)
    (grown : ∀ store : Store, assertion store →
      Grown (operations index) store (store.answer call).2)
    (rest : ∀ reply, Keeps operations index (resume reply) read (Known read)) :
    Keeps operations index (.call call resume) read assertion := by
  intro choice store reads reply left own _ owns asserted answered
  rcases answered_quietly notLocks answered with ⟨rfl, rfl⟩
  subst owns
  have wrote := grown store asserted
  refine ⟨wrote, _, stable_known, ?_, rest reply⟩
  intro request isRead
  rcases known store asserted request isRead with ⟨stored, storedMem, same⟩
  rcases wrote.kept stored storedMem with ⟨stored', storedMem', same'⟩
  exact ⟨stored', storedMem', same.trans same'⟩

/-- A call that writes nothing. -/
theorem keeps_read {call : Call} {resume : call.Reply → Computation signature α}
    {assertion : Store → Prop} (notLocks : ∀ text, call ≠ .findForUpdate text)
    (reads : ∀ store : Store, (store.answer call).2 = store)
    (stable : (discipline operations).Stable index read assertion)
    (rest : ∀ reply, Keeps operations index (resume reply) read assertion) :
    Keeps operations index (.call call resume) read assertion := by
  intro choice store locals reply left own _ owns asserted answered
  rcases answered_quietly notLocks answered with ⟨rfl, rfl⟩
  subst owns
  rw [reads store]
  exact ⟨.same rfl, assertion, stable, asserted, rest reply⟩

/-- What is read for update is known from then on. -/
theorem keeps_findForUpdate {text : JsString}
    {resume : Option ProcessingRequest → Computation signature α} {assertion : Store → Prop}
    (rest : ∀ reply, Keeps operations index (resume reply) reply (Known reply)) :
    Keeps operations index (.call (.findForUpdate text) resume) read assertion := by
  intro choice store locals reply left own _ _ _ answered
  cases answered
  refine ⟨.same rfl, _, stable_known, ?_, rest _⟩
  intro request found
  exact ⟨request, KeyedTable.mem_of_find? found, .refl _⟩

theorem keeps_map {β : Type} (f : α → β) {program : Computation signature α}
    {assertion : Store → Prop} (keeps : Keeps operations index program read assertion) :
    Keeps operations index (f <$> program) read assertion := by
  refine Discipline.follows_bind.mpr (keeps.mono fun outcome _ _ _ => ?_)
  cases outcome <;> trivial

/-! ### The use cases -/

/-- Nothing that is recorded about the request read changes its identity. -/
theorem keeps_handleLocked (event : LifecycleEvent) (request : ProcessingRequest) :
    Keeps operations index (event.handleLocked ⟨repository, outboxWriter⟩ request) (some request)
      (Known (some request)) := by
  unfold LifecycleEvent.handleLocked
  cases decided : event.decide request with
  | error error => trivial
  | ok decision =>
      cases decision with
      | noted =>
          exact keeps_write (by simp) (fun _ => id) (fun _ _ => .same rfl) fun _ => trivial
      | applied updated entry =>
          have same : request.SameIdentity updated := (event.lawful decided).1
          have updates : ∀ store : Store, Known (some request) store →
              Grown (operations index) store (store.update updated) :=
            fun store known => .update (known request rfl) same
          cases entry with
          | none =>
              refine keeps_write (by simp) (fun _ => id) updates fun _ => ?_
              exact keeps_write (by simp) (fun _ => id) (fun _ _ => .same rfl) fun _ => trivial
          | some entry =>
              refine keeps_write (by simp) (fun _ => id) updates fun _ => ?_
              refine keeps_write (by simp) (fun _ => id) (fun _ _ => .same rfl) fun _ => ?_
              exact keeps_write (by simp) (fun _ => id) (fun _ _ => .same rfl) fun _ => trivial

theorem keeps_transaction (event : LifecycleEvent) {assertion : Store → Prop} :
    Keeps operations index
      (unitOfWork.runInTransaction fun ctx => do
        let some request ← ctx.requests.findForUpdate event.processingRequestId
          | throw (processingRequestNotFound event.processingRequestId)
        if ← ctx.requests.hasEventBeenProcessed event.eventId then
          return request
        event.handleLocked ctx request) read assertion := by
  refine keeps_findForUpdate fun reply => ?_
  cases reply with
  | none => trivial
  | some request =>
      refine keeps_read (by simp) (fun _ => rfl) stable_known fun duplicate => ?_
      cases duplicate with
      | true => trivial
      | false => exact keeps_handleLocked event request

theorem keeps_handle (event : LifecycleEvent) :
    Keeps operations index (event.handle repository unitOfWork) none (Known none) := by
  cases valid : event.refusal with
  | some error =>
      rw [LifecycleEvent.handle_of_refusal valid]
      trivial
  | none =>
      rw [LifecycleEvent.handle_of_valid valid]
      refine keeps_read (by simp) (fun _ => rfl) stable_known fun duplicate => ?_
      cases duplicate with
      | false => exact keeps_transaction event
      | true =>
          refine keeps_read (by simp) (fun _ => rfl) stable_known fun existing => ?_
          cases existing with
          | none => exact keeps_transaction event
          | some existing => trivial

/-- A create that lost its race only reads. -/
theorem keeps_lostRace (input : Input) (error : Thrown) :
    Keeps operations index (lostRace repository input error) read (Known read) := by
  cases error with
  | duplicateSourceError owner source =>
      refine keeps_read (by simp) (fun _ => rfl) stable_known fun winner => ?_
      cases winner <;> trivial
  | duplicateIdempotencyKeyError owner key =>
      refine keeps_read (by simp) (fun _ => rfl) stable_known fun winner => ?_
      cases winner with
      | none => trivial
      | some winner =>
          refine Discipline.follows_ofExcept.mpr ?_
          trivial
  | _ => trivial

theorem keeps_create {draws : Draws} {input : Input}
    (isCreate : operations index = .create draws input) :
    Keeps operations index (execute repository unitOfWork draws input) none
      (Unused (operations index)) := by
  have unknown : ∀ store : Store, Unused (operations index) store → Known none store := by
    rintro store _ request ⟨⟩
  unfold execute
  cases isBlank input.eventId with
  | true => trivial
  | false =>
  cases isBlank input.idempotencyKey with
  | true => trivial
  | false =>
  simp only [Bool.false_eq_true, if_false]
  cases validCorrelationId input.correlationId with
  | error error => trivial
  | ok correlationId =>
  refine keeps_read (by simp) (fun _ => rfl) stable_unused fun existing => ?_
  cases existing with
  | some existing => trivial
  | none =>
  cases requested : Domain.createProcessingRequest draws ⟨input.ownerUserId, input.ownerEmail,
      input.sourceStorageKey, some input.idempotencyKey, correlationId⟩ with
  | error error => trivial
  | ok request =>
  refine keeps_read (by simp) (fun _ => rfl) stable_unused fun bound => ?_
  cases bound with
  | some bound =>
      refine Discipline.follows_ofExcept.mpr ?_
      trivial
  | none =>
  refine keeps_read (by simp) (fun _ => rfl) stable_unused fun known => ?_
  cases known with
  | some known => trivial
  | none =>
  have saves : ∀ store : Store, Unused (operations index) store →
      Grown (operations index) store (store.save request).2 := by
    intro store unused
    rcases (Domain.createProcessingRequest_eq_ok.mp requested).2.2.2 with rfl
    have drawn : drawn? (operations index) = some draws.uuid := by rw [isCreate]; rfl
    exact .save (isCreate ▸ rfl) drawn rfl (unused draws.uuid drawn)
  refine keeps_write (by simp) unknown saves fun outcome => ?_
  cases outcome with
  | error error => exact keeps_lostRace input error
  | ok saved =>
      refine keeps_write (by simp) (fun _ => id) (fun _ _ => .same rfl) fun _ => ?_
      exact keeps_write (by simp) (fun _ => id) (fun _ _ => .same rfl) fun _ => trivial

theorem keeps_execute : ∃ assertion : Store → Prop,
    (discipline operations).Stable index none assertion ∧ assertion .empty ∧
      Keeps operations index ((operations index).execute repository unitOfWork) none assertion := by
  rcases (operations index).create_or_event with ⟨draws, input, isCreate⟩ | ⟨event, isEvent⟩
  · have program : (operations index).execute repository unitOfWork =
        Answer.result <$> execute repository unitOfWork draws input := by
      rw [isCreate, Operation.execute]
    refine ⟨Unused (operations index), stable_unused, fun _ _ => rfl, ?_⟩
    rw [program]
    exact keeps_map _ (keeps_create isCreate)
  · refine ⟨Known none, stable_known, by rintro request ⟨⟩, ?_⟩
    rw [Operation.execute_of_event isEvent]
    exact keeps_map _ (keeps_handle event)

end Rules

/-! ## Browsing -/

section Browsing

variable [DecidableEq ι] {operations : ι → Operation} {world next : World ι}

theorem holds_reached (distinct : DistinctDraws operations)
    (reached : Machine.Reaches (start operations .empty) world) :
    (discipline operations).Holds (fun _ _ _ _ => True) world := by
  refine Discipline.Holds.reaches (discipline_sound distinct) ⟨trivial, fun index => ?_⟩ reached
  rcases @keeps_execute ι operations index with ⟨assertion, stable, asserted, keeps⟩
  exact ⟨assertion, stable, asserted, keeps.mono fun _ _ _ _ _ _ => trivial⟩

/-- What a step does to the maps, the operation of its execution may do. -/
theorem grown_of_step (distinct : DistinctDraws operations)
    (reached : Machine.Reaches (start operations .empty) world) {index : ι}
    (stepped : Machine.step world (.session index ()) = some next) :
    Grown (operations index) world.shared next.shared := by
  rcases (holds_reached distinct reached).guaranteed_of_step stepped with
    ⟨_, _, _, _, grown⟩
  exact grown

/-- The page a client gets from the maps. -/
def listOwned (store : Store) (input : ListOwnedProcessingRequestsQuery.Input) :
    Except Thrown OwnedPage :=
  (runAlone (ListOwnedProcessingRequestsQuery.execute repository input) store).1

/-- The maps list the requests of an owner, in any reachable state. -/
theorem lists_reached (distinct : DistinctDraws operations) (ownerUserId : JsString) :
    Lists Machine.Step (StepWithoutCreate operations ownerUserId)
      (fun world : World ι => listOwned world.shared)
      (fun world => world.shared.requests.rows) ownerUserId
      (Machine.Reaches (start operations .empty)) where
  answered isOwner answered := by
    rw [listOwned, runAlone_listOwned, isOwner] at answered
    cases answered
    refine ⟨rfl, ?_⟩
    rw [length_ownedListing, List.countP_eq_length_filter]
    rfl
  distinct {world} _ := world.shared.requests.keys_nodup
  kept reached stepped := by
    refine ⟨reached.tail stepped, ?_⟩
    rcases stepped with ⟨action, taken⟩
    cases action with
    | environment event => cases event
    | session index choice => exact (grown_of_step distinct reached taken).kept
  quiet stepped := by
    rcases stepped with ⟨action, taken, _⟩
    exact ⟨action, taken⟩
  still reached stepped request requestMem owned := by
    rcases stepped with ⟨action, taken, noCreate⟩
    cases action with
    | environment event => cases event
    | session index choice =>
        rcases (grown_of_step distinct reached taken).added request requestMem with
          before | ⟨creates, _⟩
        · exact before
        · exact absurd (owned ▸ creates) (noCreate index choice rfl)

end Browsing

end InMemory

/-- Calls from the empty store, interleaved at every await, over PostgreSQL and over the maps: from
any state they reach, a client that browses the requests of an owner meets all that were stored
when it began, and none of another owner's; and if no create of the owner takes a step meanwhile,
it meets each of them once, in order, and is told their number. -/
theorem paging_never_skips {ι : Type} [Fintype ι] [DecidableEq ι] (operations : ι → Operation)
    (ownerUserId : JsString) (pageSize : ℕ) :
    (∀ (rules : Postgres.TextRules) (nextOutboxId : ℕ)
      (world : Machine.World (Postgres.machine ι true) Thrown Answer),
      Machine.Reaches (Postgres.start true operations .empty nextOutboxId) world →
        NeverSkips Machine.Step (StepWithoutCreate operations ownerUserId)
          (fun world : Machine.World (Postgres.machine ι true) Thrown Answer =>
            Postgres.listOwned rules world.shared.database)
          (fun world => Postgres.storedRequests world.shared.database)
          ownerUserId pageSize world) ∧
    (InMemory.DistinctDraws operations →
      ∀ world : InMemory.World ι, Machine.Reaches (InMemory.start operations .empty) world →
        NeverSkips Machine.Step (StepWithoutCreate operations ownerUserId)
          (fun world : InMemory.World ι => InMemory.listOwned world.shared)
          (fun world => world.shared.requests.rows) ownerUserId pageSize world) := by
  constructor
  · intro rules nextOutboxId world reached
    exact neverSkips (Postgres.lists_reached rules operations nextOutboxId ownerUserId) reached
      pageSize
  · intro distinct world reached
    exact neverSkips (InMemory.lists_reached distinct ownerUserId) reached pageSize

/-- The first page of two, asked for by the owner of the upload. -/
def firstOfTwo : ListOwnedProcessingRequestsQuery.Input :=
  ⟨js "owner", 1, 2, Nat.one_pos, Nat.two_pos⟩

open Postgres in
/-- After the upload, one page of two is not full, and shows the owner its request. -/
theorem paging_never_skips_upload :
    (∃ (world : Machine.World (machine (Fin 2) true) Thrown Answer) (request : ProcessingRequest)
      (page : OwnedPage), request ∈ storedRequests world.shared.database ∧
        listOwned .lenient world.shared.database firstOfTwo = .ok page ∧
        Shown [page] request) ∧
    ∃ (world : InMemory.World (Fin 2)) (request : ProcessingRequest) (page : OwnedPage),
      request ∈ world.shared.requests.rows ∧
        InMemory.listOwned world.shared firstOfTwo = .ok page ∧ Shown [page] request := by
  have distinct : InMemory.DistinctDraws uploadAndAcceptance := by
    intro index other uuid
    match index, other with
    | 0, 0 => exact fun _ _ => rfl
    | 0, 1 => rintro _ ⟨⟩
    | 1, _ => rintro ⟨⟩
  have skips := paging_never_skips uploadAndAcceptance (js "owner") 2
  constructor
  · have ran : ((Machine.runActions (start true uploadAndAcceptance .empty 1)
        (List.replicate 8 (.session 0 .proceed))).map fun world =>
          (storedRequests world.shared.database).map (·.ownerUserId)) = some [js "owner"] := by
      decide +kernel
    rcases Option.map_eq_some_iff.mp ran with ⟨world, ran, owners⟩
    rcases List.map_eq_singleton_iff.mp owners with ⟨request, stored, owned⟩
    have isStored : request ∈ storedRequests world.shared.database := by simp [stored]
    have answered : listOwned .lenient world.shared.database firstOfTwo =
        .ok (ownedPage world.shared.database (js "owner") 1 2) := by
      rw [listOwned, Postgres.read, runAlone, run_listOwned firstOfTwo rfl]
      rfl
    have stopped := stopped_of_few (lists_reached .lenient uploadAndAcceptance 1 (js "owner"))
      rfl answered (by simp [stored, firstOfTwo])
    exact ⟨world, request, _, isStored, answered,
      (skips.1 .lenient 1 world (Machine.reaches_of_runActions ran)).shown
        (.call .start (by simp) rfl rfl rfl answered) stopped request isStored owned⟩
  · have ran : ((Machine.runActions (InMemory.start uploadAndAcceptance .empty)
        (List.replicate 6 (.session 0 ()))).map fun world =>
          world.shared.requests.rows.map (·.ownerUserId)) = some [js "owner"] := by
      decide +kernel
    rcases Option.map_eq_some_iff.mp ran with ⟨world, ran, owners⟩
    rcases List.map_eq_singleton_iff.mp owners with ⟨request, stored, owned⟩
    have isStored : request ∈ world.shared.requests.rows := by simp [stored]
    have answered : InMemory.listOwned world.shared firstOfTwo =
        .ok ⟨(world.shared.findPageByOwner (js "owner") 0 2).map toOwnedItem, 1, 2,
          world.shared.countByOwner (js "owner")⟩ := rfl
    have stopped := stopped_of_few (InMemory.lists_reached distinct (js "owner")) rfl answered
      (by simp [stored, firstOfTwo])
    exact ⟨world, request, _, isStored, answered,
      (skips.2 distinct world (Machine.reaches_of_runActions ran)).shown
        (.call .start (by simp) rfl rfl rfl answered) stopped request isStored owned⟩

end ProcessingCatalog
