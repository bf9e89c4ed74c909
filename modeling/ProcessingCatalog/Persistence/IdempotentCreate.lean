import ProcessingCatalog.Persistence.ExactlyOnce

/-!
# A create that is tried again

A create whose owner and source are stored when it begins finds its key or its
source, whatever the other calls commit in between: it writes nothing. Which
request it answers with is settled by its key as long as that is bound, and by
its source otherwise.
-/

namespace ProcessingCatalog

open Effect TypeOrm CreateProcessingRequestUseCase

namespace Postgres

variable {ι : Type} {operations : ι → Operation} {initial : Database} {nextOutboxId : ℕ}
  {faults : Bool} {index : ι} {draws : Draws} {input : Input}

/-- The owner has a stored request for the source of the create. -/
def SourceStored (input : Input) (shared : Shared ι) : Prop :=
  ∃ row ∈ shared.database.requests, row.ownerUserId = input.ownerUserId ∧
    row.sourceStorageKey = input.sourceStorageKey

theorem persistent_sourceStored (input : Input) :
    Persistent operations index (SourceStored input) := by
  rintro shared shared' rely ⟨row, rowMem, owner, source⟩
  rcases rely.kept row rowMem with ⟨row', row'Mem, _, sameOwner, _, sameSource, _⟩
  exact ⟨row', row'Mem, sameOwner.trans owner, sameSource.trans source⟩

theorem SourceStored.find_source {shared : Shared ι} (stored : SourceStored input shared) :
    shared.database.requests.rows.find? (fun stored =>
      stored.ownerUserId = input.ownerUserId ∧
        stored.sourceStorageKey = input.sourceStorageKey) ≠ none := by
  rcases stored with ⟨row, rowMem, owner, source⟩
  intro absent
  have missed := List.find?_eq_none.mp absent row rowMem
  simp [owner, source] at missed

/-- How a create of a stored source ends: with nothing committed, and with no error of the
database but those that the infrastructure makes. -/
def EndedUnwritten (faults : Bool) (index : ι) (outcome : Except Thrown Answer)
    (shared : Shared ι) : Prop :=
  Uncommitted index shared ∧
    ∀ failure, outcome = .error (.database failure) → MayFail faults failure

section Follow

variable [Fintype ι] [DecidableEq ι]

/-- The statements of a create of a stored source: its lookups, of which one finds a request. -/
theorem follows_unwritten :
    (discipline faults operations initial).Verified index
      (fun outcome _ shared => EndedUnwritten faults index (outcome.map .result) shared)
      (CreateProcessingRequestUseCase.execute (repository .dataSource) unitOfWork draws input)
      .idle (fun shared => Uncommitted index shared ∧ SourceStored input shared) := by
  have failed : ∀ {base : Shared ι → Prop} (error), MayFail faults error →
      (∀ shared, base shared → Uncommitted index shared) → ∀ shared, base shared →
        EndedUnwritten faults index ((.error (.database error) : Except Thrown Result).map .result)
          shared := by
    intro base error fails entails shared holds
    refine ⟨entails shared holds, fun failure same => ?_⟩
    cases same
    exact fails
  have ends : ∀ {base : Shared ι → Prop} {outcome : Except Thrown Result},
      (∀ failure, outcome ≠ .error (.database failure)) →
      (∀ shared, base shared → Uncommitted index shared) → ∀ shared, base shared →
        EndedUnwritten faults index (outcome.map .result) shared := by
    intro base outcome undamaged entails shared holds
    refine ⟨entails shared holds, fun failure same => ?_⟩
    cases outcome with
    | ok result => cases same
    | error error =>
        cases same
        exact absurd rfl (undamaged failure)
  unfold CreateProcessingRequestUseCase.execute
  cases noEventId : isBlank input.eventId with
  | true => exact ends nofun fun _ holds => holds.1
  | false =>
  cases noKey : isBlank input.idempotencyKey with
  | true => exact ends nofun fun _ holds => holds.1
  | false =>
  simp only [Bool.false_eq_true, if_false]
  cases correlation : validCorrelationId input.correlationId with
  | error error =>
      refine ends ?_ fun _ holds => holds.1
      rintro failure ⟨⟩
      unfold validCorrelationId at correlation
      split at correlation
      · cases correlation
      · split at correlation <;> cases correlation
  | ok correlationId =>
  simp only [Program.ofExcept_ok, Program.pure_bind]
  unfold Discipline.Verified
  rw [Discipline.follows_bind]
  refine follows_findByEventId (persistent_uncommitted.and (persistent_sourceStored input))
    (fun _ holds => holds) (fun error fails => failed error fails fun _ holds => holds.1) ?_
    fun row => ends nofun fun _ holds => holds.1.1
  simp only
  cases requested : requestOf draws input correlationId with
  | error error =>
      unfold requestOf at requested
      rw [requested]
      rcases Domain.createProcessingRequest_eq_error requested with ⟨message, rfl⟩
      exact ends nofun fun _ holds => holds.1
  | ok request =>
  unfold requestOf at requested
  rw [requested]
  simp only [Program.ofExcept_ok, Program.pure_bind]
  rw [Discipline.follows_bind]
  refine follows_findByKey (fun _ holds => holds.1)
    (fun error fails => failed error fails fun _ fresh => fresh)
    ⟨fun shared => Looked operations initial index input shared ∧ SourceStored input shared,
      (persistent_looked input).and (persistent_sourceStored input),
      fun shared holds represented absent =>
        ⟨⟨holds.1, represented.saw fun ledger represents => ?_⟩,
        holds.2⟩, ?_⟩ fun row => Discipline.follows_ofExcept.mpr ?_
  · rw [Ledger.findByOwnerAndIdempotencyKey, ← represents.requests, absent]
  · simp only
    rw [Discipline.follows_bind]
    refine follows_findBySource (fun _ holds => holds.1)
      (fun error fails => failed error fails fun _ looked => looked.1)
      ⟨fun _ => False, persistent_const False, fun shared holds absent =>
        holds.2.find_source absent, ?_⟩ fun row => ends nofun fun _ holds => holds.1.1
    exact Discipline.verified_of_absurd fun _ absurdity => absurdity
  · refine ends (fun failure => ?_) fun _ holds => holds.1
    unfold replay
    split <;> simp

end Follow

section Runs

variable [Fintype ι] [DecidableEq ι]
  {world answered : Machine.World (machine ι faults) Thrown Answer}

/-- How a create that ran among any operations has ended. -/
theorem createEnded_of_operation (numbered : Numbered initial nextOutboxId)
    (reached : Machine.Reaches (start faults operations initial nextOutboxId) world)
    (isCreate : operations index = .create draws input) {outcome : Except Thrown Answer}
    (finished : outcomeOf world index = some outcome) :
    ∃ result, outcome = result.map .result ∧
      CreateEnded faults operations initial index draws input result world.shared := by
  have ended := ended_reached numbered reached (Program.outcome?_eq_some_iff.mp finished)
  simpa only [Ended, isCreate] using ended

/-- The request a create with a fresh event has returned is stored ever after, as itself or a later
version, under its owner and source. -/
theorem stored_of_returned (numbered : Numbered initial nextOutboxId)
    (reached : Machine.Reaches (start faults operations initial nextOutboxId) world)
    (fresh : Fresh operations initial index) (isCreate : operations index = .create draws input)
    {result : Result} (returned : outcomeOf world index = some (.ok (.result result))) :
    ∃ row ∈ world.shared.database.requests, result.request.SameIdentity row.toDomain ∧
      row.ownerUserId = input.ownerUserId ∧ row.sourceStorageKey = input.sourceStorageKey := by
  have invariant := invariant_reached numbered reached
  rcases invariant.represents with ⟨ledger, history, represents⟩
  rcases createEnded_of_operation numbered reached isCreate returned with
    ⟨ended, isOutcome, created⟩
  have later : ∀ {row row' : ProcessingRequestRow}, row.SameIdentity row' →
      row.ownerUserId = input.ownerUserId → row.sourceStorageKey = input.sourceStorageKey →
      row'.ownerUserId = input.ownerUserId ∧ row'.sourceStorageKey = input.sourceStorageKey := by
    intro row row' same owner source
    rcases same with ⟨_, sameOwner, _, sameSource, _⟩
    exact ⟨sameOwner.trans owner, sameSource.trans source⟩
  rw [represents.requests]
  match ended, isOutcome, created with
  | .ok ⟨request, .created⟩, isOutcome,
      ⟨correlationId, _, isRequest, writes, committed, inserted⟩ =>
      cases isOutcome
      rcases history.kept_of_insertRequest committed inserted with ⟨row', row'Mem, same⟩
      rw [eq_toDomain_of_requestOf isRequest]
      exact ⟨row', row'Mem, same, later same rfl rfl⟩
  | .ok ⟨request, .replayed⟩, isOutcome, ⟨uncommitted, replayed⟩ =>
      cases isOutcome
      rcases replayed with recorded |
        ⟨_, ⟨past, before, isPast, pastHistory, bound, found, source, rfl⟩ |
          ⟨_, past, before, isPast, pastHistory, known, found, rfl⟩⟩
      · have isEvent : (operations index).eventId = input.eventId := by rw [isCreate]; rfl
        rw [← isEvent] at recorded
        exact absurd recorded (not_recorded_of_uncommitted invariant fresh uncommitted)
      · rcases Ledger.mem_of_findByOwnerAndIdempotencyKey found with ⟨boundMem, owner, _⟩
        rcases pastHistory.kept history isPast boundMem with ⟨row', row'Mem, same⟩
        exact ⟨row', row'Mem, same, later same owner source⟩
      · rcases Ledger.mem_of_findByOwnerAndSource found with ⟨knownMem, owner, source⟩
        rcases pastHistory.kept history isPast knownMem with ⟨row', row'Mem, same⟩
        exact ⟨row', row'Mem, same, later same owner source⟩

/-- A create that begins where its source is stored writes nothing. -/
theorem endedUnwritten_of_stored (numbered : Numbered initial nextOutboxId)
    {before after : List (Machine.Action (machine ι faults))}
    (ranBefore : Machine.runActions (start faults operations initial nextOutboxId) before =
      some answered)
    (notBegun : ∀ choice, .session index choice ∉ before)
    (ranAfter : Machine.runActions answered after = some world)
    (isCreate : operations index = .create draws input)
    (stored : SourceStored input answered.shared) {outcome : Except Thrown Answer}
    (finished : outcomeOf world index = some outcome) :
    EndedUnwritten faults index outcome world.shared := by
  have holds := holds_reached numbered (Machine.reaches_of_runActions ranBefore)
  rcases Machine.runActions_untouched ranBefore notBegun with ⟨program, own⟩
  have uncommitted : Uncommitted index answered.shared :=
    (holds_start numbered).asserted_of_untouched (discipline_sound faults operations initial)
      ranBefore notBegun (persistent_uncommitted.stable _) (by simp [start, Uncommitted])
  have retried : (discipline faults operations initial).Verified index
      (fun outcome _ shared => EndedUnwritten faults index outcome shared)
      (answered.programs index) (answered.locals index)
      (fun shared => Uncommitted index shared ∧ SourceStored input shared) := by
    rw [program, own]
    simp only [start, isCreate, Operation.execute, map_eq_pure_bind]
    unfold Discipline.Verified
    rw [Discipline.follows_bind]
    apply follows_unwritten.mono
    intro outcome own assertion ended
    cases outcome with
    | ok result => exact ended
    | error error => exact ended
  have refocused := holds.refocus
    ((persistent_uncommitted.and (persistent_sourceStored input)).stable _)
    ⟨uncommitted, stored⟩ retried
  have ended := (refocused.reaches (discipline_sound faults operations initial)
    (Machine.reaches_of_runActions ranAfter)).ended (Program.outcome?_eq_some_iff.mp finished)
  simpa only [Function.update_self] using ended

end Runs

section Repeated

variable [Fintype ι] [DecidableEq ι] {first again : ι} {draws' : Draws} {input' : Input}
  {answered world : Machine.World (machine ι false) Thrown Answer}

/-- A create with a fresh event has returned a request. Every later create of the same owner, key
and source writes nothing and returns that request as `replayed`, unless it is refused for its own
fields, or its key is not that of the request and another create has bound it to another source. -/
theorem create_repeated (unique : UniqueIndexes initial.requests)
    (numbered : Numbered initial nextOutboxId)
    (isFirst : operations first = .create draws input)
    (isAgain : operations again = .create draws' input')
    (owner : input'.ownerUserId = input.ownerUserId)
    (key : input'.idempotencyKey = input.idempotencyKey)
    (source : input'.sourceStorageKey = input.sourceStorageKey)
    (freshFirst : Fresh operations initial first) (freshAgain : Fresh operations initial again)
    {before after : List (Machine.Action (machine ι false))}
    (ranBefore : Machine.runActions (start false operations initial nextOutboxId) before =
      some answered)
    {result : Result} (returned : outcomeOf answered first = some (.ok (.result result)))
    (notBegun : ∀ choice, .session again choice ∉ before)
    (ranAfter : Machine.runActions answered after = some world)
    {outcome : Except Thrown Answer} (finished : outcomeOf world again = some outcome) :
    Uncommitted again world.shared ∧
    ((∃ request, outcome = .ok (.result ⟨request, .replayed⟩) ∧
        request.processingRequestId = result.request.processingRequestId) ∨
      (∃ error, outcome = .error error ∧ Invalid draws' input' error) ∨
      outcome = .error .idempotencyConflictError ∧
        result.request.idempotencyKey ≠ some input.idempotencyKey ∧
        ∃ row ∈ world.shared.database.requests, row.ownerUserId = input.ownerUserId ∧
          row.idempotencyKey = some input.idempotencyKey ∧
          row.sourceStorageKey ≠ input.sourceStorageKey) := by
  have reachedAnswered := Machine.reaches_of_runActions ranBefore
  have reached : Machine.Reaches (start false operations initial nextOutboxId) world :=
    reachedAnswered.trans (Machine.reaches_of_runActions ranAfter)
  have stillReturned : outcomeOf world first = some (.ok (.result result)) :=
    Program.outcome?_eq_some_iff.mpr ((Machine.reaches_of_runActions ranAfter).ended
      (Program.outcome?_eq_some_iff.mp returned))
  rcases stored_of_returned numbered reachedAnswered freshFirst isFirst returned with
    ⟨stored, storedMem, _, storedOwner, storedSource⟩
  rcases endedUnwritten_of_stored numbered ranBefore notBegun ranAfter isAgain
    ⟨stored, storedMem, storedOwner.trans owner.symm, storedSource.trans source.symm⟩ finished with
    ⟨uncommitted, undamaged⟩
  refine ⟨uncommitted, ?_⟩
  have invariant := invariant_reached numbered reached
  rcases invariant.represents with ⟨ledger, history, represents⟩
  have uniqueNow := history.uniqueIndexes unique
  have notRecorded := not_recorded_of_uncommitted invariant freshAgain uncommitted
  have isEvent : (operations again).eventId = input'.eventId := by
    rw [isAgain]
    rfl
  rw [isEvent] at notRecorded
  rcases stored_of_returned numbered reached freshFirst isFirst stillReturned with
    ⟨row, rowMem, sameRow, rowOwner, rowSource⟩
  rw [represents.requests] at rowMem
  -- A row of the owner and the source, seen at some moment, is the returned request by now.
  have isRow : ∀ {past before seen}, past <+: world.shared.committed →
      History operations (.ofDatabase initial) past before → seen ∈ before.requests →
      seen.ownerUserId = input.ownerUserId → seen.sourceStorageKey = input.sourceStorageKey →
      seen.toDomain.processingRequestId = result.request.processingRequestId := by
    intro past before seen isPast pastHistory seenMem seenOwner seenSource
    rcases pastHistory.kept history isPast seenMem with ⟨seen', seen'Mem, same⟩
    have sameOwner : seen'.ownerUserId = seen.ownerUserId := same.2.1
    have sameSource : seen'.sourceStorageKey = seen.sourceStorageKey := same.2.2.2.1
    have now : seen' = row := uniqueNow .ownerSource seen' seen'Mem row rowMem
      ⟨sameOwner.trans (seenOwner.trans rowOwner.symm),
        sameSource.trans (seenSource.trans rowSource.symm)⟩
    rw [← sameRow.1, ← now]
    exact same.1.symm
  rcases createEnded_of_operation numbered reached isAgain finished with ⟨ended, rfl, created⟩
  match ended, created with
  | .ok ⟨request, .created⟩, ⟨_, _, _, writes, committed, _⟩ =>
      exact absurd rfl (uncommitted _ committed)
  | .ok ⟨request, .replayed⟩, ⟨_, replayed⟩ =>
      left
      refine ⟨request, rfl, ?_⟩
      rcases replayed with recorded |
        ⟨_, ⟨past, before, isPast, pastHistory, bound, found, boundSource, rfl⟩ |
          ⟨_, past, before, isPast, pastHistory, known, found, rfl⟩⟩
      · exact absurd recorded notRecorded
      · rcases Ledger.mem_of_findByOwnerAndIdempotencyKey found with ⟨boundMem, boundOwner, _⟩
        exact isRow isPast pastHistory boundMem (boundOwner.trans owner) (boundSource.trans source)
      · rcases Ledger.mem_of_findByOwnerAndSource found with ⟨knownMem, knownOwner, knownSource⟩
        exact isRow isPast pastHistory knownMem (knownOwner.trans owner) (knownSource.trans source)
  | .error error, ⟨_, threw⟩ =>
      right
      rcases threw with invalid | ⟨rfl, _, past, before, isPast, pastHistory, bound, found,
        boundSource⟩ | ⟨failure, rfl, _⟩
      · exact .inl ⟨error, rfl, invalid⟩
      · right
        rcases Ledger.mem_of_findByOwnerAndIdempotencyKey found with
          ⟨boundMem, boundOwner, boundKey⟩
        rcases pastHistory.kept history isPast boundMem with
          ⟨now, nowMem, _, sameOwner, _, sameSource, sameKey, _⟩
        have nowOwner : now.ownerUserId = input.ownerUserId :=
          sameOwner.trans (boundOwner.trans owner)
        have nowKey : now.idempotencyKey = some input.idempotencyKey :=
          sameKey.trans (boundKey.trans (congrArg some key))
        have nowSource : now.sourceStorageKey ≠ input.sourceStorageKey := fun same =>
          boundSource (sameSource.symm.trans (same.trans source.symm))
        refine
          ⟨rfl, fun keyed => ?_, now, represents.requests ▸ nowMem, nowOwner, nowKey, nowSource⟩
        have rowKey : row.idempotencyKey = some input.idempotencyKey :=
          sameRow.2.2.2.2.1.trans keyed
        have isRow : now = row := uniqueNow .ownerIdempotency now nowMem row rowMem
          ⟨nowOwner.trans rowOwner.symm, nowKey.trans rowKey.symm, by rw [nowKey]; rfl⟩
        exact nowSource (isRow ▸ rowSource)
      · exact absurd (undamaged failure rfl).1 (by decide)

end Repeated

/-- An upload under a first key; the same upload under a second key, answered by its source; the
second key bound by another upload; and the second call once more. -/
def reboundInput : Fin 4 → Input
  | 0 => ⟨js "e-0", js "owner", js "owner@example.com", js "uploads/a.mp4", js "key-a", none⟩
  | 1 => ⟨js "e-1", js "owner", js "owner@example.com", js "uploads/a.mp4", js "key-b", none⟩
  | 2 => ⟨js "e-2", js "owner", js "owner@example.com", js "uploads/b.mp4", js "key-b", none⟩
  | 3 => ⟨js "e-3", js "owner", js "owner@example.com", js "uploads/a.mp4", js "key-b", none⟩

def reboundDraws (index : Fin 4) : Draws :=
  ⟨1789953000000, .repeated index, .repeated 0, 3000⟩

/-- The calls of the sessions, one after another. -/
def inTurn (turns : List (Fin 4)) : List (Machine.Action (machine (Fin 4) false)) :=
  turns.map fun index => .session index .proceed

/-- The request the first upload creates. -/
def reboundRequest : ProcessingRequest :=
  (requestRow (reboundDraws 0) (reboundInput 0) none).toDomain

theorem rebound_ends : ∃ answered world,
    Machine.runActions (start false (creates reboundDraws reboundInput) .empty 1)
      (inTurn (List.replicate 8 0 ++ List.replicate 3 1)) = some answered ∧
    outcomeOf answered 1 = some (.ok (.result ⟨reboundRequest, .replayed⟩)) ∧
    Machine.runActions answered (inTurn (List.replicate 8 2 ++ List.replicate 2 3)) = some world ∧
    outcomeOf world 3 = some (.error .idempotencyConflictError) := by
  have ran : ((Machine.runActions (start false (creates reboundDraws reboundInput) .empty 1)
      (inTurn (List.replicate 8 0 ++ List.replicate 3 1))).bind fun answered =>
      (Machine.runActions answered (inTurn (List.replicate 8 2 ++ List.replicate 2 3))).map
        fun world => decide (
          outcomeOf answered 1 = some (.ok (.result ⟨reboundRequest, .replayed⟩)) ∧
          outcomeOf world 3 = some (.error .idempotencyConflictError))) = some true := by
    decide +kernel
  rcases Option.bind_eq_some_iff.mp ran with ⟨answered, ranBefore, rest⟩
  rcases Option.map_eq_some_iff.mp rest with ⟨world, ranAfter, ended⟩
  have ended := of_decide_eq_true ended
  exact ⟨answered, world, ranBefore, ended.1, ranAfter, ended.2⟩

/-- A create that was answered by its source may end in a conflict when it is tried again. -/
theorem replayed_create_may_conflict : ¬ ∀ (draws : Fin 4 → Draws) (input : Fin 4 → Input)
    (first again : Fin 4) (before after : List (Machine.Action (machine (Fin 4) false)))
    (answered world : Machine.World (machine (Fin 4) false) Thrown Answer) (result : Result)
    (outcome : Except Thrown Answer),
    (input again).ownerUserId = (input first).ownerUserId →
    (input again).idempotencyKey = (input first).idempotencyKey →
    (input again).sourceStorageKey = (input first).sourceStorageKey →
    Function.Injective (fun index => (input index).eventId) →
    Machine.runActions (start false (creates draws input) .empty 1) before = some answered →
    outcomeOf answered first = some (.ok (.result result)) →
    (∀ choice, .session again choice ∉ before) →
    Machine.runActions answered after = some world →
    outcomeOf world again = some outcome →
    ∃ request, outcome = .ok (.result ⟨request, .replayed⟩) ∧
      request.processingRequestId = result.request.processingRequestId := by
  intro idempotent
  rcases rebound_ends with ⟨answered, world, ranBefore, returned, ranAfter, conflict⟩
  rcases idempotent reboundDraws reboundInput 1 3 _ _ answered world _ _ rfl rfl rfl
    (by decide +kernel) ranBefore returned (by simp [inTurn]) ranAfter conflict with
    ⟨request, replayed, _⟩
  cases replayed

theorem create_repeated_rebound :
    ∃ world : Machine.World (machine (Fin 4) false) Thrown Answer,
      Uncommitted 3 world.shared ∧
      ((∃ request, (.error .idempotencyConflictError : Except Thrown Answer) =
          .ok (.result ⟨request, .replayed⟩) ∧
          request.processingRequestId = reboundRequest.processingRequestId) ∨
        (∃ error, (.error .idempotencyConflictError : Except Thrown Answer) = .error error ∧
          Invalid (reboundDraws 3) (reboundInput 3) error) ∨
        (.error .idempotencyConflictError : Except Thrown Answer) =
            .error .idempotencyConflictError ∧
          reboundRequest.idempotencyKey ≠ some (reboundInput 1).idempotencyKey ∧
          ∃ row ∈ world.shared.database.requests,
            row.ownerUserId = (reboundInput 1).ownerUserId ∧
            row.idempotencyKey = some (reboundInput 1).idempotencyKey ∧
            row.sourceStorageKey ≠ (reboundInput 1).sourceStorageKey) := by
  rcases rebound_ends with ⟨answered, world, ranBefore, returned, ranAfter, conflict⟩
  have distinct : Function.Injective fun index => (reboundInput index).eventId := by
    decide +kernel
  have isFirst : creates reboundDraws reboundInput 1 = .create (reboundDraws 1) (reboundInput 1) :=
    rfl
  have isAgain : creates reboundDraws reboundInput 3 = .create (reboundDraws 3) (reboundInput 3) :=
    rfl
  exact ⟨world, create_repeated uniqueIndexes_empty (by simp [Numbered, Database.empty]) isFirst
    isAgain rfl rfl rfl (fresh_creates (fun _ => rfl) distinct 1)
    (fresh_creates (fun _ => rfl) distinct 3) ranBefore returned (by simp [inTurn]) ranAfter
    conflict⟩

end Postgres

end ProcessingCatalog
