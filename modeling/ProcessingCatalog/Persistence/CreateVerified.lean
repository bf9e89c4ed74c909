import ProcessingCatalog.Persistence.StatementRules
import ProcessingCatalog.Persistence.LifecycleVerified

/-!
# The create over PostgreSQL

A create is followed through its two lookups, its transaction and the re-reads
after a lost race. What it answers is tied to a moment of the history: a create
that wrote is one of the commits, and a create that answers another one's
request saw it in the ledger of some moment.
-/

namespace ProcessingCatalog

open Effect TypeOrm Domain

namespace Postgres

open CreateProcessingRequestUseCase

variable {ι : Type} {faults : Bool} {operations : ι → Operation} {initial : Database} {index : ι}

/-- Why a create may throw. -/
def CreateThrew (faults : Bool) (operations : ι → Operation) (initial : Database) (draws : Draws)
    (input : Input) (error : Thrown) (shared : Shared ι) : Prop :=
  Invalid draws input error ∨
  (error = .idempotencyConflictError ∧ Valid draws input ∧
    Saw operations initial (fun ledger => ∃ bound,
      ledger.findByOwnerAndIdempotencyKey input.ownerUserId input.idempotencyKey = some bound ∧
        bound.sourceStorageKey ≠ input.sourceStorageKey) shared) ∨
  ∃ failure, error = .database failure ∧ (MayFail faults failure ∨
    (shared.database.requests.find? draws.uuid).isSome ∨ Recorded input.eventId shared)

/-- The owner had no request under the create's key at some moment. -/
def SawUnbound (operations : ι → Operation) (initial : Database) (input : Input) :
    Shared ι → Prop :=
  Saw operations initial fun ledger =>
    ledger.findByOwnerAndIdempotencyKey input.ownerUserId input.idempotencyKey = none

/-- A create past its first lookup: it has committed nothing, and found its key unbound. -/
def Looked (operations : ι → Operation) (initial : Database) (index : ι) (input : Input)
    (shared : Shared ι) : Prop :=
  Uncommitted index shared ∧ SawUnbound operations initial input shared

/-- Why a create may answer with a request it did not write. -/
def CreateReplayed (operations : ι → Operation) (initial : Database) (draws : Draws)
    (input : Input) (request : ProcessingRequest) (shared : Shared ι) : Prop :=
  Recorded input.eventId shared ∨ Valid draws input ∧
  (Saw operations initial (fun ledger => ∃ bound,
      ledger.findByOwnerAndIdempotencyKey input.ownerUserId input.idempotencyKey = some bound ∧
        bound.sourceStorageKey = input.sourceStorageKey ∧ request = bound.toDomain) shared ∨
    SawUnbound operations initial input shared ∧ Saw operations initial (fun ledger => ∃ known,
      ledger.findByOwnerAndSource input.ownerUserId input.sourceStorageKey = some known ∧
        request = known.toDomain) shared)

/-- How a create may end. -/
def CreateEnded (faults : Bool) (operations : ι → Operation) (initial : Database) (index : ι)
    (draws : Draws) (input : Input) (outcome : Except Thrown Result) (shared : Shared ι) : Prop :=
  match outcome with
  | .ok ⟨request, .created⟩ => ∃ correlationId, checked input = .ok correlationId ∧
      requestOf draws input correlationId = .ok request ∧
      Wrote index (.insertRequest (requestRow draws input correlationId)) shared
  | .ok ⟨request, .replayed⟩ =>
      Uncommitted index shared ∧ CreateReplayed operations initial draws input request shared
  | .error error =>
      Uncommitted index shared ∧ CreateThrew faults operations initial draws input error shared

/-- Where a create may end. -/
def CreatePost (faults : Bool) (operations : ι → Operation) (initial : Database) (index : ι)
    (draws : Draws) (input : Input) (outcome : Except Thrown Result) (own : Connection)
    (assertion : Shared ι → Prop) : Prop :=
  own = .idle ∧ ∀ shared, assertion shared →
    CreateEnded faults operations initial index draws input outcome shared

/-- What is known of the error of a create's transaction: which entry it collided with, or why
it is thrown on. -/
def RaceLost (faults : Bool) (operations : ι → Operation) (initial : Database) (index : ι)
    (draws : Draws) (input : Input) (row : ProcessingRequestRow) (error : Thrown)
    (shared : Shared ι) : Prop :=
  Looked operations initial index input shared ∧
    match error with
    | .duplicateSourceError _ _ => Collided .ownerSource row shared
    | .duplicateIdempotencyKeyError _ _ => Collided .ownerIdempotency row shared
    | error => CreateThrew faults operations initial draws input error shared

theorem persistent_looked (input : Input) :
    Persistent operations index (Looked operations initial index input) :=
  persistent_uncommitted_saw _

theorem persistent_createThrew (draws : Draws) (input : Input) (error : Thrown) :
    Persistent operations index (CreateThrew faults operations initial draws input error) := by
  rintro shared shared' rely
    (invalid | ⟨rfl, valid, saw⟩ | ⟨failure, rfl, fails | taken | recorded⟩)
  · exact .inl invalid
  · exact .inr (.inl ⟨rfl, valid, persistent_saw _ shared shared' rely saw⟩)
  · exact .inr (.inr ⟨failure, rfl, .inl fails⟩)
  · refine .inr (.inr ⟨failure, rfl, .inr (.inl ?_)⟩)
    obtain ⟨row, found⟩ := Option.isSome_iff_exists.mp taken
    obtain ⟨row', row'Mem, same⟩ := rely.kept row (KeyedTable.mem_of_find? found)
    rw [← KeyedTable.key_of_find? found, ← same.processingRequestId, KeyedTable.find?_key row'Mem]
    rfl
  · exact .inr (.inr
      ⟨failure, rfl, .inr (.inr (persistent_recorded _ shared shared' rely recorded))⟩)

theorem persistent_raceLost (draws : Draws) (input : Input) (row : ProcessingRequestRow)
    (error : Thrown) :
    Persistent operations index
      (RaceLost faults operations initial index draws input row error) := by
  refine (persistent_looked input).and ?_
  cases error with
  | duplicateSourceError owner source => exact persistent_collided _ _
  | duplicateIdempotencyKeyError owner key => exact persistent_collided _ _
  | _ => exact persistent_createThrew draws input _

section Post

variable {draws : Draws} {input : Input} {base : Shared ι → Prop}

theorem createPost_threw {error : Thrown}
    (entails : ∀ shared, base shared → Uncommitted index shared ∧
      CreateThrew faults operations initial draws input error shared) :
    CreatePost faults operations initial index draws input (.error error) .idle base :=
  ⟨rfl, entails⟩

/-- Where a statement of a create fails for no reason of its own. -/
theorem createPost_failed {error : DatabaseError} (fails : MayFail faults error)
    (entails : ∀ shared, base shared → Uncommitted index shared) :
    CreatePost faults operations initial index draws input (.error (.database error)) .idle base :=
  createPost_threw fun shared holds =>
    ⟨entails shared holds, .inr (.inr ⟨error, rfl, .inl fails⟩)⟩

/-- The answer of a create that found its key. -/
theorem createPost_replay (valid : Valid draws input) (row : ProcessingRequestRow) :
    CreatePost faults operations initial index draws input (replay row.toDomain input) .idle
      fun shared => Uncommitted index shared ∧ Saw operations initial (fun ledger =>
        ledger.findByOwnerAndIdempotencyKey input.ownerUserId input.idempotencyKey = some row)
        shared := by
  unfold replay
  split
  · rename_i different
    refine createPost_threw fun shared ⟨fresh, past, ledger, isPast, history, found⟩ => ?_
    exact ⟨fresh, .inr (.inl ⟨rfl, valid, past, ledger, isPast, history, row, found, different⟩)⟩
  · rename_i same
    refine ⟨rfl, fun shared ⟨fresh, past, ledger, isPast, history, found⟩ => ?_⟩
    exact ⟨fresh, .inr ⟨valid, .inl
      ⟨past, ledger, isPast, history, row, found, not_not.mp same, rfl⟩⟩⟩

/-- The answer of a create that found its source. -/
theorem createPost_known (valid : Valid draws input) (row : ProcessingRequestRow) :
    CreatePost faults operations initial index draws input (.ok ⟨row.toDomain, .replayed⟩) .idle
      fun shared => Looked operations initial index input shared ∧
        Saw operations initial (fun ledger =>
          ledger.findByOwnerAndSource input.ownerUserId input.sourceStorageKey = some row)
          shared := by
  refine ⟨rfl, fun shared ⟨⟨fresh, unbound⟩, past, ledger, isPast, history, found⟩ => ?_⟩
  exact ⟨fresh, .inr ⟨valid, .inr ⟨unbound, past, ledger, isPast, history, row, found, rfl⟩⟩⟩

theorem raceLost_failed {row : ProcessingRequestRow} {error : DatabaseError}
    (fails : MayFail faults error) {shared : Shared ι}
    (looked : Looked operations initial index input shared) :
    RaceLost faults operations initial index draws input row (.database error) shared :=
  ⟨looked, .inr (.inr ⟨error, rfl, .inl fails⟩)⟩

/-- A failure of the infrastructure is no lost race. -/
theorem lostRaceError_of_infrastructure {request : ProcessingRequest} {error : DatabaseError}
    (infrastructure : error.IsInfrastructure) :
    lostRaceError request (.database error) = .database error := by
  have none : violatedUniqueIndex (.database error) = none := by
    cases error with
    | queryFailedError code constraint =>
        have different : code ≠ some (js "23505") := infrastructure
        simp [violatedUniqueIndex, different]
    | _ => rfl
  simp [lostRaceError, none]

/-- What `save` throws for a violation tells which committed entry the row collided with. -/
theorem raceLost_of_collided {request : ProcessingRequest} {uniqueIndex : UniqueIndex}
    {row : ProcessingRequestRow} (isId : row.processingRequestId = draws.uuid)
    {shared : Shared ι} (looked : Looked operations initial index input shared)
    (collided : Collided uniqueIndex row shared) :
    RaceLost faults operations initial index draws input row
      (lostRaceError request (.database (.uniqueViolation uniqueIndex.constraint))) shared := by
  refine ⟨looked, ?_⟩
  cases uniqueIndex with
  | primaryKey =>
      obtain ⟨stored, storedMem, sameId⟩ := collided
      have taken : (shared.database.requests.find? draws.uuid).isSome := by
        rw [← isId, ← (sameId : stored.processingRequestId = row.processingRequestId),
          KeyedTable.find?_key storedMem]
        rfl
      exact .inr (.inr ⟨_, rfl, .inr (.inl taken)⟩)
  | ownerIdempotency => exact collided
  | ownerSource => exact collided

end Post

section Lookups

variable [Fintype ι] [DecidableEq ι] {input : Input} {assertion : Shared ι → Prop}
  {leaf : Except Thrown (Option ProcessingRequest) → Connection → (Shared ι → Prop) → Prop}

/-- The lookup of the owner's key. -/
theorem follows_findByKey (entails : ∀ shared, assertion shared → Uncommitted index shared)
    (failed : ∀ error, MayFail faults error →
      leaf (.error (.database error)) .idle (Uncommitted index))
    (unbound : ∃ next, Persistent operations index next ∧
      (∀ shared, assertion shared → Represented operations initial shared →
        shared.database.requests.rows.find? (fun stored =>
          stored.ownerUserId = input.ownerUserId ∧
            stored.idempotencyKey = some input.idempotencyKey) = none → next shared) ∧
      leaf (.ok none) .idle next)
    (bound : ∀ row : ProcessingRequestRow, leaf (.ok (some row.toDomain)) .idle fun shared =>
      Uncommitted index shared ∧ Saw operations initial (fun ledger =>
        ledger.findByOwnerAndIdempotencyKey input.ownerUserId input.idempotencyKey = some row)
        shared) :
    (discipline faults operations initial).Follows index leaf
      ((repository .dataSource).findByOwnerAndIdempotencyKey input.ownerUserId
        input.idempotencyKey) .idle assertion := by
  refine follows_findOne persistent_uncommitted entails ?_ fun selects row selected => ?_
  · rintro error (fails | refused)
    · exact failed error fails
    · cases refused
  · cases selected
    cases row with
    | none =>
        exact unbound
    | some row =>
        refine ⟨_, persistent_uncommitted_saw _, fun shared holds represented found =>
          ⟨entails shared holds, represented.saw fun ledger represents => ?_⟩, bound row⟩
        rw [Ledger.findByOwnerAndIdempotencyKey, ← represents.requests, found]

/-- The lookup of the owner's source. -/
theorem follows_findBySource
    (entails : ∀ shared, assertion shared → Looked operations initial index input shared)
    (failed : ∀ error, MayFail faults error →
      leaf (.error (.database error)) .idle (Looked operations initial index input))
    (unknown : ∃ next, Persistent operations index next ∧
      (∀ shared, assertion shared → shared.database.requests.rows.find? (fun stored =>
        stored.ownerUserId = input.ownerUserId ∧
          stored.sourceStorageKey = input.sourceStorageKey) = none → next shared) ∧
      leaf (.ok none) .idle next)
    (known : ∀ row : ProcessingRequestRow, leaf (.ok (some row.toDomain)) .idle fun shared =>
      Looked operations initial index input shared ∧ Saw operations initial (fun ledger =>
        ledger.findByOwnerAndSource input.ownerUserId input.sourceStorageKey = some row)
        shared) :
    (discipline faults operations initial).Follows index leaf
      ((repository .dataSource).findByOwnerAndSource input.ownerUserId input.sourceStorageKey)
      .idle assertion := by
  refine follows_findOne (persistent_looked input) entails ?_ fun selects row selected => ?_
  · rintro error (fails | refused)
    · exact failed error fails
    · cases refused
  · cases selected
    cases row with
    | none =>
        obtain ⟨next, persistent, established, rest⟩ := unknown
        exact ⟨next, persistent, fun shared holds _ absent => established shared holds absent, rest⟩
    | some row =>
        refine ⟨_, (persistent_looked input).and (persistent_saw _),
          fun shared holds represented found =>
            ⟨entails shared holds, represented.saw fun ledger represents => ?_⟩, known row⟩
        rw [Ledger.findByOwnerAndSource, ← represents.requests, found]

end Lookups

section Follow

variable [Fintype ι] [DecidableEq ι] {draws : Draws} {input : Input}
  {correlationId : Option JsString}

/-- After a lost race the winner is found, and answered. -/
theorem follows_lostRace (valid : Valid draws input) (error : Thrown) :
    (discipline faults operations initial).Follows index
      (CreatePost faults operations initial index draws input)
      (lostRace (repository .dataSource) input error) .idle
      (RaceLost faults operations initial index draws input
        (requestRow draws input correlationId) error) := by
  unfold lostRace
  split
  · rw [Discipline.follows_bind]
    refine follows_findBySource (fun _ holds => holds.1)
      (fun error fails => createPost_failed fails fun _ looked => looked.1) ?_ fun row => ?_
    · refine ⟨fun _ => False, persistent_const False, fun shared holds absent =>
        holds.2.find_source rfl rfl absent, ?_⟩
      exact ⟨rfl, fun _ impossible => impossible.elim⟩
    · exact createPost_known valid row
  · rw [Discipline.follows_bind]
    refine follows_findByKey (fun _ holds => holds.1.1)
      (fun error fails => createPost_failed fails fun _ fresh => fresh) ?_ fun row => ?_
    · refine ⟨fun _ => False, persistent_const False, fun shared holds _ absent =>
        holds.2.find_key rfl rfl absent, ?_⟩
      exact ⟨rfl, fun _ impossible => impossible.elim⟩
    · exact Discipline.follows_ofExcept.mpr (createPost_replay valid row)
  · rename_i notSource notKey
    refine createPost_threw fun shared holds => ?_
    rcases holds with ⟨looked, lost⟩
    refine ⟨looked.1, ?_⟩
    cases error with
    | duplicateSourceError owner source => exact absurd rfl (notSource owner source)
    | duplicateIdempotencyKeyError owner key => exact absurd rfl (notKey owner key)
    | _ => exact lost

/-- Where the transaction of a create may end: committed, or with its error handled. -/
def InsertionPost (faults : Bool) (operations : ι → Operation) (initial : Database) (index : ι)
    (draws : Draws) (input : Input) (request : ProcessingRequest) (outcome : Except Thrown Unit)
    (own : Connection) (assertion : Shared ι → Prop) : Prop :=
  match outcome with
  | .ok _ =>
      CreatePost faults operations initial index draws input (.ok ⟨request, .created⟩) own assertion
  | .error error => (discipline faults operations initial).Follows index
      (CreatePost faults operations initial index draws input)
      (lostRace (repository .dataSource) input error) own assertion

theorem rollsBack_insertion (valid : Valid draws input) {request : ProcessingRequest}
    {error : Thrown} {assertion : Shared ι → Prop}
    (entails : ∀ shared, assertion shared →
      RaceLost faults operations initial index draws input
        (requestRow draws input correlationId) error shared) :
    RollsBack operations index
      (InsertionPost faults operations initial index draws input request) error assertion :=
  ⟨_, persistent_raceLost draws input _ error, entails, follows_lostRace valid error⟩

/-- The insert of the request: it joins the transaction, or tells which entry it collided with. -/
theorem follows_save
    {leaf : Except Thrown Unit → Connection → (Shared ι → Prop) → Prop}
    (threw : ∀ (error : Thrown) (lost : Shared ι → Prop), Persistent operations index lost →
      (∀ shared, lost shared → RaceLost faults operations initial index draws input
        (requestRow draws input correlationId) error shared) →
      leaf (.error error) .aborted lost)
    (saved : leaf (.ok ())
      (.opened (Transaction.empty.record (.insertRequest (requestRow draws input correlationId))))
      (Looked operations initial index input)) :
    (discipline faults operations initial).Follows index leaf
      ((repository .transactional).save (requestRow draws input correlationId).toDomain)
      (.opened .empty) (Looked operations initial index input) := by
  simp only [repository]
  rw [Discipline.follows_tryCatch]
  refine follows_modify (persistent_looked input) (fun _ looked => looked) (fun _ _ => rfl) ?_ ?_ ?_
  · intro error fails
    change leaf (.error (lostRaceError _ _)) _ _
    rw [lostRaceError_of_infrastructure fails.2]
    exact threw _ _ (persistent_looked input) fun _ looked => raceLost_failed fails looked
  · intro error _
    refine ⟨RaceLost faults operations initial index draws input
      (requestRow draws input correlationId)
      (lostRaceError (requestRow draws input correlationId).toDomain (.database error)),
      persistent_raceLost draws input _ _, ?_, ?_⟩
    · intro shared others choice nextOutboxId fresh attempted
      simp only [Modification.attempt, ProcessingRequestRow.toRow_toDomain] at attempted
      obtain ⟨uniqueIndex, rfl, stored, storedMem, collides⟩ := attemptRow_eq_error attempted
      exact raceLost_of_collided rfl fresh ⟨stored, storedMem, collides⟩
    · exact threw _ _ (persistent_raceLost draws input _ _) fun _ lost => lost
  · rintro write ⟨others, choice, nextOutboxId, view, attempted⟩
    obtain ⟨row, isRow, rfl, _⟩ := attempt_insertRequest attempted
    obtain rfl : requestRow draws input correlationId = row := by simpa using isRow
    exact ⟨(persistent_looked input).stable _, fun _ looked => looked, saved⟩

/-- The insertion: request, outbox row and event record, or a race that is handled. -/
theorem follows_insertion (isCreate : operations index = .create draws input)
    (valid : checked input = .ok correlationId)
    (isRequest : requestOf draws input correlationId =
      .ok (requestRow draws input correlationId).toDomain) :
    (discipline faults operations initial).Follows index
      (InTransaction faults operations initial index
        (InsertionPost faults operations initial index draws input
          (requestRow draws input correlationId).toDomain))
      (insertion input (requestRow draws input correlationId).toDomain
        ⟨repository .transactional, outboxWriter .transactional⟩)
      (.opened .empty) (Looked operations initial index input) := by
  have threw : ∀ (error : Thrown) (lost : Shared ι → Prop), Persistent operations index lost →
      (∀ shared, lost shared → RaceLost faults operations initial index draws input
        (requestRow draws input correlationId) error shared) →
      RollsBack operations index (InsertionPost faults operations initial index draws input
        (requestRow draws input correlationId).toDomain) error lost :=
    fun error lost _ entails => rollsBack_insertion ⟨correlationId, valid, isRequest⟩ entails
  have failed : ∀ error, MayFail faults error → RollsBack operations index
      (InsertionPost faults operations initial index draws input
        (requestRow draws input correlationId).toDomain) (.database error)
      (Looked operations initial index input) :=
    fun error fails => threw _ _ (persistent_looked input) fun _ looked =>
      raceLost_failed fails looked
  unfold insertion
  rw [Discipline.follows_bind]
  refine follows_save threw ?_
  simp only
  rw [Discipline.follows_bind]
  refine follows_modify (persistent_looked input) (fun _ looked => looked) ?_ failed ?_ ?_
  · exact fun _ _ => ⟨draws.uuid, rfl, .inr ⟨_, List.mem_singleton.mpr rfl, rfl⟩⟩
  · rintro error ⟨others, choice, nextOutboxId, view, attempted⟩
    cases attempted
  rintro write ⟨others, choice, nextOutboxId, view, attempted⟩
  obtain rfl := attempt_insertOutbox attempted
  refine ⟨(persistent_looked input).stable _, fun _ fresh => fresh, ?_⟩
  simp only
  refine follows_modify (persistent_looked input) (fun _ looked => looked) ?_ failed ?_ ?_
  · intro _ _
    rw [isCreate]
    rfl
  · intro error _
    refine ⟨fun shared => Looked operations initial index input shared ∧
      Recorded input.eventId shared, (persistent_looked input).and (persistent_recorded _),
      fun shared others choice nextOutboxId
        fresh attempted => ⟨fresh, attempt_insertEvent_error choice nextOutboxId attempted⟩, ?_⟩
    exact threw _ _ ((persistent_looked input).and (persistent_recorded _)) fun shared holds =>
      ⟨holds.1, .inr (.inr ⟨error, rfl, .inr (.inr holds.2)⟩)⟩
  rintro write ⟨others, choice, nextOutboxId, view, attempted⟩
  obtain ⟨recordedId, isId, rfl, _, _⟩ := attempt_insertEvent attempted
  have named : some draws.uuid = recordedId := by
    simpa [ProcessingRequestRow.toDomain, ProcessingRequestRow.uuidColumn, requestRow] using isId
  subst named
  refine ⟨(persistent_looked input).stable _, fun _ fresh => fresh, ?_⟩
  refine follows_commitTransaction (persistent_looked input) (fun _ looked => looked)
    (fun _ looked => looked.1) ?_ failed ⟨Wrote index (.insertRequest
      (requestRow draws input correlationId)), persistent_wrote _, ?_, ?_⟩
  · intro shared ledger _ admissible represents
    have unrecorded : ledger.isRecorded input.eventId = false :=
      unrecorded_of_admissible admissible represents
        (List.mem_append_right _ (List.mem_singleton.mpr rfl))
    have free : ∀ stored ∈ ledger.requests, ∀ uniqueIndex : UniqueIndex,
        ¬ uniqueIndex.Collides stored (requestRow draws input correlationId) := by
      rw [← represents.requests]
      exact admissible.inserted _ (by simp [Transaction.record])
    rw [isCreate, Operation.perform, perform_of_free valid isRequest unrecorded free]
    simp [Performed.map, insertionChanges, Transaction.record, Transaction.empty, Change.forget,
      Change.map, requestRow]
  · exact fun shared _ _ _ _ _ => ⟨_, List.mem_append_right _ (List.mem_singleton.mpr rfl), by
      simp [Transaction.record]⟩
  · exact ⟨rfl, fun shared wrote => ⟨correlationId, valid, isRequest, wrote⟩⟩

/-- Every create ends as one of the committed sessions, or with the request it saw at some moment
of the history, or throws for one of the reasons a create may throw. -/
theorem follows_create (isCreate : operations index = .create draws input) :
    (discipline faults operations initial).Follows index
      (CreatePost faults operations initial index draws input)
      (CreateProcessingRequestUseCase.execute (repository .dataSource) unitOfWork draws input)
      .idle (Uncommitted index) := by
  have failed : ∀ error, MayFail faults error →
      CreatePost faults operations initial index draws input (.error (.database error)) .idle
        (Uncommitted index) := fun error fails => createPost_failed fails fun _ fresh => fresh
  have invalid : ∀ error, Invalid draws input error →
      CreatePost faults operations initial index draws input (.error error) .idle
        (Uncommitted index) := fun error isInvalid =>
    createPost_threw fun _ fresh => ⟨fresh, .inl isInvalid⟩
  unfold CreateProcessingRequestUseCase.execute
  cases noEventId : isBlank input.eventId with
  | true => exact invalid _ (.inl (by simp [checked, noEventId]))
  | false =>
  cases noKey : isBlank input.idempotencyKey with
  | true => exact invalid _ (.inl (by simp [checked, noEventId, noKey]))
  | false =>
  simp only [Bool.false_eq_true, if_false]
  cases correlation : validCorrelationId input.correlationId with
  | error error => exact invalid _ (.inl (by simp [checked, noEventId, noKey, correlation]))
  | ok correlationId =>
  have valid : checked input = .ok correlationId := by
    simp [checked, noEventId, noKey, correlation]
  simp only [Program.ofExcept_ok, Program.pure_bind]
  rw [Discipline.follows_bind]
  refine follows_findByEventId persistent_uncommitted (fun _ fresh => fresh) failed ?_
    fun row => ⟨rfl, fun _ holds => ⟨holds.1, .inl holds.2⟩⟩
  simp only
  cases requested : requestOf draws input correlationId with
  | error error =>
      unfold requestOf at requested
      rw [requested]
      exact invalid _ (.inr ⟨correlationId, valid, requested⟩)
  | ok request =>
  obtain rfl := eq_toDomain_of_requestOf requested
  have isRequest := requested
  unfold requestOf at requested
  rw [requested]
  simp only [Program.ofExcept_ok, Program.pure_bind]
  rw [Discipline.follows_bind]
  refine follows_findByKey (fun _ fresh => fresh) failed
    ⟨_, persistent_looked input, fun _ fresh represented absent => ⟨fresh, represented.saw
      fun ledger represents => ?_⟩, ?_⟩ fun row =>
        Discipline.follows_ofExcept.mpr
          (createPost_replay ⟨correlationId, valid, isRequest⟩ row)
  · rw [Ledger.findByOwnerAndIdempotencyKey, ← represents.requests, absent]
  simp only
  rw [Discipline.follows_bind]
  have failed : ∀ error, MayFail faults error →
      CreatePost faults operations initial index draws input (.error (.database error)) .idle
        (Looked operations initial index input) :=
    fun error fails => createPost_failed fails fun _ looked => looked.1
  refine follows_findBySource (fun _ looked => looked) failed
    ⟨_, persistent_looked input, fun _ looked _ => looked, ?_⟩ fun row =>
      createPost_known ⟨correlationId, valid, isRequest⟩ row
  simp only
  rw [Discipline.follows_tryCatch, Discipline.follows_bind]
  refine Discipline.Follows.mono (follows_runInTransaction (persistent_looked input) ?_
    (follows_insertion isCreate valid isRequest)) ?_
  · exact fun error fails => failed error fails
  · intro outcome own assertion reached
    cases outcome with
    | ok _ => exact reached
    | error error => exact reached

end Follow

end Postgres

end ProcessingCatalog
