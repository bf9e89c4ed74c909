import ProcessingCatalog.Persistence.Sessions
import ProcessingCatalog.Store.Agreement
import ProcessingCatalog.Store.Creation
import Mathlib.Data.Finset.Card

/-!
# Creation is exactly once for each upload

Concurrent creates with fresh events: which of them wrote, what the others leave
behind, and what each of them answers.
-/

namespace ProcessingCatalog

open Effect TypeOrm CreateProcessingRequestUseCase

namespace Postgres

variable {ι : Type} [Fintype ι] [DecidableEq ι] {draws : ι → Draws} {input : ι → Input}
  {initial : Database} {nextOutboxId : ℕ}
  {world : Machine.World (machine ι false) Thrown Answer}

/-- The answer of a call that has ended. -/
abbrev outcomeOf {faults : Bool} (world : Machine.World (machine ι faults) Thrown Answer)
    (index : ι) : Option (Except Thrown Answer) :=
  (world.programs index).outcome?

/-- Whether a call has answered that it created its request. -/
def answersCreated : Option (Except Thrown Answer) → Bool
  | some (.ok (.result ⟨_, .created⟩)) => true
  | _ => false

/-- The calls that have answered `created`. -/
def createdCalls {faults : Bool} (world : Machine.World (machine ι faults) Thrown Answer) :
    Finset ι :=
  Finset.univ.filter fun index => answersCreated (outcomeOf world index) = true

theorem answersCreated_iff {outcome : Option (Except Thrown Answer)} :
    answersCreated outcome = true ↔
      ∃ request, outcome = some (.ok (.result ⟨request, .created⟩)) := by
  constructor
  · intro created
    unfold answersCreated at created
    split at created
    · exact ⟨_, rfl⟩
    · cases created
  · rintro ⟨request, rfl⟩
    rfl

/-- How a create has ended. -/
theorem createEnded (numbered : Numbered initial nextOutboxId)
    {faults : Bool} {world : Machine.World (machine ι faults) Thrown Answer}
    (reached : Machine.Reaches (start faults (creates draws input) initial nextOutboxId) world)
    {index : ι} {outcome : Except Thrown Answer} (finished : outcomeOf world index = some outcome) :
    ∃ result, outcome = result.map .result ∧ CreateEnded faults (creates draws input) initial index
      (draws index) (input index) result world.shared :=
  ended_reached numbered reached (Program.outcome?_eq_some_iff.mp finished)

/-- What the calls in `created`, and no others, have left in the tables. -/
structure CreatedBy (draws : ι → Draws) (input : ι → Input) (created : Finset ι)
    (before after : Database) : Prop where
  requests : after.requests.rows.length = before.requests.rows.length + created.card
  events : after.events.rows.length = before.events.rows.length + created.card
  outbox : after.outbox.rows.length = before.outbox.rows.length + created.card
  announcements :
    (after.outbox.rows.countP fun row => row.entry.route = .videoValidationRequested) =
      (before.outbox.rows.countP fun row => row.entry.route = .videoValidationRequested) +
        created.card
  request_of : ∀ row ∈ after.requests, row ∈ before.requests ∨
    ∃ index ∈ created, ∃ correlationId, row = requestRow (draws index) (input index) correlationId
  event_of : ∀ event ∈ after.events, event ∈ before.events ∨
    ∃ index ∈ created, event = ⟨(input index).eventId, some (draws index).uuid⟩
  outbox_of : ∀ row ∈ after.outbox, row ∈ before.outbox ∨
    ∃ index ∈ created, ∃ correlationId, row.entry = ⟨.videoValidationRequested, validationRequested
      (input index) (requestRow (draws index) (input index) correlationId).toDomain⟩

section Commits

variable {faults : Bool} {world : Machine.World (machine ι faults) Thrown Answer}

/-- What a commit that wrote is made of. -/
theorem change_of_committed
    (invariant : Invariant (creates draws input) initial world.shared world.locals)
    {entry : ι × List Write} (entryMem : entry ∈ world.shared.committed) {write : Write}
    (writeMem : write ∈ entry.2) : ∃ correlationId,
      write.forget ∈ insertionChanges (input entry.1)
        (requestRow (draws entry.1) (input entry.1) correlationId).toDomain
        (requestRow (draws entry.1) (input entry.1) correlationId) := by
  obtain ⟨ledger, history, _⟩ := invariant.represents
  obtain ⟨correlationId, _, changes⟩ := history.creation entryMem (List.ne_nil_of_mem writeMem)
  exact ⟨correlationId, changes ▸ List.mem_map_of_mem writeMem⟩

omit [Fintype ι] [DecidableEq ι] in
theorem fresh_creates (fresh : ∀ index, initial.events.find? (input index).eventId = none)
    (distinct : Function.Injective fun index => (input index).eventId) (index : ι) :
    Fresh (creates draws input) initial index :=
  ⟨fresh index, fun _ different same => different (distinct same)⟩

/-- A call is committed when it has answered `created`, and with a write. -/
theorem wrote_of_created (numbered : Numbered initial nextOutboxId)
    (reached : Machine.Reaches (start faults (creates draws input) initial nextOutboxId) world)
    {index : ι} (created : index ∈ createdCalls world) :
    ∃ writes, (index, writes) ∈ world.shared.committed ∧ writes ≠ [] := by
  obtain ⟨request, finished⟩ := answersCreated_iff.mp (Finset.mem_filter.mp created).2
  obtain ⟨result, isOutcome, ended⟩ := createEnded numbered reached finished
  cases result with
  | error error => cases isOutcome
  | ok result =>
      cases isOutcome
      obtain ⟨correlationId, _, _, writes, committed, writeMem⟩ := ended
      exact ⟨writes, committed, List.ne_nil_of_mem writeMem⟩

/-- A call that has ended and has committed, has answered `created`. -/
theorem created_of_committed (numbered : Numbered initial nextOutboxId)
    (reached : Machine.Reaches (start faults (creates draws input) initial nextOutboxId) world)
    {entry : ι × List Write} (committed : entry ∈ world.shared.committed)
    (finished : (outcomeOf world entry.1).isSome) : entry.1 ∈ createdCalls world := by
  obtain ⟨outcome, isOutcome⟩ := Option.isSome_iff_exists.mp finished
  obtain ⟨result, rfl, ended⟩ := createEnded numbered reached isOutcome
  refine Finset.mem_filter.mpr ⟨Finset.mem_univ _, answersCreated_iff.mpr ?_⟩
  match result, ended with
  | .ok ⟨request, .created⟩, _ => exact ⟨request, isOutcome⟩
  | .ok ⟨request, .replayed⟩, ended => exact absurd rfl (ended.1 entry committed)
  | .error error, ended => exact absurd rfl (ended.1 entry committed)

theorem wrote_of_committed (numbered : Numbered initial nextOutboxId)
    (reached : Machine.Reaches (start faults (creates draws input) initial nextOutboxId) world)
    (finished : ∀ index, (outcomeOf world index).isSome) {entry : ι × List Write}
    (committed : entry ∈ world.shared.committed) : entry.2 ≠ [] := by
  have created := created_of_committed numbered reached committed (finished entry.1)
  obtain ⟨writes, written, wrote⟩ := wrote_of_created numbered reached created
  have once := (invariant_reached numbered reached).once
  have same : (entry.1, writes) = entry := List.inj_on_of_nodup_map once written committed rfl
  rw [← same]
  exact wrote

theorem card_createdCalls (numbered : Numbered initial nextOutboxId)
    (reached : Machine.Reaches (start faults (creates draws input) initial nextOutboxId) world)
    (finished : ∀ index, (outcomeOf world index).isSome) :
    (createdCalls world).card = world.shared.committed.length := by
  have same : createdCalls world = (world.shared.committed.map Prod.fst).toFinset := by
    ext index
    rw [List.mem_toFinset, List.mem_map]
    constructor
    · intro created
      obtain ⟨writes, committed, _⟩ := wrote_of_created numbered reached created
      exact ⟨_, committed, rfl⟩
    · rintro ⟨entry, committed, rfl⟩
      exact created_of_committed numbered reached committed (finished entry.1)
  rw [same, List.toFinset_card_of_nodup (invariant_reached numbered reached).once,
    List.length_map]

/-- Once every call has ended, the tables have grown by what the created calls wrote. -/
theorem createdBy_of_finished (numbered : Numbered initial nextOutboxId)
    (reached : Machine.Reaches (start faults (creates draws input) initial nextOutboxId) world)
    (finished : ∀ index, (outcomeOf world index).isSome) :
    CreatedBy draws input (createdCalls world) initial world.shared.database := by
  have invariant := invariant_reached numbered reached
  obtain ⟨ledger, history, represents⟩ := invariant.represents
  have grown := history.grown fun entry => wrote_of_committed numbered reached finished
  rw [← card_createdCalls numbered reached finished] at grown
  have changeOf : ∀ {write}, write ∈ world.shared.committed.flatMap Prod.snd →
      ∃ index ∈ createdCalls world, ∃ correlationId, write.forget ∈ insertionChanges (input index)
        (requestRow (draws index) (input index) correlationId).toDomain
        (requestRow (draws index) (input index) correlationId) := by
    intro write writeMem
    obtain ⟨entry, committed, written⟩ := List.mem_flatMap.mp writeMem
    exact ⟨entry.1, created_of_committed numbered reached committed (finished _),
      change_of_committed invariant committed written⟩
  have entries : world.shared.database.outbox.rows.length = ledger.outbox.length := by
    rw [← represents.outbox.length_eq, List.length_map]
  have announced : (world.shared.database.outbox.rows.countP fun row =>
      row.entry.route = .videoValidationRequested) =
        ledger.outbox.countP fun entry => entry.route = .videoValidationRequested := by
    rw [← represents.outbox.countP_eq, List.countP_map]
    rfl
  constructor
  · rw [represents.requests]
    exact grown.requests
  · rw [represents.events]
    exact grown.events
  · rw [entries, grown.outbox]
    simp [Ledger.ofDatabase]
  · rw [announced, grown.announcements]
    simp [Ledger.ofDatabase, List.countP_map, Function.comp_def]
  · intro row rowMem
    rw [invariant.database_eq] at rowMem
    rcases Database.mem_requests_applyAll rowMem with old | inserted | saved
    · exact .inl old
    · obtain ⟨index, created, correlationId, isChange⟩ := changeOf inserted
      refine .inr ⟨index, created, correlationId, ?_⟩
      simpa [Change.forget, Change.map, insertionChanges] using isChange
    · obtain ⟨index, created, correlationId, isChange⟩ := changeOf saved
      simp [Change.forget, Change.map, insertionChanges] at isChange
  · intro event eventMem
    rw [invariant.database_eq] at eventMem
    rcases Database.mem_events_applyAll eventMem with old | inserted
    · exact .inl old
    · obtain ⟨index, created, correlationId, isChange⟩ := changeOf inserted
      refine .inr ⟨index, created, ?_⟩
      simpa [Change.forget, Change.map, insertionChanges, requestRow] using isChange
  · intro row rowMem
    rw [invariant.database_eq] at rowMem
    rcases Database.mem_outbox_applyAll rowMem with old | inserted
    · exact .inl old
    · obtain ⟨index, created, correlationId, isChange⟩ := changeOf inserted
      refine .inr ⟨index, created, correlationId, ?_⟩
      simpa [Change.forget, Change.map, insertionChanges] using isChange

/-- The request of a successful answer is stored, under the call's owner and source. -/
theorem stored_of_answered (numbered : Numbered initial nextOutboxId)
    (fresh : ∀ index, initial.events.find? (input index).eventId = none)
    (distinct : Function.Injective fun index => (input index).eventId)
    (reached : Machine.Reaches (start faults (creates draws input) initial nextOutboxId) world)
    {index : ι} {result : Result}
    (answered : outcomeOf world index = some (.ok (.result result))) :
    ∃ row ∈ world.shared.database.requests, result.request = row.toDomain ∧
      row.ownerUserId = (input index).ownerUserId ∧
      row.sourceStorageKey = (input index).sourceStorageKey := by
  have invariant := invariant_reached numbered reached
  obtain ⟨ledger, history, represents⟩ := invariant.represents
  obtain ⟨ended, isOutcome, createEnded⟩ := createEnded numbered reached answered
  rw [represents.requests]
  match ended, isOutcome, createEnded with
  | .ok ⟨request, .created⟩, isOutcome, ended =>
      cases isOutcome
      obtain ⟨correlationId, _, isRequest, writes, committed, inserted⟩ := ended
      exact ⟨_, history.mem_of_insertRequest committed inserted, eq_toDomain_of_requestOf isRequest,
        rfl, rfl⟩
  | .ok ⟨request, .replayed⟩, isOutcome, ⟨uncommitted, replayed⟩ =>
      cases isOutcome
      rcases replayed with recorded |
        ⟨_, ⟨past, before, isPast, pastHistory, bound, found, source, rfl⟩ |
          ⟨_, past, before, isPast, pastHistory, known, found, rfl⟩⟩
      · exact absurd recorded
          (not_recorded_of_uncommitted invariant (fresh_creates fresh distinct index) uncommitted)
      · obtain ⟨boundMem, owner, _⟩ := Ledger.mem_of_findByOwnerAndIdempotencyKey found
        exact ⟨bound, pastHistory.mem_requests history isPast boundMem, rfl, owner, source⟩
      · obtain ⟨knownMem, owner, source⟩ := Ledger.mem_of_findByOwnerAndSource found
        exact ⟨known, pastHistory.mem_requests history isPast knownMem, rfl, owner, source⟩

/-- A call that throws is invalid, or finds its key bound to another source, or has drawn an
identifier that is taken. -/
theorem threw_of_answered {world : Machine.World (machine ι false) Thrown Answer}
    (numbered : Numbered initial nextOutboxId)
    (fresh : ∀ index, initial.events.find? (input index).eventId = none)
    (distinct : Function.Injective fun index => (input index).eventId)
    (reached : Machine.Reaches (start false (creates draws input) initial nextOutboxId) world)
    {index : ι} {error : Thrown} (answered : outcomeOf world index = some (.error error)) :
    Invalid (draws index) (input index) error ∨
    (error = .idempotencyConflictError ∧ ∃ row ∈ world.shared.database.requests,
      row.ownerUserId = (input index).ownerUserId ∧
      row.idempotencyKey = some (input index).idempotencyKey ∧
      row.sourceStorageKey ≠ (input index).sourceStorageKey) ∨
    ∃ row ∈ world.shared.database.requests, row.processingRequestId = (draws index).uuid := by
  have invariant := invariant_reached numbered reached
  obtain ⟨ledger, history, represents⟩ := invariant.represents
  obtain ⟨ended, isOutcome, createEnded⟩ := createEnded numbered reached answered
  cases ended with
  | ok result => cases isOutcome
  | error error' =>
      cases isOutcome
      obtain ⟨uncommitted, invalid |
        ⟨rfl, _, past, before, isPast, pastHistory, bound, found, source⟩ |
        ⟨failure, rfl, ⟨faults, _⟩ | taken | recorded⟩⟩ := createEnded
      · exact .inl invalid
      · obtain ⟨boundMem, owner, key⟩ := Ledger.mem_of_findByOwnerAndIdempotencyKey found
        refine .inr (.inl ⟨rfl, bound, ?_, owner, key, source⟩)
        rw [represents.requests]
        exact pastHistory.mem_requests history isPast boundMem
      · cases faults
      · obtain ⟨row, found⟩ := Option.isSome_iff_exists.mp taken
        exact .inr (.inr ⟨row, KeyedTable.mem_of_find? found, KeyedTable.key_of_find? found⟩)
      · exact absurd recorded
          (not_recorded_of_uncommitted invariant (fresh_creates fresh distinct index) uncommitted)

end Commits

/-- In every interleaving of creates with fresh events, where nothing fails: no owner has two
requests for one source or for one key; once every call has ended, the tables have grown by one
request, one announcement and one recorded event for each call that answered `created`, and hold
nothing of the others; a call that answered, answered a stored request of its owner and source;
and one that threw was invalid, or its key is bound to another source, or its identifier taken. -/
theorem creation_exactly_once (draws : ι → Draws) (input : ι → Input)
    (unique : UniqueIndexes initial.requests) (numbered : Numbered initial nextOutboxId)
    (fresh : ∀ index, initial.events.find? (input index).eventId = none)
    (distinct : Function.Injective fun index => (input index).eventId)
    {world : Machine.World (machine ι false) Thrown Answer}
    (reached : Machine.Reaches (start false (creates draws input) initial nextOutboxId) world) :
    (∀ left ∈ world.shared.database.requests, ∀ right ∈ world.shared.database.requests,
      left.ownerUserId = right.ownerUserId →
      left.sourceStorageKey = right.sourceStorageKey ∨
        (left.idempotencyKey = right.idempotencyKey ∧ left.idempotencyKey.isSome) →
      left = right) ∧
    ((∀ index, (outcomeOf world index).isSome) →
      CreatedBy draws input (createdCalls world) initial world.shared.database) ∧
    (∀ index result, outcomeOf world index = some (.ok (.result result)) →
      ∃ row ∈ world.shared.database.requests, result.request = row.toDomain ∧
        row.ownerUserId = (input index).ownerUserId ∧
        row.sourceStorageKey = (input index).sourceStorageKey) ∧
    ∀ index error, outcomeOf world index = some (.error error) →
      Invalid (draws index) (input index) error ∨
      (error = .idempotencyConflictError ∧ ∃ row ∈ world.shared.database.requests,
        row.ownerUserId = (input index).ownerUserId ∧
        row.idempotencyKey = some (input index).idempotencyKey ∧
        row.sourceStorageKey ≠ (input index).sourceStorageKey) ∨
      ∃ row ∈ world.shared.database.requests, row.processingRequestId = (draws index).uuid := by
  obtain ⟨ledger, history, represents⟩ := (invariant_reached numbered reached).represents
  have kept : UniqueIndexes world.shared.database.requests := by
    rw [represents.requests]
    exact history.uniqueIndexes unique
  refine ⟨fun left leftMem right rightMem owner same => ?_,
    createdBy_of_finished numbered reached,
    fun index result => stored_of_answered numbered fresh distinct reached,
    fun index error => threw_of_answered numbered fresh distinct reached⟩
  rcases same with source | ⟨key, defined⟩
  · exact kept .ownerSource left leftMem right rightMem ⟨owner, source⟩
  · exact kept .ownerIdempotency left leftMem right rightMem ⟨owner, key, defined⟩

/-- Two posts of one upload under one key, each with its own draws. -/
def raceDraws : Fin 2 → Draws
  | 0 => ⟨1789953000000, .repeated 1, .repeated 2, 3000⟩
  | 1 => ⟨1789953000001, .repeated 3, .repeated 4, 3000⟩

def raceInput : Fin 2 → Input
  | 0 => ⟨js "e-1", js "owner", js "owner@example.com", js "uploads/a.mp4", js "key", none⟩
  | 1 => ⟨js "e-2", js "owner", js "owner@example.com", js "uploads/a.mp4", js "key", none⟩

/-- Both creates miss the lookups, and the second loses. -/
theorem creation_exactly_once_race : ∃ database : Database,
    CreatedBy raceDraws raceInput {0} .empty database := by
  have ran : ((Machine.runActions (start false (creates raceDraws raceInput) .empty 1)
      [.session 0 .proceed, .session 0 .proceed, .session 0 .proceed, .session 1 .proceed,
        .session 1 .proceed, .session 1 .proceed, .session 0 .proceed, .session 0 .proceed,
        .session 1 .proceed, .session 0 .proceed, .session 0 .proceed, .session 0 .proceed,
        .session 1 (.violate .ownerIdempotency), .session 1 .proceed, .session 1 .proceed]).map
      fun world => decide ((∀ index, (outcomeOf world index).isSome) ∧ createdCalls world = {0})) =
        some true := by
    decide +kernel
  obtain ⟨world, ran, ended⟩ := Option.map_eq_some_iff.mp ran
  obtain ⟨finished, created⟩ := of_decide_eq_true ended
  refine ⟨world.shared.database, ?_⟩
  rw [← created]
  exact (creation_exactly_once raceDraws raceInput uniqueIndexes_empty
    (by simp [Numbered, Database.empty]) (fun index => rfl) (by decide +kernel)
    (Machine.reaches_of_runActions ran)).2.1 finished

end Postgres

end ProcessingCatalog
