import ProcessingCatalog.Persistence.ExactlyOnce
import ProcessingCatalog.Persistence.SerialRun

/-!
# An order of concurrent creates

The creates that committed, in commit order, and each other create at a moment
at which it saw its answer: run one after another in that order, the calls
answer what they answered, but for a call that answered by its source while its
key was being bound to another one.
-/

namespace ProcessingCatalog

open Effect TypeOrm CreateProcessingRequestUseCase

namespace Postgres

variable {ι : Type} [Fintype ι] [DecidableEq ι] {draws : ι → Draws} {input : ι → Input}
  {initial : Database} {nextOutboxId : ℕ} {faults : Bool}
  {world : Machine.World (machine ι faults) Thrown Answer}

/-- A call that answered by its source, and in the order of the calls ends in a conflict: another
call has bound its key to another source. -/
def Overtaken (input : ι → Input) (initial : Database)
    (world : Machine.World (machine ι faults) Thrown Answer) (index : ι)
    (outcome : Except Thrown Answer) : Prop :=
  outcome = .error .idempotencyConflictError ∧
  (∃ request, outcomeOf world index = some (.ok (.result ⟨request, .replayed⟩)) ∧
    request.sourceStorageKey = (input index).sourceStorageKey) ∧
  ∃ row ∈ world.shared.database.requests, row ∉ initial.requests ∧
    row.ownerUserId = (input index).ownerUserId ∧
    row.idempotencyKey = some (input index).idempotencyKey ∧
    row.sourceStorageKey ≠ (input index).sourceStorageKey

/-- An outcome of the order agrees with that of the run. -/
def AgreesWith (input : ι → Input) (initial : Database)
    (world : Machine.World (machine ι faults) Thrown Answer) (index : ι)
    (outcome : Except Thrown Answer) : Prop :=
  outcomeOf world index = some outcome ∨ Overtaken input initial world index outcome

section Moments

variable {ledger : Ledger}

omit [Fintype ι] [DecidableEq ι] in
/-- A create that answered with a request under its key, or refused to, reads the same there at the
moment it saw that request. -/
theorem perform_at_key {index : ι} (valid : Valid (draws index) (input index))
    (unlinked : ledger.findByEventId (input index).eventId = none) {bound : ProcessingRequestRow}
    (found : ledger.findByOwnerAndIdempotencyKey (input index).ownerUserId
      (input index).idempotencyKey = some bound) :
    (creates draws input index).perform ledger =
      ((replay bound.toDomain (input index)).map .result, []) := by
  obtain ⟨correlationId, isChecked, isRequest⟩ := valid
  rw [History.perform_creates, perform_of_bound isChecked isRequest unlinked found]
  rfl

omit [Fintype ι] [DecidableEq ι] in
theorem perform_at_source {index : ι} (valid : Valid (draws index) (input index))
    (unlinked : ledger.findByEventId (input index).eventId = none)
    (unbound : ledger.findByOwnerAndIdempotencyKey (input index).ownerUserId
      (input index).idempotencyKey = none) {known : ProcessingRequestRow}
    (found : ledger.findByOwnerAndSource (input index).ownerUserId
      (input index).sourceStorageKey = some known) :
    (creates draws input index).perform ledger =
      (.ok (.result ⟨known.toDomain, .replayed⟩), []) := by
  obtain ⟨correlationId, isChecked, isRequest⟩ := valid
  rw [History.perform_creates, perform_of_known isChecked isRequest unlinked unbound found]
  rfl

end Moments

section Order

variable {world : Machine.World (machine ι false) Thrown Answer}

/-- A committed create has answered what it does at the moment of its commit. -/
theorem agrees_of_commit (numbered : Numbered initial nextOutboxId)
    (reached : Machine.Reaches (start false (creates draws input) initial nextOutboxId) world)
    (finished : ∀ index, (outcomeOf world index).isSome) {past : List (ι × List Write)}
    {before : Ledger} {index : ι} {writes : List Write}
    (isPast : past ++ [(index, writes)] <+: world.shared.committed)
    (pastHistory : History (creates draws input) (.ofDatabase initial) past before) :
    AgreesWith input initial world index ((creates draws input index).perform before).1 := by
  obtain ⟨ledger, history, _⟩ := (invariant_reached numbered reached).represents
  have committed : (index, writes) ∈ world.shared.committed :=
    isPast.subset (List.mem_append_right _ (List.mem_singleton.mpr rfl))
  have wrote := wrote_of_committed numbered reached finished committed
  obtain ⟨more, isMore⟩ := isPast
  rw [← isMore] at history
  obtain ⟨after, shorter⟩ := history.of_append
  obtain ⟨middle, middleHistory, performed, _⟩ := shorter.snoc_cases
  rw [middleHistory.unique pastHistory] at performed
  have created := created_of_committed numbered reached committed (finished index)
  obtain ⟨request, answered⟩ := answersCreated_iff.mp (Finset.mem_filter.mp created).2
  obtain ⟨result, isOutcome, ended⟩ := createEnded numbered reached answered
  left
  rcases CreateProcessingRequestUseCase.perform_cases (draws index) (input index) before with
    nothing | ⟨correlationId, isChecked, inserted, _⟩
  · rw [History.perform_creates, Performed.map, nothing] at performed
    exact absurd (List.map_eq_nil_iff.mp performed.symm) wrote
  · rw [answered, History.perform_creates, Performed.map, inserted]
    cases result with
    | error error => cases isOutcome
    | ok result =>
        cases isOutcome
        obtain ⟨correlationId', isChecked', isRequest, _⟩ := ended
        obtain rfl : correlationId' = correlationId := by simpa [isChecked] using isChecked'.symm
        rw [eq_toDomain_of_requestOf isRequest]
        rfl

/-- A create that has committed nothing has answered what it does at some moment of the run. -/
theorem reads_of_uncommitted (unique : UniqueIndexes initial.requests)
    (numbered : Numbered initial nextOutboxId)
    (fresh : ∀ index, Fresh (creates draws input) initial index)
    (newId : ∀ index, initial.requests.find? (draws index).uuid = none)
    (distinctIds : Function.Injective fun index => (draws index).uuid)
    (reached : Machine.Reaches (start false (creates draws input) initial nextOutboxId) world)
    (finished : ∀ index, (outcomeOf world index).isSome) {index : ι}
    (uncommitted : Uncommitted index world.shared) :
    Reads (creates draws input) (.ofDatabase initial) world.shared.committed
      (AgreesWith input initial world) index := by
  have invariant := invariant_reached numbered reached
  obtain ⟨ledger, history, represents⟩ := invariant.represents
  have notRecorded := not_recorded_of_uncommitted invariant (fresh index) uncommitted
  have unlinked : ∀ {past before}, past <+: world.shared.committed →
      History (creates draws input) (.ofDatabase initial) past before →
      before.findByEventId (input index).eventId = none := by
    intro past before isPast pastHistory
    cases found : before.events.find? (input index).eventId with
    | none => simp [Ledger.findByEventId, found]
    | some event =>
        have recordedThen : before.isRecorded (input index).eventId = true := by
          simp [Ledger.isRecorded, found]
        have recorded := pastHistory.isRecorded history isPast recordedThen
        rw [isRecorded_of_represents represents] at recorded
        exact absurd recorded notRecorded
  obtain ⟨outcome, isOutcome⟩ := Option.isSome_iff_exists.mp (finished index)
  obtain ⟨result, rfl, ended⟩ := createEnded numbered reached isOutcome
  rcases result with error | ⟨request, _ | _⟩
  · obtain ⟨_, threw⟩ := ended
    rcases threw with invalid | ⟨rfl, valid, past, before, isPast, pastHistory, bound, found,
      source⟩ | ⟨failure, rfl, ⟨faults, _⟩ | taken | recorded⟩
    · have performed := perform_of_invalid invalid (unlinked List.nil_prefix .start)
      refine ⟨[], _, List.nil_prefix, .start, ?_, .inl ?_⟩ <;>
        rw [History.perform_creates, performed]
      · rfl
      · exact isOutcome
    · have performed := perform_at_key valid (unlinked isPast pastHistory) found
      refine ⟨past, before, isPast, pastHistory, by rw [performed], ?_⟩
      rw [performed]
      exact .inl (by simpa [replay, ProcessingRequestRow.toDomain, source] using isOutcome)
    · cases faults
    · obtain ⟨row, found⟩ := Option.isSome_iff_exists.mp taken
      have isId := KeyedTable.key_of_find? found
      rcases (createdBy_of_finished numbered reached finished).request_of row
        (KeyedTable.mem_of_find? found) with initially | ⟨other, created, correlationId, isRow⟩
      · exact absurd isId (KeyedTable.find?_eq_none_iff.mp (newId index) row initially)
      · obtain ⟨writes, committed, _⟩ := wrote_of_created numbered reached created
        have same : (draws other).uuid = (draws index).uuid := by
          rw [← isId, isRow]
          rfl
        exact absurd (distinctIds same) (uncommitted _ committed)
    · exact absurd recorded notRecorded
  · obtain ⟨_, _, _, writes, committed, _⟩ := ended
    exact absurd rfl (uncommitted _ committed)
  · obtain ⟨_, replayed⟩ := ended
    rcases replayed with recorded | ⟨valid, byKey | ⟨sawUnbound, bySource⟩⟩
    · exact absurd recorded notRecorded
    · obtain ⟨past, before, isPast, pastHistory, bound, found, source, rfl⟩ := byKey
      have performed := perform_at_key valid (unlinked isPast pastHistory) found
      refine ⟨past, before, isPast, pastHistory, by rw [performed], ?_⟩
      rw [performed]
      exact .inl (by simpa [replay, ProcessingRequestRow.toDomain, source] using isOutcome)
    · obtain ⟨past, before, isPast, pastHistory, known, found, rfl⟩ := bySource
      obtain ⟨knownMem, owner, source⟩ := Ledger.mem_of_findByOwnerAndSource found
      cases keyed : before.findByOwnerAndIdempotencyKey (input index).ownerUserId
          (input index).idempotencyKey with
      | none =>
          have performed := perform_at_source valid (unlinked isPast pastHistory) keyed found
          refine ⟨past, before, isPast, pastHistory, by rw [performed], ?_⟩
          rw [performed]
          exact .inl isOutcome
      | some bound =>
          have performed := perform_at_key valid (unlinked isPast pastHistory) keyed
          refine ⟨past, before, isPast, pastHistory, by rw [performed], ?_⟩
          rw [performed]
          obtain ⟨boundMem, boundOwner, boundKey⟩ :=
            Ledger.mem_of_findByOwnerAndIdempotencyKey keyed
          by_cases same : bound.sourceStorageKey = (input index).sourceStorageKey
          · have isKnown : bound = known := pastHistory.uniqueIndexes unique .ownerSource bound
              boundMem known knownMem ⟨boundOwner.trans owner.symm, same.trans source.symm⟩
            subst isKnown
            exact .inl (by simpa [replay, ProcessingRequestRow.toDomain, same] using isOutcome)
          · refine .inr ⟨by simp [replay, ProcessingRequestRow.toDomain, same, Except.map],
              ⟨_, isOutcome, source⟩, bound, ?_, ?_, boundOwner, boundKey, same⟩
            · rw [represents.requests]
              exact pastHistory.mem_requests history isPast boundMem
            · intro initially
              obtain ⟨earlier, earlierLedger, _, earlierHistory, missed⟩ := sawUnbound
              have stillBound := History.start.mem_requests earlierHistory
                (List.nil_prefix) initially
              have absent := List.find?_eq_none.mp missed bound stillBound
              simp [boundOwner, boundKey] at absent

end Order

/-- Concurrent creates with fresh events and identifiers, where nothing fails, have an order that
leaves the same stored requests when they run one after another, and in which every call answers
what it answered, unless it answered by its source and another call bound its key to another one. -/
theorem create_order (draws : ι → Draws) (input : ι → Input)
    (unique : UniqueIndexes initial.requests) (numbered : Numbered initial nextOutboxId)
    (fresh : ∀ index, initial.events.find? (input index).eventId = none)
    (distinct : Function.Injective fun index => (input index).eventId)
    (newId : ∀ index, initial.requests.find? (draws index).uuid = none)
    (distinctIds : Function.Injective fun index => (draws index).uuid)
    {world : Machine.World (machine ι false) Thrown Answer}
    (reached : Machine.Reaches (start false (creates draws input) initial nextOutboxId) world)
    (finished : ∀ index, (outcomeOf world index).isSome) :
    ∃ order : List ι, order.Nodup ∧ (∀ index, index ∈ order) ∧
      let serial := runSerially .lenient (creates draws input) order ⟨initial, nextOutboxId, []⟩
      serial.2.database.requests = world.shared.database.requests ∧
      List.Forall₂ (AgreesWith input initial world) order serial.1 := by
  have invariant := invariant_reached numbered reached
  obtain ⟨ledger, history, represents⟩ := invariant.represents
  let readers := (Finset.univ.filter fun index =>
    index ∉ world.shared.committed.map Prod.fst).toList
  have isReader : ∀ {index}, index ∈ readers ↔ index ∉ world.shared.committed.map Prod.fst := by
    simp [readers]
  obtain ⟨order, isOrder, left, answers⟩ := history.exists_order
    (fun past before index writes isPast pastHistory =>
      agrees_of_commit numbered reached finished isPast pastHistory) readers
    (fun index readerMem => reads_of_uncommitted unique numbered (fresh_creates fresh distinct)
      newId distinctIds reached finished fun entry entryMem same =>
        isReader.mp readerMem (same ▸ List.mem_map_of_mem entryMem))
  have serial := runSerially_eq .lenient (creates draws input) order ⟨initial, nextOutboxId, []⟩
    (Database.represents_ofDatabase initial) numbered unique
  rw [performSeriallyUnder_lenient] at serial
  refine ⟨order, ?_, ?_, ?_, ?_⟩
  · refine isOrder.nodup_iff.mpr (List.nodup_append.mpr ⟨invariant.once, Finset.nodup_toList _, ?_⟩)
    rintro index committed other readerMem rfl
    exact isReader.mp readerMem committed
  · intro index
    rw [isOrder.mem_iff, List.mem_append]
    by_cases committed : index ∈ world.shared.committed.map Prod.fst
    · exact .inl committed
    · exact .inr (isReader.mpr committed)
  · rw [serial.2.requests, left, represents.requests]
  · rw [serial.1]
    exact answers

/-- Two uploads under a key each, and two calls that pair the key of the one with the source of the
other. -/
def crossedInput : Fin 4 → Input
  | 0 => ⟨js "e-0", js "owner", js "owner@example.com", js "uploads/a.mp4", js "key-a", none⟩
  | 1 => ⟨js "e-1", js "owner", js "owner@example.com", js "uploads/b.mp4", js "key-b", none⟩
  | 2 => ⟨js "e-2", js "owner", js "owner@example.com", js "uploads/b.mp4", js "key-a", none⟩
  | 3 => ⟨js "e-3", js "owner", js "owner@example.com", js "uploads/a.mp4", js "key-b", none⟩

def crossedDraws (index : Fin 4) : Draws :=
  ⟨1789953000000, .repeated index, .repeated 0, 3000⟩

/-- The calls of the sessions, one after another. -/
def crossedRun (turns : List (Fin 4)) : List (Machine.Action (machine (Fin 4) false)) :=
  turns.map fun index => .session index .proceed

/-- What the calls answer in that run. -/
def crossedAnswer (index : Fin 4) : Except Thrown Answer :=
  let created (index : Fin 4) :=
    (requestRow (crossedDraws index) (crossedInput index) none).toDomain
  match index with
  | 0 | 1 => .ok (.result ⟨created index, .created⟩)
  -- The third call names the source of the second, and the fourth that of the first.
  | 2 | 3 => .ok (.result ⟨created index.rev, .replayed⟩)

/-- Both crossed calls miss their keys before the uploads, and find their sources after them. -/
theorem crossedRun_ends : ∃ world,
    Machine.runActions (start false (creates crossedDraws crossedInput) .empty 1)
      (crossedRun ([2, 2, 3, 3] ++ List.replicate 8 0 ++ List.replicate 8 1 ++ [2, 3])) =
      some world ∧ ∀ index, outcomeOf world index = some (crossedAnswer index) := by
  have ran : ((Machine.runActions (start false (creates crossedDraws crossedInput) .empty 1)
      (crossedRun ([2, 2, 3, 3] ++ List.replicate 8 0 ++ List.replicate 8 1 ++ [2, 3]))).map
      fun world =>
        decide (∀ index, outcomeOf world index = some (crossedAnswer index))) = some true := by
    decide +kernel
  obtain ⟨world, ran, ended⟩ := Option.map_eq_some_iff.mp ran
  exact ⟨world, ran, of_decide_eq_true ended⟩

theorem crossed_orders : ∀ first second third fourth : Fin 4,
    [first, second, third, fourth].Nodup →
      (runSerially .lenient (creates crossedDraws crossedInput) [first, second, third, fourth]
        ⟨.empty, 1, []⟩).1 ≠ [first, second, third, fourth].map crossedAnswer := by
  decide +kernel

/-- No order of the crossed calls gives every one of them its answer. -/
theorem crossed_creates_have_no_order : ∃ world,
    Machine.Reaches (start false (creates crossedDraws crossedInput) .empty 1) world ∧
    (∀ index, (outcomeOf world index).isSome) ∧
    ¬ ∃ order : List (Fin 4), order.Nodup ∧ (∀ index, index ∈ order) ∧
      List.Forall₂ (fun index outcome => outcomeOf world index = some outcome) order
        (runSerially .lenient (creates crossedDraws crossedInput) order ⟨.empty, 1, []⟩).1 := by
  obtain ⟨world, ran, ended⟩ := crossedRun_ends
  refine ⟨world, Machine.reaches_of_runActions ran, fun index => by rw [ended]; rfl, ?_⟩
  rintro ⟨order, nodup, complete, answers⟩
  have four : order.length = 4 := by
    rw [← List.toFinset_card_of_nodup nodup, show order.toFinset = Finset.univ from by
      ext index; simp [complete index]]
    rfl
  obtain ⟨first, second, third, fourth, rfl⟩ := List.length_eq_four.mp four
  refine crossed_orders first second third fourth nodup ?_
  simp only [ended, Option.some.injEq] at answers
  have same := List.forall₂_map_left_iff.mpr answers
  rw [List.forall₂_eq_eq_eq] at same
  exact same.symm

theorem create_order_crossed : ∃ world : Machine.World (machine (Fin 4) false) Thrown Answer,
    (∀ index, outcomeOf world index = some (crossedAnswer index)) ∧
    ∃ order : List (Fin 4), order.Nodup ∧ (∀ index, index ∈ order) ∧
      let serial := runSerially .lenient (creates crossedDraws crossedInput) order ⟨.empty, 1, []⟩
      serial.2.database.requests = world.shared.database.requests ∧
      List.Forall₂ (AgreesWith crossedInput .empty world) order serial.1 := by
  obtain ⟨world, ran, ended⟩ := crossedRun_ends
  exact ⟨world, ended, create_order crossedDraws crossedInput uniqueIndexes_empty
    (by simp [Numbered, Database.empty]) (fun _ => rfl) (by decide +kernel) (fun _ => rfl)
    (by decide +kernel) (Machine.reaches_of_runActions ran) fun index => by rw [ended]; rfl⟩

end Postgres

end ProcessingCatalog
