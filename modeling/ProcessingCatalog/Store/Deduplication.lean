import ProcessingCatalog.Store.History
import Mathlib.Data.List.Pairwise

/-!
# An event takes effect once, and what is stored stays

Every operation that changes anything records its event, and no operation
changes anything once its event is recorded. So over a whole history one event
changes a request, or adds to the outbox, at most once. A request that is stored
at one moment is stored ever after, in the same version or a later one.
-/

namespace ProcessingCatalog

namespace Ledger

/-- A recorded event stays recorded. -/
theorem isRecorded_apply {ledger : Ledger} {eventId : JsString}
    (recorded : ledger.isRecorded eventId = true) (change : Change OutboxEntry) :
    (ledger.apply change).isRecorded eventId = true := by
  cases change with
  | insertEvent event =>
      simp only [isRecorded, apply, Change.applyToEvents, KeyedTable.find?_upsert]
      split
      · rfl
      · exact recorded
  | _ => exact recorded

theorem isRecorded_applyAll {ledger : Ledger} {eventId : JsString}
    (recorded : ledger.isRecorded eventId = true) (changes : List (Change OutboxEntry)) :
    (ledger.applyAll changes).isRecorded eventId = true := by
  induction changes generalizing ledger with
  | nil => exact recorded
  | cons change changes ih => exact ih (isRecorded_apply recorded change)

theorem isRecorded_of_insertEvent {ledger : Ledger} {event : ProcessedEvent}
    {changes : List (Change OutboxEntry)} (recorded : .insertEvent event ∈ changes) :
    (ledger.applyAll changes).isRecorded event.eventId = true := by
  induction changes generalizing ledger with
  | nil => simp at recorded
  | cons change changes ih =>
      rcases List.mem_cons.mp recorded with rfl | later
      · refine isRecorded_applyAll ?_ changes
        simp [isRecorded, apply, Change.applyToEvents]
      · exact ih later

end Ledger

/-- An operation changes nothing, or records its event, which was not recorded before. -/
theorem Operation.changes_recorded (operation : Operation) (ledger : Ledger) :
    (operation.perform ledger).2 = [] ∨
      ledger.isRecorded operation.eventId = false ∧
        ∃ event, event.eventId = operation.eventId ∧
          .insertEvent event ∈ (operation.perform ledger).2 := by
  have changes := operation.changes ledger
  generalize (operation.perform ledger).2 = made at changes ⊢
  cases changes with
  | nothing => exact .inl rfl
  | @inserted draws input correlationId isCreate valid isRequest unrecorded free =>
      subst isCreate
      exact .inr ⟨unrecorded, ⟨input.eventId, some draws.uuid⟩, rfl, by
        simp [CreateProcessingRequestUseCase.insertionChanges,
          CreateProcessingRequestUseCase.requestRow]⟩
  | noted isEvent rowMem named unrecorded decided =>
      rw [← eventId_of_event isEvent]
      exact .inr ⟨unrecorded, _, rfl, List.mem_cons_self⟩
  | @applied event row row' entry isEvent rowMem named unrecorded same decided =>
      rw [← eventId_of_event isEvent]
      exact .inr ⟨unrecorded, ⟨event.eventId, some row'.processingRequestId⟩, rfl, by
        simp [LifecycleEvent.appliedChanges]⟩

/-- An operation records no event but its own. -/
theorem Operation.eventId_of_change {operation : Operation} {ledger : Ledger}
    {event : ProcessedEvent} (recorded : .insertEvent event ∈ (operation.perform ledger).2) :
    event.eventId = operation.eventId := by
  have changes := operation.changes ledger
  generalize (operation.perform ledger).2 = made at changes recorded
  cases changes with
  | nothing => cases recorded
  | inserted isCreate valid isRequest unrecorded free =>
      subst isCreate
      simp only [CreateProcessingRequestUseCase.insertionChanges, List.mem_cons, reduceCtorEq,
        Change.insertEvent.injEq, List.not_mem_nil, or_false, false_or] at recorded
      rw [recorded]
      rfl
  | noted isEvent rowMem named unrecorded decided =>
      rw [List.mem_singleton, Change.insertEvent.injEq] at recorded
      rw [recorded, ← eventId_of_event isEvent]
  | applied isEvent rowMem named unrecorded same decided =>
      rw [LifecycleEvent.insertEvent_mem_appliedChanges] at recorded
      rw [recorded, ← eventId_of_event isEvent]

/-- Whatever an operation does, a stored request stays, as itself or a later version. -/
theorem Operation.kept (operation : Operation) {ledger : Ledger} {row : ProcessingRequestRow}
    (rowMem : row ∈ ledger.requests) :
    ∃ row' ∈ (ledger.applyAll (operation.perform ledger).2).requests, row.SameIdentity row' := by
  have changes := operation.changes ledger
  generalize (operation.perform ledger).2 = made at changes
  cases changes with
  | nothing => exact ⟨row, rowMem, .refl row⟩
  | inserted isCreate valid isRequest unrecorded free =>
      refine ⟨row, ?_, .refl row⟩
      exact KeyedTable.mem_upsert.mpr (.inr ⟨rowMem, free row rowMem .primaryKey⟩)
  | noted => exact ⟨row, rowMem, .refl row⟩
  | @applied event before row' entry isEvent beforeMem named unrecorded same decided =>
      rw [Ledger.requests_applied]
      by_cases isBefore : row.processingRequestId = row'.processingRequestId
      · have replaced : row = before :=
          KeyedTable.eq_of_key_eq rowMem beforeMem (isBefore.trans same.processingRequestId)
        exact ⟨row', KeyedTable.mem_upsert.mpr (.inl rfl), replaced ▸ same⟩
      · exact ⟨row, KeyedTable.mem_upsert.mpr (.inr ⟨rowMem, isBefore⟩), .refl row⟩

/-- Whether a transaction changed a request or added to the outbox. -/
def Effective (writes : List Write) : Prop :=
  ∃ write ∈ writes, write.TouchesRequestOrOutbox

variable {ι : Type} {operations : ι → Operation} {initial ledger : Ledger}
  {committed : List (ι × List Write)}

/-- The event of a commit that wrote anything is recorded from then on. -/
theorem History.recorded (history : History operations initial committed ledger)
    {entry : ι × List Write} (entryMem : entry ∈ committed) (wrote : entry.2 ≠ []) :
    ledger.isRecorded (operations entry.1).eventId = true := by
  induction history with
  | start => simp at entryMem
  | commit before performed ih =>
      rcases List.mem_append.mp entryMem with old | new
      · exact Ledger.isRecorded_applyAll (ih old) _
      · rw [List.mem_singleton] at new
        subst new
        rw [← performed]
        rcases (operations _).changes_recorded _ with nothing | ⟨_, event, isEvent, recorded⟩
        · rw [performed, List.map_eq_nil_iff] at nothing
          exact absurd nothing wrote
        · rw [← isEvent]
          exact Ledger.isRecorded_of_insertEvent recorded

/-- Two commits that both wrote something, for different events. -/
def DifferentEvents (operations : ι → Operation) (left right : ι × List Write) : Prop :=
  left.2 ≠ [] → right.2 ≠ [] → (operations left.1).eventId ≠ (operations right.1).eventId

instance : Std.Symm (DifferentEvents operations) :=
  ⟨fun _ _ apart rightWrote leftWrote => (apart leftWrote rightWrote).symm⟩

theorem History.differentEvents (history : History operations initial committed ledger) :
    committed.Pairwise (DifferentEvents operations) := by
  induction history with
  | start => exact List.Pairwise.nil
  | commit before performed ih =>
      refine List.pairwise_append.mpr ⟨ih, List.pairwise_singleton _ _, ?_⟩
      intro left leftMem right rightMem leftWrote rightWrote same
      rw [List.mem_singleton] at rightMem
      subst rightMem
      have recorded := before.recorded leftMem leftWrote
      rcases (operations _).changes_recorded _ with nothing | ⟨unrecorded, _⟩
      · rw [performed, List.map_eq_nil_iff] at nothing
        exact rightWrote nothing
      · rw [same, unrecorded] at recorded
        exact absurd recorded (by decide)

theorem Effective.ne_nil {writes : List Write} (effective : Effective writes) : writes ≠ [] := by
  rcases effective with ⟨write, writeMem, _⟩
  exact List.ne_nil_of_mem writeMem

/-- One event takes effect at most once. -/
theorem History.effective_once (history : History operations initial committed ledger)
    {left right : ι × List Write} (leftMem : left ∈ committed) (rightMem : right ∈ committed)
    (same : (operations left.1).eventId = (operations right.1).eventId)
    (leftEffective : Effective left.2) (rightEffective : Effective right.2) : left = right := by
  by_contra different
  exact history.differentEvents.forall leftMem rightMem different leftEffective.ne_nil
    rightEffective.ne_nil same

/-- A commit records no event but that of its call. -/
theorem History.eventId_of_write (history : History operations initial committed ledger)
    {entry : ι × List Write} (entryMem : entry ∈ committed) {event : ProcessedEvent}
    (recorded : .insertEvent event ∈ entry.2) :
    event.eventId = (operations entry.1).eventId := by
  induction history with
  | start => simp at entryMem
  | @commit past before index writes pastHistory performed ih =>
      rcases List.mem_append.mp entryMem with old | new
      · exact ih old
      · rw [List.mem_singleton] at new
        subst new
        have isChange : .insertEvent event ∈ writes.map Change.forget :=
          List.mem_map_of_mem recorded
        exact Operation.eventId_of_change (performed ▸ isChange)

/-- An event recorded at some moment of a history stays recorded. -/
theorem History.isRecorded {past : List (ι × List Write)} {before : Ledger}
    (pastHistory : History operations initial past before)
    (history : History operations initial committed ledger) (isPast : past <+: committed)
    {eventId : JsString} (recorded : before.isRecorded eventId = true) :
    ledger.isRecorded eventId = true := by
  obtain ⟨more, rfl⟩ := isPast
  induction more using List.reverseRecOn generalizing ledger with
  | nil =>
      rw [List.append_nil] at history
      rwa [history.unique pastHistory]
  | append_singleton more entry ih =>
      rw [← List.append_assoc] at history
      obtain ⟨middle, shorter, performed, rfl⟩ := history.snoc_cases
      exact Ledger.isRecorded_applyAll (ih shorter) _

/-- A request stored at some moment of a history stays, as itself or a later version. -/
theorem History.kept {past : List (ι × List Write)} {before : Ledger}
    (pastHistory : History operations initial past before)
    (history : History operations initial committed ledger) (isPast : past <+: committed)
    {row : ProcessingRequestRow} (rowMem : row ∈ before.requests) :
    ∃ row' ∈ ledger.requests, row.SameIdentity row' := by
  obtain ⟨more, rfl⟩ := isPast
  induction more using List.reverseRecOn generalizing ledger with
  | nil =>
      rw [List.append_nil] at history
      rw [history.unique pastHistory]
      exact ⟨row, rowMem, .refl row⟩
  | append_singleton more entry ih =>
      rw [← List.append_assoc] at history
      obtain ⟨middle, shorter, performed, rfl⟩ := history.snoc_cases
      obtain ⟨row', row'Mem, same⟩ := ih shorter
      obtain ⟨row'', row''Mem, same'⟩ := (operations entry.1).kept row'Mem
      rw [← performed]
      exact ⟨row'', row''Mem, same.trans same'⟩

/-- A request some commit inserted is stored, as itself or a later version. -/
theorem History.kept_of_insertRequest (history : History operations initial committed ledger)
    {entry : ι × List Write} (entryMem : entry ∈ committed) {row : ProcessingRequestRow}
    (inserted : .insertRequest row ∈ entry.2) :
    ∃ row' ∈ ledger.requests, row.SameIdentity row' := by
  induction history with
  | start => simp at entryMem
  | @commit past before index writes pastHistory performed ih =>
      rcases List.mem_append.mp entryMem with old | new
      · rcases ih old with ⟨row', row'Mem, same⟩
        exact (pastHistory.kept (pastHistory.commit performed) (List.prefix_append _ _)
          row'Mem).imp fun _ kept => ⟨kept.1, same.trans kept.2⟩
      · rw [List.mem_singleton] at new
        subst new
        have isChange : .insertRequest row ∈ writes.map Change.forget :=
          List.mem_map_of_mem inserted
        rw [← performed] at isChange ⊢
        exact ⟨row, (Operation.create_of_inserted isChange).1, .refl row⟩

/-- Two commits whose inserted requests have no equal entry in a unique index. -/
def InsertedApart (left right : ι × List Write) : Prop :=
  ∀ row other, .insertRequest row ∈ left.2 → .insertRequest other ∈ right.2 →
    ∀ index : UniqueIndex, ¬ index.Collides row other

instance : Std.Symm (InsertedApart (ι := ι)) :=
  ⟨fun _ _ apart row other rowMem otherMem index collides =>
    apart other row otherMem rowMem index collides.symm⟩

/-- No two commits of a history insert colliding requests. -/
theorem History.insertedApart (history : History operations initial committed ledger) :
    committed.Pairwise InsertedApart := by
  induction history with
  | start => exact List.Pairwise.nil
  | @commit past before index writes pastHistory performed ih =>
      refine List.pairwise_append.mpr ⟨ih, List.pairwise_singleton _ _, ?_⟩
      intro left leftMem right rightMem row other rowMem otherMem uniqueIndex collides
      rw [List.mem_singleton] at rightMem
      subst rightMem
      rcases pastHistory.kept_of_insertRequest leftMem rowMem with ⟨stored, storedMem, same⟩
      have isChange : .insertRequest other ∈ writes.map Change.forget :=
        List.mem_map_of_mem otherMem
      have changes := (operations index).changes before
      rw [performed] at changes
      generalize writes.map Change.forget = made at changes isChange
      have clear : ∀ stored ∈ before.requests, ¬ uniqueIndex.Collides stored other := by
        cases changes with
        | nothing => cases isChange
        | inserted isCreate valid isRequest unrecorded free =>
            simp only [CreateProcessingRequestUseCase.insertionChanges, List.mem_cons,
              Change.insertRequest.injEq, reduceCtorEq, List.not_mem_nil, or_false] at isChange
            exact isChange ▸ fun stored storedMem => free stored storedMem uniqueIndex
        | noted => simp at isChange
        | applied => simp [LifecycleEvent.appliedChanges] at isChange
      exact clear stored storedMem (collides.symm.of_sameIdentity same.symm).symm

/-- Whether a transaction inserted a request. -/
def insertsRequest {β : Type} (changes : List (Change β)) : Bool :=
  changes.any fun
    | .insertRequest _ => true
    | _ => false

theorem insertsRequest_iff {β : Type} {changes : List (Change β)} :
    insertsRequest changes = true ↔ ∃ row, .insertRequest row ∈ changes := by
  rw [insertsRequest, List.any_eq_true]
  constructor
  · rintro ⟨change, changeMem, inserted⟩
    cases change <;> simp at inserted
    exact ⟨_, changeMem⟩
  · rintro ⟨row, rowMem⟩
    exact ⟨_, rowMem, rfl⟩

/-- An operation stores one more request when it inserts one, and as many as before otherwise. -/
theorem Operation.length_requests (operation : Operation) (ledger : Ledger) :
    (ledger.applyAll (operation.perform ledger).2).requests.rows.length =
      ledger.requests.rows.length +
        if insertsRequest (operation.perform ledger).2 then 1 else 0 := by
  have changes := operation.changes ledger
  generalize (operation.perform ledger).2 = made at changes ⊢
  cases changes with
  | nothing => rfl
  | @inserted draws input correlationId isCreate valid isRequest unrecorded free =>
      have newId := KeyedTable.find?_eq_none_iff.mpr fun stored storedMem =>
        free stored storedMem .primaryKey
      exact (congrArg List.length (KeyedTable.rows_upsert_of_find?_none newId)).trans
        List.length_append
  | noted => rfl
  | @applied event row row' entry isEvent rowMem named unrecorded same decided =>
      rw [Ledger.requests_applied,
        KeyedTable.length_upsert_of_mem rowMem same.processingRequestId.symm]
      cases entry <;> rfl

/-- As many requests are stored as there were, and one more for each commit that inserted one. -/
theorem History.length_requests (history : History operations initial committed ledger) :
    ledger.requests.rows.length = initial.requests.rows.length +
      committed.countP fun entry => insertsRequest entry.2 := by
  induction history with
  | start => rfl
  | @commit past before index writes pastHistory performed ih =>
      have grown := (operations index).length_requests before
      have same : insertsRequest (writes.map Change.forget) = insertsRequest writes := by
        rw [Bool.eq_iff_iff, insertsRequest_iff, insertsRequest_iff]
        constructor
        · rintro ⟨row, rowMem⟩
          rcases List.mem_map.mp rowMem with ⟨write, writeMem, isWrite⟩
          cases write <;> cases isWrite
          exact ⟨_, writeMem⟩
        · rintro ⟨row, rowMem⟩
          exact ⟨row, List.mem_map_of_mem rowMem⟩
      rw [performed, same] at grown
      rw [grown, ih, List.countP_append, List.countP_singleton, Nat.add_assoc]

end ProcessingCatalog
