import ProcessingCatalog.Store.History

/-!
# Histories of creates

What a history of creates alone does to the store: every create that wrote
inserted one request, one announcement and one record of its event, and nothing
that was stored is changed or removed.
-/

namespace ProcessingCatalog

open CreateProcessingRequestUseCase

/-- What a create that wrote leaves in the three tables. -/
structure Inserted (draws : Draws) (input : Input) (correlationId : Option JsString)
    (before after : Ledger) : Prop where
  requests : after.requests.rows = before.requests.rows ++ [requestRow draws input correlationId]
  events : after.events.rows = before.events.rows ++ [⟨input.eventId, some draws.uuid⟩]
  outbox : after.outbox = before.outbox ++ [⟨.videoValidationRequested,
    validationRequested input (requestRow draws input correlationId).toDomain⟩]

/-- A create changes nothing, or inserts. -/
theorem CreateProcessingRequestUseCase.perform_cases (draws : Draws) (input : Input)
    (ledger : Ledger) :
    (perform draws input ledger).2 = [] ∨ ∃ correlationId,
      checked input = .ok correlationId ∧
      perform draws input ledger = (.ok ⟨(requestRow draws input correlationId).toDomain, .created⟩,
        insertionChanges input (requestRow draws input correlationId).toDomain
          (requestRow draws input correlationId)) ∧
      Inserted draws input correlationId ledger
        (ledger.applyAll (perform draws input ledger).2) := by
  rcases changes_cases draws input ledger with
    nothing | ⟨correlationId, valid, _, unrecorded, free, performed⟩
  · exact .inl nothing
  refine .inr ⟨correlationId, valid, performed, ?_⟩
  have newId : ledger.requests.find? draws.uuid = none :=
    KeyedTable.find?_eq_none_iff.mpr fun stored storedMem => free stored storedMem .primaryKey
  have newEvent : ledger.events.find? input.eventId = none := by
    simpa [Ledger.isRecorded] using unrecorded
  rw [performed]
  refine ⟨?_, ?_, rfl⟩
  · exact KeyedTable.rows_upsert_of_find?_none newId
  · exact KeyedTable.rows_upsert_of_find?_none newEvent

/-- The calls of the create, with the readings each of them makes. -/
def creates {ι : Type} (draws : ι → Draws) (input : ι → Input) (index : ι) : Operation :=
  .create (draws index) (input index)

namespace History

variable {ι : Type} {draws : ι → Draws} {input : ι → Input} {initial ledger : Ledger}
  {committed past : List (ι × List Write)}

theorem perform_creates (index : ι) (ledger : Ledger) :
    (creates draws input index).perform ledger =
      Performed.map .result (CreateProcessingRequestUseCase.perform (draws index) (input index)
        ledger) := rfl

/-- A commit that wrote inserted the request of its call. -/
theorem creation (history : History (creates draws input) initial committed ledger)
    {entry : ι × List Write} (entryMem : entry ∈ committed) (wrote : entry.2 ≠ []) :
    ∃ correlationId, checked (input entry.1) = .ok correlationId ∧
      entry.2.map Change.forget = insertionChanges (input entry.1)
        (requestRow (draws entry.1) (input entry.1) correlationId).toDomain
        (requestRow (draws entry.1) (input entry.1) correlationId) := by
  induction history with
  | start => simp at entryMem
  | commit before performed ih =>
      rcases List.mem_append.mp entryMem with old | new
      · exact ih old
      · rw [List.mem_singleton] at new
        subst new
        rw [perform_creates] at performed
        rcases CreateProcessingRequestUseCase.perform_cases (draws _) (input _) _ with
          nothing | ⟨correlationId, valid, inserted, _⟩
        · rw [Performed.map, nothing] at performed
          exact absurd (List.map_eq_nil_iff.mp performed.symm) wrote
        · refine ⟨correlationId, valid, ?_⟩
          rw [← performed, Performed.map, inserted]

/-- A history of creates only adds requests. -/
theorem requests_prefix {more : List (ι × List Write)} {before : Ledger}
    (pastHistory : History (creates draws input) initial past before)
    (history : History (creates draws input) initial (past ++ more) ledger) :
    before.requests.rows <+: ledger.requests.rows := by
  induction more using List.reverseRecOn generalizing ledger with
  | nil =>
      rw [List.append_nil] at history
      exact pastHistory.unique history ▸ List.prefix_refl _
  | append_singleton more entry ih =>
      rw [← List.append_assoc] at history
      obtain ⟨middle, shorter, performed, rfl⟩ := history.snoc_cases
      refine (ih shorter).trans ?_
      rw [perform_creates] at performed
      rcases CreateProcessingRequestUseCase.perform_cases (draws entry.1) (input entry.1) middle
        with nothing | ⟨correlationId, _, inserted, grown⟩
      · rw [← performed, Performed.map, nothing]
        exact List.prefix_refl _
      · rw [← performed, Performed.map, grown.requests]
        exact List.prefix_append _ _

theorem mem_requests {before : Ledger}
    (pastHistory : History (creates draws input) initial past before)
    (history : History (creates draws input) initial committed ledger) (isPast : past <+: committed)
    {row : ProcessingRequestRow} (rowMem : row ∈ before.requests) : row ∈ ledger.requests := by
  obtain ⟨more, rfl⟩ := isPast
  exact (pastHistory.requests_prefix history).subset rowMem

/-- A request that was inserted is stored. -/
theorem mem_of_insertRequest (history : History (creates draws input) initial committed ledger)
    {entry : ι × List Write} (entryMem : entry ∈ committed) {row : ProcessingRequestRow}
    (inserted : .insertRequest row ∈ entry.2) : row ∈ ledger.requests := by
  induction history with
  | start => simp at entryMem
  | @commit past before index writes pastHistory performed ih =>
      rcases List.mem_append.mp entryMem with old | new
      · exact mem_requests pastHistory (pastHistory.commit performed) (List.prefix_append _ _)
          (ih old)
      · rw [List.mem_singleton] at new
        subst new
        have isChange : .insertRequest row ∈ writes.map Change.forget :=
          List.mem_map_of_mem inserted
        rw [← performed, perform_creates, Performed.map] at isChange ⊢
        rcases CreateProcessingRequestUseCase.perform_cases (draws index) (input index) before
          with nothing | ⟨correlationId, _, wrote, growth⟩
        · simp [nothing] at isChange
        · simp only [wrote, insertionChanges, List.mem_cons, Change.insertRequest.injEq,
            reduceCtorEq, List.not_mem_nil, or_false] at isChange
          rw [KeyedTable.mem_def, growth.requests, isChange]
          exact List.mem_append_right _ (List.mem_singleton.mpr rfl)

/-- What a history leaves in which every commit wrote: one request, one recorded event and one
announcement for each of them. -/
structure Grown (initial : Ledger) (count : ℕ) (ledger : Ledger) : Prop where
  requests : ledger.requests.rows.length = initial.requests.rows.length + count
  events : ledger.events.rows.length = initial.events.rows.length + count
  outbox : ledger.outbox.length = initial.outbox.length + count
  announcements :
    (ledger.outbox.countP fun entry => entry.route = .videoValidationRequested) =
      (initial.outbox.countP fun entry => entry.route = .videoValidationRequested) + count

theorem grown (history : History (creates draws input) initial committed ledger)
    (wrote : ∀ entry ∈ committed, entry.2 ≠ []) : Grown initial committed.length ledger := by
  induction history with
  | start => exact ⟨rfl, rfl, rfl, rfl⟩
  | @commit past before index writes pastHistory performed ih =>
      have shorter := ih fun entry entryMem => wrote entry (List.mem_append_left _ entryMem)
      rw [perform_creates] at performed
      rcases CreateProcessingRequestUseCase.perform_cases (draws index) (input index) before
        with nothing | ⟨correlationId, _, inserted, growth⟩
      · rw [Performed.map, nothing] at performed
        exact absurd (List.map_eq_nil_iff.mp performed.symm)
          (wrote (index, writes) (List.mem_append_right _ (List.mem_singleton.mpr rfl)))
      · rw [← performed, Performed.map]
        constructor
        · simp [growth.requests, shorter.requests, Nat.add_assoc]
        · simp [growth.events, shorter.events, Nat.add_assoc]
        · simp [growth.outbox, shorter.outbox, Nat.add_assoc]
        · simp [growth.outbox, shorter.announcements, Nat.add_assoc]

end History

end ProcessingCatalog
