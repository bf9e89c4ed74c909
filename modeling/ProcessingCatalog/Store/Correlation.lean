import ProcessingCatalog.Store.Leaves

/-!
# The correlation id of a stored request

A request keeps the correlation id that its create let through, and every entry
of the outbox about it carries that same id.
-/

namespace ProcessingCatalog

open Domain

/-- A lifecycle event whose entry carries the correlation id of the request it leaves. -/
def LifecycleEvent.CarriesCorrelation (event : LifecycleEvent) : Prop :=
  ∀ request updated route payload,
    event.decide request = .ok (.applied updated (some (route, payload))) →
      payload.correlationId = updated.correlationId

theorem AcceptProcessingRequestUseCase.carriesCorrelation (draws : Draws) (input : Input) :
    (event draws input).CarriesCorrelation := by
  intro request updated route payload decided
  rcases decide_eq_applied.mp decided with ⟨_, _, same⟩
  cases same
  rfl

/-- A start announces nothing. -/
theorem StartProcessingRequestUseCase.carriesCorrelation (draws : Draws) (input : Input) :
    (event draws input).CarriesCorrelation := by
  intro request updated route payload decided
  rcases decide_eq_applied.mp decided with ⟨_, _, _, same⟩
  cases same

theorem CompleteProcessingRequestUseCase.carriesCorrelation (draws : Draws) (input : Input) :
    (event draws input).CarriesCorrelation := by
  intro request updated route payload decided
  rcases decide_eq_applied.mp decided with ⟨_, _, _, _, same⟩
  cases same
  rfl

theorem FailProcessingRequestUseCase.carriesCorrelation (draws : Draws) (input : Input) :
    (event draws input).CarriesCorrelation := by
  intro request updated route payload decided
  rcases decide_eq_applied.mp decided with ⟨_, _, same⟩
  cases same
  rfl

theorem Operation.carriesCorrelation {operation : Operation} {event : LifecycleEvent}
    (isEvent : operation.event? = some event) : event.CarriesCorrelation :=
  forall_event AcceptProcessingRequestUseCase.carriesCorrelation
    StartProcessingRequestUseCase.carriesCorrelation
    CompleteProcessingRequestUseCase.carriesCorrelation
    FailProcessingRequestUseCase.carriesCorrelation isEvent

open CreateProcessingRequestUseCase in
/-- A request as a create inserted it, up to what the lifecycle changes. -/
def CreatedAs (row : ProcessingRequestRow) (operation : Operation) : Prop :=
  ∃ draws input correlationId, operation = .create draws input ∧
    checked input = .ok correlationId ∧ (requestRow draws input correlationId).SameIdentity row

/-- Every request was created by one of the operations, and every entry about a request carries its
correlation id. -/
structure Ledger.Correlated {ι : Type} (operations : ι → Operation) (ledger : Ledger) : Prop where
  created : ∀ row ∈ ledger.requests, ∃ index, CreatedAs row (operations index)
  carried : ∀ entry ∈ ledger.outbox, ∀ row ∈ ledger.requests,
    entry.payload.processingRequestId = row.processingRequestId.text →
      entry.payload.correlationId = row.correlationId

variable {ι : Type} {operations : ι → Operation}

theorem Ledger.correlated_empty : Ledger.empty.Correlated operations where
  created := by simp [Ledger.empty]
  carried := by simp [Ledger.empty]

theorem ProcessingRequestRow.SameIdentity.correlationId {before after : ProcessingRequestRow}
    (same : before.SameIdentity after) : after.correlationId = before.correlationId :=
  same.2.2.2.2.2.1

theorem Operation.Leaves.correlated {index : ι} {ledger after : Ledger}
    (left : (operations index).Leaves ledger after) (agreement : ledger.Agreement)
    (correlated : ledger.Correlated operations) : after.Correlated operations := by
  cases left with
  | unchanged => exact correlated
  | @inserted draws input correlationId isCreate valid isRequest unrecorded free =>
      constructor
      · intro row rowMem
        rcases KeyedTable.mem_upsert.mp rowMem with rfl | ⟨old, _⟩
        · exact ⟨index, draws, input, correlationId, isCreate, valid, .refl _⟩
        · exact correlated.created row old
      · intro entry entryMem row rowMem about
        rcases List.mem_append.mp entryMem with oldEntry | newEntry <;>
          rcases KeyedTable.mem_upsert.mp rowMem with rfl | ⟨old, different⟩
        · -- no entry was about the request before it was stored
          rcases agreement.stored entry oldEntry with ⟨stored, storedMem, named⟩
          exact absurd (Uuid.text_injective (named.symm.trans about))
            (free stored storedMem .primaryKey)
        · exact correlated.carried entry oldEntry row old about
        · rw [List.mem_singleton.mp newEntry]
          rfl
        · rw [List.mem_singleton.mp newEntry] at about
          exact absurd (Uuid.text_injective about).symm different
  | noted => exact ⟨correlated.created, correlated.carried⟩
  | @applied event row row' announcement isEvent rowMem named unrecorded same decided =>
      constructor
      · intro stored storedMem
        rcases KeyedTable.mem_upsert.mp storedMem with rfl | ⟨old, _⟩
        · rcases correlated.created row rowMem with
            ⟨creator, draws, input, correlationId, isCreate, valid, sameRow⟩
          exact ⟨creator, draws, input, correlationId, isCreate, valid, sameRow.trans same⟩
        · exact correlated.created stored old
      · intro entry entryMem stored storedMem about
        have sameId : row'.processingRequestId = row.processingRequestId := same.processingRequestId
        rcases List.mem_append.mp entryMem with oldEntry | newEntry
        · rcases KeyedTable.mem_upsert.mp storedMem with rfl | ⟨old, _⟩
          · rw [sameId] at about
            exact (correlated.carried entry oldEntry row rowMem about).trans
              same.correlationId.symm
          · exact correlated.carried entry oldEntry stored old about
        · rcases List.mem_map.mp newEntry with ⟨⟨route, payload⟩, isAnnounced, rfl⟩
          rw [Option.mem_toList] at isAnnounced
          cases isAnnounced
          have carries := Operation.carriesCorrelation isEvent _ _ _ _ decided
          have named : payload.processingRequestId = row.processingRequestId.text :=
            (event.lawful decided).2.2 route payload rfl
          rcases KeyedTable.mem_upsert.mp storedMem with rfl | ⟨old, different⟩
          · exact carries
          · exact absurd ((Uuid.text_injective (about.symm.trans named)).trans sameId.symm)
              different

theorem History.correlated {ledger : Ledger} {committed : List (ι × List Write)}
    (history : History operations .empty committed ledger) : ledger.Correlated operations := by
  induction history with
  | start => exact Ledger.correlated_empty
  | commit before performed ih =>
      exact performed ▸ (Operation.leaves _ _).correlated
        (before.agreement Ledger.agreement_empty) ih

end ProcessingCatalog
