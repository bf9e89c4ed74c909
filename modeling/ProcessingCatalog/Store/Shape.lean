import ProcessingCatalog.Store.Leaves

/-!
# The shape of a stored request

Which optional fields a request has in each status, and which of its texts are
not blank. Every transition gives a request the shape of its new status, so
every stored request has the shape of its status; every recorded event points to
a stored request.
-/

namespace ProcessingCatalog

open Domain

/-- The optional fields a request has in its status. -/
structure ProcessingRequest.Shaped (request : ProcessingRequest) : Prop where
  received : request.status = .received → request.attemptId = none
  attempted : request.status ∈ [.queued, .processing, .completed] → request.attemptId.isSome
  zipStorageKey : request.zipStorageKey.isSome ↔ request.status = .completed
  zipStorageKey_not_blank : ∀ zipStorageKey, request.zipStorageKey = some zipStorageKey →
    isBlank zipStorageKey = false
  failureCode : request.failureCode.isSome ↔ request.status = .failed
  failureCode_known : ∀ code, request.failureCode = some code → code ∈ failureCodes
  ownerUserId : isBlank request.ownerUserId = false
  ownerEmail : isBlank request.ownerEmail = false
  sourceStorageKey : isBlank request.sourceStorageKey = false
  idempotencyKey : ∃ key, request.idempotencyKey = some key ∧ isBlank key = false

theorem FailureCode.mem_failureCodes (code : FailureCode) : code ∈ failureCodes := by
  cases code <;> decide

/-- A lifecycle event that gives a request the shape of its new status. -/
def LifecycleEvent.KeepsShape (event : LifecycleEvent) : Prop :=
  ∀ request updated entry, event.decide request = .ok (.applied updated entry) →
    request.Shaped → updated.Shaped

theorem AcceptProcessingRequestUseCase.keepsShape (draws : Draws) (input : Input) :
    (event draws input).KeepsShape := by
  intro request updated entry decided shaped
  rcases decide_eq_applied.mp decided with ⟨received, rfl, _⟩
  exact { shaped with
    received := nofun
    attempted := fun _ => rfl
    zipStorageKey := by simpa [received] using shaped.zipStorageKey
    failureCode := by simpa [received] using shaped.failureCode }

theorem StartProcessingRequestUseCase.keepsShape (draws : Draws) (input : Input) :
    (event draws input).KeepsShape := by
  intro request updated entry decided shaped
  rcases decide_eq_applied.mp decided with ⟨_, queued, rfl, _⟩
  exact { shaped with
    received := nofun
    attempted := fun _ => shaped.attempted (by simp [queued])
    zipStorageKey := by simpa [queued] using shaped.zipStorageKey
    failureCode := by simpa [queued] using shaped.failureCode }

theorem CompleteProcessingRequestUseCase.keepsShape (draws : Draws) (input : Input) :
    (event draws input).KeepsShape := by
  intro request updated entry decided shaped
  rcases decide_eq_applied.mp decided with ⟨_, notBlank, running, rfl, _⟩
  exact { shaped with
    received := by simp
    attempted := fun _ => shaped.attempted (by rcases running with h | h <;> simp [h])
    zipStorageKey := by simp
    zipStorageKey_not_blank := by
      rintro zipStorageKey ⟨⟩
      exact notBlank
    failureCode := by
      rcases running with queued | processing
      · simpa [queued] using shaped.failureCode
      · simpa [processing] using shaped.failureCode }

/-- A request that is not completed, failed with a known code. -/
theorem ProcessingRequest.Shaped.failed {request : ProcessingRequest} (shaped : request.Shaped)
    (notCompleted : request.status ≠ .completed) (code : FailureCode) (now : Date) :
    { request with
      status := .failed, failureCode := some code, updatedAt := now : ProcessingRequest }.Shaped :=
  { shaped with
    received := nofun
    attempted := by simp
    zipStorageKey := by simpa [notCompleted] using shaped.zipStorageKey
    failureCode := by simp
    failureCode_known := fun known _ => known.mem_failureCodes }

theorem FailProcessingRequestUseCase.keepsShape (draws : Draws) (input : Input) :
    (event draws input).KeepsShape := by
  intro request updated entry decided shaped
  rcases decide_eq_applied.mp decided with
    ⟨⟨_, received⟩ | ⟨_, _, running⟩, ⟨code, _, rfl⟩, _⟩
  · exact shaped.failed (by simp [received]) code draws.now
  · refine shaped.failed ?_ code draws.now
    rcases running with queued | processing
    · simp [queued]
    · simp [processing]

theorem Operation.keepsShape {operation : Operation} {event : LifecycleEvent}
    (isEvent : operation.event? = some event) : event.KeepsShape :=
  forall_event AcceptProcessingRequestUseCase.keepsShape
    StartProcessingRequestUseCase.keepsShape CompleteProcessingRequestUseCase.keepsShape
    FailProcessingRequestUseCase.keepsShape isEvent

/-- The request a create inserts. -/
theorem CreateProcessingRequestUseCase.shaped_requestRow {draws : Draws} {input : Input}
    {correlationId : Option JsString} (valid : checked input = .ok correlationId)
    (isRequest : requestOf draws input correlationId =
      .ok (requestRow draws input correlationId).toDomain) :
    (requestRow draws input correlationId).toDomain.Shaped := by
  rcases createProcessingRequest_eq_ok.mp isRequest with ⟨owner, email, source, _⟩
  have key : isBlank input.idempotencyKey = false := by
    cases blank : isBlank input.idempotencyKey with
    | false => rfl
    | true => cases noEvent : isBlank input.eventId <;> simp [checked, noEvent, blank] at valid
  exact {
    received := fun _ => rfl
    attempted := by simp [requestRow, ProcessingRequestRow.toDomain]
    zipStorageKey := by simp [requestRow, ProcessingRequestRow.toDomain]
    zipStorageKey_not_blank := nofun
    failureCode := by simp [requestRow, ProcessingRequestRow.toDomain]
    failureCode_known := nofun
    ownerUserId := owner
    ownerEmail := email
    sourceStorageKey := source
    idempotencyKey := ⟨input.idempotencyKey, rfl, key⟩ }

/-- Every stored request has its shape, and every recorded event points to a stored request. -/
structure Ledger.Shape (ledger : Ledger) : Prop where
  shaped : ∀ row ∈ ledger.requests, row.toDomain.Shaped
  recorded : ∀ event ∈ ledger.events, ∃ row ∈ ledger.requests,
    event.processingRequestId = some row.processingRequestId

theorem Ledger.shape_empty : Ledger.empty.Shape where
  shaped := by simp [Ledger.empty]
  recorded := by simp [Ledger.empty]

/-- The events point to stored requests still, when one is stored and an event recorded for it. -/
theorem Ledger.Shape.recorded_upsert {ledger : Ledger} (shape : ledger.Shape)
    (row : ProcessingRequestRow) (eventId : JsString) :
    ∀ event ∈ ledger.events.upsert ⟨eventId, some row.processingRequestId⟩,
      ∃ stored ∈ ledger.requests.upsert row,
        event.processingRequestId = some stored.processingRequestId := by
  intro event eventMem
  rcases KeyedTable.mem_upsert.mp eventMem with rfl | ⟨old, _⟩
  · exact ⟨row, KeyedTable.mem_upsert.mpr (.inl rfl), rfl⟩
  · rcases shape.recorded event old with ⟨stored, storedMem, points⟩
    by_cases replaced : stored.processingRequestId = row.processingRequestId
    · exact ⟨row, KeyedTable.mem_upsert.mpr (.inl rfl), replaced ▸ points⟩
    · exact ⟨stored, KeyedTable.mem_upsert.mpr (.inr ⟨storedMem, replaced⟩), points⟩

/-- Every operation keeps the shape. -/
theorem Operation.Leaves.shape {operation : Operation} {ledger after : Ledger}
    (left : operation.Leaves ledger after) (shape : ledger.Shape) : after.Shape := by
  cases left with
  | unchanged => exact shape
  | @inserted draws input correlationId isCreate valid isRequest unrecorded free =>
      refine ⟨?_, shape.recorded_upsert
        (CreateProcessingRequestUseCase.requestRow draws input correlationId) input.eventId⟩
      intro row rowMem
      rcases KeyedTable.mem_upsert.mp rowMem with rfl | ⟨old, _⟩
      · exact CreateProcessingRequestUseCase.shaped_requestRow valid isRequest
      · exact shape.shaped row old
  | noted isEvent rowMem named unrecorded decided =>
      refine ⟨shape.shaped, ?_⟩
      intro event eventMem
      rcases KeyedTable.mem_upsert.mp eventMem with rfl | ⟨old, _⟩
      · exact ⟨_, rowMem, rfl⟩
      · exact shape.recorded event old
  | @applied event row row' entry isEvent rowMem named unrecorded same decided =>
      have sameId : row'.processingRequestId = row.processingRequestId := same.processingRequestId
      refine ⟨?_, sameId ▸ shape.recorded_upsert row' event.eventId⟩
      intro stored storedMem
      rcases KeyedTable.mem_upsert.mp storedMem with rfl | ⟨old, _⟩
      · exact Operation.keepsShape isEvent _ _ _ decided (shape.shaped row rowMem)
      · exact shape.shaped stored old

theorem History.shape {ι : Type} {operations : ι → Operation} {initial ledger : Ledger}
    {committed : List (ι × List Write)} (history : History operations initial committed ledger)
    (shape : initial.Shape) : ledger.Shape := by
  induction history with
  | start => exact shape
  | commit before performed ih => exact performed ▸ (Operation.leaves _ _).shape ih

theorem Operation.received_of_inserted {operation : Operation} {ledger : Ledger}
    {row : ProcessingRequestRow} (inserted : .insertRequest row ∈ (operation.perform ledger).2) :
    row.status = .received := by
  rcases (create_of_inserted inserted).2 with ⟨draws, input, correlationId, _, _, rfl⟩
  rfl

/-- A request saved as failed was failed by a fail, and has no attempt exactly when its video was
rejected. -/
theorem Operation.fail_of_saved {operation : Operation} {ledger : Ledger} (shape : ledger.Shape)
    {row : ProcessingRequestRow} (saved : .saveRequest row ∈ (operation.perform ledger).2)
    (failed : row.toDomain.status = .failed) :
    ∃ draws input, operation = .fail draws input ∧
      (row.toDomain.attemptId = none ↔ input.origin = .validation) := by
  rcases decided_of_saved saved with ⟨event, before, entry, isEvent, beforeMem, _, decided⟩
  have shaped := shape.shaped before beforeMem
  generalize before.toDomain = request at decided shaped
  generalize row.toDomain = updated at decided failed
  cases operation with
  | create draws input => cases isEvent
  | accept draws input =>
      cases isEvent
      rcases AcceptProcessingRequestUseCase.decide_eq_applied.mp decided with ⟨_, rfl, _⟩
      cases failed
  | start draws input =>
      cases isEvent
      rcases StartProcessingRequestUseCase.decide_eq_applied.mp decided with ⟨_, _, rfl, _⟩
      cases failed
  | complete draws input =>
      cases isEvent
      rcases CompleteProcessingRequestUseCase.decide_eq_applied.mp decided with
        ⟨_, _, _, rfl, _⟩
      cases failed
  | fail draws input =>
      cases isEvent
      refine ⟨draws, input, rfl, ?_⟩
      rcases FailProcessingRequestUseCase.decide_eq_applied.mp decided with
        ⟨⟨validation, received⟩ | ⟨processing, _, running⟩, ⟨_, _, rfl⟩, _⟩
      · simp [validation, shaped.received received]
      · have attempted : request.attemptId.isSome := by
          apply shaped.attempted
          rcases running with queued | processing
          · simp [queued]
          · simp [processing]
        simp [processing, Option.isSome_iff_ne_none.mp attempted]

end ProcessingCatalog
