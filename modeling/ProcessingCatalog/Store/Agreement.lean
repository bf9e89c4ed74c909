import ProcessingCatalog.Store.History

/-!
# The outbox agrees with the requests

What the outbox has announced about a request, compared with the request as it
is stored: one request for validation, a queued event exactly when an attempt
was made, and a terminal event exactly when the request has ended, each with the
values of the stored request. Every operation keeps the agreement.
-/

namespace ProcessingCatalog

open Domain

/-- The entries of one pattern. -/
def announcements (pattern : JsString) (entries : List OutboxEntry) : List OutboxEntry :=
  entries.filter fun entry => entry.route.pattern = pattern

/-- The terminal event of a request carries what is stored. -/
def TerminalMatches (request : ProcessingRequest) (payload : OutboxPayload) : Prop :=
  payload.status = some request.status ∧ payload.attemptId = request.attemptId ∧
    payload.zipStorageKey = request.zipStorageKey ∧
    payload.failureReason = request.failureCode.map failureReasonFor ∧
    payload.ownerUserId = request.ownerUserId ∧ payload.ownerEmail = some request.ownerEmail ∧
    payload.correlationId = request.correlationId

/-- The entries about a request say what is stored of it, and say it once. -/
structure Agrees (request : ProcessingRequest) (entries : List OutboxEntry) : Prop where
  validation : ∃ entry, announcements (js "VideoValidationRequested") entries = [entry] ∧
    entry.payload.sourceStorageKey = some request.sourceStorageKey ∧
    entry.payload.ownerUserId = request.ownerUserId ∧
    entry.payload.correlationId = request.correlationId
  queued : (announcements (js "ProcessingQueued") entries ≠ [] ↔ request.attemptId.isSome) ∧
    (request.attemptId.isSome →
      ∃ entry, announcements (js "ProcessingQueued") entries = [entry] ∧
        entry.payload.attemptId = request.attemptId)
  terminal : (announcements (js "terminal.event") entries ≠ [] ↔ request.status.Terminal) ∧
    (request.status.Terminal →
      ∃ entry, announcements (js "terminal.event") entries = [entry] ∧
        TerminalMatches request entry.payload)

/-- Which optional fields a status allows. -/
structure ProcessingRequest.WellFormed (request : ProcessingRequest) : Prop where
  attemptId : request.status = .received → request.attemptId = none
  zipStorageKey : request.status ≠ .completed → request.zipStorageKey = none
  failureCode : request.status ≠ .failed → request.failureCode = none

@[simp]
theorem announcements_append (pattern : JsString) (first second : List OutboxEntry) :
    announcements pattern (first ++ second) =
      announcements pattern first ++ announcements pattern second :=
  List.filter_append _ _

theorem announcements_singleton (pattern : JsString) (entry : OutboxEntry) :
    announcements pattern [entry] = if entry.route.pattern = pattern then [entry] else [] := by
  simp [announcements, List.filter_cons]

/-- The entry a decision announces. -/
def announced (entry : Option (EventRoute × OutboxPayload)) : List OutboxEntry :=
  entry.toList.map fun (route, payload) => ⟨route, payload⟩

@[simp]
theorem Ledger.outbox_applied {ledger : Ledger} {event : LifecycleEvent}
    {row : ProcessingRequestRow} {entry : Option (EventRoute × OutboxPayload)} :
    (ledger.applyAll (event.appliedChanges row entry)).outbox =
      ledger.outbox ++ announced entry := by
  cases entry with
  | none => simp [LifecycleEvent.appliedChanges, announced, Ledger.apply]
  | some added => rfl

/-- A lifecycle event after which the entries still agree with the request. -/
def LifecycleEvent.KeepsAgreement (event : LifecycleEvent) : Prop :=
  ∀ request updated entry entries, event.decide request = .ok (.applied updated entry) →
    request.WellFormed → Agrees request entries →
      updated.WellFormed ∧ Agrees updated (entries ++ announced entry)

theorem AcceptProcessingRequestUseCase.keepsAgreement (draws : Draws) (input : Input) :
    (event draws input).KeepsAgreement := by
  intro request updated entry entries decided wellFormed agrees
  obtain ⟨received, rfl, rfl⟩ := decide_eq_applied.mp decided
  have notQueued : announcements (js "ProcessingQueued") entries = [] := by
    simpa [wellFormed.attemptId received] using agrees.queued.1
  have notEnded : announcements (js "terminal.event") entries = [] := by
    simpa [received, ProcessingRequestStatus.Terminal] using agrees.terminal.1
  have otherPatterns : js "ProcessingQueued" ≠ js "VideoValidationRequested" ∧
      js "ProcessingQueued" ≠ js "terminal.event" := by decide
  refine ⟨⟨nofun, fun _ => ?_, fun _ => ?_⟩, ?_, ?_, ?_⟩
  · exact wellFormed.zipStorageKey (by simp [received])
  · exact wellFormed.failureCode (by simp [received])
  · simpa [announced, announcements_singleton, EventRoute.processingQueued, otherPatterns] using
      agrees.validation
  · simp [announced, announcements_singleton, EventRoute.processingQueued, notQueued, queuedEvent]
  · simp [announced, announcements_singleton, EventRoute.processingQueued, otherPatterns, notEnded,
      ProcessingRequestStatus.Terminal]

theorem StartProcessingRequestUseCase.keepsAgreement (draws : Draws) (input : Input) :
    (event draws input).KeepsAgreement := by
  intro request updated entry entries decided wellFormed agrees
  obtain ⟨_, queued, rfl, rfl⟩ := decide_eq_applied.mp decided
  refine ⟨⟨nofun, fun _ => ?_, fun _ => ?_⟩, ?_, ?_, ?_⟩
  · exact wellFormed.zipStorageKey (by simp [queued])
  · exact wellFormed.failureCode (by simp [queued])
  · simpa [announced] using agrees.validation
  · simpa [announced] using agrees.queued
  · simpa [announced, queued, ProcessingRequestStatus.Terminal] using agrees.terminal

/-- The step of a request into a terminal status, with its only terminal event. -/
theorem Agrees.terminate {request updated : ProcessingRequest} {entries : List OutboxEntry}
    (agrees : Agrees request entries) (notEnded : ¬ request.status.Terminal)
    (same : request.SameIdentity updated) (attempt : updated.attemptId = request.attemptId)
    (ended : updated.status.Terminal) {payload : OutboxPayload}
    (matching : TerminalMatches updated payload) :
    Agrees updated (entries ++ announced (some (.terminalEvent, payload))) := by
  obtain ⟨_, owner, _, source, _, correlation, _⟩ := same
  have noTerminal : announcements (js "terminal.event") entries = [] := by
    simpa [notEnded] using agrees.terminal.1
  have otherPatterns : js "terminal.event" ≠ js "VideoValidationRequested" ∧
      js "terminal.event" ≠ js "ProcessingQueued" := by decide
  refine ⟨?_, ?_, ?_⟩
  · simpa [announced, announcements_singleton, EventRoute.terminalEvent, otherPatterns, owner,
      source, correlation] using agrees.validation
  · simpa [announced, announcements_singleton, EventRoute.terminalEvent, otherPatterns, attempt]
      using agrees.queued
  · simpa [announced, announcements_singleton, EventRoute.terminalEvent, noTerminal, ended]
      using matching

theorem CompleteProcessingRequestUseCase.keepsAgreement (draws : Draws) (input : Input) :
    (event draws input).KeepsAgreement := by
  intro request updated entry entries decided wellFormed agrees
  obtain ⟨_, _, running, rfl, rfl⟩ := decide_eq_applied.mp decided
  have notEnded : ¬ request.status.Terminal ∧ request.status ≠ .failed := by
    rcases running with queued | processing
    · simp [queued, ProcessingRequestStatus.Terminal]
    · simp [processing, ProcessingRequestStatus.Terminal]
  have code := wellFormed.failureCode notEnded.2
  refine ⟨⟨by simp, fun different => absurd rfl different, fun _ => code⟩, ?_⟩
  refine Agrees.terminate agrees notEnded.1 ?_ ?_ ?_ ?_
  · exact .refl _
  · rfl
  · exact .inl rfl
  · exact ⟨rfl, rfl, rfl, by simp [completedEvent, terminalPayload, code], rfl, rfl, rfl⟩

theorem FailProcessingRequestUseCase.keepsAgreement (draws : Draws) (input : Input) :
    (event draws input).KeepsAgreement := by
  intro request updated entry entries decided wellFormed agrees
  obtain ⟨reported, ⟨code, known, rfl⟩, rfl⟩ := decide_eq_applied.mp decided
  have notEnded : ¬ request.status.Terminal ∧ request.status ≠ .completed := by
    rcases reported with ⟨_, received⟩ | ⟨_, _, queued | processing⟩
    · simp [received, ProcessingRequestStatus.Terminal]
    · simp [queued, ProcessingRequestStatus.Terminal]
    · simp [processing, ProcessingRequestStatus.Terminal]
  have zip := wellFormed.zipStorageKey notEnded.2
  refine ⟨⟨nofun, fun _ => zip, fun different => absurd rfl different⟩, ?_⟩
  refine Agrees.terminate agrees notEnded.1 ?_ ?_ ?_ ?_
  · exact .refl _
  · rfl
  · exact .inr rfl
  · exact ⟨rfl, rfl, by simp [failedEvent, terminalPayload, zip],
      by simp [failedEvent, terminalPayload, known], rfl, rfl, rfl⟩

theorem Operation.keepsAgreement {operation : Operation} {event : LifecycleEvent}
    (isEvent : operation.event? = some event) : event.KeepsAgreement :=
  forall_event AcceptProcessingRequestUseCase.keepsAgreement
    StartProcessingRequestUseCase.keepsAgreement CompleteProcessingRequestUseCase.keepsAgreement
    FailProcessingRequestUseCase.keepsAgreement isEvent

/-- Every request is well formed and agrees with the outbox, which speaks of stored requests
only. -/
structure Ledger.Agreement (ledger : Ledger) : Prop where
  stored : ∀ entry ∈ ledger.outbox, ∃ row ∈ ledger.requests,
    entry.payload.processingRequestId = row.processingRequestId.text
  wellFormed : ∀ row ∈ ledger.requests, row.toDomain.WellFormed
  agrees : ∀ row ∈ ledger.requests,
    Agrees row.toDomain (ledger.outboxOf row.processingRequestId.text)

theorem Ledger.agreement_empty : Ledger.empty.Agreement where
  stored := by simp [Ledger.empty]
  wellFormed := by simp [Ledger.empty]
  agrees := by simp [Ledger.empty]

/-- The first entry about a request. -/
theorem CreateProcessingRequestUseCase.agrees_inserted (draws : Draws) (input : Input)
    (correlationId : Option JsString) :
    (requestRow draws input correlationId).toDomain.WellFormed ∧
      Agrees (requestRow draws input correlationId).toDomain
        [⟨.videoValidationRequested,
          validationRequested input (requestRow draws input correlationId).toDomain⟩] := by
  have otherPatterns : js "VideoValidationRequested" ≠ js "ProcessingQueued" ∧
      js "VideoValidationRequested" ≠ js "terminal.event" := by decide
  refine ⟨⟨fun _ => rfl, fun _ => rfl, fun _ => rfl⟩, ?_, ?_, ?_⟩
  · simp [announcements_singleton, EventRoute.videoValidationRequested, validationRequested]
  · simp [announcements_singleton, EventRoute.videoValidationRequested, otherPatterns, requestRow,
      ProcessingRequestRow.toDomain]
  · simp [announcements_singleton, EventRoute.videoValidationRequested, otherPatterns, requestRow,
      ProcessingRequestRow.toDomain, ProcessingRequestStatus.Terminal]

theorem Ledger.outboxOf_of_appended {before after : Ledger} {entries : List OutboxEntry}
    (appended : after.outbox = before.outbox ++ entries) (processingRequestId : JsString) :
    after.outboxOf processingRequestId = before.outboxOf processingRequestId ++
      entries.filter fun entry => entry.payload.processingRequestId = processingRequestId := by
  simp [outboxOf, appended]

open CreateProcessingRequestUseCase in
theorem Ledger.Agreement.insertion {ledger : Ledger} (agreement : ledger.Agreement)
    (draws : Draws) (input : Input)
    (correlationId : Option JsString)
    (free : ∀ stored ∈ ledger.requests, stored.processingRequestId ≠ draws.uuid) :
    (ledger.applyAll (insertionChanges input (requestRow draws input correlationId).toDomain
      (requestRow draws input correlationId))).Agreement := by
  obtain ⟨insertedWellFormed, insertedAgrees⟩ := agrees_inserted draws input correlationId
  -- No entry is about the new request yet: entries are about stored requests only.
  have silent : ledger.outboxOf draws.uuid.text = [] := by
    refine List.filter_eq_nil_iff.mpr fun entry entryMem => ?_
    obtain ⟨stored, storedMem, about⟩ := agreement.stored entry entryMem
    simpa [about, Uuid.text_inj] using free stored storedMem
  refine ⟨?_, ?_, ?_⟩
  · intro entry entryMem
    rcases List.mem_append.mp entryMem with old | new
    · obtain ⟨stored, storedMem, about⟩ := agreement.stored entry old
      exact ⟨stored, KeyedTable.mem_upsert.mpr (.inr ⟨storedMem, free stored storedMem⟩), about⟩
    · rw [List.mem_singleton.mp new]
      exact ⟨_, KeyedTable.mem_upsert.mpr (.inl rfl), rfl⟩
  · intro row rowMem
    rcases KeyedTable.mem_upsert.mp rowMem with rfl | ⟨old, _⟩
    · exact insertedWellFormed
    · exact agreement.wellFormed row old
  · intro row rowMem
    have appended : (ledger.applyAll (insertionChanges input
        (requestRow draws input correlationId).toDomain
        (requestRow draws input correlationId))).outbox =
      ledger.outbox ++ [⟨.videoValidationRequested,
        validationRequested input (requestRow draws input correlationId).toDomain⟩] := rfl
    rw [Ledger.outboxOf_of_appended appended]
    rcases KeyedTable.mem_upsert.mp rowMem with rfl | ⟨old, different⟩
    · simpa [requestRow, silent, validationRequested, ProcessingRequestRow.toDomain]
        using insertedAgrees
    · have foreign : draws.uuid ≠ row.processingRequestId := different.symm
      simpa [requestRow, foreign, Uuid.text_inj, validationRequested,
        ProcessingRequestRow.toDomain] using agreement.agrees row old

/-- A request saved with what is announced about it. -/
theorem Ledger.Agreement.saving {ledger : Ledger} (agreement : ledger.Agreement)
    {event : LifecycleEvent} (keeps : event.KeepsAgreement) {row row' : ProcessingRequestRow}
    (rowMem : row ∈ ledger.requests) (same : row.SameIdentity row')
    {entry : Option (EventRoute × OutboxPayload)}
    (decided : event.decide row.toDomain = .ok (.applied row'.toDomain entry)) :
    (ledger.applyAll (event.appliedChanges row' entry)).Agreement := by
  have sameId : row'.processingRequestId = row.processingRequestId := same.processingRequestId
  obtain ⟨savedWellFormed, savedAgrees⟩ := keeps _ _ _ _ decided (agreement.wellFormed row rowMem)
    (agreement.agrees row rowMem)
  have about : ∀ added ∈ announced entry,
      added.payload.processingRequestId = row.processingRequestId.text := by
    intro added addedMem
    obtain ⟨⟨route, payload⟩, isEntry, rfl⟩ := List.mem_map.mp addedMem
    exact (event.lawful decided).2.2 route payload (Option.mem_toList.mp isEntry)
  refine ⟨?_, ?_, ?_⟩
  · intro added addedMem
    rw [Ledger.outbox_applied] at addedMem
    rw [Ledger.requests_applied]
    rcases List.mem_append.mp addedMem with old | new
    · obtain ⟨stored, storedMem, aboutStored⟩ := agreement.stored added old
      by_cases replaced : stored.processingRequestId = row'.processingRequestId
      · exact ⟨row', KeyedTable.mem_upsert.mpr (.inl rfl), replaced ▸ aboutStored⟩
      · exact ⟨stored, KeyedTable.mem_upsert.mpr (.inr ⟨storedMem, replaced⟩), aboutStored⟩
    · exact ⟨row', KeyedTable.mem_upsert.mpr (.inl rfl), sameId ▸ about added new⟩
  · intro stored storedMem
    rw [Ledger.requests_applied] at storedMem
    rcases KeyedTable.mem_upsert.mp storedMem with rfl | ⟨old, _⟩
    · exact savedWellFormed
    · exact agreement.wellFormed stored old
  · intro stored storedMem
    rw [Ledger.requests_applied] at storedMem
    rw [Ledger.outboxOf_of_appended Ledger.outbox_applied]
    rcases KeyedTable.mem_upsert.mp storedMem with rfl | ⟨old, different⟩
    · rw [sameId, List.filter_eq_self.mpr fun added addedMem => by simpa using about added addedMem]
      exact savedAgrees
    · rw [List.filter_eq_nil_iff.mpr fun added addedMem => ?_, List.append_nil]
      · exact agreement.agrees stored old
      · rw [about added addedMem, ← sameId]
        simpa [Uuid.text_inj] using different.symm

/-- Every operation keeps the agreement. -/
theorem Ledger.Agreement.perform {ledger : Ledger} (agreement : ledger.Agreement)
    (operation : Operation) : (ledger.applyAll (operation.perform ledger).2).Agreement := by
  have changes := operation.changes ledger
  generalize (operation.perform ledger).2 = made at changes
  cases changes with
  | nothing => exact agreement
  | @inserted draws input correlationId isCreate valid isRequest unrecorded free =>
      exact agreement.insertion draws input correlationId
        fun stored storedMem => free stored storedMem .primaryKey
  | noted => exact ⟨agreement.stored, agreement.wellFormed, agreement.agrees⟩
  | applied isEvent rowMem named unrecorded same decided =>
      exact agreement.saving (Operation.keepsAgreement isEvent) rowMem same decided

theorem History.agreement {ι : Type} {operations : ι → Operation} {initial ledger : Ledger}
    {committed : List (ι × List Write)} (history : History operations initial committed ledger)
    (agreement : initial.Agreement) : ledger.Agreement := by
  induction history with
  | start => exact agreement
  | commit before performed ih => exact performed ▸ ih.perform _

/-- The unique indexes are kept by every history. -/
theorem History.uniqueIndexes {ι : Type} {operations : ι → Operation} {initial ledger : Ledger}
    {committed : List (ι × List Write)} (history : History operations initial committed ledger)
    (unique : UniqueIndexes initial.requests) : UniqueIndexes ledger.requests := by
  induction history with
  | start => exact unique
  | commit before performed ih => exact performed ▸ ih.perform _

end ProcessingCatalog
