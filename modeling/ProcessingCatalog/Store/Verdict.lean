import ProcessingCatalog.Store.Forward
import ProcessingCatalog.Store.Redelivery

/-!
# The first terminal event decides

A request that was accepted stands undecided until the first terminal event of
its attempt, whatever else is delivered; that event decides it, and nothing
delivered later moves it.
-/

namespace ProcessingCatalog

open Domain

/-- How an attempt ended, and when. -/
inductive Verdict where
  | completed (zipStorageKey occurredAt : JsString)
  | failed (code : FailureCode) (occurredAt : JsString)

namespace Operation

/-- The verdict a delivery brings on an attempt: a completion of it with a zip key, or a
processing failure of it with a known code. -/
def verdict? (attemptId : JsString) : Operation → Option Verdict
  | .complete _ input =>
      if input.attemptId = attemptId ∧ isBlank input.zipStorageKey = false then
        some (.completed input.zipStorageKey input.occurredAt)
      else
        none
  | .fail _ input =>
      if input.origin = .processing ∧ input.attemptId = some attemptId then
        (failureCode? input.failureCode).map (.failed · input.occurredAt)
      else
        none
  | _ => none

/-- Whether a delivery starts an attempt. -/
def starts (attemptId : JsString) : Operation → Bool
  | .start _ input => input.attemptId = attemptId
  | _ => false

variable {delivery again : Operation}

theorem Redelivers.verdict? (redelivers : delivery.Redelivers again) (attemptId : JsString) :
    again.verdict? attemptId = delivery.verdict? attemptId := by
  cases redelivers <;> rfl

theorem Redelivers.starts (redelivers : delivery.Redelivers again) (attemptId : JsString) :
    again.starts attemptId = delivery.starts attemptId := by
  cases redelivers <;> rfl

end Operation

/-- What a terminal event says of its request. -/
structure Notice where
  status : Option ProcessingRequestStatus
  attemptId : Option JsString
  zipStorageKey : Option JsString
  failureReason : Option JsString
  occurredAt : JsString
  deriving DecidableEq

def Notice.of (entry : OutboxEntry) : Notice where
  status := entry.payload.status
  attemptId := entry.payload.attemptId
  zipStorageKey := entry.payload.zipStorageKey
  failureReason := entry.payload.failureReason
  occurredAt := entry.payload.occurredAt

/-- Where a request stands, and what its terminal events say. -/
structure Standing where
  status : ProcessingRequestStatus
  attemptId : Option JsString
  zipStorageKey : Option JsString
  failureCode : Option FailureCode
  notices : List Notice
  deriving DecidableEq

namespace Standing

/-- The standing of a stored request with its outbox entries. -/
def of (request : ProcessingRequest) (entries : List OutboxEntry) : Standing where
  status := request.status
  attemptId := request.attemptId
  zipStorageKey := request.zipStorageKey
  failureCode := request.failureCode
  notices := (announcements (js "terminal.event") entries).map .of

/-- An attempt without a verdict. -/
def undecided (attemptId : JsString) (started : Bool) : Standing where
  status := if started then .processing else .queued
  attemptId := some attemptId
  zipStorageKey := none
  failureCode := none
  notices := []

/-- An attempt after its verdict. -/
def decided (attemptId : JsString) : Verdict → Standing
  | .completed zipStorageKey occurredAt => {
      status := .completed
      attemptId := some attemptId
      zipStorageKey := some zipStorageKey
      failureCode := none
      notices := [⟨some .completed, some attemptId, some zipStorageKey, none, occurredAt⟩] }
  | .failed code occurredAt => {
      status := .failed
      attemptId := some attemptId
      zipStorageKey := none
      failureCode := some code
      notices := [⟨some .failed, some attemptId, none, some (failureReasonFor code), occurredAt⟩] }

/-- Where a verdict, or its absence, leaves an attempt. -/
def settled (attemptId : JsString) (started : Bool) : Option Verdict → Standing
  | some verdict => decided attemptId verdict
  | none => undecided attemptId started

@[simp]
theorem settled_some (attemptId : JsString) (started : Bool) (verdict : Verdict) :
    settled attemptId started (some verdict) = decided attemptId verdict := rfl

@[simp]
theorem settled_none (attemptId : JsString) (started : Bool) :
    settled attemptId started none = undecided attemptId started := rfl

/-- Where a sequence of deliveries leaves a request accepted with an attempt, when all of them
count: with the first verdict on the attempt; without one, processing if some delivery starts the
attempt. -/
def after (attemptId : JsString) (deliveries : List Operation) : Standing :=
  settled attemptId (deliveries.any (·.starts attemptId))
    (deliveries.findSome? (·.verdict? attemptId))

theorem settled_eq_undecided {attemptId : JsString} {started started' : Bool}
    {verdict : Option Verdict}
    (same : settled attemptId started verdict = undecided attemptId started') :
    verdict = none ∧ started = started' := by
  cases verdict with
  | some verdict =>
      have status := congrArg Standing.status same
      cases verdict <;> cases started' <;> simp [decided, undecided] at status
  | none =>
      have status := congrArg Standing.status same
      cases started <;> cases started' <;> simp [undecided] at status ⊢

theorem terminal_decided (attemptId : JsString) (verdict : Verdict) :
    (decided attemptId verdict).status.Terminal := by
  cases verdict with
  | completed zipStorageKey occurredAt => exact .inl rfl
  | failed code occurredAt => exact .inr rfl

end Standing

/-- Where a request of the ledger stands. -/
def Ledger.standing (ledger : Ledger) (id : Uuid) : Option Standing :=
  (ledger.requests.find? id).map fun row => .of row.toDomain (ledger.outboxOf id.text)

/-! ## What one event decides -/

namespace LifecycleEvent

variable {event : LifecycleEvent} {ledger : Ledger} {row : ProcessingRequestRow}

/-- A decision that is not an error, or the error the event throws, changes the ledger. -/
theorem changes_of_row (valid : event.refusal = none)
    (unrecorded : ledger.isRecorded event.eventId = false)
    (named : Uuid.parse event.processingRequestId = some row.processingRequestId)
    (found : ledger.requests.find? row.processingRequestId = some row) :
    (event.perform ledger).2 =
      match event.decide row.toDomain with
      | .ok decision => (event.performDecision row decision).2
      | .error _ => [] := by
  cases decided : event.decide row.toDomain with
  | error error =>
      simp [perform, valid, findByEventId_eq_none unrecorded, performLocked, named, found,
        unrecorded, decided]
  | ok decision => rw [perform_decided valid unrecorded named found decided]

/-- An applied decision leaves the request as it decided, with the entry it announces. -/
theorem standing_of_applied {updated : ProcessingRequest}
    {entry : Option (EventRoute × OutboxPayload)}
    (decided : event.decide row.toDomain = .ok (.applied updated entry)) :
    (ledger.applyAll (event.performDecision row (.applied updated entry)).2).standing
        row.processingRequestId =
      some (.of updated (ledger.outboxOf row.processingRequestId.text ++ announced entry)) := by
  have lawful := event.lawful decided
  rcases lawful.exists_row with ⟨row', rfl, same⟩
  have sameId := same.processingRequestId
  have about : ∀ other ∈ announced entry,
      other.payload.processingRequestId = row.processingRequestId.text := by
    intro other otherMem
    rcases List.mem_map.mp otherMem with ⟨⟨route, payload⟩, isEntry, rfl⟩
    exact lawful.2.2 route payload (Option.mem_toList.mp isEntry)
  have announcedAll : (announced entry).filter (fun other =>
      other.payload.processingRequestId = row.processingRequestId.text) = announced entry := by
    rw [List.filter_eq_self]
    intro other otherMem
    simpa using about other otherMem
  cases entry with
  | none =>
      simp [performDecision, appliedChanges, Ledger.apply, Change.applyToRequests, Ledger.standing,
        Ledger.outboxOf, KeyedTable.find?_upsert, sameId, announced]
  | some entry =>
      rcases entry with ⟨route, payload⟩
      simp only [announced, Option.toList_some, List.map_cons, List.map_nil] at announcedAll ⊢
      simp [performDecision, appliedChanges, Ledger.apply, Change.applyToRequests, Ledger.standing,
        Ledger.outboxOf, KeyedTable.find?_upsert, sameId, List.filter_append, announcedAll]

/-- What an event makes of the standing of the request it finds. -/
def restated (event : LifecycleEvent) (request : ProcessingRequest) (entries : List OutboxEntry) :
    Standing :=
  match event.decide request with
  | .ok (.applied updated entry) => .of updated (entries ++ announced entry)
  | _ => .of request entries

theorem restated_of_not_applied {request : ProcessingRequest}
    (notApplied : ∀ updated entry, event.decide request ≠ .ok (.applied updated entry))
    (entries : List OutboxEntry) : event.restated request entries = .of request entries := by
  unfold restated
  split
  · next updated entry isApplied => exact absurd isApplied (notApplied updated entry)
  · rfl

theorem standing_of_valid (valid : event.refusal = none)
    (unrecorded : ledger.isRecorded event.eventId = false)
    (named : Uuid.parse event.processingRequestId = some row.processingRequestId)
    (found : ledger.requests.find? row.processingRequestId = some row) :
    (ledger.applyAll (event.perform ledger).2).standing row.processingRequestId =
      some (event.restated row.toDomain (ledger.outboxOf row.processingRequestId.text)) := by
  have stays : ledger.standing row.processingRequestId =
      some (.of row.toDomain (ledger.outboxOf row.processingRequestId.text)) := by
    simp [Ledger.standing, found]
  rw [changes_of_row valid unrecorded named found, restated]
  cases decided : event.decide row.toDomain with
  | error error => exact stays
  | ok decision =>
      cases decision with
      | noted => exact stays
      | applied updated entry => exact standing_of_applied decided

end LifecycleEvent

theorem Standing.of_eq_undecided {request : ProcessingRequest} {entries : List OutboxEntry}
    {attemptId : JsString} {started : Bool} :
    of request entries = undecided attemptId started ↔
      request.status = (if started then .processing else .queued) ∧
        request.attemptId = some attemptId ∧ request.zipStorageKey = none ∧
        request.failureCode = none ∧ announcements (js "terminal.event") entries = [] := by
  simp [of, undecided]

section Undecided

variable {request : ProcessingRequest} {entries : List OutboxEntry} {attemptId : JsString}
  {started : Bool}

theorem Standing.open_of_undecided (standing : .of request entries = undecided attemptId started) :
    request.status = .queued ∨ request.status = .processing := by
  rcases of_eq_undecided.mp standing with ⟨status, _⟩
  cases started with
  | false => exact .inl status
  | true => exact .inr status

theorem AcceptProcessingRequestUseCase.restated_undecided (draws : Draws) (input : Input)
    (standing : .of request entries = Standing.undecided attemptId started) :
    (event draws input).restated request entries = .undecided attemptId started := by
  have refused : request.status ≠ .received := by
    rcases Standing.open_of_undecided standing with queued | processing
    · simp [queued]
    · simp [processing]
  rw [LifecycleEvent.restated_of_not_applied, standing]
  intro updated entry decided
  exact refused (decide_eq_applied.mp decided).1

theorem StartProcessingRequestUseCase.restated_undecided (draws : Draws) (input : Input)
    (standing : .of request entries = Standing.undecided attemptId started) :
    (event draws input).restated request entries =
      .undecided attemptId (started || (Operation.start draws input).starts attemptId) := by
  rcases Standing.of_eq_undecided.mp standing with ⟨status, attempt, zip, code, quiet⟩
  by_cases current : input.attemptId = attemptId
  · cases started with
    | false =>
        have applied : (event draws input).decide request = .ok (.applied
            { request with status := .processing, updatedAt := draws.now } none) :=
          decide_eq_applied.mpr ⟨by simp [isStaleAttempt, attempt, current], status, rfl, rfl⟩
        simp [LifecycleEvent.restated, applied, Standing.of, Standing.undecided, Operation.starts,
          current, attempt, zip, code, announced, quiet]
    | true =>
        have noted : (event draws input).decide request = .ok .noted := by
          refine decide_eq_ok.mpr (.inr ⟨by simp [isStaleAttempt, attempt, current], request,
            startProcessingRequest_eq_ok.mpr ⟨by simp [status], .inr ⟨by simp [status], rfl⟩⟩, ?_⟩)
          rw [if_pos rfl]
        simpa [LifecycleEvent.restated, noted] using standing
  · have noted : (event draws input).decide request = .ok .noted :=
      decide_eq_ok.mpr (.inl ⟨by simp [isStaleAttempt, attempt, current], rfl⟩)
    simpa [LifecycleEvent.restated, noted, Operation.starts, current] using standing

theorem CompleteProcessingRequestUseCase.restated_undecided (draws : Draws) (input : Input)
    (zipped : isBlank input.zipStorageKey = false)
    (standing : .of request entries = Standing.undecided attemptId started) :
    (event draws input).restated request entries =
      .settled attemptId started ((Operation.complete draws input).verdict? attemptId) := by
  rcases Standing.of_eq_undecided.mp standing with ⟨_, attempt, _, code, quiet⟩
  by_cases current : input.attemptId = attemptId
  · have applied : (event draws input).decide request = .ok (.applied
        { request with
          status := .completed, zipStorageKey := some input.zipStorageKey, updatedAt := draws.now }
        (some (.terminalEvent, completedEvent draws input { request with
          status := .completed, zipStorageKey := some input.zipStorageKey,
          updatedAt := draws.now }))) :=
      decide_eq_applied.mpr ⟨by simp [isStaleAttempt, attempt, current], zipped,
        Standing.open_of_undecided standing, rfl, rfl⟩
    simp [LifecycleEvent.restated, applied, Standing.of, Operation.verdict?, current, zipped,
      Standing.decided, attempt, code, announced, quiet, announcements_singleton,
      EventRoute.terminalEvent, Notice.of, completedEvent, terminalPayload]
  · have noted : (event draws input).decide request = .ok .noted :=
      decide_eq_ok.mpr (.inl ⟨by simp [isStaleAttempt, attempt, current], rfl⟩)
    simpa [LifecycleEvent.restated, noted, Operation.verdict?, current] using standing

theorem FailProcessingRequestUseCase.restated_undecided (draws : Draws) (input : Input)
    {reported : FailureCode} (known : failureCode? input.failureCode = some reported)
    (standing : .of request entries = Standing.undecided attemptId started) :
    (event draws input).restated request entries =
      .settled attemptId started ((Operation.fail draws input).verdict? attemptId) := by
  rcases Standing.of_eq_undecided.mp standing with ⟨_, attempt, zip, _, quiet⟩
  have opened := Standing.open_of_undecided standing
  cases origin : input.origin with
  | validation =>
      have same : (event draws input).restated request entries = .of request entries := by
        apply LifecycleEvent.restated_of_not_applied
        intro updated entry decided
        rcases decide_eq_applied.mp decided with ⟨⟨_, received⟩ | ⟨other, _⟩, _⟩
        · simp [received] at opened
        · simp [origin] at other
      simpa [Operation.verdict?, origin, same] using standing
  | processing =>
      by_cases current : input.attemptId = some attemptId
      · have applied : (event draws input).decide request = .ok (.applied
            { request with
              status := .failed, failureCode := some reported, updatedAt := draws.now }
            (some (.terminalEvent, failedEvent draws input { request with
              status := .failed, failureCode := some reported, updatedAt := draws.now }))) :=
          decide_eq_applied.mpr
            ⟨.inr ⟨origin, by simp [isStaleAttempt, attempt, current], opened⟩,
              ⟨reported, known, rfl⟩, rfl⟩
        simp [LifecycleEvent.restated, applied, Standing.of, Operation.verdict?, origin, current,
          known, Standing.decided, attempt, zip, announced, quiet,
          announcements_singleton, EventRoute.terminalEvent, Notice.of, failedEvent,
          terminalPayload]
      · have noted : (event draws input).decide request = .ok .noted :=
          decide_eq_ok.mpr (.inl ⟨origin, by simp [isStaleAttempt, attempt, current], rfl⟩)
        simpa [LifecycleEvent.restated, noted, Operation.verdict?, current] using standing

namespace Operation

variable {operation : Operation} {event : LifecycleEvent}

theorem restated_undecided (isEvent : operation.event? = some event) (valid : event.refusal = none)
    (standing : .of request entries = Standing.undecided attemptId started) :
    event.restated request entries =
      .settled attemptId (started || operation.starts attemptId)
        (operation.verdict? attemptId) := by
  cases operation with
  | create draws input => simp [event?] at isEvent
  | accept draws input =>
      cases isEvent
      rw [AcceptProcessingRequestUseCase.restated_undecided draws input standing]
      simp [starts, verdict?]
  | start draws input =>
      cases isEvent
      rw [StartProcessingRequestUseCase.restated_undecided draws input standing]
      simp [verdict?]
  | complete draws input =>
      cases isEvent
      have zipped : isBlank input.zipStorageKey = false := by
        simp only [CompleteProcessingRequestUseCase.event, firstRefusal] at valid
        split_ifs at valid with noEventId noRequestId noZip
        simpa using noZip
      rw [CompleteProcessingRequestUseCase.restated_undecided draws input zipped standing]
      simp [starts]
  | fail draws input =>
      cases isEvent
      have known : isFailureCode input.failureCode = true := by
        simp only [FailProcessingRequestUseCase.event, firstRefusal] at valid
        split_ifs at valid with noEventId noRequestId unknown
        simpa using unknown
      rcases Option.isSome_iff_exists.mp known with ⟨code, isCode⟩
      rw [FailProcessingRequestUseCase.restated_undecided draws input isCode standing]
      simp [starts]

/-- What a use case refuses for its fields brings no verdict and starts nothing. -/
theorem verdict?_of_refused (isEvent : operation.event? = some event) {error : Thrown}
    (refused : event.refusal = some error) (identified : isBlank event.eventId = false)
    (named : isBlank event.processingRequestId = false) :
    operation.verdict? attemptId = none ∧ operation.starts attemptId = false := by
  cases operation with
  | create draws input => exact ⟨rfl, rfl⟩
  | accept draws input => exact ⟨rfl, rfl⟩
  | start draws input =>
      cases isEvent
      simp only [StartProcessingRequestUseCase.event] at refused identified named
      simp [firstRefusal, identified, named] at refused
  | complete draws input =>
      cases isEvent
      simp only [CompleteProcessingRequestUseCase.event] at refused identified named
      have unzipped : isBlank input.zipStorageKey = true := by
        by_contra zipped
        simp [firstRefusal, identified, named, zipped] at refused
      exact ⟨by simp [verdict?, unzipped], rfl⟩
  | fail draws input =>
      cases isEvent
      simp only [FailProcessingRequestUseCase.event] at refused identified named
      have unknown : failureCode? input.failureCode = none := by
        by_contra known
        rw [← ne_eq, ← Option.isSome_iff_ne_none] at known
        simp [firstRefusal, identified, named, isFailureCode, known] at refused
      exact ⟨by simp [verdict?, unknown], rfl⟩

/-- Nothing is applied to a request that has ended. -/
theorem not_applied_of_terminal (isEvent : operation.event? = some event)
    (ended : request.status.Terminal) {updated : ProcessingRequest}
    {entry : Option (EventRoute × OutboxPayload)} :
    event.decide request ≠ .ok (.applied updated entry) := by
  have closed : request.status ≠ .received ∧ request.status ≠ .queued ∧
      request.status ≠ .processing := by
    rcases ended with completed | failed
    · simp [completed]
    · simp [failed]
  intro decided
  cases operation with
  | create draws input => simp [event?] at isEvent
  | accept draws input =>
      cases isEvent
      rcases AcceptProcessingRequestUseCase.decide_eq_applied.mp decided with ⟨received, _⟩
      exact closed.1 received
  | start draws input =>
      cases isEvent
      rcases StartProcessingRequestUseCase.decide_eq_applied.mp decided with ⟨_, queued, _⟩
      exact closed.2.1 queued
  | complete draws input =>
      cases isEvent
      rcases CompleteProcessingRequestUseCase.decide_eq_applied.mp decided with ⟨_, _, running, _⟩
      simp [closed] at running
  | fail draws input =>
      cases isEvent
      rcases FailProcessingRequestUseCase.decide_eq_applied.mp decided with
        ⟨⟨_, received⟩ | ⟨_, _, running⟩, _⟩
      · exact closed.1 received
      · simp [closed] at running

theorem restated_terminal (isEvent : operation.event? = some event)
    (ended : request.status.Terminal) :
    event.restated request entries = .of request entries :=
  LifecycleEvent.restated_of_not_applied
    (fun _ _ => not_applied_of_terminal isEvent ended) entries

/-- A terminal event is announced only about a request that has ended. -/
theorem terminal_of_announced (isEvent : operation.event? = some event)
    {updated : ProcessingRequest} {route : EventRoute} {payload : OutboxPayload}
    (decided : event.decide request = .ok (.applied updated (some (route, payload))))
    (isTerminal : route.pattern = js "terminal.event") : updated.status.Terminal := by
  cases operation with
  | create draws input => simp [event?] at isEvent
  | accept draws input =>
      cases isEvent
      rcases AcceptProcessingRequestUseCase.decide_eq_applied.mp decided with ⟨_, _, same⟩
      cases same
      simp only [EventRoute.processingQueued] at isTerminal
      exact absurd isTerminal (by decide)
  | start draws input =>
      cases isEvent
      rcases StartProcessingRequestUseCase.decide_eq_applied.mp decided with ⟨_, _, _, same⟩
      cases same
  | complete draws input =>
      cases isEvent
      rcases CompleteProcessingRequestUseCase.decide_eq_applied.mp decided with
        ⟨_, _, _, rfl, _⟩
      exact .inl rfl
  | fail draws input =>
      cases isEvent
      rcases FailProcessingRequestUseCase.decide_eq_applied.mp decided with
        ⟨_, ⟨_, _, rfl⟩, _⟩
      exact .inr rfl

end Operation

end Undecided

/-! ## A sequence of deliveries -/

theorem Ledger.standing_eq_some {ledger : Ledger} {id : Uuid} {standing : Standing} :
    ledger.standing id = some standing ↔ ∃ row, ledger.requests.find? id = some row ∧
      .of row.toDomain (ledger.outboxOf row.processingRequestId.text) = standing := by
  constructor
  · intro stands
    rcases Option.map_eq_some_iff.mp stands with ⟨row, found, isStanding⟩
    exact ⟨row, found, KeyedTable.key_of_find? found ▸ isStanding⟩
  · rintro ⟨row, found, isStanding⟩
    refine Option.map_eq_some_iff.mpr ⟨row, found, ?_⟩
    rw [← isStanding, KeyedTable.key_of_find? found]

namespace Operation

variable {operation : Operation} {ledger : Ledger} {id : Uuid} {attemptId : JsString}

theorem exists_event_of_named (named : operation.named? = some id) :
    ∃ event, operation.event? = some event ∧ Uuid.parse event.processingRequestId = some id := by
  unfold named? at named
  rcases Option.bind_eq_some_iff.mp named with ⟨event, isEvent, parsed⟩
  exact ⟨event, isEvent, parsed⟩

/-- Nothing delivered to a request that has ended moves it. -/
theorem standing_of_terminal (named : operation.named? = some id) {standing : Standing}
    (stands : ledger.standing id = some standing) (ended : standing.status.Terminal) :
    (ledger.applyAll (operation.perform ledger).2).standing id = some standing := by
  rcases exists_event_of_named named with ⟨event, isEvent, parsed⟩
  rw [perform_of_event isEvent, Performed.map]
  cases recorded : ledger.isRecorded event.eventId with
  | true => simpa [LifecycleEvent.perform_recorded recorded] using stands
  | false =>
      cases valid : event.refusal with
      | some error => simpa [LifecycleEvent.perform, valid] using stands
      | none =>
          rcases Ledger.standing_eq_some.mp stands with ⟨row, found, rfl⟩
          have sameId := KeyedTable.key_of_find? found
          subst sameId
          rw [LifecycleEvent.standing_of_valid valid recorded parsed found,
            restated_terminal isEvent ended]

/-- An event that was not recorded, delivered to a request without a verdict. -/
theorem standing_of_undecided (named : operation.named? = some id)
    (identified : isBlank operation.eventId = false)
    (unrecorded : ledger.isRecorded operation.eventId = false) {started : Bool}
    (stands : ledger.standing id = some (.undecided attemptId started)) :
    (ledger.applyAll (operation.perform ledger).2).standing id =
      some (.settled attemptId (started || operation.starts attemptId)
        (operation.verdict? attemptId)) := by
  rcases exists_event_of_named named with ⟨event, isEvent, parsed⟩
  rw [← eventId_of_event isEvent] at identified unrecorded
  rw [perform_of_event isEvent, Performed.map]
  cases valid : event.refusal with
  | some error =>
      have noVerdict : operation.verdict? attemptId = none ∧ operation.starts attemptId = false :=
        verdict?_of_refused isEvent valid identified (Uuid.isBlank_of_parse parsed)
      simpa [LifecycleEvent.perform, valid, noVerdict] using stands
  | none =>
      rcases Ledger.standing_eq_some.mp stands with ⟨row, found, standing⟩
      have sameId := KeyedTable.key_of_find? found
      subst sameId
      rw [LifecycleEvent.standing_of_valid valid unrecorded parsed found,
        restated_undecided isEvent valid standing]

/-- An operation records no other event than its own. -/
theorem recorded_of_step {eventId : JsString}
    (recorded : (ledger.applyAll (operation.perform ledger).2).isRecorded eventId = true) :
    ledger.isRecorded eventId = true ∨ operation.eventId = eventId := by
  have left := operation.leaves ledger
  generalize ledger.applyAll (operation.perform ledger).2 = after at recorded left
  have upserted : ∀ (own : JsString) (pointsTo : Option Uuid),
      ((ledger.events.upsert ⟨own, pointsTo⟩).find? eventId).isSome = true →
        ledger.isRecorded eventId = true ∨ own = eventId := by
    intro own pointsTo isSome
    rw [KeyedTable.find?_upsert] at isSome
    split at isSome
    · next same => exact .inr same
    · exact .inl isSome
  cases left with
  | unchanged => exact .inl recorded
  | inserted isCreate valid isRequest unrecorded free =>
      subst isCreate
      exact upserted _ _ recorded
  | noted isEvent rowMem isNamed unrecorded decided =>
      rw [← eventId_of_event isEvent]
      exact upserted _ _ recorded
  | applied isEvent rowMem isNamed unrecorded same decided =>
      rw [← eventId_of_event isEvent]
      exact upserted _ _ recorded

end Operation

/-- Deliveries about one request: each names it and carries an event id, and an event id
identifies one event. -/
structure Deliveries (id : Uuid) (deliveries : List Operation) : Prop where
  named : ∀ delivery ∈ deliveries, delivery.named? = some id
  identified : ∀ delivery ∈ deliveries, isBlank delivery.eventId = false
  identifies : ∀ delivery ∈ deliveries, ∀ again ∈ deliveries,
    delivery.eventId = again.eventId → delivery.Redelivers again

theorem Deliveries.tail {id : Uuid} {delivery : Operation} {deliveries : List Operation}
    (about : Deliveries id (delivery :: deliveries)) : Deliveries id deliveries where
  named other otherMem := about.named other (List.mem_cons_of_mem _ otherMem)
  identified other otherMem := about.identified other (List.mem_cons_of_mem _ otherMem)
  identifies other otherMem again againMem :=
    about.identifies other (List.mem_cons_of_mem _ otherMem) again (List.mem_cons_of_mem _ againMem)

end ProcessingCatalog
