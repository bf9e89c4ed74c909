import ProcessingCatalog.JavaScript.JsonParse
import ProcessingCatalog.Store.Ledger

/-!
# What the consumers read from a body

The five consumers read a JSON body in one way: one `data` envelope is taken
off, the members that have to be there are looked for, and each of them is
converted with `String`. They differ in the members, and in whether the event
belongs to an attempt. What `parse` yields is a refusal or the failure of a
conversion (`of_parse_eq_error`), or the event that the members name
(`parse_eq_ok_iff`).
-/

namespace ProcessingCatalog

open Domain Effect

/-- The body without its `data` envelope, if it has one. -/
def unwrap (content : Json) : Json :=
  if content.isObject ∧ content.has (js "data") then (content.member? (js "data")).getD content
  else content

/-- The members of the body, all of which have to be there. -/
def requireMembers (message : JsString) (names : List JsString) (content : Json) :
    Except Thrown Json :=
  let payload := unwrap content
  if payload.isObject ∧ names.all payload.has then .ok payload else domainError message

/-- The value of an `attemptId` member, when it is a string that is not blank. -/
def isValidAttemptId : Option Json → Option JsString
  | some (.string value) => if 0 < (trim value).length then some value else none
  | _ => none

def requireAttemptId (payload : Json) : Except Thrown JsString :=
  match isValidAttemptId (payload.member? (js "attemptId")) with
  | some attemptId => .ok attemptId
  | none => domainError (js "attemptId is required")

/-- `String(payload[name])`. -/
def stringOf (stack : ℕ) (payload : Json) (name : JsString) : Except Thrown JsString :=
  match payload.member? name with
  | none => .ok (js "undefined")
  | some value => (value.text stack).mapError conversionThrew

/-- A member has a text on this call stack: `undefined`, if it is not there. -/
def MemberConverts (stack : ℕ) (payload : Json) (name : JsString) : Prop :=
  ∀ value, payload.member? name = some value → value.Converts stack

/-- The text of a member that has one. -/
def textOf (stack : ℕ) (payload : Json) (name : JsString) : JsString :=
  (stringOf stack payload name).toOption.getD []

structure VideoAcceptedDto where
  eventId : JsString
  processingRequestId : JsString
  occurredAt : JsString

structure VideoRejectedDto where
  eventId : JsString
  processingRequestId : JsString
  /-- Declared a `FailureCode`, and passed on unchecked. -/
  failureCode : Json
  occurredAt : JsString

structure ProcessingStartedDto where
  eventId : JsString
  processingRequestId : JsString
  attemptId : JsString
  occurredAt : JsString

structure ProcessingCompletedDto where
  eventId : JsString
  processingRequestId : JsString
  attemptId : JsString
  zipStorageKey : JsString
  occurredAt : JsString

structure ProcessingFailedDto where
  eventId : JsString
  processingRequestId : JsString
  attemptId : JsString
  failureCode : Json
  occurredAt : JsString

namespace VideoAcceptedConsumer

def parseVideoAccepted (stack : ℕ) (content : Json) : Except Thrown VideoAcceptedDto := do
  let payload ← requireMembers (js "Invalid VideoAccepted payload")
    [js "eventId", js "processingRequestId", js "occurredAt"] content
  return {
    eventId := ← stringOf stack payload (js "eventId")
    processingRequestId := ← stringOf stack payload (js "processingRequestId")
    occurredAt := ← stringOf stack payload (js "occurredAt") }

end VideoAcceptedConsumer

namespace VideoRejectedConsumer

def parse (stack : ℕ) (content : Json) : Except Thrown VideoRejectedDto := do
  let payload ← requireMembers (js "Invalid VideoRejected payload")
    [js "eventId", js "processingRequestId", js "failureCode", js "occurredAt"] content
  return {
    eventId := ← stringOf stack payload (js "eventId")
    processingRequestId := ← stringOf stack payload (js "processingRequestId")
    failureCode := (payload.member? (js "failureCode")).getD .null
    occurredAt := ← stringOf stack payload (js "occurredAt") }

end VideoRejectedConsumer

namespace ProcessingStartedConsumer

def parse (stack : ℕ) (content : Json) : Except Thrown ProcessingStartedDto := do
  let payload ← requireMembers (js "Invalid ProcessingStarted payload")
    [js "eventId", js "processingRequestId", js "occurredAt"] content
  let attemptId ← requireAttemptId payload
  return {
    eventId := ← stringOf stack payload (js "eventId")
    processingRequestId := ← stringOf stack payload (js "processingRequestId")
    attemptId
    occurredAt := ← stringOf stack payload (js "occurredAt") }

end ProcessingStartedConsumer

namespace ProcessingCompletedConsumer

def parseProcessingCompleted (stack : ℕ) (content : Json) :
    Except Thrown ProcessingCompletedDto := do
  let payload ← requireMembers (js "Invalid ProcessingCompleted payload")
    [js "eventId", js "processingRequestId", js "zipStorageKey", js "occurredAt"] content
  let attemptId ← requireAttemptId payload
  return {
    eventId := ← stringOf stack payload (js "eventId")
    processingRequestId := ← stringOf stack payload (js "processingRequestId")
    attemptId
    zipStorageKey := ← stringOf stack payload (js "zipStorageKey")
    occurredAt := ← stringOf stack payload (js "occurredAt") }

end ProcessingCompletedConsumer

namespace ProcessingFailedConsumer

def parse (stack : ℕ) (content : Json) : Except Thrown ProcessingFailedDto := do
  let payload ← requireMembers (js "Invalid ProcessingFailed payload")
    [js "eventId", js "processingRequestId", js "failureCode", js "occurredAt"] content
  let attemptId ← requireAttemptId payload
  return {
    eventId := ← stringOf stack payload (js "eventId")
    processingRequestId := ← stringOf stack payload (js "processingRequestId")
    attemptId
    failureCode := (payload.member? (js "failureCode")).getD .null
    occurredAt := ← stringOf stack payload (js "occurredAt") }

end ProcessingFailedConsumer

/-- The events the Catalog consumes. -/
inductive ConsumedEventName where
  | videoAccepted
  | videoRejected
  | processingStarted
  | processingCompleted
  | processingFailed
  deriving DecidableEq

/-- What a consumer has read from a body. -/
inductive ConsumedEvent where
  | videoAccepted (parsed : VideoAcceptedDto)
  | videoRejected (parsed : VideoRejectedDto)
  | processingStarted (parsed : ProcessingStartedDto)
  | processingCompleted (parsed : ProcessingCompletedDto)
  | processingFailed (parsed : ProcessingFailedDto)

namespace ConsumedEvent

/-- The texts a consumer passes on, by the names of the members they stand for. -/
def texts : ConsumedEvent → List (JsString × JsString)
  | .videoAccepted parsed =>
      [(js "eventId", parsed.eventId), (js "processingRequestId", parsed.processingRequestId),
        (js "occurredAt", parsed.occurredAt)]
  | .videoRejected parsed =>
      [(js "eventId", parsed.eventId), (js "processingRequestId", parsed.processingRequestId),
        (js "occurredAt", parsed.occurredAt)]
  | .processingStarted parsed =>
      [(js "eventId", parsed.eventId), (js "processingRequestId", parsed.processingRequestId),
        (js "attemptId", parsed.attemptId), (js "occurredAt", parsed.occurredAt)]
  | .processingCompleted parsed =>
      [(js "eventId", parsed.eventId), (js "processingRequestId", parsed.processingRequestId),
        (js "attemptId", parsed.attemptId), (js "zipStorageKey", parsed.zipStorageKey),
        (js "occurredAt", parsed.occurredAt)]
  | .processingFailed parsed =>
      [(js "eventId", parsed.eventId), (js "processingRequestId", parsed.processingRequestId),
        (js "attemptId", parsed.attemptId), (js "occurredAt", parsed.occurredAt)]

def eventId : ConsumedEvent → JsString
  | .videoAccepted parsed => parsed.eventId
  | .videoRejected parsed => parsed.eventId
  | .processingStarted parsed => parsed.eventId
  | .processingCompleted parsed => parsed.eventId
  | .processingFailed parsed => parsed.eventId

def processingRequestId : ConsumedEvent → JsString
  | .videoAccepted parsed => parsed.processingRequestId
  | .videoRejected parsed => parsed.processingRequestId
  | .processingStarted parsed => parsed.processingRequestId
  | .processingCompleted parsed => parsed.processingRequestId
  | .processingFailed parsed => parsed.processingRequestId

def zipStorageKey? : ConsumedEvent → Option JsString
  | .processingCompleted parsed => some parsed.zipStorageKey
  | _ => none

def failureCode? : ConsumedEvent → Option Json
  | .videoRejected parsed => some parsed.failureCode
  | .processingFailed parsed => some parsed.failureCode
  | _ => none

def attemptId? : ConsumedEvent → Option JsString
  | .videoAccepted _ => none
  | .videoRejected _ => none
  | .processingStarted parsed => some parsed.attemptId
  | .processingCompleted parsed => some parsed.attemptId
  | .processingFailed parsed => some parsed.attemptId

/-- The call of the use case a consumer makes. -/
def operation (draws : Draws) : ConsumedEvent → Operation
  | .videoAccepted parsed => .accept draws {
      eventId := parsed.eventId
      processingRequestId := parsed.processingRequestId
      occurredAt := parsed.occurredAt }
  | .videoRejected parsed => .fail draws {
      eventId := parsed.eventId
      origin := .validation
      attemptId := none
      processingRequestId := parsed.processingRequestId
      failureCode := parsed.failureCode
      occurredAt := parsed.occurredAt }
  | .processingStarted parsed => .start draws {
      eventId := parsed.eventId
      processingRequestId := parsed.processingRequestId
      attemptId := parsed.attemptId
      occurredAt := parsed.occurredAt }
  | .processingCompleted parsed => .complete draws {
      eventId := parsed.eventId
      processingRequestId := parsed.processingRequestId
      attemptId := parsed.attemptId
      zipStorageKey := parsed.zipStorageKey
      occurredAt := parsed.occurredAt }
  | .processingFailed parsed => .fail draws {
      eventId := parsed.eventId
      origin := .processing
      attemptId := some parsed.attemptId
      processingRequestId := parsed.processingRequestId
      failureCode := parsed.failureCode
      occurredAt := parsed.occurredAt }

/-- The lifecycle event of that call. -/
def lifecycle (draws : Draws) : ConsumedEvent → LifecycleEvent
  | .videoAccepted parsed => AcceptProcessingRequestUseCase.event draws {
      eventId := parsed.eventId
      processingRequestId := parsed.processingRequestId
      occurredAt := parsed.occurredAt }
  | .videoRejected parsed => FailProcessingRequestUseCase.event draws {
      eventId := parsed.eventId
      origin := .validation
      attemptId := none
      processingRequestId := parsed.processingRequestId
      failureCode := parsed.failureCode
      occurredAt := parsed.occurredAt }
  | .processingStarted parsed => StartProcessingRequestUseCase.event draws {
      eventId := parsed.eventId
      processingRequestId := parsed.processingRequestId
      attemptId := parsed.attemptId
      occurredAt := parsed.occurredAt }
  | .processingCompleted parsed => CompleteProcessingRequestUseCase.event draws {
      eventId := parsed.eventId
      processingRequestId := parsed.processingRequestId
      attemptId := parsed.attemptId
      zipStorageKey := parsed.zipStorageKey
      occurredAt := parsed.occurredAt }
  | .processingFailed parsed => FailProcessingRequestUseCase.event draws {
      eventId := parsed.eventId
      origin := .processing
      attemptId := some parsed.attemptId
      processingRequestId := parsed.processingRequestId
      failureCode := parsed.failureCode
      occurredAt := parsed.occurredAt }

theorem event?_operation (draws : Draws) (parsed : ConsumedEvent) :
    (parsed.operation draws).event? = some (parsed.lifecycle draws) := by
  cases parsed <;> rfl

@[simp]
theorem eventId_operation (draws : Draws) (event : ConsumedEvent) :
    (event.operation draws).eventId = event.eventId := by
  cases event <;> rfl

theorem mem_texts_eventId (event : ConsumedEvent) :
    (js "eventId", event.eventId) ∈ event.texts := by
  cases event <;> exact List.mem_cons_self

theorem mem_texts_zipStorageKey {event : ConsumedEvent} {zipStorageKey : JsString}
    (isZip : event.zipStorageKey? = some zipStorageKey) :
    (js "zipStorageKey", zipStorageKey) ∈ event.texts := by
  cases event <;> cases isZip
  simp [texts]

end ConsumedEvent

namespace ConsumedEventName

/-- What the consumer of this event reads from a body. -/
def parse (event : ConsumedEventName) (stack : ℕ) (content : Json) :
    Except Thrown ConsumedEvent :=
  match event with
  | .videoAccepted =>
      .videoAccepted <$> VideoAcceptedConsumer.parseVideoAccepted stack content
  | .videoRejected => .videoRejected <$> VideoRejectedConsumer.parse stack content
  | .processingStarted => .processingStarted <$> ProcessingStartedConsumer.parse stack content
  | .processingCompleted =>
      .processingCompleted <$> ProcessingCompletedConsumer.parseProcessingCompleted stack content
  | .processingFailed => .processingFailed <$> ProcessingFailedConsumer.parse stack content

/-- The members a body has to have. -/
def required : ConsumedEventName → List JsString
  | .videoAccepted => [js "eventId", js "processingRequestId", js "occurredAt"]
  | .videoRejected => [js "eventId", js "processingRequestId", js "failureCode", js "occurredAt"]
  | .processingStarted => [js "eventId", js "processingRequestId", js "occurredAt"]
  | .processingCompleted =>
      [js "eventId", js "processingRequestId", js "zipStorageKey", js "occurredAt"]
  | .processingFailed =>
      [js "eventId", js "processingRequestId", js "failureCode", js "occurredAt"]

/-- The members that are converted with `String`. -/
def converted : ConsumedEventName → List JsString
  | .processingCompleted =>
      [js "eventId", js "processingRequestId", js "zipStorageKey", js "occurredAt"]
  | _ => [js "eventId", js "processingRequestId", js "occurredAt"]

/-- Whether the event belongs to an attempt. -/
def ofAttempt : ConsumedEventName → Bool
  | .videoAccepted => false
  | .videoRejected => false
  | _ => true

/-- The event that the members of a payload name. -/
def named (event : ConsumedEventName) (stack : ℕ) (payload : Json) : ConsumedEvent :=
  let eventId := textOf stack payload (js "eventId")
  let processingRequestId := textOf stack payload (js "processingRequestId")
  let attemptId := (isValidAttemptId (payload.member? (js "attemptId"))).getD []
  let failureCode := (payload.member? (js "failureCode")).getD .null
  let occurredAt := textOf stack payload (js "occurredAt")
  match event with
  | .videoAccepted => .videoAccepted { eventId, processingRequestId, occurredAt }
  | .videoRejected => .videoRejected { eventId, processingRequestId, failureCode, occurredAt }
  | .processingStarted =>
      .processingStarted { eventId, processingRequestId, attemptId, occurredAt }
  | .processingCompleted => .processingCompleted {
      eventId, processingRequestId, attemptId
      zipStorageKey := textOf stack payload (js "zipStorageKey"), occurredAt }
  | .processingFailed =>
      .processingFailed { eventId, processingRequestId, attemptId, failureCode, occurredAt }

/-- The checks of the consumer on a body. -/
def Complete (event : ConsumedEventName) (content : Json) : Prop :=
  (unwrap content).isObject = true ∧ event.required.all (unwrap content).has = true ∧
    (event.ofAttempt = true →
      (isValidAttemptId ((unwrap content).member? (js "attemptId"))).isSome = true)

instance (event : ConsumedEventName) (content : Json) : Decidable (event.Complete content) :=
  inferInstanceAs (Decidable (_ ∧ _ ∧ (_ → _)))

end ConsumedEventName

section Checks

variable {message : JsString} {names : List JsString} {content payload : Json} {name : JsString}

theorem requireMembers_eq_ok :
    requireMembers message names content = .ok payload ↔
      ((unwrap content).isObject = true ∧ names.all (unwrap content).has = true) ∧
        unwrap content = payload := by
  by_cases present : (unwrap content).isObject = true ∧ names.all (unwrap content).has = true <;>
    simp only [requireMembers, domainError, present, if_true, if_false, Except.ok.injEq,
      reduceCtorEq, and_self, true_and, false_and]

theorem requireMembers_eq_error {error : Thrown} :
    requireMembers message names content = .error error ↔
      ¬ ((unwrap content).isObject = true ∧ names.all (unwrap content).has = true) ∧
        .processingRequestDomainError message = error := by
  by_cases present : (unwrap content).isObject = true ∧ names.all (unwrap content).has = true <;>
    simp only [requireMembers, domainError, present, if_true, if_false, Except.error.injEq,
      reduceCtorEq, and_self, not_true_eq_false, not_false_eq_true, true_and, false_and]

theorem requireAttemptId_eq_ok {attemptId : JsString} :
    requireAttemptId payload = .ok attemptId ↔
      isValidAttemptId (payload.member? (js "attemptId")) = some attemptId := by
  unfold requireAttemptId domainError
  cases isValidAttemptId (payload.member? (js "attemptId")) <;> simp

theorem requireAttemptId_eq_error {error : Thrown} :
    requireAttemptId payload = .error error ↔
      isValidAttemptId (payload.member? (js "attemptId")) = none ∧
        .processingRequestDomainError (js "attemptId is required") = error := by
  unfold requireAttemptId domainError
  cases isValidAttemptId (payload.member? (js "attemptId")) <;> simp

theorem isSome_of_requireAttemptId {attemptId : JsString}
    (required : requireAttemptId payload = .ok attemptId) :
    (isValidAttemptId (payload.member? (js "attemptId"))).isSome = true := by
  rw [requireAttemptId_eq_ok.mp required]
  rfl

/-- What a member that does not convert throws is the error of the conversion. -/
theorem stringOf_eq_error {stack : ℕ} {error : Thrown} :
    stringOf stack payload name = .error error ↔
      ∃ value conversion, payload.member? name = some value ∧
        value.text stack = .error conversion ∧ conversionThrew conversion = error := by
  unfold stringOf
  cases payload.member? name with
  | none => simp
  | some value => cases converted : value.text stack <;> simp [Except.mapError, converted]

theorem memberConverts_iff {stack : ℕ} :
    MemberConverts stack payload name ↔
      stringOf stack payload name = .ok (textOf stack payload name) := by
  unfold MemberConverts textOf stringOf
  cases payload.member? name with
  | none => simp [Except.toOption]
  | some value =>
      simp only [Option.some.injEq, forall_eq', ← Json.converts_iff]
      cases value.text stack <;> simp [Except.mapError, Except.toOption]

theorem requireAttemptId_eq_ok_getD
    (valid : (isValidAttemptId (payload.member? (js "attemptId"))).isSome = true) :
    requireAttemptId payload =
      .ok ((isValidAttemptId (payload.member? (js "attemptId"))).getD []) := by
  rcases Option.isSome_iff_exists.mp valid with ⟨attemptId, isAttemptId⟩
  rw [isAttemptId]
  exact requireAttemptId_eq_ok.mpr isAttemptId

end Checks

namespace ConsumedEventName

variable {event : ConsumedEventName} {stack : ℕ} {content : Json}

/-- A text that is passed on is that of a converted member, or a valid `attemptId`. -/
def Read (event : ConsumedEventName) (stack : ℕ) (payload : Json)
    (entry : JsString × JsString) : Prop :=
  entry.1 ∈ event.converted ∧ stringOf stack payload entry.1 = .ok entry.2 ∨
    entry.1 = js "attemptId" ∧ isValidAttemptId (payload.member? entry.1) = some entry.2

/-- A body that is read is complete, and its converted members are passed on by their texts. -/
theorem of_parse_eq_ok {parsed : ConsumedEvent}
    (isParsed : event.parse stack content = .ok parsed) :
    event.Complete content ∧ (∀ entry ∈ parsed.texts, event.Read stack (unwrap content) entry) ∧
      ∀ name ∈ event.converted, name ∈ parsed.texts.map Prod.fst := by
  cases event with
  | videoAccepted =>
      simp only [parse, VideoAcceptedConsumer.parseVideoAccepted, map_eq_ok, bind_eq_ok,
        requireMembers_eq_ok] at isParsed
      rcases isParsed with ⟨_, ⟨_, ⟨members, rfl⟩, eventId, isEventId, id, isId, occurredAt,
        isOccurredAt, ⟨⟩⟩, rfl⟩
      refine ⟨⟨members.1, members.2, nofun⟩, ?_⟩
      simp [ConsumedEvent.texts, Read, converted, isEventId, isId, isOccurredAt]
  | videoRejected =>
      simp only [parse, VideoRejectedConsumer.parse, map_eq_ok, bind_eq_ok,
        requireMembers_eq_ok] at isParsed
      rcases isParsed with ⟨_, ⟨_, ⟨members, rfl⟩, eventId, isEventId, id, isId, occurredAt,
        isOccurredAt, ⟨⟩⟩, rfl⟩
      refine ⟨⟨members.1, members.2, nofun⟩, ?_⟩
      simp [ConsumedEvent.texts, Read, converted, isEventId, isId, isOccurredAt]
  | processingStarted =>
      simp only [parse, ProcessingStartedConsumer.parse, map_eq_ok, bind_eq_ok,
        requireMembers_eq_ok, requireAttemptId_eq_ok] at isParsed
      rcases isParsed with ⟨_, ⟨_, ⟨members, rfl⟩, attemptId, isAttemptId, eventId, isEventId, id,
        isId, occurredAt, isOccurredAt, ⟨⟩⟩, rfl⟩
      refine ⟨⟨members.1, members.2, fun _ => by rw [isAttemptId]; rfl⟩, ?_⟩
      simp [ConsumedEvent.texts, Read, converted, isAttemptId, isEventId, isId, isOccurredAt]
  | processingCompleted =>
      simp only [parse, ProcessingCompletedConsumer.parseProcessingCompleted, map_eq_ok, bind_eq_ok,
        requireMembers_eq_ok, requireAttemptId_eq_ok] at isParsed
      rcases isParsed with ⟨_, ⟨_, ⟨members, rfl⟩, attemptId, isAttemptId, eventId, isEventId, id,
        isId, zipStorageKey, isZip, occurredAt, isOccurredAt, ⟨⟩⟩, rfl⟩
      refine ⟨⟨members.1, members.2, fun _ => by rw [isAttemptId]; rfl⟩, ?_⟩
      simp [ConsumedEvent.texts, Read, converted, isAttemptId, isEventId, isId, isZip, isOccurredAt]
  | processingFailed =>
      simp only [parse, ProcessingFailedConsumer.parse, map_eq_ok, bind_eq_ok,
        requireMembers_eq_ok, requireAttemptId_eq_ok] at isParsed
      rcases isParsed with ⟨_, ⟨_, ⟨members, rfl⟩, attemptId, isAttemptId, eventId, isEventId, id,
        isId, occurredAt, isOccurredAt, ⟨⟩⟩, rfl⟩
      refine ⟨⟨members.1, members.2, fun _ => by rw [isAttemptId]; rfl⟩, ?_⟩
      simp [ConsumedEvent.texts, Read, converted, isAttemptId, isEventId, isId, isOccurredAt]

theorem not_complete_of_missing
    (missing : ¬ ((unwrap content).isObject = true ∧
      event.required.all (unwrap content).has = true)) : ¬ event.Complete content :=
  fun complete => missing ⟨complete.1, complete.2.1⟩

theorem not_complete_of_absent (attempted : event.ofAttempt = true)
    (absent : isValidAttemptId ((unwrap content).member? (js "attemptId")) = none) :
    ¬ event.Complete content := by
  intro complete
  have valid := complete.2.2 attempted
  rw [absent] at valid
  cases valid

/-- A body that is not read is refused when a check fails; otherwise a conversion has thrown. -/
theorem of_parse_eq_error {error : Thrown}
    (isParsed : event.parse stack content = .error error) :
    (¬ event.Complete content ∧ ∃ message, error = .processingRequestDomainError message) ∨
      event.Complete content ∧
        ∃ name ∈ event.converted, stringOf stack (unwrap content) name = .error error := by
  have threw : ∀ {name}, name ∈ event.converted →
      stringOf stack (unwrap content) name = .error error →
        ∃ name ∈ event.converted, stringOf stack (unwrap content) name = .error error :=
    fun converted conversion => ⟨_, converted, conversion⟩
  have never : ∀ {α : Type} {value : α}, (pure value : Except Thrown α) ≠ .error error := nofun
  cases event with
  | videoAccepted =>
      simp only [parse, VideoAcceptedConsumer.parseVideoAccepted, map_eq_error, bind_eq_error,
        requireMembers_eq_ok, requireMembers_eq_error] at isParsed
      rcases isParsed with ⟨missing, rfl⟩ | ⟨_, ⟨members, rfl⟩,
        eventId | ⟨_, _, id | ⟨_, _, occurredAt | ⟨_, _, success⟩⟩⟩⟩
      · exact .inl ⟨not_complete_of_missing missing, _, rfl⟩
      all_goals refine .inr ⟨⟨members.1, members.2, nofun⟩, ?_⟩
      · exact threw (by simp [converted]) eventId
      · exact threw (by simp [converted]) id
      · exact threw (by simp [converted]) occurredAt
      · exact absurd success never
  | videoRejected =>
      simp only [parse, VideoRejectedConsumer.parse, map_eq_error, bind_eq_error,
        requireMembers_eq_ok, requireMembers_eq_error] at isParsed
      rcases isParsed with ⟨missing, rfl⟩ | ⟨_, ⟨members, rfl⟩,
        eventId | ⟨_, _, id | ⟨_, _, occurredAt | ⟨_, _, success⟩⟩⟩⟩
      · exact .inl ⟨not_complete_of_missing missing, _, rfl⟩
      all_goals refine .inr ⟨⟨members.1, members.2, nofun⟩, ?_⟩
      · exact threw (by simp [converted]) eventId
      · exact threw (by simp [converted]) id
      · exact threw (by simp [converted]) occurredAt
      · exact absurd success never
  | processingStarted =>
      simp only [parse, ProcessingStartedConsumer.parse, map_eq_error, bind_eq_error,
        requireMembers_eq_ok, requireMembers_eq_error, requireAttemptId_eq_error] at isParsed
      rcases isParsed with ⟨missing, rfl⟩ | ⟨_, ⟨members, rfl⟩, ⟨absent, rfl⟩ | ⟨_, valid,
        eventId | ⟨_, _, id | ⟨_, _, occurredAt | ⟨_, _, success⟩⟩⟩⟩⟩
      · exact .inl ⟨not_complete_of_missing missing, _, rfl⟩
      · exact .inl ⟨not_complete_of_absent rfl absent, _, rfl⟩
      all_goals refine .inr ⟨⟨members.1, members.2, fun _ => isSome_of_requireAttemptId valid⟩, ?_⟩
      · exact threw (by simp [converted]) eventId
      · exact threw (by simp [converted]) id
      · exact threw (by simp [converted]) occurredAt
      · exact absurd success never
  | processingCompleted =>
      simp only [parse, ProcessingCompletedConsumer.parseProcessingCompleted, map_eq_error,
        bind_eq_error, requireMembers_eq_ok, requireMembers_eq_error,
        requireAttemptId_eq_error] at isParsed
      rcases isParsed with ⟨missing, rfl⟩ | ⟨_, ⟨members, rfl⟩, ⟨absent, rfl⟩ | ⟨_, valid,
        eventId | ⟨_, _, id | ⟨_, _, zipStorageKey | ⟨_, _, occurredAt | ⟨_, _, success⟩⟩⟩⟩⟩⟩
      · exact .inl ⟨not_complete_of_missing missing, _, rfl⟩
      · exact .inl ⟨not_complete_of_absent rfl absent, _, rfl⟩
      all_goals refine .inr ⟨⟨members.1, members.2, fun _ => isSome_of_requireAttemptId valid⟩, ?_⟩
      · exact threw (by simp [converted]) eventId
      · exact threw (by simp [converted]) id
      · exact threw (by simp [converted]) zipStorageKey
      · exact threw (by simp [converted]) occurredAt
      · exact absurd success never
  | processingFailed =>
      simp only [parse, ProcessingFailedConsumer.parse, map_eq_error, bind_eq_error,
        requireMembers_eq_ok, requireMembers_eq_error, requireAttemptId_eq_error] at isParsed
      rcases isParsed with ⟨missing, rfl⟩ | ⟨_, ⟨members, rfl⟩, ⟨absent, rfl⟩ | ⟨_, valid,
        eventId | ⟨_, _, id | ⟨_, _, occurredAt | ⟨_, _, success⟩⟩⟩⟩⟩
      · exact .inl ⟨not_complete_of_missing missing, _, rfl⟩
      · exact .inl ⟨not_complete_of_absent rfl absent, _, rfl⟩
      all_goals refine .inr ⟨⟨members.1, members.2, fun _ => isSome_of_requireAttemptId valid⟩, ?_⟩
      · exact threw (by simp [converted]) eventId
      · exact threw (by simp [converted]) id
      · exact threw (by simp [converted]) occurredAt
      · exact absurd success never

/-- A complete body whose members convert is read as the event its members name. -/
theorem parse_of_complete (complete : event.Complete content)
    (converts : ∀ name ∈ event.converted, MemberConverts stack (unwrap content) name) :
    event.parse stack content = .ok (event.named stack (unwrap content)) := by
  have converted : ∀ name ∈ event.converted, stringOf stack (unwrap content) name =
      .ok (textOf stack (unwrap content) name) :=
    fun name nameMem => memberConverts_iff.mp (converts name nameMem)
  have members : ∀ message, requireMembers message event.required content =
      .ok (unwrap content) :=
    fun message => requireMembers_eq_ok.mpr ⟨⟨complete.1, complete.2.1⟩, rfl⟩
  have attempt : event.ofAttempt = true → requireAttemptId (unwrap content) =
      .ok ((isValidAttemptId ((unwrap content).member? (js "attemptId"))).getD []) :=
    fun ofAttempt => requireAttemptId_eq_ok_getD (complete.2.2 ofAttempt)
  cases event with
  | videoAccepted =>
      simp only [required] at members
      simp only [ConsumedEventName.converted, List.forall_mem_cons] at converted
      simp [parse, VideoAcceptedConsumer.parseVideoAccepted, members, converted, named, bind,
        Except.bind, pure, Except.pure, Functor.map, Except.map]
  | videoRejected =>
      simp only [required] at members
      simp only [ConsumedEventName.converted, List.forall_mem_cons] at converted
      simp [parse, VideoRejectedConsumer.parse, members, converted, named, bind,
        Except.bind, pure, Except.pure, Functor.map, Except.map]
  | processingStarted =>
      simp only [required] at members
      simp only [ConsumedEventName.converted, List.forall_mem_cons] at converted
      simp [parse, ProcessingStartedConsumer.parse, members, attempt rfl, converted, named, bind,
        Except.bind, pure, Except.pure, Functor.map, Except.map]
  | processingCompleted =>
      simp only [required] at members
      simp only [ConsumedEventName.converted, List.forall_mem_cons] at converted
      simp [parse, ProcessingCompletedConsumer.parseProcessingCompleted, members, attempt rfl,
        converted, named, bind, Except.bind, pure, Except.pure, Functor.map, Except.map]
  | processingFailed =>
      simp only [required] at members
      simp only [ConsumedEventName.converted, List.forall_mem_cons] at converted
      simp [parse, ProcessingFailedConsumer.parse, members, attempt rfl, converted, named, bind,
        Except.bind, pure, Except.pure, Functor.map, Except.map]

theorem memberConverts_of_read {name : JsString} {parsed : ConsumedEvent}
    (isParsed : event.parse stack content = .ok parsed) (nameMem : name ∈ event.converted) :
    MemberConverts stack (unwrap content) name := by
  have passedOn := of_parse_eq_ok isParsed
  rcases List.mem_map.mp (passedOn.2.2 name nameMem) with ⟨entry, entryMem, rfl⟩
  rcases passedOn.2.1 entry entryMem with ⟨_, isText⟩ | ⟨isName, _⟩
  · rw [memberConverts_iff, textOf, isText]
    rfl
  · have notConverted : js "attemptId" ∉ event.converted := by
      cases event <;> decide
    exact absurd (isName ▸ nameMem) notConverted

/-- What is read, and of which bodies. -/
theorem parse_eq_ok_iff {parsed : ConsumedEvent} :
    event.parse stack content = .ok parsed ↔ event.Complete content ∧
      (∀ name ∈ event.converted, MemberConverts stack (unwrap content) name) ∧
      event.named stack (unwrap content) = parsed := by
  constructor
  · intro isParsed
    have converts : ∀ name ∈ event.converted, MemberConverts stack (unwrap content) name :=
      fun _ nameMem => memberConverts_of_read isParsed nameMem
    have complete := (of_parse_eq_ok isParsed).1
    rw [parse_of_complete complete converts] at isParsed
    exact ⟨complete, converts, Except.ok.inj isParsed⟩
  · rintro ⟨complete, converts, rfl⟩
    exact parse_of_complete complete converts

end ConsumedEventName

end ProcessingCatalog
