import ProcessingCatalog.JavaScript.JsonStringify
import ProcessingCatalog.RabbitMq.Texts
import ProcessingCatalog.RabbitMq.WithCorrelation

/-!
# The messages of the pipeline on the wire

A producer puts the fields of an event into an object, in any order and among
whatever other members, and writes it with `JSON.stringify`, as it is or in the
`{ pattern, data }` envelope of Nest. The consumer of the event reads exactly
these fields back, whatever characters they are made of, and handles them in the
scope of the correlation id that the object carries.
-/

namespace ProcessingCatalog

namespace ConsumedEvent

def name : ConsumedEvent → ConsumedEventName
  | .videoAccepted _ => .videoAccepted
  | .videoRejected _ => .videoRejected
  | .processingStarted _ => .processingStarted
  | .processingCompleted _ => .processingCompleted
  | .processingFailed _ => .processingFailed

/-- The fields of an event, as members of a body. -/
def members (event : ConsumedEvent) : List (JsString × Json) :=
  event.texts.map (fun entry => (entry.1, .string entry.2)) ++
    event.failureCode?.toList.map fun code => (js "failureCode", code)

/-- An event of an attempt names it. -/
def NamesAttempt (event : ConsumedEvent) : Prop :=
  ∀ entry ∈ event.texts, entry.1 = js "attemptId" → 0 < (trim entry.2).length

end ConsumedEvent

namespace Json

/-- An object that has the members of an event, among others. -/
def CarriesEvent (body : Json) (event : ConsumedEvent) : Prop :=
  ∀ entry ∈ event.members, body.member? entry.1 = some entry.2

/-- The body as it is, or under `data` in an envelope with a pattern. -/
def enveloped (pattern : Option JsString) (body : Json) : Json :=
  match pattern with
  | none => body
  | some pattern => .object [(js "pattern", .string pattern), (js "data", body)]

end Json

section Reading

open ConsumedEvent Effect

variable {event : ConsumedEvent} {body content : Json}

theorem Json.CarriesEvent.text (carries : body.CarriesEvent event) {name text : JsString}
    (isText : (name, text) ∈ event.texts) : body.member? name = some (.string text) := by
  refine carries (name, .string text) ?_
  exact List.mem_append_left _ (List.mem_map.mpr ⟨(name, text), isText, rfl⟩)

theorem Json.CarriesEvent.failureCode (carries : body.CarriesEvent event) (code : Json)
    (isCode : event.failureCode? = some code) : body.member? (js "failureCode") = some code := by
  refine carries (js "failureCode", code) ?_
  refine List.mem_append_right _ (List.mem_map.mpr ⟨code, ?_, rfl⟩)
  simp [isCode]

theorem Json.CarriesEvent.isObject (carries : body.CarriesEvent event) : body.isObject = true :=
  Json.isObject_of_member (carries.text event.mem_texts_eventId)

theorem isValidAttemptId_of_mem (carries : body.CarriesEvent event)
    (attempted : event.NamesAttempt) {attemptId : JsString}
    (isText : (js "attemptId", attemptId) ∈ event.texts) :
    isValidAttemptId (body.member? (js "attemptId")) = some attemptId := by
  rw [carries.text isText, isValidAttemptId, if_pos (attempted _ isText rfl)]

/-- The members that the consumer of an event requires are those of the event. -/
theorem requireMembers_of_carriesEvent (carries : (unwrap content).CarriesEvent event)
    (message : JsString) :
    requireMembers message event.name.required content = .ok (unwrap content) := by
  refine requireMembers_eq_ok.mpr ⟨⟨carries.isObject, List.all_eq_true.mpr ?_⟩, rfl⟩
  have named : ∀ name ∈ event.name.required, name ∈ event.members.map Prod.fst := by
    cases event <;>
      simp [ConsumedEvent.name, ConsumedEventName.required, ConsumedEvent.members,
        ConsumedEvent.texts, ConsumedEvent.failureCode?]
  intro name required
  rcases List.mem_map.mp (named name required) with ⟨entry, entryMem, rfl⟩
  rw [Json.has, carries entry entryMem]
  rfl

/-- A consumer reads the event that the object it unwraps carries. -/
theorem parse_of_carriesEvent (carries : (unwrap content).CarriesEvent event)
    (attempted : event.NamesAttempt) (stack : ℕ) :
    event.name.parse stack content = .ok event := by
  have required := requireMembers_of_carriesEvent carries
  have read : ∀ name text, (name, text) ∈ event.texts →
      stringOf stack (unwrap content) name = .ok text :=
    fun name text isText => ConsumedEventName.stringOf_text (carries.text isText)
  have attempt : ∀ attemptId, (js "attemptId", attemptId) ∈ event.texts →
      requireAttemptId (unwrap content) = .ok attemptId :=
    fun attemptId isText =>
      requireAttemptId_eq_ok.mpr (isValidAttemptId_of_mem carries attempted isText)
  have eventId := read _ _ (mem_texts_eventId event)
  cases event with
  | videoAccepted parsed =>
      have id := read _ parsed.processingRequestId (.tail _ (.head _))
      have occurredAt := read _ parsed.occurredAt (.tail _ (.tail _ (.head _)))
      simp only [name, ConsumedEventName.parse, VideoAcceptedConsumer.parseVideoAccepted,
        map_eq_ok, bind_eq_ok]
      exact ⟨_, ⟨_, required _, _, eventId, _, id, _, occurredAt, rfl⟩, rfl⟩
  | videoRejected parsed =>
      have id := read _ parsed.processingRequestId (.tail _ (.head _))
      have occurredAt := read _ parsed.occurredAt (.tail _ (.tail _ (.head _)))
      have failureCode := carries.failureCode parsed.failureCode rfl
      simp only [name, ConsumedEventName.parse, VideoRejectedConsumer.parse, map_eq_ok,
        bind_eq_ok]
      refine ⟨_, ⟨_, required _, _, eventId, _, id, _, occurredAt, rfl⟩, ?_⟩
      rw [failureCode]
      rfl
  | processingStarted parsed =>
      have id := read _ parsed.processingRequestId (.tail _ (.head _))
      have attemptId := attempt parsed.attemptId (.tail _ (.tail _ (.head _)))
      have occurredAt := read _ parsed.occurredAt
        (.tail _ (.tail _ (.tail _ (.head _))))
      simp only [name, ConsumedEventName.parse, ProcessingStartedConsumer.parse, map_eq_ok,
        bind_eq_ok]
      exact ⟨_, ⟨_, required _, _, attemptId, _, eventId, _, id, _, occurredAt, rfl⟩, rfl⟩
  | processingCompleted parsed =>
      have id := read _ parsed.processingRequestId (.tail _ (.head _))
      have attemptId := attempt parsed.attemptId (.tail _ (.tail _ (.head _)))
      have zipStorageKey := read _ parsed.zipStorageKey
        (.tail _ (.tail _ (.tail _ (.head _))))
      have occurredAt := read _ parsed.occurredAt
        (.tail _ (.tail _ (.tail _ (.tail _ (.head _)))))
      simp only [name, ConsumedEventName.parse,
        ProcessingCompletedConsumer.parseProcessingCompleted, map_eq_ok, bind_eq_ok]
      exact ⟨_, ⟨_, required _, _, attemptId, _, eventId, _, id, _, zipStorageKey, _, occurredAt,
        rfl⟩, rfl⟩
  | processingFailed parsed =>
      have id := read _ parsed.processingRequestId (.tail _ (.head _))
      have attemptId := attempt parsed.attemptId (.tail _ (.tail _ (.head _)))
      have occurredAt := read _ parsed.occurredAt
        (.tail _ (.tail _ (.tail _ (.head _))))
      have failureCode := carries.failureCode parsed.failureCode rfl
      simp only [name, ConsumedEventName.parse, ProcessingFailedConsumer.parse, map_eq_ok,
        bind_eq_ok]
      refine ⟨_, ⟨_, required _, _, attemptId, _, eventId, _, id, _, occurredAt, rfl⟩, ?_⟩
      rw [failureCode]
      rfl

theorem unwrap_enveloped {pattern : Option JsString}
    (bare : pattern = none → body.has (js "data") = false) :
    unwrap (body.enveloped pattern) = body := by
  cases pattern with
  | none => simp [Json.enveloped, unwrap, bare rfl]
  | some pattern =>
      have found : (body.enveloped (some pattern)).member? (js "data") = some body := rfl
      have isObject : (body.enveloped (some pattern)).isObject = true := rfl
      simp [unwrap, Json.has, found, isObject]

theorem numberless_enveloped (numberless : body.Numberless) (pattern : Option JsString) :
    (body.enveloped pattern).Numberless = true := by
  cases pattern with
  | none => exact numberless
  | some pattern =>
      simp [Json.enveloped, Json.Numberless, Json.numberlessMembers, Json.numberlessMember,
        numberless]

/-- An event that is written with `JSON.stringify`, with or without an envelope, is read back field
by field by its consumer, and is handled under the correlation id it was written with. -/
theorem events_read_as_written (stack : ℕ) (carries : body.CarriesEvent event)
    (attempted : event.NamesAttempt) (numberless : body.Numberless) {pattern : Option JsString}
    (bare : pattern = none → body.has (js "data") = false) :
    event.name.read stack (body.enveloped pattern).stringify = .ok event ∧
      ∀ id, IsCorrelationId id → body.member? (js "correlationId") = some (.string id) →
        correlationIdOf (body.enveloped pattern).stringify = some id := by
  have isBody := Json.parse_stringify (numberless_enveloped numberless pattern)
  have unwrapped := unwrap_enveloped bare
  constructor
  · simp only [ConsumedEventName.read, jsonParse, isBody, bind, Except.bind]
    exact parse_of_carriesEvent (unwrapped.symm ▸ carries) attempted stack
  · intro id isId carried
    simp only [correlationIdOf, isBody, Option.bind_eq_bind, Option.bind_some, unwrapped,
      carries.isObject, if_true, carried, Option.getD_some]
    exact isId

end Reading

/-- A failure whose fields hold a quotation mark, a line feed and half of a surrogate pair. -/
def writtenFailure : ProcessingFailedDto where
  eventId := js "event \"1\""
  processingRequestId := js "a\nb"
  attemptId := [0xD800]
  failureCode := .string (js "TRANSCODE_FAILED")
  occurredAt := js "2026-09-21T01:11:00.000Z"

/-- Its fields, after its correlation id and in another order. -/
def writtenBody : Json :=
  .object ((js "correlationId", .string (js "pipeline-1")) ::
    (ConsumedEvent.processingFailed writtenFailure).members.reverse)

theorem events_read_as_written_failure :
    ConsumedEventName.processingFailed.read 3000
        (writtenBody.enveloped (some (js "ProcessingFailed"))).stringify =
      .ok (.processingFailed writtenFailure) := by
  have attempted : (ConsumedEvent.processingFailed writtenFailure).NamesAttempt := by
    unfold ConsumedEvent.NamesAttempt
    decide
  have carries : writtenBody.CarriesEvent (.processingFailed writtenFailure) := by
    unfold Json.CarriesEvent
    exact List.forall_mem_cons.mpr ⟨rfl, List.forall_mem_cons.mpr ⟨rfl, List.forall_mem_cons.mpr
      ⟨rfl, List.forall_mem_cons.mpr ⟨rfl, List.forall_mem_singleton.mpr rfl⟩⟩⟩⟩
  exact (events_read_as_written 3000 carries attempted rfl (fun none => by cases none)).1

end ProcessingCatalog
