import ProcessingCatalog.JavaScript.JsonStringify
import ProcessingCatalog.Messaging.OutboxRelay
import Mathlib.Data.List.Perm.Basic

/-!
# The texts of the messages the relay publishes

A payload is stored as `jsonb`, which keeps its members but not their order, and
is published as `{ pattern, data: payload }`, written with `JSON.stringify`. A
reader that looks the fields up by their names gets the message back, with
whatever characters its texts are made of, and misses the fields it leaves out.
-/

namespace ProcessingCatalog

open Effect Relay

namespace Json

/-- The text member of a value, when there is one. -/
def textMember? (value : Json) (name : JsString) : Option JsString :=
  match value.member? name with
  | some (.string text) => some text
  | _ => none

section Members

variable {members : List (JsString × Json)} {name : JsString} {value : Json}

theorem member?_of_mem (distinct : (members.map Prod.fst).Nodup)
    (valueMem : (name, value) ∈ members) : (Json.object members).member? name = some value := by
  rw [member?]
  cases found : members.reverse.find? fun entry => entry.1 = name with
  | none =>
      have absent := List.find?_eq_none.mp found (name, value) (List.mem_reverse.mpr valueMem)
      exact absurd (decide_eq_true rfl) absent
  | some entry =>
      have isName : entry.1 = name := by simpa using List.find?_some found
      have entryMem := List.mem_reverse.mp (List.mem_of_find?_eq_some found)
      rw [List.inj_on_of_nodup_map distinct entryMem valueMem isName]
      rfl

theorem member?_eq_none (absent : name ∉ members.map Prod.fst) :
    (Json.object members).member? name = none := by
  rw [member?, Option.map_eq_none_iff, List.find?_eq_none]
  intro entry entryMem isName
  refine absent (List.mem_map.mpr ⟨entry, List.mem_reverse.mp entryMem, ?_⟩)
  simpa using isName

end Members

end Json

namespace ProcessingRequestStatus

/-- The status a text stands for. -/
def ofText? (text : JsString) : Option ProcessingRequestStatus :=
  [received, queued, processing, completed, failed].find? fun status => status.text = text

theorem ofText?_text (status : ProcessingRequestStatus) : ofText? status.text = some status := by
  cases status <;> decide

end ProcessingRequestStatus

namespace OutboxPayload

/-- The fields of a payload by their names, with those it leaves out. -/
def fields (payload : OutboxPayload) : List (JsString × Option JsString) :=
  [(js "eventId", some payload.eventId),
    (js "processingRequestId", some payload.processingRequestId),
    (js "ownerUserId", some payload.ownerUserId), (js "ownerEmail", payload.ownerEmail),
    (js "sourceStorageKey", payload.sourceStorageKey),
    (js "status", payload.status.map ProcessingRequestStatus.text),
    (js "zipStorageKey", payload.zipStorageKey), (js "failureReason", payload.failureReason),
    (js "attemptId", payload.attemptId), (js "occurredAt", some payload.occurredAt),
    (js "correlationId", payload.correlationId)]

/-- The members of its JSON text. An undefined field has none. -/
def members (payload : OutboxPayload) : List (JsString × Json) :=
  payload.fields.filterMap fun field => field.2.map fun text => (field.1, .string text)

/-- The payload whose fields are looked up in a value. -/
def ofData? (data : Json) : Option OutboxPayload := do
  let eventId ← data.textMember? (js "eventId")
  let processingRequestId ← data.textMember? (js "processingRequestId")
  let ownerUserId ← data.textMember? (js "ownerUserId")
  let occurredAt ← data.textMember? (js "occurredAt")
  return {
    eventId
    processingRequestId
    ownerUserId
    ownerEmail := data.textMember? (js "ownerEmail")
    sourceStorageKey := data.textMember? (js "sourceStorageKey")
    status := (data.textMember? (js "status")).bind ProcessingRequestStatus.ofText?
    zipStorageKey := data.textMember? (js "zipStorageKey")
    failureReason := data.textMember? (js "failureReason")
    attemptId := data.textMember? (js "attemptId")
    occurredAt
    correlationId := data.textMember? (js "correlationId") }

/-- The names of the fields are different. -/
theorem nodup_names (payload : OutboxPayload) : (payload.fields.map Prod.fst).Nodup := by
  have names : ([js "eventId", js "processingRequestId", js "ownerUserId", js "ownerEmail",
      js "sourceStorageKey", js "status", js "zipStorageKey", js "failureReason", js "attemptId",
      js "occurredAt", js "correlationId"] : List JsString).Nodup := by
    decide
  exact names

theorem mem_members {payload : OutboxPayload} {name : JsString} {value : Json} :
    (name, value) ∈ payload.members ↔
      ∃ text, (name, some text) ∈ payload.fields ∧ .string text = value := by
  rw [members, List.mem_filterMap]
  constructor
  · rintro ⟨⟨other, text⟩, isField, isMember⟩
    rcases Option.map_eq_some_iff.mp isMember with ⟨text, rfl, same⟩
    cases same
    exact ⟨text, isField, rfl⟩
  · rintro ⟨text, isField, rfl⟩
    exact ⟨(name, some text), isField, rfl⟩

/-- The members are named as the fields that are not left out. -/
theorem names_sublist (payload : OutboxPayload) :
    (payload.members.map Prod.fst).Sublist (payload.fields.map Prod.fst) := by
  unfold members
  generalize payload.fields = fields
  induction fields with
  | nil => exact .slnil
  | cons field fields ih =>
      rcases field with ⟨name, text⟩
      cases text with
      | none => exact ih.cons name
      | some text => exact ih.cons_cons name

/-- A field is looked up among the members, in whatever order they stand. -/
theorem textMember?_of_perm {payload : OutboxPayload} {stored : List (JsString × Json)}
    (same : stored.Perm payload.members) {name : JsString} {text : Option JsString}
    (isField : (name, text) ∈ payload.fields) :
    (Json.object stored).textMember? name = text := by
  cases text with
  | some text =>
      have distinct : (stored.map Prod.fst).Nodup :=
        (same.map Prod.fst).nodup_iff.mpr (payload.nodup_names.sublist payload.names_sublist)
      have isMember : (name, .string text) ∈ stored :=
        same.mem_iff.mpr (mem_members.mpr ⟨text, isField, rfl⟩)
      rw [Json.textMember?, Json.member?_of_mem distinct isMember]
  | none =>
      have absent : name ∉ stored.map Prod.fst := by
        intro among
        rcases List.mem_map.mp among with ⟨⟨other, value⟩, isMember, rfl⟩
        rcases mem_members.mp (same.mem_iff.mp isMember) with ⟨text, isOther, _⟩
        cases List.inj_on_of_nodup_map payload.nodup_names isField isOther rfl
      rw [Json.textMember?, Json.member?_eq_none absent]

/-- The payload is found among its members, in whatever order they stand. -/
theorem ofData?_of_perm {payload : OutboxPayload} {stored : List (JsString × Json)}
    (same : stored.Perm payload.members) : ofData? (.object stored) = some payload := by
  have field : ∀ name text, (name, text) ∈ payload.fields →
      (Json.object stored).textMember? name = text := fun _ _ => textMember?_of_perm same
  have status : ((Json.object stored).textMember? (js "status")).bind
      ProcessingRequestStatus.ofText? = payload.status := by
    rw [field _ (payload.status.map ProcessingRequestStatus.text) (by simp [fields])]
    cases payload.status with
    | none => rfl
    | some status => exact status.ofText?_text
  have eventId := field (js "eventId") (some payload.eventId) (by simp [fields])
  have id := field (js "processingRequestId") (some payload.processingRequestId)
    (by simp [fields])
  have owner := field (js "ownerUserId") (some payload.ownerUserId)
    (by simp [fields])
  have email := field (js "ownerEmail") payload.ownerEmail (by simp [fields])
  have source := field (js "sourceStorageKey") payload.sourceStorageKey
    (by simp [fields])
  have zip := field (js "zipStorageKey") payload.zipStorageKey
    (by simp [fields])
  have reason := field (js "failureReason") payload.failureReason
    (by simp [fields])
  have attempt := field (js "attemptId") payload.attemptId (by simp [fields])
  have occurred := field (js "occurredAt") (some payload.occurredAt)
    (by simp [fields])
  have correlation := field (js "correlationId") payload.correlationId
    (by simp [fields])
  simp [ofData?, eventId, id, owner, email, source, status, zip, reason, attempt, occurred,
    correlation]

end OutboxPayload

namespace Relay

variable {stored : OutboxPayload → List (JsString × Json)}

/-- What is sent of a message whose payload is stored with its members in some order. -/
def Message.written (stored : OutboxPayload → List (JsString × Json)) (message : Message) :
    JsString :=
  Json.stringify (.object
    [(js "pattern", .string message.pattern), (js "data", .object (stored message.data))])

/-- The message a text stands for. -/
def Message.read (text : JsString) : Option Message := do
  let body ← Json.parse text
  let pattern ← body.textMember? (js "pattern")
  let data ← OutboxPayload.ofData? (← body.member? (js "data"))
  return ⟨pattern, data⟩

theorem numberless_of_perm {payload : OutboxPayload} {members : List (JsString × Json)}
    (same : members.Perm payload.members) : Json.numberlessMembers members = true := by
  have texts : ∀ member ∈ members, Json.numberlessMember member = true := by
    rintro ⟨name, value⟩ isMember
    rcases OutboxPayload.mem_members.mp (same.mem_iff.mp isMember) with ⟨text, _, rfl⟩
    rfl
  clear same
  induction members with
  | nil => rfl
  | cons member members ih =>
      rcases List.forall_mem_cons.mp texts with ⟨first, rest⟩
      rw [Json.numberlessMembers, first, ih rest]
      rfl

/-- A message is read back from its text. -/
theorem read_written (anyOrder : ∀ payload, (stored payload).Perm payload.members)
    (message : Message) : Message.read (message.written stored) = some message := by
  have numberless : (Json.object [(js "pattern", .string message.pattern),
      (js "data", .object (stored message.data))]).Numberless = true := by
    simp [Json.Numberless, Json.numberlessMembers, Json.numberlessMember,
      numberless_of_perm (anyOrder message.data)]
  have isBody := Json.parse_stringify numberless
  rw [← Message.written] at isBody
  have pattern : (Json.object [(js "pattern", .string message.pattern),
      (js "data", .object (stored message.data))]).textMember? (js "pattern") =
        some message.pattern := rfl
  have data : (Json.object [(js "pattern", .string message.pattern),
      (js "data", .object (stored message.data))]).member? (js "data") =
        some (.object (stored message.data)) := rfl
  simp [Message.read, isBody, pattern, data, OutboxPayload.ofData?_of_perm (anyOrder message.data)]

/-- The event id in the text of a message. -/
def eventIdIn (text : JsString) : Option JsString :=
  (Message.read text).map fun message => message.data.eventId

/-- Whatever the texts of the messages are made of, and in whatever order the members of a payload
are stored: every message is read back from its text, and no two messages have one text. -/
theorem messages_read_as_written (anyOrder : ∀ payload, (stored payload).Perm payload.members) :
    (∀ message : Message, Message.read (message.written stored) = some message) ∧
      Function.Injective (Message.written stored) := by
  refine ⟨read_written anyOrder, fun message other same => ?_⟩
  have read := read_written anyOrder message
  rw [same, read_written anyOrder other] at read
  exact (Option.some.inj read).symm

/-- A message whose texts hold a quotation mark, a tabulator and half of a surrogate pair. -/
def writtenMessage : Message where
  pattern := js "terminal.event"
  data := {
    eventId := js "e\t1", processingRequestId := js "a\"b", ownerUserId := [0xDC00]
    ownerEmail := some (js "owner@example.com"), sourceStorageKey := none
    status := some .failed, zipStorageKey := none, failureReason := some (js "refused")
    attemptId := none, occurredAt := js "2026-09-21T01:11:00.000Z", correlationId := none }

theorem messages_read_as_written_reversed :
    Message.read (writtenMessage.written fun payload => payload.members.reverse) =
      some writtenMessage :=
  (messages_read_as_written fun payload => List.reverse_perm payload.members).1 writtenMessage

end Relay

end ProcessingCatalog
