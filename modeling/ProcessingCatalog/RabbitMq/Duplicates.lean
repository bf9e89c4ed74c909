import ProcessingCatalog.JavaScript.JsonStringify
import ProcessingCatalog.RabbitMq.Delivery
import ProcessingCatalog.RabbitMq.Texts

/-!
# Which messages are taken for one

A body whose converted members are strings leaves no trace in the store but
under its own `eventId`, and no zip key but the one it carries, when its strings
are well formed: over the driver two texts with a lone surrogate may be one. A
body that carries a number is decoded as the text of that number, and is taken
for the body that carries this text.
-/

namespace ProcessingCatalog

open Effect Domain

namespace Postgres

/-- PostgreSQL holds no zip key that is not well formed. -/
def WellFormedZips (database : Database) : Prop :=
  ∀ row ∈ database.requests, ∀ zipStorageKey ∈ row.zipStorageKey, IsWellFormed zipStorageKey

/-- What a delivery of `content` has left in the store: an event is recorded under its `eventId`
or not at all, and a zip key is the one it carries or was there. -/
structure KeptExactly (content : Json) (before after : Database) : Prop where
  recorded : ∀ eventId, (unwrap content).member? (js "eventId") ≠ some (.string eventId) →
    after.events.find? eventId = before.events.find? eventId
  zipped : ∀ row ∈ after.requests, ∀ zipStorageKey ∈ row.zipStorageKey,
    (unwrap content).member? (js "zipStorageKey") = some (.string zipStorageKey) ∨
      ∃ stored ∈ before.requests, stored.processingRequestId = row.processingRequestId ∧
        stored.zipStorageKey = some zipStorageKey

section Changes

variable {rules : TextRules} {event : LifecycleEvent} {ledger : Ledger}

/-- What a lifecycle event writes: its own record, and a later version of a stored row. -/
theorem changes_of_performUnder (rules : TextRules) (event : LifecycleEvent) (ledger : Ledger) :
    (∀ recorded,
      .insertEvent recorded ∈ (performUnder rules event ledger).2 →
        recorded.eventId = event.eventId) ∧
    (∀ row, .insertRequest row ∉ (performUnder rules event ledger).2) ∧
    ∀ row', .saveRequest row' ∈ (performUnder rules event ledger).2 →
      ∃ row ∈ ledger.requests, ∃ entry, row.SameIdentity row' ∧
        event.decide row.toDomain = .ok (.applied row'.toDomain entry) := by
  rcases performUnder_cases rules event ledger with full | refused
  swap
  · simp [refused]
  rw [full]
  rcases event.changes_cases ledger with
    nothing | ⟨row, rowMem, _, _, ⟨_, noted⟩ | ⟨row', entry, sameIdentity, decided, applied⟩⟩
  · simp [nothing]
  · simp [noted]
  · rw [applied]
    refine ⟨?_, ?_, ?_⟩
    · simp [LifecycleEvent.appliedChanges]
    · simp [LifecycleEvent.appliedChanges]
    · intro saved savedMem
      have isRow : saved = row' := by
        simpa [LifecycleEvent.appliedChanges] using savedMem
      subst isRow
      exact ⟨row, rowMem, entry, sameIdentity, decided⟩

end Changes

section Numbered

variable {changes : List (Change OutboxEntry)} {nextOutboxId : ℕ}

theorem insertEvent_mem_numbered {event : ProcessedEvent} :
    .insertEvent event ∈ changes.map (Change.numbered nextOutboxId) ↔
      .insertEvent event ∈ changes := by
  rw [List.mem_map]
  constructor
  · rintro ⟨change, changeMem, isEvent⟩
    cases change <;> cases isEvent
    exact changeMem
  · exact fun eventMem => ⟨_, eventMem, rfl⟩

theorem stores_numbered {row : ProcessingRequestRow}
    (stores : Database.Stores (changes.map (Change.numbered nextOutboxId)) row) :
    .insertRequest row ∈ changes ∨ .saveRequest row ∈ changes := by
  rcases stores with inserted | saved
  · rcases List.mem_map.mp inserted with ⟨change, changeMem, isRow⟩
    cases change <;> cases isRow
    exact .inl changeMem
  · rcases List.mem_map.mp saved with ⟨change, changeMem, isRow⟩
    cases change <;> cases isRow
    exact .inr changeMem

end Numbered

section Kept

variable {rules : TextRules} {draws : Draws} {parsed : ConsumedEvent} {content : Json}
  {shared shared' : Shared Unit}

/-- An event whose texts are well formed and carried by the body is recorded under its `eventId`,
and leaves no zip key but its own. -/
theorem keptExactly_of_did (carried : parsed.CarriedBy content)
    (wellFormed : ∀ name text, (unwrap content).member? name = some (.string text) →
      IsWellFormed text)
    (zips : WellFormedZips shared.database)
    (did : Did (.ofDatabase shared.database) (performUnder rules (parsed.lifecycle draws).sent
      (.ofDatabase shared.database)).2 shared shared') :
    KeptExactly content shared.database shared'.database := by
  have ⟨records, inserts, saves⟩ := changes_of_performUnder rules (parsed.lifecycle draws).sent
    (.ofDatabase shared.database)
  have isId := carried _ parsed.mem_texts_eventId
  have sentId : (parsed.lifecycle draws).sent.eventId = parsed.eventId := by
    rw [sent_eventId]
    exact wellFormed _ _ isId
  rw [did.database]
  constructor
  · intro eventId other
    refine Database.find?_events_applyAll fun event eventMem isEvent => other ?_
    rw [isId, ← isEvent, records event (insertEvent_mem_numbered.mp eventMem), sentId]
  · intro row rowMem zipStorageKey isZip
    rcases Database.mem_requests_applyAll rowMem with stored | written
    · exact .inr ⟨row, stored, rfl, isZip⟩
    rcases stores_numbered written with inserted | saved
    · exact absurd inserted (inserts row)
    rcases saves row saved with ⟨before, beforeMem, entry, same, decided⟩
    rcases map_eq_ok.mp decided with ⟨_ | ⟨updated, entry'⟩, decides, isDecision⟩
    · cases isDecision
    have isRow := (Decision.applied.inj isDecision).1
    have resent : updated.zipStorageKey.map toWellFormed = some zipStorageKey :=
      (congrArg ProcessingRequest.zipStorageKey isRow).trans isZip
    rw [zipStorageKey_of_applied decides] at resent
    rcases Option.map_eq_some_iff.mp resent with ⟨text, isText, rfl⟩
    cases carriedZip : parsed.zipStorageKey? with
    | some zip =>
        rw [carriedZip] at isText
        obtain rfl : zip = text := Option.some.inj isText
        have isMember := carried _ (parsed.mem_texts_zipStorageKey carriedZip)
        have unchanged : toWellFormed zip = zip := wellFormed _ _ isMember
        rw [unchanged]
        exact .inl isMember
    | none =>
        rw [carriedZip] at isText
        have unchanged : toWellFormed text = text := zips before beforeMem text isText
        rw [unchanged]
        exact .inr ⟨before, beforeMem, same.processingRequestId.symm, isText⟩

end Kept

end Postgres

namespace ConsumedEventName

open Postgres

/-- A consumer decodes a body exactly if and only if a check refuses it, or the members it converts
are strings; two such bodies that are given one `eventId` carry one; and, while the strings of the
body are well formed, a delivery of it alone records no event but under this `eventId`, so no body
with another one is dropped as its duplicate, and stores no zip key but the one the body carries. -/
theorem decoding_exact (event : ConsumedEventName) (stack : ℕ) (content : Json) :
    (event.DecodesExactly stack content ↔ (event.Complete content → event.TextMembers content)) ∧
    (∀ (other : ConsumedEventName) (content' : Json) (parsed parsed' : ConsumedEvent),
      (event.Complete content → event.TextMembers content) →
      (other.Complete content' → other.TextMembers content') →
      event.parse stack content = .ok parsed → other.parse stack content' = .ok parsed' →
      parsed.eventId = parsed'.eventId →
      (unwrap content).member? (js "eventId") = (unwrap content').member? (js "eventId")) ∧
    ∀ (rules : TextRules) (drawn : Uuid) (draws : Draws) (backoffMs : ℕ) (body : JsString)
      (shared : Shared Unit), Json.parse body = some content →
      (event.Complete content → event.TextMembers content) →
      (∀ name text, (unwrap content).member? name = some (.string text) → IsWellFormed text) →
      Numbered shared.database shared.nextOutboxId → UniqueIndexes shared.database.requests →
      WellFormedZips shared.database →
      KeptExactly content shared.database
        (deliverAlone rules event drawn draws backoffMs body shared).2.database := by
  refine ⟨decodesExactly_iff, fun other content' parsed parsed' => eventId_of_textMembers, ?_⟩
  intro rules drawn draws backoffMs body shared isBody texts wellFormed numbered unique zips
  have did := (deliverAlone_spec rules event drawn draws backoffMs body
    (Database.represents_ofDatabase shared.database) numbered unique).2
  cases isRead : event.read draws.stack body with
  | error error =>
      rw [handledUnder_of_error isRead] at did
      rw [did.database]
      exact ⟨fun _ _ => rfl, fun row rowMem _ isZip => .inr ⟨row, rowMem, rfl, isZip⟩⟩
  | ok parsed =>
      rw [handledUnder_of_ok isRead] at did
      rw [read_of_parse isBody] at isRead
      have carried := carriedBy_of_textMembers isRead (texts (of_parse_eq_ok isRead).1)
      exact keptExactly_of_did carried wellFormed zips did

/-- Two acceptances of one request, the one with the number 1 as its event, the other with the text
`"1"`. -/
def numberedBody (eventId : Json) : Json :=
  .object [(js "eventId", eventId),
    (js "processingRequestId", .string (js "6f1c2a34-0b7d-4c59-9e21-3d5a8b0c4e17")),
    (js "occurredAt", .string (js "2026-09-21T01:10:00.000Z"))]

/-- The request these two name, waiting for its acceptance. -/
def numberedRow : ProcessingRequestRow where
  processingRequestId := ((Uuid.parse (js "6f1c2a34-0b7d-4c59-9e21-3d5a8b0c4e17")).getD
    (.repeated 0))
  ownerUserId := js "owner"
  ownerEmail := js "owner@example.com"
  sourceStorageKey := js "uploads/a.mp4"
  status := .received
  attemptId := none
  zipStorageKey := none
  failureCode := none
  idempotencyKey := some (js "key")
  correlationId := none
  createdAt := 0
  updatedAt := 0

def numberedDraws : Draws := ⟨0, .repeated 2, .repeated 3, 3000⟩

def numberedStore : Shared Unit := ⟨⟨.upsert .empty numberedRow, .empty, .empty⟩, 1, []⟩

/-- The store as the acceptance of that request leaves it. -/
def numberedDelivery (eventId : Json) : Shared Unit :=
  (deliverAlone .lenient .videoAccepted (.repeated 1) numberedDraws 1000
    (Json.stringify (numberedBody eventId)) numberedStore).2

theorem decoding_exact_acceptance :
    KeptExactly (numberedBody (.string (js "1"))) numberedStore.database
        (numberedDelivery (.string (js "1"))).database ∧
      ((numberedDelivery (.string (js "1"))).database.events.find? (js "1")).isSome = true := by
  have unique : UniqueIndexes numberedStore.database.requests :=
    uniqueIndexes_empty.insert (by simp)
  have zips : WellFormedZips numberedStore.database := by
    intro row rowMem zipStorageKey isZip
    rcases KeyedTable.mem_upsert.mp rowMem with rfl | ⟨stored, _⟩
    · cases isZip
    · simp at stored
  have isBody : Json.parse (Json.stringify (numberedBody (.string (js "1")))) =
      some (numberedBody (.string (js "1"))) := Json.parse_stringify (by decide)
  have members : ∀ name text, (unwrap (numberedBody (.string (js "1")))).member? name =
      some (.string text) → IsWellFormed text := by
    intro name text isMember
    have unwrapped : unwrap (numberedBody (.string (js "1"))) = numberedBody (.string (js "1")) :=
      rfl
    rw [unwrapped, numberedBody, Json.member?] at isMember
    rcases Option.map_eq_some_iff.mp isMember with ⟨entry, found, isText⟩
    have entryMem := List.mem_of_find?_eq_some found
    simp only [List.mem_reverse, List.mem_cons, List.not_mem_nil, or_false] at entryMem
    rcases entryMem with rfl | rfl | rfl <;> obtain rfl := Json.string.inj isText <;> decide
  have texts : TextMembers .videoAccepted (numberedBody (.string (js "1"))) := by
    intro name nameMem
    simp only [converted, List.mem_cons, List.not_mem_nil, or_false] at nameMem
    rcases nameMem with rfl | rfl | rfl
    · exact ⟨_, rfl⟩
    · exact ⟨_, rfl⟩
    · exact ⟨_, rfl⟩
  have kept := (decoding_exact .videoAccepted 3000 (numberedBody (.string (js "1")))).2.2
    .lenient (.repeated 1) numberedDraws 1000 (Json.stringify (numberedBody (.string (js "1"))))
    numberedStore isBody (fun _ => texts) members (by simp [Numbered, numberedStore]) unique zips
  refine ⟨?_, by decide +kernel⟩
  unfold numberedDelivery
  exact kept

/-- A number and the text of that number are decoded to one `eventId`, which the first of the two
bodies does not carry. -/
theorem number_decodes_as_its_text : ∃ first second parsed parsed',
    parse .videoAccepted 3000 first = .ok parsed ∧
    parse .videoAccepted 3000 second = .ok parsed' ∧
    parsed.eventId = parsed'.eventId ∧
    first.member? (js "eventId") ≠ second.member? (js "eventId") ∧
    ¬ DecodesExactly .videoAccepted 3000 first := by
  refine ⟨numberedBody (.number (.finite false [1] 1)), numberedBody (.string (js "1")), _, _,
    rfl, rfl, by decide, by simp [numberedBody, Json.member?, js, codeUnits], fun exact => ?_⟩
  have carried : ConsumedEvent.CarriedBy (numberedBody (.number (.finite false [1] 1))) _ := exact
  have isId := carried _ List.mem_cons_self
  simp [numberedBody, Json.member?, unwrap, Json.isObject, Json.has, js, codeUnits] at isId

end ConsumedEventName

end ProcessingCatalog
