import ProcessingCatalog.RabbitMq.Decoding

/-!
# Which texts the consumers pass on

A text that is passed on is the string of a member only if the member is one:
a number, `null` or an array is converted to a text that no member carries, and
that another body may carry as a string.
-/

namespace ProcessingCatalog

open Domain

/-- Every text that is passed on is the string of the member it stands for. -/
def ConsumedEvent.CarriedBy (content : Json) (parsed : ConsumedEvent) : Prop :=
  ∀ entry ∈ parsed.texts, (unwrap content).member? entry.1 = some (.string entry.2)

namespace ConsumedEventName

variable {event : ConsumedEventName} {stack : ℕ} {content : Json}

/-- A body is refused for what it is, or its texts are passed on as they are. -/
def DecodesExactly (event : ConsumedEventName) (stack : ℕ) (content : Json) : Prop :=
  match event.parse stack content with
  | .ok parsed => parsed.CarriedBy content
  | .error error => ∃ message, error = .processingRequestDomainError message

/-- The members that are converted to texts are strings. -/
def TextMembers (event : ConsumedEventName) (content : Json) : Prop :=
  ∀ name ∈ event.converted, ∃ text, (unwrap content).member? name = some (.string text)

theorem stringOf_text {payload : Json} {name text : JsString}
    (isText : payload.member? name = some (.string text)) :
    stringOf stack payload name = .ok text := by
  simp [stringOf, isText, Json.text, Except.mapError]

theorem eq_string_of_isValidAttemptId {value : Option Json} {attemptId : JsString}
    (valid : isValidAttemptId value = some attemptId) : value = some (.string attemptId) := by
  unfold isValidAttemptId at valid
  split at valid
  · split at valid
    · rw [Option.some.inj valid]
    · cases valid
  · cases valid

theorem carriedBy_of_textMembers {parsed : ConsumedEvent}
    (isParsed : event.parse stack content = .ok parsed) (texts : event.TextMembers content) :
    parsed.CarriedBy content := by
  intro entry entryMem
  rcases (of_parse_eq_ok isParsed).2.1 entry entryMem with ⟨converted, isText⟩ | ⟨isName, valid⟩
  · rcases texts entry.1 converted with ⟨text, found⟩
    rw [stringOf_text found] at isText
    rw [found, Except.ok.inj isText]
  · exact eq_string_of_isValidAttemptId valid

/-- A complete body is decoded exactly when its converted members are strings. -/
theorem decodesExactly_iff :
    event.DecodesExactly stack content ↔ (event.Complete content → event.TextMembers content) := by
  unfold DecodesExactly
  cases isParsed : event.parse stack content with
  | ok parsed =>
      constructor
      · intro carried _ name converted
        rcases List.mem_map.mp ((of_parse_eq_ok isParsed).2.2 name converted) with
          ⟨entry, entryMem, rfl⟩
        exact ⟨entry.2, carried entry entryMem⟩
      · intro texts
        exact carriedBy_of_textMembers isParsed (texts (of_parse_eq_ok isParsed).1)
  | error error =>
      rcases of_parse_eq_error isParsed with
        ⟨incomplete, refused⟩ | ⟨complete, name, converted, threw⟩
      · exact ⟨fun _ complete => absurd complete incomplete, fun _ => refused⟩
      · constructor
        · rintro ⟨message, rfl⟩
          rcases stringOf_eq_error.mp threw with ⟨_, conversion, _, _, different⟩
          cases conversion <;> cases different
        · intro texts
          rcases texts complete name converted with ⟨text, found⟩
          rw [stringOf_text found] at threw
          cases threw

/-- Two bodies whose converted members are strings and that are given one `eventId` carry one. -/
theorem eventId_of_textMembers {other : ConsumedEventName} {content' : Json}
    {parsed parsed' : ConsumedEvent} (texts : event.Complete content → event.TextMembers content)
    (texts' : other.Complete content' → other.TextMembers content')
    (isParsed : event.parse stack content = .ok parsed)
    (isParsed' : other.parse stack content' = .ok parsed')
    (same : parsed.eventId = parsed'.eventId) :
    (unwrap content).member? (js "eventId") = (unwrap content').member? (js "eventId") := by
  have carried := carriedBy_of_textMembers isParsed (texts (of_parse_eq_ok isParsed).1)
  have carried' := carriedBy_of_textMembers isParsed' (texts' (of_parse_eq_ok isParsed').1)
  rw [carried _ parsed.mem_texts_eventId, carried' _ parsed'.mem_texts_eventId, same]

end ConsumedEventName

end ProcessingCatalog
