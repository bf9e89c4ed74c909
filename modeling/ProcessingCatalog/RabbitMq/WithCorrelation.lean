import ProcessingCatalog.JavaScript.JsonQuote
import ProcessingCatalog.Observability.CorrelationContext
import ProcessingCatalog.RabbitMq.Settlement

/-!
# The correlation id of a message

A consumer handles a message within the scope of the id its body carries, as it
is or inside a `data` envelope, or of a new one.
-/

namespace ProcessingCatalog

/-- A body that carries a correlation id, as it is or inside its `data` envelope. -/
inductive Json.Carries (id : JsString) : Json → Prop where
  | flat {body : Json} (noEnvelope : body.has (js "data") = false)
      (carried : body.member? (js "correlationId") = some (.string id)) : body.Carries id
  | enveloped {body data : Json} (envelope : body.member? (js "data") = some data)
      (carried : data.member? (js "correlationId") = some (.string id)) : body.Carries id

section Message

variable {id content : JsString} {body : Json}

theorem Json.isObject_of_member {name : JsString} {value : Json}
    (isMember : body.member? name = some value) : body.isObject = true := by
  cases body with
  | object members => rfl
  | _ => cases isMember

/-- The second parser finds the id where the body carries it. -/
theorem Json.Carries.unwrap (carries : body.Carries id) :
    (unwrap body).isObject = true ∧
      (ProcessingCatalog.unwrap body).member? (js "correlationId") = some (.string id) := by
  cases carries with
  | flat noEnvelope carried =>
      simp [ProcessingCatalog.unwrap, noEnvelope, carried, Json.isObject_of_member carried]
  | enveloped envelope carried =>
      simp [ProcessingCatalog.unwrap, Json.has, envelope, carried,
        Json.isObject_of_member envelope, Json.isObject_of_member carried]

theorem correlationIdOf_of_carries (isJson : Json.parse content = some body)
    (carries : body.Carries id) (isId : IsCorrelationId id) :
    correlationIdOf content = some id := by
  rcases carries.unwrap with ⟨isObject, carried⟩
  simp only [correlationIdOf, isJson, Option.bind_eq_bind, Option.bind_some, isObject, if_true,
    carried, Option.getD_some]
  exact isId

theorem isCorrelationId_of_message (drawn : Uuid) (content : JsString) :
    IsCorrelationId ((correlationIdOf content).getD drawn.text) := by
  cases isParsed : correlationIdOf content with
  | none => exact drawn.isCorrelationId_text
  | some id =>
      rcases Option.bind_eq_some_iff.mp isParsed with ⟨body, _, isParsed⟩
      rw [Option.ite_none_right_eq_some] at isParsed
      exact isCorrelationId_of_parse isParsed.2

variable {m : Type → Type} {α : Type}

/-- The handling of a message, in the scope that `withMessageCorrelation` runs it in. -/
def correlated (drawn : Uuid) (content : JsString) (handle : Scoped m α) : Scoped m α :=
  Function.uncurry CorrelationContext.runWithCorrelation
    (withMessageCorrelation drawn content handle)

/-- Whatever `m` lets a handling do, it is done once, in a scope with an id. -/
theorem correlated_eq (drawn : Uuid) (content : JsString) (handle : Scoped m α)
    (scope : Option CorrelationScope) : correlated drawn content handle scope =
      handle (some ⟨(correlationIdOf content).getD drawn.text⟩) := rfl

/-- A handling that notes the id of its scope has noted one. -/
example (drawn : Uuid) (content : JsString) (noted : List (Option JsString)) :
    (correlated drawn content
        (fun scope => modify (· ++ [scope.map (·.correlationId)]) :
          Scoped (StateM (List (Option JsString))) Unit) none noted).2 =
      noted ++ [some ((correlationIdOf content).getD drawn.text)] := rfl

end Message

section Bodies

variable {id : JsString}

/-- A body with nothing but a correlation id. -/
def flatBody (id : JsString) : JsString :=
  js "\x7b\"correlationId\":\"" ++ Json.escape id ++ js "\"\x7d"

def envelopedBody (id : JsString) : JsString :=
  js "\x7b\"data\":" ++ flatBody id ++ js "\x7d"

/-- The tokens of a flat body. -/
def flatTokens (id : JsString) : List Json.Token :=
  [.openBrace, .value (.string (js "correlationId")), .colon, .value (.string id), .closeBrace]

theorem readUnits_flatBody (isId : IsCorrelationId id) :
    Json.readUnits .between (flatBody id) = some (.between, flatTokens id) := by
  have printable := (isPrintableAscii_iff.mp (isCorrelationId_iff.mp isId).1).2
  have opened : Json.readUnits .between (js "\x7b\"correlationId\":\"") =
      some (.string [], [.openBrace, .value (.string (js "correlationId")), .colon]) := rfl
  have closed : Json.readUnits (.string (id.reverse ++ [])) (js "\"\x7d") =
      some (.between, [.value (.string (id.reverse ++ []).reverse), .closeBrace]) := rfl
  have within := Json.readUnits_escape (fun unit unitMem => (printable unit unitMem).1) []
  rw [flatBody, Json.readUnits_append (Json.readUnits_append opened within) closed]
  simp [flatTokens]

/-- An id given back inside an envelope. -/
theorem carries_envelopedBody (isId : IsCorrelationId id) :
    ∃ body, Json.parse (envelopedBody id) = some body ∧ body.Carries id := by
  have opened : Json.readUnits .between (js "\x7b\"data\":") =
      some (.between, [.openBrace, .value (.string (js "data")), .colon]) := rfl
  have closed : Json.readUnits .between (js "\x7d") = some (.between, [.closeBrace]) := rfl
  have isText := Json.readUnits_append (Json.readUnits_append opened (readUnits_flatBody isId))
    closed
  exact ⟨.object [(js "data", .object [(js "correlationId", .string id)])],
    Json.parse_of_readUnits isText rfl, .enveloped rfl rfl⟩

end Bodies

end ProcessingCatalog
