import ProcessingCatalog.Domain.Uuid
import ProcessingCatalog.Application.CreateProcessingRequest

/-!
# Correlation ids and their scopes

`parseCorrelationId` takes off the white space around an id and accepts what is
left when it is short printable ASCII; what it returns it accepts again,
unchanged. A scope is entered with such an id only, and everything that runs in
it reads that id.
-/

namespace ProcessingCatalog

section Parsing

variable {raw parsed : JsString}

theorem parseCorrelationId_eq_some {value : Json} :
    parseCorrelationId value = some parsed ↔
      ∃ raw, value = .string raw ∧ isPrintableAscii (trim raw) = true ∧ parsed = trim raw := by
  cases value with
  | string raw =>
      rw [parseCorrelationId, Option.ite_none_right_eq_some, Option.some.injEq]
      constructor
      · rintro ⟨printable, rfl⟩
        exact ⟨raw, rfl, printable, rfl⟩
      · rintro ⟨_, ⟨⟩, printable, same⟩
        exact ⟨printable, same.symm⟩
  | _ => simp [parseCorrelationId]

theorem isPrintableAscii_iff {text : JsString} :
    isPrintableAscii text = true ↔ (1 ≤ text.length ∧ text.length ≤ 128) ∧
      ∀ unit ∈ text, 0x20 ≤ unit ∧ unit ≤ 0x7E := by
  simp [isPrintableAscii]

/-- An id that `parseCorrelationId` returns unchanged. -/
def IsCorrelationId (id : JsString) : Prop :=
  parseCorrelationId (.string id) = some id

theorem isCorrelationId_iff {id : JsString} :
    IsCorrelationId id ↔ isPrintableAscii id = true ∧ Trimmed id := by
  constructor
  · intro valid
    rcases parseCorrelationId_eq_some.mp valid with ⟨_, ⟨⟩, printable, same⟩
    rw [← same] at printable
    exact ⟨printable, same ▸ trimmed_trim id⟩
  · rintro ⟨printable, trimmed⟩
    exact parseCorrelationId_eq_some.mpr ⟨id, rfl, trimmed.trim_eq.symm ▸ printable,
      trimmed.trim_eq.symm⟩

/-- What is returned is accepted again, unchanged. -/
theorem isCorrelationId_of_parse {value : Json}
    (isParsed : parseCorrelationId value = some parsed) : IsCorrelationId parsed := by
  rcases parseCorrelationId_eq_some.mp isParsed with ⟨raw, _, printable, rfl⟩
  exact isCorrelationId_iff.mpr ⟨printable, trimmed_trim raw⟩

theorem IsCorrelationId.ne_nil {id : JsString} (valid : IsCorrelationId id) : id ≠ [] := by
  have long := (isPrintableAscii_iff.mp (isCorrelationId_iff.mp valid).1).1.1
  rintro rfl
  cases long

/-- What `parseCorrelationId` makes of a text. -/
structure Normalised (raw parsed : JsString) : Prop where
  length : 1 ≤ parsed.length ∧ parsed.length ≤ 128
  printable : ∀ unit ∈ parsed, 0x20 ≤ unit ∧ unit ≤ 0x7E
  trimmed : Trimmed parsed
  eq_trim : parsed = trim raw
  around : ∃ before after : JsString, raw = before ++ parsed ++ after ∧
    ∀ unit ∈ before ++ after, isWhiteSpace unit = true
  again : parseCorrelationId (.string parsed) = some parsed

theorem normalised_of_parse (isParsed : parseCorrelationId (.string raw) = some parsed) :
    Normalised raw parsed := by
  rcases parseCorrelationId_eq_some.mp isParsed with ⟨_, ⟨⟩, printable, rfl⟩
  rcases isPrintableAscii_iff.mp printable with ⟨length, units⟩
  exact {
    length
    printable := units
    trimmed := trimmed_trim raw
    eq_trim := rfl
    around := exists_around_trim raw
    again := isCorrelationId_of_parse isParsed }

end Parsing

section Drawn

namespace Uuid

/-- A text of hexadecimal digits and hyphens. -/
theorem mem_printBytes {remaining : ℕ} {digits : List (Fin 16)} {unit : UInt16}
    (unitMem : unit ∈ printBytes remaining digits) :
    unit = hyphen ∨ ∃ digit, unit = hexDigit digit := by
  induction remaining, digits using printBytes.induct with
  | case1 remaining high low digits ih =>
      simp only [printBytes, List.mem_cons, List.mem_append] at unitMem
      rcases unitMem with rfl | rfl | between | rest
      · exact .inr ⟨high, rfl⟩
      · exact .inr ⟨low, rfl⟩
      · split at between
        · exact .inl (List.mem_singleton.mp between)
        · cases between
      · exact ih rest
  | case2 => simp_all [printBytes]

/-- Each byte is printed as two digits, with a hyphen after some. -/
theorem length_printBytes (remaining : ℕ) (digits : List (Fin 16)) :
    2 * (digits.length / 2) ≤ (printBytes remaining digits).length ∧
      (printBytes remaining digits).length ≤ 3 * (digits.length / 2) := by
  induction remaining, digits using printBytes.induct with
  | case1 remaining high low digits ih =>
      simp only [printBytes, List.length_cons, List.length_append]
      split <;> simp <;> omega
  | case2 digits remaining short =>
      rcases digits with _ | ⟨only, _ | ⟨next, rest⟩⟩
      · exact ⟨le_rfl, le_rfl⟩
      · simp [printBytes]
      · exact absurd rfl (short only next rest)

theorem printable_of_mem_text {uuid : Uuid} {unit : UInt16} (unitMem : unit ∈ uuid.text) :
    (0x20 ≤ unit ∧ unit ≤ 0x7E) ∧ isWhiteSpace unit = false := by
  have digits : ∀ digit : Fin 16, (0x20 ≤ hexDigit digit ∧ hexDigit digit ≤ 0x7E) ∧
      isWhiteSpace (hexDigit digit) = false := by decide
  rcases mem_printBytes unitMem with rfl | ⟨digit, rfl⟩
  · decide
  · exact digits digit

/-- A random UUID is a correlation id. -/
theorem isCorrelationId_text (uuid : Uuid) : IsCorrelationId uuid.text := by
  have length := length_printBytes 16 uuid.digits
  rw [uuid.length_digits] at length
  refine isCorrelationId_iff.mpr ⟨isPrintableAscii_iff.mpr ⟨?_, ?_⟩, ?_, ?_⟩
  · unfold text
    omega
  · exact fun unit unitMem => (printable_of_mem_text unitMem).1
  · exact fun unit isFirst => (printable_of_mem_text (List.mem_of_mem_head? isFirst)).2
  · exact fun unit isLast => (printable_of_mem_text (List.mem_of_mem_getLast? isLast)).2

end Uuid

end Drawn

section Scopes

structure CorrelationScope where
  correlationId : JsString

/-- What runs within a scope, if there is one: the store of the `AsyncLocalStorage`. -/
abbrev Scoped (m : Type → Type) (α : Type) : Type :=
  ReaderT (Option CorrelationScope) m α

variable {m : Type → Type} {α : Type}

namespace CorrelationContext

def runWithCorrelation (id : JsString) (fn : Scoped m α) : Scoped m α :=
  fun _ => fn (some ⟨id⟩)

variable [Monad m]

def getCorrelationId : Scoped m (Option JsString) :=
  fun scope => pure (scope.map (·.correlationId))

/-- `drawn` is the UUID that `randomUUID` would return. -/
def getOrGenerateCorrelationId (drawn : Uuid) : Scoped m JsString := do
  let current ← getCorrelationId
  return (current.bind fun id => parseCorrelationId (.string id)).getD drawn.text

theorem getOrGenerateCorrelationId_eq [LawfulMonad m] (drawn : Uuid)
    (scope : Option CorrelationScope) : ∃ id, IsCorrelationId id ∧
      getOrGenerateCorrelationId (m := m) drawn scope = pure id := by
  refine ⟨((scope.map (·.correlationId)).bind fun id =>
    parseCorrelationId (.string id)).getD drawn.text, ?_, pure_bind _ _⟩
  cases isParsed : (scope.map (·.correlationId)).bind fun id => parseCorrelationId (.string id) with
  | none => exact drawn.isCorrelationId_text
  | some id =>
      rcases Option.bind_eq_some_iff.mp isParsed with ⟨raw, _, isParsed⟩
      exact isCorrelationId_of_parse isParsed

end CorrelationContext

/-- The edge of the service: a request is served within the scope of the id in its header, or of
the scope it comes from, or of a new one. -/
def CorrelationMiddleware.use [Monad m] (header : Option JsString) (drawn : Uuid)
    (setHeader : JsString → m Unit) (next : Scoped m α) : Scoped m α := do
  let id ← (header.bind fun raw => parseCorrelationId (.string raw)).elim
    (CorrelationContext.getOrGenerateCorrelationId drawn) pure
  setHeader id
  CorrelationContext.runWithCorrelation id next

/-- The id of the scope is the one that is echoed, and a correlation id whatever the header is. -/
theorem CorrelationMiddleware.use_eq [Monad m] [LawfulMonad m] (header : Option JsString)
    (drawn : Uuid) (setHeader : JsString → m Unit) (next : Scoped m α)
    (scope : Option CorrelationScope) : ∃ id, IsCorrelationId id ∧
      use header drawn setHeader next scope = setHeader id >>= fun _ => next (some ⟨id⟩) := by
  have chosen : ∃ id, IsCorrelationId id ∧
      (header.bind fun raw => parseCorrelationId (.string raw)).elim
        (CorrelationContext.getOrGenerateCorrelationId (m := m) drawn) pure scope = pure id := by
    cases given : header.bind fun raw => parseCorrelationId (.string raw) with
    | none => exact CorrelationContext.getOrGenerateCorrelationId_eq drawn scope
    | some id =>
        rcases Option.bind_eq_some_iff.mp given with ⟨raw, _, isParsed⟩
        exact ⟨id, isCorrelationId_of_parse isParsed, rfl⟩
  rcases chosen with ⟨id, isId, isChosen⟩
  refine ⟨id, isId, (congrArg (· >>= _) isChosen).trans (pure_bind id _)⟩

end Scopes

end ProcessingCatalog
