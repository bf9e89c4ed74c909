import ProcessingCatalog.JavaScript.JsonParse

/-!
# Texts within a JSON text

A text without control characters is written between quotation marks with a
backslash before each quotation mark and each backslash, and `JSON.parse` reads
it back unchanged.
-/

namespace ProcessingCatalog

namespace Json

/-- A text as it stands between the quotation marks of a JSON text. -/
def escape (text : JsString) : JsString :=
  text.flatMap fun unit => if unit = 0x22 ∨ unit = 0x5C then [0x5C, unit] else [unit]

/-- Where the reading stands after some code units, and the tokens they have ended. -/
def readUnits : Mode → JsString → Option (Mode × List Token)
  | mode, [] => some (mode, [])
  | mode, unit :: rest => do
      let (next, tokens) ← readUnit mode unit
      let (last, more) ← readUnits next rest
      return (last, tokens ++ more)

section Reading

variable {mode middle last : Mode} {first second : JsString} {tokens more : List Token}

theorem readUnits_append (isFirst : readUnits mode first = some (middle, tokens))
    (isSecond : readUnits middle second = some (last, more)) :
    readUnits mode (first ++ second) = some (last, tokens ++ more) := by
  induction first generalizing mode tokens with
  | nil =>
      cases isFirst
      exact isSecond
  | cons unit first ih =>
      rcases Option.bind_eq_some_iff.mp isFirst with ⟨⟨next, ended⟩, read, isFirst⟩
      rcases Option.bind_eq_some_iff.mp isFirst with ⟨⟨other, rest⟩, isRest, same⟩
      cases same
      simp [readUnits, read, ih isRest]

theorem tokensFrom_of_readUnits (isText : readUnits mode first = some (.between, tokens)) :
    tokensFrom mode first = some tokens := by
  induction first generalizing mode tokens with
  | nil =>
      cases isText
      rfl
  | cons unit first ih =>
      rcases Option.bind_eq_some_iff.mp isText with ⟨⟨next, ended⟩, read, isText⟩
      rcases Option.bind_eq_some_iff.mp isText with ⟨⟨other, rest⟩, isRest, same⟩
      cases same
      simp [tokensFrom, read, ih isRest]

/-- Within a string, a text is read back from its escaped form. -/
theorem readUnits_escape {text : JsString} (printable : ∀ unit ∈ text, 0x20 ≤ unit)
    (units : JsString) :
    readUnits (.string units) (escape text) = some (.string (text.reverse ++ units), []) := by
  induction text generalizing units with
  | nil => rfl
  | cons unit text ih =>
      rcases List.forall_mem_cons.mp printable with ⟨visible, printable⟩
      have one : readUnits (.string units)
          (if unit = 0x22 ∨ unit = 0x5C then [0x5C, unit] else [unit]) =
            some (.string (unit :: units), []) := by
        split
        · next special => rcases special with rfl | rfl <;> rfl
        · next plain =>
            rcases not_or.mp plain with ⟨noQuote, noBackslash⟩
            simp [readUnits, readUnit, noQuote, noBackslash, UInt16.not_lt.mpr visible]
      rw [escape, List.flatMap_cons, ← escape, readUnits_append one (ih printable _)]
      simp

theorem parse_of_readUnits {text : JsString} {value : Json}
    (isText : readUnits .between text = some (.between, tokens))
    (isValue : readTokens .value [] tokens = some value) : parse text = some value := by
  rw [parse, tokensFrom_of_readUnits isText]
  exact isValue

end Reading

end Json

end ProcessingCatalog
