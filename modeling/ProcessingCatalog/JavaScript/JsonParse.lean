import ProcessingCatalog.JavaScript.Json

/-!
# `JSON.parse`

The text is cut into tokens, one code unit at a time, and the tokens are put
together over a stack of the arrays and objects that are still open. A word is
a maximal run of code units that are neither white space, nor a quotation mark,
nor one of the six structural characters: it is a literal or a number. No two
values stand next to each other in a JSON text, so cutting it this way refuses
what the grammar refuses.

A number is rounded to the nearest double, ties to even, and held by the
shortest digits that round to that double.
-/

namespace ProcessingCatalog

namespace JsNumber

/-- `numerator / denominator`, rounded to the nearest integer, ties to even. -/
def roundHalfEven (numerator denominator : ℕ) : ℕ :=
  let floor := numerator / denominator
  let twice := 2 * (numerator % denominator)
  if twice < denominator ∨ twice = denominator ∧ floor % 2 = 0 then floor else floor + 1

/-- A positive fraction scaled by a power of a base. -/
def scaled (base : ℕ) (fraction : ℕ × ℕ) (exponent : ℤ) : ℕ × ℕ :=
  (fraction.1 * base ^ exponent.toNat, fraction.2 * base ^ (-exponent).toNat)

/-- The integer part of the binary logarithm of a positive fraction. -/
def binaryLog (fraction : ℕ × ℕ) : ℤ :=
  let estimate : ℤ := fraction.1.log2 - fraction.2.log2
  let rest := scaled 2 fraction (-estimate)
  if rest.2 ≤ rest.1 then estimate else estimate - 1

/-- The double nearest to a positive fraction, `significand * 2 ^ exponent` with 53 bits as long as
the exponent allows it, unless the fraction rounds beyond the greatest one. -/
def nearestDouble (fraction : ℕ × ℕ) : Option (ℕ × ℤ) :=
  let exponent := max (-1074) (binaryLog fraction - 52)
  let rest := scaled 2 fraction (-exponent)
  let significand := roundHalfEven rest.1 rest.2
  let double := if significand = 2 ^ 53 then (2 ^ 52, exponent + 1) else (significand, exponent)
  if 971 < double.2 then none else some double

/-- How many digits a positive fraction has before the point, or less the zeros that follow it. -/
def decimalExponent (fraction : ℕ × ℕ) : ℤ :=
  if fraction.2 ≤ fraction.1 then (decimal (fraction.1 / fraction.2)).length
  else 1 - (decimal ((fraction.2 - 1) / fraction.1)).length

/-- The digits of a natural number. -/
def digitsOf (number : ℕ) : List (Fin 10) :=
  (Nat.toDigits 10 number).map fun digit => Fin.ofNat 10 (digit.toNat - 0x30)

/-- The number of `count` digits that is closest to a double and rounds to it, if there is one. -/
def closest (double : ℕ × ℤ) (count : ℕ) : Option (ℕ × ℤ) :=
  let value := scaled 2 (double.1, 1) double.2
  let unit := decimalExponent value - count
  let rest := scaled 10 value (-unit)
  let floor := rest.1 / rest.2
  let nearer := if 2 * (rest.1 % rest.2) ≤ rest.2 then [floor, floor + 1] else [floor + 1, floor]
  (nearer.find? fun digits => nearestDouble (scaled 10 (digits, 1) unit) = some double).map
    fun digits => (digits, unit)

/-- The shortest digits of a positive double: at most 17 are needed. -/
def shortest (double : ℕ × ℤ) : List (Fin 10) × ℤ :=
  match ((List.range 17).findSome? fun count => closest double (count + 1)) with
  | some (number, unit) =>
      let digits := digitsOf number
      ((digits.reverse.dropWhile (· = 0)).reverse, unit + digits.length)
  | none => ([], 0)

/-- The number a decimal literal stands for. -/
def ofDecimal (negative : Bool) (digits : ℕ) (scale : ℤ) : JsNumber :=
  if digits = 0 then
    .finite negative [] 0
  else
    match nearestDouble (scaled 10 (digits, 1) scale) with
    | none => .infinite negative
    | some (0, _) => .finite negative [] 0
    | some double =>
        let (shortDigits, exponent) := shortest double
        .finite negative shortDigits exponent

/-- The natural number a run of decimal digits stands for. -/
def natural (digits : JsString) : ℕ :=
  digits.foldl (fun number digit => 10 * number + (digit.toNat - 0x30)) 0

def isDigit (unit : UInt16) : Bool :=
  0x30 ≤ unit && unit ≤ 0x39

/-- `[eE][+-]?[0-9]+`, or nothing. -/
def exponentOf : JsString → Option ℤ
  | [] => some 0
  | mark :: rest =>
      if mark = 0x65 ∨ mark = 0x45 then
        let (negative, digits) :=
          match rest with
          | 0x2D :: digits => (true, digits)
          | 0x2B :: digits => (false, digits)
          | digits => (false, digits)
        if digits.isEmpty ∨ ¬ digits.all isDigit then none
        else some (if negative then -natural digits else natural digits)
      else
        none

/-- A number of the JSON grammar: `-?(0|[1-9][0-9]*)(\.[0-9]+)?([eE][+-]?[0-9]+)?`. -/
def parse (word : JsString) : Option JsNumber := do
  let (negative, unsigned) :=
    match word with
    | 0x2D :: unsigned => (true, unsigned)
    | unsigned => (false, unsigned)
  let (whole, rest) := unsigned.span isDigit
  guard (¬ whole.isEmpty ∧ (whole.length = 1 ∨ whole.head? ≠ some 0x30))
  let (fraction, rest) ←
    match rest with
    | 0x2E :: rest =>
        let (fraction, rest) := rest.span isDigit
        if fraction.isEmpty then none else some (fraction, rest)
    | rest => some ([], rest)
  let exponent ← exponentOf rest
  return ofDecimal negative (natural (whole ++ fraction)) (exponent - fraction.length)

end JsNumber

namespace Json

/-- The tokens of a JSON text. -/
inductive Token where
  | openBrace
  | closeBrace
  | openBracket
  | closeBracket
  | colon
  | comma
  | value (value : Json)

/-- A literal or a number. -/
def wordValue (word : JsString) : Option Json :=
  if word = js "null" then some .null
  else if word = js "true" then some (.bool true)
  else if word = js "false" then some (.bool false)
  else (JsNumber.parse word).map .number

/-- What the next code unit is read as. -/
inductive Mode where
  | between
  /-- Within a word, from its first code units in reverse. -/
  | word (units : JsString)
  /-- Within a string, as far as it is read, in reverse. -/
  | string (units : JsString)
  /-- After a backslash in a string. -/
  | escape (units : JsString)
  /-- After `\u` in a string: the code unit read so far, and the digits still due. -/
  | unicode (units : JsString) (unit : UInt16) (due : ℕ)

def structural (unit : UInt16) : Option Token :=
  if unit = 0x7B then some .openBrace
  else if unit = 0x7D then some .closeBrace
  else if unit = 0x5B then some .openBracket
  else if unit = 0x5D then some .closeBracket
  else if unit = 0x3A then some .colon
  else if unit = 0x2C then some .comma
  else none

/-- The white space of JSON. -/
def isBlankUnit (unit : UInt16) : Bool :=
  unit ∈ ([0x09, 0x0A, 0x0D, 0x20] : List UInt16)

/-- The code unit a backslash and `unit` stand for. -/
def escaped (unit : UInt16) : Option UInt16 :=
  if unit ∈ ([0x22, 0x5C, 0x2F] : List UInt16) then some unit
  else if unit = 0x62 then some 0x08
  else if unit = 0x66 then some 0x0C
  else if unit = 0x6E then some 0x0A
  else if unit = 0x72 then some 0x0D
  else if unit = 0x74 then some 0x09
  else none

def hexDigit (unit : UInt16) : Option UInt16 :=
  if 0x30 ≤ unit ∧ unit ≤ 0x39 then some (unit - 0x30)
  else if 0x41 ≤ unit ∧ unit ≤ 0x46 then some (unit - 0x37)
  else if 0x61 ≤ unit ∧ unit ≤ 0x66 then some (unit - 0x57)
  else none

/-- Read one code unit outside a string and outside a word. -/
def startToken (unit : UInt16) : Mode × List Token :=
  if unit = 0x22 then (.string [], [])
  else if isBlankUnit unit then (.between, [])
  else
    match structural unit with
    | some token => (.between, [token])
    | none => (.word [unit], [])

/-- Read one code unit: the tokens it ends, and how the next one is read. -/
def readUnit (mode : Mode) (unit : UInt16) : Option (Mode × List Token) :=
  match mode with
  | .between => some (startToken unit)
  | .word units =>
      if unit = 0x22 ∨ isBlankUnit unit ∨ (structural unit).isSome then do
        let value ← wordValue units.reverse
        let (next, tokens) := startToken unit
        return (next, .value value :: tokens)
      else
        some (.word (unit :: units), [])
  | .string units =>
      if unit = 0x22 then some (.between, [.value (.string units.reverse)])
      else if unit = 0x5C then some (.escape units, [])
      else if unit < 0x20 then none
      else some (.string (unit :: units), [])
  | .escape units =>
      if unit = 0x75 then some (.unicode units 0 3, [])
      else (escaped unit).map fun character => (.string (character :: units), [])
  | .unicode units read due => do
      let digit ← hexDigit unit
      match due with
      | 0 => return (.string ((16 * read + digit) :: units), [])
      | due + 1 => return (.unicode units (16 * read + digit) due, [])

def tokensFrom : Mode → JsString → Option (List Token)
  | .between, [] => some []
  | .word units, [] => (wordValue units.reverse).map fun value => [.value value]
  | _, [] => none
  | mode, unit :: rest => do
      let (next, tokens) ← readUnit mode unit
      let more ← tokensFrom next rest
      return tokens ++ more

/-- An array or an object that is still open, its parts in reverse. -/
inductive Frame where
  | array (items : List Json)
  | object (members : List (JsString × Json)) (key : JsString)

/-- What the next token may be. -/
inductive Expected where
  | value
  /-- After `[`. -/
  | valueOrClose
  /-- After a comma in an object. -/
  | key (members : List (JsString × Json))
  /-- After an opening brace. -/
  | keyOrClose
  | colon (members : List (JsString × Json)) (key : JsString)
  /-- After a value in an array or an object. -/
  | next (frame : Frame)
  /-- After the value of the text. -/
  | done (value : Json)

/-- Add a complete value to the innermost open array or object. -/
def complete (value : Json) : List Frame → Expected × List Frame
  | [] => (.done value, [])
  | .array items :: outer => (.next (.array (value :: items)), outer)
  | .object members key :: outer => (.next (.object ((key, value) :: members) key), outer)

/-- Read one token. -/
def readToken (expected : Expected) (open' : List Frame) (token : Token) :
    Option (Expected × List Frame) :=
  match expected, token with
  | .value, .value value | .valueOrClose, .value value =>
      let frames := if expected matches .valueOrClose then .array [] :: open' else open'
      some (complete value frames)
  | .value, .openBracket => some (.valueOrClose, open')
  | .value, .openBrace => some (.keyOrClose, open')
  | .valueOrClose, .openBracket => some (.valueOrClose, .array [] :: open')
  | .valueOrClose, .openBrace => some (.keyOrClose, .array [] :: open')
  | .valueOrClose, .closeBracket => some (complete (.array []) open')
  | .keyOrClose, .closeBrace => some (complete (.object []) open')
  | .keyOrClose, .value (.string key) => some (.colon [] key, open')
  | .key members, .value (.string key) => some (.colon members key, open')
  | .colon members key, .colon => some (.value, .object members key :: open')
  | .next (.array items), .comma => some (.value, .array items :: open')
  | .next (.array items), .closeBracket => some (complete (.array items.reverse) open')
  | .next (.object members _), .comma => some (.key members, open')
  | .next (.object members _), .closeBrace => some (complete (.object members.reverse) open')
  | _, _ => none

def readTokens : Expected → List Frame → List Token → Option Json
  | .done value, _, [] => some value
  | _, _, [] => none
  | expected, frames, token :: rest => do
      let (next, inner) ← readToken expected frames token
      readTokens next inner rest

/-- `JSON.parse(text)`, or nothing when it throws a `SyntaxError`. -/
def parse (text : JsString) : Option Json := do
  let tokens ← tokensFrom .between text
  readTokens .value [] tokens

end Json

end ProcessingCatalog
