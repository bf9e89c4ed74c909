import ProcessingCatalog.JavaScript.JsonQuote
import ProcessingCatalog.JavaScript.Utf8

/-!
# `JSON.stringify`, and back

A text is written between quotation marks with the short escapes of JSON where
there are any, and with `\u` and four digits for the other control characters
and for a surrogate that is not half of a pair. `JSON.parse` reads the text of a
value back as the same value, member by member, as long as it holds no number.
-/

namespace ProcessingCatalog

namespace Json

/-- The digit of a number below 16, in lower case. -/
def hexUnit (digit : ℕ) : UInt16 :=
  if digit < 10 then UInt16.ofNat (0x30 + digit) else UInt16.ofNat (0x57 + digit)

/-- `\u` and the four digits of a code unit. -/
def unicodeEscape (unit : UInt16) : JsString :=
  [0x5C, 0x75, hexUnit (unit.toNat / 0x1000), hexUnit (unit.toNat / 0x100 % 16),
    hexUnit (unit.toNat / 0x10 % 16), hexUnit (unit.toNat % 16)]

/-- A code unit that is not half of a pair, as it stands between the quotation marks. -/
def quoteUnit (unit : UInt16) : JsString :=
  if unit = 0x08 then [0x5C, 0x62]
  else if unit = 0x09 then [0x5C, 0x74]
  else if unit = 0x0A then [0x5C, 0x6E]
  else if unit = 0x0C then [0x5C, 0x66]
  else if unit = 0x0D then [0x5C, 0x72]
  else if unit = 0x22 ∨ unit = 0x5C then [0x5C, unit]
  else if unit < 0x20 ∨ isHighSurrogate unit ∨ isLowSurrogate unit then unicodeEscape unit
  else [unit]

def quoteUnits : JsString → JsString
  | [] => []
  | [unit] => quoteUnit unit
  | unit :: next :: rest =>
      if isHighSurrogate unit && isLowSurrogate next then
        unit :: next :: quoteUnits rest
      else
        quoteUnit unit ++ quoteUnits (next :: rest)

def quote (text : JsString) : JsString :=
  0x22 :: quoteUnits text ++ [0x22]

mutual

/-- `JSON.stringify(value)`. A number that is not finite is written as `null`. -/
def stringify : Json → JsString
  | .null => js "null"
  | .bool true => js "true"
  | .bool false => js "false"
  | .number (.infinite _) => js "null"
  | .number value => value.text
  | .string value => quote value
  | .array items => 0x5B :: stringifyItems items ++ [0x5D]
  | .object members => 0x7B :: stringifyMembers members ++ [0x7D]

def stringifyItems : List Json → JsString
  | [] => []
  | item :: items => stringify item ++ stringifyMoreItems items

/-- The items that follow another one. -/
def stringifyMoreItems : List Json → JsString
  | [] => []
  | item :: items => 0x2C :: stringify item ++ stringifyMoreItems items

def stringifyMembers : List (JsString × Json) → JsString
  | [] => []
  | member :: members => stringifyMember member ++ stringifyMoreMembers members

/-- The members that follow another one. -/
def stringifyMoreMembers : List (JsString × Json) → JsString
  | [] => []
  | member :: members => 0x2C :: stringifyMember member ++ stringifyMoreMembers members

def stringifyMember : JsString × Json → JsString
  | (name, value) => quote name ++ 0x3A :: stringify value

end

mutual

/-- Whether a value holds no number. -/
def Numberless : Json → Bool
  | .number _ => false
  | .array items => numberlessItems items
  | .object members => numberlessMembers members
  | _ => true

def numberlessItems : List Json → Bool
  | [] => true
  | item :: items => item.Numberless && numberlessItems items

def numberlessMembers : List (JsString × Json) → Bool
  | [] => true
  | member :: members => numberlessMember member && numberlessMembers members

def numberlessMember : JsString × Json → Bool
  | (_, value) => value.Numberless

end

example : stringify
      (.object [(js "a", .array [.string (js "\"\n"), .null]), (js "b", .bool true)]) =
    js "\x7b\"a\":[\"\\\"\\n\",null],\"b\":true\x7d" := by
  decide

/-! ## Texts are read back -/

section Quoting

theorem hexDigit_hexUnit {digit : ℕ} (below : digit < 16) :
    hexDigit (hexUnit digit) = some (UInt16.ofNat digit) := by
  have digits : ∀ digit : Fin 16, hexDigit (hexUnit digit) = some (UInt16.ofNat digit) := by
    decide
  exact digits ⟨digit, below⟩

/-- The four digits of a code unit stand for it. -/
theorem digits_eq (unit : UInt16) :
    16 * (16 * (16 * (16 * 0 + UInt16.ofNat (unit.toNat / 0x1000)) +
      UInt16.ofNat (unit.toNat / 0x100 % 16)) + UInt16.ofNat (unit.toNat / 0x10 % 16)) +
      UInt16.ofNat (unit.toNat % 16) = unit := by
  apply UInt16.toNat_inj.mp
  have below : unit.toNat < 0x10000 := unit.toNat_lt
  simp only [UInt16.toNat_add, UInt16.toNat_mul, UInt16.toNat_ofNat', UInt16.toNat_ofNat]
  omega

/-- After `\u`, four digits are read as the code unit they stand for. -/
theorem readUnits_digits {first second third fourth : UInt16} {a b c d : UInt16}
    (isFirst : hexDigit first = some a) (isSecond : hexDigit second = some b)
    (isThird : hexDigit third = some c) (isFourth : hexDigit fourth = some d) (units : JsString) :
    readUnits (.string units) [0x5C, 0x75, first, second, third, fourth] =
      some (.string ((16 * (16 * (16 * (16 * 0 + a) + b) + c) + d) :: units), []) := by
  have opened : readUnits (.string units) [0x5C, 0x75] = some (.unicode units 0 3, []) := rfl
  have digits : readUnits (.unicode units 0 3) [first, second, third, fourth] =
      some (.string ((16 * (16 * (16 * (16 * 0 + a) + b) + c) + d) :: units), []) := by
    simp [readUnits, readUnit, isFirst, isSecond, isThird, isFourth]
  exact readUnits_append opened digits

theorem readUnits_unicodeEscape (unit : UInt16) (units : JsString) :
    readUnits (.string units) (unicodeEscape unit) = some (.string (unit :: units), []) := by
  have below : unit.toNat < 0x10000 := unit.toNat_lt
  rw [unicodeEscape, readUnits_digits (hexDigit_hexUnit (by omega)) (hexDigit_hexUnit (by omega))
    (hexDigit_hexUnit (by omega)) (hexDigit_hexUnit (by omega)), digits_eq]

theorem readUnits_plain {unit : UInt16} (noQuote : unit ≠ 0x22) (noBackslash : unit ≠ 0x5C)
    (visible : ¬ unit < 0x20) (units : JsString) :
    readUnits (.string units) [unit] = some (.string (unit :: units), []) := by
  simp [readUnits, readUnit, noQuote, noBackslash, visible]

/-- Half of a pair stands for itself. -/
theorem readUnits_surrogate {unit : UInt16} (above : 0xD800 ≤ unit.toNat) (units : JsString) :
    readUnits (.string units) [unit] = some (.string (unit :: units), []) := by
  refine readUnits_plain ?_ ?_ ?_ units
  · rintro rfl
    simp at above
  · rintro rfl
    simp at above
  · rw [UInt16.lt_iff_toNat_lt]
    simp
    omega

theorem readUnits_quoteUnit (unit : UInt16) (units : JsString) :
    readUnits (.string units) (quoteUnit unit) = some (.string (unit :: units), []) := by
  unfold quoteUnit
  split
  · next isUnit => cases isUnit; rfl
  split
  · next isUnit => cases isUnit; rfl
  split
  · next isUnit => cases isUnit; rfl
  split
  · next isUnit => cases isUnit; rfl
  split
  · next isUnit => cases isUnit; rfl
  split
  · next isUnit => rcases isUnit with rfl | rfl <;> rfl
  split
  · exact readUnits_unicodeEscape unit units
  · next special plain =>
      rcases not_or.mp special with ⟨noQuote, noBackslash⟩
      exact readUnits_plain noQuote noBackslash (not_or.mp plain).1 units

/-- Between the quotation marks, a text is read back. -/
theorem readUnits_quoteUnits (text units : JsString) :
    readUnits (.string units) (quoteUnits text) = some (.string (text.reverse ++ units), []) := by
  induction text using quoteUnits.induct generalizing units with
  | case1 => rfl
  | case2 unit => exact readUnits_quoteUnit unit units
  | case3 unit next rest isPair ih =>
      rcases (Bool.and_eq_true _ _).mp isPair with ⟨isHigh, isLow⟩
      have highRead := readUnits_surrogate (isHighSurrogate_iff.mp isHigh).1 units
      have lowRead := readUnits_surrogate
        ((by decide : 0xD800 ≤ 0xDC00).trans (isLowSurrogate_iff.mp isLow).1) (unit :: units)
      have pairRead : readUnits (.string units) [unit, next] =
          some (.string (next :: unit :: units), []) := readUnits_append highRead lowRead
      have restRead := readUnits_append pairRead (ih (next :: unit :: units))
      rw [quoteUnits, if_pos isPair]
      simpa using restRead
  | case4 unit next rest notPair ih =>
      rw [quoteUnits, if_neg notPair, readUnits_append (readUnits_quoteUnit unit units) (ih _)]
      simp

end Quoting

/-! ## Values are cut into their tokens -/

mutual

/-- The tokens of a value. -/
def tokens : Json → List Token
  | .array items => .openBracket :: tokensItems items ++ [.closeBracket]
  | .object members => .openBrace :: tokensMembers members ++ [.closeBrace]
  | value => [.value value]

def tokensItems : List Json → List Token
  | [] => []
  | item :: items => item.tokens ++ tokensMoreItems items

def tokensMoreItems : List Json → List Token
  | [] => []
  | item :: items => .comma :: item.tokens ++ tokensMoreItems items

def tokensMembers : List (JsString × Json) → List Token
  | [] => []
  | member :: members => tokensMember member ++ tokensMoreMembers members

def tokensMoreMembers : List (JsString × Json) → List Token
  | [] => []
  | member :: members => .comma :: tokensMember member ++ tokensMoreMembers members

def tokensMember : JsString × Json → List Token
  | (name, value) => .value (.string name) :: .colon :: value.tokens

end

section Cutting

/-- A text before which a word is over. -/
def Boundary (text : JsString) : Prop :=
  ∀ unit ∈ text.head?, (structural unit).isSome = true

theorem boundary_nil : Boundary [] :=
  nofun

theorem boundary_cons {unit : UInt16} {token : Token} (isToken : structural unit = some token)
    (rest : JsString) : Boundary (unit :: rest) := by
  rintro _ ⟨⟩
  rw [isToken]
  rfl

theorem boundary_append {text rest : JsString} (boundary : Boundary text)
    (isRest : Boundary rest) : Boundary (text ++ rest) := by
  cases text with
  | nil => exact isRest
  | cons unit text => exact boundary

/-- `JSON.parse` cuts a text into the tokens `ended`, whatever follows it. -/
def CutInto (text : JsString) (ended : List Token) : Prop :=
  ∀ rest, Boundary rest →
    tokensFrom .between (text ++ rest) = (tokensFrom .between rest).map (ended ++ ·)

variable {text more : JsString} {ended later : List Token}

theorem cutInto_nil : CutInto [] [] := by
  intro rest _
  simp

theorem CutInto.append (isFirst : CutInto text ended) (boundary : Boundary more)
    (isSecond : CutInto more later) : CutInto (text ++ more) (ended ++ later) := by
  intro rest isRest
  rw [List.append_assoc, isFirst _ (boundary_append boundary isRest), isSecond rest isRest,
    Option.map_map]
  congr 1
  funext tokens
  exact (List.append_assoc ended later tokens).symm

/-- What is read up to the end of a token is followed by anything. -/
theorem tokensFrom_append {mode middle : Mode} {first : JsString}
    (isFirst : readUnits mode first = some (middle, ended)) (rest : JsString) :
    tokensFrom mode (first ++ rest) = (tokensFrom middle rest).map (ended ++ ·) := by
  induction first generalizing mode ended with
  | nil =>
      cases isFirst
      simp
  | cons unit first ih =>
      rcases Option.bind_eq_some_iff.mp isFirst with ⟨⟨next, now⟩, read, isFirst⟩
      rcases Option.bind_eq_some_iff.mp isFirst with ⟨⟨last, later⟩, isRest, same⟩
      cases same
      simp only [List.cons_append, tokensFrom, read, Option.bind_eq_bind, Option.bind_some,
        ih isRest]
      cases tokensFrom middle rest <;> simp

theorem CutInto.of_readUnits (isFirst : readUnits .between text = some (.between, ended))
    (isSecond : CutInto more later) : CutInto (text ++ more) (ended ++ later) := by
  intro rest isRest
  rw [List.append_assoc, tokensFrom_append isFirst, isSecond rest isRest, Option.map_map]
  congr 1
  funext tokens
  exact (List.append_assoc ended later tokens).symm

/-- A structural character starts a token. -/
theorem startToken_structural {unit : UInt16} {token : Token}
    (isToken : structural unit = some token) : startToken unit = (.between, [token]) := by
  have noQuote : unit ≠ 0x22 := by
    rintro rfl
    cases isToken
  have noBlank : isBlankUnit unit = false := by
    rw [Bool.eq_false_iff]
    intro isBlank
    simp only [isBlankUnit, decide_eq_true_eq, List.mem_cons, List.not_mem_nil, or_false]
      at isBlank
    rcases isBlank with rfl | rfl | rfl | rfl <;> cases isToken
  simp [startToken, noQuote, noBlank, isToken]

theorem CutInto.cons {unit : UInt16} {token : Token} (isToken : structural unit = some token)
    (isRest : CutInto more later) : CutInto (unit :: more) (token :: later) := by
  have read : readUnits .between [unit] = some (.between, [token]) := by
    simp [readUnits, readUnit, startToken_structural isToken]
  exact isRest.of_readUnits read

theorem readUnits_quote (name : JsString) :
    readUnits .between (quote name) = some (.between, [.value (.string name)]) := by
  have opened : readUnits .between [0x22] = some (.string [], []) := rfl
  have closed : readUnits (.string name.reverse) [0x22] =
      some (.between, [.value (.string name.reverse.reverse)]) := rfl
  rw [List.reverse_reverse] at closed
  have middle := readUnits_quoteUnits name []
  rw [List.append_nil] at middle
  exact readUnits_append opened (readUnits_append middle closed)

theorem CutInto.quote_append (name : JsString) (isRest : CutInto more later) :
    CutInto (quote name ++ more) (.value (.string name) :: later) :=
  isRest.of_readUnits (readUnits_quote name)

/-- A word is over where the text is, or before a structural character. -/
theorem cutInto_word {word : JsString} {value : Json}
    (isWord : readUnits .between text = some (.word word, []))
    (isValue : wordValue word.reverse = some value) : CutInto text [.value value] := by
  intro rest isRest
  rw [tokensFrom_append isWord]
  cases rest with
  | nil => simp [tokensFrom, isValue]
  | cons unit rest =>
      rcases Option.isSome_iff_exists.mp (isRest unit rfl) with ⟨token, isToken⟩
      simp only [tokensFrom, readUnit, isToken, Option.isSome_some, or_true, if_true, isValue,
        startToken_structural isToken, Option.bind_eq_bind, Option.pure_def, Option.bind_some]
      cases tokensFrom .between rest <;> rfl

theorem boundary_stringifyMoreItems (items : List Json) : Boundary (stringifyMoreItems items) := by
  cases items with
  | nil => exact boundary_nil
  | cons item items => exact boundary_cons rfl _

theorem boundary_stringifyMoreMembers (members : List (JsString × Json)) :
    Boundary (stringifyMoreMembers members) := by
  cases members with
  | nil => exact boundary_nil
  | cons member members => exact boundary_cons rfl _

mutual

theorem cutInto_stringify {value : Json} (numberless : value.Numberless) :
    CutInto (stringify value) value.tokens := by
  cases value with
  | null => exact cutInto_word rfl rfl
  | bool value => cases value <;> exact cutInto_word rfl rfl
  | number value => cases numberless
  | string text =>
      have cut := cutInto_nil.quote_append text
      rw [List.append_nil] at cut
      exact cut
  | array items =>
      exact ((cutInto_stringifyItems numberless).append (boundary_cons rfl _)
        (cutInto_nil.cons rfl)).cons rfl
  | object members =>
      exact ((cutInto_stringifyMembers numberless).append (boundary_cons rfl _)
        (cutInto_nil.cons rfl)).cons rfl

theorem cutInto_stringifyItems {items : List Json} (numberless : numberlessItems items) :
    CutInto (stringifyItems items) (tokensItems items) := by
  cases items with
  | nil => exact cutInto_nil
  | cons item items =>
      rcases (Bool.and_eq_true _ _).mp numberless with ⟨isItem, areItems⟩
      exact (cutInto_stringify isItem).append (boundary_stringifyMoreItems items)
        (cutInto_stringifyMoreItems areItems)

theorem cutInto_stringifyMoreItems {items : List Json} (numberless : numberlessItems items) :
    CutInto (stringifyMoreItems items) (tokensMoreItems items) := by
  cases items with
  | nil => exact cutInto_nil
  | cons item items =>
      rcases (Bool.and_eq_true _ _).mp numberless with ⟨isItem, areItems⟩
      exact ((cutInto_stringify isItem).append (boundary_stringifyMoreItems items)
        (cutInto_stringifyMoreItems areItems)).cons rfl

theorem cutInto_stringifyMembers {members : List (JsString × Json)}
    (numberless : numberlessMembers members) :
    CutInto (stringifyMembers members) (tokensMembers members) := by
  cases members with
  | nil => exact cutInto_nil
  | cons member members =>
      rcases (Bool.and_eq_true _ _).mp numberless with ⟨isMember, areMembers⟩
      exact (cutInto_stringifyMember isMember).append (boundary_stringifyMoreMembers members)
        (cutInto_stringifyMoreMembers areMembers)

theorem cutInto_stringifyMoreMembers {members : List (JsString × Json)}
    (numberless : numberlessMembers members) :
    CutInto (stringifyMoreMembers members) (tokensMoreMembers members) := by
  cases members with
  | nil => exact cutInto_nil
  | cons member members =>
      rcases (Bool.and_eq_true _ _).mp numberless with ⟨isMember, areMembers⟩
      exact ((cutInto_stringifyMember isMember).append (boundary_stringifyMoreMembers members)
        (cutInto_stringifyMoreMembers areMembers)).cons rfl

theorem cutInto_stringifyMember {member : JsString × Json} (numberless : numberlessMember member) :
    CutInto (stringifyMember member) (tokensMember member) := by
  rcases member with ⟨name, value⟩
  exact ((cutInto_stringify numberless).cons rfl).quote_append name

end

end Cutting

/-! ## Tokens are put together to the value they are of -/

/-- What is expected after a complete value, as the tokens that follow it are read. -/
def readOn (value : Json) (frames : List Frame) (rest : List Token) : Option Json :=
  readTokens (complete value frames).1 (complete value frames).2 rest

/-- Where an array may end at once, a value is read as the first item of it. -/
theorem readTokens_valueOrClose (value : Json) (frames : List Frame) (rest : List Token) :
    readTokens .valueOrClose frames (value.tokens ++ rest) =
      readTokens .value (.array [] :: frames) (value.tokens ++ rest) := by
  cases value <;> rfl

mutual

theorem readTokens_tokens (value : Json) (frames : List Frame) (rest : List Token) :
    readTokens .value frames (value.tokens ++ rest) = readOn value frames rest := by
  cases value with
  | null => rfl
  | bool value => rfl
  | number value => rfl
  | string value => rfl
  | array items =>
      cases items with
      | nil => rfl
      | cons item items =>
          rw [tokens, tokensItems]
          simp only [List.cons_append, List.append_assoc, List.nil_append]
          calc readTokens .valueOrClose frames
                (item.tokens ++ (tokensMoreItems items ++ (Token.closeBracket :: rest)))
              = readOn item (.array [] :: frames)
                  (tokensMoreItems items ++ (Token.closeBracket :: rest)) := by
                rw [readTokens_valueOrClose, readTokens_tokens]
            _ = readOn (.array (item :: items)) frames rest :=
                readTokens_moreItems items [item] frames rest
  | object members =>
      cases members with
      | nil => rfl
      | cons member members =>
          rcases member with ⟨name, value⟩
          rw [tokens, tokensMembers, tokensMember]
          simp only [List.cons_append, List.append_assoc, List.nil_append]
          calc readTokens .value (.object [] name :: frames)
                (value.tokens ++ (tokensMoreMembers members ++ (Token.closeBrace :: rest)))
              = readOn value (.object [] name :: frames)
                  (tokensMoreMembers members ++ (Token.closeBrace :: rest)) :=
                readTokens_tokens ..
            _ = readOn (.object ((name, value) :: members)) frames rest :=
                readTokens_moreMembers members [(name, value)] name frames rest

/-- The items that follow those that are read, in reverse, up to the end of the array. -/
theorem readTokens_moreItems (items read : List Json) (frames : List Frame) (rest : List Token) :
    readTokens (.next (.array read)) frames
      (tokensMoreItems items ++ (Token.closeBracket :: rest)) =
        readOn (.array (read.reverse ++ items)) frames rest := by
  cases items with
  | nil =>
      rw [List.append_nil]
      rfl
  | cons item items =>
      rw [tokensMoreItems]
      simp only [List.cons_append, List.append_assoc]
      calc readTokens .value (.array read :: frames)
            (item.tokens ++ (tokensMoreItems items ++ (Token.closeBracket :: rest)))
          = readTokens (.next (.array (item :: read))) frames
              (tokensMoreItems items ++ (Token.closeBracket :: rest)) := readTokens_tokens ..
        _ = readOn (.array ((item :: read).reverse ++ items)) frames rest :=
            readTokens_moreItems items (item :: read) frames rest
        _ = readOn (.array (read.reverse ++ item :: items)) frames rest := by
            rw [List.reverse_cons, List.append_assoc]
            rfl

/-- The members that follow those that are read, in reverse, up to the end of the object. -/
theorem readTokens_moreMembers (members read : List (JsString × Json)) (key : JsString)
    (frames : List Frame) (rest : List Token) :
    readTokens (.next (.object read key)) frames
      (tokensMoreMembers members ++ (Token.closeBrace :: rest)) =
        readOn (.object (read.reverse ++ members)) frames rest := by
  cases members with
  | nil =>
      rw [List.append_nil]
      rfl
  | cons member members =>
      rcases member with ⟨name, value⟩
      rw [tokensMoreMembers, tokensMember]
      simp only [List.cons_append, List.append_assoc]
      calc readTokens .value (.object read name :: frames)
            (value.tokens ++ (tokensMoreMembers members ++ (Token.closeBrace :: rest)))
          = readTokens (.next (.object ((name, value) :: read) name)) frames
              (tokensMoreMembers members ++ (Token.closeBrace :: rest)) := readTokens_tokens ..
        _ = readOn (.object (((name, value) :: read).reverse ++ members)) frames rest :=
            readTokens_moreMembers members ((name, value) :: read) name frames rest
        _ = readOn (.object (read.reverse ++ (name, value) :: members)) frames rest := by
            rw [List.reverse_cons, List.append_assoc]
            rfl

end

/-- `JSON.parse(JSON.stringify(value))` is the value, unless it holds a number. -/
theorem parse_stringify {value : Json} (numberless : value.Numberless) :
    parse (stringify value) = some value := by
  have cut := cutInto_stringify numberless [] boundary_nil
  rw [List.append_nil] at cut
  have read := readTokens_tokens value [] []
  rw [List.append_nil] at read
  calc parse (stringify value)
      = (some value.tokens).bind (readTokens .value []) := by
        rw [parse, cut]
        simp [tokensFrom]
    _ = some value := read

end Json

end ProcessingCatalog
