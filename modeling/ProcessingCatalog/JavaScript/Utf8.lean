import ProcessingCatalog.JavaScript.Text

/-!
# Strings as UTF-8

A string leaves the process as UTF-8: two units that are a surrogate pair are
one character, and a surrogate that is not half of a pair is replaced by
U+FFFD. The bytes a text occupies can be counted from its units: one for each,
one more for each that is not ASCII, and one more for each character from U+0800
to U+FFFF.
-/

namespace ProcessingCatalog

def isHighSurrogate (unit : UInt16) : Bool :=
  0xD800 ≤ unit && unit ≤ 0xDBFF

def isLowSurrogate (unit : UInt16) : Bool :=
  0xDC00 ≤ unit && unit ≤ 0xDFFF

/-- The code point of a unit that is not half of a pair. -/
def loneCodePoint (unit : UInt16) : ℕ :=
  if isHighSurrogate unit || isLowSurrogate unit then 0xFFFD else unit.toNat

def pairedCodePoint (high low : UInt16) : ℕ :=
  0x10000 + (high.toNat - 0xD800) * 0x400 + (low.toNat - 0xDC00)

/-- The code points of the characters of a text. -/
def codePoints : JsString → List ℕ
  | [] => []
  | [unit] => [loneCodePoint unit]
  | unit :: next :: rest =>
      if isHighSurrogate unit && isLowSurrogate next then
        pairedCodePoint unit next :: codePoints rest
      else
        loneCodePoint unit :: codePoints (next :: rest)

/-- A unit that is not half of a pair, as UTF-8 can hold it. -/
def wellFormedUnit (unit : UInt16) : UInt16 :=
  if isHighSurrogate unit || isLowSurrogate unit then 0xFFFD else unit

/-- `text.toWellFormed()`: what is read back of a text that was sent as UTF-8. -/
def toWellFormed : JsString → JsString
  | [] => []
  | [unit] => [wellFormedUnit unit]
  | unit :: next :: rest =>
      if isHighSurrogate unit && isLowSurrogate next then unit :: next :: toWellFormed rest
      else wellFormedUnit unit :: toWellFormed (next :: rest)

/-- `text.isWellFormed()`: each surrogate is half of a pair. -/
def IsWellFormed (text : JsString) : Prop :=
  toWellFormed text = text

instance (text : JsString) : Decidable (IsWellFormed text) :=
  inferInstanceAs (Decidable (_ = _))

/-- The bytes of a character. -/
def utf8Size (codePoint : ℕ) : ℕ :=
  if codePoint < 0x80 then 1
  else if codePoint < 0x800 then 2
  else if codePoint < 0x10000 then 3
  else 4

/-- `Buffer.byteLength(text, 'utf8')`. -/
def utf8Length (text : JsString) : ℕ :=
  ((codePoints text).map utf8Size).foldr (· + ·) 0

/-- The units that are not ASCII. -/
def nonAsciiUnits (text : JsString) : ℕ :=
  text.countP fun unit => 0x80 ≤ unit

/-- The characters of three bytes. -/
def threeByteCharacters (text : JsString) : ℕ :=
  (codePoints text).countP fun codePoint => 0x800 ≤ codePoint && codePoint < 0x10000

section Counting

theorem isHighSurrogate_iff {unit : UInt16} :
    isHighSurrogate unit = true ↔ 0xD800 ≤ unit.toNat ∧ unit.toNat ≤ 0xDBFF := by
  simp [isHighSurrogate, UInt16.le_iff_toNat_le]

theorem isLowSurrogate_iff {unit : UInt16} :
    isLowSurrogate unit = true ↔ 0xDC00 ≤ unit.toNat ∧ unit.toNat ≤ 0xDFFF := by
  simp [isLowSurrogate, UInt16.le_iff_toNat_le]

/-- A unit that is not half of a pair takes one byte, two or three. -/
theorem utf8Size_loneCodePoint (unit : UInt16) :
    utf8Size (loneCodePoint unit) = 1 + (if 0x80 ≤ unit.toNat then 1 else 0) +
      (if 0x800 ≤ loneCodePoint unit ∧ loneCodePoint unit < 0x10000 then 1 else 0) := by
  have below : unit.toNat < 0x10000 := unit.toNat_lt
  unfold loneCodePoint
  split
  · next surrogate =>
      rw [Bool.or_eq_true, isHighSurrogate_iff, isLowSurrogate_iff] at surrogate
      have notAscii : 0x80 ≤ unit.toNat := by omega
      simp [utf8Size, notAscii]
  · simp only [utf8Size]
    split_ifs <;> omega

/-- A surrogate pair takes four bytes. -/
theorem four_le_pairedCodePoint (high low : UInt16) : 0x10000 ≤ pairedCodePoint high low := by
  unfold pairedCodePoint
  omega

theorem utf8Length_cons_of_lone {unit : UInt16} {rest : JsString}
    (lone : codePoints (unit :: rest) = loneCodePoint unit :: codePoints rest)
    (counted : utf8Length rest = rest.length + nonAsciiUnits rest + threeByteCharacters rest) :
    utf8Length (unit :: rest) = (unit :: rest).length + nonAsciiUnits (unit :: rest) +
      threeByteCharacters (unit :: rest) := by
  have size := utf8Size_loneCodePoint unit
  simp only [utf8Length, nonAsciiUnits, threeByteCharacters] at counted ⊢
  simp only [lone, List.map_cons, List.foldr_cons, counted, List.countP_cons, size,
    List.length_cons, decide_eq_true_eq, Bool.and_eq_true, UInt16.le_iff_toNat_le]
  have bound : (0x80 : UInt16).toNat = 0x80 := rfl
  rw [bound]
  omega

/-- The bytes of a text, counted from its units. -/
theorem utf8Length_eq (text : JsString) :
    utf8Length text = text.length + nonAsciiUnits text + threeByteCharacters text := by
  induction text using codePoints.induct with
  | case1 => rfl
  | case2 unit => exact utf8Length_cons_of_lone rfl rfl
  | case3 unit next rest paired ih =>
      have isPair : codePoints (unit :: next :: rest) =
          pairedCodePoint unit next :: codePoints rest := by
        rw [codePoints, if_pos paired]
      have large := four_le_pairedCodePoint unit next
      rw [Bool.and_eq_true, isHighSurrogate_iff, isLowSurrogate_iff] at paired
      have notThree : ¬ pairedCodePoint unit next < 0x10000 := Nat.not_lt.mpr large
      have size : utf8Size (pairedCodePoint unit next) = 4 := by
        simp only [utf8Size]
        split_ifs <;> omega
      have bound : (0x80 : UInt16).toNat = 0x80 := rfl
      have high : 0x80 ≤ unit.toNat := by omega
      have low : 0x80 ≤ next.toNat := by omega
      simp only [utf8Length, nonAsciiUnits, threeByteCharacters] at ih ⊢
      simp only [isPair, List.map_cons, List.foldr_cons, ih, size, List.countP_cons,
        List.length_cons, decide_eq_true_eq, Bool.and_eq_true, UInt16.le_iff_toNat_le, bound, high,
        low, notThree, and_false, if_true, if_false]
      omega
  | case4 unit next rest notPaired ih =>
      exact utf8Length_cons_of_lone (by rw [codePoints, if_neg notPaired]) ih

theorem nonAsciiUnits_le_length (text : JsString) : nonAsciiUnits text ≤ text.length :=
  List.countP_le_length

theorem length_codePoints_le (text : JsString) : (codePoints text).length ≤ text.length := by
  induction text using codePoints.induct with
  | case1 => exact le_rfl
  | case2 unit => exact le_rfl
  | case3 unit next rest paired ih =>
      rw [codePoints, if_pos paired]
      simp only [List.length_cons]
      omega
  | case4 unit next rest notPaired ih =>
      rw [codePoints, if_neg notPaired]
      exact Nat.succ_le_succ ih

theorem threeByteCharacters_le_length (text : JsString) :
    threeByteCharacters text ≤ text.length :=
  List.countP_le_length.trans (length_codePoints_le text)

end Counting

end ProcessingCatalog
