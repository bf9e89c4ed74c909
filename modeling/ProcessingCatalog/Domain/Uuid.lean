import ProcessingCatalog.JavaScript.Text
import Mathlib.Data.List.Lex
import Mathlib.Order.Fin.Basic

/-!
# UUIDs and the text PostgreSQL reads as one

A UUID is sixteen bytes, printed in lowercase with hyphens after the bytes 4, 6,
8 and 10, as `randomUUID` and PostgreSQL both print it. PostgreSQL reads more
than it prints: digits of either case, a hyphen after any two bytes or none at
all, and the whole in braces.
-/

namespace ProcessingCatalog

/-- Sixteen bytes, by their hexadecimal digits. -/
structure Uuid where
  digits : List (Fin 16)
  length_digits : digits.length = 32
  deriving DecidableEq

namespace Uuid

/-- The UUID all of whose digits are alike. -/
def repeated (digit : ℕ) : Uuid := ⟨List.replicate 32 (Fin.ofNat 16 digit), List.length_replicate⟩

def hexDigit (digit : Fin 16) : UInt16 :=
  if digit < 10 then UInt16.ofNat (0x30 + digit) else UInt16.ofNat (0x57 + digit)

/-- The value of a hexadecimal digit of either case. -/
def hexValue (unit : UInt16) : Option (Fin 16) :=
  if 0x30 ≤ unit ∧ unit ≤ 0x39 then some (Fin.ofNat 16 (unit.toNat - 0x30))
  else if 0x41 ≤ unit ∧ unit ≤ 0x46 then some (Fin.ofNat 16 (unit.toNat - 0x37))
  else if 0x61 ≤ unit ∧ unit ≤ 0x66 then some (Fin.ofNat 16 (unit.toNat - 0x57))
  else none

def hyphen : UInt16 := 0x2D
def openingBrace : UInt16 := 0x7B
def closingBrace : UInt16 := 0x7D

/-- The last bytes of a UUID, when `remaining` of the sixteen are still to print. -/
def printBytes (remaining : ℕ) : List (Fin 16) → JsString
  | high :: low :: digits =>
      hexDigit high :: hexDigit low ::
        ((if remaining ∈ [13, 11, 9, 7] then [hyphen] else []) ++ printBytes (remaining - 1) digits)
  | _ => []

def text (uuid : Uuid) : JsString :=
  printBytes 16 uuid.digits

theorem length_printBytes_le (remaining : ℕ) (digits : List (Fin 16)) :
    (printBytes remaining digits).length ≤ 2 * digits.length := by
  induction remaining, digits using printBytes.induct with
  | case1 remaining high low digits ih =>
      simp only [printBytes, List.length_cons, List.length_append]
      split <;> simp only [List.length_singleton, List.length_nil] <;> omega
  | case2 remaining digits short =>
      simp [printBytes]

theorem length_text_le (uuid : Uuid) : uuid.text.length ≤ 64 := by
  have units := length_printBytes_le 16 uuid.digits
  rwa [uuid.length_digits] at units

/-- Skip a hyphen between two groups of two bytes. -/
def skipHyphen (remaining : ℕ) (units : JsString) : JsString :=
  match units with
  | unit :: rest => if remaining % 2 = 1 ∧ 1 < remaining ∧ unit = hyphen then rest else units
  | [] => []

/-- Read `remaining` bytes: their digits, and what follows them. -/
def readBytes : ℕ → JsString → Option (List (Fin 16) × JsString)
  | 0, units => some ([], units)
  | remaining + 1, high :: low :: units => do
      let highValue ← hexValue high
      let lowValue ← hexValue low
      let (digits, rest) ← readBytes remaining (skipHyphen (remaining + 1) units)
      return (highValue :: lowValue :: digits, rest)
  | _ + 1, _ => none

/-- The UUID a text denotes to PostgreSQL, if it denotes one. -/
def parse (units : JsString) : Option Uuid := do
  let braced := units.head? = some openingBrace
  let (digits, rest) ← readBytes 16 (if braced then units.tail else units)
  if whole : digits.length = 32 ∧ rest = (if braced then [closingBrace] else []) then
    some ⟨digits, whole.1⟩
  else
    none

theorem hexValue_hexDigit : ∀ digit : Fin 16, hexValue (hexDigit digit) = some digit := by
  decide

theorem hexDigit_ne_hyphen : ∀ digit : Fin 16, hexDigit digit ≠ hyphen := by
  decide

theorem hexDigit_ne_openingBrace : ∀ digit : Fin 16, hexDigit digit ≠ openingBrace := by
  decide

/-- Printed digits do not begin with a hyphen, so none is skipped before them. -/
theorem skipHyphen_printBytes (remaining next : ℕ) (digits : List (Fin 16)) :
    skipHyphen remaining (printBytes next digits) = printBytes next digits := by
  match digits with
  | [] => rfl
  | [_] => rfl
  | high :: low :: digits => simp [printBytes, skipHyphen, hexDigit_ne_hyphen]

theorem readBytes_printBytes (remaining : ℕ) (digits : List (Fin 16))
    (length_digits : digits.length = 2 * remaining) :
    readBytes remaining (printBytes remaining digits) = some (digits, []) := by
  induction remaining generalizing digits with
  | zero =>
      rw [List.length_eq_zero_iff.mp length_digits]
      rfl
  | succ remaining ih =>
      match digits with
      | [] => simp at length_digits
      | [_] => simp at length_digits; omega
      | high :: low :: digits =>
          have shorter : digits.length = 2 * remaining := by
            simp only [List.length_cons] at length_digits
            omega
          have skipped : skipHyphen (remaining + 1)
              ((if remaining + 1 ∈ [13, 11, 9, 7] then [hyphen] else []) ++
                printBytes remaining digits) = printBytes remaining digits := by
            split
            · rename_i hyphenated
              have odd : (remaining + 1) % 2 = 1 ∧ 0 < remaining := by
                simp only [List.mem_cons, List.not_mem_nil, or_false] at hyphenated
                omega
              simp [skipHyphen, odd]
            · exact skipHyphen_printBytes (remaining + 1) remaining digits
          simp only [printBytes, readBytes, hexValue_hexDigit, Nat.add_sub_cancel, skipped,
            ih digits shorter]
          rfl

theorem head?_text_ne (uuid : Uuid) : uuid.text.head? ≠ some openingBrace := by
  obtain ⟨digits, length_digits⟩ := uuid
  match digits with
  | [] => simp at length_digits
  | [_] => simp at length_digits
  | high :: low :: digits => simp [text, printBytes, hexDigit_ne_openingBrace]

/-- PostgreSQL reads back what is printed. -/
@[simp]
theorem parse_text (uuid : Uuid) : parse uuid.text = some uuid := by
  have read : readBytes 16 uuid.text = some (uuid.digits, []) :=
    readBytes_printBytes 16 uuid.digits uuid.length_digits
  simp [parse, head?_text_ne, read, uuid.length_digits]

theorem text_injective : Function.Injective text := by
  intro left right same
  have parsed := congrArg parse same
  simpa using parsed

theorem text_inj {left right : Uuid} : left.text = right.text ↔ left = right :=
  text_injective.eq_iff

theorem hexDigit_lt_hexDigit : ∀ left right : Fin 16,
    hexDigit left < hexDigit right ↔ left < right := by
  decide

theorem hexDigit_injective : Function.Injective hexDigit := by
  intro left right same
  have values := congrArg hexValue same
  simpa [hexValue_hexDigit] using values

theorem printBytes_lt_printBytes (remaining : ℕ) (left right : List (Fin 16))
    (length_left : left.length = 2 * remaining) (length_right : right.length = 2 * remaining) :
    printBytes remaining left < printBytes remaining right ↔ left < right := by
  induction remaining generalizing left right with
  | zero =>
      rw [List.length_eq_zero_iff.mp length_left, List.length_eq_zero_iff.mp length_right]
      simp [printBytes]
  | succ remaining ih =>
      match left, right with
      | [], _ => simp at length_left
      | [_], _ => simp at length_left; omega
      | _, [] => simp at length_right
      | _, [_] => simp at length_right; omega
      | high :: low :: left, high' :: low' :: right =>
          have shorterLeft : left.length = 2 * remaining := by
            simp only [List.length_cons] at length_left
            omega
          have shorterRight : right.length = 2 * remaining := by
            simp only [List.length_cons] at length_right
            omega
          have rest := ih left right shorterLeft shorterRight
          have hyphenated : ∀ hyphens : JsString,
              hyphens ++ printBytes remaining left < hyphens ++ printBytes remaining right ↔
                left < right := by
            intro hyphens
            induction hyphens with
            | nil => exact rest
            | cons unit units ih => simpa [List.cons_lt_cons_iff] using ih
          simp only [printBytes, List.cons_lt_cons_iff, hexDigit_lt_hexDigit,
            hexDigit_injective.eq_iff, Nat.add_sub_cancel, hyphenated]

/-- UUIDs are ordered alike by their bytes and by the code units of their text. -/
theorem text_le_text {left right : Uuid} : left.text ≤ right.text ↔ left.digits ≤ right.digits := by
  rw [← List.not_lt, ← not_lt, text, text, printBytes_lt_printBytes 16 _ _
    right.length_digits left.length_digits]

theorem isWhiteSpace_of_hexValue {unit : UInt16} {value : Fin 16}
    (isDigit : hexValue unit = some value) : isWhiteSpace unit = false := by
  rw [Bool.eq_false_iff]
  intro space
  simp only [isWhiteSpace, decide_eq_true_eq, List.mem_cons, List.not_mem_nil, or_false] at space
  casesm* _ ∨ _ <;> subst space <;> simp [hexValue] at isDigit

/-- What denotes a UUID is not blank. -/
theorem isBlank_of_parse {units : JsString} {uuid : Uuid} (parsed : parse units = some uuid) :
    isBlank units = false := by
  rcases units with _ | ⟨first, rest⟩
  · simp [parse, readBytes] at parsed
  by_cases braced : first = openingBrace
  · exact isBlank_eq_false_of_mem List.mem_cons_self (by rw [braced]; decide)
  · refine isBlank_eq_false_of_mem List.mem_cons_self ?_
    rcases value : hexValue first with _ | digit
    · rcases rest with _ | ⟨second, rest⟩ <;> simp [parse, braced, readBytes, value] at parsed
    · exact isWhiteSpace_of_hexValue value

example : (parse (js "\x7bA0EEBC999C0B-4EF8BB6D6BB9BD380A11\x7d")).map text =
    some (js "a0eebc99-9c0b-4ef8-bb6d-6bb9bd380a11") := by decide

end Uuid

end ProcessingCatalog
