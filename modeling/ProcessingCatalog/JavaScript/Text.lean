import Mathlib.Algebra.Group.Nat.Defs
import Mathlib.Data.List.Basic
import Mathlib.Data.List.DropRight
import Mathlib.Data.List.TakeWhile
import Mathlib.Data.Int.Notation
import Mathlib.Tactic.Common

/-!
# JavaScript strings and dates

A string is a sequence of UTF-16 code units, lone surrogates included, compared
unit by unit. `trim` removes the white space and line terminators of the
language, which reach beyond ASCII. A `Date` is a time value in milliseconds
since the epoch.
-/

namespace ProcessingCatalog

/-- A JavaScript string, by its UTF-16 code units. -/
abbrev JsString := List UInt16

/-- The UTF-16 code units of a Unicode scalar value. -/
def codeUnits (char : Char) : JsString :=
  if char.toNat < 0x10000 then
    [UInt16.ofNat char.toNat]
  else
    [UInt16.ofNat (0xD800 + (char.toNat - 0x10000) / 0x400),
      UInt16.ofNat (0xDC00 + (char.toNat - 0x10000) % 0x400)]

/-- A string literal of the source. -/
def js (literal : String) : JsString :=
  literal.toList.flatMap codeUnits

/-- The white space and line terminators `String.prototype.trim` removes. -/
def isWhiteSpace (unit : UInt16) : Bool :=
  unit ∈ ([0x0009, 0x000A, 0x000B, 0x000C, 0x000D, 0x0020, 0x00A0, 0x1680, 0x2000, 0x2001, 0x2002,
    0x2003, 0x2004, 0x2005, 0x2006, 0x2007, 0x2008, 0x2009, 0x200A, 0x2028, 0x2029, 0x202F, 0x205F,
    0x3000, 0xFEFF] : List UInt16)

def trim (text : JsString) : JsString :=
  ((text.dropWhile isWhiteSpace).reverse.dropWhile isWhiteSpace).reverse

/-- Neither end of a text is white space. -/
def Trimmed (text : JsString) : Prop :=
  (∀ unit ∈ text.head?, isWhiteSpace unit = false) ∧
    ∀ unit ∈ text.getLast?, isWhiteSpace unit = false

theorem trimmed_trim (text : JsString) : Trimmed (trim text) := by
  constructor
  · intro unit isFirst
    have among : trim text <+: text.dropWhile isWhiteSpace :=
      List.rdropWhile_prefix isWhiteSpace _
    rcases among with ⟨after, split⟩
    have kept := List.head?_dropWhile_not isWhiteSpace text
    rw [← split, List.head?_append, isFirst] at kept
    exact kept
  · intro unit isLast
    rw [trim, List.getLast?_reverse] at isLast
    have kept := List.head?_dropWhile_not isWhiteSpace (text.dropWhile isWhiteSpace).reverse
    rw [isLast] at kept
    exact kept

theorem dropWhile_eq_self {text : JsString}
    (visible : ∀ unit ∈ text.head?, isWhiteSpace unit = false) :
    text.dropWhile isWhiteSpace = text := by
  cases text with
  | nil => rfl
  | cons first rest => exact List.dropWhile_cons_of_neg (by simp [visible first rfl])

theorem Trimmed.trim_eq {text : JsString} (trimmed : Trimmed text) : trim text = text := by
  rw [trim, dropWhile_eq_self trimmed.1, dropWhile_eq_self, List.reverse_reverse]
  intro unit isFirst
  rw [List.head?_reverse] at isFirst
  exact trimmed.2 unit isFirst

/-- `trim` takes white space off both ends, and nothing else. -/
theorem exists_around_trim (text : JsString) : ∃ before after : JsString,
    text = before ++ trim text ++ after ∧
      ∀ unit ∈ before ++ after, isWhiteSpace unit = true := by
  refine ⟨text.takeWhile isWhiteSpace, (text.dropWhile isWhiteSpace).rtakeWhile isWhiteSpace,
    ?_, ?_⟩
  · have right : trim text ++ (text.dropWhile isWhiteSpace).rtakeWhile isWhiteSpace =
        text.dropWhile isWhiteSpace := List.rdropWhile_append_rtakeWhile
    rw [List.append_assoc, right, List.takeWhile_append_dropWhile]
  · intro unit unitMem
    rcases List.mem_append.mp unitMem with before | after
    · exact List.mem_takeWhile_imp before
    · exact List.mem_rtakeWhile_imp after

/-- `!text || text.trim().length === 0`. -/
def isBlank (text : JsString) : Bool :=
  text.isEmpty || (trim text).length == 0

/-- A text with a character that is not white space is not blank. -/
theorem isBlank_eq_false_of_mem {text : JsString} {unit : UInt16} (unitMem : unit ∈ text)
    (visible : isWhiteSpace unit = false) : isBlank text = false := by
  have trimmed : trim text ≠ [] := by
    intro nothing
    rcases exists_around_trim text with ⟨before, after, split, space⟩
    rw [nothing, List.append_nil] at split
    have blank := space unit (split ▸ unitMem)
    simp [visible] at blank
  simp [isBlank, List.ne_nil_of_mem unitMem, trimmed]

/-- The decimal digits of a natural number. -/
def decimal (number : ℕ) : JsString :=
  (Nat.toDigits 10 number).flatMap codeUnits

/-- `String(number).padStart(width, '0')`. -/
def padded (width number : ℕ) : JsString :=
  List.replicate (width - (decimal number).length) 0x30 ++ decimal number

/-- A `Date`, by its time value. -/
abbrev Date := ℤ

/-- Year, month and day of a day counted from 1970-01-01, in the proleptic Gregorian calendar. -/
def civilFromDays (days : ℤ) : ℤ × ℕ × ℕ :=
  let shifted := days + 719468
  let era := shifted.fdiv 146097
  let dayOfEra := (shifted - era * 146097).toNat
  let yearOfEra := (dayOfEra - dayOfEra / 1460 + dayOfEra / 36524 - dayOfEra / 146096) / 365
  let dayOfYear := dayOfEra - (365 * yearOfEra + yearOfEra / 4 - yearOfEra / 100)
  let shiftedMonth := (5 * dayOfYear + 2) / 153
  let day := dayOfYear - (153 * shiftedMonth + 2) / 5 + 1
  let month := if shiftedMonth < 10 then shiftedMonth + 3 else shiftedMonth - 9
  (yearOfEra + era * 400 + (if month ≤ 2 then 1 else 0), month, day)

/-- `Date.prototype.toISOString`. A year outside 0 to 9999 has a sign and six digits. -/
def toISOString (date : Date) : JsString :=
  let days := date.fdiv 86400000
  let milliseconds := (date - days * 86400000).toNat
  let (year, month, day) := civilFromDays days
  let yearText :=
    if 0 ≤ year ∧ year ≤ 9999 then padded 4 year.toNat
    else (if year < 0 then js "-" else js "+") ++ padded 6 year.natAbs
  yearText ++ js "-" ++ padded 2 month ++ js "-" ++ padded 2 day ++ js "T" ++
    padded 2 (milliseconds / 3600000) ++ js ":" ++ padded 2 (milliseconds / 60000 % 60) ++ js ":" ++
    padded 2 (milliseconds / 1000 % 60) ++ js "." ++ padded 3 (milliseconds % 1000) ++ js "Z"

example : toISOString 1789953000000 = js "2026-09-21T01:10:00.000Z" := by decide

end ProcessingCatalog
