import ProcessingCatalog.JavaScript.Text

/-!
# JSON values and their conversion to a string

What `JSON.parse` returns, and `String(value)` on such a value. A number is
held as the shortest decimal digits that identify it, which is what its
conversion prints; an array converts element by element, and each array within
an array takes more of the call stack, so that one nested too deep throws a
`RangeError`. An object converts through its `toString` method, so a member of
that name, which is never a function, leaves no method that returns a primitive
and the conversion throws a `TypeError`. Nothing else throws (`converts_iff`).
-/

namespace ProcessingCatalog

/-- A number, `± 0.d₁d₂…dₖ × 10 ^ exponent` in its shortest digits; zero has none. -/
inductive JsNumber where
  | finite (negative : Bool) (digits : List (Fin 10)) (exponent : ℤ)
  | infinite (negative : Bool)
  deriving DecidableEq

namespace JsNumber

def digitText (digits : List (Fin 10)) : JsString :=
  digits.map fun digit => UInt16.ofNat (0x30 + digit)

/-- The digits of a positive number, laid out by the size of its exponent. -/
def magnitudeText (digits : List (Fin 10)) (exponent : ℤ) : JsString :=
  if digits.length ≤ exponent ∧ exponent ≤ 21 then
    digitText digits ++ List.replicate (exponent.toNat - digits.length) 0x30
  else if 0 < exponent ∧ exponent ≤ 21 then
    digitText (digits.take exponent.toNat) ++ js "." ++ digitText (digits.drop exponent.toNat)
  else if -6 < exponent ∧ exponent ≤ 0 then
    js "0." ++ List.replicate (-exponent).toNat 0x30 ++ digitText digits
  else
    digitText (digits.take 1) ++ (if digits.length = 1 then [] else js "." ++
      digitText (digits.drop 1)) ++ js "e" ++ (if 0 ≤ exponent - 1 then js "+" else js "-") ++
      decimal (exponent - 1).natAbs

/-- `String(number)`. Both zeros print as `0`. -/
def text : JsNumber → JsString
  | .finite _ [] _ => js "0"
  | .finite negative digits exponent =>
      (if negative then js "-" else []) ++ magnitudeText digits exponent
  | .infinite negative => (if negative then js "-" else []) ++ js "Infinity"

end JsNumber

/-- A value `JSON.parse` may return. Of members with one name the last counts. -/
inductive Json where
  | null
  | bool (value : Bool)
  | number (value : JsNumber)
  | string (value : JsString)
  | array (items : List Json)
  | object (members : List (JsString × Json))

namespace Json

def isNull : Json → Bool
  | .null => true
  | _ => false

/-- `typeof value === 'object' && value !== null`. -/
def isObject : Json → Bool
  | .array _ => true
  | .object _ => true
  | _ => false

/-- `value[name]`, when the value has an own member of that name. -/
def member? (value : Json) (name : JsString) : Option Json :=
  match value with
  | .object members => (members.reverse.find? fun entry => entry.1 = name).map (·.2)
  | _ => none

/-- `name in value`, for a name that is on no built-in prototype. -/
def has (value : Json) (name : JsString) : Bool :=
  (value.member? name).isSome

/-- What a conversion to a string throws. -/
inductive ConversionError where
  | typeError
  | rangeError
  deriving DecidableEq

mutual

/-- `String(value)`, on a call stack that has room for arrays nested `stack` deep. -/
def text : ℕ → Json → Except ConversionError JsString
  | _, .null => .ok (js "null")
  | _, .bool true => .ok (js "true")
  | _, .bool false => .ok (js "false")
  | _, .number value => .ok value.text
  | _, .string value => .ok value
  | 0, .array _ => .error .rangeError
  | stack + 1, .array items => joined stack items
  | _, .object members =>
      if members.any fun entry => entry.1 = js "toString" then .error .typeError
      else .ok (js "[object Object]")

/-- `items.join(',')`, where `null` contributes nothing. -/
def joined : ℕ → List Json → Except ConversionError JsString
  | _, [] => .ok []
  | stack, [item] => if item.isNull then .ok [] else item.text stack
  | stack, item :: next :: rest => do
      let head ← if item.isNull then .ok [] else item.text stack
      let tail ← joined stack (next :: rest)
      return head ++ js "," ++ tail

end

mutual

/-- How deep arrays nest in a value. -/
def arrayDepth : Json → ℕ
  | .array items => itemsDepth items + 1
  | _ => 0

def itemsDepth : List Json → ℕ
  | [] => 0
  | item :: items => max item.arrayDepth (itemsDepth items)

end

mutual

/-- A value is an object with a member `toString`, or an array that holds such a value. -/
def hidesToString : Json → Bool
  | .array items => itemsHideToString items
  | .object members => members.any fun entry => entry.1 = js "toString"
  | _ => false

def itemsHideToString : List Json → Bool
  | [] => false
  | item :: items => item.hidesToString || itemsHideToString items

end

/-- A value has a text on this call stack. -/
def Converts (stack : ℕ) (value : Json) : Prop :=
  value.arrayDepth ≤ stack ∧ value.hidesToString = false

instance (stack : ℕ) (value : Json) : Decidable (value.Converts stack) :=
  inferInstanceAs (Decidable (_ ∧ _))

/-- An item contributes to a joined text unless it is `null`. -/
theorem item_converts_iff {stack : ℕ} {item : Json}
    (converts : (∃ text, item.text stack = .ok text) ↔ item.Converts stack) :
    (∃ text, (if item.isNull then .ok [] else item.text stack) = .ok text) ↔
      item.Converts stack := by
  cases isNull : item.isNull with
  | false => simpa using converts
  | true =>
      cases item <;> simp [Json.isNull] at isNull
      simp [Converts, arrayDepth, hidesToString]

theorem append_items_iff {head tail : Except ConversionError JsString} :
    (∃ text, (do
        let head ← head
        let tail ← tail
        return head ++ js "," ++ tail) = Except.ok text) ↔
      (∃ text, head = .ok text) ∧ ∃ text, tail = .ok text := by
  cases head <;> cases tail <;> simp [bind, Except.bind, pure, Except.pure]

mutual

theorem converts_iff (stack : ℕ) (value : Json) :
    (∃ text, value.text stack = .ok text) ↔ value.Converts stack := by
  match stack, value with
  | _, .null => simp [text, Converts, arrayDepth, hidesToString]
  | _, .bool true => simp [text, Converts, arrayDepth, hidesToString]
  | _, .bool false => simp [text, Converts, arrayDepth, hidesToString]
  | _, .number _ => simp [text, Converts, arrayDepth, hidesToString]
  | _, .string _ => simp [text, Converts, arrayDepth, hidesToString]
  | 0, .array _ => simp [text, Converts, arrayDepth]
  | stack + 1, .array items =>
      have joins := joined_iff stack items
      simpa [text, Converts, arrayDepth, hidesToString] using joins
  | _, .object members =>
      cases named : members.any fun entry => entry.1 = js "toString" <;>
        simp [text, Converts, arrayDepth, hidesToString, named]

theorem joined_iff (stack : ℕ) (items : List Json) :
    (∃ text, joined stack items = .ok text) ↔
      itemsDepth items ≤ stack ∧ itemsHideToString items = false := by
  match items with
  | [] => simp [joined, itemsDepth, itemsHideToString]
  | [item] =>
      rw [joined, item_converts_iff (converts_iff stack item)]
      simp [Converts, itemsDepth, itemsHideToString]
  | item :: next :: rest =>
      have contributes := item_converts_iff (converts_iff stack item)
      have split : (∃ text, joined stack (item :: next :: rest) = .ok text) ↔
          item.Converts stack ∧ ∃ text, joined stack (next :: rest) = .ok text := by
        rw [joined, ← contributes, ← append_items_iff]
        cases item.isNull <;> rfl
      change _ ↔ max item.arrayDepth (itemsDepth (next :: rest)) ≤ stack ∧
        (item.hidesToString || itemsHideToString (next :: rest)) = false
      rw [split, joined_iff stack (next :: rest), Nat.max_le, Bool.or_eq_false_iff]
      exact and_and_and_comm

end

end Json

end ProcessingCatalog
