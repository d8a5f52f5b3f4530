import CryptoAlert.Lib.Decimal

/-!
# Decoded JSON values

What a decoder returns that takes integers of any size and numbers that are not finite, and how the
language treats such a value as a condition, as an iterable and as a key.
-/

namespace CryptoAlert.Decoded

/-- A decoded number with a fraction or an exponent; a finite one comes with the decimal that
`str` shows. -/
inductive Float where
  | finite (value : ℚ) (text : Decimal)
  | infinite (negative : Bool)
  | nan

/-- The keys of an object are distinct. -/
inductive Value where
  | null
  | bool (b : Bool)
  | int (n : ℤ)
  | float (x : Float)
  | str (s : String)
  | list (items : List Value)
  | dict (fields : List (String × Value))

abbrev Fields := List (String × Value)

namespace Value

def IsInfinite : Value → Prop
  | float (.infinite _) => True
  | _ => False

/-- `bool(value)` -/
def isTruthy : Value → Bool
  | null => false
  | bool b => b
  | int n => n != 0
  | float (.finite value _) => value != 0
  | float _ => true
  | str s => !s.isEmpty
  | list items => !items.isEmpty
  | dict fields => !fields.isEmpty

/-- `str(value)`, with the texts of values that are no texts. -/
def text (shown : Value → String) : Value → List Char
  | str s => s.toList
  | value => (shown value).toList

/-- What a loop over the value runs through; `none` for a `TypeError`. -/
def iterate : Value → Option (List Value)
  | str s => some (s.toList.map fun c => str (String.singleton c))
  | list items => some items
  | dict fields => some (fields.map fun field => str field.1)
  | _ => none

def isHashable : Value → Bool
  | list _ | dict _ => false
  | _ => true

/-- `value == s` -/
def isText (s : String) : Value → Bool
  | str t => t == s
  | _ => false

end Value

/-- `fields.get(key)` -/
def valueAt (fields : Fields) (key : String) : Value := (fields.lookup key).getD .null

end CryptoAlert.Decoded
