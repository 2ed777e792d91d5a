import Mathlib.Data.Rat.Floor

/-!
# Python values of a decoded JSON document

What `json.loads` can return, and the operations on such values that can
raise: `none` stands for an exception.
-/

namespace Py

inductive Float where
  | finite (value : ℚ)
  | infinite (negative : Bool)
  | nan
  deriving DecidableEq

/-- The Python values that JSON carries. -/
inductive Value where
  | none
  | bool (value : Bool)
  | int (value : Int)
  | float (value : Float)
  | str (value : String)
  | list (items : List Value)
  | dict (entries : List (String × Value))

def storableText (text : String) : Bool := text.toList.all fun char => char.val != 0

def isSpace (char : Char) : Bool :=
  let code := char.toNat
  (9 ≤ code && code ≤ 13) || (28 ≤ code && code ≤ 32) || code == 0x85 ||
    code == 0xa0 || code == 0x1680 || (0x2000 ≤ code && code ≤ 0x200a) ||
    code == 0x2028 || code == 0x2029 || code == 0x202f || code == 0x205f ||
    code == 0x3000

def strip (text : String) : String :=
  String.ofList ((text.toList.dropWhile isSpace).reverse.dropWhile isSpace).reverse

namespace Value

/-- `value.get(key, default)`: an attribute error unless it is a dict. -/
def getD (value : Value) (key : String) (default : Value) : Option Value :=
  match value with
  | .dict entries => some ((entries.lookup key).getD default)
  | _ => Option.none

def get (value : Value) (key : String) : Option Value := value.getD key .none

def truthy : Value → Bool
  | .none => false
  | .bool value => value
  | .int value => value != 0
  | .float (.finite value) => value != 0
  | .float _ => true
  | .str value => value != ""
  | .list items => !items.isEmpty
  | .dict entries => !entries.isEmpty

def orElse (value other : Value) : Value :=
  if value.truthy then value else other

def isDict : Value → Bool
  | .dict _ => true
  | _ => false

/-- `isinstance(value, int | float) and not isinstance(value, bool)`. -/
def isNumber : Value → Bool
  | .int _ => true
  | .float _ => true
  | _ => false

def truncate (value : ℚ) : Int :=
  if 0 ≤ value then ⌊value⌋ else -⌊-value⌋

/-- `int(value)`, where `parse` is the reading of digit strings. -/
def toInt (parse : String → Option Int) : Value → Option Int
  | .bool value => some value.toNat
  | .int value => some value
  | .float (.finite value) => some (truncate value)
  | .float _ => Option.none
  | .str value => parse value
  | _ => Option.none

/-- `value >= bound`: a type error unless it is a number. -/
def geInt (value : Value) (bound : Int) : Option Bool :=
  match value with
  | .bool value => some (decide (bound ≤ value.toNat))
  | .int value => some (decide (bound ≤ value))
  | .float (.finite value) => some (decide ((bound : ℚ) ≤ value))
  | .float (.infinite negative) => some !negative
  | .float .nan => some false
  | _ => Option.none

mutual

/-- A JSONB column takes neither infinite nor undefined numbers, nor the null
character. -/
def storable : Value → Bool
  | .float (.finite _) => true
  | .float _ => false
  | .str value => storableText value
  | .list items => storableItems items
  | .dict entries => storableEntries entries
  | _ => true

def storableItems : List Value → Bool
  | [] => true
  | item :: rest => item.storable && storableItems rest

def storableEntries : List (String × Value) → Bool
  | [] => true
  | (key, item) :: rest =>
    storableText key && item.storable && storableEntries rest

end

theorem storable_lookup {entries : List (String × Value)} {key : String} {value : Value}
    (storable : storableEntries entries = true) (found : entries.lookup key = some value) :
    value.storable = true := by
  induction entries with
  | nil => cases found
  | cons entry rest ih =>
    rw [storableEntries, Bool.and_eq_true, Bool.and_eq_true] at storable
    rw [List.lookup_cons] at found
    split at found
    · cases found
      exact storable.1.2
    · exact ih storable.2 found

end Value

end Py
