import Gridix.Base.JsText
import Gridix.Base.Rounding

/-!
# JSON in JavaScript

Numbers as doubles, and `JSON.parse`.
-/

namespace Js

inductive Number where
  | nan
  | infinite (negative : Bool)
  | finite (negative : Bool) (magnitude : ℚ)
  deriving DecidableEq

namespace Number

/-- The nearest double, and the even one of two. -/
def round (negative : Bool) (magnitude : ℚ) : Number :=
  let exponent := max (Int.log 2 magnitude - 52) (-1074)
  let rounded : ℚ := Rounding.halfEven (magnitude / 2 ^ exponent) * 2 ^ exponent
  if rounded < 2 ^ 1024 then .finite negative rounded
  else .infinite negative

def ofInt (value : Int) : Number := round (decide (value < 0)) value.natAbs

def isFinite : Number → Bool
  | .finite _ _ => true
  | _ => false

def isNegative : Number → Bool
  | .nan => false
  | .infinite negative => negative
  | .finite negative magnitude => negative && magnitude != 0

def floor : Number → Number
  | .finite false magnitude => .finite false ⌊magnitude⌋
  | .finite true magnitude => .finite true ⌈magnitude⌉
  | value => value

def signed (negative : Bool) (magnitude : ℚ) : ℚ :=
  if negative then -magnitude else magnitude

def add : Number → Number → Number
  | .finite left a, .finite right b =>
    let sum := signed left a + signed right b
    round (if sum = 0 then left && right else decide (sum < 0)) |sum|
  | .infinite left, .infinite right =>
    if left = right then .infinite left else .nan
  | .infinite left, .finite _ _ => .infinite left
  | .finite _ _, .infinite right => .infinite right
  | _, _ => .nan

end Number

/-- A number as JSON writes it; `fraction` is empty without a point, and the
exponent comes with whether it is negative. -/
structure Literal where
  negative : Bool
  whole : List (Fin 10)
  fraction : List (Fin 10)
  exponent : Option (Bool × List (Fin 10))
  deriving DecidableEq

def digitsValue (digits : List (Fin 10)) : Nat :=
  digits.foldl (fun value digit => value * 10 + digit.val) 0

namespace Literal

def power (literal : Literal) : Int :=
  match literal.exponent with
  | none => 0
  | some (true, digits) => -(digitsValue digits)
  | some (false, digits) => digitsValue digits

def magnitude (literal : Literal) : ℚ := digitsValue (literal.whole ++ literal.fraction) *
    10 ^ (literal.power - literal.fraction.length)

def number (literal : Literal) : Number := Number.round literal.negative literal.magnitude

end Literal

inductive Json where
  | null
  | bool (value : Bool)
  | number (value : Number)
  | string (value : Str)
  | array (items : List Json)
  | object (members : List (Str × Json))

def assign (members : List (Str × Json)) (key : Str) (value : Json) : List (Str × Json) :=
  if members.any (·.1 == key) then
    members.map fun member => if member.1 == key then (key, value) else member
  else members ++ [(key, value)]

def get (members : List (Str × Json)) (key : String) : Option Json := members.lookup (lit key)

def isJsonSpace (unit : UInt16) : Bool :=
  unit == 0x20 || unit == 0x09 || unit == 0x0a || unit == 0x0d

def skipSpace (input : Str) : Str := input.dropWhile isJsonSpace

def digit? (unit : UInt16) : Option (Fin 10) :=
  if within : 0x30 ≤ unit.toNat ∧ unit.toNat ≤ 0x39 then
    some ⟨unit.toNat - 0x30, by omega⟩
  else none

def takeDigits : Str → List (Fin 10) × Str
  | [] => ([], [])
  | unit :: rest =>
    match digit? unit with
    | some digit => (digit :: (takeDigits rest).1, (takeDigits rest).2)
    | none => ([], unit :: rest)

instance neZeroTen : NeZero 10 := ⟨by decide⟩

def readWhole : Str → Option (List (Fin 10) × Str)
  | [] => none
  | first :: rest =>
    match digit? first with
    | none => none
    | some digit =>
      if digit = 0 then some ([0], rest)
      else some (digit :: (takeDigits rest).1, (takeDigits rest).2)

def readDigits (input : Str) : Option (List (Fin 10) × Str) :=
  if (takeDigits input).1 = [] then none else some (takeDigits input)

def readFraction : Str → Option (List (Fin 10) × Str)
  | [] => some ([], [])
  | point :: rest =>
    if point = unit '.' then readDigits rest else some ([], point :: rest)

def readSign : Str → Bool × Str
  | [] => (false, [])
  | sign :: rest =>
    if sign = unit '-' then (true, rest)
    else if sign = unit '+' then (false, rest)
    else (false, sign :: rest)

def readExponent : Str → Option (Option (Bool × List (Fin 10)) × Str)
  | [] => some (none, [])
  | mark :: rest =>
    if mark = unit 'e' || mark = unit 'E' then
      (readDigits (readSign rest).2).map fun read =>
        (some ((readSign rest).1, read.1), read.2)
    else some (none, mark :: rest)

def readMinus : Str → Bool × Str
  | [] => (false, [])
  | sign :: rest =>
    if sign = unit '-' then (true, rest) else (false, sign :: rest)

def readNumber (input : Str) : Option (Literal × Str) := do
  let whole ← readWhole (readMinus input).2
  let fraction ← readFraction whole.2
  let exponent ← readExponent fraction.2
  return (⟨(readMinus input).1, whole.1, fraction.1, exponent.1⟩, exponent.2)

def hex? (unit : UInt16) : Option Nat :=
  let code := unit.toNat
  if 0x30 ≤ code ∧ code ≤ 0x39 then some (code - 0x30)
  else if 0x41 ≤ code ∧ code ≤ 0x46 then some (code - 0x41 + 10)
  else if 0x61 ≤ code ∧ code ≤ 0x66 then some (code - 0x61 + 10)
  else none

def hex4? (a b c d : UInt16) : Option UInt16 := do
  let a ← hex? a
  let b ← hex? b
  let c ← hex? c
  let d ← hex? d
  return UInt16.ofNat (((a * 16 + b) * 16 + c) * 16 + d)

def escaped? (letter : UInt16) : Option UInt16 :=
  if letter = unit '"' then some (unit '"')
  else if letter = unit '\\' then some (unit '\\')
  else if letter = unit '/' then some (unit '/')
  else if letter = unit 'b' then some 0x08
  else if letter = unit 'f' then some 0x0c
  else if letter = unit 'n' then some 0x0a
  else if letter = unit 'r' then some 0x0d
  else if letter = unit 't' then some 0x09
  else none

def readString (read : Str) : Str → Option (Str × Str)
  | [] => none
  | first :: rest =>
    if first = unit '"' then some (read, rest)
    else if first = unit '\\' then
      match rest with
      | [] => none
      | letter :: rest =>
        if letter = unit 'u' then
          match rest with
          | a :: b :: c :: d :: rest =>
            match hex4? a b c d with
            | none => none
            | some char => readString (read ++ [char]) rest
          | _ => none
        else
          match escaped? letter with
          | none => none
          | some char => readString (read ++ [char]) rest
    else if first.toNat < 0x20 then none
    else readString (read ++ [first]) rest

def readWord (word : String) (value : Json) (input : Str) : Option (Json × Str) :=
  if startsWith input (lit word) then
    some (value, input.drop (lit word).length)
  else none

mutual

/-- A value and what follows it.  Each call takes one of `fuel`; there are at
most two calls for each unit that is read. -/
def readValue : Nat → Str → Option (Json × Str)
  | 0, _ => none
  | fuel + 1, input =>
    match skipSpace input with
    | [] => none
    | first :: rest =>
      if first = unit '"' then
        (readString [] rest).map fun read => (.string read.1, read.2)
      else if first = unit '{' then
        match skipSpace rest with
        | [] => none
        | next :: after =>
          if next = unit '}' then some (.object [], after)
          else readMembers fuel [] (next :: after)
      else if first = unit '[' then
        match skipSpace rest with
        | [] => none
        | next :: after =>
          if next = unit ']' then some (.array [], after)
          else readItems fuel [] (next :: after)
      else if first = unit 't' then
        readWord "true" (.bool true) (first :: rest)
      else if first = unit 'f' then
        readWord "false" (.bool false) (first :: rest)
      else if first = unit 'n' then
        readWord "null" .null (first :: rest)
      else
        (readNumber (first :: rest)).map fun read =>
          (.number read.1.number, read.2)

def readItems : Nat → List Json → Str → Option (Json × Str)
  | 0, _, _ => none
  | fuel + 1, items, input => do
      let read ← readValue fuel input
      match skipSpace read.2 with
      | [] => none
      | next :: after =>
        if next = unit ',' then readItems fuel (items ++ [read.1]) after
        else if next = unit ']' then
          some (.array (items ++ [read.1]), after)
        else none

def readMembers : Nat → List (Str × Json) → Str → Option (Json × Str)
  | 0, _, _ => none
  | fuel + 1, members, input =>
    match skipSpace input with
    | [] => none
    | first :: rest =>
      if first = unit '"' then do
        let key ← readString [] rest
        match skipSpace key.2 with
        | [] => none
        | colon :: rest =>
          if colon = unit ':' then do
            let read ← readValue fuel rest
            match skipSpace read.2 with
            | [] => none
            | next :: after =>
              if next = unit ',' then
                readMembers fuel (assign members key.1 read.1) after
              else if next = unit '}' then
                some (.object (assign members key.1 read.1), after)
              else none
          else none
      else none

end

/-- `JSON.parse(text)`; `none` is a syntax error. -/
def parseJson (text : Str) : Option Json := do
  let read ← readValue (2 * text.length + 1) text
  if (skipSpace read.2).isEmpty then some read.1 else none

end Js
