import Gridix.Base.Json
import Mathlib.Data.Nat.Digits.Lemmas

/-!
# `json.dumps` and `JSON.parse`

Python's encoder with `separators=(",", ":")`, which writes ASCII only, and
what JavaScript reads back from it.
-/

namespace PyJson

open Js

/-- A Python string: code points, surrogates among them. -/
abbrev Text := List (Fin 0x110000)

structure Wellformed (literal : Literal) : Prop where
  whole : ∃ first rest, literal.whole = first :: rest ∧ (first = 0 → rest = [])
  exponent : ∀ exponent ∈ literal.exponent, exponent.2 ≠ []

structure FloatRepr where
  literal : Literal
  wellformed : Wellformed literal

/-- What `json.dumps` takes, without the two infinities and the undefined
number.  A key may occur twice here, which it cannot in a dictionary. -/
inductive Value where
  | none
  | bool (value : Bool)
  | int (value : Int)
  | float (value : FloatRepr)
  | str (value : Text)
  | list (items : List Value)
  | dict (entries : List (Text × Value))

def digitChar (digit : Fin 10) : Char := Char.ofNat (0x30 + digit)

def hexChar (value : Nat) : Char :=
  Char.ofNat (if value < 10 then 0x30 + value else 0x61 + (value - 10))

def unicodeEscape (code : Nat) : List Char :=
  ['\\', 'u', hexChar (code / 4096), hexChar (code / 256 % 16),
    hexChar (code / 16 % 16), hexChar (code % 16)]

/-- `ESCAPE_DCT`: the letters that follow a backslash. -/
def escapeLetters : List (Nat × Char) :=
  [(0x5c, '\\'), (0x22, '"'), (0x08, 'b'), (0x0c, 'f'), (0x0a, 'n'), (0x0d, 'r'), (0x09, 't')]

def escapeCode (code : Nat) : List Char :=
  match escapeLetters.lookup code with
  | some letter => ['\\', letter]
  | none =>
    if 0x20 ≤ code ∧ code ≤ 0x7e then [Char.ofNat code]
    else if code < 0x10000 then unicodeEscape code
    else
      unicodeEscape (0xd800 + (code - 0x10000) / 1024) ++
        unicodeEscape (0xdc00 + (code - 0x10000) % 1024)

def quote (text : Text) : List Char :=
  '"' :: (text.flatMap fun code => escapeCode code.val) ++ ['"']

def writeFraction (fraction : List (Fin 10)) : List Char :=
  if fraction = [] then [] else '.' :: fraction.map digitChar

def writeExponent : Option (Bool × List (Fin 10)) → List Char
  | .none => []
  | some (negative, digits) =>
    'e' :: (if negative then '-' else '+') :: digits.map digitChar

def writeLiteral (literal : Literal) : List Char := (if literal.negative then ['-'] else []) ++
    (literal.whole.map digitChar ++ (writeFraction literal.fraction ++
      writeExponent literal.exponent))

def decimal (value : Nat) : List (Fin 10) :=
  if value = 0 then [0]
  else ((Nat.digits 10 value).map (Fin.ofNat 10)).reverse

def intLiteral (value : Int) : Literal := ⟨decide (value < 0), decimal value.natAbs, [], .none⟩

mutual

/-- `json.dumps(value, separators=(",", ":"))`. -/
def dumps : Value → List Char
  | .none => "null".toList
  | .bool true => "true".toList
  | .bool false => "false".toList
  | .int value => writeLiteral (intLiteral value)
  | .float value => writeLiteral value.literal
  | .str value => quote value
  | .list items => '[' :: dumpsItems items ++ [']']
  | .dict entries => '{' :: dumpsEntries entries ++ ['}']

def dumpsItems : List Value → List Char
  | [] => []
  | item :: rest =>
    dumps item ++ if rest.isEmpty then [] else ',' :: dumpsItems rest

def dumpsEntries : List (Text × Value) → List Char
  | [] => []
  | (key, value) :: rest =>
    quote key ++ ':' :: dumps value ++
      if rest.isEmpty then [] else ',' :: dumpsEntries rest

end

def units (text : Text) : Str := text.flatMap fun code => utf16 code.val

mutual

/-- The JSON value that a Python value stands for. -/
def denote : Value → Json
  | .none => .null
  | .bool value => .bool value
  | .int value => .number (.ofInt value)
  | .float value => .number value.literal.number
  | .str value => .string (units value)
  | .list items => .array (denoteItems items)
  | .dict entries => .object (denoteEntries [] entries)

def denoteItems : List Value → List Json
  | [] => []
  | item :: rest => denote item :: denoteItems rest

def denoteEntries (members : List (Str × Json)) : List (Text × Value) → List (Str × Json)
  | [] => members
  | (key, value) :: rest =>
    denoteEntries (assign members (units key) (denote value)) rest

end

theorem hex?_hexChar {value : Nat} (small : value < 16) :
    hex? (unit (hexChar value)) = some value := by
  have all : ∀ value : Fin 16, hex? (unit (hexChar value)) = some value.val :=
    by decide
  exact all ⟨value, small⟩

theorem backslash_ne_quote : unit '\\' ≠ unit '"' := by
  decide

variable {code : Nat} {letter : Char} {char : UInt16} {rest : Str} {whole : List (Fin 10)}
  {literal : Literal} {items : List Value}

theorem readString_unicodeEscape (small : code < 0x10000) (read rest : Str) :
    readString read (ascii (unicodeEscape code) ++ rest) =
      readString (read ++ [UInt16.ofNat code]) rest := by
  have digits : hex4? (unit (hexChar (code / 4096)))
      (unit (hexChar (code / 256 % 16))) (unit (hexChar (code / 16 % 16)))
      (unit (hexChar (code % 16))) = some (UInt16.ofNat code) := by
    have value : ((code / 4096 * 16 + code / 256 % 16) * 16 +
        code / 16 % 16) * 16 + code % 16 = code := by
      omega
    rw [hex4?, hex?_hexChar (by omega), hex?_hexChar (by omega),
      hex?_hexChar (by omega), hex?_hexChar (by omega)]
    simp only [Option.bind_eq_bind, Option.bind_some, Option.pure_def, value]
  simp only [unicodeEscape, ascii_cons, ascii_nil, List.cons_append, List.nil_append]
  rw [readString.eq_def]
  simp only [if_neg backslash_ne_quote, if_true, digits]

theorem ofNat_ne_unit (high : code ≤ 0x7e) (absent : escapeLetters.lookup code = none)
    (char : Char) (plain : char.toNat < 0x80) (mem : (char.toNat, char) ∈ escapeLetters) :
    UInt16.ofNat code ≠ unit char := by
  intro same
  have codes := congrArg UInt16.toNat same
  rw [toNat_unit plain, UInt16.toNat_ofNat', Nat.mod_eq_of_lt (by omega)] at codes
  have differs := List.lookup_eq_none_iff.mp absent _ mem
  simp [codes] at differs

theorem mem_escapeLetters (found : escapeLetters.lookup code = some letter) :
    (code, letter) ∈ escapeLetters := by
  obtain ⟨_, _, shape, _⟩ := List.lookup_eq_some_iff.mp found
  rw [shape]
  exact List.mem_append_right _ List.mem_cons_self

theorem readString_escapeCode (bound : code < 0x110000) (read rest : Str) :
    readString read (ascii (escapeCode code) ++ rest) = readString (read ++ utf16 code) rest := by
  unfold escapeCode
  split
  · next letter found =>
      have letters : ∀ entry ∈ escapeLetters, unit entry.2 ≠ unit 'u' ∧
          escaped? (unit entry.2) = some (UInt16.ofNat entry.1) ∧
          entry.1 < 0x10000 :=
        forall_mem (by decide)
      obtain ⟨notUnicode, known, basic⟩ := letters _ (mem_escapeLetters found)
      simp only [ascii_cons, ascii_nil, List.cons_append, List.nil_append]
      rw [readString.eq_def, utf16, if_pos basic]
      simp only [if_neg backslash_ne_quote, if_true, if_neg notUnicode, known]
  · next absent =>
      split_ifs with printable basic
      · obtain ⟨_, high⟩ := printable
        have notQuote := ofNat_ne_unit high absent '"' (by decide) (by decide)
        have notBackslash := ofNat_ne_unit high absent '\\' (by decide) (by decide)
        have units : ∀ code : Fin 0x7f, unit (Char.ofNat code) = UInt16.ofNat code.val := by decide
        have visible : ¬ (UInt16.ofNat code).toNat < 0x20 := by
          rw [UInt16.toNat_ofNat']
          omega
        rw [utf16, if_pos (by omega), ascii_cons, units ⟨code, by omega⟩,
          List.cons_append, readString.eq_def]
        simp only [if_neg notQuote, if_neg notBackslash, if_neg visible]
        rfl
      · rw [utf16, if_pos basic]
        exact readString_unicodeEscape basic read rest
      · rw [utf16, if_neg basic, ascii_append, List.append_assoc,
          readString_unicodeEscape (by omega),
          readString_unicodeEscape (by omega), List.append_assoc]
        rfl

theorem readString_quote (text : Text) (read rest : Str) : readString read
        (ascii (text.flatMap fun code => escapeCode code.val) ++ unit '"' :: rest) =
      some (read ++ units text, rest) := by
  induction text generalizing read with
  | nil =>
    rw [readString.eq_def]
    simp [units]
  | cons code _ ih =>
    rw [List.flatMap_cons, ascii_append, List.append_assoc,
      readString_escapeCode code.isLt, ih, List.append_assoc]
    rfl

theorem digit?_digitChar (digit : Fin 10) : digit? (unit (digitChar digit)) = some digit := by
  revert digit
  decide

def Stops (rest : Str) : Prop := ∀ next ∈ rest.head?, digit? next = none ∧ next ≠ unit '.' ∧
    next ≠ unit 'e' ∧ next ≠ unit 'E'

theorem takeDigits_digits (digits : List (Fin 10))
    (stop : ∀ next ∈ rest.head?, digit? next = none) :
    takeDigits (ascii (digits.map digitChar) ++ rest) = (digits, rest) := by
  induction digits with
  | nil =>
    cases rest with
    | nil => rfl
    | cons next => simp [takeDigits, stop next rfl]
  | cons _ _ ih =>
    rw [List.map_cons, ascii_cons, List.cons_append, takeDigits, digit?_digitChar]
    simp only [ih]

theorem readDigits_digits {digits : List (Fin 10)} (some : digits ≠ [])
    (stop : ∀ next ∈ rest.head?, digit? next = none) :
    readDigits (ascii (digits.map digitChar) ++ rest) = .some (digits, rest) := by
  rw [readDigits, takeDigits_digits digits stop, if_neg some]

theorem readExponent_write {exponent : Option (Bool × List (Fin 10))}
    (wellformed : ∀ written ∈ exponent, written.2 ≠ []) (stop : Stops rest) :
    readExponent (ascii (writeExponent exponent) ++ rest) = some (exponent, rest) := by
  cases exponent with
  | none =>
    cases rest with
    | nil => rfl
    | cons next =>
      obtain ⟨_, _, notSmall, notLarge⟩ := stop next rfl
      simp [writeExponent, readExponent, notSmall, notLarge]
  | some written =>
    obtain ⟨negative, digits⟩ := written
    have sign : readSign (unit (if negative then '-' else '+') ::
        (ascii (digits.map digitChar) ++ rest)) =
          (negative, ascii (digits.map digitChar) ++ rest) := by
      cases negative with
      | false =>
        have notMinus : unit '+' ≠ unit '-' := by decide
        simp [readSign, notMinus]
      | true => simp [readSign]
    have read := readDigits_digits (wellformed _ rfl) fun next first => (stop next first).1
    simp only [writeExponent, ascii_cons, List.cons_append, readExponent, sign]
    rw [read]
    rfl

theorem readFraction_write (fraction : List (Fin 10))
    (stop : ∀ next ∈ rest.head?, digit? next = none ∧ next ≠ unit '.') :
    readFraction (ascii (writeFraction fraction) ++ rest) = some (fraction, rest) := by
  unfold writeFraction
  split_ifs with none
  · subst none
    cases rest with
    | nil => rfl
    | cons next => exact if_neg (stop next rfl).2
  · rw [ascii_cons, List.cons_append, readFraction]
    exact readDigits_digits none fun next first => (stop next first).1

theorem writeFraction_head (fraction : List (Fin 10))
    (stop : ∀ next ∈ rest.head?, digit? next = none) :
    ∀ next ∈ (ascii (writeFraction fraction) ++ rest).head?, digit? next = none := by
  unfold writeFraction
  split_ifs
  · exact stop
  · intro _ first
    obtain rfl := Option.some.inj first
    decide

theorem readWhole_write (wellformed : ∃ first rest, whole = first :: rest ∧ (first = 0 → rest = []))
    (stop : ∀ next ∈ rest.head?, digit? next = none) :
    readWhole (ascii (whole.map digitChar) ++ rest) = some (whole, rest) := by
  obtain ⟨_, others, rfl, alone⟩ := wellformed
  rw [List.map_cons, ascii_cons, List.cons_append, readWhole, digit?_digitChar]
  simp only [takeDigits_digits others stop]
  split_ifs with zero
  · rw [alone zero, zero]
    rfl
  · rfl

theorem readMinus_write (negative : Bool) (nonempty : whole ≠ []) (rest : Str) :
    readMinus (ascii (if negative then ['-'] else []) ++ (ascii (whole.map digitChar) ++ rest)) =
      (negative, ascii (whole.map digitChar) ++ rest) := by
  cases negative with
  | true => simp [readMinus]
  | false =>
    obtain ⟨first, _, rfl⟩ := List.exists_cons_of_ne_nil nonempty
    have notMinus : ∀ digit : Fin 10, unit (digitChar digit) ≠ unit '-' := by decide
    exact if_neg (notMinus first)

theorem readNumber_write (wellformed : Wellformed literal) (stop : Stops rest) :
    readNumber (ascii (writeLiteral literal) ++ rest) = some (literal, rest) := by
  obtain ⟨negative, whole, fraction, exponent⟩ := literal
  have nonempty : whole ≠ [] := by
    obtain ⟨_, _, shape, _⟩ := wellformed.whole
    exact ne_of_eq_of_ne shape (List.cons_ne_nil _ _)
  have tail : ∀ next ∈ (ascii (writeExponent exponent) ++ rest).head?, digit? next = none ∧ next ≠
      unit '.' := by
    cases exponent with
    | none => exact fun next first => ⟨(stop next first).1, (stop next first).2.1⟩
    | some =>
      intro _ first
      obtain rfl := Option.some.inj first
      decide
  simp only [writeLiteral, ascii_append, List.append_assoc]
  rw [readNumber, readMinus_write negative nonempty, readWhole_write wellformed.whole
      (writeFraction_head fraction fun next first => (tail next first).1)]
  simp only [Option.bind_eq_bind, Option.bind_some]
  rw [readFraction_write fraction tail, Option.bind_some,
    readExponent_write wellformed.exponent stop]
  rfl

theorem digitsValue_decimal (value : Nat) : digitsValue (decimal value) = value := by
  unfold decimal
  split_ifs with zero
  · rw [zero]
    rfl
  · have small : ∀ digit ∈ Nat.digits 10 value, digit < 10 :=
      fun digit mem => Nat.digits_lt_base (by decide) mem
    rw [digitsValue, List.foldl_reverse, List.foldr_map]
    calc (Nat.digits 10 value).foldr
          (fun digit sum => sum * 10 + (Fin.ofNat 10 digit).val) 0
        = (Nat.digits 10 value).foldr (fun digit sum => digit + 10 * sum) 0 :=
          List.foldr_ext _ _ _ fun digit mem sum => by
            rw [Fin.val_ofNat, Nat.mod_eq_of_lt (small digit mem)]
            omega
      _ = Nat.ofDigits 10 (Nat.digits 10 value) := (Nat.ofDigits_eq_foldr 10 _).symm
      _ = value := Nat.ofDigits_digits 10 value

theorem intLiteral_wellformed (value : Int) : Wellformed (intLiteral value) := by
  refine ⟨?_, fun _ absent => absurd absent (Option.not_mem_none _)⟩
  simp only [intLiteral, decimal]
  split_ifs with zero
  · exact ⟨0, [], rfl, fun _ => rfl⟩
  · have nonempty := Nat.digits_ne_nil_iff_ne_zero (b := 10).mpr zero
    have leading := Nat.getLast_digit_ne_zero 10 zero
    have small := Nat.digits_lt_base (b := 10) (by decide) (List.getLast_mem nonempty)
    refine ⟨Fin.ofNat 10 ((Nat.digits 10 value.natAbs).getLast nonempty),
      ((Nat.digits 10 value.natAbs).dropLast.map (Fin.ofNat 10)).reverse,
      ?_, ?_⟩
    · conv_lhs => rw [← List.dropLast_append_getLast nonempty]
      rw [List.map_append, List.reverse_append]
      rfl
    · intro none
      have value := congrArg Fin.val none
      rw [Fin.val_ofNat, Nat.mod_eq_of_lt small] at value
      exact absurd value leading

theorem intLiteral_number (value : Int) : (intLiteral value).number = .ofInt value := by
  have magnitude : (intLiteral value).magnitude = value.natAbs := by
    simp [Literal.magnitude, intLiteral, digitsValue_decimal, Literal.power]
  rw [Literal.number, magnitude]
  rfl

theorem skipSpace_cons {first : UInt16} (visible : isJsonSpace first = false)
    (rest : Str) : skipSpace (first :: rest) = first :: rest :=
  List.dropWhile_cons_of_neg (Bool.eq_false_iff.mp visible)

theorem stops_cons {next : Char} (ends : next ∈ [',', ']', '}'])
    (rest : Str) : Stops (unit next :: rest) := by
  have all : ∀ next ∈ [',', ']', '}'], digit? (unit next) = none ∧
      unit next ≠ unit '.' ∧ unit next ≠ unit 'e' ∧ unit next ≠ unit 'E' :=
    forall_mem (by decide)
  intro unit first
  obtain rfl := Option.some.inj first
  exact all next ends

def numeral : List Char := "-0123456789".toList

theorem writeLiteral_head (wellformed : Wellformed literal) :
    ∃ first rest, writeLiteral literal = first :: rest ∧ first ∈ numeral := by
  obtain ⟨digit, _, shape, _⟩ := wellformed.whole
  have numerals : ∀ digit : Fin 10, digitChar digit ∈ numeral := by decide
  unfold writeLiteral
  split_ifs
  · exact ⟨'-', _, rfl, by decide⟩
  · rw [shape]
    exact ⟨digitChar digit, _, rfl, numerals digit⟩

theorem readValue_number
    (wellformed : Wellformed literal) {fuel : Nat} (enough : 0 < fuel) (stop : Stops rest) :
    readValue fuel (ascii (writeLiteral literal) ++ rest) =
      some (.number literal.number, rest) := by
  obtain ⟨_, rfl⟩ := Nat.exists_eq_add_of_lt enough
  have read := readNumber_write wellformed stop
  obtain ⟨first, _, shape, mem⟩ := writeLiteral_head wellformed
  have others' : ∀ first ∈ numeral, isJsonSpace (unit first) = false ∧
      unit first ≠ unit '"' ∧ unit first ≠ unit '{' ∧
      unit first ≠ unit '[' ∧ unit first ≠ unit 't' ∧
      unit first ≠ unit 'f' ∧ unit first ≠ unit 'n' :=
    forall_mem (by decide)
  obtain ⟨visible, quote, brace, bracket, t, f, n⟩ := others' first mem
  rw [shape, ascii_cons, List.cons_append] at read ⊢
  rw [readValue, skipSpace_cons visible]
  simp only [if_neg quote, if_neg brace, if_neg bracket, if_neg t, if_neg f,
    if_neg n, read, Option.map_some]

theorem dumps_head (value : Value) : ∃ first rest, dumps value = first :: rest ∧
      first ∈ ['n', 't', 'f', '"', '[', '{'] ++ numeral := by
  cases value with
  | none => exact ⟨'n', _, rfl, by decide⟩
  | bool value => cases value <;> exact ⟨_, _, rfl, by decide⟩
  | int value =>
    obtain ⟨first, rest, shape, mem⟩ := writeLiteral_head (intLiteral_wellformed value)
    exact ⟨first, rest, shape, List.mem_append_right _ mem⟩
  | float value =>
    obtain ⟨first, rest, shape, mem⟩ := writeLiteral_head value.wellformed
    exact ⟨first, rest, shape, List.mem_append_right _ mem⟩
  | str => exact ⟨'"', _, rfl, by decide⟩
  | list => exact ⟨'[', _, rfl, by decide⟩
  | dict => exact ⟨'{', _, rfl, by decide⟩

theorem readValue_quote (text : Text) (fuel : Nat) (rest : Str) :
    readValue (fuel + 1) (ascii (quote text) ++ rest) = some (.string (units text), rest) := by
  have visible : isJsonSpace (unit '"') = false := by decide
  have read := readString_quote text [] rest
  simp only [quote, ascii_append, ascii_cons, ascii_nil, List.cons_append, List.append_assoc]
  rw [readValue, skipSpace_cons visible]
  simp only [if_true, read, Option.map_some, List.nil_append]

theorem readValue_bracket {first : UInt16}
    (visible : isJsonSpace first = false) (other : first ≠ unit ']')
    (fuel : Nat) (rest : Str) :
    readValue (fuel + 1) (unit '[' :: first :: rest) = readItems fuel [] (first :: rest) := by
  have shown : isJsonSpace (unit '[') = false := by decide
  have notQuote : unit '[' ≠ unit '"' := by decide
  have notBrace : unit '[' ≠ unit '{' := by decide
  rw [readValue, skipSpace_cons shown]
  simp only [if_neg notQuote, if_neg notBrace, if_true, skipSpace_cons visible, if_neg other]

theorem readValue_brace {first : UInt16}
    (visible : isJsonSpace first = false) (other : first ≠ unit '}')
    (fuel : Nat) (rest : Str) :
    readValue (fuel + 1) (unit '{' :: first :: rest) = readMembers fuel [] (first :: rest) := by
  have shown : isJsonSpace (unit '{') = false := by decide
  have notQuote : unit '{' ≠ unit '"' := by decide
  rw [readValue, skipSpace_cons shown]
  simp only [if_neg notQuote, if_true, skipSpace_cons visible, if_neg other]

section

variable {fuel : Nat} {input tail : Str} {value : Json}

theorem readItems_more (items : List Json)
    (item : readValue fuel input = some (value, unit ',' :: tail)) :
    readItems (fuel + 1) items input = readItems fuel (items ++ [value]) tail := by
  have visible : isJsonSpace (unit ',') = false := by decide
  rw [readItems, item]
  simp only [Option.bind_eq_bind, Option.bind_some, skipSpace_cons visible, if_true]

theorem readItems_last (items : List Json)
    (item : readValue fuel input = some (value, unit ']' :: tail)) :
    readItems (fuel + 1) items input = some (.array (items ++ [value]), tail) := by
  have visible : isJsonSpace (unit ']') = false := by decide
  have notComma : unit ']' ≠ unit ',' := by decide
  rw [readItems, item]
  simp only [Option.bind_eq_bind, Option.bind_some, skipSpace_cons visible,
    if_neg notComma, if_true]

theorem readMembers_next (members : List (Str × Json)) (key : Text)
    {next : UInt16} (visible : isJsonSpace next = false)
    (mem : readValue fuel input = some (value, next :: tail)) :
    readMembers (fuel + 1) members (ascii (quote key) ++ unit ':' :: input) =
      if next = unit ',' then
        readMembers fuel (assign members (units key) value) tail
      else if next = unit '}' then
        some (.object (assign members (units key) value), tail)
      else none := by
  have shown : isJsonSpace (unit '"') = false := by decide
  have colon : isJsonSpace (unit ':') = false := by decide
  have read := readString_quote key [] (unit ':' :: input)
  simp only [quote, ascii_append, ascii_cons, ascii_nil, List.cons_append,
    List.append_assoc, List.nil_append]
  rw [readMembers, skipSpace_cons shown]
  simp only [if_true, read, Option.bind_eq_bind, Option.bind_some,
    skipSpace_cons colon, List.nil_append, mem, skipSpace_cons visible]

end

theorem dumps_list (items : List Value) :
    dumps (.list items) = '[' :: (dumpsItems items ++ [']']) := rfl

theorem dumps_dict (entries : List (Text × Value)) :
    dumps (.dict entries) = '{' :: (dumpsEntries entries ++ ['}']) := rfl

theorem dumpsItems_singleton (item : Value) : dumpsItems [item] = dumps item := List.append_nil _

theorem dumpsItems_cons_cons (item next : Value) (items : List Value) :
    dumpsItems (item :: next :: items) = dumps item ++ ',' :: dumpsItems (next :: items) := rfl

theorem dumpsEntries_singleton (key : Text) (value : Value) :
    dumpsEntries [(key, value)] = quote key ++ ':' :: dumps value := by
  simp [dumpsEntries]

theorem dumpsEntries_cons_cons (key : Text) (value : Value)
    (next : Text × Value) (entries : List (Text × Value)) :
    dumpsEntries ((key, value) :: next :: entries) = quote key ++ ':' :: (dumps value ++ ',' ::
        dumpsEntries (next :: entries)) := by
  rw [dumpsEntries, List.append_assoc]
  rfl

theorem dumpsItems_head (item : Value) (items : List Value) :
    ∃ first rest, dumpsItems (item :: items) = first :: rest ∧
      isJsonSpace (unit first) = false ∧ unit first ≠ unit ']' := by
  obtain ⟨first, rest, shape, mem⟩ := dumps_head item
  have all : ∀ first ∈ ['n', 't', 'f', '"', '[', '{'] ++ numeral,
      isJsonSpace (unit first) = false ∧ unit first ≠ unit ']' :=
    forall_mem (by decide)
  rw [dumpsItems, shape]
  exact ⟨first, _, rfl, all first mem⟩

/-- What is written for the value is read as the value, whatever follows. -/
def ReadsValue (value : Value) : Prop :=
  ∀ (fuel : Nat) (rest : Str), 2 * (dumps value).length ≤ fuel → Stops rest →
    readValue fuel (ascii (dumps value) ++ rest) = some (denote value, rest)

def ReadsItems (items : List Value) : Prop :=
  ∀ (read : List Json) (fuel : Nat) (rest : Str), items ≠ [] →
    2 * (dumpsItems items).length + 1 ≤ fuel →
    readItems fuel read (ascii (dumpsItems items) ++ unit ']' :: rest) =
      some (.array (read ++ denoteItems items), rest)

def ReadsEntries (entries : List (Text × Value)) : Prop :=
  ∀ (members : List (Str × Json)) (fuel : Nat) (rest : Str), entries ≠ [] →
    2 * (dumpsEntries entries).length + 1 ≤ fuel →
    readMembers fuel members (ascii (dumpsEntries entries) ++ unit '}' :: rest) =
      some (.object (denoteEntries members entries), rest)

theorem ReadsValue.of_succ {value : Value}
    (reads : ∀ (fuel : Nat) (rest : Str), 2 * (dumps value).length ≤ fuel + 1 → Stops rest →
      readValue (fuel + 1) (ascii (dumps value) ++ rest) = some (denote value, rest)) :
    ReadsValue value := by
  intro fuel rest enough stop
  cases fuel with
  | succ fuel => exact reads fuel rest enough stop
  | zero =>
    obtain ⟨_, _, shape, _⟩ := dumps_head value
    rw [shape, List.length_cons] at enough
    omega

theorem readsValue_list (inside : ReadsItems items) : ReadsValue (.list items) := by
  refine .of_succ fun fuel rest enough _ => ?_
  cases items with
  | nil => rfl
  | cons item items =>
    simp only [dumps_list, List.length_append, List.length_cons] at enough
    have read := inside [] fuel rest (List.cons_ne_nil _ _) (by omega)
    obtain ⟨_, _, shape, visible, other⟩ := dumpsItems_head item items
    simp only [dumps_list, shape, ascii_append, ascii_cons, ascii_nil,
      List.cons_append, List.append_assoc, List.nil_append] at read ⊢
    rw [readValue_bracket visible other, read]
    rfl

theorem readsValue_dict {entries : List (Text × Value)}
    (inside : ReadsEntries entries) : ReadsValue (.dict entries) := by
  refine .of_succ fun fuel rest enough _ => ?_
  cases entries with
  | nil => rfl
  | cons entry entries =>
    simp only [dumps_dict, List.length_append, List.length_cons] at enough
    have read := inside [] fuel rest (List.cons_ne_nil _ _) (by omega)
    obtain ⟨others, shape⟩ : ∃ rest, dumpsEntries (entry :: entries) = '"' :: rest := ⟨_, rfl⟩
    have visible : isJsonSpace (unit '"') = false := by decide
    have other : unit '"' ≠ unit '}' := by decide
    simp only [dumps_dict, shape, ascii_append, ascii_cons, ascii_nil,
      List.cons_append, List.append_assoc, List.nil_append] at read ⊢
    rw [readValue_brace visible other, read]
    rfl

theorem readsItems_cons {item : Value} (first : ReadsValue item) (others : ReadsItems items) :
    ReadsItems (item :: items) := by
  intro read fuel rest _ enough
  obtain ⟨fuel, rfl⟩ := Nat.exists_eq_succ_of_ne_zero (by omega : fuel ≠ 0)
  cases items with
  | nil =>
    rw [dumpsItems_singleton] at enough ⊢
    exact readItems_last read (first fuel _ (by omega) (stops_cons (by decide) rest))
  | cons =>
    rw [dumpsItems_cons_cons] at enough ⊢
    simp only [List.length_append, List.length_cons] at enough
    rw [ascii_append, List.append_assoc, ascii_cons, List.cons_append, readItems_more read
        (first fuel _ (by omega) (stops_cons (by decide) _)),
      others _ fuel rest (List.cons_ne_nil _ _) (by omega),
      List.append_assoc]
    rfl

theorem readsEntries_cons {key : Text} {value : Value} {entries : List (Text × Value)}
    (first : ReadsValue value) (others : ReadsEntries entries) :
    ReadsEntries ((key, value) :: entries) := by
  intro members fuel rest _ enough
  obtain ⟨fuel, rfl⟩ := Nat.exists_eq_succ_of_ne_zero (by omega : fuel ≠ 0)
  cases entries with
  | nil =>
    rw [dumpsEntries_singleton] at enough ⊢
    simp only [List.length_append, List.length_cons] at enough
    rw [ascii_append, List.append_assoc, ascii_cons, List.cons_append]
    rw [readMembers_next members key (by decide)
      (first fuel _ (by omega) (stops_cons (by decide) rest))]
    rfl
  | cons =>
    rw [dumpsEntries_cons_cons] at enough ⊢
    simp only [List.length_append, List.length_cons] at enough
    rw [ascii_append, List.append_assoc, ascii_cons, List.cons_append,
      ascii_append, List.append_assoc, ascii_cons, List.cons_append,
      readMembers_next members key (by decide) (first fuel _ (by omega) (stops_cons (by decide) _)),
      others _ fuel rest (List.cons_ne_nil _ _) (by omega)]
    rfl

mutual

theorem readsValue : ∀ value : Value, ReadsValue value
  | .none => .of_succ fun _ _ _ _ => rfl
  | .bool true => .of_succ fun _ _ _ _ => rfl
  | .bool false => .of_succ fun _ _ _ _ => rfl
  | .int value => .of_succ fun fuel rest _ stop => by
      rw [denote, ← intLiteral_number]
      exact readValue_number (intLiteral_wellformed value) fuel.succ_pos stop
  | .float value => .of_succ fun fuel _ _ stop =>
    readValue_number value.wellformed fuel.succ_pos stop
  | .str text => .of_succ fun fuel rest _ _ => readValue_quote text fuel rest
  | .list items => readsValue_list (readsItems items)
  | .dict entries => readsValue_dict (readsEntries entries)

theorem readsItems : ∀ items : List Value, ReadsItems items
  | [] => fun _ _ _ nonempty => absurd rfl nonempty
  | item :: items => readsItems_cons (readsValue item) (readsItems items)

theorem readsEntries : ∀ entries : List (Text × Value), ReadsEntries entries
  | [] => fun _ _ _ nonempty => absurd rfl nonempty
  | (_, value) :: entries => readsEntries_cons (readsValue value) (readsEntries entries)

end

theorem parseJson_dumps (value : Value) :
    parseJson (ascii (dumps value)) = some (denote value) := by
  have read := readsValue value (2 * (ascii (dumps value)).length + 1) []
    (by rw [length_ascii]; omega) fun _ absent => absurd absent (Option.not_mem_none _)
  rw [List.append_nil] at read
  rw [parseJson, read]
  rfl

def Printable (text : List Char) : Prop := ∀ char ∈ text, 0x20 ≤ char.toNat ∧ char.toNat ≤ 0x7e

instance (text : List Char) : Decidable (Printable text) := List.decidableBAll
    (fun char : Char => 0x20 ≤ char.toNat ∧ char.toNat ≤ 0x7e) text

namespace Printable

theorem append {left right : List Char} (first : Printable left)
    (second : Printable right) : Printable (left ++ right) :=
  List.forall_mem_append.mpr ⟨first, second⟩

theorem cons {char : Char} {text : List Char} (first : 0x20 ≤ char.toNat ∧ char.toNat ≤ 0x7e)
    (others : Printable text) : Printable (char :: text) :=
  List.forall_mem_cons.mpr ⟨first, others⟩

theorem nil : Printable [] := List.forall_mem_nil _

theorem digits (digits : List (Fin 10)) : Printable (digits.map digitChar) := by
  intro _ mem
  obtain ⟨digit, _, rfl⟩ := List.mem_map.mp mem
  have all : ∀ digit : Fin 10, 0x20 ≤ (digitChar digit).toNat ∧ (digitChar digit).toNat ≤ 0x7e := by
    decide
  exact all digit

theorem unicodeEscape {code : Nat} (small : code < 0x10000) : Printable (unicodeEscape code) := by
  have hex {value : Nat} (small : value < 16) :
      0x20 ≤ (hexChar value).toNat ∧ (hexChar value).toNat ≤ 0x7e := by
    have all : ∀ value : Fin 16, 0x20 ≤ (hexChar value).toNat ∧ (hexChar value).toNat ≤ 0x7e := by
      decide
    exact all ⟨value, small⟩
  exact .cons (by decide) (.cons (by decide) (.cons (hex (by omega))
    (.cons (hex (by omega)) (.cons (hex (by omega)) (.cons (hex (by omega)) .nil)))))

theorem escapeCode {code : Nat} (bound : code < 0x110000) : Printable (escapeCode code) := by
  unfold PyJson.escapeCode
  split
  · next letter found =>
      have letters : ∀ entry ∈ escapeLetters, Printable ['\\', entry.2] := forall_mem (by decide)
      exact letters _ (mem_escapeLetters found)
  · split_ifs with printable basic
    · have all : ∀ code : Fin 0x7f, 0x20 ≤ code.val →
          0x20 ≤ (Char.ofNat code).toNat ∧ (Char.ofNat code).toNat ≤ 0x7e := by
        decide
      exact .cons (all ⟨code, by omega⟩ printable.1) .nil
    · exact unicodeEscape basic
    · exact (unicodeEscape (by omega)).append (unicodeEscape (by omega))

theorem quote (text : Text) : Printable (quote text) := by
  refine .cons (by decide) (.append ?_ (.cons (by decide) .nil))
  intro char mem
  obtain ⟨code, _, inside⟩ := List.mem_flatMap.mp mem
  exact escapeCode code.isLt char inside

theorem writeLiteral (literal : Literal) : Printable (writeLiteral literal) := by
  refine .append ?_ (.append (digits _) (.append ?_ ?_))
  · split_ifs
    · decide
    · exact .nil
  · unfold writeFraction
    split_ifs
    · exact .nil
    · exact .cons (by decide) (digits _)
  · match literal.exponent with
    | none => exact .nil
    | some (true, _) => exact .cons (by decide) (.cons (by decide) (digits _))
    | some (false, _) => exact .cons (by decide) (.cons (by decide) (digits _))

theorem comma {text : List Char} (more : Printable text) (last : Bool) :
    Printable (if last then [] else ',' :: text) := by
  cases last with
  | true => exact .nil
  | false => exact .cons (by decide) more

end Printable

mutual

theorem printable_dumps : ∀ value : Value, Printable (dumps value)
  | .none => by decide
  | .bool true => by decide
  | .bool false => by decide
  | .int _ => .writeLiteral _
  | .float _ => .writeLiteral _
  | .str text => .quote text
  | .list items => .cons (by decide) (.append (printable_dumpsItems items) (.cons (by decide) .nil))
  | .dict entries => .cons (by decide)
      (.append (printable_dumpsEntries entries) (.cons (by decide) .nil))

theorem printable_dumpsItems : ∀ items : List Value, Printable (dumpsItems items)
  | [] => .nil
  | item :: items => (printable_dumps item).append (.comma (printable_dumpsItems items) _)

theorem printable_dumpsEntries : ∀ entries : List (Text × Value), Printable (dumpsEntries entries)
  | [] => .nil
  | (key, value) :: entries =>
    ((Printable.quote key).append (.cons (by decide) (printable_dumps value))).append
        (.comma (printable_dumpsEntries entries) _)

end

end PyJson
