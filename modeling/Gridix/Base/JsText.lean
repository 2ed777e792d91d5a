import Gridix.Base.Splitting
import Mathlib.Tactic.SplitIfs

/-!
# Strings of JavaScript

A string is a list of UTF-16 code units, not necessarily well formed.
-/

namespace Js

open List

abbrev Str := List UInt16

def unit (char : Char) : UInt16 := UInt16.ofNat char.toNat

def ascii (text : List Char) : Str := text.map unit

def lit (text : String) : Str := ascii text.toList

def utf16 (code : Nat) : Str :=
  if code < 0x10000 then [UInt16.ofNat code]
  else
    [UInt16.ofNat (0xd800 + (code - 0x10000) / 1024),
      UInt16.ofNat (0xdc00 + (code - 0x10000) % 1024)]

def ofScalars (text : List Char) : Str := text.flatMap fun char => utf16 char.toNat

def startsWith (text start : Str) : Bool := start.isPrefixOf text

def isSpace (unit : UInt16) : Bool :=
  let code := unit.toNat
  (0x09 ≤ code && code ≤ 0x0d) || code == 0x20 || code == 0xa0 ||
    code == 0x1680 || (0x2000 ≤ code && code ≤ 0x200a) || code == 0x2028 ||
    code == 0x2029 || code == 0x202f || code == 0x205f || code == 0x3000 ||
    code == 0xfeff

def trim (text : Str) : Str := ((text.dropWhile isSpace).reverse.dropWhile isSpace).reverse

def split (text separator : Str) : List Str := Splitting.split separator text

def join (parts : List Str) (separator : Str) : Str := separator.intercalate parts

@[simp] theorem ascii_nil : ascii [] = [] := rfl

@[simp] theorem ascii_cons (char : Char) (text : List Char) :
    ascii (char :: text) = unit char :: ascii text := rfl

@[simp] theorem ascii_append (left right : List Char) :
    ascii (left ++ right) = ascii left ++ ascii right :=
  map_append

@[simp] theorem length_ascii (text : List Char) : (ascii text).length = text.length := length_map _

theorem forall_mem {α : Type} {property : α → Prop} [DecidablePred property]
    {items : List α} (all : items.all (fun item => property item) = true) :
    ∀ item ∈ items, property item := by
  intro item mem
  exact of_decide_eq_true (all_eq_true.mp all item mem)

variable {char : Char} {text : List Char}

theorem toNat_unit (plain : char.toNat < 0x80) : (unit char).toNat = char.toNat := by
  exact Nat.mod_eq_of_lt (by omega)

theorem ofScalars_ascii (plain : ∀ char ∈ text, char.toNat < 0x80) :
    ofScalars text = ascii text := by
  induction text with
  | nil => rfl
  | cons char _ ih =>
    have small := plain char mem_cons_self
    rw [ofScalars, flatMap_cons, utf16, if_pos (by omega)]
    exact congrArg (unit char :: ·) (ih fun other mem =>
      plain other (mem_cons_of_mem _ mem))

theorem trim_eq_self {text : Str} (first : ∀ unit ∈ text.head?, isSpace unit = false)
    (last : ∀ unit ∈ text.getLast?, isSpace unit = false) :
    trim text = text := by
  have kept (text : Str) (first : ∀ unit ∈ text.head?, isSpace unit = false) :
      text.dropWhile isSpace = text := by
    cases text with
    | nil => rfl
    | cons unit => exact dropWhile_cons_of_neg (Bool.eq_false_iff.mp (first unit rfl))
  rw [trim, kept text first, kept text.reverse, reverse_reverse]
  rw [List.head?_reverse]
  exact last

theorem trim_cons_space {unit : UInt16} (space : isSpace unit = true)
    (text : Str) : trim (unit :: text) = trim text := by
  rw [trim, dropWhile_cons_of_pos space]
  rfl

end Js
