import Gridix.Base.JsText
import Mathlib.Algebra.Group.Nat.Defs
import Mathlib.Data.List.DropRight

/-!
# Reading USDC amounts

A token amount is a number of base units, a millionth of a USDC each.
-/

namespace Gridix.Usdc

open List

abbrev Text := List Char

def usdcDecimals : Nat := 6

def scale : Nat := 10 ^ 6

def isSpace (char : Char) : Bool := char.toNat < 0x10000 && Js.isSpace (Js.unit char)

def trim (text : Text) : Text := (text.dropWhile isSpace).rdropWhile isSpace

def padEnd (length : Nat) (text : Text) : Text := text ++ replicate (length - text.length) '0'

/-- The pattern `^\d*\.?\d*$`. -/
def isAmount (text : Text) : Bool :=
  match text.dropWhile Char.isDigit with
  | '.' :: rest => rest.all Char.isDigit
  | rest => rest.isEmpty

def invalid (input : Text) : Text := '"' :: input ++ "\" is not a valid USDC amount.".toList

def tooPrecise : Text := "USDC supports at most 6 decimal places.".toList

def parseUsdc (input : Text) : Except Text Nat :=
  let trimmed := trim input
  if !isAmount trimmed || trimmed = [] || trimmed = ['.'] then .error (invalid input)
  else
    let whole := trimmed.takeWhile (· ≠ '.')
    let frac := (trimmed.dropWhile (· ≠ '.')).tail
    if usdcDecimals < frac.length then .error tooPrecise
    else .ok (Nat.ofDigitChars 10 whole 0 * scale +
      Nat.ofDigitChars 10 (padEnd usdcDecimals frac) 0)

end Gridix.Usdc
