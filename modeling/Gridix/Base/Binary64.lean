import Gridix.Base.Rounding
import Mathlib.Tactic.FieldSimp
import Mathlib.Tactic.NormNum

/-!
# Double precision

A double is the rational it stands for.  Results are rounded to the nearest
double, ties to the even one; nothing here comes near the largest double.
-/

namespace Binary64

/-- The distance between the doubles around a number. -/
def unit (value : ℚ) : ℚ := 2 ^ (Nat.log2 ⌊|value| * 2 ^ 1074⌋₊ - 52) / 2 ^ 1074

def round (value : ℚ) : ℚ := Rounding.halfEven (value / unit value) * unit value

def add (left right : ℚ) : ℚ := round (left + right)

theorem halfEven_intCast (value : ℤ) : Rounding.halfEven (value : ℚ) = value := by
  simp [Rounding.halfEven]

end Binary64
