import Mathlib.Algebra.Order.Floor.Ring
import Mathlib.Data.Int.Log
import Mathlib.Data.Rat.Floor
import Mathlib.Tactic.Linarith

/-!
# Decimal rounding

Exact rationals stand for decimal numbers.  A decimal context keeps a fixed
number of significant digits, rounding ties to even; `quantize` to a number
of places rounds ties away from zero.
-/

namespace Rounding

/-- Nearest integer, ties away from zero. -/
def halfUp (value : ℚ) : ℤ :=
  if 0 ≤ value then ⌊value + 1 / 2⌋ else -⌊-value + 1 / 2⌋

/-- Nearest integer, ties to the even neighbour. -/
def halfEven (value : ℚ) : ℤ :=
  let below := ⌊value⌋
  let rest := value - below
  if rest < 1 / 2 then below
  else if 1 / 2 < rest then below + 1
  else if below % 2 = 0 then below
  else below + 1

def significant (digits : Nat) (value : ℚ) : ℚ :=
  if value = 0 then 0
  else
    let exponent : ℤ := (digits : ℤ) - 1 - Int.log 10 |value|
    halfEven (value * (10 : ℚ) ^ exponent) / (10 : ℚ) ^ exponent

theorem halfUp_nonneg {value : ℚ} (nonneg : 0 ≤ value) : 0 ≤ halfUp value := by
  rw [halfUp, if_pos nonneg]
  exact Int.floor_nonneg.mpr (by linarith)

theorem halfEven_nonneg {value : ℚ} (nonneg : 0 ≤ value) : 0 ≤ halfEven value := by
  have floorNonneg : 0 ≤ ⌊value⌋ := Int.floor_nonneg.mpr nonneg
  unfold halfEven
  dsimp only
  split_ifs <;> omega

theorem significant_nonneg (digits : Nat) {value : ℚ} (nonneg : 0 ≤ value) :
    0 ≤ significant digits value := by
  unfold significant
  split_ifs
  · exact le_rfl
  · have scale : (0 : ℚ) ≤ 10 ^ ((digits : ℤ) - 1 - Int.log 10 |value|) :=
      zpow_nonneg (by norm_num) _
    apply div_nonneg _ scale
    exact_mod_cast halfEven_nonneg (mul_nonneg nonneg scale)

theorem halfUp_mono {smaller larger : ℚ} (le : smaller ≤ larger) :
    halfUp smaller ≤ halfUp larger := by
  unfold halfUp
  by_cases smallNonneg : 0 ≤ smaller
  · have largeNonneg : 0 ≤ larger := smallNonneg.trans le
    rw [if_pos smallNonneg, if_pos largeNonneg]
    exact Int.floor_le_floor (by linarith)
  · rw [if_neg smallNonneg]
    have floorNonneg : 0 ≤ ⌊-smaller + 1 / 2⌋ := Int.floor_nonneg.mpr (by linarith)
    by_cases largeNonneg : 0 ≤ larger
    · rw [if_pos largeNonneg]
      have largeFloor : 0 ≤ ⌊larger + 1 / 2⌋ := Int.floor_nonneg.mpr (by linarith)
      omega
    · rw [if_neg largeNonneg]
      have flipped : ⌊-larger + 1 / 2⌋ ≤ ⌊-smaller + 1 / 2⌋ := Int.floor_le_floor (by linarith)
      omega

theorem halfUp_le_add_half (value : ℚ) : (halfUp value : ℚ) ≤ value + 1 / 2 := by
  unfold halfUp
  split
  · exact Int.floor_le _
  · have above := Int.lt_floor_add_one (-value + 1 / 2)
    push_cast
    linarith

theorem halfUp_intCast (value : ℤ) : halfUp (value : ℚ) = value := by
  have half : ∀ number : ℤ, ⌊(number : ℚ) + 1 / 2⌋ = number := by
    intro _
    rw [Int.floor_eq_iff]
    constructor <;> linarith
  unfold halfUp
  split
  · exact half value
  · have negated := half (-value)
    push_cast at negated
    omega

end Rounding
