import Gridix.Base.Rounding
import Mathlib.Tactic.FieldSimp
import Mathlib.Tactic.Positivity
import Mathlib.Tactic.Ring

/-!
# Decimal arithmetic

Decimals are exact rationals.  An operation of a context rounds its result to
a number of significant digits, `quantize` rounds to a number of places, and a
column of a fixed precision rounds to its scale and refuses what does not fit.
-/

namespace DecimalContext

open Rounding List

def HasPlaces (places : Nat) (value : ℚ) : Prop := ∃ ticks : ℤ, value = ticks / 10 ^ places

namespace HasPlaces

variable {places : Nat} {left right : ℚ}

theorem zero (places : Nat) : HasPlaces places 0 := ⟨0, by simp⟩

theorem more {fewer : Nat} (le : fewer ≤ places)
    (written : HasPlaces fewer left) : HasPlaces places left := by
  obtain ⟨ticks, rfl⟩ := written
  refine ⟨ticks * 10 ^ (places - fewer), ?_⟩
  have split : (10 : ℚ) ^ places = 10 ^ fewer * 10 ^ (places - fewer) := by
    rw [← pow_add, Nat.add_sub_cancel' le]
  push_cast
  rw [split]
  field_simp

theorem ofInt (places : Nat) (value : ℤ) : HasPlaces places value :=
  more (Nat.zero_le places) ⟨value, by simp⟩

theorem add (first : HasPlaces places left)
    (second : HasPlaces places right) : HasPlaces places (left + right) := by
  obtain ⟨leftTicks, rfl⟩ := first
  obtain ⟨rightTicks, rfl⟩ := second
  refine ⟨leftTicks + rightTicks, ?_⟩
  push_cast
  ring

theorem sub (first : HasPlaces places left)
    (second : HasPlaces places right) : HasPlaces places (left - right) := by
  obtain ⟨leftTicks, rfl⟩ := first
  obtain ⟨rightTicks, rfl⟩ := second
  refine ⟨leftTicks - rightTicks, ?_⟩
  push_cast
  ring

theorem min (first : HasPlaces places left) (second : HasPlaces places right) :
    HasPlaces places (Min.min left right) := by
  rcases min_choice left right with chosen | chosen <;> rwa [chosen]

theorem list_sum {values : List ℚ} (written : ∀ value ∈ values, HasPlaces places value) :
    HasPlaces places values.sum := by
  induction values with
  | nil => exact .zero places
  | cons value _ ih =>
    apply (written value mem_cons_self).add
    apply ih
    intro other mem
    exact written other (mem_cons_of_mem _ mem)

theorem div_pow (written : HasPlaces places left) (shift : Nat) :
    HasPlaces (places + shift) (left / 10 ^ shift) := by
  obtain ⟨ticks, rfl⟩ := written
  refine ⟨ticks, ?_⟩
  rw [div_div, pow_add]

theorem scaled {exponent : ℤ} (written : HasPlaces places left) (le : (places : ℤ) ≤ exponent) :
    ∃ ticks : ℤ, left * (10 : ℚ) ^ exponent = ticks := by
  obtain ⟨ticks, rfl⟩ := written
  obtain ⟨shift, _⟩ := Int.eq_ofNat_of_zero_le (sub_nonneg.mpr le)
  have split : exponent = (places : ℤ) + (shift : ℤ) := by omega
  refine ⟨ticks * 10 ^ shift, ?_⟩
  rw [split, zpow_add₀ (by norm_num), zpow_natCast, zpow_natCast]
  push_cast
  field_simp

end HasPlaces

theorem halfEven_intCast (value : ℤ) : halfEven (value : ℚ) = value := by
  simp [halfEven]

section

variable {digits places : Nat} {value : ℚ}

theorem significant_of_kept (written : HasPlaces places value)
    (kept : (places : ℤ) ≤ (digits : ℤ) - 1 - Int.log 10 |value|) :
    significant digits value = value := by
  unfold significant
  split_ifs with zero
  · exact zero.symm
  · obtain ⟨_, scaled⟩ := written.scaled kept
    dsimp only
    rw [scaled, halfEven_intCast, ← scaled]
    exact mul_div_cancel_right₀ value (zpow_ne_zero _ (by norm_num))

theorem significant_of_small (written : HasPlaces places value)
    (small : |value| < 10 ^ ((digits : ℤ) - places)) :
    significant digits value = value := by
  by_cases zero : value = 0
  · rw [zero, significant, if_pos rfl]
  · apply significant_of_kept written
    have magnitude : Int.log 10 |value| < (digits : ℤ) - places := by
      rw [← Int.lt_zpow_iff_log_lt (by norm_num) (abs_pos.mpr zero)]
      exact_mod_cast small
    omega

theorem significant_hasPlaces (digits : Nat) (written : HasPlaces places value) :
    HasPlaces places (significant digits value) := by
  rcases le_total (places : ℤ) ((digits : ℤ) - 1 - Int.log 10 |value|)
    with kept | cut
  · rwa [significant_of_kept written kept]
  · -- what is kept ends before the last place
    unfold significant
    split_ifs
    · exact .zero places
    · dsimp only
      generalize (digits : ℤ) - 1 - Int.log 10 |value| = exponent at cut ⊢
      generalize halfEven (value * (10 : ℚ) ^ exponent) = ticks
      obtain ⟨shift, _⟩ := Int.eq_ofNat_of_zero_le (sub_nonneg.mpr cut)
      have split : exponent = (places : ℤ) - (shift : ℤ) := by omega
      refine ⟨ticks * 10 ^ shift, ?_⟩
      rw [split, zpow_sub₀ (by norm_num), zpow_natCast, zpow_natCast]
      push_cast
      field_simp

end

theorem halfEven_neg (value : ℚ) : halfEven (-value) = -halfEven value := by
  by_cases whole : (⌊value⌋ : ℚ) = value
  · rw [← whole, halfEven_intCast, ← Int.cast_neg, halfEven_intCast]
  · have low : (⌊value⌋ : ℚ) < value := lt_of_le_of_ne (Int.floor_le value) whole
    have high := Int.lt_floor_add_one value
    have flipped : ⌊-value⌋ = -⌊value⌋ - 1 := by
      rw [Int.floor_eq_iff]
      push_cast
      constructor <;> linarith
    unfold halfEven
    rw [flipped]
    push_cast
    split_ifs <;> first | omega | (exfalso; linarith)

theorem halfEven_near (value : ℚ) : |(halfEven value : ℚ) - value| ≤ 1 / 2 := by
  have low := Int.floor_le value
  have high := Int.lt_floor_add_one value
  rw [abs_le]
  unfold halfEven
  dsimp only
  split_ifs <;> push_cast <;> constructor <;> linarith

theorem halfEven_mono {smaller larger : ℚ} (le : smaller ≤ larger) :
    halfEven smaller ≤ halfEven larger := by
  have floors : ⌊smaller⌋ ≤ ⌊larger⌋ := Int.floor_le_floor le
  rcases floors.lt_or_eq with _ | same
  · -- a whole number lies between the two
    unfold halfEven
    dsimp only
    split_ifs <;> omega
  · unfold halfEven
    rw [same]
    dsimp only
    split_ifs <;> first | omega | (exfalso; linarith)

section

variable {digits : Nat} {value : ℚ}

theorem significant_neg (digits : Nat) (value : ℚ) :
    significant digits (-value) = -significant digits value := by
  unfold significant
  by_cases zero : value = 0
  · rw [if_pos zero, if_pos (neg_eq_zero.mpr zero), neg_zero]
  · rw [if_neg zero, if_neg (neg_ne_zero.mpr zero), abs_neg]
    dsimp only
    rw [neg_mul, halfEven_neg, Int.cast_neg, neg_div]

theorem significant_within (keeps : 0 < digits) (pos : 0 < value) :
    (10 : ℚ) ^ Int.log 10 value ≤ significant digits value ∧
      significant digits value ≤ (10 : ℚ) ^ (Int.log 10 value + 1) := by
  obtain ⟨others, rfl⟩ := Nat.exists_eq_add_of_lt keeps
  have below := Int.zpow_log_le_self (b := 10) (by norm_num) pos
  have above := Int.lt_zpow_succ_log_self (b := 10) (by norm_num) value
  unfold significant
  rw [if_neg (ne_of_gt pos), abs_of_pos pos]
  generalize Int.log 10 value = magnitude at below above ⊢
  have exponent : ((0 + others + 1 : Nat) : ℤ) - 1 - magnitude = others - magnitude := by
    push_cast
    ring
  rw [exponent]
  have scale : (0 : ℚ) < 10 ^ ((others : ℤ) - magnitude) := zpow_pos (by norm_num) _
  have least : (10 : ℚ) ^ magnitude * 10 ^ ((others : ℤ) - magnitude) =
      ((10 ^ others : ℤ) : ℚ) := by
    rw [← zpow_add₀ (by norm_num), add_sub_cancel]
    norm_num
  have most : (10 : ℚ) ^ (magnitude + 1) * 10 ^ ((others : ℤ) - magnitude) =
      ((10 ^ (others + 1) : ℤ) : ℚ) := by
    rw [zpow_add_one₀ (by norm_num), mul_right_comm, least]
    push_cast
    ring
  constructor
  · rw [le_div_iff₀ scale, least, Int.cast_le, ← halfEven_intCast (10 ^ others), ← least]
    exact halfEven_mono (mul_le_mul_of_nonneg_right below scale.le)
  · rw [div_le_iff₀ scale, most, Int.cast_le, ← halfEven_intCast (10 ^ (others + 1)), ← most]
    exact halfEven_mono (mul_le_mul_of_nonneg_right above.le scale.le)

theorem significant_near (others : Nat) {value : ℚ} (pos : 0 < value) :
    |significant (others + 1) value - value| ≤ value / 10 ^ others := by
  have below := Int.zpow_log_le_self (b := 10) (by norm_num) pos
  unfold significant
  rw [if_neg (ne_of_gt pos), abs_of_pos pos]
  generalize Int.log 10 value = magnitude at below ⊢
  have exponent : ((others + 1 : Nat) : ℤ) - 1 - magnitude = others - magnitude := by
    push_cast
    ring
  rw [exponent]
  have scale : (0 : ℚ) < 10 ^ ((others : ℤ) - magnitude) := zpow_pos (by norm_num) _
  have near := halfEven_near (value * 10 ^ ((others : ℤ) - magnitude))
  have least : (1 : ℚ) ≤ value / 10 ^ others * 10 ^ ((others : ℤ) - magnitude) := by
    rw [zpow_sub₀ (by norm_num), zpow_natCast]
    have : value / 10 ^ others * (10 ^ others / 10 ^ magnitude) = value / 10 ^ magnitude := by
      field_simp
    rw [this, le_div_iff₀ (zpow_pos (by norm_num) _), one_mul]
    exact_mod_cast below
  rw [← mul_le_mul_iff_of_pos_right scale, ← abs_of_pos scale, ← abs_mul, sub_mul, abs_of_pos scale,
    div_mul_cancel₀ _ scale.ne']
  linarith

theorem significant_mono_of_pos {smaller larger : ℚ} (keeps : 0 < digits)
    (pos : 0 < smaller) (le : smaller ≤ larger) :
    significant digits smaller ≤ significant digits larger := by
  have magnitudes := Int.log_mono_right (b := 10) pos le
  rcases magnitudes.lt_or_eq with less | same
  · calc significant digits smaller ≤ 10 ^ (Int.log 10 smaller + 1) :=
          (significant_within keeps pos).2
      _ ≤ 10 ^ Int.log 10 larger := zpow_le_zpow_right₀ (by norm_num) less
      _ ≤ significant digits larger := (significant_within keeps (pos.trans_le le)).1
  · unfold significant
    rw [if_neg (ne_of_gt pos), if_neg (ne_of_gt (pos.trans_le le)),
      abs_of_pos pos, abs_of_pos (pos.trans_le le), same]
    have scale : (0 : ℚ) < 10 ^ ((digits : ℤ) - 1 - Int.log 10 larger) := zpow_pos (by norm_num) _
    apply div_le_div_of_nonneg_right _ scale.le
    exact_mod_cast halfEven_mono (mul_le_mul_of_nonneg_right le scale.le)

theorem significant_mono {smaller larger : ℚ} (keeps : 0 < digits) (le : smaller ≤ larger) :
    significant digits smaller ≤ significant digits larger := by
  rcases lt_or_ge 0 smaller with pos | nonpos
  · exact significant_mono_of_pos keeps pos le
  · rcases lt_or_ge larger 0 with negative | nonneg
    · have flipped := significant_mono_of_pos keeps (neg_pos.mpr negative) (neg_le_neg le)
      rw [significant_neg, significant_neg] at flipped
      exact neg_le_neg_iff.mp flipped
    · have low := significant_nonneg digits (neg_nonneg.mpr nonpos)
      rw [significant_neg] at low
      exact (neg_nonneg.mp low).trans (significant_nonneg digits nonneg)

end

section

variable (digits : Nat)

def add (left right : ℚ) : ℚ := significant digits (left + right)

def sub (left right : ℚ) : ℚ := significant digits (left - right)

def mul (left right : ℚ) : ℚ := significant digits (left * right)

def div (left right : ℚ) : ℚ := significant digits (left / right)

def sum (values : List ℚ) : ℚ := values.foldl (add digits) 0

/-- Round half-up to a number of places.  A result that the context cannot
hold is an invalid operation. -/
def quantize (places : Nat) (value : ℚ) : Option ℚ :=
  let ticks := halfUp (value * 10 ^ places)
  if |ticks| < 10 ^ digits then some (ticks / 10 ^ places) else none

variable {digits}

theorem sum_of_small {places : Nat} {values : List ℚ}
    (written : ∀ value ∈ values, HasPlaces places value)
    (small : (values.map (|·|)).sum < 10 ^ ((digits : ℤ) - places)) :
    sum digits values = values.sum := by
  have run : ∀ start : ℚ, HasPlaces places start →
      |start| + (values.map (|·|)).sum < 10 ^ ((digits : ℤ) - places) →
      values.foldl (add digits) start = start + values.sum := by
    clear small
    induction values with
    | nil => simp
    | cons value rest ih =>
      intro start known bounded
      rw [map_cons, sum_cons] at bounded
      have step : HasPlaces places (start + value) := known.add (written value mem_cons_self)
      have triangle := abs_add_le start value
      have others : 0 ≤ (rest.map (|·|)).sum := by
        apply sum_nonneg
        intro _ mem
        obtain ⟨other, _, rfl⟩ := mem_map.mp mem
        exact abs_nonneg other
      have exact : add digits start value = start + value := significant_of_small step (by linarith)
      rw [foldl_cons, exact, sum_cons, ← add_assoc]
      apply ih
      · intro other mem
        exact written other (mem_cons_of_mem _ mem)
      · exact step
      · linarith
  have total := run 0 (.zero places) (by simpa using small)
  rwa [zero_add] at total

end

structure Numeric (precision scale : Nat) where
  ticks : ℤ
  fits : |ticks| < 10 ^ precision
  deriving DecidableEq, Repr

namespace Numeric

variable {precision scale : Nat}

def value (number : Numeric precision scale) : ℚ := number.ticks / 10 ^ scale

theorem value_hasPlaces (number : Numeric precision scale) : HasPlaces scale number.value :=
  ⟨number.ticks, rfl⟩

/-- Rounded half away from zero to the scale, if the precision suffices. -/
def store (precision scale : Nat) (value : ℚ) : Option (Numeric precision scale) :=
  if fits : |halfUp (value * 10 ^ scale)| < 10 ^ precision then
    some ⟨halfUp (value * 10 ^ scale), fits⟩
  else none

end Numeric

end DecimalContext
