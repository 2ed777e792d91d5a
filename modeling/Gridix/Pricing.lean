import Gridix.Base.Rounding
import Gridix.Ledger
import Mathlib.Tactic.NormNum
import Mathlib.Tactic.Positivity
import Mathlib.Tactic.Ring

/-!
# Prices, fees and quantisation

Decimals that have not been rounded yet are exact rationals in USDC; what is
posted to the ledger has been quantised, to six places on the inference path
and to eight on the job path.
-/

namespace Gridix

/-- The settings the modelled code reads, with the bounds their declarations
enforce.  Floats enter the code through `Decimal(str(...))`. -/
structure Settings where
  protocolFeeBps : Nat
  baseJobPrice : ℚ
  dataPricePerGb : ℚ
  leaseSeconds : Nat
  maxAttempts : Nat
  connectionTimeoutSeconds : Nat
  slashAmount : Nat
  disputeWindowSeconds : Nat
  feeLe : protocolFeeBps ≤ 10000
  basePriceNonneg : 0 ≤ baseJobPrice
  dataPriceNonneg : 0 ≤ dataPricePerGb
  maxAttemptsPos : 1 ≤ maxAttempts

def Settings.default : Settings where
  protocolFeeBps := 250
  baseJobPrice := 1
  dataPricePerGb := 1 / 10
  leaseSeconds := 60
  maxAttempts := 3
  connectionTimeoutSeconds := 30
  slashAmount := 50
  disputeWindowSeconds := 86400
  feeLe := by decide
  basePriceNonneg := by norm_num
  dataPriceNonneg := by norm_num
  maxAttemptsPos := by decide

def toDecimal (units : Int) : ℚ := units / 10 ^ 8

/-- Six decimals, halves rounded up. -/
def quantizeUsdc (amount : ℚ) : Int := 100 * Rounding.halfUp (amount * 10 ^ 6)

def quantizeCent (amount : ℚ) : Int := Rounding.halfUp (amount * 10 ^ 8)

variable {amount : ℚ} {cost : Int}

theorem quantizeUsdc_nonneg (nonneg : 0 ≤ amount) : 0 ≤ quantizeUsdc amount := by
  have rounded : 0 ≤ Rounding.halfUp (amount * 10 ^ 6) := Rounding.halfUp_nonneg (by positivity)
  unfold quantizeUsdc
  omega

theorem quantizeUsdc_mono {smaller larger : ℚ} (le : smaller ≤ larger) :
    quantizeUsdc smaller ≤ quantizeUsdc larger := by
  have rounded : Rounding.halfUp (smaller * 10 ^ 6) ≤ Rounding.halfUp (larger * 10 ^ 6) :=
    Rounding.halfUp_mono (by linarith)
  unfold quantizeUsdc
  omega

@[simp] theorem quantizeUsdc_toDecimal_quantizeUsdc (amount : ℚ) :
    quantizeUsdc (toDecimal (quantizeUsdc amount)) = quantizeUsdc amount := by
  have exact : toDecimal (quantizeUsdc amount) * 10 ^ 6 =
      (Rounding.halfUp (amount * 10 ^ 6) : ℚ) := by
    unfold toDecimal quantizeUsdc
    push_cast
    ring
  calc quantizeUsdc (toDecimal (quantizeUsdc amount))
      = 100 * Rounding.halfUp (toDecimal (quantizeUsdc amount) * 10 ^ 6) := rfl
    _ = 100 * Rounding.halfUp (amount * 10 ^ 6) := by
        rw [exact, Rounding.halfUp_intCast]

theorem dvd_quantizeUsdc (amount : ℚ) : 100 ∣ quantizeUsdc amount := Dvd.intro _ rfl

theorem toDecimal_quantizeUsdc_le (amount : ℚ) :
    toDecimal (quantizeUsdc amount) ≤ amount + 5 / 10 ^ 7 := by
  have rounded := Rounding.halfUp_le_add_half (amount * 10 ^ 6)
  unfold toDecimal quantizeUsdc
  push_cast
  linarith

theorem quantizeCent_nonneg (nonneg : 0 ≤ amount) : 0 ≤ quantizeCent amount :=
  Rounding.halfUp_nonneg (by positivity)

/-- The protocol's share of a charge.  A cost that fits the ledger column
leaves the product within the decimal context, so it is exact. -/
def usageFee (settings : Settings) (cost : Int) : Int :=
  quantizeUsdc (toDecimal cost * settings.protocolFeeBps / 10000)

theorem usageFee_nonneg (settings : Settings) (nonneg : 0 ≤ cost) : 0 ≤ usageFee settings cost := by
  have decimal : 0 ≤ toDecimal cost := by
    unfold toDecimal
    positivity
  exact quantizeUsdc_nonneg (by positivity)

theorem usageFee_le (settings : Settings) (nonneg : 0 ≤ quantizeUsdc amount) :
    usageFee settings (quantizeUsdc amount) ≤ quantizeUsdc amount := by
  have decimal : 0 ≤ toDecimal (quantizeUsdc amount) := by
    unfold toDecimal
    positivity
  have bps : (settings.protocolFeeBps : ℚ) ≤ 10000 := by exact_mod_cast settings.feeLe
  calc usageFee settings (quantizeUsdc amount)
      ≤ quantizeUsdc (toDecimal (quantizeUsdc amount)) := by
        apply quantizeUsdc_mono
        rw [div_le_iff₀ (by norm_num)]
        exact mul_le_mul_of_nonneg_left bps decimal
    _ = quantizeUsdc amount := quantizeUsdc_toDecimal_quantizeUsdc amount

structure ResourceSpec where
  cpuCores : Int
  memoryMb : Int
  gpu : Bool
  gpuVramMb : Int
  deriving DecidableEq, Repr

inductive DataTier where
  | publicTier
  | encryptedAtRest
  | confidentialTee
  deriving DecidableEq, Repr

def decimalDigits : Nat := 28

/-- Cost of a run: cores (with a GPU premium) times minutes, anchored on the
base price.  Each operation rounds to the decimal context. -/
def computeCost (spec : ResourceSpec) (durationSeconds : ℚ) (settings : Settings) : Int :=
  let cpu := max 1 spec.cpuCores
  let minutes := Rounding.significant decimalDigits (max 0 durationSeconds / 60)
  let multiplier : ℚ := if spec.gpu then 4 else 1
  let perCore := Rounding.significant decimalDigits (settings.baseJobPrice * cpu)
  let perMinute := Rounding.significant decimalDigits (perCore * multiplier)
  quantizeCent (Rounding.significant decimalDigits (perMinute * minutes))

def escrowEstimate (spec : ResourceSpec) (timeoutSeconds : Nat) (settings : Settings) : Int :=
  computeCost spec timeoutSeconds settings

/-- The fee that `settle` takes from the cost. -/
def protocolFee (cost : Int) (settings : Settings) : Int :=
  quantizeCent (toDecimal cost * settings.protocolFeeBps / 10000)

def dataCost (numBytes : Int) (settings : Settings) : Int :=
  let gb := Rounding.significant decimalDigits ((max 0 numBytes : Int) / 1000000000)
  quantizeCent (Rounding.significant decimalDigits (gb * settings.dataPricePerGb))

theorem computeCost_nonneg (spec : ResourceSpec) (durationSeconds : ℚ)
    (settings : Settings) : 0 ≤ computeCost spec durationSeconds settings := by
  have cores : (0 : ℚ) ≤ (max 1 spec.cpuCores : Int) := by
    exact_mod_cast le_trans zero_le_one (le_max_left 1 spec.cpuCores)
  have price := settings.basePriceNonneg
  have premium : (0 : ℚ) ≤ if spec.gpu then 4 else 1 := by split <;> norm_num
  apply quantizeCent_nonneg
  apply Rounding.significant_nonneg
  apply mul_nonneg
  · apply Rounding.significant_nonneg
    apply mul_nonneg _ premium
    exact Rounding.significant_nonneg _ (mul_nonneg price cores)
  · apply Rounding.significant_nonneg
    positivity

theorem escrowEstimate_nonneg (spec : ResourceSpec) (timeoutSeconds : Nat) (settings : Settings) :
    0 ≤ escrowEstimate spec timeoutSeconds settings :=
  computeCost_nonneg spec timeoutSeconds settings

theorem protocolFee_nonneg (settings : Settings)
    (nonneg : 0 ≤ cost) : 0 ≤ protocolFee cost settings := by
  have decimal : 0 ≤ toDecimal cost := by
    unfold toDecimal
    positivity
  exact quantizeCent_nonneg (by positivity)

theorem protocolFee_le (settings : Settings)
    (nonneg : 0 ≤ cost) : protocolFee cost settings ≤ cost := by
  have bps : (settings.protocolFeeBps : ℚ) ≤ 10000 := by exact_mod_cast settings.feeLe
  have share : toDecimal cost * settings.protocolFeeBps / 10000 * 10 ^ 8 ≤ (cost : ℚ) := by
    have scaled : toDecimal cost * 10 ^ 8 = cost := by
      unfold toDecimal
      ring
    have costNonneg : (0 : ℚ) ≤ cost := by exact_mod_cast nonneg
    calc toDecimal cost * settings.protocolFeeBps / 10000 * 10 ^ 8
        = cost * (settings.protocolFeeBps / 10000) := by
          rw [← scaled]
          ring
      _ ≤ cost * 1 := by
          apply mul_le_mul_of_nonneg_left _ costNonneg
          rw [div_le_one (by norm_num)]
          exact bps
      _ = cost := mul_one _
  calc protocolFee cost settings
      ≤ Rounding.halfUp (cost : ℚ) := Rounding.halfUp_mono share
    _ = cost := Rounding.halfUp_intCast cost

theorem dataCost_nonneg (numBytes : Int) (settings : Settings) :
    0 ≤ dataCost numBytes settings := by
  have price := settings.dataPriceNonneg
  apply quantizeCent_nonneg
  apply Rounding.significant_nonneg
  apply mul_nonneg _ price
  exact Rounding.significant_nonneg _ (by positivity)

end Gridix
