import Gridix.Base.DecimalContext
import Gridix.Chain.Units
import Gridix.Frontend.ParseUsdc
import Gridix.Inference.Unary
import Mathlib.Data.String.Basic

/-!
# Prices that the frontend shows

Before a job is submitted the frontend shows what will be escrowed, and before
a chat request is sent it compares what the request may cost with the balance.
The job estimate is exact.  The chat estimate counts four characters a token,
where the backend holds the price of every byte.
-/

namespace Gridix.Estimates

open DecimalContext Rounding List Usdc

structure CostEstimate where
  computeBase : Int
  feeBase : Int
  totalBase : Int
  deriving DecidableEq, Repr

def basePriceBase : Int := 1000000

def gpuMultiplier : Int := 4

def protocolFeeBps : Int := 250

/-- The arguments are numbers, and `/` on big integers truncates. -/
def estimateCost (cpuCores : ℚ) (gpu : Bool) (timeoutSeconds : ℚ) : CostEstimate :=
  let cpu := max 1 ⌊cpuCores⌋
  let seconds := max 0 ⌊timeoutSeconds⌋
  let mult := if gpu then gpuMultiplier else 1
  let computeBase := (basePriceBase * cpu * mult * seconds).tdiv 60
  let feeBase := (computeBase * protocolFeeBps).tdiv 10000
  ⟨computeBase, feeBase, computeBase + feeBase⟩

theorem significant_natCast {number : Nat} (small : number < 10 ^ 15) :
    significant decimalDigits (number : ℚ) = number := by
  apply significant_of_small (HasPlaces.ofInt 0 number)
  have least : (number : ℚ) < 10 ^ 15 := by exact_mod_cast small
  rw [Int.cast_natCast, Nat.abs_cast]
  exact least.trans (by norm_num [decimalDigits])

theorem half_le_significant {value : ℚ} (pos : 0 < value) :
    value / 2 ≤ significant decimalDigits value := by
  have near := (abs_le.mp (significant_near 27 pos)).1
  change value / 2 ≤ significant (27 + 1) value
  linarith

/-- A price per minute, a whole number, times the minutes of a timeout. -/
def timeoutCost (perMinute : ℚ) (seconds : Nat) : ℚ :=
  significant decimalDigits (perMinute * significant decimalDigits (seconds / 60))

theorem timeoutCost_nonneg (perMinute : ℚ) (seconds : Nat) (nonneg : 0 ≤ perMinute) :
    0 ≤ timeoutCost perMinute seconds :=
  significant_nonneg _ (mul_nonneg nonneg (significant_nonneg _ (by positivity)))

section

variable {cores multiplier seconds : Nat} (someCores : 0 < cores) (someSeconds : 0 < seconds)
  (priced : 0 < multiplier)

include someCores someSeconds priced

theorem bounded_of_fits (fits : timeoutCost (significant decimalDigits
      (significant decimalDigits (cores : ℚ) * multiplier)) seconds * 10 ^ 8 < 10 ^ 20) :
    cores * multiplier * seconds < 10 ^ 15 := by
  have factor : (0 : ℚ) < multiplier := by exact_mod_cast priced
  have perCore : (cores : ℚ) / 2 ≤ significant decimalDigits (cores : ℚ) :=
    half_le_significant (by exact_mod_cast someCores)
  generalize significant decimalDigits (cores : ℚ) = core at perCore fits
  have positive : (0 : ℚ) < cores := by exact_mod_cast someCores
  have perMinute := half_le_significant (mul_pos (by linarith : 0 < core) factor)
  generalize significant decimalDigits (core * multiplier) = minute at perMinute fits
  have elapsed : (0 : ℚ) < seconds := by exact_mod_cast someSeconds
  have minutes := half_le_significant (by linarith : (0 : ℚ) < seconds / 60)
  unfold timeoutCost at fits
  generalize significant decimalDigits ((seconds : ℚ) / 60) = passed at minutes fits
  have low : (cores * multiplier / 4 : ℚ) ≤ minute := by nlinarith
  have least : (cores * multiplier / 4 * (seconds / 120) : ℚ) ≤ minute * passed := by
    apply mul_le_mul low (by linarith) (by positivity)
    exact le_trans (by positivity) low
  have cost := half_le_significant (lt_of_lt_of_le (by positivity) least)
  have product : (cores * multiplier * seconds : ℚ) < 10 ^ 15 := by linarith
  exact_mod_cast product

end

theorem timeoutCost_near {perMinute seconds : Nat} (priced : 0 < perMinute)
    (someSeconds : 0 < seconds) (bounded : perMinute * seconds < 10 ^ 15) :
    |timeoutCost perMinute seconds - perMinute * seconds / 60| ≤ 1 / 10 ^ 10 := by
  have product : (perMinute * seconds : ℚ) < 10 ^ 15 := by exact_mod_cast bounded
  have price : (0 : ℚ) < perMinute := by exact_mod_cast priced
  have elapsed : (0 : ℚ) < seconds := by exact_mod_cast someSeconds
  have minutes := significant_near 27 (by linarith : (0 : ℚ) < seconds / 60)
  have half := half_le_significant (by linarith : (0 : ℚ) < seconds / 60)
  change |significant 28 (perMinute * significant 28 (seconds / 60 : ℚ)) - _| ≤ _
  change _ ≤ significant 28 (seconds / 60 : ℚ) at half
  generalize significant 28 ((seconds : ℚ) / 60) = passed at minutes half ⊢
  have cost := significant_near 27 (mul_pos price (by linarith : 0 < passed))
  have scaled : |perMinute * passed - perMinute * seconds / 60| ≤
      perMinute * seconds / 60 / 10 ^ 27 := by
    have exact : perMinute * passed - perMinute * seconds / 60 =
        perMinute * (passed - seconds / 60) := by ring
    rw [exact, abs_mul, abs_of_pos price]
    calc perMinute * |passed - seconds / 60| ≤ perMinute * (seconds / 60 / 10 ^ 27) :=
          mul_le_mul_of_nonneg_left minutes price.le
      _ = perMinute * seconds / 60 / 10 ^ 27 := by ring
  rw [abs_le] at cost scaled ⊢
  constructor <;> norm_num at cost scaled ⊢ <;> linarith

/-- The escrow ends in thirds of a hundredth of a base unit at most, so
rounding it to hundredths does not reach the next base unit. -/
theorem wholeUnits_of_near {cost : ℚ} {work : Nat} (near : |cost - work / 60| ≤ 1 / 10 ^ 10)
    (nonneg : 0 ≤ cost) :
    wholeUnits 6 (quantizeCent cost) = (1000000 * work / 60 : Nat) := by
  have remainder : 60 * (1000000 * work / 60) ≤ 1000000 * work ∧
      1000000 * work ≤ 60 * (1000000 * work / 60) + 40 := by omega
  generalize 1000000 * work / 60 = base at remainder
  have most : (60 * base : ℚ) ≤ 1000000 * work := by exact_mod_cast remainder.1
  have least : (1000000 * work : ℚ) ≤ 60 * base + 40 := by exact_mod_cast remainder.2
  rw [abs_le] at near
  rw [wholeUnits_eq (by decide), quantizeCent, halfUp, if_pos (by positivity)]
  have low : (100 * base : Int) ≤ ⌊cost * 10 ^ 8 + 1 / 2⌋ := by
    apply Int.le_floor.mpr
    push_cast
    linarith
  have high : ⌊cost * 10 ^ 8 + 1 / 2⌋ < (100 * base + 100 : Int) := by
    apply Int.floor_lt.mpr
    push_cast
    linarith
  generalize ⌊cost * 10 ^ 8 + 1 / 2⌋ = ticks at low high ⊢
  omega

theorem escrowEstimate_eq {spec : ResourceSpec} {cores : Nat} (counted : spec.cpuCores = cores)
    (some : 0 < cores) (seconds : Nat) : escrowEstimate spec seconds Settings.default =
      quantizeCent (timeoutCost (significant decimalDigits (significant decimalDigits (cores : ℚ) *
        (if spec.gpu then 4 else 1 : Nat))) seconds) := by
  have cpu : max 1 spec.cpuCores = cores := by omega
  have elapsed : max 0 (seconds : ℚ) = seconds := max_eq_right (Nat.cast_nonneg seconds)
  unfold escrowEstimate computeCost timeoutCost
  rw [cpu]
  simp [Settings.default]

/-- The estimate of the frontend is the escrow that the backend takes, in base
units. -/
theorem estimate_is_escrow (spec : ResourceSpec) (timeoutSeconds : Nat)
    (counted : 1 ≤ spec.cpuCores)
    (fits : escrowEstimate spec timeoutSeconds Settings.default < 10 ^ 20) :
    toUnits 6 (escrowEstimate spec timeoutSeconds Settings.default) =
      .ok (estimateCost spec.cpuCores spec.gpu timeoutSeconds).computeBase := by
  obtain ⟨cores, cpu⟩ := Int.eq_ofNat_of_zero_le (zero_le_one.trans counted)
  have someCores : 0 < cores := by omega
  have priced : 0 < if spec.gpu then 4 else 1 := by split_ifs <;> decide
  have shown : (estimateCost spec.cpuCores spec.gpu timeoutSeconds).computeBase =
      (1000000 * (cores * (if spec.gpu then 4 else 1) * timeoutSeconds) / 60 : Nat) := by
    have total : max 1 spec.cpuCores = cores := by omega
    have elapsed : max 0 (timeoutSeconds : Int) = timeoutSeconds := by omega
    have premium : (if spec.gpu then gpuMultiplier else 1) = (if spec.gpu then 4 else 1 : Nat) := by
      split_ifs <;> rfl
    rw [estimateCost, Int.floor_intCast, Int.floor_natCast, total, elapsed, premium, basePriceBase]
    rw [Int.tdiv_eq_ediv_of_nonneg (by positivity)]
    push_cast
    ring_nf
  rw [toUnits, if_neg (not_lt.mpr (escrowEstimate_nonneg _ _ _)), shown]
  congr 1
  rw [escrowEstimate_eq cpu someCores] at fits ⊢
  generalize (if spec.gpu then 4 else 1) = multiplier at priced fits ⊢
  refine wholeUnits_of_near ?_ (timeoutCost_nonneg _ _ (significant_nonneg _
    (mul_nonneg (significant_nonneg _ (Nat.cast_nonneg cores)) (Nat.cast_nonneg multiplier))))
  rcases Nat.eq_zero_or_pos timeoutSeconds with rfl | someSeconds
  · simp [timeoutCost, significant]
  · have bounded : cores * multiplier * timeoutSeconds < 10 ^ 15 := by
      apply bounded_of_fits someCores someSeconds priced
      by_contra large
      have rounded := halfUp_mono (not_lt.mp large)
      have whole : halfUp ((10 : ℚ) ^ 20) = 10 ^ 20 := by
        rw [← halfUp_intCast (10 ^ 20), Int.cast_pow, Int.cast_ofNat]
      rw [whole] at rounded
      exact absurd fits (not_lt.mpr rounded)
    have product : cores * multiplier < 10 ^ 15 :=
      (Nat.le_mul_of_pos_right _ someSeconds).trans_lt bounded
    rw [significant_natCast ((Nat.le_mul_of_pos_right _ priced).trans_lt product),
      ← Nat.cast_mul, significant_natCast product, Nat.cast_mul _ timeoutSeconds]
    exact timeoutCost_near (Nat.mul_pos someCores priced) someSeconds bounded

theorem estimate_is_escrow_hour : toUnits 6 (escrowEstimate ⟨2, 1024, true, 0⟩ 3600
    Settings.default) = .ok (estimateCost (2 : Int) true (3600 : Nat)).computeBase :=
  estimate_is_escrow ⟨2, 1024, true, 0⟩ 3600 (by decide) (by decide +kernel)

structure ModelInfo where
  id : String
  inputUsdcPerMtok : Text
  outputUsdcPerMtok : Text

structure ChatEstimate where
  base : Int
  promptTokens : Int
  assumedCompletionTokens : Int

def estimateTokens (text : Js.Str) : Int := max 1 ((text.length + 3) / 4)

def priceToBase (usdc : Text) : Option Int := (parseUsdc usdc).toOption.map Int.ofNat

def divCeil (numerator denominator : Int) : Int :=
  if numerator ≤ 0 then 0 else (numerator + denominator - 1).tdiv denominator

def perMtok : Int := 1000000

/-- The price shown before a chat is sent. -/
def estimateChatCost (model : Option ModelInfo) (messages : List Js.Str) (maxTokens : Int) :
    ChatEstimate :=
  let promptTokens := estimateTokens (Js.join messages (Js.lit " "))
  let inPerMtok := model.bind fun info => priceToBase info.inputUsdcPerMtok
  let outPerMtok := model.bind fun info => priceToBase info.outputUsdcPerMtok
  let numerator := promptTokens * inPerMtok.getD 0 + maxTokens * outPerMtok.getD 0
  ⟨divCeil numerator perMtok, promptTokens, maxTokens⟩

/-- The chat models of the catalogue, as the API shows them. -/
def chatModels : List ModelInfo := [⟨"llama-3.1-8b", "0.05".toList, "0.08".toList⟩,
   ⟨"llama-3.1-70b", "0.40".toList, "0.80".toList⟩,
   ⟨"qwen-2.5-coder-32b", "0.18".toList, "0.30".toList⟩]

def typed (messages : List String) : List Js.Str :=
  messages.map fun content => Js.ofScalars content.toList

def chatRequest (info : ModelInfo) (messages : List String) (maxTokens : Int) : ChatRequest :=
  ⟨info.id, messages, some maxTokens, .publicTier⟩

/-- The bounds of the request schema. -/
def Accepted (messages : List String) : Prop :=
  messages.length ≤ 256 ∧ ∀ content ∈ messages, content.length ≤ 100000

/-- The bytes of the messages in UTF-8. -/
def byteCount (messages : List String) : Nat :=
  (messages.map fun content => content.utf8ByteSize).sum

/-- The code units of the messages in UTF-16 with a space between any two, four
to a token.  A character outside the basic plane has two units. -/
def quarterUnits (messages : List String) : Int :=
  max 1 (((messages.map fun content =>
    content.toList.length + content.toList.countP fun char => 0xffff < char.toNat).sum +
      (messages.length - 1) + 3) / 4 : Nat)

/-- A price in base units. -/
def rateBase (usdc : ℚ) : Int := ⌊usdc * 10 ^ 6⌋

structure Rated (info : ModelInfo) (spec : ModelSpec) (input output : Nat) : Prop where
  listedInput : priceToBase info.inputUsdcPerMtok = some (input : Int)
  listedOutput : priceToBase info.outputUsdcPerMtok = some (output : Int)
  inputRate : spec.inputUsdcPerMtok = input / 10 ^ 6
  outputRate : spec.outputUsdcPerMtok = output / 10 ^ 6
  priced : 0 < input
  inputLe : input ≤ 10 ^ 6
  outputLe : output ≤ 10 ^ 6
  ceiling : spec.maxOutputTokens = 4096

section

variable {info : ModelInfo} {spec : ModelSpec} {messages : List String} {maxTokens : Int}
  {input output : Nat}

theorem exists_rated (listed : info ∈ chatModels) (known : getModel info.id = some spec) :
    ∃ input output, Rated info spec input output := by
  simp only [chatModels, mem_cons, not_mem_nil, or_false] at listed
  rcases listed with rfl | rfl | rfl
  · cases known.symm.trans (rfl : _ = some (ModelSpec.chat "llama-3.1-8b" (5 / 100) (8 / 100)))
    exact ⟨50000, 80000, by decide +kernel, by decide +kernel, by norm_num [ModelSpec.chat],
      by norm_num [ModelSpec.chat], by decide, by decide, by decide, rfl⟩
  · cases known.symm.trans (rfl : _ = some (ModelSpec.chat "llama-3.1-70b" (40 / 100) (80 / 100)))
    exact ⟨400000, 800000, by decide +kernel, by decide +kernel, by norm_num [ModelSpec.chat],
      by norm_num [ModelSpec.chat], by decide, by decide, by decide, rfl⟩
  · cases known.symm.trans
      (rfl : _ = some (ModelSpec.chat "qwen-2.5-coder-32b" (18 / 100) (30 / 100)))
    exact ⟨180000, 300000, by decide +kernel, by decide +kernel, by norm_num [ModelSpec.chat],
      by norm_num [ModelSpec.chat], by decide, by decide, by decide, rfl⟩

theorem utf8ByteSize_le (text : String) : text.utf8ByteSize ≤ 4 * text.length := by
  have bound (chars : List Char) : String.utf8Len chars ≤ 4 * chars.length := by
    induction chars with
    | nil => exact Nat.zero_le _
    | cons char _ _ =>
      have one := Char.utf8Size_le_four char
      rw [String.utf8Len, length_cons]
      omega
  rw [← String.ofList_toList (s := text), String.utf8ByteSize_ofList, String.length_ofList]
  exact bound _

theorem Accepted.promptTokenBound_le (accepted : Accepted messages) :
    promptTokenBound (chatRequest info messages maxTokens) ≤ 10 ^ 9 := by
  have bytes : (messages.map fun content => content.utf8ByteSize).sum ≤
      400000 * messages.length := by
    have short := accepted.2
    clear accepted
    induction messages with
    | nil => exact Nat.zero_le _
    | cons content _ ih =>
      have first := utf8ByteSize_le content
      have length := short content mem_cons_self
      have rest := ih fun other mem => short other (mem_cons_of_mem _ mem)
      rw [map_cons, sum_cons, length_cons]
      omega
  have few := accepted.1
  change max 1 (((messages.map fun content => content.utf8ByteSize).sum : Nat) : Int) ≤ 10 ^ 9
  omega

theorem Rated.chatWorstCase_eq (rated : Rated info spec input output) {prompt : Int}
    (promptLe : prompt ≤ 10 ^ 9) (some : 1 ≤ prompt) (least : 1 ≤ maxTokens)
    (most : maxTokens ≤ spec.maxOutputTokens) :
    chatWorstCase spec prompt maxTokens =
      (input * prompt + output * maxTokens : Int) / 10 ^ 12 := by
  have exact (ticks : Int) (nonneg : 0 ≤ ticks) (small : ticks < 10 ^ 20) :
      significant decimalDigits (ticks / 10 ^ 12 : ℚ) = ticks / 10 ^ 12 := by
    refine significant_of_small ⟨ticks, rfl⟩ ?_
    have bound : (ticks : ℚ) < 10 ^ 20 := by exact_mod_cast small
    rw [abs_of_nonneg (by positivity), div_lt_iff₀ (by norm_num)]
    exact bound.trans (by norm_num [decimalDigits])
  have inputLe := rated.inputLe
  have outputLe := rated.outputLe
  rw [rated.ceiling] at most
  have read : (0 : Int) ≤ input * prompt ∧ (input * prompt : Int) ≤ 10 ^ 15 := by
    constructor
    · positivity
    · nlinarith
  have wrote : (0 : Int) ≤ output * maxTokens ∧ (output * maxTokens : Int) ≤ 10 ^ 15 := by
    constructor
    · positivity
    · nlinarith
  have perTokenIn := exact input (by positivity) (by omega)
  have perTokenOut := exact output (by positivity) (by omega)
  have readCost := exact (input * prompt) read.1 (by omega)
  have wroteCost := exact (output * maxTokens) wrote.1 (by omega)
  have total := exact (input * prompt + output * maxTokens) (by omega) (by omega)
  rw [chatWorstCase, chatCost, max_eq_left (by omega), max_eq_left (by omega), rated.inputRate,
    rated.outputRate]
  norm_num at perTokenIn perTokenOut readCost wroteCost total ⊢
  rw [div_div, div_div]
  norm_num
  rw [perTokenIn, perTokenOut, div_mul_eq_mul_div, div_mul_eq_mul_div, readCost, wroteCost,
    ← add_div, total]

theorem length_ofScalars (text : List Char) :
    (Js.ofScalars text).length = text.length + text.countP fun char => 0xffff < char.toNat := by
  induction text with
  | nil => rfl
  | cons char rest ih =>
    rw [Js.ofScalars, flatMap_cons, length_append, countP_cons, length_cons, ← Js.ofScalars, ih,
      Js.utf16]
    by_cases plane : char.toNat < 0x10000
    · have basic : ¬0xffff < char.toNat := by omega
      simp [plane, basic]
      omega
    · have beyond : 0xffff < char.toNat := by omega
      simp [plane, beyond]
      omega

theorem length_join_space (parts : List Js.Str) :
    (Js.join parts (Js.lit " ")).length = (parts.map length).sum + (parts.length - 1) := by
  have space : (Js.lit " ").length = 1 := by decide
  unfold Js.join
  induction parts with
  | nil => rfl
  | cons part rest ih =>
    cases rest with
    | nil => simp
    | cons next rest =>
      rw [intercalate_cons_cons, length_append, length_append, ih, space]
      simp only [map_cons, sum_cons, length_cons]
      omega

theorem estimateTokens_typed (messages : List String) :
    estimateTokens (Js.join (typed messages) (Js.lit " ")) = quarterUnits messages := by
  rw [estimateTokens, length_join_space, quarterUnits, typed, map_map, length_map]
  simp only [Function.comp_def, length_ofScalars]
  norm_cast

theorem mul_divCeil {numerator : Int} (pos : 0 < numerator) :
    perMtok * divCeil numerator perMtok = numerator + -numerator % 10 ^ 6 := by
  rw [divCeil, if_neg (by omega), perMtok, Int.tdiv_eq_ediv_of_nonneg (by omega)]
  omega

theorem halfUp_le_iff {ticks base : Int} (nonneg : 0 ≤ ticks) :
    halfUp ((ticks : ℚ) / 10 ^ 12 * 10 ^ 6) ≤ base ↔ 2 * ticks < 10 ^ 6 * (2 * base + 1) := by
  have scaled : (ticks : ℚ) / 10 ^ 12 * 10 ^ 6 + 1 / 2 < ((base + 1 : Int) : ℚ) ↔
      ((2 * ticks : Int) : ℚ) < ((10 ^ 6 * (2 * base + 1) : Int) : ℚ) := by
    push_cast
    constructor <;> intro less <;> linarith
  rw [halfUp, if_pos (by positivity), ← Int.lt_add_one_iff, Int.floor_lt, scaled, Int.cast_lt]

/-- The gate asks for what the backend will hold exactly if the bytes beyond
the estimated tokens cost less than half a base unit and what the estimate was
rounded up by. -/
theorem gate_covers_hold (listed : info ∈ chatModels) (known : getModel info.id = some spec)
    (accepted : Accepted messages) (least : 1 ≤ maxTokens)
    (most : maxTokens ≤ spec.maxOutputTokens) :
    heldAmount (chatWorstCase spec (promptTokenBound (chatRequest info messages maxTokens))
        (maxOutput (chatRequest info messages maxTokens) spec)) ≤
      100 * (estimateChatCost (some info) (typed messages) maxTokens).base ↔
    2 * ((byteCount messages - quarterUnits messages) * rateBase spec.inputUsdcPerMtok) <
      10 ^ 6 + 2 * (-(quarterUnits messages * rateBase spec.inputUsdcPerMtok +
        maxTokens * rateBase spec.outputUsdcPerMtok) % 10 ^ 6) := by
  obtain ⟨input, output, rated⟩ := exists_rated listed known
  have ceiling : maxOutput (chatRequest info messages maxTokens) spec = maxTokens :=
    min_eq_left most
  have shown : (estimateChatCost (some info) (typed messages) maxTokens).base =
      divCeil (quarterUnits messages * input + maxTokens * output) perMtok := by
    simp [estimateChatCost, estimateTokens_typed, rated.listedInput, rated.listedOutput]
  have bounded : promptTokenBound (chatRequest info messages maxTokens) ≤ 10 ^ 9 :=
    accepted.promptTokenBound_le
  have sent : promptTokenBound (chatRequest info messages maxTokens) =
    max 1 (byteCount messages : Int) := rfl
  have counted : 1 ≤ quarterUnits messages := le_max_left _ _
  have rates : rateBase spec.inputUsdcPerMtok = input ∧
      rateBase spec.outputUsdcPerMtok = output := by
    simp [rateBase, rated.inputRate, rated.outputRate]
  rw [sent] at bounded
  rw [ceiling, sent, rated.chatWorstCase_eq bounded (le_max_left _ _) least most, shown, rates.1,
    rates.2]
  have priced : (0 : Int) < input := by exact_mod_cast rated.priced
  generalize quarterUnits messages = tokens at counted ⊢
  have pos : 0 < tokens * input + maxTokens * output := by positivity
  have roundedUp := mul_divCeil pos
  have slack := Int.emod_nonneg (-(tokens * input + maxTokens * output))
    (by norm_num : (10 ^ 6 : Int) ≠ 0)
  generalize divCeil (tokens * input + maxTokens * output) perMtok = base at roundedUp ⊢
  generalize -(tokens * input + maxTokens * output) % 10 ^ 6 = excess at roundedUp slack ⊢
  have held (ticks : Int) (nonneg : 0 ≤ ticks) : heldAmount ((ticks : ℚ) / 10 ^ 12) ≤ 100 * base ↔
      2 * ticks < 10 ^ 6 * (2 * base + 1) := by
    rw [← halfUp_le_iff nonneg, heldAmount, quantizeUsdc]
    rw [perMtok] at roundedUp
    split_ifs <;> omega
  rw [held _ (by positivity)]
  rw [perMtok] at roundedUp
  rcases Nat.eq_zero_or_pos (byteCount messages) with none | some
  · rw [none]
    have below : 0 ≤ (tokens - 1) * input := mul_nonneg (by omega) priced.le
    constructor <;> intro _ <;> norm_num <;> linarith
  · rw [max_eq_right (by exact_mod_cast some)]
    constructor <;> intro _ <;> norm_num <;> linarith

end

theorem gate_covers_hold_short :
    let info : ModelInfo := ⟨"llama-3.1-8b", "0.05".toList, "0.08".toList⟩
    let spec : ModelSpec := .chat "llama-3.1-8b" (5 / 100) (8 / 100)
    heldAmount (chatWorstCase spec (promptTokenBound (chatRequest info ["Hello, Zoë, ok"] 1))
        (maxOutput (chatRequest info ["Hello, Zoë, ok"] 1) spec)) ≤
      100 * (estimateChatCost (some info) (typed ["Hello, Zoë, ok"]) 1).base :=
  (gate_covers_hold mem_cons_self rfl ⟨by decide, by decide⟩ (by decide) (by decide)).mpr
    (by decide +kernel)

/-- A hundred letters to the largest model, for one token: the gate asks for
eleven base units, and the backend holds forty-one. -/
theorem gate_lets_refused_through :
    let info : ModelInfo := ⟨"llama-3.1-70b", "0.40".toList, "0.80".toList⟩
    let messages := [String.ofList (replicate 100 'a')]
    (estimateChatCost (some info) (typed messages) 1).base = 11 ∧
      (getModel info.id).map (fun spec => heldAmount (chatWorstCase spec
        (promptTokenBound (chatRequest info messages 1))
        (maxOutput (chatRequest info messages 1) spec))) = some 4100 := by
  decide +kernel

end Gridix.Estimates
