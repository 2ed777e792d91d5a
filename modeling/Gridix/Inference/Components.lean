import Gridix.Base.DecimalContext
import Gridix.Inference.Unary

/-!
# What a node's report can bill

A chat reply is billed on two token counts of the node's own report.
`usage_from` cuts the completion at the output ceiling and takes the prompt
count as it is, and the bill is cut at the worst case as a whole.
-/

namespace Gridix

def chatBilled (spec : ModelSpec) (promptTokens maxOutputTokens : Int) (usage : ChatUsage) : ℚ :=
  min (chatCost spec usage.promptTokens usage.completionTokens)
    (chatWorstCase spec promptTokens maxOutputTokens)

def reportedPrompt (parse : String → Option Int) (reply : Py.Value) : Option Int := do
  let usage ← reply.get "usage"
  let value ← (if usage.isDict then usage else .dict []).get "prompt_tokens"
  if value.isNumber then value.toInt parse else none

section

variable {parse : String → Option Int} {reply : Py.Value}
  {promptTokens maxOutputTokens : Int} {usage : ChatUsage}

theorem usageFrom_completion (reported : usageFrom parse reply promptTokens maxOutputTokens =
      some usage) :
    usage.completionTokens ≤ maxOutputTokens := by
  simp only [usageFrom, Option.bind_eq_bind, Option.bind_eq_some_iff] at reported
  obtain ⟨_, _, claimed, _, _, _, result⟩ := reported
  cases result
  exact min_le_right claimed maxOutputTokens

theorem usageFrom_prompt (reported : usageFrom parse reply promptTokens maxOutputTokens =
      some usage) :
    usage.promptTokens = ((reportedPrompt parse reply).map (max 0)).getD promptTokens := by
  simp only [usageFrom, Option.bind_eq_bind, Option.bind_eq_some_iff] at reported
  obtain ⟨_, given, _, _, prompt, counted, result⟩ := reported
  cases result
  simp only [reportedTokens, Option.bind_eq_bind, Option.bind_eq_some_iff] at counted
  obtain ⟨value, found, counted⟩ := counted
  simp only [reportedPrompt, given, Option.bind_eq_bind, Option.bind_some, found]
  cases value with
  | int => cases counted; rfl
  | float number =>
    have read : (Py.Value.toInt parse (.float number)).map (max 0) = some prompt := counted
    have numeric : (Py.Value.float number).isNumber = true := rfl
    rw [if_pos numeric, read]
    rfl
  | _ => cases counted; rfl

theorem chatCost_mono_input {spec : ModelSpec} {fewer more : Int}
    (priced : 0 ≤ spec.inputUsdcPerMtok) (le : fewer ≤ more) (outputTokens : Int) :
    chatCost spec fewer outputTokens ≤ chatCost spec more outputTokens := by
  have keeps : 0 < decimalDigits := by decide
  have perToken : 0 ≤ Rounding.significant decimalDigits (spec.inputUsdcPerMtok / 1000000) :=
    Rounding.significant_nonneg _ (by positivity)
  have counts : ((max fewer 0 : Int) : ℚ) ≤ ((max more 0 : Int) : ℚ) :=
    Int.cast_le.mpr (max_le_max_right 0 le)
  apply DecimalContext.significant_mono keeps
  apply add_le_add_left
  apply DecimalContext.significant_mono keeps
  exact mul_le_mul_of_nonneg_left counts perToken

theorem chatBilled_le {spec : ModelSpec} (priced : 0 ≤ spec.inputUsdcPerMtok)
    (within : usage.promptTokens ≤ promptTokens) :
    chatBilled spec promptTokens maxOutputTokens usage ≤
      chatCost spec promptTokens usage.completionTokens :=
  calc chatBilled spec promptTokens maxOutputTokens usage
      ≤ chatCost spec usage.promptTokens usage.completionTokens := min_le_left _ _
    _ ≤ chatCost spec promptTokens usage.completionTokens := chatCost_mono_input priced within _

/-- Usage and bill stay within the prompt bound and the output ceiling if and
only if any prompt count the reply reports is within the bound. -/
theorem components_iff_promptReport {spec : ModelSpec} (priced : 0 ≤ spec.inputUsdcPerMtok)
    (reported : usageFrom parse reply promptTokens maxOutputTokens = some usage) :
    (usage.promptTokens ≤ promptTokens ∧ usage.completionTokens ≤ maxOutputTokens ∧
      quantizeUsdc (chatBilled spec promptTokens maxOutputTokens usage) ≤ quantizeUsdc
          (chatCost spec promptTokens usage.completionTokens)) ↔
      ∀ count, reportedPrompt parse reply = some count → max 0 count ≤ promptTokens := by
  have prompt := usageFrom_prompt reported
  constructor
  · rintro ⟨within, -, -⟩ _ given
    rw [prompt, given] at within
    exact within
  · intro honest
    have within : usage.promptTokens ≤ promptTokens := by
      rw [prompt]
      cases given : reportedPrompt parse reply with
      | none => exact le_rfl
      | some count => exact honest count given
    exact ⟨within, usageFrom_completion reported, quantizeUsdc_mono (chatBilled_le priced within)⟩

end

/-! A two-byte prompt, and a node that names its prompt count. -/

def twoBytes : ChatRequest :=
  { model := "llama-3.1-8b", messages := ["hi"], maxTokens := none,
    dataTier := .publicTier }

def namedPrompt (count : Int) : Py.Value := .dict [("content", .str "hello"),
    ("usage", .dict [("prompt_tokens", .int count), ("completion_tokens", .int 1)])]

def answeredWith (count : Int) : Circumstances where
  before := [.deposit 1]
  node := some 9
  call := .reply (.dict [("payload", namedPrompt count)])
  dispatching := []
  race := ⟨[], []⟩

theorem inflated_prompt_billed : promptTokenBound twoBytes = 2 ∧
    usageFrom plainRuntime.parseInt (namedPrompt (10 ^ 9)) 2 4096 =
      some { promptTokens := 10 ^ 9, completionTokens := 1 } ∧
    (serve Settings.default plainRuntime 7 (.chat twoBytes)
      (answeredWith (10 ^ 9))).1.toOption.map Response.costUsdc = some 32800 ∧
    quantizeUsdc (chatCost (.chat "llama-3.1-8b" (5 / 100) (8 / 100)) 2 1) = 0 := by
  decide +kernel

theorem components_honest_prompt : (2 : Int) ≤ 2 ∧ (1 : Int) ≤ 4096 ∧ quantizeUsdc
          (chatBilled (.chat "llama-3.1-8b" (5 / 100) (8 / 100)) 2 4096
            { promptTokens := 2, completionTokens := 1 }) ≤
        quantizeUsdc (chatCost (.chat "llama-3.1-8b" (5 / 100) (8 / 100)) 2 1) := by
  have priced : 0 ≤ (ModelSpec.chat "llama-3.1-8b" (5 / 100) (8 / 100)).inputUsdcPerMtok := by
    decide +kernel
  have reported : usageFrom plainRuntime.parseInt (namedPrompt 2) 2 4096 =
      some { promptTokens := 2, completionTokens := 1 } := by
    decide +kernel
  refine (components_iff_promptReport priced reported).mpr ?_
  intro _ given
  cases given
  decide

end Gridix
