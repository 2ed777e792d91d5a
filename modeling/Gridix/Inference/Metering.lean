import Gridix.Base.PyValue
import Gridix.Pricing

/-!
# Catalogue, prices and node replies

What a model costs, what a node claims to have used, and what a dispatched
call can come back with.  Nothing about a node's reply is assumed.
-/

namespace Gridix

inductive Modality where
  | chat
  | image
  deriving DecidableEq, Repr

structure ModelSpec where
  id : String
  modality : Modality
  inputUsdcPerMtok : ℚ
  outputUsdcPerMtok : ℚ
  usdcPerImage : ℚ
  maxOutputTokens : Int
  deriving DecidableEq

def ModelSpec.chat (id : String) (input output : ℚ) : ModelSpec :=
  { id := id, modality := .chat, inputUsdcPerMtok := input,
    outputUsdcPerMtok := output, usdcPerImage := 0, maxOutputTokens := 4096 }

def ModelSpec.image (id : String) (perImage : ℚ) : ModelSpec :=
  { id := id, modality := .image, inputUsdcPerMtok := 0,
    outputUsdcPerMtok := 0, usdcPerImage := perImage,
    maxOutputTokens := 4096 }

def catalog : List ModelSpec := [.chat "llama-3.1-8b" (5 / 100) (8 / 100),
   .chat "llama-3.1-70b" (40 / 100) (80 / 100),
   .chat "qwen-2.5-coder-32b" (18 / 100) (30 / 100),
   .image "sdxl-turbo" (1 / 100),
   .image "flux-schnell" (3 / 100)]

def getModel (modelId : String) : Option ModelSpec := catalog.find? fun spec => spec.id == modelId

/-- The price of a chat, in the decimal context. -/
def chatCost (spec : ModelSpec) (inputTokens outputTokens : Int) : ℚ :=
  let perTokenIn := Rounding.significant decimalDigits (spec.inputUsdcPerMtok / 1000000)
  let perTokenOut := Rounding.significant decimalDigits (spec.outputUsdcPerMtok / 1000000)
  Rounding.significant decimalDigits (Rounding.significant decimalDigits
        (perTokenIn * (max inputTokens 0 : Int)) +
      Rounding.significant decimalDigits (perTokenOut * (max outputTokens 0 : Int)))

def imageCost (spec : ModelSpec) (images : Int) : ℚ := Rounding.significant decimalDigits
    (spec.usdcPerImage * (max images 0 : Int))

def chatWorstCase (spec : ModelSpec) (inputTokens maxOutputTokens : Int) : ℚ :=
  chatCost spec inputTokens maxOutputTokens

structure ChatUsage where
  promptTokens : Int
  completionTokens : Int
  deriving DecidableEq, Repr

/-- One token count out of a node's reply.  It raises on an infinite or
undefined float. -/
def reportedTokens (parse : String → Option Int) (raw : Py.Value)
    (field : String) (default : Int) : Option Int := do
  let value ← raw.get field
  match value with
  | .none => some default
  | value =>
    if value.isNumber then (value.toInt parse).map (max 0)
    else some default

/-- The usage to bill, clamped to the request's bounds. -/
def usageFrom (parse : String → Option Int) (rawPayload : Py.Value)
    (promptTokens maxOutputTokens : Int) : Option ChatUsage := do
  let usage ← rawPayload.get "usage"
  let raw := if usage.isDict then usage else .dict []
  let claimed ← reportedTokens parse raw "completion_tokens" 0
  let prompt ← reportedTokens parse raw "prompt_tokens" promptTokens
  some { promptTokens := prompt
         completionTokens := min claimed maxOutputTokens }

inductive CallOutcome where
  | relayUnavailable
  | httpStatus (code : Nat)
  | timeout
  | reply (body : Py.Value)
  | raises

inductive DispatchFailure where
  | dispatchError
  | dispatchTimeout
  | other
  deriving DecidableEq, Repr

def dispatch : CallOutcome → Except DispatchFailure Py.Value
  | .relayUnavailable => .error .dispatchError
  | .httpStatus code =>
    if code = 504 then .error .dispatchTimeout else .error .dispatchError
  | .timeout => .error .dispatchTimeout
  | .raises => .error .other
  | .reply body =>
    match (body.getD "status" (.int 200)).bind (·.geInt 400) with
    | none => .error .other
    | some true => .error .dispatchError
    | some false =>
      match body.get "payload" with
      | none => .error .other
      | some payload => .ok (payload.orElse (.dict []))

end Gridix
