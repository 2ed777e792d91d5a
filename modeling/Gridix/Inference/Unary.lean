import Gridix.Inference.Metering
import Gridix.Inference.Session

/-!
# Unary inference requests

`chat_completions` without streaming and `image_generations` take a hold, send
the work to a node and resolve the hold: a `finally` block releases it unless
it was settled.
-/

namespace Gridix

inductive HttpError where
  | notImplemented
  | unknownModel
  | paymentRequired (balance required : Int)
  | noNode
  | gatewayTimeout
  | badGateway
  | internal
  deriving DecidableEq, Repr

def HttpError.status : HttpError → Nat
  | .notImplemented => 501
  | .unknownModel => 404
  | .paymentRequired _ _ => 402
  | .noNode => 503
  | .gatewayTimeout => 504
  | .badGateway => 502
  | .internal => 500

structure ChatRequest where
  model : String
  messages : List String
  maxTokens : Option Int
  dataTier : DataTier

structure ImageRequest where
  model : String
  n : Int
  dataTier : DataTier

inductive InferenceRequest where
  | chat (body : ChatRequest)
  | image (body : ImageRequest)

/-- The parts of the runtime whose answers the code does not control: the
reading of digit strings, base64 decoding, and the blob store. -/
structure Runtime where
  parseInt : String → Option Int
  b64decode : String → Option (List UInt8)
  put : List UInt8 → Option String

/-- What a request meets on its way. -/
structure Circumstances where
  before : List Activity
  node : Option Uuid
  call : CallOutcome
  dispatching : List Activity
  race : Race

def modelOr404 (modelId : String) (modality : Modality) : Except HttpError ModelSpec :=
  match getModel modelId with
  | none => .error .unknownModel
  | some spec =>
    if spec.modality = modality then .ok spec else .error .unknownModel

/-- An upper bound on the prompt's tokens: its length in bytes. -/
def promptTokenBound (body : ChatRequest) : Int :=
  max 1 ((body.messages.map fun content => content.utf8ByteSize).sum : Nat)

/-- The output the request may ask for. -/
def maxOutput (body : ChatRequest) (spec : ModelSpec) : Int :=
  min (body.maxTokens.getD spec.maxOutputTokens) spec.maxOutputTokens

/-- The most the request can cost, or why it is refused before the gate. -/
def InferenceRequest.worstCase : InferenceRequest → Except HttpError (ModelSpec × ℚ)
  | .chat body =>
    if body.dataTier = .confidentialTee then .error .notImplemented
    else (modelOr404 body.model .chat).map fun spec =>
      (spec, chatWorstCase spec (promptTokenBound body) (maxOutput body spec))
  | .image body =>
    (modelOr404 body.model .image).map fun spec =>
      (spec, imageCost spec body.n)

def nodeFailed : DispatchFailure → HttpError
  | .dispatchTimeout => .gatewayTimeout
  | .dispatchError => .badGateway
  | .other => .internal

/-- The refs of the decodable images, or `none` if the store raises. -/
def storeImages (runtime : Runtime) : List Py.Value → Option (List String)
  | [] => some []
  | .str item :: rest =>
    match runtime.b64decode item with
    | none => storeImages runtime rest
    | some [] => storeImages runtime rest
    | some data => do
        let ref ← runtime.put data
        let refs ← storeImages runtime rest
        some (ref :: refs)
  | _ :: rest => storeImages runtime rest

def storeNodeImages (runtime : Runtime) : Py.Value → Option (List String)
  | .list items => storeImages runtime items
  | _ => some []

inductive FinishReason where
  | stop
  | length
  deriving DecidableEq, Repr

def finishReason (usage : ChatUsage) (maxOutputTokens : Int) : FinishReason :=
  if maxOutputTokens ≤ usage.completionTokens then .length else .stop

inductive Completion where
  | chat (content : Py.Value) (finish : FinishReason) (usage : ChatUsage)
  | images (refs : List String)

/-- What the reply is billed at and what is made of it, or `none` if reading
it raises. -/
def InferenceRequest.read (runtime : Runtime) (spec : ModelSpec)
    (worstCase : ℚ) (reply : Py.Value) :
    InferenceRequest → Option (ℚ × Completion)
  | .chat body => do
      let limit := maxOutput body spec
      let usage ← usageFrom runtime.parseInt reply (promptTokenBound body) limit
      let content ← reply.getD "content" (.str "")
      let cost := chatCost spec usage.promptTokens usage.completionTokens
      some (min cost worstCase, .chat content (finishReason usage limit) usage)
  | .image body => do
      let images ← reply.get "images"
      let refs ← storeNodeImages runtime images
      let kept := refs.take body.n.toNat
      some (imageCost spec kept.length, .images kept)

structure Work where
  providerId : Uuid
  billed : ℚ
  completion : Completion

/-- The body of the `try` up to the settlement: pick a node, dispatch, read
the bill off the reply. -/
def InferenceRequest.work (runtime : Runtime) (request : InferenceRequest)
    (spec : ModelSpec) (worstCase : ℚ) (met : Circumstances) :
    Except HttpError Work :=
  match met.node with
  | none => .error .noNode
  | some providerId =>
    match dispatch met.call with
    | .error failure => .error (nodeFailed failure)
    | .ok reply =>
      match request.read runtime spec worstCase reply with
      | none => .error .internal
      | some (billed, completion) =>
        .ok { providerId := providerId, billed := billed,
              completion := completion }

/-- The `finally` block of a request that was not settled: it releases the
hold on the same session, and the exception then rolls the session back. -/
def releaseUnsettled (developerId : Uuid) (session : Session) (held : Int) : Session :=
  (releaseReservation developerId session held).2.rollback

structure Response where
  completion : Completion
  costUsdc : Int
  providerId : Uuid

def resolve (settings : Settings) (developerId : Uuid)
    (met : Circumstances) (session : Session) (held : Int)
    (work : Except HttpError Work) :
    Except HttpError Response × Session :=
  let session := session.meanwhile settings developerId met.dispatching
  match work with
  | .error error => (.error error, releaseUnsettled developerId session held)
  | .ok done =>
    match settleReservation settings developerId met.race session
        done.providerId held done.billed with
    | (.ok cost, session) =>
      (.ok { completion := done.completion, costUsdc := cost,
             providerId := done.providerId }, session.commit)
    | (.error _, session) =>
      (.error .internal, releaseUnsettled developerId session held)

def Circumstances.session (settings : Settings) (developerId : Uuid)
    (met : Circumstances) : Session :=
  { others := Activity.ledger settings developerId met.before
    own := [], flushed := [] }

/-- `chat_completions` with `stream=false`, and `image_generations`. -/
def serve (settings : Settings) (runtime : Runtime) (developerId : Uuid)
    (request : InferenceRequest) (met : Circumstances) :
    Except HttpError Response × Session :=
  let session := met.session settings developerId
  match request.worstCase with
  | .error error => (.error error, session.rollback)
  | .ok (spec, worstCase) =>
    match reserveBalance developerId session worstCase with
    | (.error (.insufficientBalance balance required), session) =>
      (.error (.paymentRequired balance required), session.rollback)
    | (.error (.ledger _), session) => (.error .internal, session.rollback)
    | (.ok held, session) =>
      resolve settings developerId met session held (request.work runtime spec worstCase met)

/-- The committed rows of a request debit escrow by the hold, credit it back
to the developer, and do so in one group. -/
def ResolvedOnce (developerId : Uuid) (held : Int) (own : Ledger) : Prop :=
  own.sum .escrow .debit (some developerId) = held ∧
    own.sum .developer .credit (some developerId) = held ∧
    own.countP (fun group => group.reason == .inferenceHoldRelease) = 1

section

variable {settings : Settings} {developerId : Uuid} {raw : ℚ}

theorem resolvedOnce_of_returned {rest : Ledger} (pos : 0 < quantizeUsdc raw)
    (escrow : rest.sum .escrow .debit (some developerId) = 0)
    (credit : rest.sum .developer .credit (some developerId) = 0)
    (reasons : rest.countP (fun group => group.reason == .inferenceHoldRelease) = 0) :
    ResolvedOnce developerId (quantizeUsdc raw) (holdRows developerId (quantizeUsdc raw) ++
        (returnRows developerId (quantizeUsdc raw) ++ rest)) := by
  have held : max 0 (quantizeUsdc raw) = quantizeUsdc raw := max_eq_right (le_of_lt pos)
  refine ⟨?_, ?_, ?_⟩
  · simp [escrow, held]
  · simp [credit, held]
  · simp [holdRows, returnRows, not_le.mpr pos, reasons]

theorem not_resolvedOnce_of_returned_twice (pos : 0 < quantizeUsdc raw) :
    ¬ ResolvedOnce developerId (quantizeUsdc raw) (holdRows developerId (quantizeUsdc raw) ++
        (returnRows developerId (quantizeUsdc raw) ++
          returnRows developerId (quantizeUsdc raw))) := by
  rintro ⟨escrow, -, -⟩
  simp only [Ledger.sum_append, holdRows_escrow_debit, returnRows_escrow_debit] at escrow
  omega

theorem releaseUnsettled_own (session : Session) :
    (releaseUnsettled developerId session (quantizeUsdc raw)).own =
      session.own ++ (session.flushed ++ returnRows developerId (quantizeUsdc raw)) := by
  rw [releaseUnsettled, releaseReservation_eq]
  rfl

theorem resolve_own {met : Circumstances} {session : Session} {work : Except HttpError Work}
    (own : session.own = holdRows developerId (quantizeUsdc raw))
    (clean : session.flushed = []) (pos : 0 < quantizeUsdc raw) :
    ResolvedOnce developerId (quantizeUsdc raw)
        (resolve settings developerId met session (quantizeUsdc raw) work).2.own ↔
      ∀ done, work = .ok done → 0 < quantizeUsdc done.billed → quantizeUsdc done.billed ≤
          fundsSeen settings developerId met.race
            (session.meanwhile settings developerId met.dispatching) + quantizeUsdc raw := by
  have arrived : (session.meanwhile settings developerId met.dispatching).flushed = [] := by
    rw [Session.meanwhile_flushed, clean]
  cases work with
  | error =>
    constructor
    · intro _ _ no
      cases no
    · intro _
      unfold resolve
      rw [releaseUnsettled_own, Session.meanwhile_own, arrived, own,
        ← List.append_nil (returnRows developerId (quantizeUsdc raw))]
      exact resolvedOnce_of_returned pos rfl rfl rfl
  | ok done =>
    have settlement := @settleReservation_cases settings developerId
      (session.meanwhile settings developerId met.dispatching) met.race
      done.providerId raw done.billed
    dsimp only at settlement
    rw [balanceSeen_returned arrived (le_of_lt pos)] at settlement
    rcases settlement with ⟨costs, short, _, _, settled, afterOwn, afterFlushed⟩ |
      ⟨covered, paid, after, settled, afterOwn, afterFlushed⟩
    · constructor
      · intro once
        unfold resolve at once
        dsimp only at once
        rw [settled] at once
        rw [releaseUnsettled_own, afterOwn, afterFlushed,
          Session.meanwhile_own, arrived, own] at once
        exact absurd once (not_resolvedOnce_of_returned_twice pos)
      · intro enough
        exact absurd short (not_lt.mpr (enough done rfl costs))
    · constructor
      · intro _ _ same costs
        cases same
        by_contra short
        exact covered ⟨costs, not_le.mp short⟩
      · intro _
        unfold resolve
        dsimp only
        rw [settled]
        dsimp only [Session.commit]
        rw [afterOwn, afterFlushed, Session.meanwhile_own, arrived, own, List.append_nil]
        apply resolvedOnce_of_returned pos
        · split_ifs <;> simp
        · split_ifs <;> simp
        · split_ifs
          · rfl
          · simp [chargeRows]

end

/-- A unary hold is resolved exactly once if and only if the committed funds and
the hold together cover whatever the reply is billed at. -/
theorem serve_resolvedOnce_iff {settings : Settings} {runtime : Runtime} {developerId : Uuid}
    {request : InferenceRequest} {met : Circumstances} {spec : ModelSpec} {worstCase : ℚ}
    {held : Int} {session : Session} (priced : request.worstCase = .ok (spec, worstCase))
    (reserved : reserveBalance developerId
      (met.session settings developerId) worstCase = (.ok held, session)) (positive : 0 < held) :
    ResolvedOnce developerId held (serve settings runtime developerId request met).2.own ↔
      ∀ done, request.work runtime spec worstCase met = .ok done → 0 < quantizeUsdc done.billed →
        quantizeUsdc done.billed ≤ fundsSeen settings developerId met.race
            (session.meanwhile settings developerId met.dispatching) + held := by
  have served : (serve settings runtime developerId request met) =
      resolve settings developerId met session held (request.work runtime spec worstCase met) := by
    simp only [serve, priced, reserved]
  obtain ⟨rfl, rfl⟩ := reserveBalance_ok reserved positive
  rw [served]
  exact resolve_own rfl rfl positive

/-! A developer with one USDC sends a short chat request; while the node
works, a job of one USDC is escrowed for the same developer. -/

def shortChat : InferenceRequest :=
  .chat { model := "llama-3.1-8b", messages := ["hi"], maxTokens := none,
          dataTier := .publicTier }

def plainRuntime : Runtime where
  parseInt := fun _ => none
  b64decode := fun _ => none
  put := fun _ => none

def fullReply : Py.Value := .dict [("payload", .dict [("content", .str "hello"),
     ("usage", .dict [("completion_tokens", .int 4096)])])]

def escrowedMeanwhile : Circumstances where
  before := [.deposit 1]
  node := some 9
  call := .reply fullReply
  dispatching := [.jobHold 1 (10 ^ 8)]
  race := ⟨[], []⟩

theorem serve_resolves_twice : (reserveBalance 7 (escrowedMeanwhile.session Settings.default 7)
      (32778 / 10 ^ 8)).1 = .ok 32800 ∧
    (shortChat.worstCase.map Prod.snd).toOption = some (32778 / 10 ^ 8) ∧
    (serve Settings.default plainRuntime 7 shortChat
      escrowedMeanwhile).2.own.sum .escrow .debit (some 7) = 2 * 32800 ∧
    (serve Settings.default plainRuntime 7 shortChat
      escrowedMeanwhile).2.own.sum .developer .credit (some 7) = 2 * 32800 ∧
    ¬ ResolvedOnce 7 32800 (serve Settings.default plainRuntime 7 shortChat
      escrowedMeanwhile).2.own := by
  have escrow : (serve Settings.default plainRuntime 7 shortChat
      escrowedMeanwhile).2.own.sum .escrow .debit (some 7) = 2 * 32800 := by
    decide +kernel
  refine ⟨by decide +kernel, by decide +kernel, escrow, by decide +kernel,
    ?_⟩
  rintro ⟨once, -, -⟩
  rw [escrow] at once
  cases once

def leftAlone : Circumstances := { escrowedMeanwhile with dispatching := [] }

theorem serve_resolvedOnce_leftAlone : ResolvedOnce 7 32800
      (serve Settings.default plainRuntime 7 shortChat leftAlone).2.own := by
  have priced : shortChat.worstCase =
      .ok (.chat "llama-3.1-8b" (5 / 100) (8 / 100), 32778 / 10 ^ 8) := by
    decide +kernel
  have reserved : (reserveBalance 7 (leftAlone.session Settings.default 7)
      (32778 / 10 ^ 8)).1 = .ok 32800 := by
    decide +kernel
  refine (serve_resolvedOnce_iff priced (Prod.ext reserved rfl) (by decide)).mpr ?_
  intro _ worked _
  have billed : (shortChat.work plainRuntime
      (.chat "llama-3.1-8b" (5 / 100) (8 / 100)) (32778 / 10 ^ 8)
      leftAlone).toOption.map Work.billed = some (32778 / 10 ^ 8) := by
    decide +kernel
  rw [worked] at billed
  rw [Option.some.inj billed]
  decide +kernel

end Gridix
