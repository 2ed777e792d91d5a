import Gridix.Inference.Components
import Gridix.Inference.Streaming

/-!
# Streamed and unary bills

A stream keeps its own token count while chunks arrive.
-/

namespace Gridix

open List

def Finite (value : Py.Value) : Prop :=
  ∀ number, value = .float number → ∃ exact, number = .finite exact

def FiniteReport (reply : Py.Value) : Prop := ∀ usage, reply.get "usage" = some usage →
    ∀ field value, usage.get field = some value → Finite value

section

variable {parse : String → Option Int}

theorem Finite.toInt {value : Py.Value} (finite : Finite value) (number : value.isNumber = true) :
    ∃ count, value.toInt parse = some count := by
  cases value with
  | int count => exact ⟨count, rfl⟩
  | float value =>
    obtain ⟨_, rfl⟩ := finite value rfl
    exact ⟨_, rfl⟩
  | _ => cases number

theorem Frame.reportedTokens_total (parse : String → Option Int)
    {frame : Frame} (finite : Finite (frame.get "tokens" .none)) :
    ∃ reported, frame.reportedTokens parse = some reported := by
  unfold Frame.reportedTokens
  dsimp only
  split_ifs with number
  · obtain ⟨count, read⟩ := @Finite.toInt parse _ finite number
    exact ⟨some (max 0 count), by rw [read]; rfl⟩
  · exact ⟨none, rfl⟩

theorem reportedTokens_cases (raw : List (String × Py.Value)) (field : String) (default : Int) :
    (Finite ((raw.lookup field).getD .none) ∧ ∃ count,
      reportedTokens parse (.dict raw) field default = some count ∧ (0 ≤ default → 0 ≤ count)) ∨
    (¬ Finite ((raw.lookup field).getD .none) ∧
      reportedTokens parse (.dict raw) field default = none) := by
  have here : (Py.Value.dict raw).get field = some ((raw.lookup field).getD .none) := rfl
  unfold reportedTokens
  rw [here]
  generalize (raw.lookup field).getD .none = value
  cases value with
  | float number =>
    cases number with
    | finite exact =>
      exact .inl ⟨fun _ same => ⟨exact, (Py.Value.float.inj same).symm⟩, _, rfl,
        fun _ => le_max_left _ _⟩
    | infinite | nan =>
      refine .inr ⟨fun finite => ?_, rfl⟩
      obtain ⟨_, no⟩ := finite _ rfl
      cases no
  | int => exact .inl ⟨by rintro _ ⟨⟩, _, rfl, fun _ => le_max_left _ _⟩
  | _ => exact .inl ⟨by rintro _ ⟨⟩, _, rfl, id⟩

def tokenCount (reply : List (String × Py.Value)) (field : String) : Py.Value :=
  match (reply.lookup "usage").getD .none with
  | .dict usage => (usage.lookup field).getD .none
  | _ => .none

/-- Neither token count is NaN or infinite. -/
def Readable (reply : List (String × Py.Value)) : Prop :=
  Finite (tokenCount reply "completion_tokens") ∧ Finite (tokenCount reply "prompt_tokens")

theorem usageFrom_cases (reply : List (String × Py.Value)) (promptTokens maxTokens : Int) :
    (Readable reply ∧ ∃ usage, usageFrom parse (.dict reply) promptTokens maxTokens = some usage ∧
      (0 ≤ promptTokens → 0 ≤ usage.promptTokens) ∧
      (0 ≤ maxTokens → 0 ≤ usage.completionTokens)) ∨
    (¬ Readable reply ∧ usageFrom parse (.dict reply) promptTokens maxTokens = none) := by
  have here : (Py.Value.dict reply).get "usage" = some ((reply.lookup "usage").getD .none) := rfl
  obtain ⟨raw, shape, count⟩ : ∃ raw, (if ((reply.lookup "usage").getD .none).isDict then
      (reply.lookup "usage").getD .none else .dict []) = .dict raw ∧
      ∀ field, tokenCount reply field = (raw.lookup field).getD .none := by
    unfold tokenCount
    cases (reply.lookup "usage").getD .none with
    | dict raw => exact ⟨raw, rfl, fun _ => rfl⟩
    | _ => exact ⟨[], rfl, fun _ => rfl⟩
  unfold usageFrom Readable
  rw [here]
  simp only [Option.bind_eq_bind, Option.bind_some, shape, count]
  rcases @reportedTokens_cases parse raw "completion_tokens" 0 with
    ⟨finite, claimed, claims, nonneg⟩ | ⟨endless, raises⟩
  · rcases @reportedTokens_cases parse raw "prompt_tokens" promptTokens with
      ⟨alike, prompt, prompted, bound⟩ | ⟨endless, raises⟩
    · exact .inl ⟨⟨finite, alike⟩, _, by rw [claims, prompted]; rfl, bound,
        fun ceiling => le_min (nonneg le_rfl) ceiling⟩
    · exact .inr ⟨fun readable => endless readable.2, by rw [claims, raises]; rfl⟩
  · exact .inr ⟨fun readable => endless readable.1, by rw [raises]; rfl⟩

theorem usageFrom_total {reply : List (String × Py.Value)}
    (finite : FiniteReport (.dict reply)) (promptTokens maxTokens : Int) :
    ∃ usage, usageFrom parse (.dict reply) promptTokens maxTokens = some usage := by
  have counts (field : String) : Finite (tokenCount reply field) := by
    unfold tokenCount
    have readable := finite _ rfl field
    generalize (reply.lookup "usage").getD .none = usage at readable ⊢
    cases usage with
    | dict => exact readable _ rfl
    | _ => rintro _ ⟨⟩
  rcases @usageFrom_cases parse reply promptTokens maxTokens with ⟨_, usage, code, _⟩ | ⟨no, _⟩
  · exact ⟨usage, code⟩
  · exact absurd ⟨counts _, counts _⟩ no

/-- A report is read exactly when neither count is an infinite or undefined
float, and the usage then has counts that are not negative. -/
theorem usageFrom_reads_iff (parse : String → Option Int) (reply : List (String × Py.Value))
    {promptTokens maxTokens : Int} (promptNonneg : 0 ≤ promptTokens) (maxNonneg : 0 ≤ maxTokens) :
    (∃ usage, usageFrom parse (.dict reply) promptTokens maxTokens = some usage ∧
      0 ≤ usage.promptTokens ∧ 0 ≤ usage.completionTokens) ↔ Readable reply := by
  rcases @usageFrom_cases parse reply promptTokens maxTokens with
    ⟨readable, usage, code, prompt, completion⟩ | ⟨unreadable, code⟩
  · exact ⟨fun _ => readable, fun _ => ⟨usage, code, prompt promptNonneg, completion maxNonneg⟩⟩
  · constructor
    · rintro ⟨_, read, _⟩
      cases code.symm.trans read
    · exact fun readable => absurd readable unreadable

theorem usageFrom_reads_iff_huge : ∃ usage, usageFrom (fun _ => none)
      (.dict [("usage", .dict [("completion_tokens", .int (10 ^ 400))])]) 7 16 = some usage ∧
      0 ≤ usage.promptTokens ∧ 0 ≤ usage.completionTokens :=
  (usageFrom_reads_iff _ _ (by decide) (by decide)).mpr ⟨by rintro _ ⟨⟩, by rintro _ ⟨⟩⟩

theorem infinite_count_raises : usageFrom (fun _ => none)
    (.dict [("usage", .dict [("completion_tokens", .float (.infinite false))])]) 7 16 = none := rfl

end

section

variable {stream : ChatStream} {parse : String → Option Int}
  {disconnect : Option Suspension}

def ChatStream.absorb (stream : ChatStream) (parse : String → Option Int)
    (books : Accounting) (frame : Frame) : Option Accounting :=
  if frame.hasDelta then stream.sawChunk parse books frame else some books

theorem ChatStream.consume_append {chunks rest : List Frame} {books after : Accounting}
    {index : Nat} (kinds : ∀ frame ∈ chunks, frame.kind = .chunk)
    (absorbed : chunks.foldlM (stream.absorb parse) books = some after)
    (passes : ∀ offset < chunks.length, disconnect ≠ some (.frame (index + offset)) ∧
      disconnect ≠ some (.content (index + offset))) :
    stream.consume parse disconnect books index (chunks ++ rest) =
      stream.consume parse disconnect after (index + chunks.length) rest := by
  induction chunks generalizing books index with
  | nil =>
    cases absorbed
    rfl
  | cons frame chunks ih =>
    obtain ⟨middle, step, absorbed⟩ := Option.bind_eq_some_iff.mp absorbed
    obtain ⟨notFrame, notContent⟩ := passes 0 (Nat.succ_pos _)
    rw [Nat.add_zero] at notFrame notContent
    have onward := @ih middle (index + 1) (fun other mem => kinds other (mem_cons_of_mem _ mem))
      absorbed (by
        intro offset within
        have later := passes (offset + 1) (Nat.succ_lt_succ within)
        rwa [Nat.add_comm offset, ← Nat.add_assoc] at later)
    rw [cons_append, ChatStream.consume, if_neg notFrame, kinds frame mem_cons_self, length_cons,
      Nat.add_comm chunks.length, ← Nat.add_assoc, ← onward]
    unfold ChatStream.absorb at step
    split_ifs at step ⊢
    · simp only [step]
    · cases step
      rfl

theorem ChatStream.absorb_total (chunks : List Frame) (books : Accounting)
    (finite : ∀ frame ∈ chunks, Finite (frame.get "tokens" .none)) :
    ∃ after, chunks.foldlM (stream.absorb parse) books = some after ∧
      after.final = books.final := by
  induction chunks generalizing books with
  | nil => exact ⟨books, rfl, rfl⟩
  | cons frame _ ih =>
    obtain ⟨middle, step, same⟩ : ∃ middle, stream.absorb parse books frame = some middle ∧
          middle.final = books.final := by
      obtain ⟨_, read⟩ := Frame.reportedTokens_total parse (finite frame mem_cons_self)
      unfold ChatStream.absorb ChatStream.sawChunk
      rw [read]
      split_ifs <;> exact ⟨_, rfl, rfl⟩
    obtain ⟨after, absorbed, kept⟩ := ih middle
      (fun other mem => finite other (mem_cons_of_mem _ mem))
    refine ⟨after, ?_, kept.trans same⟩
    rw [foldlM_cons, step]
    exact absorbed

end

def ChatRequest.stream (body : ChatRequest) (spec : ModelSpec)
    (developerId providerId : Uuid) (frames : List Frame)
    (ending : StreamEnd) : ChatStream where
  spec := spec
  developerId := developerId
  providerId := providerId
  worstCase := chatWorstCase spec (promptTokenBound body) (maxOutput body spec)
  promptTokens := promptTokenBound body
  maxOutput := maxOutput body spec
  frames := frames
  ending := ending

/-- A response below 400 with the reply. -/
structure Succeeds (response : Frame) (reply : List (String × Py.Value)) : Prop where
  kind : response.kind = .response
  status : ∃ code < 400, response.get "status" (.int 200) = .int code
  payload : response.get "payload" .none = .dict reply
  finite : FiniteReport (.dict reply)

section

variable {response : Frame} {reply : List (String × Py.Value)}

theorem Succeeds.dispatch (succeeds : Succeeds response reply) :
    Gridix.dispatch (.reply (.dict response)) = .ok (.dict reply) := by
  obtain ⟨code, _, status⟩ := succeeds.status
  have answered : (Py.Value.dict response).getD "status" (.int 200) =
    some (.int code) := congrArg some status
  have given : (Py.Value.dict response).get "payload" =
    some (.dict reply) := congrArg some succeeds.payload
  have early : ¬ (400 : Int) ≤ code := by omega
  simp only [Gridix.dispatch, answered, Option.bind_some, Py.Value.geInt,
    decide_eq_false early, given]
  cases reply <;> rfl

theorem Succeeds.terminal (succeeds : Succeeds response reply) {stream : ChatStream}
    {parse : String → Option Int} {usage : ChatUsage}
    (reported : usageFrom parse (.dict reply) stream.promptTokens stream.maxOutput = some usage)
    (books : Accounting) :
    stream.terminal parse books response = (.finished, { books with final := some usage }) := by
  obtain ⟨code, below, status⟩ : ∃ code < 400, ((response.get "status" (.int 200)).orElse (.int
      200)).toInt parse = some code := by
    obtain ⟨code, below, status⟩ := succeeds.status
    rw [status]
    by_cases zero : code = 0
    · subst zero
      exact ⟨200, by decide, rfl⟩
    · refine ⟨code, below, ?_⟩
      simp [Py.Value.orElse, Py.Value.truthy, zero, Py.Value.toInt]
  have early : ¬ (400 : Int) ≤ code := by omega
  simp only [ChatStream.terminal, status, if_neg early, succeeds.payload,
    Py.Value.isDict, if_true, reported]

end

/-- Whatever chunks came before it, a terminal frame makes the stream settle
for what the unary path is billed for the same reply. -/
theorem streamed_bill_eq_unary {settings : Settings} {runtime : Runtime} {body : ChatRequest}
    {spec : ModelSpec} {developerId providerId : Uuid} {chunks later : List Frame}
    {response : Frame} {reply : List (String × Py.Value)} {ending : StreamEnd}
    (kinds : ∀ frame ∈ chunks, frame.kind = .chunk)
    (finite : ∀ frame ∈ chunks, Finite (frame.get "tokens" .none))
    (succeeds : Succeeds response reply) :
    let stream := body.stream spec developerId providerId (chunks ++ response :: later) ending
    ∃ billed completion, (∀ met : Circumstances, met.node = some providerId →
        met.call = .reply (.dict response) →
        (InferenceRequest.chat body).work runtime spec stream.worstCase met =
          .ok { providerId := providerId, billed := billed,
                completion := completion }) ∧
      (∃ books, stream.leave runtime.parseInt none = (.finished, books) ∧
        stream.billable books = billed) ∧
      ∀ met : Surroundings, 0 ≤ developerBalance met.atBody developerId →
        chatStreamBody settings stream runtime.parseInt met none =
          settledRows settings stream billed := by
  intro stream
  obtain ⟨usage, reported⟩ := @usageFrom_total runtime.parseInt reply
    succeeds.finite (promptTokenBound body) (maxOutput body spec)
  obtain ⟨after, absorbed, -⟩ := @ChatStream.absorb_total stream
    runtime.parseInt chunks .start finite
  have left : stream.leave runtime.parseInt none =
      (.finished, { after with final := some usage }) := by
    have passed := @ChatStream.consume_append stream runtime.parseInt none
      chunks (response :: later) .start after 0 kinds absorbed
      (fun _ _ => ⟨by simp, by simp⟩)
    unfold ChatStream.leave
    have frames : stream.frames = chunks ++ response :: later := rfl
    rw [frames, passed, ChatStream.consume, succeeds.kind]
    rw [succeeds.terminal reported]
    rfl
  -- the report is already cut at the ceiling
  have cut : stream.completionTokens { after with final := some usage } = usage.completionTokens :=
    min_eq_left (usageFrom_completion reported)
  have billable : stream.billable { after with final := some usage } =
      min (chatCost spec usage.promptTokens usage.completionTokens) stream.worstCase := by
    rw [ChatStream.billable, cut]
    rfl
  refine ⟨_, .chat ((reply.lookup "content").getD (.str ""))
    (finishReason usage (maxOutput body spec)) usage, ?_,
    ⟨_, left, billable⟩, ?_⟩
  · intro _ node call
    simp only [InferenceRequest.work, node, call, succeeds.dispatch,
      InferenceRequest.read, reported, Option.bind_eq_bind,
      Option.bind_some, Py.Value.getD]
  · intro met _
    have settled := @streamSettle_eq settings stream met.atBody [] _ (by rwa [append_nil])
      (stream.billable_le { after with final := some usage })
    unfold chatStreamBody
    rw [if_neg (by simp), left]
    dsimp only
    rw [settled, billable]
    rfl

/-! A node that counts fifty tokens for one chunk, with a count that is no
number for the next, and reports two in the end. -/

def inflatedChunks : List Frame :=
  [[("type", .str "chunk"), ("delta", .str "hel"), ("tokens", .int 50)],
   [("type", .str "chunk"), ("delta", .str "lo"), ("tokens", .str "x")]]

def honestReply : List (String × Py.Value) := [("content", .str "hello"),
   ("usage", .dict [("prompt_tokens", .int 900), ("completion_tokens", .int 2)])]

def honestResponse : Frame := [("type", .str "response"), ("status", .int 200),
   ("payload", .dict honestReply)]

theorem streamed_bill_eq_unary_inflated :
    let stream := twoBytes.stream (.chat "llama-3.1-8b" (5 / 100) (8 / 100)) 7 9
      (inflatedChunks ++ [honestResponse]) .exhausted
    ∃ billed, quantizeUsdc billed = 4500 ∧
      chatStreamBody Settings.default stream plainRuntime.parseInt oneUsdc
        none = settledRows Settings.default stream billed := by
  have finiteInt (count : Int) : Finite (.int count) := by rintro _ ⟨⟩
  have succeeds : Succeeds honestResponse honestReply := by
    refine ⟨rfl, ⟨200, by decide, rfl⟩, rfl, ?_⟩
    rintro _ ⟨⟩ field _ ⟨⟩
    rw [lookup_cons, lookup_cons]
    cases field == "prompt_tokens" <;> cases field == "completion_tokens" <;> rintro _ ⟨⟩
  obtain ⟨billed, _, -, ⟨_, left, bill⟩, settles⟩ :=
    @streamed_bill_eq_unary Settings.default plainRuntime twoBytes
      (.chat "llama-3.1-8b" (5 / 100) (8 / 100)) 7 9 inflatedChunks []
      honestResponse honestReply .exhausted (by decide)
      (by
        intro _ member
        simp only [inflatedChunks, mem_cons, not_mem_nil, or_false] at member
        rcases member with rfl | rfl
        · exact finiteInt _
        · rintro _ ⟨⟩)
      succeeds
  have amount : quantizeUsdc ((twoBytes.stream (.chat "llama-3.1-8b" (5 / 100) (8 / 100)) 7 9
      (inflatedChunks ++ [honestResponse]) .exhausted).billable
        ((twoBytes.stream (.chat "llama-3.1-8b" (5 / 100) (8 / 100)) 7 9
          (inflatedChunks ++ [honestResponse]) .exhausted).leave
            plainRuntime.parseInt none).2) = 4500 := by
    decide +kernel
  rw [left, bill] at amount
  exact ⟨billed, amount, settles oneUsdc (by decide)⟩

end Gridix
