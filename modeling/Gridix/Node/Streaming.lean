import Gridix.Inference.Streaming

/-!
# The node's side of a stream

The node reads the backend's event stream line by line and sends one chunk
frame for each event that carries text, numbered by how many it has sent.
-/

namespace Gridix.Node

open List

abbrev Entries := List (String × Py.Value)

/-- The catalogue ids that the node serves, and the backend's names. -/
def modelMap : List (String × String) := [("llama3.2-3b", "llama3.2:3b")]

/-- What `json.loads` does: the nesting of a text can exhaust the stack,
which is not a `ValueError`. -/
inductive Decoded where
  | value (value : Py.Value)
  | valueError
  | recursionError

structure Runtime where
  loads : String → Decoded
  repr : Py.Value → String

structure Backend where
  lines : List String
  failure : Option String

def response (requestId : Py.Value) (status : Int) (payload : Entries) : Frame :=
  [("type", .str "response"), ("request_id", requestId),
   ("status", .int status), ("payload", .dict payload)]

def chunk (requestId : Py.Value) (delta : String) (tokens : Nat) : Frame :=
  [("type", .str "chunk"), ("request_id", requestId), ("delta", .str delta),
   ("tokens", .int tokens)]

@[simp] theorem kind_response (requestId : Py.Value) (status : Int) (payload : Entries) :
    (response requestId status payload).kind = .response := rfl

@[simp] theorem kind_chunk (requestId : Py.Value) (delta : String)
    (tokens : Nat) : (chunk requestId delta tokens).kind = .chunk := rfl

/-- The text of one event, or `""` if some level is not what it should
be. -/
def deltaOf (event : Entries) : String :=
  match event.lookup "choices" with
  | some (.list (.dict first :: _)) =>
    match first.lookup "delta" with
    | some (.dict delta) =>
      match delta.lookup "content" with
      | some (.str content) => content
      | _ => ""
    | _ => ""
  | _ => ""

inductive Line where
  | skipped
  | done
  | raises
  | event (event : Entries)

def readLine (runtime : Runtime) (line : String) : Line :=
  let line := (Py.strip line).toList
  if "data:".toList.isPrefixOf line then
    let data := Py.strip (String.ofList (line.drop 5))
    if data = "[DONE]" then .done
    else
      match runtime.loads data with
      | .value (.dict event) => .event event
      | .recursionError => .raises
      | _ => .skipped
  else .skipped

structure Generation where
  pieces : List String
  tokens : Nat
  usage : Entries
  sent : List Frame

def Generation.start : Generation := ⟨[], 0, [], []⟩

def Generation.take (requestId : Py.Value) (event : Entries) (made : Generation) : Generation :=
  let usage :=
    match event.lookup "usage" with
    | some (.dict usage) => usage
    | _ => made.usage
  let delta := deltaOf event
  if delta = "" then { made with usage := usage }
  else
    { pieces := made.pieces ++ [delta]
      tokens := made.tokens + 1
      usage := usage
      sent := made.sent ++ [chunk requestId delta (made.tokens + 1)] }

inductive LoopEnd where
  | exhausted
  | done
  | raised

def Generation.run (runtime : Runtime) (requestId : Py.Value)
    (made : Generation) : List String → Generation × LoopEnd
  | [] => (made, .exhausted)
  | line :: rest =>
    match readLine runtime line with
    | .skipped => made.run runtime requestId rest
    | .done => (made, .done)
    | .raises => (made, .raised)
    | .event event =>
      (made.take requestId event).run runtime requestId rest

def Generation.payload (made : Generation) : Entries :=
  [("content", .str (String.join made.pieces)), ("usage", .dict
     [("prompt_tokens", (made.usage.lookup "prompt_tokens").getD (.int 0)), ("completion_tokens",
        (made.usage.lookup "completion_tokens").getD (.int made.tokens))])]

def servedModel (model : Py.Value) : Option String :=
  match model with
  | .str id => modelMap.lookup id
  | _ => none

/-- The chunks that are sent, and the terminal frame that is returned
unless an exception gets out. -/
def handleStreamRequest (runtime : Runtime) (frame : Frame)
    (backend : Backend) : List Frame × Option Frame :=
  let requestId := frame.get "request_id" .none
  match (frame.get "payload" .none).orElse (.dict []) with
  | .dict payload =>
    let model := (payload.lookup "model").getD .none
    match servedModel model with
    | none =>
      ([], some (response requestId 400 [("error", .str ("model " ++
        runtime.repr model ++ " not served by this node"))]))
    | some _ =>
      let (made, ending) := Generation.start.run runtime requestId backend.lines
      match ending, backend.failure with
      | .raised, _ => (made.sent, none)
      | .exhausted, some failure =>
        (made.sent, some (response requestId 502
          [("error", .str ("ollama backend error: " ++ failure))]))
      | _, _ => (made.sent, some (response requestId 200 made.payload))
  -- anything else has no `get`
  | _ => ([], none)

def messages (runtime : Runtime) (frame : Frame) (backend : Backend) : List Frame :=
  let (chunks, reply) := handleStreamRequest runtime frame backend
  chunks ++ reply.toList

def numbered (requestId : Py.Value) (sent : Nat) : List String → List Frame
  | [] => []
  | delta :: rest =>
    chunk requestId delta (sent + 1) :: numbered requestId (sent + 1) rest

theorem numbered_append (requestId : Py.Value) (sent : Nat) (deltas more : List String) :
    numbered requestId sent (deltas ++ more) = numbered requestId sent deltas ++
        numbered requestId (sent + deltas.length) more := by
  induction deltas generalizing sent with
  | nil => rfl
  | cons _ rest ih =>
    rw [cons_append, numbered, ih, length_cons, Nat.add_comm rest.length, ← Nat.add_assoc]
    rfl

theorem numbered_of_prefix {requestId : Py.Value} {sent : Nat} {deltas : List String}
    {start : List Frame} (early : start <+: numbered requestId sent deltas) :
    ∃ spoken, spoken <+: deltas ∧ start = numbered requestId sent spoken := by
  induction deltas generalizing sent start with
  | nil => exact ⟨[], nil_prefix, prefix_nil.mp early⟩
  | cons delta _ ih =>
    rcases prefix_cons_iff.mp early with rfl | ⟨_, rfl, tail⟩
    · exact ⟨[], nil_prefix, rfl⟩
    · obtain ⟨spoken, within, rfl⟩ := ih tail
      exact ⟨delta :: spoken, cons_prefix_cons.mpr ⟨rfl, within⟩, rfl⟩

theorem length_numbered (requestId : Py.Value) (sent : Nat) (deltas : List String) :
    (numbered requestId sent deltas).length = deltas.length := by
  induction deltas generalizing sent with
  | nil => rfl
  | cons _ _ ih => exact congrArg (· + 1) (ih (sent + 1))

theorem Generation.run_sent (runtime : Runtime) (requestId : Py.Value)
    (made : Generation) (lines : List String) :
    ∃ deltas, "" ∉ deltas ∧ (made.run runtime requestId lines).1.sent =
        made.sent ++ numbered requestId made.tokens deltas := by
  induction lines generalizing made with
  | nil => exact ⟨[], not_mem_nil, (append_nil _).symm⟩
  | cons _ _ ih =>
    unfold Generation.run
    split
    · exact ih made
    · exact ⟨[], not_mem_nil, (append_nil _).symm⟩
    · exact ⟨[], not_mem_nil, (append_nil _).symm⟩
    · rename_i event _
      obtain ⟨one, spoken, sent, tokens⟩ : ∃ deltas, "" ∉ deltas ∧ (made.take requestId event).sent
          = made.sent ++ numbered requestId made.tokens deltas ∧ (made.take requestId event).tokens
              = made.tokens + deltas.length := by
        unfold Generation.take
        dsimp only
        split_ifs with silent
        · exact ⟨[], not_mem_nil, (append_nil _).symm, rfl⟩
        · exact ⟨[deltaOf event], fun mem =>
            silent (mem_singleton.mp mem).symm, rfl, rfl⟩
      obtain ⟨more, spokenMore, sentMore⟩ := ih (made.take requestId event)
      refine ⟨one ++ more, ?_, ?_⟩
      · simp [spoken, spokenMore]
      · rw [sentMore, sent, tokens, numbered_append, append_assoc]

theorem messages_eq (runtime : Runtime) (frame : Frame) (backend : Backend) :
    ∃ deltas replies, "" ∉ deltas ∧ (∀ reply ∈ replies, Frame.kind reply = .response) ∧
      messages runtime frame backend =
        numbered (frame.get "request_id" .none) 0 deltas ++ replies := by
  obtain ⟨deltas, spoken, sent⟩ := Generation.run_sent runtime
    (frame.get "request_id" .none) .start backend.lines
  unfold messages handleStreamRequest
  dsimp only
  split
  · split
    · exact ⟨[], [_], not_mem_nil, by simp, rfl⟩
    · split
      · exact ⟨deltas, [], spoken, nofun, congrArg (· ++ []) sent⟩
      · exact ⟨deltas, [_], spoken, by simp, congrArg (· ++ [_]) sent⟩
      · exact ⟨deltas, [_], spoken, by simp, congrArg (· ++ [_]) sent⟩
  · exact ⟨[], [], not_mem_nil, nofun, rfl⟩

end Gridix.Node
