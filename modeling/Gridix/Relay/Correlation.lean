import Gridix.Base.KeyedRows
import Gridix.Relay.Streams

/-!
# What a tunnel still waits for

A tunnel finds the call or stream of a frame in two maps.  A request enters
one of them before it is sent and leaves it in a `finally` block that begins
after it was sent.
-/

namespace Gridix.Relay

open List

inductive CallError where
  | closed (error : String)
  | notSent
  | timeout
  | cancelled
  deriving DecidableEq, Repr

structure TunnelCall where
  requestId : String
  future : Option (Except CallError Frame)
  registered : Bool
  phase : Phase
  outcome : Option (Except CallError Frame)

namespace TunnelCall

def opened (requestId : String) : TunnelCall where
  requestId := requestId
  future := none
  registered := true
  phase := .sending
  outcome := none

def complete (call : TunnelCall) (answer : Except CallError Frame) : TunnelCall :=
  if call.registered ∧ call.future.isNone then { call with future := some answer } else call

def handleIncoming (call : TunnelCall) (message : Py.Value) : TunnelCall :=
  match addressed call.requestId message with
  | some frame => if frame.kind = .response then call.complete (.ok frame) else call
  | none => call

def leave (call : TunnelCall) (outcome : Except CallError Frame) : TunnelCall :=
  { call with registered := false, phase := .ended, outcome := some outcome }

def step (event : StreamEvent) (call : TunnelCall) : TunnelCall :=
  match event, call.phase with
  | .sent, .sending => { call with phase := .reading }
  -- the request is sent outside the `try`, so the future stays registered
  | .sendFails, .sending => { call with phase := .ended, outcome := some (.error .notSent) }
  | .incoming message, _ => call.handleIncoming message
  | .failAll error, _ => call.complete (.error (.closed error))
  | .resume, .reading =>
    match call.future with
    | some answer => call.leave answer
    | none => call
  | .timeout, .reading => if call.future.isNone then call.leave (.error .timeout) else call
  | .close, .reading => call.leave (.error .cancelled)
  | _, _ => call

end TunnelCall

inductive Request where
  | call (call : TunnelCall)
  | stream (stream : TunnelStream)

namespace Request

def requestId : Request → String
  | .call request => request.requestId
  | .stream request => request.requestId

def phase : Request → Phase
  | .call request => request.phase
  | .stream request => request.phase

def registered : Request → Bool
  | .call request => request.registered
  | .stream request => request.registered

def step (event : StreamEvent) : Request → Request
  | .call request => .call (request.step event)
  | .stream request => .stream (request.step event)

end Request

def pending (requests : List Request) : List String := requests.filterMap fun
    | .call call => if call.registered then some call.requestId else none
    | .stream _ => none

def streams (requests : List Request) : List String := requests.filterMap fun
    | .call _ => none
    | .stream stream => if stream.registered then some stream.requestId else none

/-- What happens to a tunnel with its requests. -/
inductive TunnelEvent where
  | call (requestId : String)
  | stream (requestId : String)
  | moves (requestId : String) (event : StreamEvent)
  | receives (message : Py.Value)
  | drops (error : String)

def tunnelStep : TunnelEvent → List Request → List Request
  | .call requestId, requests => requests ++ [.call (.opened requestId)]
  | .stream requestId, requests => requests ++ [.stream (.opened requestId)]
  | .moves requestId event, requests =>
    KeyedRows.update Request.requestId requestId (Request.step event) requests
  | .receives message, requests => requests.map (Request.step (.incoming message))
  | .drops error, requests => requests.map (Request.step (.failAll error))

/-- Identifiers are fresh, and requests can be sent. -/
def Sends (requests : List Request) : TunnelEvent → Prop
  | .call requestId => requestId ∉ requests.map Request.requestId
  | .stream requestId => requestId ∉ requests.map Request.requestId
  | .moves _ event => event ≠ .sendFails
  | _ => True

variable {request : Request} {requests : List Request} {event : StreamEvent}

theorem Request.step_requestId (event : StreamEvent) (request : Request) :
    (request.step event).requestId = request.requestId := by
  cases request with
  | stream stream => exact TunnelStream.step_requestId event stream
  | call call =>
    change (call.step event).requestId = call.requestId
    unfold TunnelCall.step TunnelCall.handleIncoming TunnelCall.complete
    repeat' split
    all_goals rfl

def Request.Released (request : Request) : Prop :=
  request.phase = .ended → request.registered = false

theorem TunnelCall.complete_released {call : TunnelCall} (released : (Request.call call).Released)
    (answer : Except CallError Frame) : (Request.call (call.complete answer)).Released := by
  unfold TunnelCall.complete
  split_ifs
  · exact released
  · exact released

theorem TunnelCall.step_released {call : TunnelCall} (released : (Request.call call).Released)
    (sends : event ≠ .sendFails) : (Request.call (call.step event)).Released := by
  unfold TunnelCall.step
  split
  · exact fun ended => by cases ended
  · exact absurd rfl sends
  · unfold TunnelCall.handleIncoming
    split
    · split_ifs
      · exact complete_released released _
      · exact released
    · exact released
  · exact complete_released released _
  · split
    · exact fun _ => rfl
    · exact released
  · split_ifs
    · exact fun _ => rfl
    · exact released
  · exact fun _ => rfl
  · exact released

theorem TunnelStream.step_released {stream : TunnelStream}
    (released : (Request.stream stream).Released) (sends : event ≠ .sendFails) :
    (Request.stream (stream.step event)).Released := by
  cases event with
  | sent =>
    rw [TunnelStream.step]
    split_ifs
    · exact fun ended => by cases ended
    · exact released
  | sendFails => exact absurd rfl sends
  | incoming _ =>
    rw [TunnelStream.step, TunnelStream.handleIncoming]
    split
    · split_ifs
      · unfold TunnelStream.offer
        split_ifs
        · exact released
        · exact fun _ => rfl
      · exact released
    · exact released
  | resume =>
    rw [TunnelStream.step, TunnelStream.resume]
    split
    · intro ended
      change (if _ then Phase.reading else Phase.finishing) = .ended at ended
      split_ifs at ended
    · exact fun _ => rfl
    · exact released
  | timeout =>
    rw [TunnelStream.step]
    split_ifs
    · exact fun _ => rfl
    · exact released
  | failAll _ =>
    rw [TunnelStream.step, TunnelStream.failAll]
    split_ifs
    · exact fun _ => rfl
    · exact fun _ => rfl
    · exact released
  | close =>
    rw [TunnelStream.step]
    split_ifs
    · exact fun _ => rfl
    · exact released

theorem Request.step_released (released : request.Released) (sends : event ≠ .sendFails) :
    (request.step event).Released := by
  cases request with
  | call => exact TunnelCall.step_released released sends
  | stream => exact TunnelStream.step_released released sends

structure Clean (requests : List Request) : Prop where
  distinct : (requests.map Request.requestId).Nodup
  released : ∀ request ∈ requests, request.Released

theorem Clean.begin (clean : Clean requests)
    (fresh : request.requestId ∉ requests.map Request.requestId)
    (sending : request.phase = .sending) : Clean (requests ++ [request]) := by
  constructor
  · rw [map_append]
    exact concat_eq_append ▸ clean.distinct.concat fresh
  · intro other mem ended
    rcases mem_append.mp mem with old | new
    · exact clean.released other old ended
    · rw [mem_singleton.mp new, sending] at ended
      cases ended

theorem Clean.everywhere (clean : Clean requests) (sends : event ≠ .sendFails) :
    Clean (requests.map (Request.step event)) := by
  constructor
  · have same : Request.requestId ∘ Request.step event = Request.requestId :=
      funext (Request.step_requestId event)
    rw [map_map, same]
    exact clean.distinct
  · intro _ mem
    obtain ⟨request, old, rfl⟩ := mem_map.mp mem
    exact Request.step_released (clean.released request old) sends

theorem Clean.step (clean : Clean requests) {event : TunnelEvent} (sends : Sends requests event) :
    Clean (tunnelStep event requests) := by
  cases event with
  | call => exact clean.begin sends rfl
  | stream => exact clean.begin sends rfl
  | moves _ event =>
    constructor
    · rw [tunnelStep, KeyedRows.keys_update (Request.step_requestId event)]
      exact clean.distinct
    · intro _ mem
      obtain ⟨request, old, rfl⟩ := mem_map.mp mem
      split_ifs
      · exact Request.step_released (clean.released request old) sends
      · exact clean.released request old
  | receives => exact clean.everywhere fun fails => by cases fails
  | drops => exact clean.everywhere fun fails => by cases fails

theorem registered_of_key {requestId : String}
    (key : requestId ∈ pending requests ∨ requestId ∈ streams requests) :
    ∃ request ∈ requests, request.registered = true ∧ request.requestId = requestId := by
  rcases key with key | key
  · obtain ⟨request, mem, found⟩ := mem_filterMap.mp key
    cases request with
    | call _ =>
      dsimp only at found
      split_ifs at found with registered
      cases found
      exact ⟨_, mem, registered, rfl⟩
    | stream => cases found
  · obtain ⟨request, mem, found⟩ := mem_filterMap.mp key
    cases request with
    | call => cases found
    | stream _ =>
      dsimp only at found
      split_ifs at found with registered
      cases found
      exact ⟨_, mem, registered, rfl⟩

/-- If every request can be sent, then one that has ended, however it did, is
in neither map. -/
theorem maps_released
    (reached : Serial.Reaches tunnelStep Sends (fun requests => requests = []) requests)
    (mem : request ∈ requests) (ended : request.phase = .ended) :
    request.requestId ∉ pending requests ∧ request.requestId ∉ streams requests := by
  have clean : Clean requests := by
    refine reached.invariant ?_ fun _ _ clean sends => clean.step sends
    rintro _ rfl
    exact ⟨nodup_nil, fun _ mem => absurd mem not_mem_nil⟩
  rw [← not_or]
  intro key
  obtain ⟨_, listed, registered, same⟩ := registered_of_key key
  rw [inj_on_of_nodup_map clean.distinct listed mem same, clean.released request mem ended]
    at registered
  cases registered

def emptyReply : Frame := [("type", .str "response"), ("request_id", .str "r")]

def answered : List Request :=
  Serial.run tunnelStep [.call "r", .call "s", .moves "r" .sent, .receives (.dict emptyReply),
    .moves "r" .resume] []

theorem maps_released_answered : "r" ∉ pending answered ∧ "r" ∉ streams answered := by
  refine @maps_released (.call ⟨"r", some (.ok emptyReply), false, .ended,
    some (.ok emptyReply)⟩) _ (Serial.Reaches.run (.start rfl) ?_) mem_cons_self rfl
  refine ⟨not_mem_nil, ?_, ?_, trivial, ?_, trivial⟩
  · change "s" ∉ ["r"]
    decide
  · rintro ⟨⟩
  · rintro ⟨⟩

theorem unsent_requests_leak :
    let requests := Serial.run tunnelStep
      [.call "r", .moves "r" .sendFails, .stream "s", .moves "s" .sendFails] []
    requests.map Request.phase = [.ended, .ended] ∧ pending requests = ["r"] ∧
      streams requests = ["s"] := by
  decide

end Gridix.Relay
