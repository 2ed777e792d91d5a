import Gridix.Base.Serial
import Gridix.Inference.Streaming

/-!
# One streamed request in the relay

`Tunnel.stream` registers a queue under the request's id, which the receive
loop fills and the bridge to the coordinator drains.
-/

namespace Gridix.Relay

open List

def maxStreamQueueFrames : Nat := 1024

def errorFrame (error : String) : Frame := [("type", .str "error"), ("error", .str error)]

def requestFrame (requestId : String) (jobId : Py.Value) (method : String)
    (payload : List (String × Py.Value)) : Frame :=
  [("type", .str "request"), ("request_id", .str requestId),
   ("job_id", jobId), ("method", .str method), ("payload", .dict payload),
   ("stream", .bool true)]

/-- Where the generator is suspended: sending the request, waiting for a
frame or for its consumer, at the yield of the terminal frame, or nowhere. -/
inductive Phase where
  | sending
  | reading
  | finishing
  | ended
  deriving DecidableEq, Repr

/-- A streamed request and its buffer. -/
structure TunnelStream where
  requestId : String
  queue : List Frame
  registered : Bool
  phase : Phase
  yielded : List Frame
  timedOut : Bool
  cancelled : Bool

def TunnelStream.opened (requestId : String) : TunnelStream where
  requestId := requestId
  queue := []
  registered := true
  phase := .sending
  yielded := []
  timedOut := false
  cancelled := false

def addressed (requestId : String) : Py.Value → Option Frame
  | .dict frame =>
    match Frame.kind frame, Frame.get frame "request_id" .none with
    | .chunk, .str id => if id = requestId then some frame else none
    | .response, .str id => if id = requestId then some frame else none
    | _, _ => none
  | _ => none

inductive StreamEvent where
  | sent
  | sendFails
  | incoming (message : Py.Value)
  | resume
  | timeout
  | failAll (error : String)
  | close

namespace TunnelStream

/-- `_offer`: a frame too many ends the stream. -/
def offer (stream : TunnelStream) (frame : Frame) : TunnelStream :=
  if stream.queue.length < maxStreamQueueFrames then
    { stream with queue := stream.queue ++ [frame] }
  else
    { stream with
      registered := false
      queue := stream.queue.tail ++ [errorFrame "stream exceeded the relay's buffer"] }

def handleIncoming (stream : TunnelStream) (message : Py.Value) : TunnelStream :=
  match addressed stream.requestId message with
  | some frame => if stream.registered then stream.offer frame else stream
  | none => stream

def leave (stream : TunnelStream) : TunnelStream :=
  { stream with
    registered := false
    phase := .ended
    cancelled := stream.cancelled || stream.phase != .finishing }

def resume (stream : TunnelStream) : TunnelStream :=
  match stream.phase, stream.queue with
  | .reading, frame :: rest =>
    { stream with
      queue := rest
      yielded := stream.yielded ++ [frame]
      phase := if frame.kind = .chunk then .reading else .finishing }
  | .finishing, _ => stream.leave
  | _, _ => stream

def failAll (stream : TunnelStream) (error : String) : TunnelStream :=
  if stream.registered then
    { stream with
      registered := false
      queue :=
        if stream.queue.length < maxStreamQueueFrames then
          stream.queue ++ [errorFrame error]
        else stream.queue }
  else stream

def step : StreamEvent → TunnelStream → TunnelStream
  | .sent, stream =>
    if stream.phase = .sending then { stream with phase := .reading }
    else stream
  -- the request is sent outside the `try`, so the queue stays registered
  | .sendFails, stream =>
    if stream.phase = .sending then { stream with phase := .ended }
    else stream
  | .incoming message, stream => stream.handleIncoming message
  | .resume, stream => stream.resume
  | .timeout, stream =>
    if stream.phase = .reading ∧ stream.queue = [] then
      { stream.leave with timedOut := true }
    else stream
  | .failAll error, stream => stream.failAll error
  | .close, stream =>
    if stream.phase = .reading ∨ stream.phase = .finishing then
      stream.leave
    else stream

/-- What `relay_stream` sends to the coordinator, one line a frame. -/
def body (stream : TunnelStream) : List Frame := stream.yielded ++
    if stream.timedOut then [errorFrame "provider did not respond"] else []

def Roomy (stream : TunnelStream) (_ : StreamEvent) : Prop :=
  stream.queue.length < maxStreamQueueFrames

instance (stream : TunnelStream) (event : StreamEvent) : Decidable (stream.Roomy event) :=
  inferInstanceAs (Decidable (_ < _))

/-- No frame of the request arrives at a full buffer. -/
def Unflooded (stream : TunnelStream) : StreamEvent → Prop
  | .incoming message => (addressed stream.requestId message).isSome = true →
      stream.queue.length < maxStreamQueueFrames
  | _ => True

end TunnelStream

def StreamEvent.frames (requestId : String) : StreamEvent → List Frame
  | .incoming message => (addressed requestId message).toList
  | _ => []

/-- What was yielded and what is queued are an initial part of what has arrived,
with errors after it. -/
def Conveys (arrived : List Frame) (stream : TunnelStream) : Prop := ∃ kept errors,
    stream.yielded ++ stream.queue = kept ++ errors ∧ kept <+: arrived ∧
    (∀ frame ∈ errors, frame.kind = .error) ∧
    (stream.registered = true → kept = arrived ∧ errors = [])

namespace Conveys

variable {arrived : List Frame} {stream moved : TunnelStream}

theorem opened (requestId : String) : Conveys [] (.opened requestId) :=
  ⟨[], [], rfl, nil_prefix, nofun, fun _ => ⟨rfl, rfl⟩⟩

theorem same (conveys : Conveys arrived stream)
    (frames : moved.yielded ++ moved.queue = stream.yielded ++ stream.queue)
    (registered : moved.registered = true → stream.registered = true) :
    Conveys arrived moved := by
  obtain ⟨kept, errors, both, early, failing, whole⟩ := conveys
  exact ⟨kept, errors, frames.trans both, early, failing, fun still => whole (registered still)⟩

theorem offer (conveys : Conveys arrived stream) (registered : stream.registered = true)
    (room : stream.queue.length < maxStreamQueueFrames) (frame : Frame) :
    Conveys (arrived ++ [frame]) (stream.offer frame) := by
  obtain ⟨kept, _, both, -, -, whole⟩ := conveys
  obtain ⟨rfl, rfl⟩ := whole registered
  rw [append_nil] at both
  rw [TunnelStream.offer, if_pos room]
  refine ⟨kept ++ [frame], [], ?_, prefix_rfl, nofun, fun _ => ⟨rfl, rfl⟩⟩
  rw [append_nil, ← both, append_assoc]

theorem failAll (conveys : Conveys arrived stream) (error : String) :
    Conveys arrived (stream.failAll error) := by
  unfold TunnelStream.failAll
  split_ifs
  · obtain ⟨kept, errors, both, early, failing, -⟩ := conveys
    refine ⟨kept, errors ++ [errorFrame error], ?_, early, ?_, nofun⟩
    · dsimp only
      rw [← append_assoc, both, append_assoc]
    · intro frame mem
      rcases mem_append.mp mem with mem | mem
      · exact failing frame mem
      · rw [mem_singleton.mp mem]
        rfl
  · exact conveys.same rfl nofun
  · exact conveys

theorem step (conveys : Conveys arrived stream) (event : StreamEvent)
    (room : stream.Unflooded event) :
    Conveys (arrived ++ event.frames stream.requestId) (stream.step event) := by
  cases event with
  | incoming message =>
    change Conveys (arrived ++ (addressed stream.requestId message).toList)
      (stream.handleIncoming message)
    unfold TunnelStream.handleIncoming
    cases found : addressed stream.requestId message with
    | none => rwa [Option.toList_none, append_nil]
    | some frame =>
      split_ifs with registered
      · exact conveys.offer registered (room (by rw [found]; rfl)) frame
      · obtain ⟨kept, errors, both, early, failing, -⟩ := conveys
        refine ⟨kept, errors, both, early.trans (prefix_append _ _), failing, ?_⟩
        rw [(Bool.eq_false_iff.mpr registered)]
        nofun
  | failAll error =>
    simp only [StreamEvent.frames, append_nil]
    exact conveys.failAll error
  | resume =>
    simp only [StreamEvent.frames, append_nil]
    change Conveys arrived stream.resume
    unfold TunnelStream.resume
    split
    · rename_i _ _ queued
      exact conveys.same (by simp [queued]) id
    · exact conveys.same rfl nofun
    · exact conveys
  | sent | sendFails | timeout | close =>
    simp only [StreamEvent.frames, append_nil]
    simp only [TunnelStream.step]
    split_ifs
    · exact conveys.same rfl (by simp [TunnelStream.leave])
    · exact conveys

end Conveys

theorem TunnelStream.step_requestId (event : StreamEvent) (stream : TunnelStream) :
    (stream.step event).requestId = stream.requestId := by
  cases event <;> simp only [TunnelStream.step, handleIncoming, offer, resume,
      TunnelStream.failAll] <;>
    (repeat' split) <;> rfl

variable {events : List StreamEvent}

theorem run_conveys {arrived : List Frame} {stream : TunnelStream}
    (conveys : Conveys arrived stream)
    (unflooded : Serial.AllPermitted TunnelStream.step TunnelStream.Unflooded events stream) :
    Conveys (arrived ++ events.flatMap (·.frames stream.requestId))
      (Serial.run TunnelStream.step events stream) := by
  induction events generalizing arrived stream with
  | nil => rwa [flatMap_nil, append_nil]
  | cons event _ ih =>
    have onward := ih (conveys.step event unflooded.1) unflooded.2
    rwa [TunnelStream.step_requestId, append_assoc] at onward

theorem prefix_of_append {Item : Type} {start left right : List Item} {Holds : Item → Prop}
    (early : start <+: left ++ right) (satisfy : ∀ item ∈ start, Holds item)
    (violate : ∀ item ∈ right, ¬ Holds item) : start <+: left := by
  rcases prefix_or_prefix_of_prefix early (prefix_append left right)
    with shorter | ⟨more, rfl⟩
  · exact shorter
  · have inside := (prefix_append_right_inj left).mp early
    have none : more = [] := eq_nil_iff_forall_not_mem.mpr
      fun item mem => violate item (inside.subset mem) (satisfy item (mem_append_right left mem))
    rw [none, append_nil]

theorem prefix_of_body {requestId : String} {received : List Frame}
    (roomy : Serial.AllPermitted TunnelStream.step TunnelStream.Roomy events (.opened requestId))
    (forwarded : received <+: (Serial.run TunnelStream.step events (.opened requestId)).body)
    (chunks : ∀ frame ∈ received, frame.kind = .chunk) :
    received <+: events.flatMap (·.frames requestId) := by
  obtain ⟨kept, errors, both, early, failing, -⟩ := run_conveys (.opened requestId) <|
    roomy.mono fun _ event room => by
      cases event with
      | incoming => exact fun _ => room
      | _ => trivial
  have yielded := prefix_of_append forwarded chunks (by
    intro _ mem
    split_ifs at mem
    · rw [mem_singleton.mp mem]
      decide
    · cases mem)
  have inside : received <+: kept ++ errors := by
    rw [← both]
    exact yielded.trans (prefix_append _ _)
  refine (prefix_of_append inside chunks ?_).trans early
  intro frame mem
  rw [failing frame mem]
  decide

end Gridix.Relay
