import Gridix.Relay.Streams

/-!
# How a tunnelled stream ends

The consumer of a stream sees chunks and at most one frame after them.  A
frame that arrives at a full buffer costs the stream its oldest one, and any
frame that is not a chunk counts as the end of the node's work, also one that
the relay has made itself.
-/

namespace Gridix.Relay

open List Serial

variable {stream moved : TunnelStream} {event : StreamEvent} {events : List StreamEvent}
  {requestId error : String} {chunks rest : List Frame} {frame : Frame}

theorem errorFrame_known (made : frame ∈ [errorFrame error]) : frame.kind ≠ .unknown := by
  rw [mem_singleton.mp made]
  intro no
  cases no

/-- Chunks, and then at most one other frame, which ends the reading. -/
structure Ordered (stream : TunnelStream) (chunks rest : List Frame) : Prop where
  queued : ∀ frame ∈ stream.queue, frame.kind ≠ .unknown
  yielded : stream.yielded = chunks ++ rest
  chunk : ∀ frame ∈ chunks, frame.kind = .chunk
  other : ∀ frame ∈ rest, frame.kind = .response ∨ frame.kind = .error
  single : rest.length ≤ 1
  reading : stream.phase = .sending ∨ stream.phase = .reading → rest = []
  finishing : stream.phase = .finishing → rest ≠ []
  told : stream.phase ≠ .ended → stream.cancelled = false

namespace Ordered

theorem opened (requestId : String) : Ordered (.opened requestId) [] [] :=
  ⟨forall_mem_nil _, rfl, forall_mem_nil _, forall_mem_nil _, Nat.zero_le 1, fun _ => rfl,
    by rintro ⟨⟩, fun _ => rfl⟩

theorem buffered (ordered : Ordered stream chunks rest) (kept : Bool) {queue : List Frame}
    (queued : ∀ frame ∈ queue, frame ∈ stream.queue ∨ frame.kind ≠ .unknown) :
    Ordered { stream with queue := queue, registered := kept } chunks rest :=
  { ordered with
    queued := fun frame mem => (queued frame mem).elim (ordered.queued frame) id }

theorem leave (ordered : Ordered stream chunks rest) : Ordered stream.leave chunks rest :=
  { ordered with
    reading := by rintro (⟨⟨⟩⟩ | ⟨⟨⟩⟩)
    finishing := by rintro ⟨⟩
    told := fun running => absurd rfl running }

theorem resume (ordered : Ordered stream chunks rest) :
    ∃ chunks rest, Ordered stream.resume chunks rest := by
  unfold TunnelStream.resume
  split
  · rename_i frame _ phase queued
    have nothing := ordered.reading (.inr phase)
    subst nothing
    have told := ordered.told (by rw [phase]; decide)
    have known := ordered.queued
    rw [queued, forall_mem_cons] at known
    by_cases kind : frame.kind = .chunk
    · refine ⟨chunks ++ [frame], [], known.2, ?_, ?_, forall_mem_nil _, Nat.zero_le 1,
        fun _ => rfl, ?_, fun _ => told⟩
      · simp [ordered.yielded]
      · rw [forall_mem_append, forall_mem_singleton]
        exact ⟨ordered.chunk, kind⟩
      · simp [kind]
    · refine ⟨chunks, [frame], known.2, ?_, ordered.chunk, ?_, Nat.le_refl 1, ?_,
        fun _ => cons_ne_nil _ _, fun _ => told⟩
      · simp [ordered.yielded]
      · rw [forall_mem_singleton]
        cases here : frame.kind with
        | chunk => exact absurd here kind
        | unknown => exact absurd here known.1
        | response => exact .inl rfl
        | error => exact .inr rfl
      · simp [kind]
  · exact ⟨chunks, rest, ordered.leave⟩
  · exact ⟨chunks, rest, ordered⟩

theorem step_other (ordered : Ordered stream chunks rest)
    (waits : event ≠ .resume) :
    Ordered (stream.step event) chunks rest := by
  cases event with
  | sent =>
    simp only [TunnelStream.step]
    split_ifs with sending
    · exact { ordered with
        reading := fun _ => ordered.reading (.inl sending)
        finishing := by rintro ⟨⟩
        told := fun _ => ordered.told (by rw [sending]; decide) }
    · exact ordered
  | sendFails =>
    simp only [TunnelStream.step]
    split_ifs
    · exact { ordered with
        reading := by rintro (⟨⟨⟩⟩ | ⟨⟨⟩⟩)
        finishing := by rintro ⟨⟩
        told := fun running => absurd rfl running }
    · exact ordered
  | incoming message =>
    simp only [TunnelStream.step, TunnelStream.handleIncoming]
    cases found : addressed stream.requestId message with
    | none => exact ordered
    | some =>
      dsimp only [TunnelStream.offer]
      split_ifs
      · refine ordered.buffered _ fun other mem => (mem_append.mp mem).imp_right fun new => ?_
        unfold addressed at found
        (repeat' split at found) <;> cases found <;> simp_all
      · exact ordered.buffered _ fun other mem =>
          (mem_append.mp mem).imp mem_of_mem_tail errorFrame_known
      · exact ordered
  | failAll =>
    simp only [TunnelStream.step, TunnelStream.failAll]
    split_ifs
    · exact ordered.buffered _ fun other mem =>
        (mem_append.mp mem).imp_right errorFrame_known
    · exact ordered.buffered _ fun other mem => .inl mem
    · exact ordered
  | timeout =>
    simp only [TunnelStream.step]
    split_ifs
    · exact { ordered.leave with }
    · exact ordered
  | close =>
    simp only [TunnelStream.step]
    split_ifs
    · exact ordered.leave
    · exact ordered
  | resume => exact absurd rfl waits

theorem run (events : List StreamEvent) (ordered : Ordered stream chunks rest) :
    ∃ chunks rest, Ordered (Serial.run TunnelStream.step events stream) chunks rest := by
  induction events generalizing stream chunks rest with
  | nil => exact ⟨chunks, rest, ordered⟩
  | cons event _ ih =>
    obtain ⟨_, _, next⟩ : ∃ chunks rest, Ordered (stream.step event) chunks rest := by
      by_cases resumes : event = .resume
      · exact resumes ▸ ordered.resume
      · exact ⟨chunks, rest, ordered.step_other resumes⟩
    exact ih next

end Ordered

/-- What is yielded is an initial part of what the node has sent, and after it
at most one error of the relay, as long as no frame arrives at a full buffer. -/
theorem yields_prefix_then_error
    (unflooded : AllPermitted TunnelStream.step TunnelStream.Unflooded events (.opened requestId)) :
    ∃ sent errors, (Serial.run TunnelStream.step events (.opened requestId)).yielded =
        sent ++ errors ∧
      sent <+: events.flatMap (·.frames requestId) ∧ errors.length ≤ 1 ∧
      ∀ frame ∈ errors, frame.kind = .error := by
  obtain ⟨kept, errors, both, early, failing, -⟩ := run_conveys (.opened requestId) unflooded
  obtain ⟨chunks, rest, ordered⟩ := (Ordered.opened requestId).run events
  have few : (chunks ++ rest).countP (fun frame => frame.kind != .chunk) ≤ 1 := by
    rw [countP_append, countP_eq_zero.mpr (by simpa using ordered.chunk), Nat.zero_add]
    exact Nat.le_trans countP_le_length ordered.single
  rw [← ordered.yielded] at few
  rcases prefix_or_prefix_of_prefix ⟨_, both⟩ (prefix_append kept errors) with
    within | ⟨more, whole⟩
  · exact ⟨_, [], (append_nil _).symm, within.trans early, Nat.zero_le 1, forall_mem_nil _⟩
  · rw [← whole, append_assoc, append_cancel_left_eq] at both
    have failed : ∀ frame ∈ more, frame.kind = .error := fun frame mem =>
      failing frame (both ▸ mem_append_left _ mem)
    refine ⟨kept, more, whole.symm, early, ?_, failed⟩
    have counted : more.countP (fun frame => frame.kind != .chunk) = more.length := by
      rw [countP_eq_length]
      intro frame mem
      rw [failed frame mem]
      rfl
    rw [← whole, countP_append, counted] at few
    exact Nat.le_trans (Nat.le_add_left _ _) few

theorem run_incoming {frames : List Frame} (registered : stream.registered = true)
    (own : ∀ frame ∈ frames, addressed stream.requestId (.dict frame) = some frame)
    (fits : stream.queue.length + frames.length ≤ maxStreamQueueFrames) :
    Serial.run TunnelStream.step (frames.map fun frame => .incoming (.dict frame)) stream =
      { stream with queue := stream.queue ++ frames } := by
  induction frames generalizing stream with
  | nil => simp [Serial.run]
  | cons frame _ ih =>
    rw [length_cons] at fits
    have queued : stream.step (.incoming (.dict frame)) =
        { stream with queue := stream.queue ++ [frame] } := by
      simp only [TunnelStream.step, TunnelStream.handleIncoming, own frame mem_cons_self,
        registered, if_true, TunnelStream.offer]
      exact if_pos (by omega)
    have onward := @ih (stream.step (.incoming (.dict frame))) (by rw [queued]; exact registered)
      (by rw [queued]; exact fun other mem => own other (mem_cons_of_mem _ mem))
      (by rw [queued]; simp only [length_append, length_singleton]; omega)
    refine onward.trans ?_
    rw [queued]
    simp

def counted (tokens : Nat) : Frame :=
  [("type", .str "chunk"), ("request_id", .str "r"), ("tokens", .int tokens)]

theorem counted_own {counts : List Nat} (mem : frame ∈ counts.map counted) :
    addressed "r" (.dict frame) = some frame ∧ frame.kind = .chunk := by
  obtain ⟨_, _, rfl⟩ := mem_map.mp mem
  exact ⟨rfl, rfl⟩

def filled (queue : List Frame) : TunnelStream :=
  { TunnelStream.opened "r" with phase := .reading, queue := queue }

def filling (counts : List Nat) : List StreamEvent :=
  .sent :: counts.map fun tokens => .incoming (.dict (counted tokens))

theorem run_filling {counts : List Nat} (fits : counts.length ≤ maxStreamQueueFrames) :
    Serial.run TunnelStream.step (filling counts) (.opened "r") = filled (counts.map counted) := by
  have queued := @run_incoming (filled []) (counts.map counted) rfl
    (fun frame mem => (counted_own mem).1) (by simpa [filled] using fits)
  rwa [map_map] at queued

theorem run_overflow {counts : List Nat} (full : counts.length + 1 = maxStreamQueueFrames)
    (first last : Nat) (later : List StreamEvent) :
    Serial.run TunnelStream.step
      (filling (first :: counts) ++ .incoming (.dict (counted last)) :: later) (.opened "r") =
    Serial.run TunnelStream.step later { filled (counts.map counted ++
      [errorFrame "stream exceeded the relay's buffer"]) with registered := false } := by
  have atCap : ¬ ((first :: counts).map counted).length < maxStreamQueueFrames := by simp [full]
  rw [run_append, @run_filling (first :: counts) (Nat.le_of_eq full)]
  exact congrArg (Serial.run TunnelStream.step later) (if_neg atCap)

theorem overflow_drops_oldest :
    let events := filling (0 :: 1 :: replicate 1022 2) ++ [.incoming (.dict (counted 3)), .resume]
    (Serial.run TunnelStream.step events (.opened "r")).yielded = [counted 1] ∧
      (events.flatMap (·.frames "r")).head? = some (counted 0) := by
  constructor
  · rw [run_overflow (by rw [length_cons, length_replicate]; rfl)]
    rfl
  · rfl

theorem yields_prefix_then_error_hello : ∃ sent errors, (Serial.run TunnelStream.step
      (filling [1] ++ [.resume, .failAll "tunnel closed", .resume]) (.opened "r")).yielded =
        sent ++ errors ∧
      sent <+: [counted 1] ∧ errors.length ≤ 1 ∧ ∀ frame ∈ errors, frame.kind = .error :=
  yields_prefix_then_error ⟨trivial, fun _ => Nat.succ_pos _, trivial, trivial, trivial, trivial⟩

def failure (text : String) : String := if text = "" then "tunnel closed" else text

def failAll (text : String) (streams : List TunnelStream) : List TunnelStream :=
  streams.map fun stream => stream.failAll (failure text)

end Gridix.Relay
