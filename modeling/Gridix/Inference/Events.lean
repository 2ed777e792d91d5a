import Gridix.Inference.Agreement

/-!
# The events of a streamed completion

What a client reads that stays to the end: the role, the texts, then the usage
or an error, and the mark of the end.
-/

namespace Gridix

open List

inductive SseEvent where
  | role
  | content (delta : String)
  | finish (reason : String)
  | usage (usage : ChatUsage) (cost : Int) (providerId : Uuid)
  | error (message : String)
  | done

/-- The events sent, and whether the generator raised. -/
structure Emission where
  events : List SseEvent
  raises : Bool

def Frame.spoken (frame : Frame) : Option String :=
  match frame.kind, frame.get "delta" .none with
  | .chunk, .str delta => if delta = "" then none else some delta
  | _, _ => none

/-- `json.dumps` refuses an integer with more digits. -/
def maxPrinted : Int := 10 ^ 4300

namespace ChatStream

variable (settings : Settings) (stream : ChatStream) (parse : String → Option Int)
  (met : Surroundings)

def relay (books : Accounting) : List Frame → List SseEvent × Exit × Accounting
  | [] => ([],
      match stream.ending with
      | .exhausted => .finished
      | .dispatchError => .dispatchFailed
      | .raises => .raised, books)
  | frame :: rest =>
    match frame.kind with
    | .chunk =>
      match frame.spoken with
      | none => relay books rest
      | some delta =>
        match stream.sawChunk parse books frame with
        | none => ([], .raised, books)
        | some books =>
          let (events, ending) := relay books rest
          (.content delta :: events, ending)
    | .error => ([], .nodeFailed, books)
    | .unknown => relay books rest
    | .response => ([], stream.terminal parse books frame)

def conclude (exit : Exit) (books : Accounting) : Emission :=
  let failed : Emission :=
    match streamRelease stream met.atBody [] with
    | none => ⟨[], true⟩
    | some _ => ⟨[.error "The node failed to complete the request.", .done], false⟩
  match exit with
  | .nodeFailed => failed
  | .dispatchFailed => failed
  | .finished =>
    match settleReservation settings stream.developerId ⟨[], []⟩ ⟨met.atBody, [], []⟩
        stream.providerId stream.held (stream.billable books) with
    | (.error _, _) => ⟨[], true⟩
    | (.ok cost, _) =>
      let usage : ChatUsage := ⟨stream.promptBilled books, stream.completionTokens books⟩
      let finish := .finish (if stream.maxOutput ≤ usage.completionTokens then "length" else "stop")
      if usage.promptTokens + usage.completionTokens < maxPrinted then
        ⟨[finish, .usage usage cost stream.providerId, .done], false⟩
      else ⟨[finish], true⟩
  | _ => ⟨[], true⟩

/-- `chat_stream_body`, for a client that reads all of it. -/
def emits : Emission :=
  let (events, exit, books) := stream.relay parse .start stream.frames
  let last := stream.conclude settings met exit books
  ⟨.role :: events ++ last.events, last.raises⟩

end ChatStream

def Frame.ends (frame : Frame) : Bool :=
  match frame.kind with
  | .error | .response => true
  | _ => false

def spokenDeltas (frames : List Frame) : List String :=
  (frames.takeWhile fun frame => !frame.ends).filterMap Frame.spoken

/-- The frames up to the first that ends the stream. -/
def heard : List Frame → List Frame
  | [] => []
  | frame :: rest => if frame.ends then [frame] else frame :: heard rest

/-- What the body converts to an integer is a number, and a finite one, and the
usage can be printed. -/
def Frame.Legible (stream : ChatStream) (parse : String → Option Int) (frame : Frame) : Prop :=
  (frame.spoken ≠ none → Finite (frame.get "tokens" .none)) ∧
    (frame.kind = .response → ∃ status, frame.status parse = some status ∧ (status < 400 →
      ∀ reply, frame.get "payload" .none = .dict reply → Readable reply ∧
        ∀ usage, usageFrom parse (.dict reply) stream.promptTokens stream.maxOutput = some usage →
          usage.promptTokens + min usage.completionTokens stream.maxOutput < maxPrinted))

/-- The body neither raises nor refuses to print the usage. -/
def ChatStream.Concludes (stream : ChatStream) (exit : Exit) (books : Accounting) : Prop :=
  exit.resolves = true ∧
    (exit = .finished → stream.promptBilled books + stream.completionTokens books < maxPrinted)

variable {settings : Settings} {stream : ChatStream} {parse : String → Option Int}
  {met : Surroundings} {frame : Frame} {frames : List Frame} {books : Accounting}

theorem Frame.spoken_eq_none (silent : frame.kind ≠ .chunk) : frame.spoken = none := by
  unfold Frame.spoken
  split
  · exact absurd ‹_› silent
  · rfl

theorem Frame.hasDelta_eq (chunk : frame.kind = .chunk) : frame.hasDelta = frame.spoken.isSome := by
  unfold Frame.hasDelta Frame.spoken
  rw [chunk]
  cases frame.get "delta" .none with
  | str delta => by_cases empty : delta = "" <;> simp [empty]
  | _ => rfl

theorem ChatStream.relay_consume (books : Accounting) (index : Nat) (frames : List Frame) :
    (stream.relay parse books frames).2 = stream.consume parse none books index frames := by
  induction frames generalizing books index with
  | nil =>
    unfold ChatStream.relay ChatStream.consume
    cases stream.ending <;> rfl
  | cons frame _ ih =>
    rw [ChatStream.relay, ChatStream.consume]
    cases kind : frame.kind with
    | chunk =>
      rw [Frame.hasDelta_eq kind]
      cases frame.spoken with
      | none => exact ih books (index + 1)
      | some _ =>
        dsimp only [Option.isSome]
        cases stream.sawChunk parse books frame with
        | none => rfl
        | some books => exact ih books (index + 1)
    | unknown => exact ih books (index + 1)
    | _ => rfl

theorem Frame.reportedTokens_iff (parse : String → Option Int) (frame : Frame) :
    (∃ reported, frame.reportedTokens parse = some reported) ↔
      Finite (frame.get "tokens" .none) := by
  refine ⟨?_, Frame.reportedTokens_total parse⟩
  rintro ⟨_, read⟩ number found
  unfold Frame.reportedTokens at read
  rw [found] at read
  cases number with
  | finite exact => exact ⟨exact, rfl⟩
  | infinite | nan => cases read

theorem ChatStream.concludes_unreported
    (small : stream.promptTokens + stream.maxOutput < maxPrinted)
    (unreported : books.final = none) :
    stream.Concludes .finished books := by
  refine ⟨rfl, fun _ => ?_⟩
  rw [promptBilled, completionTokens, unreported]
  dsimp only
  omega

theorem ChatStream.terminal_concludes
    (small : stream.promptTokens + stream.maxOutput < maxPrinted) (unreported : books.final = none)
    (response : frame.kind = .response) :
    stream.Concludes (stream.terminal parse books frame).1 (stream.terminal parse books frame).2 ↔
      frame.Legible stream parse := by
  have silent : frame.spoken = none := Frame.spoken_eq_none (by rw [response]; decide)
  unfold Frame.Legible ChatStream.terminal
  rw [← Frame.status]
  simp only [silent, ne_eq, not_true_eq_false, false_implies, true_and, response, true_implies]
  cases frame.status parse with
  | none => simp [Concludes, Exit.resolves]
  | some status =>
    simp only [Option.some.injEq, exists_eq_left']
    split_ifs with failed object
    · exact ⟨fun _ fine => absurd failed (by omega), fun _ => ⟨rfl, fun ends => by cases ends⟩⟩
    · cases found : frame.get "payload" .none with
      | dict reply =>
        rcases @usageFrom_cases parse reply stream.promptTokens stream.maxOutput with
          ⟨readable, usage, read, _⟩ | ⟨unreadable, read⟩
        · simp [read, Concludes, Exit.resolves, promptBilled, completionTokens, readable,
            Int.not_le.mp failed]
        · simp [read, Concludes, Exit.resolves, unreadable, Int.not_le.mp failed]
      | _ => rw [found] at object; cases object
    · refine ⟨fun _ _ reply found => ?_, fun _ => concludes_unreported small unreported⟩
      rw [found] at object
      exact absurd rfl object

theorem spokenDeltas_next (goesOn : frame.ends = false) :
    spokenDeltas (frame :: frames) = frame.spoken.toList ++ spokenDeltas frames := by
  rw [spokenDeltas, takeWhile_cons, goesOn, Bool.not_false]
  cases spoken : frame.spoken with
  | none => exact filterMap_cons_none spoken
  | some => exact filterMap_cons_some spoken

theorem spokenDeltas_last (ends : frame.ends = true) : spokenDeltas (frame :: frames) = [] := by
  rw [spokenDeltas, takeWhile_cons, ends]
  rfl

theorem ChatStream.relay_concludes (orderly : stream.ending ≠ .raises)
    (small : stream.promptTokens + stream.maxOutput < maxPrinted) {books : Accounting}
    (unreported : books.final = none) :
    (stream.Concludes (stream.relay parse books frames).2.1 (stream.relay parse books frames).2.2 ↔
      ∀ frame ∈ heard frames, frame.Legible stream parse) ∧
    ((∀ frame ∈ heard frames, frame.Legible stream parse) →
      (stream.relay parse books frames).1 = (spokenDeltas frames).map .content) := by
  induction frames generalizing books with
  | nil =>
    refine ⟨iff_of_true ?_ (forall_mem_nil _), fun _ => rfl⟩
    unfold ChatStream.relay
    cases ending : stream.ending with
    | raises => exact absurd ending orderly
    | exhausted => exact concludes_unreported small unreported
    | dispatchError => exact ⟨rfl, nofun⟩
  | cons frame rest ih =>
    unfold ChatStream.relay heard
    cases kind : frame.kind with
    | chunk =>
      have goesOn : frame.ends = false := by rw [Frame.ends, kind]
      rw [spokenDeltas_next goesOn, goesOn]
      simp only [Bool.false_eq_true, if_false, forall_mem_cons]
      have plain : frame.Legible stream parse ↔
          (frame.spoken ≠ none → Finite (frame.get "tokens" .none)) :=
        and_iff_left fun response => by cases kind.symm.trans response
      cases spoken : frame.spoken with
      | none =>
        simp only [plain.mpr fun some => absurd spoken some, true_and]
        exact ih unreported
      | some delta =>
        have finite : frame.Legible stream parse ↔ Finite (frame.get "tokens" .none) := by
          simp [plain, spoken]
        rw [finite, ← Frame.reportedTokens_iff parse]
        dsimp only
        cases read : frame.reportedTokens parse with
        | none =>
          have raises : stream.sawChunk parse books frame = none := by
            rw [ChatStream.sawChunk, read]
            rfl
          rw [raises]
          exact ⟨⟨fun no => (by cases no.1), fun ⟨⟨_, no⟩, _⟩ => (by cases no)⟩,
            fun ⟨⟨_, no⟩, _⟩ => (by cases no)⟩
        | some reported =>
          rw [ChatStream.sawChunk, read]
          simp only [Option.some.injEq, exists_eq', true_and]
          obtain ⟨exactly, events⟩ := @ih { books with
            emitted := min (reported.getD (books.emitted + 1)) stream.maxOutput } unreported
          exact ⟨exactly, fun legible => congrArg _ (events legible)⟩
    | unknown =>
      have goesOn : frame.ends = false := by rw [Frame.ends, kind]
      have silent : frame.spoken = none := Frame.spoken_eq_none (by rw [kind]; decide)
      rw [spokenDeltas_next goesOn, goesOn, silent]
      simp only [Bool.false_eq_true, if_false, forall_mem_cons]
      have legible : frame.Legible stream parse :=
        ⟨fun some => absurd silent some, fun response => by cases kind.symm.trans response⟩
      simp only [legible, true_and]
      exact ih unreported
    | error =>
      have ends : frame.ends = true := by rw [Frame.ends, kind]
      have silent : frame.spoken = none := Frame.spoken_eq_none (by rw [kind]; decide)
      rw [spokenDeltas_last ends, if_pos ends, forall_mem_singleton]
      exact ⟨iff_of_true ⟨rfl, nofun⟩ ⟨fun some => absurd silent some, fun response => by
        cases kind.symm.trans response⟩, fun _ => rfl⟩
    | response =>
      have ends : frame.ends = true := by rw [Frame.ends, kind]
      rw [spokenDeltas_last ends, if_pos ends, forall_mem_singleton]
      exact ⟨terminal_concludes small unreported kind, fun _ => rfl⟩

/-- A client that stays reads one role, the texts in order, then a finish and a
usage chunk or one error, and one mark of the end, and nothing is raised,
exactly if every frame that is read is legible. -/
theorem stream_shape (orderly : stream.ending ≠ .raises)
    (small : stream.promptTokens + stream.maxOutput < maxPrinted)
    (settles : ∀ books,
      streamSettle settings stream met.atBody [] (stream.billable books) ≠ none) :
    (∃ last, ((∃ message, last = [.error message]) ∨
        ∃ reason usage cost, last = [.finish reason, .usage usage cost stream.providerId]) ∧
      stream.emits settings parse met =
        ⟨.role :: (spokenDeltas stream.frames).map .content ++ (last ++ [.done]), false⟩) ↔
      ∀ frame ∈ heard stream.frames, frame.Legible stream parse := by
  obtain ⟨exactly, events⟩ := @ChatStream.relay_concludes stream parse stream.frames orderly small
    .start rfl
  rw [← exactly] at events ⊢
  unfold ChatStream.emits
  generalize stream.relay parse .start stream.frames = relayed at events ⊢
  obtain ⟨read, exit, books⟩ := relayed
  dsimp only [ChatStream.conclude] at events ⊢
  rw [streamRelease_eq]
  cases exit with
  | finished =>
    have settled := settles books
    unfold streamSettle at settled
    split at settled
    · rename_i code
      rw [code]
      dsimp only
      by_cases printed : stream.promptBilled books + stream.completionTokens books < maxPrinted
      · have concludes : stream.Concludes .finished books := ⟨rfl, fun _ => printed⟩
        rw [events concludes, if_pos printed]
        exact iff_of_true ⟨[_, _], .inr ⟨_, _, _, rfl⟩, rfl⟩ concludes
      · refine iff_of_false ?_ fun concludes => printed (concludes.2 rfl)
        rintro ⟨_, _, no⟩
        rw [if_neg printed] at no
        cases congrArg Emission.raises no
    · exact absurd rfl settled
  | nodeFailed | dispatchFailed =>
    rw [events ⟨rfl, nofun⟩]
    exact iff_of_true ⟨[_], .inl ⟨_, rfl⟩, rfl⟩ ⟨rfl, nofun⟩
  | raised | interrupted =>
    refine iff_of_false ?_ fun concludes => by cases concludes.1
    rintro ⟨_, _, no⟩
    cases congrArg Emission.raises no

theorem stream_shape_hello : ∃ last, ((∃ message, last = [.error message]) ∨
      ∃ reason usage cost, last = [.finish reason, .usage usage cost 9]) ∧
    helloStream.emits .default (fun _ => none) oneUsdc =
      ⟨.role :: [.content "hello"] ++ (last ++ [.done]), false⟩ := by
  have few : (4098 : Int) < maxPrinted := by
    have less : (4098 : Int) < 10 ^ 4 := by decide
    exact less.trans_le (pow_le_pow_right₀ (by decide) (by decide))
  refine (@stream_shape .default helloStream (fun _ => none) oneUsdc (by decide) few ?_).mpr ?_
  · intro books
    rw [streamSettle_eq (by decide) (helloStream.billable_le books)]
    exact Option.some_ne_none _
  · intro _ mem
    rcases mem_cons.mp mem with rfl | last
    · exact ⟨fun _ => by rintro _ ⟨⟩, fun response => absurd response (by decide)⟩
    · rw [mem_singleton.mp last]
      refine ⟨fun spoken => absurd rfl spoken, fun _ => ⟨200, rfl, fun _ => ?_⟩⟩
      rintro _ ⟨⟩
      refine ⟨⟨by rintro _ ⟨⟩, by rintro _ ⟨⟩⟩, ?_⟩
      rintro _ ⟨⟩
      have less : (2 : Int) < 4098 := by decide
      exact less.trans few

def garbledStream : ChatStream :=
  { helloStream with frames := [[("type", .str "response"), ("status", .str "ok")]] }

theorem garbled_status_raises :
    garbledStream.emits .default (fun _ => none) oneUsdc = ⟨[.role], true⟩ := rfl

end Gridix
