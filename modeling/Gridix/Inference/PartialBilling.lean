import Gridix.Inference.Agreement
import Gridix.Inference.Undelivered
import Gridix.Node.Streaming
import Gridix.Relay.Streams

/-!
# Partial billing

The node numbers its chunks, the relay forwards them in order, and the
coordinator keeps the last number it has seen.
-/

namespace Gridix

open List

/-- The developer leaves when the body has read exactly these frames. -/
inductive LeavesAfter (stream : ChatStream) : List Frame → Suspension → Prop where
  | beforeStart : LeavesAfter stream [] .beforeStart
  | role : LeavesAfter stream [] .role
  | waiting {received : List Frame} (early : received <+: stream.frames) :
      LeavesAfter stream received (.frame received.length)
  | writing {received : List Frame} {last : Frame} (early : received ++ [last] <+: stream.frames) :
      LeavesAfter stream (received ++ [last]) (.content received.length)
  | closing : LeavesAfter stream stream.frames .closing
  | beforeRelease (broken : stream.ending = .dispatchError) :
      LeavesAfter stream stream.frames .beforeCommit
  | afterRelease (broken : stream.ending = .dispatchError) :
      LeavesAfter stream stream.frames .afterCommit

section

variable {settings : Settings} {stream : ChatStream}
  {parse : String → Option Int} {met : Surroundings} {others own : Ledger}
  {received : List Frame} {books : Accounting} {point : Suspension} {requestId : Py.Value}
  {deltas : List String}

theorem finalisePartial_charged (funds : 0 ≤ developerBalance (others ++ own) stream.developerId) :
    charges (finalisePartial settings stream others own (stream.partialBillable books)) =
      charges own ++ chargeFor settings stream.developerId stream.providerId
        (stream.partialBillable books) := by
  unfold finalisePartial
  split_ifs with pos
  · rw [streamSettle_eq funds (ChatStream.partialBillable_le pos)]
    simp
  · rw [streamRelease_eq, chargeFor_of_nonpos _ _ _ (not_lt.mp pos)]
    simp

theorem ChatStream.consume_waiting (books : Accounting) (index : Nat) (rest : List Frame) :
    stream.consume parse (some (.frame index)) books index rest = (.interrupted, books) := by
  cases rest with
  | nil | cons => exact if_pos rfl

theorem ChatStream.consume_writing {index : Nat} {counted : Accounting} {last : Frame}
    (kind : last.kind = .chunk) (spoken : last.hasDelta = true)
    (absorbed : stream.absorb parse books last = some counted) (rest : List Frame) :
    stream.consume parse (some (.content index)) books index (last :: rest) =
      (.interrupted, counted) := by
  rw [ChatStream.absorb, if_pos spoken] at absorbed
  rw [ChatStream.consume, kind]
  rw [if_pos spoken, absorbed]
  exact if_pos rfl

theorem ChatStream.consume_whole (kinds : ∀ frame ∈ stream.frames, frame.kind = .chunk)
    (absorbed : stream.frames.foldlM (stream.absorb parse) .start = some books)
    (outside : ∀ index, point ≠ .frame index ∧ point ≠ .content index) :
    (stream.consume parse (some point) .start 0 stream.frames).2 = books ∧
      (stream.ending = .dispatchError →
        (stream.consume parse (some point) .start 0 stream.frames).1 = .dispatchFailed) := by
  have read := @ChatStream.consume_append stream parse (some point)
    stream.frames [] .start books 0 kinds absorbed (by
      intro offset _
      simpa using outside (0 + offset))
  rw [append_nil] at read
  rw [read, ChatStream.consume, if_neg (by simpa using (outside _).1)]
  cases stream.ending with
  | exhausted | raises => exact ⟨rfl, by rintro ⟨⟩⟩
  | dispatchError => exact ⟨rfl, fun _ => rfl⟩

theorem LeavesAfter.leave (leaves : LeavesAfter stream received point)
    (kinds : ∀ frame ∈ received, frame.kind = .chunk)
    (spoken : ∀ frame ∈ received, frame.hasDelta = true)
    (absorbed : received.foldlM (stream.absorb parse) .start = some books)
    (start : point ≠ .beforeStart) (role : point ≠ .role) :
    stream.leave parse (some point) = (.interrupted, books) ∨
      stream.leave parse (some point) = (.dispatchFailed, books) ∧
        (point = .beforeCommit ∨ point = .afterCommit) := by
  unfold ChatStream.leave
  cases leaves with
  | beforeStart => exact absurd rfl start
  | role => exact absurd rfl role
  | waiting early =>
    obtain ⟨rest, split⟩ := early
    have read := @ChatStream.consume_append stream parse
      (some (.frame received.length)) received rest .start books 0 kinds
      absorbed (by
        simp only [ne_eq, Option.some.injEq,
          Suspension.frame.injEq, reduceCtorEq, not_false_eq_true, and_true]
        omega)
    rw [← split, read, Nat.zero_add, ChatStream.consume_waiting]
    exact .inl rfl
  | @writing earlier last early =>
    obtain ⟨rest, split⟩ := early
    rw [foldlM_append] at absorbed
    obtain ⟨middle, before, absorbed⟩ := Option.bind_eq_some_iff.mp absorbed
    obtain ⟨_, step, same⟩ := Option.bind_eq_some_iff.mp absorbed
    cases same
    have read := @ChatStream.consume_append stream parse
      (some (.content earlier.length)) earlier (last :: rest) .start middle
      0 (fun frame mem => kinds frame (mem_append_left _ mem))
      before (by
        simp only [ne_eq, Option.some.injEq,
          Suspension.content.injEq, reduceCtorEq, not_false_eq_true,
          true_and]
        omega)
    have lastly : last ∈ earlier ++ [last] := by simp
    rw [← split, append_assoc, singleton_append, read,
      Nat.zero_add, ChatStream.consume_writing (kinds _ lastly) (spoken _ lastly) step]
    exact .inl rfl
  | closing =>
    obtain ⟨counted, -⟩ := @ChatStream.consume_whole stream parse books
      .closing kinds absorbed (by simp)
    exact .inl (congrArg (Exit.interrupted, ·) counted)
  | beforeRelease broken =>
    obtain ⟨counted, failed⟩ := @ChatStream.consume_whole stream parse
      books .beforeCommit kinds absorbed (by simp)
    exact .inr ⟨Prod.ext (failed broken) counted, .inl rfl⟩
  | afterRelease broken =>
    obtain ⟨counted, failed⟩ := @ChatStream.consume_whole stream parse
      books .afterCommit kinds absorbed (by simp)
    exact .inr ⟨Prod.ext (failed broken) counted, .inr rfl⟩

theorem LeavesAfter.charged (leaves : LeavesAfter stream received point)
    (kinds : ∀ frame ∈ received, frame.kind = .chunk)
    (spoken : ∀ frame ∈ received, frame.hasDelta = true)
    (absorbed : received.foldlM (stream.absorb parse) .start = some books)
    (funds : 0 ≤ developerBalance met.atFinaliser stream.developerId) :
    charges (chatStreamBody settings stream parse met (some point)) =
      chargeFor settings stream.developerId stream.providerId (stream.partialBillable books) := by
  have finalised := @finalisePartial_charged settings stream met.atFinaliser
    [] books (by rwa [append_nil])
  have left := leaves.leave kinds spoken absorbed
  unfold chatStreamBody
  split_ifs with start role
  · cases start
    cases leaves
    cases absorbed
    rw [partialBillable_start, chargeFor_of_nonpos _ _ _ le_rfl, charges_nil]
  · cases role
    cases leaves
    cases absorbed
    exact finalised
  rcases left (by simpa using start) (by simpa using role) with left | ⟨left, committing⟩
  · rw [left]
    exact finalised
  rw [left]
  dsimp only
  rw [streamRelease_eq, resolveInBody]
  rcases committing with rfl | rfl
  · rw [if_pos rfl]
    exact finalised
  -- the hold is back already, and the finaliser charges all the same
  · rw [if_neg (by simp), if_pos rfl, finalisePartial_charged]
    · simp
    · have returned := (@returnRows_effect stream).2
      simp only [nil_append, developerBalance, accountBalance_append] at returned funds ⊢
      omega

theorem hasDelta_chunk {delta : String} (text : delta ≠ "") (requestId : Py.Value) (tokens : Nat) :
    (Node.chunk requestId delta tokens).hasDelta = true :=
  bne_iff_ne.mpr text

theorem ChatStream.absorb_chunk {delta : String} (text : delta ≠ "")
    (requestId : Py.Value) (tokens : Nat) :
    stream.absorb parse books (Node.chunk requestId delta tokens) =
      some { books with emitted := min (tokens : Int) stream.maxOutput } := by
  have reported : (Node.chunk requestId delta tokens).reportedTokens parse =
      some (some (tokens : Int)) :=
    congrArg (some ∘ some) (max_eq_right (Int.natCast_nonneg tokens))
  rw [ChatStream.absorb, if_pos (hasDelta_chunk text requestId tokens), ChatStream.sawChunk]
  rfl

theorem ChatStream.absorb_numbered {sent : Nat}
    (spoken : "" ∉ deltas) (counted : books.emitted = min (sent : Int) stream.maxOutput) :
    (Node.numbered requestId sent deltas).foldlM (stream.absorb parse) books =
      some { books with
        emitted := min ((sent + deltas.length : Nat) : Int) stream.maxOutput } := by
  induction deltas generalizing books sent with
  | nil =>
    rw [length_nil, Nat.add_zero, ← counted]
    rfl
  | cons _ rest ih =>
    rw [mem_cons, not_or] at spoken
    obtain ⟨text, later⟩ := spoken
    have onward := @ih { books with
      emitted := min ((sent + 1 : Nat) : Int) stream.maxOutput } (sent + 1)
      later rfl
    rw [Node.numbered, foldlM_cons, ChatStream.absorb_chunk (Ne.symm text), length_cons,
      Nat.add_comm rest.length, ← Nat.add_assoc]
    exact onward

theorem numbered_spoken {sent : Nat} (spoken : "" ∉ deltas) :
    ∀ frame ∈ Node.numbered requestId sent deltas, Frame.hasDelta frame = true := by
  induction deltas generalizing sent with
  | nil => nofun
  | cons _ _ ih =>
    rw [mem_cons, not_or] at spoken
    obtain ⟨text, later⟩ := spoken
    intro frame mem
    rcases mem_cons.mp mem with rfl | mem
    · exact hasDelta_chunk (Ne.symm text) requestId (sent + 1)
    · exact ih later frame mem

theorem ChatStream.partialBillable_counted {count : Nat}
    (pos : 0 < count) (ceiling : 1 ≤ stream.maxOutput) :
    stream.partialBillable ⟨min (count : Int) stream.maxOutput, none⟩ =
      min (chatCost stream.spec stream.promptTokens
        (min count stream.maxOutput)) stream.worstCase := by
  have tokens : stream.completionTokens ⟨min (count : Int) stream.maxOutput, none⟩ =
        min (count : Int) stream.maxOutput :=
    min_eq_left (min_le_right _ _)
  rw [ChatStream.partialBillable, if_pos (by omega), ChatStream.billable, tokens]
  rfl

end

/-- A developer who leaves after `received` is charged once, for as many tokens
as there are chunks, up to the ceiling and to the worst case. -/
theorem partial_billing_exact {settings : Settings} {stream : ChatStream}
    {parse : String → Option Int} {met : Surroundings} {point : Suspension} {runtime : Node.Runtime}
    {backend : Node.Backend} {requestId method : String} {jobId : Py.Value} {payload : Node.Entries}
    {events : List Relay.StreamEvent} {received : List Frame}
    (sent : events.flatMap (·.frames requestId) <+: Node.messages runtime
      (Relay.requestFrame requestId jobId method payload) backend)
    (roomy : Serial.AllPermitted Relay.TunnelStream.step
      Relay.TunnelStream.Roomy events (.opened requestId))
    (forwarded : received <+: (Serial.run Relay.TunnelStream.step events (.opened requestId)).body)
    (chunks : ∀ frame ∈ received, frame.kind = .chunk) (leaves : LeavesAfter stream received point)
    (ceiling : 1 ≤ stream.maxOutput)
    (funds : 0 ≤ developerBalance met.atFinaliser stream.developerId) :
    charges (chatStreamBody settings stream parse met (some point)) =
      if received = [] then []
      else chargeFor settings stream.developerId stream.providerId
        (min (chatCost stream.spec stream.promptTokens
          (min received.length stream.maxOutput)) stream.worstCase) := by
  obtain ⟨_, _, spoken, answers, messages⟩ := Node.messages_eq
    runtime (Relay.requestFrame requestId jobId method payload) backend
  have arrived := (Relay.prefix_of_body roomy forwarded chunks).trans sent
  rw [messages] at arrived
  have early := Relay.prefix_of_append arrived chunks (by
    intro reply member
    rw [answers reply member]
    decide)
  obtain ⟨texts, within, rfl⟩ := Node.numbered_of_prefix early
  have nonempty : "" ∉ texts := fun member =>
    spoken (within.subset member)
  cases texts with
  | nil =>
    rw [leaves.charged chunks nofun rfl funds, partialBillable_start,
      chargeFor_of_nonpos _ _ _ le_rfl]
    rfl
  | cons =>
    have none : (Accounting.start).emitted = min ((0 : Nat) : Int) stream.maxOutput :=
      (min_eq_left (zero_le_one.trans ceiling)).symm
    rw [leaves.charged chunks (numbered_spoken nonempty)
      (ChatStream.absorb_numbered nonempty none) funds,
      Node.length_numbered, Nat.zero_add]
    exact congrArg _ (ChatStream.partialBillable_counted (Nat.succ_pos _) ceiling)

def echoRuntime : Node.Runtime where
  loads _ := .value (.dict [("choices", .list [.dict [("delta", .dict [("content", .str "Hi")])]])])
  repr _ := "None"

def firstChunk : Frame := Node.chunk (.str "r") "Hi" 1

theorem partial_billing_exact_oneOfTwo :
    charges (chatStreamBody Settings.default (emptyStream [firstChunk])
      (fun _ => none) oneUsdc (some (.frame 1))) = chargeRows Settings.default 7 9 500 := by
  refine (@partial_billing_exact Settings.default (emptyStream [firstChunk])
    (fun _ => none) oneUsdc (.frame 1) echoRuntime
    ⟨["data: first", "data: second"], none⟩ "r" "chat.completions" .none
    [("model", .str "llama3.2-3b")]
    [.sent, .incoming (.dict firstChunk), .resume] [firstChunk] ?_ ?_ ?_ ?_
    (.waiting prefix_rfl) (by decide) (by decide)).trans
    (by decide +kernel)
  · exact ⟨[_, _], rfl⟩
  · exact ⟨by decide, by decide, by decide, trivial⟩
  · exact prefix_rfl
  · intro _ member
    cases mem_singleton.mp member
    rfl

/-- A chunk leaves the evidence within the ceiling, and shrinks it exactly if
it reports fewer tokens than were seen before. -/
theorem ChatStream.sawChunk_emitted {stream : ChatStream} {parse : String → Option Int}
    {books after : Accounting} {frame : Frame} (ceiling : 0 ≤ stream.maxOutput)
    (started : 0 ≤ books.emitted ∧ books.emitted ≤ stream.maxOutput)
    (saw : stream.sawChunk parse books frame = some after) :
    (0 ≤ after.emitted ∧ after.emitted ≤ stream.maxOutput) ∧ (books.emitted ≤ after.emitted ↔
        ∀ count, frame.reportedTokens parse = some (some count) → books.emitted ≤ count) := by
  obtain ⟨reported, read, counted⟩ := Option.bind_eq_some_iff.mp saw
  cases counted
  cases reported with
  | none =>
    rw [read]
    simp only [Option.getD_none, Option.some.injEq, reduceCtorEq, false_implies, implies_true,
      iff_true]
    omega
  | some count =>
    have nonneg : 0 ≤ count := by
      unfold Frame.reportedTokens at read
      dsimp only at read
      split_ifs at read
      · obtain ⟨value, _, same⟩ := Option.map_eq_some_iff.mp read
        cases same
        exact le_max_left 0 value
      · cases read
    rw [read]
    simp only [Option.getD_some, Option.some.injEq, forall_eq']
    omega

/-- The evidence lies between nothing and the ceiling, and shrinks exactly with
a chunk that reports fewer tokens than were seen before. -/
theorem evidence_grows {stream : ChatStream} {parse : String → Option Int} {chunks : List Frame}
    {books : Accounting} (ceiling : 0 ≤ stream.maxOutput)
    (seen : chunks.foldlM (stream.sawChunk parse) Accounting.start = some books) :
    (0 ≤ books.emitted ∧ books.emitted ≤ stream.maxOutput) ∧
      ∀ frame after, stream.sawChunk parse books frame = some after →
        (books.emitted ≤ after.emitted ↔ ∀ count, frame.reportedTokens parse = some (some count) →
          books.emitted ≤ count) := by
  have bounded : 0 ≤ books.emitted ∧ books.emitted ≤ stream.maxOutput := by
    induction chunks using List.reverseRecOn generalizing books with
    | nil =>
      cases seen
      exact ⟨le_rfl, ceiling⟩
    | append_singleton _ _ ih =>
      rw [foldlM_append] at seen
      obtain ⟨_, earlier, saw⟩ := Option.bind_eq_some_iff.mp seen
      obtain ⟨_, saw, counted⟩ := Option.bind_eq_some_iff.mp saw
      cases counted
      exact (ChatStream.sawChunk_emitted ceiling (ih earlier) saw).1
  exact ⟨bounded, fun frame after saw =>
    (ChatStream.sawChunk_emitted ceiling bounded saw).2⟩

theorem evidence_grows_second :
    (Accounting.mk 1 none).emitted ≤ (Accounting.mk 2 none).emitted := by
  refine ((@evidence_grows (emptyStream []) (fun _ => none) [firstChunk] ⟨1, none⟩ (by decide)
    rfl).2 (Node.chunk (.str "r") "Hi" 2) ⟨2, none⟩ rfl).mpr ?_
  intro _ reported
  cases reported
  decide

theorem evidence_shrinks :
    [Node.chunk (.str "r") "Hi" 5].foldlM ((emptyStream []).sawChunk fun _ => none)
        Accounting.start = some ⟨5, none⟩ ∧
      (emptyStream []).sawChunk (fun _ => none) ⟨5, none⟩ (Node.chunk (.str "r") "Hi" 2) =
        some ⟨2, none⟩ :=
  ⟨rfl, rfl⟩

end Gridix
