import Gridix.Inference.Metering
import Gridix.Inference.Session

/-!
# Streamed chat completions

The body of a streamed completion owns the hold.  It settles or releases it on
a session of its own, and a `finally` block resolves the hold in a shielded
task whenever the local flag `settled` was not reached.
-/

namespace Gridix

abbrev Frame := List (String × Py.Value)

def Frame.get (frame : Frame) (key : String) (default : Py.Value) : Py.Value :=
  (frame.lookup key).getD default

inductive FrameKind where
  | chunk
  | error
  | response
  | unknown
  deriving DecidableEq, Repr

def Frame.kind (frame : Frame) : FrameKind :=
  match frame.get "type" .none with
  | .str "chunk" => .chunk
  | .str "error" => .error
  | .str "response" => .response
  | _ => .unknown

/-- A chunk counts only with a non-empty text. -/
def Frame.hasDelta (frame : Frame) : Bool :=
  match frame.get "delta" .none with
  | .str delta => delta != ""
  | _ => false

/-- A node's cumulative token count, if it sent a usable one; reading it
raises on an infinite or undefined float. -/
def Frame.reportedTokens (parse : String → Option Int) (frame : Frame) : Option (Option Int) :=
  let value := frame.get "tokens" .none
  if value.isNumber then
    (value.toInt parse).map fun count => some (max 0 count)
  else some none

def Frame.status (parse : String → Option Int) (frame : Frame) : Option Int :=
  ((frame.get "status" (.int 200)).orElse (.int 200)).toInt parse

inductive StreamEnd where
  | exhausted
  | dispatchError
  | raises
  deriving DecidableEq, Repr

/-- A chat request with the frames that answer it. -/
structure ChatStream where
  spec : ModelSpec
  developerId : Uuid
  providerId : Uuid
  worstCase : ℚ
  promptTokens : Int
  maxOutput : Int
  frames : List Frame
  ending : StreamEnd

def ChatStream.held (stream : ChatStream) : Int := heldAmount stream.worstCase

/-- What the stream has metered so far. -/
structure Accounting where
  emitted : Int
  final : Option ChatUsage

def Accounting.start : Accounting := { emitted := 0, final := none }

namespace ChatStream

variable (stream : ChatStream)

def sawChunk (parse : String → Option Int) (books : Accounting)
    (frame : Frame) : Option Accounting := do
  let reported ← frame.reportedTokens parse
  some { books with
    emitted := min (reported.getD (books.emitted + 1)) stream.maxOutput }

def completionTokens (books : Accounting) : Int :=
  match books.final with
  | some usage => min usage.completionTokens stream.maxOutput
  | none => min books.emitted stream.maxOutput

def promptBilled (books : Accounting) : Int :=
  match books.final with
  | some usage => usage.promptTokens
  | none => stream.promptTokens

/-- The metered cost, at most the hold's. -/
def billable (books : Accounting) : ℚ := min (chatCost stream.spec (stream.promptBilled books)
    (stream.completionTokens books)) stream.worstCase

/-- A stream that ended early and produced nothing is not charged. -/
def partialBillable (books : Accounting) : ℚ :=
  if 0 < stream.completionTokens books then stream.billable books else 0

end ChatStream

/-- The await and yield points of the body.  `beforeCommit` and `afterCommit`
lie inside `_settle` and `_release`, before `settled` is set. -/
inductive Suspension where
  | beforeStart
  | role
  | frame (index : Nat)
  | content (index : Nat)
  | closing
  | beforeCommit
  | afterCommit
  | trailing
  | shielded
  deriving DecidableEq, Repr

inductive Exit where
  | finished
  | nodeFailed
  | dispatchFailed
  | raised
  | interrupted
  deriving DecidableEq, Repr

def ChatStream.terminal (stream : ChatStream)
    (parse : String → Option Int) (books : Accounting) (frame : Frame) :
    Exit × Accounting :=
  match ((frame.get "status" (.int 200)).orElse (.int 200)).toInt parse with
  | none => (.raised, books)
  | some status =>
    if 400 ≤ status then (.nodeFailed, books)
    else
      let payload := frame.get "payload" .none
      if payload.isDict then
        match usageFrom parse payload stream.promptTokens stream.maxOutput with
        | none => (.raised, books)
        | some usage => (.finished, { books with final := some usage })
      else (.finished, books)

/-- The loop over the frames from `index` on, interrupted where the
disconnect lands. -/
def ChatStream.consume (stream : ChatStream) (parse : String → Option Int)
    (disconnect : Option Suspension) (books : Accounting) (index : Nat) :
    List Frame → Exit × Accounting
  | [] =>
    if disconnect = some (.frame index) then (.interrupted, books)
    else
      match stream.ending with
      | .exhausted => (.finished, books)
      | .dispatchError => (.dispatchFailed, books)
      | .raises => (.raised, books)
  | frame :: rest =>
    if disconnect = some (.frame index) then (.interrupted, books)
    else
      match frame.kind with
      | .chunk =>
        if frame.hasDelta then
          match stream.sawChunk parse books frame with
          | none => (.raised, books)
          | some books =>
            if disconnect = some (.content index) then
              (.interrupted, books)
            else stream.consume parse disconnect books (index + 1) rest
        else stream.consume parse disconnect books (index + 1) rest
      | .error => (.nodeFailed, books)
      | .unknown => stream.consume parse disconnect books (index + 1) rest
      | .response => stream.terminal parse books frame

/-- What others had committed when the body resolves the hold, and when the
finaliser does. -/
structure Surroundings where
  atBody : Ledger
  atFinaliser : Ledger

section

variable (settings : Settings) (stream : ChatStream)

/-- `_settle` on a session of its own: the rows the stream has committed
afterwards, unless it raises. -/
def streamSettle (others own : Ledger) (actual : ℚ) : Option Ledger :=
  match settleReservation settings stream.developerId ⟨[], []⟩
      ⟨others, own, []⟩ stream.providerId stream.held actual with
  | (.ok _, session) => some session.own
  | (.error _, _) => none

def streamRelease (others own : Ledger) : Option Ledger :=
  match releaseReservation stream.developerId ⟨others, own, []⟩ stream.held with
  | (.ok _, session) => some session.own
  | (.error _, _) => none

/-- The finaliser never raises and is shielded from the disconnect. -/
def finalisePartial (others own : Ledger) (actual : ℚ) : Ledger :=
  if 0 < actual then
    (streamSettle settings stream others own actual).getD own
  else (streamRelease stream others own).getD own

def resolveInBody (met : Surroundings) (disconnect : Option Suspension)
    (books : Accounting) (resolution : Option Ledger) : Ledger :=
  let finalise (own : Ledger) : Ledger := finalisePartial settings stream met.atFinaliser own
      (stream.partialBillable books)
  match resolution with
  | none => finalise []
  | some own =>
    if disconnect = some .beforeCommit then finalise []
    else if disconnect = some .afterCommit then finalise own
    else own

/-- Leaving the frames closes their generator, which is itself an await. -/
def ChatStream.leave (parse : String → Option Int)
    (disconnect : Option Suspension) : Exit × Accounting :=
  match stream.consume parse disconnect .start 0 stream.frames with
  | (exit, books) =>
    if disconnect = some .closing then (.interrupted, books)
    else (exit, books)

/-- `chat_stream_body`: the rows it has committed when everything it started
is over. -/
def chatStreamBody (parse : String → Option Int) (met : Surroundings)
    (disconnect : Option Suspension) : Ledger :=
  let finalise (books : Accounting) : Ledger := finalisePartial settings stream met.atFinaliser []
      (stream.partialBillable books)
  -- a generator that is never iterated never enters its `try`
  if disconnect = some .beforeStart then []
  else if disconnect = some .role then finalise .start
  else
    match stream.leave parse disconnect with
    | (.interrupted, books) => finalise books
    | (.raised, books) => finalise books
    | (.nodeFailed, books) =>
      resolveInBody settings stream met disconnect books (streamRelease stream met.atBody [])
    | (.dispatchFailed, books) =>
      resolveInBody settings stream met disconnect books (streamRelease stream met.atBody [])
    | (.finished, books) =>
      resolveInBody settings stream met disconnect books
        (streamSettle settings stream met.atBody [] (stream.billable books))

end

section

variable {settings : Settings} {stream : ChatStream} {others own : Ledger} {met : Surroundings}
  {disconnect : Option Suspension}

def settledRows (settings : Settings) (stream : ChatStream) (actual : ℚ) : Ledger :=
  returnRows stream.developerId stream.held ++
    if quantizeUsdc actual ≤ 0 then []
    else chargeRows settings stream.developerId stream.providerId (quantizeUsdc actual)

theorem streamRelease_eq : streamRelease stream others own =
      some (own ++ returnRows stream.developerId stream.held) := by
  obtain ⟨_, quantised⟩ := exists_quantizeUsdc_eq_heldAmount stream.worstCase
  unfold streamRelease
  rw [ChatStream.held, quantised, releaseReservation_eq]
  rfl

/-- A settlement commits all its rows, or raises because the funds and the
returned hold do not cover the charge. -/
theorem streamSettle_cases (actual : ℚ) : (streamSettle settings stream others own actual = none ∧
      0 < quantizeUsdc actual ∧
      developerBalance (others ++ own) stream.developerId + stream.held < quantizeUsdc actual) ∨
    (streamSettle settings stream others own actual =
        some (own ++ settledRows settings stream actual) ∧
      ¬ (0 < quantizeUsdc actual ∧
        developerBalance (others ++ own) stream.developerId + stream.held <
          quantizeUsdc actual)) := by
  obtain ⟨amount, quantised⟩ := exists_quantizeUsdc_eq_heldAmount stream.worstCase
  have nonneg : 0 ≤ quantizeUsdc amount := quantised ▸ heldAmount_nonneg stream.worstCase
  have settlement := @settleReservation_cases settings stream.developerId
    ⟨others, own, []⟩ ⟨[], []⟩ stream.providerId amount actual
  dsimp only at settlement
  rw [balanceSeen_returned rfl nonneg] at settlement
  have seen : fundsSeen settings stream.developerId ⟨[], []⟩ ⟨others, own, []⟩ =
      developerBalance (others ++ own) stream.developerId := rfl
  unfold streamSettle
  rw [settledRows, ChatStream.held, quantised]
  rcases settlement with ⟨costs, short, _, _, settled, -⟩ |
    ⟨covered, paid, after, settled, afterOwn, -⟩
  · left
    rw [settled]
    exact ⟨rfl, costs, short⟩
  · right
    rw [settled]
    exact ⟨congrArg some afterOwn, covered⟩

theorem streamSettle_eq {actual : ℚ}
    (funds : 0 ≤ developerBalance (others ++ own) stream.developerId)
    (within : actual ≤ stream.worstCase) :
    streamSettle settings stream others own actual =
      some (own ++ settledRows settings stream actual) := by
  have covered : quantizeUsdc actual ≤ stream.held := quantizeUsdc_le_heldAmount within
  rcases @streamSettle_cases settings stream others own actual with ⟨-, -, _⟩ | ⟨settled, -⟩
  · omega
  · exact settled

theorem settledRows_effect {actual : ℚ} (within : actual ≤ stream.worstCase) :
    (settledRows settings stream actual).sum .escrow .debit
        (some stream.developerId) = stream.held ∧
      0 ≤ developerBalance (settledRows settings stream actual) stream.developerId := by
  have covered : quantizeUsdc actual ≤ stream.held := quantizeUsdc_le_heldAmount within
  have nonneg : 0 ≤ stream.held := heldAmount_nonneg _
  simp only [settledRows, developerBalance, accountBalance,
    Ledger.sum_append, returnRows_escrow_debit, returnRows_credit,
    returnRows_debit]
  split_ifs
  · simp only [Ledger.sum_nil]
    omega
  · simp only [chargeRows_escrow_debit, chargeRows_credit, chargeRows_debit]
    omega

theorem returnRows_effect : (returnRows stream.developerId stream.held).sum .escrow .debit
        (some stream.developerId) = stream.held ∧
      0 ≤ developerBalance (returnRows stream.developerId stream.held) stream.developerId := by
  have nonneg : 0 ≤ stream.held := heldAmount_nonneg _
  simp only [developerBalance, accountBalance, returnRows_escrow_debit,
    returnRows_credit, returnRows_debit]
  omega

theorem ChatStream.billable_le (stream : ChatStream) (books : Accounting) :
    stream.billable books ≤ stream.worstCase :=
  min_le_right _ _

theorem ChatStream.partialBillable_le {books : Accounting}
    (pos : 0 < stream.partialBillable books) :
    stream.partialBillable books ≤ stream.worstCase := by
  unfold ChatStream.partialBillable at pos ⊢
  split_ifs at pos ⊢ with produced
  · exact stream.billable_le books
  · exact absurd pos (lt_irrefl 0)

theorem finalisePartial_escrow (books : Accounting)
    (funds : 0 ≤ developerBalance (others ++ own) stream.developerId) :
    (finalisePartial settings stream others own (stream.partialBillable books)).sum .escrow .debit
          (some stream.developerId) =
      own.sum .escrow .debit (some stream.developerId) + stream.held := by
  unfold finalisePartial
  split_ifs with pos
  · have within := ChatStream.partialBillable_le pos
    rw [streamSettle_eq funds within, Option.getD_some, Ledger.sum_append,
      (settledRows_effect within).1]
  · rw [streamRelease_eq, Option.getD_some, Ledger.sum_append, returnRows_effect.1]

theorem resolveInBody_escrow (books : Accounting) {rows : Ledger}
    (escrow : rows.sum .escrow .debit (some stream.developerId) = stream.held)
    (kept : 0 ≤ developerBalance rows stream.developerId)
    (funds : 0 ≤ developerBalance met.atFinaliser stream.developerId) :
    (resolveInBody settings stream met disconnect books
        (some rows)).sum .escrow .debit (some stream.developerId) =
      if disconnect = some .afterCommit then 2 * stream.held
      else stream.held := by
  have both : 0 ≤ developerBalance (met.atFinaliser ++ rows) stream.developerId := by
    simp only [developerBalance, accountBalance_append] at kept funds ⊢
    omega
  have alone : 0 ≤ developerBalance (met.atFinaliser ++ []) stream.developerId := by
    rw [List.append_nil]
    exact funds
  simp only [resolveInBody]
  split_ifs with before after _
  · rw [before] at after
    cases after
  · rw [finalisePartial_escrow books alone]
    exact Int.zero_add _
  · rw [finalisePartial_escrow books both]
    omega
  · exact escrow

def Exit.resolves : Exit → Bool
  | .finished => true
  | .nodeFailed => true
  | .dispatchFailed => true
  | .raised => false
  | .interrupted => false

/-- Undisturbed, the frames can be read to a point where the body resolves
the hold. -/
def ChatStream.endsCleanly (stream : ChatStream) (parse : String → Option Int) : Bool :=
  (stream.consume parse none .start 0 stream.frames).1.resolves

theorem ChatStream.consume_afterCommit (parse : String → Option Int)
    (books : Accounting) (index : Nat) (frames : List Frame) :
    stream.consume parse (some .afterCommit) books index frames =
      stream.consume parse none books index frames := by
  induction frames generalizing books index with
  | nil => simp [ChatStream.consume]
  | cons _ _ ih => simp only [ChatStream.consume, ih, Option.some.injEq, reduceCtorEq]

theorem ChatStream.leave_afterCommit (parse : String → Option Int) :
    (stream.leave parse (some .afterCommit)).1.resolves = stream.endsCleanly parse := by
  simp only [ChatStream.leave, ChatStream.consume_afterCommit]
  rfl

theorem chatStreamBody_escrow {parse : String → Option Int}
    (bodyFunds : 0 ≤ developerBalance met.atBody stream.developerId)
    (finaliserFunds : 0 ≤ developerBalance met.atFinaliser stream.developerId) :
    (chatStreamBody settings stream parse met disconnect).sum .escrow .debit
        (some stream.developerId) =
      if disconnect = some .beforeStart then 0
      else if disconnect = some .afterCommit ∧ stream.endsCleanly parse = true then 2 * stream.held
      else stream.held := by
  have finalised (books : Accounting) : (finalisePartial settings stream met.atFinaliser []
        (stream.partialBillable books)).sum .escrow .debit
          (some stream.developerId) = stream.held := by
    rw [finalisePartial_escrow books (by rwa [List.append_nil])]
    exact Int.zero_add _
  -- once `settled` is in reach, only the point after the commit matters
  have resolved (books : Accounting) {rows : Ledger}
      (escrow : rows.sum .escrow .debit (some stream.developerId) = stream.held)
      (kept : 0 ≤ developerBalance rows stream.developerId)
      (reaches : (stream.leave parse disconnect).1.resolves = true) :
      (resolveInBody settings stream met disconnect books
          (some rows)).sum .escrow .debit (some stream.developerId) =
        if disconnect = some .afterCommit ∧ stream.endsCleanly parse = true then 2 * stream.held
        else stream.held := by
    rw [resolveInBody_escrow books escrow kept finaliserFunds]
    by_cases after : disconnect = some .afterCommit
    · rw [after, ChatStream.leave_afterCommit] at reaches
      simp [reaches]
    · simp [after]
  have unresolved (stopped : (stream.leave parse disconnect).1.resolves = false) :
      ¬ (disconnect = some .afterCommit ∧ stream.endsCleanly parse = true) := by
    rintro ⟨after, clean⟩
    rw [after, ChatStream.leave_afterCommit, clean] at stopped
    cases stopped
  unfold chatStreamBody
  by_cases start : disconnect = some .beforeStart
  · simp [start]
  by_cases role : disconnect = some .role
  · simp [role, finalised]
  simp only [if_neg start, if_neg role]
  cases left : stream.leave parse disconnect with
  | mk exit books =>
    rw [left] at resolved unresolved
    cases exit with
    | interrupted | raised =>
      rw [if_neg (unresolved rfl)]
      exact finalised books
    | nodeFailed | dispatchFailed =>
      simp only [streamRelease_eq]
      exact resolved books returnRows_effect.1 returnRows_effect.2 rfl
    | finished =>
      have within := stream.billable_le books
      have effect := @settledRows_effect settings stream _ within
      dsimp only
      rw [streamSettle_eq (by rwa [List.append_nil]) within]
      exact resolved books effect.1 effect.2 rfl

end

/-- The hold of a stream is debited exactly once unless the disconnect comes
before the first iteration or between a commit and its flag. -/
theorem chatStreamBody_escrow_iff {settings : Settings} {stream : ChatStream}
    {parse : String → Option Int} {met : Surroundings} {disconnect : Option Suspension}
    (bodyFunds : 0 ≤ developerBalance met.atBody stream.developerId)
    (finaliserFunds : 0 ≤ developerBalance met.atFinaliser stream.developerId) :
    (chatStreamBody settings stream parse met disconnect).sum .escrow .debit
        (some stream.developerId) = stream.held ↔
      stream.held = 0 ∨ (disconnect ≠ some .beforeStart ∧ ¬ (disconnect = some .afterCommit ∧
            stream.endsCleanly parse = true)) := by
  rw [chatStreamBody_escrow bodyFunds finaliserFunds]
  split_ifs with start after
  · constructor
    · intro nothing
      exact .inl nothing.symm
    · rintro (nothing | ⟨started, -⟩)
      · exact nothing.symm
      · exact absurd start started
  · constructor
    · intro _
      exact .inl (by omega)
    · rintro (_ | ⟨-, settled⟩)
      · omega
      · exact absurd after settled
  · exact ⟨fun _ => .inr ⟨start, after⟩, fun _ => rfl⟩

def helloStream : ChatStream where
  spec := .chat "llama-3.1-8b" (5 / 100) (8 / 100)
  developerId := 7
  providerId := 9
  worstCase := 32778 / 10 ^ 8
  promptTokens := 2
  maxOutput := 4096
  frames := [[("type", .str "chunk"), ("delta", .str "hello")],
     [("type", .str "response"), ("payload", .dict [])]]
  ending := .exhausted

def oneUsdc : Surroundings where
  atBody := depositRows 7 (10 ^ 8)
  atFinaliser := depositRows 7 (10 ^ 8)

/-- A disconnect before the first iteration strands the hold, and one that
lands after the commit of the settlement returns it twice. -/
theorem chatStreamBody_stranded_or_twice : helloStream.held = 32800 ∧
    (chatStreamBody Settings.default helloStream (fun _ => none) oneUsdc
      (some .beforeStart)).sum .escrow .debit (some 7) = 0 ∧
    (chatStreamBody Settings.default helloStream (fun _ => none) oneUsdc
      (some .afterCommit)).sum .escrow .debit (some 7) = 2 * 32800 := by
  decide +kernel

theorem chatStreamBody_escrow_iff_content :
    (chatStreamBody Settings.default helloStream (fun _ => none) oneUsdc
      (some (.content 0))).sum .escrow .debit (some 7) = helloStream.held := by
  have bodyFunds : 0 ≤ developerBalance oneUsdc.atBody helloStream.developerId := by decide
  exact (chatStreamBody_escrow_iff bodyFunds bodyFunds).mpr
    (.inr ⟨by decide, fun landed => by cases landed.1⟩)

end Gridix
