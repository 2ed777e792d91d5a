import Gridix.Inference.Charges

/-!
# Streams that deliver nothing

An error frame, a failed response, a dispatch error and a disconnect all
release the hold of a stream that delivered nothing.
-/

namespace Gridix

open List

/-- The frame delivers nothing to the caller. -/
structure Undelivered (parse : String → Option Int) (frame : Frame) : Prop where
  silent : frame.kind = .chunk → frame.hasDelta = false
  unsuccessful : frame.kind = .response → ∀ status, frame.status parse = some status → 400 ≤ status

/-- The frames end without an error or a response. -/
def ChatStream.RunsOut (stream : ChatStream) : Prop := stream.ending = .exhausted ∧
    ∀ frame ∈ stream.frames, frame.kind ≠ .error ∧ frame.kind ≠ .response

/-- A suspension before the commit, other than at a delta. -/
def Suspension.early (frames : Nat) : Suspension → Bool
  | .beforeStart | .role | .closing | .beforeCommit => true
  | .frame index => index ≤ frames
  | .content _ | .afterCommit | .trailing | .shielded => false

def ChatStream.promptBill (stream : ChatStream) : ℚ := stream.billable .start

section

variable {settings : Settings} {stream : ChatStream}
  {parse : String → Option Int} {met : Surroundings}
  {disconnect : Option Suspension} {others own : Ledger}

theorem ChatStream.consume_undelivered {frames : List Frame}
    (undelivered : ∀ frame ∈ frames, Undelivered parse frame) (books : Accounting) (index : Nat) :
    (stream.consume parse disconnect books index frames).2 = books ∧
    ((stream.consume parse disconnect books index frames).1 = .finished ↔
      (stream.ending = .exhausted ∧ ∀ frame ∈ frames,
        frame.kind ≠ .error ∧ frame.kind ≠ .response) ∧
      ∀ offset ≤ frames.length, disconnect ≠ some (.frame (index + offset))) := by
  induction frames generalizing index with
  | nil =>
    unfold ChatStream.consume
    by_cases lands : disconnect = some (.frame index)
    · simp [lands]
    · cases ending : stream.ending <;> simp [lands]
  | cons frame rest ih =>
    have head := undelivered frame mem_cons_self
    have tail := ih (fun other mem => undelivered other (mem_cons_of_mem _ mem)) (index + 1)
    have shifted : (∀ offset ≤ (frame :: rest).length,
          disconnect ≠ some (.frame (index + offset))) ↔
        disconnect ≠ some (.frame index) ∧ ∀ offset ≤ rest.length,
            disconnect ≠ some (.frame (index + 1 + offset)) := by
      constructor
      · intro every
        refine ⟨every 0 (Nat.zero_le _), fun offset within => ?_⟩
        rw [Nat.add_assoc, Nat.add_comm 1]
        exact every (offset + 1) (Nat.succ_le_succ within)
      · rintro ⟨first, later⟩ offset within
        cases offset with
        | zero => exact first
        | succ offset =>
          rw [Nat.add_comm offset, ← Nat.add_assoc]
          exact later offset (Nat.le_of_succ_le_succ within)
    rw [shifted]
    unfold ChatStream.consume
    by_cases lands : disconnect = some (.frame index)
    · simp [lands]
    rw [if_neg lands]
    cases kind : frame.kind with
    | chunk => simpa [head.silent kind, kind, lands] using tail
    | unknown => simpa [kind, lands] using tail
    | error => simp [kind]
    | response =>
      have failed := head.unsuccessful kind
      dsimp only [ChatStream.terminal]
      split
      · simp [kind]
      · rename_i status read
        simp [kind, failed status read]

theorem partialBillable_start : stream.partialBillable .start = 0 := by
  have none : ¬ 0 < stream.completionTokens .start := not_lt.mpr (min_le_left 0 stream.maxOutput)
  exact if_neg none

theorem finalisePartial_start : charges (finalisePartial settings stream others own
      (stream.partialBillable .start)) = charges own := by
  rw [partialBillable_start, finalisePartial, streamRelease_eq]
  simp

theorem resolveInBody_start (resolution : Option Ledger) :
    charges (resolveInBody settings stream met disconnect .start resolution) =
      if disconnect = some .beforeCommit then []
      else charges (resolution.getD []) := by
  unfold resolveInBody
  cases resolution with
  | none => simp only [finalisePartial_start, Option.getD_none, charges_nil, ite_self]
  | some =>
    split_ifs
    · exact finalisePartial_start
    · exact finalisePartial_start
    · rfl

theorem early_iff {frames : Nat} : (∀ point ∈ disconnect, point.early frames = false) ↔
      disconnect ≠ some .beforeStart ∧ disconnect ≠ some .role ∧
      disconnect ≠ some .closing ∧ disconnect ≠ some .beforeCommit ∧
      ∀ index ≤ frames, disconnect ≠ some (.frame index) := by
  cases disconnect with
  | none => simp
  | some point =>
    cases point with
    | frame landed =>
      have beyond : frames < landed ↔ ∀ index ≤ frames, ¬ landed = index :=
        ⟨fun _ _ _ => by omega,
          fun absent => not_le.mp fun within => absent _ within rfl⟩
      simpa [Suspension.early] using beyond
    | _ => simp [Suspension.early]

theorem chatStreamBody_undelivered
    (undelivered : ∀ frame ∈ stream.frames, Undelivered parse frame) :
    (charges (chatStreamBody settings stream parse met disconnect) = [] ∧
      ¬ (stream.RunsOut ∧ ∀ point ∈ disconnect, point.early stream.frames.length = false)) ∨
    (charges (chatStreamBody settings stream parse met disconnect) =
        charges ((streamSettle settings stream met.atBody [] stream.promptBill).getD []) ∧
      stream.RunsOut ∧ ∀ point ∈ disconnect, point.early stream.frames.length = false) := by
  rw [early_iff]
  unfold chatStreamBody ChatStream.leave
  by_cases start : disconnect = some .beforeStart
  · exact .inl ⟨by simp [start], fun late => late.2.1 start⟩
  by_cases role : disconnect = some .role
  · refine .inl ⟨?_, fun late => late.2.2.1 role⟩
    simp only [if_neg start, if_pos role, finalisePartial_start, charges_nil]
  obtain ⟨kept, finished⟩ := @ChatStream.consume_undelivered stream parse
    disconnect stream.frames undelivered .start 0
  simp only [Nat.zero_add] at finished
  rw [if_neg start, if_neg role]
  cases read : stream.consume parse disconnect .start 0 stream.frames with
  | mk exit =>
    rw [read] at kept finished
    subst kept
    dsimp only
    by_cases closing : disconnect = some .closing
    · rw [if_pos closing]
      exact .inl ⟨finalisePartial_start, fun late => late.2.2.2.1 closing⟩
    rw [if_neg closing]
    cases exit with
    | interrupted | raised =>
      refine .inl ⟨finalisePartial_start, ?_⟩
      rintro ⟨out, -, -, -, -, undisturbed⟩
      cases finished.mpr ⟨out, undisturbed⟩
    | nodeFailed | dispatchFailed =>
      refine .inl ⟨?_, ?_⟩
      · simp only [resolveInBody_start, streamRelease_eq]
        simp
      · rintro ⟨out, -, -, -, -, undisturbed⟩
        cases finished.mpr ⟨out, undisturbed⟩
    | finished =>
      obtain ⟨out, undisturbed⟩ := finished.mp rfl
      rw [resolveInBody_start]
      by_cases before : disconnect = some .beforeCommit
      · exact .inl ⟨if_pos before, fun late => late.2.2.2.2.1 before⟩
      · exact .inr ⟨if_neg before, out, start, role, closing, before, undisturbed⟩

end

/-- A stream that delivered nothing is free, unless its frames end plainly,
nobody disconnects before it is settled, and the prompt costs something that is
covered. -/
theorem undelivered_free_iff {settings : Settings} {stream : ChatStream}
    {parse : String → Option Int} {met : Surroundings} {disconnect : Option Suspension}
    (undelivered : ∀ frame ∈ stream.frames, Undelivered parse frame) :
    charges (chatStreamBody settings stream parse met disconnect) = [] ↔ ¬ (stream.RunsOut ∧
        (∀ point ∈ disconnect, point.early stream.frames.length = false) ∧
        0 < quantizeUsdc stream.promptBill ∧
        quantizeUsdc stream.promptBill ≤
          developerBalance met.atBody stream.developerId + stream.held) := by
  rcases @chatStreamBody_undelivered settings stream parse met disconnect
    undelivered with ⟨free, lost⟩ | ⟨billed, out, late⟩
  · simp only [free, true_iff]
    exact fun charged => lost ⟨charged.1, charged.2.1⟩
  rw [billed]
  rcases @streamSettle_cases settings stream met.atBody []
    stream.promptBill with ⟨raised, costs, short⟩ | ⟨settled, covered⟩
  · rw [append_nil] at short
    simp only [raised, Option.getD_none, charges_nil, true_iff]
    omega
  · rw [append_nil] at covered
    rw [settled, Option.getD_some, nil_append, charges_settledRows, chargeFor]
    split_ifs with small
    · simp only [true_iff]
      omega
    · have enough : quantizeUsdc stream.promptBill ≤
          developerBalance met.atBody stream.developerId + stream.held := by
        omega
      simp only [chargeRows, cons_ne_nil, false_iff, not_not]
      exact ⟨out, late, not_le.mp small, enough⟩

def emptyStream (frames : List Frame) : ChatStream where
  spec := .chat "llama-3.1-8b" (5 / 100) (8 / 100)
  developerId := 7
  providerId := 9
  worstCase := 33268 / 10 ^ 8
  promptTokens := 100
  maxOutput := 4096
  frames := frames
  ending := .exhausted

theorem empty_stream_charged :
    charges (chatStreamBody Settings.default (emptyStream []) (fun _ => none)
      oneUsdc none) = chargeRows Settings.default 7 9 500 := by
  decide +kernel

theorem undelivered_free_iff_error : charges (chatStreamBody Settings.default
      (emptyStream [[("type", .str "error")]]) (fun _ => none) oneUsdc
      none) = [] := by
  refine (undelivered_free_iff ?_).mpr ?_
  · intro _ member
    cases mem_singleton.mp member
    exact ⟨nofun, nofun⟩
  · rintro ⟨⟨-, plain⟩, -⟩
    exact (plain _ mem_cons_self).1 rfl

end Gridix
