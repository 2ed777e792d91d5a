import Gridix.Jobs.Ballots
import Gridix.Jobs.Escrow

/-!
# Verified hashes of completed work

A result that points to a blob has to carry the blob's sha256.  A result that
points to none is taken with whatever its proof carries, and a quorum may then
be reached over it.
-/

namespace Gridix

open List Serial

/-- The proof carries a sha256, which is the content address of the
reference if there is one. -/
def Verified (proof : Proof) (resultRef : Option String) : Prop := ∃ hash,
    proof.get "output_sha256" = .str hash ∧
    isSha256Hex (.str hash) = true ∧
    ∀ ref, resultRef = some ref → ref.toList.take 64 = hash.toList

/-- A result without a reference that verifies carries a sha256, if it
carries a hash at all. -/
def Sha256Results (record : JobRecord) : JobEvent → Prop
  | .submitResult _ _ _ request =>
    request.resultRef = none → (verify record.job request).valid = true →
      request.proof.get "output_sha256" = .none ∨
        isSha256Hex (request.proof.get "output_sha256") = true
  | _ => True

/-- A completed attempt carries no hash and no reference, or verified
ones. -/
def HashedVote (attempt : JobAttempt) : Prop := ∃ proof, attempt.proof = some proof ∧
    (proof.get "output_sha256" = .none ∧ attempt.resultRef = none ∨
      Verified proof attempt.resultRef)

structure Hashed (record : JobRecord) : Prop where
  ballots : Ballots record
  votes : ∀ attempt ∈ record.attempts, attempt.outcome = .completed → HashedVote attempt
  result : record.job.status = .completed → ∃ proof, record.job.proof = some proof ∧
      Verified proof record.job.resultRef

theorem isSha256Hex_str {value : Py.Value}
    (hex : isSha256Hex value = true) : ∃ hash, value = .str hash := by
  cases value with
  | str hash => exact ⟨hash, rfl⟩
  | _ => cases hex

theorem resultRefChecks_verified {request : AgentResultRequest}
    (checks : resultRefChecks request = true)
    (unreferenced : request.resultRef = none → request.proof.get "output_sha256" = .none ∨
      isSha256Hex (request.proof.get "output_sha256") = true) :
    request.proof.get "output_sha256" = .none ∧ request.resultRef = none ∨
      Verified request.proof request.resultRef := by
  cases referenced : request.resultRef with
  | none =>
    rcases unreferenced referenced with none | hex
    · exact Or.inl ⟨none, rfl⟩
    · obtain ⟨hash, carried⟩ := isSha256Hex_str hex
      exact Or.inr ⟨hash, carried, carried ▸ hex, nofun⟩
  | some _ =>
    simp only [resultRefChecks, referenced] at checks
    split at checks
    · rename_i hash carried
      simp only [Bool.and_eq_true, beq_iff_eq] at checks
      refine Or.inr ⟨hash, carried, checks.1, ?_⟩
      rintro _ same
      cases same
      exact checks.2
    · cases checks

section

variable {settings : Settings} {record moved : JobRecord} {order : RowOrder}
  {clock : Clock} {books movedBooks : Books}

theorem maybeFinalize_verified (one : OneBallotEach record.attempts)
    (votes : ∀ attempt ∈ record.attempts, attempt.outcome = .completed → HashedVote attempt)
    (inFlight : record.job.status.inFlight = true)
    (ok : maybeFinalize settings order clock record books = .ok (moved, movedBooks))
    (completed : moved.job.status = .completed) :
    ∃ proof, moved.job.proof = some proof ∧ Verified proof moved.job.resultRef := by
  rcases maybeFinalize_ok ok with ⟨rfl, _⟩ | ⟨_, _, _, _, quorum, decision, _, _⟩
  · rw [completed] at inFlight
    cases inFlight
  · rcases evaluateQuorum_ok quorum with ⟨rfl, _⟩ | ⟨_, reached, _, notNone, agreers, _⟩
    · obtain ⟨rfl, _⟩ := decideJob_unreached rfl decision
      rw [stamp_status] at completed
      split_ifs at completed
    · obtain ⟨winner, mem, agrees, done, rfl, _⟩ := decideJob_reached reached decision
      rw [agreers] at agrees
      obtain ⟨_, chosen, same⟩ := mem_map.mp agrees
      obtain ⟨mapped, agreeing⟩ := mem_filter.mp chosen
      obtain ⟨voter, here, rfl⟩ := mem_map.mp mapped
      simp only [AttemptResult.agrees, attemptResult, Bool.and_eq_true, beq_iff_eq] at agreeing
      have voterMember := (mem_of_mem_shuffle here).1
      have winnerMember := (mem_of_mem_shuffle mem).1
      -- the winner may be another attempt of the voter's, with its result
      obtain ⟨proof, resultRef⟩ := one winner winnerMember voter voterMember
        done agreeing.2.2 same.symm
      obtain ⟨carried, proven, ⟨none, _⟩ | _⟩ := votes voter voterMember agreeing.2.2
      · have key := agreeing.1
        rw [JobAttempt.outputHash, proven, Option.getD_some, none] at key
        exact absurd (Option.some.inj key).symm notNone
      · refine ⟨carried, ?_, ?_⟩
        · change winner.proof = _
          rw [proof, proven]
        · change Verified carried winner.resultRef
          rwa [resultRef]

end

theorem hashed_preserved (settings : Settings) :
    Preserved settings Sha256Results fun record _ => Hashed record := by
  intro event record books moved movedBooks hashed sha256 ok
  have ballots := ballots_preserved settings event record books moved
    movedBooks hashed.ballots trivial ok
  rcases JobEvent.perform_stages ok with
    ⟨rfl, _⟩ | ⟨quiet, _⟩ | ⟨order, clock, middle, ready, finalised⟩
  · exact hashed
  · refine ⟨ballots, ?_, fun completed => absurd completed quiet.undecided⟩
    intro attempt mem completed
    obtain ⟨source, here, done, proof, resultRef⟩ := quiet.results attempt mem completed
    have vote := (hashed.votes source here done)
    obtain ⟨carried, proven, _⟩ := vote
    exact ⟨carried, proof.trans proven, by rwa [resultRef]⟩
  · have votes : ∀ attempt ∈ middle.attempts, attempt.outcome = .completed → HashedVote attempt :=
      by
      intro attempt mem completed
      cases ready with
      | @recorded _ _ _ request _ _ checks results =>
        rcases results attempt mem completed with old | ⟨valid, proof, resultRef⟩
        · exact hashed.votes attempt old completed
        · refine ⟨request.proof, proof, ?_⟩
          rw [resultRef]
          exact resultRefChecks_verified checks fun none => sha256 none valid
      | marked =>
        obtain ⟨source, here, rfl⟩ := mem_map.mp mem
        split_ifs at completed ⊢
        exact hashed.votes source here completed
    refine ⟨ballots, ?_, ?_⟩
    · rw [maybeFinalize_attempts finalised]
      exact votes
    · exact maybeFinalize_verified (ready.oneBallotEach hashed.ballots) votes
        ready.inFlight.2 finalised

theorem Created.hashed {settings : Settings} {record : JobRecord}
    {rows : Ledger} (creation : Created settings record rows) :
    Hashed record := by
  obtain ⟨nobody, queued⟩ := creation.fresh
  refine ⟨creation.ballots, ?_, ?_⟩
  · intro _ mem
    rw [nobody] at mem
    exact absurd mem not_mem_nil
  · intro completed
    rw [queued] at completed
    cases completed

/-- If results without a reference carry sha256 hashes, a completed job has a
proof with a sha256, every vote of its quorum is one, and its reference starts
with it. -/
theorem completed_hash_verified {settings : Settings} {system : System} {jobId : Uuid}
    {record : JobRecord}
    (reached : Reaches (Operation.step settings)
      (Permits settings Sha256Results) System.Initial system)
    (found : system.record? jobId = some record) (completed : record.job.status = .completed) :
    ∃ proof hash, record.job.proof = some proof ∧ proof.get "output_sha256" = .str hash ∧
      isSha256Hex (.str hash) = true ∧
      (∀ attempt ∈ record.finishedAttempts, (attemptResult attempt).usable = true →
          isSha256Hex attempt.outputHash = true) ∧
      ∀ ref, record.job.resultRef = some ref → ref.toList.take 64 = hash.toList := by
  have hashed : Hashed record := reaches_everyJob
    (fun _ _ creation => creation.hashed) (hashed_preserved settings)
    reached found
  obtain ⟨proof, proven, hash, carried, hex, reference⟩ := hashed.result completed
  refine ⟨proof, hash, proven, carried, hex, ?_, reference⟩
  intro attempt member usable
  have done : attempt.outcome = .completed := by
    simp only [AttemptResult.usable, attemptResult, Bool.and_eq_true, beq_iff_eq] at usable
    exact usable.1
  have vote := (hashed.votes attempt (mem_filter.mp member).1 done)
  obtain ⟨_, proven, ⟨none, _⟩ | ⟨_, carried, hex, _⟩⟩ := vote
  · simp [AttemptResult.usable, attemptResult, JobAttempt.outputHash, proven,
      none, Py.Value.isNone] at usable
  · rw [JobAttempt.outputHash, proven, Option.getD_some, carried]
    exact hex

def emptySha256 : String := "e3b0c44298fc1c149afbf4c8996fb92427ae41e4649b934ca495991b7852b855"

def referencedRun : List Operation := assignedJob false 1 [5] ++
    [.submitResult .stored ⟨0, 30000000, 30000000, 30000000⟩ 5 1
      { cleanResult (.str emptySha256) with resultRef := some emptySha256 }]

theorem referencedRun_permitted : AllPermitted (Operation.step .default)
      (Permits .default Sha256Results) referencedRun System.empty := by
  refine ⟨fun _ _ _ => trivial, ?_, ?_, trivial⟩
  · intro _ _ _
    simp only [Operation.event]
    split_ifs <;> trivial
  · intro _ _ _
    simp only [Operation.event]
    split_ifs
    · intro unreferenced
      cases unreferenced
    · trivial

theorem completed_hash_verified_referencedRun : ∃ record proof hash,
      (Serial.run (Operation.step .default) referencedRun System.empty).record? 1 = some record ∧
      record.job.proof = some proof ∧
      proof.get "output_sha256" = .str hash ∧
      isSha256Hex (.str hash) = true ∧
      ∀ ref, record.job.resultRef = some ref → ref.toList.take 64 = hash.toList := by
  have reached := Reaches.run (.start System.empty_initial) referencedRun_permitted
  obtain ⟨record, found, completed⟩ : ∃ record ∈ (Serial.run (Operation.step .default)
      referencedRun System.empty).record? 1, record.job.status = .completed := by
    decide +kernel
  obtain ⟨proof, hash, proven, carried, hex, _, reference⟩ :=
    completed_hash_verified reached found completed
  exact ⟨record, proof, hash, found, proven, carried, hex, reference⟩

theorem unverified_hash_completes : ∃ system record,
      Reaches (Operation.step .default) (fun _ _ => True) System.Initial system ∧
      system.record? 1 = some record ∧
      record.job.status = .completed ∧
      (record.job.proof.map fun proof =>
        (matchesHash (proof.get "output_sha256") (some "a"),
          isSha256Hex (proof.get "output_sha256"))) = some (true, false) ∧
      (record.finishedAttempts.map fun attempt =>
        ((attemptResult attempt).usable, isSha256Hex attempt.outputHash)) = [(true, false)] :=
  exists_reached completedRun System.empty_initial (by decide +kernel)

end Gridix
