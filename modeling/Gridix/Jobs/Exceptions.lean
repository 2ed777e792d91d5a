import Gridix.Jobs.Ballots

/-!
# What a finalisation raises

In no reachable state does a finalisation meet a transition that the state
machine refuses, a quorum without a winner or postings that do not balance.
What is left is a completed result whose hash cannot be counted: a provider
may put a list or an object into its proof, and the quorum over it raises.
-/

namespace Gridix

open List Serial

/-- An exception of the code itself, as opposed to a refusal of the request
or of the database. -/
def Raised.own : Raised → Bool
  | .illegalTransition _ _ => true
  | .unhashableOutput => true
  | .noWinner => true
  | .ledger _ => true
  | .unstorable => false
  | .http _ _ => false

def raisedBy {Value : Type} : Except Raised Value → Option Raised
  | .error error => some error
  | .ok _ => none

theorem raisedBy_eq_some {Value : Type} {result : Except Raised Value} {error : Raised} :
    raisedBy result = some error ↔ result = .error error := by
  cases result <;> simp [raisedBy]

/-- Enough attempts are finished, but one reports an unhashable hash. -/
def JobRecord.Uncountable (record : JobRecord) : Prop :=
  record.job.redundancy ≤ record.finishedAttempts.length ∧ ∃ attempt ∈ record.finishedAttempts,
      attempt.outcome = .completed ∧ attempt.outputHash.key = none

/-- A completed attempt of an open job is one of a running job, and its hash was
stored, so it equals itself. -/
def JobRecord.Voted (record : JobRecord) : Prop :=
  record.job.status.isTerminal = false → ∀ attempt ∈ record.attempts,
    attempt.outcome = .completed →
      record.job.status = .running ∧ attempt.outputHash.key ≠ some .nan

structure Started (record : JobRecord) : Prop where
  ballots : Ballots record
  voted : record.Voted

section

variable {settings : Settings} {order : RowOrder} {clock : Clock}
  {record moved : JobRecord} {books movedBooks : Books}

theorem started_finalised (ballots : Ballots moved)
    (ok : maybeFinalize settings order clock record books = .ok (moved, movedBooks))
    (voted : record.Voted) : Started moved := by
  refine ⟨ballots, ?_⟩
  rcases maybeFinalize_ok ok with ⟨rfl, _⟩ | ⟨_, _, _, _, resolved⟩
  · exact voted
  · intro unresolved
    rw [resolved.facts.2.2.1] at unresolved
    cases unresolved

theorem started_touched (started : Started record) (ballots : Ballots moved) {number : Nat}
    {update : JobAttempt → JobAttempt}
    (touched : Touched record moved number update) : Started moved := by
  refine ⟨ballots, ?_⟩
  intro _ _ mem completed
  rw [touched.attempts] at mem
  obtain ⟨source, here, rfl⟩ := mem_updateAttempt.mp mem
  obtain ⟨before, same⟩ := touched.vote completed
  obtain ⟨running, defined⟩ := started.voted (inFlight_open touched.inFlight) source here before
  exact ⟨touched.stillRunning running, same ▸ defined⟩

theorem started_recorded (started : Started record) {providerId : Uuid}
    {request : AgentResultRequest} (recording : Recorded clock providerId request record moved) :
    moved.Voted := by
  intro _ _ mem completed
  refine ⟨recording.running, ?_⟩
  obtain ⟨_, _, _, attempts⟩ := recording.attempts
  rw [attempts] at mem
  obtain ⟨source, here, rfl⟩ := mem_updateAttempt.mp mem
  split_ifs at completed ⊢
  · exact recording.defined
  · exact (started.voted (inFlight_open recording.inFlight) source here completed).2

theorem started_marked (started : Started record) (now : Int) : (markLapsed now record).Voted := by
  intro unresolved _ mem completed
  obtain ⟨source, here, rfl⟩ := mem_map.mp mem
  split_ifs at completed ⊢
  exact started.voted unresolved source here completed

theorem started_preserved (settings : Settings) :
    Preserved settings (fun _ _ => True) fun record _ => Started record := by
  intro event record books moved movedBooks started _ ok
  have ballots := ballots_preserved settings event record books moved
    movedBooks started.ballots trivial ok
  cases event with
  | idle =>
    cases ok
    exact started
  | assign =>
    obtain ⟨_, ⟨rfl, _⟩ | ⟨queued, _, _, _, _, _, attempts⟩⟩ := assignProviders_ok ok
    · exact started
    · refine ⟨ballots, ?_⟩
      intro _ attempt mem completed
      rw [attempts] at mem
      rcases mem_append.mp mem with old | new
      · -- a queued job has no completed attempt
        have running := (started.voted (by rw [queued]; rfl) attempt old completed).1
        rw [queued] at running
        cases running
      · rw [(mem_newAttempts new).2] at completed
        cases completed
  | heartbeat =>
    obtain ⟨_, _, _, touched⟩ := heartbeat_touched ok
    exact started_touched started ballots touched
  | reportStatus =>
    obtain ⟨_, _, _, touched⟩ := reportStatus_touched ok
    exact started_touched started ballots touched
  | submitResult =>
    obtain ⟨_, ⟨recording, _, _⟩, finalised⟩ := submitResult_ready ok
    exact started_finalised ballots finalised (started_recorded started recording)
  | reclaim =>
    rcases reclaim_ok ok with ⟨rfl, _⟩ | ⟨single, _, code⟩
    · exact started
    · -- only jobs of redundancy one go back to the queue
      refine ⟨ballots, fun unresolved attempt mem completed => ?_⟩
      have alone := ballots.alone ((congrArg JobTerms.redundancy (reclaimJob_ok code).1).trans
          single)
      exact absurd completed (alone unresolved attempt mem)
  | reapAttempts _ _ now =>
    rcases reapAttempts_ok ok with ⟨rfl, _⟩ | ⟨_, finalised⟩
    · exact started
    · exact started_finalised ballots finalised (started_marked started now)

theorem Created.started {rows : Ledger}
    (creation : Created settings record rows) : Started record := by
  refine ⟨creation.ballots, ?_⟩
  intro _ _ mem
  rw [creation.fresh.1] at mem
  exact absurd mem not_mem_nil

end

section

variable {settings : Settings} {order : RowOrder} {clock : Clock}
  {record : JobRecord} {books : Books} {error : Raised} {request : AgentResultRequest}

theorem evaluateQuorum_raises_iff {attempts : List AttemptResult} {redundancy : Nat} :
    evaluateQuorum attempts redundancy = .error error ↔ error = .unhashableOutput ∧
        ∃ result ∈ attempts, result.succeeded = true ∧ result.outputHash.key = none := by
  constructor
  · intro raises
    by_cases hashable : ∀ result ∈ attempts, result.succeeded = true →
        result.outputHash.key.isSome = true
    · obtain ⟨_, ok⟩ := evaluateQuorum_total redundancy hashable
      cases ok.symm.trans raises
    · push Not at hashable
      obtain ⟨result, mem, succeeded, unhashable⟩ := hashable
      rw [ne_eq, Option.not_isSome_iff_eq_none] at unhashable
      have code := evaluateQuorum_unhashable redundancy mem succeeded unhashable
      cases code.symm.trans raises
      exact ⟨rfl, result, mem, succeeded, unhashable⟩
  · rintro ⟨rfl, _, mem, succeeded, unhashable⟩
    exact evaluateQuorum_unhashable redundancy mem succeeded unhashable

/-- A job in flight that has no completed attempt unless it is running can be
finalised, unless a vote cannot be counted. -/
theorem maybeFinalize_raises_iff (inFlight : record.job.status.inFlight = true)
    (voted : record.Voted) :
    maybeFinalize settings order clock record books = .error error ↔
      error = .unhashableOutput ∧ record.Uncountable := by
  have unresolved := inFlight_open inFlight
  constructor
  · intro raises
    unfold maybeFinalize at raises
    rw [if_neg (by simp [unresolved])] at raises
    split_ifs at raises with enough
    by_cases countable : ∃ attempt ∈ record.finishedAttempts,
        attempt.outcome = .completed ∧ attempt.outputHash.key = none
    · obtain ⟨attempt, mem, completed, unhashable⟩ := countable
      have code : maybeFinalize settings order clock record books = .error .unhashableOutput :=
        maybeFinalize_unhashable unresolved enough mem completed unhashable
      unfold maybeFinalize at code
      rw [if_neg (by simp [unresolved]), if_pos enough] at code
      cases code.symm.trans raises
      exact ⟨rfl, enough, attempt, mem, completed, unhashable⟩
    · -- every finished vote can be counted, so the decision goes through
      have hashable : ∀ result ∈ (order.shuffle record.finishedAttempts).map attemptResult,
          result.succeeded = true → result.outputHash.key.isSome = true := by
        intro _ mem succeeded
        obtain ⟨attempt, here, rfl⟩ := mem_map.mp mem
        by_contra unhashable
        rw [Option.not_isSome_iff_eq_none] at unhashable
        exact countable ⟨attempt, (order.perm _).mem_iff.mp here,
          by simpa [attemptResult] using succeeded, unhashable⟩
      obtain ⟨_, quorum⟩ := evaluateQuorum_total record.job.redundancy hashable
      obtain ⟨_, _, decision⟩ := decideJob_total
        clock.jobFinished quorum inFlight fun attempt here completed =>
          voted unresolved attempt (mem_of_mem_shuffle here).1 completed
      obtain ⟨_, _, _, ok, _⟩ := finalize_total settings books unresolved quorum decision
      cases ok.symm.trans raises
  · rintro ⟨rfl, enough, _, mem, completed, unhashable⟩
    exact maybeFinalize_unhashable unresolved enough mem completed unhashable

def JobRecord.afterResult (record : JobRecord) (attempt : JobAttempt)
    (clock : Clock) (request : AgentResultRequest) : JobRecord :=
  record.recordAttempt record.job attempt.attemptNumber clock request

theorem recordAttempt_uncountable_iff {job : Job} {number : Nat}
    (terms : job.toJobTerms = record.job.toJobTerms) :
    (record.recordAttempt job number clock request).Uncountable ↔
      (record.recordAttempt record.job number clock request).Uncountable := by
  simp only [JobRecord.Uncountable, JobRecord.finishedAttempts, JobRecord.recordAttempt,
    verify_congr request terms, congrArg JobTerms.redundancy terms]

theorem recordResult_raises_iff {attempt : JobAttempt} {providerId : Uuid}
    (before : Started record) (inFlight : record.job.status.inFlight = true)
    (found : record.providerAttempt providerId = some attempt) :
    recordResult settings order clock attempt request record books =
          .error error ∧ error.own = true ↔
      error = .unhashableOutput ∧ request.storable = true ∧
        (record.afterResult attempt clock request).Uncountable := by
  obtain ⟨_, started⟩ := startRunning_total record.job clock.started
  obtain ⟨terms, running⟩ := startRunning_ok inFlight started
  unfold recordResult
  rw [started]
  change (if request.storable = true then _ else _) = _ ∧ _ ↔ _
  split_ifs with storable
  · have recording : Recorded clock providerId request record
        (record.recordAttempt _ attempt.attemptNumber clock request) :=
      ⟨inFlight, terms, running, ⟨attempt, _, found, rfl⟩,
        AgentResultRequest.defined_of_storable storable⟩
    rw [maybeFinalize_raises_iff (by rw [recording.running]; rfl)
      (started_recorded before recording), recordAttempt_uncountable_iff terms]
    constructor
    · rintro ⟨⟨rfl, uncountable⟩, _⟩
      exact ⟨rfl, storable, uncountable⟩
    · rintro ⟨rfl, _, uncountable⟩
      exact ⟨⟨rfl, uncountable⟩, rfl⟩
  · constructor
    · rintro ⟨raises, own⟩
      cases raises
      cases own
    · rintro ⟨_, stored, _⟩
      exact absurd stored storable

end

/-- The three functions raise nothing of their own but the failure of the count,
exactly when a quorum is due over a completed result whose hash is a list or an
object. -/
theorem finalisation_raises_iff {settings : Settings} {system : System}
    {jobId : Uuid} {record : JobRecord}
    (reached : Reaches (Operation.step settings)
      (Permits settings fun _ _ => True) System.Initial system)
    (found : system.record? jobId = some record) (books : Books)
    (order : RowOrder) (clock : Clock) (error : Raised) :
    (∀ providerId attempt request, ownedInFlight record providerId = .ok attempt →
        (recordResult settings order clock attempt request record books =
              .error error ∧ error.own = true ↔
          error = .unhashableOutput ∧ request.storable = true ∧
            (record.afterResult attempt clock request).Uncountable)) ∧
    (∀ now, hasLapsedAttempt now record = true →
      (maybeFinalize settings order clock (markLapsed now record) books = .error error ↔
        error = .unhashableOutput ∧ (markLapsed now record).Uncountable)) ∧
    ∀ (results : List AttemptResult) (redundancy : Nat),
      evaluateQuorum results redundancy = .error error ↔ error = .unhashableOutput ∧
          ∃ result ∈ results, result.succeeded = true ∧ result.outputHash.key = none := by
  have started : Started record := reaches_everyJob
    (fun _ _ creation => creation.started) (started_preserved settings)
    reached found
  refine ⟨?_, ?_, fun _ _ => evaluateQuorum_raises_iff⟩
  · intro _ _ _ owned
    obtain ⟨mine, inFlight⟩ := ownedInFlight_ok owned
    exact recordResult_raises_iff started inFlight mine
  · intro now lapsed
    have inFlight := (hasLapsedAttempt_facts lapsed).1
    exact maybeFinalize_raises_iff inFlight (started_marked started now)

def oneAssigned : List Operation := assignedJob false 1 [5]

theorem oneAssigned_reached : Reaches (Operation.step .default)
      (Permits .default fun _ _ => True) System.Initial
      (Serial.run (Operation.step .default) oneAssigned System.empty) := by
  apply Reaches.run (.start System.empty_initial)
  simp [oneAssigned, assignedJob, AllPermitted, Permits]

theorem finalisation_raises_iff_oneAssigned : ∃ record attempt,
      (Serial.run (Operation.step .default) oneAssigned System.empty).record? 1 = some record ∧
      ownedInFlight record 5 = .ok attempt ∧
      ∀ error, error.own = true → recordResult .default .stored ⟨0, 30000000, 30000000, 30000000⟩
            attempt (cleanResult (.str "a")) record System.empty.books ≠
          .error error := by
  have outcome : ((Serial.run (Operation.step .default) oneAssigned
      System.empty).record? 1).bind (fun record =>
        (ownedInFlight record 5).toOption.map fun attempt =>
          (record.afterResult attempt ⟨0, 30000000, 30000000, 30000000⟩
            (cleanResult (.str "a"))).finishedAttempts.all fun attempt =>
              attempt.outputHash.key.isSome) = some true := by
    decide +kernel
  obtain ⟨record, found, owned⟩ := Option.bind_eq_some_iff.mp outcome
  cases inFlight : ownedInFlight record 5 with
  | error =>
    rw [inFlight] at owned
    cases owned
  | ok attempt =>
    rw [inFlight] at owned
    have hashable := Option.some.inj owned
    refine ⟨record, attempt, found, inFlight, fun error own raises => ?_⟩
    obtain ⟨_, _, _, vote, member, _, unhashable⟩ :=
      ((finalisation_raises_iff oneAssigned_reached found
        System.empty.books .stored ⟨0, 30000000, 30000000, 30000000⟩
          error).1 5 attempt _ inFlight).mp ⟨raises, own⟩
    have counted := all_eq_true.mp hashable vote member
    rw [unhashable] at counted
    cases counted

theorem list_hash_raises : Reaches (Operation.step .default)
        (Permits .default fun _ _ => True) System.Initial
        (Serial.run (Operation.step .default) oneAssigned System.empty) ∧
      (Operation.submitResult .stored ⟨0, 30000000, 30000000, 30000000⟩ 5 1
        (cleanResult (.list []))).perform .default (Serial.run (Operation.step .default) oneAssigned
            System.empty) = .error .unhashableOutput :=
  ⟨oneAssigned_reached, raisedBy_eq_some.mp (by decide +kernel)⟩

end Gridix
