import Gridix.Jobs.Runs

/-!
# No job gets stuck

A job in flight can be finished as long as one of its attempts is not: a
result for it, or its lapse, moves the job on.
-/

namespace Gridix

open List Serial

theorem countP_lt_countP {Item : Type} {items : List Item} {item : Item} {fewer more : Item → Bool}
    (mem : item ∈ items) (imply : ∀ other ∈ items, fewer other = true → more other = true)
    (out : fewer item = false) (counted : more item = true) :
    items.countP fewer < items.countP more := by
  induction items with
  | nil => cases mem
  | cons head rest ih =>
    have tail : ∀ other ∈ rest, fewer other = true → more other = true :=
      fun other here => imply other (mem_cons_of_mem _ here)
    rw [countP_cons, countP_cons]
    rcases mem_cons.mp mem with rfl | here
    · have le := countP_mono_left tail
      simp only [out, counted]
      simp
      omega
    · have lt := ih here tail
      have first := imply head mem_cons_self
      cases headOut : fewer head with
      | false =>
        simp only [Bool.false_eq_true, if_false]
        omega
      | true =>
        rw [first headOut]
        omega

def JobRecord.unfinished (record : JobRecord) : Nat :=
  record.attempts.countP fun attempt => !attempt.finished

section

variable {record : JobRecord} {number : Nat}
  {update : JobAttempt → JobAttempt}

theorem finished_add_unfinished (record : JobRecord) :
    record.finishedAttempts.length + record.unfinished = record.attempts.length := by
  have split := length_eq_countP_add_countP JobAttempt.finished (l := record.attempts)
  simpa [JobRecord.finishedAttempts, JobRecord.unfinished, countP_eq_length_filter] using split.symm

theorem unfinished_pos_iff : 0 < record.unfinished ↔
      ∃ attempt ∈ record.attempts, attempt.finished = false := by
  rw [JobRecord.unfinished]
  simp

@[simp] theorem updateAttempt_length : (record.updateAttempt number update).attempts.length =
      record.attempts.length :=
  length_map _

theorem updateAttempt_unfinished_lt {attempt : JobAttempt}
    (finishes : ∀ source, (update source).finished = true) (mem : attempt ∈ record.attempts)
    (unfinished : attempt.finished = false) :
    (record.updateAttempt attempt.attemptNumber update).unfinished < record.unfinished := by
  simp only [JobRecord.unfinished, JobRecord.updateAttempt, countP_map]
  apply countP_lt_countP mem
  · intro source _ open_
    simp only [Function.comp_apply] at open_ ⊢
    split_ifs at open_
    · rw [finishes source] at open_
      cases open_
    · exact open_
  · simp [finishes]
  · simp [unfinished]

end

structure Touched (record moved : JobRecord) (number : Nat)
    (update : JobAttempt → JobAttempt) : Prop where
  terms : moved.job.toJobTerms = record.job.toJobTerms
  inFlight : record.job.status.inFlight = true
  still : moved.job.status = record.job.status ∨ moved.job.status = .running
  attempts : moved.attempts = (record.updateAttempt number update).attempts
  provider : ∀ attempt, (update attempt).providerId = attempt.providerId
  finished : ∀ attempt, (update attempt).finished = attempt.finished
  completed : ∀ attempt, (update attempt).outcome = .completed →
    attempt.outcome = .completed ∧ (update attempt).proof = attempt.proof

section

variable {settings : Settings} {providerId : Uuid} {now : Int}
  {record moved : JobRecord} {books movedBooks : Books} {number : Nat}
  {update : JobAttempt → JobAttempt}

theorem heartbeat_touched (ok : heartbeat settings providerId now record books =
      .ok (moved, movedBooks)) :
    movedBooks.ledger = books.ledger ∧ ∃ number update, Touched record moved number update := by
  obtain ⟨ledger, inFlight, terms, status, _, _, _, attempts⟩ := heartbeat_ok ok
  exact ⟨ledger, _, _, terms, inFlight, Or.inl status, attempts,
    fun _ => rfl, fun _ => rfl, fun _ completed => ⟨completed, rfl⟩⟩

theorem reportStatus_touched (ok : reportStatus providerId now record books =
      .ok (moved, movedBooks)) :
    movedBooks.ledger = books.ledger ∧ ∃ number update, Touched record moved number update := by
  obtain ⟨ledger, inFlight, terms, running, _, _, attempts⟩ := reportStatus_ok ok
  exact ⟨ledger, _, _, terms, inFlight, Or.inr running, attempts,
    fun _ => rfl, fun _ => rfl, fun _ completed => by cases completed⟩

namespace Touched

variable (touched : Touched record moved number update)

include touched

theorem redundancy : moved.job.redundancy = record.job.redundancy :=
  congrArg JobTerms.redundancy touched.terms

theorem stillInFlight : moved.job.status.inFlight = true := by
  rcases touched.still with same | running
  · rw [same]
    exact touched.inFlight
  · rw [running]
    rfl

theorem stillRunning (running : record.job.status = .running) : moved.job.status = .running := by
  rcases touched.still with same | started
  · rw [same, running]
  · exact started

theorem vote {attempt : JobAttempt} (done : (if attempt.attemptNumber = number then update attempt
      else attempt).outcome = .completed) :
    attempt.outcome = .completed ∧ (if attempt.attemptNumber = number then update attempt
        else attempt).outputHash = attempt.outputHash := by
  split_ifs at done ⊢
  · obtain ⟨before, proof⟩ := touched.completed attempt done
    exact ⟨before,
      by rw [JobAttempt.outputHash, proof, JobAttempt.outputHash]⟩
  · exact ⟨done, rfl⟩

end Touched

end

/-- A redundant job is assigned to as many providers as it needs votes, or
not at all, and its results carry hashes that can be counted. -/
def Serviceable (record : JobRecord) : JobEvent → Prop
  | .assign candidates _ =>
    record.job.redundancy = 1 ∨ candidates.ids = [] ∨ record.job.isHighValue = true ∧
        record.job.redundancy ≤ candidates.ids.length
  | .submitResult _ _ _ request =>
    record.job.redundancy = 1 ∨ (request.proof.get "output_sha256").key.isSome = true
  | _ => True

def CountedVote (job : Job) (attempt : JobAttempt) : Prop :=
  job.status = .running ∧ 1 < job.redundancy ∧
    attempt.outputHash.key ≠ some .nan ∧ attempt.outputHash.key.isSome = true

structure Live (record : JobRecord) : Prop where
  unfinished : record.job.status.inFlight = true → 0 < record.unfinished
  unassigned : 1 < record.job.redundancy → record.job.status = .queued → record.attempts = []
  assigned : 1 < record.job.redundancy → record.job.status.inFlight = true →
    record.attempts.length = record.job.redundancy
  votes : record.job.status.isTerminal = false →
    ∀ attempt ∈ record.attempts, attempt.outcome = .completed → CountedVote record.job attempt

namespace Live

variable {settings : Settings} {record moved : JobRecord}
  {books movedBooks : Books} {now : Int} {providerId : Uuid} {request : AgentResultRequest}

theorem terminal (closed : record.job.status.isTerminal = true) : Live record where
  unfinished inFlight := by
    rw [inFlight_open inFlight] at closed
    cases closed
  unassigned _ queued := by
    rw [queued] at closed
    cases closed
  assigned _ inFlight := by
    rw [inFlight_open inFlight] at closed
    cases closed
  votes unresolved := by
    rw [unresolved] at closed
    cases closed

theorem waiting (queued : record.job.status = .queued)
    (empty : record.attempts = []) : Live record where
  unfinished inFlight := by
    rw [queued] at inFlight
    cases inFlight
  unassigned _ _ := empty
  assigned _ inFlight := by
    rw [queued] at inFlight
    cases inFlight
  votes _ attempt member := by
    rw [empty] at member
    exact absurd member not_mem_nil

theorem ofShort (short : record.finishedAttempts.length < record.job.redundancy)
    (inFlight : record.job.status.inFlight = true)
    (full : record.attempts.length = record.job.redundancy)
    (votes : ∀ attempt ∈ record.attempts, attempt.outcome = .completed →
      CountedVote record.job attempt) : Live record where
  unfinished _ := by
    have total := finished_add_unfinished record
    omega
  unassigned _ queued := by
    rw [queued] at inFlight
    cases inFlight
  assigned _ _ := full
  votes _ := votes

theorem ofTouched (live : Live record) {number : Nat} {update : JobAttempt → JobAttempt}
    (touched : Touched record moved number update) : Live moved := by
  refine ⟨?_, ?_, ?_, ?_⟩
  · intro _
    obtain ⟨attempt, mem, unfinished⟩ := unfinished_pos_iff.mp (live.unfinished touched.inFlight)
    rw [unfinished_pos_iff, touched.attempts]
    refine ⟨_, mem_updateAttempt.mpr ⟨attempt, mem, rfl⟩, ?_⟩
    split_ifs
    · rw [touched.finished, unfinished]
    · exact unfinished
  · intro _ queued
    have inFlight := touched.stillInFlight
    rw [queued] at inFlight
    cases inFlight
  · intro several _
    rw [touched.attempts, updateAttempt_length, touched.redundancy]
    exact live.assigned (touched.redundancy ▸ several) touched.inFlight
  · intro _ _ mem done
    rw [touched.attempts] at mem
    obtain ⟨source, here, rfl⟩ := mem_updateAttempt.mp mem
    obtain ⟨before, same⟩ := touched.vote done
    obtain ⟨running, several, hash⟩ :=
      live.votes (inFlight_open touched.inFlight) source here before
    exact ⟨touched.stillRunning running, touched.redundancy ▸ several, same ▸ hash⟩

theorem ofAssign (live : Live record) {candidates : Candidates}
    (serviceable : Serviceable record (.assign candidates now))
    (ok : assignProviders settings candidates now record books = .ok (moved, movedBooks)) :
    Live moved := by
  obtain ⟨_, ⟨rfl, _⟩ | ⟨queued, primary, others, chosen, terms,
    assigned, attempts⟩⟩ := assignProviders_ok ok
  · exact live
  · have redundancy : moved.job.redundancy = record.job.redundancy :=
      congrArg JobTerms.redundancy terms
    refine ⟨?_, ?_, ?_, ?_⟩
    · intro _
      rw [unfinished_pos_iff, attempts]
      have fresh : (newAttempts record.maxNumber (primary :: others)
          (now + settings.leaseSeconds * 1000000)) ≠ [] := by
        rw [← length_pos_iff, newAttempts_length]
        exact Nat.succ_pos _
      obtain ⟨attempt, mem⟩ := exists_mem_of_ne_nil _ fresh
      exact ⟨attempt, mem_append_right _ mem, (mem_newAttempts mem).1⟩
    · intro _ stillQueued
      rw [assigned] at stillQueued
      cases stillQueued
    · intro several _
      rw [redundancy] at several ⊢
      rw [attempts, live.unassigned several queued, nil_append,
        newAttempts_length, ← chosen, length_take]
      rcases serviceable with _ | none | ⟨highValue, enough⟩
      · omega
      · rw [none, take_nil] at chosen
        cases chosen
      · rw [Job.wanted, if_pos highValue]
        exact Nat.min_eq_left enough
    · intro _ attempt mem completed
      rw [attempts] at mem
      rcases mem_append.mp mem with old | new
      · have vote := live.votes (by rw [queued]; rfl) attempt old completed
        rw [CountedVote, queued] at vote
        cases vote.1
      · rw [(mem_newAttempts new).2] at completed
        cases completed

theorem recordedVotes (live : Live record) {clock : Clock}
    (recording : Recorded clock providerId request record moved)
    (countable : record.job.redundancy = 1 ∨ (request.proof.get "output_sha256").key.isSome = true)
    (several : 1 < record.job.redundancy) :
    ∀ attempt ∈ moved.attempts, attempt.outcome = .completed → CountedVote moved.job attempt := by
  intro _ mem completed
  have redundancy : moved.job.redundancy = record.job.redundancy :=
    congrArg JobTerms.redundancy recording.terms
  refine ⟨recording.running, redundancy ▸ several, ?_⟩
  obtain ⟨_, _, _, attempts⟩ := recording.attempts
  rw [attempts] at mem
  obtain ⟨source, here, rfl⟩ := mem_updateAttempt.mp mem
  split_ifs at completed ⊢
  · exact ⟨recording.defined, countable.resolve_left (by omega)⟩
  · exact (live.votes (inFlight_open recording.inFlight) source here completed).2.2

theorem recorded_unfinished_lt {clock : Clock}
    (recording : Recorded clock providerId request record moved) :
    moved.unfinished < record.unfinished ∧ moved.attempts.length = record.attempts.length := by
  obtain ⟨_, _, found, attempts⟩ := recording.attempts
  obtain ⟨mem, _, unfinished⟩ := mem_of_providerAttempt found
  refine ⟨?_, by rw [attempts, updateAttempt_length]⟩
  rw [JobRecord.unfinished, attempts]
  exact updateAttempt_unfinished_lt (fun _ => rfl) mem unfinished

theorem ofRecorded (live : Live record) {clock : Clock}
    (recording : Recorded clock providerId request record moved)
    (countable : record.job.redundancy = 1 ∨ (request.proof.get "output_sha256").key.isSome = true)
    (short : moved.finishedAttempts.length < moved.job.redundancy) :
    Live moved := by
  have redundancy : moved.job.redundancy = record.job.redundancy :=
    congrArg JobTerms.redundancy recording.terms
  obtain ⟨_, sameLength⟩ := recorded_unfinished_lt recording
  have before := finished_add_unfinished record
  have after := finished_add_unfinished moved
  -- one attempt is finished now, so a single vote would have been enough
  have several : 1 < record.job.redundancy := by omega
  refine ofShort short (by rw [recording.running]; rfl) ?_
    (live.recordedVotes recording countable several)
  rw [sameLength, redundancy]
  exact live.assigned several recording.inFlight

theorem ofMarked (live : Live record) (lapsed : hasLapsedAttempt now record = true)
    (short : (markLapsed now record).finishedAttempts.length < record.job.redundancy) :
    Live (markLapsed now record) := by
  simp only [hasLapsedAttempt, Bool.and_eq_true, decide_eq_true_eq] at lapsed
  obtain ⟨⟨inFlight, several⟩, _⟩ := lapsed
  refine ofShort short inFlight ?_ ?_
  · rw [markLapsed, length_map]
    exact live.assigned several inFlight
  · intro _ mem completed
    obtain ⟨source, here, rfl⟩ := mem_map.mp mem
    split_ifs at completed ⊢
    exact live.votes (inFlight_open inFlight) source here completed

theorem ofFinalize {order : RowOrder} {clock : Clock}
    (ok : maybeFinalize settings order clock record books = .ok (moved, movedBooks))
    (unresolved : record.job.status.isTerminal = false)
    (short : record.finishedAttempts.length < record.job.redundancy → Live record) :
    Live moved := by
  rcases maybeFinalize_ok ok with ⟨rfl, _, closed | few⟩ | ⟨_, _, _, _, resolved⟩
  · rw [unresolved] at closed
    cases closed
  · exact short few
  · exact terminal resolved.facts.2.2.1

end Live

theorem live_preserved (settings : Settings) :
    Preserved settings Serviceable fun record _ => Live record := by
  intro event record _ moved _ live serviceable ok
  cases event with
  | idle =>
    cases ok
    exact live
  | assign => exact live.ofAssign serviceable ok
  | heartbeat =>
    obtain ⟨_, _, _, touched⟩ := heartbeat_touched ok
    exact live.ofTouched touched
  | reportStatus =>
    obtain ⟨_, _, _, touched⟩ := reportStatus_touched ok
    exact live.ofTouched touched
  | submitResult =>
    obtain ⟨_, ⟨recording, _, _⟩, finalised⟩ := submitResult_ready ok
    exact .ofFinalize finalised (by rw [recording.running]; rfl)
      (live.ofRecorded recording serviceable)
  | reclaim =>
    rcases reclaim_ok ok with ⟨rfl, _⟩ | ⟨single, _, code⟩
    · exact live
    · obtain ⟨terms, status, inFlight, completed⟩ := reclaimJob_ok code
      have redundancy : moved.job.redundancy = 1 :=
        (congrArg JobTerms.redundancy terms).trans single
      rcases status with ⟨_, failed⟩ | ⟨_, queued⟩
      · exact .terminal (by rw [failed]; rfl)
      · refine ⟨?_, ?_, ?_, ?_⟩
        · rw [queued]
          nofun
        · omega
        · omega
        · intro _ attempt mem done
          have vote := live.votes (inFlight_open inFlight) attempt (completed attempt mem done) done
          have several := vote.2.1
          omega
  | reapAttempts =>
    rcases reapAttempts_ok ok with ⟨rfl, _⟩ | ⟨lapsed, finalised⟩
    · exact live
    · have inFlight : record.job.status.inFlight = true := by
        simp only [hasLapsedAttempt, Bool.and_eq_true] at lapsed
        exact lapsed.1.1
      exact .ofFinalize finalised (inFlight_open inFlight) (live.ofMarked lapsed)

def lostResult : AgentResultRequest where
  resultRef := none
  exitCode := 1
  proof := []
  timedOut := true

variable {record : JobRecord} {attempt : JobAttempt}

theorem Live.lostResult_advances (live : Live record)
    (inFlight : record.job.status.inFlight = true) (settings : Settings)
    (clock : Clock) (books : Books) :
    ∃ providerId moved movedBooks, submitResult settings .stored clock providerId lostResult record
        books = .ok (moved, movedBooks) ∧
      (moved.job.status.isTerminal = true ∨ moved.job.status.inFlight = true ∧
          moved.unfinished < record.unfinished) := by
  obtain ⟨attempt, mem, unfinished⟩ := unfinished_pos_iff.mp (live.unfinished inFlight)
  obtain ⟨latest, found⟩ : ∃ latest, record.providerAttempt attempt.providerId = some latest := by
    rw [← Option.isSome_iff_exists, Option.isSome_iff_ne_none,
      JobRecord.providerAttempt, Ne, argmax_eq_none,
      filter_eq_nil_iff]
    intro none
    exact none attempt mem (by simp [unfinished])
  obtain ⟨recorded, recording, code⟩ := @submitResult_eq settings .stored
    clock record books _ latest lostResult found inFlight rfl rfl
  have recordedInFlight : recorded.job.status.inFlight = true := by
    rw [recording.running]
    rfl
  have countable : ∀ attempt ∈ recorded.attempts, attempt.outcome = .completed →
        (recorded.job.status = .running ∧ attempt.outputHash.key ≠ some .nan) ∧
          attempt.outputHash.key.isSome = true := by
    intro _ here completed
    obtain ⟨_, _, _, attempts⟩ := recording.attempts
    rw [attempts] at here
    obtain ⟨source, sourcePresent, rfl⟩ := mem_updateAttempt.mp here
    split_ifs at completed ⊢
    · cases completed
    · have vote := live.votes (inFlight_open inFlight) source sourcePresent completed
      exact ⟨⟨recording.running, vote.2.2.1⟩, vote.2.2.2⟩
  obtain ⟨moved, movedBooks, finalised⟩ := maybeFinalize_total settings
    .stored clock books recordedInFlight countable
  refine ⟨attempt.providerId, moved, movedBooks, code.trans finalised, ?_⟩
  rcases maybeFinalize_ok finalised with ⟨rfl, _, _⟩ | ⟨_, _, _, _, resolved⟩
  · exact Or.inr ⟨recordedInFlight, (Live.recorded_unfinished_lt recording).1⟩
  · exact Or.inl resolved.facts.2.2.1

section

variable {settings : Settings} {system : System} {jobId : Uuid}
  {record : JobRecord}

theorem lostResult_step (settings : Settings) (live : Live record)
    (found : system.record? jobId = some record) (inFlight : record.job.status.inFlight = true) :
    ∃ operation moved, Permits settings Serviceable system operation ∧
      (operation.step settings system).record? jobId = some moved ∧
      (moved.job.status.isTerminal = true ∨ moved.job.status.inFlight = true ∧
          moved.unfinished < record.unfinished) := by
  obtain ⟨providerId, moved, movedBooks, code, advance⟩ :=
    live.lostResult_advances inFlight settings ⟨0, 0, 0, 0⟩ system.books
  refine ⟨.submitResult .stored ⟨0, 0, 0, 0⟩ providerId jobId lostResult, moved, ?_, ?_, advance⟩
  · intro _ _ _
    simp only [Operation.event]
    split_ifs
    · exact Or.inr rfl
    · trivial
  · obtain ⟨_, posts⟩ := @JobEvent.perform_posts settings record moved system.books movedBooks
      (.submitResult .stored ⟨0, 0, 0, 0⟩ providerId lostResult) code
    have ok : Operation.perform settings
        (.submitResult .stored ⟨0, 0, 0, 0⟩ providerId jobId lostResult)
        system = .ok (system.put moved movedBooks) := by
      dsimp only [Operation.perform, System.onJob]
      rw [found]
      dsimp only
      rw [code]
      rfl
    have id : moved.job.id = jobId := by rw [congrArg JobTerms.id posts.terms, id_of_record? found]
    rw [Operation.step, transact, ok]
    rw [record?_put found, if_pos id]

theorem Created.live {rows : Ledger} (creation : Created settings record rows) : Live record := by
  cases creation with
  | submitted | canary => exact .waiting rfl rfl

/-- As long as redundant jobs are fully assigned and their hashes countable,
reports on unfinished attempts bring every job in flight to its end. -/
theorem job_never_stuck (reached : Reaches (Operation.step settings)
      (Permits settings Serviceable) System.Initial system)
    (found : system.record? jobId = some record)
    (inFlight : record.job.status.inFlight = true) :
    (∃ attempt ∈ record.attempts, attempt.finished = false) ∧
    ∃ operations, AllPermitted (Operation.step settings)
        (Permits settings Serviceable) operations system ∧
      ∃ final, (Serial.run (Operation.step settings) operations system).record? jobId = some final ∧
        final.job.status.isTerminal = true := by
  have live : Live record := reaches_everyJob
    (fun _ _ => Created.live) (live_preserved settings) reached found
  refine ⟨unfinished_pos_iff.mp (live.unfinished inFlight), ?_⟩
  induction remaining : record.unfinished using Nat.strong_induction_on
    generalizing system record with
  | _ _ ih =>
    obtain ⟨operation, moved, permitted, after, closed | ⟨still, fewer⟩⟩ :=
      lostResult_step settings live found inFlight
    · exact ⟨[operation], ⟨permitted, trivial⟩, moved, after, closed⟩
    · subst remaining
      have next := Reaches.step reached operation permitted
      obtain ⟨operations, allowed, final, last, closed⟩ := ih _ fewer next after still
          (reaches_everyJob (fun _ _ => Created.live) (live_preserved settings) next after) rfl
      exact ⟨operation :: operations, ⟨permitted, allowed⟩, final, last, closed⟩

def oneReportRun : List Operation := assignedJob true 2 [5, 6] ++ [answer 5 (.str "a")]

theorem oneReportRun_permitted : AllPermitted (Operation.step .default)
      (Permits .default Serviceable) oneReportRun System.empty := by
  refine ⟨fun _ _ _ => trivial, ?_, ?_, trivial⟩
  · intro _ record found
    have terms : ∀ record ∈ ((Operation.submitJob (minuteRequest true 2) 7 1 none true none
        0).step .default System.empty).records,
          record.job.isHighValue = true ∧ record.job.redundancy ≤ 2 := by
      decide +kernel
    simp only [Operation.event]
    split_ifs
    · exact Or.inr (Or.inr (terms record (mem_of_find?_eq_some found)))
    · trivial
  · intro _ _ _
    simp only [answer, Operation.event]
    split_ifs
    · exact Or.inr rfl
    · trivial

theorem job_never_stuck_oneReportRun : ∃ record, (Serial.run (Operation.step .default) oneReportRun
        System.empty).record? 1 = some record ∧
      record.job.status = .running ∧
      ∃ attempt ∈ record.attempts, attempt.finished = false := by
  have reached := Reaches.run (.start System.empty_initial) oneReportRun_permitted
  obtain ⟨record, found, running⟩ : ∃ record ∈ (Serial.run (Operation.step .default)
      oneReportRun System.empty).record? 1, record.job.status = .running := by
    decide +kernel
  exact ⟨record, found, running, (job_never_stuck reached found (by rw [running]; rfl)).1⟩

end

structure Stuck (record : JobRecord) : Prop where
  several : 1 < record.job.redundancy
  inFlight : record.job.status.inFlight = true
  done : ∀ attempt ∈ record.attempts, attempt.finished = true

theorem Stuck.preserved (stuck : Stuck record) (settings : Settings) :
    Preserved settings (fun _ _ => True) fun moved _ => moved = record := by
  intro event _ _ _ _ unchanged _ ok
  rw [unchanged] at ok
  have nobody : ∀ providerId attempt, record.providerAttempt providerId ≠ some attempt := by
    intro _ attempt found
    obtain ⟨mem, _, unfinished⟩ := mem_of_providerAttempt found
    rw [stuck.done attempt mem] at unfinished
    cases unfinished
  cases event with
  | idle =>
    cases ok
    rfl
  | assign =>
    obtain ⟨_, ⟨same, _⟩ | ⟨queued, _⟩⟩ := assignProviders_ok ok
    · exact same
    · have inFlight := stuck.inFlight
      rw [queued] at inFlight
      cases inFlight
  | heartbeat =>
    obtain ⟨_, _, _, _, _, _, found, _⟩ := heartbeat_ok ok
    exact absurd found (nobody _ _)
  | reportStatus =>
    obtain ⟨_, _, _, _, _, found, _⟩ := reportStatus_ok ok
    exact absurd found (nobody _ _)
  | submitResult =>
    obtain ⟨_, ⟨recording, _, _⟩, _⟩ := submitResult_ready ok
    obtain ⟨_, _, found, _⟩ := recording.attempts
    exact absurd found (nobody _ _)
  | reclaim =>
    rcases reclaim_ok ok with ⟨same, _⟩ | ⟨_, _⟩
    · exact same
    · have several := stuck.several
      omega
  | reapAttempts =>
    rcases reapAttempts_ok ok with ⟨same, _⟩ | ⟨lapsed, _⟩
    · exact same
    · simp only [hasLapsedAttempt, Bool.and_eq_true, any_eq_true, attemptLapsed] at lapsed
      obtain ⟨_, attempt, mem, unfinished, _⟩ := lapsed
      rw [stuck.done attempt mem] at unfinished
      cases unfinished

/-- A hash that cannot be counted keeps a job from being decided: every
finalisation raises. -/
theorem maybeFinalize_unhashable {settings : Settings} {order : RowOrder} {clock : Clock}
    {books : Books} (unresolved : record.job.status.isTerminal = false)
    (enough : record.job.redundancy ≤ record.finishedAttempts.length)
    (mem : attempt ∈ record.finishedAttempts) (completed : attempt.outcome = .completed)
    (unhashable : attempt.outputHash.key = none) :
    maybeFinalize settings order clock record books = .error .unhashableOutput := by
  have counted : attemptResult attempt ∈
      (order.shuffle record.finishedAttempts).map attemptResult :=
    mem_map_of_mem ((order.perm _).mem_iff.mpr mem)
  unfold maybeFinalize finalize
  rw [if_neg (by simp [unresolved]), if_pos enough, if_neg (by simp [unresolved])]
  dsimp only
  rw [evaluateQuorum_unhashable _ counted (by simp [attemptResult, completed]) unhashable]
  rfl

def underassignedRun : List Operation := assignedJob false 2 [5, 6] ++ [answer 5 (.str "a")]

theorem underassigned_job_stuck : ∃ system record,
      Reaches (Operation.step .default) (fun _ _ => True) System.Initial system ∧
      system.record? 1 = some record ∧
      record.job.status = .running ∧
      (∀ attempt ∈ record.attempts, attempt.finished = true) ∧
      ∀ later, Reaches (Operation.step .default) (fun _ _ => True)
          (fun state => state = system) later →
        later.record? 1 = some record := by
  obtain ⟨system, record, reached, found, running, several, done⟩ := @exists_reached .default _ 1
    (fun _ record => record.job.status = .running ∧ 1 < record.job.redundancy ∧
      ∀ attempt ∈ record.attempts, attempt.finished = true)
    underassignedRun System.empty_initial (by decide +kernel)
  have stuck : Stuck record := ⟨several, by rw [running]; rfl, done⟩
  refine ⟨system, record, reached, found, running, done, ?_⟩
  intro _ onwards
  obtain ⟨_, after, rfl⟩ := reaches_oneJob (stuck.preserved .default) found rfl
    (onwards.mono fun _ _ _ _ _ _ => trivial)
  exact after

end Gridix
