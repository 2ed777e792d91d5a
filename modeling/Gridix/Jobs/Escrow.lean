import Gridix.Jobs.Runs

/-!
# The escrow of a job

The ledger groups that carry a job's id hold its escrow while the job is open,
and nothing once it is closed.
-/

namespace Gridix

open Serial

def Job.escrowHeld (job : Job) : Int :=
  if job.kind = .canary ∨ job.status.isTerminal = true then 0
  else job.escrowAmount.getD 0

/-- A reaper does not meet a billed job that has used up its attempts. -/
def WithinBudget (settings : Settings) (record : JobRecord) : JobEvent → Prop
  | .reclaim _ _ =>
    record.job.kind = .canary ∨ record.job.escrowAmount.getD 0 = 0 ∨
      record.job.attemptCount < settings.maxAttempts
  | _ => True

structure EscrowKept (record : JobRecord) (rows : Ledger) : Prop where
  billed : record.job.kind ≠ .canary → record.job.escrowAmount.isSome = true
  balance : accountBalance rows .escrow none = record.job.escrowHeld

section

variable {job moved : Job}

theorem escrowHeld_open (billed : job.kind ≠ .canary) (unresolved : job.status.isTerminal = false) :
    job.escrowHeld = job.escrowAmount.getD 0 := by
  simp [Job.escrowHeld, billed, unresolved]

theorem escrowHeld_terminal (terminal : job.status.isTerminal = true) : job.escrowHeld = 0 := by
  simp [Job.escrowHeld, terminal]

theorem escrowHeld_congr (terms : moved.toJobTerms = job.toJobTerms)
    (closed : moved.status.isTerminal = job.status.isTerminal) :
    moved.escrowHeld = job.escrowHeld := by
  unfold Job.escrowHeld
  rw [congrArg JobTerms.kind terms, congrArg JobTerms.escrowAmount terms, closed]

end

section

variable {settings : Settings} {record moved : JobRecord}
  {books movedBooks : Books}

def EscrowFollows (record : JobRecord) (books : Books)
    (moved : JobRecord) (movedBooks : Books) : Prop :=
  ∃ posted, movedBooks.ledger = books.ledger ++ posted ∧ accountBalance posted .escrow none =
      moved.job.escrowHeld - record.job.escrowHeld

theorem EscrowFollows.nothing (ledger : movedBooks.ledger = books.ledger)
    (same : moved.job.escrowHeld = record.job.escrowHeld) :
    EscrowFollows record books moved movedBooks := by
  refine ⟨[], by rw [ledger, List.append_nil], ?_⟩
  rw [same, Int.sub_self]
  rfl

theorem maybeFinalize_escrow {order : RowOrder} {clock : Clock}
    (ok : maybeFinalize settings order clock record books = .ok (moved, movedBooks)) :
    EscrowFollows record books moved movedBooks := by
  rcases maybeFinalize_ok ok with ⟨rfl, rfl, _⟩ | ⟨unresolved, _, posted, ledger, resolved⟩
  · exact .nothing rfl rfl
  · obtain ⟨_, _, terminal, _, escrow⟩ := resolved.facts
    refine ⟨posted, ledger, ?_⟩
    rw [escrow, escrowHeld_terminal terminal]
    by_cases canary : record.job.kind = .canary
    · simp [Job.escrowHeld, canary]
    · rw [escrowHeld_open canary unresolved, if_neg canary]
      omega

theorem reclaimJob_escrow {now transitioned : Int}
    (budget : record.job.kind = .canary ∨ record.job.escrowAmount.getD 0 = 0 ∨
      record.job.attemptCount < settings.maxAttempts)
    (ok : reclaimJob settings now transitioned record = .ok moved) :
    moved.job.escrowHeld = record.job.escrowHeld := by
  obtain ⟨terms, status, inFlight, _⟩ := reclaimJob_ok ok
  have unresolved := inFlight_open inFlight
  rcases status with ⟨exhausted, failed⟩ | ⟨_, queued⟩
  · have terminal : moved.job.status.isTerminal = true := by
      rw [failed]
      rfl
    rw [escrowHeld_terminal terminal]
    rcases budget with canary | unfunded | left
    · simp [Job.escrowHeld, canary]
    · simp [Job.escrowHeld, unfunded]
    · exact absurd left (Nat.not_lt.mpr exhausted)
  · refine escrowHeld_congr terms ?_
    rw [queued, unresolved]
    rfl

theorem JobEvent.perform_escrow {event : JobEvent} (budget : WithinBudget settings record event)
    (ok : event.perform settings record books = .ok (moved, movedBooks)) :
    EscrowFollows record books moved movedBooks := by
  cases event with
  | idle =>
    cases ok
    exact .nothing rfl rfl
  | assign =>
    obtain ⟨rfl, ⟨rfl, _⟩ | ⟨queued, _, _, _, terms, assigned, _⟩⟩ := assignProviders_ok ok
    · exact .nothing rfl rfl
    · exact .nothing rfl (escrowHeld_congr terms (by rw [assigned, queued]; rfl))
  | heartbeat =>
    obtain ⟨ledger, _, terms, status, _⟩ := heartbeat_ok ok
    exact .nothing ledger (escrowHeld_congr terms (by rw [status]))
  | reportStatus =>
    obtain ⟨ledger, inFlight, terms, running, _⟩ := reportStatus_ok ok
    exact .nothing ledger (escrowHeld_congr terms (by rw [running, inFlight_open inFlight]; rfl))
  | submitResult =>
    obtain ⟨recorded, ⟨recording, _, _⟩, finalised⟩ := submitResult_ready ok
    have same : recorded.job.escrowHeld = record.job.escrowHeld := escrowHeld_congr recording.terms
        (by rw [recording.running, inFlight_open recording.inFlight]; rfl)
    obtain ⟨posted, ledger, escrow⟩ := maybeFinalize_escrow finalised
    exact ⟨posted, ledger, same ▸ escrow⟩
  | reclaim =>
    rcases reclaim_ok ok with ⟨rfl, rfl⟩ | ⟨_, rfl, code⟩
    · exact .nothing rfl rfl
    · exact .nothing rfl (reclaimJob_escrow budget code)
  | reapAttempts =>
    rcases reapAttempts_ok ok with ⟨rfl, rfl⟩ | ⟨_, finalised⟩
    · exact .nothing rfl rfl
    · obtain ⟨posted, ledger, escrow⟩ := maybeFinalize_escrow finalised
      exact ⟨posted, ledger, escrow⟩

end

theorem Created.escrowKept {settings : Settings} {record : JobRecord}
    {rows : Ledger} (creation : Created settings record rows) :
    EscrowKept record rows := by
  cases creation with
  | submitted => exact ⟨fun _ => rfl, escrow_escrowRows _ _ (escrowEstimate_nonneg _ _ settings)⟩
  | canary => exact ⟨fun billed => absurd rfl billed, rfl⟩

theorem escrowKept_preserved (settings : Settings) :
    Preserved settings (WithinBudget settings) EscrowKept := by
  intro _ _ _ _ _ held budget ok
  obtain ⟨_, posts⟩ := JobEvent.perform_posts ok
  obtain ⟨_, ledger, escrow⟩ := JobEvent.perform_escrow budget ok
  cases List.append_cancel_left (posts.ledger.symm.trans ledger)
  refine ⟨?_, ?_⟩
  · rw [congrArg JobTerms.kind posts.terms, congrArg JobTerms.escrowAmount posts.terms]
    exact held.billed
  · rw [posts.ledger, Ledger.forJob_append_own posts.stamped, accountBalance_append, held.balance]
    omega

/-- While no reaper meets a billed job without attempts left, the groups of
every billed job hold its escrow until it is closed, and nothing after. -/
theorem escrow_resolved {settings : Settings} {system : System}
    (reached : Reaches (Operation.step settings)
      (Permits settings (WithinBudget settings)) System.Initial system) {jobId : Uuid}
    {record : JobRecord} (found : system.record? jobId = some record)
    (billed : record.job.kind ≠ .canary) :
    ∃ escrow, record.job.escrowAmount = some escrow ∧
      accountBalance (system.books.ledger.forJob jobId) .escrow none =
        if record.job.status.isTerminal then 0 else escrow := by
  have kept := reaches_everyJob (fun _ _ => Created.escrowKept)
    (escrowKept_preserved settings) reached found
  obtain ⟨escrow, amount⟩ := Option.isSome_iff_exists.mp (kept.billed billed)
  refine ⟨escrow, amount, ?_⟩
  rw [kept.balance]
  split_ifs with terminal
  · exact escrowHeld_terminal terminal
  · rw [escrowHeld_open billed (by simpa using terminal), amount]
    rfl

def completedRun : List Operation := assignedJob false 1 [5] ++ [answer 5 (.str "a")]

theorem completedRun_permitted : AllPermitted (Operation.step .default)
      (Permits .default (WithinBudget .default)) completedRun
      System.empty := by
  refine ⟨fun _ _ _ => trivial, ?_, ?_, trivial⟩
  · intro _ _ _
    simp only [Operation.event]
    split_ifs <;> trivial
  · intro _ _ _
    simp only [answer, Operation.event]
    split_ifs <;> trivial

theorem escrow_resolved_completedRun : ∃ record, (Serial.run (Operation.step .default) completedRun
        System.empty).record? 1 = some record ∧
      record.job.status = .completed ∧
      ∃ escrow, record.job.escrowAmount = some escrow ∧
        accountBalance ((Serial.run (Operation.step .default) completedRun
            System.empty).books.ledger.forJob 1) .escrow none =
          if record.job.status.isTerminal then 0 else escrow := by
  have reached := Reaches.run (.start System.empty_initial) completedRun_permitted
  obtain ⟨record, found, completed, billed⟩ : ∃ record ∈ (Serial.run (Operation.step .default)
      completedRun System.empty).record? 1, record.job.status = .completed ∧
        record.job.kind ≠ .canary := by
    decide +kernel
  exact ⟨record, found, completed, escrow_resolved reached found billed⟩

def exhaustedRun : List Operation :=
  .submitJob (minuteRequest false 1) 7 1 none true none 0 ::
    (List.replicate 3 [Operation.assignProviders 1 (.of [5]) 0,
        .reapExpiredLeases 1000000000 1000000000]).flatten

theorem reaper_keeps_escrow : ∃ system record,
      Reaches (Operation.step .default) (fun _ _ => True) System.Initial system ∧
      system.record? 1 = some record ∧
      record.job.kind = .standard ∧
      record.job.status = .failed ∧
      record.job.escrowAmount = some 100000000 ∧
      accountBalance (system.books.ledger.forJob 1) .escrow none = 100000000 :=
  exists_reached exhaustedRun System.empty_initial (by decide +kernel)

end Gridix
