import Gridix.Base.Serial
import Gridix.Jobs.Results

/-!
# What a finalisation does

A finalisation takes the quorum, stamps a terminal status, holds the stake of
cheaters and resolves the escrow.
-/

namespace Gridix

open List Serial

@[simp] theorem recordReputation_ledger (books : Books) (providerId : Uuid)
    (kind : ReputationKind) (jobId : Uuid) :
    (recordReputation books providerId kind jobId).ledger = books.ledger := by
  unfold recordReputation
  split <;> rfl

@[simp] theorem recordReputation_bandwidth (books : Books)
    (providerId : Uuid) (kind : ReputationKind) (jobId : Uuid) :
    (recordReputation books providerId kind jobId).bandwidth = books.bandwidth := by
  unfold recordReputation
  split <;> rfl

def IsStakeHold (jobId : Uuid) (group : LedgerGroup) : Prop := ∃ providerId amount, group =
    ⟨transferPostings .stake (some providerId) .disputed (some providerId)
      amount, .slashHold, some jobId, none⟩

structure Penalised (jobId : Uuid) (books moved : Books) (held : Ledger) : Prop where
  ledger : moved.ledger = books.ledger ++ held
  holds : ∀ group ∈ held, IsStakeHold jobId group
  bandwidth : moved.bandwidth = books.bandwidth

namespace Penalised

variable {jobId : Uuid} {books middle moved : Books} {held more : Ledger}

theorem nothing (ledger : moved.ledger = books.ledger)
    (bandwidth : moved.bandwidth = books.bandwidth) :
    Penalised jobId books moved [] :=
  ⟨by rw [ledger, append_nil], nofun, bandwidth⟩

theorem trans (first : Penalised jobId books middle held)
    (second : Penalised jobId middle moved more) :
    Penalised jobId books moved (held ++ more) where
  ledger := by rw [second.ledger, first.ledger, append_assoc]
  holds := by
    intro group mem
    rcases mem_append.mp mem with early | late
    · exact first.holds group early
    · exact second.holds group late
  bandwidth := second.bandwidth.trans first.bandwidth

end Penalised

theorem openDispute_spec (settings : Settings) (books : Books) (providerId : Uuid) (amount : Int)
    (reason : SlashReason) (jobId : Uuid) (now : Int) :
    ∃ moved held, openDispute settings books providerId amount reason jobId now = .ok moved ∧
      Penalised jobId books moved held := by
  unfold openDispute
  dsimp only
  split_ifs with pos
  · rw [postTransaction_transfer _ _ _ _ _ _ _ (Int.le_of_lt pos)]
    refine ⟨_, _, rfl, rfl, ?_, rfl⟩
    intro _ mem
    exact ⟨_, _, mem_singleton.mp mem⟩
  · exact ⟨_, [], rfl, .nothing rfl rfl⟩

theorem applyOutcome_spec (settings : Settings) (job : Job)
    (attempt : JobAttempt) (won : Bool) (now : Int) (books : Books) :
    ∃ moved held, applyOutcome settings job attempt won now books = .ok moved ∧
      Penalised job.id books moved held := by
  unfold applyOutcome
  split
  · exact ⟨_, [], rfl, .nothing rfl rfl⟩
  · rename_i provider _
    dsimp only
    split
    · refine ⟨_, [], rfl, .nothing ?_ ?_⟩
      · split <;> simp
      · split <;> simp
    · split
      · obtain ⟨moved, held, ok, penalised⟩ := openDispute_spec settings
          (recordReputation books provider.id
            (if job.kind == .canary then .canaryFail else .quorumDisagree)
            job.id)
          provider.id
          (graduatedSlash (settings.slashAmount * 10 ^ 8)
            (countPriorOffenses (recordReputation books provider.id
              (if job.kind == .canary then .canaryFail else .quorumDisagree)
              job.id) provider.id))
          (if job.kind == .canary then .canaryFail else .quorumDisagree)
          job.id now
        refine ⟨moved, held, ok, ?_⟩
        exact (Penalised.nothing (recordReputation_ledger _ _ _ _)
          (recordReputation_bandwidth _ _ _ _)).trans penalised
      · exact ⟨_, [], rfl, .nothing (recordReputation_ledger _ _ _ _)
          (recordReputation_bandwidth _ _ _ _)⟩

theorem penalties_spec (settings : Settings) (job : Job) (attempts : List JobAttempt)
    (won : JobAttempt → Bool) (now : Int) (books : Books) :
    ∃ moved held, attempts.foldlM (fun books attempt =>
        applyOutcome settings job attempt (won attempt) now books) books = .ok moved ∧
      Penalised job.id books moved held := by
  induction attempts generalizing books with
  | nil => exact ⟨books, [], rfl, .nothing rfl rfl⟩
  | cons attempt _ ih =>
    obtain ⟨middle, held, ok, first⟩ :=
      applyOutcome_spec settings job attempt (won attempt) now books
    obtain ⟨moved, more, folded, second⟩ := ih middle
    refine ⟨moved, held ++ more, ?_, first.trans second⟩
    rw [foldlM_cons, ok]
    exact folded

variable {group : LedgerGroup} {account : LedgerAccount}

theorem accountBalance_stakeHolds {jobId : Uuid} {held : Ledger}
    (holds : ∀ group ∈ held, IsStakeHold jobId group)
    (notStake : account ≠ .stake) (notDisputed : account ≠ .disputed) (ref : Option Uuid) :
    accountBalance held account ref = 0 := by
  induction held with
  | nil => rfl
  | cons group _ ih =>
    have tail := ih fun other mem =>
      holds other (mem_cons_of_mem _ mem)
    obtain ⟨_, _, rfl⟩ := holds group mem_cons_self
    unfold accountBalance at tail ⊢
    simp only [Ledger.sum_cons, sumPostings_transfer_credit,
      sumPostings_transfer_debit, notStake.symm, notDisputed.symm]
    omega

def dataRows (job : Job) (cost : Int) : Ledger :=
  if 0 < cost then
    [⟨transferPostings .developer (some job.developerId) .protocol none cost,
      .dataCost, some job.id, none⟩]
  else []

theorem postDataCost_eq (job : Job) (cost : Int) :
    postDataCost job cost = .ok (dataRows job cost) := by
  unfold postDataCost dataRows
  split_ifs with pos
  · exact postTransaction_transfer _ _ _ _ _ _ _ (Int.le_of_lt pos)
  · rfl

theorem refundRemainder_eq (job : Job) (remainder : Int) : refundRemainder job remainder =
      .ok (refundRows job.id job.developerId remainder) := by
  unfold refundRemainder
  split_ifs with pos
  · exact refund_eq _ _ _
  · rw [refundRows, if_pos (Int.not_lt.mp pos)]

theorem accountBalance_dataRows (job : Job) (cost : Int)
    (notDeveloper : account ≠ .developer) (notProtocol : account ≠ .protocol) (ref : Option Uuid) :
    accountBalance (dataRows job cost) account ref = 0 := by
  unfold dataRows accountBalance
  split_ifs
  · simp [notDeveloper.symm, notProtocol.symm]
  · rfl

section

variable (settings : Settings) (job : Job) (bytes : Int) {winner : Option Uuid} {providerId : Uuid}

theorem settledCost_nonneg {escrow : Int} (nonneg : 0 ≤ escrow) :
    0 ≤ settledCost settings job escrow :=
  le_min (computeCost_nonneg _ _ _) nonneg

theorem settledCost_le (escrow : Int) : settledCost settings job escrow ≤ escrow := min_le_right _ _

/-- What a completed job posts: the provider's share and the fee, the
remainder back, and the data charge. -/
def completionRows (providerId : Uuid) (escrow : Int) : Ledger :=
  let cost := settledCost settings job escrow
  releaseRows job.id job.developerId providerId cost (protocolFee cost settings) ++
    refundRows job.id job.developerId (escrow - cost) ++
    dataRows job (dataCost bytes settings)

variable {settings job bytes}

theorem settleJob_unbilled (unbilled : job.kind = .canary ∨ job.escrowAmount = none) :
    settleJob settings job winner bytes = .ok ([], job.costFinal) := by
  unfold settleJob
  split_ifs with canary
  · rfl
  · rw [unbilled.resolve_left canary]

theorem settleJob_completed {escrow : Int} (billed : job.kind ≠ .canary)
    (amount : job.escrowAmount = some escrow) (completed : job.status = .completed) :
    settleJob settings job (some providerId) bytes =
      .ok (completionRows settings job bytes providerId escrow,
        some (settledCost settings job escrow + dataCost bytes settings)) := by
  have nonneg := settledCost_nonneg settings job (job.escrowNonneg escrow amount)
  unfold settleJob
  rw [if_neg billed, amount, completed]
  dsimp only
  rw [settle_eq _ _ _ (protocolFee_nonneg settings nonneg)
    (protocolFee_le settings nonneg), refundRemainder_eq, postDataCost_eq]
  rfl

theorem settleJob_refunded {escrow : Int} (billed : job.kind ≠ .canary)
    (amount : job.escrowAmount = some escrow) (notCompleted : job.status ≠ .completed) :
    settleJob settings job winner bytes =
      .ok (refundRows job.id job.developerId escrow, some 0) := by
  unfold settleJob
  rw [if_neg billed, amount]
  dsimp only
  split
  · rename_i completed
    exact absurd completed notCompleted
  · rw [refund_eq]
    rfl

theorem escrow_completionRows {providerId : Uuid} {escrow : Int} (nonneg : 0 ≤ escrow) :
    accountBalance (completionRows settings job bytes providerId escrow)
      .escrow none = -escrow := by
  have cost := settledCost_nonneg settings job nonneg
  have le := settledCost_le settings job escrow
  simp only [completionRows, accountBalance_append]
  rw [escrow_releaseRows _ _ _ cost, escrow_refundRows _ _ (Int.sub_nonneg.mpr le),
    accountBalance_dataRows job _ (by decide) (by decide)]
  omega

theorem provider_completionRows {providerId : Uuid} {escrow : Int}
    (nonneg : 0 ≤ escrow) (ref : Uuid) :
    accountBalance (completionRows settings job bytes providerId escrow) .provider (some ref) =
      if providerId = ref then
        settledCost settings job escrow - protocolFee (settledCost settings job escrow) settings
      else 0 := by
  have cost := settledCost_nonneg settings job nonneg
  simp only [completionRows, accountBalance_append]
  rw [provider_releaseRows _ _ _ (protocolFee_nonneg settings cost)
      (protocolFee_le settings cost), provider_refundRows,
    accountBalance_dataRows job _ (by decide) (by decide)]
  omega

theorem jobId_of_mem_completionRows {escrow : Int} {group : LedgerGroup}
    (mem : group ∈ completionRows settings job bytes providerId escrow) :
    group.jobId = some job.id := by
  simp only [completionRows, mem_append] at mem
  rcases mem with (released | refunded) | charged
  · exact jobId_of_mem_releaseRows _ _ _ released
  · exact jobId_of_mem_refundRows _ _ refunded
  · unfold dataRows at charged
    split_ifs at charged
    · rw [mem_singleton.mp charged]
    · cases charged

theorem settleJob_spec (settings : Settings) (bytes : Int)
    (paid : job.status = .completed → winner.isSome = true) :
    ∃ rows costFinal, settleJob settings job winner bytes = .ok (rows, costFinal) ∧
      (∀ group ∈ rows, group.jobId = some job.id) ∧
      accountBalance rows .escrow none = -(if job.kind = .canary then 0
          else job.escrowAmount.getD 0) := by
  by_cases billed : job.kind = .canary
  · exact ⟨[], _, settleJob_unbilled (Or.inl billed), nofun,
      by rw [if_pos billed]; rfl⟩
  · cases amount : job.escrowAmount with
    | none =>
      exact ⟨[], _, settleJob_unbilled (Or.inr amount), nofun,
        by rw [if_neg billed]; rfl⟩
    | some escrow =>
      have nonneg := job.escrowNonneg escrow amount
      rw [if_neg billed]
      by_cases completed : job.status = .completed
      · obtain ⟨_, rfl⟩ := Option.isSome_iff_exists.mp (paid completed)
        exact ⟨_, _, settleJob_completed billed amount completed,
          fun _ => jobId_of_mem_completionRows,
          escrow_completionRows nonneg⟩
      · exact ⟨_, _, settleJob_refunded billed amount completed,
          fun _ => jobId_of_mem_refundRows _ _,
          escrow_refundRows _ _ nonneg⟩

end

def allTimedOut (attempts : List JobAttempt) : Bool := !attempts.isEmpty &&
    attempts.all fun attempt => attempt.outcome == .timeout

section

variable {job decided : Job} {attempts : List JobAttempt}
  {outcome : QuorumOutcome} {now : Int} {paid : Option Uuid}

theorem decideJob_reached (reached : outcome.reached = true)
    (ok : decideJob job attempts outcome now = .ok (decided, paid)) :
    ∃ winner ∈ attempts, winner.providerId ∈ outcome.agreers ∧ winner.outcome = .completed ∧
      decided = Job.stamp { job with
        resultRef := winner.resultRef, proof := winner.proof } .completed now ∧
      paid = some winner.providerId := by
  unfold decideJob at ok
  rw [if_pos reached] at ok
  split at ok
  · cases ok
  · rename_i winner found
    obtain ⟨_, legal, ok⟩ := bind_eq_ok.mp ok
    cases ok
    have chosen := List.find?_some found
    simp only [Bool.and_eq_true, contains_eq_mem, decide_eq_true_eq, beq_iff_eq] at chosen
    exact ⟨winner, mem_of_find?_eq_some found, chosen.1, chosen.2, (transition_ok legal).2, rfl⟩

theorem decideJob_unreached (unreached : outcome.reached = false)
    (ok : decideJob job attempts outcome now = .ok (decided, paid)) :
    decided = job.stamp (if allTimedOut attempts then .timeout else .failed) now ∧ paid = none := by
  unfold decideJob at ok
  rw [if_neg (by simp [unreached])] at ok
  obtain ⟨_, legal, ok⟩ := bind_eq_ok.mp ok
  cases ok
  exact ⟨(transition_ok legal).2, rfl⟩

theorem decideJob_ok (ok : decideJob job attempts outcome now = .ok (decided, paid)) :
    decided.toJobTerms = job.toJobTerms ∧ decided.status.isTerminal = true ∧
      (decided.status = .completed → paid.isSome = true) := by
  by_cases reached : outcome.reached = true
  · obtain ⟨_, _, _, _, rfl, rfl⟩ := decideJob_reached reached ok
    refine ⟨stamp_terms _ _ _, ?_, fun _ => rfl⟩
    rfl
  · obtain ⟨rfl, rfl⟩ := decideJob_unreached (Bool.not_eq_true _ ▸ reached) ok
    refine ⟨stamp_terms _ _ _, ?_, ?_⟩
    · rw [stamp_status]
      split_ifs <;> rfl
    · rw [stamp_status]
      split_ifs <;> nofun

theorem decideJob_open (ok : decideJob job attempts outcome now = .ok (decided, paid)) :
    job.status.isTerminal = false := by
  have legal : ∃ target, canTransition job.status target = true := by
    unfold decideJob at ok
    split_ifs at ok
    · split at ok
      · cases ok
      · obtain ⟨_, moved, _⟩ := bind_eq_ok.mp ok
        exact ⟨_, (transition_ok moved).1⟩
    · obtain ⟨_, moved, _⟩ := bind_eq_ok.mp ok
      exact ⟨_, (transition_ok moved).1⟩
  obtain ⟨target, legal⟩ := legal
  revert legal
  cases job.status <;> cases target <;> decide

/-- A decision cannot fail from a running job, nor from an assigned one none
of whose attempts completed, if no hash differs from itself. -/
theorem decideJob_total (now : Int)
    (quorum : evaluateQuorum (attempts.map attemptResult) job.redundancy = .ok outcome)
    (inFlight : job.status.inFlight = true)
    (started : ∀ attempt ∈ attempts, attempt.outcome = .completed →
      job.status = .running ∧ attempt.outputHash.key ≠ some .nan) :
    ∃ decided paid, decideJob job attempts outcome now = .ok (decided, paid) := by
  rcases evaluateQuorum_ok quorum with ⟨rfl, _⟩ | ⟨winning, reached, many, _, agreers, _⟩
  · have legal : canTransition job.status
        (if allTimedOut attempts then .timeout else .failed) = true := by
      revert inFlight
      cases job.status <;> split_ifs <;> decide
    refine ⟨job.stamp (if allTimedOut attempts then .timeout else .failed)
      now, none, bind_eq_ok.mpr ⟨_, if_pos legal, rfl⟩⟩
  · have pos : 0 < votes (attempts.map attemptResult) winning :=
      Nat.lt_of_lt_of_le (Nat.succ_pos _) many
    rw [votes, countP_pos_iff] at pos
    obtain ⟨_, mem, carries⟩ := pos
    obtain ⟨attempt, here, rfl⟩ := mem_map.mp mem
    simp only [AttemptResult.usable, attemptResult, Bool.and_eq_true, beq_iff_eq] at carries
    have agrees : attempt.providerId ∈ outcome.agreers := by
      rw [agreers, mem_map]
      refine ⟨attemptResult attempt, mem_filter.mpr ⟨mem, ?_⟩, rfl⟩
      have equal : winning ≠ .nan := fun nan =>
        (started attempt here carries.1.1).2 (carries.2.trans (congrArg some nan))
      simp [AttemptResult.agrees, attemptResult, carries, equal]
    have running := (started attempt here carries.1.1).1
    unfold decideJob
    rw [if_pos reached]
    cases found : attempts.find? fun attempt =>
        outcome.agreers.contains attempt.providerId && attempt.outcome == .completed with
    | none =>
      have nobody := List.find?_eq_none.mp found attempt here
      simp [agrees, carries] at nobody
    | some winner =>
      have legal : canTransition job.status .completed = true := by
        rw [running]
        rfl
      exact ⟨Job.stamp { job with
          resultRef := winner.resultRef, proof := winner.proof }
            .completed now, some winner.providerId,
        bind_eq_ok.mpr ⟨_, if_pos legal, rfl⟩⟩

end

inductive Resolved (settings : Settings) (attempts : List JobAttempt)
    (now bytes : Int) (record : JobRecord) : JobRecord → Ledger → Prop where
  | intro {outcome : QuorumOutcome} {decided : Job} {paid : Option Uuid}
      {held rows : Ledger} {costFinal : Option Int}
      (quorum : evaluateQuorum (attempts.map attemptResult) record.job.redundancy = .ok outcome)
      (decision : decideJob record.job attempts outcome now = .ok (decided, paid))
      (holds : ∀ group ∈ held, IsStakeHold record.job.id group)
      (settlement : settleJob settings decided paid bytes = .ok (rows, costFinal)) :
      Resolved settings attempts now bytes record
        { record with job := { decided with costFinal := costFinal } }
        (held ++ rows)

section

variable {settings : Settings} {order : RowOrder} {clock : Clock}
  {record moved : JobRecord} {books movedBooks : Books}

theorem finalize_total (settings : Settings) (books : Books) {outcome : QuorumOutcome}
    {decided : Job} {paid : Option Uuid} (unresolved : record.job.status.isTerminal = false)
    (quorum : evaluateQuorum ((order.shuffle record.finishedAttempts).map attemptResult)
      record.job.redundancy = .ok outcome)
    (decision : decideJob record.job
      (order.shuffle record.finishedAttempts) outcome clock.jobFinished = .ok (decided, paid)) :
    ∃ moved movedBooks posted,
      finalize settings order clock record books = .ok (moved, movedBooks) ∧
      movedBooks.ledger = books.ledger ++ posted ∧
      Resolved settings (order.shuffle record.finishedAttempts)
        clock.jobFinished (jobBytes books record.job.id) record moved
        posted := by
  obtain ⟨terms, _, winner⟩ := decideJob_ok decision
  have id : decided.id = record.job.id := congrArg JobTerms.id terms
  obtain ⟨penalised, held, folded, penalties⟩ := penalties_spec settings
    decided (order.shuffle record.finishedAttempts)
    (fun attempt => outcome.agreers.contains attempt.providerId &&
      outcome.reached) clock.disputed books
  obtain ⟨rows, _, settlement, _⟩ := settleJob_spec settings (jobBytes penalised decided.id) winner
  have bytes : jobBytes penalised decided.id = jobBytes books record.job.id := by
    rw [jobBytes, penalties.bandwidth, id, jobBytes]
  refine ⟨_, { penalised with ledger := penalised.ledger ++ rows }, held ++ rows, ?_, ?_,
    .intro quorum decision (id ▸ penalties.holds) (bytes ▸ settlement)⟩
  · unfold finalize
    rw [if_neg (by simp [unresolved])]
    refine bind_eq_ok.mpr ⟨outcome, quorum, ?_⟩
    refine bind_eq_ok.mpr ⟨(decided, paid), decision, ?_⟩
    refine bind_eq_ok.mpr ⟨penalised, folded, ?_⟩
    rw [settlement]
  · simp only [penalties.ledger, append_assoc]

theorem finalize_ok (unresolved : record.job.status.isTerminal = false)
    (ok : finalize settings order clock record books = .ok (moved, movedBooks)) :
    ∃ posted, movedBooks.ledger = books.ledger ++ posted ∧
      Resolved settings (order.shuffle record.finishedAttempts)
        clock.jobFinished (jobBytes books record.job.id) record moved
        posted := by
  have code := ok
  unfold finalize at code
  rw [if_neg (by simp [unresolved])] at code
  obtain ⟨_, quorum, code⟩ := bind_eq_ok.mp code
  obtain ⟨⟨_, _⟩, decision, _⟩ := bind_eq_ok.mp code
  obtain ⟨_, _, posted, same, ledger, resolved⟩ :=
    finalize_total settings books unresolved quorum decision
  cases ok.symm.trans same
  exact ⟨posted, ledger, resolved⟩

theorem maybeFinalize_ok (ok : maybeFinalize settings order clock record books =
      .ok (moved, movedBooks)) :
    (moved = record ∧ movedBooks = books ∧ (record.job.status.isTerminal = true ∨
        record.finishedAttempts.length < record.job.redundancy)) ∨
    (record.job.status.isTerminal = false ∧ record.job.redundancy ≤ record.finishedAttempts.length ∧
      ∃ posted, movedBooks.ledger = books.ledger ++ posted ∧
        Resolved settings (order.shuffle record.finishedAttempts)
          clock.jobFinished (jobBytes books record.job.id) record moved
          posted) := by
  unfold maybeFinalize at ok
  split_ifs at ok with terminal enough
  · cases ok
    exact Or.inl ⟨rfl, rfl, Or.inl terminal⟩
  · rw [Bool.not_eq_true] at terminal
    exact Or.inr ⟨terminal, enough, finalize_ok terminal ok⟩
  · cases ok
    exact Or.inl ⟨rfl, rfl, Or.inr (Nat.not_le.mp enough)⟩

/-- A quorum for a hash that differs from itself has no winner, and raises. -/
theorem finalize_defined {outcome : QuorumOutcome}
    (unresolved : record.job.status.isTerminal = false)
    (ok : finalize settings order clock record books = .ok (moved, movedBooks))
    (quorum : evaluateQuorum ((order.shuffle record.finishedAttempts).map attemptResult)
      record.job.redundancy = .ok outcome) : outcome.winningHash ≠ some .nan := by
  intro nan
  unfold finalize at ok
  rw [if_neg (by simp [unresolved])] at ok
  obtain ⟨_, again, ok⟩ := bind_eq_ok.mp ok
  cases again.symm.trans quorum
  obtain ⟨_, decision, _⟩ := bind_eq_ok.mp ok
  rcases evaluateQuorum_ok quorum with ⟨rfl, _⟩ | ⟨_, reached, _, _, agreers, hash⟩
  · cases nan
  · cases hash.symm.trans nan
    obtain ⟨_, _, agrees, _⟩ := decideJob_reached reached decision
    rw [agreers] at agrees
    simp [AttemptResult.agrees] at agrees

theorem mem_of_mem_shuffle {attempt : JobAttempt}
    (mem : attempt ∈ order.shuffle record.finishedAttempts) :
    attempt ∈ record.attempts ∧ attempt.finished = true :=
  mem_filter.mp ((order.perm _).mem_iff.mp mem)

private theorem hashable (order : RowOrder) (countable : ∀ attempt ∈ record.attempts,
      attempt.outcome = .completed → (record.job.status = .running ∧
        attempt.outputHash.key ≠ some .nan) ∧ attempt.outputHash.key.isSome = true) :
    ∀ result ∈ (order.shuffle record.finishedAttempts).map attemptResult,
      result.succeeded = true → result.outputHash.key.isSome = true := by
  intro result mem succeeded
  obtain ⟨attempt, here, rfl⟩ := mem_map.mp mem
  exact (countable attempt (mem_of_mem_shuffle here).1 (by simpa [attemptResult] using succeeded)).2

theorem maybeFinalize_total (settings : Settings) (order : RowOrder) (clock : Clock) (books : Books)
    (inFlight : record.job.status.inFlight = true)
    (countable : ∀ attempt ∈ record.attempts, attempt.outcome = .completed →
      (record.job.status = .running ∧ attempt.outputHash.key ≠ some .nan) ∧
        attempt.outputHash.key.isSome = true) :
    ∃ moved movedBooks, maybeFinalize settings order clock record books =
        .ok (moved, movedBooks) := by
  have unresolved := inFlight_open inFlight
  unfold maybeFinalize
  rw [if_neg (by simp [unresolved])]
  split_ifs
  · obtain ⟨_, quorum⟩ := evaluateQuorum_total record.job.redundancy (hashable order countable)
    obtain ⟨_, _, decision⟩ := decideJob_total clock.jobFinished
      quorum inFlight fun attempt here completed =>
        (countable attempt (mem_of_mem_shuffle here).1 completed).1
    obtain ⟨moved, movedBooks, _, ok, _⟩ := finalize_total settings books unresolved quorum decision
    exact ⟨moved, movedBooks, ok⟩
  · exact ⟨record, books, rfl⟩

theorem Resolved.facts {attempts : List JobAttempt} {now bytes : Int} {posted : Ledger}
    (resolved : Resolved settings attempts now bytes record moved posted) :
    moved.job.toJobTerms = record.job.toJobTerms ∧ moved.attempts = record.attempts ∧
      moved.job.status.isTerminal = true ∧
      (∀ group ∈ posted, group.jobId = some record.job.id) ∧
      accountBalance posted .escrow none = -(if record.job.kind = .canary then 0
          else record.job.escrowAmount.getD 0) := by
  obtain ⟨quorum, decision, holds, settlement⟩ := resolved
  rename_i decided _ _ _ _
  obtain ⟨terms, terminal, winner⟩ := decideJob_ok decision
  obtain ⟨_, _, code, stamped, escrow⟩ := settleJob_spec settings bytes winner
  cases code.symm.trans settlement
  have id : decided.id = record.job.id := congrArg JobTerms.id terms
  refine ⟨terms, rfl, terminal, ?_, ?_⟩
  · intro group mem
    rcases mem_append.mp mem with early | late
    · have hold := (holds group early)
      obtain ⟨_, _, rfl⟩ := hold
      rfl
    · rw [stamped group late, id]
  · rw [accountBalance_append, accountBalance_stakeHolds holds (by decide) (by decide), escrow,
      congrArg JobTerms.kind terms, congrArg JobTerms.escrowAmount terms]
    omega

end

end Gridix
