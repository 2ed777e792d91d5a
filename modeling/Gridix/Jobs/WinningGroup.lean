import Gridix.Jobs.Ballots

/-!
# Who is paid for redundant work

A quorum is won by a group of providers, and `_settle` is called with the
first of them that the query returns.  The group is paid as a whole only if it
is one provider; of a job that runs on distinct providers somebody in the
group always goes unpaid.
-/

namespace Gridix

open Serial

/-- A completed attempt of the provider reports the winning hash. -/
def Carries (attempts : List JobAttempt) (winning : Py.Key) (providerId : Uuid) : Prop :=
  ∃ attempt ∈ attempts, attempt.providerId = providerId ∧ attempt.outcome = .completed ∧
      attempt.outputHash.key = some winning

/-- What a winner is due: the cost without the fee. -/
def netPay (settings : Settings) (job : Job) : Int :=
  if job.kind = .canary then 0
  else
    match job.escrowAmount with
    | none => 0
    | some escrow =>
      settledCost settings job escrow - protocolFee (settledCost settings job escrow) settings

theorem netPay_pos {settings : Settings} {job : Job} (net : 0 < netPay settings job) :
    job.kind ≠ .canary ∧ ∃ escrow, job.escrowAmount = some escrow ∧
        netPay settings job = settledCost settings job escrow -
          protocolFee (settledCost settings job escrow) settings := by
  unfold netPay at net ⊢
  split_ifs at net ⊢ with canary
  · cases net
  · refine ⟨canary, ?_⟩
    cases amount : job.escrowAmount with
    | none =>
      rw [amount] at net
      cases net
    | some escrow => exact ⟨escrow, rfl, rfl⟩

section

variable {settings : Settings} {attempts : List JobAttempt}
  {now bytes : Int} {record moved : JobRecord} {posted : Ledger}

theorem carries_of_agreer {winning : Py.Key} {providerId : Uuid}
    (agrees : providerId ∈ ((attempts.map attemptResult).filter
      (AttemptResult.agrees winning)).map AttemptResult.providerId) :
    Carries attempts winning providerId := by
  obtain ⟨_, chosen, same⟩ := List.mem_map.mp agrees
  obtain ⟨mapped, agreeing⟩ := List.mem_filter.mp chosen
  obtain ⟨attempt, here, rfl⟩ := List.mem_map.mp mapped
  simp only [AttemptResult.agrees, attemptResult, Bool.and_eq_true, beq_iff_eq] at agreeing
  exact ⟨attempt, here, same, agreeing.2.2, agreeing.1⟩

theorem Resolved.pays_one (resolved : Resolved settings attempts now bytes record moved posted)
    (completed : moved.job.status = .completed) (net : 0 < netPay settings moved.job) :
    ∃ outcome winning winner, evaluateQuorum (attempts.map attemptResult) record.job.redundancy =
        .ok outcome ∧
      outcome.winningHash = some winning ∧
      record.job.redundancy / 2 + 1 ≤ votes (attempts.map attemptResult) winning ∧
      Carries attempts winning winner ∧
      ∀ providerId, accountBalance posted .provider (some providerId) =
        if winner = providerId then netPay settings moved.job else 0 := by
  obtain ⟨billed, escrow, amount, pay⟩ := netPay_pos net
  obtain ⟨quorum, decision, holds, settlement⟩ := resolved
  rename_i outcome decided _ _ _ _
  rcases evaluateQuorum_ok quorum with ⟨rfl, _⟩ | ⟨winning, reached, many, _, agreers, hash⟩
  · obtain ⟨rfl, _⟩ := decideJob_unreached rfl decision
    rw [stamp_status] at completed
    split_ifs at completed
  · obtain ⟨winner, _, agrees, _, _, rfl⟩ := decideJob_reached reached decision
    rw [agreers] at agrees
    change decided.kind ≠ .canary at billed
    cases (settleJob_completed billed amount completed).symm.trans settlement
    refine ⟨outcome, winning, winner.providerId, quorum, hash, many, carries_of_agreer agrees, ?_⟩
    intro providerId
    rw [accountBalance_held_append holds (by decide) (by decide), pay]
    exact provider_completionRows (decided.escrowNonneg escrow amount) providerId

end

section

variable {settings : Settings} {order : RowOrder} {clock : Clock}
  {record moved : JobRecord} {books movedBooks : Books}

/-- What finalisation adds to the provider's balance. -/
def creditedBy (books movedBooks : Books) (providerId : Uuid) : Int :=
  accountBalance movedBooks.ledger .provider (some providerId) -
    accountBalance books.ledger .provider (some providerId)

theorem carries_shuffle {winning : Py.Key} {providerId : Uuid} :
    Carries (order.shuffle record.finishedAttempts) winning providerId ↔
      Carries record.finishedAttempts winning providerId := by
  unfold Carries
  simp only [(order.perm record.finishedAttempts).mem_iff]

/-- The providers that carry the winning hash, and no others, are credited
for a job completed at a positive net cost if and only if they are one
provider. -/
theorem winning_group_paid_iff (unresolved : record.job.status.isTerminal = false)
    (success : finalize settings order clock record books = .ok (moved, movedBooks))
    (completed : moved.job.status = .completed) (net : 0 < netPay settings moved.job) :
    ∃ outcome winning, evaluateQuorum ((order.shuffle record.finishedAttempts).map
        attemptResult) record.job.redundancy = .ok outcome ∧
      outcome.winningHash = some winning ∧
      ((∀ providerId, 0 < creditedBy books movedBooks providerId ↔
            Carries record.finishedAttempts winning providerId) ↔
        ∀ left right, Carries record.finishedAttempts winning left →
          Carries record.finishedAttempts winning right → left = right) := by
  obtain ⟨_, ledger, resolved⟩ := finalize_ok unresolved success
  obtain ⟨outcome, winning, winner, quorum, hash, _, carries, pays⟩ :=
    resolved.pays_one completed net
  rw [carries_shuffle] at carries
  have credit : ∀ providerId, 0 < creditedBy books movedBooks providerId ↔ winner = providerId := by
    intro _
    rw [creditedBy, ledger, accountBalance_append, pays]
    split_ifs with same
    · simpa [same] using net
    · simp [same]
  refine ⟨outcome, winning, quorum, hash, ?_⟩
  constructor
  · intro paid left right leftCarries rightCarries
    rw [← (credit left).mp ((paid left).mpr leftCarries)]
    exact (credit right).mp ((paid right).mpr rightCarries)
  · intro one providerId
    rw [credit]
    constructor
    · rintro rfl
      exact carries
    · exact one winner providerId carries

def oneProviderTwice : JobRecord := ballotRecord [(5, "a"), (5, "a")]

theorem winning_group_paid_oneProviderTwice : ∃ moved movedBooks winning,
      finalize .default .stored ⟨0, 0, 0, 0⟩ oneProviderTwice
        (.ofProviders [5]) = .ok (moved, movedBooks) ∧
      moved.job.status = .completed ∧
      ∀ providerId, 0 < creditedBy (.ofProviders [5]) movedBooks providerId ↔
          Carries oneProviderTwice.finishedAttempts winning providerId := by
  have finishes : (finalize .default .stored ⟨0, 0, 0, 0⟩ oneProviderTwice
      (.ofProviders [5])).toOption.map (fun result =>
        (result.1.job.status, decide (0 < netPay .default result.1.job))) =
      some (.completed, true) := by
    decide +kernel
  have alone : ∀ attempt ∈ oneProviderTwice.finishedAttempts, attempt.providerId = 5 := by decide
  cases success : finalize .default .stored ⟨0, 0, 0, 0⟩ oneProviderTwice (.ofProviders [5]) with
  | error =>
    rw [success] at finishes
    cases finishes
  | ok result =>
    obtain ⟨moved, movedBooks⟩ := result
    rw [success] at finishes
    have facts := Option.some.inj finishes
    simp only [Prod.mk.injEq, decide_eq_true_eq] at facts
    obtain ⟨_, winning, _, _, paid⟩ := winning_group_paid_iff rfl success facts.1 facts.2
    refine ⟨moved, movedBooks, winning, rfl, facts.1, paid.mpr ?_⟩
    rintro _ _ ⟨first, firstMember, rfl, _⟩ ⟨second, secondMember, rfl, _⟩
    rw [alone first firstMember, alone second secondMember]

end

def agreeingRun : List Operation :=
  assignedJob true 2 [5, 6] ++ [answer 5 (.str "a"), answer 6 (.str "a")]

theorem second_agreer_unpaid : ∃ system record,
      Reaches (Operation.step .default) (fun _ _ => True) System.Initial system ∧
      system.record? 1 = some record ∧
      record.job.redundancy = 2 ∧
      record.job.status = .completed ∧
      record.attempts.map JobAttempt.providerId = [5, 6] ∧
      (record.attempts.all fun attempt =>
        attempt.outcome == .completed && matchesHash attempt.outputHash (some "a")) = true ∧
      0 < netPay .default record.job ∧
      accountBalance (system.books.ledger.forJob 1) .provider (some 5) =
        netPay .default record.job ∧
      accountBalance (system.books.ledger.forJob 1) .provider (some 6) = 0 :=
  exists_reached agreeingRun System.empty_initial (by decide +kernel)

end Gridix
