import Gridix.Jobs.Majority
import Gridix.Jobs.WinningGroup

/-!
# Who is rewarded

A finalisation records reputation once per finished attempt, while winning is
a matter of the provider.  A provider with an earlier attempt on the job is
rewarded once for each of them, and a completed attempt of a job of redundancy
one is rewarded even when it did not win.
-/

namespace Gridix

open List Serial

def ReputationKind.isReward : ReputationKind → Bool
  | .jobSuccess => true
  | .canaryPass => true
  | .quorumAgree => true
  | _ => false

section

variable {job : Job} {known : Uuid → Bool} {won : JobAttempt → Bool}
  {attempts : List JobAttempt} {providerId : Uuid} {kind : ReputationKind}

theorem mem_recorded : (providerId, kind) ∈ attempts.flatMap (recordedFor job known won) ↔
      ∃ attempt ∈ attempts, attempt.providerId = providerId ∧ known attempt.providerId = true ∧
        kind ∈ recordedKinds job won attempt := by
  simp only [mem_flatMap, recordedFor]
  constructor
  · rintro ⟨attempt, mem, recorded⟩
    split_ifs at recorded with knows
    · obtain ⟨_, here, same⟩ := mem_map.mp recorded
      cases same
      exact ⟨attempt, mem, rfl, knows, here⟩
    · cases recorded
  · rintro ⟨attempt, mem, rfl, knows, here⟩
    refine ⟨attempt, mem, ?_⟩
    rw [if_pos knows]
    exact mem_map_of_mem here

theorem winnerKinds_reward (mem : kind ∈ winnerKinds job) : kind.isReward = true := by
  simp only [winnerKinds, mem_cons] at mem
  rcases mem with rfl | agree
  · split_ifs <;> rfl
  · split_ifs at agree
    · rw [mem_singleton.mp agree]
      rfl
    · cases agree

theorem winnerKinds_nodup (job : Job) : (winnerKinds job).Nodup := by
  unfold winnerKinds
  split_ifs <;> decide

/-- An attempt that did not win is rewarded only if it completed a job of
redundancy one that is no canary. -/
theorem loserKind_reward_iff {attempt : JobAttempt} : (loserKind job attempt).isReward = true ↔
      job.kind ≠ .canary ∧ job.redundancy = 1 ∧ attempt.outcome = .completed := by
  have positive := job.redundancyPos
  unfold loserKind
  by_cases canary : job.kind = .canary
  · simp [canary, ReputationKind.isReward]
  · by_cases several : 1 < job.redundancy
    · have single : job.redundancy ≠ 1 := by omega
      cases attempt.outcome <;> simp [canary, several, single, honestReputation,
          ReputationKind.isReward]
    · have single : job.redundancy = 1 := by omega
      cases attempt.outcome <;> simp [canary, single, honestReputation, ReputationKind.isReward]

theorem count_recorded_winner (knows : known providerId = true)
    (wins : ∀ attempt ∈ attempts, attempt.providerId = providerId → won attempt = true) :
    (attempts.flatMap (recordedFor job known won)).count (providerId, kind) =
      (attempts.countP fun attempt => attempt.providerId == providerId) *
        (winnerKinds job).count kind := by
  induction attempts with
  | nil => simp
  | cons attempt _ ih =>
    have tail := ih fun other mem =>
      wins other (mem_cons_of_mem _ mem)
    rw [flatMap_cons, count_append, countP_cons, Nat.add_mul, Nat.add_comm]
    congr 1
    by_cases same : attempt.providerId = providerId
    · have winner := wins attempt mem_cons_self same
      have injective : Function.Injective (fun kind : ReputationKind => (providerId, kind)) :=
        fun _ _ equal => (Prod.mk.inj equal).2
      simp only [recordedFor, recordedKinds, same, knows, winner, if_true,
        beq_self_eq_true, Nat.one_mul]
      exact count_map_of_injective _ _ injective _
    · simp only [beq_iff_eq, same, if_false, Nat.zero_mul, count_eq_zero, recordedFor]
      intro recorded
      split_ifs at recorded
      · obtain ⟨_, _, equal⟩ := mem_map.mp recorded
        exact same (Prod.mk.inj equal).1
      · cases recorded

end

/-- Only winners are rewarded, and each once. -/
structure RewardsWinners (record : JobRecord) (outcome : QuorumOutcome)
    (recorded : List (Uuid × ReputationKind)) : Prop where
  winners : ∀ providerId kind, (providerId, kind) ∈ recorded → kind.isReward = true →
      ∃ winning, outcome.winningHash = some winning ∧
        Carries record.finishedAttempts winning providerId
  once : ∀ providerId kind, kind.isReward = true → recorded.count (providerId, kind) ≤ 1

/-- A lone vote wins if completed, and no winner has a second attempt. -/
structure OneWinEach (record : JobRecord) (books : Books) (outcome : QuorumOutcome) : Prop where
  won : record.job.kind ≠ .canary → record.job.redundancy = 1 → ∀ attempt ∈ record.finishedAttempts,
      books.knows attempt.providerId = true →
      attempt.outcome = .completed → wins outcome attempt = true
  alone : ∀ attempt ∈ record.finishedAttempts, books.knows attempt.providerId = true →
    wins outcome attempt = true → (record.finishedAttempts.countP fun other =>
        other.providerId == attempt.providerId) ≤ 1

section

variable {record : JobRecord} {books : Books} {outcome : QuorumOutcome}

theorem wins_congr {attempt other : JobAttempt} (same : attempt.providerId = other.providerId) :
    wins outcome attempt = wins outcome other := by
  rw [wins, wins, same]

theorem wins_iff_carries {attempts : List JobAttempt} {redundancy : Nat}
    (quorum : evaluateQuorum (attempts.map attemptResult) redundancy = .ok outcome)
    (defined : outcome.winningHash ≠ some .nan) (attempt : JobAttempt) :
    wins outcome attempt = true ↔ ∃ winning, outcome.winningHash = some winning ∧
        Carries attempts winning attempt.providerId := by
  rcases evaluateQuorum_majority quorum with ⟨rfl, _⟩ | ⟨winning, rfl, _⟩
  · constructor
    · nofun
    · rintro ⟨_, no, _⟩
      cases no
  · simp only [wins, QuorumOutcome.decided, Bool.and_true, contains_eq_mem, decide_eq_true_eq]
    constructor
    · exact fun agrees => ⟨winning, rfl, carries_of_agreer agrees⟩
    · rintro ⟨_, same, voter, mem, id, completed, carries⟩
      cases same
      rw [← id]
      refine mem_map.mpr ⟨attemptResult voter, mem_filter.mpr ⟨mem_map_of_mem mem, ?_⟩, rfl⟩
      have equal : winning ≠ .nan := fun nan => defined (congrArg some nan)
      simp [AttemptResult.agrees, attemptResult, carries, completed, equal]

theorem rewardsWinners_iff {recorded : List (Uuid × ReputationKind)}
    (carried : ∀ attempt : JobAttempt, wins outcome attempt = true ↔
      ∃ winning, outcome.winningHash = some winning ∧
      Carries record.finishedAttempts winning attempt.providerId)
    (listed : recorded.Perm (record.finishedAttempts.flatMap
      (recordedFor record.job books.knows (wins outcome)))) :
    RewardsWinners record outcome recorded ↔ OneWinEach record books outcome := by
  constructor
  · rintro ⟨winners, once⟩
    refine ⟨?_, ?_⟩
    · intro standard single attempt mem knows completed
      by_contra lost
      have reward := loserKind_reward_iff.mpr ⟨standard, single, completed⟩
      refine lost ((carried attempt).mpr (winners attempt.providerId
        (loserKind record.job attempt) (listed.mem_iff.mpr ?_) reward))
      refine mem_recorded.mpr ⟨attempt, mem, rfl, knows, ?_⟩
      rw [recordedKinds, if_neg lost]
      exact mem_singleton_self _
    · intro attempt _ knows winner
      have head : (winnerKinds record.job).head (by simp [winnerKinds]) ∈
          winnerKinds record.job := head_mem _
      have counted := once attempt.providerId _ (winnerKinds_reward head)
      rw [listed.count_eq, count_recorded_winner knows fun other _ same =>
        (wins_congr same).trans winner,
        count_eq_one_of_mem (winnerKinds_nodup _) head,
        Nat.mul_one] at counted
      exact counted
  · rintro ⟨won, alone⟩
    -- a reward is one of the winner's
    have rewarded : ∀ attempt ∈ record.finishedAttempts, books.knows attempt.providerId = true →
        ∀ kind ∈ recordedKinds record.job (wins outcome) attempt,
          kind.isReward = true → wins outcome attempt = true := by
      intro attempt mem knows _ here reward
      by_contra lost
      rw [recordedKinds, if_neg lost] at here
      rw [mem_singleton.mp here] at reward
      obtain ⟨standard, single, completed⟩ := loserKind_reward_iff.mp reward
      exact lost (won standard single attempt mem knows completed)
    refine ⟨?_, ?_⟩
    · intro _ kind here reward
      obtain ⟨attempt, mem, rfl, knows, kinds⟩ := mem_recorded.mp (listed.mem_iff.mp here)
      exact (carried attempt).mp (rewarded attempt mem knows kind kinds reward)
    · intro providerId kind reward
      by_cases here : (providerId, kind) ∈ recorded
      · obtain ⟨attempt, mem, rfl, knows, kinds⟩ := mem_recorded.mp (listed.mem_iff.mp here)
        have winner := rewarded attempt mem knows kind kinds reward
        rw [listed.count_eq, count_recorded_winner knows
          fun other _ same => (wins_congr same).trans winner]
        calc _ ≤ 1 * 1 := Nat.mul_le_mul (alone attempt mem knows winner)
              (nodup_iff_count_le_one.mp (winnerKinds_nodup _) kind)
          _ = 1 := rfl
      · rw [count_eq_zero.mpr here]
        exact Nat.zero_le 1

end

/-- Rewards go to winners only, at most one of a kind each, if and only if every
known winner has one finished attempt and no known loser completed a standard
job of redundancy one. -/
theorem rewards_only_winners_iff {settings : Settings} {order : RowOrder}
    {clock : Clock} {record moved : JobRecord} {books movedBooks : Books}
    (unresolved : record.job.status.isTerminal = false)
    (success : finalize settings order clock record books = .ok (moved, movedBooks)) :
    ∃ outcome, evaluateQuorum ((order.shuffle record.finishedAttempts).map attemptResult)
        record.job.redundancy = .ok outcome ∧
      (RewardsWinners record outcome ((movedBooks.events.drop books.events.length).map
            ReputationEvent.subject) ↔
        OneWinEach record books outcome) := by
  obtain ⟨outcome, quorum, judges⟩ := finalize_judges unresolved success
  refine ⟨outcome, quorum, ?_⟩
  rw [judges.drop_events]
  apply rewardsWinners_iff
  · intro attempt
    simp only [wins_iff_carries quorum (finalize_defined unresolved success quorum) attempt,
      carries_shuffle]
  · exact (order.perm _).flatMap_right _

theorem rewards_only_winners_iff_twoAgainstOne : ∃ moved movedBooks outcome,
      finalize .default .stored ⟨0, 0, 0, 0⟩ twoAgainstOne (.ofProviders [5, 6, 8]) =
        .ok (moved, movedBooks) ∧
      outcome.disagreers = [8] ∧
      RewardsWinners twoAgainstOne outcome
        (movedBooks.events.map ReputationEvent.subject) := by
  obtain ⟨⟨moved, movedBooks⟩, success, _⟩ := exists_ok (fun _ => true) (show (finalize .default
    .stored ⟨0, 0, 0, 0⟩ twoAgainstOne (.ofProviders [5, 6, 8])).toOption.any _ = true by
      decide +kernel)
  obtain ⟨_, quorum, sound⟩ := rewards_only_winners_iff rfl success
  have decided : evaluateQuorum (twoAgainstOne.finishedAttempts.map attemptResult) 3 =
      .ok ⟨true, some (.str "a"), [5, 6], [8]⟩ := by
    decide +kernel
  cases decided.symm.trans quorum
  refine ⟨moved, movedBooks, _, success, rfl, sound.mpr ⟨?_, ?_⟩⟩
  · nofun
  · decide +kernel

def relapsedRun : List Operation := assignedJob false 1 [5] ++
    [.reapExpiredLeases 61000000 61000000,
    .assignProviders 1 (.of [5]) 61000000,
    .submitResult .stored ⟨62000000, 63000000, 63000000, 63000000⟩ 5 1 (cleanResult (.str "a"))]

def hashlessRun : List Operation := assignedJob false 1 [5] ++ [answer 5 .none]

/-- The provider whose lease had lapsed is rewarded twice, and the one that
answered without a hash is rewarded for a job that failed. -/
theorem rewards_twice_or_for_nothing : (∃ system record,
      Reaches (Operation.step .default) (fun _ _ => True) System.Initial system ∧
      system.record? 1 = some record ∧
      record.job.status = .completed ∧
      system.books.events.map ReputationEvent.subject = [(5, .jobSuccess), (5, .jobSuccess)]) ∧
    ∃ system record, Reaches (Operation.step .default) (fun _ _ => True) System.Initial system ∧
      system.record? 1 = some record ∧
      record.job.status = .failed ∧
      system.books.events.map ReputationEvent.subject = [(5, .jobSuccess)] := by
  have initial : System.Initial ⟨[], .ofProviders [5]⟩ := ⟨rfl, nofun⟩
  constructor
  · exact exists_reached relapsedRun initial (by decide +kernel)
  · exact exists_reached hashlessRun initial (by decide +kernel)

end Gridix
