import Gridix.Jobs.Quorum

/-!
# The order of the votes

A quorum takes the first of the most common hashes, so its outcome could
depend on the order in which the results are listed.
-/

namespace Gridix

open List

/-- The hash of a successful result can be counted and equals itself, as
every string and `None` does. -/
def AttemptResult.Comparable (result : AttemptResult) : Prop := result.succeeded = true →
    ∃ key, result.outputHash.key = some key ∧ key ≠ .nan

def QuorumOutcome.decided (attempts : List AttemptResult) (winning : Py.Key) : QuorumOutcome :=
  let agreers := (attempts.filter (AttemptResult.agrees winning)).map AttemptResult.providerId
  { reached := true
    winningHash := some winning
    agreers := agreers
    disagreers := (attempts.filter fun result =>
      !agreers.contains result.providerId && (!result.outputHash.isNone || !result.succeeded)).map
          AttemptResult.providerId }

/-- The same decision, the providers in any order. -/
structure QuorumOutcome.Agrees (left right : QuorumOutcome) : Prop where
  reached : left.reached = right.reached
  winningHash : left.winningHash = right.winningHash
  agreers : left.agreers.Perm right.agreers
  disagreers : left.disagreers.Perm right.disagreers

section

variable {attempts permuted : List AttemptResult} {redundancy : Nat} {outcome : QuorumOutcome}

theorem evaluateQuorum_cases (ok : evaluateQuorum attempts redundancy = .ok outcome) :
    outcome = .inconclusive ∨ ∃ winning, outcome = .decided attempts winning := by
  unfold evaluateQuorum at ok
  dsimp only at ok
  split at ok
  · cases ok
  · split at ok
    · cases ok
      exact .inl rfl
    · rename_i winning _
      split_ifs at ok
      · cases ok
        exact .inl rfl
      · cases ok
        exact .inr ⟨winning, rfl⟩

theorem evaluateQuorum_majority (ok : evaluateQuorum attempts redundancy = .ok outcome) :
    outcome = .inconclusive ∧ (∀ key, ¬ redundancy < 2 * votes attempts key) ∨
      ∃ winning, outcome = .decided attempts winning ∧ redundancy < 2 * votes attempts winning := by
  rcases evaluateQuorum_ok ok with ⟨inconclusive, few⟩ | ⟨winning, reached, _, _, _, hash⟩
  · refine .inl ⟨inconclusive, ?_⟩
    intro key
    have votes := few key
    omega
  · rcases evaluateQuorum_cases ok with rfl | ⟨_, rfl⟩
    · cases reached
    · cases hash
      exact .inr ⟨winning, rfl, by omega⟩

theorem votes_add_le {key other : Py.Key} (ne : key ≠ other) :
    votes attempts key + votes attempts other ≤ attempts.countP AttemptResult.usable := by
  induction attempts with
  | nil => exact Nat.le_refl 0
  | cons result _ ih =>
    simp only [votes, countP_cons] at ih ⊢
    by_cases usable : result.usable = true
    · by_cases first : result.outputHash.key = some key
      · simp only [usable, first, Option.some.injEq, ne, beq_iff_eq, Bool.true_and, if_false]
        omega
      · simp only [usable, beq_iff_eq, Bool.true_and]
        split_ifs <;> omega
    · simp only [usable, Bool.false_and, Bool.false_eq_true, if_false]
      omega

theorem majority_unique {key other : Py.Key}
    (few : attempts.countP AttemptResult.usable ≤ redundancy)
    (majority : redundancy < 2 * votes attempts key)
    (otherMajority : redundancy < 2 * votes attempts other) :
    key = other := by
  by_contra ne
  have total := @votes_add_le attempts key other ne
  omega

theorem votes_perm (order : permuted.Perm attempts) (key : Py.Key) :
    votes permuted key = votes attempts key :=
  order.countP_eq _

theorem evaluateQuorum_perm {other : QuorumOutcome}
    (few : attempts.countP AttemptResult.usable ≤ redundancy) (order : permuted.Perm attempts)
    (ok : evaluateQuorum attempts redundancy = .ok outcome)
    (permutedSuccess : evaluateQuorum permuted redundancy = .ok other) :
    other.Agrees outcome := by
  rcases evaluateQuorum_majority ok with ⟨rfl, nobody⟩ | ⟨winning, rfl, majority⟩ <;>
  rcases evaluateQuorum_majority permutedSuccess with
    ⟨rfl, permutedNobody⟩ | ⟨permutedWinning, rfl, permutedMajority⟩
  · exact ⟨rfl, rfl, .refl _, .refl _⟩
  · rw [votes_perm order] at permutedMajority
    exact absurd permutedMajority (nobody permutedWinning)
  · rw [← votes_perm order] at majority
    exact absurd majority (permutedNobody winning)
  · rw [votes_perm order] at permutedMajority
    rw [majority_unique few permutedMajority majority]
    have agreers := (order.filter (AttemptResult.agrees winning)).map AttemptResult.providerId
    refine ⟨rfl, rfl, agreers, ?_⟩
    -- the same providers are left out, whatever order they are listed in
    have same : ∀ providerId, ((permuted.filter (AttemptResult.agrees winning)).map
            AttemptResult.providerId).contains providerId =
          ((attempts.filter (AttemptResult.agrees winning)).map
            AttemptResult.providerId).contains providerId := by
      intro _
      rw [Bool.eq_iff_iff, contains_iff_mem, contains_iff_mem]
      exact agreers.mem_iff
    simp only [QuorumOutcome.decided, same]
    exact (order.filter _).map _

theorem AttemptResult.Comparable.hashable (comparable : ∀ result ∈ attempts, result.Comparable) :
    ∀ result ∈ attempts, result.succeeded = true → result.outputHash.key.isSome = true := by
  intro result mem succeeded
  obtain ⟨_, carries, _⟩ := comparable result mem succeeded
  rw [carries]
  rfl

theorem mem_decided_agreers {winning : Py.Key} (equal : winning ≠ .nan) {providerId : Uuid} :
    providerId ∈ (QuorumOutcome.decided attempts winning).agreers ↔
      ∃ result ∈ attempts, result.providerId = providerId ∧
        result.succeeded = true ∧ result.outputHash.key = some winning := by
  simp [QuorumOutcome.decided, AttemptResult.agrees, equal, and_comm, and_left_comm]

theorem decided_disjoint (winning : Py.Key) :
    (QuorumOutcome.decided attempts winning).agreers.Disjoint
      (QuorumOutcome.decided attempts winning).disagreers := by
  intro _ agrees disagrees
  obtain ⟨_, kept, rfl⟩ := mem_map.mp disagrees
  have outside := (mem_filter.mp kept).2
  rw [Bool.and_eq_true, Bool.not_eq_true', contains_eq_mem, decide_eq_false_iff_not] at outside
  exact outside.1 agrees

end

/-- Of a list of results with no more usable ones than the job demands votes,
every permutation gives the same outcome. -/
theorem quorum_order_independent {attempts : List AttemptResult} {redundancy : Nat}
    (few : attempts.countP AttemptResult.usable ≤ redundancy)
    (comparable : ∀ result ∈ attempts, result.Comparable) :
    ∃ outcome, evaluateQuorum attempts redundancy = .ok outcome ∧
      (∀ permuted : List AttemptResult, permuted.Perm attempts →
        ∃ other, evaluateQuorum permuted redundancy = .ok other ∧ other.Agrees outcome) ∧
      (outcome.reached = true ↔ ∃ key, redundancy < 2 * votes attempts key) ∧
      (∀ key, redundancy < 2 * votes attempts key ↔ outcome.winningHash = some key) ∧
      (∀ winning, outcome.winningHash = some winning → ∀ providerId, providerId ∈ outcome.agreers ↔
          ∃ result ∈ attempts, result.providerId = providerId ∧ result.succeeded = true ∧
            result.outputHash.key = some winning) ∧
      outcome.agreers.Disjoint outcome.disagreers := by
  obtain ⟨outcome, success⟩ := evaluateQuorum_total redundancy
    (AttemptResult.Comparable.hashable comparable)
  refine ⟨outcome, success, ?_, ?_⟩
  · intro _ order
    obtain ⟨other, permutedSuccess⟩ := evaluateQuorum_total redundancy
      (AttemptResult.Comparable.hashable fun result member =>
        comparable result (order.mem_iff.mp member))
    exact ⟨other, permutedSuccess, evaluateQuorum_perm few order success permutedSuccess⟩
  · rcases evaluateQuorum_majority success with ⟨rfl, nobody⟩ | ⟨winning, rfl, majority⟩
    · refine ⟨⟨nofun, fun ⟨key, votes⟩ => absurd votes (nobody key)⟩, ?_,
        nofun, fun _ agrees => absurd agrees not_mem_nil⟩
      exact fun key => ⟨fun votes => absurd votes (nobody key), nofun⟩
    · refine ⟨⟨fun _ => ⟨winning, majority⟩, fun _ => rfl⟩, ?_, ?_, decided_disjoint winning⟩
      · intro _
        constructor
        · intro votes
          exact congrArg some (majority_unique few majority votes)
        · intro wins
          cases wins
          exact majority
      · intro _ wins _
        cases wins
        refine mem_decided_agreers ?_
        obtain ⟨result, mem, voted⟩ := countP_pos_iff.mp (show 0 < votes attempts winning by omega)
        simp only [Bool.and_eq_true, beq_iff_eq, AttemptResult.usable] at voted
        obtain ⟨_, carries, equal⟩ := comparable result mem voted.1.1
        cases voted.2.symm.trans carries
        exact equal

def twoOfThree : List AttemptResult :=
  [⟨5, .str "x", true⟩, ⟨6, .str "y", true⟩, ⟨7, .str "x", true⟩]

theorem quorum_order_independent_twoOfThree : ∃ outcome, evaluateQuorum twoOfThree 3 = .ok outcome ∧
      outcome.winningHash = some (.str "x") ∧
      ∀ permuted : List AttemptResult, permuted.Perm twoOfThree →
        ∃ other, evaluateQuorum permuted 3 = .ok other ∧ other.Agrees outcome := by
  have comparable : ∀ result ∈ twoOfThree, result.Comparable := by
    intro _ member _
    simp only [twoOfThree, mem_cons, not_mem_nil, or_false] at member
    rcases member with rfl | rfl | rfl
    · exact ⟨.str "x", rfl, nofun⟩
    · exact ⟨.str "y", rfl, nofun⟩
    · exact ⟨.str "x", rfl, nofun⟩
  obtain ⟨outcome, success, orders, _, winner, _⟩ :=
    @quorum_order_independent twoOfThree 3 (by decide) comparable
  exact ⟨outcome, success, (winner (.str "x")).mp (by decide), orders⟩

end Gridix
