import Gridix.Inference.Session

/-!
# What the program posts

The movements of value on the job path and on the inference path, as far as
they post to the ledger.
-/

namespace Gridix

open List

inductive Movement where
  | billing (developerId : Uuid) (activity : Activity)
  | settle (jobId developerId providerId : Uuid) (cost fee : Int)
  | refund (jobId developerId : Uuid) (amount : Int)

def Movement.rows (settings : Settings) (committed : Ledger) : Movement → Ledger
  | .billing developerId activity =>
    activity.rows settings developerId committed
  | .settle jobId developerId providerId cost fee =>
    rowsOf (Gridix.settle jobId developerId providerId cost fee)
  | .refund jobId developerId amount =>
    rowsOf (Gridix.refund jobId developerId amount)

def postMovement (settings : Settings) (movement : Movement) (ledger : Ledger) : Ledger :=
  ledger ++ movement.rows settings ledger

def Movement.reasons : Movement → List Reason
  | .billing _ (.deposit _) => [.deposit]
  | .billing _ (.jobHold _ _) => [.escrowHold]
  | .billing _ (.dataCharge _ _) => [.dataCost]
  | .billing _ (.chainWithdraw _ _) => [.chainWithdraw]
  | .billing _ (.reserve _) => [.inferenceHold]
  | .billing _ (.settle _ _ _) => [.inferenceHoldRelease, .inferenceUsage]
  | .billing _ (.release _) => [.inferenceHoldRelease]
  | .settle _ _ _ _ _ => [.settle]
  | .refund _ _ _ => [.refund]

inductive Shape (settings : Settings) : LedgerGroup → Prop where
  | hold (developerId : Uuid) (amount : Int) (reason : Reason) (jobId : Option Uuid)
      (kind : reason = .escrowHold ∨ reason = .inferenceHold) :
      Shape settings ⟨transferPostings .developer (some developerId) .escrow
        (some developerId) amount, reason, jobId, none⟩
  | giveBack (developerId : Uuid) (amount : Int) (reason : Reason) (jobId : Option Uuid)
      (kind : reason = .refund ∨ reason = .inferenceHoldRelease) :
      Shape settings ⟨transferPostings .escrow (some developerId) .developer
        (some developerId) amount, reason, jobId, none⟩
  | credit (developerId : Uuid) (amount : Int) :
      Shape settings ⟨transferPostings .protocol none .developer
        (some developerId) amount, .deposit, none, none⟩
  | debit (developerId : Uuid) (amount : Int) (reason : Reason)
      (jobId : Option Uuid) (txHash : Option String)
      (kind : reason = .dataCost ∨ reason = .chainWithdraw) :
      Shape settings ⟨transferPostings .developer (some developerId) .protocol
        none amount, reason, jobId, txHash⟩
  | release (jobId developerId providerId : Uuid) (cost fee : Int)
      (positive : 0 < cost) (feeNonneg : 0 ≤ fee) (feeLe : fee ≤ cost) :
      Shape settings ⟨settlePostings developerId providerId cost fee, .settle, some jobId, none⟩
  | charge (developerId providerId : Uuid) (actual : ℚ) (positive : 0 < quantizeUsdc actual) :
      Shape settings ⟨chargePostings settings developerId providerId
        (quantizeUsdc actual), .inferenceUsage, none, none⟩

section

variable {settings : Settings} {group : LedgerGroup} {developerId : Uuid}

theorem mem_rowsOf {posting : Except LedgerError Ledger} (mem : group ∈ rowsOf posting) :
    ∃ rows, posting = .ok rows ∧ group ∈ rows := by
  cases posting with
  | error => cases mem
  | ok rows => exact ⟨rows, rfl, mem⟩

theorem eq_of_mem_rowsOf {postings : List Posting} {reason : Reason}
    {jobId : Option Uuid} {txHash : Option String}
    (mem : group ∈ rowsOf (postTransaction postings reason jobId txHash)) :
    group = ⟨postings, reason, jobId, txHash⟩ ∧
      directionTotal .debit postings = directionTotal .credit postings := by
  obtain ⟨_, ok, mem⟩ := mem_rowsOf mem
  obtain ⟨rfl, balanced, _⟩ := postTransaction_ok ok
  exact ⟨mem_singleton.mp mem, balanced⟩

theorem fee_bounds_of_balanced {providerId : Uuid} {cost fee : Int} (pos : 0 < cost)
    (balanced : directionTotal .debit (settlePostings developerId providerId cost fee) =
      directionTotal .credit (settlePostings developerId providerId cost fee)) :
    0 ≤ fee ∧ fee ≤ cost := by
  simp only [settlePostings, directionTotal] at balanced
  split_ifs at balanced <;> simp at balanced <;> omega

theorem mem_rowsOf_returnHold {held : Int} (mem : group ∈ rowsOf (returnHold developerId held)) :
    Shape settings group ∧ group.reason = .inferenceHoldRelease := by
  unfold returnHold at mem
  dsimp only at mem
  split_ifs at mem
  · cases mem
  · obtain ⟨rfl, _⟩ := eq_of_mem_rowsOf mem
    exact ⟨.giveBack _ _ _ _ (Or.inr rfl), rfl⟩

theorem activity_posts {committed : Ledger} {activity : Activity}
    (mem : group ∈ activity.rows settings developerId committed) :
    Shape settings group ∧ group.reason ∈ (Movement.billing developerId activity).reasons := by
  cases activity with
  | deposit =>
    simp only [Activity.rows, creditDeposit] at mem
    split_ifs at mem
    · cases mem
    · obtain ⟨rfl, _⟩ := eq_of_mem_rowsOf mem
      exact ⟨.credit _ _, mem_singleton.mpr rfl⟩
  | jobHold =>
    simp only [Activity.rows, holdEscrow] at mem
    split_ifs at mem
    · cases mem
    · obtain ⟨rfl, _⟩ := eq_of_mem_rowsOf mem
      exact ⟨.hold _ _ _ _ (Or.inl rfl), mem_singleton.mpr rfl⟩
  | dataCharge =>
    obtain ⟨rfl, _⟩ := eq_of_mem_rowsOf mem
    exact ⟨.debit _ _ _ _ _ (Or.inl rfl), mem_singleton.mpr rfl⟩
  | chainWithdraw =>
    obtain ⟨rfl, _⟩ := eq_of_mem_rowsOf mem
    exact ⟨.debit _ _ _ _ _ (Or.inr rfl), mem_singleton.mpr rfl⟩
  | reserve =>
    simp only [Activity.rows] at mem
    split_ifs at mem
    · cases mem
    · cases mem
    · obtain ⟨rfl, _⟩ := eq_of_mem_rowsOf mem
      exact ⟨.hold _ _ _ _ (Or.inr rfl), mem_singleton.mpr rfl⟩
  | settle =>
    simp only [Activity.rows] at mem
    split_ifs at mem with free short
    · obtain ⟨shape, reason⟩ := mem_rowsOf_returnHold mem
      exact ⟨shape, by simp [Movement.reasons, reason]⟩
    · cases mem
    · rcases mem_append.mp mem with returned | charged
      · obtain ⟨shape, reason⟩ := mem_rowsOf_returnHold returned
        exact ⟨shape, by simp [Movement.reasons, reason]⟩
      · obtain ⟨rfl, _⟩ := eq_of_mem_rowsOf charged
        exact ⟨.charge _ _ _ (by omega), by simp [Movement.reasons]⟩
  | release =>
    obtain ⟨shape, reason⟩ := mem_rowsOf_returnHold mem
    exact ⟨shape, by simp [Movement.reasons, reason]⟩

theorem movement_posts {committed : Ledger} {movement : Movement}
    (mem : group ∈ movement.rows settings committed) :
    Shape settings group ∧ group.reason ∈ movement.reasons := by
  cases movement with
  | billing => exact activity_posts mem
  | settle _ _ _ cost =>
    simp only [Movement.rows, Gridix.settle] at mem
    split_ifs at mem with small
    · cases mem
    · obtain ⟨rfl, balanced⟩ := eq_of_mem_rowsOf mem
      have pos : 0 < cost := by omega
      obtain ⟨feeNonneg, feeLe⟩ := fee_bounds_of_balanced pos balanced
      exact ⟨.release _ _ _ _ _ pos feeNonneg feeLe, mem_singleton.mpr rfl⟩
  | refund =>
    simp only [Movement.rows, Gridix.refund] at mem
    split_ifs at mem
    · cases mem
    · obtain ⟨rfl, _⟩ := eq_of_mem_rowsOf mem
      exact ⟨.giveBack _ _ _ _ (Or.inl rfl), mem_singleton.mpr rfl⟩

end

end Gridix
