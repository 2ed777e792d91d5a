import Gridix.Chain.Settlement
import Gridix.Chain.Traffic
import Mathlib.Algebra.BigOperators.Ring.List
import Mathlib.Algebra.Order.BigOperators.Group.List

/-!
# Payouts and the debits that back them

The engine pays providers what their accounts have earned, and debits
developers for what left their escrow under the reason `settle`.  An inference
charge goes from the developer's account straight to the provider and counts as
earned only.
-/

namespace Gridix.Settlement

open List Serial

/-- `GROUP BY account_ref` over the rows with a reference. -/
def groupRefs (postings : List Posting) : List Uuid := (postings.filterMap Posting.accountRef).dedup

def providerRefs (ledger : Ledger) : List Uuid := groupRefs (ledger.entries.filter fun posting =>
    posting.account = .provider)

def settledJobs (ledger : Ledger) : Ledger := ledger.filter fun group => group.reason = .settle

def developerRefs (ledger : Ledger) : List Uuid :=
  groupRefs ((settledJobs ledger).entries.filter fun posting =>
    posting.account = .escrow ∧ posting.direction = .debit)

/-- The units that providers have earned. -/
def entitledPayouts (settings : EngineSettings) (ledger : Ledger) : Int :=
  ((providerRefs ledger).map (unsettledUnits settings ledger [])).sum

/-- The units that developers have consumed. -/
def entitledDebits (settings : EngineSettings) (ledger : Ledger) : Int :=
  ((developerRefs ledger).map (settledUnitsByDev settings ledger)).sum

def usageEarnings (ledger : Ledger) : Int :=
  Ledger.sum (ledger.filter fun group => group.reason = .inferenceUsage) .provider .credit none

def jobFees (ledger : Ledger) : Int := (settledJobs ledger).sum .protocol .credit none

structure Backed (group : LedgerGroup) : Prop where
  provider : ∀ posting ∈ group.postings, posting.account = .provider →
    posting.direction = .credit ∧ 0 ≤ posting.amount ∧
      100 ∣ posting.amount ∧ ∃ ref, posting.accountRef = some ref
  consumed : group.reason = .settle → ∀ posting ∈ group.postings, posting.account = .escrow →
      100 ∣ posting.amount ∧ ∃ ref, posting.accountRef = some ref
  split : group.reason = .settle → sumPostings .provider .credit none group.postings +
        sumPostings .protocol .credit none group.postings =
      sumPostings .escrow .debit none group.postings
  elsewhere : group.reason ≠ .settle → group.reason ≠ .inferenceUsage →
    sumPostings .provider .credit none group.postings = 0

section

variable {group : LedgerGroup} {developerId providerId : Uuid} {cost fee : Int}
  {settings : Settings}

theorem backed_transfer {source target : LedgerAccount} (sourceRef targetRef : Option Uuid)
    (amount : Int) {reason : Reason} (jobId : Option Uuid) (txHash : Option String)
    (sourceOther : source ≠ .provider) (targetOther : target ≠ .provider)
    (quiet : reason ≠ .settle) :
    Backed ⟨transferPostings source sourceRef target targetRef amount, reason, jobId, txHash⟩ := by
  refine ⟨?_, fun settles => (quiet settles).elim, fun settles => (quiet settles).elim, ?_⟩
  · intro _ mem provider
    simp only [transferPostings, mem_cons, not_mem_nil, or_false] at mem
    rcases mem with rfl | rfl
    · exact (sourceOther provider).elim
    · exact (targetOther provider).elim
  · intro _ _
    simp [targetOther]

theorem mem_settlePostings {posting : Posting}
    (mem : posting ∈ settlePostings developerId providerId cost fee) :
    posting = ⟨.escrow, .debit, cost, some developerId⟩ ∨
      posting = ⟨.provider, .credit, cost - fee, some providerId⟩ ∨
      posting = ⟨.protocol, .credit, fee, none⟩ := by
  simp only [settlePostings, mem_cons, mem_append] at mem
  rcases mem with rfl | providerLeg | protocolLeg
  · exact Or.inl rfl
  · split_ifs at providerLeg
    · exact Or.inr (Or.inl (mem_singleton.mp providerLeg))
    · cases providerLeg
  · split_ifs at protocolLeg
    · exact Or.inr (Or.inr (mem_singleton.mp protocolLeg))
    · cases protocolLeg

theorem backed_release (jobId : Option Uuid) (pos : 0 < cost) (feeNonneg : 0 ≤ fee)
    (feeLe : fee ≤ cost) (wholeCost : 100 ∣ cost) (wholeFee : 100 ∣ fee) :
    Backed ⟨settlePostings developerId providerId cost fee, .settle, jobId, none⟩ := by
  refine ⟨?_, ?_, ?_, fun settles => (settles rfl).elim⟩
  · intro _ mem provider
    rcases mem_settlePostings mem with rfl | rfl | rfl
    · cases provider
    · exact ⟨rfl, Int.sub_nonneg.mpr feeLe, Int.dvd_sub wholeCost wholeFee, providerId, rfl⟩
    · cases provider
  · intro _ _ mem escrow
    rcases mem_settlePostings mem with rfl | rfl | rfl
    · exact ⟨wholeCost, developerId, rfl⟩
    · cases escrow
    · cases escrow
  · intro _
    simp only [settlePostings]
    split_ifs <;> simp [sumPostings, Posting.counts] <;> omega

/-- The amounts of a job's settlement are whole units of a six-decimal
token.  Those of inference are in any case. -/
def WholeSettlements (_ : Ledger) : Movement → Prop
  | .settle _ _ _ cost fee => 100 ∣ cost ∧ 100 ∣ fee
  | .billing _ _ | .refund _ _ _ => True

theorem backed_of_shape (shape : Shape settings group) (quiet : group.reason ≠ .settle) :
    Backed group := by
  cases shape with
  | hold | giveBack | credit | debit =>
    exact backed_transfer _ _ _ _ _ (by decide) (by decide) quiet
  | release => exact (quiet rfl).elim
  | charge _ providerId _ pos =>
    refine ⟨?_, Reason.noConfusion, Reason.noConfusion, fun _ usage => (usage rfl).elim⟩
    intro _ mem provider
    simp only [chargePostings, cons_append, mem_cons] at mem
    rcases mem with rfl | rfl | protocolLeg
    · cases provider
    · have feeLe := usageFee_le settings (le_of_lt pos)
      exact ⟨rfl, Int.sub_nonneg.mpr feeLe, Int.dvd_sub ⟨_, rfl⟩ ⟨_, rfl⟩, providerId, rfl⟩
    · split_ifs at protocolLeg
      · rw [mem_singleton.mp protocolLeg] at provider
        cases provider
      · cases protocolLeg

theorem movement_backed {committed : Ledger}
    {movement : Movement} (whole : WholeSettlements committed movement)
    (mem : group ∈ movement.rows settings committed) : Backed group := by
  obtain ⟨shape, reason⟩ := movement_posts mem
  cases movement with
  | settle _ _ _ cost =>
    simp only [Movement.rows, Gridix.settle] at mem
    split_ifs at mem with small
    · cases mem
    · obtain ⟨rfl, balanced⟩ := eq_of_mem_rowsOf mem
      have pos : 0 < cost := by omega
      obtain ⟨feeNonneg, feeLe⟩ := fee_bounds_of_balanced pos balanced
      exact backed_release _ pos feeNonneg feeLe whole.1 whole.2
  | billing _ activity =>
    apply backed_of_shape shape
    intro settles
    rw [settles] at reason
    cases activity <;> simp [Movement.reasons] at reason
  | refund =>
    apply backed_of_shape shape
    rw [mem_singleton.mp reason]
    decide

end

section

variable {ledger : Ledger} {posting : Posting} {account : LedgerAccount} {settings : EngineSettings}

theorem mem_entries (mem : posting ∈ ledger.entries) :
    ∃ group ∈ ledger, posting ∈ group.postings := by
  simpa [Ledger.entries] using mem

theorem mem_groupRefs {postings : List Posting} {ref : Uuid} (mem : posting ∈ postings)
    (own : posting.accountRef = some ref) : ref ∈ groupRefs postings :=
  mem_dedup.mpr (mem_filterMap.mpr ⟨posting, mem, own⟩)

theorem groupRefs_nodup (postings : List Posting) : (groupRefs postings).Nodup := nodup_dedup _

theorem exists_of_counted {direction : LedgerDirection} {ref : Option Uuid} {amount : Int}
    (mem : amount ∈ (ledger.entries.filter
      (Posting.counts account direction ref)).map Posting.amount) :
    ∃ posting ∈ ledger.entries, posting.account = account ∧
      posting.direction = direction ∧ posting.amount = amount := by
  obtain ⟨posting, counted, rfl⟩ := mem_map.mp mem
  obtain ⟨here, counts⟩ := mem_filter.mp counted
  simp only [Posting.counts, Bool.and_eq_true, beq_iff_eq] at counts
  exact ⟨posting, here, counts.1.1, counts.1.2, rfl⟩

theorem dvd_sum (direction : LedgerDirection) (ref : Option Uuid)
    (whole : ∀ posting ∈ ledger.entries, posting.account = account → 100 ∣ posting.amount) :
    100 ∣ ledger.sum account direction ref := by
  rw [Ledger.sum_eq_entries]
  apply List.dvd_sum
  intro _ mem
  obtain ⟨posting, here, own, _, rfl⟩ := exists_of_counted mem
  exact whole posting here own

theorem sum_nonneg (direction : LedgerDirection) (ref : Option Uuid)
    (nonneg : ∀ posting ∈ ledger.entries, posting.account = account → 0 ≤ posting.amount) :
    0 ≤ ledger.sum account direction ref := by
  rw [Ledger.sum_eq_entries]
  apply List.sum_nonneg
  intro _ mem
  obtain ⟨posting, here, own, _, rfl⟩ := exists_of_counted mem
  exact nonneg posting here own

theorem hundred_mul_wholeUnits {amount : Int} (whole : 100 ∣ amount) :
    100 * wholeUnits 6 amount = amount := by
  unfold wholeUnits
  omega

theorem earnedByProvider_eq (backed : ∀ group ∈ ledger, Backed group) (provider : Uuid) :
    earnedByProvider ledger provider = ledger.sum .provider .credit (some provider) := by
  have nothing : ledger.sum .provider .debit (some provider) = 0 := by
    rw [Ledger.sum_eq_entries]
    apply sum_eq_zero
    intro _ mem
    obtain ⟨posting, here, own, debit, rfl⟩ := exists_of_counted mem
    obtain ⟨group, posted, leg⟩ := mem_entries here
    have credit := ((backed group posted).provider posting leg own).1
    rw [debit] at credit
    cases credit
  rw [earnedByProvider, accountBalance, nothing, sub_zero]

theorem hundred_mul_entitledPayouts (six : settings.usdcDecimals = 6)
    (backed : ∀ group ∈ ledger, Backed group) :
    100 * entitledPayouts settings ledger = ledger.sum .provider .credit none := by
  have legs : ∀ posting ∈ ledger.entries, posting.account = .provider →
      posting.direction = .credit ∧ 0 ≤ posting.amount ∧
        100 ∣ posting.amount ∧ ∃ ref, posting.accountRef = some ref := by
    intro posting mem provider
    obtain ⟨group, posted, leg⟩ := mem_entries mem
    exact (backed group posted).provider posting leg provider
  have units : ∀ provider, 100 * unsettledUnits settings ledger [] provider =
      ledger.sum .provider .credit (some provider) := by
    intro provider
    have nonneg : 0 ≤ ledger.sum .provider .credit (some provider) :=
      sum_nonneg _ _ fun posting mem account =>
        (legs posting mem account).2.1
    have exact := hundred_mul_wholeUnits (dvd_sum .credit (some provider)
      fun posting mem account => (legs posting mem account).2.2.1)
    simp only [unsettledUnits, earnedByProvider_eq backed, six,
      reservedByProvider, filter_nil, map_nil, sum_nil]
    split_ifs <;> omega
  rw [entitledPayouts, ← sum_map_mul_left]
  simp only [units]
  refine Ledger.sum_refs (groupRefs_nodup _) ?_
  intro posting mem account _
  obtain ⟨ref, own⟩ := (legs posting mem account).2.2.2
  refine ⟨ref, mem_groupRefs (mem_filter.mpr ⟨mem, ?_⟩) own, own⟩
  simpa using account

theorem hundred_mul_entitledDebits (six : settings.usdcDecimals = 6)
    (backed : ∀ group ∈ ledger, Backed group) :
    100 * entitledDebits settings ledger = (settledJobs ledger).sum .escrow .debit none := by
  have legs : ∀ posting ∈ (settledJobs ledger).entries, posting.account = .escrow →
        100 ∣ posting.amount ∧ ∃ ref, posting.accountRef = some ref := by
    intro posting mem escrow
    obtain ⟨group, posted, leg⟩ := mem_entries mem
    obtain ⟨here, settles⟩ := mem_filter.mp posted
    exact (backed group here).consumed (by simpa using settles) posting leg escrow
  have units : ∀ developer, 100 * settledUnitsByDev settings ledger developer =
      (settledJobs ledger).sum .escrow .debit (some developer) := by
    intro developer
    rw [settledUnitsByDev, six]
    exact hundred_mul_wholeUnits (dvd_sum .debit (some developer)
      fun posting mem account => (legs posting mem account).1)
  rw [entitledDebits, ← sum_map_mul_left]
  simp only [units]
  refine Ledger.sum_refs (groupRefs_nodup _) ?_
  intro posting mem account direction
  obtain ⟨ref, own⟩ := (legs posting mem account).2
  refine ⟨ref, mem_groupRefs (mem_filter.mpr ⟨mem, ?_⟩) own, own⟩
  simp [account, direction]

theorem provider_credits_eq (backed : ∀ group ∈ ledger, Backed group) :
    ledger.sum .provider .credit none + jobFees ledger =
      usageEarnings ledger + (settledJobs ledger).sum .escrow .debit none := by
  induction ledger with
  | nil => rfl
  | cons group _ ih =>
    have own := backed group mem_cons_self
    have others := ih fun other mem =>
      backed other (mem_cons_of_mem _ mem)
    unfold jobFees usageEarnings settledJobs at others ⊢
    rw [Ledger.sum_cons]
    by_cases settles : group.reason = .settle
    · have split := own.split settles
      simp only [filter_cons, settles, decide_true, if_true,
        Ledger.sum_cons, reduceCtorEq, decide_false,
        if_false]
      omega
    · by_cases usage : group.reason = .inferenceUsage
      · simp only [filter_cons, usage, decide_true, if_true,
          Ledger.sum_cons, reduceCtorEq, decide_false,
          if_false]
        omega
      · have nothing := own.elsewhere settles usage
        simp only [filter_cons, settles, usage, decide_false, Bool.false_eq_true, if_false]
        omega

end

theorem reaches_backed {settings : Settings} {ledger : Ledger}
    (reached : Reaches (postMovement settings) WholeSettlements
      (fun ledger => ledger = []) ledger) :
    ∀ group ∈ ledger, Backed group := by
  induction reached with
  | start empty =>
    subst empty
    simp
  | step _ _ whole backed =>
    intro group mem
    rcases mem_append.mp mem with old | new
    · exact backed group old
    · exact movement_backed whole new

/-- If job settlements are in whole micro-USDC, the engine may pay no more than
it may debit exactly when inference has earned no more than the fees of jobs. -/
theorem payouts_backed_iff (billing : Settings) {settings : EngineSettings}
    (six : settings.usdcDecimals = 6) {ledger : Ledger}
    (reached : Reaches (postMovement billing) WholeSettlements (fun ledger => ledger = []) ledger) :
    entitledPayouts settings ledger ≤ entitledDebits settings ledger ↔
      usageEarnings ledger ≤ jobFees ledger := by
  have backed := reaches_backed reached
  have payouts := hundred_mul_entitledPayouts six backed
  have debits := hundred_mul_entitledDebits six backed
  have credits := provider_credits_eq backed
  omega

def backingSettings : EngineSettings :=
  { usdcDecimals := 6, confirmations := 1, thresholdUnits := 100
    interval := 10
    providers := .seven, developers := .one }

def oneRequest : List Movement := [.billing 1 (.deposit 5), .billing 1 (.reserve (1 / 10)),
    .billing 1 (.settle 7 10000000 (1 / 25))]

def oneJob : List Movement := [.billing 1 (.jobHold 3 300000000),
    .settle 3 1 7 200000000 (protocolFee 200000000 Settings.default),
    .refund 3 1 100000000]

def ledgerAfter (movements : List Movement) : Ledger :=
  Serial.run (postMovement Settings.default) movements []

theorem payouts_backed_iff_jobAndRequest : usageEarnings (ledgerAfter (oneRequest ++ oneJob)) ≤
        jobFees (ledgerAfter (oneRequest ++ oneJob)) ∧
      entitledPayouts backingSettings (ledgerAfter (oneRequest ++ oneJob)) ≤
        entitledDebits backingSettings (ledgerAfter (oneRequest ++ oneJob)) := by
  have covered : usageEarnings (ledgerAfter (oneRequest ++ oneJob)) ≤
      jobFees (ledgerAfter (oneRequest ++ oneJob)) := by
    decide +kernel
  refine ⟨covered, (payouts_backed_iff Settings.default rfl ?_).mpr covered⟩
  have start : Reaches (postMovement Settings.default)
      WholeSettlements (fun ledger => ledger = []) [] := .start rfl
  refine start.run ⟨trivial, trivial, trivial, trivial, ?_, trivial, trivial⟩
  exact ⟨by decide, by decide +kernel⟩

theorem request_unbacked : Reaches (postMovement Settings.default) WholeSettlements
        (fun ledger => ledger = []) (ledgerAfter oneRequest) ∧
      entitledPayouts backingSettings (ledgerAfter oneRequest) = 39000 ∧
      entitledDebits backingSettings (ledgerAfter oneRequest) = 0 := by
  refine ⟨?_, by decide +kernel, by decide +kernel⟩
  have start : Reaches (postMovement Settings.default)
      WholeSettlements (fun ledger => ledger = []) [] := .start rfl
  exact start.run ⟨trivial, trivial, trivial, trivial⟩

end Gridix.Settlement
