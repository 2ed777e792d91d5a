import Gridix.Base.KeyedRows
import Mathlib.Tactic.SplitIfs

/-!
# The double-entry ledger

Every movement of value is a group of postings whose debits and credits agree.
Groups are only ever appended, and balances are derived from them.

Amounts are those of a `Numeric(20, 8)` column, as whole numbers of `10⁻⁸`
USDC.
-/

namespace Gridix

open List

abbrev Uuid := Nat

inductive LedgerDirection where
  | debit
  | credit
  deriving DecidableEq, Repr

inductive LedgerAccount where
  | developer
  | provider
  | protocol
  | escrow
  | stake
  | disputed
  deriving DecidableEq, Repr

inductive Reason where
  | escrowHold
  | settle
  | refund
  | dataCost
  | inferenceHold
  | inferenceHoldRelease
  | inferenceUsage
  | deposit
  | chainDeposit
  | chainWithdraw
  | reorgReverseDeposited
  | reorgReverseWithdrawn
  | stakeDeposit
  | slash
  | slashHold
  | slashConfirmed
  | slashReversed
  deriving DecidableEq, Repr

structure Posting where
  account : LedgerAccount
  direction : LedgerDirection
  amount : Int
  accountRef : Option Uuid
  deriving DecidableEq, Repr

structure LedgerGroup where
  postings : List Posting
  reason : Reason
  jobId : Option Uuid
  txHash : Option String
  deriving DecidableEq, Repr

abbrev Ledger := List LedgerGroup

/-- The posting is on `account`, in `direction`, and belongs to `ref` when a
reference is given. -/
def Posting.counts (account : LedgerAccount) (direction : LedgerDirection)
    (ref : Option Uuid) (posting : Posting) : Bool :=
  posting.account == account && posting.direction == direction &&
    (ref.isNone || posting.accountRef == ref)

def sumPostings (account : LedgerAccount) (direction : LedgerDirection)
    (ref : Option Uuid) (postings : List Posting) : Int :=
  ((postings.filter (Posting.counts account direction ref)).map Posting.amount).sum

namespace Ledger

/-- `SELECT coalesce(sum(amount), 0)` over the rows of an account and a
direction, optionally scoped to a reference. -/
def sum (ledger : Ledger) (account : LedgerAccount)
    (direction : LedgerDirection) (ref : Option Uuid) : Int :=
  (ledger.map fun group =>
    sumPostings account direction ref group.postings).sum

def forJob (ledger : Ledger) (job : Uuid) : Ledger :=
  ledger.filter fun group => group.jobId == some job

@[simp] theorem sum_nil (account : LedgerAccount)
    (direction : LedgerDirection) (ref : Option Uuid) :
    sum [] account direction ref = 0 := rfl

@[simp] theorem sum_cons (group : LedgerGroup) (ledger : Ledger) (account : LedgerAccount)
    (direction : LedgerDirection) (ref : Option Uuid) :
    sum (group :: ledger) account direction ref = sumPostings account direction ref group.postings +
        sum ledger account direction ref := by
  simp [sum]

@[simp] theorem sum_append (left right : Ledger) (account : LedgerAccount)
    (direction : LedgerDirection) (ref : Option Uuid) :
    sum (left ++ right) account direction ref =
      sum left account direction ref + sum right account direction ref := by
  simp [sum]

@[simp] theorem forJob_nil (job : Uuid) : forJob [] job = [] := rfl

@[simp] theorem forJob_append (left right : Ledger) (job : Uuid) :
    forJob (left ++ right) job = forJob left job ++ forJob right job := by
  simp [forJob]

variable {ledger posted : Ledger} {job : Uuid}

theorem forJob_append_other {other : Uuid}
    (stamped : ∀ group ∈ posted, group.jobId = some other) (ne : other ≠ job) :
    forJob (ledger ++ posted) job = forJob ledger job := by
  have nothing : forJob posted job = [] := by
    rw [forJob, filter_eq_nil_iff]
    intro group mem
    simp [stamped group mem, ne]
  rw [forJob_append, nothing, append_nil]

theorem forJob_append_own (stamped : ∀ group ∈ posted, group.jobId = some job) :
    forJob (ledger ++ posted) job = forJob ledger job ++ posted := by
  have everything : forJob posted job = posted := by
    rw [forJob, filter_eq_self]
    intro group mem
    simp [stamped group mem]
  rw [forJob_append, everything]

end Ledger

namespace Ledger

def entries (ledger : Ledger) : List Posting := ledger.flatMap LedgerGroup.postings

theorem sum_eq_entries (ledger : Ledger) (account : LedgerAccount)
    (direction : LedgerDirection) (ref : Option Uuid) :
    ledger.sum account direction ref = sumPostings account direction ref ledger.entries := by
  induction ledger with
  | nil => rfl
  | cons _ _ ih =>
    rw [sum_cons, ih]
    simp [entries, sumPostings]

theorem sum_refs {ledger : Ledger} {account : LedgerAccount}
    {direction : LedgerDirection} {refs : List Uuid} (distinct : refs.Nodup)
    (covered : ∀ posting ∈ ledger.entries, posting.account = account →
      posting.direction = direction → ∃ ref ∈ refs, posting.accountRef = some ref) :
    (refs.map fun ref => ledger.sum account direction (some ref)).sum =
      ledger.sum account direction none := by
  have listed : ∀ posting ∈ ledger.entries.filter (Posting.counts account direction none),
      posting.accountRef ∈ refs.map some := by
    intro posting mem
    obtain ⟨here, counts⟩ := mem_filter.mp mem
    simp only [Posting.counts, Option.isNone_none, Bool.true_or,
      Bool.and_true, Bool.and_eq_true, beq_iff_eq] at counts
    obtain ⟨_, known, own⟩ := covered posting here counts.1 counts.2
    rw [own]
    exact mem_map_of_mem known
  have groups := KeyedRows.sum_fibres Posting.amount
    (distinct.map fun _ _ same => Option.some.inj same) listed
  rw [map_map] at groups
  rw [sum_eq_entries, sumPostings, ← groups]
  congr 1
  apply map_congr_left
  intro _ _
  rw [sum_eq_entries, sumPostings, Function.comp_apply, filter_filter]
  congr 2
  apply filter_congr
  intro _ _
  rw [Bool.eq_iff_iff]
  simp [Posting.counts, and_comm]

end Ledger

def accountBalance (ledger : Ledger) (account : LedgerAccount) (ref : Option Uuid) : Int :=
  ledger.sum account .credit ref - ledger.sum account .debit ref

@[simp] theorem accountBalance_append (left right : Ledger)
    (account : LedgerAccount) (ref : Option Uuid) :
    accountBalance (left ++ right) account ref =
      accountBalance left account ref + accountBalance right account ref := by
  simp only [accountBalance, Ledger.sum_append]
  omega

inductive LedgerError where
  | noPostings
  | unbalanced (debits credits : Int)
  | negativeAmount
  deriving DecidableEq, Repr

def directionTotal (direction : LedgerDirection) (postings : List Posting) : Int :=
  ((postings.filter fun posting => posting.direction == direction).map Posting.amount).sum

def postTransaction (postings : List Posting) (reason : Reason)
    (jobId : Option Uuid) (txHash : Option String) :
    Except LedgerError Ledger :=
  if postings = [] then .error .noPostings
  else
    let debits := directionTotal .debit postings
    let credits := directionTotal .credit postings
    if debits ≠ credits then .error (.unbalanced debits credits)
    else if postings.any fun posting => posting.amount < 0 then
      .error .negativeAmount
    else .ok [{ postings := postings, reason := reason,
                jobId := jobId, txHash := txHash }]

theorem postTransaction_ok {posted : Ledger} {postings : List Posting}
    {reason : Reason} {jobId : Option Uuid} {txHash : Option String}
    (ok : postTransaction postings reason jobId txHash = .ok posted) :
    posted = [⟨postings, reason, jobId, txHash⟩] ∧
      directionTotal .debit postings = directionTotal .credit postings ∧
      ∀ posting ∈ postings, 0 ≤ posting.amount := by
  unfold postTransaction at ok
  split at ok
  · cases ok
  · dsimp only at ok
    split at ok
    · cases ok
    · rename_i balanced
      split at ok
      · cases ok
      · rename_i nonneg
        cases ok
        refine ⟨rfl, not_not.mp balanced, ?_⟩
        intro posting mem
        by_contra negative
        apply nonneg
        rw [any_eq_true]
        exact ⟨posting, mem, by simpa using negative⟩

theorem postTransaction_eq_ok {postings : List Posting} (reason : Reason) (jobId : Option Uuid)
    (txHash : Option String) (nonempty : postings ≠ [])
    (balanced : directionTotal .debit postings = directionTotal .credit postings)
    (nonneg : ∀ posting ∈ postings, 0 ≤ posting.amount) :
    postTransaction postings reason jobId txHash = .ok [⟨postings, reason, jobId, txHash⟩] := by
  have noNegative : (postings.any fun posting => posting.amount < 0) = false := by
    rw [any_eq_false]
    intro posting mem
    simpa using nonneg posting mem
  simp [postTransaction, nonempty, balanced, noNegative]

/-- Two legs of one amount: the shape of every transfer between accounts. -/
def transferPostings (source : LedgerAccount) (sourceRef : Option Uuid)
    (target : LedgerAccount) (targetRef : Option Uuid) (amount : Int) :
    List Posting :=
  [{ account := source, direction := .debit, amount := amount,
     accountRef := sourceRef },
   { account := target, direction := .credit, amount := amount,
     accountRef := targetRef }]

theorem postTransaction_transfer (source : LedgerAccount) (sourceRef : Option Uuid)
    (target : LedgerAccount) (targetRef : Option Uuid) {amount : Int} (reason : Reason)
    (jobId : Option Uuid) (txHash : Option String) (nonneg : 0 ≤ amount) :
    postTransaction (transferPostings source sourceRef target targetRef amount)
        reason jobId txHash =
      .ok [⟨transferPostings source sourceRef target targetRef amount, reason, jobId, txHash⟩] := by
  apply postTransaction_eq_ok
  · simp [transferPostings]
  · simp [directionTotal, transferPostings]
  · simp [transferPostings, nonneg]

@[simp] theorem sumPostings_transfer_debit (account : LedgerAccount)
    (ref : Option Uuid) (source : LedgerAccount) (sourceRef : Option Uuid)
    (target : LedgerAccount) (targetRef : Option Uuid) (amount : Int) :
    sumPostings account .debit ref (transferPostings source sourceRef target targetRef amount) =
      if source = account ∧ (ref = none ∨ sourceRef = ref) then amount
      else 0 := by
  by_cases counted : source = account ∧ (ref = none ∨ sourceRef = ref) <;>
    simp [sumPostings, transferPostings, Posting.counts, counted]

@[simp] theorem sumPostings_transfer_credit (account : LedgerAccount)
    (ref : Option Uuid) (source : LedgerAccount) (sourceRef : Option Uuid)
    (target : LedgerAccount) (targetRef : Option Uuid) (amount : Int) :
    sumPostings account .credit ref (transferPostings source sourceRef target targetRef amount) =
      if target = account ∧ (ref = none ∨ targetRef = ref) then amount
      else 0 := by
  by_cases counted : target = account ∧ (ref = none ∨ targetRef = ref) <;>
    simp [sumPostings, transferPostings, Posting.counts, counted]

def holdEscrow (jobId developerId : Uuid) (amount : Int) : Except LedgerError Ledger :=
  if amount ≤ 0 then .ok []
  else postTransaction (transferPostings .developer (some developerId) .escrow
      (some developerId) amount) .escrowHold (some jobId) none

/-- The legs of a settlement: `cost - fee` to the provider and `fee` to the
protocol, each only when positive. -/
def settlePostings (developerId providerId : Uuid) (cost fee : Int) : List Posting :=
  { account := .escrow, direction := .debit, amount := cost,
    accountRef := some developerId } ::
  ((if 0 < cost - fee then
      [{ account := .provider, direction := .credit, amount := cost - fee,
         accountRef := some providerId }]
    else []) ++
   (if 0 < fee then
      [{ account := .protocol, direction := .credit, amount := fee,
         accountRef := none }]
    else []))

section

variable (developerId providerId : Uuid) (cost fee : Int)

@[simp] theorem sumPostings_settle_developer (direction : LedgerDirection) (ref : Option Uuid) :
    sumPostings .developer direction ref (settlePostings developerId providerId cost fee) = 0 := by
  simp only [settlePostings]
  split_ifs <;> simp [sumPostings, Posting.counts]

@[simp] theorem sumPostings_settle_escrow_credit (ref : Option Uuid) :
    sumPostings .escrow .credit ref (settlePostings developerId providerId cost fee) = 0 := by
  simp only [settlePostings]
  split_ifs <;> simp [sumPostings, Posting.counts]

@[simp] theorem sumPostings_settle_escrow_debit (ref : Uuid) : sumPostings .escrow .debit (some ref)
      (settlePostings developerId providerId cost fee) =
        if developerId = ref then cost else 0 := by
  by_cases same : developerId = ref <;> simp only [settlePostings] <;>
    split_ifs <;> simp [sumPostings, Posting.counts, same]

end

def settle (jobId developerId providerId : Uuid) (cost fee : Int) : Except LedgerError Ledger :=
  if cost ≤ 0 then .ok []
  else postTransaction (settlePostings developerId providerId cost fee) .settle (some jobId) none

def refund (jobId developerId : Uuid) (amount : Int) : Except LedgerError Ledger :=
  if amount ≤ 0 then .ok []
  else postTransaction (transferPostings .escrow (some developerId) .developer
      (some developerId) amount) .refund (some jobId) none

def escrowRows (jobId developerId : Uuid) (amount : Int) : Ledger :=
  if amount ≤ 0 then []
  else [⟨transferPostings .developer (some developerId) .escrow
    (some developerId) amount, .escrowHold, some jobId, none⟩]

def refundRows (jobId developerId : Uuid) (amount : Int) : Ledger :=
  if amount ≤ 0 then []
  else [⟨transferPostings .escrow (some developerId) .developer
    (some developerId) amount, .refund, some jobId, none⟩]

def releaseRows (jobId developerId providerId : Uuid) (cost fee : Int) : Ledger :=
  if cost ≤ 0 then []
  else [⟨settlePostings developerId providerId cost fee, .settle, some jobId, none⟩]

theorem holdEscrow_eq (jobId developerId : Uuid) (amount : Int) :
    holdEscrow jobId developerId amount = .ok (escrowRows jobId developerId amount) := by
  unfold holdEscrow escrowRows
  split_ifs
  · rfl
  · exact postTransaction_transfer _ _ _ _ _ _ _ (by omega)

theorem refund_eq (jobId developerId : Uuid) (amount : Int) : refund jobId developerId amount =
      .ok (refundRows jobId developerId amount) := by
  unfold refund refundRows
  split_ifs
  · rfl
  · exact postTransaction_transfer _ _ _ _ _ _ _ (by omega)

theorem settle_eq (jobId developerId providerId : Uuid) {cost fee : Int}
    (feeNonneg : 0 ≤ fee) (feeLe : fee ≤ cost) :
    settle jobId developerId providerId cost fee =
      .ok (releaseRows jobId developerId providerId cost fee) := by
  unfold settle releaseRows
  split_ifs with small
  · rfl
  · apply postTransaction_eq_ok
    · simp [settlePostings]
    · simp only [settlePostings, directionTotal]
      split_ifs <;> simp <;> omega
    · intro _ mem
      simp only [settlePostings, mem_cons, mem_append] at mem
      rcases mem with rfl | providerLeg | protocolLeg
      · exact Int.le_of_lt (Int.not_le.mp small)
      · split_ifs at providerLeg
        · rw [mem_singleton.mp providerLeg]
          exact Int.sub_nonneg.mpr feeLe
        · cases providerLeg
      · split_ifs at protocolLeg
        · rw [mem_singleton.mp protocolLeg]
          exact feeNonneg
        · cases protocolLeg

section

variable (jobId developerId providerId : Uuid) {amount cost fee : Int} {group : LedgerGroup}

theorem escrow_escrowRows (nonneg : 0 ≤ amount) :
    accountBalance (escrowRows jobId developerId amount) .escrow none = amount := by
  unfold escrowRows accountBalance
  split_ifs
  · simp
    omega
  · simp

theorem escrow_refundRows (nonneg : 0 ≤ amount) :
    accountBalance (refundRows jobId developerId amount) .escrow none = -amount := by
  unfold refundRows accountBalance
  split_ifs
  · simp
    omega
  · simp

theorem escrow_releaseRows (nonneg : 0 ≤ cost) :
    accountBalance (releaseRows jobId developerId providerId cost fee) .escrow none = -cost := by
  unfold releaseRows accountBalance
  split_ifs
  · simp
    omega
  · simp only [settlePostings]
    split_ifs <;> simp [sumPostings, Posting.counts]

theorem provider_refundRows (ref : Option Uuid) :
    accountBalance (refundRows jobId developerId amount) .provider ref = 0 := by
  unfold refundRows accountBalance
  split_ifs <;> simp

theorem provider_releaseRows (feeNonneg : 0 ≤ fee) (feeLe : fee ≤ cost) (ref : Uuid) :
    accountBalance (releaseRows jobId developerId providerId cost fee)
      .provider (some ref) = if providerId = ref then cost - fee else 0 := by
  unfold releaseRows accountBalance
  by_cases small : cost ≤ 0
  · simp only [small, if_true, Ledger.sum_nil]
    split_ifs <;> omega
  · simp only [settlePostings]
    by_cases same : providerId = ref
    · split_ifs <;> simp [sumPostings, Posting.counts, same] <;> omega
    · split_ifs <;> simp [sumPostings, Posting.counts, same]

theorem jobId_of_mem_escrowRows (mem : group ∈ escrowRows jobId developerId amount) :
    group.jobId = some jobId := by
  unfold escrowRows at mem
  split_ifs at mem
  · cases mem
  · rw [mem_singleton.mp mem]

theorem jobId_of_mem_refundRows (mem : group ∈ refundRows jobId developerId amount) :
    group.jobId = some jobId := by
  unfold refundRows at mem
  split_ifs at mem
  · cases mem
  · rw [mem_singleton.mp mem]

theorem jobId_of_mem_releaseRows (mem : group ∈ releaseRows jobId developerId providerId cost fee) :
    group.jobId = some jobId := by
  unfold releaseRows at mem
  split_ifs at mem
  · cases mem
  · rw [mem_singleton.mp mem]

end

end Gridix
