import Gridix.Accounts.Integrity
import Gridix.Jobs.Votes
import Mathlib.Data.Int.ConditionallyCompleteOrder

/-!
# Settlement in decimals

`_settle` with the decimals it computes and the rows the database takes.  A
cost or a charge that the decimal context or a column cannot hold ends it with
an exception.
-/

namespace Gridix.Decimals

open DecimalContext List Serial

def LedgerEntry.line (row : LedgerEntry) : Reason × Option Uuid × Leg :=
  (row.reason, row.jobId, row.leg)

def groupLines (group : LedgerGroup) : List (Reason × Option Uuid × Leg) :=
  group.postings.map fun posting => (group.reason, group.jobId, legOf posting)

def Describes (rows : List LedgerEntry) (ledger : Ledger) : Prop :=
  rows.map LedgerEntry.line = ledger.flatMap groupLines

theorem Describes.nil : Describes [] [] := rfl

theorem Describes.append {rows others : List LedgerEntry} {ledger more : Ledger}
    (first : Describes rows ledger) (second : Describes others more) :
    Describes (rows ++ others) (ledger ++ more) := by
  rw [Describes, map_append, flatMap_append, first, second]

section

variable {group : Uuid} {transaction : Transaction}
  {rows : List LedgerEntry}

theorem postTransaction_lines (ok : postTransaction group transaction = .ok rows) :
    rows.map LedgerEntry.line = (rows.map LedgerEntry.leg).map fun leg =>
      (transaction.reason, transaction.jobId, leg) := by
  rw [map_map]
  apply map_congr_left
  intro _ mem
  obtain ⟨_, _, inserted⟩ := source_of_mapM (postTransaction_inserts ok) mem
  obtain ⟨_, reason, jobId, _⟩ := insert_ok inserted
  rw [LedgerEntry.line, reason, jobId]
  rfl

theorem postTransaction_describes {postings : List Posting} {reason : Reason} {jobId : Option Uuid}
    (group : Uuid) {posted : Ledger}
    (accepted : Gridix.postTransaction postings reason jobId none = .ok posted)
    (small : ∀ posting ∈ postings, |posting.amount| < 10 ^ 20) (few : postings.length < 10 ^ 8) :
    ∃ rows, postTransaction group ⟨postings.map legOf, reason, jobId, none⟩ = .ok rows ∧
      Describes rows posted := by
  have refines := postTransaction_refines group reason jobId none small few
  obtain ⟨rfl, _, _⟩ := postTransaction_ok accepted
  rw [accepted] at refines
  cases success : postTransaction group ⟨postings.map legOf, reason, jobId, none⟩ with
  | error =>
    rw [success] at refines
    cases refines
  | ok rows =>
    rw [success] at refines
    have legs : rows.map LedgerEntry.leg = postings.map legOf := by
      simpa [Ledger.entries] using Except.ok.inj refines
    refine ⟨rows, rfl, ?_⟩
    rw [Describes, postTransaction_lines success, legs, map_map, flatMap_singleton]
    rfl

end

inductive SettleError where
  | raised (error : Raised)
  | post (error : PostError)
  | costOutOfRange
  deriving DecidableEq, Repr

def postOptional (group : Uuid) : Option Transaction → Except SettleError (List LedgerEntry)
  | none => .ok []
  | some transaction => (postTransaction group transaction).mapError .post

/-- `_settle`: the rows it adds, in up to three groups, and the final cost it
writes. -/
def settleJob (settings : Settings) (job : Job) (winner : Option Uuid)
    (numBytes : Int) (groups : Nat → Uuid) :
    Except SettleError (List LedgerEntry × Option Amount) :=
  if job.kind = .canary then .ok ([], none)
  else
    match job.escrowAmount with
    | none => .ok ([], none)
    | some escrowAmount =>
      let escrow := toDecimal escrowAmount
      match job.status, winner with
      | .completed, some providerId => do
          let computed ← (computeCost job.resourceSpec
            (durationSeconds job) settings).mapError .raised
          let cost := min computed escrow
          let fee ← (protocolFee cost settings).mapError .raised
          let settled ← postOptional (groups 0) (settle job.id job.developerId providerId cost fee)
          let remainder := sub decimalDigits escrow cost
          let refunded ← postOptional (groups 1) (if 0 < remainder then
              refund job.id job.developerId remainder
            else none)
          let charge ← (dataCost numBytes settings).mapError .raised
          let charged ← postOptional (groups 2) (chargeData job.id job.developerId charge)
          match Numeric.store 20 8 (add decimalDigits cost charge) with
          | none => .error .costOutOfRange
          | some costFinal =>
            .ok (settled ++ refunded ++ charged, some costFinal)
      | _, _ => do
          let refunded ← postOptional (groups 1) (refund job.id job.developerId escrow)
          .ok (refunded, some ⟨0, by norm_num⟩)

section

variable {settings : Settings}

theorem toDecimal_nonpos_iff {amount : Int} : toDecimal amount ≤ 0 ↔ amount ≤ 0 := by
  rw [← not_lt, toDecimal_pos_iff, not_lt]

theorem toDecimal_scaled (amount : Int) : toDecimal amount * 10 ^ 8 = amount := by
  unfold toDecimal
  field_simp

theorem quantizeCent_eq (value : ℚ) : quantizeCent value =
      if |Gridix.quantizeCent value| < 10 ^ 28 then
        .ok (toDecimal (Gridix.quantizeCent value))
      else .error .invalidOperation := by
  have code : quantize decimalDigits 8 value =
      if |Gridix.quantizeCent value| < 10 ^ 28 then
        some (toDecimal (Gridix.quantizeCent value)) else none := rfl
  rw [quantizeCent, quantized, code]
  by_cases fits : |Gridix.quantizeCent value| < 10 ^ 28
  · rw [if_pos fits, if_pos fits]
  · rw [if_neg fits, if_neg fits]

theorem computeCost_eq (spec : ResourceSpec) (duration : ℚ) : computeCost spec duration settings =
      if Gridix.computeCost spec duration settings < 10 ^ 28 then
        .ok (toDecimal (Gridix.computeCost spec duration settings))
      else .error .invalidOperation := by
  have nonneg := computeCost_nonneg spec duration settings
  unfold computeCost
  rw [quantizeCent_eq]
  change (if |Gridix.computeCost spec duration settings| < _ then _ else _) = _
  rw [abs_of_nonneg nonneg]
  rfl

theorem dataCost_eq (numBytes : Int) : dataCost numBytes settings =
      if Gridix.dataCost numBytes settings < 10 ^ 28 then
        .ok (toDecimal (Gridix.dataCost numBytes settings))
      else .error .invalidOperation := by
  have nonneg := dataCost_nonneg numBytes settings
  unfold dataCost
  rw [quantizeCent_eq]
  change (if |Gridix.dataCost numBytes settings| < _ then _ else _) = _
  rw [abs_of_nonneg nonneg]
  rfl

theorem protocolFee_eq {cost : Int} (nonneg : 0 ≤ cost) (small : cost < 10 ^ 20) :
    protocolFee (toDecimal cost) settings = .ok (toDecimal (Gridix.protocolFee cost settings)) := by
  have feeNonneg := protocolFee_nonneg settings nonneg
  have feeLe := protocolFee_le settings nonneg
  unfold protocolFee
  rw [share_toDecimal (by rwa [abs_of_nonneg nonneg]), quantizeCent_eq]
  change (if |Gridix.protocolFee cost settings| < _ then _ else _) = _
  rw [abs_of_nonneg feeNonneg, if_pos (by omega)]
  rfl

theorem store_toDecimal (amount : Int) : Numeric.store 20 8 (toDecimal amount) =
      if fits : |amount| < 10 ^ 20 then some ⟨amount, fits⟩ else none := by
  simp only [Numeric.store, toDecimal_scaled, Rounding.halfUp_intCast]

theorem add_toDecimal {left right : Int} (small : |left + right| < 10 ^ 28) :
    add decimalDigits (toDecimal left) (toDecimal right) = toDecimal (left + right) := by
  have sum : toDecimal left + toDecimal right = toDecimal (left + right) := by
    unfold toDecimal
    push_cast
    ring
  unfold add
  rw [sum, significant_toDecimal small]

end

section

variable {group jobId developerId : Uuid}

theorem postOptional_some {transaction : Transaction} {rows : List LedgerEntry}
    (ok : postTransaction group transaction = .ok rows) :
    postOptional group (some transaction) = .ok rows := by
  rw [postOptional, ok]
  rfl

theorem postOptional_transfer (group : Uuid) (source : LedgerAccount) (sourceRef : Option Uuid)
    (target : LedgerAccount) (targetRef : Option Uuid) (reason : Reason) (jobId : Option Uuid)
    {amount : Int} (nonneg : 0 ≤ amount) (small : amount < 10 ^ 20) :
    ∃ rows, postOptional group (whenPositive (toDecimal amount)
        ⟨transferLegs source sourceRef target targetRef (toDecimal amount),
          reason, jobId, none⟩) = .ok rows ∧
      Describes rows (if amount ≤ 0 then []
        else [⟨transferPostings source sourceRef target targetRef amount,
          reason, jobId, none⟩]) := by
  unfold whenPositive
  simp only [toDecimal_nonpos_iff]
  split_ifs
  · exact ⟨[], rfl, .nil⟩
  · have amounts : ∀ posting ∈ transferPostings source sourceRef target
        targetRef amount, |posting.amount| < 10 ^ 20 := by
      intro _ mem
      simp only [transferPostings, mem_cons, not_mem_nil, or_false] at mem
      rcases mem with rfl | rfl <;> rwa [abs_of_nonneg nonneg]
    obtain ⟨rows, ok, lines⟩ := postTransaction_describes group
      (postTransaction_transfer source sourceRef target targetRef reason
        jobId none nonneg) amounts (by simp [transferPostings])
    exact ⟨rows, postOptional_some ok, lines⟩

theorem postOptional_settle (group jobId developerId providerId : Uuid) {cost fee : Int}
    (feeNonneg : 0 ≤ fee) (feeLe : fee ≤ cost) (small : cost < 10 ^ 20) :
    ∃ rows, postOptional group (settle jobId developerId providerId
        (toDecimal cost) (toDecimal fee)) = .ok rows ∧
      Describes rows (releaseRows jobId developerId providerId cost fee) := by
  have accepted := settle_eq jobId developerId providerId feeNonneg feeLe
  unfold Gridix.settle releaseRows at accepted
  unfold settle whenPositive releaseRows
  simp only [toDecimal_nonpos_iff]
  split_ifs at accepted ⊢ with nothing
  · exact ⟨[], rfl, .nil⟩
  · rw [settleLegs_toDecimal _ _ (by rw [abs_lt]; constructor <;> omega)]
    have amounts : ∀ posting ∈ settlePostings developerId providerId cost
        fee, |posting.amount| < 10 ^ 20 := by
      intro posting mem
      have kept := (postTransaction_ok accepted).2.2 posting mem
      rw [abs_of_nonneg kept]
      simp only [settlePostings, mem_cons, mem_append] at mem
      rcases mem with rfl | earned | charged
      · exact small
      · split_ifs at earned
        · rw [mem_singleton.mp earned]
          dsimp only
          omega
        · cases earned
      · split_ifs at charged
        · rw [mem_singleton.mp charged]
          dsimp only
          omega
        · cases charged
    obtain ⟨rows, ok, lines⟩ := postTransaction_describes group accepted
      amounts (by
        simp only [settlePostings]
        split_ifs <;> simp)
    exact ⟨rows, postOptional_some ok, lines⟩

theorem chargeData_small {charge : Int} {rows : List LedgerEntry} (nonneg : 0 ≤ charge)
    (success : postOptional group (chargeData jobId developerId (toDecimal charge)) = .ok rows) :
    charge < 10 ^ 20 := by
  unfold chargeData whenPositive at success
  split_ifs at success with nothing
  · rw [toDecimal_nonpos_iff] at nothing
    omega
  · cases code : postTransaction group ⟨transferLegs .developer
        (some developerId) .protocol none (toDecimal charge), .dataCost,
        some jobId, none⟩ with
    | error _ =>
      rw [postOptional, code] at success
      cases success
    | ok _ =>
      obtain ⟨_, _, inserted⟩ := exists_of_mapM (postTransaction_inserts code) mem_cons_self
      have stored := (insert_ok inserted).2.2.2
      rw [store_toDecimal] at stored
      split_ifs at stored with fits
      · rwa [abs_of_nonneg nonneg] at fits
      · cases stored

end

/-- The amounts of a completed settlement fit: the computed cost fits the
decimal context and the final cost its column. -/
def Fits (settings : Settings) (job : Job) (numBytes escrow : Int) : Prop :=
  Gridix.computeCost job.resourceSpec (durationSeconds job) settings < 10 ^ 28 ∧
    settledCost settings job escrow + Gridix.dataCost numBytes settings < 10 ^ 20

/-- The cost is split between provider and protocol, the rest refunded. -/
structure Splits (settings : Settings) (job : Job) (numBytes : Int)
    (providerId : Uuid) (escrow cost fee : Int) (rows : List LedgerEntry)
    (costFinal : Amount) : Prop where
  feeNonneg : 0 ≤ fee
  feeLe : fee ≤ cost
  costLe : cost ≤ escrow
  posted : Describes rows (releaseRows job.id job.developerId providerId cost fee ++
      refundRows job.id job.developerId (escrow - cost) ++
      dataRows job (Gridix.dataCost numBytes settings))
  earned : Gridix.accountBalance (releaseRows job.id job.developerId providerId cost fee ++
        refundRows job.id job.developerId (escrow - cost) ++
        dataRows job (Gridix.dataCost numBytes settings))
      .provider (some providerId) + fee = cost
  kept : Gridix.accountBalance
    (releaseRows job.id job.developerId providerId cost fee) .protocol none = fee
  emptied : Gridix.accountBalance (escrowRows job.id job.developerId escrow ++
        (releaseRows job.id job.developerId providerId cost fee ++
          refundRows job.id job.developerId (escrow - cost) ++
          dataRows job (Gridix.dataCost numBytes settings)))
      .escrow none = 0
  final : costFinal.value = toDecimal (cost + Gridix.dataCost numBytes settings)

section

variable {settings : Settings} {job : Job} {numBytes escrow : Int}
  {providerId : Uuid} {groups : Nat → Uuid}

theorem ite_refund (jobId developerId : Uuid) (amount : ℚ) :
    (if 0 < amount then refund jobId developerId amount else none) =
      refund jobId developerId amount := by
  split_ifs with pos
  · rfl
  · rw [refund, whenPositive, if_pos (not_lt.mp pos)]

theorem protocol_releaseRows (jobId developerId providerId : Uuid)
    {cost fee : Int} (feeNonneg : 0 ≤ fee) (feeLe : fee ≤ cost) :
    Gridix.accountBalance (releaseRows jobId developerId providerId cost fee) .protocol none =
        fee := by
  unfold releaseRows Gridix.accountBalance
  by_cases small : cost ≤ 0
  · simp only [small, if_true, Ledger.sum_nil]
    omega
  · simp only [settlePostings]
    split_ifs <;> simp [sumPostings, Posting.counts] <;> omega

theorem dataRows_eq (job : Job) (cost : Int) : dataRows job cost = if cost ≤ 0 then []
      else [⟨transferPostings .developer (some job.developerId) .protocol
        none cost, .dataCost, some job.id, none⟩] := by
  unfold dataRows
  split_ifs <;> first | rfl | omega

theorem splits_completionRows (amount : job.escrowAmount = some escrow)
    {rows : List LedgerEntry} {costFinal : Amount}
    (posted : Describes rows (completionRows settings job numBytes providerId escrow))
    (final : costFinal.value = toDecimal (settledCost settings job escrow +
      Gridix.dataCost numBytes settings)) :
    Splits settings job numBytes providerId escrow (settledCost settings job escrow)
      (Gridix.protocolFee (settledCost settings job escrow) settings) rows
      costFinal := by
  have nonneg := job.escrowNonneg escrow amount
  have costNonneg := settledCost_nonneg settings job nonneg
  have feeNonneg := protocolFee_nonneg settings costNonneg
  have feeLe := protocolFee_le settings costNonneg
  refine ⟨feeNonneg, feeLe, settledCost_le settings job escrow, posted, ?_,
    protocol_releaseRows _ _ _ feeNonneg feeLe, ?_, final⟩
  · have earned := @provider_completionRows settings job numBytes
      providerId escrow nonneg providerId
    rw [if_pos rfl] at earned
    have sum := sub_add_cancel (settledCost settings job escrow)
      (Gridix.protocolFee (settledCost settings job escrow) settings)
    rw [← earned] at sum
    exact sum
  · have taken := @escrow_completionRows settings job numBytes providerId escrow nonneg
    rw [accountBalance_append, escrow_escrowRows _ _ nonneg]
    have cancel := add_neg_cancel escrow
    rw [← taken] at cancel
    exact cancel

theorem settleJob_of_fits (billed : job.kind ≠ .canary) (amount : job.escrowAmount = some escrow)
    (column : escrow < 10 ^ 20) (completed : job.status = .completed)
    (fits : Fits settings job numBytes escrow) :
    ∃ rows costFinal, settleJob settings job (some providerId) numBytes groups =
        .ok (rows, some costFinal) ∧
      Describes rows (completionRows settings job numBytes providerId escrow) ∧
      costFinal.value = toDecimal (settledCost settings job escrow +
        Gridix.dataCost numBytes settings) := by
  obtain ⟨computed, final⟩ := fits
  have nonneg := job.escrowNonneg escrow amount
  have costNonneg := settledCost_nonneg settings job nonneg
  have costLe := settledCost_le settings job escrow
  have chargeNonneg := dataCost_nonneg numBytes settings
  have feeNonneg := protocolFee_nonneg settings costNonneg
  have feeLe := protocolFee_le settings costNonneg
  obtain ⟨settled, settling, released⟩ := postOptional_settle (groups 0)
    job.id job.developerId providerId feeNonneg feeLe (by omega)
  obtain ⟨refunded, refunding, returned⟩ := postOptional_transfer (groups 1)
    .escrow (some job.developerId) .developer (some job.developerId)
    .refund (some job.id) (sub_nonneg.mpr costLe) (by omega)
  obtain ⟨charged, charging, billing⟩ := postOptional_transfer (groups 2)
    .developer (some job.developerId) .protocol none .dataCost
    (some job.id) chargeNonneg (by omega)
  have size : |settledCost settings job escrow + Gridix.dataCost numBytes settings| < 10 ^ 20 := by
    rw [abs_of_nonneg (by omega)]
    exact final
  refine ⟨settled ++ refunded ++ charged, ⟨_, size⟩, ?_, ?_, rfl⟩
  · unfold settleJob
    rw [if_neg billed, amount, completed]
    refine bind_eq_ok.mpr ⟨toDecimal (Gridix.computeCost
      job.resourceSpec (durationSeconds job) settings), ?_, ?_⟩
    · rw [computeCost_eq, if_pos computed]
      rfl
    rw [toDecimal_min, ← settledCost]
    refine bind_eq_ok.mpr ⟨toDecimal (Gridix.protocolFee
      (settledCost settings job escrow) settings), ?_, ?_⟩
    · rw [protocolFee_eq costNonneg (by omega)]
      rfl
    refine bind_eq_ok.mpr ⟨settled, settling, ?_⟩
    refine bind_eq_ok.mpr ⟨refunded, ?_, ?_⟩
    · rw [ite_refund, sub_toDecimal (by rw [abs_lt]; constructor <;> omega)]
      exact refunding
    refine bind_eq_ok.mpr ⟨toDecimal (Gridix.dataCost numBytes settings), ?_, ?_⟩
    · rw [dataCost_eq, if_pos (by omega)]
      rfl
    refine bind_eq_ok.mpr ⟨charged, charging, ?_⟩
    rw [add_toDecimal (size.trans (by norm_num)), store_toDecimal, dif_pos size]
  · rw [completionRows, dataRows_eq]
    exact (released.append returned).append billing

theorem fits_of_settleJob (billed : job.kind ≠ .canary) (amount : job.escrowAmount = some escrow)
    (column : escrow < 10 ^ 20) (completed : job.status = .completed)
    {result : List LedgerEntry × Option Amount}
    (ok : settleJob settings job (some providerId) numBytes groups = .ok result) :
    Fits settings job numBytes escrow := by
  have nonneg := job.escrowNonneg escrow amount
  have costNonneg := settledCost_nonneg settings job nonneg
  have costLe := settledCost_le settings job escrow
  have chargeNonneg := dataCost_nonneg numBytes settings
  unfold settleJob at ok
  rw [if_neg billed, amount, completed] at ok
  obtain ⟨_, computing, ok⟩ := bind_eq_ok.mp ok
  rw [computeCost_eq] at computing
  split_ifs at computing with inContext
  · cases computing
    rw [toDecimal_min, ← settledCost] at ok
    obtain ⟨_, _, ok⟩ := bind_eq_ok.mp ok
    obtain ⟨_, _, ok⟩ := bind_eq_ok.mp ok
    obtain ⟨_, _, ok⟩ := bind_eq_ok.mp ok
    obtain ⟨_, pricing, ok⟩ := bind_eq_ok.mp ok
    rw [dataCost_eq] at pricing
    split_ifs at pricing
    · cases pricing
      obtain ⟨_, charging, ok⟩ := bind_eq_ok.mp ok
      have small := chargeData_small chargeNonneg charging
      refine ⟨inContext, ?_⟩
      rw [add_toDecimal (by rw [abs_lt]; constructor <;> omega), store_toDecimal] at ok
      split_ifs at ok with fits
      · rwa [abs_of_nonneg (by omega)] at fits
    · cases pricing
  · cases computing

theorem settleJob_returns {winner : Option Uuid} (billed : job.kind ≠ .canary)
    (amount : job.escrowAmount = some escrow) (column : escrow < 10 ^ 20)
    (lost : job.status ≠ .completed ∨ winner = none) :
    ∃ rows costFinal, settleJob settings job winner numBytes groups = .ok (rows, some costFinal) ∧
      costFinal.value = 0 ∧ Describes rows (refundRows job.id job.developerId escrow) := by
  have nonneg := job.escrowNonneg escrow amount
  obtain ⟨refunded, refunding, returned⟩ := postOptional_transfer (groups 1)
    .escrow (some job.developerId) .developer (some job.developerId)
    .refund (some job.id) nonneg column
  refine ⟨refunded, ⟨0, by norm_num⟩, ?_, zero_mul _, returned⟩
  unfold settleJob
  rw [if_neg billed, amount]
  dsimp only
  split
  · rename_i completed
    rcases lost with notCompleted | missing
    · exact absurd completed notCompleted
    · cases missing
  · exact bind_eq_ok.mpr ⟨refunded, refunding, rfl⟩

end

/-- The settlement of a completed job splits the escrow exactly when the
computed cost fits the decimal context and the final cost its column. -/
theorem settlement_splits_iff {settings : Settings} {job : Job} {escrow : Int}
    (billed : job.kind ≠ .canary) (amount : job.escrowAmount = some escrow)
    (column : escrow < 10 ^ 20) (numBytes : Int) (groups : Nat → Uuid) :
    (job.status = .completed → ∀ providerId, (∃ rows costFinal,
        settleJob settings job (some providerId) numBytes groups = .ok (rows, some costFinal) ∧
        Splits settings job numBytes providerId escrow (settledCost settings job escrow)
          (Gridix.protocolFee (settledCost settings job escrow) settings)
          rows costFinal) ↔
      Fits settings job numBytes escrow) ∧
    ∀ winner, (job.status ≠ .completed ∨ winner = none) → ∃ rows costFinal,
        settleJob settings job winner numBytes groups = .ok (rows, some costFinal) ∧
        costFinal.value = 0 ∧
        Describes rows (refundRows job.id job.developerId escrow) ∧
        Gridix.accountBalance (refundRows job.id job.developerId escrow)
          .developer (some job.developerId) = escrow ∧
        Gridix.accountBalance (escrowRows job.id job.developerId escrow ++
          refundRows job.id job.developerId escrow) .escrow none = 0 ∧
        ∀ ref, Gridix.accountBalance
          (refundRows job.id job.developerId escrow) .provider ref = 0 := by
  have nonneg := job.escrowNonneg escrow amount
  refine ⟨?_, ?_⟩
  · intro completed _
    constructor
    · rintro ⟨_, _, success, _⟩
      exact fits_of_settleJob billed amount column completed success
    · intro fits
      obtain ⟨rows, costFinal, success, posted, final⟩ :=
        settleJob_of_fits billed amount column completed fits
      exact ⟨rows, costFinal, success, splits_completionRows amount posted final⟩
  · intro _ lost
    obtain ⟨rows, costFinal, success, nothing, posted⟩ :=
      settleJob_returns billed amount column lost
    refine ⟨rows, costFinal, success, nothing, posted, ?_, ?_, ?_⟩
    · exact developer_refundRows _ _ nonneg
    · rw [accountBalance_append, escrow_escrowRows _ _ nonneg,
        escrow_refundRows _ _ nonneg, add_neg_cancel]
    · exact fun ref => provider_refundRows _ _ ref

def minuteJob : Job := { newJob ((minuteRequest false 1).terms .default 7
      1 none) 0 with
    status := .completed, startedAt := some 0, finishedAt := some 60000000 }

theorem settlement_splits_iff_minuteJob : ∃ rows costFinal,
      settleJob .default minuteJob (some 5) 0 id = .ok (rows, some costFinal) ∧
      Splits .default minuteJob 0 5 100000000 (settledCost .default minuteJob 100000000)
        (Gridix.protocolFee (settledCost .default minuteJob 100000000)
          .default) rows costFinal := by
  have amount : minuteJob.escrowAmount = some 100000000 := by decide +kernel
  have fits : Fits .default minuteJob 0 100000000 := by refine ⟨?_, ?_⟩ <;> decide +kernel
  exact ((settlement_splits_iff (by decide) amount (by norm_num) 0 id).1 rfl 5).mpr fits

def dearSettings : Settings :=
  { Settings.default with
    baseJobPrice := 10 ^ 20, basePriceNonneg := by norm_num }

/-- The computed cost needs more digits than the decimal context has: the
settlement raises and the escrow stays. -/
theorem dear_settlement_raises : minuteJob.kind = .standard ∧ minuteJob.status = .completed ∧
      minuteJob.escrowAmount = some 100000000 ∧
      settleJob dearSettings minuteJob (some 5) 0 id = .error (.raised .invalidOperation) := by
  refine ⟨rfl, rfl, ?_, ?_⟩ <;> decide +kernel

end Gridix.Decimals
