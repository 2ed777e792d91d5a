import Gridix.Pricing

/-!
# Charging for inference

An inference request reserves its worst case before a node is dispatched and
resolves the reservation afterwards: it settles for what was used, or releases
the hold untouched.
-/

namespace Gridix

def developerBalance (ledger : Ledger) (developerId : Uuid) : Int :=
  accountBalance ledger .developer (some developerId)

def escrowBalance (ledger : Ledger) (developerId : Uuid) : Int :=
  accountBalance ledger .escrow (some developerId)

/-- Why a hold or a charge is refused. -/
inductive BillingError where
  | insufficientBalance (balance required : Int)
  | ledger (error : LedgerError)
  deriving DecidableEq, Repr

/-- What `reserve_balance` returns when it does not raise. -/
def heldAmount (raw : ℚ) : Int :=
  if quantizeUsdc raw ≤ 0 then 0 else quantizeUsdc raw

theorem heldAmount_nonneg (raw : ℚ) : 0 ≤ heldAmount raw := by
  unfold heldAmount
  split_ifs <;> omega

theorem quantizeUsdc_le_heldAmount {actual raw : ℚ} (within : actual ≤ raw) :
    quantizeUsdc actual ≤ heldAmount raw := by
  have rounded := quantizeUsdc_mono within
  unfold heldAmount
  split_ifs <;> omega

theorem exists_quantizeUsdc_eq_heldAmount (raw : ℚ) :
    ∃ amount, heldAmount raw = quantizeUsdc amount := by
  unfold heldAmount
  split_ifs
  · refine ⟨0, ?_⟩
    have zero := Rounding.halfUp_intCast 0
    rw [Int.cast_zero] at zero
    simp [quantizeUsdc, zero]
  · exact ⟨raw, rfl⟩

def postHold (developerId : Uuid) (amount : Int) : Except LedgerError Ledger := postTransaction
    (transferPostings .developer (some developerId) .escrow
      (some developerId) amount) .inferenceHold none none

def returnHold (developerId : Uuid) (held : Int) : Except LedgerError Ledger :=
  let held := quantizeUsdc (toDecimal held)
  if held ≤ 0 then .ok []
  else postTransaction (transferPostings .escrow (some developerId) .developer
      (some developerId) held) .inferenceHoldRelease none none

def chargePostings (settings : Settings) (developerId providerId : Uuid)
    (cost : Int) : List Posting :=
  let fee := usageFee settings cost
  [{ account := .developer, direction := .debit, amount := cost,
     accountRef := some developerId },
   { account := .provider, direction := .credit, amount := cost - fee,
     accountRef := some providerId }] ++
  (if 0 < fee then
    [{ account := .protocol, direction := .credit, amount := fee,
       accountRef := none }]
   else [])

section

variable (settings : Settings) (developerId providerId : Uuid) (cost : Int)

@[simp] theorem sumPostings_charge_developer_credit (ref : Option Uuid) :
    sumPostings .developer .credit ref
      (chargePostings settings developerId providerId cost) = 0 := by
  simp only [chargePostings]
  split_ifs <;> simp [sumPostings, Posting.counts]

@[simp] theorem sumPostings_charge_developer_debit (ref : Uuid) :
    sumPostings .developer .debit (some ref) (chargePostings settings developerId providerId cost) =
        if developerId = ref then cost else 0 := by
  by_cases same : developerId = ref <;> simp only [chargePostings] <;>
    split_ifs <;> simp [sumPostings, Posting.counts, same]

@[simp] theorem sumPostings_charge_escrow (direction : LedgerDirection) (ref : Option Uuid) :
    sumPostings .escrow direction ref
      (chargePostings settings developerId providerId cost) = 0 := by
  simp only [chargePostings]
  split_ifs <;> simp [sumPostings, Posting.counts]

end

def postCharge (settings : Settings) (developerId providerId : Uuid)
    (cost : Int) : Except LedgerError Ledger :=
  postTransaction (chargePostings settings developerId providerId cost) .inferenceUsage none none

def creditDeposit (developerId : Uuid) (amount : ℚ) : Except LedgerError Ledger :=
  let amount := quantizeUsdc amount
  if amount ≤ 0 then .ok []
  else postTransaction (transferPostings .protocol none .developer (some developerId) amount)
    .deposit none none

def holdRows (developerId : Uuid) (amount : Int) : Ledger :=
  [⟨transferPostings .developer (some developerId) .escrow
    (some developerId) amount, .inferenceHold, none, none⟩]

def returnRows (developerId : Uuid) (held : Int) : Ledger :=
  if held ≤ 0 then [] else
    [⟨transferPostings .escrow (some developerId) .developer
      (some developerId) held, .inferenceHoldRelease, none, none⟩]

def chargeRows (settings : Settings) (developerId providerId : Uuid) (cost : Int) : Ledger :=
  [⟨chargePostings settings developerId providerId cost, .inferenceUsage, none, none⟩]

def depositRows (developerId : Uuid) (amount : Int) : Ledger :=
  if amount ≤ 0 then [] else
    [⟨transferPostings .protocol none .developer (some developerId) amount, .deposit, none, none⟩]

theorem postHold_eq (developerId : Uuid) {amount : Int} (nonneg : 0 ≤ amount) :
    postHold developerId amount = .ok (holdRows developerId amount) :=
  postTransaction_transfer _ _ _ _ _ _ _ nonneg

theorem returnHold_eq (developerId : Uuid) (raw : ℚ) : returnHold developerId (quantizeUsdc raw) =
      .ok (returnRows developerId (quantizeUsdc raw)) := by
  simp only [returnHold, returnRows, quantizeUsdc_toDecimal_quantizeUsdc]
  split_ifs
  · rfl
  · exact postTransaction_transfer _ _ _ _ _ _ _ (by omega)

theorem creditDeposit_eq (developerId : Uuid) (amount : ℚ) : creditDeposit developerId amount =
      .ok (depositRows developerId (quantizeUsdc amount)) := by
  simp only [creditDeposit, depositRows]
  split_ifs
  · rfl
  · exact postTransaction_transfer _ _ _ _ _ _ _ (by omega)

theorem postCharge_eq (settings : Settings) (developerId providerId : Uuid)
    {amount : ℚ} (pos : 0 < quantizeUsdc amount) :
    postCharge settings developerId providerId (quantizeUsdc amount) =
      .ok (chargeRows settings developerId providerId (quantizeUsdc amount)) := by
  have feeNonneg : 0 ≤ usageFee settings (quantizeUsdc amount) :=
    usageFee_nonneg settings (by omega)
  have feeLe := usageFee_le settings (Int.le_of_lt pos)
  apply postTransaction_eq_ok
  · simp [chargePostings]
  · simp only [chargePostings, directionTotal]
    split_ifs
    · simp
    · simp
      omega
  · intro _ mem
    simp only [chargePostings, List.cons_append, List.mem_cons] at mem
    rcases mem with rfl | rfl | protocolLeg
    · exact Int.le_of_lt pos
    · exact Int.sub_nonneg.mpr feeLe
    · split_ifs at protocolLeg
      · rw [List.mem_singleton.mp protocolLeg]
        exact feeNonneg
      · cases protocolLeg

/-! ## Effect on the developer's two accounts

Each set of rows is described by what it adds to the developer's credits and
debits and to the developer's escrow. -/

section

variable (settings : Settings) (developerId providerId : Uuid)

@[simp] theorem holdRows_credit (amount : Int) :
    (holdRows developerId amount).sum .developer .credit (some developerId) = 0 := by
  simp [holdRows]

@[simp] theorem holdRows_debit (amount : Int) : (holdRows developerId amount).sum .developer .debit
      (some developerId) = amount := by
  simp [holdRows]

@[simp] theorem holdRows_escrow (amount : Int) :
    escrowBalance (holdRows developerId amount) developerId = amount := by
  simp [holdRows, escrowBalance, accountBalance]

@[simp] theorem returnRows_credit (held : Int) :
    (returnRows developerId held).sum .developer .credit (some developerId) = max 0 held := by
  unfold returnRows
  split_ifs with small
  · simp [max_eq_left small]
  · simp [max_eq_right (le_of_lt (not_le.mp small))]

@[simp] theorem returnRows_debit (held : Int) : (returnRows developerId held).sum .developer .debit
      (some developerId) = 0 := by
  unfold returnRows
  split_ifs <;> simp

@[simp] theorem returnRows_escrow (held : Int) :
    escrowBalance (returnRows developerId held) developerId = -max 0 held := by
  unfold returnRows
  split_ifs with small
  · simp [escrowBalance, accountBalance, max_eq_left small]
  · simp [escrowBalance, accountBalance, max_eq_right (le_of_lt (not_le.mp small))]

@[simp] theorem chargeRows_credit (cost : Int) :
    (chargeRows settings developerId providerId cost).sum .developer .credit
      (some developerId) = 0 := by
  simp [chargeRows]

@[simp] theorem chargeRows_debit (cost : Int) :
    (chargeRows settings developerId providerId cost).sum .developer .debit
      (some developerId) = cost := by
  simp [chargeRows]

@[simp] theorem chargeRows_escrow (cost : Int) :
    escrowBalance (chargeRows settings developerId providerId cost) developerId = 0 := by
  simp [escrowBalance, accountBalance, chargeRows]

@[simp] theorem depositRows_credit (amount : Int) :
    (depositRows developerId amount).sum .developer .credit (some developerId) = max 0 amount := by
  unfold depositRows
  split_ifs with small
  · simp [max_eq_left small]
  · simp [max_eq_right (le_of_lt (not_le.mp small))]

@[simp] theorem depositRows_debit (amount : Int) :
    (depositRows developerId amount).sum .developer .debit (some developerId) = 0 := by
  unfold depositRows
  split_ifs <;> simp

@[simp] theorem depositRows_escrow (amount : Int) :
    escrowBalance (depositRows developerId amount) developerId = 0 := by
  unfold depositRows
  split_ifs <;> simp [escrowBalance, accountBalance]

@[simp] theorem holdRows_escrow_debit (amount : Int) :
    (holdRows developerId amount).sum .escrow .debit (some developerId) = 0 := by
  simp [holdRows]

@[simp] theorem returnRows_escrow_debit (held : Int) :
    (returnRows developerId held).sum .escrow .debit (some developerId) = max 0 held := by
  unfold returnRows
  split_ifs with small
  · simp [max_eq_left small]
  · simp [max_eq_right (le_of_lt (not_le.mp small))]

@[simp] theorem chargeRows_escrow_debit (cost : Int) :
    (chargeRows settings developerId providerId cost).sum .escrow .debit
      (some developerId) = 0 := by
  simp [chargeRows]

end

end Gridix
