import Gridix.Base.DecimalContext
import Gridix.Chain.Watcher
import Gridix.Jobs.Results

/-!
# Postings in decimals

The posting functions with the decimals they compute, before the ledger column
rounds them.
-/

namespace Gridix.Decimals

open DecimalContext List

structure Leg where
  account : LedgerAccount
  direction : LedgerDirection
  amount : ℚ
  accountRef : Option Uuid
  deriving DecidableEq, Repr

structure Transaction where
  postings : List Leg
  reason : Reason
  jobId : Option Uuid
  txHash : Option String
  deriving DecidableEq, Repr

/-- The amounts of `Numeric(20, 8)` columns. -/
abbrev Amount := Numeric 20 8

structure LedgerEntry where
  entryGroup : Uuid
  jobId : Option Uuid
  account : LedgerAccount
  accountRef : Option Uuid
  direction : LedgerDirection
  amount : Amount
  reason : Reason
  txHash : Option String
  deriving DecidableEq, Repr

inductive PostError where
  | noPostings
  | unbalanced (debits credits : ℚ)
  /-- The column cannot hold the amount. -/
  | outOfRange
  /-- The check constraint on the amount column. -/
  | negativeAmount
  deriving DecidableEq, Repr

def total (direction : LedgerDirection) (postings : List Leg) : ℚ :=
  DecimalContext.sum decimalDigits
    ((postings.filter fun leg => leg.direction == direction).map Leg.amount)

def insert (group : Uuid) (transaction : Transaction) (leg : Leg) : Except PostError LedgerEntry :=
  match Numeric.store 20 8 leg.amount with
  | none => .error .outOfRange
  | some amount =>
    if amount.ticks < 0 then .error .negativeAmount
    else .ok
      { entryGroup := group
        jobId := transaction.jobId
        account := leg.account
        accountRef := leg.accountRef
        direction := leg.direction
        amount := amount
        reason := transaction.reason
        txHash := transaction.txHash }

/-- Rejects unbalanced postings, then what the column rejects. -/
def postTransaction (group : Uuid) (transaction : Transaction) :
    Except PostError (List LedgerEntry) :=
  if transaction.postings = [] then .error .noPostings
  else
    let debits := total .debit transaction.postings
    let credits := total .credit transaction.postings
    if debits ≠ credits then .error (.unbalanced debits credits)
    else transaction.postings.mapM (insert group transaction)

def sumRows (rows : List LedgerEntry) (counts : LedgerEntry → Bool) : ℚ :=
  ((rows.filter counts).map fun row => row.amount.value).sum

def accountBalance (rows : List LedgerEntry) (account : LedgerAccount) (ref : Uuid) : ℚ :=
  let sum := fun direction => sumRows rows fun row =>
    row.account == account && row.direction == direction && row.accountRef == some ref
  sub decimalDigits (sum .credit) (sum .debit)

/-- The groups whose sums differ. -/
def verifyLedgerIntegrity (rows : List LedgerEntry) : List (Uuid × ℚ) :=
  (rows.map LedgerEntry.entryGroup).dedup.filterMap fun group =>
    let sum := fun direction => sumRows rows fun row =>
      row.entryGroup == group && row.direction == direction
    let delta := sub decimalDigits (sum .debit) (sum .credit)
    if delta ≠ 0 then some (group, delta) else none

inductive Raised where
  | invalidOperation
  | insufficientBalance (balance required : ℚ)
  deriving DecidableEq, Repr

def quantized (places : Nat) (value : ℚ) : Except Raised ℚ :=
  match quantize decimalDigits places value with
  | none => .error .invalidOperation
  | some rounded => .ok rounded

def quantizeUsdc (amount : ℚ) : Except Raised ℚ := quantized 6 amount

def quantizeCent (amount : ℚ) : Except Raised ℚ := quantized 8 amount

def computeCost (spec : ResourceSpec) (durationSeconds : ℚ)
    (settings : Settings) : Except Raised ℚ :=
  let cpu := max 1 spec.cpuCores
  let minutes := div decimalDigits (max 0 durationSeconds) 60
  let multiplier : ℚ := if spec.gpu then 4 else 1
  let perCore := mul decimalDigits settings.baseJobPrice cpu
  let perMinute := mul decimalDigits perCore multiplier
  quantizeCent (mul decimalDigits perMinute minutes)

def share (cost : ℚ) (settings : Settings) : ℚ :=
  div decimalDigits (mul decimalDigits cost settings.protocolFeeBps) 10000

def protocolFee (cost : ℚ) (settings : Settings) : Except Raised ℚ :=
  quantizeCent (share cost settings)

def dataCost (numBytes : Int) (settings : Settings) : Except Raised ℚ :=
  let gb := div decimalDigits (max 0 numBytes : Int) 1000000000
  quantizeCent (mul decimalDigits gb settings.dataPricePerGb)

def fromUnits (units decimals : Nat) : ℚ := div decimalDigits units (10 ^ decimals)

def graduatedSlash (base : ℚ) (priorUpheld : Nat) : ℚ :=
  mul decimalDigits base (min (2 ^ priorUpheld) 8 : Nat)

/-! ## The posting functions

Each returns the transaction it posts, if it posts one. -/

def transferLegs (source : LedgerAccount) (sourceRef : Option Uuid)
    (target : LedgerAccount) (targetRef : Option Uuid) (amount : ℚ) :
    List Leg :=
  [{ account := source, direction := .debit, amount := amount,
     accountRef := sourceRef },
   { account := target, direction := .credit, amount := amount,
     accountRef := targetRef }]

def whenPositive (amount : ℚ) (transaction : Transaction) : Option Transaction :=
  if amount ≤ 0 then none else some transaction

section

variable (rows : List LedgerEntry) (settings : Settings)

def depositStake (providerId : Uuid) (amount : ℚ) : Transaction :=
  ⟨transferLegs .protocol none .stake (some providerId) amount, .stakeDeposit, none, none⟩

def slashStake (providerId : Uuid) (amount : ℚ) (jobId : Option Uuid) : Option Transaction :=
  let slashed := min amount (accountBalance rows .stake providerId)
  whenPositive slashed ⟨transferLegs .stake (some providerId) .protocol none slashed, .slash,
      jobId, none⟩

def openDispute (providerId : Uuid) (amount : ℚ) (jobId : Option Uuid) : Option Transaction :=
  let held := min amount (accountBalance rows .stake providerId)
  whenPositive held ⟨transferLegs .stake (some providerId) .disputed (some providerId) held,
      .slashHold, jobId, none⟩

def resolveDispute (providerId : Uuid) (amount : Amount) (upheld : Bool)
    (jobId : Option Uuid) : Option Transaction :=
  whenPositive amount.value ⟨transferLegs .disputed (some providerId)
        (if upheld then .protocol else .stake)
        (if upheld then none else some providerId) amount.value,
      if upheld then .slashConfirmed else .slashReversed, jobId, none⟩

def holdEscrow (jobId developerId : Uuid) (amount : ℚ) : Option Transaction := whenPositive amount
    ⟨transferLegs .developer (some developerId) .escrow (some developerId)
      amount, .escrowHold, some jobId, none⟩

def settleLegs (developerId providerId : Uuid) (cost fee : ℚ) : List Leg :=
  let net := sub decimalDigits cost fee
  { account := .escrow, direction := .debit, amount := cost,
    accountRef := some developerId } ::
  ((if 0 < net then
      [{ account := .provider, direction := .credit, amount := net,
         accountRef := some providerId }]
    else []) ++
   (if 0 < fee then
      [{ account := .protocol, direction := .credit, amount := fee,
         accountRef := none }]
    else []))

def settle (jobId developerId providerId : Uuid) (cost fee : ℚ) : Option Transaction :=
  whenPositive cost ⟨settleLegs developerId providerId cost fee, .settle, some jobId, none⟩

def refund (jobId developerId : Uuid) (amount : ℚ) : Option Transaction := whenPositive amount
    ⟨transferLegs .escrow (some developerId) .developer (some developerId)
      amount, .refund, some jobId, none⟩

def chargeData (jobId developerId : Uuid) (amount : ℚ) : Option Transaction := whenPositive amount
    ⟨transferLegs .developer (some developerId) .protocol none amount, .dataCost, some jobId, none⟩

def reserveBalance (developerId : Uuid) (amount : ℚ) : Except Raised (Option Transaction) := do
  let amount ← quantizeUsdc amount
  if amount ≤ 0 then .ok none
  else
    let balance := accountBalance rows .developer developerId
    if balance < amount then .error (.insufficientBalance balance amount)
    else .ok (some ⟨transferLegs .developer (some developerId) .escrow (some developerId)
        amount, .inferenceHold, none, none⟩)

def returnHold (developerId : Uuid) (held : ℚ) : Except Raised (Option Transaction) := do
  let held ← quantizeUsdc held
  .ok (whenPositive held ⟨transferLegs .escrow (some developerId) .developer (some developerId)
      held, .inferenceHoldRelease, none, none⟩)

def chargeLegs (developerId providerId : Uuid) (cost fee : ℚ) : List Leg :=
  [{ account := .developer, direction := .debit, amount := cost,
     accountRef := some developerId },
   { account := .provider, direction := .credit,
     amount := sub decimalDigits cost fee,
     accountRef := some providerId }] ++
  (if 0 < fee then
    [{ account := .protocol, direction := .credit, amount := fee,
       accountRef := none }]
   else [])

def chargeUsage (developerId providerId : Uuid) (cost : ℚ) :
    Except Raised (Option Transaction) := do
  let cost ← quantizeUsdc cost
  if cost ≤ 0 then .ok none
  else
    let balance := accountBalance rows .developer developerId
    if balance < cost then .error (.insufficientBalance balance cost)
    else do
      let fee ← quantizeUsdc (share cost settings)
      .ok (some ⟨chargeLegs developerId providerId cost fee, .inferenceUsage, none, none⟩)

def creditDeposit (developerId : Uuid) (amount : ℚ) : Except Raised (Option Transaction) := do
  let amount ← quantizeUsdc amount
  .ok (whenPositive amount ⟨transferLegs .protocol none .developer (some developerId) amount,
      .deposit, none, none⟩)

def applyEffect (decimals : Nat) (eventName : Watcher.EventName)
    (developerId : Uuid) (units : Nat) (txHash : String) :
    Option Transaction :=
  let amount := fromUnits units decimals
  match eventName with
  | .deposited => some ⟨transferLegs .protocol none .developer (some developerId) amount,
        .chainDeposit, none, some txHash⟩
  | .withdrawn => some ⟨transferLegs .developer (some developerId) .protocol none amount,
        .chainWithdraw, none, some txHash⟩
  | .debited | .settled | .slashed => none

def reverseEffect (decimals : Nat) (eventName : Watcher.EventName)
    (developerId : Uuid) (units : Nat) (txHash : String) :
    Option Transaction :=
  let amount := fromUnits units decimals
  match eventName with
  | .deposited => some ⟨transferLegs .developer (some developerId) .protocol none amount,
        .reorgReverseDeposited, none, some txHash⟩
  | .withdrawn => some ⟨transferLegs .protocol none .developer (some developerId) amount,
        .reorgReverseWithdrawn, none, some txHash⟩
  | .debited | .settled | .slashed => none

end

variable {left right amount : Int}

theorem toDecimal_inj : toDecimal left = toDecimal right ↔ left = right := by
  unfold toDecimal
  rw [div_left_inj' (by norm_num)]
  exact Int.cast_inj

@[simp] theorem toDecimal_pos_iff : 0 < toDecimal amount ↔ 0 < amount := by
  unfold toDecimal
  rw [div_pos_iff_of_pos_right (by norm_num)]
  exact Int.cast_pos

theorem toDecimal_sub (left right : Int) :
    toDecimal (left - right) = toDecimal left - toDecimal right := by
  unfold toDecimal
  push_cast
  ring

theorem toDecimal_hasPlaces (amount : Int) : HasPlaces 8 (toDecimal amount) := ⟨amount, rfl⟩

theorem abs_toDecimal (amount : Int) :
    |toDecimal amount| = toDecimal |amount| := by
  unfold toDecimal
  rw [abs_div, Int.cast_abs, abs_of_pos (by norm_num : (0 : ℚ) < 10 ^ 8)]

theorem toDecimal_lt {amount : Int} {bound : Nat} (small : amount < 10 ^ (bound + 8)) :
    toDecimal amount < 10 ^ bound := by
  unfold toDecimal
  rw [div_lt_iff₀ (by norm_num), ← pow_add]
  exact_mod_cast small

theorem significant_toDecimal (small : |amount| < 10 ^ 28) :
    Rounding.significant decimalDigits (toDecimal amount) = toDecimal amount := by
  apply significant_of_small (toDecimal_hasPlaces amount)
  rw [abs_toDecimal]
  have bound := @toDecimal_lt |amount| 20 small
  calc toDecimal |amount| < 10 ^ 20 := bound
    _ = 10 ^ ((decimalDigits : ℤ) - (8 : ℕ)) := by
        norm_num [decimalDigits]

theorem toDecimal_min (left right : Int) :
    min (toDecimal left) (toDecimal right) = toDecimal (min left right) := by
  have mono : Monotone toDecimal := by
    intro _ _ _
    unfold toDecimal
    gcongr
  exact (mono.map_min).symm

theorem lt_of_toDecimal_lt (below : toDecimal amount < 10 ^ 12) : amount < 10 ^ 20 := by
  unfold toDecimal at below
  rw [div_lt_iff₀ (by norm_num)] at below
  exact_mod_cast below

theorem sub_toDecimal (small : |left - right| < 10 ^ 28) :
    sub decimalDigits (toDecimal left) (toDecimal right) = toDecimal (left - right) := by
  unfold sub
  rw [← toDecimal_sub, significant_toDecimal small]

def legOf (posting : Posting) : Leg :=
  ⟨posting.account, posting.direction, toDecimal posting.amount, posting.accountRef⟩

def LedgerEntry.leg (row : LedgerEntry) : Leg :=
  ⟨row.account, row.direction, row.amount.value, row.accountRef⟩

def postErrorOf : LedgerError → PostError
  | .noPostings => .noPostings
  | .unbalanced debits credits =>
    .unbalanced (toDecimal debits) (toDecimal credits)
  | .negativeAmount => .negativeAmount

theorem toDecimal_sum (amounts : List Int) :
    toDecimal amounts.sum = (amounts.map toDecimal).sum := by
  induction amounts with
  | nil => simp [toDecimal]
  | cons _ _ ih =>
    rw [map_cons, sum_cons, sum_cons, ← ih]
    unfold toDecimal
    push_cast
    ring

section

variable {postings : List Posting}

theorem total_legs (direction : LedgerDirection)
    (small : ∀ posting ∈ postings, |posting.amount| < 10 ^ 20) (few : postings.length < 10 ^ 8) :
    total direction (postings.map legOf) = toDecimal (directionTotal direction postings) := by
  have legs : ((postings.map legOf).filter fun leg =>
        leg.direction == direction).map Leg.amount =
      ((postings.filter fun posting => posting.direction == direction).map
        Posting.amount).map toDecimal := by
    rw [filter_map, map_map, map_map]
    rfl
  rw [total, legs, directionTotal, toDecimal_sum]
  have written : ∀ value ∈ ((postings.filter fun posting =>
      posting.direction == direction).map Posting.amount).map toDecimal,
      HasPlaces 8 value ∧ |value| ≤ 10 ^ 12 := by
    intro _ mem
    obtain ⟨_, inside, rfl⟩ := mem_map.mp mem
    obtain ⟨posting, kept, rfl⟩ := mem_map.mp inside
    refine ⟨toDecimal_hasPlaces _, ?_⟩
    rw [abs_toDecimal]
    exact (@toDecimal_lt |posting.amount| 12 (small posting (mem_filter.mp kept).1)).le
  apply sum_of_small fun value mem => (written value mem).1
  have bounded := sum_le_card_nsmul
    ((((postings.filter fun posting => posting.direction == direction).map
      Posting.amount).map toDecimal).map (|·|)) (10 ^ 12) (by
        intro _ mem
        obtain ⟨value, inside, rfl⟩ := mem_map.mp mem
        exact (written value inside).2)
  have fewer : (postings.filter fun posting =>
      posting.direction == direction).length < 10 ^ 8 :=
    lt_of_le_of_lt (length_filter_le _ _) few
  rw [length_map, length_map, length_map] at bounded
  have light : (((postings.filter fun posting =>
      posting.direction == direction).length : ℚ)) < 10 ^ 8 := by
    exact_mod_cast fewer
  calc _ ≤ _ := bounded
    _ < 10 ^ 8 * 10 ^ 12 := by
        exact mul_lt_mul_of_pos_right light (by norm_num)
    _ = 10 ^ ((decimalDigits : ℤ) - (8 : ℕ)) := by
        norm_num [decimalDigits]

theorem insert_leg (group : Uuid) (transaction : Transaction)
    {posting : Posting} (small : |posting.amount| < 10 ^ 20) :
    (insert group transaction (legOf posting)).map LedgerEntry.leg =
      if posting.amount < 0 then .error .negativeAmount
      else .ok (legOf posting) := by
  have scaled : toDecimal posting.amount * 10 ^ 8 = posting.amount := by
    unfold toDecimal
    field_simp
  have stored : Numeric.store 20 8 (toDecimal posting.amount) = some ⟨posting.amount, small⟩ := by
    simp only [Numeric.store, scaled, Rounding.halfUp_intCast, dif_pos small]
  unfold insert
  rw [show (legOf posting).amount = toDecimal posting.amount from rfl, stored]
  dsimp only
  split_ifs <;> rfl

theorem insert_legs (group : Uuid) (transaction : Transaction)
    (small : ∀ posting ∈ postings, |posting.amount| < 10 ^ 20) :
    ((postings.map legOf).mapM (insert group transaction)).map (List.map LedgerEntry.leg) =
      if postings.any fun posting => posting.amount < 0 then
        .error .negativeAmount
      else .ok (postings.map legOf) := by
  induction postings with
  | nil => rfl
  | cons posting rest ih =>
    have head := insert_leg group transaction (small posting mem_cons_self)
    have tail := ih fun other mem =>
      small other (mem_cons_of_mem _ mem)
    rw [map_cons, mapM_cons]
    by_cases negative : posting.amount < 0
    · rw [if_pos negative] at head
      cases inserted : insert group transaction (legOf posting) with
      | ok =>
        rw [inserted] at head
        cases head
      | error =>
        rw [inserted] at head
        cases head
        simp [negative, bind, Except.bind, Except.map]
    · rw [if_neg negative] at head
      cases inserted : insert group transaction (legOf posting) with
      | error =>
        rw [inserted] at head
        cases head
      | ok row =>
        rw [inserted] at head
        have same : row.leg = legOf posting := Except.ok.inj head
        simp only [any_cons, negative, decide_false, Bool.false_or]
        cases others : (rest.map legOf).mapM (insert group transaction) with
        | error =>
          rw [others] at tail
          split_ifs at tail ⊢
          · cases tail
            rfl
          · cases tail
        | ok rows =>
          rw [others] at tail
          split_ifs at tail ⊢
          · cases tail
          · have kept : rows.map LedgerEntry.leg = rest.map legOf := Except.ok.inj tail
            simp [bind, Except.bind, Except.map, pure, Except.pure, same, kept]

theorem postTransaction_refines (group : Uuid) (reason : Reason) (jobId : Option Uuid)
    (txHash : Option String) (small : ∀ posting ∈ postings, |posting.amount| < 10 ^ 20)
    (few : postings.length < 10 ^ 8) :
    (postTransaction group ⟨postings.map legOf, reason, jobId, txHash⟩).map
          (List.map LedgerEntry.leg) =
      ((Gridix.postTransaction postings reason jobId txHash).map
        fun posted => posted.entries.map legOf).mapError postErrorOf := by
  unfold postTransaction Gridix.postTransaction
  simp only [total_legs .debit small few, total_legs .credit small few,
    map_eq_nil_iff, ne_eq, toDecimal_inj]
  split_ifs with _ _ negative
  · rfl
  · rw [insert_legs _ _ small, if_pos negative]
    rfl
  · rw [insert_legs _ _ small, if_neg negative]
    simp [Except.map, Except.mapError, Ledger.entries]
  · rfl

end

section

variable {settings : Settings} {rounded fee : ℚ} {cost : Int}

theorem quantizeCent_ok {value : ℚ} (ok : quantizeCent value = .ok rounded) :
    rounded = toDecimal (Gridix.quantizeCent value) := by
  unfold quantizeCent quantized quantize at ok
  dsimp only at ok
  split_ifs at ok
  cases ok
  rfl

theorem quantizeUsdc_ok {value : ℚ} (ok : quantizeUsdc value = .ok rounded) :
    rounded = toDecimal (Gridix.quantizeUsdc value) := by
  unfold quantizeUsdc quantized quantize at ok
  dsimp only at ok
  split_ifs at ok
  cases ok
  unfold toDecimal Gridix.quantizeUsdc
  push_cast
  ring

theorem computeCost_ok {spec : ResourceSpec} {durationSeconds cost : ℚ}
    (ok : computeCost spec durationSeconds settings = .ok cost) :
    cost = toDecimal (Gridix.computeCost spec durationSeconds settings) :=
  quantizeCent_ok ok

theorem dataCost_ok {numBytes : Int} {cost : ℚ} (ok : dataCost numBytes settings = .ok cost) :
    cost = toDecimal (Gridix.dataCost numBytes settings) :=
  quantizeCent_ok ok

theorem share_toDecimal (small : |cost| < 10 ^ 20) : share (toDecimal cost) settings =
      toDecimal cost * settings.protocolFeeBps / 10000 := by
  have bps : (settings.protocolFeeBps : Int) ≤ 10000 := by exact_mod_cast settings.feeLe
  have product : toDecimal cost * settings.protocolFeeBps =
      toDecimal (cost * settings.protocolFeeBps) := by
    unfold toDecimal
    push_cast
    ring
  have size : |cost * settings.protocolFeeBps| < 10 ^ 24 := by
    rw [abs_mul, abs_of_nonneg (by positivity :
      (0 : Int) ≤ settings.protocolFeeBps)]
    calc |cost| * (settings.protocolFeeBps : Int) ≤ |cost| * 10000 :=
          mul_le_mul_of_nonneg_left bps (abs_nonneg cost)
      _ < 10 ^ 24 := by omega
  unfold share mul div
  rw [product, significant_toDecimal (size.trans (by norm_num))]
  have shifted := (toDecimal_hasPlaces (cost * settings.protocolFeeBps)).div_pow 4
  rw [show (10 : ℚ) ^ 4 = 10000 by norm_num] at shifted
  apply significant_of_small shifted
  rw [abs_div, abs_toDecimal]
  have bound := @toDecimal_lt |cost * settings.protocolFeeBps| 16 size
  calc toDecimal |cost * settings.protocolFeeBps| / 10000
      < 10 ^ 16 / 10000 := by
        exact div_lt_div_of_pos_right bound (by norm_num)
    _ ≤ 10 ^ ((decimalDigits : ℤ) - (8 + 4 : ℕ)) := by
        norm_num [decimalDigits]

theorem protocolFee_ok (small : |cost| < 10 ^ 20)
    (ok : protocolFee (toDecimal cost) settings = .ok fee) :
    fee = toDecimal (Gridix.protocolFee cost settings) := by
  unfold protocolFee at ok
  rw [share_toDecimal small] at ok
  exact quantizeCent_ok ok

theorem usageFee_ok (small : |cost| < 10 ^ 20)
    (ok : quantizeUsdc (share (toDecimal cost) settings) = .ok fee) :
    fee = toDecimal (usageFee settings cost) := by
  rw [share_toDecimal small] at ok
  exact quantizeUsdc_ok ok

theorem fromUnits_hasPlaces {decimals : Nat} (fits : decimals ≤ 8)
    (units : Nat) : HasPlaces 8 (fromUnits units decimals) := by
  apply significant_hasPlaces
  apply HasPlaces.more fits
  exact ⟨units, by push_cast; rfl⟩

theorem fromUnits_nonneg (units decimals : Nat) : 0 ≤ fromUnits units decimals :=
  Rounding.significant_nonneg _ (by positivity)

theorem accountBalance_hasPlaces (rows : List LedgerEntry) (account : LedgerAccount) (ref : Uuid) :
    HasPlaces 8 (accountBalance rows account ref) := by
  have column : ∀ counts, HasPlaces 8 (sumRows rows counts) := by
    intro _
    apply HasPlaces.list_sum
    intro _ mem
    obtain ⟨row, _, rfl⟩ := mem_map.mp mem
    exact row.amount.value_hasPlaces
  exact significant_hasPlaces _ ((column _).sub (column _))

theorem graduatedSlash_hasPlaces (base priorUpheld : Nat) :
    HasPlaces 8 (graduatedSlash base priorUpheld) := by
  apply significant_hasPlaces
  have product := HasPlaces.ofInt 8 ((base * min (2 ^ priorUpheld) 8 : Nat) : ℤ)
  push_cast at product ⊢
  exact product

end

end Gridix.Decimals
