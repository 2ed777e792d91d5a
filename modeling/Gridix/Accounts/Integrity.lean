import Gridix.Accounts.Decimals
import Gridix.UsageBilling

/-!
# Integrity of the ledger

Every posting of the program is computed in decimals, by several roundings.
-/

namespace Gridix.Decimals

open DecimalContext List Serial

structure Config where
  settings : Settings
  usdcDecimals : Nat
  decimalsFit : usdcDecimals ≤ 8

inductive Call where
  | depositStake (providerId : Uuid) (amount : ℚ)
  | slashStake (providerId : Uuid) (amount : ℚ) (jobId : Option Uuid)
  | openDispute (providerId : Uuid) (amount : ℚ) (jobId : Option Uuid)
  | slashOffense (providerId : Uuid) (priorUpheld : Nat) (jobId : Uuid)
  | resolveDispute (providerId : Uuid) (amount : Amount) (upheld : Bool) (jobId : Option Uuid)
  | holdEscrow (jobId developerId : Uuid) (spec : ResourceSpec) (timeoutSeconds : Nat)
  | settle (jobId developerId providerId : Uuid) (spec : ResourceSpec)
      (durationSeconds : ℚ) (escrow : Amount)
  | refundRemainder (jobId developerId : Uuid) (spec : ResourceSpec)
      (durationSeconds : ℚ) (escrow : Amount)
  | chargeData (jobId developerId : Uuid) (numBytes : Int)
  | refundEscrow (jobId developerId : Uuid) (escrow : Amount)
  | reserveBalance (developerId : Uuid) (amount : ℚ)
  | returnHold (developerId : Uuid) (held : ℚ)
  | chargeUsage (developerId providerId : Uuid) (cost : ℚ)
  | creditDeposit (developerId : Uuid) (amount : ℚ)
  | applyEffect (eventName : Watcher.EventName) (developerId : Uuid) (units : Nat) (txHash : String)
  | reverseEffect (eventName : Watcher.EventName) (developerId : Uuid)
      (units : Nat) (txHash : String)

def Call.transaction (config : Config) (rows : List LedgerEntry) :
    Call → Except Raised (Option Transaction)
  | .depositStake providerId amount =>
    .ok (some (Decimals.depositStake providerId amount))
  | .slashStake providerId amount jobId =>
    .ok (Decimals.slashStake rows providerId amount jobId)
  | .openDispute providerId amount jobId =>
    .ok (Decimals.openDispute rows providerId amount jobId)
  | .slashOffense providerId priorUpheld jobId =>
    .ok (Decimals.openDispute rows providerId
      (graduatedSlash config.settings.slashAmount priorUpheld)
      (some jobId))
  | .resolveDispute providerId amount upheld jobId =>
    .ok (Decimals.resolveDispute providerId amount upheld jobId)
  | .holdEscrow jobId developerId spec timeoutSeconds => do
      let escrow ← computeCost spec timeoutSeconds config.settings
      .ok (Decimals.holdEscrow jobId developerId escrow)
  | .settle jobId developerId providerId spec durationSeconds escrow => do
      let cost ← computeCost spec durationSeconds config.settings
      let fee ← protocolFee (min cost escrow.value) config.settings
      .ok (Decimals.settle jobId developerId providerId (min cost escrow.value) fee)
  | .refundRemainder jobId developerId spec durationSeconds escrow => do
      let cost ← computeCost spec durationSeconds config.settings
      .ok (refund jobId developerId (sub decimalDigits escrow.value (min cost escrow.value)))
  | .chargeData jobId developerId numBytes => do
      let cost ← dataCost numBytes config.settings
      .ok (Decimals.chargeData jobId developerId cost)
  | .refundEscrow jobId developerId escrow =>
    .ok (refund jobId developerId escrow.value)
  | .reserveBalance developerId amount =>
    Decimals.reserveBalance rows developerId amount
  | .returnHold developerId held => Decimals.returnHold developerId held
  | .chargeUsage developerId providerId cost =>
    Decimals.chargeUsage rows config.settings developerId providerId cost
  | .creditDeposit developerId amount =>
    Decimals.creditDeposit developerId amount
  | .applyEffect eventName developerId units txHash =>
    .ok (Decimals.applyEffect config.usdcDecimals eventName developerId units txHash)
  | .reverseEffect eventName developerId units txHash =>
    .ok (Decimals.reverseEffect config.usdcDecimals eventName developerId units txHash)

/-- Amounts from outside have at most eight decimals, and nobody deposits a
negative one.  What is quantised before it is posted may be anything. -/
def Call.Admissible : Call → Prop
  | .depositStake _ amount => HasPlaces 8 amount ∧ 0 ≤ amount
  | .slashStake _ amount _ | .openDispute _ amount _ => HasPlaces 8 amount
  | _ => True

/-- The legs are whole amounts, and the ledger of whole amounts takes them. -/
def Transaction.Accepted (transaction : Transaction) : Prop := ∃ postings : List Posting,
    transaction.postings = postings.map legOf ∧
    Gridix.postTransaction postings transaction.reason transaction.jobId transaction.txHash =
      .ok [⟨postings, transaction.reason, transaction.jobId, transaction.txHash⟩] ∧
    postings.length ≤ 3

section

variable {transaction : Transaction} {settings : Settings} {amount : ℚ} {source : LedgerAccount}
  {sourceRef targetRef : Option Uuid} {reason : Reason} {txHash : Option String} {cost : Int}
  {developerId providerId : Uuid} {fee : ℚ}

theorem accepted_transfer (source : LedgerAccount) (sourceRef : Option Uuid)
    (target : LedgerAccount) (targetRef : Option Uuid) (reason : Reason) (jobId : Option Uuid)
    (txHash : Option String) (written : HasPlaces 8 amount) (nonneg : 0 ≤ amount) :
    Transaction.Accepted ⟨transferLegs source sourceRef target targetRef amount, reason, jobId,
        txHash⟩ := by
  obtain ⟨ticks, rfl⟩ := written
  have pos : 0 ≤ ticks := by
    rw [le_div_iff₀ (by norm_num)] at nonneg
    exact_mod_cast nonneg
  exact ⟨transferPostings source sourceRef target targetRef ticks, rfl,
    postTransaction_transfer _ _ _ _ _ _ _ pos,
    by simp [transferPostings]⟩

theorem accepted_whenPositive {target : LedgerAccount} {jobId : Option Uuid}
    (written : HasPlaces 8 amount) (posts : whenPositive amount
      ⟨transferLegs source sourceRef target targetRef amount, reason, jobId,
        txHash⟩ = some transaction) : transaction.Accepted := by
  unfold whenPositive at posts
  split_ifs at posts with small
  cases posts
  exact accepted_transfer _ _ _ _ _ _ _ written (not_le.mp small).le

theorem settleLegs_toDecimal (developerId providerId : Uuid)
    {fee : Int} (small : |cost - fee| < 10 ^ 28) :
    settleLegs developerId providerId (toDecimal cost) (toDecimal fee) =
      (settlePostings developerId providerId cost fee).map legOf := by
  rw [settleLegs, sub_toDecimal small]
  simp only [toDecimal_pos_iff, settlePostings]
  split_ifs <;> rfl

theorem accepted_settle {jobId : Uuid} (small : |cost| < 10 ^ 20)
    (charged : protocolFee (toDecimal cost) settings = .ok fee)
    (posts : settle jobId developerId providerId (toDecimal cost) fee = some transaction) :
    transaction.Accepted := by
  unfold settle whenPositive at posts
  split_ifs at posts with nothing
  cases posts
  rw [not_le, toDecimal_pos_iff] at nothing
  have feeNonneg := protocolFee_nonneg settings nothing.le
  have feeLe := protocolFee_le settings nothing.le
  have released := settle_eq jobId developerId providerId feeNonneg feeLe
  rw [abs_of_pos nothing] at small
  rw [Gridix.settle, releaseRows, if_neg (not_le.mpr nothing),
    if_neg (not_le.mpr nothing)] at released
  refine ⟨settlePostings developerId providerId cost
    (Gridix.protocolFee cost settings), ?_, released, ?_⟩
  · rw [protocolFee_ok (by rwa [abs_of_pos nothing]) charged]
    apply settleLegs_toDecimal
    rw [abs_lt]
    constructor <;> omega
  · simp only [settlePostings]
    split_ifs <;> simp

theorem accepted_charge {raw : ℚ} (pos : 0 < Gridix.quantizeUsdc raw)
    (small : Gridix.quantizeUsdc raw < 10 ^ 20)
    (charged : quantizeUsdc (share (toDecimal (Gridix.quantizeUsdc raw)) settings) = .ok fee) :
    Transaction.Accepted ⟨chargeLegs developerId providerId
        (toDecimal (Gridix.quantizeUsdc raw)) fee, .inferenceUsage, none,
        none⟩ := by
  have feeNonneg := usageFee_nonneg settings pos.le
  have feeLe := usageFee_le settings pos.le
  refine ⟨chargePostings settings developerId providerId
    (Gridix.quantizeUsdc raw), ?_, postCharge_eq settings developerId providerId pos, ?_⟩
  · rw [usageFee_ok (by rwa [abs_of_pos pos]) charged, chargeLegs,
      sub_toDecimal (by rw [abs_lt]; constructor <;> omega)]
    simp only [toDecimal_pos_iff, chargePostings]
    split_ifs <;> rfl
  · simp only [chargePostings]
    split_ifs <;> simp

end

variable {config : Config} {call : Call} {group : Uuid}

variable {rows : List LedgerEntry}

theorem Call.accepted (admissible : call.Admissible) {transaction : Transaction}
    (posts : call.transaction config rows = .ok (some transaction))
    (below : ∀ leg ∈ transaction.postings, leg.amount < 10 ^ 12) :
    transaction.Accepted := by
  cases call with
  | depositStake =>
    cases posts
    exact accepted_transfer _ _ _ _ _ _ _ admissible.1 admissible.2
  | slashStake providerId amount jobId
  | openDispute _ _ _ =>
    exact accepted_whenPositive
      (admissible.min (accountBalance_hasPlaces _ _ _)) (Except.ok.inj posts)
  | slashOffense _ _ _ =>
    exact accepted_whenPositive ((graduatedSlash_hasPlaces _ _).min
      (accountBalance_hasPlaces _ _ _)) (Except.ok.inj posts)
  | resolveDispute _ amount _ _ =>
    exact accepted_whenPositive amount.value_hasPlaces (Except.ok.inj posts)
  | holdEscrow _ _ _ _ =>
    obtain ⟨_, priced, posted⟩ := bind_eq_ok.mp posts
    rw [computeCost_ok priced] at posted
    exact accepted_whenPositive (toDecimal_hasPlaces _) (Except.ok.inj posted)
  | settle _ _ _ spec durationSeconds escrow =>
    obtain ⟨_, priced, rest⟩ := bind_eq_ok.mp posts
    obtain ⟨_, charged, posted⟩ := bind_eq_ok.mp rest
    have column : escrow.value = toDecimal escrow.ticks := rfl
    rw [computeCost_ok priced, column, toDecimal_min] at charged posted
    refine accepted_settle ?_ charged (Except.ok.inj posted)
    have fits := abs_lt.mp escrow.fits
    have nonneg := computeCost_nonneg spec durationSeconds config.settings
    rw [abs_lt]
    constructor <;> omega
  | refundRemainder _ _ _ _ escrow =>
    obtain ⟨_, priced, posted⟩ := bind_eq_ok.mp posts
    rw [computeCost_ok priced] at posted
    refine accepted_whenPositive ?_ (Except.ok.inj posted)
    apply significant_hasPlaces
    exact escrow.value_hasPlaces.sub ((toDecimal_hasPlaces _).min escrow.value_hasPlaces)
  | chargeData _ _ _ =>
    obtain ⟨_, priced, posted⟩ := bind_eq_ok.mp posts
    rw [dataCost_ok priced] at posted
    exact accepted_whenPositive (toDecimal_hasPlaces _) (Except.ok.inj posted)
  | refundEscrow _ _ escrow =>
    exact accepted_whenPositive escrow.value_hasPlaces (Except.ok.inj posts)
  | reserveBalance _ _ =>
    obtain ⟨_, rounded, rest⟩ := bind_eq_ok.mp posts
    rw [quantizeUsdc_ok rounded] at rest
    dsimp only at rest
    split_ifs at rest with small
    · cases rest
    · cases rest
      exact accepted_transfer _ _ _ _ _ _ _ (toDecimal_hasPlaces _) (not_le.mp small).le
  | returnHold _ _ =>
    obtain ⟨_, rounded, posted⟩ := bind_eq_ok.mp posts
    rw [quantizeUsdc_ok rounded] at posted
    exact accepted_whenPositive (toDecimal_hasPlaces _) (Except.ok.inj posted)
  | chargeUsage _ _ _ =>
    obtain ⟨_, rounded, rest⟩ := bind_eq_ok.mp posts
    rw [quantizeUsdc_ok rounded] at rest
    dsimp only at rest
    split_ifs at rest with nothing
    · cases rest
    · obtain ⟨_, charged, posted⟩ := bind_eq_ok.mp rest
      cases posted
      rw [not_le, toDecimal_pos_iff] at nothing
      refine accepted_charge nothing ?_ charged
      have first := below _ mem_cons_self
      exact lt_of_toDecimal_lt first
  | creditDeposit _ _ =>
    obtain ⟨_, rounded, posted⟩ := bind_eq_ok.mp posts
    rw [quantizeUsdc_ok rounded] at posted
    exact accepted_whenPositive (toDecimal_hasPlaces _) (Except.ok.inj posted)
  | applyEffect eventName developerId units txHash
  | reverseEffect eventName _ units _ =>
    cases eventName with
    | deposited | withdrawn =>
      cases posts
      exact accepted_transfer _ _ _ _ _ _ _ (fromUnits_hasPlaces config.decimalsFit units)
        (fromUnits_nonneg units config.usdcDecimals)
    | debited | settled | slashed => cases posts

def legTotal (direction : LedgerDirection) (legs : List Leg) : ℚ :=
  ((legs.filter fun leg => leg.direction == direction).map Leg.amount).sum

theorem legTotal_legOf (direction : LedgerDirection) (postings : List Posting) :
    legTotal direction (postings.map legOf) = toDecimal (directionTotal direction postings) := by
  rw [legTotal, directionTotal, toDecimal_sum, filter_map, map_map, map_map]
  rfl

theorem Transaction.Accepted.posts {transaction : Transaction} (accepted : transaction.Accepted)
    (below : ∀ leg ∈ transaction.postings, leg.amount < 10 ^ 12) (group : Uuid) :
    ∃ entries, postTransaction group transaction = .ok entries ∧
      entries.map LedgerEntry.leg = transaction.postings ∧
      (∀ leg ∈ transaction.postings, 0 ≤ leg.amount) ∧
      legTotal .debit transaction.postings = legTotal .credit transaction.postings := by
  obtain ⟨_, reason, jobId, txHash⟩ := transaction
  obtain ⟨whole, rfl, taken, few⟩ := accepted
  obtain ⟨_, balanced, nonneg⟩ := postTransaction_ok taken
  have small : ∀ posting ∈ whole, |posting.amount| < 10 ^ 20 := by
    intro posting mem
    rw [abs_of_nonneg (nonneg posting mem)]
    exact lt_of_toDecimal_lt (below _ (mem_map_of_mem mem))
  have stored := postTransaction_refines group reason jobId txHash small
    (lt_of_le_of_lt few (by norm_num))
  rw [taken] at stored
  cases result : postTransaction group ⟨whole.map legOf, reason, jobId, txHash⟩ with
  | error =>
    rw [result] at stored
    cases stored
  | ok entries =>
    rw [result] at stored
    refine ⟨entries, rfl, ?_, ?_, ?_⟩
    · have legs := Except.ok.inj stored
      simpa [Ledger.entries] using legs
    · intro _ mem
      obtain ⟨posting, inside, rfl⟩ := mem_map.mp mem
      have cast : (0 : ℚ) ≤ posting.amount := by exact_mod_cast nonneg posting inside
      exact div_nonneg cast (by norm_num)
    · rw [legTotal_legOf, legTotal_legOf, balanced]

theorem insert_ok {transaction : Transaction} {leg : Leg} {row : LedgerEntry}
    (ok : insert group transaction leg = .ok row) :
    row.entryGroup = group ∧ row.reason = transaction.reason ∧ row.jobId = transaction.jobId ∧
      (Numeric.store 20 8 leg.amount).isSome = true := by
  unfold insert at ok
  split at ok
  · cases ok
  · rename_i stored
    split_ifs at ok
    cases ok
    exact ⟨rfl, rfl, rfl, by rw [stored]; rfl⟩

theorem postTransaction_inserts {transaction : Transaction} {entries : List LedgerEntry}
    (ok : postTransaction group transaction = .ok entries) :
    transaction.postings.mapM (insert group transaction) = .ok entries := by
  unfold postTransaction at ok
  dsimp only at ok
  split_ifs at ok
  exact ok

inductive Failure where
  | raised (error : Raised)
  | posting (error : PostError)
  deriving DecidableEq, Repr

def Call.perform (config : Config) (group : Uuid) (call : Call)
    (rows : List LedgerEntry) : Except Failure (List LedgerEntry) :=
  match call.transaction config rows with
  | .error error => .error (.raised error)
  | .ok none => .ok rows
  | .ok (some transaction) =>
    match postTransaction group transaction with
    | .error error => .error (.posting error)
    | .ok entries => .ok (rows ++ entries)

/-- The committed rows and those of the session. -/
structure Books where
  committed : List LedgerEntry
  working : List LedgerEntry

inductive Action where
  | call (group : Uuid) (call : Call)
  | commit
  | rollback

/-- A call that raises adds no rows; its session may go on or be rolled
back. -/
def step (config : Config) : Action → Books → Books
  | .call group call, books =>
    { books with
      working := transact (call.perform config group) books.working }
  | .commit, books => { books with committed := books.working }
  | .rollback, books => { books with working := books.committed }

/-- Every amount that is posted stays below the limit of the column. -/
def Permitted (config : Config) (books : Books) : Action → Prop
  | .call _ call => call.Admissible ∧ ∀ transaction,
      call.transaction config books.working = .ok (some transaction) →
        ∀ leg ∈ transaction.postings, leg.amount < 10 ^ 12
  | .commit | .rollback => True

def Start (books : Books) : Prop := books.committed = [] ∧ books.working = []

def Reachable (config : Config) (books : Books) : Prop :=
  Reaches (step config) (Permitted config) Start books

structure Intact (rows : List LedgerEntry) : Prop where
  nonneg : ∀ row ∈ rows, 0 ≤ row.amount.value
  balanced : ∀ group, sumRows rows (fun row =>
      row.entryGroup == group && row.direction == .debit) =
    sumRows rows fun row =>
      row.entryGroup == group && row.direction == .credit

theorem sumRows_group {entries : List LedgerEntry} (one : ∀ row ∈ entries, row.entryGroup = group)
    (other : Uuid) (direction : LedgerDirection) :
    sumRows entries (fun row =>
        row.entryGroup == other && row.direction == direction) =
      if group = other then
        legTotal direction (entries.map LedgerEntry.leg)
      else 0 := by
  unfold sumRows
  split_ifs with same
  · subst same
    have own : entries.filter (fun row =>
        row.entryGroup == group && row.direction == direction) =
        entries.filter fun row => row.direction == direction := by
      apply filter_congr
      intro row mem
      rw [one row mem, beq_self_eq_true, Bool.true_and]
    rw [own, legTotal, filter_map, map_map]
    rfl
  · have none : entries.filter (fun row =>
        row.entryGroup == other && row.direction == direction) = [] := by
      rw [filter_eq_nil_iff]
      intro row mem counted
      rw [Bool.and_eq_true, beq_iff_eq, one row mem] at counted
      exact same counted.1
    rw [none]
    rfl

theorem Intact.perform {moved : List LedgerEntry} (intact : Intact rows)
    (admissible : call.Admissible)
    (below : ∀ transaction, call.transaction config rows = .ok (some transaction) →
      ∀ leg ∈ transaction.postings, leg.amount < 10 ^ 12)
    (success : call.perform config group rows = .ok moved) :
    Intact moved := by
  unfold Call.perform at success
  cases posts : call.transaction config rows with
  | error =>
    rw [posts] at success
    cases success
  | ok found =>
    rw [posts] at success
    cases found with
    | none =>
      cases success
      exact intact
    | some transaction =>
      have small := below transaction posts
      obtain ⟨entries, stored, legs, nonneg, balanced⟩ :=
        (call.accepted admissible posts small).posts small group
      dsimp only at success
      rw [stored] at success
      cases success
      have one : ∀ row ∈ entries, row.entryGroup = group := by
        intro _ mem
        obtain ⟨_, _, inserted⟩ := source_of_mapM (postTransaction_inserts stored) mem
        exact (insert_ok inserted).1
      constructor
      · intro row mem
        rcases mem_append.mp mem with old | new
        · exact intact.nonneg row old
        · apply nonneg row.leg
          rw [← legs]
          exact mem_map_of_mem new
      · intro _
        have split (counts : LedgerEntry → Bool) :
            sumRows (rows ++ entries) counts = sumRows rows counts + sumRows entries counts := by
          simp [sumRows]
        rw [split, split, intact.balanced, sumRows_group one, sumRows_group one, legs, balanced]

theorem Intact.verified (intact : Intact rows) : verifyLedgerIntegrity rows = [] := by
  unfold verifyLedgerIntegrity
  rw [filterMap_eq_nil_iff]
  intro group _
  have agreed : sub decimalDigits (sumRows rows fun row =>
      row.entryGroup == group && row.direction == .debit)
      (sumRows rows fun row =>
        row.entryGroup == group && row.direction == .credit) = 0 := by
    rw [intact.balanced group, sub, sub_self, Rounding.significant, if_pos rfl]
  exact if_neg (not_not.mpr agreed)

variable {books : Books}

theorem reachable_intact (reached : Reachable config books) :
    Intact books.committed ∧ Intact books.working := by
  refine @Serial.Reaches.invariant _ _ _ _ _ (fun books =>
    Intact books.committed ∧ Intact books.working) ?_ ?_ _ reached
  · rintro _ ⟨committed, working⟩
    rw [committed, working]
    have none : Intact [] := ⟨fun _ mem => absurd mem not_mem_nil, fun _ => rfl⟩
    exact ⟨none, none⟩
  · rintro state action ⟨committed, working⟩ permitted
    cases action with
    | commit => exact ⟨working, working⟩
    | rollback => exact ⟨committed, committed⟩
    | call group call =>
      refine ⟨committed, ?_⟩
      change Intact (transact (call.perform config group) state.working)
      rcases transact_cases (call.perform config group) state.working with ok | unchanged
      · exact working.perform permitted.1 permitted.2 ok
      · rwa [unchanged]

/-- From any reachable books, every call that posts is taken by the database as
it stands. -/
theorem ledger_integrity {config : Config} {books : Books} (reached : Reachable config books) :
    (∀ group call, Permitted config books (.call group call) → ∀ transaction,
        call.transaction config books.working = .ok (some transaction) →
          ∃ entries, postTransaction group transaction = .ok entries ∧
            entries.map LedgerEntry.leg = transaction.postings) ∧
    (∀ row ∈ books.committed ++ books.working, 0 ≤ row.amount.value) ∧
    verifyLedgerIntegrity books.committed = [] ∧
    verifyLedgerIntegrity books.working = [] := by
  obtain ⟨committed, working⟩ := reachable_intact reached
  refine ⟨?_, ?_, committed.verified, working.verified⟩
  · intro group call permitted transaction posts
    have below := permitted.2 transaction posts
    obtain ⟨entries, stored, legs, _⟩ := (call.accepted permitted.1 posts below).posts below group
    exact ⟨entries, stored, legs⟩
  · intro row member
    rcases mem_append.mp member with kept | open_
    · exact committed.nonneg row kept
    · exact working.nonneg row open_

def bookedConfig : Config := ⟨Settings.default, usdcDecimals, usdcDecimals_fit⟩

def bookings : List Action :=
  [.call 1 (.creditDeposit 2 (1 / 3)), .call 2 (.chargeUsage 2 7 (1 / 50000)), .commit]

def booked : Books := Serial.run (step bookedConfig) bookings ⟨[], []⟩

theorem permitted_call {transaction : Transaction} (admissible : call.Admissible)
    (posts : call.transaction config books.working = .ok (some transaction))
    (below : ∀ leg ∈ transaction.postings, leg.amount < 10 ^ 12) :
    Permitted config books (.call group call) := by
  refine ⟨admissible, ?_⟩
  intro _ same
  rw [posts] at same
  cases same
  exact below

theorem booked_reachable : Reachable bookedConfig booked := by
  refine Reaches.run (.start ⟨rfl, rfl⟩) ⟨?_, ?_, trivial, trivial⟩
  · have posts : (Call.creditDeposit 2 (1 / 3)).transaction bookedConfig [] =
        .ok (some ⟨transferLegs .protocol none .developer (some 2)
          (333333 / 1000000), .deposit, none, none⟩) := by
      decide +kernel
    exact permitted_call trivial posts (by decide +kernel)
  · have posts : (Call.chargeUsage 2 7 (1 / 50000)).transaction bookedConfig
        (step bookedConfig (.call 1 (.creditDeposit 2 (1 / 3))) ⟨[], []⟩).working =
        .ok (some ⟨chargeLegs 2 7 (1 / 50000) (1 / 1000000), .inferenceUsage, none, none⟩) := by
      decide +kernel
    exact permitted_call trivial posts (by decide +kernel)

theorem ledger_integrity_booked : booked.committed.map (fun row => row.amount.ticks) =
        [33333300, 33333300, 2000, 1900, 100] ∧
      verifyLedgerIntegrity booked.committed = [] :=
  ⟨by decide +kernel, (ledger_integrity booked_reachable).2.2.1⟩

end Gridix.Decimals
