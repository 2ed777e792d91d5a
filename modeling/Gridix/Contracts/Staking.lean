import Gridix.Base.Solidity

/-!
# The staking contract

Provider collateral, slashes that are held until they are resolved, and batch
payouts.  A call that reverts leaves the contract and the token as they were.
The token moves exact units and calls nobody back, so the reentrancy guard
never fires and is left out, and so are the events.

`Account` is the type of addresses, and `contract` the address of the contract,
which sends no call to itself.
-/

namespace Gridix.Staking

open Solidity Serial

inductive Role where
  | defaultAdmin
  | coordinator
  | arbiter
  deriving DecidableEq, Repr

structure Unstaking where
  amount : Nat
  unlockAt : Nat
  deriving DecidableEq, Repr

structure Dispute where
  amount : Nat
  evidenceHash : Nat
  isOpen : Bool
  deriving DecidableEq, Repr

inductive Revert (Account : Type) where
  | enforcedPause
  | expectedPause
  | unauthorized (account : Account) (role : Role)
  | badConfirmation
  | zeroAmount
  | zeroAddress
  | insufficientStake (requested available : Nat)
  | cooldownActive (unlockAt : Nat)
  | nothingUnstaking
  | disputeAlreadyOpen
  | noOpenDispute
  | lengthMismatch
  | insufficientSettlementFunds (requested available : Nat)
  | nothingToWithdraw
  | overflow
  | token (error : TokenError)
  deriving DecidableEq, Repr

structure Storage (Account : Type) where
  minStake : Nat
  cooldownPeriod : Nat
  treasury : Account
  settlementPool : Nat
  stakes : Account → Nat
  unstaking : Account → Unstaking
  dispute : Account → Dispute
  earnings : Account → Nat
  roles : Role → Account → Bool
  paused : Bool

structure State (Account : Type) where
  storage : Storage Account
  balances : Account → Nat

/-- What a call finds: its sender, the time of its block, and the sender's
token allowance for the contract. -/
structure Message (Account : Type) where
  sender : Account
  timestamp : Nat
  allowance : Nat

variable {Account : Type} [DecidableEq Account]

def whenNotPaused (storage : Storage Account) : Except (Revert Account) Unit :=
  if storage.paused then .error .enforcedPause else .ok ()

def whenPaused (storage : Storage Account) : Except (Revert Account) Unit :=
  if storage.paused then .ok () else .error .expectedPause

def onlyRole (role : Role) (message : Message Account)
    (storage : Storage Account) : Except (Revert Account) Unit :=
  if storage.roles role message.sender then .ok ()
  else .error (.unauthorized message.sender role)

def nonzero (amount : Nat) : Except (Revert Account) Unit :=
  if amount = 0 then .error .zeroAmount else .ok ()

def pull (contract : Account) (message : Message Account) (amount : Nat)
    (balances : Account → Nat) : Except (Revert Account) (Account → Nat) :=
  (transferFrom message.allowance message.sender contract amount balances).mapError .token

def push (contract target : Account) (amount : Nat)
    (balances : Account → Nat) : Except (Revert Account) (Account → Nat) :=
  (transfer contract target amount balances).mapError .token

section

variable (contract : Account) (message : Message Account)

def stake (amount : Nat) (state : State Account) : Except (Revert Account) (State Account) := do
  whenNotPaused state.storage
  nonzero amount
  let staked ← checkedAdd .overflow (state.storage.stakes message.sender) amount
  let balances ← pull contract message amount state.balances
  .ok { storage := { state.storage with
          stakes := Function.update state.storage.stakes message.sender staked }
        balances := balances }

def unstake (amount : Nat) (state : State Account) : Except (Revert Account) (State Account) := do
  whenNotPaused state.storage
  nonzero amount
  let active := state.storage.stakes message.sender
  if active < amount then .error (.insufficientStake amount active)
  else
    let cooling ← checkedAdd .overflow (state.storage.unstaking message.sender).amount amount
    -- a pending request takes over the unlock time of the new one
    let unlockAt ← checkedAdd .overflow message.timestamp state.storage.cooldownPeriod
    .ok { state with storage := { state.storage with
      stakes := Function.update state.storage.stakes message.sender (active - amount)
      unstaking := Function.update state.storage.unstaking message.sender ⟨cooling, unlockAt⟩ } }

def completeUnstake (state : State Account) : Except (Revert Account) (State Account) := do
  whenNotPaused state.storage
  let pending := state.storage.unstaking message.sender
  if pending.amount = 0 then .error .nothingUnstaking
  else if message.timestamp < pending.unlockAt then
    .error (.cooldownActive pending.unlockAt)
  else
    let balances ← push contract message.sender pending.amount state.balances
    .ok { storage := { state.storage with
            unstaking := Function.update state.storage.unstaking message.sender ⟨0, 0⟩ }
          balances := balances }

def slash (provider : Account) (amount evidenceHash : Nat)
    (state : State Account) : Except (Revert Account) (State Account) := do
  onlyRole .coordinator message state.storage
  nonzero amount
  if (state.storage.dispute provider).isOpen then .error .disputeAlreadyOpen
  else
    let active := state.storage.stakes provider
    let pending := state.storage.unstaking provider
    let slashable ← checkedAdd .overflow active pending.amount
    if slashable < amount then
      .error (.insufficientStake amount slashable)
    else
      let dispute := Function.update state.storage.dispute provider ⟨amount, evidenceHash, true⟩
      -- active stake first, then the cooling bucket
      if amount ≤ active then
        .ok { state with storage := { state.storage with
          stakes := Function.update state.storage.stakes provider (active - amount)
          dispute := dispute } }
      else
        .ok { state with storage := { state.storage with
          stakes := Function.update state.storage.stakes provider 0
          unstaking := Function.update state.storage.unstaking provider
            ⟨pending.amount - (amount - active), pending.unlockAt⟩
          dispute := dispute } }

def resolveDispute (provider : Account) (upheld : Bool)
    (state : State Account) : Except (Revert Account) (State Account) := do
  onlyRole .arbiter message state.storage
  let held := state.storage.dispute provider
  if held.isOpen then
    let dispute := Function.update state.storage.dispute provider { held with isOpen := false }
    if upheld then
      let balances ← push contract state.storage.treasury held.amount state.balances
      .ok { storage := { state.storage with dispute := dispute }
            balances := balances }
    else
      let staked ← checkedAdd .overflow (state.storage.stakes provider) held.amount
      .ok { state with storage := { state.storage with
        stakes := Function.update state.storage.stakes provider staked
        dispute := dispute } }
  else .error .noOpenDispute

def depositSettlement (amount : Nat) (state : State Account) :
    Except (Revert Account) (State Account) := do
  whenNotPaused state.storage
  nonzero amount
  let pool ← checkedAdd .overflow state.storage.settlementPool amount
  let balances ← pull contract message amount state.balances
  .ok { storage := { state.storage with settlementPool := pool }
        balances := balances }

def creditEarnings (earnings : Account → Nat) (payee : Account × Nat) :
    Except (Revert Account) (Account → Nat) := do
  let earned ← checkedAdd .overflow (earnings payee.1) payee.2
  .ok (Function.update earnings payee.1 earned)

def settleBatch (providers : List Account) (amounts : List Nat)
    (state : State Account) : Except (Revert Account) (State Account) := do
  whenNotPaused state.storage
  onlyRole .coordinator message state.storage
  if providers.length ≠ amounts.length then .error .lengthMismatch
  else
    let total ← checkedSum .overflow amounts
    let pool := state.storage.settlementPool
    if pool < total then .error (.insufficientSettlementFunds total pool)
    else
      let earnings ← (providers.zip amounts).foldlM creditEarnings state.storage.earnings
      .ok { state with storage := { state.storage with
        settlementPool := pool - total
        earnings := earnings } }

def withdraw (state : State Account) : Except (Revert Account) (State Account) := do
  whenNotPaused state.storage
  let amount := state.storage.earnings message.sender
  if amount = 0 then .error .nothingToWithdraw
  else
    let balances ← push contract message.sender amount state.balances
    .ok { storage := { state.storage with
            earnings := Function.update state.storage.earnings message.sender 0 }
          balances := balances }

def administer (change : Storage Account → Storage Account)
    (state : State Account) : Except (Revert Account) (State Account) := do
  onlyRole .defaultAdmin message state.storage
  .ok { state with storage := change state.storage }

def setMinStake (minStake : Nat) : State Account → Except (Revert Account) (State Account) :=
  administer message fun storage => { storage with minStake := minStake }

def setCooldownPeriod (cooldownPeriod : Nat) :
    State Account → Except (Revert Account) (State Account) :=
  administer message fun storage =>
    { storage with cooldownPeriod := cooldownPeriod }

/-- Also refuses the zero address, after the role. -/
def setTreasury [Zero Account] (treasury : Account) (state : State Account) :
    Except (Revert Account) (State Account) := do
  onlyRole .defaultAdmin message state.storage
  if treasury = 0 then .error .zeroAddress
  else .ok { state with storage := { state.storage with
    treasury := treasury } }

def pause (state : State Account) : Except (Revert Account) (State Account) := do
  onlyRole .defaultAdmin message state.storage
  whenNotPaused state.storage
  .ok { state with storage := { state.storage with paused := true } }

def unpause (state : State Account) : Except (Revert Account) (State Account) := do
  onlyRole .defaultAdmin message state.storage
  whenPaused state.storage
  .ok { state with storage := { state.storage with paused := false } }

def setRole (role : Role) (account : Account) (granted : Bool)
    (storage : Storage Account) : Storage Account :=
  { storage with
    roles := Function.update storage.roles role
      (Function.update (storage.roles role) account granted) }

def grantRole (role : Role) (account : Account) :
    State Account → Except (Revert Account) (State Account) :=
  administer message (setRole role account true)

def revokeRole (role : Role) (account : Account) :
    State Account → Except (Revert Account) (State Account) :=
  administer message (setRole role account false)

def renounceRole (role : Role) (confirmation : Account)
    (state : State Account) : Except (Revert Account) (State Account) :=
  if confirmation = message.sender then
    .ok { state with
      storage := setRole role confirmation false state.storage }
  else .error .badConfirmation

end

inductive Call (Account : Type) where
  | stake (amount : Nat)
  | unstake (amount : Nat)
  | completeUnstake
  | slash (provider : Account) (amount evidenceHash : Nat)
  | resolveDispute (provider : Account) (upheld : Bool)
  | depositSettlement (amount : Nat)
  | settleBatch (providers : List Account) (amounts : List Nat)
  | withdraw
  | setMinStake (minStake : Nat)
  | setCooldownPeriod (cooldownPeriod : Nat)
  | setTreasury (treasury : Account)
  | pause
  | unpause
  | grantRole (role : Role) (account : Account)
  | revokeRole (role : Role) (account : Account)
  | renounceRole (role : Role) (confirmation : Account)

def execute [Zero Account] (contract : Account) (message : Message Account) :
    Call Account → State Account → Except (Revert Account) (State Account)
  | .stake amount => stake contract message amount
  | .unstake amount => unstake message amount
  | .completeUnstake => completeUnstake contract message
  | .slash provider amount evidenceHash =>
    slash message provider amount evidenceHash
  | .resolveDispute provider upheld =>
    resolveDispute contract message provider upheld
  | .depositSettlement amount => depositSettlement contract message amount
  | .settleBatch providers amounts => settleBatch message providers amounts
  | .withdraw => withdraw contract message
  | .setMinStake minStake => setMinStake message minStake
  | .setCooldownPeriod cooldownPeriod =>
    setCooldownPeriod message cooldownPeriod
  | .setTreasury treasury => setTreasury message treasury
  | .pause => pause message
  | .unpause => unpause message
  | .grantRole role account => grantRole message role account
  | .revokeRole role account => revokeRole message role account
  | .renounceRole role confirmation =>
    renounceRole message role confirmation

structure Deployment (Account : Type) [Zero Account] where
  admin : Account
  coordinator : Account
  arbiter : Account
  treasury : Account
  minStake : Nat
  cooldownPeriod : Nat
  adminNonzero : admin ≠ 0
  coordinatorNonzero : coordinator ≠ 0
  arbiterNonzero : arbiter ≠ 0
  treasuryNonzero : treasury ≠ 0

def Deployment.storage [Zero Account] (deployment : Deployment Account) : Storage Account where
  minStake := deployment.minStake
  cooldownPeriod := deployment.cooldownPeriod
  treasury := deployment.treasury
  settlementPool := 0
  stakes := fun _ => 0
  unstaking := fun _ => ⟨0, 0⟩
  dispute := fun _ => ⟨0, 0, false⟩
  earnings := fun _ => 0
  roles := fun
    | .defaultAdmin => fun account => account == deployment.admin
    | .coordinator => fun account => account == deployment.coordinator
    | .arbiter => fun account => account == deployment.arbiter
  paused := false

structure SameBuckets (before after : Storage Account) : Prop where
  stakes : after.stakes = before.stakes
  unstaking : after.unstaking = before.unstaking
  dispute : after.dispute = before.dispute
  earnings : after.earnings = before.earnings
  settlementPool : after.settlementPool = before.settlementPool

def Call.administers : Call Account → Bool
  | .setMinStake _ => true
  | .setCooldownPeriod _ => true
  | .setTreasury _ => true
  | .pause => true
  | .unpause => true
  | .grantRole _ _ => true
  | .revokeRole _ _ => true
  | .renounceRole _ _ => true
  | _ => false

inductive Effect (contract : Account) (message : Message Account)
    (state : State Account) : Call Account → State Account → Prop where
  | staked {amount : Nat} {balances : Account → Nat} :
      transferFrom message.allowance message.sender contract amount state.balances = .ok balances →
      Effect contract message state (.stake amount)
        { storage := { state.storage with
            stakes := Function.update state.storage.stakes message.sender
              (state.storage.stakes message.sender + amount) }
          balances := balances }
  | unstaked {amount : Nat} : amount ≤ state.storage.stakes message.sender →
      Effect contract message state (.unstake amount)
        { state with storage := { state.storage with
          stakes := Function.update state.storage.stakes message.sender
            (state.storage.stakes message.sender - amount)
          unstaking := Function.update state.storage.unstaking message.sender
            ⟨(state.storage.unstaking message.sender).amount + amount,
              message.timestamp + state.storage.cooldownPeriod⟩ } }
  | completed {balances : Account → Nat} : (state.storage.unstaking message.sender).unlockAt ≤
        message.timestamp →
      transfer contract message.sender
        (state.storage.unstaking message.sender).amount state.balances = .ok balances →
      Effect contract message state .completeUnstake
        { storage := { state.storage with
            unstaking := Function.update state.storage.unstaking message.sender ⟨0, 0⟩ }
          balances := balances }
  | slashedActive {provider : Account} {amount evidenceHash : Nat} :
      (state.storage.dispute provider).isOpen = false →
      amount ≤ state.storage.stakes provider →
      Effect contract message state (.slash provider amount evidenceHash)
        { state with storage := { state.storage with
          stakes := Function.update state.storage.stakes provider
            (state.storage.stakes provider - amount)
          dispute := Function.update state.storage.dispute provider ⟨amount, evidenceHash, true⟩ } }
  | slashedCooling {provider : Account} {amount evidenceHash : Nat} :
      (state.storage.dispute provider).isOpen = false →
      state.storage.stakes provider < amount →
      amount ≤ state.storage.stakes provider + (state.storage.unstaking provider).amount →
      Effect contract message state (.slash provider amount evidenceHash)
        { state with storage := { state.storage with
          stakes := Function.update state.storage.stakes provider 0
          unstaking := Function.update state.storage.unstaking provider
            ⟨(state.storage.unstaking provider).amount - (amount - state.storage.stakes provider),
              (state.storage.unstaking provider).unlockAt⟩
          dispute := Function.update state.storage.dispute provider ⟨amount, evidenceHash, true⟩ } }
  | upheld {provider : Account} {balances : Account → Nat} :
      (state.storage.dispute provider).isOpen = true →
      transfer contract state.storage.treasury
        (state.storage.dispute provider).amount state.balances = .ok balances →
      Effect contract message state (.resolveDispute provider true)
        { storage := { state.storage with
            dispute := Function.update state.storage.dispute provider
              { state.storage.dispute provider with isOpen := false } }
          balances := balances }
  | overturned {provider : Account} : (state.storage.dispute provider).isOpen = true →
      Effect contract message state (.resolveDispute provider false)
        { state with storage := { state.storage with
          stakes := Function.update state.storage.stakes provider (state.storage.stakes provider +
              (state.storage.dispute provider).amount)
          dispute := Function.update state.storage.dispute provider
            { state.storage.dispute provider with isOpen := false } } }
  | funded {amount : Nat} {balances : Account → Nat} :
      transferFrom message.allowance message.sender contract amount state.balances = .ok balances →
      Effect contract message state (.depositSettlement amount)
        { storage := { state.storage with
            settlementPool := state.storage.settlementPool + amount }
          balances := balances }
  | settled {providers : List Account} {amounts : List Nat} {earnings : Account → Nat} :
      (providers.zip amounts).foldlM creditEarnings state.storage.earnings = .ok earnings →
      providers.length = amounts.length →
      amounts.sum ≤ state.storage.settlementPool →
      Effect contract message state (.settleBatch providers amounts)
        { state with storage := { state.storage with
          settlementPool := state.storage.settlementPool - amounts.sum
          earnings := earnings } }
  | withdrawn {balances : Account → Nat} :
      transfer contract message.sender (state.storage.earnings message.sender)
        state.balances = .ok balances →
      Effect contract message state .withdraw
        { storage := { state.storage with
            earnings := Function.update state.storage.earnings message.sender 0 }
          balances := balances }
  | administered {call : Call Account} {storage : Storage Account} : call.administers = true →
      SameBuckets state.storage storage →
      (storage.treasury = state.storage.treasury ∨ call = .setTreasury storage.treasury) →
      Effect contract message state call { state with storage := storage }

section

variable {contract : Account} {message : Message Account} {call : Call Account}
  {state moved : State Account} {amount : Nat} {balances : Account → Nat} {provider : Account}

theorem pull_ok {pulled : Account → Nat}
    (success : pull contract message amount balances = .ok pulled) :
    transferFrom message.allowance message.sender contract amount balances = .ok pulled :=
  mapError_ok success

theorem push_ok {target : Account} {pushed : Account → Nat}
    (success : push contract target amount balances = .ok pushed) :
    transfer contract target amount balances = .ok pushed :=
  mapError_ok success

theorem effect_completeUnstake (ok : completeUnstake contract message state = .ok moved) :
    Effect contract message state .completeUnstake moved := by
  obtain ⟨_, _, ok⟩ := bind_eq_ok.mp ok
  dsimp only at ok
  split_ifs at ok with nothing early
  obtain ⟨_, pushed, ok⟩ := bind_eq_ok.mp ok
  cases ok
  exact .completed (Nat.not_lt.mp early) (push_ok pushed)

theorem effect_settleBatch {providers : List Account} {amounts : List Nat}
    (ok : settleBatch message providers amounts state = .ok moved) :
    Effect contract message state (.settleBatch providers amounts) moved := by
  obtain ⟨_, _, ok⟩ := bind_eq_ok.mp ok
  obtain ⟨_, _, ok⟩ := bind_eq_ok.mp ok
  split_ifs at ok with mismatch
  obtain ⟨_, added, ok⟩ := bind_eq_ok.mp ok
  dsimp only at ok
  split_ifs at ok with short
  obtain ⟨_, credited, ok⟩ := bind_eq_ok.mp ok
  cases ok
  rw [checkedSum_ok added] at short ⊢
  exact .settled credited (not_not.mp mismatch) (Nat.not_lt.mp short)

theorem effect_withdraw (ok : withdraw contract message state = .ok moved) :
    Effect contract message state .withdraw moved := by
  obtain ⟨_, _, ok⟩ := bind_eq_ok.mp ok
  dsimp only at ok
  split_ifs at ok
  obtain ⟨_, pushed, ok⟩ := bind_eq_ok.mp ok
  cases ok
  exact .withdrawn (push_ok pushed)

theorem effect_administer {change : Storage Account → Storage Account}
    (administers : call.administers = true) (ok : administer message change state = .ok moved)
    (buckets : ∀ storage, SameBuckets storage (change storage))
    (treasury : ∀ storage, (change storage).treasury = storage.treasury) :
    Effect contract message state call moved := by
  obtain ⟨_, _, ok⟩ := bind_eq_ok.mp ok
  cases ok
  exact .administered administers (buckets _) (.inl (treasury _))

theorem execute_effect [Zero Account] (ok : execute contract message call state = .ok moved) :
    Effect contract message state call moved := by
  cases call with
  | stake =>
    obtain ⟨_, _, ok⟩ := bind_eq_ok.mp ok
    obtain ⟨_, _, ok⟩ := bind_eq_ok.mp ok
    obtain ⟨_, added, ok⟩ := bind_eq_ok.mp ok
    obtain ⟨_, pulled, ok⟩ := bind_eq_ok.mp ok
    cases ok
    rw [checkedAdd_ok added]
    exact .staked (pull_ok pulled)
  | unstake =>
    obtain ⟨_, _, ok⟩ := bind_eq_ok.mp ok
    obtain ⟨_, _, ok⟩ := bind_eq_ok.mp ok
    dsimp only at ok
    split_ifs at ok with short
    obtain ⟨_, added, ok⟩ := bind_eq_ok.mp ok
    obtain ⟨_, timed, ok⟩ := bind_eq_ok.mp ok
    cases ok
    rw [checkedAdd_ok added, checkedAdd_ok timed]
    exact .unstaked (Nat.not_lt.mp short)
  | completeUnstake => exact effect_completeUnstake ok
  | slash =>
    obtain ⟨_, _, ok⟩ := bind_eq_ok.mp ok
    obtain ⟨_, _, ok⟩ := bind_eq_ok.mp ok
    split_ifs at ok with disputed
    rw [Bool.not_eq_true] at disputed
    obtain ⟨_, added, ok⟩ := bind_eq_ok.mp ok
    have sum := checkedAdd_ok added
    split_ifs at ok with short active
    · cases ok
      exact .slashedActive disputed active
    · cases ok
      rw [sum] at short
      exact .slashedCooling disputed (Nat.not_le.mp active) (Nat.not_lt.mp short)
  | resolveDispute =>
    obtain ⟨_, _, ok⟩ := bind_eq_ok.mp ok
    dsimp only at ok
    split_ifs at ok with disputed isUpheld
    · obtain ⟨_, pushed, ok⟩ := bind_eq_ok.mp ok
      cases ok
      rw [isUpheld]
      exact .upheld disputed (push_ok pushed)
    · obtain ⟨_, added, ok⟩ := bind_eq_ok.mp ok
      cases ok
      rw [Bool.not_eq_true] at isUpheld
      rw [isUpheld, checkedAdd_ok added]
      exact .overturned disputed
  | depositSettlement =>
    obtain ⟨_, _, ok⟩ := bind_eq_ok.mp ok
    obtain ⟨_, _, ok⟩ := bind_eq_ok.mp ok
    obtain ⟨_, added, ok⟩ := bind_eq_ok.mp ok
    obtain ⟨_, pulled, ok⟩ := bind_eq_ok.mp ok
    cases ok
    rw [checkedAdd_ok added]
    exact .funded (pull_ok pulled)
  | settleBatch => exact effect_settleBatch ok
  | withdraw => exact effect_withdraw ok
  | setMinStake =>
    simp only [execute] at ok
    exact effect_administer rfl ok (fun _ => ⟨rfl, rfl, rfl, rfl, rfl⟩) (fun _ => rfl)
  | setCooldownPeriod =>
    simp only [execute] at ok
    exact effect_administer rfl ok (fun _ => ⟨rfl, rfl, rfl, rfl, rfl⟩) (fun _ => rfl)
  | setTreasury =>
    obtain ⟨_, _, ok⟩ := bind_eq_ok.mp ok
    split_ifs at ok
    cases ok
    exact .administered rfl ⟨rfl, rfl, rfl, rfl, rfl⟩ (.inr rfl)
  | pause | unpause =>
    obtain ⟨_, _, ok⟩ := bind_eq_ok.mp ok
    obtain ⟨_, _, ok⟩ := bind_eq_ok.mp ok
    cases ok
    exact .administered rfl ⟨rfl, rfl, rfl, rfl, rfl⟩ (.inl rfl)
  | grantRole | revokeRole =>
    exact effect_administer rfl ok (fun _ => ⟨rfl, rfl, rfl, rfl, rfl⟩) (fun _ => rfl)
  | renounceRole =>
    simp only [execute, renounceRole] at ok
    split_ifs at ok
    cases ok
    exact .administered rfl ⟨rfl, rfl, rfl, rfl, rfl⟩ (.inl rfl)

end

end Gridix.Staking
