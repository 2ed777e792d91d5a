import Gridix.Contracts.Staking
import Mathlib.Data.ZMod.Defs

/-!
# Solvency of the staking contract

The contract's token balance is what it owes: the sum over all accounts of
active stake, cooling stake, stake held in an open dispute and earnings, and
the settlement pool.
-/

namespace Gridix.Staking

open Solidity List Serial

variable {Account : Type} [DecidableEq Account]

def Dispute.held (dispute : Dispute) : Nat :=
  if dispute.isOpen then dispute.amount else 0

/-- What the contract owes an account: its stake, what it is unstaking, what
is disputed, and its earnings. -/
def Storage.owed (storage : Storage Account) (account : Account) : Nat :=
  storage.stakes account + (storage.unstaking account).amount +
    (storage.dispute account).held + storage.earnings account

/-- What the contract owes. -/
def Storage.liabilities [Fintype Account] (storage : Storage Account) : Nat :=
  total storage.owed + storage.settlementPool

inductive Input (Account : Type) where
  | call (message : Message Account) (call : Call Account)
  | tokens (balances : Account → Nat)

def next [Zero Account] (contract : Account) : Input Account → State Account → State Account
  | .call message call => transact (execute contract message call)
  | .tokens balances => fun state => { state with balances := balances }

/-- The contract does not call itself and is not its own treasury, and nobody
else moves its tokens or sends it any. -/
def Permitted (contract : Account) (state : State Account) : Input Account → Prop
  | .call message call => message.sender ≠ contract ∧
      ∀ treasury, call = .setTreasury treasury → treasury ≠ contract
  | .tokens balances => balances contract = state.balances contract

/-- The state behind the constructor, before the contract holds any token. -/
def Deployed [Zero Account] (contract : Account) (state : State Account) : Prop :=
  ∃ deployment : Deployment Account, state.storage = deployment.storage ∧
    deployment.treasury ≠ contract ∧ state.balances contract = 0

structure Solvent [Fintype Account] (contract : Account) (state : State Account) : Prop where
  balance : state.balances contract = state.storage.liabilities
  treasury : state.storage.treasury ≠ contract

section

variable [Fintype Account] {before after : Storage Account}

omit [DecidableEq Account] in
theorem liabilities_of_sameBuckets (same : SameBuckets before after) :
    after.liabilities = before.liabilities := by
  have owed : after.owed = before.owed := by
    funext account
    rw [Storage.owed, same.stakes, same.unstaking, same.dispute, same.earnings, Storage.owed]
  rw [Storage.liabilities, owed, same.settlementPool, Storage.liabilities]

theorem liabilities_of_owed {account : Account}
    (same : ∀ other, other ≠ account → after.owed other = before.owed other)
    (pool : after.settlementPool = before.settlementPool) :
    after.liabilities + before.owed account = before.liabilities + after.owed account := by
  have moved := total_of_eq_elsewhere same
  simp only [Storage.liabilities]
  omega

end

theorem creditEarnings_total [Fintype Account]
    {payees : List (Account × Nat)} {earnings credited : Account → Nat}
    (ok : payees.foldlM creditEarnings earnings = .ok credited) :
    total credited = total earnings + (payees.map Prod.snd).sum := by
  induction payees generalizing earnings with
  | nil =>
    cases ok
    rfl
  | cons payee _ ih =>
    rw [foldlM_cons, bind_eq_ok] at ok
    obtain ⟨_, head, tail⟩ := ok
    obtain ⟨earned, added, head⟩ := bind_eq_ok.mp head
    cases head
    have step := total_update earnings payee.1 earned
    have sum := checkedAdd_ok added
    rw [ih tail, map_cons, sum_cons]
    omega

omit [DecidableEq Account] in
theorem liabilities_of_earnings [Fintype Account] {before after : Storage Account}
    (stakes : after.stakes = before.stakes) (unstaking : after.unstaking = before.unstaking)
    (dispute : after.dispute = before.dispute) :
    after.liabilities + total before.earnings + before.settlementPool =
      before.liabilities + total after.earnings + after.settlementPool := by
  have split (storage : Storage Account) : total storage.owed =
      total (fun account => storage.stakes account + (storage.unstaking account).amount +
          (storage.dispute account).held) + total storage.earnings :=
    total_add _ _
  simp only [Storage.liabilities, split, stakes, unstaking, dispute]
  omega

section

variable [Fintype Account] {contract : Account} {message : Message Account}
  {call : Call Account} {state moved : State Account}

theorem Solvent.of_owed (solvent : Solvent contract state) (account : Account)
    (same : ∀ other, other ≠ account → moved.storage.owed other = state.storage.owed other)
    (pool : moved.storage.settlementPool = state.storage.settlementPool)
    (treasury : moved.storage.treasury = state.storage.treasury)
    (units : moved.balances contract + state.storage.owed account =
      state.balances contract + moved.storage.owed account) :
    Solvent contract moved where
  balance := by
    have changed := liabilities_of_owed same pool
    have before := solvent.balance
    omega
  treasury := treasury ▸ solvent.treasury

theorem Solvent.effect (solvent : Solvent contract state) (sender : message.sender ≠ contract)
    (treasury : ∀ treasury, call = .setTreasury treasury → treasury ≠ contract)
    (effect : Effect contract message state call moved) :
    Solvent contract moved := by
  cases effect with
  | staked pulled =>
    have received := transferFrom_target sender pulled
    refine solvent.of_owed message.sender ?_ rfl rfl ?_
    · intro _ ne
      simp [Storage.owed, ne]
    · simp only [Storage.owed, Function.update_self]
      omega
  | unstaked =>
    refine solvent.of_owed message.sender ?_ rfl rfl ?_
    · intro _ ne
      simp [Storage.owed, ne]
    · simp only [Storage.owed, Function.update_self]
      omega
  | completed _ pushed | withdrawn pushed =>
    have sent := transfer_source sender.symm pushed
    refine solvent.of_owed message.sender ?_ rfl rfl ?_
    · intro _ ne
      simp [Storage.owed, ne]
    · simp only [Storage.owed, Function.update_self]
      omega
  | slashedActive closed enough | slashedCooling closed more enough =>
    rename_i provider _ _
    refine solvent.of_owed provider ?_ rfl rfl ?_
    · intro _ ne
      simp [Storage.owed, ne]
    · simp only [Storage.owed, Function.update_self, Dispute.held, closed,
        if_true, Bool.false_eq_true, if_false]
      omega
  | upheld disputed pushed =>
    rename_i provider _
    have sent := transfer_source solvent.treasury.symm pushed
    refine solvent.of_owed provider ?_ rfl rfl ?_
    · intro _ ne
      simp [Storage.owed, ne]
    · simp only [Storage.owed, Function.update_self, Dispute.held,
        disputed, if_true, Bool.false_eq_true, if_false]
      omega
  | overturned disputed =>
    rename_i provider
    refine solvent.of_owed provider ?_ rfl rfl ?_
    · intro _ ne
      simp [Storage.owed, ne]
    · simp only [Storage.owed, Function.update_self, Dispute.held,
        disputed, if_true, Bool.false_eq_true, if_false]
      omega
  | funded pulled =>
    have received := transferFrom_target sender pulled
    have before := solvent.balance
    refine ⟨?_, solvent.treasury⟩
    simp only [Storage.liabilities] at before ⊢
    change _ = total state.storage.owed + _
    omega
  | settled credited lengths enough =>
    rename_i amounts earnings
    have paid := creditEarnings_total credited
    rw [map_snd_zip (Nat.le_of_eq lengths.symm)] at paid
    have changed := @liabilities_of_earnings Account _ state.storage
      { state.storage with
        settlementPool := state.storage.settlementPool - amounts.sum
        earnings := earnings } rfl rfl rfl
    have before := solvent.balance
    refine ⟨?_, solvent.treasury⟩
    dsimp only at changed ⊢
    omega
  | administered _ same kept =>
    refine ⟨?_, ?_⟩
    · rw [liabilities_of_sameBuckets same]
      exact solvent.balance
    · rcases kept with before | set
      · exact before ▸ solvent.treasury
      · exact treasury _ set

end

section

variable [Fintype Account] [Zero Account] {contract : Account}
  {state : State Account}

theorem Solvent.deployed (deployed : Deployed contract state) : Solvent contract state := by
  obtain ⟨_, storage, notSelf, empty⟩ := deployed
  constructor
  · rw [empty, storage]
    exact total_zero.symm
  · rw [storage]
    exact notSelf

theorem Solvent.next (solvent : Solvent contract state)
    {input : Input Account} (permitted : Permitted contract state input) :
    Solvent contract (next contract input state) := by
  cases input with
  | tokens => exact ⟨Eq.trans permitted solvent.balance, solvent.treasury⟩
  | call message call =>
    rcases transact_cases (execute contract message call) state with ok | unchanged
    · exact solvent.effect permitted.1 permitted.2 (execute_effect ok)
    · rw [Staking.next, unchanged]
      exact solvent

theorem solvent_of_reaches (reached : Reaches (next contract) (Permitted contract)
      (Deployed contract) state) : Solvent contract state := by
  induction reached with
  | start deployed => exact .deployed deployed
  | step _ _ permitted solvent => exact solvent.next permitted

omit [DecidableEq Account] [Zero Account] in
theorem Solvent.covers (solvent : Solvent contract state) (account : Account) :
    state.storage.owed account ≤ state.balances contract := by
  rw [solvent.balance]
  exact (le_total state.storage.owed account).trans (Nat.le_add_right _ _)

end

section

variable {contract : Account} {message : Message Account}
  {state : State Account} {error : TokenError}

omit [DecidableEq Account] in
theorem whenNotPaused_token (storage : Storage Account) :
    whenNotPaused storage ≠ .error (.token error) := by
  unfold whenNotPaused
  split_ifs <;> nofun

omit [DecidableEq Account] in
theorem onlyRole_token (role : Role) (message : Message Account) (storage : Storage Account) :
    onlyRole role message storage ≠ .error (.token error) := by
  unfold onlyRole
  split_ifs <;> nofun

theorem push_covered {target : Account} {amount : Nat}
    {balances : Account → Nat} (covered : amount ≤ balances contract) :
    push contract target amount balances ≠ .error (.token error) := by
  obtain ⟨_, sent⟩ := transfer_total target covered
  rw [push, sent]
  nofun

theorem completeUnstake_covered (covered : (state.storage.unstaking message.sender).amount ≤
      state.balances contract) :
    completeUnstake contract message state ≠ .error (.token error) := by
  intro failed
  rcases bind_eq_error.mp failed with paused | ⟨_, _, failed⟩
  · exact whenNotPaused_token _ paused
  · dsimp only at failed
    split_ifs at failed
    · cases failed
    · cases failed
    · rcases bind_eq_error.mp failed with unpaid | ⟨_, _, failed⟩
      · exact push_covered covered unpaid
      · cases failed

theorem withdraw_covered (covered : state.storage.earnings message.sender ≤
      state.balances contract) :
    withdraw contract message state ≠ .error (.token error) := by
  intro failed
  rcases bind_eq_error.mp failed with paused | ⟨_, _, failed⟩
  · exact whenNotPaused_token _ paused
  · dsimp only at failed
    split_ifs at failed
    · cases failed
    · rcases bind_eq_error.mp failed with unpaid | ⟨_, _, failed⟩
      · exact push_covered covered unpaid
      · cases failed

theorem resolveDispute_covered {provider : Account}
    (covered : (state.storage.dispute provider).held ≤ state.balances contract) :
    resolveDispute contract message provider true state ≠ .error (.token error) := by
  intro failed
  rcases bind_eq_error.mp failed with refused | ⟨_, _, failed⟩
  · exact onlyRole_token _ _ _ refused
  · simp only [if_true] at failed
    split_ifs at failed with disputed
    · rw [Dispute.held, if_pos disputed] at covered
      rcases bind_eq_error.mp failed with unpaid | ⟨_, _, failed⟩
      · exact push_covered covered unpaid
      · cases failed
    · cases failed

end

/-- The contract holds exactly what it owes, so a payout never fails for want
of tokens. -/
theorem staking_solvent [Fintype Account] [Zero Account] {contract : Account}
    {state : State Account}
    (reached : Reaches (next contract) (Permitted contract) (Deployed contract) state) :
    state.balances contract = state.storage.liabilities ∧
      (∀ message error, completeUnstake contract message state ≠ .error (.token error)) ∧
      (∀ message error, withdraw contract message state ≠ .error (.token error)) ∧
      (∀ message provider error, resolveDispute contract message provider true state ≠
          .error (.token error)) := by
  have solvent := solvent_of_reaches reached
  refine ⟨solvent.balance, ?_, ?_, ?_⟩
  · intro message _
    apply completeUnstake_covered
    have covered := solvent.covers message.sender
    unfold Storage.owed at covered
    omega
  · intro message _
    apply withdraw_covered
    have covered := solvent.covers message.sender
    unfold Storage.owed at covered
    omega
  · intro _ provider _
    apply resolveDispute_covered
    have covered := solvent.covers provider
    unfold Storage.owed at covered
    omega

instance neZeroEight : NeZero 8 := ⟨by decide⟩

/-- Contract 1, administrator 2, coordinator 3, arbiter 4, treasury 5 and
provider 6. -/
def exampleDeployment (cooldownPeriod : Nat) : Deployment (Fin 8) where
  admin := 2
  coordinator := 3
  arbiter := 4
  treasury := 5
  minStake := 10
  cooldownPeriod := cooldownPeriod
  adminNonzero := by decide
  coordinatorNonzero := by decide
  arbiterNonzero := by decide
  treasuryNonzero := by decide

def deployed (cooldownPeriod : Nat) : State (Fin 8) where
  storage := (exampleDeployment cooldownPeriod).storage
  balances := fun account => if account = 1 then 0 else 100

def send (sender : Fin 8) (timestamp : Nat) (call : Call (Fin 8)) : Input (Fin 8) :=
  .call ⟨sender, timestamp, 100⟩ call

/-- A slash reaches into the cooling bucket and is upheld, the rest of it is
claimed, and a batch names its payee twice. -/
def payouts : List (Input (Fin 8)) := [send 6 0 (.stake 60), send 6 1 (.unstake 30),
   send 3 2 (.slash 6 40 7), send 4 3 (.resolveDispute 6 true),
   send 6 11 .completeUnstake, send 2 12 (.depositSettlement 50),
   send 3 13 (.settleBatch [6, 6] [5, 7]), send 6 14 .withdraw,
   send 6 15 (.stake 9)]

theorem staking_solvent_payouts : (Serial.run (next 1) payouts (deployed 10)).balances 1 = 47 ∧
      (Serial.run (next 1) payouts (deployed 10)).storage.liabilities = 47 := by
  have balance : (Serial.run (next 1) payouts (deployed 10)).balances 1 = 47 := by decide +kernel
  refine ⟨balance, balance ▸ (@staking_solvent (Fin 8) _ _ _ 1 _
    (Reaches.run (.start ?_) ?_)).1.symm⟩
  · exact ⟨exampleDeployment 10, rfl, by decide, rfl⟩
  · apply allPermitted_of_forall
    intro _ member _
    simp only [payouts, mem_cons, not_mem_nil, or_false] at member
    rcases member with rfl | rfl | rfl | rfl | rfl | rfl | rfl | rfl | rfl
    all_goals exact ⟨by decide, nofun⟩

end Gridix.Staking
