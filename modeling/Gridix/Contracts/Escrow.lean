import Gridix.Contracts.Solvency

/-!
# The escrow contract

Developers' deposits, their withdrawals and the coordinator's debits, with the
events that the watcher reads.  As for the staking contract, the token moves
exact units and calls nobody back, so the reentrancy guard never fires.
-/

namespace Gridix.Escrow

open Solidity Serial List

inductive Role where
  | defaultAdmin
  | coordinator
  deriving DecidableEq, Repr

inductive Revert (Account : Type) where
  | enforcedPause
  | expectedPause
  | unauthorized (account : Account) (role : Role)
  | badConfirmation
  | zeroAmount
  | zeroAddress
  | insufficientBalance (requested available : Nat)
  | overflow
  | token (error : TokenError)
  deriving DecidableEq, Repr

inductive Event (Account : Type) where
  | deposited (developer : Account) (amount : Nat)
  | withdrawn (developer : Account) (amount : Nat)
  | debited (developer : Account) (amount : Nat) (recipient : Account)
  | treasuryUpdated (treasury : Account)
  deriving DecidableEq, Repr

/-- The contract's storage, the token's balances and the events so far. -/
structure State (Account : Type) where
  treasury : Account
  balances : Account → Nat
  roles : Role → Account → Bool
  paused : Bool
  tokens : Account → Nat
  events : List (Event Account)

abbrev Outcome (Account : Type) : Type → Type := Except (Revert Account)

structure Message (Account : Type) where
  sender : Account
  allowance : Nat

variable {Account : Type} [DecidableEq Account]

def deploy [Zero Account] (admin coordinator treasury : Account) (tokens : Account → Nat) :
    Outcome Account (State Account) :=
  if admin = 0 ∨ coordinator = 0 ∨ treasury = 0 then .error .zeroAddress
  else .ok
    { treasury := treasury
      balances := fun _ => 0
      roles := fun
        | .defaultAdmin => (· == admin)
        | .coordinator => (· == coordinator)
      paused := false
      tokens := tokens
      events := [] }

def nonzero (amount : Nat) : Outcome Account Unit :=
  if amount = 0 then .error .zeroAmount else .ok ()

section

variable (contract : Account) (message : Message Account) (state : State Account)

def whenNotPaused : Outcome Account Unit :=
  if state.paused then .error .enforcedPause else .ok ()

def onlyRole (role : Role) : Outcome Account Unit :=
  if state.roles role message.sender then .ok ()
  else .error (.unauthorized message.sender role)

def deposit (amount : Nat) : Outcome Account (State Account) := do
  whenNotPaused state
  nonzero amount
  let credited ← checkedAdd .overflow (state.balances message.sender) amount
  let tokens ← (transferFrom message.allowance message.sender contract amount
    state.tokens).mapError .token
  .ok { state with
    balances := Function.update state.balances message.sender credited
    tokens := tokens
    events := state.events ++ [.deposited message.sender amount] }

/-- What `withdraw` and `debit` do after their modifiers. -/
def release (developer recipient : Account) (amount : Nat) (event : Event Account) :
    Outcome Account (State Account) := do
  nonzero amount
  let bal := state.balances developer
  if bal < amount then .error (.insufficientBalance amount bal)
  else
    let tokens ← (transfer contract recipient amount state.tokens).mapError .token
    .ok { state with
      balances := Function.update state.balances developer (bal - amount)
      tokens := tokens
      events := state.events ++ [event] }

def withdraw (amount : Nat) : Outcome Account (State Account) := do
  whenNotPaused state
  release contract state message.sender message.sender amount (.withdrawn message.sender amount)

def debit (developer : Account) (amount : Nat) : Outcome Account (State Account) := do
  whenNotPaused state
  onlyRole message state .coordinator
  release contract state developer state.treasury amount
    (.debited developer amount state.treasury)

def setTreasury [Zero Account] (treasury : Account) : Outcome Account (State Account) := do
  onlyRole message state .defaultAdmin
  if treasury = 0 then .error .zeroAddress
  else .ok { state with
    treasury := treasury
    events := state.events ++ [.treasuryUpdated treasury] }

def pause : Outcome Account (State Account) := do
  onlyRole message state .defaultAdmin
  whenNotPaused state
  .ok { state with paused := true }

def unpause : Outcome Account (State Account) := do
  onlyRole message state .defaultAdmin
  if state.paused then .ok { state with paused := false } else .error .expectedPause

def setRole (role : Role) (account : Account) (granted : Bool) : State Account :=
  { state with
    roles := Function.update state.roles role
      (Function.update (state.roles role) account granted) }

def grantRole (role : Role) (account : Account) : Outcome Account (State Account) := do
  onlyRole message state .defaultAdmin
  .ok (setRole state role account true)

def revokeRole (role : Role) (account : Account) : Outcome Account (State Account) := do
  onlyRole message state .defaultAdmin
  .ok (setRole state role account false)

def renounceRole (role : Role) (confirmation : Account) : Outcome Account (State Account) :=
  if confirmation = message.sender then .ok (setRole state role confirmation false)
  else .error .badConfirmation

end

inductive Call (Account : Type) where
  | deposit (amount : Nat)
  | withdraw (amount : Nat)
  | debit (developer : Account) (amount : Nat)
  | setTreasury (treasury : Account)
  | pause
  | unpause
  | grantRole (role : Role) (account : Account)
  | revokeRole (role : Role) (account : Account)
  | renounceRole (role : Role) (confirmation : Account)

def execute [Zero Account] (contract : Account) (message : Message Account)
    (state : State Account) : Call Account → Outcome Account (State Account)
  | .deposit amount => deposit contract message state amount
  | .withdraw amount => withdraw contract message state amount
  | .debit developer amount => debit contract message state developer amount
  | .setTreasury treasury => setTreasury message state treasury
  | .pause => pause message state
  | .unpause => unpause message state
  | .grantRole role account => grantRole message state role account
  | .revokeRole role account => revokeRole message state role account
  | .renounceRole role confirmation => renounceRole message state role confirmation

inductive Input (Account : Type) where
  | call (message : Message Account) (call : Call Account)
  | tokens (tokens : Account → Nat)

def next [Zero Account] (contract : Account) : Input Account → State Account → State Account
  | .call message call => transact (execute contract message · call)
  | .tokens tokens => fun state => { state with tokens := tokens }

/-- The contract does not call itself, and only it spends its tokens; anybody
may send it some. -/
def Permitted (contract : Account) (state : State Account) : Input Account → Prop
  | .call message _ => message.sender ≠ contract
  | .tokens tokens => state.tokens contract ≤ tokens contract

/-- The state behind the constructor, whoever holds tokens then. -/
def Deployed [Zero Account] (state : State Account) : Prop :=
  ∃ (admin coordinator treasury : Account) (tokens : Account → Nat),
    deploy admin coordinator treasury tokens = .ok state

/-- What an event says of a developer's balance. -/
def Event.units (developer : Account) : Event Account → Int
  | .deposited party amount => if party = developer then amount else 0
  | .withdrawn party amount | .debited party amount _ => if party = developer then -amount else 0
  | .treasuryUpdated _ => 0

/-- The developer's balance according to the events. -/
def State.booked (state : State Account) (developer : Account) : Int :=
  (state.events.map (Event.units developer)).sum

/-- Balances move while the contract is not paused.  One falls only in a call of
its owner or of a coordinator, and the contract pays out no more than that. -/
inductive Effect (contract : Account) (message : Message Account) (state : State Account) :
    Call Account → State Account → Prop where
  | moved {call : Call Account} {developer : Account} {balance : Nat} {event : Event Account}
      {tokens : Account → Nat} : whenNotPaused state = .ok () →
      (balance < state.balances developer →
        developer = message.sender ∨ state.roles .coordinator message.sender = true) →
      (∀ party, event.units party =
        if developer = party then (balance : Int) - state.balances developer else 0) →
      (message.sender ≠ contract →
        state.tokens contract + balance ≤ tokens contract + state.balances developer) →
      Effect contract message state call { state with
        balances := Function.update state.balances developer balance
        tokens := tokens
        events := state.events ++ [event] }
  | administered {call : Call Account} {moved : State Account} :
      moved.balances = state.balances → moved.tokens = state.tokens →
      moved.booked = state.booked →
      (state.paused = true → call ≠ .unpause → moved.paused = true) →
      Effect contract message state call moved

section

variable {contract : Account} {message : Message Account} {call : Call Account}
  {state moved : State Account}

theorem effect_release {developer recipient : Account} {amount : Nat} {event : Event Account}
    (unpaused : whenNotPaused state = .ok ())
    (entitled : developer = message.sender ∨ state.roles .coordinator message.sender = true)
    (units : ∀ party, event.units party = if developer = party then -(amount : Int) else 0)
    (ok : release contract state developer recipient amount event = .ok moved) :
    Effect contract message state call moved := by
  obtain ⟨_, _, ok⟩ := bind_eq_ok.mp ok
  dsimp only at ok
  split_ifs at ok with short
  obtain ⟨_, sent, ok⟩ := bind_eq_ok.mp ok
  cases ok
  refine .moved unpaused (fun _ => entitled) ?_ ?_
  · intro _
    rw [units, Nat.cast_sub (Nat.not_lt.mp short), sub_sub_cancel_left]
  · intro _
    have left := le_transfer_source (mapError_ok sent)
    omega

theorem execute_effect [Zero Account] (ok : execute contract message state call = .ok moved) :
    Effect contract message state call moved := by
  cases call with
  | deposit =>
    obtain ⟨⟨⟩, unpaused, ok⟩ := bind_eq_ok.mp ok
    obtain ⟨_, _, ok⟩ := bind_eq_ok.mp ok
    obtain ⟨_, added, ok⟩ := bind_eq_ok.mp ok
    obtain ⟨_, pulled, ok⟩ := bind_eq_ok.mp ok
    cases ok
    rw [checkedAdd_ok added]
    refine .moved unpaused (fun _ => .inl rfl) (fun _ => by simp [Event.units]) fun sender => ?_
    have received := transferFrom_target sender (mapError_ok pulled)
    omega
  | withdraw =>
    obtain ⟨⟨⟩, unpaused, ok⟩ := bind_eq_ok.mp ok
    exact effect_release unpaused (.inl rfl) (fun _ => rfl) ok
  | debit =>
    obtain ⟨⟨⟩, unpaused, ok⟩ := bind_eq_ok.mp ok
    obtain ⟨_, role, ok⟩ := bind_eq_ok.mp ok
    unfold onlyRole at role
    split_ifs at role with granted
    exact effect_release unpaused (.inr granted) (fun _ => rfl) ok
  | setTreasury =>
    obtain ⟨_, _, ok⟩ := bind_eq_ok.mp ok
    split_ifs at ok
    cases ok
    refine .administered rfl rfl ?_ fun paused _ => paused
    funext
    simp [State.booked, Event.units]
  | pause =>
    obtain ⟨_, _, ok⟩ := bind_eq_ok.mp ok
    obtain ⟨_, _, ok⟩ := bind_eq_ok.mp ok
    cases ok
    exact .administered rfl rfl rfl fun _ _ => rfl
  | unpause =>
    obtain ⟨_, _, ok⟩ := bind_eq_ok.mp ok
    split_ifs at ok
    cases ok
    exact .administered rfl rfl rfl fun _ other => absurd rfl other
  | grantRole | revokeRole =>
    obtain ⟨_, _, ok⟩ := bind_eq_ok.mp ok
    cases ok
    exact .administered rfl rfl rfl fun paused _ => paused
  | renounceRole =>
    simp only [execute, renounceRole] at ok
    split_ifs at ok
    cases ok
    exact .administered rfl rfl rfl fun paused _ => paused

theorem next_effect [Zero Account] (contract : Account) (message : Message Account)
    (call : Call Account) (state : State Account) :
    Effect contract message state call (next contract (.call message call) state) := by
  rcases transact_cases (execute contract message · call) state with ok | unchanged
  · exact execute_effect ok
  · rw [next, unchanged]
    exact .administered rfl rfl rfl fun paused _ => paused

end

section

variable {contract : Account} {message : Message Account} {call : Call Account}
  {state moved : State Account}

theorem Effect.booked (effect : Effect contract message state call moved)
    (booked : ∀ developer, (state.balances developer : Int) = state.booked developer)
    (party : Account) : (moved.balances party : Int) = moved.booked party := by
  cases effect with
  | @moved developer _ _ _ _ _ units =>
    rw [State.booked, map_append, sum_append, map_singleton, sum_singleton, units,
      ← State.booked, ← booked]
    by_cases same : developer = party
    · subst same
      simp
    · simp [same, Ne.symm same]
  | administered balances _ sameBooked => rw [balances, sameBooked, booked]

variable [Fintype Account]

def Sound (contract : Account) (state : State Account) : Prop :=
  total state.balances ≤ state.tokens contract

theorem Sound.effect (sound : Sound contract state) (sender : message.sender ≠ contract)
    (effect : Effect contract message state call moved) : Sound contract moved := by
  unfold Sound at sound ⊢
  cases effect with
  | @moved developer balance _ _ _ _ _ paid =>
    replace paid := paid sender
    have owed := total_update state.balances developer balance
    dsimp only
    omega
  | administered balances tokens => rwa [balances, tokens]

end

section

variable [Fintype Account] [Zero Account] {contract : Account} {state : State Account}

theorem sound_of_reaches (reached : Reaches (next contract) (Permitted contract) Deployed state) :
    Sound contract state := by
  induction reached with
  | start deployed =>
    obtain ⟨_, _, _, _, ok⟩ := deployed
    unfold deploy at ok
    split_ifs at ok
    cases ok
    exact total_zero.trans_le (Nat.zero_le _)
  | @step state _ input permitted sound =>
    cases input with
    | tokens => exact sound.trans permitted
    | call => exact sound.effect permitted (next_effect ..)

omit [Zero Account] in
theorem Sound.pays (sound : Sound contract state) {developer : Account} {amount : Nat}
    (positive : 0 < amount) (enough : amount ≤ state.balances developer)
    (recipient : Account) (event : Event Account) :
    ∃ moved, release contract state developer recipient amount event = .ok moved := by
  have covered := (enough.trans (le_total state.balances developer)).trans sound
  obtain ⟨_, sent⟩ := transfer_total recipient covered
  simp only [release, nonzero, if_neg positive.ne', if_neg (Nat.not_lt.mpr enough), sent]
  exact ⟨_, rfl⟩

/-- The contract holds at least the sum of all balances, and while it is not
paused it pays every withdrawal and every debit that a balance covers. -/
theorem escrow_solvent (reached : Reaches (next contract) (Permitted contract) Deployed state) :
    total state.balances ≤ state.tokens contract ∧
      (state.paused = false → ∀ amount developer, 0 < amount →
        amount ≤ state.balances developer →
        (∀ message, message.sender = developer →
          ∃ moved, withdraw contract message state amount = .ok moved) ∧
        ∀ message, state.roles .coordinator message.sender = true →
          ∃ moved, debit contract message state developer amount = .ok moved) := by
  have sound := sound_of_reaches reached
  refine ⟨sound, fun unpaused amount developer positive enough => ⟨?_, ?_⟩⟩
  · rintro message rfl
    simp only [withdraw, whenNotPaused, unpaused]
    exact sound.pays positive enough _ _
  · intro message granted
    simp only [debit, whenNotPaused, unpaused, onlyRole, granted]
    exact sound.pays positive enough _ _

omit [Fintype Account] in
/-- Every balance is what the events say: deposits, less withdrawals and debits. -/
theorem escrow_booked (reached : Reaches (next contract) (fun _ _ => True) Deployed state)
    (developer : Account) : (state.balances developer : Int) = state.booked developer := by
  induction reached generalizing developer with
  | start deployed =>
    obtain ⟨_, _, _, _, ok⟩ := deployed
    unfold deploy at ok
    split_ifs at ok
    cases ok
    rfl
  | @step _ _ input _ booked =>
    cases input with
    | tokens => exact booked developer
    | call => exact (next_effect ..).booked booked developer

omit [Fintype Account] in
/-- No balance falls in a run without calls of its owner or of a coordinator. -/
theorem escrow_balance_kept {developer : Account} {start : State Account}
    (reached : Reaches (next contract) (fun state input => ∀ message call,
      input = .call message call → message.sender ≠ developer ∧
        state.roles .coordinator message.sender = false) (· = start) state) :
    start.balances developer ≤ state.balances developer := by
  induction reached with
  | start same => rw [same]
  | @step state _ input permitted kept =>
    cases input with
    | tokens => exact kept
    | call message call =>
      obtain ⟨other, refused⟩ := permitted message call rfl
      have effect := next_effect contract message call state
      generalize next contract (.call message call) state = moved at effect ⊢
      refine kept.trans ?_
      cases effect with
      | @moved party _ _ _ _ entitled =>
        by_cases same : developer = party
        · subst same
          simpa [other.symm, refused] using entitled
        · exact (Function.update_of_ne same _ _).ge
      | administered balances => rw [balances]

omit [Fintype Account] in
/-- A paused contract keeps every balance and spends none of its tokens until a
call unpauses it. -/
theorem escrow_frozen {start : State Account} (paused : start.paused = true)
    (reached : Reaches (next contract) (fun state input =>
      (∀ message, input ≠ .call message .unpause) ∧
        ∀ tokens, input = .tokens tokens → state.tokens contract ≤ tokens contract)
      (· = start) state) :
    state.paused = true ∧ state.balances = start.balances ∧ state.booked = start.booked ∧
      start.tokens contract ≤ state.tokens contract := by
  induction reached with
  | start same =>
    subst same
    exact ⟨paused, rfl, rfl, le_rfl⟩
  | @step state _ input permitted held =>
    obtain ⟨frozen, balances, booked, tokens⟩ := held
    cases input with
    | tokens => exact ⟨frozen, balances, booked, tokens.trans (permitted.2 _ rfl)⟩
    | call message call =>
      have effect := next_effect contract message call state
      generalize next contract (.call message call) state = moved at effect ⊢
      cases effect with
      | moved unpaused =>
        rw [whenNotPaused, frozen] at unpaused
        cases unpaused
      | administered sameBalances sameTokens sameBooked kept =>
        rw [sameBalances, sameTokens, sameBooked]
        refine ⟨kept frozen fun unpause => ?_, balances, booked, tokens⟩
        exact permitted.1 message (congrArg _ unpause)

end

/-- Contract 1, administrator 2, coordinator 3, treasury 5 and developer 6. -/
def started : State (Fin 8) :=
  (deploy (2 : Fin 8) 3 5 fun account => if account = 1 then 0 else 100).toOption.get rfl

def spent : State (Fin 8) := Serial.run (next 1) [.call ⟨6, 100⟩ (.deposit 60),
  .call ⟨6, 0⟩ (.withdraw 25), .call ⟨3, 0⟩ (.debit 6 15)] started

theorem escrow_solvent_spent : spent.tokens 1 = 20 ∧
    ∃ moved, withdraw 1 ⟨6, 0⟩ spent 20 = .ok moved := by
  have reached : Reaches (next 1) (Permitted 1) Deployed spent :=
    Reaches.run (.start ⟨2, 3, 5, _, rfl⟩) ⟨nofun, nofun, nofun, trivial⟩
  exact ⟨by decide, ((escrow_solvent reached).2 rfl 20 6 (by decide) (by decide)).1 _ rfl⟩

/-- The contract is made its own treasury, and is sent tokens. -/
def selfOwned : State (Fin 8) := Serial.run (next 1) [.call ⟨2, 0⟩ (.setTreasury 1),
  .call ⟨3, 0⟩ (.debit 6 15), .tokens fun _ => 50] spent

theorem escrow_booked_selfOwned : (5 : Int) = selfOwned.booked 6 := by
  have reached : Reaches (next 1) (fun _ _ => True) Deployed spent :=
    Reaches.run (.start ⟨2, 3, 5, _, rfl⟩) ⟨trivial, trivial, trivial, trivial⟩
  have onward : Reaches (next 1) (fun _ _ => True) Deployed selfOwned :=
    reached.run ⟨trivial, trivial, trivial, trivial⟩
  exact escrow_booked onward 6

theorem escrow_balance_kept_spent : spent.balances 6 ≤
    (next 1 (.call ⟨7, 100⟩ (.deposit 5)) spent).balances 6 := by
  refine escrow_balance_kept (.step (.start ?_) _ ?_)
  · rfl
  · intro _ _ same
    cases same
    decide

def halted : State (Fin 8) := next 1 (.call ⟨2, 0⟩ .pause) spent

theorem escrow_frozen_halted :
    (next 1 (.call ⟨6, 0⟩ (.withdraw 20)) halted).balances = halted.balances := by
  refine (escrow_frozen ?_ (.step (.start ?_) _ ?_)).2.1
  · rfl
  · rfl
  · exact ⟨nofun, nofun⟩

end Gridix.Escrow
