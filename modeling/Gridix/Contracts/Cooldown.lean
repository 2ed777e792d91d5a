import Gridix.Contracts.Solvency

/-!
# The cooldown of collateral that is leaving

The contract merges all pending requests of an account into one amount with
one unlock time.  Beside it runs a book of lots, one for each `unstake`, that
remembers when the request was made and which cooldown was in force.
-/

namespace Gridix.Staking

open Solidity List Serial

variable {Account : Type} [DecidableEq Account]

/-- Units whose unstaking was requested together. -/
structure Lot where
  amount : Nat
  requestedAt : Nat
  cooldown : Nat
  deriving DecidableEq, Repr

def Lot.releasedAt (lot : Lot) : Nat := lot.requestedAt + lot.cooldown

def Lot.LoweredFrom (after before : Lot) : Prop :=
  after.amount ≤ before.amount ∧ after.requestedAt = before.requestedAt ∧
    after.cooldown = before.cooldown

def units (lots : List Lot) : Nat := (lots.map Lot.amount).sum

/-- A way to take a slash out of the lots that wait for their release. -/
structure Levy where
  take : Nat → List Lot → List Lot
  lowers : ∀ amount lots, ∀ lot ∈ take amount lots, ∃ before ∈ lots, lot.LoweredFrom before
  charges : ∀ amount lots, units (take amount lots) = units lots - amount

theorem units_append (lots later : List Lot) :
    units (lots ++ later) = units lots + units later := by
  simp [units]

variable {lots : List Lot}

theorem amount_le_units {lot : Lot} (mem : lot ∈ lots) : lot.amount ≤ units lots :=
  le_sum_of_mem (mem_map_of_mem mem)

theorem Levy.released (levy : Levy) {amount unlockAt : Nat}
    (released : ∀ lot ∈ lots, 0 < lot.amount → lot.releasedAt ≤ unlockAt) :
    ∀ lot ∈ levy.take amount lots, 0 < lot.amount → lot.releasedAt ≤ unlockAt := by
  intro lot mem _
  obtain ⟨before, source, _, _, _⟩ := levy.lowers amount lots lot mem
  have due := released before source (by omega)
  unfold Lot.releasedAt at due ⊢
  omega

def takeOldest : Nat → List Lot → List Lot
  | _, [] => []
  | amount, lot :: rest =>
    { lot with amount := lot.amount - amount } :: takeOldest (amount - lot.amount) rest

def oldestFirst : Levy where
  take := takeOldest
  lowers := by
    intro amount lots
    induction lots generalizing amount with
    | nil => nofun
    | cons first rest ih =>
      intro lot member
      rcases mem_cons.mp member with rfl | later
      · exact ⟨first, mem_cons_self, Nat.sub_le _ _, rfl, rfl⟩
      · obtain ⟨before, source, lowered⟩ := ih _ lot later
        exact ⟨before, mem_cons_of_mem _ source, lowered⟩
  charges := by
    intro amount lots
    induction lots generalizing amount with
    | nil => simp [takeOldest, units]
    | cons lot rest ih =>
      have charged := ih (amount - lot.amount)
      simp only [takeOldest, units, map_cons, sum_cons] at charged ⊢
      omega

/-- The contract with the lots still to be paid. -/
structure Booked (Account : Type) where
  state : State Account
  lots : Account → List Lot
  now : Nat

/-- What a call that succeeds does to the lots. -/
def book (message : Message Account) (levy : Levy)
    (storage : Storage Account) (lots : Account → List Lot) :
    Call Account → Account → List Lot
  | .unstake amount => Function.update lots message.sender (lots message.sender ++
        [⟨amount, message.timestamp, storage.cooldownPeriod⟩])
  | .completeUnstake => Function.update lots message.sender []
  | .slash provider amount _ => Function.update lots provider
      (levy.take (amount - storage.stakes provider) (lots provider))
  | _ => lots

inductive Event (Account : Type) where
  | call (message : Message Account) (call : Call Account) (levy : Levy)
  | tokens (balances : Account → Nat)

def Event.input : Event Account → Input Account
  | .call message made _ => .call message made
  | .tokens balances => .tokens balances

def advance [Zero Account] (contract : Account) : Event Account → Booked Account → Booked Account
  | .call message call levy, booked =>
    match execute contract message call booked.state with
    | .ok moved =>
      { state := moved
        lots := book message levy booked.state.storage booked.lots call
        now := message.timestamp }
    | .error _ => { booked with now := message.timestamp }
  | .tokens balances, booked =>
    { booked with state := { booked.state with balances := balances } }

theorem advance_state [Zero Account] (contract : Account)
    (event : Event Account) (booked : Booked Account) :
    (advance contract event booked).state = next contract event.input booked.state := by
  cases event with
  | tokens => rfl
  | call message call =>
    simp only [advance, next, Event.input, transact]
    cases execute contract message call booked.state <;> rfl

/-- Timestamps do not decrease. -/
def InOrder (booked : Booked Account) : Event Account → Prop
  | .call message _ _ => booked.now ≤ message.timestamp
  | .tokens _ => True

/-- An `unstake` on top of a pending request does not bring its unlock time
forward. -/
def Patient (booked : Booked Account) : Event Account → Prop
  | .call message (.unstake amount) _ =>
    0 < (booked.state.storage.unstaking message.sender).amount →
    amount ≤ booked.state.storage.stakes message.sender →
    (booked.state.storage.unstaking message.sender).unlockAt ≤
      message.timestamp + booked.state.storage.cooldownPeriod
  | _ => True

def Opened [Zero Account] (booked : Booked Account) : Prop := (∃ deployment : Deployment Account,
    booked.state.storage = deployment.storage) ∧
  ∀ account, booked.lots account = []

structure Matched (lots : List Lot) (pending : Unstaking) : Prop where
  units : units lots = pending.amount
  released : ∀ lot ∈ lots, 0 < lot.amount → lot.releasedAt ≤ pending.unlockAt

def Aged (booked : Booked Account) : Prop := ∀ account, Matched (booked.lots account)
    (booked.state.storage.unstaking account)

theorem Matched.nil (unlockAt : Nat) : Matched [] ⟨0, unlockAt⟩ := ⟨rfl, nofun⟩

theorem Matched.append {pending : Unstaking}
    (matched : Matched lots pending) {amount timestamp cooldown : Nat}
    (patient : 0 < pending.amount → pending.unlockAt ≤ timestamp + cooldown) :
    Matched (lots ++ [⟨amount, timestamp, cooldown⟩])
      ⟨pending.amount + amount, timestamp + cooldown⟩ where
  units := by
    rw [units_append, matched.units]
    rfl
  released := by
    intro lot mem pos
    rcases mem_append.mp mem with old | new
    · have pendingPositive : 0 < pending.amount := by
        rw [← matched.units]
        exact pos.trans_le (amount_le_units old)
      exact (matched.released lot old pos).trans (patient pendingPositive)
    · rw [mem_singleton.mp new]
      exact Nat.le_refl _

theorem Matched.levied {pending : Unstaking}
    (matched : Matched lots pending) (levy : Levy) (amount : Nat) :
    Matched (levy.take amount lots) ⟨pending.amount - amount, pending.unlockAt⟩ :=
  ⟨by rw [levy.charges, matched.units], levy.released matched.released⟩

section

variable {contract : Account} {message : Message Account}
  {call : Call Account} {levy : Levy} {booked : Booked Account}
  {moved : State Account}

theorem Aged.effect (aged : Aged booked) (patient : Patient booked (.call message call levy))
    (effect : Effect contract message booked.state call moved) (account : Account) :
    Matched (book message levy booked.state.storage booked.lots call account)
      (moved.storage.unstaking account) := by
  cases effect with
  | unstaked enough =>
    by_cases isSender : account = message.sender
    · subst isSender
      simp only [book, Function.update_self]
      apply (aged message.sender).append
      intro pending
      exact patient pending enough
    · simp only [book, Function.update_of_ne isSender]
      exact aged account
  | completed =>
    by_cases isSender : account = message.sender
    · subst isSender
      simp only [book, Function.update_self]
      exact .nil 0
    · simp only [book, Function.update_of_ne isSender]
      exact aged account
  | @slashedActive provider _ _ _ enough =>
    by_cases isProvider : account = provider
    · subst isProvider
      -- the active stake pays it all, so the lots are charged nothing
      have levied := (aged account).levied levy 0
      simp only [book, Function.update_self, Nat.sub_eq_zero_of_le enough]
      exact levied
    · simp only [book, Function.update_of_ne isProvider]
      exact aged account
  | @slashedCooling provider =>
    by_cases isProvider : account = provider
    · subst isProvider
      simp only [book, Function.update_self]
      exact (aged account).levied levy _
    · simp only [book, Function.update_of_ne isProvider]
      exact aged account
  | administered administers same =>
    rw [same.unstaking]
    cases call <;> first | exact aged account | cases administers
  | staked | upheld | overturned | funded | settled | withdrawn => exact aged account

end

section

variable [Zero Account] {contract : Account} {booked : Booked Account}

theorem Aged.opened (opened : Opened booked) : Aged booked := by
  obtain ⟨⟨_, storage⟩, empty⟩ := opened
  intro account
  rw [storage, empty account]
  exact .nil 0

theorem Aged.advance (aged : Aged booked) {event : Event Account} (patient : Patient booked event) :
    Aged (advance contract event booked) := by
  cases event with
  | tokens => exact aged
  | call message call =>
    simp only [Staking.advance]
    cases result : execute contract message call booked.state with
    | error => exact aged
    | ok => exact aged.effect patient (execute_effect result)

theorem aged_of_reaches (reached : Reaches (advance contract)
      (fun booked event => InOrder booked event ∧ Patient booked event)
      Opened booked) : Aged booked :=
  reached.invariant (fun _ => Aged.opened) (fun _ _ aged permitted => aged.advance permitted.2)

end

/-- While no `unstake` brings a pending unlock time forward, every unit of a
payout has waited for the cooldown that was in force when it left active stake.
-/
theorem payout_cooled_down [Zero Account] {contract : Account} {booked : Booked Account}
    (reached : Reaches (advance contract)
      (fun booked event => InOrder booked event ∧ Patient booked event) Opened booked)
    {message : Message Account} {moved : State Account}
    (success : completeUnstake contract message booked.state = .ok moved) :
    transfer contract message.sender (units (booked.lots message.sender))
        booked.state.balances = .ok moved.balances ∧
      ∀ lot ∈ booked.lots message.sender, 0 < lot.amount →
        lot.requestedAt + lot.cooldown ≤ message.timestamp := by
  have matched := aged_of_reaches reached message.sender
  cases effect_completeUnstake success with
  | completed due pushed =>
    refine ⟨matched.units ▸ pushed, ?_⟩
    intro lot member positive
    exact (matched.released lot member positive).trans due
  | administered administers => cases administers

def opened : Booked (Fin 8) where
  state := deployed 100
  lots := fun _ => []
  now := 0

def log (sender : Fin 8) (timestamp : Nat) (call : Call (Fin 8)) : Event (Fin 8) :=
  .call ⟨sender, timestamp, 100⟩ call oldestFirst

/-- A second request joins the first, both lose units to a slash, and the
cooldown is lengthened before and shortened after it. -/
def patientRequests : List (Event (Fin 8)) := [log 6 0 (.stake 60), log 6 1 (.unstake 20),
   log 2 2 (.setCooldownPeriod 300), log 6 3 (.unstake 30),
   log 3 4 (.slash 6 35 7), log 2 5 (.setCooldownPeriod 0)]

theorem payout_cooled_down_slashed : ∃ moved, completeUnstake 1 ⟨6, 303, 0⟩
        (Serial.run (advance 1) patientRequests opened).state = .ok moved ∧
      moved.balances 6 = 65 ∧
      ∀ lot ∈ (Serial.run (advance 1) patientRequests opened).lots 6, 0 < lot.amount →
        lot.requestedAt + lot.cooldown ≤ 303 := by
  have success := Serial.exists_ok (fun moved => moved.balances 6 == 65) (show (completeUnstake 1
    ⟨6, 303, 0⟩ (Serial.run (advance 1) patientRequests opened).state).toOption.any _ = true by
      decide +kernel)
  obtain ⟨moved, success, paid⟩ := success
  refine ⟨moved, success, eq_of_beq paid, ?_⟩
  refine (payout_cooled_down (Reaches.run (.start ?_) ?_) success).2
  · exact ⟨⟨exampleDeployment 100, rfl⟩, fun _ => rfl⟩
  · refine ⟨⟨?_, ?_⟩, ⟨?_, ?_⟩, ⟨?_, ?_⟩, ⟨?_, ?_⟩, ⟨?_, ?_⟩, ⟨?_, ?_⟩, trivial⟩
    all_goals first
      | trivial
      | exact Nat.le_of_ble_eq_true rfl
      | exact fun _ _ => Nat.le_of_ble_eq_true rfl

/-- The cooldown is dropped and one more unit asked for: sixty units leave at
once, of which fifty-nine had a hundred seconds to wait. -/
def hastyRequests : List (Event (Fin 8)) := [log 6 0 (.stake 60), log 6 1 (.unstake 59),
   log 2 2 (.setCooldownPeriod 0), log 6 3 (.unstake 1)]

theorem merged_request_unlocks_early : ∃ booked : Booked (Fin 8),
      Reaches (advance 1) InOrder Opened booked ∧
      booked.now = 3 ∧
      booked.lots 6 = [⟨59, 1, 100⟩, ⟨1, 3, 0⟩] ∧
      (completeUnstake 1 ⟨6, 3, 0⟩ booked.state).map (fun moved => moved.balances 6) = .ok 100 := by
  refine ⟨Serial.run (advance 1) hastyRequests opened, Reaches.run (.start ?_) ?_, ?_, ?_, ?_⟩
  · exact ⟨⟨exampleDeployment 100, rfl⟩, fun _ => rfl⟩
  · refine ⟨?_, ?_, ?_, ?_, trivial⟩
    all_goals exact Nat.le_of_ble_eq_true rfl
  · decide +kernel
  · decide +kernel
  · rfl

end Gridix.Staking
