import Gridix.Chain.Platform

/-!
# Reconciliation of developer escrow

The reconciler expects a wallet's escrow on the chain to be the developer's
funds and what its jobs consumed, less the confirmed debits.
-/

namespace Gridix

open List Serial

open Settlement (EngineSettings Tables Call owed settledUnitsByDev
  onchainDebitedByDev debitedOnChain)

structure Divergence where
  wallet : Address
  expected : Int
  actual : Int
  deriving DecidableEq, Repr

def confirmedDebitedByDev (tables : Tables) (wallet : Address) : Nat :=
  ((tables.filter fun row => row.status = .confirmed).map fun row =>
    row.call.debits wallet).sum

section

variable (settings : EngineSettings) (ledger : Ledger) (tables : Tables)
  (escrowBalanceOf : Address → Int)

/-- Compare one developer's escrow.  Negative funds make `to_units` raise. -/
def checkDeveloper (developer : Developer) : Except UnitsError (List Divergence) :=
  match developer.walletAddress with
  | none => .ok []
  | some wallet => do
      let free := accountBalance ledger .developer (some developer.id)
      let held := accountBalance ledger .escrow (some developer.id)
      let units ← toUnits settings.usdcDecimals (free + held)
      let expected := units + settledUnitsByDev settings ledger developer.id -
          confirmedDebitedByDev tables wallet
      let actual := escrowBalanceOf wallet
      .ok (if actual ≠ expected then [⟨wallet, expected, actual⟩] else [])

def checkDevelopers : Except UnitsError (List Divergence) := do
  let found ← settings.developers.rows.mapM (checkDeveloper settings ledger tables escrowBalanceOf)
  .ok found.flatten

end

section

variable {settings : EngineSettings} {ledger : Ledger} {tables : Tables}
  {escrowBalanceOf : Address → Int}

def Reconciles (settings : EngineSettings) (ledger : Ledger)
    (tables : Tables) (escrowBalanceOf : Address → Int)
    (developer : Developer) (wallet : Address) : Prop :=
  0 ≤ funds ledger developer.id ∧ escrowBalanceOf wallet =
      wholeUnits settings.usdcDecimals (funds ledger developer.id) +
        settledUnitsByDev settings ledger developer.id - confirmedDebitedByDev tables wallet

theorem checkDeveloper_clean {developer : Developer} :
    checkDeveloper settings ledger tables escrowBalanceOf developer = .ok [] ↔
      ∀ wallet, developer.walletAddress = some wallet →
        Reconciles settings ledger tables escrowBalanceOf developer wallet := by
  unfold checkDeveloper Reconciles funds
  cases own : developer.walletAddress with
  | none => simp
  | some wallet =>
    dsimp only
    rw [bind_eq_ok]
    constructor
    · rintro ⟨_, converted, clean⟩ _ same
      cases same
      unfold toUnits at converted
      split_ifs at converted with negative
      cases converted
      refine ⟨not_lt.mp negative, ?_⟩
      by_contra ne
      rw [if_pos ne] at clean
      cases clean
    · intro reconciles
      obtain ⟨nonneg, balanced⟩ := reconciles wallet rfl
      refine ⟨_, if_neg (not_lt.mpr nonneg), ?_⟩
      rw [if_neg (not_not.mpr balanced)]

theorem checkDevelopers_clean : checkDevelopers settings ledger tables escrowBalanceOf = .ok [] ↔
      ∀ developer ∈ settings.developers.rows, ∀ wallet, developer.walletAddress = some wallet →
          Reconciles settings ledger tables escrowBalanceOf developer wallet := by
  refine collect_eq_nil_iff.trans ?_
  exact forall₂_congr fun developer _ => checkDeveloper_clean

end

def Watcher.LogEntry.units (wallet : Address) (entry : Watcher.LogEntry) : Int :=
  if entry.party = wallet then
    match entry.eventName with
    | .deposited => entry.amount
    | .withdrawn => -entry.amount
    | .debited | .settled | .slashed => 0
  else 0

namespace Platform

variable {network : Watcher.Network} {deployment : Deployment}
  {platform : Platform network}

def logs (platform : Platform network) : List Watcher.ChainLog :=
  platform.watcher.chain.getLogs 0 platform.watcher.chain.latestBlock

/-- The contract's balance: deposits, less withdrawals and debits. -/
def escrowBalanceOf (platform : Platform network) (wallet : Address) : Int :=
  (platform.logs.map fun log => log.units wallet).sum - debitedOnChain platform.engine.chain wallet

def reconcile (deployment : Deployment) (platform : Platform network) :
    Except UnitsError (List Divergence) :=
  checkDevelopers deployment.engine platform.ledger platform.engine.tables platform.escrowBalanceOf

/-- Every deposit and withdrawal is mirrored, every transaction of the engine
is confirmed, and no debit is due.  The contract's balances are unsigned. -/
structure Quiescent (deployment : Deployment) (platform : Platform network) : Prop where
  mirrored : ((platform.watcher.store.events.map Watcher.ChainEvent.toChainLog).filter fun log =>
        log.eventName.effectful).Perm
    (platform.logs.filter fun log => log.eventName.effectful)
  processed : ∀ event ∈ platform.watcher.store.events,
    event.eventName.effectful = true → event.processed = true
  confirmed : ∀ row ∈ platform.engine.tables, row.status = .confirmed
  nothingDue : ∀ developer ∈ deployment.engine.developers.rows,
    owed deployment.engine platform.ledger platform.engine.tables developer ≤ 0
  unsigned : ∀ developer ∈ deployment.engine.developers.rows, ∀ wallet,
    developer.walletAddress = some wallet → 0 ≤ platform.escrowBalanceOf wallet

theorem units_of_plain {entry : Watcher.LogEntry} (wallet : Address)
    (plain : entry.eventName.effectful = false) : entry.units wallet = 0 := by
  unfold Watcher.LogEntry.units
  split_ifs
  · cases name : entry.eventName <;> simp [name, Watcher.EventName.effectful] at plain ⊢
  · rfl

theorem sum_units_effectful (logs : List Watcher.ChainLog) (wallet : Address) :
    ((logs.filter fun log => log.eventName.effectful).map fun log =>
        log.units wallet).sum =
      (logs.map fun log => log.units wallet).sum := by
  induction logs with
  | nil => rfl
  | cons log _ ih =>
    cases plain : log.eventName.effectful with
    | true => simp [plain, ih]
    | false => simp [plain, ih, units_of_plain wallet plain]

theorem credit_eq_units {decimals : Nat} {event : Watcher.ChainEvent} (wallet : Address)
    (processed : event.eventName.effectful = true → event.processed = true) :
    event.credit decimals wallet = event.units wallet * 10 ^ (8 - decimals) := by
  cases plain : event.eventName.effectful with
  | false =>
    rw [units_of_plain wallet plain, zero_mul]
    unfold Watcher.ChainEvent.credit
    rw [Watcher.signed_eq_zero plain, ite_self]
  | true =>
    have done := processed plain
    unfold Watcher.ChainEvent.credit Watcher.LogEntry.units Watcher.LogEntry.signed
    by_cases own : event.party = wallet
    · cases name : event.eventName <;> simp [done, fromUnits]
    · simp [own]

theorem Quiescent.processedNet (quiescent : Quiescent deployment platform)
    (decimals : Nat) (wallet : Address) :
    Watcher.processedNet decimals wallet platform.watcher.store.events =
      (platform.logs.map fun log => log.units wallet).sum * 10 ^ (8 - decimals) := by
  have credits : platform.watcher.store.events.map (Watcher.ChainEvent.credit decimals wallet) =
      platform.watcher.store.events.map fun event =>
        event.units wallet * 10 ^ (8 - decimals) :=
    map_congr_left fun event mem =>
      credit_eq_units wallet (quiescent.processed event mem)
  have stored : (platform.watcher.store.events.map fun event =>
      event.units wallet).sum =
      (platform.logs.map fun log => log.units wallet).sum := by
    have same := (quiescent.mirrored.map fun log =>
      log.units wallet).sum_eq
    rw [sum_units_effectful, sum_units_effectful, map_map] at same
    exact same
  rw [Watcher.processedNet, credits, sum_map_mul_right, stored]

theorem Quiescent.debited (consistent : Consistent deployment platform)
    (quiescent : Quiescent deployment platform) {developer : Developer}
    (known : developer ∈ deployment.engine.developers.rows)
    {wallet : Address} (owns : developer.walletAddress = some wallet) :
    (debitedOnChain platform.engine.chain wallet : Int) =
        settledUnitsByDev deployment.engine platform.ledger developer.id ∧
      confirmedDebitedByDev platform.engine.tables wallet =
        debitedOnChain platform.engine.chain wallet := by
  have live : ∀ row ∈ platform.engine.tables, row.status.live = true := by
    intro row mem
    rw [quiescent.confirmed row mem]
    rfl
  have executed := consistent.safe.debitedOnChain_eq quiescent.confirmed wallet
  have within := consistent.bounded.stored developer known wallet owns
  have due := quiescent.nothingDue developer known
  rw [consistent.ledger] at within
  simp only [owed, owns] at due
  constructor
  · rw [executed]
    omega
  · rw [executed, Settlement.onchainDebitedByDev_of_live live,
      confirmedDebitedByDev, filter_eq_self.mpr]
    · rfl
    · simpa using quiescent.confirmed

/-- Two terms that are truncated on their own add up to the exact difference
only if nothing is cut off. -/
theorem truncated_iff {unit deposited consumed charged : Int} (pos : 0 < unit)
    (nonneg : 0 ≤ charged) (covered : 0 ≤ deposited - consumed / unit) :
    (0 ≤ deposited * unit - consumed - charged ∧ deposited - consumed / unit =
          (deposited * unit - consumed - charged) / unit) ↔
      charged = 0 ∧ unit ∣ consumed := by
  have floor : consumed / unit * unit ≤ consumed := Int.ediv_mul_le consumed pos.ne'
  constructor
  · rintro ⟨_, equal⟩
    have below := Int.ediv_mul_le (deposited * unit - consumed - charged) pos.ne'
    rw [← equal, sub_mul] at below
    refine ⟨by omega, Dvd.intro_left (consumed / unit) ?_⟩
    omega
  · rintro ⟨rfl, quotient, rfl⟩
    rw [Int.mul_ediv_cancel_left _ pos.ne'] at covered ⊢
    have difference : deposited * unit - unit * quotient - 0 = (deposited - quotient) * unit := by
      ring
    rw [difference, Int.mul_ediv_cancel _ pos.ne']
    exact ⟨mul_nonneg covered pos.le, rfl⟩

theorem Quiescent.reconcile_iff (consistent : Consistent deployment platform)
    (quiescent : Quiescent deployment platform) :
    reconcile deployment platform = .ok [] ↔
      ∀ developer ∈ deployment.engine.developers.rows, ∀ wallet,
        developer.walletAddress = some wallet → usageCharged platform.ledger developer.id = 0 ∧
            10 ^ (8 - deployment.engine.usdcDecimals) ∣
              jobsConsumed platform.ledger developer.id := by
  refine checkDevelopers_clean.trans ?_
  refine forall₂_congr fun developer known => forall₂_congr fun wallet owns => ?_
  have fits : deployment.engine.usdcDecimals ≤ 8 := by
    rw [← deployment.decimals]
    exact deployment.watcher.decimalsFit
  have mirrored := consistent.agrees.matched.known developer (consistent.developers ▸ known)
  simp only [Watcher.ownedNet, owns, quiescent.processedNet, deployment.decimals] at mirrored
  have balance := consistent.accounted.balance developer.id
  obtain ⟨executed, confirmed⟩ := quiescent.debited consistent known owns
  have units : settledUnitsByDev deployment.engine platform.ledger
      developer.id = jobsConsumed platform.ledger developer.id /
        10 ^ (8 - deployment.engine.usdcDecimals) :=
    wholeUnits_eq fits _
  have held : funds platform.ledger developer.id =
      (platform.logs.map fun log => log.units wallet).sum *
          10 ^ (8 - deployment.engine.usdcDecimals) -
        jobsConsumed platform.ledger developer.id -
        usageCharged platform.ledger developer.id := by
    have posted : Watcher.mirrored platform.ledger developer.id = _ := mirrored
    omega
  have unsigned := quiescent.unsigned developer known wallet owns
  rw [escrowBalanceOf, executed, units] at unsigned
  rw [← truncated_iff (by positivity) (consistent.accounted.charged developer.id) unsigned]
  unfold Reconciles
  rw [escrowBalanceOf, wholeUnits_eq fits, held]
  omega

/-- With deposits, withdrawals and inference only, the reconciler finds
nothing at rest exactly when no developer with a wallet has been charged. -/
theorem inference_reconciles_iff (deployment : Deployment) {platform : Platform network}
    (reached : Reaches (step deployment)
      (Permitted Movement.forInference) (Start deployment) platform)
    (quiescent : Quiescent deployment platform) :
    reconcile deployment platform = .ok [] ↔
      ∀ developer ∈ deployment.engine.developers.rows, ∀ wallet,
        developer.walletAddress = some wallet → usageCharged platform.ledger developer.id = 0 := by
  have consistent := reaches_consistent (fun _ => Or.inl) reached
  have noJobs : ∀ developer, jobsConsumed platform.ledger developer = 0 := by
    intro _
    have unposted := @reaches_reason _ _ _ _ .settle rfl
      (by
        intro movement inference
        cases movement with
        | billing _ activity => cases activity <;> simp [Movement.reasons] at inference ⊢
        | settle | refund => cases inference)
      reached
    rw [jobsConsumed, Settlement.settledJobs, filter_eq_nil_iff.mpr]
    · rfl
    · simpa using unposted
  refine (quiescent.reconcile_iff consistent).trans ?_
  refine forall₂_congr fun developer _ => forall₂_congr fun wallet _ => ?_
  simp [noJobs developer.id]

/-- With deposits, withdrawals and jobs only, the reconciler finds nothing at
rest exactly when every developer with a wallet has consumed a whole number
of units. -/
theorem jobs_reconcile_iff (deployment : Deployment) {platform : Platform network}
    (reached : Reaches (step deployment) (Permitted Movement.forJobs) (Start deployment) platform)
    (quiescent : Quiescent deployment platform) :
    reconcile deployment platform = .ok [] ↔
      ∀ developer ∈ deployment.engine.developers.rows, ∀ wallet,
        developer.walletAddress = some wallet → 10 ^ (8 - deployment.engine.usdcDecimals) ∣
            jobsConsumed platform.ledger developer.id := by
  have consistent := reaches_consistent (fun _ => Or.inr) reached
  have noUsage : ∀ developer, usageCharged platform.ledger developer = 0 := by
    intro _
    have unposted := @reaches_reason _ _ _ _ .inferenceUsage rfl
      (by
        intro movement job
        cases movement with
        | billing _ activity =>
          cases activity <;> simp [Movement.forJobs, Movement.reasons] at job ⊢
        | settle | refund => simp [Movement.reasons])
      reached
    rw [usageCharged, filter_eq_nil_iff.mpr]
    · rfl
    · simpa using unposted
  refine (quiescent.reconcile_iff consistent).trans ?_
  refine forall₂_congr fun developer _ => forall₂_congr fun wallet _ => ?_
  simp [noUsage developer.id]

end Platform

def escrowNetwork : Watcher.Network where
  logs hash :=
    if hash = "1" then [⟨.deposited, 1, "0xd", 0, 10, 2000000⟩] else []

/-- Developer 1 has wallet 10 and provider 7 wallet 70; one confirmation is
enough. -/
def escrowDeployment : Deployment where
  billing := Settings.default
  watcher :=
    { usdcDecimals := usdcDecimals, decimalsFit := usdcDecimals_fit, confirmations := 1
      startBlock := 1, reorgWindow := 5 }
  engine :=
    { usdcDecimals := 6, confirmations := 1, thresholdUnits := 100
      interval := 10
      providers := .seven, developers := .one }
  decimals := rfl

def emptyPlatform : Platform escrowNetwork where
  watcher :=
    { chain := ⟨["0", "1"], by decide, by decide⟩
      store :=
        { events := [], cursor := none
          developers := escrowDeployment.engine.developers, ledger := [] }
      initial := none }
  engine :=
    { chain := .fresh 1, tables := [], ledger := []
      control := .idle, lastBatchAt := none }

def forcedTick (executed : List (Settlement.Tx × Bool)) : List (Platform.Action escrowNetwork) :=
  .engine (.tick true) :: List.replicate 12 (.engine (.engine Settlement.plainInput)) ++
    [.engine (.mine executed)]

def payoutTxs (units : Nat) : List (Settlement.Tx × Bool) :=
  [(⟨0, .depositSettlement units, 0⟩, true), (⟨1, .settleBatch [(70, units)], 0⟩, true)]

/-- The deposit is mirrored, the movements are made, and the engine is ticked
until nothing is due. -/
def platformAfter (movements : List Movement) (payout debit : Nat) : Platform escrowNetwork :=
  Serial.run (Platform.step escrowDeployment)
    (.watcher (.tick .stored) :: movements.map .movement ++ forcedTick (payoutTxs payout) ++
      forcedTick [(⟨2, .debit 10 debit, 0⟩, true)] ++ forcedTick [])
    emptyPlatform

theorem forcedTick_permitted {traffic : Movement → Bool} {executed : List (Settlement.Tx × Bool)} :
    ∀ action ∈ forcedTick executed, ∀ platform, Platform.Permitted traffic platform action := by
  intro _ mem _
  simp only [forcedTick, cons_append, mem_cons, mem_append,
    mem_replicate, not_mem_nil, or_false] at mem
  rcases mem with rfl | ⟨_, rfl⟩ | rfl <;> trivial

theorem platformAfter_reached {traffic : Movement → Bool} {movements : List Movement}
    (kind : ∀ movement ∈ movements, traffic movement = true) (payout debit : Nat) :
    Reaches (Platform.step escrowDeployment)
      (Platform.Permitted traffic) (Platform.Start escrowDeployment)
      (platformAfter movements payout debit) := by
  have start : Reaches (Platform.step escrowDeployment)
      (Platform.Permitted traffic) (Platform.Start escrowDeployment)
      emptyPlatform :=
    .start ⟨⟨rfl, rfl, rfl⟩, ⟨rfl, rfl, rfl, rfl, le_refl _, fun _ => le_refl _⟩, rfl, rfl, rfl⟩
  refine start.run (allPermitted_of_forall ?_ _)
  intro action mem platform
  simp only [cons_append, mem_cons, mem_append, mem_map] at mem
  rcases mem with rfl | ((⟨movement, made, rfl⟩ | first) | second) | third
  · trivial
  · exact kind movement made
  · exact forcedTick_permitted action first platform
  · exact forcedTick_permitted action second platform
  · exact forcedTick_permitted action third platform

theorem quiescent_of_checks {platform : Platform escrowNetwork}
    (checks : ((platform.watcher.store.events.map Watcher.ChainEvent.toChainLog).filter fun log =>
        log.eventName.effectful).Perm (platform.logs.filter fun log => log.eventName.effectful) ∧
      (∀ event ∈ platform.watcher.store.events,
        event.eventName.effectful = true → event.processed = true) ∧
      (∀ row ∈ platform.engine.tables, row.status = .confirmed) ∧
      (∀ developer ∈ escrowDeployment.engine.developers.rows,
        owed escrowDeployment.engine platform.ledger platform.engine.tables developer ≤ 0) ∧
      0 ≤ platform.escrowBalanceOf 10) :
    Platform.Quiescent escrowDeployment platform := by
  obtain ⟨mirrored, processed, confirmed, nothingDue, unsigned⟩ := checks
  refine ⟨mirrored, processed, confirmed, nothingDue, ?_⟩
  intro _ known _ owns
  rw [mem_singleton.mp known] at owns
  cases owns
  exact unsigned

def released : Platform escrowNetwork := platformAfter
    [.billing 1 (.reserve (1 / 10)), .billing 1 (.release 10000000)] 0 0

theorem inference_reconciles_iff_released : usageCharged released.ledger 1 = 0 ∧
      Platform.reconcile escrowDeployment released = .ok [] := by
  have uncharged : usageCharged released.ledger 1 = 0 := by decide +kernel
  refine ⟨uncharged, (Platform.inference_reconciles_iff escrowDeployment
    (platformAfter_reached (by decide) 0 0) ?_).mpr ?_⟩
  · exact quiescent_of_checks (by decide +kernel)
  · intro _ known _ _
    rw [mem_singleton.mp known]
    exact uncharged

def charged : Platform escrowNetwork := platformAfter [.billing 1 (.reserve (1 / 10)),
      .billing 1 (.settle 7 10000000 (1 / 25))] 39000 0

theorem charge_diverges : Reaches (Platform.step escrowDeployment)
        (Platform.Permitted Movement.forInference)
        (Platform.Start escrowDeployment) charged ∧
      Platform.Quiescent escrowDeployment charged ∧
      charged.engine.control = .idle ∧
      Settlement.unsettled escrowDeployment.engine charged.ledger charged.engine.tables = [] ∧
      Platform.reconcile escrowDeployment charged = .ok [⟨10, 1960000, 2000000⟩] := by
  refine ⟨platformAfter_reached (by decide) _ _, ?_, by decide +kernel,
    by decide +kernel, by decide +kernel⟩
  exact quiescent_of_checks (by decide +kernel)

def jobSpec : ResourceSpec := { cpuCores := 1, memoryMb := 512, gpu := false, gpuVramMb := 0 }

def jobRun (durationSeconds : ℚ) : List Movement :=
  let escrow := escrowEstimate jobSpec 60 Settings.default
  let cost := computeCost jobSpec durationSeconds Settings.default
  [.billing 1 (.jobHold 3 escrow), .settle 3 1 7 cost (protocolFee cost Settings.default),
    .refund 3 1 (escrow - cost)]

def fullMinute : Platform escrowNetwork := platformAfter (jobRun 60) 975000 1000000

theorem jobs_reconcile_iff_fullMinute : jobsConsumed fullMinute.ledger 1 = 100000000 ∧
      Platform.reconcile escrowDeployment fullMinute = .ok [] := by
  have consumed : jobsConsumed fullMinute.ledger 1 = 100000000 := by decide +kernel
  refine ⟨consumed, (Platform.jobs_reconcile_iff escrowDeployment
    (platformAfter_reached (by decide) _ _) ?_).mpr ?_⟩
  · exact quiescent_of_checks (by decide +kernel)
  · intro _ known _ _
    rw [mem_singleton.mp known]
    change (10 : Int) ^ (8 - 6) ∣ jobsConsumed fullMinute.ledger 1
    rw [consumed]
    decide

def oneSecond : Platform escrowNetwork := platformAfter (jobRun 1) 16250 16666

theorem second_diverges : Reaches (Platform.step escrowDeployment)
        (Platform.Permitted Movement.forJobs)
        (Platform.Start escrowDeployment) oneSecond ∧
      Platform.Quiescent escrowDeployment oneSecond ∧
      oneSecond.engine.control = .idle ∧
      Settlement.unsettled escrowDeployment.engine oneSecond.ledger oneSecond.engine.tables = [] ∧
      computeCost jobSpec 1 Settings.default = 1666667 ∧
      Platform.reconcile escrowDeployment oneSecond = .ok [⟨10, 1983333, 1983334⟩] := by
  refine ⟨platformAfter_reached (by decide) _ _, ?_, by decide +kernel,
    by decide +kernel, by decide +kernel, by decide +kernel⟩
  exact quiescent_of_checks (by decide +kernel)

end Gridix
