import Gridix.Chain.ReconcileRun

/-!
# Reconciliation of provider payouts

The contract emits one `Settled` event for every payee of a batch.  The
watcher stores what the chain shows, the engine records what it has paid, and
the reconciler compares the two.
-/

namespace Gridix.ProviderPayouts

open List Serial

open Settlement (Call Tx Mined Safe credited earnedByProvider
  reservedByProvider)
open Watcher (Chain ChainLog ChainEvent LogEntry OnChain)

abbrev Payout := Address × Nat

/-- The units paid to a wallet. -/
def paidTo (payouts : List Payout) (wallet : Address) : Nat :=
  ((payouts.filter fun payout => payout.1 = wallet).map Prod.snd).sum

def callPayouts : Call → List Payout
  | .settleBatch payees => payees
  | .depositSettlement _ | .debit _ _ => []

def minedPayouts (entry : Mined) : List Payout :=
  if entry.success then callPayouts entry.tx.call else []

def batchPayouts (included : List (Tx × Bool)) : List Payout := included.flatMap fun choice =>
    if choice.2 then callPayouts choice.1.call else []

def settledPayouts (entries : List LogEntry) : List Payout :=
  (entries.filter fun entry => entry.eventName = .settled).map fun entry =>
    (entry.party, entry.amount)

section

variable (wallet : Address)

theorem paidTo_append (left right : List Payout) : paidTo (left ++ right) wallet =
      paidTo left wallet + paidTo right wallet := by
  simp [paidTo]

theorem paidTo_perm {left right : List Payout} (same : left.Perm right) :
    paidTo left wallet = paidTo right wallet :=
  ((same.filter _).map _).sum_eq

theorem credited_eq (chain : Settlement.ChainState) : credited chain wallet =
      paidTo (chain.mined.flatMap minedPayouts) wallet := by
  unfold credited
  induction chain.mined with
  | nil => rfl
  | cons entry _ ih =>
    rw [map_cons, sum_cons, ih, flatMap_cons, paidTo_append]
    unfold Mined.pays minedPayouts
    split_ifs
    · cases entry.tx.call with
      | settleBatch => rfl
      | depositSettlement | debit => rfl
    · rfl

end

theorem settledPayouts_append (left right : List LogEntry) : settledPayouts (left ++ right) =
      settledPayouts left ++ settledPayouts right := by
  simp [settledPayouts]

structure World (network : Watcher.Network) where
  platform : Platform network
  foreign : List Payout

variable {network : Watcher.Network}

inductive Action (network : Watcher.Network) where
  | watcher (action : Watcher.Action network)
  | engine (action : Settlement.Action)
  | post (rows : Ledger)
  | block (next : Chain network) (included : List (Tx × Bool)) (foreign : List Payout)

def step (deployment : Deployment) (action : Action network)
    (world : World network) : World network :=
  match action with
  | .watcher action =>
    { world with
      platform := Platform.step deployment (.watcher action) world.platform }
  | .engine action =>
    { world with
      platform := Platform.step deployment (.engine action) world.platform }
  | .post rows =>
    { world with
      platform :=
        { watcher := Watcher.step deployment.watcher (.elsewhere rows)
            world.platform.watcher
          engine := Settlement.step deployment.engine (.post rows) world.platform.engine } }
  | .block next included foreign =>
    { platform :=
        { watcher := Watcher.step deployment.watcher (.chain next)
            world.platform.watcher
          engine := Settlement.step deployment.engine (.mine included) world.platform.engine }
      foreign := world.foreign ++ foreign }

/-- The chain only grows: a block is appended, it executes what it includes, and
has a `Settled` event for every payee. -/
def Permitted (deployment : Deployment) (world : World network) : Action network → Prop
  | .watcher (.tick _) | .watcher .failedTick | .watcher (.signUp _ _) => True
  | .watcher (.chain _) | .watcher (.elsewhere _) => False
  | .engine (.tick _) | .engine (.engine _) | .engine .abort
  | .engine .crash => True
  | .engine (.mine _) | .engine (.reorg _ _) | .engine (.post _) => False
  | .post rows => ∀ provider, 0 ≤ earnedByProvider rows provider
  | .block next included foreign => ∃ hash,
      next.blocks = world.platform.watcher.chain.blocks ++ [hash] ∧
      (world.platform.engine.chain.mine deployment.engine.confirmations
        included).height = world.platform.engine.chain.height + 1 ∧
      (settledPayouts (network.logs hash)).Perm (batchPayouts included ++ foreign)

structure Start (deployment : Deployment) (world : World network) : Prop where
  unscanned : world.platform.watcher.Fresh
  fresh : world.platform.engine.Fresh deployment.engine
  ledger : world.platform.engine.ledger = world.platform.ledger
  before : (settledPayouts (world.platform.logs.map ChainLog.toLogEntry)).Perm world.foreign

def Reachable (deployment : Deployment) (world : World network) : Prop :=
  Reaches (step deployment) (Permitted deployment) (Start deployment) world

/-- The rows of the watcher are canonical logs, and the `Settled` events of
the chain are the payouts of the engine and those of others. -/
structure Tied (deployment : Deployment) (world : World network) : Prop where
  ledger : world.platform.engine.ledger = world.platform.ledger
  safe : Safe deployment.engine world.platform.engine
  distinct : (world.platform.watcher.store.events.map fun event =>
    event.key).Nodup
  onChain : ∀ event ∈ world.platform.watcher.store.events,
    OnChain world.platform.watcher.chain event.toChainLog
  emitted : (settledPayouts (world.platform.logs.map ChainLog.toLogEntry)).Perm
    (world.platform.engine.chain.mined.flatMap minedPayouts ++ world.foreign)

section

variable {deployment : Deployment} {world : World network} {included : List (Tx × Bool)}
  {moved : Watcher.World network}

theorem Tied.start (start : Start deployment world) : Tied deployment world := by
  obtain ⟨empty, _, _⟩ := start.unscanned
  refine ⟨start.ledger, Safe.fresh start.fresh, ?_, ?_, ?_⟩
  · rw [empty]
    exact nodup_nil
  · rw [empty]
    simp
  · rw [start.fresh.mined]
    exact start.before

theorem getLogs_extended {chain next : Chain network} {hash : String}
    (grown : next.blocks = chain.blocks ++ [hash]) :
    next.getLogs 0 next.latestBlock = chain.getLogs 0 chain.latestBlock ++
        (network.logs hash).map fun entry =>
          ⟨entry, chain.blocks.length, hash⟩ := by
  have genesis := length_pos_iff.mpr chain.genesis
  have count : next.latestBlock + 1 - 0 = chain.blocks.length + 1 := by
    simp [Chain.latestBlock, grown]
  have before : chain.latestBlock + 1 - 0 = chain.blocks.length := by
    unfold Chain.latestBlock
    omega
  unfold Chain.getLogs
  rw [count, before, List.range'_concat, flatMap_append]
  congr 1
  · apply flatMap_congr
    intro number mem
    have inside : number < chain.blocks.length := by
      have bounds := mem_range'_1.mp mem
      omega
    simp only [Watcher.logsAt, grown, List.getElem?_append_left inside]
  · simp [Watcher.logsAt, grown]

theorem onChain_extended {chain next : Chain network} {hash : String}
    (grown : next.blocks = chain.blocks ++ [hash]) {log : ChainLog}
    (held : OnChain chain log) : OnChain next log := by
  have inside := (List.getElem?_eq_some_iff.mp held.1).1
  refine ⟨?_, held.2⟩
  unfold Chain.getBlock
  rw [grown, List.getElem?_append_left inside]
  exact held.1

theorem mined_of_taken {chain : Settlement.ChainState} {confirmations : Nat}
    (taken : (chain.mine confirmations included).height = chain.height + 1) :
    (chain.mine confirmations included).mined.flatMap minedPayouts =
      chain.mined.flatMap minedPayouts ++ batchPayouts included := by
  unfold Settlement.ChainState.mine at taken ⊢
  dsimp only at taken ⊢
  split_ifs at taken ⊢ with fits
  · rw [flatMap_append, flatMap_map]
    rfl
  · omega

theorem Tied.block (tied : Tied deployment world) {next : Chain network} {foreign : List Payout}
    (permitted : Permitted deployment world (.block next included foreign)) :
    Tied deployment (step deployment (.block next included foreign) world) := by
  obtain ⟨hash, grown, taken, emits⟩ := permitted
  refine ⟨tied.ledger, tied.safe.step (.mine included) trivial, tied.distinct, ?_, ?_⟩
  · intro event mem
    exact onChain_extended grown (tied.onChain event mem)
  · have logs := getLogs_extended grown
    change (settledPayouts ((next.getLogs 0 next.latestBlock).map
      ChainLog.toLogEntry)).Perm ((Settlement.ChainState.mine _ _ _).mined.flatMap
        minedPayouts ++ (world.foreign ++ foreign))
    have new : ((network.logs hash).map fun entry =>
        (⟨entry, world.platform.watcher.chain.blocks.length, hash⟩ :
          ChainLog)).map ChainLog.toLogEntry = network.logs hash := by
      rw [map_map]
      exact map_id _
    rw [logs, map_append, settledPayouts_append, new, mined_of_taken taken]
    refine (tied.emitted.append emits).trans ?_
    rw [append_assoc, append_assoc]
    exact (perm_append_comm_assoc _ _ _).append_left _

theorem Tied.grow (tied : Tied deployment world) {rows : Ledger}
    (credits : ∀ provider, 0 ≤ earnedByProvider rows provider)
    (chain : moved.chain = world.platform.watcher.chain)
    (ledger : moved.store.ledger = world.platform.ledger ++ rows)
    (distinct : (moved.store.events.map fun event => event.key).Nodup)
    (onChain : ∀ event ∈ moved.store.events, OnChain moved.chain event.toChainLog) :
    Tied deployment
      { world with
        platform :=
          { watcher := moved
            engine := Settlement.step deployment.engine (.post rows) world.platform.engine } } := by
  refine ⟨?_, tied.safe.post credits, distinct, onChain, ?_⟩
  · change world.platform.engine.ledger ++ rows = moved.store.ledger
    rw [ledger, tied.ledger]
  · have logs : Platform.logs
        { watcher := moved
          engine := Settlement.step deployment.engine (.post rows)
            world.platform.engine } = world.platform.logs := by
      simp only [Platform.logs, chain]
    rw [logs]
    exact tied.emitted

theorem Tied.rewatch (tied : Tied deployment world)
    (chain : moved.chain = world.platform.watcher.chain)
    (events : moved.store.events = world.platform.watcher.store.events)
    (ledger : moved.store.ledger = world.platform.ledger) :
    Tied deployment
      { world with
        platform :=
          { watcher := moved
            engine := { world.platform.engine with
              ledger := moved.store.ledger } } } := by
  have shared : moved.store.ledger = world.platform.engine.ledger := ledger.trans tied.ledger.symm
  refine ⟨rfl, ?_, ?_, ?_, ?_⟩
  · rw [shared]
    exact tied.safe
  · rw [events]
    exact tied.distinct
  · intro event mem
    rw [events] at mem
    rw [chain]
    exact tied.onChain event mem
  · have logs : Platform.logs
        { watcher := moved
          engine := { world.platform.engine with
            ledger := moved.store.ledger } } = world.platform.logs := by
      simp only [Platform.logs, chain]
    rw [logs]
    exact tied.emitted

theorem Tied.scan (tied : Tied deployment world) (order : Watcher.EventOrder) : Tied deployment
      (step deployment (.watcher (.tick order)) world) := by
  simp only [step, Platform.step, Watcher.step]
  cases success : Watcher.scan deployment.watcher
      world.platform.watcher.chain order world.platform.watcher.store with
  | error _ => exact tied.rewatch rfl rfl rfl
  | ok _ =>
    obtain ⟨_, accounted, grown, posted⟩ := Platform.scan_posts tied.ledger success
    obtain ⟨distinct, _, _, logs⟩ := Watcher.scan_ok success tied.distinct
    rw [posted]
    refine tied.grow accounted.earned rfl grown distinct ?_
    intro event mem
    rcases (logs event.toChainLog).mp (mem_map_of_mem mem) with ⟨old, here, same, _⟩ | ⟨new, _⟩
    · rw [← same]
      exact tied.onChain old here
    · exact (Watcher.mem_getLogs.mp new).2.2

theorem Tied.step (tied : Tied deployment world) (action : Action network)
    (permitted : Permitted deployment world action) :
    Tied deployment (ProviderPayouts.step deployment action world) := by
  cases action with
  | block => exact tied.block permitted
  | post => exact tied.grow permitted rfl rfl tied.distinct tied.onChain
  | watcher action =>
    cases action with
    | tick order => exact tied.scan order
    | failedTick | signUp => exact tied.rewatch rfl rfl rfl
    | chain | elsewhere => exact permitted.elim
  | engine action =>
    have credits : Settlement.Credits world.platform.engine action := by
      cases action with
      | mine | reorg | post => exact permitted.elim
      | tick | engine | abort | crash => trivial
    have ledger : (Settlement.step deployment.engine action
        world.platform.engine).ledger = world.platform.engine.ledger := by
      apply Settlement.step_ledger
      rintro _ rfl
      exact permitted
    have mined : (Settlement.step deployment.engine action world.platform.engine).chain.mined =
          world.platform.engine.chain.mined := by
      cases action with
      | mine | reorg | post => exact permitted.elim
      | engine input => exact (Settlement.engineStep_ledger input).2.1
      | tick =>
        simp only [Settlement.step]
        split_ifs <;> rfl
      | abort | crash => rfl
    refine ⟨ledger.trans tied.ledger, tied.safe.step action credits,
      tied.distinct, tied.onChain, ?_⟩
    change (settledPayouts _).Perm ((Settlement.step deployment.engine action
        world.platform.engine).chain.mined.flatMap minedPayouts ++ _)
    rw [mined]
    exact tied.emitted

theorem reachable_tied (reached : Reachable deployment world) : Tied deployment world := by
  induction reached with
  | start initial => exact .start initial
  | step _ action permitted tied => exact tied.step action permitted

end

/-- Nothing is in flight, and every `Settled` event of the chain is stored
and confirmed. -/
structure Quiescent (world : World network) : Prop where
  landed : Settlement.inFlight world.platform.engine.tables = 0
  ingested : ∀ log, OnChain world.platform.watcher.chain log → log.eventName = .settled →
      ∃ event ∈ world.platform.watcher.store.events, event.toChainLog = log ∧ event.confirmed = true

section

variable {deployment : Deployment} {world : World network} {provider : ProviderAccount}

theorem paidTo_settledPayouts (logs : List ChainLog) (wallet : Address) :
    paidTo (settledPayouts (logs.map ChainLog.toLogEntry)) wallet =
      ((logs.filter fun log => log.eventName = .settled ∧
        log.party = wallet).map fun log => log.amount).sum := by
  unfold paidTo settledPayouts
  rw [filter_map, map_map, filter_map, filter_map, map_map, filter_filter]
  congr 2
  apply filter_congr
  simp [and_comm]

theorem observed_eq (tied : Tied deployment world)
    (quiescent : Quiescent world) (wallet : Address) :
    Reconciler.observedSettledByWallet world.platform.watcher.store.events wallet =
      credited world.platform.engine.chain wallet + paidTo world.foreign wallet := by
  rw [credited_eq, ← paidTo_append, ← paidTo_perm wallet tied.emitted, paidTo_settledPayouts]
  have unique : (world.platform.watcher.store.events.map ChainEvent.toChainLog).Nodup := by
    refine List.Nodup.of_map (fun log : ChainLog => log.key) ?_
    rw [map_map]
    exact tied.distinct
  have rows : ((world.platform.watcher.store.events.filter fun event =>
        event.eventName = .settled ∧ event.confirmed = true ∧
          event.party = wallet).map ChainEvent.toChainLog).Perm
      (world.platform.logs.filter fun log =>
        log.eventName = .settled ∧ log.party = wallet) := by
    refine (perm_ext_iff_of_nodup (unique.sublist (filter_sublist.map _))
      ((Chain.getLogs_nodup _ _ _).filter _)).mpr ?_
    intro log
    simp only [mem_map, mem_filter, decide_eq_true_eq]
    constructor
    · rintro ⟨event, ⟨mem, settled, _, party⟩, rfl⟩
      have held := tied.onChain event mem
      exact ⟨Watcher.mem_getLogs.mpr ⟨Nat.zero_le _, held.blockNumber_le, held⟩, settled, party⟩
    · rintro ⟨mem, settled, party⟩
      have held := (Watcher.mem_getLogs.mp mem).2.2
      obtain ⟨event, stored, rfl, confirmed⟩ := quiescent.ingested log held settled
      exact ⟨event, ⟨stored, settled, confirmed, party⟩, rfl⟩
  have amounts := (rows.map fun log => log.amount).sum_eq
  rw [map_map] at amounts
  exact amounts

theorem recorded_eq (tied : Tied deployment world) (quiescent : Quiescent world)
    (known : provider ∈ deployment.engine.providers.rows) :
    Reconciler.recordedSettledByProvider world.platform.engine.tables provider.id =
        reservedByProvider world.platform.engine.tables provider.id ∧
      reservedByProvider world.platform.engine.tables provider.id =
        credited world.platform.engine.chain provider.walletAddress := by
  have confirmed : ∀ row ∈ world.platform.engine.tables,
      row.status ≠ .failed → row.status = .confirmed :=
    fun row mem => Settlement.confirmed_of_concluded
      (Settlement.concluded_of_quiet quiescent.landed mem)
  constructor
  · unfold Reconciler.recordedSettledByProvider reservedByProvider
    congr 2
    apply filter_congr
    intro row mem
    cases status : row.status with
    | confirmed | failed => rfl
    | pending | submitted =>
      have landed := confirmed row mem (by rw [status]; nofun)
      rw [status] at landed
      cases landed
  · apply le_antisymm
    · apply tied.safe.reserved_le_credited known
      intro row mem holds
      exact confirmed row mem (Settlement.ne_failed_of_holds holds)
    · exact tied.safe.credited_le known

theorem checkProvider_eq (tied : Tied deployment world) (quiescent : Quiescent world)
    (known : provider ∈ deployment.engine.providers.rows)
    {earned : Reconciler.UnitsByRef}
    (converted : earned.get provider.id = wholeUnits deployment.engine.usdcDecimals
      (earnedByProvider world.platform.ledger provider.id)) :
    Reconciler.checkProvider world.platform.engine.tables
        world.platform.watcher.store.events earned provider =
      if 0 < paidTo world.foreign provider.walletAddress then
        [⟨.providerSettled, provider.walletAddress,
          credited world.platform.engine.chain provider.walletAddress,
          credited world.platform.engine.chain provider.walletAddress +
            paidTo world.foreign provider.walletAddress⟩]
      else [] := by
  obtain ⟨recorded, paid⟩ := recorded_eq tied quiescent known
  have within := tied.safe.sound.reserved provider known
  rw [tied.ledger, paid, ← converted] at within
  unfold Reconciler.checkProvider
  rw [recorded, paid, observed_eq tied quiescent]
  dsimp only
  rw [if_neg (not_lt.mpr within), append_nil]
  push_cast
  by_cases others : 0 < paidTo world.foreign provider.walletAddress
  · rw [if_pos others, if_pos (by omega)]
  · rw [if_neg others, if_neg (by omega)]

theorem checkProviders_eq (tied : Tied deployment world) (quiescent : Quiescent world) :
    Reconciler.checkProviders deployment.engine world.platform.ledger
        world.platform.engine.tables world.platform.watcher.store.events =
      .ok (deployment.engine.providers.rows.flatMap fun provider =>
        if 0 < paidTo world.foreign provider.walletAddress then
          [⟨.providerSettled, provider.walletAddress,
            credited world.platform.engine.chain provider.walletAddress,
            credited world.platform.engine.chain provider.walletAddress +
              paidTo world.foreign provider.walletAddress⟩]
        else []) := by
  have nonneg : ∀ provider, 0 ≤ earnedByProvider world.platform.ledger provider := by
    rw [← tied.ledger]
    exact tied.safe.earned
  have paid : Reconciler.earnedUnitsByProvider deployment.engine world.platform.ledger = _ :=
    Reconciler.unitsByRef_eq fun ref _ => nonneg ref
  unfold Reconciler.checkProviders
  rw [paid]
  refine congrArg Except.ok (flatMap_congr ?_)
  intro provider known
  apply checkProvider_eq tied quiescent known
  exact Reconciler.get_unitsByRef (fun _ => Reconciler.earnedByProvider_of_absent) provider.id

/-- With nothing in flight and every payout stored, the reconciler finds
nothing to report of the providers unless somebody else has paid them, and
then exactly what they were paid. -/
theorem provider_payouts_reconcile (reached : Reachable deployment world)
    (quiescent : Quiescent world) :
    (world.foreign = [] → Reconciler.checkProviders deployment.engine world.platform.ledger
        world.platform.engine.tables world.platform.watcher.store.events = .ok []) ∧
    ∃ found, Reconciler.checkProviders deployment.engine
        world.platform.ledger world.platform.engine.tables
        world.platform.watcher.store.events = .ok found ∧
      (found.map fun finding =>
          (finding.kind, finding.subject, finding.delta)) =
        (deployment.engine.providers.rows.filter fun provider =>
            0 < paidTo world.foreign provider.walletAddress).map
          fun provider => (.providerSettled, provider.walletAddress,
            (paidTo world.foreign provider.walletAddress : Int)) := by
  have checked := checkProviders_eq (reachable_tied reached) quiescent
  have reports : ∀ rows : List ProviderAccount, ((rows.flatMap fun provider =>
          if 0 < paidTo world.foreign provider.walletAddress then
            [(⟨.providerSettled, provider.walletAddress,
              credited world.platform.engine.chain provider.walletAddress,
              credited world.platform.engine.chain provider.walletAddress +
                paidTo world.foreign provider.walletAddress⟩ : Finding)]
          else []).map fun finding =>
            (finding.kind, finding.subject, finding.delta)) =
        (rows.filter fun provider =>
            0 < paidTo world.foreign provider.walletAddress).map
          fun provider => (.providerSettled, provider.walletAddress,
            (paidTo world.foreign provider.walletAddress : Int)) := by
    intro rows
    induction rows with
    | nil => rfl
    | cons provider _ ih =>
      rw [flatMap_cons, map_append, ih]
      by_cases others : 0 < paidTo world.foreign provider.walletAddress
      · simp [others, Finding.delta]
      · simp [others]
  refine ⟨?_, _, checked, reports _⟩
  intro none
  rw [checked, none]
  simp [paidTo]

end

/-- Block two has the event of a batch that pays three units to wallet 70, and
block three that of a foreign one, which pays four. -/
def payoutNetwork : Watcher.Network where
  logs hash :=
    if hash = "0x2" then [⟨.settled, 3, "0xs", 0, 70, 3⟩]
    else if hash = "0x3" then [⟨.settled, 3, "0xf", 0, 70, 4⟩]
    else []

def unpaid : World payoutNetwork where
  platform :=
    { watcher :=
        { chain := ⟨["0x0", "0x1"], by decide, by decide⟩
          store :=
            { events := [], cursor := none
              developers := escrowDeployment.engine.developers
              ledger := [] }
          initial := none }
      engine :=
        { chain := .fresh 1, tables := [], ledger := []
          control := .idle, lastBatchAt := none } }
  foreign := []

def earning : List (Action payoutNetwork) :=
  .post [⟨transferPostings .escrow (some 1) .provider (some 7) 350, .settle,
    some 1, none⟩] :: .engine (.tick true) ::
    List.replicate 12 (.engine (.engine Settlement.plainInput))

def landing : List (Action payoutNetwork) := .engine (.tick false) ::
    List.replicate 12 (.engine (.engine Settlement.plainInput))

def batchBlock : Action payoutNetwork :=
  .block ⟨["0x0", "0x1", "0x2"], by decide, by decide⟩ (payoutTxs 3) []

def foreignBlock : Action payoutNetwork :=
  .block ⟨["0x0", "0x1", "0x2", "0x3"], by decide, by decide⟩ [] [(70, 4)]

def sent : World payoutNetwork := Serial.run (step escrowDeployment) earning unpaid

def landed : World payoutNetwork := Serial.run (step escrowDeployment) landing
    (step escrowDeployment batchBlock sent)

def overpaid : World payoutNetwork := step escrowDeployment (.watcher (.tick .stored))
    (step escrowDeployment foreignBlock landed)

theorem earning_permitted : ∀ action ∈ earning ++ landing,
    ∀ world, Permitted escrowDeployment world action := by
  intro _ mem _
  simp only [earning, landing, cons_append, mem_cons, mem_append, mem_replicate] at mem
  rcases mem with rfl | rfl | ⟨_, rfl⟩ | rfl | ⟨_, rfl⟩
  · intro provider
    have earned : earnedByProvider
        [⟨transferPostings .escrow (some 1) .provider (some 7) 350, .settle,
          some 1, none⟩] provider = if 7 = provider then 350 else 0 := by
      simp [earnedByProvider, accountBalance]
    rw [earned]
    split_ifs <;> decide
  all_goals trivial

theorem landed_reachable : Reachable escrowDeployment landed := by
  have start : Reachable escrowDeployment unpaid := .start ⟨⟨rfl, rfl, rfl⟩,
      ⟨rfl, rfl, rfl, rfl, le_refl _, fun _ => le_refl _⟩, rfl,
      by decide +kernel⟩
  have first : Reachable escrowDeployment sent := Reaches.run start (allPermitted_of_forall
      (fun action mem => earning_permitted action (mem_append_left _ mem)) _)
  have second := Reaches.step first batchBlock
    ⟨"0x2", by decide +kernel, by decide +kernel, by decide +kernel⟩
  exact Reaches.run second (allPermitted_of_forall
    (fun action mem => earning_permitted action (mem_append_right _ mem)) _)

theorem overpaid_reachable : Reachable escrowDeployment overpaid :=
  .step (.step landed_reachable foreignBlock
    ⟨"0x3", by decide +kernel, by decide +kernel, by decide +kernel⟩) _ trivial

theorem provider_payouts_reconcile_overpaid : Reconciler.checkProviders escrowDeployment.engine
        overpaid.platform.ledger overpaid.platform.engine.tables
        overpaid.platform.watcher.store.events = .ok [⟨.providerSettled, 70, 3, 7⟩] ∧
      ∃ found, Reconciler.checkProviders escrowDeployment.engine
          overpaid.platform.ledger overpaid.platform.engine.tables
          overpaid.platform.watcher.store.events = .ok found ∧
        (found.map fun finding =>
          (finding.kind, finding.subject, finding.delta)) = [(.providerSettled, 70, 4)] := by
  have stored : ∀ log ∈ overpaid.platform.logs, log.eventName = .settled →
        ∃ event ∈ overpaid.platform.watcher.store.events,
          event.toChainLog = log ∧ event.confirmed = true := by
    decide +kernel
  refine ⟨by decide +kernel, ?_⟩
  refine (provider_payouts_reconcile overpaid_reachable ⟨by decide +kernel, ?_⟩).2
  intro log held
  exact stored log (Watcher.mem_getLogs.mpr ⟨Nat.zero_le _, held.blockNumber_le, held⟩)

end Gridix.ProviderPayouts
