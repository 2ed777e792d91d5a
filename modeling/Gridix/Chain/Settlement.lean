import Gridix.Base.Serial
import Gridix.Chain.Units
import Mathlib.Data.List.Sort

/-!
# The settlement engine

A tick of the engine is four database sessions: advance what is in flight,
record a batch of payouts, record the debits of developers, and advance again,
which broadcasts what was recorded.  Between two statements of a tick the
chain may move, providers may earn, and the process may crash: what was
committed stays, the session at hand and the clock of the last batch are lost.

A transaction hash stands for the transaction it was computed from.
-/

namespace Gridix.Settlement

inductive Call where
  | settleBatch (payees : List (Address × Nat))
  | depositSettlement (amount : Nat)
  | debit (developer : Address) (amount : Nat)
  deriving DecidableEq, Repr

/-- A signed transaction.  The salt is everything else that is signed, such
as the gas price at the time. -/
structure Tx where
  nonce : Nat
  call : Call
  salt : Nat
  deriving DecidableEq, Repr

structure Mined where
  tx : Tx
  block : Nat
  success : Bool
  deriving DecidableEq, Repr

/-- The chain as far as the coordinator is concerned.  Blocks up to `final`
are never replaced, and a nonce is executed at most once. -/
structure ChainState where
  height : Nat
  final : Nat
  accepted : List Tx
  mined : List Mined
  once : (mined.map fun entry => entry.tx.nonce).Nodup

namespace ChainState

def fresh (height : Nat) : ChainState := ⟨height, height, [], [], List.nodup_nil⟩

def accept (chain : ChainState) (tx : Tx) : ChainState :=
  { chain with accepted := tx :: chain.accepted }

def getReceipt (chain : ChainState) (tx : Tx) : Option Mined :=
  chain.mined.find? fun entry => entry.tx = tx

/-- A new block executes some accepted transactions of unused nonces. -/
def mine (confirmations : Nat) (chain : ChainState) (included : List (Tx × Bool)) : ChainState :=
  let entries := included.map fun choice =>
    { tx := choice.1, block := chain.height + 1, success := choice.2 : Mined }
  if fits : ((chain.mined ++ entries).map fun entry =>
      entry.tx.nonce).Nodup ∧
      ∀ choice ∈ included, choice.1 ∈ chain.accepted then
    { chain with
      height := chain.height + 1
      final := max chain.final (chain.height + 2 - confirmations)
      mined := chain.mined ++ entries
      once := fits.1 }
  else chain

/-- The blocks after `keep` are replaced by empty ones; their transactions can
be mined again. -/
def reorg (confirmations : Nat) (chain : ChainState) (keep height : Nat) : ChainState :=
  if chain.final ≤ keep then
    { chain with
      height := max keep height
      final := max chain.final (max keep height + 1 - confirmations)
      mined := chain.mined.filter fun entry => entry.block ≤ keep
      once := chain.once.sublist (List.filter_sublist.map _) }
  else chain

end ChainState

inductive TxStatus where
  | pending
  | submitted
  | confirmed
  | failed
  deriving DecidableEq, Repr

def TxStatus.live : TxStatus → Bool
  | .pending | .submitted | .confirmed => true
  | .failed => false

def TxStatus.inFlight : TxStatus → Bool
  | .pending | .submitted => true
  | .confirmed | .failed => false

/-- The deterministic idempotency key of a row. -/
inductive BatchKey where
  | deposit (cycle : Nat)
  | settle (cycle : Nat)
  | debit (developer : Uuid) (settledUnits : Int)
  deriving DecidableEq, Repr

/-- A `chain_settlements` row with the `provider_settlements` rows that
reference it. -/
structure ChainSettlement where
  id : Uuid
  call : Call
  status : TxStatus
  batchKey : BatchKey
  nonce : Nat
  txHash : Option Tx
  reservations : List (Uuid × Nat)
  deriving DecidableEq, Repr

abbrev Tables := List ChainSettlement

inductive EngineError where
  | duplicateKey (key : BatchKey)
  deriving DecidableEq, Repr

def insert (tables : Tables) (row : ChainSettlement) : Except EngineError Tables :=
  if tables.any fun other => other.batchKey = row.batchKey then
    .error (.duplicateKey row.batchKey)
  else .ok (tables ++ [row])

def inFlight (tables : Tables) : Nat := tables.countP fun row => row.status.inFlight

structure EngineSettings where
  usdcDecimals : Nat
  confirmations : Nat
  thresholdUnits : Int
  interval : Int
  providers : Providers
  developers : Developers

def ChainSettlement.reserves (row : ChainSettlement) (provider : Uuid) : Nat :=
  ((row.reservations.filter fun leg => leg.1 = provider).map Prod.snd).sum

def reservedByProvider (tables : Tables) (provider : Uuid) : Nat :=
  ((tables.filter fun row => row.status.live).map fun row =>
    row.reserves provider).sum

def earnedByProvider (ledger : Ledger) (provider : Uuid) : Int :=
  accountBalance ledger .provider (some provider)

section

variable (settings : EngineSettings)

def unsettledUnits (ledger : Ledger) (tables : Tables) (provider : Uuid) : Int :=
  let earned := earnedByProvider ledger provider
  if 0 < earned then
    wholeUnits settings.usdcDecimals earned - reservedByProvider tables provider
  else 0

/-- What the providers earned beyond what was paid out. -/
def unsettled (ledger : Ledger) (tables : Tables) : List (ProviderAccount × Nat) :=
  ((settings.providers.rows.insertionSort fun left right =>
      left.id ≤ right.id).map fun provider =>
    (provider, (unsettledUnits settings ledger tables provider.id).toNat)).filter
      fun payout => 0 < payout.2

def settledUnitsByDev (ledger : Ledger) (developer : Uuid) : Int := wholeUnits settings.usdcDecimals
    (Ledger.sum (ledger.filter fun group => group.reason = .settle) .escrow .debit (some developer))

def Call.debits (wallet : Address) : Call → Nat
  | .debit developer amount => if developer = wallet then amount else 0
  | .settleBatch _ | .depositSettlement _ => 0

def onchainDebitedByDev (tables : Tables) (wallet : Address) : Nat :=
  ((tables.filter fun row => row.status.live).map fun row =>
    row.call.debits wallet).sum

def reserveBaseNonce (chainNonce : Nat) (tables : Tables) : Nat :=
  tables.foldl (fun base row => max base (row.nonce + 1)) chainNonce

def intervalElapsed (lastBatchAt : Option Int) (now : Int) : Bool :=
  match lastBatchAt with
  | none => true
  | some last => settings.interval ≤ now - last

structure Readings where
  now : Int
  chainNonce : Nat
  pool : Nat

def totalUnits (payouts : List (ProviderAccount × Nat)) : Nat := (payouts.map Prod.snd).sum

def newRow (tables : Tables) (call : Call) (key : BatchKey) (nonce : Nat)
    (reservations : List (Uuid × Nat)) : ChainSettlement :=
  { id := tables.length, call := call, status := .pending, batchKey := key
    nonce := nonce, txHash := none, reservations := reservations }

def insertDeposit (shortfall cycle nonce : Nat) (tables : Tables) : Except EngineError Tables :=
  if 0 < shortfall then
    insert tables (newRow tables (.depositSettlement shortfall) (.deposit cycle) nonce [])
  else .ok tables

def recordBatch (payouts : List (ProviderAccount × Nat))
    (readings : Readings) (tables : Tables) : Except EngineError Tables := do
  let cycle := tables.length
  let base := reserveBaseNonce readings.chainNonce tables
  let shortfall := totalUnits payouts - readings.pool
  let funded ← insertDeposit shortfall cycle base tables
  insert funded (newRow funded (.settleBatch (payouts.map fun payout =>
      (payout.1.walletAddress, payout.2)))
    (.settle cycle) (base + if 0 < shortfall then 1 else 0)
    (payouts.map fun payout => (payout.1.id, payout.2)))

/-- A batch is started when nothing is in flight, something is owed, and it
is forced, large enough or long enough ago. -/
def batchDue (force : Bool) (lastBatchAt : Option Int) (now : Int)
    (ledger : Ledger) (tables : Tables) : Bool :=
  let total := totalUnits (unsettled settings ledger tables)
  inFlight tables = 0 && 0 < total && (force || settings.thresholdUnits ≤ total ||
      intervalElapsed settings lastBatchAt now)

/-- Records a payout batch when it is due. -/
def maybeBatch (force : Bool) (lastBatchAt : Option Int)
    (readings : Readings) (ledger : Ledger) (tables : Tables) :
    Except EngineError (Tables × Option Int) :=
  if batchDue settings force lastBatchAt readings.now ledger tables then do
    let recorded ← recordBatch (unsettled settings ledger tables) readings tables
    .ok (recorded, some readings.now)
  else .ok (tables, lastBatchAt)

/-- What the developer consumed beyond what was debited on chain. -/
def owed (ledger : Ledger) (tables : Tables) (developer : Developer) : Int :=
  match developer.walletAddress with
  | none => 0
  | some wallet =>
    settledUnitsByDev settings ledger developer.id - onchainDebitedByDev tables wallet

def debitRow (ledger : Ledger) (tables current : Tables) (nonce : Nat)
    (developer : Developer) : ChainSettlement :=
  newRow current (.debit (developer.walletAddress.getD 0)
      (owed settings ledger tables developer).toNat)
    (.debit developer.id (settledUnitsByDev settings ledger developer.id))
    nonce []

def debtors (ledger : Ledger) (tables : Tables) : List Developer :=
  (settings.developers.rows.insertionSort fun left right =>
    left.id ≤ right.id).filter fun developer =>
      0 < owed settings ledger tables developer

def recordDebits (ledger : Ledger) (tables : Tables) :
    List Developer → Nat → Tables → Except EngineError Tables
  | [], _, current => .ok current
  | developer :: rest, nonce, current => do
      let recorded ← insert current (debitRow settings ledger tables current nonce developer)
      recordDebits ledger tables rest (nonce + 1) recorded

/-- Records the debits when nothing is in flight and the interval is over. -/
def maybeDebit (force : Bool) (lastBatchAt : Option Int)
    (readings : Readings) (ledger : Ledger) (tables : Tables) :
    Except EngineError Tables :=
  if 0 < inFlight tables then .ok tables
  else if force || intervalElapsed settings lastBatchAt readings.now then
    recordDebits settings ledger tables (debtors settings ledger tables)
      (reserveBaseNonce readings.chainNonce tables) tables
  else .ok tables

/-- What a broadcast comes back with.  After an error the transaction may
still have reached the network. -/
inductive SendReply where
  | hash (salt : Nat)
  | chainError (reached : Option Nat)
  | raised (reached : Option Nat)
  deriving DecidableEq, Repr

def needsBroadcast (row : ChainSettlement) : Bool := row.status = .pending || row.txHash = none

def ChainSettlement.tx (row : ChainSettlement) (salt : Nat) : Tx :=
  { nonce := row.nonce, call := row.call, salt := salt }

def ChainSettlement.submit (row : ChainSettlement) (salt : Nat) : ChainSettlement :=
  { row with status := .submitted, txHash := some (row.tx salt) }

/-- Adopt a receipt that is deep enough.  A revert releases the
reservations. -/
def ChainSettlement.conclude (row : ChainSettlement) (entry : Mined) : ChainSettlement :=
  if entry.success then { row with status := .confirmed }
  else { row with status := .failed, reservations := [] }

/-- The receipt a row is concluded by, if the client finds one that is deep
enough below the head read at the start. -/
def finalReceipt (chain : ChainState) (latest : Nat) (found : Bool)
    (row : ChainSettlement) : Option Mined :=
  match row.txHash with
  | none => none
  | some tx =>
    (if found then chain.getReceipt tx else none).filter fun entry =>
      settings.confirmations + entry.block ≤ latest + 1

def updateRow (tables : Tables) (id : Uuid) (change : ChainSettlement → ChainSettlement) : Tables :=
  KeyedRows.update ChainSettlement.id id change tables

def flightRows (tables : Tables) : List Uuid :=
  ((tables.filter fun row => row.status.inFlight).insertionSort
    fun left right => left.nonce ≤ right.nonce).map ChainSettlement.id

end

inductive Pass where
  | first (force : Bool)
  | last
  deriving DecidableEq, Repr

/-- Where the engine stands.  A draft is the session's view of the tables. -/
inductive Control where
  | idle
  | recovering (pass : Pass) (latest : Nat) (todo : List Uuid) (draft : Tables)
  | batching (force : Bool)
  | batched (force : Bool) (draft : Tables)
  | debiting (force : Bool)
  | debited (draft : Tables)
  | rebroadcasting
  deriving DecidableEq, Repr

/-- The chain, the engine's table and where the engine is. -/
structure World where
  chain : ChainState
  tables : Tables
  ledger : Ledger
  control : Control
  lastBatchAt : Option Int

structure Input where
  readings : Readings
  reply : SendReply
  found : Bool

section

variable (settings : EngineSettings)

def World.beginRecovery (world : World) (pass : Pass) : World :=
  { world with
    control := .recovering pass world.chain.height (flightRows world.tables) world.tables }

/-- The network may have got hold of a transaction although the call
failed. -/
def World.reach (world : World) (row : ChainSettlement) : Option Nat → World
  | none => world
  | some salt => { world with chain := world.chain.accept (row.tx salt) }

def World.broadcast (world : World) (pass : Pass) (latest : Nat)
    (row : ChainSettlement) (rest : List Uuid) (draft : Tables) :
    SendReply → World
  | .hash salt =>
    { world with
      chain := world.chain.accept (row.tx salt)
      control := .recovering pass latest (row.id :: rest)
        (updateRow draft row.id fun row => row.submit salt) }
  | .chainError reached =>
    { world.reach row reached with
      control := .recovering pass latest rest draft }
  | .raised reached => { world.reach row reached with control := .idle }

def World.check (world : World) (pass : Pass) (latest : Nat) (found : Bool)
    (row : ChainSettlement) (rest : List Uuid) (draft : Tables) : World :=
  let concluded :=
    match finalReceipt settings world.chain latest found row with
    | none => draft
    | some entry => updateRow draft row.id fun row => row.conclude entry
  { world with control := .recovering pass latest rest concluded }

def World.recover (world : World) (pass : Pass) (latest : Nat)
    (draft : Tables) (input : Input) : List Uuid → World
  | [] =>
    { world with
      tables := draft
      control := match pass with
        | .first force => .batching force
        | .last => .idle }
  | id :: rest =>
    match draft.find? fun row => row.id = id with
    | none => { world with control := .recovering pass latest rest draft }
    | some row =>
      if needsBroadcast row then
        world.broadcast pass latest row rest draft input.reply
      else world.check settings pass latest input.found row rest draft

def engineStep (input : Input) (world : World) : World :=
  match world.control with
  | .idle => world
  | .recovering pass latest todo draft =>
    world.recover settings pass latest draft input todo
  | .batching force =>
    match maybeBatch settings force world.lastBatchAt input.readings world.ledger world.tables with
    | .error _ => { world with control := .idle }
    | .ok (draft, lastBatchAt) =>
      { world with
        control := .batched force draft, lastBatchAt := lastBatchAt }
  | .batched force draft =>
    { world with tables := draft, control := .debiting force }
  | .debiting force =>
    match maybeDebit settings force world.lastBatchAt input.readings world.ledger world.tables with
    | .error _ => { world with control := .idle }
    | .ok draft => { world with control := .debited draft }
  | .debited draft =>
    { world with tables := draft, control := .rebroadcasting }
  | .rebroadcasting => world.beginRecovery .last

/-- What the engine does and what happens around it. -/
inductive Action where
  | tick (force : Bool)
  | engine (input : Input)
  | abort
  | crash
  | mine (included : List (Tx × Bool))
  | reorg (keep height : Nat)
  | post (rows : Ledger)

def step (action : Action) (world : World) : World :=
  match action with
  | .tick force =>
    if world.control = .idle then world.beginRecovery (.first force)
    else world
  | .engine input => engineStep settings input world
  | .abort => { world with control := .idle }
  | .crash => { world with control := .idle, lastBatchAt := none }
  | .mine included =>
    { world with chain := world.chain.mine settings.confirmations included }
  | .reorg keep height =>
    { world with chain := world.chain.reorg settings.confirmations keep height }
  | .post rows => { world with ledger := world.ledger ++ rows }

/-- Nothing recorded and nothing sent; the blocks that are deep enough are
final. -/
structure World.Fresh (world : World) : Prop where
  tables : world.tables = []
  control : world.control = .idle
  accepted : world.chain.accepted = []
  mined : world.chain.mined = []
  final : world.chain.height + 1 ≤ settings.confirmations + world.chain.final
  earned : ∀ provider, 0 ≤ earnedByProvider world.ledger provider

/-- Posted rows take nothing from a provider. -/
def Credits (_ : World) : Action → Prop
  | .post rows => ∀ provider, 0 ≤ earnedByProvider rows provider
  | .tick _ | .engine _ | .abort | .crash | .mine _ | .reorg _ _ => True

end

end Gridix.Settlement
