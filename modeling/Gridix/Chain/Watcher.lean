import Gridix.Base.Serial
import Gridix.Chain.Units
import Mathlib.Data.List.Sort

/-!
# The chain watcher

One scan of the watcher compares the stored events of a trailing window with
the canonical chain, drops the orphaned ones and reverses what they had moved,
ingests the logs it does not know yet, and applies the deposits and
withdrawals that are deep enough.

The scan is one database session without autoflush: a query sees the rows as
of the last flush, so a deletion that is still pending hides nothing.
-/

namespace Gridix.Watcher

open List

inductive EventName where
  | deposited
  | withdrawn
  | debited
  | settled
  | slashed
  deriving DecidableEq, Repr

def EventName.effectful : EventName → Bool
  | .deposited | .withdrawn => true
  | .debited | .settled | .slashed => false

/-- A decoded log as its block carries it.  The party is the `developer` or
the `provider` argument of the event. -/
structure LogEntry where
  eventName : EventName
  address : Address
  txHash : String
  logIndex : Nat
  party : Address
  amount : Nat
  deriving DecidableEq, Repr

structure ChainLog extends LogEntry where
  blockNumber : Nat
  blockHash : String
  deriving DecidableEq, Repr

/-- What the deduplication and the unique constraint look at. -/
def LogEntry.key (entry : LogEntry) : String × Nat := (entry.txHash, entry.logIndex)

/-- A block hash identifies the contents of the block. -/
structure Network where
  logs : String → List LogEntry

def logsAt (network : Network) (blocks : List String) (number : Nat) : List ChainLog :=
  match blocks[number]? with
  | none => []
  | some hash => (network.logs hash).map fun entry => ⟨entry, number, hash⟩

/-- A canonical chain, as the hashes of its blocks from genesis on.  A
transaction is on it at most once. -/
structure Chain (network : Network) where
  blocks : List String
  genesis : blocks ≠ []
  distinct : ((List.range blocks.length).flatMap fun number =>
    (logsAt network blocks number).map fun log => log.key).Nodup

namespace Chain

variable {network : Network}

def latestBlock (chain : Chain network) : Nat := chain.blocks.length - 1

def getBlock (chain : Chain network) (number : Nat) : Option String := chain.blocks[number]?

def getLogs (chain : Chain network) (fromBlock toBlock : Nat) : List ChainLog :=
  (List.range' fromBlock (toBlock + 1 - fromBlock)).flatMap (logsAt network chain.blocks)

end Chain

structure ChainEvent extends ChainLog where
  confirmed : Bool
  processed : Bool
  deriving DecidableEq, Repr

def ChainEvent.confirm (event : ChainEvent) : ChainEvent := { event with confirmed := true }

def ChainEvent.process (event : ChainEvent) : ChainEvent := { event with processed := true }

/-- Everything the watcher reads and writes.  The cursor is the last scanned
block. -/
structure Store where
  events : List ChainEvent
  cursor : Option Nat
  developers : Developers
  ledger : Ledger

structure WatcherSettings where
  usdcDecimals : Nat
  decimalsFit : usdcDecimals ≤ 8
  confirmations : Nat
  startBlock : Nat
  reorgWindow : Nat

structure ScanResult where
  newEvents : Nat := 0
  confirmed : Nat := 0
  applied : Nat := 0
  orphaned : Nat := 0
  reversedEffects : Nat := 0
  reorgDepth : Nat := 0
  unmappedWallets : List Address := []
  deriving DecidableEq, Repr

inductive WatcherError where
  | ledger (error : LedgerError)
  | duplicateEvent
  deriving DecidableEq, Repr

/-- The rows a query sees, and what the next flush will delete and insert. -/
structure Session where
  events : List ChainEvent
  deleted : List (String × Nat)
  added : List ChainEvent
  ledger : Ledger
  result : ScanResult

def Session.remaining (session : Session) : List ChainEvent :=
  session.events.filter fun event => event.key ∉ session.deleted

/-- Pending rows are inserted before the pending deletions are carried out. -/
def Session.flush (session : Session) : Except WatcherError Session :=
  if ((session.events ++ session.added).map fun event => event.key).Nodup then
    .ok { session with
      events := session.remaining ++ session.added, deleted := [],
      added := [] }
  else .error .duplicateEvent

def Session.post (session : Session) (postings : List Posting)
    (reason : Reason) (txHash : String) : Except WatcherError Session :=
  match postTransaction postings reason none (some txHash) with
  | .error error => .error (.ledger error)
  | .ok rows => { session with ledger := session.ledger ++ rows }.flush

def Session.update (session : Session) (event : ChainEvent)
    (change : ChainEvent → ChainEvent) : Session :=
  { session with
    events := KeyedRows.update (fun row : ChainEvent => row.key) event.key change session.events }

def Session.count (session : Session) (change : ScanResult → ScanResult) : Session :=
  { session with result := change session.result }

def developerFor (developers : Developers) (wallet : Address) : Option Developer :=
  developers.rows.find? fun developer => developer.walletAddress == some wallet

section

variable {network : Network} (settings : WatcherSettings)
  (chain : Chain network) (developers : Developers)

/-- The legs that undo a deposit, or else a withdrawal. -/
def reversalPostings (name : EventName) (developer : Uuid) (amount : Int) : List Posting :=
  if name = .deposited then
    transferPostings .developer (some developer) .protocol none amount
  else transferPostings .protocol none .developer (some developer) amount

def reversalReason (name : EventName) : Reason :=
  if name = .deposited then .reorgReverseDeposited
  else .reorgReverseWithdrawn

def reverseEffect (session : Session) (event : ChainEvent) : Except WatcherError Session :=
  match developerFor developers event.party with
  | none => .ok session
  | some developer => do
      let amount := fromUnits settings.usdcDecimals event.amount
      let posted ← session.post (reversalPostings event.eventName developer.id amount)
        (reversalReason event.eventName) event.txHash
      .ok (posted.count fun result =>
        { result with reversedEffects := result.reversedEffects + 1 })

def orphaned (event : ChainEvent) : Bool := chain.getBlock event.blockNumber ≠ some event.blockHash

def reverseApplied (session : Session) (event : ChainEvent) : Except WatcherError Session :=
  if event.processed && event.eventName.effectful then
    reverseEffect settings developers session event
  else .ok session

def dropOrphan (session : Session) (event : ChainEvent) : Except WatcherError Session :=
  if orphaned chain event then do
    let counted := session.count fun result =>
      { result with
        orphaned := result.orphaned + 1
        reorgDepth := max result.reorgDepth event.blockNumber }
    let reversed ← reverseApplied settings developers counted event
    .ok { reversed with deleted := reversed.deleted ++ [event.key] }
  else .ok session

structure EventOrder where
  shuffle : List ChainEvent → List ChainEvent
  perm : ∀ rows, (shuffle rows).Perm rows

def EventOrder.stored : EventOrder := { shuffle := id, perm := fun _ => .refl _ }

def handleReorg (order : EventOrder) (windowStart : Nat)
    (session : Session) : Except WatcherError Session :=
  (order.shuffle (session.events.filter fun event =>
    windowStart ≤ event.blockNumber)).foldlM (dropOrphan settings chain developers) session

def ingest (session : Session) (log : ChainLog) : Session :=
  if session.events.any fun event => event.key = log.key then session
  else
    let row : ChainEvent := { toChainLog := log, confirmed := false, processed := false }
    { session with added := session.added ++ [row] }.count
      fun result => { result with newEvents := result.newEvents + 1 }

def postEffect (session : Session) (event : ChainEvent) (developer : Uuid)
    (amount : Int) : Except WatcherError Session :=
  match event.eventName with
  | .deposited =>
    session.post (transferPostings .protocol none .developer (some developer) amount)
      .chainDeposit event.txHash
  | .withdrawn =>
    session.post (transferPostings .developer (some developer) .protocol none amount)
      .chainWithdraw event.txHash
  | _ => .ok session

/-- The flag tells whether the effect was applied; the event of an unmapped
wallet is marked processed right here. -/
def applyEffect (session : Session) (event : ChainEvent) : Except WatcherError (Bool × Session) :=
  match developerFor developers event.party with
  | none =>
    .ok (false, (session.count fun result =>
        { result with
          unmappedWallets := result.unmappedWallets ++ [event.party] }).update
        event ChainEvent.process)
  | some developer => do
      let amount := fromUnits settings.usdcDecimals event.amount
      let posted ← postEffect session event developer.id amount
      .ok (true, posted)

def confirmEvent (latest : Nat) (session : Session) (event : ChainEvent) :
    Except WatcherError Session :=
  if latest + 1 < settings.confirmations + event.blockNumber then .ok session
  else do
    let confirmed := (session.update event ChainEvent.confirm).count
      fun result => { result with confirmed := result.confirmed + 1 }
    if event.eventName.effectful then
      let (applied, moved) ← applyEffect settings developers confirmed event
      if applied then
        .ok ((moved.update event ChainEvent.process).count fun result =>
          { result with applied := result.applied + 1 })
      else .ok moved
    else .ok (confirmed.update event ChainEvent.process)

def earlier (left right : ChainEvent) : Prop := left.blockNumber < right.blockNumber ∨
    (left.blockNumber = right.blockNumber ∧ left.logIndex ≤ right.logIndex)

instance : DecidableRel earlier := fun left right =>
  inferInstanceAs (Decidable (left.blockNumber < right.blockNumber ∨
    (left.blockNumber = right.blockNumber ∧ left.logIndex ≤ right.logIndex)))

def unprocessed (session : Session) : List ChainEvent :=
  (session.events.filter fun event => event.processed = false).insertionSort earlier

def applyConfirmed (latest : Nat) (session : Session) : Except WatcherError Session :=
  (unprocessed session).foldlM (confirmEvent settings developers latest) session

def initialCursor : Nat :=
  if 0 < settings.startBlock then settings.startBlock
  else chain.latestBlock - 1

def lastScanned (store : Store) : Nat := store.cursor.getD (initialCursor settings chain)

def windowStart (last : Nat) : Nat := max 1 (last + 1 - settings.reorgWindow)

def ingestLogs (fromBlock : Nat) (session : Session) : Session :=
  if fromBlock ≤ chain.latestBlock then
    (chain.getLogs fromBlock chain.latestBlock).foldl ingest session
  else session

/-- One pass: undo what a reorg dropped, ingest, confirm and apply. -/
def scan (order : EventOrder) (store : Store) : Except WatcherError (Store × ScanResult) := do
  let latest := chain.latestBlock
  let last := lastScanned settings chain store
  let start := windowStart settings last
  let reorged ← handleReorg settings chain store.developers order start
    ⟨store.events, [], [], store.ledger, {}⟩
  let fromBlock := min (last + 1) start
  let flushed ← (ingestLogs chain fromBlock reorged).flush
  let session ← applyConfirmed settings store.developers latest flushed
  .ok ({ store with
      events := session.events
      ledger := session.ledger
      cursor := some (if fromBlock ≤ latest then latest else last) },
    session.result)

end

/-- The chain, what the program has stored about it, and, for the statements
about runs, where the cursor began. -/
structure World (network : Network) where
  chain : Chain network
  store : Store
  initial : Option Nat

/-- A tick of the watcher, or what moves around it. -/
inductive Action (network : Network) where
  | tick (order : EventOrder)
  | failedTick
  | chain (next : Chain network)
  | signUp (developer : Uuid) (wallet : Address)
  | elsewhere (rows : Ledger)

/-- A wallet becomes an account on its first sign-in. -/
def findOrCreateDeveloper (developers : Developers) (id : Uuid) (wallet : Address) : Developers :=
  if fresh : id ∉ developers.rows.map Developer.id ∧
      wallet ∉ developers.rows.filterMap Developer.walletAddress then
    { rows := developers.rows ++ [⟨id, some wallet⟩]
      ids := by
        rw [map_append, nodup_append]
        refine ⟨developers.ids, by simp, ?_⟩
        intro left member right single same
        rw [map_singleton, mem_singleton] at single
        rw [same, single] at member
        exact fresh.1 member
      wallets := by
        rw [filterMap_append, nodup_append]
        refine ⟨developers.wallets, by simp, ?_⟩
        intro left member right single same
        have own : right = wallet := by simpa using single
        rw [same, own] at member
        exact fresh.2 member }
  else developers

variable {network : Network}

def step (settings : WatcherSettings) (action : Action network)
    (world : World network) : World network :=
  match action with
  | .tick order =>
    match scan settings world.chain order world.store with
    | .error _ => world
    | .ok (store, _) =>
      { world with
        store := store
        initial := some (world.initial.getD (initialCursor settings world.chain)) }
  | .failedTick => world
  | .chain next => { world with chain := next }
  | .signUp id wallet =>
    { world with
      store := { world.store with
        developers := findOrCreateDeveloper world.store.developers id wallet } }
  | .elsewhere rows =>
    { world with
      store := { world.store with ledger := world.store.ledger ++ rows } }

/-- Nothing scanned yet. -/
def World.Fresh (world : World network) : Prop :=
  world.store.events = [] ∧ world.store.cursor = none ∧ world.initial = none

end Gridix.Watcher
