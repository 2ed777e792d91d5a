import Gridix.Chain.ScanPostings
import Gridix.Inference.Session
import Gridix.Jobs.Postings

/-!
# One ledger for jobs, inference and the chain

The job path, the billing of inference and the chain watcher post to the same
ledger.  A step of the program is one transaction of one of them.
-/

namespace Gridix.Accounts

open List

inductive BillingCall where
  | reserve (amount : ℚ)
  | settle (providerId : Uuid) (held : Int) (actual : ℚ)
  | release (held : Int)
  | deposit (amount : ℚ)
  | commit

section

variable (settings : Settings) (developerId : Uuid)

def BillingCall.perform (session : Session) : BillingCall → Session
  | .reserve amount => (reserveBalance developerId session amount).2
  | .settle providerId held actual =>
    (settleReservation settings developerId ⟨[], []⟩ session providerId held actual).2
  | .release held => (releaseReservation developerId session held).2
  | .deposit amount =>
    session.flush (rowsOf (creditDeposit developerId amount))
  | .commit => session.commit

def billedRows (calls : List BillingCall) (committed : Ledger) : Ledger :=
  (calls.foldl (BillingCall.perform settings developerId) ⟨committed, [], []⟩).own

end

structure Config where
  billing : Settings
  watcher : Watcher.WatcherSettings

structure World (network : Watcher.Network) where
  system : System
  watcher : Watcher.World network

variable {network : Watcher.Network}

def World.ledger (world : World network) : Ledger := world.system.books.ledger

def World.withLedger (world : World network) (ledger : Ledger) : World network where
  system :=
    { world.system with
      books := { world.system.books with ledger := ledger } }
  watcher :=
    { world.watcher with
      store := { world.watcher.store with ledger := ledger } }

inductive Action (network : Watcher.Network) where
  | job (operation : Operation)
  | watcher (action : Watcher.Action network)
  | billing (developerId : Uuid) (calls : List BillingCall)

def step (config : Config) (action : Action network) (world : World network) : World network :=
  match action with
  | .job operation =>
    let system := operation.step config.billing world.system
    { world with system := system }.withLedger system.books.ledger
  | .watcher action =>
    let watcher := Watcher.step config.watcher action world.watcher
    { world with watcher := watcher }.withLedger watcher.store.ledger
  | .billing developerId calls =>
    world.withLedger (world.ledger ++ billedRows config.billing developerId calls world.ledger)

def Permitted (_ : World network) : Action network → Prop
  | .job (.elsewhere books) => books.ledger = []
  | .watcher (.elsewhere _) => False
  | _ => True

structure Start (world : World network) : Prop where
  noJobs : world.system.records = []
  noPostings : world.ledger = []
  unscanned : world.watcher.Fresh
  shared : world.watcher.store.ledger = world.ledger

def Reachable (config : Config) (world : World network) : Prop :=
  Serial.Reaches (step config) Permitted Start world

inductive OwnGroup (settings : Settings) (developer : Uuid) : LedgerGroup → Prop where
  | hold (amount : Int) : OwnGroup settings developer ⟨transferPostings .developer
        (some developer) .escrow (some developer) amount, .inferenceHold,
        none, none⟩
  | giveBack (amount : Int) : OwnGroup settings developer ⟨transferPostings .escrow
        (some developer) .developer (some developer) amount,
        .inferenceHoldRelease, none, none⟩
  | charge (providerId : Uuid) (actual : ℚ) (positive : 0 < quantizeUsdc actual) :
      OwnGroup settings developer ⟨chargePostings settings developer
        providerId (quantizeUsdc actual), .inferenceUsage, none, none⟩
  | deposit (amount : Int) : OwnGroup settings developer ⟨transferPostings .protocol none
        .developer (some developer) amount, .deposit, none, none⟩
  | crossing {group : LedgerGroup} (crossing : Watcher.CrossingOf developer group) :
      OwnGroup settings developer group

def Posted (settings : Settings) (system : System) (developer : Uuid)
    (group : LedgerGroup) : Prop :=
  system.Accounts developer group ∨ OwnGroup settings developer group

/-- The action may post for the developer. -/
def Concerns (config : Config) (world : World network) (developer : Uuid) : Action network → Prop
  | .job operation => operation.Concerns world.system developer
  | .watcher (.tick _) =>
    ∃ owner ∈ world.watcher.store.developers.rows, ∃ wallet, owner.walletAddress = some wallet ∧
        Watcher.Touches config.watcher world.watcher.chain
          world.watcher.store wallet ∧ owner.id = developer
  | .watcher _ => False
  | .billing developerId _ => developerId = developer

section

variable {settings : Settings} {developerId : Uuid} {session : Session} {rows : Ledger}

def BillsOnly (settings : Settings) (developerId : Uuid) (session : Session) : Prop :=
  ∀ group ∈ session.own ++ session.flushed, OwnGroup settings developerId group

theorem BillsOnly.flush (bills : BillsOnly settings developerId session)
    (own : ∀ group ∈ rows, OwnGroup settings developerId group) :
    BillsOnly settings developerId (session.flush rows) := by
  intro group mem
  simp only [Session.flush, ← append_assoc] at mem
  rcases mem_append.mp mem with old | new
  · exact bills group old
  · exact own group new

theorem BillsOnly.commit (bills : BillsOnly settings developerId session) :
    BillsOnly settings developerId session.commit := by
  intro group mem
  simp only [Session.commit, append_nil] at mem
  exact bills group mem

theorem postHold_own {amount : Int} (ok : postHold developerId amount = .ok rows) :
    ∀ group ∈ rows, OwnGroup settings developerId group := by
  obtain ⟨rfl, _⟩ := postTransaction_ok ok
  intro _ mem
  rw [mem_singleton.mp mem]
  exact .hold amount

theorem returnHold_own {held : Int} (ok : returnHold developerId held = .ok rows) :
    ∀ group ∈ rows, OwnGroup settings developerId group := by
  dsimp only [returnHold] at ok
  split_ifs at ok
  · cases ok
    nofun
  · obtain ⟨rfl, _⟩ := postTransaction_ok ok
    intro _ mem
    rw [mem_singleton.mp mem]
    exact .giveBack _

theorem creditDeposit_own (amount : ℚ) : ∀ group ∈ rowsOf (creditDeposit developerId amount),
      OwnGroup settings developerId group := by
  rw [creditDeposit_eq]
  intro _ mem
  simp only [depositRows] at mem
  split_ifs at mem
  · cases mem
  · rw [mem_singleton.mp mem]
    exact .deposit _

theorem BillsOnly.chargeUsage (bills : BillsOnly settings developerId session) (providerId : Uuid)
    (cost : ℚ) :
    BillsOnly settings developerId
      (Gridix.chargeUsage settings developerId ⟨[], []⟩ session providerId cost).2 := by
  dsimp only [Gridix.chargeUsage]
  split_ifs with free _
  · exact bills
  · exact bills
  · rw [postCharge_eq settings developerId providerId (not_le.mp free)]
    apply bills.flush
    intro _ mem
    rw [mem_singleton.mp mem]
    exact .charge providerId cost (not_le.mp free)

theorem BillsOnly.perform (bills : BillsOnly settings developerId session) (call : BillingCall) :
    BillsOnly settings developerId (call.perform settings developerId session) := by
  cases call with
  | reserve amount =>
    dsimp only [BillingCall.perform, reserveBalance]
    split_ifs
    · exact bills
    · exact bills
    · cases posted : postHold developerId (quantizeUsdc amount) with
      | error => exact bills
      | ok => exact (bills.flush (postHold_own posted)).commit
  | settle providerId held actual =>
    dsimp only [BillingCall.perform, settleReservation]
    cases returned : returnHold developerId held with
    | error => exact bills
    | ok rows =>
      have charged := (bills.flush (returnHold_own returned)).chargeUsage providerId actual
      dsimp only
      revert charged
      cases Gridix.chargeUsage settings developerId ⟨[], []⟩
          (session.flush rows) providerId actual with
      | mk result _ =>
        intro charged
        cases result with
        | error => exact charged
        | ok => exact BillsOnly.commit charged
  | release held =>
    dsimp only [BillingCall.perform, releaseReservation]
    cases returned : returnHold developerId held with
    | error => exact bills
    | ok => exact (bills.flush (returnHold_own returned)).commit
  | deposit amount => exact bills.flush (creditDeposit_own amount)
  | commit => exact bills.commit

theorem billedRows_own (calls : List BillingCall) (committed : Ledger) :
    ∀ group ∈ billedRows settings developerId calls committed,
      OwnGroup settings developerId group := by
  have bills : ∀ (calls : List BillingCall) (session : Session),
      BillsOnly settings developerId session →
      BillsOnly settings developerId (calls.foldl (BillingCall.perform settings developerId)
          session) := by
    intro calls
    induction calls with
    | nil => exact fun _ bills => bills
    | cons call _ ih => exact fun session bills => ih _ (bills.perform call)
  intro group mem
  exact bills calls ⟨committed, [], []⟩ nofun group (mem_append_left _ mem)

end

structure Consistent (config : Config) (world : World network) : Prop where
  shared : world.watcher.store.ledger = world.ledger
  distinct : (world.watcher.store.events.map fun event => event.key).Nodup
  posted : ∀ group ∈ world.ledger, ∃ developer, Posted config.billing world.system developer group

section

variable {config : Config} {world : World network}
  {action : Action network}

theorem step_keeps (config : Config) (world : World network) (action : Action network) :
    world.system.Keeps (step config action world).system := by
  cases action with
  | job operation =>
    change world.system.Keeps (operation.step config.billing world.system)
    rcases Serial.transact_cases (operation.perform config.billing) world.system with ok | unchanged
    · exact (Operation.perform_projects ok).keeps
    · rw [Operation.step, unchanged]
      exact .refl _
  | watcher | billing => exact .refl _

theorem step_posts (consistent : Consistent config world) (permitted : Permitted world action) :
    ∃ rows, (step config action world).ledger = world.ledger ++ rows ∧ ∀ group ∈ rows, ∃ developer,
        Concerns config world developer action ∧
          Posted config.billing (step config action world).system developer group := by
  cases action with
  | job operation =>
    change ∃ rows, (operation.step config.billing
      world.system).books.ledger = _ ∧ ∀ group ∈ rows, ∃ developer, _ ∧
        Posted config.billing (operation.step config.billing world.system) developer group
    rcases Serial.transact_cases (operation.perform config.billing)
      world.system with success | unchanged
    · obtain ⟨rows, ledger, groups⟩ := Operation.perform_grows (by
        rintro _ rfl
        exact permitted) success
      refine ⟨rows, ledger, ?_⟩
      intro group mem
      obtain ⟨developer, about, accounts⟩ := groups group mem
      exact ⟨developer, about, Or.inl accounts⟩
    · rw [Operation.step, unchanged]
      exact ⟨[], (append_nil _).symm, (by rintro _ ⟨⟩)⟩
  | watcher action =>
    cases action with
    | tick order =>
      change ∃ rows, (Watcher.step config.watcher (.tick order) world.watcher).store.ledger = _ ∧ _
      simp only [Watcher.step]
      cases success : Watcher.scan config.watcher world.watcher.chain order world.watcher.store with
      | error =>
        exact ⟨[], by rw [append_nil]; exact consistent.shared,
          (by rintro _ ⟨⟩)⟩
      | ok =>
        obtain ⟨rows, ledger, groups⟩ := Watcher.scan_posts consistent.distinct success
        refine ⟨rows, by rw [← consistent.shared]; exact ledger, ?_⟩
        intro group mem
        obtain ⟨owner, known, wallet, owns, touches, crossing⟩ := groups group mem
        exact ⟨owner.id, ⟨owner, known, wallet, owns, touches, rfl⟩, Or.inr (.crossing crossing)⟩
    | failedTick | chain | signUp =>
      refine ⟨[], ?_, (by rintro _ ⟨⟩)⟩
      rw [append_nil]
      exact consistent.shared
    | elsewhere => exact permitted.elim
  | billing developerId calls =>
    refine ⟨_, rfl, ?_⟩
    intro group mem
    exact ⟨developerId, rfl, Or.inr (billedRows_own calls _ group mem)⟩

theorem Consistent.step (consistent : Consistent config world)
    (permitted : Permitted world action) :
    Consistent config (step config action world) := by
  refine ⟨?_, ?_, ?_⟩
  · cases action <;> rfl
  · cases action with
    | job | billing => exact consistent.distinct
    | watcher action =>
      cases action with
      | tick order =>
        change ((Watcher.step config.watcher (.tick order)
          world.watcher).store.events.map fun event => event.key).Nodup
        simp only [Watcher.step]
        cases success : Watcher.scan config.watcher world.watcher.chain
            order world.watcher.store with
        | error _ => exact consistent.distinct
        | ok _ => exact (Watcher.scan_ok success consistent.distinct).1
      | failedTick | chain | signUp | elsewhere => exact consistent.distinct
  · obtain ⟨_, ledger, groups⟩ := step_posts consistent permitted
    rw [ledger]
    intro group mem
    rcases mem_append.mp mem with old | new
    · obtain ⟨developer, posted⟩ := consistent.posted group old
      exact ⟨developer, posted.imp_left fun accounts =>
        accounts.mono (step_keeps config world action)⟩
    · obtain ⟨developer, _, posted⟩ := groups group new
      exact ⟨developer, posted⟩

theorem reachable_consistent (reached : Reachable config world) : Consistent config world := by
  induction reached with
  | start initial =>
    refine ⟨initial.shared, ?_, ?_⟩
    · rw [initial.unscanned.1]
      exact nodup_nil
    · rw [initial.noPostings]
      nofun
  | step _ _ permitted consistent => exact consistent.step permitted

end

end Gridix.Accounts
