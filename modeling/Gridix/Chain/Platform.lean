import Gridix.Chain.Backing
import Gridix.Chain.DebitBound
import Gridix.Chain.Effects

/-!
# The watcher, the engine and the program on one ledger

The watcher mirrors deposits and withdrawals into the ledger, the program
moves value between its accounts, and the engine debits what jobs consumed.
What a developer has on its two accounts is what was mirrored, less what its
jobs consumed and what inference charged.
-/

namespace Gridix

open Settlement (Bounded Earns Earning Safe earnedByProvider settledJobs)
open Watcher (Matched mirrored watcherReason)

def funds (ledger : Ledger) (developer : Uuid) : Int :=
  accountBalance ledger .developer (some developer) + accountBalance ledger .escrow (some developer)

def jobsConsumed (ledger : Ledger) (developer : Uuid) : Int :=
  (settledJobs ledger).sum .escrow .debit (some developer)

def usageCharged (ledger : Ledger) (developer : Uuid) : Int :=
  Ledger.sum (ledger.filter fun group => group.reason = .inferenceUsage)
    .developer .debit (some developer)

structure Accounted (rows : Ledger) : Prop where
  balance : ∀ developer, funds rows developer +
    jobsConsumed rows developer + usageCharged rows developer = mirrored rows developer
  consumed : ∀ developer, 0 ≤ jobsConsumed rows developer
  charged : ∀ developer, 0 ≤ usageCharged rows developer
  earned : ∀ provider, 0 ≤ earnedByProvider rows provider

section

variable (left right : Ledger) (developer : Uuid)

theorem funds_append : funds (left ++ right) developer =
    funds left developer + funds right developer := by
  simp only [funds, accountBalance_append]
  omega

theorem jobsConsumed_append : jobsConsumed (left ++ right) developer =
    jobsConsumed left developer + jobsConsumed right developer := by
  simp [jobsConsumed, settledJobs]

theorem usageCharged_append : usageCharged (left ++ right) developer =
    usageCharged left developer + usageCharged right developer := by
  simp [usageCharged]

end

theorem accounted_nil : Accounted [] :=
  ⟨fun _ => rfl, fun _ => le_refl _, fun _ => le_refl _, fun _ => le_refl _⟩

theorem Accounted.append {left right : Ledger} (first : Accounted left)
    (second : Accounted right) : Accounted (left ++ right) := by
  refine ⟨?_, ?_, ?_, ?_⟩
  · intro developer
    rw [funds_append, jobsConsumed_append, usageCharged_append,
      Watcher.mirrored_append, ← first.balance developer,
      ← second.balance developer]
    omega
  · intro developer
    rw [jobsConsumed_append]
    exact add_nonneg (first.consumed developer) (second.consumed developer)
  · intro developer
    rw [usageCharged_append]
    exact add_nonneg (first.charged developer) (second.charged developer)
  · intro provider
    have earlier := first.earned provider
    have later := second.earned provider
    unfold earnedByProvider at earlier later ⊢
    rw [accountBalance_append]
    exact add_nonneg earlier later

theorem accounted_of_groups {rows : Ledger}
    (groups : ∀ group ∈ rows, Accounted [group]) : Accounted rows := by
  induction rows with
  | nil => exact accounted_nil
  | cons group _ ih =>
    exact (groups group List.mem_cons_self).append (ih fun other mem =>
        groups other (List.mem_cons_of_mem _ mem))

theorem Accounted.earns {rows : Ledger} (accounted : Accounted rows) : Earns rows :=
  ⟨accounted.earned, accounted.consumed⟩

section

variable {postings : List Posting} {reason : Reason} {jobId : Option Uuid}
  {txHash : Option String}

theorem jobsConsumed_group (developer : Uuid) :
    jobsConsumed [⟨postings, reason, jobId, txHash⟩] developer =
      if reason = .settle then
        sumPostings .escrow .debit (some developer) postings
      else 0 := by
  by_cases settles : reason = .settle <;> simp [jobsConsumed, settledJobs, settles]

theorem usageCharged_group (developer : Uuid) :
    usageCharged [⟨postings, reason, jobId, txHash⟩] developer =
      if reason = .inferenceUsage then
        sumPostings .developer .debit (some developer) postings
      else 0 := by
  by_cases usage : reason = .inferenceUsage <;> simp [usageCharged, usage]

theorem accounted_outside
    (mirrors : ∀ developer, funds [⟨postings, reason, jobId, txHash⟩] developer =
      mirrored [⟨postings, reason, jobId, txHash⟩] developer)
    (earned : ∀ provider, 0 ≤ earnedByProvider [⟨postings, reason, jobId, txHash⟩] provider)
    (notSettle : reason ≠ .settle) (notUsage : reason ≠ .inferenceUsage) :
    Accounted [⟨postings, reason, jobId, txHash⟩] := by
  refine ⟨fun developer => ?_, fun developer => ?_, fun developer => ?_, earned⟩
  · rw [jobsConsumed_group, usageCharged_group, if_neg notSettle,
      if_neg notUsage, add_zero, add_zero, mirrors]
  · rw [jobsConsumed_group, if_neg notSettle]
  · rw [usageCharged_group, if_neg notUsage]

theorem accounted_quiet
    (even : ∀ developer, funds [⟨postings, reason, jobId, txHash⟩] developer = 0)
    (earned : ∀ provider, 0 ≤ earnedByProvider [⟨postings, reason, jobId, txHash⟩] provider)
    (notSettle : reason ≠ .settle) (notUsage : reason ≠ .inferenceUsage)
    (notMirrored : watcherReason reason = false) :
    Accounted [⟨postings, reason, jobId, txHash⟩] := by
  refine accounted_outside (fun developer => ?_) earned notSettle notUsage
  rw [even, Watcher.mirrored_eq_zero]
  simpa using notMirrored

theorem accounted_release (jobId : Uuid) {owner providerId : Uuid} {cost fee : Int}
    (pos : 0 < cost) (feeNonneg : 0 ≤ fee) (feeLe : fee ≤ cost) :
    Accounted [⟨settlePostings owner providerId cost fee, .settle, some jobId, none⟩] := by
  refine ⟨fun developer => ?_, fun developer => ?_, fun developer => ?_, fun provider => ?_⟩
  · rw [jobsConsumed_group, if_pos rfl, usageCharged_group,
      Watcher.mirrored_eq_zero _ (by simp [watcherReason])]
    simp [funds, accountBalance]
  · rw [jobsConsumed_group, sumPostings_settle_escrow_debit]
    split_ifs <;> omega
  · rw [usageCharged_group, if_neg (by decide)]
  · have rows : releaseRows jobId owner providerId cost fee =
        [⟨settlePostings owner providerId cost fee, .settle, some jobId, none⟩] := if_neg (by omega)
    rw [earnedByProvider, ← rows, provider_releaseRows _ _ _ feeNonneg feeLe]
    split_ifs <;> omega

theorem accounted_charge (settings : Settings) (owner providerId : Uuid)
    {actual : ℚ} (pos : 0 < quantizeUsdc actual) :
    Accounted [⟨chargePostings settings owner providerId
      (quantizeUsdc actual), .inferenceUsage, none, none⟩] := by
  refine ⟨fun developer => ?_, fun developer => ?_, fun developer => ?_, fun provider => ?_⟩
  · rw [jobsConsumed_group, usageCharged_group,
      Watcher.mirrored_eq_zero _ (by simp [watcherReason])]
    simp [funds, accountBalance]
  · rw [jobsConsumed_group, if_neg (by decide)]
  · rw [usageCharged_group, sumPostings_charge_developer_debit]
    split_ifs <;> omega
  · have feeLe := usageFee_le settings (le_of_lt pos)
    simp only [earnedByProvider, accountBalance, chargePostings]
    by_cases same : providerId = provider
    · split_ifs <;> simp [sumPostings, Posting.counts, same] <;> omega
    · split_ifs <;> simp [sumPostings, Posting.counts, same]

end

def Movement.forInference : Movement → Bool
  | .billing _ (.reserve _) | .billing _ (.settle _ _ _)
  | .billing _ (.release _) => true
  | _ => false

def Movement.forJobs : Movement → Bool
  | .billing _ (.jobHold _ _) | .settle _ _ _ _ _ | .refund _ _ _ => true
  | _ => false

theorem reasons_inside {movement : Movement}
    (inside : movement.forInference = true ∨ movement.forJobs = true) :
    ∀ reason ∈ movement.reasons, reason ≠ .deposit ∧ reason ≠ .dataCost ∧
      watcherReason reason = false := by
  cases movement with
  | billing _ activity =>
    cases activity <;> simp_all [Movement.forInference, Movement.forJobs, Movement.reasons,
        watcherReason]
  | settle | refund => simp [Movement.reasons, watcherReason]

theorem movement_accounted {settings : Settings} {committed : Ledger} {movement : Movement}
    (inside : movement.forInference = true ∨ movement.forJobs = true) :
    Accounted (movement.rows settings committed) := by
  apply accounted_of_groups
  intro _ mem
  obtain ⟨shape, reason⟩ := movement_posts mem
  obtain ⟨noDeposit, noData, unmirrored⟩ := reasons_inside inside _ reason
  cases shape with
  | hold developerId amount reason jobId kind
  | giveBack _ _ _ _ kind =>
    apply accounted_quiet
    · simp [funds, accountBalance]
    · simp [earnedByProvider, accountBalance]
    all_goals rcases kind with rfl | rfl <;> simp [watcherReason]
  | credit => exact (noDeposit rfl).elim
  | debit _ _ _ _ _ kind =>
    rcases kind with rfl | rfl
    · exact (noData rfl).elim
    · cases unmirrored
  | release jobId _ _ _ _ pos feeNonneg feeLe => exact accounted_release jobId pos feeNonneg feeLe
  | charge developerId providerId _ pos =>
    exact accounted_charge settings developerId providerId pos

theorem ne_of_watcherReason {reason other : Reason} (counted : watcherReason reason = true)
    (uncounted : watcherReason other = false) : reason ≠ other := by
  rintro rfl
  rw [counted] at uncounted
  cases uncounted

theorem accounted_crossing {group : LedgerGroup}
    (crossing : Watcher.Crossing group) : Accounted [group] := by
  cases crossing with
  | credit _ _ _ _ counted =>
    apply accounted_outside
    · intro _
      rw [Watcher.mirrored_credit counted]
      simp [funds, accountBalance]
    · simp [earnedByProvider, accountBalance]
    · exact ne_of_watcherReason counted rfl
    · exact ne_of_watcherReason counted rfl
  | debit owner _ _ _ counted =>
    apply accounted_outside
    · intro developer
      rw [Watcher.mirrored_debit counted]
      by_cases same : owner = developer <;> simp [funds, accountBalance, same]
    · simp [earnedByProvider, accountBalance]
    · exact ne_of_watcherReason counted rfl
    · exact ne_of_watcherReason counted rfl

structure Deployment where
  billing : Settings
  watcher : Watcher.WatcherSettings
  engine : Settlement.EngineSettings
  decimals : watcher.usdcDecimals = engine.usdcDecimals

/-- Watcher and engine over one ledger. -/
structure Platform (network : Watcher.Network) where
  watcher : Watcher.World network
  engine : Settlement.World

namespace Platform

variable {network : Watcher.Network}

def ledger (platform : Platform network) : Ledger := platform.watcher.store.ledger

inductive Action (network : Watcher.Network) where
  | watcher (action : Watcher.Action network)
  | engine (action : Settlement.Action)
  | movement (movement : Movement)

def step (deployment : Deployment) (action : Action network)
    (platform : Platform network) : Platform network :=
  match action with
  | .watcher action =>
    let moved := Watcher.step deployment.watcher action platform.watcher
    { watcher := moved
      engine := { platform.engine with ledger := moved.store.ledger } }
  | .engine action =>
    { platform with
      engine := Settlement.step deployment.engine action platform.engine }
  | .movement movement =>
    let rows := movement.rows deployment.billing platform.ledger
    { watcher :=
        Watcher.step deployment.watcher (.elsewhere rows) platform.watcher
      engine := Settlement.step deployment.engine (.post rows) platform.engine }

/-- The watcher scans, the chain moves, the engine ticks, and the program
makes movements of a given kind; nothing else posts, and nobody signs up. -/
def Permitted (traffic : Movement → Bool) (_ : Platform network) : Action network → Prop
  | .watcher (.tick _) | .watcher .failedTick | .watcher (.chain _) => True
  | .watcher (.signUp _ _) | .watcher (.elsewhere _) => False
  | .engine (.post _) => False
  | .engine (.tick _) | .engine (.engine _) | .engine .abort | .engine .crash
  | .engine (.mine _) | .engine (.reorg _ _) => True
  | .movement movement => traffic movement = true

/-- Nothing scanned, nothing posted, nothing submitted. -/
structure Start (deployment : Deployment) (platform : Platform network) : Prop where
  unscanned : platform.watcher.Fresh
  fresh : platform.engine.Fresh deployment.engine
  noPostings : platform.ledger = []
  ledger : platform.engine.ledger = platform.ledger
  developers : platform.watcher.store.developers = deployment.engine.developers

structure Consistent (deployment : Deployment) (platform : Platform network) : Prop where
  ledger : platform.engine.ledger = platform.ledger
  developers : platform.watcher.store.developers = deployment.engine.developers
  agrees : platform.watcher.store.Agrees deployment.watcher
  safe : Safe deployment.engine platform.engine
  bounded : Bounded deployment.engine platform.engine
  accounted : Accounted platform.ledger

section

variable {deployment : Deployment} {platform : Platform network}

theorem Consistent.start (start : Start deployment platform) : Consistent deployment platform := by
  refine ⟨start.ledger, start.developers, ?_, Safe.fresh start.fresh, ?_, ?_⟩
  · apply Watcher.Store.Agrees.unscanned
    refine ⟨start.unscanned, ?_⟩
    intro group mem
    have posted : group ∈ platform.ledger := mem
    rw [start.noPostings] at posted
    cases posted
  · have nothing : Settlement.DebitsWithin deployment.engine platform.engine.ledger [] := by
      intro _ _ _ _
      rw [start.ledger, start.noPostings]
      simp [Settlement.onchainDebitedByDev, Settlement.settledUnitsByDev, wholeUnits]
    have view : platform.engine.view = platform.engine.tables := by
      simp only [Settlement.World.view, start.fresh.control]
    refine ⟨?_, ?_⟩
    · rw [start.fresh.tables]
      exact nothing
    · rw [view, start.fresh.tables]
      exact nothing
  · rw [start.noPostings]
    exact accounted_nil

theorem Consistent.grow (consistent : Consistent deployment platform) {rows : Ledger}
    (moved : Watcher.World network) (accounted : Accounted rows)
    (ledger : moved.store.ledger = platform.ledger ++ rows)
    (developers : moved.store.developers = platform.watcher.store.developers)
    (agrees : moved.store.Agrees deployment.watcher) :
    Consistent deployment
      { watcher := moved
        engine := Settlement.step deployment.engine (.post rows) platform.engine } := by
  have earning : Earning platform.engine (.post rows) := accounted.earns
  refine ⟨?_, developers.trans consistent.developers, agrees,
    consistent.safe.step _ earning.credits,
    consistent.bounded.step consistent.safe _ earning, ?_⟩
  · change platform.engine.ledger ++ rows = moved.store.ledger
    rw [ledger, consistent.ledger]
  · change Accounted moved.store.ledger
    rw [ledger]
    exact consistent.accounted.append accounted

theorem Consistent.rewatch (consistent : Consistent deployment platform)
    {moved : Watcher.World network} (store : moved.store = platform.watcher.store) :
    Consistent deployment
      { watcher := moved
        engine := { platform.engine with ledger := moved.store.ledger } } := by
  have shared : moved.store.ledger = platform.engine.ledger := by
    rw [store]
    exact consistent.ledger.symm
  refine ⟨rfl, ?_, ?_, ?_, ?_, ?_⟩
  · rw [store]
    exact consistent.developers
  · rw [store]
    exact consistent.agrees
  · rw [shared]
    exact consistent.safe
  · rw [shared]
    exact consistent.bounded
  · change Accounted moved.store.ledger
    rw [store]
    exact consistent.accounted

theorem scan_posts {order : Watcher.EventOrder} {outcome : Watcher.Store × Watcher.ScanResult}
    (shared : platform.engine.ledger = platform.ledger)
    (ok : Watcher.scan deployment.watcher platform.watcher.chain order
      platform.watcher.store = .ok outcome) :
    ∃ rows, Accounted rows ∧ outcome.1.ledger = platform.ledger ++ rows ∧
      { platform.engine with ledger := outcome.1.ledger } =
        Settlement.step deployment.engine (.post rows) platform.engine := by
  obtain ⟨⟨rows, grown, crossing⟩, _⟩ := Watcher.scan_extends ok
  refine ⟨rows, ?_, grown, ?_⟩
  · apply accounted_of_groups
    intro group mem
    exact accounted_crossing (crossing group mem)
  · simp only [Settlement.step, shared]
    rw [grown]
    rfl

theorem Consistent.scan (consistent : Consistent deployment platform) (order : Watcher.EventOrder) :
    Consistent deployment (step deployment (.watcher (.tick order)) platform) := by
  simp only [step, Watcher.step]
  cases success : Watcher.scan deployment.watcher platform.watcher.chain order
      platform.watcher.store with
  | error _ => exact consistent.rewatch rfl
  | ok outcome =>
    obtain ⟨_, accounted, grown, posted⟩ := scan_posts consistent.ledger success
    have agrees : outcome.1.Agrees deployment.watcher :=
      ⟨(Watcher.scan_ok success consistent.agrees.distinct).1,
        Watcher.scan_matched success consistent.agrees.distinct consistent.agrees.matched⟩
    rw [posted]
    exact consistent.grow _ accounted grown (Watcher.scan_extends success).2 agrees

theorem Consistent.step {traffic : Movement → Bool} (inside : ∀ movement, traffic movement = true →
      movement.forInference = true ∨ movement.forJobs = true)
    (consistent : Consistent deployment platform) (action : Action network)
    (permitted : Permitted traffic platform action) :
    Consistent deployment (Platform.step deployment action platform) := by
  cases action with
  | watcher action =>
    cases action with
    | tick order => exact consistent.scan order
    | failedTick | chain => exact consistent.rewatch rfl
    | signUp | elsewhere => exact permitted.elim
  | engine action =>
    have earning : Earning platform.engine action := by
      cases action with
      | post => exact permitted.elim
      | tick | engine | abort | crash | mine | reorg => trivial
    have ledger : (Settlement.step deployment.engine action
        platform.engine).ledger = platform.engine.ledger := by
      apply Settlement.step_ledger
      rintro _ rfl
      exact permitted
    exact ⟨ledger.trans consistent.ledger, consistent.developers,
      consistent.agrees, consistent.safe.step action earning.credits,
      consistent.bounded.step consistent.safe action earning,
      consistent.accounted⟩
  | movement movement =>
    have accounted : Accounted (movement.rows deployment.billing platform.ledger) :=
      movement_accounted (inside movement permitted)
    refine consistent.grow _ accounted rfl rfl ?_
    refine consistent.agrees.step (.elsewhere _) ?_
    intro _ mem
    exact (reasons_inside (inside movement permitted) _ (movement_posts mem).2).2.2

theorem reaches_consistent {traffic : Movement → Bool}
    (inside : ∀ movement, traffic movement = true →
      movement.forInference = true ∨ movement.forJobs = true)
    (reached : Serial.Reaches (Platform.step deployment) (Permitted traffic)
      (Start deployment) platform) : Consistent deployment platform := by
  induction reached with
  | start initial => exact Consistent.start initial
  | step _ action permitted consistent => exact consistent.step inside action permitted

theorem reaches_reason {traffic : Movement → Bool} {unused : Reason}
    (unmirrored : watcherReason unused = false)
    (others : ∀ movement, traffic movement = true → unused ∉ movement.reasons)
    (reached : Serial.Reaches (Platform.step deployment) (Permitted traffic)
      (Start deployment) platform) :
    ∀ group ∈ platform.ledger, group.reason ≠ unused := by
  induction reached with
  | start initial =>
    rw [initial.noPostings]
    simp
  | @step before _ action permitted unposted =>
    cases action with
    | watcher action =>
      cases action with
      | tick order =>
        simp only [Platform.step, ledger, Watcher.step]
        cases success : Watcher.scan deployment.watcher
            before.watcher.chain order before.watcher.store with
        | error _ => exact unposted
        | ok _ =>
          obtain ⟨⟨_, grown, crossing⟩, _⟩ := Watcher.scan_extends success
          intro group mem
          rw [grown] at mem
          rcases List.mem_append.mp mem with old | new
          · exact unposted group old
          · cases crossing group new with
            | credit _ _ _ _ counted | debit _ _ _ _ counted =>
              exact ne_of_watcherReason counted unmirrored
      | failedTick | chain => exact unposted
      | signUp | elsewhere => exact permitted.elim
    | engine => exact unposted
    | movement movement =>
      intro group mem
      rcases List.mem_append.mp mem with old | new
      · exact unposted group old
      · intro same
        apply others movement permitted
        rw [← same]
        exact (movement_posts new).2

end

end Platform

end Gridix
