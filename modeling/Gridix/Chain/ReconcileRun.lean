import Gridix.Accounts.Conservation

/-!
# A run of the reconciler

A run checks the developers and then the providers.  It is quiet about an
error of the chain client and ends with every other exception, which takes the
loops of the chain worker with it.  So a run returns exactly when no developer
it gets to has negative funds.
-/

namespace Gridix

open List

open Settlement (EngineSettings Tables settledJobs settledUnitsByDev
  earnedByProvider)

inductive DivergenceKind where
  | developerEscrow
  | providerSettled
  | providerOverpay
  deriving DecidableEq, Repr

/-- A divergence that the job reports. -/
structure Finding where
  kind : DivergenceKind
  subject : Address
  expected : Int
  actual : Int
  deriving DecidableEq, Repr

def Finding.delta (finding : Finding) : Int := finding.actual - finding.expected

inductive ClientFailure where
  | chainError
  | raised
  deriving DecidableEq, Repr

inductive ReconcileError where
  | client (failure : ClientFailure)
  | units (error : UnitsError)
  deriving DecidableEq, Repr

namespace Reconciler

def refsOf (rows : List Posting) : List Uuid := (rows.filterMap Posting.accountRef).dedup

abbrev UnitsByRef := List (Uuid × Int)

def UnitsByRef.get (units : UnitsByRef) (ref : Uuid) : Int := (units.lookup ref).getD 0

def unitsByRef (decimals : Nat) (refs : List Uuid) (total : Uuid → Int) :
    Except UnitsError UnitsByRef :=
  refs.mapM fun ref => do
    let units ← toUnits decimals (total ref)
    .ok (ref, units)

section

variable (settings : EngineSettings) (ledger : Ledger) (tables : Tables)
  (events : List Watcher.ChainEvent)
  (escrowBalanceOf : Address → Except ClientFailure Int)

def settledRefs : List Uuid := refsOf ((Ledger.entries (settledJobs ledger)).filter fun posting =>
    posting.account == .escrow && posting.direction == .debit)

def settledUnitsByDev : Except UnitsError UnitsByRef :=
  unitsByRef settings.usdcDecimals (settledRefs ledger) (jobsConsumed ledger)

def earnedRefs : List Uuid :=
  refsOf (ledger.entries.filter fun posting => posting.account == .provider)

def earnedUnitsByProvider : Except UnitsError UnitsByRef :=
  unitsByRef settings.usdcDecimals (earnedRefs ledger) (earnedByProvider ledger)

def recordedSettledByProvider (provider : Uuid) : Nat :=
  ((tables.filter fun row => row.status = .confirmed).map fun row =>
    row.reserves provider).sum

def observedSettledByWallet (wallet : Address) : Nat := ((events.filter fun event =>
      event.eventName = .settled ∧ event.confirmed = true ∧
        event.party = wallet).map fun event => event.amount).sum

def checkDeveloper (settled : UnitsByRef) (developer : Developer) :
    Except ReconcileError (List Finding) :=
  match developer.walletAddress with
  | none => .ok []
  | some wallet => do
      let units ← (toUnits settings.usdcDecimals (funds ledger developer.id)).mapError .units
      let expected := units + settled.get developer.id - confirmedDebitedByDev tables wallet
      let actual ← (escrowBalanceOf wallet).mapError .client
      .ok (if actual ≠ expected then
        [⟨.developerEscrow, wallet, expected, actual⟩] else [])

def checkDevelopers : Except ReconcileError (List Finding) := do
  let settled ← (settledUnitsByDev settings ledger).mapError .units
  let found ← settings.developers.rows.mapM
    (checkDeveloper settings ledger tables escrowBalanceOf settled)
  .ok found.flatten

/-- What was recorded must be what was observed, and no more than was
earned. -/
def checkProvider (earned : UnitsByRef) (provider : ProviderAccount) : List Finding :=
  let recorded : Int := recordedSettledByProvider tables provider.id
  let observed : Int := observedSettledByWallet events provider.walletAddress
  (if recorded ≠ observed then
    [⟨.providerSettled, provider.walletAddress, recorded, observed⟩]
    else []) ++
  (if earned.get provider.id < recorded then
    [⟨.providerOverpay, provider.walletAddress, earned.get provider.id, recorded⟩]
    else [])

def checkProviders : Except ReconcileError (List Finding) := do
  let earned ← (earnedUnitsByProvider settings ledger).mapError .units
  .ok (settings.providers.rows.flatMap (checkProvider tables events earned))

def reconcile : Except ReconcileError (List Finding) := do
  let developers ← checkDevelopers settings ledger tables escrowBalanceOf
  let providers ← checkProviders settings ledger tables events
  .ok (developers ++ providers)

/-- A chain error ends the run without findings. -/
def run : Except ReconcileError (List Finding) :=
  match reconcile settings ledger tables events escrowBalanceOf with
  | .error (.client .chainError) => .ok []
  | result => result

end

section

variable {decimals : Nat} {refs : List Uuid} {total : Uuid → Int} {ref : Uuid}

theorem unitsByRef_eq (nonneg : ∀ ref ∈ refs, 0 ≤ total ref) : unitsByRef decimals refs total =
      .ok (refs.map fun ref => (ref, wholeUnits decimals (total ref))) := by
  unfold unitsByRef
  induction refs with
  | nil => rfl
  | cons ref _ ih =>
    have head : toUnits decimals (total ref) = .ok (wholeUnits decimals (total ref)) :=
      if_neg (not_lt.mpr (nonneg ref mem_cons_self))
    have tail := ih fun other mem =>
      nonneg other (mem_cons_of_mem _ mem)
    rw [mapM_cons, head, tail]
    rfl

theorem get_unitsByRef (absent : ∀ ref, ref ∉ refs → total ref = 0) (ref : Uuid) :
    UnitsByRef.get (refs.map fun ref =>
        (ref, wholeUnits decimals (total ref))) ref =
      wholeUnits decimals (total ref) := by
  unfold UnitsByRef.get
  by_cases listed : ref ∈ refs
  · clear absent
    induction refs with
    | nil => cases listed
    | cons other _ ih =>
      by_cases same : ref = other
      · simp [same]
      · rw [map_cons, lookup_cons]
        simp only [beq_eq_false_iff_ne.mpr same]
        exact ih ((mem_cons.mp listed).resolve_left same)
  · have missing : (refs.map fun ref =>
        (ref, wholeUnits decimals (total ref))).lookup ref = none := by
      rw [lookup_eq_none_iff]
      intro _ mem
      obtain ⟨_, inside, rfl⟩ := mem_map.mp mem
      rw [bne_iff_ne]
      rintro rfl
      exact listed inside
    rw [missing, absent ref listed]
    simp [wholeUnits]

theorem sumPostings_of_absent {account : LedgerAccount}
    {direction : LedgerDirection} {postings : List Posting}
    (absent : ∀ posting ∈ postings, posting.account = account →
      posting.direction = direction → posting.accountRef ≠ some ref) :
    sumPostings account direction (some ref) postings = 0 := by
  have none : postings.filter (Posting.counts account direction (some ref)) = [] := by
    rw [filter_eq_nil_iff]
    intro posting mem counts
    simp only [Posting.counts, Option.isNone_some, Bool.false_or,
      Bool.and_eq_true, beq_iff_eq] at counts
    exact absent posting mem counts.1.1 counts.1.2 counts.2
  rw [sumPostings, none]
  rfl

theorem not_mem_refsOf {rows : List Posting} (absent : ref ∉ refsOf rows) :
    ∀ posting ∈ rows, posting.accountRef ≠ some ref := by
  intro posting mem owned
  apply absent
  rw [refsOf, mem_dedup]
  exact mem_filterMap.mpr ⟨posting, mem, owned⟩

theorem jobsConsumed_of_absent {ledger : Ledger}
    (absent : ref ∉ settledRefs ledger) : jobsConsumed ledger ref = 0 := by
  rw [jobsConsumed, Ledger.sum_eq_entries]
  apply sumPostings_of_absent
  intro _ mem escrow debit
  apply not_mem_refsOf absent
  exact mem_filter.mpr ⟨mem, by simp [escrow, debit]⟩

theorem earnedByProvider_of_absent {ledger : Ledger}
    (absent : ref ∉ earnedRefs ledger) : earnedByProvider ledger ref = 0 := by
  have none : ∀ direction, ledger.sum .provider direction (some ref) = 0 := by
    intro _
    rw [Ledger.sum_eq_entries]
    apply sumPostings_of_absent
    intro _ mem provider _
    apply not_mem_refsOf absent
    exact mem_filter.mpr ⟨mem, by simp [provider]⟩
  rw [earnedByProvider, accountBalance, none, none, sub_zero]

end

section

variable {settings : EngineSettings} {ledger : Ledger} {tables : Tables}
  {escrowBalanceOf : Address → Except ClientFailure Int} {error : ReconcileError}
  {head developer : Developer} {rest : List Developer} {wallet : Address}
  {events : List Watcher.ChainEvent}

/-- The check gets to the developer: the escrow of every earlier one could be
read. -/
def GetsTo (escrowBalanceOf : Address → Except ClientFailure Int)
    (rows : List Developer) (developer : Developer) (wallet : Address) :
    Prop :=
  ∃ before after, rows = before ++ developer :: after ∧ developer.walletAddress = some wallet ∧
    ∀ earlier ∈ before, ∀ own, earlier.walletAddress = some own →
      ∃ units, escrowBalanceOf own = .ok units

def Quiet {Value : Type} (result : Except ReconcileError Value) : Prop :=
  (∃ value, result = .ok value) ∨ result = .error (.client .chainError)

theorem quiet_ok {Value : Type} (value : Value) : Quiet (.ok value : Except ReconcileError Value) :=
  Or.inl ⟨value, rfl⟩

theorem quiet_error_iff {Value : Type} :
    Quiet (.error error : Except ReconcileError Value) ↔ error = .client .chainError := by
  simp [Quiet]

theorem quiet_mapM_cons_error {Item Value : Type} {check : Item → Except ReconcileError Value}
    {head : Item} {rest : List Item} (failed : check head = .error error) :
    Quiet ((head :: rest).mapM check) ↔ error = .client .chainError := by
  rw [mapM_cons, failed]
  exact quiet_error_iff

theorem quiet_mapM_cons_ok {Item Value : Type} {check : Item → Except ReconcileError Value}
    {head : Item} {rest : List Item} {value : Value} (passed : check head = .ok value) :
    Quiet ((head :: rest).mapM check) ↔ Quiet (rest.mapM check) := by
  rw [mapM_cons, passed]
  cases rest.mapM check with
  | error => exact quiet_error_iff.trans quiet_error_iff.symm
  | ok => exact iff_of_true (quiet_ok _) (quiet_ok _)

theorem getsTo_head {rest : List Developer} {developer : Developer}
    {wallet : Address} (owns : developer.walletAddress = some wallet) :
    GetsTo escrowBalanceOf (developer :: rest) developer wallet :=
  ⟨[], rest, rfl, owns, nofun⟩

theorem eq_of_getsTo_unread {own : Address} {failure : ClientFailure}
    (owns : head.walletAddress = some own) (unread : escrowBalanceOf own = .error failure)
    (visited : GetsTo escrowBalanceOf (head :: rest) developer wallet) :
    head = developer ∧ own = wallet := by
  obtain ⟨before, _, split, visitedOwns, earlier⟩ := visited
  cases before with
  | nil =>
    obtain ⟨rfl, _⟩ := split
    exact ⟨rfl, Option.some.inj (owns.symm.trans visitedOwns)⟩
  | cons =>
    obtain ⟨rfl, _⟩ := split
    obtain ⟨_, read⟩ := earlier _ mem_cons_self own owns
    rw [unread] at read
    cases read

theorem getsTo_cons_iff
    (passes : ∀ own, head.walletAddress = some own → ∃ units, escrowBalanceOf own = .ok units) :
    GetsTo escrowBalanceOf (head :: rest) developer wallet ↔
      (head = developer ∧ developer.walletAddress = some wallet) ∨
        GetsTo escrowBalanceOf rest developer wallet := by
  constructor
  · rintro ⟨before, after, split, owns, earlier⟩
    cases before with
    | nil =>
      rw [nil_append, List.cons.injEq] at split
      exact Or.inl ⟨split.1, owns⟩
    | cons _ before =>
      rw [cons_append, List.cons.injEq] at split
      exact Or.inr ⟨before, after, split.2, owns, fun other mem =>
        earlier other (mem_cons_of_mem _ mem)⟩
  · rintro (⟨rfl, owns⟩ | ⟨before, after, rfl, owns, earlier⟩)
    · exact getsTo_head owns
    · refine ⟨head :: before, after, rfl, owns, ?_⟩
      intro other mem
      rcases mem_cons.mp mem with rfl | inside
      · exact passes
      · exact earlier other inside

/-- Every developer the check gets to has funds to convert and an escrow
whose read raises nothing unexpected. -/
def Sound (ledger : Ledger) (escrowBalanceOf : Address → Except ClientFailure Int)
    (rows : List Developer) : Prop :=
  ∀ developer wallet, GetsTo escrowBalanceOf rows developer wallet →
    0 ≤ funds ledger developer.id ∧ escrowBalanceOf wallet ≠ .error .raised

theorem sound_cons_iff (passes : ∀ own, head.walletAddress = some own →
      0 ≤ funds ledger head.id ∧ ∃ units, escrowBalanceOf own = .ok units) :
    Sound ledger escrowBalanceOf (head :: rest) ↔ Sound ledger escrowBalanceOf rest := by
  have answered := fun own owns => (passes own owns).2
  constructor
  · intro sound developer wallet visited
    exact sound developer wallet ((getsTo_cons_iff answered).mpr (Or.inr visited))
  · intro sound developer wallet visited
    rcases (getsTo_cons_iff answered).mp visited with ⟨rfl, owns⟩ | later
    · obtain ⟨nonneg, _, answer⟩ := passes wallet owns
      refine ⟨nonneg, ?_⟩
      rw [answer]
      nofun
    · exact sound developer wallet later

theorem checkDeveloper_eq {settled : UnitsByRef} {developer : Developer}
    {wallet : Address} (owns : developer.walletAddress = some wallet) :
    (funds ledger developer.id < 0 ∧ ∃ error,
        checkDeveloper settings ledger tables escrowBalanceOf settled
          developer = .error (.units error)) ∨
      (0 ≤ funds ledger developer.id ∧ ((∃ failure, escrowBalanceOf wallet = .error failure ∧
          checkDeveloper settings ledger tables escrowBalanceOf settled
            developer = .error (.client failure)) ∨
        ∃ units found, escrowBalanceOf wallet = .ok units ∧
          checkDeveloper settings ledger tables escrowBalanceOf settled
            developer = .ok found)) := by
  unfold checkDeveloper
  rw [owns]
  by_cases negative : funds ledger developer.id < 0
  · refine Or.inl ⟨negative, .negative (funds ledger developer.id), ?_⟩
    simp only [toUnits, if_pos negative]
    rfl
  · refine Or.inr ⟨not_lt.mp negative, ?_⟩
    simp only [toUnits, if_neg negative]
    cases answer : escrowBalanceOf wallet with
    | error failure => exact Or.inl ⟨failure, rfl, rfl⟩
    | ok units => exact Or.inr ⟨units, _, rfl, rfl⟩

theorem quiet_checks_iff {settled : UnitsByRef} (rows : List Developer) : Quiet (rows.mapM
        (checkDeveloper settings ledger tables escrowBalanceOf settled)) ↔
      Sound ledger escrowBalanceOf rows := by
  induction rows with
  | nil =>
    constructor
    · rintro _ _ _ ⟨before, _, split, _⟩
      cases before <;> cases split
    · intro _
      exact quiet_ok []
  | cons head rest ih =>
    cases owns : head.walletAddress with
    | none =>
      have passed : checkDeveloper settings ledger tables
          escrowBalanceOf settled head = .ok [] := by
        unfold checkDeveloper
        rw [owns]
      rw [quiet_mapM_cons_ok passed, ih, sound_cons_iff]
      rw [owns]
      nofun
    | some wallet =>
      have visited := @getsTo_head escrowBalanceOf rest head wallet owns
      rcases @checkDeveloper_eq settings ledger tables escrowBalanceOf
        settled head wallet owns with ⟨negative, error, failed⟩ |
          ⟨nonneg, ⟨failure, answer, failed⟩ | ⟨units, found, answer, passed⟩⟩
      · -- the conversion raises, and the check got here
        rw [quiet_mapM_cons_error failed]
        refine iff_of_false nofun ?_
        intro sound
        exact absurd (sound head wallet visited).1 (not_le.mpr negative)
      · -- the read fails, and nobody behind is got to
        rw [quiet_mapM_cons_error failed, ReconcileError.client.injEq]
        constructor
        · rintro rfl _ _ reached
          obtain ⟨rfl, rfl⟩ := eq_of_getsTo_unread owns answer reached
          rw [answer]
          exact ⟨nonneg, nofun⟩
        · intro sound
          have expected := (sound head wallet visited).2
          rw [answer] at expected
          cases failure with
          | raised => exact absurd rfl expected
          | chainError => rfl
      · rw [quiet_mapM_cons_ok passed, ih, sound_cons_iff]
        intro _ same
        cases owns.symm.trans same
        exact ⟨nonneg, units, answer⟩

theorem run_ok_iff : (∃ found, run settings ledger tables events escrowBalanceOf = .ok found) ↔
      Quiet (reconcile settings ledger tables events escrowBalanceOf) := by
  unfold run
  cases reconcile settings ledger tables events escrowBalanceOf with
  | ok found => exact iff_of_true ⟨found, rfl⟩ (quiet_ok found)
  | error error =>
    cases error with
    | units => simp [Quiet]
    | client failure => cases failure <;> simp [Quiet]

theorem quiet_reconcile_iff {units : UnitsByRef} {others : List Finding}
    (settled : settledUnitsByDev settings ledger = .ok units)
    (providers : checkProviders settings ledger tables events = .ok others) :
    Quiet (reconcile settings ledger tables events escrowBalanceOf) ↔
      Quiet (settings.developers.rows.mapM
        (checkDeveloper settings ledger tables escrowBalanceOf units)) := by
  unfold reconcile checkDevelopers
  rw [settled, providers]
  cases visited : settings.developers.rows.mapM
      (checkDeveloper settings ledger tables escrowBalanceOf units) with
  | ok found =>
    refine iff_of_true (Or.inl ⟨found.flatten ++ others, ?_⟩) (quiet_ok found)
    simp only [Except.mapError, bind, Except.bind, visited]
  | error _ =>
    simp only [Except.mapError, bind, Except.bind, visited]
    simp [Quiet]

theorem run_returns_iff (consumed : ∀ developer, 0 ≤ jobsConsumed ledger developer)
    (earned : ∀ provider, 0 ≤ earnedByProvider ledger provider) :
    (∃ found, run settings ledger tables events escrowBalanceOf = .ok found) ↔
      Sound ledger escrowBalanceOf settings.developers.rows := by
  have settled : settledUnitsByDev settings ledger = _ := unitsByRef_eq fun ref _ => consumed ref
  have paid : earnedUnitsByProvider settings ledger = _ := unitsByRef_eq fun ref _ => earned ref
  have providers : ∃ found, checkProviders settings ledger tables events = .ok found := by
    unfold checkProviders
    rw [paid]
    exact ⟨_, rfl⟩
  obtain ⟨_, checked⟩ := providers
  rw [run_ok_iff, quiet_reconcile_iff settled checked]
  exact quiet_checks_iff settings.developers.rows

end

def findingOf (divergence : Divergence) : Finding :=
  ⟨.developerEscrow, divergence.wallet, divergence.expected, divergence.actual⟩

theorem checkDeveloper_answered (settings : EngineSettings) (ledger : Ledger) (tables : Tables)
    (escrowBalanceOf : Address → Int) {settled : UnitsByRef}
    (converted : ∀ developer, settled.get developer =
      Settlement.settledUnitsByDev settings ledger developer) (developer : Developer) :
    checkDeveloper settings ledger tables
        (fun wallet => .ok (escrowBalanceOf wallet)) settled developer =
      ((Gridix.checkDeveloper settings ledger tables escrowBalanceOf
        developer).map (List.map findingOf)).mapError .units := by
  unfold checkDeveloper Gridix.checkDeveloper
  cases developer.walletAddress with
  | none => rfl
  | some =>
    dsimp only
    rw [converted, funds]
    cases toUnits settings.usdcDecimals (accountBalance ledger .developer (some developer.id) +
          accountBalance ledger .escrow (some developer.id)) with
    | error _ => rfl
    | ok _ =>
      simp only [Except.mapError, bind, Except.bind]
      split_ifs <;> rfl

theorem checkDevelopers_answered (settings : EngineSettings) {ledger : Ledger} (tables : Tables)
    (escrowBalanceOf : Address → Int) (consumed : ∀ developer, 0 ≤ jobsConsumed ledger developer) :
    checkDevelopers settings ledger tables (fun wallet => .ok (escrowBalanceOf wallet)) =
      ((Gridix.checkDevelopers settings ledger tables escrowBalanceOf).map
        (List.map findingOf)).mapError .units := by
  have settled : settledUnitsByDev settings ledger = _ := unitsByRef_eq fun ref _ => consumed ref
  have visit : ∀ rows : List Developer, rows.mapM (checkDeveloper settings ledger tables
          (fun wallet => .ok (escrowBalanceOf wallet))
          ((settledRefs ledger).map fun ref =>
            (ref, wholeUnits settings.usdcDecimals (jobsConsumed ledger ref)))) =
        ((rows.mapM (Gridix.checkDeveloper settings ledger tables
          escrowBalanceOf)).map (List.map (List.map findingOf))).mapError .units := by
    intro rows
    induction rows with
    | nil => rfl
    | cons developer rest ih =>
      rw [mapM_cons, mapM_cons, ih, checkDeveloper_answered settings ledger tables escrowBalanceOf
          fun ref => get_unitsByRef (fun _ => jobsConsumed_of_absent) ref]
      cases Gridix.checkDeveloper settings ledger tables escrowBalanceOf developer with
      | error => rfl
      | ok => cases rest.mapM (Gridix.checkDeveloper settings ledger tables escrowBalanceOf) <;> rfl
  unfold checkDevelopers Gridix.checkDevelopers
  rw [settled]
  simp only [Except.mapError, bind, Except.bind]
  rw [visit]
  cases settings.developers.rows.mapM (Gridix.checkDeveloper settings ledger
      tables escrowBalanceOf) with
  | error _ => rfl
  | ok _ => simp [Except.map, Except.mapError]

end Reconciler

namespace Accounts

section

variable {settings : Settings} {owner : Uuid} {group : LedgerGroup}

/-- A group takes nothing from a provider and gives nothing back of what was
consumed. -/
def Adds (group : LedgerGroup) : Prop := (∀ developer, 0 ≤ jobsConsumed [group] developer) ∧
    ∀ provider, 0 ≤ earnedByProvider [group] provider

theorem JobGroup.adds {terms : JobTerms} (posted : JobGroup terms group) : Adds group := by
  cases posted with
  | release providerId cost fee pos feeNonneg feeLe =>
    have accounted := @accounted_release terms.id terms.developerId
      providerId cost fee pos feeNonneg feeLe
    exact ⟨accounted.consumed, accounted.earned⟩
  | hold | giveBack | dataCharge | stakeHold =>
    constructor
    · intro _
      simp [jobsConsumed_group]
    · intro _
      simp [earnedByProvider, accountBalance]

theorem OwnGroup.adds (own : OwnGroup settings owner group) : Adds group := by
  cases own with
  | charge providerId _ pos =>
    have accounted := accounted_charge settings owner providerId pos
    exact ⟨accounted.consumed, accounted.earned⟩
  | hold | giveBack | deposit =>
    constructor
    · intro _
      simp [jobsConsumed_group]
    · intro _
      simp [earnedByProvider, accountBalance]
  | crossing crossing =>
    have accounted := accounted_crossing crossing.crossing
    exact ⟨accounted.consumed, accounted.earned⟩

theorem totals_nonneg {rows : Ledger} (adds : ∀ group ∈ rows, Adds group) :
    (∀ developer, 0 ≤ jobsConsumed rows developer) ∧
      ∀ provider, 0 ≤ earnedByProvider rows provider := by
  induction rows with
  | nil => exact ⟨fun _ => le_refl _, fun _ => le_refl _⟩
  | cons group rest ih =>
    obtain ⟨consumed, earned⟩ := adds group mem_cons_self
    obtain ⟨laterConsumed, laterEarned⟩ := ih fun other mem => adds other (mem_cons_of_mem _ mem)
    constructor
    · intro developer
      have split : jobsConsumed (group :: rest) developer = _ :=
        jobsConsumed_append [group] rest developer
      rw [split]
      exact add_nonneg (consumed developer) (laterConsumed developer)
    · intro provider
      have split : earnedByProvider (group :: rest) provider = _ :=
        accountBalance_append [group] rest .provider (some provider)
      rw [split]
      exact add_nonneg (earned provider) (laterEarned provider)

end

variable {network : Watcher.Network}

/-- On every reachable ledger, a run of the reconciler returns exactly when no
developer it gets to has negative funds or a read that raises. -/
theorem reconciler_returns_iff {config : Config} {world : World network}
    (reached : Reachable config world) (settings : EngineSettings) (tables : Tables)
    (events : List Watcher.ChainEvent) (escrowBalanceOf : Address → Except ClientFailure Int) :
    (∃ found, Reconciler.run settings world.ledger tables events escrowBalanceOf = .ok found) ↔
      Reconciler.Sound world.ledger escrowBalanceOf settings.developers.rows := by
  obtain ⟨consumed, earned⟩ : (∀ developer, 0 ≤ jobsConsumed world.ledger developer) ∧ ∀ provider,
      0 ≤ earnedByProvider world.ledger provider := by
    apply totals_nonneg
    intro group mem
    obtain ⟨_, ⟨_, _, _, _, job⟩ | own⟩ := (reachable_consistent reached).posted group mem
    · exact JobGroup.adds job
    · exact own.adds
  exact Reconciler.run_returns_iff consumed earned

theorem reconciler_returns_traded : ∃ found, Reconciler.run escrowDeployment.engine traded.ledger []
      traded.watcher.store.events (fun _ => .ok 2000000) = .ok found := by
  refine (reconciler_returns_iff traded_reachable _ _ _ _).mpr ?_
  rintro developer _ ⟨_, _, split, _, _⟩
  have listed : developer ∈ escrowDeployment.engine.developers.rows := by
    rw [split]
    simp
  have funded : ∀ developer ∈ escrowDeployment.engine.developers.rows,
      0 ≤ funds traded.ledger developer.id := by
    decide +kernel
  exact ⟨funded developer listed, nofun⟩

def overruns : List (Action escrowNetwork) := [.watcher (.tick .stored),
    .job (.submitJob { minuteRequest false 1 with
      timeoutSeconds := 120 } 1 3 none true (some ⟨some 200000000⟩) 0),
    .job (.assignProviders 3 (.of [5]) 0),
    .job (.elsewhere ⟨[], [], [], [], [⟨5, some 3, 1000000000⟩]⟩),
    .job (.submitResult .stored ⟨0, 120000000, 120000000, 120000000⟩ 5 3 (cleanResult (.str "a")))]

def overrun : World escrowNetwork := Serial.run (step tradingConfig) overruns beforeTrade

theorem reconciler_raises_overrun : Reachable tradingConfig overrun ∧
      Reconciler.run escrowDeployment.engine overrun.ledger []
          overrun.watcher.store.events (fun _ => .ok 2000000) =
        .error (.units (.negative (-10000000))) := by
  refine ⟨Serial.Reaches.run (.start ⟨rfl, rfl, ⟨rfl, rfl, rfl⟩, rfl⟩) ?_,
    by decide +kernel⟩
  apply Serial.allPermitted_of_forall
  intro _ member _
  simp only [overruns, mem_cons, not_mem_nil, or_false] at member
  rcases member with rfl | rfl | rfl | rfl | rfl <;> trivial

end Accounts

end Gridix
