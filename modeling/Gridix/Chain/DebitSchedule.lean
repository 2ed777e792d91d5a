import Gridix.Chain.PromptTick

/-!
# When developers are debited

A developer that owes is debited by the first tick that finds nothing
unsettled after the interval has elapsed.
-/

namespace Gridix.Settlement

open List

section

variable {settings : EngineSettings} {start finish : World}
  {ticks : List (Int × World)} {developer : Developer}

theorem PromptRun.reaches (run : PromptRun settings ticks start finish) :
    Serial.Reaches (step settings) Credits (fun world => world = start) finish := by
  induction run with
  | rest => exact .start rfl
  | tick first _ ih => exact first.reaches.trans ih

theorem PromptRun.covered (safe : Safe settings start) (idle : start.control = .idle)
    (covered : Covered settings start.tables) (run : PromptRun settings ticks start finish) :
    finish.control = .idle ∧ Covered settings finish.tables := by
  induction run with
  | rest => exact ⟨idle, covered⟩
  | tick first _ ih =>
    have effect := first.effect safe idle covered
    exact ih (reaches_kept safe first.reaches).1 effect.idle effect.covered

theorem debitRecorded_iff {tail : Tables} (records : finish.tables.map ChainSettlement.record =
      (start.tables ++ tail).map ChainSettlement.record) :
    DebitRecorded developer start finish ↔
      ∃ row ∈ tail, ∃ units, row.batchKey = .debit developer.id units := by
  have added : (finish.tables.drop start.tables.length).map
      ChainSettlement.record = tail.map ChainSettlement.record := by
    rw [map_drop, records, ← map_drop, drop_left]
  have keys : (finish.tables.drop start.tables.length).map
      ChainSettlement.batchKey = tail.map ChainSettlement.batchKey := by
    have firsts := congrArg (List.map Prod.fst) added
    rw [map_map, map_map] at firsts
    exact firsts
  constructor
  · rintro ⟨_, mem, units, key⟩
    have listed := mem_map_of_mem (f := ChainSettlement.batchKey) mem
    rw [keys, key] at listed
    obtain ⟨other, here, same⟩ := mem_map.mp listed
    exact ⟨other, here, units, same⟩
  · rintro ⟨_, mem, units, key⟩
    have listed := mem_map_of_mem (f := ChainSettlement.batchKey) mem
    rw [← keys, key] at listed
    obtain ⟨other, here, same⟩ := mem_map.mp listed
    exact ⟨other, here, units, same⟩

theorem PromptRun.records (safe : Safe settings start) (idle : start.control = .idle)
    (covered : Covered settings start.tables) (run : PromptRun settings ticks start finish) :
    ∃ tail, finish.tables.map ChainSettlement.record =
      (start.tables ++ tail).map ChainSettlement.record := by
  induction run with
  | rest => exact ⟨[], by simp⟩
  | tick first _ ih =>
    have effect := first.effect safe idle covered
    obtain ⟨early, earlyRecords, _⟩ := effect.rows
    obtain ⟨late, lateRecords⟩ := ih (reaches_kept safe first.reaches).1 effect.idle effect.covered
    refine ⟨early ++ late, ?_⟩
    rw [lateRecords, map_append, earlyRecords]
    simp

theorem PromptRun.debitRecorded_iff (safe : Safe settings start) (idle : start.control = .idle)
    (covered : Covered settings start.tables) (run : PromptRun settings ticks start finish)
    (known : developer ∈ settings.developers.rows)
    (owes : 0 < owed settings start.ledger start.tables developer) :
    DebitRecorded developer start finish ↔ ∃ tick ∈ ticks, Unblocked settings tick.1 tick.2 := by
  induction run with
  | rest => simp [DebitRecorded]
  | @tick now start base middle finish _ first onward ih =>
    have effect := first.effect safe idle covered
    have middleSafe := (reaches_kept safe first.reaches).1
    obtain ⟨early, earlyRecords, debited, undebited⟩ := effect.rows
    obtain ⟨late, lateRecords⟩ := onward.records middleSafe effect.idle effect.covered
    have records : finish.tables.map ChainSettlement.record =
        (start.tables ++ (early ++ late)).map ChainSettlement.record := by
      rw [lateRecords, map_append, earlyRecords]
      simp
    rw [Settlement.debitRecorded_iff records]
    by_cases unblocked : Unblocked settings now base
    · obtain ⟨row, mem, facts⟩ := debited unblocked developer known owes
      constructor
      · intro _
        exact ⟨(now, base), mem_cons_self, unblocked⟩
      · intro _
        exact ⟨row, mem_append_left _ mem, facts⟩
    · -- The payouts of this tick do not touch what is owed.
      have plain := undebited unblocked
      have debits : ∀ wallet, debitedTotal middle.tables wallet =
          debitedTotal start.tables wallet := by
        intro wallet
        rw [debitedTotal_congr earlyRecords, debitedTotal_append, Nat.add_eq_left]
        apply sum_eq_zero
        intro _ listed
        obtain ⟨row, mem, rfl⟩ := mem_map.mp listed
        exact (plain row mem).call wallet
      have still := owed_pos_of_le (first.live safe idle) effect.ledger debits owes
      have rest := ih middleSafe effect.idle effect.covered still
      rw [Settlement.debitRecorded_iff lateRecords] at rest
      rw [exists_mem_cons_iff]
      constructor
      · rintro ⟨row, mem, units, key⟩
        rcases mem_append.mp mem with old | new
        · exact ((plain row old).key _ _ key).elim
        · exact Or.inr (rest.mp ⟨row, new, units, key⟩)
      · rintro (no | some)
        · exact (unblocked no).elim
        · obtain ⟨row, mem, facts⟩ := rest.mpr some
          exact ⟨row, mem_append_right _ mem, facts⟩

theorem PromptRun.clock (safe : Safe settings start) (idle : start.control = .idle)
    (covered : Covered settings start.tables) (run : PromptRun settings ticks start finish)
    (quiet : ∀ tick ∈ ticks, totalUnits (unsettled settings tick.2.ledger tick.2.tables) = 0) :
    ∀ tick ∈ ticks, tick.2.lastBatchAt = start.lastBatchAt := by
  induction run with
  | rest => simp
  | tick first _ ih =>
    have effect := first.effect safe idle covered
    have settled := quiet _ mem_cons_self
    intro tick mem
    rcases mem_cons.mp mem with rfl | late
    · exact effect.clock
    · rw [← effect.kept settled]
      exact ih (reaches_kept safe first.reaches).1 effect.idle effect.covered
        (fun other listed => quiet other (mem_cons_of_mem _ listed))
        tick late

end

/-- The ticks in the two intervals after `moment`, at least four in each. -/
structure Window (settings : EngineSettings) (moment : Int)
    (ticks : List (Int × World)) : Prop where
  within : ∀ tick ∈ ticks, moment < tick.1 ∧ tick.1 ≤ moment + 2 * settings.interval
  first : 4 ≤ ticks.countP fun tick => tick.1 ≤ moment + settings.interval
  second : 4 ≤ ticks.countP fun tick => moment + settings.interval < tick.1

/-- In a run of unforced ticks whose broadcasts confirm, a developer that owes
gets a debit row within two settlement intervals exactly when some tick in them
finds nothing unsettled and the interval elapsed. -/
theorem debit_within_two_intervals_iff (settings : EngineSettings) {origin start finish : World}
    {earlier ticks : List (Int × World)} {moment : Int} (fresh : origin.Fresh settings)
    (before : PromptRun settings earlier origin start)
    (clock : ∀ last, start.lastBatchAt = some last → last ≤ moment)
    (run : PromptRun settings ticks start finish) (window : Window settings moment ticks)
    {developer : Developer} (known : developer ∈ settings.developers.rows)
    (owes : 0 < owed settings start.ledger start.tables developer) :
    (DebitRecorded developer start finish ↔ ∃ tick ∈ ticks, Unblocked settings tick.1 tick.2) ∧
    ((∀ tick ∈ ticks, totalUnits (unsettled settings tick.2.ledger tick.2.tables) = 0) →
      DebitRecorded developer start finish) := by
  have originSafe := Safe.fresh fresh
  have nothing : Covered settings origin.tables := by
    rw [fresh.tables]
    intro _ _ _ _ _ member
    cases member
  obtain ⟨idle, covered⟩ := before.covered originSafe fresh.control nothing
  have safe := (reaches_kept originSafe before.reaches).1
  have debited := run.debitRecorded_iff safe idle covered known owes
  refine ⟨debited, ?_⟩
  intro quiet
  obtain ⟨tick, member, late⟩ := countP_pos_iff.mp
    (lt_of_lt_of_le (by decide : 0 < 4) window.second)
  refine debited.mpr ⟨tick, member, quiet tick member, ?_⟩
  rw [run.clock safe idle covered quiet tick member]
  cases batched : start.lastBatchAt with
  | none => rfl
  | some last =>
    have past := clock last batched
    simp only [decide_eq_true_eq] at late
    simp only [intervalElapsed, decide_eq_true_eq]
    omega

def scheduleSettings : EngineSettings :=
  { usdcDecimals := 6, confirmations := 1, thresholdUnits := 100
    interval := 4
    providers := .five, developers := .one }

def unitJob : LedgerGroup :=
  ⟨transferPostings .escrow (some 1) .provider (some 5) 100, .settle, some 1, none⟩

def jobWorld : World :=
  { chain := .fresh 7, tables := [], ledger := [unitJob]
    control := .idle, lastBatchAt := none }

def inputAt (now : Int) : Input := { readings := ⟨now, 0, 100⟩, reply := .hash 0, found := true }

def tickBase (now : Int) (statements : Nat) (world : World) : World :=
  Serial.run (step scheduleSettings) (List.replicate statements (.engine (inputAt now)))
    (step scheduleSettings (.tick false) world)

def tickEnd (now : Int) (included : List (Tx × Bool)) (rows : Ledger) (base : World) : World :=
  Serial.run (step scheduleSettings)
    (.engine (inputAt now) :: (List.replicate 8 (.engine (inputAt now)) ++
      [.mine included, .post rows])) base

theorem inputAt_prompt (now : Int) (actions : List Action) (count : Nat)
    (onward : ∀ world, Serial.AllPermitted (step scheduleSettings) (Prompt now) actions world)
    (world : World) :
    Serial.AllPermitted (step scheduleSettings) (Prompt now)
      (List.replicate count (.engine (inputAt now)) ++ actions) world := by
  induction count generalizing world with
  | zero => exact onward world
  | succ _ ih => exact ⟨⟨rfl, rfl, 0, rfl⟩, ih _⟩

theorem promptTick_of {now : Int} {statements : Nat} {included : List (Tx × Bool)} {rows : Ledger}
    {start : World} (earns : Earns rows)
    (batching : (tickBase now statements start).control = .batching false)
    (confirmed : ∀ row ∈ (tickBase now statements start).tables, row.status = .confirmed)
    (idle : (tickEnd now included rows (tickBase now statements start)).control = .idle) :
    PromptTick scheduleSettings now start (tickBase now statements start)
      (tickEnd now included rows (tickBase now statements start)) := by
  refine .intro (List.replicate _ (.engine (inputAt _))) _
    (inputAt now) _ ?_ rfl batching confirmed ?_ rfl idle
  · have permitted := inputAt_prompt now [] statements (fun _ => trivial)
      (step scheduleSettings (.tick false) start)
    rw [append_nil] at permitted
    exact permitted
  · exact ⟨⟨rfl, rfl, 0, rfl⟩, inputAt_prompt now
      [.mine included, .post rows] 8 (fun _ => ⟨trivial, earns, trivial⟩) _⟩

theorem earns_nothing : Earns [] := ⟨fun _ => le_refl _, fun _ => le_refl _⟩

theorem earns_unitJob : Earns [unitJob] := by
  constructor
  · intro provider
    by_cases own : 5 = provider <;> simp [earnedByProvider, unitJob, accountBalance, own]
  · intro developer
    by_cases own : 1 = developer <;> simp [unitJob, own]

theorem jobWorld_fresh : jobWorld.Fresh scheduleSettings := by
  refine ⟨rfl, rfl, rfl, rfl, by decide, ?_⟩
  exact earns_unitJob.earned

structure Plan where
  now : Int
  statements : Nat
  included : List (Tx × Bool)
  rows : Ledger

def planTicks : List Plan → World → List (Int × World)
  | [], _ => []
  | plan :: rest, world =>
    let base := tickBase plan.now plan.statements world
    (plan.now, base) :: planTicks rest (tickEnd plan.now plan.included plan.rows base)

def planEnd (plans : List Plan) (world : World) : World :=
  plans.foldl (fun world plan => tickEnd plan.now plan.included plan.rows
    (tickBase plan.now plan.statements world)) world

/-- The plan can be carried out: every row is confirmed when a batch statement
is reached, and every tick comes to its end. -/
def planFits : List Plan → World → Bool
  | [], _ => true
  | plan :: rest, world =>
    let base := tickBase plan.now plan.statements world
    let finish := tickEnd plan.now plan.included plan.rows base
    decide (base.control = .batching false ∧ (∀ row ∈ base.tables, row.status = .confirmed) ∧
      finish.control = .idle) && planFits rest finish

theorem promptRun_of {plans : List Plan} {world : World} (earns : ∀ plan ∈ plans, Earns plan.rows)
    (fits : planFits plans world = true) :
    PromptRun scheduleSettings (planTicks plans world) world (planEnd plans world) := by
  induction plans generalizing world with
  | nil => exact .rest world
  | cons plan _ ih =>
    simp only [planFits, Bool.and_eq_true, decide_eq_true_eq] at fits
    obtain ⟨⟨batching, confirmed, idle⟩, onward⟩ := fits
    exact .tick (promptTick_of (earns plan mem_cons_self) batching confirmed idle) (ih
        (fun other mem => earns other (mem_cons_of_mem _ mem))
        onward)

def payoutTx (nonce : Nat) : Tx := ⟨nonce, .settleBatch [(50, 1)], 0⟩

def firstPlan : List Plan := [⟨0, 1, [(payoutTx 0, true)], []⟩]

def batchedWorld : World := planEnd firstPlan jobWorld

/-- Eight ticks, one time unit apart; a job is settled before the fourth and
before the eighth. -/
def starvedPlan : List Plan := [⟨1, 2, [], []⟩, ⟨2, 1, [], []⟩, ⟨3, 1, [], [unitJob]⟩,
    ⟨4, 1, [(payoutTx 1, true)], []⟩, ⟨5, 2, [], []⟩, ⟨6, 1, [], []⟩,
    ⟨7, 1, [], [unitJob]⟩, ⟨8, 1, [], []⟩]

def quietPlan : List Plan := [⟨1, 2, [], []⟩, ⟨2, 1, [], []⟩, ⟨3, 1, [], []⟩,
    ⟨4, 1, [(⟨1, .debit 10 1, 0⟩, true)], []⟩, ⟨5, 2, [], []⟩, ⟨6, 1, [], []⟩,
    ⟨7, 1, [], []⟩, ⟨8, 1, [], []⟩]

theorem firstPlan_run : PromptRun scheduleSettings (planTicks firstPlan jobWorld) jobWorld
      batchedWorld := by
  refine promptRun_of ?_ (by decide +kernel)
  intro _ mem
  rw [mem_singleton.mp mem]
  exact earns_nothing

theorem debit_within_two_intervals_iff_quiet : DebitRecorded ⟨1, some 10⟩ batchedWorld
      (planEnd quietPlan batchedWorld) := by
  have run : PromptRun scheduleSettings (planTicks quietPlan batchedWorld)
      batchedWorld (planEnd quietPlan batchedWorld) := by
    refine promptRun_of ?_ (by decide +kernel)
    intro plan _
    have empty : plan.rows = [] := by
      revert plan
      simp [quietPlan]
    rw [empty]
    exact earns_nothing
  have window : Window scheduleSettings 0 (planTicks quietPlan batchedWorld) :=
    ⟨by decide +kernel, by decide +kernel, by decide +kernel⟩
  refine (debit_within_two_intervals_iff scheduleSettings jobWorld_fresh
    firstPlan_run ?_ run window (by decide) (by decide +kernel)).2
    (by decide +kernel)
  intro _ batched
  have zero : batchedWorld.lastBatchAt = some 0 := by decide +kernel
  cases batched
  exact le_refl _

/-- The developer owes at time zero, the interval is four, a tick comes at
every time up to eight, and no debit is recorded. -/
theorem debits_starved : jobWorld.Fresh scheduleSettings ∧
      PromptRun scheduleSettings (planTicks firstPlan jobWorld) jobWorld batchedWorld ∧
      PromptRun scheduleSettings (planTicks starvedPlan batchedWorld)
        batchedWorld (planEnd starvedPlan batchedWorld) ∧
      (planTicks starvedPlan batchedWorld).map Prod.fst = [1, 2, 3, 4, 5, 6, 7, 8] ∧
      Window scheduleSettings 0 (planTicks starvedPlan batchedWorld) ∧
      owed scheduleSettings batchedWorld.ledger batchedWorld.tables ⟨1, some 10⟩ = 1 ∧
      ¬ DebitRecorded ⟨1, some 10⟩ batchedWorld (planEnd starvedPlan batchedWorld) := by
  refine ⟨jobWorld_fresh, firstPlan_run, ?_, by decide +kernel,
    ⟨by decide +kernel, by decide +kernel, by decide +kernel⟩,
    by decide +kernel, ?_⟩
  · refine promptRun_of ?_ (by decide +kernel)
    intro plan _
    have either : plan.rows = [] ∨ plan.rows = [unitJob] := by
      revert plan
      simp [starvedPlan]
    rcases either with empty | job
    · rw [empty]
      exact earns_nothing
    · rw [job]
      exact earns_unitJob
  · have keys : ((planEnd starvedPlan batchedWorld).tables.drop
        batchedWorld.tables.length).map ChainSettlement.batchKey =
        [.settle 1, .settle 2] := by
      decide +kernel
    rintro ⟨_, member, _, key⟩
    have listed := mem_map_of_mem (f := ChainSettlement.batchKey) member
    rw [keys, key] at listed
    simp at listed

end Gridix.Settlement
