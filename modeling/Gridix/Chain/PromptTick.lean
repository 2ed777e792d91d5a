import Gridix.Chain.DebitCover
import Gridix.Chain.Statements

/-!
# Ticks whose broadcasts confirm

An unforced tick at which everything that was broadcast before is confirmed.
-/

namespace Gridix.Settlement

open List Serial

structure Earns (rows : Ledger) : Prop where
  earned : ∀ provider, 0 ≤ earnedByProvider rows provider
  consumed : ∀ developer, 0 ≤ Ledger.sum
    (rows.filter fun group => group.reason = .settle) .escrow .debit (some developer)

def Prompt (now : Int) (_ : World) : Action → Prop
  | .engine input => input.found = true ∧ input.readings.now = now ∧
      ∃ salt, input.reply = .hash salt
  | .mine _ => True
  | .post rows => Earns rows
  | .tick _ | .abort | .crash | .reorg _ _ => False

/-- An unforced tick, with the world at its batch statement: by then what was
broadcast before is confirmed. -/
inductive PromptTick (settings : EngineSettings) (now : Int)
    (start base : World) : World → Prop where
  | intro (before after : List Action) (input : Input) (finish : World)
      (permitted : AllPermitted (step settings) (Prompt now) before
        (step settings (.tick false) start))
      (begun : Serial.run (step settings) before (step settings (.tick false) start) = base)
      (batching : base.control = .batching false)
      (confirmed : ∀ row ∈ base.tables, row.status = .confirmed)
      (onward : AllPermitted (step settings) (Prompt now) (.engine input :: after) base)
      (ran : Serial.run (step settings) (.engine input :: after) base = finish)
      (idle : finish.control = .idle) :
      PromptTick settings now start base finish

inductive PromptRun (settings : EngineSettings) : List (Int × World) → World → World → Prop where
  | rest (world : World) : PromptRun settings [] world world
  | tick {now : Int} {start base middle finish : World} {later : List (Int × World)}
      (first : PromptTick settings now start base middle)
      (onward : PromptRun settings later middle finish) :
      PromptRun settings ((now, base) :: later) start finish

/-- At the batch statement no provider has anything unsettled, and the
interval has elapsed since the last batch. -/
def Unblocked (settings : EngineSettings) (now : Int) (base : World) : Prop :=
  totalUnits (unsettled settings base.ledger base.tables) = 0 ∧
    intervalElapsed settings base.lastBatchAt now = true

section

variable {settings : EngineSettings} {world : World}

theorem settledUnitsByDev_le {rows : Ledger} (earns : Earns rows)
    (ledger : Ledger) (developer : Uuid) :
    settledUnitsByDev settings ledger developer ≤
      settledUnitsByDev settings (ledger ++ rows) developer := by
  have consumed := earns.consumed developer
  apply wholeUnits_mono
  rw [filter_append, Ledger.sum_append]
  omega

theorem record_submit (tables : Tables) (id : Uuid) (salt : Nat) :
    (updateRow tables id fun row => row.submit salt).map ChainSettlement.record =
      tables.map ChainSettlement.record :=
  map_updateRow tables id fun _ => rfl

theorem record_conclude (tables : Tables) (id : Uuid) (entry : Mined) :
    (updateRow tables id fun row => row.conclude entry).map ChainSettlement.record =
      tables.map ChainSettlement.record := by
  refine map_updateRow tables id fun row => ?_
  unfold ChainSettlement.conclude
  split_ifs <;> rfl

inductive RecoverStep (pass : Pass) (latest : Nat) (draft : Tables)
    (world next : World) : Prop where
  | proceed (todo : List Uuid) (moved : Tables)
      (control : next.control = .recovering pass latest todo moved)
      (tables : next.tables = world.tables)
      (records : moved.map ChainSettlement.record = draft.map ChainSettlement.record)
  | commit
      (control : next.control = match pass with
        | .first force => .batching force
        | .last => .idle)
      (tables : next.tables = draft)

theorem recover_step (pass : Pass) (latest : Nat) (draft : Tables) {input : Input}
    (replied : ∃ salt, input.reply = .hash salt) (todo : List Uuid) :
    RecoverStep pass latest draft world (world.recover settings pass latest draft input todo) := by
  cases todo with
  | nil => exact .commit rfl rfl
  | cons id rest =>
    simp only [World.recover]
    cases draft.find? fun row => row.id = id with
    | none => exact .proceed rest draft rfl rfl rfl
    | some row =>
      dsimp only
      split_ifs
      · obtain ⟨salt, reply⟩ := replied
        rw [reply]
        exact .proceed _ _ rfl rfl (record_submit draft row.id salt)
      · unfold World.check
        cases finalReceipt settings world.chain latest input.found row with
        | none => exact .proceed _ _ rfl rfl rfl
        | some entry => exact .proceed _ _ rfl rfl (record_conclude draft row.id entry)

end

section

variable (settings : EngineSettings) (now : Int) (base : World)

def Awaiting (lastBatchAt : Option Int) (tables : Tables) : Prop :=
  ∃ tail, tables = base.tables ++ tail ∧ PayoutRows tail ∧
    (tail ≠ [] ∧ ¬ Unblocked settings now base ∨ tail = [] ∧ lastBatchAt = base.lastBatchAt ∧
        (Unblocked settings now base ∨ intervalElapsed settings base.lastBatchAt now = false))

def Settled (tables : Tables) : Prop := ∃ tail, tables.map ChainSettlement.record =
      (base.tables ++ tail).map ChainSettlement.record ∧
    Covered settings (base.tables ++ tail) ∧
    (Unblocked settings now base → ∀ developer ∈ settings.developers.rows,
        0 < owed settings base.ledger base.tables developer →
          ∃ row ∈ tail, ∃ units, row.batchKey = .debit developer.id units) ∧
    (¬ Unblocked settings now base → ∀ row ∈ tail, NotDebit row)

structure Turn (world : World) : Prop where
  ledger : ∀ developer, settledUnitsByDev settings base.ledger developer ≤
    settledUnitsByDev settings world.ledger developer
  clock : totalUnits (unsettled settings base.ledger base.tables) = 0 →
    world.lastBatchAt = base.lastBatchAt
  stage : match world.control with
    | .batched false draft =>
      Awaiting settings now base world.lastBatchAt draft
    | .debiting false =>
      Awaiting settings now base world.lastBatchAt world.tables
    | .debited draft | .recovering .last _ _ draft =>
      Settled settings now base draft
    | .rebroadcasting | .idle => Settled settings now base world.tables
    | .batched true _ | .debiting true | .batching _
    | .recovering (.first _) _ _ _ => False

end

section

variable {settings : EngineSettings} {now : Int} {base world : World} {tail : Tables}
  {input : Input}

theorem payoutRows_nil : PayoutRows [] := by
  intro _ mem
  cases mem

theorem settled_of_payouts (covered : Covered settings base.tables)
    (blocked : ¬ Unblocked settings now base) (payouts : PayoutRows tail) :
    Settled settings now base (base.tables ++ tail) := by
  refine ⟨tail, rfl, ?_, fun unblocked => (blocked unblocked).elim, ?_⟩
  · refine covered.append ?_
    intro developer _ _ _ row mem units key
    exact ((payouts row mem).2.key developer.id units key).elim
  · intro _ row mem
    exact (payouts row mem).2

theorem inFlight_of_confirmed (confirmed : ∀ row ∈ base.tables, row.status = .confirmed) :
    inFlight base.tables = 0 := by
  apply countP_eq_zero.mpr
  intro row mem
  rw [confirmed row mem]
  exact Bool.false_ne_true

theorem Unblocked.not_due (unblocked : Unblocked settings now base) :
    batchDue settings false base.lastBatchAt now base.ledger base.tables = false := by
  simp [batchDue, unblocked.1]

/-- If no batch is due although the interval has elapsed, nothing is
unsettled. -/
theorem unblocked_or_waiting (confirmed : ∀ row ∈ base.tables, row.status = .confirmed)
    (idle : batchDue settings false base.lastBatchAt now base.ledger base.tables = false) :
    Unblocked settings now base ∨ intervalElapsed settings base.lastBatchAt now = false := by
  cases elapsed : intervalElapsed settings base.lastBatchAt now with
  | false => exact Or.inr rfl
  | true =>
    refine Or.inl ⟨?_, elapsed⟩
    simpa [batchDue, inFlight_of_confirmed confirmed, elapsed] using idle

theorem turn_batch (covered : Covered settings base.tables)
    (confirmed : ∀ row ∈ base.tables, row.status = .confirmed)
    (batching : base.control = .batching false)
    (prompt : Prompt now base (.engine input)) :
    Turn settings now base (engineStep settings input base) := by
  unfold engineStep
  rw [batching]
  dsimp only
  cases due : batchDue settings false base.lastBatchAt now base.ledger base.tables with
  | false =>
    have unchanged : maybeBatch settings false base.lastBatchAt
        input.readings base.ledger base.tables =
        .ok (base.tables, base.lastBatchAt) := by
      unfold maybeBatch
      rw [prompt.2.1, due]
      rfl
    rw [unchanged]
    exact ⟨fun _ => le_refl _, fun _ => rfl, [], by simp, payoutRows_nil,
      Or.inr ⟨rfl, rfl, unblocked_or_waiting confirmed due⟩⟩
  | true =>
    have blocked : ¬ Unblocked settings now base := by
      intro unblocked
      rw [unblocked.not_due] at due
      cases due
    have owing : totalUnits (unsettled settings base.ledger base.tables) ≠ 0 := by
      intro zero
      simp [batchDue, zero] at due
    cases batch : maybeBatch settings false base.lastBatchAt
        input.readings base.ledger base.tables with
    | error _ =>
      refine ⟨fun _ => le_refl _, fun zero => (owing zero).elim, ?_⟩
      have settled := settled_of_payouts covered blocked payoutRows_nil
      rw [append_nil] at settled
      exact settled
    | ok _ =>
      unfold maybeBatch at batch
      rw [prompt.2.1, due, if_pos rfl, bind_eq_ok] at batch
      obtain ⟨_, success, same⟩ := batch
      cases same
      obtain ⟨tail, rfl, payouts, some⟩ := recordBatch_rows success
      exact ⟨fun _ => le_refl _, fun zero => (owing zero).elim, tail, rfl,
        payouts, Or.inl ⟨some, blocked⟩⟩

theorem settled_of_unblocked (covered : Covered settings base.tables)
    (confirmed : ∀ row ∈ base.tables, row.status = .confirmed)
    (unblocked : Unblocked settings now base)
    (ledger : ∀ developer, settledUnitsByDev settings base.ledger developer ≤
      settledUnitsByDev settings world.ledger developer)
    {readings : Readings} (clock : readings.now = now) :
    ∃ draft, maybeDebit settings false base.lastBatchAt readings
        world.ledger base.tables = .ok draft ∧
      Settled settings now base draft := by
  have live : ∀ row ∈ base.tables, row.status.live = true := by
    intro row mem
    rw [confirmed row mem]
    rfl
  have pass : maybeDebit settings false base.lastBatchAt readings world.ledger base.tables =
      recordDebits settings world.ledger base.tables (debtors settings world.ledger base.tables)
        (reserveBaseNonce readings.chainNonce base.tables) base.tables := by
    unfold maybeDebit
    rw [inFlight_of_confirmed confirmed, clock, unblocked.2]
    rfl
  obtain ⟨_, ok⟩ := recordDebits_of_fresh
    (reserveBaseNonce readings.chainNonce base.tables) debtors_nodup
    (fun developer mem => covered.keysFree live developer
      (mem_debtors.mp mem).1 (mem_debtors.mp mem).2)
  have after := covered.recordDebits live ok
  have rows := (recordDebits_ok ok).2
  obtain ⟨tail, rfl, _⟩ := recordDebits_rows ok
  refine ⟨base.tables ++ tail, pass.trans ok, tail, rfl, after, ?_,
    fun blocked => (blocked unblocked).elim⟩
  intro _ developer known owes
  have owing : developer ∈ debtors settings world.ledger base.tables := by
    refine mem_debtors.mpr ⟨known, ?_⟩
    have more := ledger developer.id
    unfold owed at owes ⊢
    cases wallet : developer.walletAddress with
    | none =>
      rw [wallet] at owes
      cases owes
    | some =>
      rw [wallet] at owes
      dsimp only at owes ⊢
      omega
  obtain ⟨_, row, here, _, key, _⟩ := rows developer owing
  rw [drop_left] at here
  exact ⟨row, here, _, key⟩

theorem Turn.debit (covered : Covered settings base.tables)
    (confirmed : ∀ row ∈ base.tables, row.status = .confirmed) (turn : Turn settings now base world)
    (debiting : world.control = .debiting false)
    (prompt : Prompt now world (.engine input)) :
    Turn settings now base (engineStep settings input world) := by
  obtain ⟨ledger, clock, stage⟩ := turn
  rw [debiting] at stage
  obtain ⟨tail, tables, payouts, waiting⟩ := stage
  unfold engineStep
  rw [debiting]
  dsimp only
  rcases waiting with ⟨some, blocked⟩ | ⟨rfl, same, unblocked | waiting⟩
  · -- The batch is in flight.
    have skipped : maybeDebit settings false world.lastBatchAt
        input.readings world.ledger world.tables = .ok world.tables := by
      unfold maybeDebit
      rw [if_pos]
      rw [tables]
      obtain ⟨row, mem⟩ := exists_mem_of_ne_nil tail some
      apply countP_pos_iff.mpr
      refine ⟨row, mem_append_right _ mem, ?_⟩
      rw [(payouts row mem).1]
      rfl
    rw [skipped]
    refine ⟨ledger, clock, ?_⟩
    rw [tables]
    exact settled_of_payouts covered blocked payouts
  · rw [append_nil] at tables
    obtain ⟨_, ok, settled⟩ := settled_of_unblocked covered confirmed unblocked ledger prompt.2.1
    rw [same, tables, ok]
    exact ⟨ledger, fun _ => rfl, settled⟩
  · rw [append_nil] at tables
    have skipped : maybeDebit settings false world.lastBatchAt
        input.readings world.ledger world.tables = .ok world.tables := by
      unfold maybeDebit
      rw [same, prompt.2.1, waiting]
      simp
    have blocked : ¬ Unblocked settings now base := by
      intro unblocked
      rw [unblocked.2] at waiting
      cases waiting
    have settled := settled_of_payouts covered blocked payoutRows_nil
    rw [append_nil] at settled
    rw [skipped]
    refine ⟨ledger, clock, ?_⟩
    rw [tables]
    exact settled

theorem Turn.engineStep (covered : Covered settings base.tables)
    (confirmed : ∀ row ∈ base.tables, row.status = .confirmed)
    (turn : Turn settings now base world) (prompt : Prompt now world (.engine input)) :
    Turn settings now base (engineStep settings input world) := by
  have stage := turn.stage
  cases control : world.control with
  | idle =>
    unfold Settlement.engineStep
    rw [control]
    exact turn
  | recovering pass latest todo draft =>
    rw [control] at stage
    unfold Settlement.engineStep
    rw [control]
    dsimp only
    cases pass with
    | first => exact stage.elim
    | last =>
      obtain ⟨ledger, clock, _⟩ := @recover_ledger settings world .last latest draft input todo
      have moved := @recover_step settings world .last latest draft _ prompt.2.2 todo
      refine ⟨by rw [ledger]; exact turn.ledger,
        by rw [clock]; exact turn.clock, ?_⟩
      cases moved with
      | proceed _ _ control _ same =>
        rw [control]
        obtain ⟨tail, records, facts⟩ := stage
        exact ⟨tail, same.trans records, facts⟩
      | commit control tables =>
        rw [control]
        rw [tables]
        exact stage
  | batching =>
    rw [control] at stage
    exact stage.elim
  | batched force =>
    rw [control] at stage
    unfold Settlement.engineStep
    rw [control]
    cases force with
    | false => exact ⟨turn.ledger, turn.clock, stage⟩
    | true => exact stage.elim
  | debiting force =>
    rw [control] at stage
    cases force with
    | false => exact turn.debit covered confirmed control prompt
    | true => exact stage.elim
  | debited | rebroadcasting =>
    rw [control] at stage
    unfold Settlement.engineStep
    rw [control]
    exact ⟨turn.ledger, turn.clock, stage⟩

theorem Turn.step (covered : Covered settings base.tables)
    (confirmed : ∀ row ∈ base.tables, row.status = .confirmed) (turn : Turn settings now base world)
    {action : Action} (prompt : Prompt now world action) :
    Turn settings now base (step settings action world) := by
  cases action with
  | engine => exact turn.engineStep covered confirmed prompt
  | mine => exact ⟨turn.ledger, turn.clock, turn.stage⟩
  | post =>
    refine ⟨fun developer => (turn.ledger developer).trans ?_, turn.clock, turn.stage⟩
    exact settledUnitsByDev_le prompt world.ledger developer
  | tick | abort | crash | reorg => exact prompt.elim

theorem Turn.run (covered : Covered settings base.tables)
    (confirmed : ∀ row ∈ base.tables, row.status = .confirmed)
    (turn : Turn settings now base world) {actions : List Action}
    (permitted : AllPermitted (Settlement.step settings) (Prompt now) actions world) :
    Turn settings now base (Serial.run (Settlement.step settings) actions world) := by
  induction actions generalizing world with
  | nil => exact turn
  | cons _ _ ih => exact ih (turn.step covered confirmed permitted.1) permitted.2

end

structure Opening (settings : EngineSettings) (start world : World) : Prop where
  ledger : ∀ developer, settledUnitsByDev settings start.ledger developer ≤
    settledUnitsByDev settings world.ledger developer
  stage : match world.control with
    | .recovering (.first _) _ _ draft =>
      world.lastBatchAt = start.lastBatchAt ∧ draft.map ChainSettlement.record =
          start.tables.map ChainSettlement.record
    | .batching _ =>
      world.lastBatchAt = start.lastBatchAt ∧ world.tables.map ChainSettlement.record =
          start.tables.map ChainSettlement.record
    | .recovering .last _ _ _ | .batched _ _ | .debiting _ | .debited _
    | .rebroadcasting | .idle => True

section

variable {settings : EngineSettings} {now : Int} {start world : World}

theorem Opening.engineStep (opening : Opening settings start world)
    {input : Input} (prompt : Prompt now world (.engine input)) :
    Opening settings start (engineStep settings input world) := by
  have stage := opening.stage
  unfold Settlement.engineStep
  cases control : world.control with
  | idle => exact opening
  | recovering pass latest todo draft =>
    rw [control] at stage
    dsimp only
    obtain ⟨ledger, clock, _⟩ := @recover_ledger settings world pass latest draft input todo
    have moved := @recover_step settings world pass latest draft _ prompt.2.2 todo
    refine ⟨by rw [ledger]; exact opening.ledger, ?_⟩
    cases moved with
    | proceed _ _ control _ same =>
      rw [control]
      cases pass with
      | first => exact ⟨clock.trans stage.1, same.trans stage.2⟩
      | last => trivial
    | commit control tables =>
      rw [control]
      cases pass with
      | first => exact ⟨clock.trans stage.1, by rw [tables]; exact stage.2⟩
      | last => trivial
  | batching force =>
    dsimp only
    cases maybeBatch settings force world.lastBatchAt input.readings world.ledger world.tables with
    | error | ok => exact ⟨opening.ledger, trivial⟩
  | batched | debited | rebroadcasting => exact ⟨opening.ledger, trivial⟩
  | debiting force =>
    dsimp only
    cases maybeDebit settings force world.lastBatchAt input.readings world.ledger world.tables with
    | error | ok => exact ⟨opening.ledger, trivial⟩

theorem Opening.run (opening : Opening settings start world) {actions : List Action}
    (permitted : AllPermitted (step settings) (Prompt now) actions world) :
    Opening settings start (Serial.run (step settings) actions world) := by
  induction actions generalizing world with
  | nil => exact opening
  | cons action _ ih =>
    refine ih ?_ permitted.2
    have prompt := permitted.1
    cases action with
    | engine => exact opening.engineStep prompt
    | mine => exact ⟨opening.ledger, opening.stage⟩
    | post =>
      refine ⟨fun developer => (opening.ledger developer).trans ?_, opening.stage⟩
      exact settledUnitsByDev_le prompt world.ledger developer
    | tick | abort | crash | reorg => exact prompt.elim

theorem opening_tick (idle : start.control = .idle) :
    Opening settings start (step settings (.tick false) start) := by
  have begun : step settings (.tick false) start = start.beginRecovery (.first false) := by
    simp [step, idle]
  rw [begun]
  exact ⟨fun _ => le_refl _, rfl, rfl⟩

end

/-- A debit of the developer was recorded on the way. -/
def DebitRecorded (developer : Developer) (start finish : World) : Prop :=
  ∃ row ∈ finish.tables.drop start.tables.length, ∃ units, row.batchKey = .debit developer.id units

structure TickEffect (settings : EngineSettings) (now : Int)
    (start base finish : World) : Prop where
  idle : finish.control = .idle
  ledger : ∀ developer, settledUnitsByDev settings start.ledger developer ≤
    settledUnitsByDev settings finish.ledger developer
  clock : base.lastBatchAt = start.lastBatchAt
  kept : totalUnits (unsettled settings base.ledger base.tables) = 0 →
    finish.lastBatchAt = start.lastBatchAt
  covered : Covered settings finish.tables
  rows : ∃ tail, finish.tables.map ChainSettlement.record =
      (start.tables ++ tail).map ChainSettlement.record ∧
    (Unblocked settings now base → ∀ developer ∈ settings.developers.rows,
        0 < owed settings start.ledger start.tables developer →
          ∃ row ∈ tail, ∃ units, row.batchKey = .debit developer.id units) ∧
    (¬ Unblocked settings now base → ∀ row ∈ tail, NotDebit row)

section

variable {settings : EngineSettings} {now : Int} {start base finish : World}

theorem Prompt.credits {world : World} {action : Action}
    (prompt : Prompt now world action) : Credits world action := by
  cases action with
  | engine | mine => trivial
  | post => exact prompt.earned
  | tick | abort | crash | reorg => exact prompt.elim

theorem PromptTick.reaches_base (tick : PromptTick settings now start base finish) :
    Reaches (step settings) Credits (fun world => world = start) base := by
  cases tick with
  | intro _ _ _ _ permitted begun =>
    have initial : Reaches (step settings) Credits (fun world => world = start) start := .start rfl
    have reached := (initial.step (Action.tick false) trivial).run
      (permitted.mono fun _ _ prompt => prompt.credits)
    rw [begun] at reached
    exact reached

theorem PromptTick.reaches (tick : PromptTick settings now start base finish) :
    Reaches (step settings) Credits (fun world => world = start) finish := by
  have reached := tick.reaches_base
  cases tick with
  | intro _ _ _ _ _ _ _ _ onward ran =>
    have further := reached.run (onward.mono fun _ _ prompt => prompt.credits)
    rw [ran] at further
    exact further

theorem PromptTick.live (safe : Safe settings start) (idle : start.control = .idle)
    (tick : PromptTick settings now start base finish) :
    ∀ row ∈ start.tables, row.status.live = true := by
  intro row mem
  have reached := tick.reaches_base
  cases tick with
  | intro _ _ _ _ _ _ _ confirmed =>
    cases status : row.status with
    | pending | submitted | confirmed => rfl
    | failed =>
      have landed : row.status.inFlight = false := by
        rw [status]
        rfl
      have kept := (reaches_kept safe reached).2 row landed ⟨mem, by rw [idle]; trivial⟩
      have impossible := confirmed row kept.stored
      rw [status] at impossible
      cases impossible

theorem owed_pos_of_le {world : World} {developer : Developer}
    (live : ∀ row ∈ start.tables, row.status.live = true)
    (ledger : ∀ developer, settledUnitsByDev settings start.ledger
      developer ≤ settledUnitsByDev settings world.ledger developer)
    (debits : ∀ wallet, debitedTotal world.tables wallet = debitedTotal start.tables wallet)
    (owes : 0 < owed settings start.ledger start.tables developer) :
    0 < owed settings world.ledger world.tables developer := by
  have more := ledger developer.id
  unfold owed at owes ⊢
  cases wallet : developer.walletAddress with
  | none =>
    rw [wallet] at owes
    cases owes
  | some address =>
    rw [wallet] at owes
    have bound := onchainDebitedByDev_le world.tables address
    have same := onchainDebitedByDev_of_live live address
    have total := debits address
    dsimp only at owes ⊢
    omega

theorem PromptTick.effect (safe : Safe settings start) (idle : start.control = .idle)
    (covered : Covered settings start.tables) (tick : PromptTick settings now start base finish) :
    TickEffect settings now start base finish := by
  have live := tick.live safe idle
  cases tick with
  | intro _ after input _ permitted begun batching confirmed onward ran returned =>
    have opening := (opening_tick idle).run permitted
    rw [begun] at opening
    have stage := opening.stage
    rw [batching] at stage
    obtain ⟨clock, records⟩ := stage
    have baseCovered := covered.congr records.symm
    have turn := (turn_batch baseCovered confirmed batching onward.1).run
      baseCovered confirmed onward.2
    have whole : Serial.run (step settings) after (engineStep settings input base) = finish := ran
    rw [whole] at turn
    have settled := turn.stage
    rw [returned] at settled
    obtain ⟨tail, finishRecords, finishCovered, debited, undebited⟩ := settled
    refine ⟨returned, fun developer => (opening.ledger developer).trans
        (turn.ledger developer), clock,
      fun quiet => (turn.clock quiet).trans clock,
      finishCovered.congr finishRecords.symm, tail, ?_, ?_, undebited⟩
    · rw [finishRecords, map_append, map_append, records]
    · intro unblocked developer known owes
      exact debited unblocked developer known (owed_pos_of_le live
        opening.ledger (debitedTotal_congr records) owes)

end

end Gridix.Settlement
