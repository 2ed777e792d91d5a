import Gridix.Chain.Sessions

/-!
# Providers are paid at most once

Every transaction on the chain carries the nonce and the call of a recorded
row, and rows have distinct nonces.  So what the chain has paid a provider is
covered by the reservations of live rows, and those never exceed the earnings
they were computed from.
-/

namespace Gridix.Settlement

open List Serial

def SessionSound (settings : EngineSettings) (world : World) : Control → Prop
  | .recovering _ latest _ draft =>
    draft.map ChainSettlement.identity = world.tables.map ChainSettlement.identity ∧
      Sound settings world.chain world.ledger draft ∧
      latest + 1 ≤ settings.confirmations + world.chain.final
  | .batched _ draft | .debited draft =>
    world.tables <+: draft ∧ Sound settings world.chain world.ledger draft
  | .idle | .batching _ | .debiting _ | .rebroadcasting => True

structure Safe (settings : EngineSettings) (world : World) : Prop where
  final : world.chain.height + 1 ≤ settings.confirmations + world.chain.final
  executed : ∀ entry ∈ world.chain.mined, entry.tx ∈ world.chain.accepted
  traced : ∀ tx ∈ world.chain.accepted, ∃ row ∈ world.tables,
    row.nonce = tx.nonce ∧ row.call = tx.call
  earned : ∀ provider, 0 ≤ earnedByProvider world.ledger provider
  sound : Sound settings world.chain world.ledger world.tables
  session : SessionSound settings world world.control

section

variable {settings : EngineSettings} {world : World} {control : Control} {row : ChainSettlement}
  {draft : Tables} {id : Uuid} {latest : Nat} {found : Bool} {rest todo : List Uuid}
  {tables : Tables} {ledger : Ledger}

theorem Sound.eq_of_id {chain : ChainState} {ledger : Ledger}
    (sound : Sound settings chain ledger tables) {left right : ChainSettlement}
    (leftMember : left ∈ tables) (rightMember : right ∈ tables) (same : left.id = right.id) :
    left = right := by
  have distinct : (tables.map ChainSettlement.id).Nodup := by
    rw [sound.ids]
    exact nodup_range
  exact inj_on_of_nodup_map distinct leftMember rightMember same

theorem sound_keeps : Keeps fun chain tables => Sound settings chain ledger tables where
  mono sound preserves _ := sound.mono preserves
  submit salt sound mem needs _ := by
    refine sound.update _ (fun _ => rfl) ?_
    intro own ownMember sameId
    have identical := sound.eq_of_id ownMember mem sameId
    subst identical
    have rowSound := sound.rows own mem
    exact ⟨rowSound.submit needs salt, fun provider => rowSound.holds_submit needs salt provider⟩
  conclude sound mem mined hashed final := by
    refine sound.update _ (fun row => conclude_identity row _) ?_
    intro own ownMember sameId
    have identical := sound.eq_of_id ownMember mem sameId
    subst identical
    have rowSound := sound.rows own mem
    exact ⟨rowSound.conclude mined hashed final,
      fun provider => rowSound.holds_conclude mined hashed provider⟩

theorem Safe.guarded (safe : Safe settings world) :
    Guarded settings (fun chain tables => Sound settings chain world.ledger tables) world :=
  ⟨safe.final, safe.executed, safe.traced, safe.sound, safe.session⟩

theorem Guarded.safe
    (guarded : Guarded settings (fun chain tables => Sound settings chain ledger tables) world)
    (same : world.ledger = ledger)
    (earned : ∀ provider, 0 ≤ earnedByProvider ledger provider) : Safe settings world := by
  subst same
  exact ⟨guarded.final, guarded.executed, guarded.traced, earned, guarded.good, guarded.session⟩

theorem Safe.fresh (fresh : world.Fresh settings) : Safe settings world := by
  refine Guarded.safe (.fresh fresh ⟨rfl, nodup_nil, by simp, ?_⟩) rfl fresh.earned
  intro provider _
  simp only [reservedByProvider]
  have earned := wholeUnits_mono settings.usdcDecimals (fresh.earned provider.id)
  simpa [wholeUnits] using earned

theorem Safe.records {readings : Readings} (safe : Safe settings world)
    (records : Records settings readings world draft) :
    Recorded settings world.chain world.ledger world.tables draft := by
  obtain ⟨_, ⟨_, _, batch⟩ | ⟨_, debit⟩⟩ := records
  · exact maybeBatch_recorded batch safe.sound safe.earned
  · exact maybeDebit_recorded debit safe.sound

theorem Safe.post (safe : Safe settings world) {rows : Ledger}
    (credits : ∀ provider, 0 ≤ earnedByProvider rows provider) :
    Safe settings { world with ledger := world.ledger ++ rows } := by
  have guarded := safe.guarded.imp fun _ _ sound => sound.post credits
  refine ⟨guarded.final, guarded.executed, guarded.traced, ?_, guarded.good, guarded.session⟩
  intro provider
  have old := safe.earned provider
  have new := credits provider
  unfold earnedByProvider at old new ⊢
  rw [accountBalance_append]
  omega

theorem Safe.step (safe : Safe settings world) (action : Action) (credits : Credits world action) :
    Safe settings (step settings action world) := by
  by_cases silent : ∀ rows, action ≠ .post rows
  · refine (safe.guarded.step sound_keeps action ?_).safe (step_ledger silent) safe.earned
    intro _ _ _ records
    exact ⟨(safe.records records).extended, (safe.records records).sound⟩
  · push Not at silent
    obtain ⟨_, rfl⟩ := silent
    exact safe.post credits

theorem reaches_safe (reached : Reaches (step settings) Credits
      (World.Fresh settings) world) : Safe settings world := by
  induction reached with
  | start fresh => exact Safe.fresh fresh
  | step _ action credits safe => exact safe.step action credits

theorem Safe.credited_le (safe : Safe settings world) {provider : ProviderAccount}
    (mem : provider ∈ settings.providers.rows) :
    credited world.chain provider.walletAddress ≤ reservedByProvider world.tables provider.id := by
  rw [reservedByProvider_eq]
  refine @KeyedRows.sum_le_of_matched _ _ _ _ _ ChainSettlement.nonce _ _ _ world.chain.once ?_
  intro entry mined counts
  obtain ⟨row, rowMember, nonce, call⟩ := safe.traced entry.tx (safe.executed entry mined)
  refine ⟨row, rowMember, nonce, ?_⟩
  have ok : entry.success = true := by
    by_contra reverted
    apply counts
    simp [Mined.pays, reverted]
  have rowSound := safe.sound.rows row rowMember
  have alive := rowSound.ne_failed mined nonce.symm ok
  rw [ChainSettlement.holds_of_ne_failed alive, ← rowSound.legs alive provider mem]
  simp [Mined.pays, ok, call]

def KeptIn (row : ChainSettlement) : Control → Prop
  | .recovering _ _ todo draft => row ∈ draft ∧ row.id ∉ todo
  | .batched _ draft | .debited draft => row ∈ draft
  | .idle | .batching _ | .debiting _ | .rebroadcasting => True

structure Kept (row : ChainSettlement) (world : World) : Prop where
  stored : row ∈ world.tables
  session : KeptIn row world.control

variable {row : ChainSettlement}

theorem mem_flightRows (mem : id ∈ flightRows tables) :
    ∃ row ∈ tables, row.id = id ∧ row.status.inFlight = true := by
  obtain ⟨row, sorted, rfl⟩ := mem_map.mp mem
  have listed := (perm_insertionSort _ _).mem_iff.mp sorted
  obtain ⟨here, flying⟩ := mem_filter.mp listed
  exact ⟨row, here, rfl, flying⟩

theorem Kept.beginRecovery (safe : Safe settings world)
    (kept : Kept row world) (concluded : row.status.inFlight = false)
    (pass : Pass) : Kept row (world.beginRecovery pass) := by
  refine ⟨kept.stored, kept.stored, ?_⟩
  intro visited
  obtain ⟨_, here, same, flying⟩ := mem_flightRows visited
  rw [safe.sound.eq_of_id here kept.stored same, concluded] at flying
  cases flying

theorem Kept.recover (kept : Kept row world) {pass : Pass}
    (session : KeptIn row (.recovering pass latest todo draft)) (input : Input) :
    Kept row (world.recover settings pass latest draft input todo) := by
  obtain ⟨here, unvisited⟩ := session
  cases todo with
  | nil =>
    refine ⟨here, ?_⟩
    cases pass with
    | first | last => trivial
  | cons id =>
    rw [mem_cons, not_or] at unvisited
    obtain ⟨other, unlisted⟩ := unvisited
    simp only [World.recover]
    cases found : draft.find? fun row => row.id = id with
    | none => exact ⟨kept.stored, here, unlisted⟩
    | some visited =>
      obtain ⟨_, visitedId⟩ := mem_of_find? found
      rw [← visitedId] at other
      dsimp only
      split_ifs
      · cases input.reply with
        | hash =>
          refine ⟨kept.stored, KeyedRows.mem_update_of_ne here other, ?_⟩
          rw [mem_cons, not_or]
          exact ⟨other, unlisted⟩
        | chainError reached =>
          cases reached with
          | none | some => exact ⟨kept.stored, here, unlisted⟩
        | raised reached =>
          cases reached with
          | none | some => exact ⟨kept.stored, trivial⟩
      · refine ⟨kept.stored, ?_, unlisted⟩
        cases finalReceipt settings world.chain latest input.found visited with
        | none => exact here
        | some => exact KeyedRows.mem_update_of_ne here other

theorem Kept.engineStep (safe : Safe settings world)
    (kept : Kept row world) (concluded : row.status.inFlight = false)
    (input : Input) : Kept row (engineStep settings input world) := by
  have session := kept.session
  unfold Settlement.engineStep
  cases control : world.control with
  | idle => exact kept
  | recovering =>
    rw [control] at session
    exact kept.recover session input
  | batching force =>
    dsimp only
    cases batch : maybeBatch settings force world.lastBatchAt
        input.readings world.ledger world.tables with
    | error _ => exact ⟨kept.stored, trivial⟩
    | ok _ =>
      have recorded := maybeBatch_recorded batch safe.sound safe.earned
      exact ⟨kept.stored, recorded.extended.subset kept.stored⟩
  | batched | debited =>
    rw [control] at session
    exact ⟨session, trivial⟩
  | debiting force =>
    dsimp only
    cases debit : maybeDebit settings force world.lastBatchAt
        input.readings world.ledger world.tables with
    | error _ => exact ⟨kept.stored, trivial⟩
    | ok _ =>
      have recorded := maybeDebit_recorded debit safe.sound
      exact ⟨kept.stored, recorded.extended.subset kept.stored⟩
  | rebroadcasting => exact kept.beginRecovery safe concluded .last

theorem reaches_kept {start : World} (safe : Safe settings start)
    (reached : Reaches (step settings) Credits (fun world => world = start) world) :
    Safe settings world ∧ ∀ row : ChainSettlement,
      row.status.inFlight = false → Kept row start → Kept row world := by
  induction reached with
  | start same =>
    subst same
    exact ⟨safe, fun _ _ kept => kept⟩
  | step _ action credits held =>
    refine ⟨held.1.step action credits, ?_⟩
    intro row concluded kept
    have kept := (held.2 row concluded kept)
    have safe := held.1
    cases action with
    | tick force =>
      simp only [Settlement.step]
      split_ifs
      · exact kept.beginRecovery safe concluded (.first force)
      · exact kept
    | engine input => exact kept.engineStep safe concluded input
    | abort | crash => exact ⟨kept.stored, trivial⟩
    | mine | reorg | post => exact ⟨kept.stored, kept.session⟩

end

section

variable {settings : EngineSettings} {before world : World}
  {draft : Tables} {provider : ProviderAccount} {id : Uuid} {row : ChainSettlement}
  {chain : ChainState} {ledger : Ledger} {tables : Tables}

/-- The rows of a batch recorded over concluded tables have come through:
they are in the tables, confirmed, and no later row pays anybody. -/
structure CameThrough (before : Tables) (draft : Tables) (world : World) : Prop where
  recorded : draft.map ChainSettlement.identity <+: world.tables.map ChainSettlement.identity
  confirmed : ∀ row ∈ world.tables, before.length ≤ row.id →
    row.id < draft.length → row.status = .confirmed
  unpaid : ∀ row ∈ world.tables, draft.length ≤ row.id → ∀ wallet, row.call.pays wallet = 0

theorem Sound.exists_of_lt (sound : Sound settings chain ledger tables)
    (inside : id < tables.length) :
    ∃ row ∈ tables, row.id = id := by
  have listed : id ∈ tables.map ChainSettlement.id := by
    rw [sound.ids]
    exact mem_range.mpr inside
  exact mem_map.mp listed

theorem Sound.id_lt (sound : Sound settings chain ledger tables)
    (mem : row ∈ tables) : row.id < tables.length := by
  have listed := mem_map_of_mem (f := ChainSettlement.id) mem
  rw [sound.ids] at listed
  exact mem_range.mp listed

theorem concluded_of_quiet (quiet : inFlight tables = 0) (mem : row ∈ tables) :
    row.status.inFlight = false := by
  have none := countP_eq_zero.mp quiet row mem
  simpa using none

theorem confirmed_of_concluded
    (concluded : row.status.inFlight = false) (alive : row.status ≠ .failed) :
    row.status = .confirmed := by
  cases status : row.status with
  | pending | submitted =>
    rw [status] at concluded
    cases concluded
  | confirmed => rfl
  | failed => exact (alive status).elim

theorem ne_failed_of_holds (holds : row.holds id ≠ 0) : row.status ≠ .failed := by
  intro failed
  apply holds
  simp [ChainSettlement.holds, failed, TxStatus.live]

theorem CameThrough.confirmed_of_holds
    (through : CameThrough before.tables draft world) (safe : Safe settings world)
    (beforeSound : Sound settings chain ledger before.tables) (quiet : inFlight before.tables = 0)
    (kept : ∀ row ∈ before.tables, row ∈ world.tables) (known : provider ∈ settings.providers.rows)
    (mem : row ∈ world.tables) (holds : row.holds provider.id ≠ 0) :
    row.status = .confirmed ∧ row.id < draft.length := by
  have alive := ne_failed_of_holds holds
  have inside : row.id < draft.length := by
    by_contra outside
    apply holds
    rw [ChainSettlement.holds_of_ne_failed alive,
      ← (safe.sound.rows row mem).legs alive provider known]
    exact through.unpaid row mem (Nat.not_lt.mp outside) _
  refine ⟨?_, inside⟩
  by_cases old : row.id < before.tables.length
  · obtain ⟨earlier, here, same⟩ := beforeSound.exists_of_lt old
    have identical := safe.sound.eq_of_id (kept earlier here) mem same
    subst identical
    exact confirmed_of_concluded (concluded_of_quiet quiet here) alive
  · exact through.confirmed row mem (Nat.not_lt.mp old) inside

theorem Safe.reserved_le_credited (safe : Safe settings world)
    (known : provider ∈ settings.providers.rows)
    (confirmed : ∀ row ∈ world.tables, row.holds provider.id ≠ 0 → row.status = .confirmed) :
    reservedByProvider world.tables provider.id ≤ credited world.chain provider.walletAddress := by
  rw [reservedByProvider_eq]
  refine @KeyedRows.sum_le_of_matched _ _ _ _ _
    (fun entry : Mined => entry.tx.nonce) _ _ _ safe.sound.nonces ?_
  intro row mem holds
  have rowSound := safe.sound.rows row mem
  have alive := ne_failed_of_holds holds
  obtain ⟨entry, mined, _, nonce, call, ok⟩ := rowSound.confirmed (confirmed row mem holds)
  refine ⟨entry, mined, nonce, ?_⟩
  rw [ChainSettlement.holds_of_ne_failed alive, ← rowSound.legs alive provider known]
  simp [Mined.pays, ok, call]

theorem holds_eq_of_identity {leftChain rightChain : ChainState} {left right : ChainSettlement}
    (leftSound : RowSound settings.providers leftChain left)
    (rightSound : RowSound settings.providers rightChain right)
    (known : provider ∈ settings.providers.rows) (same : left.identity = right.identity)
    (leftAlive : left.status ≠ .failed) (rightAlive : right.status ≠ .failed) :
    left.holds provider.id = right.holds provider.id := by
  simp only [ChainSettlement.identity, Prod.mk.injEq] at same
  rw [ChainSettlement.holds_of_ne_failed leftAlive, ChainSettlement.holds_of_ne_failed rightAlive,
    ← leftSound.legs leftAlive provider known,
    ← rightSound.legs rightAlive provider known, same.2.2]

theorem CameThrough.reserved_eq
    (through : CameThrough before.tables draft world) (safe : Safe settings world)
    (recorded : Recorded settings chain ledger before.tables draft)
    (beforeSound : Sound settings chain ledger before.tables) (quiet : inFlight before.tables = 0)
    (kept : ∀ row ∈ before.tables, row ∈ world.tables)
    (known : provider ∈ settings.providers.rows) :
    reservedByProvider world.tables provider.id = reservedByProvider draft provider.id := by
  have draftSound := recorded.sound
  rw [reservedByProvider_eq, reservedByProvider_eq]
  apply le_antisymm
  · refine @KeyedRows.sum_le_of_matched _ _ _ _ _ ChainSettlement.nonce _ _ _ safe.sound.nonces ?_
    intro row mem holds
    have alive := ne_failed_of_holds holds
    obtain ⟨_, inside⟩ := through.confirmed_of_holds safe beforeSound quiet kept known mem holds
    obtain ⟨own, ownMember, ownId⟩ := draftSound.exists_of_lt inside
    have found := through.recorded.subset (mem_map_of_mem ownMember)
    obtain ⟨other, otherMember, identity⟩ := mem_map.mp found
    have otherId : other.id = row.id := by
      simp only [ChainSettlement.identity, Prod.mk.injEq] at identity
      rw [identity.1, ownId]
    have same := safe.sound.eq_of_id otherMember mem otherId
    subst same
    have nonce : own.nonce = other.nonce := by
      simp only [ChainSettlement.identity, Prod.mk.injEq] at identity
      exact identity.2.1.symm
    refine ⟨own, ownMember, nonce, le_of_eq ?_⟩
    rcases recorded.pending own ownMember with old | ⟨pending, _⟩
    · rw [safe.sound.eq_of_id (kept own old) mem ownId]
    · refine holds_eq_of_identity (safe.sound.rows other mem)
        (draftSound.rows own ownMember) known identity alive ?_
      rw [pending]
      exact TxStatus.noConfusion
  · refine @KeyedRows.sum_le_of_matched _ _ _ _ _ ChainSettlement.nonce _ _ _ draftSound.nonces ?_
    intro own ownMember holds
    have found := through.recorded.subset (mem_map_of_mem ownMember)
    obtain ⟨row, mem, identity⟩ := mem_map.mp found
    have parts := identity
    simp only [ChainSettlement.identity, Prod.mk.injEq] at parts
    refine ⟨row, mem, parts.2.1, le_of_eq ?_⟩
    by_cases old : row.id < before.tables.length
    · obtain ⟨earlier, here, sameId⟩ := beforeSound.exists_of_lt old
      have inDraft := draftSound.eq_of_id
        (recorded.extended.subset here) ownMember (sameId.trans parts.1)
      have inTables := safe.sound.eq_of_id (kept earlier here) mem sameId
      rw [← inDraft, inTables]
    · have inside := draftSound.id_lt ownMember
      rw [← parts.1] at inside
      have confirmed := through.confirmed row mem (Nat.not_lt.mp old) inside
      refine holds_eq_of_identity (draftSound.rows own ownMember)
        (safe.sound.rows row mem) known identity.symm
        (ne_failed_of_holds holds) ?_
      rw [confirmed]
      exact TxStatus.noConfusion

end

/-- Under every interleaving of ticks, crashes, failures, mining,
reorganisations and new earnings, no provider is paid more than was earned, and
a confirmed batch pays what was earned when it was recorded. -/
theorem no_double_pay (settings : EngineSettings) : (∀ world, Reaches (step settings) Credits
        (World.Fresh settings) world →
      ∀ provider ∈ settings.providers.rows, ∃ units, toUnits settings.usdcDecimals
          (earnedByProvider world.ledger provider.id) = .ok units ∧
        (credited world.chain provider.walletAddress : Int) ≤ units) ∧
    ∀ before, Reaches (step settings) Credits (World.Fresh settings) before →
      before.control = .batching true → inFlight before.tables = 0 →
      ∀ readings draft lastBatchAt,
        maybeBatch settings true before.lastBatchAt readings before.ledger
          before.tables = .ok (draft, lastBatchAt) →
      ∀ world, Reaches (step settings) Credits
          (fun start => start = { before with
            control := .batched true draft, lastBatchAt := lastBatchAt })
          world →
        CameThrough before.tables draft world →
        ∀ provider ∈ settings.providers.rows, ∃ units, toUnits settings.usdcDecimals
            (earnedByProvider before.ledger provider.id) = .ok units ∧
          (credited world.chain provider.walletAddress : Int) = units := by
  have convert : ∀ (ledger : Ledger) (provider : Uuid), 0 ≤ earnedByProvider ledger provider →
      toUnits settings.usdcDecimals (earnedByProvider ledger provider) =
        .ok (wholeUnits settings.usdcDecimals (earnedByProvider ledger provider)) := by
    intro _ _ nonneg
    unfold toUnits
    rw [if_neg (Int.not_lt.mpr nonneg)]
  constructor
  · intro _ reached provider known
    have safe := reaches_safe reached
    refine ⟨_, convert _ _ (safe.earned provider.id), ?_⟩
    exact le_trans (Int.ofNat_le.mpr (safe.credited_le known)) (safe.sound.reserved provider known)
  · intro before reached _ quiet _ draft lastBatchAt batch world later through provider known
    have safeBefore := reaches_safe reached
    have recorded := maybeBatch_recorded batch safeBefore.sound safeBefore.earned
    have start : Safe settings { before with
        control := .batched true draft, lastBatchAt := lastBatchAt } :=
      ⟨safeBefore.final, safeBefore.executed, safeBefore.traced,
        safeBefore.earned, safeBefore.sound, recorded.extended,
        recorded.sound⟩
    obtain ⟨safe, keeps⟩ := reaches_kept start later
    have kept : ∀ row ∈ before.tables, row ∈ world.tables := by
      intro row member
      exact (keeps row (concluded_of_quiet quiet member)
        ⟨member, recorded.extended.subset member⟩).stored
    refine ⟨_, convert _ _ (safeBefore.earned provider.id), ?_⟩
    rw [← maybeBatch_forced batch safeBefore.sound safeBefore.earned quiet
      known, ← through.reserved_eq safe recorded safeBefore.sound quiet kept
      known]
    refine congrArg Nat.cast (le_antisymm (safe.credited_le known) ?_)
    exact safe.reserved_le_credited known fun row member holds =>
      (through.confirmed_of_holds safe safeBefore.sound quiet kept known member holds).1

def payoutSettings : EngineSettings :=
  { usdcDecimals := 6, confirmations := 1, thresholdUnits := 100
    interval := 10
    providers := .five, developers := .none }

def earnedWorld : World :=
  { chain := .fresh 7, tables := []
    ledger := [⟨transferPostings .escrow (some 1) .provider (some 5) 350, .settle, some 1, none⟩]
    control := .idle, lastBatchAt := none }

theorem earnedWorld_fresh : earnedWorld.Fresh payoutSettings := by
  refine ⟨rfl, rfl, rfl, rfl, by decide, ?_⟩
  intro provider
  have earned : earnedByProvider earnedWorld.ledger provider =
      if 5 = provider then 350 else 0 := by
    simp [earnedByProvider, earnedWorld, accountBalance]
  rw [earned]
  split_ifs <;> decide

theorem earnedWorld_reached :
    Reaches (step payoutSettings) Credits (World.Fresh payoutSettings) earnedWorld :=
  .start earnedWorld_fresh

def plainInput : Input := { readings := ⟨0, 0, 0⟩, reply := .hash 0, found := true }

def forcedBatching : World := Serial.run (step payoutSettings) [.tick true, .engine plainInput]
    earnedWorld

def forcedDraft : Tables := [⟨0, .depositSettlement 3, .pending, .deposit 0, 0, none, []⟩,
    ⟨1, .settleBatch [(50, 3)], .pending, .settle 0, 1, none, [(5, 3)]⟩]

def forcedRecorded : World :=
  { forcedBatching with
    control := .batched true forcedDraft, lastBatchAt := some 0 }

def forcedConfirmed : World := Serial.run (step payoutSettings)
    (List.replicate 9 (.engine plainInput) ++ [.mine [(⟨0, .depositSettlement 3, 0⟩, true),
        (⟨1, .settleBatch [(50, 3)], 0⟩, true)], .tick false] ++
      List.replicate 3 (.engine plainInput)) forcedRecorded

theorem no_double_pay_forcedBatch : credited forcedConfirmed.chain 50 = 3 ∧ ∃ units,
      toUnits payoutSettings.usdcDecimals (earnedByProvider forcedBatching.ledger 5) = .ok units ∧
      (credited forcedConfirmed.chain 50 : Int) = units := by
  refine ⟨by decide +kernel, ?_⟩
  have reached : Reaches (step payoutSettings) Credits
      (World.Fresh payoutSettings) forcedBatching :=
    earnedWorld_reached.run ⟨trivial, trivial, trivial⟩
  have later : Reaches (step payoutSettings) Credits
      (fun start => start = forcedRecorded) forcedConfirmed := by
    have recorded : Reaches (step payoutSettings) Credits
        (fun start => start = forcedRecorded) forcedRecorded := .start rfl
    refine recorded.run ?_
    simp [AllPermitted, Credits]
  have ids : ∀ row ∈ forcedConfirmed.tables, row.id < forcedDraft.length := by decide +kernel
  have through : CameThrough forcedBatching.tables forcedDraft forcedConfirmed := by
    refine ⟨by decide +kernel, ?_, ?_⟩
    · decide +kernel
    · intro row member outside
      exact absurd (ids row member) (Nat.not_lt.mpr outside)
  exact (no_double_pay payoutSettings).2 forcedBatching reached
    (by decide +kernel) (by decide +kernel) ⟨0, 0, 0⟩ forcedDraft (some 0)
    (by decide +kernel) forcedConfirmed later through ⟨5, 50⟩ (by decide)

/-- Between two ticks, a row that is confirmed or failed is final, whatever the
engine, the chain and the earnings do later. -/
theorem concluded_row_final {settings : EngineSettings} {start world : World}
    {row : ChainSettlement}
    (reached : Reaches (step settings) Credits (World.Fresh settings) start)
    (idle : start.control = .idle) (stored : row ∈ start.tables)
    (concluded : row.status.inFlight = false)
    (later : Reaches (step settings) Credits (fun world => world = start) world) :
    row ∈ world.tables := by
  have kept : Kept row start := ⟨stored, idle ▸ trivial⟩
  exact ((reaches_kept (reaches_safe reached) later).2 row concluded kept).stored

def forcedCrashed : World := Serial.run (step payoutSettings)
  (.tick true :: replicate 11 (.engine plainInput) ++ [.mine [(⟨0, .depositSettlement 3, 0⟩, true)],
    .tick false] ++ replicate 3 (.engine plainInput) ++ [.crash]) earnedWorld

theorem concluded_row_final_forced : ∃ row, row.status.inFlight = false ∧
    row ∈ (step payoutSettings (.tick true) forcedCrashed).tables := by
  have concluded : ∃ row ∈ forcedCrashed.tables, row.status.inFlight = false := by decide +kernel
  obtain ⟨row, stored, concluded⟩ := concluded
  refine ⟨row, concluded, concluded_row_final (earnedWorld_reached.run ?_) ?_ stored concluded
    (.step (.start ?_) _ trivial)⟩
  · simp [AllPermitted, Credits]
  all_goals rfl

end Gridix.Settlement
