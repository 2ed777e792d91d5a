import Gridix.Chain.Recovery

/-!
# Lost broadcasts

The network may hold a transaction of a row in flight whose hash the row does
not have, because the process died between the broadcast and the commit.  If
the chain executes that transaction, no number of ticks concludes the row.
-/

namespace Gridix.Settlement

open List Serial

section

variable {settings : EngineSettings} {choose : World → Input} {world : World}

def Alone (choose : World → Input) (world : World) (action : Action) : Prop :=
  action = .engine (choose world)

def Returns (settings : EngineSettings) (choose : World → Input) (world : World) : Prop :=
  ∃ actions, AllPermitted (step settings) (Alone choose) actions world ∧
    (Serial.run (step settings) actions world).control = .idle

theorem returns_idle (idle : world.control = .idle) : Returns settings choose world :=
  ⟨[], trivial, idle⟩

theorem returns_step (onward : Returns settings choose (engineStep settings (choose world) world)) :
    Returns settings choose world := by
  obtain ⟨actions, permitted, idle⟩ := onward
  exact ⟨.engine (choose world) :: actions, ⟨rfl, permitted⟩, idle⟩

theorem find?_submit {draft : Tables} {id : Uuid} {row : ChainSettlement}
    (found : (draft.find? fun row => row.id = id) = some row) (salt : Nat) :
    ((updateRow draft id fun row => row.submit salt).find? fun row =>
      row.id = id) = some (row.submit salt) := by
  have own := (mem_of_find? found).2
  have same : (fun other : ChainSettlement =>
      decide ((if other.id = id then other.submit salt else other).id =
        id)) = fun other => decide (other.id = id) := by
    funext other
    split_ifs <;> rfl
  unfold updateRow KeyedRows.update
  rw [List.find?_map]
  unfold Function.comp
  rw [same, found]
  simp [own]

theorem returns_recovering {pass : Pass} {latest : Nat}
    (after : ∀ next : World, next.control = (match pass with
        | .first force => .batching force
        | .last => .idle) → Returns settings choose next)
    {todo : List Uuid} {draft : Tables}
    (control : world.control = .recovering pass latest todo draft) :
    Returns settings choose world := by
  induction todo generalizing world draft with
  | nil =>
    apply returns_step
    apply after
    unfold engineStep
    rw [control]
    rfl
  | cons id _ ih =>
    apply returns_step
    unfold engineStep
    rw [control]
    dsimp only [World.recover]
    cases found : draft.find? fun row => row.id = id with
    | none => exact ih rfl
    | some _ =>
      obtain ⟨_, rfl⟩ := mem_of_find? found
      dsimp only
      split_ifs
      · cases (choose world).reply with
        | hash salt =>
          -- The row is visited again for its receipt.
          apply returns_step
          unfold engineStep
          dsimp only [World.broadcast, World.recover]
          rw [find?_submit found salt]
          exact ih rfl
        | chainError => exact ih rfl
        | raised => exact returns_idle rfl
      · exact ih rfl

theorem returns_rebroadcasting (control : world.control = .rebroadcasting) :
    Returns settings choose world := by
  apply returns_step
  unfold engineStep
  rw [control]
  exact @returns_recovering _ _ _ .last _ (fun _ idle => returns_idle idle)
    _ _ rfl

theorem returns_debiting {force : Bool} (control : world.control = .debiting force) :
    Returns settings choose world := by
  apply returns_step
  unfold engineStep
  rw [control]
  dsimp only
  cases maybeDebit settings force world.lastBatchAt (choose world).readings
      world.ledger world.tables with
  | error _ => exact returns_idle rfl
  | ok _ =>
    apply returns_step
    exact returns_rebroadcasting rfl

theorem returns_batching {force : Bool} (control : world.control = .batching force) :
    Returns settings choose world := by
  apply returns_step
  unfold engineStep
  rw [control]
  dsimp only
  cases maybeBatch settings force world.lastBatchAt (choose world).readings
      world.ledger world.tables with
  | error _ => exact returns_idle rfl
  | ok _ =>
    apply returns_step
    exact returns_debiting rfl

theorem tick_returns (idle : world.control = .idle) (force : Bool) :
    Returns settings choose (step settings (.tick force) world) := by
  have begun : (step settings (.tick force) world).control =
      .recovering (.first force) world.chain.height (flightRows world.tables) world.tables := by
    simp [step, idle, World.beginRecovery]
  exact @returns_recovering _ _ _ (.first force) _
    (fun _ batching => returns_batching batching) _ _ begun

end

def ChainState.freshSalt (chain : ChainState) : Nat := (chain.accepted.map Tx.salt).sum + 1

/-- Used nonces are rejected; a rebroadcast is signed anew. -/
def stubborn (world : World) : Input :=
  { readings := ⟨0, 0, 0⟩
    reply := match world.visiting with
      | some row =>
        if world.chain.used row.nonce then .chainError none
        else .hash world.chain.freshSalt
      | none => .hash 0
    found := true }

structure Unseen (tx : Tx) (chain : ChainState) (row : ChainSettlement) : Prop where
  flying : row.status.inFlight = true
  nonce : row.nonce = tx.nonce
  other : row.txHash ≠ some tx
  unexecuted : ∀ entry ∈ chain.mined, row.txHash ≠ some entry.tx

structure Lost (settings : EngineSettings) (tx : Tx) (id : Uuid) (world : World) : Prop where
  safe : Safe settings world
  accepted : tx ∈ world.chain.accepted
  stored : ∃ row ∈ world.tables, row.id = id ∧ Unseen tx world.chain row
  viewed : ∃ row ∈ world.view, row.id = id ∧ Unseen tx world.chain row

section

variable {settings : EngineSettings} {world : World} {tx : Tx} {id : Uuid} {row : ChainSettlement}

theorem stubborn_reply (visiting : world.visiting = some row) :
    (stubborn world).reply = .chainError none ∨
      (stubborn world).reply = .hash world.chain.freshSalt := by
  unfold stubborn
  rw [visiting]
  dsimp only
  split_ifs
  · exact Or.inl rfl
  · exact Or.inr rfl

theorem ChainState.ne_freshSalt {chain : ChainState} {known : Tx}
    (accepted : known ∈ chain.accepted) (row : ChainSettlement) :
    row.tx chain.freshSalt ≠ known := by
  intro same
  have salt : chain.freshSalt = known.salt := congrArg Tx.salt same
  have bound : known.salt ≤ (chain.accepted.map Tx.salt).sum :=
    le_sum_of_mem (mem_map_of_mem accepted)
  unfold ChainState.freshSalt at salt
  omega

theorem Unseen.accept {chain : ChainState} (unseen : Unseen tx chain row) (other : Tx) :
    Unseen tx (chain.accept other) row :=
  ⟨unseen.flying, unseen.nonce, unseen.other, unseen.unexecuted⟩

theorem Unseen.submit (unseen : Unseen tx world.chain row)
    (safe : Safe settings world) (accepted : tx ∈ world.chain.accepted) :
    Unseen tx (world.chain.accept (row.tx world.chain.freshSalt))
      (row.submit world.chain.freshSalt) := by
  refine ⟨rfl, unseen.nonce, ?_, ?_⟩
  · intro same
    exact ChainState.ne_freshSalt accepted row (Option.some.inj same)
  · intro entry mined same
    exact ChainState.ne_freshSalt (safe.executed entry mined) row (Option.some.inj same)

theorem Lost.engineStep (lost : Lost settings tx id world) :
    Lost settings tx id (engineStep settings (stubborn world) world) := by
  have safe : Safe settings (Settlement.engineStep settings (stubborn world) world) :=
    lost.safe.step (.engine (stubborn world)) trivial
  have statement := dataStep_engine lost.safe (stubborn world)
  generalize Settlement.engineStep settings (stubborn world) world = next at statement safe
  obtain ⟨before, accepted, stored, viewed⟩ := lost
  suffices rows : tx ∈ next.chain.accepted ∧
      (∃ row ∈ next.tables, row.id = id ∧ Unseen tx next.chain row) ∧
      ∃ row ∈ next.view, row.id = id ∧ Unseen tx next.chain row from
    ⟨safe, rows.1, rows.2.1, rows.2.2⟩
  cases statement with
  | stay chain tables view =>
    rw [chain, tables, view]
    exact ⟨accepted, stored, viewed⟩
  | commit chain tables view =>
    rw [chain, tables, view]
    exact ⟨accepted, viewed, viewed⟩
  | record _ chain tables recorded =>
    rw [chain, tables]
    obtain ⟨row, mem, facts⟩ := stored
    exact ⟨accepted, ⟨row, mem, facts⟩, row, recorded.extended.subset mem, facts⟩
  | submit visited salt visiting mem _ reply chain tables view =>
    have fresh : salt = world.chain.freshSalt := by
      rcases stubborn_reply visiting with no | same
      · cases no.symm.trans reply
      · exact SendReply.hash.inj (reply.symm.trans same)
    subst fresh
    rw [chain, tables, view]
    refine ⟨mem_cons_of_mem _ accepted, ?_, ?_⟩
    · obtain ⟨row, here, own, unseen⟩ := stored
      exact ⟨row, here, own, unseen.accept _⟩
    · obtain ⟨row, here, own, unseen⟩ := viewed
      by_cases same : row.id = visited.id
      · have identical := before.guarded.view.eq_of_id here mem same
        subst identical
        exact ⟨_, KeyedRows.mem_update_self here, own, unseen.submit before accepted⟩
      · exact ⟨row, KeyedRows.mem_update_of_ne here same, own, unseen.accept _⟩
  | forget _ _ visiting _ reply | giveUp _ visiting _ reply =>
    rcases stubborn_reply visiting with same | same <;> simp [same] at reply
  | conclude visited _ entry mem receipt chain tables view =>
    rw [chain, tables, view]
    refine ⟨accepted, stored, ?_⟩
    obtain ⟨row, here, own, unseen⟩ := viewed
    by_cases same : row.id = visited.id
    · have identical := before.guarded.view.eq_of_id here mem same
      subst identical
      obtain ⟨mined, hashed, _⟩ := finalReceipt_ok receipt
      exact (unseen.unexecuted entry mined hashed).elim
    · exact ⟨row, KeyedRows.mem_update_of_ne here same, own, unseen⟩

theorem Lost.run {actions : List Action} (lost : Lost settings tx id world)
    (permitted : AllPermitted (step settings) (Alone stubborn) actions world) :
    Lost settings tx id (Serial.run (step settings) actions world) := by
  induction actions generalizing world with
  | nil => exact lost
  | cons _ _ ih =>
    obtain ⟨rfl, onward⟩ := permitted
    exact ih lost.engineStep onward

theorem Lost.tick (lost : Lost settings tx id world) (idle : world.control = .idle) (force : Bool) :
    Lost settings tx id (step settings (.tick force) world) := by
  have begun : step settings (.tick force) world = world.beginRecovery (.first force) := by
    simp [step, idle]
  rw [begun]
  exact ⟨lost.safe.guarded.beginRecovery _ |>.safe rfl lost.safe.earned, lost.accepted,
    lost.stored, lost.stored⟩

theorem exists_complete (chain : ChainState) (accepted : tx ∈ chain.accepted) :
    ∃ included, Complete chain included ∧
      ∀ choice ∈ included, choice.1.nonce = tx.nonce → choice.1 = tx := by
  let pool := chain.accepted.filter fun other =>
    chain.used other.nonce = false ∧ (other.nonce = tx.nonce → other = tx)
  -- one transaction of the pool for each of its nonces
  let chosen := pool.pwFilter fun left right => left.nonce ≠ right.nonce
  have pooled : ∀ other ∈ chosen, other ∈ chain.accepted ∧ chain.used other.nonce = false ∧
      (other.nonce = tx.nonce → other = tx) := by
    intro _ mem
    simpa [pool, imp_iff_not_or] using pwFilter_subset _ mem
  have represented : ∀ other ∈ pool, ∃ choice ∈ chosen, choice.nonce = other.nonce := by
    intro other mem
    by_contra none
    have apart : ∀ choice ∈ chosen, other.nonce ≠ choice.nonce :=
      fun choice here same => none ⟨choice, here, same.symm⟩
    have every := @forall_mem_pwFilter Tx (fun left right => left.nonce ≠ right.nonce) _
      (fun ne => (ne.ne_or_ne _).imp_right Ne.symm) other pool
    exact every.mp apart other mem rfl
  refine ⟨chosen.map (·, true), ⟨?_, ?_, ?_, ?_⟩, ?_⟩
  · exact forall_mem_map.mpr fun other mem => (pooled other mem).1
  · exact forall_mem_map.mpr fun other mem => (pooled other mem).2.1
  · rw [map_map, Nodup, pairwise_map]
    exact pairwise_pwFilter pool
  · intro other known free
    have listed : ∃ member ∈ pool, member.nonce = other.nonce := by
      by_cases same : other.nonce = tx.nonce
      · exact ⟨tx, by simp [pool, accepted, ← same, free], same.symm⟩
      · exact ⟨other, by simp [pool, known, free, same], rfl⟩
    obtain ⟨member, mem, nonce⟩ := listed
    obtain ⟨_, here, same⟩ := represented member mem
    exact ⟨_, mem_map_of_mem here, same.trans nonce⟩
  · exact forall_mem_map.mpr fun other mem => (pooled other mem).2.2

theorem Lost.mine (lost : Lost settings tx id world) {included : List (Tx × Bool)}
    (complete : Complete world.chain included)
    (prefers : ∀ choice ∈ included, choice.1.nonce = tx.nonce → choice.1 = tx) :
    Lost settings tx id (step settings (.mine included) world) := by
  have mined := (complete.mine settings.confirmations).2
  have moves : ∀ row, RowSound settings.providers world.chain row → Unseen tx world.chain row →
      Unseen tx (world.chain.mine settings.confirmations included) row := by
    intro _ sound unseen
    refine ⟨unseen.flying, unseen.nonce, unseen.other, ?_⟩
    rw [mined]
    intro entry mem hashed
    rcases mem_append.mp mem with old | new
    · exact unseen.unexecuted entry old hashed
    · obtain ⟨choice, chosen, rfl⟩ := mem_map.mp new
      have nonce := ((sound.hash choice.1 hashed).1).trans unseen.nonce
      exact unseen.other (hashed.trans (congrArg some (prefers choice chosen nonce)))
  refine ⟨lost.safe.step (.mine included) trivial, ?_, ?_, ?_⟩
  · exact (mine_grows _ _ _).1.symm ▸ lost.accepted
  · obtain ⟨row, mem, own, unseen⟩ := lost.stored
    exact ⟨row, mem, own, moves row (lost.safe.sound.rows row mem) unseen⟩
  · obtain ⟨row, mem, own, unseen⟩ := lost.viewed
    exact ⟨row, mem, own, moves row (lost.safe.guarded.view.rows row mem) unseen⟩

theorem Lost.exists_round (lost : Lost settings tx id world) (idle : world.control = .idle) :
    ∃ finish, Round settings world finish ∧ Lost settings tx id finish ∧
      finish.control = .idle := by
  obtain ⟨actions, permitted, returned⟩ := @tick_returns settings stubborn world idle false
  have after := (lost.tick idle false).run permitted
  obtain ⟨included, complete, prefers⟩ := exists_complete _ after.accepted
  refine ⟨_, .intro _ _ _ _ ?_ rfl returned complete, after.mine complete prefers, returned⟩
  refine permitted.mono ?_
  rintro _ _ rfl
  refine ⟨rfl, ?_⟩
  intro _ visiting _
  unfold stubborn
  rw [visiting]
  dsimp only
  split_ifs with used
  · exact used
  · trivial

theorem Lost.exists_rounds (lost : Lost settings tx id world)
    (idle : world.control = .idle) (count : Nat) :
    ∃ finish, Rounds settings count world finish ∧ Lost settings tx id finish := by
  induction count generalizing world with
  | zero => exact ⟨world, rfl, lost⟩
  | succ _ ih =>
    obtain ⟨middle, round, middleLost, middleIdle⟩ := lost.exists_round idle
    obtain ⟨finish, rounds, finishLost⟩ := ih middleLost middleIdle
    exact ⟨finish, ⟨middle, round, rounds⟩, finishLost⟩

theorem Lost.not_concluded (lost : Lost settings tx id world) : ¬ Concluded id world := by
  rintro ⟨_, mem, own, landed⟩
  obtain ⟨_, otherMember, otherOwn, unseen⟩ := lost.stored
  have same := lost.safe.sound.eq_of_id mem otherMember (own.trans otherOwn.symm)
  rw [same, unseen.flying] at landed
  cases landed

end

theorem lost_of_not_traceable {settings : EngineSettings} {world : World}
    (safe : Safe settings world) (idle : world.control = .idle) {row : ChainSettlement}
    (mem : row ∈ world.tables) (flying : row.status.inFlight = true)
    (untraceable : ¬ row.Traceable world.chain) :
    ∃ tx, Lost settings tx row.id world := by
  have view : world.view = world.tables := by simp only [World.view, idle]
  unfold ChainSettlement.Traceable at untraceable
  push Not at untraceable
  obtain ⟨unexecuted, tx, accepted, nonce, other⟩ := untraceable
  have unseen : Unseen tx world.chain row := ⟨flying, nonce.symm, other, unexecuted⟩
  refine ⟨tx, safe, accepted, ⟨row, mem, rfl, unseen⟩, ?_⟩
  rw [view]
  exact ⟨row, mem, rfl, unseen⟩

theorem confirmed_or_failed_iff {row : ChainSettlement} :
    row.status = .confirmed ∨ row.status = .failed ↔ row.status.inFlight = false := by
  cases status : row.status with
  | pending | submitted => simp [TxStatus.inFlight]
  | confirmed | failed => simp [TxStatus.inFlight]

/-- After a crash anywhere in a tick, crash-free ticks conclude every row in
flight exactly when each of them is traceable. -/
theorem recovery_completes_iff (settings : EngineSettings) {world : World}
    (reached : Reaches (step settings) Credits (World.Fresh settings) world) {count : Nat}
    (enough : settings.confirmations + 2 ≤ count) :
    (∀ finish, Rounds settings count (step settings .crash world) finish →
      ∀ row ∈ world.tables, row.status.inFlight = true →
        ∃ later ∈ finish.tables, later.id = row.id ∧
          (later.status = .confirmed ∨ later.status = .failed)) ↔
    ∀ row ∈ world.tables, row.status.inFlight = true → row.Traceable world.chain := by
  have crashed := reached.step Action.crash trivial
  have safe := reaches_safe crashed
  constructor
  · intro completes row member flying
    by_contra untraceable
    obtain ⟨_, lost⟩ := lost_of_not_traceable safe rfl member flying untraceable
    obtain ⟨finish, rounds, stillLost⟩ := lost.exists_rounds rfl count
    obtain ⟨later, present, own, status⟩ := completes finish rounds row member flying
    exact stillLost.not_concluded ⟨later, present, own, confirmed_or_failed_iff.mp status⟩
  · intro traceable _ rounds row member _
    have recoverable : Recoverable settings (step settings .crash world) :=
      ⟨safe, reaches_sent crashed, traceable⟩
    obtain ⟨later, present, own, landed⟩ :=
      recoverable.recovers rfl enough rounds ⟨row, member, rfl⟩
    exact ⟨later, present, own, confirmed_or_failed_iff.mpr landed⟩

def fundedInput : Input := { plainInput with readings := ⟨0, 0, 10⟩ }

def batchTx : Tx := ⟨0, .settleBatch [(50, 3)], 0⟩

def batchRecorded : World := Serial.run (step payoutSettings)
    (.tick true :: List.replicate 6 (.engine fundedInput)) earnedWorld

def answeredRound (included : List (Tx × Bool)) (world : World) : World :=
  step payoutSettings (.mine included) (Serial.run (step payoutSettings)
      (List.replicate 12 (.engine fundedInput))
      (step payoutSettings (.tick false) world))

theorem batchRecorded_reached :
    Reaches (step payoutSettings) Credits (World.Fresh payoutSettings) batchRecorded := by
  refine earnedWorld_reached.run ?_
  simp [AllPermitted, Credits]

theorem fundedInput_crashFree (count : Nat) (world : World) :
    AllPermitted (step payoutSettings) CrashFree
      (List.replicate count (.engine fundedInput)) world := by
  induction count generalizing world with
  | zero => trivial
  | succ _ ih => exact ⟨⟨rfl, fun _ _ _ => trivial⟩, ih _⟩

theorem recovery_completes_iff_beforeBroadcast : ∃ finish, Rounds payoutSettings 3
        (step payoutSettings .crash batchRecorded) finish ∧
      ∃ later ∈ finish.tables, later.id = 0 ∧
        (later.status = .confirmed ∨ later.status = .failed) := by
  have rounds : Rounds payoutSettings 3 (step payoutSettings .crash batchRecorded)
      (answeredRound [] (answeredRound [] (answeredRound [(batchTx, true)]
        (step payoutSettings .crash batchRecorded)))) := by
    refine ⟨_, .intro _ _ _ [(_, _)] (fundedInput_crashFree 12 _) rfl (by decide +kernel) ?_, _,
      .intro _ _ _ [] (fundedInput_crashFree 12 _) rfl (by decide +kernel) ?_, _,
      .intro _ _ _ [] (fundedInput_crashFree 12 _) rfl (by decide +kernel) ?_, rfl⟩
    · exact ⟨by decide +kernel, by decide +kernel, by decide +kernel,
        by decide +kernel⟩
    · exact ⟨by decide +kernel, by decide +kernel, by decide +kernel,
        by decide +kernel⟩
    · exact ⟨by decide +kernel, by decide +kernel, by decide +kernel,
        by decide +kernel⟩
  have unsent : batchRecorded.chain.accepted = [] := by decide +kernel
  refine ⟨_, rounds, ?_⟩
  refine (@recovery_completes_iff payoutSettings _ batchRecorded_reached 3
    (by decide)).mpr ?_ _ rounds
    ⟨0, .settleBatch [(50, 3)], .pending, .settle 0, 0, none, [(5, 3)]⟩
    (by decide +kernel) rfl
  intro _ _ _
  refine Or.inr ?_
  rw [unsent]
  simp

/-- The network has accepted the batch and executed it, and the row is not
committed. -/
def batchUncommitted : World := Serial.run (step payoutSettings)
    [.engine fundedInput, .mine [(batchTx, true)]] batchRecorded

theorem lost_batch_never_concluded : Reaches (step payoutSettings) Credits
        (World.Fresh payoutSettings) batchUncommitted ∧
      credited batchUncommitted.chain 50 = 3 ∧
      (batchUncommitted.tables.map ChainSettlement.status) = [.pending] ∧
      ∀ count, ∃ finish, Rounds payoutSettings count
          (step payoutSettings .crash batchUncommitted) finish ∧
        ∃ row ∈ finish.tables, row.id = 0 ∧ row.status.inFlight = true := by
  have reached : Reaches (step payoutSettings) Credits
      (World.Fresh payoutSettings) batchUncommitted :=
    batchRecorded_reached.run ⟨trivial, trivial, trivial⟩
  refine ⟨reached, by decide +kernel, by decide +kernel, ?_⟩
  intro count
  have unseen : Unseen batchTx batchUncommitted.chain
      ⟨0, .settleBatch [(50, 3)], .pending, .settle 0, 0, none, [(5, 3)]⟩ :=
    ⟨rfl, rfl, nofun, fun _ _ => nofun⟩
  have stored : ∃ row ∈ batchUncommitted.tables, row.id = 0 ∧
      Unseen batchTx batchUncommitted.chain row :=
    ⟨_, by decide +kernel, rfl, unseen⟩
  have lost : Lost payoutSettings batchTx 0 (step payoutSettings .crash batchUncommitted) :=
    ⟨reaches_safe (reached.step Action.crash trivial), by decide +kernel,
      stored, stored⟩
  obtain ⟨finish, rounds, stillLost⟩ := lost.exists_rounds rfl count
  obtain ⟨row, member, own, facts⟩ := stillLost.stored
  exact ⟨finish, rounds, row, member, own, facts.flying⟩

end Gridix.Settlement
