import Gridix.Chain.Statements

/-!
# Recovery after a crash

A row in flight is concluded by the receipt of the hash it has committed.  If
the network accepted a transaction at the row's nonce whose hash was lost, the
chain may execute that one, and the row is never concluded: a rebroadcast at a
used nonce is rejected or ignored.
-/

namespace Gridix.Settlement

open List Serial

def ChainState.used (chain : ChainState) (nonce : Nat) : Bool :=
  chain.mined.any fun entry => entry.tx.nonce = nonce

/-- The chain takes a transaction of an unused nonce and answers with its
hash.  One of a used nonce it rejects, or ignores although it answers. -/
def Cooperates (chain : ChainState) (nonce : Nat) : SendReply → Prop
  | .hash _ => True
  | .chainError none | .raised none => chain.used nonce = true
  | .chainError (some _) | .raised (some _) => False

/-- Nothing crashes, the client answers and blocks are not replaced. -/
def CrashFree (world : World) : Action → Prop
  | .engine input => input.found = true ∧ ∀ row, world.visiting = some row →
      needsBroadcast row = true → Cooperates world.chain row.nonce input.reply
  | .mine _ => True
  | .post rows => ∀ provider, 0 ≤ earnedByProvider rows provider
  | .tick _ | .abort | .crash | .reorg _ _ => False

structure Complete (chain : ChainState) (included : List (Tx × Bool)) : Prop where
  accepted : ∀ choice ∈ included, choice.1 ∈ chain.accepted
  unused : ∀ choice ∈ included, chain.used choice.1.nonce = false
  distinct : (included.map fun choice => choice.1.nonce).Nodup
  covers : ∀ tx ∈ chain.accepted, chain.used tx.nonce = false →
    ∃ choice ∈ included, choice.1.nonce = tx.nonce

inductive Round (settings : EngineSettings) (start : World) : World → Prop where
  | intro (force : Bool) (actions : List Action) (finish : World) (included : List (Tx × Bool))
      (permitted : AllPermitted (step settings) CrashFree actions
        (step settings (.tick force) start))
      (ran : Serial.run (step settings) actions (step settings (.tick force) start) = finish)
      (returned : finish.control = .idle)
      (complete : Complete finish.chain included) :
      Round settings start (step settings (.mine included) finish)

def Rounds (settings : EngineSettings) : Nat → World → World → Prop
  | 0, start, finish => finish = start
  | count + 1, start, finish => ∃ middle,
      Round settings start middle ∧ Rounds settings count middle finish

/-- The chain has executed the transaction whose hash the row has, or it has
accepted no other transaction at the row's nonce. -/
def ChainSettlement.Traceable (chain : ChainState) (row : ChainSettlement) : Prop :=
  (∃ entry ∈ chain.mined, row.txHash = some entry.tx) ∨
    ∀ tx ∈ chain.accepted, tx.nonce = row.nonce → row.txHash = some tx

def Tracked (world : World) : Prop := ∀ row ∈ world.view, row.status.inFlight = true →
    row.Traceable world.chain

section

variable {settings : EngineSettings} {world : World} {row : ChainSettlement} {chain : ChainState}
  {input : Input}

theorem ChainState.used_iff {nonce : Nat} : chain.used nonce = true ↔
      ∃ entry ∈ chain.mined, entry.tx.nonce = nonce := by
  unfold ChainState.used
  simp

theorem Tracked.unsent (tracked : Tracked world) (mem : row ∈ world.view)
    (flying : row.status.inFlight = true) (unsent : row.txHash = none) :
    ∀ tx ∈ world.chain.accepted, tx.nonce ≠ row.nonce := by
  intro tx accepted same
  rcases tracked row mem flying with ⟨_, _, hashed⟩ | every
  · rw [unsent] at hashed
    cases hashed
  · have hashed := every tx accepted same
    rw [unsent] at hashed
    cases hashed

theorem Tracked.reply (safe : Safe settings world) (sent : Sent world) (tracked : Tracked world)
    (crashFree : CrashFree world (.engine input)) (visiting : world.visiting = some row)
    (needs : needsBroadcast row = true) :
    ∃ salt, input.reply = .hash salt := by
  have member : row ∈ world.view := by
    obtain ⟨_, _, _, control, _⟩ := world
    cases control with
    | recovering _ _ todo =>
      cases todo with
      | nil => cases visiting
      | cons => exact (mem_of_find? visiting).1
    | idle | batching | batched | debiting | debited | rebroadcasting => cases visiting
  have unsent := (sent.viewed row member).txHash_of_needsBroadcast needs
  have flying := (safe.guarded.view.rows row member).inFlight_of_needsBroadcast needs
  have unused : world.chain.used row.nonce ≠ true := by
    intro used
    obtain ⟨entry, mined, nonce⟩ := ChainState.used_iff.mp used
    exact tracked.unsent member flying unsent entry.tx (safe.executed entry mined) nonce
  have cooperates := crashFree.2 row visiting needs
  cases reply : input.reply with
  | hash salt => exact ⟨salt, rfl⟩
  | chainError reached | raised reached =>
    rw [reply] at cooperates
    cases reached with
    | none => exact (unused cooperates).elim
    | some => exact cooperates.elim

theorem Tracked.engineStep (safe : Safe settings world) (sent : Sent world)
    (tracked : Tracked world) (crashFree : CrashFree world (.engine input)) :
    Tracked (engineStep settings input world) := by
  have statement := dataStep_engine safe input
  cases statement with
  | stay chain _ view | commit chain _ view =>
    unfold Tracked
    rw [chain, view]
    exact tracked
  | record before chain _ recorded =>
    unfold Tracked
    rw [chain]
    intro row mem flying
    rcases recorded.pending row mem with old | ⟨_, unsent⟩
    · rw [← before] at old
      exact tracked row old flying
    · refine Or.inr ?_
      intro tx accepted same
      -- The nonce of an accepted transaction is that of an old row.
      obtain ⟨_, stored, nonce, _⟩ := safe.traced tx accepted
      have identical := inj_on_of_nodup_map recorded.sound.nonces
        (recorded.extended.subset stored) mem (nonce.trans same)
      subst identical
      rw [← before] at stored
      exact (tracked.unsent stored flying unsent tx accepted same).elim
  | submit row _ _ mem needs _ chain _ view =>
    unfold Tracked
    rw [chain, view]
    intro other updated flying
    have unsent := (sent.viewed row mem).txHash_of_needsBroadcast needs
    have rowFlying := (safe.guarded.view.rows row mem).inFlight_of_needsBroadcast needs
    rcases mem_updateRow updated with ⟨old, ne⟩ | ⟨_, oldMember, own, rfl⟩
    · rcases tracked other old flying with executed | every
      · exact Or.inl executed
      · refine Or.inr ?_
        intro tx accepted same
        rcases mem_cons.mp accepted with rfl | earlier
        · have identical := inj_on_of_nodup_map safe.guarded.view.nonces mem old same
          rw [identical] at ne
          exact (ne rfl).elim
        · exact every tx earlier same
    · have identical := safe.guarded.view.eq_of_id oldMember mem own
      subst identical
      refine Or.inr ?_
      intro tx accepted same
      rcases mem_cons.mp accepted with rfl | earlier
      · rfl
      · exact (tracked.unsent mem rowFlying unsent tx earlier same).elim
  | forget _ _ visiting needs reply | giveUp _ visiting needs reply =>
    obtain ⟨_, hashed⟩ := tracked.reply safe sent crashFree visiting needs
    simp [hashed] at reply
  | conclude _ _ _ _ _ chain _ view =>
    unfold Tracked
    rw [chain, view]
    intro other updated flying
    rcases mem_updateRow updated with ⟨old, _⟩ | ⟨_, _, _, rfl⟩
    · exact tracked other old flying
    · rw [conclude_inFlight] at flying
      cases flying

theorem mine_grows (confirmations : Nat) (chain : ChainState) (included : List (Tx × Bool)) :
    let next := chain.mine confirmations included
    next.accepted = chain.accepted ∧ chain.mined ⊆ next.mined ∧ chain.height ≤ next.height := by
  unfold ChainState.mine
  dsimp only
  split_ifs
  · exact ⟨rfl, subset_append_left _ _, Nat.le_succ _⟩
  · exact ⟨rfl, List.Subset.refl _, Nat.le_refl _⟩

theorem ChainSettlement.Traceable.mine
    (traceable : row.Traceable chain) (confirmations : Nat) (included : List (Tx × Bool)) :
    row.Traceable (chain.mine confirmations included) := by
  obtain ⟨accepted, grown, _⟩ := mine_grows confirmations chain included
  unfold ChainSettlement.Traceable
  rw [accepted]
  exact traceable.imp_left fun ⟨entry, mined, hashed⟩ => ⟨entry, grown mined, hashed⟩

structure Recoverable (settings : EngineSettings) (world : World) : Prop where
  safe : Safe settings world
  sent : Sent world
  tracked : Tracked world

theorem Recoverable.tick (recoverable : Recoverable settings world)
    (idle : world.control = .idle) (force : Bool) :
    Recoverable settings (step settings (.tick force) world) := by
  refine ⟨recoverable.safe.step (.tick force) trivial,
    recoverable.sent.step recoverable.safe (.tick force), ?_⟩
  have tracked := recoverable.tracked
  unfold Tracked World.view at tracked ⊢
  simpa [step, idle, World.beginRecovery] using tracked

theorem Recoverable.mine (recoverable : Recoverable settings world) (included : List (Tx × Bool)) :
    Recoverable settings (step settings (.mine included) world) := by
  refine ⟨recoverable.safe.step (.mine included) trivial,
    recoverable.sent.step recoverable.safe (.mine included), ?_⟩
  intro row mem flying
  exact (recoverable.tracked row mem flying).mine _ included

theorem CrashFree.credits {action : Action}
    (crashFree : CrashFree world action) : Credits world action := by
  cases action with
  | engine | mine => trivial
  | post => exact crashFree
  | tick | abort | crash | reorg => exact crashFree.elim

theorem Recoverable.step (recoverable : Recoverable settings world)
    {action : Action} (crashFree : CrashFree world action) :
    Recoverable settings (step settings action world) := by
  cases action with
  | engine input =>
    exact ⟨recoverable.safe.step (.engine input) trivial,
      recoverable.sent.step recoverable.safe (.engine input),
      recoverable.tracked.engineStep recoverable.safe recoverable.sent crashFree⟩
  | mine included => exact recoverable.mine included
  | post rows =>
    exact ⟨recoverable.safe.step (.post rows) crashFree,
      recoverable.sent.step recoverable.safe (.post rows),
      recoverable.tracked⟩
  | tick | abort | crash | reorg => exact crashFree.elim

end

section

variable (settings : EngineSettings) (start : World)
  (origin : ChainSettlement)

def KeepsHash (row : ChainSettlement) : Prop := ∀ tx, origin.txHash = some tx → row.txHash = some tx

structure Handled (row : ChainSettlement) : Prop where
  sent : row.status ≠ .pending
  keeps : KeepsHash origin row
  concluded : ∀ entry ∈ start.chain.mined, row.txHash = some entry.tx →
    settings.confirmations + entry.block ≤ start.chain.height + 1 → row.status.inFlight = false

def HandledIn (tables : Tables) : Prop :=
  ∃ row ∈ tables, row.id = origin.id ∧ Handled settings start origin row

def Due (todo : List Uuid) (row : ChainSettlement) : Prop :=
  row.id ∈ todo ∧ KeepsHash origin row ∨ Handled settings start origin row

def Listed (todo : List Uuid) (draft : Tables) : Prop := ∃ row ∈ draft, row.id = origin.id ∧
    (row.id ∈ todo ∧ KeepsHash origin row ∨ Handled settings start origin row)

def Visited (world : World) : Prop :=
  match world.control with
  | .recovering (.first _) latest todo draft =>
    latest = start.chain.height ∧ Listed settings start origin todo draft
  | .recovering .last _ _ draft | .batched _ draft | .debited draft =>
    HandledIn settings start origin world.tables ∧ HandledIn settings start origin draft
  | .idle | .batching _ | .debiting _ | .rebroadcasting =>
    HandledIn settings start origin world.tables

end

section

variable {settings : EngineSettings} {start world : World}
  {origin row : ChainSettlement} {latest : Nat} {draft : Tables} {todo : List Uuid}
  {actions : List Action} {included : List (Tx × Bool)} {finish : World} {chain : ChainState}
  {input : Input}

theorem finalReceipt_of_mined {entry : Mined} (mined : entry ∈ chain.mined)
    (hashed : row.txHash = some entry.tx)
    (deep : settings.confirmations + entry.block ≤ latest + 1) :
    finalReceipt settings chain latest true row = some entry := by
  have receipt : chain.getReceipt entry.tx = some entry := by
    unfold ChainState.getReceipt
    cases looked : chain.mined.find? fun other =>
        decide (other.tx = entry.tx) with
    | none =>
      have absent := List.find?_eq_none.mp looked entry mined
      simp at absent
    | some other =>
      have same : other.tx = entry.tx := by simpa using List.find?_some looked
      rw [chain.entry_unique (mem_of_find?_eq_some looked) mined (congrArg Tx.nonce same)]
  unfold finalReceipt
  rw [hashed]
  simp [receipt, deep]

theorem Handled.not_needsBroadcast (handled : Handled settings start origin row)
    (sent : RowSent chain row) : needsBroadcast row ≠ true := by
  intro needs
  exact handled.sent (sent.unsent.mpr (sent.txHash_of_needsBroadcast needs))

theorem Handled.conclude (handled : Handled settings start origin row) (entry : Mined) :
    Handled settings start origin (row.conclude entry) := by
  refine ⟨conclude_ne_pending row entry, ?_, ?_⟩
  · intro tx known
    rw [conclude_txHash]
    exact handled.keeps tx known
  · intro _ _ _ _
    exact conclude_inFlight row entry

theorem handled_check {chain : ChainState} (grown : start.chain.mined ⊆ chain.mined)
    (keeps : KeepsHash origin row) (sent : needsBroadcast row ≠ true) :
    match finalReceipt settings chain start.chain.height true row with
    | none => Handled settings start origin row
    | some entry => Handled settings start origin (row.conclude entry) := by
  have broadcast : row.status ≠ .pending := by
    intro pending
    apply sent
    simp [needsBroadcast, pending]
  cases receipt : finalReceipt settings chain start.chain.height true row with
  | none =>
    refine ⟨broadcast, keeps, ?_⟩
    intro _ mined hashed deep
    rw [finalReceipt_of_mined (grown mined) hashed deep] at receipt
    cases receipt
  | some entry =>
    refine ⟨conclude_ne_pending row entry, ?_, ?_⟩
    · intro tx known
      rw [conclude_txHash]
      exact keeps tx known
    · intro _ _ _ _
      exact conclude_inFlight row entry

section

variable {draft : Tables} {visited : ChainSettlement} {chain : ChainState} {rest : List Uuid}

theorem handledIn_iff :
    HandledIn settings start origin draft ↔ Listed settings start origin [] draft := by
  simp [HandledIn, Listed]

theorem Listed.update {change : ChainSettlement → ChainSettlement} {id : Uuid}
    (listed : Listed settings start origin todo draft)
    (here : ∀ row ∈ draft, row.id = id → Due settings start origin todo row →
      (change row).id = row.id ∧ Due settings start origin rest (change row))
    (elsewhere : ∀ other ∈ todo, other ≠ id → other ∈ rest) :
    Listed settings start origin rest (updateRow draft id change) := by
  obtain ⟨row, mem, own, due⟩ := listed
  by_cases same : row.id = id
  · obtain ⟨kept, moved⟩ := here row mem same due
    exact ⟨change row, same ▸ KeyedRows.mem_update_self mem, kept.trans own, moved⟩
  · exact ⟨row, KeyedRows.mem_update_of_ne mem same, own,
      due.imp_left fun onList => ⟨elsewhere _ onList.1 same, onList.2⟩⟩

theorem Listed.submit (listed : Listed settings start origin todo draft)
    (sent : ∀ row ∈ draft, RowSent chain row)
    (unique : ∀ row ∈ draft, row.id = visited.id → row = visited)
    (needs : needsBroadcast visited = true) (salt : Nat) :
    Listed settings start origin todo (updateRow draft visited.id fun row => row.submit salt) := by
  refine listed.update (fun row mem same due => ⟨rfl, ?_⟩) fun _ onList _ => onList
  have identical := unique row mem same
  subst identical
  rcases due with ⟨onList, keeps⟩ | handled
  · -- It had no hash to keep.
    refine .inl ⟨onList, fun tx known => ?_⟩
    have hashed := keeps tx known
    rw [(sent row mem).txHash_of_needsBroadcast needs] at hashed
    cases hashed
  · exact (handled.not_needsBroadcast (sent row mem) needs).elim

theorem HandledIn.conclude (handled : HandledIn settings start origin draft) (id : Uuid)
    (entry : Mined) :
    HandledIn settings start origin (updateRow draft id fun row => row.conclude entry) := by
  rw [handledIn_iff] at handled ⊢
  refine handled.update (fun row _ _ due => ⟨conclude_id row entry, ?_⟩) fun _ onList _ => onList
  exact due.imp (fun onList => absurd onList.1 not_mem_nil) (·.conclude entry)

theorem Listed.check (listed : Listed settings start origin (visited.id :: rest) draft)
    (grown : start.chain.mined ⊆ chain.mined)
    (unique : ∀ row ∈ draft, row.id = visited.id → row = visited)
    (sent : needsBroadcast visited ≠ true) :
    Listed settings start origin rest
      (match finalReceipt settings chain start.chain.height true visited with
      | none => draft
      | some entry => updateRow draft visited.id fun row => row.conclude entry) := by
  have later : ∀ other ∈ visited.id :: rest, other ≠ visited.id → other ∈ rest :=
    fun other onList ne => (mem_cons.mp onList).resolve_left ne
  cases receipt : finalReceipt settings chain start.chain.height true visited with
  | none =>
    obtain ⟨row, mem, own, due⟩ := listed
    refine ⟨row, mem, own, ?_⟩
    by_cases same : row.id = visited.id
    · have identical := unique row mem same
      subst identical
      have handled := fun keeps => @handled_check settings start origin row chain grown keeps sent
      rw [receipt] at handled
      exact .inr (due.elim (fun onList => handled onList.2) id)
    · exact due.imp_left fun onList => ⟨later _ onList.1 same, onList.2⟩
  | some entry =>
    refine listed.update (fun row mem same due => ⟨conclude_id row entry, .inr ?_⟩) later
    have identical := unique row mem same
    subst identical
    have handled := fun keeps => @handled_check settings start origin row chain grown keeps sent
    rw [receipt] at handled
    exact due.elim (fun onList => handled onList.2) (·.conclude entry)

end

theorem Recoverable.visits (recoverable : Recoverable settings world)
    {pass : Pass} {id : Uuid} {rest : List Uuid} {visited : ChainSettlement}
    (control : world.control = .recovering pass latest (id :: rest) draft)
    (found : draft.find? (fun row => row.id = id) = some visited) :
    world.visiting = some visited ∧ (∀ row ∈ draft, RowSent world.chain row) ∧
      ∀ row ∈ draft, row.id = visited.id → row = visited := by
  have view : world.view = draft := by simp only [World.view, control]
  refine ⟨?_, ?_, ?_⟩
  · simpa only [World.visiting, control] using found
  · rw [← view]
    exact recoverable.sent.viewed
  · have member := (mem_of_find? found).1
    rw [← view] at member ⊢
    intro _ here same
    exact recoverable.safe.guarded.view.eq_of_id here member same

theorem Visited.first (recoverable : Recoverable settings world)
    (grown : start.chain.mined ⊆ world.chain.mined) {force : Bool}
    (control : world.control = .recovering (.first force) start.chain.height todo draft)
    (listed : Listed settings start origin todo draft)
    (crashFree : CrashFree world (.engine input)) :
    Visited settings start origin
      (world.recover settings (.first force) start.chain.height draft input todo) := by
  cases todo with
  | nil =>
    obtain ⟨row, mem, own, ⟨onList, _⟩ | facts⟩ := listed
    · cases onList
    · exact ⟨row, mem, own, facts⟩
  | cons id _ =>
    simp only [World.recover]
    cases found : draft.find? fun row => row.id = id with
    | none =>
      obtain ⟨row, mem, own, due⟩ := listed
      have ne : row.id ≠ id := by simpa using List.find?_eq_none.mp found row mem
      exact ⟨rfl, row, mem, own,
        due.imp_left fun onList => ⟨(mem_cons.mp onList.1).resolve_left ne, onList.2⟩⟩
    | some =>
      obtain ⟨visiting, sent, unique⟩ := recoverable.visits control found
      obtain ⟨_, rfl⟩ := mem_of_find? found
      dsimp only
      split_ifs with needs
      · obtain ⟨salt, reply⟩ := recoverable.tracked.reply
          recoverable.safe recoverable.sent crashFree visiting needs
        rw [reply]
        exact ⟨rfl, listed.submit sent unique needs salt⟩
      · rw [crashFree.1]
        exact ⟨rfl, listed.check grown unique needs⟩

theorem Visited.last (recoverable : Recoverable settings world)
    (control : world.control = .recovering .last latest todo draft)
    (stored : HandledIn settings start origin world.tables)
    (viewed : HandledIn settings start origin draft)
    (crashFree : CrashFree world (.engine input)) :
    Visited settings start origin (world.recover settings .last latest draft input todo) := by
  cases todo with
  | nil => exact viewed
  | cons id =>
    simp only [World.recover]
    cases found : draft.find? fun row => row.id = id with
    | none => exact ⟨stored, viewed⟩
    | some visited =>
      obtain ⟨visiting, sent, unique⟩ := recoverable.visits control found
      dsimp only
      split_ifs with needs
      · obtain ⟨salt, reply⟩ := recoverable.tracked.reply
          recoverable.safe recoverable.sent crashFree visiting needs
        rw [reply]
        rw [handledIn_iff] at viewed
        exact ⟨stored, handledIn_iff.mpr (viewed.submit sent unique needs salt)⟩
      · unfold World.check
        cases finalReceipt settings world.chain latest input.found visited with
        | none => exact ⟨stored, viewed⟩
        | some entry => exact ⟨stored, viewed.conclude visited.id entry⟩

theorem Visited.engineStep (recoverable : Recoverable settings world)
    (grown : start.chain.mined ⊆ world.chain.mined) (visited : Visited settings start origin world)
    (crashFree : CrashFree world (.engine input)) :
    Visited settings start origin (engineStep settings input world) := by
  have extend {tables draft : Tables} (handled : HandledIn settings start origin tables)
      (extended : tables <+: draft) : HandledIn settings start origin draft := by
    obtain ⟨row, mem, facts⟩ := handled
    exact ⟨row, extended.subset mem, facts⟩
  have safe := recoverable.safe
  obtain ⟨_, tables, ledger, control, lastBatchAt⟩ := world
  cases control with
  | idle => exact visited
  | recovering pass =>
    cases pass with
    | first =>
      obtain ⟨rfl, listed⟩ := visited
      exact Visited.first recoverable grown rfl listed crashFree
    | last => exact Visited.last recoverable rfl visited.1 visited.2 crashFree
  | batching force =>
    dsimp only [Settlement.engineStep]
    cases batch : maybeBatch settings force lastBatchAt input.readings ledger tables with
    | error => exact visited
    | ok =>
      exact ⟨visited, extend visited (maybeBatch_recorded batch safe.sound safe.earned).extended⟩
  | batched | debited => exact visited.2
  | debiting force =>
    dsimp only [Settlement.engineStep]
    cases debit : maybeDebit settings force lastBatchAt input.readings ledger tables with
    | error => exact visited
    | ok => exact ⟨visited, extend visited (maybeDebit_recorded debit safe.sound).extended⟩
  | rebroadcasting => exact ⟨visited, visited⟩

structure Underway (settings : EngineSettings) (start world : World) : Prop where
  recoverable : Recoverable settings world
  mined : start.chain.mined ⊆ world.chain.mined
  height : start.chain.height ≤ world.chain.height

theorem Underway.begins (recoverable : Recoverable settings start)
    (idle : start.control = .idle) (force : Bool) :
    Underway settings start (Settlement.step settings (.tick force) start) := by
  refine ⟨recoverable.tick idle force, ?_, ?_⟩ <;> simp [Settlement.step, idle, World.beginRecovery]

theorem Underway.step (underway : Underway settings start world)
    {action : Action} (crashFree : CrashFree world action) :
    Underway settings start (step settings action world) := by
  have recoverable := underway.recoverable.step crashFree
  cases action with
  | engine input =>
    obtain ⟨_, mined, height⟩ := @engineStep_ledger settings world input
    exact ⟨recoverable, mined ▸ underway.mined, underway.height.trans_eq height.symm⟩
  | mine included =>
    obtain ⟨_, mined, height⟩ := mine_grows settings.confirmations world.chain included
    exact ⟨recoverable, List.Subset.trans underway.mined mined, underway.height.trans height⟩
  | post => exact ⟨recoverable, underway.mined, underway.height⟩
  | tick | abort | crash | reorg => exact crashFree.elim

theorem Underway.run (underway : Underway settings start world)
    (permitted : AllPermitted (Settlement.step settings) CrashFree actions world) :
    Underway settings start (Serial.run (Settlement.step settings) actions world) := by
  induction actions generalizing world with
  | nil => exact underway
  | cons _ _ ih => exact ih (underway.step permitted.1) permitted.2

theorem visited_tick (idle : start.control = .idle) (force : Bool) (mem : origin ∈ start.tables)
    (flying : origin.status.inFlight = true) :
    Visited settings start origin (Settlement.step settings (.tick force) start) := by
  have begun : Settlement.step settings (.tick force) start =
      start.beginRecovery (.first force) := by
    simp [Settlement.step, idle]
  have listed : origin.id ∈ flightRows start.tables := by
    apply mem_map_of_mem
    rw [(perm_insertionSort _ _).mem_iff]
    exact mem_filter.mpr ⟨mem, flying⟩
  rw [begun]
  exact ⟨rfl, origin, mem, rfl, Or.inl ⟨listed, fun _ same => same⟩⟩

theorem Visited.step (underway : Underway settings start world)
    (visited : Visited settings start origin world) {action : Action}
    (crashFree : CrashFree world action) :
    Visited settings start origin (step settings action world) := by
  cases action with
  | engine => exact visited.engineStep underway.recoverable underway.mined crashFree
  | mine | post => exact visited
  | tick | abort | crash | reorg => exact crashFree.elim

theorem Visited.run (underway : Underway settings start world)
    (visited : Visited settings start origin world)
    (permitted : AllPermitted (Settlement.step settings) CrashFree actions world) :
    Visited settings start origin (Serial.run (Settlement.step settings) actions world) := by
  induction actions generalizing world with
  | nil => exact visited
  | cons _ _ ih =>
    exact ih (underway.step permitted.1) (visited.step underway permitted.1) permitted.2

theorem Complete.mine (complete : Complete chain included) (confirmations : Nat) :
    (chain.mine confirmations included).height = chain.height + 1 ∧
      (chain.mine confirmations included).mined = chain.mined ++ included.map fun choice =>
          { tx := choice.1, block := chain.height + 1, success := choice.2 } := by
  have fits : ((chain.mined ++ included.map fun choice =>
      { tx := choice.1, block := chain.height + 1
        success := choice.2 : Mined }).map fun entry =>
          entry.tx.nonce).Nodup ∧
      ∀ choice ∈ included, choice.1 ∈ chain.accepted := by
    refine ⟨?_, complete.accepted⟩
    rw [map_append, nodup_append]
    refine ⟨chain.once, ?_, ?_⟩
    · rw [map_map]
      exact complete.distinct
    · intro _ old _ new same
      obtain ⟨entry, mined, rfl⟩ := mem_map.mp old
      rw [map_map] at new
      obtain ⟨choice, chosen, rfl⟩ := mem_map.mp new
      have unused := complete.unused choice chosen
      have used : chain.used choice.1.nonce = true := ChainState.used_iff.mpr ⟨entry, mined, same⟩
      rw [used] at unused
      cases unused
  unfold ChainState.mine
  rw [dif_pos fits]
  exact ⟨rfl, rfl⟩

theorem Complete.executes (complete : Complete chain included)
    (confirmations : Nat) {tx : Tx} (accepted : tx ∈ chain.accepted) :
    ∃ entry ∈ (chain.mine confirmations included).mined, entry.tx.nonce = tx.nonce := by
  rw [(complete.mine confirmations).2]
  by_cases used : chain.used tx.nonce = true
  · obtain ⟨entry, mined, nonce⟩ := ChainState.used_iff.mp used
    exact ⟨entry, mem_append_left _ mined, nonce⟩
  · obtain ⟨_, chosen, nonce⟩ := complete.covers tx accepted (by simpa using used)
    exact ⟨_, mem_append_right _ (mem_map_of_mem chosen), nonce⟩

structure Advanced (settings : EngineSettings) (start finish : World)
    (origin row : ChainSettlement) : Prop where
  handled : Handled settings start origin row
  executed : row.status.inFlight = true → ∃ entry ∈ finish.chain.mined, row.txHash = some entry.tx

theorem Round.advances (recoverable : Recoverable settings start) (idle : start.control = .idle)
    (round : Round settings start finish) (mem : origin ∈ start.tables)
    (flying : origin.status.inFlight = true) :
    ∃ row ∈ finish.tables, row.id = origin.id ∧ Advanced settings start finish origin row := by
  cases round with
  | intro force _ middle included permitted ran returned complete =>
    have begun := Underway.begins recoverable idle force
    have handled := (visited_tick idle force mem flying).run begun permitted
    have underway := begun.run permitted
    rw [ran] at underway handled
    unfold Visited at handled
    rw [returned] at handled
    obtain ⟨row, stored, own, facts⟩ := handled
    refine ⟨row, stored, own, facts, ?_⟩
    intro rowFlying
    have view : middle.view = middle.tables := by simp only [World.view, returned]
    have rowSent := underway.recoverable.sent.stored row stored
    obtain ⟨tx, hashed⟩ := Option.ne_none_iff_exists'.mp
      (fun none => facts.sent (rowSent.unsent.mpr none))
    obtain ⟨entry, mined, nonce⟩ := complete.executes
      settings.confirmations (rowSent.accepted tx hashed)
    have after := underway.recoverable.mine included
    -- The row has the hash of what was executed at its nonce.
    rcases after.tracked row (view ▸ stored) rowFlying with executed | every
    · exact executed
    · refine ⟨entry, mined, every entry.tx (after.safe.executed entry mined) ?_⟩
      rw [nonce, ((underway.recoverable.safe.sound.rows row stored).hash tx hashed).1]

theorem Round.continues (recoverable : Recoverable settings start)
    (idle : start.control = .idle) (round : Round settings start finish) :
    Recoverable settings finish ∧ finish.control = .idle ∧ start.chain.mined ⊆ finish.chain.mined ∧
      start.chain.height < finish.chain.height := by
  cases round with
  | intro force _ middle included permitted ran returned complete =>
    have underway := (Underway.begins recoverable idle force).run permitted
    rw [ran] at underway
    refine ⟨underway.recoverable.mine included, returned, ?_, ?_⟩
    · exact List.Subset.trans underway.mined (mine_grows _ _ included).2.1
    · have height : (step settings (.mine included) middle).chain.height =
          middle.chain.height + 1 :=
        (complete.mine settings.confirmations).1
      have grown := underway.height
      omega

theorem Round.reaches (round : Round settings start finish) :
    Reaches (step settings) Credits (fun world => world = start) finish := by
  cases round with
  | intro force _ _ included permitted ran =>
    have initial : Reaches (step settings) Credits (fun world => world = start) start := .start rfl
    have begun := initial.step (Action.tick force) trivial
    have reached := begun.run (permitted.mono fun _ _ crashFree => crashFree.credits)
    rw [ran] at reached
    exact .step reached (.mine included) trivial

end

section

variable {settings : EngineSettings} {start finish : World} {id : Uuid}

def Concluded (id : Uuid) (world : World) : Prop :=
  ∃ row ∈ world.tables, row.id = id ∧ row.status.inFlight = false

/-- The row is concluded, or its transaction is executed and deep enough after
so many more blocks. -/
def Within (settings : EngineSettings) (blocks : Nat) (id : Uuid) (world : World) : Prop :=
  ∃ row ∈ world.tables, row.id = id ∧ (row.status.inFlight = true → ∃ entry ∈ world.chain.mined,
      row.txHash = some entry.tx ∧ settings.confirmations + entry.block ≤
          world.chain.height + 1 + blocks)

theorem Concluded.within (concluded : Concluded id start) (blocks : Nat) :
    Within settings blocks id start := by
  obtain ⟨row, mem, own, landed⟩ := concluded
  refine ⟨row, mem, own, ?_⟩
  intro flying
  rw [landed] at flying
  cases flying

theorem Round.concluded (safe : Safe settings start) (round : Round settings start finish)
    (idle : start.control = .idle) (concluded : Concluded id start) : Concluded id finish := by
  obtain ⟨row, mem, own, landed⟩ := concluded
  have kept : Kept row start := ⟨mem, by rw [idle]; trivial⟩
  exact ⟨row, ((reaches_kept safe round.reaches).2 row landed kept).stored, own, landed⟩

theorem Round.within_confirmations (recoverable : Recoverable settings start)
    (idle : start.control = .idle) (round : Round settings start finish)
    (stored : ∃ row ∈ start.tables, row.id = id) :
    Within settings settings.confirmations id finish := by
  obtain ⟨origin, mem, rfl⟩ := stored
  cases flying : origin.status.inFlight with
  | false => exact (round.concluded recoverable.safe idle ⟨origin, mem, rfl, flying⟩).within _
  | true =>
    obtain ⟨row, here, own, advanced⟩ := round.advances recoverable idle mem flying
    refine ⟨row, here, own, ?_⟩
    intro rowFlying
    obtain ⟨entry, mined, hashed⟩ := advanced.executed rowFlying
    refine ⟨entry, mined, hashed, ?_⟩
    have block := (round.continues recoverable idle).1.sent.blocks entry mined
    omega

theorem Round.within (recoverable : Recoverable settings start)
    (idle : start.control = .idle) (round : Round settings start finish)
    {blocks : Nat} (within : Within settings (blocks + 1) id start) :
    Within settings blocks id finish := by
  obtain ⟨origin, mem, rfl, due⟩ := within
  obtain ⟨_, _, mined, _⟩ := round.continues recoverable idle
  cases flying : origin.status.inFlight with
  | false => exact (round.concluded recoverable.safe idle ⟨origin, mem, rfl, flying⟩).within _
  | true =>
    obtain ⟨row, here, own, advanced⟩ := round.advances recoverable idle mem flying
    obtain ⟨entry, executed, hashed, _⟩ := due flying
    refine ⟨row, here, own, fun _ => ⟨entry, mined executed,
      advanced.handled.keeps entry.tx hashed, ?_⟩⟩
    omega

theorem Round.concludes (recoverable : Recoverable settings start)
    (idle : start.control = .idle) (round : Round settings start finish)
    (within : Within settings 0 id start) : Concluded id finish := by
  obtain ⟨origin, mem, rfl, due⟩ := within
  cases flying : origin.status.inFlight with
  | false => exact round.concluded recoverable.safe idle ⟨origin, mem, rfl, flying⟩
  | true =>
    obtain ⟨row, here, own, advanced⟩ := round.advances recoverable idle mem flying
    obtain ⟨entry, executed, hashed, deep⟩ := due flying
    exact ⟨row, here, own, advanced.handled.concluded entry executed
      (advanced.handled.keeps entry.tx hashed) deep⟩

theorem Rounds.concluded (recoverable : Recoverable settings start) (idle : start.control = .idle)
    {count : Nat} (rounds : Rounds settings count start finish) (concluded : Concluded id start) :
    Concluded id finish := by
  induction count generalizing start with
  | zero =>
    cases rounds
    exact concluded
  | succ _ ih =>
    obtain ⟨_, round, rest⟩ := rounds
    obtain ⟨onward, middleIdle, _⟩ := round.continues recoverable idle
    exact ih onward middleIdle rest (round.concluded recoverable.safe idle concluded)

theorem Rounds.concludes (recoverable : Recoverable settings start) (idle : start.control = .idle)
    {count blocks : Nat} (enough : blocks + 1 ≤ count) (rounds : Rounds settings count start finish)
    (within : Within settings blocks id start) : Concluded id finish := by
  induction count generalizing start blocks with
  | zero => omega
  | succ _ ih =>
    obtain ⟨_, round, rest⟩ := rounds
    obtain ⟨onward, middleIdle, _⟩ := round.continues recoverable idle
    cases blocks with
    | zero => exact rest.concluded onward middleIdle (round.concludes recoverable idle within)
    | succ => exact ih onward middleIdle (by omega) rest (round.within recoverable idle within)

theorem Recoverable.recovers (recoverable : Recoverable settings start)
    (idle : start.control = .idle) {count : Nat} (enough : settings.confirmations + 2 ≤ count)
    (rounds : Rounds settings count start finish) (stored : ∃ row ∈ start.tables, row.id = id) :
    Concluded id finish := by
  obtain ⟨rest, rfl⟩ : ∃ rest, count = rest + 1 := ⟨count - 1, by omega⟩
  obtain ⟨_, round, later⟩ := rounds
  obtain ⟨onward, middleIdle, _⟩ := round.continues recoverable idle
  exact later.concludes onward middleIdle (by omega)
    (round.within_confirmations recoverable idle stored)

end

end Gridix.Settlement
