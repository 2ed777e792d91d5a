import Gridix.Chain.Reservations

/-!
# What the sessions of the engine keep

The engine changes single rows, in the draft of a session that commits or is
dropped as a whole.
-/

namespace Gridix.Settlement

open List Serial

def World.view (world : World) : Tables :=
  match world.control with
  | .recovering _ _ _ draft | .batched _ draft | .debited draft => draft
  | .idle | .batching _ | .debiting _ | .rebroadcasting => world.tables

structure Keeps (Good : ChainState → Tables → Prop) : Prop where
  mono : ∀ {chain next : ChainState} {tables : Tables}, Good chain tables →
    Preserves chain next → chain.accepted ⊆ next.accepted → Good next tables
  submit : ∀ {chain : ChainState} {tables : Tables} {row : ChainSettlement} (salt : Nat),
    Good chain tables → row ∈ tables → needsBroadcast row = true →
    row.tx salt ∈ chain.accepted → Good chain (updateRow tables row.id fun row => row.submit salt)
  conclude : ∀ {chain : ChainState} {tables : Tables} {row : ChainSettlement} {entry : Mined},
    Good chain tables → row ∈ tables → entry ∈ chain.mined → row.txHash = some entry.tx →
    entry.block ≤ chain.final → Good chain (updateRow tables row.id fun row => row.conclude entry)

section

variable (settings : EngineSettings) (Good : ChainState → Tables → Prop)

def Session (chain : ChainState) (tables : Tables) : Control → Prop
  | .recovering _ latest _ draft =>
    draft.map ChainSettlement.identity = tables.map ChainSettlement.identity ∧
      Good chain draft ∧ latest + 1 ≤ settings.confirmations + chain.final
  | .batched _ draft | .debited draft => tables <+: draft ∧ Good chain draft
  | .idle | .batching _ | .debiting _ | .rebroadcasting => True

structure Guarded (world : World) : Prop where
  final : world.chain.height + 1 ≤ settings.confirmations + world.chain.final
  executed : ∀ entry ∈ world.chain.mined, entry.tx ∈ world.chain.accepted
  traced : ∀ tx ∈ world.chain.accepted, ∃ row ∈ world.tables,
    row.nonce = tx.nonce ∧ row.call = tx.call
  good : Good world.chain world.tables
  session : Session settings Good world.chain world.tables world.control

def Records (readings : Readings) (world : World) (draft : Tables) : Prop :=
  ∃ force, (world.control = .batching force ∧ ∃ moved, maybeBatch settings force world.lastBatchAt
      readings world.ledger world.tables = .ok (draft, moved)) ∨
    world.control = .debiting force ∧
      maybeDebit settings force world.lastBatchAt readings world.ledger world.tables = .ok draft

end

section

variable {settings : EngineSettings} {Good Also : ChainState → Tables → Prop} {world : World}
  {control : Control} {row : ChainSettlement} {draft : Tables} {id : Uuid} {latest : Nat}
  {found : Bool} {rest todo : List Uuid} {pass : Pass} {action : Action}

theorem mem_of_find? (found : (draft.find? fun row => row.id = id) = some row) :
    row ∈ draft ∧ row.id = id :=
  ⟨mem_of_find?_eq_some found, by simpa using List.find?_some found⟩

theorem finalReceipt_ok {chain : ChainState} {entry : Mined}
    (receipt : finalReceipt settings chain latest found row = some entry) :
    entry ∈ chain.mined ∧ row.txHash = some entry.tx ∧
      settings.confirmations + entry.block ≤ latest + 1 := by
  unfold finalReceipt at receipt
  cases hashed : row.txHash with
  | none =>
    rw [hashed] at receipt
    cases receipt
  | some tx =>
    rw [hashed] at receipt
    obtain ⟨looked, deep⟩ := Option.filter_eq_some_iff.mp receipt
    split_ifs at looked
    have same : entry.tx = tx := by simpa using List.find?_some looked
    exact ⟨mem_of_find?_eq_some looked, by rw [same],
      by simpa using deep⟩

theorem conclude_identity (row : ChainSettlement) (entry : Mined) :
    (row.conclude entry).identity = row.identity := by
  unfold ChainSettlement.conclude
  split_ifs <;> rfl

theorem recover_ledger (pass : Pass) (latest : Nat) (draft : Tables)
    (input : Input) (todo : List Uuid) :
    let next := world.recover settings pass latest draft input todo
    next.ledger = world.ledger ∧ next.lastBatchAt = world.lastBatchAt ∧
      next.chain.mined = world.chain.mined ∧ next.chain.height = world.chain.height := by
  cases todo with
  | nil => exact ⟨rfl, rfl, rfl, rfl⟩
  | cons id =>
    simp only [World.recover]
    cases draft.find? fun row => row.id = id with
    | none => exact ⟨rfl, rfl, rfl, rfl⟩
    | some =>
      dsimp only
      split_ifs
      · cases input.reply with
        | hash => exact ⟨rfl, rfl, rfl, rfl⟩
        | chainError reached | raised reached =>
          cases reached with
          | none | some => exact ⟨rfl, rfl, rfl, rfl⟩
      · exact ⟨rfl, rfl, rfl, rfl⟩

theorem engineStep_ledger (input : Input) :
    let next := engineStep settings input world
    next.ledger = world.ledger ∧ next.chain.mined = world.chain.mined ∧
      next.chain.height = world.chain.height := by
  unfold engineStep
  cases world.control with
  | recovering pass latest todo draft =>
    obtain ⟨ledger, _, blocks⟩ := recover_ledger pass latest draft input todo
    exact ⟨ledger, blocks⟩
  | batching | debiting =>
    dsimp only
    split <;> exact ⟨rfl, rfl, rfl⟩
  | idle | batched | debited | rebroadcasting => exact ⟨rfl, rfl, rfl⟩

theorem step_ledger (silent : ∀ rows, action ≠ .post rows) :
    (step settings action world).ledger = world.ledger := by
  cases action with
  | post rows => exact absurd rfl (silent rows)
  | engine input => exact (engineStep_ledger input).1
  | tick =>
    simp only [step]
    split_ifs <;> rfl
  | abort | crash | mine | reorg => rfl

theorem step_blocks (blocks : ∀ entry ∈ world.chain.mined, entry.block ≤ world.chain.height)
    (action : Action) : ∀ entry ∈ (step settings action world).chain.mined,
      entry.block ≤ (step settings action world).chain.height := by
  cases action with
  | tick =>
    simp only [step]
    split_ifs <;> exact blocks
  | engine input =>
    obtain ⟨_, mined, height⟩ := @engineStep_ledger settings world input
    simpa only [step, mined, height] using blocks
  | mine =>
    simp only [step, ChainState.mine]
    split_ifs
    · intro entry mem
      rcases mem_append.mp mem with old | new
      · exact Nat.le_succ_of_le (blocks entry old)
      · obtain ⟨_, _, rfl⟩ := mem_map.mp new
        exact le_refl _
    · exact blocks
  | reorg =>
    simp only [step, ChainState.reorg]
    split_ifs
    · intro _ mem
      obtain ⟨_, below⟩ := mem_filter.mp mem
      exact le_trans (by simpa using below) (le_max_left _ _)
    · exact blocks
  | abort | crash | post => exact blocks

namespace Guarded

theorem fresh (fresh : world.Fresh settings) (good : Good world.chain []) :
    Guarded settings Good world := by
  refine ⟨fresh.final, ?_, ?_, by rwa [fresh.tables], ?_⟩
  · rw [fresh.mined]
    simp
  · rw [fresh.accepted]
    simp
  · rw [fresh.control]
    trivial

variable (guarded : Guarded settings Good world)

include guarded

theorem view : Good world.chain world.view := by
  obtain ⟨_, _, _, control, _⟩ := world
  cases control with
  | recovering => exact guarded.session.2.1
  | batched | debited => exact guarded.session.2
  | idle | batching | debiting | rebroadcasting => exact guarded.good

theorem both (stored : Also world.chain world.tables) (viewed : Also world.chain world.view) :
    Guarded settings (fun chain tables => Good chain tables ∧ Also chain tables) world := by
  refine ⟨guarded.final, guarded.executed, guarded.traced, ⟨guarded.good, stored⟩, ?_⟩
  have session := guarded.session
  obtain ⟨_, _, _, control, _⟩ := world
  cases control with
  | recovering => exact ⟨session.1, ⟨session.2.1, viewed⟩, session.2.2⟩
  | batched | debited => exact ⟨session.1, session.2, viewed⟩
  | idle | batching | debiting | rebroadcasting => trivial

theorem imp (weaker : ∀ chain tables, Good chain tables → Also chain tables) :
    Guarded settings Also world := by
  refine ⟨guarded.final, guarded.executed, guarded.traced, weaker _ _ guarded.good, ?_⟩
  have session := guarded.session
  obtain ⟨_, _, _, control, _⟩ := world
  cases control with
  | recovering => exact ⟨session.1, weaker _ _ session.2.1, session.2.2⟩
  | batched | debited => exact ⟨session.1, weaker _ _ session.2⟩
  | idle | batching | debiting | rebroadcasting => trivial

theorem drop (lastBatchAt : Option Int) :
    Guarded settings Good { world with control := .idle, lastBatchAt := lastBatchAt } :=
  ⟨guarded.final, guarded.executed, guarded.traced, guarded.good, trivial⟩

theorem beginRecovery (pass : Pass) : Guarded settings Good (world.beginRecovery pass) :=
  ⟨guarded.final, guarded.executed, guarded.traced, guarded.good, rfl, guarded.good, guarded.final⟩

theorem withControl (session : Session settings Good world.chain world.tables control) :
    Guarded settings Good { world with control := control } :=
  ⟨guarded.final, guarded.executed, guarded.traced, guarded.good, session⟩

theorem commit (good : Good world.chain draft)
    (carried : world.tables.map ChainSettlement.identity <+: draft.map ChainSettlement.identity)
    (session : Session settings Good world.chain draft control) :
    Guarded settings Good { world with tables := draft, control := control } := by
  refine ⟨guarded.final, guarded.executed, ?_, good, session⟩
  intro tx mem
  obtain ⟨_, rowMember, nonce, call⟩ := guarded.traced tx mem
  have found := carried.subset (mem_map_of_mem rowMember)
  obtain ⟨own, ownMember, same⟩ := mem_map.mp found
  simp only [ChainSettlement.identity, Prod.mk.injEq] at same
  exact ⟨own, ownMember, same.2.1.trans nonce, same.2.2.trans call⟩

variable (keeps : Keeps Good)

include keeps

theorem chain {chain : ChainState} (preserves : Preserves world.chain chain)
    (seen : world.chain.accepted ⊆ chain.accepted)
    (final : chain.height + 1 ≤ settings.confirmations + chain.final)
    (executed : ∀ entry ∈ chain.mined, entry.tx ∈ chain.accepted)
    (traced : ∀ tx ∈ chain.accepted, ∃ row ∈ world.tables,
      row.nonce = tx.nonce ∧ row.call = tx.call) :
    Guarded settings Good { world with chain := chain } := by
  refine ⟨final, executed, traced, keeps.mono guarded.good preserves seen, ?_⟩
  have session := guarded.session
  obtain ⟨_, _, _, control, _⟩ := world
  cases control with
  | recovering =>
    obtain ⟨identity, good, deep⟩ := session
    refine ⟨identity, keeps.mono good preserves seen, deep.trans ?_⟩
    exact Nat.add_le_add_left preserves.final _
  | batched | debited => exact ⟨session.1, keeps.mono session.2 preserves seen⟩
  | idle | batching | debiting | rebroadcasting => trivial

theorem mine (included : List (Tx × Bool)) : Guarded settings Good { world with
    chain := world.chain.mine settings.confirmations included } := by
  have preserves := preserves_mine settings.confirmations world.chain included
  unfold ChainState.mine at preserves ⊢
  dsimp only at preserves ⊢
  split_ifs at preserves ⊢ with fits
  · refine guarded.chain keeps preserves (Subset.refl _) (by dsimp only; omega) ?_ guarded.traced
    intro entry mem
    rcases mem_append.mp mem with old | new
    · exact guarded.executed entry old
    · obtain ⟨choice, chosen, rfl⟩ := mem_map.mp new
      exact fits.2 choice chosen
  · exact guarded

theorem reorg (keep height : Nat) : Guarded settings Good { world with
    chain := world.chain.reorg settings.confirmations keep height } := by
  have preserves := preserves_reorg settings.confirmations world.chain keep height
  unfold ChainState.reorg at preserves ⊢
  split_ifs at preserves ⊢
  · refine guarded.chain keeps preserves (Subset.refl _) (by dsimp only; omega) ?_ guarded.traced
    intro entry mem
    exact guarded.executed entry (mem_filter.mp mem).1
  · exact guarded

theorem accept (recorded : row.identity ∈ world.tables.map ChainSettlement.identity) (salt : Nat) :
    Guarded settings Good { world with chain := world.chain.accept (row.tx salt) } := by
  refine guarded.chain keeps (preserves_accept world.chain _) (subset_cons_self _ _)
    guarded.final ?_ ?_
  · intro entry mem
    exact mem_cons_of_mem _ (guarded.executed entry mem)
  · intro tx mem
    rcases mem_cons.mp mem with rfl | old
    · obtain ⟨own, ownMember, same⟩ := mem_map.mp recorded
      simp only [ChainSettlement.identity, Prod.mk.injEq] at same
      exact ⟨own, ownMember, same.2.1, same.2.2⟩
    · exact guarded.traced tx old

theorem broadcast (mem : row ∈ draft) (needs : needsBroadcast row = true)
    (session : Session settings Good world.chain world.tables
      (.recovering pass latest rest draft)) (reply : SendReply) :
    Guarded settings Good (world.broadcast pass latest row rest draft reply) := by
  obtain ⟨identity, good, deep⟩ := session
  have recorded : row.identity ∈ world.tables.map ChainSettlement.identity := by
    rw [← identity]
    exact mem_map_of_mem mem
  have heard (salt : Nat) : Good (world.chain.accept (row.tx salt)) draft :=
    keeps.mono good (preserves_accept _ _) (subset_cons_self _ _)
  cases reply with
  | hash salt =>
    refine (guarded.accept keeps recorded salt).withControl ⟨?_, ?_, deep⟩
    · exact (@map_updateRow _ ChainSettlement.identity draft row.id
        (ChainSettlement.submit · salt) fun _ => rfl).trans identity
    · exact keeps.submit salt (heard salt) mem needs mem_cons_self
  | chainError reached =>
    cases reached with
    | none => exact guarded.withControl ⟨identity, good, deep⟩
    | some salt =>
      exact (guarded.accept keeps recorded salt).withControl ⟨identity, heard salt, deep⟩
  | raised reached =>
    cases reached with
    | none => exact guarded.drop _
    | some salt => exact (guarded.accept keeps recorded salt).drop _

theorem check (mem : row ∈ draft) (session : Session settings Good world.chain world.tables
      (.recovering pass latest rest draft)) :
    Guarded settings Good (world.check settings pass latest found row rest draft) := by
  obtain ⟨identity, good, deep⟩ := session
  unfold World.check
  cases receipt : finalReceipt settings world.chain latest found row with
  | none => exact guarded.withControl ⟨identity, good, deep⟩
  | some entry =>
    obtain ⟨mined, hashed, _⟩ := finalReceipt_ok receipt
    refine guarded.withControl ⟨?_, keeps.conclude good mem mined hashed (by omega), deep⟩
    exact (map_updateRow draft row.id fun row => conclude_identity row entry).trans identity

theorem recover (session : Session settings Good world.chain world.tables
      (.recovering pass latest todo draft)) (input : Input) :
    Guarded settings Good (world.recover settings pass latest draft input todo) := by
  cases todo with
  | nil =>
    obtain ⟨identity, good, _⟩ := session
    refine guarded.commit good (by rw [identity]) ?_
    cases pass with
    | first | last => trivial
  | cons id rest =>
    have onward : Session settings Good world.chain world.tables
      (.recovering pass latest rest draft) := session
    simp only [World.recover]
    cases found : draft.find? fun row => row.id = id with
    | none => exact guarded.withControl onward
    | some =>
      obtain ⟨mem, _⟩ := mem_of_find? found
      dsimp only
      split_ifs with needs
      · exact guarded.broadcast keeps mem needs onward input.reply
      · exact guarded.check keeps mem onward

theorem engineStep {input : Input} (recorded : ∀ draft,
      Records settings input.readings world draft →
      world.tables <+: draft ∧ Good world.chain draft) :
    Guarded settings Good (engineStep settings input world) := by
  obtain ⟨_, tables, ledger, control, lastBatchAt⟩ := world
  have session := guarded.session
  cases control with
  | idle => exact guarded
  | recovering => exact guarded.recover keeps session input
  | batching force =>
    dsimp only [Settlement.engineStep]
    cases batch : maybeBatch settings force lastBatchAt input.readings ledger tables with
    | error => exact guarded.withControl trivial
    | ok outcome =>
      have session := recorded outcome.1 ⟨force, .inl ⟨rfl, _, batch⟩⟩
      exact ⟨guarded.final, guarded.executed, guarded.traced, guarded.good, session⟩
  | batched | debited => exact guarded.commit session.2 (session.1.map _) trivial
  | debiting force =>
    dsimp only [Settlement.engineStep]
    cases debit : maybeDebit settings force lastBatchAt input.readings ledger tables with
    | error => exact guarded.withControl trivial
    | ok draft => exact guarded.withControl (recorded draft ⟨force, .inr ⟨rfl, debit⟩⟩)
  | rebroadcasting => exact guarded.beginRecovery .last

theorem step (action : Action) (recorded : ∀ input draft, action = .engine input →
      Records settings input.readings world draft →
      world.tables <+: draft ∧ Good world.chain draft) :
    Guarded settings Good (step settings action world) := by
  cases action with
  | tick force =>
    simp only [Settlement.step]
    split_ifs
    · exact guarded.beginRecovery (.first force)
    · exact guarded
  | engine input => exact guarded.engineStep keeps fun draft => recorded input draft rfl
  | abort => exact guarded.drop world.lastBatchAt
  | crash => exact guarded.drop none
  | mine included => exact guarded.mine keeps included
  | reorg keep height => exact guarded.reorg keeps keep height
  | post => exact ⟨guarded.final, guarded.executed, guarded.traced, guarded.good, guarded.session⟩

end Guarded

end

end Gridix.Settlement
