import Gridix.Chain.Payouts

/-!
# The statements of a tick

What each statement of the engine does to the chain, to the stored tables and
to the session's view of them.
-/

namespace Gridix.Settlement

def World.visiting (world : World) : Option ChainSettlement :=
  match world.control with
  | .recovering _ _ (id :: _) draft => draft.find? fun row => row.id = id
  | .recovering _ _ [] _ | .idle | .batching _ | .batched _ _ | .debiting _
  | .debited _ | .rebroadcasting => none

inductive DataStep (settings : EngineSettings) (input : Input) (world next : World) : Prop where
  | stay (chain : next.chain = world.chain)
      (tables : next.tables = world.tables) (view : next.view = world.view)
  | commit (chain : next.chain = world.chain)
      (tables : next.tables = world.view) (view : next.view = world.view)
  | record (before : world.view = world.tables) (chain : next.chain = world.chain)
      (tables : next.tables = world.tables)
      (recorded : Recorded settings world.chain world.ledger world.tables next.view)
  | submit (row : ChainSettlement) (salt : Nat)
      (visiting : world.visiting = some row) (member : row ∈ world.view)
      (needs : needsBroadcast row = true) (reply : input.reply = .hash salt)
      (chain : next.chain = world.chain.accept (row.tx salt))
      (tables : next.tables = world.tables)
      (view : next.view = updateRow world.view row.id fun row => row.submit salt)
  | forget (row : ChainSettlement) (salt : Nat) (visiting : world.visiting = some row)
      (needs : needsBroadcast row = true)
      (reply : input.reply = .chainError (some salt) ∨ input.reply = .raised (some salt))
      (chain : next.chain = world.chain.accept (row.tx salt))
      (tables : next.tables = world.tables)
      (view : next.view = world.view ∨ next.view = world.tables)
  | giveUp (row : ChainSettlement) (visiting : world.visiting = some row)
      (needs : needsBroadcast row = true)
      (reply : input.reply = .raised none)
      (chain : next.chain = world.chain)
      (tables : next.tables = world.tables)
      (view : next.view = world.tables)
  | conclude (row : ChainSettlement) (latest : Nat) (entry : Mined) (member : row ∈ world.view)
      (receipt : finalReceipt settings world.chain latest input.found row = some entry)
      (chain : next.chain = world.chain)
      (tables : next.tables = world.tables)
      (view : next.view = updateRow world.view row.id fun row => row.conclude entry)

section

variable {settings : EngineSettings} {world : World} {latest : Nat} {draft : Tables}
  {row : ChainSettlement} {entry : Mined} {chain : ChainState}

theorem dataStep_broadcast {pass : Pass} {id : Uuid} {rest : List Uuid} {input : Input}
    (control : world.control = .recovering pass latest (id :: rest) draft)
    (found : (draft.find? fun row => row.id = id) = some row) (needs : needsBroadcast row = true) :
    DataStep settings input world (world.broadcast pass latest row rest draft input.reply) := by
  have visiting : world.visiting = some row := by simpa only [World.visiting, control] using found
  obtain ⟨_, _, _, _, _⟩ := world
  subst control
  cases reply : input.reply with
  | hash salt => exact .submit row salt visiting (mem_of_find? found).1 needs reply rfl rfl rfl
  | chainError reached =>
    cases reached with
    | none => exact .stay rfl rfl rfl
    | some salt => exact .forget row salt visiting needs (.inl reply) rfl rfl (.inl rfl)
  | raised reached =>
    cases reached with
    | none => exact .giveUp row visiting needs reply rfl rfl rfl
    | some salt => exact .forget row salt visiting needs (.inr reply) rfl rfl (.inr rfl)

theorem dataStep_recover {pass : Pass} {todo : List Uuid} (input : Input)
    (control : world.control = .recovering pass latest todo draft) :
    DataStep settings input world (world.recover settings pass latest draft input todo) := by
  obtain ⟨chain, _, _, _, _⟩ := world
  subst control
  cases todo with
  | nil =>
    refine .commit rfl rfl ?_
    cases pass with
    | first | last => rfl
  | cons id =>
    simp only [World.recover]
    cases found : draft.find? fun row => row.id = id with
    | none => exact .stay rfl rfl rfl
    | some row =>
      dsimp only
      split_ifs with needs
      · exact dataStep_broadcast rfl found needs
      · dsimp only [World.check]
        cases receipt : finalReceipt settings chain latest input.found row with
        | none => exact .stay rfl rfl rfl
        | some entry => exact .conclude row latest entry (mem_of_find? found).1 receipt rfl rfl rfl

theorem dataStep_engine (safe : Safe settings world) (input : Input) :
    DataStep settings input world (engineStep settings input world) := by
  obtain ⟨_, tables, ledger, control, lastBatchAt⟩ := world
  cases control with
  | idle | rebroadcasting => exact .stay rfl rfl rfl
  | recovering => exact dataStep_recover input rfl
  | batching force =>
    dsimp only [engineStep]
    cases batch : maybeBatch settings force lastBatchAt input.readings ledger tables with
    | error => exact .stay rfl rfl rfl
    | ok => exact .record rfl rfl rfl (maybeBatch_recorded batch safe.sound safe.earned)
  | batched | debited => exact .commit rfl rfl rfl
  | debiting force =>
    dsimp only [engineStep]
    cases debit : maybeDebit settings force lastBatchAt input.readings ledger tables with
    | error => exact .stay rfl rfl rfl
    | ok => exact .record rfl rfl rfl (maybeDebit_recorded debit safe.sound)

structure RowSent (chain : ChainState) (row : ChainSettlement) : Prop where
  unsent : row.status = .pending ↔ row.txHash = none
  accepted : ∀ tx, row.txHash = some tx → tx ∈ chain.accepted

structure Sent (world : World) : Prop where
  blocks : ∀ entry ∈ world.chain.mined, entry.block ≤ world.chain.height
  stored : ∀ row ∈ world.tables, RowSent world.chain row
  viewed : ∀ row ∈ world.view, RowSent world.chain row

theorem conclude_id (row : ChainSettlement) (entry : Mined) : (row.conclude entry).id = row.id := by
  unfold ChainSettlement.conclude
  split_ifs <;> rfl

theorem conclude_txHash (row : ChainSettlement) (entry : Mined) :
    (row.conclude entry).txHash = row.txHash := by
  unfold ChainSettlement.conclude
  split_ifs <;> rfl

theorem conclude_inFlight (row : ChainSettlement) (entry : Mined) :
    (row.conclude entry).status.inFlight = false := by
  unfold ChainSettlement.conclude
  split_ifs <;> rfl

theorem conclude_ne_pending (row : ChainSettlement) (entry : Mined) :
    (row.conclude entry).status ≠ .pending := by
  intro pending
  have landed := conclude_inFlight row entry
  rw [pending] at landed
  cases landed

theorem RowSent.conclude (sent : RowSent chain row) (known : row.txHash ≠ none) :
    RowSent chain (row.conclude entry) := by
  refine ⟨⟨fun pending => ?_, fun unknown => ?_⟩, ?_⟩
  · exact (conclude_ne_pending row entry pending).elim
  · rw [conclude_txHash] at unknown
    exact (known unknown).elim
  · rw [conclude_txHash]
    exact sent.accepted

theorem RowSent.txHash_of_needsBroadcast (sent : RowSent chain row)
    (needs : needsBroadcast row = true) : row.txHash = none := by
  simp only [needsBroadcast, Bool.or_eq_true, decide_eq_true_eq] at needs
  rcases needs with pending | unknown
  · exact sent.unsent.mp pending
  · exact unknown

theorem RowSent.of_recorded (pending : row.status = .pending) (unsent : row.txHash = none) :
    RowSent chain row := by
  refine ⟨⟨fun _ => unsent, fun _ => pending⟩, ?_⟩
  intro _ hashed
  rw [unsent] at hashed
  cases hashed

theorem Sent.fresh (fresh : world.Fresh settings) : Sent world := by
  have view : world.view = world.tables := by simp only [World.view, fresh.control]
  refine ⟨?_, ?_, ?_⟩
  · rw [fresh.mined]
    simp
  · rw [fresh.tables]
    simp
  · rw [view, fresh.tables]
    simp

theorem sent_keeps {ledger : Ledger} : Keeps fun chain tables =>
    Sound settings chain ledger tables ∧ ∀ row ∈ tables, RowSent chain row where
  mono both preserves seen := by
    refine ⟨both.1.mono preserves, fun row mem => ⟨(both.2 row mem).unsent, ?_⟩⟩
    intro tx hashed
    exact seen ((both.2 row mem).accepted tx hashed)
  submit salt both mem needs heard := by
    refine ⟨sound_keeps.submit salt both.1 mem needs heard, ?_⟩
    intro other updated
    rcases mem_updateRow updated with ⟨old, _⟩ | ⟨_, oldMember, own, rfl⟩
    · exact both.2 other old
    · cases both.1.eq_of_id oldMember mem own
      refine ⟨⟨fun status => ?_, fun hashed => ?_⟩, ?_⟩
      · cases status
      · cases hashed
      · intro _ hashed
        cases hashed
        exact heard
  conclude both mem mined hashed final := by
    refine ⟨sound_keeps.conclude both.1 mem mined hashed final, ?_⟩
    intro other updated
    rcases mem_updateRow updated with ⟨old, _⟩ | ⟨_, oldMember, own, rfl⟩
    · exact both.2 other old
    · cases both.1.eq_of_id oldMember mem own
      exact (both.2 _ mem).conclude (by simp [hashed])

theorem Sent.step (safe : Safe settings world) (sent : Sent world)
    (action : Action) : Sent (step settings action world) := by
  have guarded := @Guarded.both _ _ (fun chain tables => ∀ row ∈ tables, RowSent chain row) _
    safe.guarded sent.stored sent.viewed
  have next := guarded.step sent_keeps action fun input draft _ records => by
    have recorded := safe.records records
    refine ⟨recorded.extended, recorded.sound, fun row mem => ?_⟩
    rcases recorded.pending row mem with old | ⟨pending, unsent⟩
    · exact sent.stored row old
    · exact .of_recorded pending unsent
  exact ⟨step_blocks sent.blocks action, next.good.2, next.view.2⟩

theorem reaches_sent (reached : Serial.Reaches (step settings) Credits
      (World.Fresh settings) world) : Sent world := by
  induction reached with
  | start fresh => exact Sent.fresh fresh
  | step earlier action _ sent => exact sent.step (reaches_safe earlier) action

end

end Gridix.Settlement
