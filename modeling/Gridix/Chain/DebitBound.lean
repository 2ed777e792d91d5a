import Gridix.Chain.PromptTick

/-!
# Developers are debited at most what they consumed

A debit row is recorded for the units that are consumed and not yet covered by
live rows, and a row never comes back to life.  So the live debits of a
developer stay within what its jobs have consumed.
-/

namespace Gridix.Settlement

open List

def ChainSettlement.debits (wallet : Address) (row : ChainSettlement) : Nat :=
  if row.status.live then row.call.debits wallet else 0

def DebitsWithin (settings : EngineSettings) (ledger : Ledger) (tables : Tables) : Prop :=
  ∀ developer ∈ settings.developers.rows, ∀ wallet, developer.walletAddress = some wallet →
      (onchainDebitedByDev tables wallet : Int) ≤ settledUnitsByDev settings ledger developer.id

structure Bounded (settings : EngineSettings) (world : World) : Prop where
  stored : DebitsWithin settings world.ledger world.tables
  viewed : DebitsWithin settings world.ledger world.view

section

variable {settings : EngineSettings} {ledger : Ledger} {tables : Tables} {draft : Tables}
  {nonce : Nat}

theorem onchainDebitedByDev_eq (tables : Tables) (wallet : Address) :
    onchainDebitedByDev tables wallet = (tables.map (ChainSettlement.debits wallet)).sum := by
  unfold onchainDebitedByDev
  rw [KeyedRows.sum_filter]
  rfl

theorem onchainDebitedByDev_append (left right : Tables) (wallet : Address) :
    onchainDebitedByDev (left ++ right) wallet =
      onchainDebitedByDev left wallet + onchainDebitedByDev right wallet := by
  simp [onchainDebitedByDev]

theorem onchainDebitedByDev_update_le {id : Uuid}
    {change : ChainSettlement → ChainSettlement} (wallet : Address)
    (less : ∀ row ∈ tables, row.id = id → (change row).debits wallet ≤ row.debits wallet) :
    onchainDebitedByDev (updateRow tables id change) wallet ≤
      onchainDebitedByDev tables wallet := by
  rw [onchainDebitedByDev_eq, onchainDebitedByDev_eq, updateRow, KeyedRows.update, map_map]
  apply sum_le_sum
  intro row mem
  rw [Function.comp_apply]
  split_ifs with same
  · exact less row mem same
  · exact le_refl _

theorem DebitsWithin.mono {fewer : Tables} (within : DebitsWithin settings ledger tables)
    (less : ∀ wallet, onchainDebitedByDev fewer wallet ≤ onchainDebitedByDev tables wallet) :
    DebitsWithin settings ledger fewer := by
  intro developer known wallet owns
  have bound := within developer known wallet owns
  have fewerDebits := less wallet
  omega

theorem DebitsWithin.post (within : DebitsWithin settings ledger tables)
    {rows : Ledger} (earns : Earns rows) :
    DebitsWithin settings (ledger ++ rows) tables := by
  intro developer known wallet owns
  exact le_trans (within developer known wallet owns)
    (settledUnitsByDev_le earns ledger developer.id)

theorem recordDebits_debited {owing : List Developer} {current : Tables}
    (ok : recordDebits settings ledger tables owing nonce current = .ok draft)
    (wallet : Address) :
    onchainDebitedByDev draft wallet = onchainDebitedByDev current wallet +
      (owing.map fun developer =>
        (debitCall settings ledger tables developer).debits wallet).sum := by
  induction owing generalizing nonce current with
  | nil =>
    cases ok
    simp
  | cons developer _ ih =>
    rw [recordDebits, Serial.bind_eq_ok] at ok
    obtain ⟨_, inserted, ok⟩ := ok
    cases insert_ok inserted
    have own : onchainDebitedByDev
        [debitRow settings ledger tables current nonce developer] wallet =
        (debitCall settings ledger tables developer).debits wallet := by
      simp [onchainDebitedByDev, debitRow, newRow, TxStatus.live, debitCall]
    rw [ih ok, onchainDebitedByDev_append, map_cons, sum_cons]
    omega

theorem debitCall_debits {developer debtor : Developer} {wallet : Address}
    (known : developer ∈ settings.developers.rows) (owns : developer.walletAddress = some wallet)
    (owing : debtor ∈ debtors settings ledger tables) :
    (debitCall settings ledger tables debtor).debits wallet =
      if debtor.id = developer.id then
        (owed settings ledger tables debtor).toNat
      else 0 := by
  obtain ⟨debtorKnown, owes⟩ := mem_debtors.mp owing
  cases own : debtor.walletAddress with
  | none => simp [owed, own] at owes
  | some other =>
    have same : other = wallet ↔ debtor.id = developer.id := by
      constructor
      · rintro rfl
        rw [Developers.eq_of_wallet known owns debtorKnown own]
      · intro ids
        have identical := inj_on_of_nodup_map settings.developers.ids debtorKnown known ids
        rw [identical, owns] at own
        exact (Option.some.inj own).symm
    simp [debitCall, own, Call.debits, same]

theorem DebitsWithin.recordDebits (within : DebitsWithin settings ledger tables)
    (ok : Settlement.recordDebits settings ledger tables
      (debtors settings ledger tables) nonce tables = .ok draft) :
    DebitsWithin settings ledger draft := by
  intro developer known wallet owns
  have before := within developer known wallet owns
  have amounts : (debtors settings ledger tables).map (fun debtor =>
      (debitCall settings ledger tables debtor).debits wallet) =
      (debtors settings ledger tables).map fun debtor =>
        if debtor.id = developer.id then
          (owed settings ledger tables debtor).toNat
        else 0 :=
    map_congr_left fun debtor owing => debitCall_debits known owns owing
  rw [recordDebits_debited ok, amounts]
  by_cases owing : developer ∈ debtors settings ledger tables
  · have owes : owed settings ledger tables developer =
        settledUnitsByDev settings ledger developer.id - onchainDebitedByDev tables wallet := by
      rw [owed, owns]
    rw [@KeyedRows.sum_single _ _ _ Developer.id _ developer _ _
      (fun debtor => (owed settings ledger tables debtor).toNat)
      debtors_nodup owing]
    omega
  · rw [sum_eq_zero]
    · simpa using before
    · intro _ mem
      obtain ⟨_, listed, rfl⟩ := mem_map.mp mem
      apply if_neg
      intro same
      apply owing
      rw [← inj_on_of_nodup_map settings.developers.ids (mem_debtors.mp listed).1 known same]
      exact listed

end

section

variable {settings : EngineSettings} {world : World} {row : ChainSettlement} {action : Action}

theorem debits_submit {chain : ChainState} (sound : RowSound settings.providers chain row)
    (needs : needsBroadcast row = true) (salt : Nat) (wallet : Address) :
    (row.submit salt).debits wallet ≤ row.debits wallet := by
  have flying := sound.inFlight_of_needsBroadcast needs
  cases status : row.status with
  | pending | submitted =>
    simp [ChainSettlement.debits, ChainSettlement.submit, TxStatus.live, status]
  | confirmed | failed => simp [TxStatus.inFlight, status] at flying

theorem debits_conclude {chain : ChainState} {entry : Mined}
    (sound : RowSound settings.providers chain row) (mined : entry ∈ chain.mined)
    (nonce : entry.tx.nonce = row.nonce) (wallet : Address) :
    (row.conclude entry).debits wallet ≤ row.debits wallet := by
  unfold ChainSettlement.conclude
  split_ifs with ok
  · have alive := sound.ne_failed mined nonce ok
    cases status : row.status with
    | pending | submitted | confirmed => simp [ChainSettlement.debits, TxStatus.live, status]
    | failed => exact (alive status).elim
  · simp [ChainSettlement.debits, TxStatus.live]

theorem debits_keep {ledger : Ledger} : Keeps fun chain tables =>
    Sound settings chain ledger tables ∧ DebitsWithin settings ledger tables where
  mono both preserves _ := ⟨both.1.mono preserves, both.2⟩
  submit salt both mem needs heard := by
    refine ⟨sound_keeps.submit salt both.1 mem needs heard, both.2.mono fun wallet => ?_⟩
    apply onchainDebitedByDev_update_le
    intro _ here same
    rw [both.1.eq_of_id here mem same]
    exact debits_submit (both.1.rows _ mem) needs salt wallet
  conclude both mem mined hashed final := by
    refine ⟨sound_keeps.conclude both.1 mem mined hashed final, both.2.mono fun wallet => ?_⟩
    apply onchainDebitedByDev_update_le
    intro _ here same
    rw [both.1.eq_of_id here mem same]
    exact debits_conclude (both.1.rows _ mem) mined ((both.1.rows _ mem).hash _ hashed).1 wallet

theorem DebitsWithin.records {readings : Readings} {draft : Tables}
    (within : DebitsWithin settings world.ledger world.tables)
    (records : Records settings readings world draft) :
    DebitsWithin settings world.ledger draft := by
  obtain ⟨_, ⟨_, _, batch⟩ | ⟨_, debit⟩⟩ := records
  · unfold maybeBatch at batch
    split_ifs at batch
    · rw [Serial.bind_eq_ok] at batch
      obtain ⟨_, recorded, done⟩ := batch
      cases done
      obtain ⟨tail, rfl, payout, _⟩ := recordBatch_rows recorded
      apply within.mono
      intro wallet
      have nothing : onchainDebitedByDev tail wallet = 0 := by
        rw [onchainDebitedByDev_eq]
        apply sum_eq_zero
        intro _ mem
        obtain ⟨row, here, rfl⟩ := mem_map.mp mem
        simp [ChainSettlement.debits, (payout row here).2.call wallet]
      rw [onchainDebitedByDev_append, nothing]
      exact le_refl _
    · cases batch
      exact within
  · unfold maybeDebit at debit
    split_ifs at debit
    · cases debit
      exact within
    · exact within.recordDebits debit
    · cases debit
      exact within

def Earning (_ : World) : Action → Prop
  | .post rows => Earns rows
  | .tick _ | .engine _ | .abort | .crash | .mine _ | .reorg _ _ => True

theorem Earning.credits (earning : Earning world action) : Credits world action := by
  cases action with
  | post => exact earning.earned
  | tick | engine | abort | crash | mine | reorg => trivial

theorem Bounded.step (safe : Safe settings world) (bounded : Bounded settings world)
    (action : Action) (earning : Earning world action) :
    Bounded settings (Settlement.step settings action world) := by
  by_cases silent : ∀ rows, action ≠ .post rows
  · have guarded := @Guarded.both _ _ (fun _ tables => DebitsWithin settings world.ledger tables)
      _ safe.guarded bounded.stored bounded.viewed
    have next := guarded.step debits_keep action fun input draft _ records =>
      ⟨(safe.records records).extended, (safe.records records).sound,
        bounded.stored.records records⟩
    have stored := next.good.2
    have viewed := next.view.2
    rw [← step_ledger silent] at stored viewed
    exact ⟨stored, viewed⟩
  · push Not at silent
    obtain ⟨_, rfl⟩ := silent
    exact ⟨bounded.stored.post earning, bounded.viewed.post earning⟩

end

def Mined.debits (wallet : Address) (entry : Mined) : Nat :=
  if entry.success then entry.tx.call.debits wallet else 0

def debitedOnChain (chain : ChainState) (wallet : Address) : Nat :=
  (chain.mined.map (Mined.debits wallet)).sum

theorem Safe.debitedOnChain_eq {settings : EngineSettings} {world : World}
    (safe : Safe settings world) (confirmed : ∀ row ∈ world.tables, row.status = .confirmed)
    (wallet : Address) :
    debitedOnChain world.chain wallet = onchainDebitedByDev world.tables wallet := by
  rw [onchainDebitedByDev_eq]
  apply le_antisymm
  · refine @KeyedRows.sum_le_of_matched _ _ _ _ _ ChainSettlement.nonce _ _ _ world.chain.once ?_
    intro entry mined _
    obtain ⟨row, mem, nonce, call⟩ := safe.traced entry.tx (safe.executed entry mined)
    refine ⟨row, mem, nonce, ?_⟩
    unfold Mined.debits
    split_ifs
    · simp [ChainSettlement.debits, confirmed row mem, TxStatus.live, call]
    · exact Nat.zero_le _
  · refine @KeyedRows.sum_le_of_matched _ _ _ _ _
      (fun entry : Mined => entry.tx.nonce) _ _ _ safe.sound.nonces ?_
    intro row mem _
    obtain ⟨entry, mined, _, nonce, call, ok⟩ :=
      (safe.sound.rows row mem).confirmed (confirmed row mem)
    refine ⟨entry, mined, nonce, ?_⟩
    simp [ChainSettlement.debits, confirmed row mem, TxStatus.live, Mined.debits, ok, call]

end Gridix.Settlement
