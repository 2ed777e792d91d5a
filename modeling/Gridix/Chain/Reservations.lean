import Gridix.Chain.Settlement

/-!
# Reservations

What the settlement tables say is so: a live row reserves for each provider
what its transaction pays, a confirmed row has been executed and a failed one
has been executed in vain, both finally and at the row's own nonce.
-/

namespace Gridix.Settlement

open List Serial

def Call.pays (wallet : Address) : Call → Nat
  | .settleBatch payees =>
    ((payees.filter fun payee => payee.1 = wallet).map Prod.snd).sum
  | .depositSettlement _ | .debit _ _ => 0

def Mined.pays (wallet : Address) (entry : Mined) : Nat :=
  if entry.success then entry.tx.call.pays wallet else 0

def credited (chain : ChainState) (wallet : Address) : Nat :=
  (chain.mined.map (Mined.pays wallet)).sum

def ChainSettlement.identity (row : ChainSettlement) : Uuid × Nat × Call :=
  (row.id, row.nonce, row.call)

def ChainSettlement.holds (provider : Uuid) (row : ChainSettlement) : Nat :=
  if row.status.live then row.reserves provider else 0

theorem reservedByProvider_eq (tables : Tables) (provider : Uuid) :
    reservedByProvider tables provider = (tables.map (ChainSettlement.holds provider)).sum := by
  unfold reservedByProvider
  rw [KeyedRows.sum_filter]
  rfl

theorem ChainSettlement.holds_le (row : ChainSettlement) (provider : Uuid) :
    row.holds provider ≤ row.reserves provider := by
  unfold ChainSettlement.holds
  split_ifs
  · exact le_refl _
  · exact Nat.zero_le _

theorem ChainSettlement.holds_of_ne_failed {row : ChainSettlement}
    (alive : row.status ≠ .failed) (provider : Uuid) :
    row.holds provider = row.reserves provider := by
  unfold ChainSettlement.holds
  cases status : row.status with
  | pending | submitted | confirmed => rfl
  | failed => exact (alive status).elim

structure RowSound (providers : Providers) (chain : ChainState) (row : ChainSettlement) : Prop where
  legs : row.status ≠ .failed → ∀ provider ∈ providers.rows,
    row.call.pays provider.walletAddress = row.reserves provider.id
  hash : ∀ tx, row.txHash = some tx → tx.nonce = row.nonce ∧ tx.call = row.call
  concluded : row.status.inFlight = false → row.txHash ≠ none
  confirmed : row.status = .confirmed → ∃ entry ∈ chain.mined,
    entry.block ≤ chain.final ∧ entry.tx.nonce = row.nonce ∧
      entry.tx.call = row.call ∧ entry.success = true
  failed : row.status = .failed → ∃ entry ∈ chain.mined,
    entry.block ≤ chain.final ∧ entry.tx.nonce = row.nonce ∧ entry.success = false

structure Preserves (chain next : ChainState) : Prop where
  final : chain.final ≤ next.final
  kept : ∀ entry ∈ chain.mined, entry.block ≤ chain.final → entry ∈ next.mined

theorem Preserves.refl (chain : ChainState) : Preserves chain chain :=
  ⟨le_refl _, fun _ mem _ => mem⟩

theorem preserves_accept (chain : ChainState) (tx : Tx) : Preserves chain (chain.accept tx) :=
  ⟨le_refl _, fun _ mem _ => mem⟩

theorem preserves_mine (confirmations : Nat) (chain : ChainState) (included : List (Tx × Bool)) :
    Preserves chain (chain.mine confirmations included) := by
  unfold ChainState.mine
  dsimp only
  split_ifs
  · exact ⟨le_max_left _ _, fun _ mem _ => mem_append_left _ mem⟩
  · exact Preserves.refl chain

theorem preserves_reorg (confirmations : Nat) (chain : ChainState) (keep height : Nat) :
    Preserves chain (chain.reorg confirmations keep height) := by
  unfold ChainState.reorg
  split_ifs with deep
  · refine ⟨le_max_left _ _, ?_⟩
    intro _ mem final
    exact mem_filter.mpr ⟨mem, by simpa using le_trans final deep⟩
  · exact Preserves.refl chain

section

variable {providers : Providers} {chain next : ChainState}
  {row : ChainSettlement} {entry : Mined}

theorem RowSound.mono (sound : RowSound providers chain row)
    (preserves : Preserves chain next) : RowSound providers next row := by
  refine ⟨sound.legs, sound.hash, sound.concluded, ?_, ?_⟩
  · intro status
    obtain ⟨entry, mem, final, facts⟩ := sound.confirmed status
    exact ⟨entry, preserves.kept entry mem final, le_trans final preserves.final, facts⟩
  · intro status
    obtain ⟨entry, mem, final, facts⟩ := sound.failed status
    exact ⟨entry, preserves.kept entry mem final, le_trans final preserves.final, facts⟩

theorem ne_failed_of_inFlight (flying : row.status.inFlight = true) : row.status ≠ .failed := by
  intro failed
  rw [failed] at flying
  cases flying

theorem RowSound.inFlight_of_needsBroadcast (sound : RowSound providers chain row)
    (needs : needsBroadcast row = true) : row.status.inFlight = true := by
  by_contra landed
  have hashed := sound.concluded (by simpa using landed)
  simp only [needsBroadcast, hashed, decide_false, Bool.or_false, decide_eq_true_eq] at needs
  rw [needs] at landed
  exact landed rfl

theorem RowSound.submit (sound : RowSound providers chain row)
    (needs : needsBroadcast row = true) (salt : Nat) :
    RowSound providers chain (row.submit salt) := by
  have flying := sound.inFlight_of_needsBroadcast needs
  refine ⟨fun _ => sound.legs (ne_failed_of_inFlight flying), ?_, ?_, ?_, ?_⟩
  · intro _ same
    cases same
    exact ⟨rfl, rfl⟩
  · intro landed
    cases landed
  · intro status
    cases status
  · intro status
    cases status

theorem ChainState.entry_unique {left right : Mined} (leftMember : left ∈ chain.mined)
    (rightMember : right ∈ chain.mined) (same : left.tx.nonce = right.tx.nonce) : left = right :=
  inj_on_of_nodup_map chain.once leftMember rightMember same

theorem RowSound.ne_failed (sound : RowSound providers chain row) (mem : entry ∈ chain.mined)
    (nonce : entry.tx.nonce = row.nonce) (ok : entry.success = true) :
    row.status ≠ .failed := by
  intro failed
  obtain ⟨_, otherMember, _, otherNonce, reverted⟩ := sound.failed failed
  have same := chain.entry_unique mem otherMember (nonce.trans otherNonce.symm)
  rw [← same, ok] at reverted
  cases reverted

theorem RowSound.conclude (sound : RowSound providers chain row)
    (mem : entry ∈ chain.mined) (hashed : row.txHash = some entry.tx)
    (final : entry.block ≤ chain.final) :
    RowSound providers chain (row.conclude entry) := by
  obtain ⟨nonce, call⟩ := sound.hash entry.tx hashed
  have known : row.txHash ≠ none := by
    rw [hashed]
    exact Option.some_ne_none _
  unfold ChainSettlement.conclude
  split_ifs with ok
  · refine ⟨fun _ => sound.legs (sound.ne_failed mem nonce ok), sound.hash, fun _ => known, ?_, ?_⟩
    · intro _
      exact ⟨entry, mem, final, nonce, call, ok⟩
    · intro status
      cases status
  · refine ⟨fun alive => (alive rfl).elim, sound.hash, fun _ => known, ?_, ?_⟩
    · intro status
      cases status
    · intro _
      exact ⟨entry, mem, final, nonce, by simpa using ok⟩

theorem RowSound.holds_submit (sound : RowSound providers chain row)
    (needs : needsBroadcast row = true) (salt : Nat) (provider : Uuid) :
    (row.submit salt).holds provider ≤ row.holds provider := by
  have flying := sound.inFlight_of_needsBroadcast needs
  rw [ChainSettlement.holds_of_ne_failed (ne_failed_of_inFlight flying)]
  exact (row.submit salt).holds_le provider

theorem RowSound.holds_conclude (sound : RowSound providers chain row)
    (mem : entry ∈ chain.mined) (hashed : row.txHash = some entry.tx) (provider : Uuid) :
    (row.conclude entry).holds provider ≤ row.holds provider := by
  obtain ⟨nonce, _⟩ := sound.hash entry.tx hashed
  unfold ChainSettlement.conclude
  split_ifs with ok
  · rw [ChainSettlement.holds_of_ne_failed (sound.ne_failed mem nonce ok)]
    exact ChainSettlement.holds_le _ provider
  · simp [ChainSettlement.holds, TxStatus.live]

end

structure Sound (settings : EngineSettings) (chain : ChainState)
    (ledger : Ledger) (tables : Tables) : Prop where
  ids : tables.map ChainSettlement.id = List.range tables.length
  nonces : (tables.map ChainSettlement.nonce).Nodup
  rows : ∀ row ∈ tables, RowSound settings.providers chain row
  reserved : ∀ provider ∈ settings.providers.rows, (reservedByProvider tables provider.id : Int) ≤
      wholeUnits settings.usdcDecimals (earnedByProvider ledger provider.id)

theorem wholeUnits_mono (decimals : Nat) {low high : Int}
    (less : low ≤ high) : wholeUnits decimals low ≤ wholeUnits decimals high := by
  apply Int.ediv_le_ediv (by norm_num)
  exact mul_le_mul_of_nonneg_right less (by positivity)

section

variable {settings : EngineSettings} {chain next : ChainState}
  {ledger : Ledger} {tables : Tables} {row : ChainSettlement}

theorem Sound.mono (sound : Sound settings chain ledger tables) (preserves : Preserves chain next) :
    Sound settings next ledger tables :=
  ⟨sound.ids, sound.nonces, fun row mem => (sound.rows row mem).mono preserves, sound.reserved⟩

theorem Sound.post {posted : Ledger} (sound : Sound settings chain ledger tables)
    (credits : ∀ provider, 0 ≤ earnedByProvider posted provider) :
    Sound settings chain (ledger ++ posted) tables := by
  refine ⟨sound.ids, sound.nonces, sound.rows, ?_⟩
  intro provider known
  refine le_trans (sound.reserved provider known) (wholeUnits_mono _ ?_)
  have more := credits provider.id
  unfold earnedByProvider at more ⊢
  rw [accountBalance_append]
  omega

theorem map_updateRow {Value : Type} {fact : ChainSettlement → Value} (tables : Tables) (id : Uuid)
    {change : ChainSettlement → ChainSettlement} (same : ∀ row, fact (change row) = fact row) :
    (updateRow tables id change).map fact = tables.map fact := by
  simp only [updateRow, KeyedRows.update, map_map]
  apply map_congr_left
  intro row _
  simp only [Function.comp_apply]
  split_ifs
  · exact same row
  · rfl

theorem mem_updateRow {id : Uuid} {change : ChainSettlement → ChainSettlement}
    (mem : row ∈ updateRow tables id change) :
    (row ∈ tables ∧ row.id ≠ id) ∨ ∃ old ∈ tables, old.id = id ∧ row = change old := by
  obtain ⟨old, oldMember, rfl⟩ := mem_map.mp mem
  by_cases own : old.id = id
  · exact Or.inr ⟨old, oldMember, own, by simp [own]⟩
  · refine Or.inl ?_
    simp only [own]
    exact ⟨oldMember, own⟩

theorem ids_of_identity {left right : Tables}
    (same : left.map ChainSettlement.identity = right.map ChainSettlement.identity) :
    left.map ChainSettlement.id = right.map ChainSettlement.id ∧
      left.map ChainSettlement.nonce = right.map ChainSettlement.nonce := by
  have ids := congrArg (List.map fun part : Uuid × Nat × Call => part.1) same
  have nonces := congrArg (List.map fun part : Uuid × Nat × Call => part.2.1) same
  simp only [map_map] at ids nonces
  exact ⟨ids, nonces⟩

theorem Sound.update (sound : Sound settings chain ledger tables) (id : Uuid)
    {change : ChainSettlement → ChainSettlement}
    (same : ∀ row, (change row).identity = row.identity)
    (rows : ∀ row ∈ tables, row.id = id → RowSound settings.providers chain (change row) ∧
      ∀ provider, (change row).holds provider ≤ row.holds provider) :
    Sound settings chain ledger (updateRow tables id change) := by
  have identity := map_updateRow tables id same
  obtain ⟨ids, nonces⟩ := ids_of_identity identity
  have length : (updateRow tables id change).length = tables.length := by
    simp [updateRow, KeyedRows.update]
  refine ⟨?_, ?_, ?_, ?_⟩
  · rw [ids, sound.ids, length]
  · rw [nonces]
    exact sound.nonces
  · intro row mem
    rcases mem_updateRow mem with ⟨old, _⟩ | ⟨old, oldMember, own, rfl⟩
    · exact sound.rows row old
    · exact (rows old oldMember own).1
  · intro provider known
    refine le_trans ?_ (sound.reserved provider known)
    rw [reservedByProvider_eq, reservedByProvider_eq]
    simp only [updateRow, KeyedRows.update, map_map]
    refine Int.ofNat_le.mpr (sum_le_sum ?_)
    intro row mem
    simp only [Function.comp_apply]
    split_ifs with own
    · exact (rows row mem own).2 provider.id
    · exact le_refl _

theorem Sound.append (sound : Sound settings chain ledger tables) (id : row.id = tables.length)
    (pending : row.status = .pending) (unsent : row.txHash = none)
    (later : ∀ old ∈ tables, old.nonce < row.nonce)
    (legs : ∀ provider ∈ settings.providers.rows,
      row.call.pays provider.walletAddress = row.reserves provider.id)
    (covered : ∀ provider ∈ settings.providers.rows,
      ((reservedByProvider tables provider.id + row.reserves provider.id :
      Nat) : Int) ≤ wholeUnits settings.usdcDecimals (earnedByProvider ledger provider.id)) :
    Sound settings chain ledger (tables ++ [row]) := by
  refine ⟨?_, ?_, ?_, ?_⟩
  · rw [map_append, sound.ids, length_append, length_singleton, range_succ, map_singleton, id]
  · rw [map_append, nodup_append]
    refine ⟨sound.nonces, by simp, ?_⟩
    intro _ mem _ single _
    obtain ⟨old, oldMember, rfl⟩ := mem_map.mp mem
    rw [map_singleton, mem_singleton] at single
    have less := later old oldMember
    omega
  · intro other mem
    rcases mem_append.mp mem with old | new
    · exact sound.rows other old
    · rw [mem_singleton.mp new]
      refine ⟨fun _ => legs, ?_, ?_, ?_, ?_⟩
      · intro _ hashed
        rw [unsent] at hashed
        cases hashed
      · intro landed
        rw [pending] at landed
        cases landed
      · intro status
        rw [pending] at status
        cases status
      · intro status
        rw [pending] at status
        cases status
  · intro provider known
    have alive : row.status ≠ .failed := by
      rw [pending]
      exact TxStatus.noConfusion
    rw [reservedByProvider_eq, map_append, sum_append, ← reservedByProvider_eq, map_singleton,
      ChainSettlement.holds_of_ne_failed alive]
    exact covered provider known

theorem Sound.appendUnpaid (sound : Sound settings chain ledger tables)
    (id : row.id = tables.length) (pending : row.status = .pending) (unsent : row.txHash = none)
    (later : ∀ old ∈ tables, old.nonce < row.nonce) (unreserved : row.reservations = [])
    (unpaid : ∀ wallet, row.call.pays wallet = 0) :
    Sound settings chain ledger (tables ++ [row]) := by
  have nothing : ∀ provider, row.reserves provider = 0 := by
    simp [ChainSettlement.reserves, unreserved]
  refine sound.append id pending unsent later ?_ ?_
  · intro _ _
    rw [unpaid, nothing]
  · intro provider known
    rw [nothing]
    exact sound.reserved provider known

theorem insert_ok {moved : Tables}
    (ok : insert tables row = .ok moved) : moved = tables ++ [row] := by
  unfold insert at ok
  split_ifs at ok
  cases ok
  rfl

theorem lt_reserveBaseNonce (chainNonce : Nat) (mem : row ∈ tables) :
    row.nonce < reserveBaseNonce chainNonce tables := by
  have grows : ∀ (rows : Tables) (base : Nat),
      base ≤ rows.foldl (fun base row => max base (row.nonce + 1)) base := by
    intro rows
    induction rows with
    | nil => exact fun base => le_refl base
    | cons _ _ ih =>
      intro _
      exact le_trans (le_max_left _ _) (ih _)
  induction tables generalizing chainNonce with
  | nil => cases mem
  | cons _ rest ih =>
    rcases mem_cons.mp mem with rfl | inRest
    · exact lt_of_lt_of_le (lt_of_lt_of_le (Nat.lt_succ_self _) (le_max_right _ _)) (grows rest _)
    · exact ih _ inRest

end

section

variable {settings : EngineSettings} {chain : ChainState} {ledger : Ledger}
  {tables : Tables} {provider : ProviderAccount} {draft : Tables} {nonce : Nat}
  {readings : Readings} {force : Bool} {lastBatchAt moved : Option Int}

theorem mem_providers_of_unsettled {payout : ProviderAccount × Nat}
    (mem : payout ∈ unsettled settings ledger tables) :
    payout.1 ∈ settings.providers.rows := by
  obtain ⟨listed, _⟩ := mem_filter.mp mem
  obtain ⟨_, sorted, rfl⟩ := mem_map.mp listed
  exact (perm_insertionSort _ _).mem_iff.mp sorted

theorem batch_legs {payouts : List (ProviderAccount × Nat)}
    (known : ∀ payout ∈ payouts, payout.1 ∈ settings.providers.rows) {provider : ProviderAccount}
    (mem : provider ∈ settings.providers.rows) :
    ((payouts.map fun payout =>
        (payout.1.walletAddress, payout.2)).filter fun payee =>
          payee.1 = provider.walletAddress).map Prod.snd =
      ((payouts.map fun payout => (payout.1.id, payout.2)).filter fun leg =>
        leg.1 = provider.id).map Prod.snd := by
  rw [filter_map, filter_map, map_map, map_map]
  have same : ∀ payout ∈ payouts, (payout.1.walletAddress = provider.walletAddress ↔
        payout.1.id = provider.id) := by
    intro payout listed
    constructor
    · intro wallet
      rw [inj_on_of_nodup_map settings.providers.wallets (known payout listed) mem wallet]
    · intro id
      rw [inj_on_of_nodup_map settings.providers.ids (known payout listed) mem id]
  congr 1
  apply filter_congr
  intro payout listed
  simpa using same payout listed

theorem unsettled_reserves {provider : ProviderAccount} (mem : provider ∈ settings.providers.rows) :
    ((((unsettled settings ledger tables).map fun payout =>
        (payout.1.id, payout.2)).filter fun leg =>
          leg.1 = provider.id).map Prod.snd).sum =
      (unsettledUnits settings ledger tables provider.id).toNat := by
  rw [filter_map, map_map, KeyedRows.sum_filter]
  unfold unsettled
  rw [KeyedRows.sum_filter, map_map]
  have sorted := perm_insertionSort (fun left right : ProviderAccount => left.id ≤ right.id)
    settings.providers.rows
  rw [(sorted.map _).sum_eq]
  have single := KeyedRows.sum_single (fun other : ProviderAccount =>
      (unsettledUnits settings ledger tables other.id).toNat)
    settings.providers.ids mem
  rw [← single]
  congr 1
  apply map_congr_left
  intro _ _
  simp only [Function.comp_apply, decide_eq_true_eq]
  split_ifs <;> omega

theorem Sound.reserved_add_unsettled (sound : Sound settings chain ledger tables)
    (mem : provider ∈ settings.providers.rows)
    (nonneg : 0 ≤ earnedByProvider ledger provider.id) :
    ((reservedByProvider tables provider.id +
      (unsettledUnits settings ledger tables provider.id).toNat : Nat) :
        Int) = wholeUnits settings.usdcDecimals (earnedByProvider ledger provider.id) := by
  have bound := sound.reserved provider mem
  unfold unsettledUnits
  dsimp only
  split_ifs
  · omega
  · have zero : earnedByProvider ledger provider.id = 0 := by omega
    rw [zero] at bound ⊢
    simp only [wholeUnits] at bound ⊢
    omega

structure Recorded (settings : EngineSettings) (chain : ChainState)
    (ledger : Ledger) (tables draft : Tables) : Prop where
  sound : Sound settings chain ledger draft
  extended : tables <+: draft
  pending : ∀ row ∈ draft, row ∈ tables ∨ row.status = .pending ∧ row.txHash = none

theorem Recorded.nothing (sound : Sound settings chain ledger tables) :
    Recorded settings chain ledger tables tables :=
  ⟨sound, prefix_refl _, fun _ mem => Or.inl mem⟩

theorem Recorded.append {row : ChainSettlement}
    (recorded : Recorded settings chain ledger tables draft)
    (sound : Sound settings chain ledger (draft ++ [row]))
    (pending : row.status = .pending) (unsent : row.txHash = none) :
    Recorded settings chain ledger tables (draft ++ [row]) := by
  refine ⟨sound, recorded.extended.trans (prefix_append _ _), ?_⟩
  intro other mem
  rcases mem_append.mp mem with old | new
  · exact recorded.pending other old
  · rw [mem_singleton.mp new]
    exact Or.inr ⟨pending, unsent⟩

theorem insertDeposit_sound {shortfall cycle : Nat} {funded : Tables}
    (ok : insertDeposit shortfall cycle nonce tables = .ok funded)
    (sound : Sound settings chain ledger tables) (later : ∀ old ∈ tables, old.nonce < nonce) :
    Recorded settings chain ledger tables funded ∧ (∀ provider, reservedByProvider funded provider =
        reservedByProvider tables provider) ∧
      ∀ old ∈ funded, old.nonce < nonce + if 0 < shortfall then 1 else 0 := by
  unfold insertDeposit at ok
  split_ifs at ok with short
  · cases insert_ok ok
    refine ⟨?_, ?_, ?_⟩
    · exact (Recorded.nothing sound).append
        (sound.appendUnpaid rfl rfl rfl later rfl fun _ => rfl) rfl rfl
    · intro _
      rw [reservedByProvider_eq, map_append, sum_append, ← reservedByProvider_eq]
      rfl
    · intro old mem
      rw [if_pos short]
      rcases mem_append.mp mem with earlier | new
      · exact Nat.lt_succ_of_lt (later old earlier)
      · rw [mem_singleton.mp new]
        exact Nat.lt_succ_self _
  · cases ok
    rw [if_neg short]
    exact ⟨Recorded.nothing sound, fun _ => rfl, later⟩

theorem recordBatch_sound
    (ok : recordBatch (unsettled settings ledger tables) readings tables = .ok draft)
    (sound : Sound settings chain ledger tables)
    (nonneg : ∀ provider, 0 ≤ earnedByProvider ledger provider) :
    Recorded settings chain ledger tables draft ∧ ∀ provider ∈ settings.providers.rows,
        (reservedByProvider draft provider.id : Int) = wholeUnits settings.usdcDecimals
            (earnedByProvider ledger provider.id) := by
  unfold recordBatch at ok
  obtain ⟨funded, deposit, ok⟩ := bind_eq_ok.mp ok
  cases insert_ok ok
  obtain ⟨recorded, reserved, later⟩ := insertDeposit_sound deposit sound fun old mem =>
      lt_reserveBaseNonce readings.chainNonce mem
  have total : ∀ provider ∈ settings.providers.rows, ((reservedByProvider funded provider.id +
        (unsettledUnits settings ledger tables provider.id).toNat : Nat) :
          Int) = wholeUnits settings.usdcDecimals (earnedByProvider ledger provider.id) := by
    intro provider mem
    rw [reserved]
    exact sound.reserved_add_unsettled mem (nonneg provider.id)
  refine ⟨recorded.append ?_ rfl rfl, ?_⟩
  · refine recorded.sound.append rfl rfl rfl later ?_ ?_
    · intro provider mem
      have legs := @batch_legs settings (unsettled settings ledger tables)
        (fun _ listed => mem_providers_of_unsettled listed) provider mem
      exact congrArg List.sum legs
    · intro provider mem
      rw [← total provider mem]
      have reserves := @unsettled_reserves settings ledger tables _ mem
      exact le_of_eq (congrArg (fun units : Nat =>
        ((reservedByProvider funded provider.id + units : Nat) : Int)) reserves)
  · intro provider mem
    rw [← total provider mem]
    have reserves := @unsettled_reserves settings ledger tables _ mem
    rw [reservedByProvider_eq, map_append, sum_append, ← reservedByProvider_eq, map_singleton]
    exact congrArg (fun units : Nat =>
      ((reservedByProvider funded provider.id + units : Nat) : Int)) reserves

theorem maybeBatch_recorded
    (ok : maybeBatch settings force lastBatchAt readings ledger tables = .ok (draft, moved))
    (sound : Sound settings chain ledger tables)
    (nonneg : ∀ provider, 0 ≤ earnedByProvider ledger provider) :
    Recorded settings chain ledger tables draft := by
  unfold maybeBatch at ok
  split_ifs at ok
  · obtain ⟨_, records, ok⟩ := bind_eq_ok.mp ok
    cases ok
    exact (recordBatch_sound records sound nonneg).1
  · cases ok
    exact Recorded.nothing sound

theorem maybeBatch_forced
    (ok : maybeBatch settings true lastBatchAt readings ledger tables = .ok (draft, moved))
    (sound : Sound settings chain ledger tables)
    (nonneg : ∀ provider, 0 ≤ earnedByProvider ledger provider) (quiet : inFlight tables = 0)
    (mem : provider ∈ settings.providers.rows) :
    (reservedByProvider draft provider.id : Int) = wholeUnits settings.usdcDecimals
        (earnedByProvider ledger provider.id) := by
  unfold maybeBatch at ok
  split_ifs at ok with due
  · obtain ⟨_, records, ok⟩ := bind_eq_ok.mp ok
    cases ok
    exact (recordBatch_sound records sound nonneg).2 provider mem
  · -- nothing is unsettled
    cases ok
    have empty : totalUnits (unsettled settings ledger tables) = 0 := by
      simpa [batchDue, quiet] using due
    have none : unsettled settings ledger tables = [] := by
      rw [eq_nil_iff_forall_not_mem]
      intro payout listed
      have positive := (mem_filter.mp listed).2
      have bounded := single_le_sum (fun _ _ => Nat.zero_le _) payout.2
        (mem_map_of_mem (f := Prod.snd) listed)
      simp only [decide_eq_true_eq] at positive
      unfold totalUnits at empty
      omega
    have reserves := @unsettled_reserves settings ledger tables _ mem
    rw [none] at reserves
    have total := sound.reserved_add_unsettled mem (nonneg provider.id)
    rw [← reserves] at total
    exact total

theorem recordDebits_recorded {owing : List Developer} {base current : Tables}
    (ok : recordDebits settings ledger base owing nonce current = .ok draft)
    (recorded : Recorded settings chain ledger tables current)
    (later : ∀ old ∈ current, old.nonce < nonce) :
    Recorded settings chain ledger tables draft := by
  induction owing generalizing nonce current with
  | nil =>
    cases ok
    exact recorded
  | cons _ _ ih =>
    rw [recordDebits, bind_eq_ok] at ok
    obtain ⟨_, inserted, ok⟩ := ok
    cases insert_ok inserted
    refine ih ok (recorded.append (recorded.sound.appendUnpaid rfl rfl rfl later rfl fun _ => rfl)
      rfl rfl) ?_
    intro old mem
    rcases mem_append.mp mem with earlier | new
    · exact Nat.lt_succ_of_lt (later old earlier)
    · rw [mem_singleton.mp new]
      exact Nat.lt_succ_self _

theorem maybeDebit_recorded
    (ok : maybeDebit settings force lastBatchAt readings ledger tables = .ok draft)
    (sound : Sound settings chain ledger tables) :
    Recorded settings chain ledger tables draft := by
  unfold maybeDebit at ok
  split_ifs at ok
  · cases ok
    exact Recorded.nothing sound
  · exact recordDebits_recorded ok (Recorded.nothing sound)
      fun old mem => lt_reserveBaseNonce readings.chainNonce mem
  · cases ok
    exact Recorded.nothing sound

end

end Gridix.Settlement
