import Gridix.Chain.Debits

/-!
# What debits cover

The key of a debit row is the developer and the cumulative units settled when
it was recorded.  As long as no row fails, the debits of a developer add up to
at least the units of each of its keys.
-/

namespace Gridix.Settlement

open List

def ChainSettlement.record (row : ChainSettlement) : BatchKey × Call := (row.batchKey, row.call)

def debitedTotal (tables : Tables) (wallet : Address) : Nat :=
  (tables.map fun row => row.call.debits wallet).sum

/-- The rows of a developer debit at least the units of each of its keys. -/
def Covered (settings : EngineSettings) (tables : Tables) : Prop :=
  ∀ developer ∈ settings.developers.rows, ∀ wallet,
    developer.walletAddress = some wallet → ∀ row ∈ tables, ∀ units,
      row.batchKey = .debit developer.id units → units ≤ debitedTotal tables wallet

section

variable {settings : EngineSettings} {ledger : Ledger} {tables : Tables} {left right draft : Tables}
  {nonce : Nat}

theorem debitedTotal_append (left right : Tables) (wallet : Address) :
    debitedTotal (left ++ right) wallet = debitedTotal left wallet + debitedTotal right wallet := by
  simp [debitedTotal]

theorem debitedTotal_congr
    (same : left.map ChainSettlement.record = right.map ChainSettlement.record) (wallet : Address) :
    debitedTotal left wallet = debitedTotal right wallet := by
  have sums := congrArg (List.map fun record : BatchKey × Call =>
    record.2.debits wallet) same
  rw [map_map, map_map] at sums
  exact congrArg List.sum sums

theorem onchainDebitedByDev_le (tables : Tables) (wallet : Address) :
    onchainDebitedByDev tables wallet ≤ debitedTotal tables wallet :=
  (filter_sublist.map _).sum_le_sum (by simp)

theorem onchainDebitedByDev_of_live
    (live : ∀ row ∈ tables, row.status.live = true) (wallet : Address) :
    onchainDebitedByDev tables wallet = debitedTotal tables wallet := by
  unfold onchainDebitedByDev debitedTotal
  rw [filter_eq_self.mpr live]

theorem Covered.congr (covered : Covered settings left) (same : left.map ChainSettlement.record =
      right.map ChainSettlement.record) : Covered settings right := by
  intro developer known wallet owns _ mem units key
  rw [← debitedTotal_congr same]
  have listed := mem_map_of_mem (f := ChainSettlement.record) mem
  rw [← same] at listed
  obtain ⟨other, here, record⟩ := mem_map.mp listed
  refine covered developer known wallet owns other here units ?_
  rw [← key]
  exact congrArg Prod.fst record

theorem Covered.append (covered : Covered settings tables) {tail : Tables}
    (own : ∀ developer ∈ settings.developers.rows, ∀ wallet,
      developer.walletAddress = some wallet → ∀ row ∈ tail, ∀ units,
      row.batchKey = .debit developer.id units → units ≤ debitedTotal (tables ++ tail) wallet) :
    Covered settings (tables ++ tail) := by
  intro developer known wallet owns row mem units key
  rcases mem_append.mp mem with old | new
  · have before := covered developer known wallet owns row old units key
    rw [debitedTotal_append]
    omega
  · exact own developer known wallet owns row new units key

theorem Covered.keysFree (covered : Covered settings tables)
    (live : ∀ row ∈ tables, row.status.live = true) :
    KeysFree settings ledger tables := by
  intro developer known owes row mem key
  unfold owed at owes
  cases wallet : developer.walletAddress with
  | none =>
    rw [wallet] at owes
    cases owes
  | some address =>
    rw [wallet] at owes
    have bound := covered developer known address wallet row mem _ key
    rw [← onchainDebitedByDev_of_live live] at bound
    dsimp only at owes
    omega

theorem recordDebits_rows {owing : List Developer} {current : Tables}
    (ok : recordDebits settings ledger tables owing nonce current = .ok draft) :
    ∃ tail, draft = current ++ tail ∧ ∀ row ∈ tail,
      ∃ developer ∈ owing, row.batchKey = debitKey settings ledger developer ∧
        row.call = debitCall settings ledger tables developer := by
  induction owing generalizing nonce current with
  | nil =>
    cases ok
    exact ⟨[], by simp, by simp⟩
  | cons developer _ ih =>
    rw [recordDebits, Serial.bind_eq_ok] at ok
    obtain ⟨_, inserted, ok⟩ := ok
    cases insert_ok inserted
    obtain ⟨tail, rfl, rows⟩ := ih ok
    refine ⟨debitRow settings ledger tables current nonce developer :: tail,
      by simp, ?_⟩
    intro row mem
    rcases mem_cons.mp mem with rfl | later
    · exact ⟨developer, mem_cons_self, rfl, rfl⟩
    · obtain ⟨other, listed, facts⟩ := rows row later
      exact ⟨other, mem_cons_of_mem _ listed, facts⟩

theorem Covered.recordDebits (covered : Covered settings tables)
    (live : ∀ row ∈ tables, row.status.live = true)
    (ok : Settlement.recordDebits settings ledger tables
      (debtors settings ledger tables) nonce tables = .ok draft) :
    Covered settings draft := by
  obtain ⟨tail, rfl, rows⟩ := recordDebits_rows ok
  refine covered.append ?_
  intro _ known wallet owns row mem _ key
  obtain ⟨debtor, owing, ownKey, call⟩ := rows row mem
  obtain ⟨debtorKnown, _⟩ := mem_debtors.mp owing
  rw [ownKey] at key
  obtain ⟨same, rfl⟩ := BatchKey.debit.inj key
  have identical := inj_on_of_nodup_map settings.developers.ids debtorKnown known same
  subst identical
  have debits : row.call.debits wallet = (owed settings ledger tables debtor).toNat := by
    rw [call, debitCall, owns]
    simp [Call.debits]
  have included : row.call.debits wallet ≤ debitedTotal tail wallet :=
    le_sum_of_mem (mem_map_of_mem mem)
  have amount : owed settings ledger tables debtor = settledUnitsByDev settings ledger debtor.id -
        debitedTotal tables wallet := by
    rw [← onchainDebitedByDev_of_live live, owed, owns]
  rw [debitedTotal_append]
  omega

structure NotDebit (row : ChainSettlement) : Prop where
  key : ∀ developer units, row.batchKey ≠ .debit developer units
  call : ∀ wallet, row.call.debits wallet = 0

def PayoutRows (tail : Tables) : Prop := ∀ row ∈ tail, row.status = .pending ∧ NotDebit row

theorem recordBatch_rows {payouts : List (ProviderAccount × Nat)} {readings : Readings}
    (ok : recordBatch payouts readings tables = .ok draft) :
    ∃ tail, draft = tables ++ tail ∧ PayoutRows tail ∧ tail ≠ [] := by
  unfold recordBatch at ok
  rw [Serial.bind_eq_ok] at ok
  obtain ⟨funded, deposit, ok⟩ := ok
  obtain ⟨first, rfl, payout⟩ : ∃ tail, funded = tables ++ tail ∧ PayoutRows tail := by
    unfold insertDeposit at deposit
    split_ifs at deposit
    · refine ⟨_, insert_ok deposit, ?_⟩
      intro _ mem
      rw [mem_singleton.mp mem]
      exact ⟨rfl, fun _ _ => BatchKey.noConfusion, fun _ => rfl⟩
    · cases deposit
      exact ⟨[], by simp, fun _ mem => by cases mem⟩
  refine ⟨_, (insert_ok ok).trans (append_assoc _ _ _), ?_, by simp⟩
  intro row mem
  rcases mem_append.mp mem with old | new
  · exact payout row old
  · rw [mem_singleton.mp new]
    exact ⟨rfl, fun _ _ => BatchKey.noConfusion, fun _ => rfl⟩

end

end Gridix.Settlement
