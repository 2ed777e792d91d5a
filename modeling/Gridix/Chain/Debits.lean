import Gridix.Chain.Payouts

/-!
# Debits of developers

What a developer's jobs consumed is debited on-chain by rows whose key is the
developer and the cumulative units settled.  A debit that reverted leaves its
row behind, so the retry at the same cumulative units meets the unique
constraint, raises, and takes the debits of everybody else with it.
-/

namespace Gridix.Settlement

open List

section

variable {settings : EngineSettings} {ledger : Ledger} {tables : Tables} {row : ChainSettlement}
  {owing : List Developer} {current : Tables}

def debitKey (settings : EngineSettings) (ledger : Ledger) (developer : Developer) : BatchKey :=
  .debit developer.id (settledUnitsByDev settings ledger developer.id)

def debitCall (settings : EngineSettings) (ledger : Ledger) (tables : Tables)
    (developer : Developer) : Call :=
  .debit (developer.walletAddress.getD 0) (owed settings ledger tables developer).toNat

theorem insert_of_fresh (fresh : ∀ other ∈ tables, other.batchKey ≠ row.batchKey) :
    insert tables row = .ok (tables ++ [row]) := by
  unfold insert
  rw [if_neg]
  intro taken
  obtain ⟨other, mem, same⟩ := any_eq_true.mp taken
  exact fresh other mem (by simpa using same)

theorem insert_fresh {moved : Tables} (ok : insert tables row = .ok moved) :
    ∀ other ∈ tables, other.batchKey ≠ row.batchKey := by
  intro other mem same
  unfold insert at ok
  have taken : (tables.any fun other =>
      decide (other.batchKey = row.batchKey)) = true :=
    any_eq_true.mpr ⟨other, mem, by simpa using same⟩
  rw [if_pos taken] at ok
  cases ok

theorem id_eq_of_debitKey {left right : Developer}
    (same : debitKey settings ledger left = debitKey settings ledger right) :
    left.id = right.id :=
  (BatchKey.debit.inj same).1

theorem recordDebits_of_fresh (nonce : Nat) (distinct : (owing.map Developer.id).Nodup)
    (fresh : ∀ developer ∈ owing, ∀ row ∈ current,
      row.batchKey ≠ debitKey settings ledger developer) :
    ∃ draft, recordDebits settings ledger tables owing nonce current = .ok draft := by
  induction owing generalizing nonce current with
  | nil => exact ⟨current, rfl⟩
  | cons developer rest ih =>
    rw [map_cons, nodup_cons] at distinct
    have inserted : insert current (debitRow settings ledger tables current nonce developer) = _ :=
      insert_of_fresh (fresh developer mem_cons_self)
    have onward : ∀ other ∈ rest, ∀ row ∈ current ++
        [debitRow settings ledger tables current nonce developer],
        row.batchKey ≠ debitKey settings ledger other := by
      intro other mem row here
      rcases mem_append.mp here with old | new
      · exact fresh other (mem_cons_of_mem _ mem) row old
      · rw [mem_singleton.mp new]
        intro same
        apply distinct.1
        rw [id_eq_of_debitKey same]
        exact mem_map_of_mem mem
    obtain ⟨draft, recorded⟩ := ih (nonce + 1) distinct.2 onward
    refine ⟨draft, ?_⟩
    rw [recordDebits, inserted]
    exact recorded

theorem recordDebits_ok {nonce : Nat} {draft : Tables}
    (ok : recordDebits settings ledger tables owing nonce current = .ok draft) :
    current <+: draft ∧ ∀ developer ∈ owing,
      (∀ row ∈ current, row.batchKey ≠ debitKey settings ledger developer) ∧
      ∃ row ∈ draft.drop current.length, row.status = .pending ∧
        row.batchKey = debitKey settings ledger developer ∧
        row.call = debitCall settings ledger tables developer := by
  induction owing generalizing nonce current with
  | nil =>
    cases ok
    exact ⟨prefix_refl _, by simp⟩
  | cons developer _ ih =>
    rw [recordDebits, Serial.bind_eq_ok] at ok
    obtain ⟨_, inserted, ok⟩ := ok
    have free := insert_fresh inserted
    cases insert_ok inserted
    obtain ⟨extended, others⟩ := ih ok
    obtain ⟨tail, rfl⟩ := extended
    have drops : (current ++ [debitRow settings ledger tables current nonce developer] ++
          tail).drop current.length =
        debitRow settings ledger tables current nonce developer :: tail := by
      rw [append_assoc, drop_left, singleton_append]
    refine ⟨?_, ?_⟩
    · rw [append_assoc]
      exact prefix_append _ _
    · intro other mem
      rw [drops]
      rcases mem_cons.mp mem with rfl | later
      · exact ⟨free, _, mem_cons_self, rfl, rfl, rfl⟩
      · obtain ⟨otherFree, row, here, facts⟩ := others other later
        refine ⟨fun old oldMember =>
          otherFree old (mem_append_left _ oldMember), row, ?_, facts⟩
        rw [drop_left] at here
        exact mem_cons_of_mem _ here

theorem mem_debtors {developer : Developer} : developer ∈ debtors settings ledger tables ↔
      developer ∈ settings.developers.rows ∧ 0 < owed settings ledger tables developer := by
  unfold debtors
  simp

theorem debtors_nodup : ((debtors settings ledger tables).map Developer.id).Nodup := by
  refine List.Nodup.sublist (filter_sublist.map _) ?_
  rw [((perm_insertionSort _ _).map _).nodup_iff]
  exact settings.developers.ids

end

/-- Every developer that owes has a new debit row for all of it. -/
def DebitsEveryDebtor (settings : EngineSettings) (ledger : Ledger)
    (tables draft : Tables) : Prop :=
  ∀ developer ∈ settings.developers.rows, 0 < owed settings ledger tables developer →
      ∃ row ∈ draft.drop tables.length, row.status = .pending ∧
        row.call = debitCall settings ledger tables developer

/-- No stored row, failed ones included, has the key under which a debtor
would be debited. -/
def KeysFree (settings : EngineSettings) (ledger : Ledger) (tables : Tables) : Prop :=
  ∀ developer ∈ settings.developers.rows, 0 < owed settings ledger tables developer →
      ∀ row ∈ tables, row.batchKey ≠ debitKey settings ledger developer

/-- With nothing in flight, a due debit pass records every debtor, without
raising, exactly when no debtor's key is taken. -/
theorem maybeDebit_retries_iff (settings : EngineSettings) {force : Bool} {lastBatchAt : Option Int}
    (readings : Readings) (ledger : Ledger) {tables : Tables} (quiet : inFlight tables = 0)
    (due : (force || intervalElapsed settings lastBatchAt readings.now) = true) :
    (∃ draft, maybeDebit settings force lastBatchAt readings ledger tables =
        .ok draft ∧ DebitsEveryDebtor settings ledger tables draft) ↔
      KeysFree settings ledger tables := by
  have pass : maybeDebit settings force lastBatchAt readings ledger tables =
      recordDebits settings ledger tables (debtors settings ledger tables)
        (reserveBaseNonce readings.chainNonce tables) tables := by
    unfold maybeDebit
    rw [if_neg (by omega), if_pos due]
  rw [pass]
  constructor
  · rintro ⟨_, success, _⟩ developer known owes
    exact ((recordDebits_ok success).2 developer (mem_debtors.mpr ⟨known, owes⟩)).1
  · intro free
    obtain ⟨draft, success⟩ := recordDebits_of_fresh
      (reserveBaseNonce readings.chainNonce tables) debtors_nodup
      (fun developer member => free developer (mem_debtors.mp member).1 (mem_debtors.mp member).2)
    refine ⟨draft, success, ?_⟩
    intro developer known owes
    obtain ⟨_, row, present, pending, _, call⟩ :=
      (recordDebits_ok success).2 developer (mem_debtors.mpr ⟨known, owes⟩)
    exact ⟨row, present, pending, call⟩

def debitSettings : EngineSettings :=
  { usdcDecimals := 6, confirmations := 1, thresholdUnits := 100
    interval := 10
    providers := ⟨[], by decide, by decide⟩
    developers := ⟨[⟨1, some 10⟩, ⟨2, some 20⟩], by decide, by decide⟩ }

def consumed (developer : Uuid) (units : Int) : LedgerGroup :=
  ⟨transferPostings .escrow (some developer) .protocol none (units * 100), .settle, some 1, none⟩

def consumedWorld : World :=
  { chain := .fresh 7, tables := []
    ledger := [consumed 1 5], control := .idle, lastBatchAt := none }

/-- The debit of developer 1 is recorded, broadcast and reverted, the next
tick notices, and developer 2 consumes three units. -/
def revertedDebit : World := Serial.run (step debitSettings)
    ([.tick false] ++ List.replicate 9 (.engine plainInput) ++
      [.mine [(⟨0, .debit 10 5, 0⟩, false)], .tick false] ++
      List.replicate 2 (.engine plainInput) ++ [.post [consumed 2 3]])
    consumedWorld

/-- Developer 1 consumes two units more, so its next debit has another key
than the reverted one. -/
theorem maybeDebit_retries_iff_consumedMore : ∃ draft,
    maybeDebit debitSettings true revertedDebit.lastBatchAt ⟨0, 0, 0⟩
        (revertedDebit.ledger ++ [consumed 1 2]) revertedDebit.tables = .ok draft ∧
      DebitsEveryDebtor debitSettings (revertedDebit.ledger ++ [consumed 1 2])
        revertedDebit.tables draft :=
  (maybeDebit_retries_iff debitSettings _ _ (by decide +kernel) rfl).mpr (by
    unfold KeysFree
    decide +kernel)

theorem reverted_debit_blocks : inFlight revertedDebit.tables = 0 ∧
      (revertedDebit.tables.map ChainSettlement.status) = [.failed] ∧
      owed debitSettings revertedDebit.ledger revertedDebit.tables ⟨1, some 10⟩ = 5 ∧
      owed debitSettings revertedDebit.ledger revertedDebit.tables ⟨2, some 20⟩ = 3 ∧
      maybeDebit debitSettings true revertedDebit.lastBatchAt ⟨0, 0, 0⟩
        revertedDebit.ledger revertedDebit.tables = .error (.duplicateKey (.debit 1 5)) := by
  decide +kernel

end Gridix.Settlement
