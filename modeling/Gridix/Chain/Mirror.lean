import Gridix.Chain.Watcher

/-!
# The store mirrors the chain

Between two ticks the rows below the trailing window are right already; a
tick drops the orphans of the window and scans it again.  So the store is the
canonical chain after every tick, unless the log of an orphaned row is mined
again: the deduplication still sees the row whose deletion is pending, skips
the log, and the flush then removes the row.
-/

namespace Gridix.Watcher

open List Serial

variable {network : Network} {moved : Session} {settings : WatcherSettings} {world : World network}
  {chain : Chain network} {session : Session}

def OnChain (chain : Chain network) (log : ChainLog) : Prop :=
  chain.getBlock log.blockNumber = some log.blockHash ∧ log.toLogEntry ∈ network.logs log.blockHash

theorem mem_logsAt {blocks : List String} {number : Nat} {log : ChainLog} :
    log ∈ logsAt network blocks number ↔
      log.blockNumber = number ∧ blocks[number]? = some log.blockHash ∧
        log.toLogEntry ∈ network.logs log.blockHash := by
  unfold logsAt
  cases block : blocks[number]? with
  | none => simp
  | some =>
    simp only [mem_map, Option.some.injEq]
    constructor
    · rintro ⟨_, mem, rfl⟩
      exact ⟨rfl, rfl, mem⟩
    · rintro ⟨rfl, rfl, mem⟩
      exact ⟨log.toLogEntry, mem, rfl⟩

theorem mem_getLogs {fromBlock toBlock : Nat} {log : ChainLog} :
    log ∈ chain.getLogs fromBlock toBlock ↔
      fromBlock ≤ log.blockNumber ∧ log.blockNumber ≤ toBlock ∧ OnChain chain log := by
  simp only [Chain.getLogs, mem_flatMap, mem_range'_1, mem_logsAt]
  constructor
  · rintro ⟨_, ⟨lower, _⟩, rfl, block, mem⟩
    exact ⟨lower, by omega, block, mem⟩
  · rintro ⟨lower, _, block, mem⟩
    exact ⟨log.blockNumber, ⟨lower, by omega⟩, rfl, block, mem⟩

theorem OnChain.blockNumber_le {log : ChainLog}
    (held : OnChain chain log) : log.blockNumber ≤ chain.latestBlock := by
  have inside := (List.getElem?_eq_some_iff.mp held.1).1
  unfold Chain.latestBlock
  omega

theorem Chain.blockKeys_nodup (chain : Chain network) (number : Nat) :
    ((logsAt network chain.blocks number).map fun log => log.key).Nodup := by
  by_cases inside : number < chain.blocks.length
  · exact (nodup_flatMap.mp chain.distinct).1 number (mem_range.mpr inside)
  · have empty : logsAt network chain.blocks number = [] := by
      simp [logsAt, List.getElem?_eq_none (Nat.not_lt.mp inside)]
    simp [empty]

theorem OnChain.eq_of_key {left right : ChainLog}
    (leftHeld : OnChain chain left) (rightHeld : OnChain chain right)
    (same : left.key = right.key) : left = right := by
  have leftMember : left ∈ logsAt network chain.blocks left.blockNumber :=
    mem_logsAt.mpr ⟨rfl, leftHeld⟩
  have rightMember : right ∈ logsAt network chain.blocks right.blockNumber :=
    mem_logsAt.mpr ⟨rfl, rightHeld⟩
  have leftInside := (List.getElem?_eq_some_iff.mp leftHeld.1).1
  have rightInside := (List.getElem?_eq_some_iff.mp rightHeld.1).1
  by_cases block : left.blockNumber = right.blockNumber
  · rw [← block] at rightMember
    exact inj_on_of_nodup_map (chain.blockKeys_nodup left.blockNumber) leftMember rightMember same
  · -- blocks of different numbers share no key
    have apart := (nodup_flatMap.mp chain.distinct).2
    have : Std.Symm (Function.onFun List.Disjoint fun number =>
        (logsAt network chain.blocks number).map fun log => log.key) :=
      ⟨fun _ _ held => List.Disjoint.symm held⟩
    have disjoint := apart.forall (mem_range.mpr leftInside) (mem_range.mpr rightInside) block
    exact (disjoint (mem_map.mpr ⟨left, leftMember, rfl⟩)
      (mem_map.mpr ⟨right, rightMember, same.symm⟩)).elim

theorem Chain.getLogs_nodup (chain : Chain network) (fromBlock toBlock : Nat) :
    (chain.getLogs fromBlock toBlock).Nodup := by
  refine nodup_flatMap.mpr ⟨?_, ?_⟩
  · intro number _
    exact (chain.blockKeys_nodup number).of_map
  · refine (nodup_range' (s := fromBlock)).imp ?_
    intro _ _ ne _ leftMember rightMember
    exact ne ((mem_logsAt.mp leftMember).1.symm.trans (mem_logsAt.mp rightMember).1)

theorem Session.flush_ok (ok : session.flush = .ok moved) :
    ((session.events ++ session.added).map fun event => event.key).Nodup ∧
      moved.events = session.remaining ++ session.added ∧
      moved.deleted = [] ∧ moved.added = [] ∧
      moved.ledger = session.ledger ∧ moved.result = session.result := by
  unfold Session.flush at ok
  split_ifs at ok with distinct
  cases ok
  exact ⟨distinct, rfl, rfl, rfl, rfl, rfl⟩

theorem Session.post_ok {postings : List Posting} {reason : Reason}
    {txHash : String} (success : session.post postings reason txHash = .ok moved) :
    moved.events = session.remaining ++ session.added ∧ moved.deleted = [] ∧ moved.added = [] ∧
      moved.ledger = session.ledger ++ [⟨postings, reason, none, some txHash⟩] := by
  unfold Session.post at success
  cases posted : postTransaction postings reason none (some txHash) with
  | error =>
    rw [posted] at success
    cases success
  | ok =>
    rw [posted] at success
    obtain ⟨_, events, deleted, added, ledger, _⟩ := Session.flush_ok success
    rw [(postTransaction_ok posted).1] at ledger
    exact ⟨events, deleted, added, ledger⟩

theorem Session.mem_remaining {event : ChainEvent} : event ∈ session.remaining ↔
      event ∈ session.events ∧ event.key ∉ session.deleted := by
  simp [Session.remaining]

def Session.Clean (session : Session) : Prop := session.deleted = [] ∧ session.added = []

theorem Session.Clean.remaining (clean : session.Clean) : session.remaining = session.events := by
  simp [Session.remaining, clean.1]

section

variable {settings : WatcherSettings} {chain : Chain network}
  {developers : Developers} {moved : Session} {order : EventOrder} {latest : Nat}
  {result : ScanResult} {session : Session} {event : ChainEvent} {store : Store}

theorem reverseApplied_events (ok : reverseApplied settings developers session event = .ok moved)
    (nothing : session.added = []) :
    moved.added = [] ∧ moved.remaining = session.remaining ∧ moved.events ⊆ session.events := by
  unfold reverseApplied at ok
  split_ifs at ok
  · unfold reverseEffect at ok
    split at ok
    · cases ok
      exact ⟨nothing, rfl, List.Subset.refl _⟩
    · obtain ⟨posted, code, done⟩ := bind_eq_ok.mp ok
      cases done
      obtain ⟨events, deleted, added, _⟩ := Session.post_ok code
      rw [nothing, append_nil] at events
      refine ⟨added, ?_, ?_⟩
      · have clean : posted.Clean := ⟨deleted, added⟩
        exact clean.remaining.trans events
      · intro row mem
        change row ∈ posted.events at mem
        rw [events] at mem
        exact (Session.mem_remaining.mp mem).1
  · cases ok
    exact ⟨nothing, rfl, List.Subset.refl _⟩

theorem Session.remaining_delete (session : Session) (key : String × Nat) :
    ({ session with deleted := session.deleted ++ [key] } : Session).remaining =
      KeyedRows.remove (fun event : ChainEvent => event.key) key session.remaining := by
  simp only [Session.remaining, KeyedRows.remove, filter_filter]
  apply filter_congr
  simp [and_comm]

structure Dropped (chain : Chain network) (rows : List ChainEvent)
    (session moved : Session) : Prop where
  pending : moved.added = []
  visible : moved.events ⊆ session.events
  kept : ∀ event, event ∈ moved.remaining ↔ event ∈ session.remaining ∧
    ∀ row ∈ rows, orphaned chain row = true → event.key ≠ row.key

theorem dropOrphan_ok (ok : dropOrphan settings chain developers session event = .ok moved)
    (nothing : session.added = []) :
    Dropped chain [event] session moved := by
  unfold dropOrphan at ok
  split_ifs at ok with isOrphan
  · dsimp only at ok
    obtain ⟨reversed, code, done⟩ := bind_eq_ok.mp ok
    cases done
    have reversal := reverseApplied_events code nothing
    obtain ⟨added, remaining, visible⟩ := reversal
    change reversed.remaining = session.remaining at remaining
    refine ⟨added, visible, ?_⟩
    intro _
    rw [Session.remaining_delete, KeyedRows.mem_remove, remaining]
    simp [isOrphan]
  · cases ok
    refine ⟨nothing, List.Subset.refl _, ?_⟩
    simp [isOrphan]

theorem foldlM_dropOrphan_ok {rows : List ChainEvent}
    (ok : rows.foldlM (dropOrphan settings chain developers) session = .ok moved)
    (nothing : session.added = []) :
    Dropped chain rows session moved := by
  induction rows generalizing session with
  | nil =>
    cases ok
    exact ⟨nothing, List.Subset.refl _, by simp⟩
  | cons _ _ ih =>
    rw [foldlM_cons, bind_eq_ok] at ok
    obtain ⟨_, first, ok⟩ := ok
    have head := dropOrphan_ok first nothing
    have tail := ih ok head.pending
    refine ⟨tail.pending, List.Subset.trans tail.visible head.visible, ?_⟩
    intro _
    rw [tail.kept, head.kept]
    simp only [forall_mem_cons]
    tauto

theorem handleReorg_ok {start : Nat}
    (ok : handleReorg settings chain developers order start session = .ok moved)
    (clean : session.Clean) (distinct : (session.events.map fun event => event.key).Nodup) :
    moved.added = [] ∧ moved.events ⊆ session.events ∧
      ∀ event, event ∈ moved.remaining ↔ event ∈ session.events ∧
        ¬ (start ≤ event.blockNumber ∧ orphaned chain event = true) := by
  have dropped := foldlM_dropOrphan_ok ok clean.2
  refine ⟨dropped.pending, dropped.visible, ?_⟩
  intro event
  rw [dropped.kept, clean.remaining]
  refine and_congr_right fun here => ?_
  have visited : ∀ row, row ∈ order.shuffle (session.events.filter fun row =>
      start ≤ row.blockNumber) ↔
      row ∈ session.events ∧ start ≤ row.blockNumber := by
    intro _
    rw [(order.perm _).mem_iff]
    simp
  constructor
  · rintro apart ⟨inWindow, isOrphan⟩
    exact apart event ((visited event).mpr ⟨here, inWindow⟩) isOrphan rfl
  · intro stays row mem isOrphan same
    obtain ⟨rowPresent, inWindow⟩ := (visited row).mp mem
    have identical := inj_on_of_nodup_map distinct here rowPresent same
    subst identical
    exact stays ⟨inWindow, isOrphan⟩

def freshRow (log : ChainLog) : ChainEvent :=
  { toChainLog := log, confirmed := false, processed := false }

def Session.sees (session : Session) (log : ChainLog) : Bool :=
  session.events.any fun event => event.key = log.key

theorem foldl_ingest (logs : List ChainLog) (session : Session) :
    (logs.foldl ingest session).events = session.events ∧
      (logs.foldl ingest session).deleted = session.deleted ∧
      (logs.foldl ingest session).ledger = session.ledger ∧
      (logs.foldl ingest session).added = session.added ++
        (logs.filter fun log => !session.sees log).map freshRow := by
  induction logs generalizing session with
  | nil => simp
  | cons log _ ih =>
    rw [foldl_cons]
    obtain ⟨events, deleted, ledger, added⟩ := ih (ingest session log)
    rw [events, deleted, ledger, added]
    unfold ingest
    by_cases seen : session.sees log = true
    · have visible := seen
      unfold Session.sees at visible
      simp [visible, seen]
    · have hidden := seen
      unfold Session.sees at hidden
      rw [if_neg hidden]
      rw [filter_cons_of_pos (by simpa using seen)]
      simp [Session.count, Session.sees, freshRow]

theorem ChainEvent.confirm_toChainLog (event : ChainEvent) :
    event.confirm.toChainLog = event.toChainLog := rfl

theorem ChainEvent.process_toChainLog (event : ChainEvent) :
    event.process.toChainLog = event.toChainLog := rfl

theorem Session.update_logs (session : Session) (event : ChainEvent)
    {change : ChainEvent → ChainEvent} (same : ∀ row, (change row).toChainLog = row.toChainLog) :
    (session.update event change).events.map ChainEvent.toChainLog =
      session.events.map ChainEvent.toChainLog := by
  simp only [Session.update, KeyedRows.update, map_map]
  apply map_congr_left
  intro row _
  simp only [Function.comp_apply]
  split_ifs
  · exact same row
  · rfl

theorem Session.update_keys (session : Session) (event : ChainEvent)
    {change : ChainEvent → ChainEvent} (same : ∀ row, (change row).toChainLog = row.toChainLog) :
    ((session.update event change).events.map fun row => row.key) =
      session.events.map fun row => row.key := by
  apply KeyedRows.keys_update
  intro row
  exact congrArg (fun log : ChainLog => log.key) (same row)

theorem Session.post_clean {postings : List Posting} {reason : Reason}
    {txHash : String} (ok : session.post postings reason txHash = .ok moved)
    (clean : session.Clean) :
    moved.Clean ∧ moved.events = session.events ∧ moved.ledger =
        session.ledger ++ [⟨postings, reason, none, some txHash⟩] := by
  obtain ⟨events, deleted, added, ledger⟩ := Session.post_ok ok
  rw [clean.2, append_nil, clean.remaining] at events
  exact ⟨⟨deleted, added⟩, events, ledger⟩

def effectRows (settings : WatcherSettings) (developers : Developers)
    (event : ChainEvent) : Ledger :=
  match developerFor developers event.party with
  | none => []
  | some owner =>
    match event.eventName with
    | .deposited =>
      [⟨transferPostings .protocol none .developer (some owner.id)
        (fromUnits settings.usdcDecimals event.amount), .chainDeposit,
        none, some event.txHash⟩]
    | .withdrawn =>
      [⟨transferPostings .developer (some owner.id) .protocol none
        (fromUnits settings.usdcDecimals event.amount), .chainWithdraw,
        none, some event.txHash⟩]
    | .debited | .settled | .slashed => []

theorem effectRows_plain (plain : event.eventName.effectful = false) :
    effectRows settings developers event = [] := by
  unfold effectRows
  cases developerFor developers event.party with
  | none => rfl
  | some => cases name : event.eventName <;> simp [name, EventName.effectful] at plain ⊢

theorem applyEffect_ok {applied : Bool}
    (ok : applyEffect settings developers session event = .ok (applied, moved))
    (clean : session.Clean) :
    moved.Clean ∧ moved.ledger = session.ledger ++ effectRows settings developers event ∧
      moved.events = if applied then session.events
        else (session.update event ChainEvent.process).events := by
  unfold applyEffect at ok
  unfold effectRows
  cases found : developerFor developers event.party with
  | none =>
    rw [found] at ok
    cases ok
    exact ⟨clean, (append_nil _).symm, rfl⟩
  | some =>
    rw [found] at ok
    obtain ⟨_, code, done⟩ := bind_eq_ok.mp ok
    cases done
    unfold postEffect at code
    cases name : event.eventName with
    | deposited | withdrawn =>
      rw [name] at code
      obtain ⟨moves, events, ledger⟩ := Session.post_clean code clean
      exact ⟨moves, ledger, events⟩
    | debited | settled | slashed =>
      rw [name] at code
      cases code
      exact ⟨clean, (append_nil _).symm, rfl⟩

theorem confirmEvent_ok (ok : confirmEvent settings developers latest session event = .ok moved)
    (clean : session.Clean) :
    moved.Clean ∧ (moved = session ∨
      (moved.events = ((session.update event ChainEvent.confirm).update event
          ChainEvent.process).events ∧
        moved.ledger = session.ledger ++ effectRows settings developers event)) := by
  unfold confirmEvent at ok
  split_ifs at ok with shallow effectful
  · cases ok
    exact ⟨clean, Or.inl rfl⟩
  · obtain ⟨⟨applied, effected⟩, code, done⟩ := bind_eq_ok.mp ok
    obtain ⟨moves, ledger, events⟩ := applyEffect_ok code clean
    cases applied with
    | true =>
      cases done
      refine ⟨moves, Or.inr ⟨?_, ledger⟩⟩
      change KeyedRows.update _ _ _ effected.events = _
      rw [events]
      rfl
    | false =>
      cases done
      exact ⟨moves, Or.inr ⟨events, ledger⟩⟩
  · cases ok
    refine ⟨clean, Or.inr ⟨rfl, ?_⟩⟩
    rw [effectRows_plain (by simpa using effectful), append_nil]
    rfl

def Session.SameLogs (session moved : Session) : Prop :=
  moved.Clean ∧ moved.events.map ChainEvent.toChainLog = session.events.map ChainEvent.toChainLog

theorem confirmEvent_logs (ok : confirmEvent settings developers latest session event = .ok moved)
    (clean : session.Clean) : session.SameLogs moved := by
  obtain ⟨moves, same | ⟨events, _⟩⟩ := confirmEvent_ok ok clean
  · rw [same]
    exact ⟨clean, rfl⟩
  · refine ⟨moves, ?_⟩
    rw [events, Session.update_logs _ event ChainEvent.process_toChainLog]
    exact Session.update_logs session event ChainEvent.confirm_toChainLog

theorem applyConfirmed_logs (ok : applyConfirmed settings developers latest session = .ok moved)
    (clean : session.Clean) : session.SameLogs moved := by
  refine @Serial.foldlM_invariant Session WatcherError ChainEvent
    (fun reached => session.SameLogs reached)
    (confirmEvent settings developers latest) (unprocessed session) session
    moved ?_ ⟨clean, rfl⟩ ok
  intro _ _ _ _ held confirms
  obtain ⟨moves, logs⟩ := confirmEvent_logs confirms held.1
  exact ⟨moves, logs.trans held.2⟩

theorem windowStart_le (settings : WatcherSettings) (last : Nat) :
    windowStart settings last ≤ last + 1 := by
  unfold windowStart
  omega

def scanStart (settings : WatcherSettings) (chain : Chain network) (store : Store) : Nat :=
  windowStart settings (lastScanned settings chain store)

theorem scan_stages {after : Store} (ok : scan settings chain order store = .ok (after, result)) :
    ∃ reorged flushed applied, handleReorg settings chain store.developers order
        (scanStart settings chain store)
        ⟨store.events, [], [], store.ledger, {}⟩ = .ok reorged ∧
      (ingestLogs chain (scanStart settings chain store) reorged).flush = .ok flushed ∧
      applyConfirmed settings store.developers chain.latestBlock flushed = .ok applied ∧
      after = { store with
        events := applied.events
        ledger := applied.ledger
        cursor := some (if scanStart settings chain store ≤ chain.latestBlock then
            chain.latestBlock
          else lastScanned settings chain store) } := by
  unfold scan at ok
  obtain ⟨reorged, handled, ok⟩ := bind_eq_ok.mp ok
  obtain ⟨flushed, flushes, ok⟩ := bind_eq_ok.mp ok
  obtain ⟨applied, applies, ok⟩ := bind_eq_ok.mp ok
  rw [Nat.min_eq_right (windowStart_le settings _)] at flushes ok
  cases ok
  exact ⟨reorged, flushed, applied, handled, flushes, applies, rfl⟩

structure Flushed (chain : Chain network) (start : Nat) (reorged flushed : Session) : Prop where
  clean : flushed.Clean
  ledger : flushed.ledger = reorged.ledger
  keys : (flushed.events.map fun event => event.key).Nodup
  rows : flushed.events = reorged.remaining ++
    ((chain.getLogs start chain.latestBlock).filter fun log =>
      !reorged.sees log).map freshRow

theorem ingestLogs_keeps (start : Nat) (session : Session) :
    (ingestLogs chain start session).events = session.events ∧
      (ingestLogs chain start session).deleted = session.deleted ∧
      (ingestLogs chain start session).ledger = session.ledger ∧
      (ingestLogs chain start session).added = session.added ++
        ((chain.getLogs start chain.latestBlock).filter fun log => !session.sees log).map
          freshRow := by
  unfold ingestLogs
  split_ifs
  · exact foldl_ingest _ session
  · have none : chain.getLogs start chain.latestBlock = [] := by
      have empty : chain.latestBlock + 1 - start = 0 := by omega
      simp [Chain.getLogs, empty]
    simp [none]

theorem flush_ingested {start : Nat} {reorged flushed : Session} (nothing : reorged.added = [])
    (flushes : (ingestLogs chain start reorged).flush = .ok flushed) :
    Flushed chain start reorged flushed := by
  obtain ⟨events, deleted, ledger, added⟩ := @ingestLogs_keeps _ chain start reorged
  rw [nothing, nil_append] at added
  obtain ⟨unique, rows, none, empty, kept, _⟩ := Session.flush_ok flushes
  have stays : (ingestLogs chain start reorged).remaining = reorged.remaining := by
    simp only [Session.remaining, events, deleted]
  refine ⟨⟨none, empty⟩, kept.trans ledger, ?_, ?_⟩
  · rw [rows]
    refine List.Nodup.sublist (List.Sublist.map _ ?_) unique
    exact List.Sublist.append filter_sublist (List.Sublist.refl _)
  · rw [rows, stays, added]

theorem scan_ok {after : Store} (ok : scan settings chain order store = .ok (after, result))
    (distinct : (store.events.map fun event => event.key).Nodup) :
    (after.events.map fun event => event.key).Nodup ∧
      ∃ seen : List ChainEvent, seen ⊆ store.events ∧
        ∀ log, log ∈ after.events.map ChainEvent.toChainLog ↔
          (∃ event ∈ store.events, event.toChainLog = log ∧
            ¬ (scanStart settings chain store ≤ event.blockNumber ∧ orphaned chain event = true)) ∨
          (log ∈ chain.getLogs (scanStart settings chain store) chain.latestBlock ∧
            ∀ event ∈ seen, event.key ≠ log.key) := by
  obtain ⟨reorged, flushed, applied, handled, flushes, applies, rfl⟩ := scan_stages ok
  obtain ⟨pending, visible, kept⟩ := handleReorg_ok handled ⟨rfl, rfl⟩ distinct
  have ingested := flush_ingested pending flushes
  obtain ⟨_, logs⟩ := applyConfirmed_logs applies ingested.clean
  refine ⟨?_, reorged.events, visible, ?_⟩
  · have keys : (applied.events.map fun event => event.key) =
        flushed.events.map fun event => event.key := by
      have mapped := congrArg (List.map fun log : ChainLog => log.key) logs
      simpa only [map_map, Function.comp_def] using mapped
    rw [keys]
    exact ingested.keys
  · intro _
    rw [logs, ingested.rows, map_append, mem_append]
    refine or_congr ?_ ?_
    · rw [mem_map]
      constructor
      · rintro ⟨event, mem, same⟩
        obtain ⟨here, stays⟩ := (kept event).mp mem
        exact ⟨event, here, same, stays⟩
      · rintro ⟨event, here, same, stays⟩
        exact ⟨event, (kept event).mpr ⟨here, stays⟩, same⟩
    · simp only [mem_map, freshRow]
      simp [Session.sees]

end

/-- What holds between ticks: below the window the store is right already, and
above it every row is for a log of the block it names. -/
structure Tracked (settings : WatcherSettings) (chain : Chain network)
    (store : Store) (first last : Nat) : Prop where
  distinct : (store.events.map fun event => event.key).Nodup
  content : ∀ event ∈ store.events, event.toLogEntry ∈ network.logs event.blockHash
  below : ∀ event ∈ store.events, event.blockNumber < windowStart settings last →
      chain.getBlock event.blockNumber = some event.blockHash
  covered : ∀ number, first < number → number < windowStart settings last →
    number < chain.blocks.length
  complete : ∀ log, OnChain chain log → first < log.blockNumber →
    log.blockNumber < windowStart settings last → log ∈ store.events.map ChainEvent.toChainLog

/-- No log of the scanned blocks has the key of an orphaned row of the
window. -/
def NoneRemined (settings : WatcherSettings) (chain : Chain network) (store : Store) : Prop :=
  ∀ event ∈ store.events, scanStart settings chain store ≤ event.blockNumber →
    orphaned chain event = true →
    ∀ log ∈ chain.getLogs (scanStart settings chain store) chain.latestBlock, log.key ≠ event.key

def LeavesBelow (settings : WatcherSettings) (store : Store) (chain next : Chain network) : Prop :=
  ∀ last, store.cursor = some last → chain.blocks.take (windowStart settings last) <+: next.blocks

section

variable {settings : WatcherSettings} {chain : Chain network}
  {store : Store} {first last : Nat}

theorem Tracked.unscanned (settings : WatcherSettings) (chain : Chain network) {store : Store}
    (empty : store.events = []) (first : Nat) : Tracked settings chain store first first := by
  have start := windowStart_le settings first
  refine ⟨by simp [empty], by simp [empty], by simp [empty], ?_, ?_⟩
  · intro _ _ _
    omega
  · intro _ _ _ _
    omega

theorem Tracked.onNext {next : Chain network} (tracked : Tracked settings chain store first last)
    (kept : chain.blocks.take (windowStart settings last) <+: next.blocks) :
    Tracked settings next store first last := by
  have carried : ∀ number hash, number < windowStart settings last →
      chain.getBlock number = some hash →
      next.getBlock number = some hash := by
    intro number hash inside block
    have found : (chain.blocks.take (windowStart settings last))[number]? = some hash := by
      rw [List.getElem?_take_of_lt inside]
      exact block
    obtain ⟨present, same⟩ := List.getElem?_eq_some_iff.mp found
    rw [← same]
    exact prefix_iff_getElem?.mp kept number present
  have back : ∀ number, first < number → number < windowStart settings last →
      chain.getBlock number = next.getBlock number := by
    intro number above inside
    have present := tracked.covered number above inside
    have block : chain.getBlock number = some chain.blocks[number] :=
      List.getElem?_eq_getElem present
    rw [block, carried number _ inside block]
  refine ⟨tracked.distinct, tracked.content, ?_, ?_, ?_⟩
  · intro event mem inside
    exact carried _ _ inside (tracked.below event mem inside)
  · intro number above inside
    have present := tracked.covered number above inside
    have block := carried number _ inside
      (List.getElem?_eq_getElem present : chain.getBlock number = _)
    exact (List.getElem?_eq_some_iff.mp block).1
  · intro log held above inside
    refine tracked.complete log ⟨?_, held.2⟩ above inside
    rw [back _ above inside]
    exact held.1

theorem Tracked.scanned {order : EventOrder} {after : Store} {result : ScanResult}
    (tracked : Tracked settings chain store first (lastScanned settings chain store))
    (unmined : NoneRemined settings chain store)
    (ok : scan settings chain order store = .ok (after, result)) :
    (after.events.map fun event => event.key).Nodup ∧
      (∀ log ∈ after.events.map ChainEvent.toChainLog, OnChain chain log) ∧
      ∀ log, OnChain chain log → first < log.blockNumber →
        log ∈ after.events.map ChainEvent.toChainLog := by
  obtain ⟨distinct, seen, visible, rows⟩ := scan_ok ok tracked.distinct
  have sound : ∀ event ∈ store.events, ¬ (scanStart settings chain store ≤ event.blockNumber ∧
        orphaned chain event = true) → OnChain chain event.toChainLog := by
    intro event mem stays
    refine ⟨?_, tracked.content event mem⟩
    by_cases inWindow : scanStart settings chain store ≤ event.blockNumber
    · by_contra missing
      exact stays ⟨inWindow, by simpa [orphaned] using missing⟩
    · exact tracked.below event mem (Nat.lt_of_not_le inWindow)
  refine ⟨distinct, ?_, ?_⟩
  · intro log mem
    rcases (rows log).mp mem with ⟨event, present, rfl, stays⟩ | ⟨new, _⟩
    · exact sound event present stays
    · exact (mem_getLogs.mp new).2.2
  · intro log held above
    by_cases inWindow : scanStart settings chain store ≤ log.blockNumber
    · have found : log ∈ chain.getLogs (scanStart settings chain store) chain.latestBlock :=
        mem_getLogs.mpr ⟨inWindow, held.blockNumber_le, held⟩
      by_cases known : ∃ event ∈ seen, event.key = log.key
      · -- a visible row of this key is no orphan, so it is the log's own row
        obtain ⟨event, visibleRow, same⟩ := known
        have present := visible visibleRow
        have stays : ¬ (scanStart settings chain store ≤ event.blockNumber ∧
            orphaned chain event = true) := by
          rintro ⟨window, isOrphan⟩
          exact unmined event present window isOrphan log found same.symm
        have own := (sound event present stays).eq_of_key held same
        exact (rows log).mpr (Or.inl ⟨event, present, own, stays⟩)
      · refine (rows log).mpr (Or.inr ⟨found, ?_⟩)
        intro event mem same
        exact known ⟨event, mem, same⟩
    · obtain ⟨event, present, same⟩ := mem_map.mp
        (tracked.complete log held above (Nat.lt_of_not_le inWindow))
      refine (rows log).mpr (Or.inl ⟨event, present, same, ?_⟩)
      rintro ⟨window, _⟩
      rw [← same] at inWindow
      exact inWindow window

theorem Tracked.tick {order : EventOrder} {after : Store} {result : ScanResult}
    (tracked : Tracked settings chain store first (lastScanned settings chain store))
    (unmined : NoneRemined settings chain store)
    (ok : scan settings chain order store = .ok (after, result)) :
    ∃ moved, after.cursor = some moved ∧ Tracked settings chain after first moved := by
  obtain ⟨distinct, sound, complete⟩ := tracked.scanned unmined ok
  obtain ⟨_, _, _, _, _, _, rfl⟩ := scan_stages ok
  refine ⟨_, rfl, distinct, ?_, ?_, ?_, ?_⟩
  · intro _ mem
    exact (sound _ (mem_map_of_mem mem)).2
  · intro _ mem _
    exact (sound _ (mem_map_of_mem mem)).1
  · intro number above below
    split_ifs at below with scans
    · have start := windowStart_le settings chain.latestBlock
      unfold Chain.latestBlock at start below
      omega
    · exact tracked.covered number above below
  · intro log held above _
    exact complete log held above

end

/-- A tick meets no re-mined log, and the chain changes in the window only. -/
def Undisturbed (settings : WatcherSettings) (world : World network) : Action network → Prop
  | .tick _ => NoneRemined settings world.chain world.store
  | .chain next => LeavesBelow settings world.store world.chain next
  | .failedTick | .signUp _ _ | .elsewhere _ => True

theorem leavesBelow_of_depth {settings : WatcherSettings} {store : Store}
    {chain next : Chain network} {last depth : Nat} (cursor : store.cursor = some last)
    (scanned : last ≤ chain.latestBlock) (shallow : depth ≤ settings.reorgWindow)
    (genesis : depth < chain.blocks.length)
    (replaced : chain.blocks.take (chain.blocks.length - depth) <+: next.blocks) :
    LeavesBelow settings store chain next := by
  intro _ found
  rw [cursor] at found
  cases found
  refine List.IsPrefix.trans ?_ replaced
  apply take_prefix_take_left
  unfold windowStart
  unfold Chain.latestBlock at scanned
  omega

/-- The rows in the scanned range are the logs of the canonical chain there,
each once. -/
def Mirrors (first last : Nat) (world : World network) : Prop :=
  ((world.store.events.filter fun event =>
      first < event.blockNumber ∧ event.blockNumber ≤ last).map
    ChainEvent.toChainLog).Perm (world.chain.getLogs (first + 1) last)

def World.Follows (settings : WatcherSettings) (world : World network) : Prop :=
  world.Fresh ∨ ∃ first last, world.initial = some first ∧ world.store.cursor = some last ∧
    Tracked settings world.chain world.store first last

theorem World.Follows.before (follows : world.Follows settings) :
    Tracked settings world.chain world.store
      (world.initial.getD (initialCursor settings world.chain))
      (lastScanned settings world.chain world.store) := by
  unfold lastScanned
  rcases follows with ⟨empty, cursor, initial⟩ | ⟨_, _, initial, cursor, tracked⟩
  · rw [initial, cursor]
    exact Tracked.unscanned settings world.chain empty _
  · rw [initial, cursor]
    exact tracked

theorem World.Follows.step {settings : WatcherSettings} {world : World network}
    (follows : world.Follows settings) (action : Action network)
    (undisturbed : Undisturbed settings world action) :
    (step settings action world).Follows settings := by
  cases action with
  | tick order =>
    simp only [Watcher.step]
    cases success : scan settings world.chain order world.store with
    | error => exact follows
    | ok =>
      obtain ⟨moved, cursor, tracked⟩ := follows.before.tick undisturbed success
      exact Or.inr ⟨_, moved, rfl, cursor, tracked⟩
  | failedTick => exact follows
  | chain =>
    rcases follows with fresh | ⟨first, last, initial, cursor, tracked⟩
    · exact Or.inl fresh
    · exact Or.inr ⟨first, last, initial, cursor, tracked.onNext (undisturbed last cursor)⟩
  | signUp | elsewhere =>
    rcases follows with fresh | ⟨first, last, initial, cursor, tracked⟩
    · exact Or.inl fresh
    · exact Or.inr ⟨first, last, initial, cursor, tracked.distinct,
        tracked.content, tracked.below, tracked.covered, tracked.complete⟩

theorem reaches_follows
    (reached : Reaches (step settings) (Undisturbed settings) World.Fresh world) :
    world.Follows settings := by
  induction reached with
  | start fresh => exact Or.inl fresh
  | step _ action undisturbed follows => exact follows.step action undisturbed

/-- After every tick that commits, the stored events of the scanned range are
the canonical logs. -/
theorem store_mirrors_chain {settings : WatcherSettings} {world : World network}
    {order : EventOrder} {after : Store} {result : ScanResult}
    (reached : Reaches (step settings) (Undisturbed settings) World.Fresh world)
    (undisturbed : Undisturbed settings world (.tick order))
    (commits : scan settings world.chain order world.store = .ok (after, result)) :
    ∃ first last, (step settings (.tick order) world).initial = some first ∧
      (step settings (.tick order) world).store.cursor = some last ∧
      Mirrors first last (step settings (.tick order) world) := by
  have before := (reaches_follows reached).before
  obtain ⟨_, sound, complete⟩ := before.scanned undisturbed commits
  obtain ⟨last, cursor, _⟩ := before.tick undisturbed commits
  have moved : step settings (.tick order) world =
      { world with
        store := after
        initial := some (world.initial.getD (initialCursor settings world.chain)) } := by
    simp only [step, commits]
  rw [moved]
  refine ⟨_, last, rfl, cursor, ?_⟩
  have unique : (after.events.map ChainEvent.toChainLog).Nodup := by
    refine List.Nodup.of_map (fun log : ChainLog => log.key) ?_
    rwa [map_map]
  refine (perm_ext_iff_of_nodup (unique.sublist (filter_sublist.map _))
    (world.chain.getLogs_nodup _ _)).mpr ?_
  intro log
  rw [mem_getLogs]
  simp only [mem_map, mem_filter, decide_eq_true_eq]
  constructor
  · rintro ⟨_, ⟨member, above, upTo⟩, rfl⟩
    exact ⟨above, upTo, sound _ (mem_map_of_mem member)⟩
  · rintro ⟨above, upTo, held⟩
    obtain ⟨event, member, rfl⟩ := mem_map.mp (complete log held above)
    exact ⟨event, ⟨member, above, upTo⟩, rfl⟩

/-- Wallet 7 deposits five units; the transaction is in block `5a` and, after
a reorganisation, in block `5b`. -/
def depositNetwork : Network where
  logs hash :=
    if hash = "5a" ∨ hash = "5b" then [⟨.deposited, 1, "0xd", 0, 7, 5⟩]
    else []

def chainOf (blocks : List String) (genesis : blocks ≠ [])
    (distinct : ((List.range blocks.length).flatMap fun number =>
      (logsAt depositNetwork blocks number).map fun log =>
        log.key).Nodup) : Chain depositNetwork :=
  ⟨blocks, genesis, distinct⟩

def watcherSettings : WatcherSettings :=
  { usdcDecimals := usdcDecimals, decimalsFit := usdcDecimals_fit, confirmations := 3,
    startBlock := 1, reorgWindow := 5 }

def emptyStore : Store :=
  { events := [], cursor := none
    developers := .none, ledger := [] }

def depositedChain : Chain depositNetwork :=
  chainOf ["0", "1", "2", "3", "4", "5a"] (by decide) (by decide)

def droppedChain : Chain depositNetwork :=
  chainOf ["0", "1", "2", "3", "4", "5", "6"] (by decide) (by decide)

def reminedChain : Chain depositNetwork :=
  chainOf ["0", "1", "2", "3", "4", "5b", "6", "7", "8", "9", "10", "11",
    "12"] (by decide) (by decide)

def laterChain : Chain depositNetwork :=
  chainOf ["0", "1", "2", "3", "4", "5b", "6", "7", "8", "9", "10", "11",
    "12", "13"] (by decide) (by decide)

def firstScan : World depositNetwork :=
  step watcherSettings (.tick .stored) ⟨depositedChain, emptyStore, none⟩

def rescan (world : World depositNetwork) (next : Chain depositNetwork) : World depositNetwork :=
  step watcherSettings (.tick .stored) { world with chain := next }

theorem firstScan_cursor : firstScan.store.cursor = some 5 := by
  decide +kernel

theorem firstScan_leavesBelow {next : Chain depositNetwork}
    (replaced : depositedChain.blocks.take 5 <+: next.blocks) :
    LeavesBelow watcherSettings firstScan.store depositedChain next := by
  refine @leavesBelow_of_depth _ _ _ _ _ 5 1 firstScan_cursor ?_ ?_ ?_ replaced <;> decide

theorem firstScan_reached : Reaches (step watcherSettings) (Undisturbed watcherSettings)
      World.Fresh firstScan := by
  have fresh : Reaches (step watcherSettings) (Undisturbed watcherSettings) World.Fresh
      ⟨depositedChain, emptyStore, none⟩ := .start ⟨rfl, rfl, rfl⟩
  refine fresh.step (Action.tick .stored) ?_
  intro _ mem
  cases mem

theorem store_mirrors_chain_droppedDeposit :
    ∃ first last, (rescan firstScan droppedChain).initial = some first ∧
      (rescan firstScan droppedChain).store.cursor = some last ∧
      Mirrors first last (rescan firstScan droppedChain) := by
  have reached := firstScan_reached.step (.chain droppedChain) (firstScan_leavesBelow (by decide))
  have unmined : NoneRemined watcherSettings droppedChain firstScan.store := by
    unfold NoneRemined
    decide +kernel
  obtain ⟨_, success, _⟩ := exists_ok (fun _ => true)
    (show (scan watcherSettings droppedChain .stored firstScan.store).toOption.any _ = true by
      decide +kernel)
  exact store_mirrors_chain reached unmined success

/-- The deposit is mined again in the block that replaces its own, a
reorganisation of depth one with a window of five. -/
theorem remined_deposit_lost : depositedChain.blocks.take (depositedChain.blocks.length - 1) <+:
        reminedChain.blocks ∧
      1 ≤ watcherSettings.reorgWindow ∧
      (rescan firstScan reminedChain).initial = some 1 ∧
      (rescan firstScan reminedChain).store.cursor = some 12 ∧
      ¬ Mirrors 1 12 (rescan firstScan reminedChain) ∧
      ¬ Mirrors 1 13 (rescan (rescan firstScan reminedChain) laterChain) := by
  unfold Mirrors
  decide +kernel

end Gridix.Watcher
