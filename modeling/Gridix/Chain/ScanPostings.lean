import Gridix.Chain.Effects

/-!
# For whom a scan posts

A scan reverses the effects of orphaned events and applies those of events
that are deep enough.
-/

namespace Gridix.Watcher

open List

variable {network : Network}

section

variable (settings : WatcherSettings) (chain : Chain network) (store : Store)

structure Reverses (event : ChainEvent) : Prop where
  stored : event ∈ store.events
  inWindow : scanStart settings chain store ≤ event.blockNumber
  orphan : orphaned chain event = true
  processed : event.processed = true
  effectful : event.eventName.effectful = true

structure Applies (log : ChainLog) : Prop where
  effectful : log.eventName.effectful = true
  buried : settings.confirmations + log.blockNumber ≤ chain.latestBlock + 1
  due : (∃ event ∈ store.events, event.toChainLog = log ∧ event.processed = false) ∨
    (log ∈ chain.getLogs (scanStart settings chain store) chain.latestBlock ∧
      log ∉ store.events.map ChainEvent.toChainLog)

def Touches (wallet : Address) : Prop :=
  (∃ event, Reverses settings chain store event ∧ event.party = wallet) ∨
    ∃ log, Applies settings chain store log ∧ log.party = wallet

def PostedFor (group : LedgerGroup) : Prop := ∃ owner ∈ store.developers.rows, ∃ wallet,
    owner.walletAddress = some wallet ∧
      Touches settings chain store wallet ∧ CrossingOf owner.id group

end

section

variable {settings : WatcherSettings} {chain : Chain network}
  {store : Store} {order : EventOrder} {reorged : Session}

theorem not_stored_of_unseen (distinct : (store.events.map fun event => event.key).Nodup)
    (handled : handleReorg settings chain store.developers order (scanStart settings chain store)
      ⟨store.events, [], [], store.ledger, {}⟩ = .ok reorged) {log : ChainLog}
    (held : OnChain chain log) (unseen : reorged.sees log = false) :
    log ∉ store.events.map ChainEvent.toChainLog := by
  intro stored
  obtain ⟨event, mem, same⟩ := mem_map.mp stored
  obtain ⟨_, _, kept⟩ := handleReorg_ok handled ⟨rfl, rfl⟩ distinct
  have canonical : orphaned chain event = false := by
    have block := held.1
    rw [← same] at block
    simp [orphaned, block]
  have stays : event ∈ reorged.remaining := (kept event).mpr ⟨mem, by simp [canonical]⟩
  have seen : reorged.sees log = true := by
    unfold Session.sees
    rw [any_eq_true]
    refine ⟨event, (Session.mem_remaining.mp stays).1, ?_⟩
    rw [← same]
    exact decide_eq_true rfl
  rw [unseen] at seen
  cases seen

theorem due_of_unprocessed {flushed : Session}
    (distinct : (store.events.map fun event => event.key).Nodup)
    (handled : handleReorg settings chain store.developers order (scanStart settings chain store)
      ⟨store.events, [], [], store.ledger, {}⟩ = .ok reorged)
    (ingested : Flushed chain (scanStart settings chain store) reorged flushed)
    {event : ChainEvent} (mem : event ∈ unprocessed flushed) :
    (∃ row ∈ store.events, row.toChainLog = event.toChainLog ∧ row.processed = false) ∨
      (event.toChainLog ∈ chain.getLogs (scanStart settings chain store) chain.latestBlock ∧
        event.toChainLog ∉ store.events.map ChainEvent.toChainLog) := by
  obtain ⟨here, processed⟩ := mem_filter.mp ((perm_insertionSort _ _).mem_iff.mp mem)
  rw [ingested.rows] at here
  rcases mem_append.mp here with stays | new
  · obtain ⟨_, _, kept⟩ := handleReorg_ok handled ⟨rfl, rfl⟩ distinct
    exact Or.inl ⟨event, ((kept event).mp stays).1, rfl,
      by simpa using processed⟩
  · obtain ⟨log, unseen, rfl⟩ := mem_map.mp new
    obtain ⟨listed, hidden⟩ := mem_filter.mp unseen
    have unseenLog : reorged.sees log = false := by simpa using hidden
    exact Or.inr ⟨listed, not_stored_of_unseen distinct handled
      (mem_getLogs.mp listed).2.2 unseenLog⟩

theorem scan_posts {after : Store} {result : ScanResult}
    (distinct : (store.events.map fun event => event.key).Nodup)
    (ok : scan settings chain order store = .ok (after, result)) :
    ∃ rows, after.ledger = store.ledger ++ rows ∧
      ∀ group ∈ rows, PostedFor settings chain store group := by
  obtain ⟨_, _, _, handled, flushes, applies, rfl⟩ := scan_stages ok
  obtain ⟨pending, _, _⟩ := handleReorg_ok handled ⟨rfl, rfl⟩ distinct
  have ingested := flush_ingested pending flushes
  have reversed := @Serial.foldlM_invariant Session _ ChainEvent
    (fun session => ∃ rows, session.ledger = store.ledger ++ rows ∧
      ∀ group ∈ rows, PostedFor settings chain store group) _ _ _ _ ?_
    ⟨[], (append_nil _).symm, nofun⟩ handled
  · -- the rows to apply are stored and unprocessed, or new
    refine (@Serial.foldlM_invariant Session _ ChainEvent (fun session => session.Clean ∧
        ∃ rows, session.ledger = store.ledger ++ rows ∧
          ∀ group ∈ rows, PostedFor settings chain store group) _ _ _ _ ?_
      ⟨ingested.clean, ingested.ledger ▸ reversed⟩ applies).2
    rintro _ event _ mem ⟨clean, rows, ledger, posted⟩ moves
    obtain ⟨stays, effect⟩ := confirmEvent_ok moves clean
    refine ⟨stays, ?_⟩
    by_cases shallow : chain.latestBlock + 1 < settings.confirmations + event.blockNumber
    · rw [confirmEvent, if_pos shallow] at moves
      cases moves
      exact ⟨rows, ledger, posted⟩
    · rcases effect with rfl | ⟨_, grown⟩
      · exact ⟨rows, ledger, posted⟩
      · refine ⟨rows ++ effectRows settings store.developers event, ?_, ?_⟩
        · rw [grown, ledger, append_assoc]
        · intro group inside
          rcases mem_append.mp inside with old | new
          · exact posted group old
          · obtain ⟨effectful, owner, found, crossing⟩ := mem_effectRows new
            obtain ⟨known, wallet⟩ := developerFor_some found
            exact ⟨owner, known, event.party, wallet, Or.inr
              ⟨event.toChainLog, ⟨effectful, not_lt.mp shallow,
                due_of_unprocessed distinct handled ingested mem⟩, rfl⟩,
              crossing⟩
  · rintro _ event _ mem ⟨rows, ledger, posted⟩ moves
    rcases dropOrphan_posts moves with
      same | ⟨orphan, processed, effectful, owner, group, found, crossing, grown⟩
    · exact ⟨rows, same.trans ledger, posted⟩
    · refine ⟨rows ++ [group], ?_, ?_⟩
      · rw [grown, ledger, append_assoc]
      · intro other inside
        rcases mem_append.mp inside with old | new
        · exact posted other old
        · rw [mem_singleton.mp new]
          obtain ⟨known, wallet⟩ := developerFor_some found
          have visited := mem_filter.mp ((order.perm _).mem_iff.mp mem)
          exact ⟨owner, known, event.party, wallet, Or.inl ⟨event,
            ⟨visited.1, by simpa using visited.2, orphan, processed,
              effectful⟩, rfl⟩, crossing⟩

end

end Gridix.Watcher
