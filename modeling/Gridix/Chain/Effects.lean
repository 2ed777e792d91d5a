import Gridix.Chain.Mirror

/-!
# Deposits and withdrawals in the ledger

Every posting of the watcher goes with a change of the stored events: an
applied effect with a row that becomes processed, a reversal with a processed
row that is dropped.  So for a developer who is known all along, the net amount
of the watcher's postings is the net amount of the processed rows.
-/

namespace Gridix.Watcher

open List Serial

variable {network : Network} {reason : Reason} {developers : Developers} {wallet : Address}
  {decimals : Nat} {events : List ChainEvent} {rows ledger : Ledger}

def watcherReason : Reason → Bool
  | .chainDeposit | .chainWithdraw | .reorgReverseDeposited
  | .reorgReverseWithdrawn => true
  | _ => false

/-- What the watcher's postings credit the developer with. -/
def mirrored (ledger : Ledger) (developer : Uuid) : Int :=
  accountBalance (ledger.filter fun group => watcherReason group.reason) .developer (some developer)

def LogEntry.signed (decimals : Nat) (entry : LogEntry) : Int :=
  match entry.eventName with
  | .deposited => fromUnits decimals entry.amount
  | .withdrawn => -fromUnits decimals entry.amount
  | .debited | .settled | .slashed => 0

def ChainEvent.credit (decimals : Nat) (wallet : Address) (event : ChainEvent) : Int :=
  if event.processed = true ∧ event.party = wallet then
    event.signed decimals
  else 0

def processedNet (decimals : Nat) (wallet : Address) (events : List ChainEvent) : Int :=
  (events.map (ChainEvent.credit decimals wallet)).sum

def ownedNet (decimals : Nat) (developer : Developer) (events : List ChainEvent) : Int :=
  match developer.walletAddress with
  | none => 0
  | some wallet => processedNet decimals wallet events

theorem mirrored_append (left right : Ledger) (developer : Uuid) :
    mirrored (left ++ right) developer = mirrored left developer + mirrored right developer := by
  simp [mirrored]

theorem mirrored_eq_zero (developer : Uuid)
    (others : ∀ group ∈ rows, watcherReason group.reason = false) :
    mirrored rows developer = 0 := by
  have none : (rows.filter fun group => watcherReason group.reason) = [] := by
    rw [filter_eq_nil_iff]
    intro group mem
    simp [others group mem]
  simp [mirrored, none, accountBalance]

theorem mirrored_credit (counted : watcherReason reason = true)
    (owner developer : Uuid) (amount : Int) (txHash : Option String) :
    mirrored [⟨transferPostings .protocol none .developer (some owner) amount,
      reason, none, txHash⟩] developer =
      if owner = developer then amount else 0 := by
  simp [mirrored, counted, accountBalance]

theorem mirrored_debit (counted : watcherReason reason = true)
    (owner developer : Uuid) (amount : Int) (txHash : Option String) :
    mirrored [⟨transferPostings .developer (some owner) .protocol none amount,
      reason, none, txHash⟩] developer =
      if owner = developer then -amount else 0 := by
  by_cases same : owner = developer <;> simp [mirrored, counted, accountBalance, same]

structure Matched (decimals : Nat) (developers : Developers)
    (ledger : Ledger) (events : List ChainEvent) : Prop where
  known : ∀ developer ∈ developers.rows,
    mirrored ledger developer.id = ownedNet decimals developer events
  strangers : ∀ id, id ∉ developers.rows.map Developer.id → mirrored ledger id = 0

/-- What the ledger has to move when the sum of a wallet does: the owner's
balance if there is an owner. -/
def Moves (developers : Developers) (wallet : Address) (amount : Int)
    (ledger moved : Ledger) : Prop :=
  match developerFor developers wallet with
  | none => moved = ledger
  | some owner => ∀ id, mirrored moved id = mirrored ledger id + if owner.id = id then amount else 0

theorem developerFor_some {owner : Developer}
    (found : developerFor developers wallet = some owner) :
    owner ∈ developers.rows ∧ owner.walletAddress = some wallet := by
  have holds := List.find?_some found
  exact ⟨mem_of_find?_eq_some found, by simpa using holds⟩

theorem Matched.move {moved : Ledger} {after : List ChainEvent} {amount : Int}
    (matched : Matched decimals developers ledger events)
    (moves : Moves developers wallet amount ledger moved)
    (sums : ∀ other, processedNet decimals other after = processedNet decimals other events +
      if other = wallet then amount else 0) :
    Matched decimals developers moved after := by
  unfold Moves at moves
  have elsewhere : ∀ developer : Developer, developer.walletAddress ≠ some wallet →
        ownedNet decimals developer after = ownedNet decimals developer events := by
    intro developer ne
    unfold ownedNet
    cases own : developer.walletAddress with
    | none => rfl
    | some other =>
      have apart : other ≠ wallet := by
        rintro rfl
        exact ne own
      simp [sums other, apart]
  cases found : developerFor developers wallet with
  | none =>
    rw [found] at moves
    subst moves
    refine ⟨?_, matched.strangers⟩
    intro developer known
    rw [elsewhere developer, matched.known developer known]
    intro own
    have absent := List.find?_eq_none.mp found developer known
    simp [own] at absent
  | some owner =>
    rw [found] at moves
    obtain ⟨ownerKnown, ownerWallet⟩ := developerFor_some found
    constructor
    · intro developer known
      rw [moves, matched.known developer known]
      by_cases same : owner.id = developer.id
      · have identical : owner = developer :=
          inj_on_of_nodup_map developers.ids ownerKnown known same
        subst identical
        simp [ownedNet, ownerWallet, sums]
      · rw [elsewhere developer]
        · simp [same]
        · intro own
          exact same (congrArg Developer.id
            (Developers.eq_of_wallet ownerKnown ownerWallet known own).symm)
    · intro id unknown
      have other : owner.id ≠ id := by
        rintro rfl
        exact unknown (mem_map_of_mem ownerKnown)
      rw [moves, matched.strangers id unknown]
      simp [other]

theorem Moves.nothing (developers : Developers) (wallet : Address)
    (ledger : Ledger) : Moves developers wallet 0 ledger ledger := by
  unfold Moves
  split
  · rfl
  · simp

section

variable {settings : WatcherSettings} {chain : Chain network}
  {developers : Developers} {decimals latest : Nat} {moved : Session} {events : List ChainEvent}
  {order : EventOrder} {result : ScanResult} {group : LedgerGroup} {base : Ledger}
  {session : Session} {event : ChainEvent} {rows : List ChainEvent} {ledger : Ledger}
  {store : Store}

theorem signed_eq_zero {entry : LogEntry} (plain : entry.eventName.effectful = false) :
    entry.signed decimals = 0 := by
  unfold LogEntry.signed
  cases name : entry.eventName <;> simp [name, EventName.effectful] at plain ⊢

theorem reverseApplied_moves (ok : reverseApplied settings developers session event = .ok moved) :
    Moves developers event.party (-event.credit settings.usdcDecimals event.party)
      session.ledger moved.ledger := by
  unfold reverseApplied at ok
  split_ifs at ok with applied
  · rw [Bool.and_eq_true] at applied
    have counted : event.credit settings.usdcDecimals event.party =
        event.signed settings.usdcDecimals := by
      simp [ChainEvent.credit, applied.1]
    rw [counted]
    unfold reverseEffect at ok
    unfold Moves
    cases found : developerFor developers event.party with
    | none =>
      rw [found] at ok
      cases ok
      rfl
    | some =>
      rw [found] at ok
      obtain ⟨posted, code, done⟩ := bind_eq_ok.mp ok
      cases done
      obtain ⟨_, _, _, ledger⟩ := Session.post_ok code
      intro id
      change mirrored posted.ledger id = _
      rw [ledger, mirrored_append]
      congr 1
      cases name : event.eventName with
      | deposited =>
        simp only [reversalReason, LogEntry.signed, name]
        exact mirrored_debit rfl _ _ _ _
      | withdrawn =>
        simp only [reversalReason, LogEntry.signed, name, neg_neg]
        exact mirrored_credit rfl _ _ _ _
      | debited | settled | slashed => simp [name, EventName.effectful] at applied
  · cases ok
    have uncounted : event.credit settings.usdcDecimals event.party = 0 := by
      rw [Bool.and_eq_true, not_and] at applied
      unfold ChainEvent.credit
      split_ifs with processed
      · exact signed_eq_zero (by simpa using applied processed.1)
      · rfl
    rw [uncounted]
    exact Moves.nothing developers event.party moved.ledger

theorem dropOrphan_matched (ok : dropOrphan settings chain developers session event = .ok moved)
    (nothing : session.added = []) (distinct : (session.remaining.map fun row => row.key).Nodup)
    (mem : event ∈ session.remaining)
    (matched : Matched settings.usdcDecimals developers session.ledger session.remaining) :
    moved.added = [] ∧ Matched settings.usdcDecimals developers moved.ledger moved.remaining ∧
      (moved.remaining.map fun row => row.key).Nodup ∧
      ∀ row ∈ session.remaining, row.key ≠ event.key → row ∈ moved.remaining := by
  unfold dropOrphan at ok
  split_ifs at ok
  · dsimp only at ok
    obtain ⟨reversed, code, done⟩ := bind_eq_ok.mp ok
    cases done
    have moves := reverseApplied_moves code
    obtain ⟨added, remaining, _⟩ := reverseApplied_events code nothing
    change reversed.remaining = session.remaining at remaining
    refine ⟨added, ?_, ?_, ?_⟩
    · rw [Session.remaining_delete, remaining]
      refine matched.move moves ?_
      intro other
      have dropped := KeyedRows.sum_remove
        (ChainEvent.credit settings.usdcDecimals other) distinct mem
      unfold processedNet
      rw [dropped]
      by_cases own : other = event.party
      · subst own
        simp
        omega
      · have uncounted : event.credit settings.usdcDecimals other = 0 := by
          simp [ChainEvent.credit, Ne.symm own]
        simp [own, uncounted]
    · rw [Session.remaining_delete, remaining]
      exact KeyedRows.nodup_remove _ distinct
    · intro _ here ne
      rw [Session.remaining_delete, remaining]
      exact KeyedRows.mem_remove.mpr ⟨here, ne⟩
  · cases ok
    exact ⟨nothing, matched, distinct, fun row here _ => here⟩

theorem foldlM_dropOrphan_matched
    (ok : rows.foldlM (dropOrphan settings chain developers) session = .ok moved)
    (nothing : session.added = []) (distinct : (session.remaining.map fun row => row.key).Nodup)
    (once : (rows.map fun row => row.key).Nodup) (members : ∀ row ∈ rows, row ∈ session.remaining)
    (matched : Matched settings.usdcDecimals developers session.ledger session.remaining) :
    Matched settings.usdcDecimals developers moved.ledger moved.remaining := by
  induction rows generalizing session with
  | nil =>
    cases ok
    exact matched
  | cons row _ ih =>
    rw [foldlM_cons, bind_eq_ok] at ok
    obtain ⟨_, head, ok⟩ := ok
    rw [map_cons, nodup_cons] at once
    obtain ⟨added, matches', keys, kept⟩ := dropOrphan_matched head nothing
      distinct (members row mem_cons_self) matched
    refine ih ok added keys once.2 ?_ matches'
    intro other later
    refine kept other (members other (mem_cons_of_mem _ later)) ?_
    intro same
    exact once.1 (mem_map.mpr ⟨other, later, same⟩)

theorem Matched.process {moved : Ledger} (matched : Matched decimals developers ledger events)
    (distinct : (events.map fun row => row.key).Nodup)
    (mem : event ∈ events) (waiting : event.processed = false)
    (moves : Moves developers event.party (event.signed decimals) ledger moved) :
    Matched decimals developers moved (KeyedRows.update (fun row : ChainEvent => row.key) event.key
        ChainEvent.process events) := by
  refine matched.move moves ?_
  intro other
  have changed := @KeyedRows.sum_update _ _ _ (fun row : ChainEvent => row.key)
    _ _ (ChainEvent.credit decimals other) ChainEvent.process distinct mem
  unfold processedNet
  rw [changed]
  by_cases own : other = event.party
  · subst own
    simp [ChainEvent.credit, ChainEvent.process, waiting]
  · simp [ChainEvent.credit, ChainEvent.process, own, Ne.symm own]

theorem Matched.confirm (matched : Matched decimals developers ledger events)
    (distinct : (events.map fun row => row.key).Nodup) (mem : event ∈ events) :
    Matched decimals developers ledger (KeyedRows.update (fun row : ChainEvent => row.key) event.key
        ChainEvent.confirm events) := by
  refine matched.move (Moves.nothing developers event.party ledger) ?_
  intro other
  have changed := @KeyedRows.sum_update _ _ _ (fun row : ChainEvent => row.key)
    _ _ (ChainEvent.credit decimals other) ChainEvent.confirm distinct mem
  have unmoved : ChainEvent.credit decimals other event.confirm =
      ChainEvent.credit decimals other event := rfl
  unfold processedNet
  rw [changed, unmoved]
  simp

theorem effectRows_moves (ledger : Ledger) (event : ChainEvent) :
    Moves developers event.party (event.signed settings.usdcDecimals) ledger
      (ledger ++ effectRows settings developers event) := by
  unfold Moves effectRows
  cases developerFor developers event.party with
  | none => exact append_nil ledger
  | some =>
    intro _
    rw [mirrored_append]
    congr 1
    unfold LogEntry.signed
    cases event.eventName with
    | deposited => exact mirrored_credit rfl _ _ _ _
    | withdrawn => exact mirrored_debit rfl _ _ _ _
    | debited | settled | slashed => simp [mirrored, accountBalance]

theorem confirmEvent_matched
    (ok : confirmEvent settings developers latest session event = .ok moved)
    (clean : session.Clean) (distinct : (session.events.map fun row => row.key).Nodup)
    (mem : event ∈ session.events) (waiting : event.processed = false)
    (matched : Matched settings.usdcDecimals developers session.ledger session.events) :
    moved.Clean ∧ Matched settings.usdcDecimals developers moved.ledger moved.events ∧
      (moved.events.map fun row => row.key).Nodup ∧
      ∀ row ∈ session.events, row.key ≠ event.key → row ∈ moved.events := by
  obtain ⟨moves, same | ⟨events, ledger⟩⟩ := confirmEvent_ok ok clean
  · rw [same]
    exact ⟨clean, matched, distinct, fun row here _ => here⟩
  · have confirmedDistinct := distinct
    rw [← Session.update_keys session event ChainEvent.confirm_toChainLog] at confirmedDistinct
    have confirmed : event.confirm ∈ (session.update event ChainEvent.confirm).events :=
      KeyedRows.mem_update_self mem
    refine ⟨moves, ?_, ?_, ?_⟩
    · rw [events, ledger]
      have agrees := (matched.confirm distinct mem).process confirmedDistinct confirmed waiting
        (effectRows_moves session.ledger event)
      exact agrees
    · rw [events, Session.update_keys _ event ChainEvent.process_toChainLog]
      exact confirmedDistinct
    · intro _ here ne
      rw [events]
      exact KeyedRows.mem_update_of_ne (KeyedRows.mem_update_of_ne here ne) ne

theorem foldlM_confirmEvent_matched
    (ok : rows.foldlM (confirmEvent settings developers latest) session = .ok moved)
    (clean : session.Clean) (distinct : (session.events.map fun row => row.key).Nodup)
    (once : (rows.map fun row => row.key).Nodup)
    (members : ∀ row ∈ rows, row ∈ session.events ∧ row.processed = false)
    (matched : Matched settings.usdcDecimals developers session.ledger session.events) :
    Matched settings.usdcDecimals developers moved.ledger moved.events := by
  induction rows generalizing session with
  | nil =>
    cases ok
    exact matched
  | cons row _ ih =>
    rw [foldlM_cons, bind_eq_ok] at ok
    obtain ⟨_, head, ok⟩ := ok
    rw [map_cons, nodup_cons] at once
    obtain ⟨here, waiting⟩ := members row mem_cons_self
    obtain ⟨moves, agrees, keys, kept⟩ := confirmEvent_matched head clean
      distinct here waiting matched
    refine ih ok moves keys once.2 ?_ agrees
    intro other later
    obtain ⟨otherPresent, otherWaiting⟩ := members other (mem_cons_of_mem _ later)
    refine ⟨kept other otherPresent ?_, otherWaiting⟩
    intro same
    exact once.1 (mem_map.mpr ⟨other, later, same⟩)

theorem Matched.insert (matched : Matched decimals developers ledger events)
    (logs : List ChainLog) :
    Matched decimals developers ledger (events ++ logs.map freshRow) := by
  refine matched.move (Moves.nothing developers 0 ledger) ?_
  intro other
  have fresh : processedNet decimals other (logs.map freshRow) = 0 := by
    unfold processedNet
    rw [map_map]
    apply sum_eq_zero
    intro _ mem
    obtain ⟨_, _, rfl⟩ := mem_map.mp mem
    simp [ChainEvent.credit, freshRow]
  unfold processedNet at fresh ⊢
  rw [map_append, sum_append, fresh]
  simp

theorem scan_matched {after : Store} (ok : scan settings chain order store = .ok (after, result))
    (distinct : (store.events.map fun event => event.key).Nodup)
    (matched : Matched settings.usdcDecimals store.developers store.ledger store.events) :
    Matched settings.usdcDecimals after.developers after.ledger after.events := by
  obtain ⟨_, _, _, handled, flushes, applies, rfl⟩ := scan_stages ok
  have opened : (⟨store.events, [], [], store.ledger, {}⟩ : Session).Clean := ⟨rfl, rfl⟩
  have window : ((order.shuffle (store.events.filter fun event =>
      scanStart settings chain store ≤ event.blockNumber)).map fun row =>
        row.key).Nodup := by
    rw [((order.perm _).map _).nodup_iff]
    exact distinct.sublist (filter_sublist.map _)
  have reversed := foldlM_dropOrphan_matched handled rfl
    (by rw [opened.remaining]; exact distinct) window
    (by
      intro _ mem
      rw [opened.remaining]
      exact (mem_filter.mp ((order.perm _).mem_iff.mp mem)).1)
    (by rw [opened.remaining]; exact matched)
  obtain ⟨pending, _, _⟩ := handleReorg_ok handled opened distinct
  have ingested := flush_ingested pending flushes
  refine foldlM_confirmEvent_matched applies ingested.clean ingested.keys ?_ ?_ ?_
  · unfold unprocessed
    rw [((perm_insertionSort _ _).map _).nodup_iff]
    exact ingested.keys.sublist (filter_sublist.map _)
  · intro _ mem
    have found := (perm_insertionSort _ _).mem_iff.mp mem
    simpa using mem_filter.mp found
  · rw [ingested.ledger, ingested.rows]
    exact reversed.insert _

inductive Crossing : LedgerGroup → Prop where
  | credit (owner : Uuid) (amount : Int) (reason : Reason)
      (txHash : Option String) (counted : watcherReason reason = true) :
      Crossing ⟨transferPostings .protocol none .developer (some owner) amount,
        reason, none, txHash⟩
  | debit (owner : Uuid) (amount : Int) (reason : Reason)
      (txHash : Option String) (counted : watcherReason reason = true) :
      Crossing ⟨transferPostings .developer (some owner) .protocol none amount,
        reason, none, txHash⟩

inductive CrossingOf (owner : Uuid) : LedgerGroup → Prop where
  | credit (amount : Int) (reason : Reason) (txHash : Option String)
      (counted : watcherReason reason = true) :
      CrossingOf owner ⟨transferPostings .protocol none .developer
        (some owner) amount, reason, none, txHash⟩
  | debit (amount : Int) (reason : Reason) (txHash : Option String)
      (counted : watcherReason reason = true) :
      CrossingOf owner ⟨transferPostings .developer (some owner) .protocol
        none amount, reason, none, txHash⟩

theorem CrossingOf.crossing {owner : Uuid}
    (crossing : CrossingOf owner group) : Crossing group := by
  cases crossing with
  | credit amount reason txHash counted => exact .credit owner amount reason txHash counted
  | debit amount reason txHash counted => exact .debit owner amount reason txHash counted

def Extends (base ledger : Ledger) : Prop :=
  ∃ rows, ledger = base ++ rows ∧ ∀ group ∈ rows, Crossing group

theorem Extends.refl (base : Ledger) : Extends base base := ⟨[], (append_nil base).symm, by simp⟩

theorem Extends.append {rows : Ledger} (grown : Extends base ledger)
    (crossing : ∀ group ∈ rows, Crossing group) :
    Extends base (ledger ++ rows) := by
  obtain ⟨earlier, rfl, known⟩ := grown
  refine ⟨earlier ++ rows, append_assoc _ _ _, ?_⟩
  intro group mem
  rcases mem_append.mp mem with old | new
  · exact known group old
  · exact crossing group new

theorem dropOrphan_posts (ok : dropOrphan settings chain developers session event = .ok moved) :
    moved.ledger = session.ledger ∨ orphaned chain event = true ∧ event.processed = true ∧
        event.eventName.effectful = true ∧
        ∃ owner group, developerFor developers event.party = some owner ∧
          CrossingOf owner.id group ∧
          moved.ledger = session.ledger ++ [group] := by
  unfold dropOrphan at ok
  split_ifs at ok with orphan
  · dsimp only at ok
    obtain ⟨_, code, done⟩ := bind_eq_ok.mp ok
    cases done
    unfold reverseApplied at code
    split_ifs at code with applied
    · unfold reverseEffect at code
      cases found : developerFor developers event.party with
      | none =>
        rw [found] at code
        cases code
        exact Or.inl rfl
      | some owner =>
        rw [found] at code
        obtain ⟨_, posts, done⟩ := bind_eq_ok.mp code
        cases done
        obtain ⟨_, _, _, ledger⟩ := Session.post_ok posts
        rw [Bool.and_eq_true] at applied
        refine Or.inr ⟨orphan, applied.1, applied.2, owner, _, rfl, ?_, ledger⟩
        unfold reversalPostings reversalReason
        split_ifs
        · exact .debit _ _ _ rfl
        · exact .credit _ _ _ rfl
    · cases code
      exact Or.inl rfl
  · cases ok
    exact Or.inl rfl

theorem dropOrphan_extends (ok : dropOrphan settings chain developers session event = .ok moved)
    (grown : Extends base session.ledger) : Extends base moved.ledger := by
  rcases dropOrphan_posts ok with same | ⟨_, _, _, _, _, _, crossing, posted⟩
  · rw [same]
    exact grown
  · rw [posted]
    refine grown.append ?_
    intro _ mem
    rw [mem_singleton.mp mem]
    exact crossing.crossing

theorem mem_effectRows (mem : group ∈ effectRows settings developers event) :
    event.eventName.effectful = true ∧ ∃ owner, developerFor developers event.party = some owner ∧
        CrossingOf owner.id group := by
  unfold effectRows at mem
  cases found : developerFor developers event.party with
  | none =>
    rw [found] at mem
    cases mem
  | some owner =>
    rw [found] at mem
    cases name : event.eventName with
    | deposited =>
      rw [name] at mem
      rw [mem_singleton.mp mem]
      exact ⟨rfl, owner, rfl, .credit _ _ _ rfl⟩
    | withdrawn =>
      rw [name] at mem
      rw [mem_singleton.mp mem]
      exact ⟨rfl, owner, rfl, .debit _ _ _ rfl⟩
    | debited | settled | slashed =>
      rw [name] at mem
      cases mem

theorem effectRows_crossing (event : ChainEvent) :
    ∀ group ∈ effectRows settings developers event, Crossing group := by
  intro _ mem
  obtain ⟨_, _, _, crossing⟩ := mem_effectRows mem
  exact crossing.crossing

theorem scan_extends {after : Store} (ok : scan settings chain order store = .ok (after, result)) :
    Extends store.ledger after.ledger ∧ after.developers = store.developers := by
  obtain ⟨reorged, flushed, _, handled, flushes, applies, rfl⟩ := scan_stages ok
  refine ⟨?_, rfl⟩
  have reversed : Extends store.ledger reorged.ledger :=
    @Serial.foldlM_invariant Session _ ChainEvent
      (fun session => Extends store.ledger session.ledger) _ _ _ _
      (fun _ _ _ _ grown moves => dropOrphan_extends moves grown)
      (Extends.refl store.ledger) handled
  have ingested := flush_ingested (foldlM_dropOrphan_ok handled rfl).pending flushes
  have started : flushed.Clean ∧ Extends store.ledger flushed.ledger := by
    refine ⟨ingested.clean, ?_⟩
    rw [ingested.ledger]
    exact reversed
  refine (@Serial.foldlM_invariant Session _ ChainEvent
    (fun session => session.Clean ∧ Extends store.ledger session.ledger)
    _ _ _ _ ?_ started applies).2
  rintro _ event _ _ ⟨clean, grown⟩ moves
  obtain ⟨stays, same | ⟨_, posted⟩⟩ := confirmEvent_ok moves clean
  · rw [same]
    exact ⟨clean, grown⟩
  · refine ⟨stays, ?_⟩
    rw [posted]
    exact grown.append (effectRows_crossing event)

end

/-- A wallet signs up for the first time only while its processed events
cancel out; the rest of the program posts under its own reasons. -/
def SignsUpEven (settings : WatcherSettings) (world : World network) : Action network → Prop
  | .signUp _ wallet =>
    wallet ∉ world.store.developers.rows.filterMap Developer.walletAddress →
    processedNet settings.usdcDecimals wallet world.store.events = 0
  | .elsewhere rows =>
    ∀ group ∈ rows, watcherReason group.reason = false
  | .tick _ | .failedTick | .chain _ => True

def World.Unscanned (world : World network) : Prop := world.Fresh ∧
    ∀ group ∈ world.store.ledger, watcherReason group.reason = false

structure Store.Agrees (settings : WatcherSettings) (store : Store) : Prop where
  distinct : (store.events.map fun event => event.key).Nodup
  matched : Matched settings.usdcDecimals store.developers store.ledger store.events

theorem Store.Agrees.unscanned (settings : WatcherSettings)
    {world : World network} (unscanned : world.Unscanned) :
    world.store.Agrees settings := by
  obtain ⟨⟨empty, _, _⟩, others⟩ := unscanned
  refine ⟨by simp [empty], ?_, ?_⟩
  · intro developer _
    rw [mirrored_eq_zero developer.id others, empty]
    unfold ownedNet
    cases developer.walletAddress with
    | none | some => rfl
  · intro id _
    exact mirrored_eq_zero id others

theorem Matched.signUp (matched : Matched decimals developers ledger events) (id : Uuid)
    (even : wallet ∉ developers.rows.filterMap Developer.walletAddress →
      processedNet decimals wallet events = 0) :
    Matched decimals (findOrCreateDeveloper developers id wallet) ledger events := by
  unfold findOrCreateDeveloper
  split_ifs with fresh
  · constructor
    · intro developer known
      rcases mem_append.mp known with old | new
      · exact matched.known developer old
      · rw [mem_singleton.mp new]
        exact (matched.strangers id fresh.1).trans (even fresh.2).symm
    · intro _ unknown
      apply matched.strangers
      intro old
      apply unknown
      rw [map_append]
      exact mem_append_left _ old
  · exact matched

theorem Matched.elsewhere (matched : Matched decimals developers ledger events)
    (others : ∀ group ∈ rows, watcherReason group.reason = false) :
    Matched decimals developers (ledger ++ rows) events := by
  have same : ∀ id, mirrored (ledger ++ rows) id = mirrored ledger id := by
    intro id
    rw [mirrored_append, mirrored_eq_zero id others, add_zero]
  constructor
  · intro developer known
    rw [same, matched.known developer known]
  · intro id unknown
    rw [same, matched.strangers id unknown]

theorem Store.Agrees.step {settings : WatcherSettings} {world : World network}
    (agrees : world.store.Agrees settings) (action : Action network)
    (even : SignsUpEven settings world action) :
    (step settings action world).store.Agrees settings := by
  cases action with
  | tick order =>
    simp only [Watcher.step]
    cases success : scan settings world.chain order world.store with
    | error => exact agrees
    | ok =>
      exact ⟨(scan_ok success agrees.distinct).1,
        scan_matched success agrees.distinct agrees.matched⟩
  | failedTick | chain => exact agrees
  | signUp id => exact ⟨agrees.distinct, agrees.matched.signUp id even⟩
  | elsewhere => exact ⟨agrees.distinct, agrees.matched.elsewhere even⟩

/-- In every state of a run whose sign-ups are even, the watcher's postings
for each developer are the processed events of the wallet. -/
theorem deposits_mirrored {settings : WatcherSettings} {world : World network}
    (reached : Reaches (step settings) (SignsUpEven settings) World.Unscanned world) :
    ∀ developer ∈ world.store.developers.rows, mirrored world.store.ledger developer.id =
        ownedNet settings.usdcDecimals developer world.store.events := by
  have agrees : world.store.Agrees settings := by
    induction reached with
    | start unscanned => exact Store.Agrees.unscanned settings unscanned
    | step _ action even agrees => exact agrees.step action even
  exact agrees.matched.known

def buriedChain : Chain depositNetwork :=
  chainOf ["0", "1", "2", "3", "4", "5a", "6", "7"] (by decide) (by decide)

def unburiedChain : Chain depositNetwork :=
  chainOf ["0", "1", "2", "3", "4", "5", "6b", "7b", "8b"] (by decide) (by decide)

def beforeDeposit : World depositNetwork := ⟨buriedChain, emptyStore, none⟩

def signUpThenScan : World depositNetwork := Serial.run (step watcherSettings)
    [.signUp 9 7, .tick .stored, .chain unburiedChain, .tick .stored]
    beforeDeposit

theorem deposits_mirrored_signUpFirst : signUpThenScan.store.developers.rows = [⟨9, some 7⟩] ∧
      ∀ developer ∈ signUpThenScan.store.developers.rows,
        mirrored signUpThenScan.store.ledger developer.id =
          ownedNet watcherSettings.usdcDecimals developer signUpThenScan.store.events := by
  refine ⟨by decide +kernel, deposits_mirrored ?_⟩
  have fresh : Reaches (step watcherSettings)
      (SignsUpEven watcherSettings) World.Unscanned beforeDeposit := by
    refine .start ⟨⟨rfl, rfl, rfl⟩, ?_⟩
    intro _ member
    cases member
  refine fresh.run ⟨?_, trivial, trivial, trivial, trivial⟩
  intro _
  rfl

def scanThenSignUp : World depositNetwork := Serial.run (step watcherSettings)
    [.tick .stored, .signUp 9 7, .tick .stored] beforeDeposit

/-- The deposit is marked processed while its wallet is unknown, so nobody is
ever credited, and a reversal is posted when it is orphaned. -/
theorem early_deposit_unmatched : scanThenSignUp.store.developers.rows = [⟨9, some 7⟩] ∧
      mirrored scanThenSignUp.store.ledger 9 = 0 ∧
      processedNet watcherSettings.usdcDecimals 7 scanThenSignUp.store.events = 500 ∧
      buriedChain.blocks.take (buriedChain.blocks.length - 3) <+: unburiedChain.blocks ∧
      3 ≤ watcherSettings.reorgWindow ∧
      mirrored (rescan scanThenSignUp unburiedChain).store.ledger 9 = -500 ∧
      processedNet watcherSettings.usdcDecimals 7
        (rescan scanThenSignUp unburiedChain).store.events = 0 := by
  decide +kernel

end Gridix.Watcher
