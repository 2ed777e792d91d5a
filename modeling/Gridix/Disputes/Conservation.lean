import Gridix.Disputes.Model

/-!
# Conservation of disputed stake

While a dispute is open or under review its amount is held in the `disputed`
account of its provider, and nowhere else.
-/

namespace Gridix.Disputes

open List Serial

def Dispute.held (providerId : Uuid) (dispute : Dispute) : Int :=
  if dispute.providerId = providerId ∧ dispute.state.terminal = false then
    dispute.amount
  else 0

/-- The stake that open disputes hold. -/
def Tables.held (tables : Tables) (providerId : Uuid) : Int :=
  (tables.disputes.map (Dispute.held providerId)).sum

def disputedBalance (tables : Tables) (providerId : Uuid) : Int :=
  accountBalance tables.ledger .disputed (some providerId)

structure Sound (tables : Tables) : Prop where
  keys : (tables.disputes.map Dispute.id).Nodup
  amounts : ∀ dispute ∈ tables.disputes, 0 ≤ dispute.amount
  disputed : ∀ providerId, disputedBalance tables providerId = tables.held providerId
  stake : ∀ providerId, 0 ≤ providerStake tables providerId

/-- No slash is negative, and the automatic adjudicators are not run on a
dispute that was already ruled on. -/
def Orderly (tables : Tables) : Call → Prop
  | .openDispute _ _ amount _ _ _ => 0 ≤ amount
  | .autoAdjudicate id => ∀ dispute ∈ tables.dispute? id, dispute.state.terminal = false
  | .quorumRevote id _ => ∀ dispute ∈ tables.dispute? id, dispute.state.terminal = false
  | _ => True

inductive Movement (tables : Tables) : Tables → Prop where
  | nothing : Movement tables tables
  | deposited (providerId : Uuid) {amount : Int} {group : LedgerGroup} : 0 ≤ amount →
      group.postings = transferPostings .protocol none .stake (some providerId) amount →
      Movement tables { tables with ledger := tables.ledger ++ [group] }
  | opened {dispute : Dispute} {rows : Ledger} :
      (∀ other ∈ tables.disputes, other.id ≠ dispute.id) →
      dispute.state = .opened →
      0 ≤ dispute.amount →
      dispute.amount ≤ providerStake tables dispute.providerId →
      rows.flatMap LedgerGroup.postings = (if 0 < dispute.amount then
          transferPostings .stake (some dispute.providerId) .disputed
            (some dispute.providerId) dispute.amount
        else []) →
      Movement tables
        { ledger := tables.ledger ++ rows
          disputes := tables.disputes ++ [dispute] }
  | escalated {dispute : Dispute} : dispute ∈ tables.disputes → dispute.state.terminal = false →
      Movement tables (tables.update dispute.id Dispute.escalated)
  | resolved {dispute : Dispute} (upheld : Bool) (rulingReason : String)
      (now : Int) {rows : Ledger} :
      dispute ∈ tables.disputes →
      dispute.state.terminal = false →
      rows.flatMap LedgerGroup.postings = (if 0 < dispute.amount then
          releasePostings dispute.providerId dispute.amount upheld
        else []) →
      Movement tables
        { ledger := tables.ledger ++ rows
          disputes := KeyedRows.update Dispute.id dispute.id
            (.ruled upheld rulingReason now) tables.disputes }

section

variable {settings : Settings} {now : Int} {tables moved : Tables}
  {dispute : Dispute} {postings : List Posting} {reason : Reason} {id providerId : Uuid}
  {verdict : Option DisputeState} {amount : Int}

theorem post_ok {jobId : Option Uuid} (ok : tables.post postings reason jobId = .ok moved) :
    (∀ posting ∈ postings, 0 ≤ posting.amount) ∧ ∃ group : LedgerGroup, group.postings = postings ∧
        moved = { tables with ledger := tables.ledger ++ [group] } := by
  unfold Tables.post at ok
  split at ok
  · cases ok
  · rename_i posted
    obtain ⟨rfl, _, nonneg⟩ := postTransaction_ok posted
    cases ok
    exact ⟨nonneg, _, rfl, rfl⟩

theorem postPositive_ok {jobId : Option Uuid}
    (ok : tables.postPositive amount postings reason jobId = .ok moved) :
    ∃ rows : Ledger, rows.flatMap LedgerGroup.postings = (if 0 < amount then postings else []) ∧
      moved = { tables with ledger := tables.ledger ++ rows } := by
  unfold Tables.postPositive at ok
  split_ifs at ok with posts
  · obtain ⟨_, _, same, rfl⟩ := post_ok ok
    rw [if_pos posts, ← same]
    simp
  · cases ok
    refine ⟨[], ?_, ?_⟩
    · rw [if_neg posts]
      rfl
    · rw [append_nil]

theorem load_ok (ok : tables.load id = .ok dispute) :
    tables.dispute? id = some dispute ∧ dispute ∈ tables.disputes := by
  unfold Tables.load at ok
  split at ok
  · cases ok
  · rename_i found
    cases ok
    exact ⟨found, mem_of_find?_eq_some found⟩

theorem dispute?_eq_none (absent : ¬(tables.dispute? id).isSome) :
    ∀ other ∈ tables.disputes, other.id ≠ id := by
  rw [Option.not_isSome_iff_eq_none, Tables.dispute?, List.find?_eq_none] at absent
  intro other mem same
  exact absent other mem (beq_iff_eq.mpr same)

theorem depositStake_movement (ok : depositStake providerId amount tables = .ok moved) :
    Movement tables moved := by
  obtain ⟨nonneg, _, postings, rfl⟩ := post_ok ok
  refine .deposited providerId ?_ postings
  exact nonneg _ mem_cons_self

theorem resolveDispute_movement {upheld : Bool} {rulingReason : String}
    (mem : dispute ∈ tables.disputes)
    (ok : resolveDispute dispute upheld rulingReason now tables = .ok moved) :
    Movement tables moved := by
  unfold resolveDispute at ok
  split at ok
  · cases ok
    exact .nothing
  · rename_i terminal
    obtain ⟨_, posted, ok⟩ := bind_eq_ok.mp ok
    obtain ⟨_, postings, rfl⟩ := postPositive_ok posted
    cases ok
    rw [Bool.not_eq_true] at terminal
    exact .resolved upheld rulingReason now mem terminal postings

theorem perform_movement {call : Call} (sound : Sound tables) (orderly : Orderly tables call)
    (ok : perform settings now call tables = .ok moved) :
    Movement tables moved := by
  cases call with
  | depositStake => exact depositStake_movement ok
  | openDispute _ providerId =>
    obtain ⟨_, posted, ok⟩ := bind_eq_ok.mp ok
    obtain ⟨_, postings, rfl⟩ := postPositive_ok posted
    split_ifs at ok with taken
    cases ok
    exact .opened (dispute?_eq_none taken) rfl (le_min orderly (sound.stake providerId))
        (min_le_right _ _) postings
  | contestDispute =>
    obtain ⟨_, loaded, ok⟩ := bind_eq_ok.mp ok
    cases ok
    unfold contestDispute
    split_ifs with refused
    · exact .nothing
    · apply Movement.escalated ((load_ok loaded).2)
      rw [not_or, not_not] at refused
      rw [refused.1]
      rfl
  | resolveDispute =>
    obtain ⟨_, loaded, ok⟩ := bind_eq_ok.mp ok
    exact resolveDispute_movement (load_ok loaded).2 ok
  | autoAdjudicate =>
    obtain ⟨dispute, loaded, ok⟩ := bind_eq_ok.mp ok
    obtain ⟨⟨_, _⟩, adjudicated, ok⟩ := bind_eq_ok.mp ok
    cases ok
    obtain ⟨found, mem⟩ := load_ok loaded
    have pending := (orderly dispute found)
    obtain ⟨known, _, adjudicated⟩ := bind_eq_ok.mp adjudicated
    cases known with
    | none =>
      cases adjudicated
      exact .escalated mem pending
    | some =>
      dsimp only at adjudicated
      split_ifs at adjudicated
      · cases adjudicated
        exact .escalated mem pending
      all_goals
        obtain ⟨_, resolved, adjudicated⟩ := bind_eq_ok.mp adjudicated
        cases adjudicated
        exact resolveDispute_movement mem resolved
  | quorumRevote =>
    obtain ⟨dispute, loaded, ok⟩ := bind_eq_ok.mp ok
    obtain ⟨⟨_, _⟩, revoted, ok⟩ := bind_eq_ok.mp ok
    cases ok
    obtain ⟨found, mem⟩ := load_ok loaded
    have pending := (orderly dispute found)
    unfold quorumRevote at revoted
    dsimp only at revoted
    split_ifs at revoted
    · cases revoted
      exact .escalated mem pending
    · split at revoted
      · cases revoted
      · split at revoted
        · cases revoted
          exact .escalated mem pending
        · obtain ⟨_, resolved, revoted⟩ := bind_eq_ok.mp revoted
          cases revoted
          exact resolveDispute_movement mem resolved
        · cases revoted

end

theorem accountBalance_rows (rows : Ledger) (account : LedgerAccount) (ref : Option Uuid) :
    accountBalance rows account ref =
      sumPostings account .credit ref (rows.flatMap LedgerGroup.postings) -
        sumPostings account .debit ref (rows.flatMap LedgerGroup.postings) := by
  rw [accountBalance, Ledger.sum_eq_entries, Ledger.sum_eq_entries]
  rfl

theorem accountBalance_transfer {rows : Ledger} {source target : LedgerAccount}
    {sourceRef targetRef : Option Uuid} {amount : Int} (nonneg : 0 ≤ amount)
    (postings : rows.flatMap LedgerGroup.postings = (if 0 < amount then
      transferPostings source sourceRef target targetRef amount else [])) (account : LedgerAccount)
    (ref : Uuid) :
    accountBalance rows account (some ref) =
      (if target = account ∧ targetRef = some ref then amount else 0) -
        (if source = account ∧ sourceRef = some ref then amount else 0) := by
  rw [accountBalance_rows, postings]
  by_cases pos : 0 < amount
  · simp [pos]
  · have zero : amount = 0 := by omega
    simp [zero, sumPostings]

section

variable {tables moved : Tables} {dispute : Dispute}

theorem Sound.held_update (sound : Sound tables) (mem : dispute ∈ tables.disputes)
    (change : Dispute → Dispute) (providerId : Uuid) :
    (tables.update dispute.id change).held providerId = tables.held providerId +
        ((change dispute).held providerId - dispute.held providerId) :=
  KeyedRows.sum_update (Dispute.held providerId) sound.keys mem

theorem Sound.rows_update (sound : Sound tables) (id : Uuid)
    {change : Dispute → Dispute} (sameId : ∀ row, (change row).id = row.id)
    (sameAmount : ∀ row, (change row).amount = row.amount) :
    ((tables.update id change).disputes.map Dispute.id).Nodup ∧
      ∀ row ∈ (tables.update id change).disputes, 0 ≤ row.amount := by
  constructor
  · unfold Tables.update
    rw [KeyedRows.keys_update sameId]
    exact sound.keys
  · intro row updated
    obtain ⟨before, source, rfl | rfl⟩ : ∃ before ∈ tables.disputes, row = before ∨ row = change
        before := by
      obtain ⟨before, source, rfl⟩ := mem_map.mp updated
      refine ⟨before, source, ?_⟩
      split_ifs
      · exact .inr rfl
      · exact .inl rfl
    · exact sound.amounts _ source
    · rw [sameAmount]
      exact sound.amounts before source

theorem Sound.deposited (sound : Sound tables) (providerId : Uuid)
    {amount : Int} {group : LedgerGroup} (nonneg : 0 ≤ amount)
    (postings : group.postings = transferPostings .protocol none .stake (some providerId) amount) :
    Sound { tables with ledger := tables.ledger ++ [group] } := by
  have added (account : LedgerAccount) (ref : Uuid) : accountBalance [group] account (some ref) =
        if account = .stake ∧ providerId = ref then amount else 0 := by
    rw [accountBalance_rows, flatMap_singleton, postings]
    simp [eq_comm]
  refine ⟨sound.keys, sound.amounts, ?_, ?_⟩
  · intro ref
    have before := sound.disputed ref
    unfold disputedBalance at before ⊢
    rw [accountBalance_append, added, before, if_neg (by simp), add_zero]
    rfl
  · intro ref
    have before := sound.stake ref
    unfold providerStake at before ⊢
    rw [accountBalance_append, added]
    split_ifs <;> omega

theorem Sound.opened (sound : Sound tables) {rows : Ledger}
    (fresh : ∀ other ∈ tables.disputes, other.id ≠ dispute.id) (isOpen : dispute.state = .opened)
    (nonneg : 0 ≤ dispute.amount)
    (covered : dispute.amount ≤ providerStake tables dispute.providerId)
    (postings : rows.flatMap LedgerGroup.postings = (if 0 < dispute.amount then
      transferPostings .stake (some dispute.providerId) .disputed
      (some dispute.providerId) dispute.amount else [])) :
    Sound
      { ledger := tables.ledger ++ rows
        disputes := tables.disputes ++ [dispute] } := by
  have disputed (ref : Uuid) : accountBalance rows .disputed (some ref) =
        if dispute.providerId = ref then dispute.amount else 0 := by
    rw [accountBalance_transfer nonneg postings]
    simp
  have stake (ref : Uuid) : accountBalance rows .stake (some ref) =
        -(if dispute.providerId = ref then dispute.amount else 0) := by
    rw [accountBalance_transfer nonneg postings]
    simp
  refine ⟨?_, ?_, ?_, ?_⟩
  · simp only [map_append]
    refine nodup_append.mpr ⟨sound.keys, nodup_singleton _, ?_⟩
    intro _ listed _ isNew
    obtain ⟨row, mem, rfl⟩ := mem_map.mp listed
    rw [mem_singleton.mp isNew]
    exact fresh row mem
  · intro row mem
    rcases mem_append.mp mem with old | new
    · exact sound.amounts row old
    · rw [mem_singleton.mp new]
      exact nonneg
  · intro ref
    have before := sound.disputed ref
    simp only [disputedBalance, Tables.held, map_append,
      sum_append, map_cons, map_nil, sum_singleton,
      Dispute.held, isOpen, DisputeState.terminal, and_true]
      at before ⊢
    rw [accountBalance_append, disputed, before]
  · intro ref
    have before := sound.stake ref
    unfold providerStake at before covered ⊢
    rw [accountBalance_append, stake]
    split_ifs with own
    · subst own
      omega
    · omega

theorem Sound.escalated (sound : Sound tables) (mem : dispute ∈ tables.disputes)
    (pending : dispute.state.terminal = false) :
    Sound (tables.update dispute.id Dispute.escalated) := by
  obtain ⟨keys, amounts⟩ := sound.rows_update dispute.id
    (fun _ => rfl : ∀ row : Dispute, row.escalated.id = row.id)
    (fun _ => rfl)
  refine ⟨keys, amounts, ?_, sound.stake⟩
  intro ref
  have same : dispute.escalated.held ref = dispute.held ref := by
    have reviewed : dispute.escalated.state.terminal = false := rfl
    simp only [Dispute.held, reviewed, pending]
    rfl
  rw [sound.held_update mem, same, Int.sub_self, Int.add_zero]
  exact sound.disputed ref

theorem Sound.resolved (sound : Sound tables) (upheld : Bool) (rulingReason : String) (now : Int)
    {rows : Ledger} (mem : dispute ∈ tables.disputes) (pending : dispute.state.terminal = false)
    (postings : rows.flatMap LedgerGroup.postings = (if 0 < dispute.amount then
      releasePostings dispute.providerId dispute.amount upheld else [])) :
    Sound
      { ledger := tables.ledger ++ rows
        disputes := KeyedRows.update Dispute.id dispute.id
          (.ruled upheld rulingReason now) tables.disputes } := by
  have nonneg := sound.amounts dispute mem
  have disputed (ref : Uuid) : accountBalance rows .disputed (some ref) =
        -(if dispute.providerId = ref then dispute.amount else 0) := by
    rw [accountBalance_transfer nonneg postings]
    cases upheld <;> simp
  have stake (ref : Uuid) : 0 ≤ accountBalance rows .stake (some ref) := by
    rw [accountBalance_transfer nonneg postings]
    split_ifs
    all_goals simp_all
  have closed (ref : Uuid) : (dispute.ruled upheld rulingReason now).held ref = 0 := by
    cases upheld <;> simp [Dispute.held, Dispute.ruled, ruling, DisputeState.terminal]
  obtain ⟨keys, amounts⟩ := sound.rows_update dispute.id (fun _ => rfl : ∀ row : Dispute,
      (row.ruled upheld rulingReason now).id = row.id)
    (fun _ => rfl)
  refine ⟨keys, amounts, ?_, ?_⟩
  · intro ref
    have before := sound.disputed ref
    have held := sound.held_update mem (.ruled upheld rulingReason now) ref
    have own : dispute.held ref =
        if dispute.providerId = ref then dispute.amount else 0 := by
      simp [Dispute.held, pending]
    unfold disputedBalance at before ⊢
    rw [accountBalance_append, disputed]
    change _ = (tables.update dispute.id _).held ref
    rw [held, closed, own]
    split_ifs <;> omega
  · intro ref
    have before := sound.stake ref
    have added := stake ref
    unfold providerStake at before ⊢
    rw [accountBalance_append]
    omega

theorem Sound.movement (sound : Sound tables) (movement : Movement tables moved) : Sound moved := by
  cases movement with
  | nothing => exact sound
  | deposited providerId nonneg postings => exact sound.deposited providerId nonneg postings
  | opened fresh isOpen nonneg covered postings =>
    exact sound.opened fresh isOpen nonneg covered postings
  | escalated mem pending => exact sound.escalated mem pending
  | resolved upheld rulingReason now mem pending postings =>
    exact sound.resolved upheld rulingReason now mem pending postings

theorem Movement.keeps_terminal (movement : Movement tables moved)
    (sound : Sound tables) {row : Dispute} (mem : row ∈ tables.disputes)
    (terminal : row.state.terminal = true) : row ∈ moved.disputes := by
  have apart {changed : Dispute} (here : changed ∈ tables.disputes)
      (pending : changed.state.terminal = false) : row.id ≠ changed.id := by
    intro same
    have equal := inj_on_of_nodup_map sound.keys mem here same
    rw [equal, pending] at terminal
    cases terminal
  cases movement with
  | nothing | deposited => exact mem
  | opened => exact mem_append_left _ mem
  | escalated here pending | resolved _ _ _ here pending =>
    exact KeyedRows.mem_update_of_ne mem (apart here pending)

end

def next (settings : Settings) (input : Int × Call) : Tables → Tables :=
  transact (perform settings input.1 input.2)

def Permitted (tables : Tables) (input : Int × Call) : Prop := Orderly tables input.2

/-- No dispute, nothing held, no stake below zero. -/
def Undisputed (tables : Tables) : Prop := tables.disputes = [] ∧ ∀ providerId,
    disputedBalance tables providerId = 0 ∧ 0 ≤ providerStake tables providerId

section

variable {settings : Settings} {tables : Tables}

theorem Sound.undisputed (undisputed : Undisputed tables) : Sound tables where
  keys := by simp [undisputed.1]
  amounts := by simp [undisputed.1]
  disputed := by
    intro providerId
    rw [(undisputed.2 providerId).1]
    simp [Tables.held, undisputed.1]
  stake := fun providerId => (undisputed.2 providerId).2

theorem Sound.next_movement (sound : Sound tables) {input : Int × Call}
    (permitted : Permitted tables input) :
    Movement tables (next settings input tables) := by
  rcases transact_cases (perform settings input.1 input.2) tables with ok | unchanged
  · exact perform_movement sound permitted ok
  · rw [next, unchanged]
    exact .nothing

theorem sound_of_reaches {start : Tables → Prop} (initially : ∀ tables, start tables → Sound tables)
    (reached : Reaches (next settings) Permitted start tables) :
    Sound tables :=
  reached.invariant initially fun _ _ sound permitted =>
    sound.movement (sound.next_movement permitted)

theorem terminal_of_reaches {later : Tables} (sound : Sound tables)
    (reached : Reaches (next settings) Permitted (· = tables) later)
    {row : Dispute} (mem : row ∈ tables.disputes)
    (terminal : row.state.terminal = true) : row ∈ later.disputes := by
  induction reached with
  | start same =>
    rw [same]
    exact mem
  | step reached _ permitted kept =>
    have soundHere := sound_of_reaches (fun _ same => by rwa [same]) reached
    exact (soundHere.next_movement permitted).keeps_terminal soundHere kept terminal

end

/-- While slashes are not negative and no dispute that was ruled on is
adjudicated again, what is held is the amounts of the pending disputes, and no
stake is negative. -/
theorem dispute_money_conserved {settings : Settings} {tables : Tables}
    (reached : Reaches (next settings) Permitted Undisputed tables) :
    (∀ providerId, disputedBalance tables providerId = tables.held providerId ∧
        0 ≤ providerStake tables providerId) ∧
    ∀ later, Reaches (next settings) Permitted (· = tables) later →
      ∀ dispute ∈ tables.disputes, dispute.state.terminal = true →
        later.dispute? dispute.id = some dispute := by
  have sound := sound_of_reaches (fun _ => Sound.undisputed) reached
  refine ⟨fun providerId => ⟨sound.disputed providerId, sound.stake providerId⟩, ?_⟩
  intro later onwards dispute member terminal
  have soundLater := sound_of_reaches (fun _ same => by rwa [same]) onwards
  have kept := terminal_of_reaches sound onwards member terminal
  cases found : later.dispute? dispute.id with
  | none =>
    have absent := dispute?_eq_none (Option.not_isSome_iff_eq_none.mpr found) dispute kept
    exact absurd rfl absent
  | some =>
    have present := mem_of_find?_eq_some found
    have same := List.find?_some found
    rw [beq_iff_eq] at same
    rw [inj_on_of_nodup_map soundLater.keys present kept same]

def noTables : Tables := ⟨[], []⟩

theorem noTables_undisputed : Undisputed noTables := ⟨rfl, fun _ => ⟨rfl, Int.le_refl 0⟩⟩

/-- Provider 7 is slashed twice; the second slash finds only part of its amount.
-/
def twoSlashes : List (Int × Call) := [(0, .depositStake 7 100),
   (1, .openDispute 1 7 60 "quorum_disagree" none none),
   (2, .openDispute 2 7 70 "canary_fail" none (some [("expected_output_hash", .str "a"),
            ("submitted_output_hash", .str "b")])),
   (3, .contestDispute 1), (4, .autoAdjudicate 2)]

def after (calls : List (Int × Call)) : Tables := Serial.run (next .default) calls noTables

theorem dispute_money_conserved_twoSlashes : disputedBalance (after twoSlashes) 7 = 60 ∧
      (after twoSlashes).held 7 = 60 ∧
      ((after twoSlashes).dispute? 2).map Dispute.state = some .upheld := by
  have balance : disputedBalance (after twoSlashes) 7 = 60 := by decide +kernel
  have reached : Reaches (next .default) Permitted Undisputed (after twoSlashes) := by
    apply Reaches.run (.start noTables_undisputed)
    refine ⟨trivial, ?_, ?_, trivial, ?_, trivial⟩
    · exact Int.le_of_lt (by decide : (0 : Int) < 60)
    · exact Int.le_of_lt (by decide : (0 : Int) < 70)
    · intro dispute found
      have pending : ((after (twoSlashes.take 4)).dispute? 2).map
          (fun dispute => dispute.state.terminal) = some false := by
        decide +kernel
      change (after (twoSlashes.take 4)).dispute? 2 = some dispute at found
      rw [found] at pending
      exact Option.some.inj pending
  refine ⟨balance, ?_, ?_⟩
  · exact balance ▸ ((dispute_money_conserved reached).1 7).1.symm
  · decide +kernel

def upheldSlash : List (Int × Call) := [(0, .depositStake 7 100),
   (1, .openDispute 1 7 60 "quorum_disagree" none none),
   (2, .resolveDispute 1 true "confirmed")]

def ruledAgain : List (Int × Call) :=
  [(3, .autoAdjudicate 1), (4, .resolveDispute 1 false "mistake")]

theorem adjudication_reopens_ruling :
    ((after upheldSlash).dispute? 1).map Dispute.state = some .upheld ∧
      ((after (upheldSlash ++ ruledAgain.take 1)).dispute? 1).map
        Dispute.state = some .underReview ∧
      disputedBalance (after (upheldSlash ++ ruledAgain.take 1)) 7 = 0 ∧
      (after (upheldSlash ++ ruledAgain.take 1)).held 7 = 60 ∧
      disputedBalance (after (upheldSlash ++ ruledAgain)) 7 = -60 ∧
      providerStake (after (upheldSlash ++ ruledAgain)) 7 = 100 := by
  decide +kernel

end Gridix.Disputes
