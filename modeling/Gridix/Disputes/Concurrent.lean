import Gridix.Base.ReadCommitted
import Gridix.Disputes.Model

/-!
# Concurrent slashes and rulings

The statements of `open_dispute` and `rule_on_dispute` as they reach the
database.  A slash caps its amount by two sums that it reads without a lock, and
a ruling checks the state of a row that it loads without one.
-/

namespace Gridix.Disputes.Concurrent

open ReadCommitted List

structure Entry where
  group : LedgerGroup
  origin : Option Uuid

structure Db where
  entries : List Entry
  disputes : List Dispute

def Db.ledger (db : Db) : Ledger := db.entries.map Entry.group

def Db.stake (db : Db) (providerId : Uuid) : Int :=
  accountBalance db.ledger .stake (some providerId)

/-- The entry moves the held amount of a dispute out of `disputed`. -/
def Entry.releases (id : Uuid) (entry : Entry) : Bool :=
  entry.origin == some id && (entry.group.reason == .slashConfirmed ||
    entry.group.reason == .slashReversed)

/-- The groups that release the stake of a dispute. -/
def Db.released (db : Db) (id : Uuid) : Nat := db.entries.countP (Entry.releases id)

def Db.dispute? (db : Db) (id : Uuid) : Option Dispute :=
  db.disputes.find? fun dispute => dispute.id == id

inductive Row where
  | provider (id : Uuid)
  | dispute (id : Uuid)
  deriving DecidableEq, Repr

structure Slash where
  id : Uuid
  amount : Int
  reason : String
  jobId : Option Uuid
  evidence : Option Proof
  windowExpiresAt : Int
  movesReputation : Bool

def Slash.dispute (providerId : Uuid) (slash : Slash) (held : Int) : Dispute where
  id := slash.id
  providerId := providerId
  jobId := slash.jobId
  amount := held
  state := .opened
  reason := slash.reason
  evidence := slash.evidence
  rulingReason := none
  windowExpiresAt := some slash.windowExpiresAt
  resolvedAt := none

def Slash.locks (providerId : Uuid) (slash : Slash) : List (Row × LockMode) :=
  if slash.movesReputation then [(.provider providerId, .noKeyUpdate)]
  else []

structure Ruling where
  id : Uuid
  upheld : Bool
  reason : String
  now : Int

/-- The control points.  `opened` are the disputes that the transaction has
opened so far. -/
inductive Point where
  | slash (opened : List Dispute) (rest : List Slash)
  | stakeDebits (opened : List Dispute) (slash : Slash) (rest : List Slash) (credits : Int)
  | hold (opened : List Dispute) (slash : Slash) (rest : List Slash) (held : Int)
  | insert (opened : List Dispute) (slash : Slash) (rest : List Slash) (held : Int)
  | rule (ruling : Ruling)
  | release (ruling : Ruling) (dispute : Dispute)
  | close (ruling : Ruling) (dispute : Dispute)
  | ruleCommit (ruling : Ruling) (dispute : Dispute)
  | refused (status : Nat)
  | raised (error : LedgerError)
  | done

def flush (locks : List (Row × LockMode))
    (posting : Except LedgerError Ledger) (origin : Uuid) (next : Point) :
    Stmt Db Row Point :=
  match posting with
  | .ok groups => .write locks (fun db =>
    { db with entries :=
        db.entries ++ groups.map fun group => ⟨group, some origin⟩ }) next
  | .error error => .rollback (.raised error)

def stmt (providerId : Uuid) : Point → Stmt Db Row Point
  | .slash _ [] => .commit .done
  -- `provider_stake`: the credits, then the debits
  | .slash opened (slash :: rest) =>
    .query fun db => .stakeDebits opened slash rest (db.ledger.sum .stake .credit (some providerId))
  | .stakeDebits opened slash rest credits =>
    .query fun db => .hold opened slash rest (min slash.amount
      (credits - db.ledger.sum .stake .debit (some providerId)))
  | .hold opened slash rest held =>
    if 0 < held then
      flush (slash.locks providerId) (postTransaction (transferPostings .stake (some providerId)
          .disputed (some providerId) held) .slashHold slash.jobId none)
        slash.id (.insert opened slash rest held)
    else .query fun _ => .insert opened slash rest held
  | .insert opened slash rest held =>
    .write ((.provider providerId, .keyShare) :: slash.locks providerId)
      (fun db => { db with
        disputes := db.disputes ++ [slash.dispute providerId held] })
      (.slash (opened ++ [slash.dispute providerId held]) rest)
  | .rule ruling =>
    .query fun db =>
      match db.dispute? ruling.id with
      | none => .refused 404
      | some dispute =>
        if dispute.state.terminal then .refused 409
        else .release ruling dispute
  | .release ruling dispute =>
    if 0 < dispute.amount then
      flush [] (postTransaction (releasePostings dispute.providerId dispute.amount ruling.upheld)
          (if ruling.upheld then .slashConfirmed else .slashReversed)
          dispute.jobId none)
        dispute.id (.close ruling dispute)
    else .query fun _ => .close ruling dispute
  | .close ruling dispute =>
    .write [(.dispute dispute.id, .noKeyUpdate)]
      (fun db => { db with
        disputes := KeyedRows.update Dispute.id dispute.id
          (.ruled ruling.upheld ruling.reason ruling.now) db.disputes })
      (.ruleCommit ruling dispute)
  | .ruleCommit _ _ => .commit .done
  | .refused _ => .rollback .done
  | .raised _ => .halt
  | .done => .halt

def program (providerId : Uuid) : Program Db Row Point where
  stmt := stmt providerId
  onAbort := fun _ => .done

def holdEntries (dispute : Dispute) : List Entry :=
  if 0 < dispute.amount then
    [⟨⟨transferPostings .stake (some dispute.providerId) .disputed
        (some dispute.providerId) dispute.amount, .slashHold,
      dispute.jobId, none⟩, some dispute.id⟩]
  else []

def releaseEntries (upheld : Bool) (dispute : Dispute) : List Entry :=
  if 0 < dispute.amount then
    [⟨⟨releasePostings dispute.providerId dispute.amount upheld,
      if upheld then .slashConfirmed else .slashReversed,
      dispute.jobId, none⟩, some dispute.id⟩]
  else []

def Point.entries (providerId : Uuid) : Point → List Entry
  | .slash opened _ => opened.flatMap holdEntries
  | .stakeDebits opened _ _ _ => opened.flatMap holdEntries
  | .hold opened _ _ _ => opened.flatMap holdEntries
  | .insert opened current _ held => opened.flatMap holdEntries ++
      holdEntries (current.dispute providerId held)
  | .close ruling dispute => releaseEntries ruling.upheld dispute
  | .ruleCommit ruling dispute => releaseEntries ruling.upheld dispute
  | _ => []

def Point.table : Point → List Dispute → List Dispute
  | .slash opened _, rows => rows ++ opened
  | .stakeDebits opened _ _ _, rows => rows ++ opened
  | .hold opened _ _ _, rows => rows ++ opened
  | .insert opened _ _ _, rows => rows ++ opened
  | .ruleCommit ruling dispute, rows =>
    KeyedRows.update Dispute.id dispute.id (.ruled ruling.upheld ruling.reason ruling.now) rows
  | _, rows => rows

def Point.flushed (providerId : Uuid) (point : Point) (db : Db) : Db where
  entries := db.entries ++ point.entries providerId
  disputes := point.table db.disputes

def Point.sawStake : Point → Bool
  | .slash opened _ => !opened.isEmpty
  | .stakeDebits opened _ _ _ => !opened.isEmpty
  | .hold _ _ _ _ => true
  | .insert _ _ _ _ => true
  | _ => false

def Point.commitsSlash : Point → Bool
  | .slash opened [] => !opened.isEmpty
  | _ => false

def Point.rulesOn : Point → Option Uuid
  | .release _ dispute => some dispute.id
  | .close _ dispute => some dispute.id
  | .ruleCommit _ dispute => some dispute.id
  | _ => none

def Point.commitsRuling : Point → Option Uuid
  | .ruleCommit _ dispute => some dispute.id
  | _ => none

def Point.newIds : Point → List Uuid
  | .slash opened rest => opened.map Dispute.id ++ rest.map Slash.id
  | .stakeDebits opened current rest _ =>
    opened.map Dispute.id ++ current.id :: rest.map Slash.id
  | .hold opened current rest _ =>
    opened.map Dispute.id ++ current.id :: rest.map Slash.id
  | .insert opened current rest _ =>
    opened.map Dispute.id ++ current.id :: rest.map Slash.id
  | _ => []

def Point.Reads (providerId : Uuid) (view : Db) : Point → Prop
  | .stakeDebits _ _ _ credits =>
    credits ≤ view.ledger.sum .stake .credit (some providerId)
  | .hold _ _ _ held => held ≤ view.stake providerId
  | _ => True

/-- The commit of one changes the stake or the dispute that the other has read.
-/
def Point.disturbs (mover bystander : Point) : Bool := mover.commitsSlash && bystander.sawStake ||
    mover.commitsRuling.isSome && bystander.rulesOn == mover.commitsRuling

/-- Nobody commits over a stake or a dispute that another has read. -/
def Apart (world : World Db Row Point) : Action → Prop
  | .abort _ => True
  | .exec index =>
    ∀ conn ∈ world.conns[index]?, ∀ other < world.conns.length,
      other ≠ index → ∀ bystander ∈ world.conns[other]?, conn.point.disturbs bystander.point = false

instance (world : World Db Row Point) (action : Action) : Decidable (Apart world action) :=
  match action with
  | .abort _ => inferInstanceAs (Decidable True)
  | .exec index => inferInstanceAs (Decidable
      (∀ conn ∈ world.conns[index]?, ∀ other < world.conns.length,
        other ≠ index → ∀ bystander ∈ world.conns[other]?,
          conn.point.disturbs bystander.point = false))

section

variable {providerId : Uuid}

def stakeOf (providerId : Uuid) (entries : List Entry) : Int :=
  accountBalance (entries.map Entry.group) .stake (some providerId)

@[simp] theorem stakeOf_nil : stakeOf providerId [] = 0 := rfl

@[simp] theorem stakeOf_append (left right : List Entry) : stakeOf providerId (left ++ right) =
      stakeOf providerId left + stakeOf providerId right := by
  simp [stakeOf]

theorem stakeOf_holdEntries (slash : Slash) (held : Int) :
    stakeOf providerId (holdEntries (slash.dispute providerId held)) =
      if 0 < held then -held else 0 := by
  unfold holdEntries
  by_cases pos : 0 < held
  · simp [Slash.dispute, pos, stakeOf, accountBalance]
  · simp [Slash.dispute, pos]

theorem stakeOf_releaseEntries (upheld : Bool) (dispute : Dispute) :
    0 ≤ stakeOf providerId (releaseEntries upheld dispute) := by
  unfold releaseEntries
  by_cases pos : 0 < dispute.amount
  · have held := Int.le_of_lt pos
    cases upheld with
    | true => simp [pos, stakeOf, accountBalance, releasePostings]
    | false =>
      simp only [pos, if_true, stakeOf, accountBalance,
        releasePostings, map_cons, Ledger.sum_cons, sumPostings_transfer_credit]
      split_ifs <;> simp_all
  · simp [pos]

def creditOf (providerId : Uuid) (entries : List Entry) : Int :=
  Ledger.sum (entries.map Entry.group) .stake .credit (some providerId)

@[simp] theorem creditOf_append (left right : List Entry) : creditOf providerId (left ++ right) =
      creditOf providerId left + creditOf providerId right := by
  simp [creditOf]

theorem creditOf_holdEntries (dispute : Dispute) :
    creditOf providerId (holdEntries dispute) = 0 := by
  unfold holdEntries
  by_cases pos : 0 < dispute.amount <;> simp [pos, creditOf]

theorem creditOf_holds (opened : List Dispute) :
    creditOf providerId (opened.flatMap holdEntries) = 0 := by
  induction opened with
  | nil => rfl
  | cons _ _ ih => rw [flatMap_cons, creditOf_append, creditOf_holdEntries, ih, Int.add_zero]

theorem creditOf_releaseEntries (upheld : Bool) (dispute : Dispute) :
    0 ≤ creditOf providerId (releaseEntries upheld dispute) := by
  unfold releaseEntries
  by_cases pos : 0 < dispute.amount
  · have held := Int.le_of_lt pos
    simp only [pos, if_true, creditOf, releasePostings, map_cons, Ledger.sum_cons,
      sumPostings_transfer_credit]
    split_ifs <;> simp_all
  · simp [pos, creditOf]

theorem creditOf_entries (point : Point) : 0 ≤ creditOf providerId (point.entries providerId) := by
  cases point with
  | slash opened => exact Int.le_of_eq (creditOf_holds opened).symm
  | stakeDebits opened | hold opened => exact Int.le_of_eq (creditOf_holds opened).symm
  | insert =>
    rw [Point.entries, creditOf_append, creditOf_holds, creditOf_holdEntries, Int.add_zero]
  | close | ruleCommit => exact creditOf_releaseEntries _ _
  | rule | release | refused | raised | done => exact Int.le_refl 0

theorem released_holdEntries (dispute : Dispute) (id : Uuid) :
    (holdEntries dispute).countP (Entry.releases id) = 0 := by
  unfold holdEntries
  split_ifs <;> simp [Entry.releases]

theorem released_holds (opened : List Dispute) (id : Uuid) :
    (opened.flatMap holdEntries).countP (Entry.releases id) = 0 := by
  induction opened with
  | nil => rfl
  | cons _ _ ih => rw [flatMap_cons, countP_append, released_holdEntries, ih]

theorem released_releaseEntries (upheld : Bool) (dispute : Dispute) (id : Uuid) :
    (releaseEntries upheld dispute).countP (Entry.releases id) ≤
      if dispute.id = id then 1 else 0 := by
  unfold releaseEntries
  by_cases pos : 0 < dispute.amount
  · by_cases own : dispute.id = id <;> cases upheld <;> simp [pos, Entry.releases]
  · simp [pos]

variable (point : Point) (db : Db)

@[simp] theorem stake_flushed : (point.flushed providerId db).stake providerId =
      db.stake providerId + stakeOf providerId (point.entries providerId) := by
  simp [Point.flushed, Db.stake, Db.ledger, stakeOf]

@[simp] theorem credits_flushed : (point.flushed providerId db).ledger.sum .stake .credit
        (some providerId) =
      db.ledger.sum .stake .credit (some providerId) +
        creditOf providerId (point.entries providerId) := by
  simp [Point.flushed, Db.ledger, creditOf]

@[simp] theorem released_flushed (id : Uuid) :
    (point.flushed providerId db).released id = db.released id +
      (point.entries providerId).countP (Entry.releases id) := by
  simp [Point.flushed, Db.released]

end

def Db.tables (db : Db) : Tables := ⟨db.ledger, db.disputes⟩

theorem openDispute_alone {settings : Settings} {providerId : Uuid}
    {slash : Slash} {now : Int} {db : Db} {moved : Tables}
    (window : slash.windowExpiresAt = now + settings.disputeWindowSeconds * 1000000)
    (ok : openDispute settings slash.id providerId slash.amount
      slash.reason slash.jobId slash.evidence now db.tables = .ok moved) :
    moved = (Point.flushed providerId (.slash [slash.dispute providerId
        (min slash.amount (db.stake providerId))] []) db).tables := by
  rw [openDispute, postPositive_transfer] at ok
  obtain ⟨_, posted, ok⟩ := Serial.bind_eq_ok.mp ok
  split_ifs at ok
  cases ok
  cases posted
  have groups (held : Int) : (holdEntries (slash.dispute providerId held)).map Entry.group =
        if 0 < held then
          [⟨transferPostings .stake (some providerId) .disputed
            (some providerId) held, .slashHold, slash.jobId, none⟩]
        else [] := by
    unfold holdEntries Slash.dispute
    split_ifs <;> rfl
  simp only [Point.flushed, Point.entries, Db.tables,
    Db.ledger, flatMap_cons, flatMap_nil, append_nil,
    map_append, groups]
  simp only [Slash.dispute, window]
  rfl

theorem resolveDispute_alone {dispute : Dispute} {ruling : Ruling} {db : Db}
    (providerId : Uuid) (pending : dispute.state.terminal = false) :
    resolveDispute dispute ruling.upheld ruling.reason ruling.now db.tables =
      .ok (Point.flushed providerId (.ruleCommit ruling dispute) db).tables := by
  unfold resolveDispute
  rw [pending, releasePostings, postPositive_transfer]
  simp only [Bind.bind, Except.bind, Point.flushed, Point.entries,
    Point.table, Db.tables, Db.ledger, releaseEntries, releasePostings,
    Tables.update]
  by_cases pos : 0 < dispute.amount <;> simp [pos]

structure Each (providerId : Uuid) (committed : Db) (conn : Conn Db Row Point) : Prop where
  pending : conn.pending = conn.point.flushed providerId
  covered : conn.point.sawStake = true →
    0 ≤ (conn.point.flushed providerId committed).stake providerId
  reads : conn.point.Reads providerId (conn.point.flushed providerId committed)
  ruled : ∀ id, conn.point.rulesOn = some id →
    id ∈ committed.disputes.map Dispute.id ∧ committed.released id = 0
  fresh : ∀ id ∈ conn.point.newIds,
    id ∉ committed.disputes.map Dispute.id ∧ committed.released id = 0

def Pair (left right : Conn Db Row Point) : Prop :=
  ∀ id ∈ left.point.newIds, id ∉ right.point.newIds

instance (left right : Conn Db Row Point) : Decidable (Pair left right) :=
  inferInstanceAs (Decidable (∀ id ∈ left.point.newIds, id ∉ right.point.newIds))

structure Held (providerId : Uuid) (db : Db) : Prop where
  stake : 0 ≤ db.stake providerId
  released : ∀ id, db.released id ≤ 1
  pending : ∀ dispute ∈ db.disputes, dispute.state.terminal = false → db.released dispute.id = 0

def Whole (providerId : Uuid) (world : World Db Row Point) : Prop := Held providerId world.committed

theorem Each.done (providerId : Uuid) (committed : Db) :
    Each providerId committed (.fresh .done) := by
  refine ⟨?_, nofun, trivial, nofun, nofun⟩
  funext db
  simp [Conn.fresh, Point.flushed, Point.entries, Point.table]

section

variable {providerId : Uuid} {world : World Db Row Point} {index : Nat}
  {locks : List (Row × LockMode)} {moved : Conn Db Row Point}
  {committed : Db} {opened : List Dispute} {slash : Slash}
  {rest : List Slash} {ruling : Ruling} {dispute : Dispute}

abbrev standing (providerId : Uuid) (locks : List (Row × LockMode))
    (point : Point) : Conn Db Row Point :=
  ⟨point, point.flushed providerId, locks⟩

structure Executes (providerId : Uuid) (world : World Db Row Point)
    (index : Nat) (locks : List (Row × LockMode)) (point : Point)
    (moved : Conn Db Row Point) (committed : Db) : Prop where
  each : Each providerId world.committed (standing providerId locks point)
  executed : Executed world index (standing providerId locks point) moved committed
    (stmt providerId point)

/-- A move that commits nothing leaves the connection well described, and
opens no other disputes than planned. -/
def Continues (providerId : Uuid) (world : World Db Row Point)
    (point : Point) (moved : Conn Db Row Point) (committed : Db) : Prop :=
  committed = world.committed ∧ Each providerId world.committed moved ∧
    ∀ id ∈ moved.point.newIds, id ∈ point.newIds

theorem flush_hold {held : Int} (pos : 0 < held) (locks : List (Row × LockMode)) (next : Point) :
    flush locks (postTransaction (transferPostings .stake (some providerId)
        .disputed (some providerId) held) .slashHold slash.jobId none)
        slash.id next =
      .write locks (fun db => { db with
        entries := db.entries ++ holdEntries (slash.dispute providerId held) }) next := by
  rw [postTransaction_transfer _ _ _ _ _ _ _ (Int.le_of_lt pos)]
  simp [flush, holdEntries, Slash.dispute, pos]

theorem flush_release (pos : 0 < dispute.amount) (next : Point) : flush [] (postTransaction
        (releasePostings dispute.providerId dispute.amount ruling.upheld)
        (if ruling.upheld then .slashConfirmed else .slashReversed)
        dispute.jobId none) dispute.id next =
      .write [] (fun db => { db with
        entries := db.entries ++ releaseEntries ruling.upheld dispute }) next := by
  unfold releasePostings
  rw [postTransaction_transfer _ _ _ _ _ _ _ (Int.le_of_lt pos)]
  simp [flush, releaseEntries, releasePostings, pos]

theorem step_stakeDebits {credits : Int} (held : Held providerId world.committed)
    (executes : Executes providerId world index locks
      (.stakeDebits opened slash rest credits) moved committed) :
    Continues providerId world (.stakeDebits opened slash rest credits) moved committed := by
  obtain ⟨each, rfl, same⟩ := executes
  have reads : credits ≤ _ := each.reads
  refine ⟨same, ⟨rfl, ?_, ?_, nofun, each.fresh⟩, fun _ mem => mem⟩
  · intro _
    cases opened with
    | nil =>
      rw [stake_flushed]
      exact Int.add_nonneg held.stake (Int.le_refl 0)
    | cons => exact each.covered rfl
  · change min slash.amount (credits - _) ≤ accountBalance _ _ _
    refine (min_le_right _ _).trans ?_
    exact Int.sub_le_sub_right reads _

theorem step_hold {held : Int} (executes : Executes providerId world index locks
      (.hold opened slash rest held) moved committed) :
    Continues providerId world (.hold opened slash rest held) moved committed := by
  obtain ⟨each, executed⟩ := executes
  have covered := each.covered rfl
  have capped : held ≤ _ := each.reads
  simp only [stake_flushed, Point.entries] at covered capped
  by_cases pos : 0 < held
  · have code : stmt providerId (.hold opened slash rest held) = _ := if_pos pos
    rw [code, flush_hold pos] at executed
    obtain ⟨_, rfl, same⟩ := executed
    refine ⟨same, ⟨?_, ?_, trivial, nofun, each.fresh⟩, fun _ mem => mem⟩
    · funext db
      simp [Point.flushed, Point.entries, Point.table]
    · intro _
      simp only [stake_flushed, Point.entries, stakeOf_append, stakeOf_holdEntries]
      omega
  · have code : stmt providerId (.hold opened slash rest held) = _ := if_neg pos
    rw [code] at executed
    obtain ⟨rfl, same⟩ := executed
    refine ⟨same, ⟨?_, ?_, trivial, nofun, each.fresh⟩, fun _ mem => mem⟩
    · funext db
      simp [Point.flushed, Point.entries, Point.table, holdEntries, Slash.dispute, pos]
    · intro _
      simp only [stake_flushed, Point.entries, stakeOf_append, stakeOf_holdEntries]
      omega

theorem step_insert {held : Int} (executes : Executes providerId world index locks
      (.insert opened slash rest held) moved committed) :
    Continues providerId world (.insert opened slash rest held) moved committed := by
  obtain ⟨each, _, rfl, same⟩ := executes
  have ids : (Point.slash (opened ++ [slash.dispute providerId held])
      rest).newIds = (Point.insert opened slash rest held).newIds := by
    simp [Point.newIds, Slash.dispute]
  refine ⟨same, ⟨?_, ?_, trivial, nofun, ?_⟩, ?_⟩
  · funext db
    simp [Point.flushed, Point.entries, Point.table]
  · intro _
    have covered := each.covered rfl
    simpa [Point.entries] using covered
  · rw [ids]
    exact each.fresh
  · rw [ids]
    exact fun _ mem => mem

theorem step_rule (held : Held providerId world.committed)
    (executes : Executes providerId world index locks (.rule ruling) moved committed) :
    Continues providerId world (.rule ruling) moved committed := by
  obtain ⟨_, rfl, same⟩ := executes
  have view : Point.flushed providerId (.rule ruling) world.committed = world.committed := by
    simp [Point.flushed, Point.entries, Point.table]
  simp only [view]
  split
  · exact ⟨same, ⟨rfl, nofun, trivial, nofun, nofun⟩, nofun⟩
  · rename_i dispute found
    split_ifs with terminal
    · exact ⟨same, ⟨rfl, nofun, trivial, nofun, nofun⟩, nofun⟩
    · have member := mem_of_find?_eq_some found
      rw [Bool.not_eq_true] at terminal
      refine ⟨same, ⟨rfl, nofun, trivial, ?_, nofun⟩, nofun⟩
      intro _ rules
      cases rules
      exact ⟨mem_map_of_mem member, held.pending dispute member terminal⟩

theorem step_release (executes : Executes providerId world index locks
      (.release ruling dispute) moved committed) :
    Continues providerId world (.release ruling dispute) moved committed := by
  obtain ⟨each, executed⟩ := executes
  by_cases pos : 0 < dispute.amount
  · have code : stmt providerId (.release ruling dispute) = _ := if_pos pos
    rw [code, flush_release pos] at executed
    obtain ⟨_, rfl, same⟩ := executed
    refine ⟨same, ⟨?_, nofun, trivial, each.ruled, nofun⟩, nofun⟩
    funext db
    simp [Point.flushed, Point.entries, Point.table]
  · have code : stmt providerId (.release ruling dispute) = _ := if_neg pos
    rw [code] at executed
    obtain ⟨rfl, same⟩ := executed
    refine ⟨same, ⟨?_, nofun, trivial, each.ruled, nofun⟩, nofun⟩
    funext db
    simp [Point.flushed, Point.entries, Point.table, releaseEntries, pos]

theorem Executes.continues {point : Point} (held : Held providerId world.committed)
    (executes : Executes providerId world index locks point moved committed)
    (uncommitted : ∀ next, stmt providerId point ≠ .commit next) :
    Continues providerId world point moved committed := by
  cases point with
  | slash _ rest =>
    cases rest with
    | nil => exact absurd rfl (uncommitted .done)
    | cons =>
      obtain ⟨each, rfl, same⟩ := executes
      exact ⟨same, ⟨rfl, each.covered, Int.le_refl _, nofun, each.fresh⟩, fun _ mem => mem⟩
  | stakeDebits => exact step_stakeDebits held executes
  | hold => exact step_hold executes
  | insert => exact step_insert executes
  | rule => exact step_rule held executes
  | release => exact step_release executes
  | close =>
    obtain ⟨each, _, rfl, same⟩ := executes
    exact ⟨same, ⟨rfl, nofun, trivial, each.ruled, nofun⟩, nofun⟩
  | ruleCommit => exact absurd rfl (uncommitted .done)
  | refused =>
    obtain ⟨_, rfl, rfl⟩ := executes
    exact ⟨rfl, .done providerId _, nofun⟩
  | raised | done => exact executes.executed.elim

end

structure Commits (providerId : Uuid) (point : Point) : Prop where
  stake : point.commitsSlash = false → 0 ≤ stakeOf providerId (point.entries providerId)
  ids : ∀ rows : List Dispute, (point.table rows).map Dispute.id =
    rows.map Dispute.id ++ point.newIds
  released : ∀ id, point.commitsRuling ≠ some id →
    (point.entries providerId).countP (Entry.releases id) = 0

section

variable {providerId : Uuid} {committed : Db} {opened : List Dispute}
  {ruling : Ruling} {dispute : Dispute} {locks : List (Row × LockMode)}

theorem commits_slash (providerId : Uuid) (opened : List Dispute) :
    Commits providerId (.slash opened []) where
  stake := by
    intro nothing
    cases opened with
    | nil => exact Int.le_refl 0
    | cons => cases nothing
  ids := by
    simp [Point.table, Point.newIds]
  released := fun id _ => released_holds opened id

theorem commits_ruling (providerId : Uuid) (ruling : Ruling) (dispute : Dispute) :
    Commits providerId (.ruleCommit ruling dispute) where
  stake := fun _ => stakeOf_releaseEntries _ _
  ids := by
    intro _
    simp only [Point.newIds, append_nil]
    exact KeyedRows.keys_update fun _ => rfl
  released := by
    intro id other
    have count := released_releaseEntries ruling.upheld dispute id
    rw [if_neg fun same => other (congrArg some same)] at count
    exact Nat.le_zero.mp count

theorem Each.commit {mover : Point} {conn : Conn Db Row Point} (commits : Commits providerId mover)
    (each : Each providerId committed conn) (calm : mover.disturbs conn.point = false)
    (separate : ∀ id ∈ mover.newIds, id ∉ conn.point.newIds)
    (known : ∀ id, mover.commitsRuling = some id → id ∈ committed.disputes.map Dispute.id) :
    Each providerId (mover.flushed providerId committed) conn := by
  simp only [Point.disturbs, Bool.or_eq_false_iff] at calm
  obtain ⟨calmStake, calmRuling⟩ := calm
  have stake : conn.point.sawStake = true →
      (conn.point.flushed providerId committed).stake providerId ≤ (conn.point.flushed providerId
          (mover.flushed providerId committed)).stake providerId := by
    intro saw
    rw [saw, Bool.and_true] at calmStake
    have more := commits.stake calmStake
    simp only [stake_flushed]
    omega
  have released (id : Uuid) (other : mover.commitsRuling ≠ some id) :
      (mover.flushed providerId committed).released id = committed.released id := by
    rw [released_flushed, commits.released id other, Nat.add_zero]
  have ids (id : Uuid) : id ∈ (mover.flushed providerId committed).disputes.map Dispute.id ↔
        id ∈ committed.disputes.map Dispute.id ∨ id ∈ mover.newIds := by
    rw [Point.flushed, commits.ids, mem_append]
  refine ⟨each.pending, ?_, ?_, ?_, ?_⟩
  · intro saw
    exact (each.covered saw).trans (stake saw)
  · obtain ⟨point, _, _⟩ := conn
    cases point with
    | stakeDebits _ _ _ credits =>
      have reads : credits ≤ _ := each.reads
      have more := @creditOf_entries providerId mover
      change credits ≤ _
      simp only [credits_flushed] at reads ⊢
      omega
    | hold => exact Int.le_trans each.reads (stake rfl)
    | _ => trivial
  · intro id rules
    obtain ⟨here, unreleased⟩ := each.ruled id rules
    refine ⟨(ids id).mpr (.inl here), ?_⟩
    rw [released id, unreleased]
    intro same
    simp [rules, same] at calmRuling
  · intro id mem
    obtain ⟨absent, unreleased⟩ := each.fresh id mem
    constructor
    · intro here
      rcases (ids id).mp here with old | new
      · exact absent old
      · exact separate id new mem
    · rw [released id, unreleased]
      intro same
      exact absent (known id same)

theorem Held.afterSlash (held : Held providerId committed)
    (each : Each providerId committed (standing providerId locks (.slash opened []))) :
    Held providerId (Point.flushed providerId (.slash opened []) committed) := by
  have released (id : Uuid) : (Point.flushed providerId (.slash opened []) committed).released id =
        committed.released id := by
    rw [released_flushed]
    exact congrArg (committed.released id + ·) (released_holds opened id)
  refine ⟨?_, ?_, ?_⟩
  · cases opened with
    | nil =>
      rw [stake_flushed]
      exact Int.add_nonneg held.stake (Int.le_refl 0)
    | cons => exact each.covered rfl
  · intro id
    rw [released]
    exact held.released id
  · intro row mem pending
    rw [released]
    rcases mem_append.mp mem with old | new
    · exact held.pending row old pending
    · apply (each.fresh row.id _).2
      exact mem_append_left _ (mem_map_of_mem new)

theorem Held.afterRuling (held : Held providerId committed)
    (each : Each providerId committed (standing providerId locks (.ruleCommit ruling dispute))) :
    Held providerId (Point.flushed providerId (.ruleCommit ruling dispute) committed) := by
  have commits := commits_ruling providerId ruling dispute
  have unreleased := (each.ruled dispute.id rfl).2
  have released (id : Uuid) (other : dispute.id ≠ id) :
      (Point.flushed providerId (.ruleCommit ruling dispute)
        committed).released id = committed.released id := by
    rw [released_flushed, commits.released id fun same =>
      other (Option.some.inj same), Nat.add_zero]
  refine ⟨?_, ?_, ?_⟩
  · rw [stake_flushed]
    exact Int.add_nonneg held.stake (commits.stake rfl)
  · intro id
    by_cases own : dispute.id = id
    · subst own
      have count := released_releaseEntries ruling.upheld dispute dispute.id
      rw [if_pos rfl] at count
      rw [released_flushed, unreleased, Nat.zero_add]
      exact count
    · rw [released id own]
      exact held.released id
  · intro _ mem pending
    obtain ⟨before, source, rfl⟩ := mem_map.mp mem
    split_ifs at pending ⊢ with own
    · cases upheld : ruling.upheld <;> simp [Dispute.ruled, Disputes.ruling, upheld,
          DisputeState.terminal] at pending
    · rw [released before.id (Ne.symm own)]
      exact held.pending before source pending

theorem commit_cases {point next : Point} (code : stmt providerId point = .commit next) :
    next = .done ∧ ((∃ opened, point = .slash opened []) ∨
      ∃ ruling dispute, point = .ruleCommit ruling dispute) := by
  cases point with
  | slash opened rest =>
    cases rest with
    | nil =>
      cases code
      exact ⟨rfl, .inl ⟨opened, rfl⟩⟩
    | cons => cases code
  | ruleCommit ruling dispute =>
    cases code
    exact ⟨rfl, .inr ⟨ruling, dispute, rfl⟩⟩
  | hold =>
    simp only [stmt, flush] at code
    split_ifs at code
    split at code <;> cases code
  | release =>
    simp only [stmt, flush] at code
    split at code
    · split at code <;> cases code
    · cases code
  | _ => cases code

end

section

variable {providerId : Uuid} {world : World Db Row Point}

theorem undisturbed {action : Action} {conn moved : Conn Db Row Point} {committed : Db}
    (outline : Outline (Whole providerId) (Each providerId) Pair world) (apart : Apart world action)
    (found : world.conns[action.index]? = some conn)
    (acts : Acts (program providerId) world conn moved committed action) :
    Undisturbed (Whole providerId) (Each providerId) Pair world action.index moved committed := by
  have each := outline.each _ conn found
  have held : Held providerId world.committed := outline.whole
  -- a move that commits nothing disturbs nobody
  have silent (same : committed = world.committed) (mover : Each providerId world.committed moved)
      (ids : ∀ id ∈ moved.point.newIds, id ∈ conn.point.newIds) :
      Undisturbed (Whole providerId) (Each providerId) Pair world action.index moved committed := by
    subst same
    refine ⟨held, mover, ?_⟩
    intro other peer ne lookup
    refine ⟨outline.each other peer lookup, ?_, ?_⟩
    · intro id mem
      exact outline.pair _ _ conn peer ne.symm found lookup id (ids id mem)
    · intro id mem listed
      exact outline.pair _ _ peer conn ne lookup found id mem (ids id listed)
  cases action with
  | abort =>
    obtain ⟨rfl, same⟩ := acts
    exact silent same (.done providerId _) nofun
  | exec index => ?_
  obtain ⟨point, pending, locks⟩ := conn
  obtain rfl : pending = point.flushed providerId := each.pending
  by_cases commits : ∃ next, stmt providerId point = .commit next
  · obtain ⟨_, code⟩ := commits
    obtain ⟨rfl, cases⟩ := commit_cases code
    obtain ⟨rfl, rfl⟩ := acts.exec code
    have calm (other : Nat) (peer : Conn Db Row Point) (ne : other ≠ index)
        (lookup : world.conns[other]? = some peer) :
        point.disturbs peer.point = false := by
      obtain ⟨bound, -⟩ := List.getElem?_eq_some_iff.mp lookup
      exact apart _ found other bound ne peer lookup
    have summary : Commits providerId point ∧
        Held providerId (point.flushed providerId world.committed) ∧
        ∀ id, point.commitsRuling = some id → id ∈ world.committed.disputes.map Dispute.id := by
      rcases cases with ⟨_, rfl⟩ | ⟨_, _, rfl⟩
      · exact ⟨commits_slash _ _, held.afterSlash each, nofun⟩
      · refine ⟨commits_ruling _ _ _, held.afterRuling each, ?_⟩
        intro id rules
        exact (each.ruled id rules).1
    obtain ⟨effects, heldAfter, known⟩ := summary
    refine ⟨heldAfter, .done providerId _, ?_⟩
    intro other peer ne lookup
    refine ⟨?_, nofun, fun _ _ => nofun⟩
    exact (outline.each other peer lookup).commit effects (calm other peer ne lookup)
      (outline.pair _ _ _ peer ne.symm found lookup) known
  · have executes : Executes providerId world index locks point moved committed := ⟨each, acts⟩
    obtain ⟨same, mover, ids⟩ := executes.continues held (fun next code => commits ⟨next, code⟩)
    exact silent same mover ids

/-- No transaction is open yet; those to come slash the provider or rule on a
dispute, under identifiers that nobody else uses. -/
structure Starts (providerId : Uuid) (world : World Db Row Point) : Prop where
  held : Held providerId world.committed
  fresh : ∀ conn ∈ world.conns, ∃ point, conn = .fresh point ∧
    ((∃ slashes, point = .slash [] slashes) ∨ ∃ ruling, point = .rule ruling)
  ids : ∀ conn ∈ world.conns, ∀ id ∈ conn.point.newIds,
    id ∉ world.committed.disputes.map Dispute.id ∧ world.committed.released id = 0
  pair : world.conns.Pairwise Pair

theorem Starts.outline (starts : Starts providerId world) :
    Outline (Whole providerId) (Each providerId) Pair world where
  whole := starts.held
  each := by
    intro _ conn found
    have member := mem_of_getElem? found
    have ids := starts.ids conn member
    obtain ⟨_, rfl, ⟨_, rfl⟩ | ⟨_, rfl⟩⟩ := starts.fresh conn member
    all_goals
      refine ⟨?_, nofun, trivial, nofun, ids⟩
      funext db
      simp [Conn.fresh, Point.flushed, Point.entries, Point.table]
  pair := by
    intro left right _ _ ne leftFound rightFound
    obtain ⟨leftBound, rfl⟩ := List.getElem?_eq_some_iff.mp leftFound
    obtain ⟨rightBound, rfl⟩ := List.getElem?_eq_some_iff.mp rightFound
    have ordered := pairwise_iff_getElem.mp starts.pair
    rcases Nat.lt_or_gt_of_ne ne with before | after
    · exact ordered left right leftBound rightBound before
    · exact fun id listed mem => (ordered right left rightBound leftBound after) id mem listed
  compatible := by
    intro _ _ leftConn rightConn _ leftFound _
    obtain ⟨point, rfl, _⟩ := starts.fresh leftConn (mem_of_getElem? leftFound)
    exact .fresh point rightConn

/-- If no commit changes what another transaction has read, the stake is never
negative and no dispute's amount leaves the account twice. -/
theorem slashes_and_rulings_sound {start : World Db Row Point} (starts : Starts providerId start)
    (reached : Reaches (program providerId) Apart start world) :
    0 ≤ world.committed.stake providerId ∧ ∀ id, world.committed.released id ≤ 1 := by
  have outline := reached.outline_acts starts.outline
    fun current action conn moved committed outline apart found _ acts =>
      undisturbed outline apart found acts
  have held : Held providerId world.committed := outline.whole
  exact ⟨held.stake, held.released⟩

end

def exampleSlash (id : Uuid) (amount : Int) : Slash where
  id := id
  amount := amount
  reason := "quorum_disagree"
  jobId := none
  evidence := none
  windowExpiresAt := 0
  movesReputation := true

def staked : Db where
  entries := [⟨⟨transferPostings .protocol none .stake (some 7) 100, .stakeDeposit,
      none, none⟩, none⟩] ++
    holdEntries ((exampleSlash 1 60).dispute 7 60)
  disputes := [(exampleSlash 1 60).dispute 7 60]

def twoOfEach : World Db Row Point where
  committed := staked
  conns := [.fresh (.slash [] [exampleSlash 2 30]), .fresh (.slash [] [exampleSlash 3 30]),
     .fresh (.rule ⟨1, true, "confirmed", 0⟩),
     .fresh (.rule ⟨1, false, "mistake", 0⟩)]

theorem twoOfEach_starts : Starts 7 twoOfEach where
  held := by
    have unreleased (id : Uuid) : staked.released id = 0 := by
      simp [staked, Db.released, Entry.releases, holdEntries]
    exact ⟨by decide +kernel, fun id => (unreleased id).le.trans (Nat.zero_le 1),
      fun dispute _ _ => unreleased dispute.id⟩
  fresh := by
    intro _ mem
    simp only [twoOfEach, mem_cons, not_mem_nil, or_false] at mem
    rcases mem with rfl | rfl | rfl | rfl
    · exact ⟨_, rfl, .inl ⟨_, rfl⟩⟩
    · exact ⟨_, rfl, .inl ⟨_, rfl⟩⟩
    · exact ⟨_, rfl, .inr ⟨_, rfl⟩⟩
    · exact ⟨_, rfl, .inr ⟨_, rfl⟩⟩
  ids := by
    decide +kernel
  pair := by decide +kernel

def slashesRace : List Action :=
  [.exec 0, .exec 1, .exec 0, .exec 1] ++ List.replicate 3 (.exec 0) ++ List.replicate 3 (.exec 1)

def rulingsRace : List Action := [.exec 2, .exec 3] ++ List.replicate 3 (.exec 2) ++
    List.replicate 3 (.exec 3)

theorem slashes_and_rulings_race : Starts 7 twoOfEach ∧ (∃ world : World Db Row Point,
        Reaches (program 7) (fun _ _ => True) twoOfEach world ∧ world.committed.stake 7 = -20) ∧
      ∃ world : World Db Row Point, Reaches (program 7) (fun _ _ => True) twoOfEach world ∧
          world.committed.released 1 = 2 := by
  refine ⟨twoOfEach_starts, ?_, ?_⟩
  · exact exists_reaches slashesRace (by decide +kernel)
  · exact exists_reaches rulingsRace (by decide +kernel)

theorem slashes_and_rulings_sound_serially : ∃ world : World Db Row Point,
      run (program 7) Apart twoOfEach (List.replicate 5 (.exec 0) ++ List.replicate 5 (.exec 1) ++
          List.replicate 4 (.exec 2) ++ List.replicate 2 (.exec 3)) = some world ∧
      0 ≤ world.committed.stake 7 ∧
      ∀ id, world.committed.released id ≤ 1 :=
  exists_run (by decide +kernel) fun _ => slashes_and_rulings_sound twoOfEach_starts

end Gridix.Disputes.Concurrent
