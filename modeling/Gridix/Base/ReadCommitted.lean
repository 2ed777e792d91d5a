import Mathlib.Algebra.BigOperators.Group.List.Basic
import Mathlib.Algebra.GroupWithZero.Nat
import Mathlib.Algebra.Ring.Int.Defs
import Mathlib.Data.Int.Basic
import Mathlib.Tactic.SplitIfs

/-!
# Transactions under READ COMMITTED

A connection runs a program one statement at a time.  Every statement sees the
rows committed so far together with the connection's own flushed writes;
nothing else of a transaction is visible to anybody before it commits.
-/

namespace ReadCommitted

open List

/-- The row lock modes of PostgreSQL that a statement can ask for. -/
inductive LockMode where
  | keyShare
  | noKeyUpdate
  | update
  deriving DecidableEq, Repr

def LockMode.conflicts : LockMode → LockMode → Bool
  | .keyShare, .keyShare => false
  | .keyShare, .noKeyUpdate => false
  | .noKeyUpdate, .keyShare => false
  | _, _ => true

theorem LockMode.conflicts_comm (left right : LockMode) :
    left.conflicts right = right.conflicts left := by
  cases left <;> cases right <;> rfl

inductive Stmt (Db Row Point : Type) where
  /-- A plain `SELECT`. -/
  | query (next : Db → Point)
  /-- `SELECT ... FOR UPDATE` of one row, which waits for the lock. -/
  | lock (row : Row) (mode : LockMode) (next : Db → Point)
  /-- `SELECT ... FOR UPDATE SKIP LOCKED`: the selected rows that nobody else
  has locked. -/
  | lockSkip (select : Db → List Row) (mode : LockMode) (next : List Row → Db → Point)
  /-- A flushed `INSERT` or `UPDATE`, with the row locks it needs. -/
  | write (rows : List (Row × LockMode)) (effect : Db → Db) (next : Point)
  | commit (next : Point)
  | rollback (next : Point)
  | halt

/-- The code of the connections: the statement at each control point, and
where a connection stands after its transaction was rolled back for it. -/
structure Program (Db Row Point : Type) where
  stmt : Point → Stmt Db Row Point
  onAbort : Point → Point

/-- A connection: its program point, what it has written, its locks. -/
structure Conn (Db Row Point : Type) where
  point : Point
  pending : Db → Db
  locks : List (Row × LockMode)

def Conn.fresh {Db Row Point : Type} (point : Point) : Conn Db Row Point :=
  { point := point, pending := id, locks := [] }

/-- The committed database and the connections to it. -/
structure World (Db Row Point : Type) where
  committed : Db
  conns : List (Conn Db Row Point)

/-- A connection executes its statement or is aborted. -/
inductive Action where
  | exec (index : Nat)
  | abort (index : Nat)
  deriving DecidableEq, Repr

variable {Db Row Point : Type}

/-- Some connection other than `index` holds a lock on `row` that conflicts
with `mode`. -/
def heldElsewhere [DecidableEq Row] (conns : List (Conn Db Row Point))
    (index : Nat) (row : Row) (mode : LockMode) : Bool :=
  conns.zipIdx.any fun entry =>
    entry.2 != index && entry.1.locks.any fun held =>
      held.1 == row && held.2.conflicts mode

/-- One action.  `none` when the connection has to wait, or has nothing left
to do. -/
def step [DecidableEq Row] (program : Program Db Row Point)
    (world : World Db Row Point) : Action → Option (World Db Row Point)
  | .exec index =>
    match world.conns[index]? with
    | none => none
    | some conn =>
      let move (conn : Conn Db Row Point) : World Db Row Point :=
        { world with conns := world.conns.set index conn }
      match program.stmt conn.point with
      | .query next =>
        some (move { conn with
          point := next (conn.pending world.committed) })
      | .lock row mode next =>
        if heldElsewhere world.conns index row mode then none
        else some (move { conn with
          point := next (conn.pending world.committed)
          locks := (row, mode) :: conn.locks })
      | .lockSkip select mode next =>
        let rows := (select (conn.pending world.committed)).filter
          fun row => !heldElsewhere world.conns index row mode
        some (move { conn with
          point := next rows (conn.pending world.committed)
          locks := rows.map (fun row => (row, mode)) ++ conn.locks })
      | .write rows effect next =>
        if rows.any fun need =>
            heldElsewhere world.conns index need.1 need.2 then none
        else some (move
          { point := next
            pending := fun db => effect (conn.pending db)
            locks := rows ++ conn.locks })
      | .commit next =>
        some
          { committed := conn.pending world.committed
            conns := world.conns.set index (.fresh next) }
      | .rollback next => some (move (.fresh next))
      | .halt => none
  | .abort index =>
    match world.conns[index]? with
    | none => none
    | some conn =>
      match program.stmt conn.point with
      | .halt => none
      | _ => some { world with
          conns := world.conns.set index (.fresh (program.onAbort conn.point)) }

/-- A row is free for a connection when no other connection holds a
conflicting lock on it. -/
def Free (conns : List (Conn Db Row Point)) (index : Nat) (row : Row) (mode : LockMode) : Prop :=
  ∀ other conn, other ≠ index → conns[other]? = some conn →
    ∀ held, (row, held) ∈ conn.locks → held.conflicts mode = false

theorem heldElsewhere_eq_false_iff [DecidableEq Row] (conns : List (Conn Db Row Point))
    (index : Nat) (row : Row) (mode : LockMode) :
    heldElsewhere conns index row mode = false ↔ Free conns index row mode := by
  simp only [heldElsewhere, any_eq_false]
  constructor
  · intro none other conn ne found held mem
    have entry : (conn, other) ∈ conns.zipIdx := mem_zipIdx_iff_getElem?.mpr found
    have absent := none (conn, other) entry
    simp only [Bool.and_eq_true, bne_iff_ne, ne_eq, ne,
      not_false_eq_true, true_and, any_eq_true, not_exists,
      not_and, beq_iff_eq, Bool.not_eq_true] at absent
    exact absent (row, held) mem rfl
  · rintro free ⟨conn, other⟩ entry
    have found : conns[other]? = some conn := mem_zipIdx_iff_getElem?.mp entry
    by_cases same : other = index
    · simp [same]
    · simp only [Bool.and_eq_true, bne_iff_ne, ne_eq, same,
        not_false_eq_true, true_and, any_eq_true, not_exists,
        not_and, beq_iff_eq, Bool.not_eq_true]
      rintro ⟨_, held⟩ mem rowEq
      subst rowEq
      exact free other conn same found held mem

/-- What executing a statement does to its connection and to the committed rows.
-/
def Executed (world : World Db Row Point) (index : Nat) (conn moved : Conn Db Row Point)
    (committed : Db) : Stmt Db Row Point → Prop
  | .query next =>
    moved = { conn with point := next (conn.pending world.committed) } ∧ committed = world.committed
  | .lock row mode next =>
    Free world.conns index row mode ∧ moved = { conn with
      point := next (conn.pending world.committed)
      locks := (row, mode) :: conn.locks } ∧ committed = world.committed
  | .lockSkip select mode next =>
    ∃ rows, (∀ row, row ∈ rows ↔ row ∈ select (conn.pending world.committed) ∧
        Free world.conns index row mode) ∧
      rows.Sublist (select (conn.pending world.committed)) ∧ moved = { conn with
        point := next rows (conn.pending world.committed)
        locks := rows.map (fun row => (row, mode)) ++ conn.locks } ∧ committed = world.committed
  | .write rows effect next =>
    (∀ row mode, (row, mode) ∈ rows → Free world.conns index row mode) ∧ moved =
      { point := next
        pending := fun db => effect (conn.pending db)
        locks := rows ++ conn.locks } ∧ committed = world.committed
  | .commit next => moved = .fresh next ∧ committed = conn.pending world.committed
  | .rollback next => moved = .fresh next ∧ committed = world.committed
  | .halt => False

def Action.index : Action → Nat
  | .exec index => index
  | .abort index => index

section

variable (program : Program Db Row Point) (world : World Db Row Point) (index : Nat)
  (conn moved : Conn Db Row Point) (committed : Db)

def Aborted : Prop := moved = .fresh (program.onAbort conn.point) ∧ committed = world.committed

def Move : Prop := (program.stmt conn.point ≠ .halt ∧ Aborted program world conn moved committed) ∨
    Executed world index conn moved committed (program.stmt conn.point)

def Acts : Action → Prop
  | .exec index => Executed world index conn moved committed (program.stmt conn.point)
  | .abort _ => Aborted program world conn moved committed

end

section

variable {program : Program Db Row Point} {world : World Db Row Point}
  {index : Nat} {action : Action} {conn moved : Conn Db Row Point}
  {committed : Db}

/-- Inversion of `step`: it moves one connection, by executing its statement
or by giving its transaction up. -/
theorem step_move [DecidableEq Row] {next : World Db Row Point}
    (stepped : step program world action = some next) :
    ∃ conn moved committed, world.conns[action.index]? = some conn ∧
        Move program world action.index conn moved committed ∧
        Acts program world conn moved committed action ∧
        next = { committed := committed
                 conns := world.conns.set action.index moved } := by
  cases action with
  | exec index =>
    have executed {conn moved : Conn Db Row Point} {committed : Db} {stmt : Stmt Db Row Point}
        (found : world.conns[index]? = some conn) (code : program.stmt conn.point = stmt)
        (does : Executed world index conn moved committed stmt) :
        ∃ conn after rows, world.conns[index]? = some conn ∧
          Move program world index conn after rows ∧
          Acts program world conn after rows (.exec index) ∧
          World.mk committed (world.conns.set index moved) =
            { committed := rows, conns := world.conns.set index after } := by
      subst code
      exact ⟨conn, moved, committed, found, .inr does, does, rfl⟩
    simp only [step] at stepped
    split at stepped
    · cases stepped
    · rename_i found
      split at stepped <;> rename_i code
      · cases stepped
        exact executed found code ⟨rfl, rfl⟩
      · split at stepped
        · cases stepped
        · rename_i unheld
          cases stepped
          refine executed found code ⟨?_, rfl, rfl⟩
          exact (heldElsewhere_eq_false_iff _ _ _ _).mp (Bool.eq_false_iff.mpr unheld)
      · cases stepped
        refine executed found code ⟨_, ?_, filter_sublist, rfl, rfl⟩
        intro _
        simp only [mem_filter, Bool.not_eq_true', heldElsewhere_eq_false_iff]
      · split at stepped
        · cases stepped
        · rename_i unheld
          cases stepped
          refine executed found code ⟨?_, rfl, rfl⟩
          intro row mode mem
          rw [any_eq_true] at unheld
          apply (heldElsewhere_eq_false_iff _ _ _ _).mp
          apply Bool.eq_false_iff.mpr
          intro held
          exact unheld ⟨(row, mode), mem, held⟩
      · cases stepped
        exact executed found code ⟨rfl, rfl⟩
      · cases stepped
        exact executed found code ⟨rfl, rfl⟩
      · cases stepped
  | abort _ =>
    simp only [step] at stepped
    split at stepped
    · cases stepped
    · rename_i conn found
      split at stepped
      · cases stepped
      · rename_i running
        cases stepped
        exact ⟨conn, _, _, found, .inl ⟨by simpa using running, rfl, rfl⟩, ⟨rfl, rfl⟩, rfl⟩

def Stmt.LeadsTo (target : Point) : Stmt Db Row Point → Prop
  | .query next => ∃ db, target = next db
  | .lock _ _ next => ∃ db, target = next db
  | .lockSkip _ _ next => ∃ rows db, target = next rows db
  | .write _ _ next => target = next
  | .commit next => target = next
  | .rollback next => target = next
  | .halt => False

theorem Move.leadsTo (move : Move program world index conn moved committed) :
    moved.point = program.onAbort conn.point ∨ (program.stmt conn.point).LeadsTo moved.point := by
  rcases move with ⟨_, rfl, _⟩ | executed
  · exact .inl rfl
  · refine .inr ?_
    revert executed
    cases program.stmt conn.point with
    | query =>
      rintro ⟨rfl, _⟩
      exact ⟨_, rfl⟩
    | lock =>
      rintro ⟨_, rfl, _⟩
      exact ⟨_, rfl⟩
    | lockSkip =>
      rintro ⟨_, _, _, rfl, _⟩
      exact ⟨_, _, rfl⟩
    | write =>
      rintro ⟨_, rfl, _⟩
      rfl
    | commit | rollback =>
      rintro ⟨rfl, _⟩
      rfl
    | halt => exact False.elim

/-- Inversion at a known statement: the connection executes it, or its
transaction is rolled back. -/
theorem Move.inv {stmt : Stmt Db Row Point} (move : Move program world index conn moved committed)
    (code : program.stmt conn.point = stmt) : Aborted program world conn moved committed ∨
      Executed world index conn moved committed stmt :=
  code ▸ move.imp_left And.right

theorem Acts.exec {stmt : Stmt Db Row Point}
    (acts : Acts program world conn moved committed (.exec index))
    (code : program.stmt conn.point = stmt) : Executed world index conn moved committed stmt :=
  code ▸ acts

theorem Move.halt_inv (move : Move program world index conn moved committed)
    (code : program.stmt conn.point = .halt) : False := by
  rcases move with ⟨running, _⟩ | executed
  · exact running code
  · rwa [code] at executed

end

/-- The worlds that allowed actions lead to. -/
inductive Reaches [DecidableEq Row] (program : Program Db Row Point)
    (allowed : World Db Row Point → Action → Prop)
    (start : World Db Row Point) : World Db Row Point → Prop where
  | refl : Reaches program allowed start start
  | step {world next : World Db Row Point} {action : Action} : Reaches program allowed start world →
      allowed world action →
      step program world action = some next →
      Reaches program allowed start next

def run [DecidableEq Row] (program : Program Db Row Point)
    (allowed : World Db Row Point → Action → Prop)
    [∀ world action, Decidable (allowed world action)] :
    World Db Row Point → List Action → Option (World Db Row Point)
  | world, [] => some world
  | world, action :: rest =>
    if allowed world action then
      (step program world action).bind fun next =>
        run program allowed next rest
    else none

section

variable [DecidableEq Row] {program : Program Db Row Point}
  {allowed : World Db Row Point → Action → Prop}
  {start world : World Db Row Point}

theorem reaches_of_run [∀ world action, Decidable (allowed world action)]
    {final : World Db Row Point} {schedule : List Action}
    (reached : Reaches program allowed start world)
    (ran : run program allowed world schedule = some final) :
    Reaches program allowed start final := by
  induction schedule generalizing world with
  | nil =>
    simp only [run, Option.some.injEq] at ran
    exact ran ▸ reached
  | cons _ _ ih =>
    simp only [run] at ran
    split_ifs at ran with permitted
    obtain ⟨_, stepped, continued⟩ := Option.bind_eq_some_iff.mp ran
    exact ih (.step reached permitted stepped) continued

/-- What a schedule shows can be reached. -/
theorem exists_reaches [∀ world action, Decidable (allowed world action)]
    {Shown : World Db Row Point → Prop} (schedule : List Action)
    (shown : ∃ world ∈ run program allowed start schedule, Shown world) :
    ∃ world, Reaches program allowed start world ∧ Shown world := by
  obtain ⟨world, ran, shown⟩ := shown
  exact ⟨world, reaches_of_run .refl ran, shown⟩

theorem exists_run [∀ world action, Decidable (allowed world action)]
    {Holds : World Db Row Point → Prop} {schedule : List Action}
    (runs : (run program allowed start schedule).isSome = true)
    (holds : ∀ world, Reaches program allowed start world → Holds world) :
    ∃ world, run program allowed start schedule = some world ∧ Holds world := by
  obtain ⟨world, ran⟩ := Option.isSome_iff_exists.mp runs
  exact ⟨world, ran, holds world (reaches_of_run .refl ran)⟩

theorem Reaches.strengthen {stronger : World Db Row Point → Action → Prop}
    (reached : Reaches program allowed start world)
    (guaranteed : ∀ world action, Reaches program allowed start world →
      allowed world action → stronger world action) :
    Reaches program stronger start world := by
  induction reached with
  | refl => exact .refl
  | step earlier permitted stepped ih => exact .step ih (guaranteed _ _ earlier permitted) stepped

theorem Reaches.everywhere {Stays : Point → Prop} (reached : Reaches program allowed start world)
    (initial : ∀ conn ∈ start.conns, Stays conn.point)
    (kept : ∀ point, Stays point → Stays (program.onAbort point) ∧
      ∀ target, (program.stmt point).LeadsTo target → Stays target) :
    ∀ conn ∈ world.conns, Stays conn.point := by
  induction reached with
  | refl => exact initial
  | step _ _ stepped ih =>
    obtain ⟨conn, _, _, found, move, _, rfl⟩ := step_move stepped
    intro other mem
    rcases mem_or_eq_of_mem_set mem with old | rfl
    · exact ih other old
    · obtain ⟨aborts, leads⟩ := kept conn.point (ih conn (mem_of_getElem? found))
      rcases move.leadsTo with gaveUp | led
      · exact gaveUp ▸ aborts
      · exact leads _ led

end

/-- `Reaches`, with the databases committed on the way, the latest first. -/
inductive Traced [DecidableEq Row] (program : Program Db Row Point)
    (allowed : World Db Row Point → Action → Prop)
    (start : World Db Row Point) :
    World Db Row Point → List Db → Prop where
  | refl : Traced program allowed start start [start.committed]
  | step {world next : World Db Row Point} {history : List Db} {action : Action} :
      Traced program allowed start world history →
      allowed world action →
      step program world action = some next →
      Traced program allowed start next (next.committed :: history)

section

variable [DecidableEq Row] {program : Program Db Row Point}
  {allowed : World Db Row Point → Action → Prop}
  {start world : World Db Row Point} {history : List Db}

theorem Traced.reaches (traced : Traced program allowed start world history) :
    Reaches program allowed start world := by
  induction traced with
  | refl => exact .refl
  | step _ permitted stepped reached => exact .step reached permitted stepped

theorem Traced.forall {Holds : Db → Prop} (traced : Traced program allowed start world history)
    (holds : ∀ world, Reaches program allowed start world → Holds world.committed) :
    ∀ db ∈ history, Holds db := by
  induction traced with
  | refl =>
    intro _ mem
    rw [mem_singleton.mp mem]
    exact holds _ .refl
  | step earlier permitted stepped ih =>
    intro db mem
    rcases mem_cons.mp mem with rfl | old
    · exact holds _ (.step earlier.reaches permitted stepped)
    · exact ih db old

theorem Traced.chain {Related : Db → Db → Prop}
    (traced : Traced program allowed start world history)
    (related : ∀ world action next, Reaches program allowed start world →
      allowed world action → ReadCommitted.step program world action =
      some next → Related world.committed next.committed) :
    ∃ rest, history = world.committed :: rest ∧
      history.IsChain fun after before => Related before after := by
  induction traced with
  | refl => exact ⟨[], rfl, .singleton _⟩
  | step earlier permitted stepped ih =>
    obtain ⟨_, rfl, chain⟩ := ih
    exact ⟨_, rfl, .cons_cons (related _ _ _ earlier.reaches permitted stepped) chain⟩

def runTraced (program : Program Db Row Point) : World Db Row Point → List Db → List Action →
      Option (World Db Row Point × List Db)
  | world, history, [] => some (world, history)
  | world, history, action :: rest =>
    (ReadCommitted.step program world action).bind fun next =>
      runTraced program next (next.committed :: history) rest

theorem traced_of_run {final : World Db Row Point} {whole : List Db} {schedule : List Action}
    (traced : Traced program (fun _ _ => True) start world history)
    (ran : runTraced program world history schedule = some (final, whole)) :
    Traced program (fun _ _ => True) start final whole := by
  induction schedule generalizing world history with
  | nil =>
    cases ran
    exact traced
  | cons _ _ ih =>
    obtain ⟨_, stepped, continued⟩ := Option.bind_eq_some_iff.mp ran
    exact ih (.step traced trivial stepped) continued

end

def Compatible (left right : Conn Db Row Point) : Prop :=
  ∀ row leftMode rightMode, (row, leftMode) ∈ left.locks →
    (row, rightMode) ∈ right.locks → leftMode.conflicts rightMode = false

theorem Compatible.symm {left right : Conn Db Row Point}
    (compatible : Compatible left right) : Compatible right left := by
  intro row rightMode leftMode rightHeld leftHeld
  rw [LockMode.conflicts_comm]
  exact compatible row leftMode rightMode leftHeld rightHeld

theorem Compatible.fresh (point : Point) (other : Conn Db Row Point) :
    Compatible (.fresh point) other := by
  intro _ _ _ held
  cases held

variable {world : World Db Row Point} {conn moved : Conn Db Row Point}

/-- A connection that only acquires free locks, or gives all of them up,
stays compatible with the others. -/
theorem Move.compatible {program : Program Db Row Point} {index other : Nat}
    {bystander : Conn Db Row Point} {committed : Db}
    (move : Move program world index conn moved committed) (ne : other ≠ index)
    (found : world.conns[other]? = some bystander) (before : Compatible conn bystander) :
    Compatible moved bystander := by
  rcases move with ⟨_, rfl, _⟩ | executed
  · exact .fresh _ bystander
  · revert executed
    cases program.stmt conn.point with
    | query =>
      rintro ⟨rfl, _⟩
      exact before
    | lock =>
      rintro ⟨free, rfl, _⟩ row leftMode rightMode leftHeld rightHeld
      rcases mem_cons.mp leftHeld with new | old
      · cases new
        rw [LockMode.conflicts_comm]
        exact free other bystander ne found rightMode rightHeld
      · exact before row leftMode rightMode old rightHeld
    | lockSkip =>
      rintro ⟨_, selected, _, rfl, _⟩ row leftMode rightMode leftHeld rightHeld
      rcases mem_append.mp leftHeld with new | old
      · obtain ⟨_, mem, pairEq⟩ := mem_map.mp new
        cases pairEq
        rw [LockMode.conflicts_comm]
        exact ((selected row).mp mem).2 other bystander ne found rightMode rightHeld
      · exact before row leftMode rightMode old rightHeld
    | write =>
      rintro ⟨free, rfl, _⟩ row leftMode rightMode leftHeld rightHeld
      rcases mem_append.mp leftHeld with new | old
      · rw [LockMode.conflicts_comm]
        exact free row leftMode new other bystander ne found rightMode rightHeld
      · exact before row leftMode rightMode old rightHeld
    | commit | rollback =>
      rintro ⟨rfl, _⟩
      exact .fresh _ bystander
    | halt => exact False.elim

def World.total (quantity : Point → Int) (world : World Db Row Point) : Int :=
  (world.conns.map fun conn => quantity conn.point).sum

theorem World.total_set {quantity : Point → Int} {index : Nat} {committed : Db}
    (found : world.conns[index]? = some conn) :
    World.total quantity { committed := committed, conns := world.conns.set index moved } =
      world.total quantity - quantity conn.point + quantity moved.point := by
  obtain ⟨_, conns⟩ := world
  simp only [World.total] at found ⊢
  induction conns generalizing index with
  | nil => simp at found
  | cons _ _ ih =>
    cases index with
    | zero =>
      simp only [List.getElem?_cons_zero, Option.some.injEq] at found
      subst found
      simp only [set_cons_zero, map_cons, sum_cons]
      omega
    | succ =>
      simp only [set_cons_succ, map_cons, sum_cons, ih found]
      omega

/-! ## Proof outlines

An invariant of all interleavings is given by an assertion about the whole
world, an assertion about each connection (which talks about its control
point, its flushed writes and the committed rows) and an assertion about each
pair of connections.  Lock exclusion comes for free. -/

structure Outline (Whole : World Db Row Point → Prop) (Each : Db → Conn Db Row Point → Prop)
    (Pair : Conn Db Row Point → Conn Db Row Point → Prop)
    (world : World Db Row Point) : Prop where
  whole : Whole world
  each : ∀ (index : Nat) conn, world.conns[index]? = some conn → Each world.committed conn
  pair : ∀ (left right : Nat) leftConn rightConn, left ≠ right →
    world.conns[left]? = some leftConn →
    world.conns[right]? = some rightConn → Pair leftConn rightConn
  compatible : ∀ (left right : Nat) leftConn rightConn, left ≠ right →
    world.conns[left]? = some leftConn →
    world.conns[right]? = some rightConn → Compatible leftConn rightConn

structure Undisturbed (Whole : World Db Row Point → Prop) (Each : Db → Conn Db Row Point → Prop)
    (Pair : Conn Db Row Point → Conn Db Row Point → Prop)
    (world : World Db Row Point) (index : Nat)
    (moved : Conn Db Row Point) (committed : Db) : Prop where
  whole : Whole { committed := committed
                  conns := world.conns.set index moved }
  mover : Each committed moved
  others : ∀ other bystander, other ≠ index → world.conns[other]? = some bystander →
    Each committed bystander ∧ Pair moved bystander ∧ Pair bystander moved

private theorem getElem?_set_cases {α : Type} {items : List α} {index query : Nat} {item found : α}
    (lookup : (items.set index item)[query]? = some found) :
    (query = index ∧ found = item) ∨ (query ≠ index ∧ items[query]? = some found) := by
  rw [List.getElem?_set] at lookup
  split at lookup
  · rename_i same
    split at lookup
    · exact .inl ⟨same.symm, (Option.some.inj lookup).symm⟩
    · cases lookup
  · rename_i ne
    exact .inr ⟨fun same => ne same.symm, lookup⟩

/-- A relation between items at different places survives a replacement, if
the new item has it with all others. -/
private theorem pairwise_set {α : Type} {Related : α → α → Prop} {items : List α} {index : Nat}
    {item : α}
    (old : ∀ (left right : Nat) first second, left ≠ right →
      items[left]? = some first → items[right]? = some second → Related first second)
    (new : ∀ other peer, other ≠ index → items[other]? = some peer →
      Related item peer ∧ Related peer item) (left right : Nat) (first second : α)
    (ne : left ≠ right) (leftLookup : (items.set index item)[left]? = some first)
    (rightLookup : (items.set index item)[right]? = some second) :
    Related first second := by
  rcases getElem?_set_cases leftLookup with ⟨rfl, rfl⟩ | ⟨leftOther, leftOld⟩
  · rcases getElem?_set_cases rightLookup with ⟨rfl, rfl⟩ | ⟨rightOther, rightOld⟩
    · exact absurd rfl ne
    · exact (new right second rightOther rightOld).1
  · rcases getElem?_set_cases rightLookup with ⟨rfl, rfl⟩ | ⟨rightOther, rightOld⟩
    · exact (new left first leftOther leftOld).2
    · exact old left right first second ne leftOld rightOld

theorem Outline.start {Whole : World Db Row Point → Prop} {Each : Db → Conn Db Row Point → Prop}
    (whole : Whole world) (fresh : ∀ conn ∈ world.conns, ∃ point, conn = .fresh point ∧
      Each world.committed (.fresh point)) :
    Outline Whole Each (fun _ _ => True) world where
  whole := whole
  each := by
    intro _ conn found
    obtain ⟨_, rfl, holds⟩ := fresh conn (mem_of_getElem? found)
    exact holds
  pair := fun _ _ _ _ _ _ _ => trivial
  compatible := by
    intro _ _ leftConn rightConn _ found _
    obtain ⟨point, rfl, _⟩ := fresh leftConn (mem_of_getElem? found)
    exact .fresh point rightConn

section

variable {program : Program Db Row Point}
  {allowed : World Db Row Point → Action → Prop}
  {Whole : World Db Row Point → Prop}
  {Each : Db → Conn Db Row Point → Prop}
  {Pair : Conn Db Row Point → Conn Db Row Point → Prop}
  {start world : World Db Row Point}

theorem Outline.preserved {index : Nat} {conn moved : Conn Db Row Point} {committed : Db}
    (outline : Outline Whole Each Pair world) (found : world.conns[index]? = some conn)
    (move : Move program world index conn moved committed)
    (undisturbed : Undisturbed Whole Each Pair world index moved committed) :
    Outline Whole Each Pair { committed := committed, conns := world.conns.set index moved } where
  whole := undisturbed.whole
  each := by
    intro query queried lookup
    rcases getElem?_set_cases lookup with ⟨_, rfl⟩ | ⟨ne, old⟩
    · exact undisturbed.mover
    · exact (undisturbed.others query queried ne old).1
  pair := pairwise_set outline.pair fun other peer ne lookup =>
    (undisturbed.others other peer ne lookup).2
  compatible := by
    refine pairwise_set outline.compatible ?_
    intro other peer ne lookup
    have still := move.compatible ne lookup
      (outline.compatible index other conn peer ne.symm found lookup)
    exact ⟨still, still.symm⟩

variable [DecidableEq Row]

/-- The outline rule: if no allowed action disturbs the outline, it holds in
every world a run reaches. -/
theorem Reaches.outline_acts (reached : Reaches program allowed start world)
    (initial : Outline Whole Each Pair start)
    (undisturbed : ∀ world action conn moved committed,
      Outline Whole Each Pair world → allowed world action →
      world.conns[action.index]? = some conn →
      Move program world action.index conn moved committed →
      Acts program world conn moved committed action →
      Undisturbed Whole Each Pair world action.index moved committed) :
    Outline Whole Each Pair world := by
  induction reached with
  | refl => exact initial
  | step _ permitted stepped ih =>
    obtain ⟨conn, moved, committed, found, move, acts, rfl⟩ := step_move stepped
    exact ih.preserved found move
      (undisturbed _ _ conn moved committed ih permitted found move acts)

theorem Reaches.outline (reached : Reaches program allowed start world)
    (initial : Outline Whole Each Pair start)
    (undisturbed : ∀ world action conn moved committed,
      Outline Whole Each Pair world → allowed world action →
      world.conns[action.index]? = some conn →
      Move program world action.index conn moved committed →
      (action = .abort action.index → Aborted program world conn moved committed) →
      Undisturbed Whole Each Pair world action.index moved committed) :
    Outline Whole Each Pair world :=
  reached.outline_acts initial fun world action conn moved committed outline permitted found move
      acts => undisturbed world action conn moved committed outline permitted
        found move (by rintro abort; rwa [abort] at acts)

end

/-! ## Claims

An `INSERT` under a unique constraint and an `UPDATE` with a condition both
claim a row that nobody has taken: they lock it if they find it free, give up
if it is taken, and wait for whoever has claimed it and not committed yet. -/

/-- `select` is the row to claim as the statement sees the tables.  When the
wait is over the statement looks again. -/
def Stmt.claim (select : Db → Option Row) (mode : LockMode) (waiting : Point)
    (missed claimed : Db → Point) : Stmt Db Row Point :=
  .lockSkip (fun db => (select db).toList) mode fun rows db =>
    if (select db).isNone then missed db
    else if rows.isEmpty then waiting
    else claimed db

theorem Executed.claim_inv {index : Nat} {committed : Db} {select : Db → Option Row}
    {mode : LockMode} {waiting : Point} {missed claimed : Db → Point}
    (executed : Executed world index conn moved committed
      (.claim select mode waiting missed claimed)) :
    committed = world.committed ∧
      ((select (conn.pending world.committed) = none ∧
          moved = { conn with point := missed (conn.pending world.committed) }) ∨
        moved = { conn with point := waiting } ∨
        ∃ row, select (conn.pending world.committed) = some row ∧
          moved = { conn with
            point := claimed (conn.pending world.committed)
            locks := (row, mode) :: conn.locks }) := by
  obtain ⟨rows, _, sublist, rfl, rfl⟩ := executed
  refine ⟨rfl, ?_⟩
  cases chosen : select (conn.pending world.committed) with
  | none =>
    simp only [chosen, Option.toList_none, sublist_nil] at sublist
    subst sublist
    exact .inl ⟨rfl, by simp [chosen]⟩
  | some row =>
    simp only [chosen] at sublist
    cases rows with
    | nil => exact .inr (.inl (by simp [chosen]))
    | cons head tail =>
      have whole : head :: tail = [row] := sublist.eq_of_length_le (by simp)
      obtain ⟨rfl, rfl⟩ := List.cons.inj whole
      exact .inr (.inr ⟨head, rfl, by simp [chosen]⟩)

/-- An `INSERT` that still has to enter `rows` in the unique indexes.  `again`
is its own control point, by the entries that are left. -/
def Stmt.insert (taken : Db → Row → Bool) (effect : Db → Db) (next : Point)
    (again : List Row → Point) (refused : Point) :
    List Row → Stmt Db Row Point
  | [] => .write [] effect next
  | row :: rest =>
    .claim (fun db => if taken db row then none else some row) .update
      (again (row :: rest)) (fun _ => refused) (fun _ => again rest)

/-- The row is locked against every other claim. -/
def Conn.Claimed (conn : Conn Db Row Point) (row : Row) : Prop :=
  ∃ mode, (row, mode) ∈ conn.locks ∧ mode ≠ .keyShare

theorem Executed.insert_inv {index : Nat} {committed : Db} {taken : Db → Row → Bool}
    {effect : Db → Db} {next refused : Point} {again : List Row → Point} {rows : List Row}
    (executed : Executed world index conn moved committed
      (.insert taken effect next again refused rows)) :
    committed = world.committed ∧
      ((rows = [] ∧ moved =
          { point := next
            pending := fun db => effect (conn.pending db)
            locks := conn.locks }) ∨
        moved = { conn with point := refused } ∨
        moved = { conn with point := again rows } ∨
        ∃ row rest, rows = row :: rest ∧ taken (conn.pending world.committed) row = false ∧
          moved = { conn with
            point := again rest
            locks := (row, .update) :: conn.locks }) := by
  cases rows with
  | nil =>
    obtain ⟨_, rfl, rfl⟩ := executed
    exact ⟨rfl, .inl ⟨rfl, rfl⟩⟩
  | cons row rest =>
    obtain ⟨rfl, missed | waits | made⟩ := executed.claim_inv
    · exact ⟨rfl, .inr (.inl missed.2)⟩
    · exact ⟨rfl, .inr (.inr (.inl waits))⟩
    · obtain ⟨_, selected, rfl⟩ := made
      split_ifs at selected with used
      cases selected
      exact ⟨rfl, .inr (.inr (.inr ⟨row, rest, rfl, Bool.eq_false_iff.mpr used, rfl⟩))⟩

def Claims (Taken : Db → Row → Prop) (committed : Db) (conn : Conn Db Row Point) : Prop :=
  ∀ row, conn.Claimed row → ¬Taken committed row

section

variable {Taken : Db → Row → Prop} {committed : Db} {conn : Conn Db Row Point} {row : Row}
  {mode : LockMode}

theorem Claims.fresh (point : Point) :
    Claims Taken committed (.fresh point : Conn Db Row Point) := by
  rintro _ ⟨_, held, _⟩
  cases held

theorem Claims.lock {next : Point}
    (claims : Claims Taken committed conn) (free : ¬Taken committed row) :
    Claims Taken committed { conn with point := next, locks := (row, mode) :: conn.locks } := by
  rintro other ⟨otherMode, held, exclusive⟩
  rcases mem_cons.mp held with new | old
  · cases new
    exact free
  · exact claims other ⟨otherMode, old, exclusive⟩

theorem Conn.Claimed.lock {next : Point} {other : Row} (claimed : conn.Claimed row) :
    { conn with
      point := next
      locks := (other, mode) :: conn.locks : Conn Db Row Point }.Claimed row := by
  obtain ⟨held, mem, exclusive⟩ := claimed
  exact ⟨held, mem_cons_of_mem _ mem, exclusive⟩

/-- Whoever commits takes only rows it has claimed itself, so the claims of
the others stand. -/
theorem Claims.others {after : Db} {mover bystander : Conn Db Row Point}
    (claims : Claims Taken committed bystander) (compatible : Compatible mover bystander)
    (taken : ∀ row, Taken after row → Taken committed row ∨ mover.Claimed row) :
    Claims Taken after bystander := by
  intro row claimed now
  rcases taken row now with before | ⟨moverMode, moverHeld, _⟩
  · exact claims row claimed before
  · obtain ⟨mode, held, _⟩ := claimed
    have apart := compatible row moverMode mode moverHeld held
    cases moverMode <;> cases mode <;> simp_all [LockMode.conflicts]

end

/-! ## Scripts

A script says of each control point of such a program what its connection has
written and claimed by then, and what it knows of the committed rows. -/

structure Script (Db Row Point : Type) where
  taken : Db → Row → Bool
  effect : Point → Db → Db
  claimed : Point → List Row
  /-- The connection is giving up: what it has written will be rolled back. -/
  dropped : Point → Bool
  commits : Point → Bool
  Knows : Db → Point → Prop

namespace Script

variable (script : Script Db Row Point)

structure Quiet (db : Db) (point : Point) : Prop where
  effect : script.effect point = id
  claimed : script.claimed point = []
  knows : script.Knows db point

structure Follows (db : Db) (conn : Conn Db Row Point) : Prop where
  pending : script.dropped conn.point = false → conn.pending = script.effect conn.point
  claims : Claims (fun db row => script.taken db row = true) db conn
  claimed : ∀ row ∈ script.claimed conn.point, conn.Claimed row
  knows : script.Knows db conn.point

/-- A move that follows the script and commits nothing. -/
def Passes (db : Db) (moved : Conn Db Row Point) (committed : Db) : Prop :=
  committed = db ∧ script.Follows db moved

/-- A move that commits what the script says. -/
def Commits (db : Db) (point : Point) (moved : Conn Db Row Point) (committed : Db) : Prop :=
  script.commits point = true ∧ committed = script.effect point db ∧
    ∃ next, moved = .fresh next ∧ script.Quiet committed next

structure Lawful (program : Program Db Row Point) (Whole : Db → Prop) : Prop where
  aborts : ∀ db point, script.Quiet db (program.onAbort point)
  executes : ∀ {world index conn moved committed}, script.Follows world.committed conn →
    Executed world index conn moved committed (program.stmt conn.point) →
    script.Passes world.committed moved committed ∨
      script.Commits world.committed conn.point moved committed
  takes : ∀ {point}, script.commits point = true → ∀ db row,
    script.taken (script.effect point db) row = true →
      script.taken db row = true ∨ row ∈ script.claimed point
  keeps : ∀ {point}, script.commits point = true → ∀ db other,
    script.Knows db other → script.Knows (script.effect point db) other
  whole : ∀ {point}, script.commits point = true → ∀ db, Whole db → script.Knows db point →
    (∀ row ∈ script.claimed point, ¬script.taken db row = true) → Whole (script.effect point db)

variable {script} {db committed : Db} {conn moved : Conn Db Row Point} {next point : Point}

theorem Follows.fresh (quiet : script.Quiet db point) : script.Follows db (.fresh point) where
  pending := fun _ => quiet.effect.symm
  claims := .fresh point
  claimed := by
    intro row mem
    change row ∈ script.claimed point at mem
    rw [quiet.claimed] at mem
    cases mem
  knows := quiet.knows

variable (follows : script.Follows db conn)

include follows

theorem Follows.drop (dropped : script.dropped next = true) (claimed : script.claimed next = [])
    (knows : script.Knows db next) : script.Follows db { conn with point := next } where
  pending := by
    intro running
    cases dropped.symm.trans running
  claims := follows.claims
  claimed := by
    intro row mem
    change row ∈ script.claimed next at mem
    rw [claimed] at mem
    cases mem
  knows := knows

theorem Follows.write (write : Db → Db) (running : script.dropped conn.point = false)
    (effect : script.effect next = fun db => write (script.effect conn.point db))
    (claimed : script.claimed next ⊆ script.claimed conn.point) (knows : script.Knows db next) :
    script.Follows db
      { point := next
        pending := fun db => write (conn.pending db)
        locks := conn.locks } where
  pending := by
    intro _
    rw [follows.pending running]
    exact effect.symm
  claims := follows.claims
  claimed := fun row mem => follows.claimed row (claimed mem)
  knows := knows

theorem Follows.lock {row : Row} {mode : LockMode} (running : script.dropped conn.point = false)
    (free : ¬script.taken db row = true) (exclusive : mode ≠ .keyShare)
    (effect : script.effect next = script.effect conn.point)
    (claimed : ∀ other ∈ script.claimed next, other = row ∨ other ∈ script.claimed conn.point)
    (knows : script.Knows db next) :
    script.Follows db { conn with point := next, locks := (row, mode) :: conn.locks } where
  pending := fun _ => (follows.pending running).trans effect.symm
  claims := follows.claims.lock free
  claimed := by
    intro other mem
    rcases claimed other mem with rfl | old
    · exact ⟨mode, mem_cons_self, exclusive⟩
    · exact (follows.claimed other old).lock
  knows := knows

omit follows

variable {world : World Db Row Point} {index : Nat}

theorem Passes.query {step : Db → Point} (follows : script.Follows world.committed conn)
    (executed : Executed world index conn moved committed (.query step))
    (running : script.dropped conn.point = false)
    (goesOn : script.Follows world.committed
      { conn with point := step (script.effect conn.point world.committed) }) :
    script.Passes world.committed moved committed := by
  obtain ⟨rfl, rfl⟩ := executed
  rw [congrFun (follows.pending running) world.committed]
  exact ⟨rfl, goesOn⟩

variable [DecidableEq Row]

/-- `base` had been claimed before the `INSERT`, and `entries` are its own. -/
theorem Passes.insert {write : Db → Db} {refused : Point} {again : List Row → Point}
    {rows : List Row} {pending : Db → Db} {locks : List (Row × LockMode)} (base entries : List Row)
    (follows : script.Follows world.committed ⟨again rows, pending, locks⟩)
    (executed : Executed world index ⟨again rows, pending, locks⟩ moved committed
      (.insert script.taken write next again refused rows))
    (running : script.dropped (again rows) = false)
    (effect : ∀ rest, script.effect (again rest) = script.effect (again rows))
    (claimed : ∀ rest, script.claimed (again rest) = base ++ entries.filter (· ∉ rest))
    (knows : ∀ rest, script.Knows world.committed (again rest))
    (grows : ∀ row, script.taken world.committed row = true →
      script.taken (script.effect (again rows) world.committed) row = true)
    (fails : script.Follows world.committed ⟨refused, pending, locks⟩)
    (written : rows = [] → script.Follows world.committed
      ⟨next, fun db => write (pending db), locks⟩) :
    script.Passes world.committed moved committed := by
  obtain ⟨rfl, flushed | rfl | rfl | made⟩ := executed.insert_inv
  · obtain ⟨rfl, rfl⟩ := flushed
    exact ⟨rfl, written rfl⟩
  · exact ⟨rfl, fails⟩
  · exact ⟨rfl, follows⟩
  · obtain ⟨row, rest, rfl, free, rfl⟩ := made
    rw [follows.pending running] at free
    refine ⟨rfl, follows.lock running ?_ (by decide) (effect rest) ?_ (knows rest)⟩
    · intro taken
      cases free.symm.trans (grows row taken)
    · intro other mem
      rw [claimed] at mem ⊢
      simp only [mem_append, mem_filter, decide_eq_true_eq, mem_cons, not_or] at mem ⊢
      by_cases same : other = row
      · exact .inl same
      · exact .inr (mem.imp_right fun ⟨entry, left⟩ => ⟨entry, same, left⟩)

/-- If the program follows its script, then every connection is where its
script says, and what every commit keeps holds of the committed rows. -/
theorem Lawful.reaches {program : Program Db Row Point} {Whole : Db → Prop}
    {allowed : World Db Row Point → Action → Prop} {start : World Db Row Point}
    (lawful : script.Lawful program Whole) (whole : Whole start.committed)
    (begun : ∀ conn ∈ start.conns, ∃ point, conn = .fresh point ∧
      script.Quiet start.committed point)
    (reached : Reaches program allowed start world) :
    Outline (fun world => Whole world.committed) script.Follows (fun _ _ => True) world := by
  refine reached.outline (.start whole ?_) ?_
  · intro conn mem
    obtain ⟨point, fresh, quiet⟩ := begun conn mem
    exact ⟨point, fresh, .fresh quiet⟩
  · intro world action conn moved committed kept _ found move _
    have follows := kept.each _ conn found
    have passes (passed : script.Passes world.committed moved committed) :
        Undisturbed (fun world => Whole world.committed) script.Follows (fun _ _ => True) world
          action.index moved committed := by
      obtain ⟨rfl, passed⟩ := passed
      exact ⟨kept.whole, passed, fun other peer _ lookup =>
        ⟨kept.each other peer lookup, trivial, trivial⟩⟩
    rcases move with ⟨_, rfl, rfl⟩ | executed
    · exact passes ⟨rfl, .fresh (lawful.aborts _ _)⟩
    · rcases lawful.executes follows executed with passed | ⟨commits, rfl, _, rfl, quiet⟩
      · exact passes passed
      · refine ⟨?_, .fresh quiet, ?_⟩
        · exact lawful.whole commits _ kept.whole follows.knows fun row mem =>
            follows.claims row (follows.claimed row mem)
        · intro other peer ne lookup
          have each := kept.each other peer lookup
          have compatible := kept.compatible _ other conn peer ne.symm found lookup
          refine ⟨⟨each.pending, each.claims.others compatible ?_, each.claimed,
            lawful.keeps commits _ _ each.knows⟩, trivial, trivial⟩
          intro row taken
          exact (lawful.takes commits _ row taken).imp_right (follows.claimed row)

end Script

end ReadCommitted
