import Gridix.Finalisation.Program

/-!
# What one statement does

`Advance` says where control goes from each control point, given the rows the
transaction sees, and `Held.outcome` that a connection advances, commits what
its control point says it has flushed, or ends.
-/

namespace Gridix.Finalisation

open ReadCommitted List

def accountedFor (numbers : List Nat) (attempt : JobAttempt) : Bool :=
  attempt.finished || decide (attempt.attemptNumber ∈ numbers)

def Db.votes (db : Db) (numbers : List Nat) : Nat :=
  db.record.attempts.countP (accountedFor numbers)

theorem finishedAttempts_length (db : Db) : db.record.finishedAttempts.length = db.votes [] := by
  rw [JobRecord.finishedAttempts, ← countP_eq_length_filter]
  apply countP_congr
  simp [accountedFor]

theorem Db.votes_mono {db : Db} {few many : List Nat} (subset : few ⊆ many) :
    db.votes few ≤ db.votes many := by
  apply countP_mono_left
  intro _ _ counted
  simp only [accountedFor, Bool.or_eq_true, decide_eq_true_eq] at counted ⊢
  exact counted.imp_right fun mem => subset mem

namespace Finish

variable {finish : Finish} {attempt : JobAttempt}

theorem change_finished (mem : attempt.attemptNumber ∈ finish.numbers) :
    (finish.change attempt).finished = true := by
  cases finish with
  | nothing => cases mem
  | result | lapsed => rfl

theorem votes_apply (finish : Finish) (db : Db) :
    (db.updateAttempts finish.apply).votes [] = db.votes finish.numbers := by
  simp only [Db.votes, Db.updateAttempts, Finish.apply, countP_map]
  apply countP_congr
  intro _ _
  simp only [Function.comp_apply, accountedFor]
  split_ifs with mem
  · simp [change_finished mem, mem]
  · simp [mem]

theorem apply_of_nil {finish : Finish} (none : finish.numbers = [])
    (attempts : List JobAttempt) : finish.apply attempts = attempts := by
  simp [Finish.apply, none]

theorem votes_le_apply (finish : Finish) (db : Db) (numbers : List Nat) :
    db.votes numbers ≤ (db.updateAttempts finish.apply).votes numbers := by
  simp only [Db.votes, Db.updateAttempts, Finish.apply, countP_map]
  apply countP_mono_left
  intro _ _ counted
  simp only [Function.comp_apply]
  split_ifs with mem
  · simp [accountedFor, change_finished mem]
  · exact counted

end Finish

theorem Change.votes_le_apply (change : Change) (db : Db) (numbers : List Nat) :
    db.votes numbers ≤ (db.updateAttempts change.apply).votes numbers := by
  cases change with
  | nothing => exact Nat.le_refl _
  | add =>
    simp only [Db.votes, Db.updateAttempts, Change.apply, countP_append]
    exact Nat.le_add_right _ _
  | close _ stamp =>
    simp only [Db.votes, Db.updateAttempts, Change.apply, countP_map]
    apply countP_mono_left
    intro _ _ counted
    simp only [Function.comp_apply]
    split_ifs
    · cases stamp with
      | none => exact counted
      | some => simp [accountedFor, JobAttempt.finished]
    · exact counted

namespace Txn

variable (txn : Txn) (db : Db)

@[simp] theorem started_attempts : (txn.started db).record.attempts = db.record.attempts := by
  unfold Txn.started
  split_ifs <;> rfl

@[simp] theorem started_ledger : (txn.started db).ledger = db.ledger := by
  unfold Txn.started
  split_ifs <;> rfl

@[simp] theorem started_terms :
    (txn.started db).record.job.toJobTerms = db.record.job.toJobTerms := by
  unfold Txn.started
  split_ifs <;> rfl

theorem started_of_clean {txn : Txn} (clean : txn.dirty = false) (db : Db) :
    txn.started db = db := by
  unfold Txn.started
  rw [clean]
  rfl

theorem started_status {txn : Txn} (dirty : txn.dirty = true) (db : Db) :
    (txn.started db).record.job.status = txn.job.status := by
  unfold Txn.started
  rw [if_pos dirty]
  exact flushJob_status _ (by simpa [Txn.dirty] using dirty)

theorem started_votes (numbers : List Nat) : (txn.started db).votes numbers = db.votes numbers := by
  rw [Db.votes, started_attempts, Db.votes]

theorem written_votes : (txn.written db).votes [] = db.votes txn.finish.numbers := by
  rw [Txn.written, Finish.votes_apply, started_votes]

theorem votes_le_written (numbers : List Nat) :
    db.votes numbers ≤ (txn.written db).votes numbers := by
  rw [← started_votes txn db numbers]
  exact txn.finish.votes_le_apply _ numbers

theorem decided_status {txn : Txn} {job : Job} (moved : txn.job.status ≠ job.status) (db : Db) :
    (txn.decided job db).record.job.status = job.status :=
  flushJob_status _ moved

end Txn

namespace Point

variable (point : Point) (db : Db)

@[simp] theorem flushed_terms : (point.flushed db).record.job.toJobTerms =
      db.record.job.toJobTerms := by
  cases point <;> simp [Point.flushed, Txn.written, Txn.decided, Db.updateJob,
      Db.updateAttempts, Db.post]

theorem votes_le_flushed (numbers : List Nat) :
    db.votes numbers ≤ (point.flushed db).votes numbers := by
  cases point with
  | finishAttempts txn => exact (txn.started_votes db numbers).ge
  | count txn | load txn | decide txn | settle txn | finalCommit txn | recordCommit txn =>
    exact txn.votes_le_written db numbers
  | reapLoad => exact Finish.votes_le_apply _ db numbers
  | sweepCommit _ _ change => exact change.votes_le_apply (db.updateJob _) numbers
  | _ => exact Nat.le_refl _

theorem flushed_ledger {point : Point} (quiet : point.finalizing = false) :
    (point.flushed db).ledger = db.ledger := by
  cases point with
  | finalCommit | settle => cases quiet
  | _ => simp [Point.flushed, Txn.written, Db.updateJob, Db.updateAttempts]

end Point

section

variable {settings : Settings} {reading : Reading} {job decided : Job}
  {attempts : List JobAttempt} {rows : Ledger}

theorem conclude_ok (ok : conclude settings reading job attempts = .ok (decided, rows)) :
    ∃ outcome chosen winner costFinal, decideJob job attempts outcome reading.clock.jobFinished =
        .ok (chosen, winner) ∧
      settleJob settings chosen winner reading.bytes = .ok (rows, costFinal) ∧
      decided = { chosen with costFinal := costFinal } := by
  obtain ⟨outcome, _, ok⟩ := Serial.bind_eq_ok.mp ok
  obtain ⟨⟨chosen, winner⟩, decision, ok⟩ := Serial.bind_eq_ok.mp ok
  dsimp only at ok
  split at ok
  · cases ok
  · rename_i costFinal settlement
    cases ok
    exact ⟨outcome, chosen, winner, costFinal, decision, settlement, rfl⟩

theorem conclude_final (ok : conclude settings reading job attempts = .ok (decided, rows)) :
    job.status ≠ decided.status ∧ decided.status.isTerminal = true := by
  obtain ⟨_, _, _, _, decision, _, rfl⟩ := conclude_ok ok
  obtain ⟨_, terminal, _⟩ := decideJob_ok decision
  have opened := decideJob_open decision
  refine ⟨?_, terminal⟩
  intro same
  rw [same] at opened
  cases opened.symm.trans terminal

end

inductive Advance (settings : Settings) (db : Db) : Point → Point → Prop where
  | raises (point : Point) (error : Raised) : Advance settings db point (.raised error)
  | idles (point : Point) : Advance settings db point .unchanged
  | submit (submission : Submission) : Advance settings db (.submit submission)
        (.owned submission db.record.job)
  | owned {submission : Submission} {loaded job : Job} : loaded.status.inFlight = true →
      startRunning loaded submission.reading.clock.started = .ok job →
      Advance settings db (.owned submission loaded) (.attemptFor submission loaded job)
  | attemptFor (submission : Submission) (loaded job : Job) (finish : Finish) :
      Advance settings db (.attemptFor submission loaded job)
        (.startJob ⟨submission.reading, loaded, job, finish⟩)
  | startJob (txn : Txn) : Advance settings db (.startJob txn) (.finishAttempts txn)
  | finishAttempts (txn : Txn) : Advance settings db (.finishAttempts txn) (.count txn)
  | enough {txn : Txn} : txn.job.redundancy ≤ db.votes [] →
      Advance settings db (.count txn) (.load txn)
  | short {txn : Txn} : db.votes [] < txn.job.redundancy →
      Advance settings db (.count txn) (.recordCommit txn)
  | load {txn : Txn} {attempts : List JobAttempt} {decided : Job} {rows : Ledger} :
      conclude settings txn.reading txn.job attempts = .ok (decided, rows) →
      Advance settings db (.load txn) (.decide txn decided rows)
  | decide (txn : Txn) (decided : Job) (rows : Ledger) :
      Advance settings db (.decide txn decided rows) (.settle txn decided rows)
  | settle (txn : Txn) (decided : Job) (rows : Ledger) :
      Advance settings db (.settle txn decided rows) (.finalCommit txn decided rows)
  | reapAttempts (reading : Reading) (now : Int) (numbers : List Nat) :
      Advance settings db (.reapAttempts reading now) (.markLapsed reading now numbers)
  | markLapsed (reading : Reading) (now : Int) (numbers : List Nat) :
      Advance settings db (.markLapsed reading now numbers) (.reapLoad reading now numbers)
  | reapCount {reading : Reading} {now : Int} {numbers : List Nat} :
      db.record.job.status.isTerminal = false →
      Advance settings db (.reapLoad reading now numbers)
        (.count ⟨reading, db.record.job, db.record.job, .lapsed numbers now⟩)
  | reapClosed {reading : Reading} {now : Int} {numbers : List Nat} :
      db.record.job.status.isTerminal = true →
      Advance settings db (.reapLoad reading now numbers)
        (.recordCommit ⟨reading, db.record.job, db.record.job, .lapsed numbers now⟩)
  | sweep {sweep : Sweep} : sweep.applies db.record.job = true →
      Advance settings db (.sweep sweep) (.locked sweep db.record.job)
  | locked {sweep : Sweep} {job moved : Job} {change : Change} :
      Advance settings db (.locked sweep job) (.sweepJob job moved change)
  | sweepJob (job moved : Job) (change : Change) : Advance settings db (.sweepJob job moved change)
        (.sweepAttempts job moved change)
  | sweepAttempts (job moved : Job) (change : Change) :
      Advance settings db (.sweepAttempts job moved change) (.sweepCommit job moved change)

/-- The transaction is going to write nothing more, and not to commit. -/
def Point.over : Point → Bool
  | .unchanged => true
  | .raised _ => true
  | .done => true
  | _ => false

structure Held (terms : JobTerms) (conn : Conn Db Row Point) : Prop where
  pending : conn.point.over = false → conn.pending = conn.point.flushed
  locked : conn.point.holdsJob = true → ∃ mode, mode ≠ .keyShare ∧ (Row.job, mode) ∈ conn.locks
  copy : ∀ job ∈ conn.point.copy?, job.toJobTerms = terms

def Point.commits : Point → Bool
  | .finalCommit _ _ _ => true
  | .recordCommit _ => true
  | .sweepCommit _ _ _ => true
  | _ => false

inductive Outcome (settings : Settings) (world : World Db Row Point)
    (conn moved : Conn Db Row Point) (committed : Db) : Prop where
  | ended : moved = .fresh .done → committed = world.committed →
      Outcome settings world conn moved committed
  | committed : conn.point.commits = true → moved = .fresh .done →
      committed = conn.point.flushed world.committed →
      Outcome settings world conn moved committed
  | advanced : Advance settings (conn.point.flushed world.committed) conn.point moved.point →
      committed = world.committed →
      Outcome settings world conn moved committed

namespace Held

variable {settings : Settings} {terms : JobTerms}
  {world : World Db Row Point} {index : Nat}
  {conn moved left right : Conn Db Row Point} {committed : Db}

theorem exclusive (leftHeld : Held terms left) (rightHeld : Held terms right)
    (compatible : Compatible left right) (leftHolds : left.point.holdsJob = true) :
    right.point.holdsJob = false := by
  by_contra holds
  obtain ⟨leftMode, _, leftLock⟩ := leftHeld.locked leftHolds
  obtain ⟨rightMode, _, rightLock⟩ := rightHeld.locked (Bool.not_eq_false _ ▸ holds)
  have free := compatible .job leftMode rightMode leftLock rightLock
  cases leftMode <;> cases rightMode <;> simp_all [LockMode.conflicts]

theorem fresh {point : Point} (flushed : point.flushed = id)
    (locks : point.holdsJob = false) (copy : point.copy? = none) :
    Held terms (.fresh point) where
  pending := fun _ => flushed.symm
  locked := by simp [Conn.fresh, locks]
  copy := by simp [Conn.fresh, copy]

theorem fresh_done : Held terms (.fresh .done) := fresh rfl rfl rfl

end Held

structure Reads (settings : Settings) (terms : JobTerms) (db : Db) (point next : Point) : Prop where
  advance : Advance settings db point next
  flushed : next.over = true ∨ next.flushed = point.flushed
  locks : next.holdsJob = true → point.holdsJob = true
  copy : ∀ job ∈ next.copy?, job.toJobTerms = terms

namespace Reads

variable {settings : Settings} {terms : JobTerms} {db : Db} {point : Point}
  {submission : Submission} {loaded : Job}

theorem raised (error : Raised) : Reads settings terms db point (.raised error) where
  advance := .raises point error
  flushed := .inl rfl
  locks := by simp [Point.holdsJob]
  copy := by simp [Point.copy?]

theorem unchanged : Reads settings terms db point .unchanged where
  advance := .idles point
  flushed := .inl rfl
  locks := by simp [Point.holdsJob]
  copy := by simp [Point.copy?]

theorem copied {next : Point} {job : Job} (advance : Advance settings db point next)
    (flushed : next.flushed = point.flushed) (locks : next.holdsJob = true → point.holdsJob = true)
    (copy : next.copy? = some job) (same : job.toJobTerms = terms) :
    Reads settings terms db point next where
  advance := advance
  flushed := .inr flushed
  locks := locks
  copy := by
    intro _ mem
    rw [copy] at mem
    cases mem
    exact same

theorem owned (same : loaded.toJobTerms = terms) :
    Reads settings terms db (.owned submission loaded) (afterOwned submission loaded db) := by
  unfold afterOwned
  split
  · exact raised _
  · split_ifs with inFlight _
    · split
      · exact raised _
      · rename_i started
        exact copied (.owned inFlight started) rfl id rfl
          ((startRunning_ok inFlight started).1.trans same)
    · exact raised _
    · exact raised _

theorem attemptFor {job : Job} (same : job.toJobTerms = terms) :
    Reads settings terms db (.attemptFor submission loaded job)
      (afterAttemptFor submission loaded job db) := by
  unfold afterAttemptFor
  split
  · exact copied (.attemptFor submission loaded job _) rfl id rfl same
  · split_ifs
    · exact copied (.attemptFor submission loaded job _) rfl id rfl same
    · exact raised _

theorem load {txn : Txn} (same : txn.job.toJobTerms = terms) :
    Reads settings terms db (.load txn) (afterLoad settings txn db) := by
  unfold afterLoad
  split
  · exact raised _
  · rename_i _ concluded
    exact copied (.load concluded) rfl id rfl same

theorem reapLoad {reading : Reading} {now : Int} {numbers : List Nat}
    (same : db.record.job.toJobTerms = terms) :
    Reads settings terms db (.reapLoad reading now numbers)
      (afterReapLoad reading now numbers db) := by
  have clean : Txn.dirty ⟨reading, db.record.job, db.record.job, .lapsed numbers now⟩ = false := by
    simp [Txn.dirty]
  have flushed : Txn.written ⟨reading, db.record.job, db.record.job, .lapsed numbers now⟩ =
        (Point.reapLoad reading now numbers).flushed := by
    funext seen
    rw [Txn.written, Txn.started_of_clean clean]
    rfl
  unfold afterReapLoad
  split_ifs with terminal
  · exact copied (.reapClosed terminal) flushed (by simp [Point.holdsJob, clean]) rfl same
  · rw [Bool.not_eq_true] at terminal
    exact copied (.reapCount terminal) flushed (by simp [Point.holdsJob, clean]) rfl same

theorem locked {sweep : Sweep} {job : Job} : Reads settings terms db (.locked sweep job)
      (afterLocked settings sweep job db) := by
  unfold afterLocked
  split
  · exact raised _
  · exact ⟨.locked, .inr rfl, fun _ => rfl, by simp [Point.copy?]⟩

end Reads

namespace Held

variable {settings : Settings} {terms : JobTerms}
  {world : World Db Row Point} {index : Nat}
  {conn moved : Conn Db Row Point} {committed : Db}

theorem aborted (gaveUp : Aborted (program settings) world conn moved committed) :
    Held terms moved ∧ Outcome settings world conn moved committed := by
  obtain ⟨rfl, rfl⟩ := gaveUp
  exact ⟨fresh_done, .ended rfl rfl⟩

theorem query (held : Held terms conn) (same : world.committed.record.job.toJobTerms = terms)
    (move : Move (program settings) world index conn moved committed)
    (open_ : conn.point.over = false) {next : Db → Point}
    (code : stmt settings conn.point = .query next)
    (reads : ∀ db, db.record.job.toJobTerms = terms →
      Reads settings terms db conn.point (next db)) :
    Held terms moved ∧ Outcome settings world conn moved committed := by
  rcases move.inv code with gaveUp | ⟨rfl, rfl⟩
  · exact aborted gaveUp
  · have read := reads (conn.point.flushed world.committed)
      ((conn.point.flushed_terms _).trans same)
    rw [held.pending open_]
    refine ⟨⟨?_, fun holds => held.locked (read.locks holds), read.copy⟩,
      .advanced read.advance rfl⟩
    intro running
    rcases read.flushed with ended | flushed
    · rw [ended] at running
      cases running
    · exact flushed.symm

theorem write (held : Held terms conn)
    (move : Move (program settings) world index conn moved committed)
    (open_ : conn.point.over = false) {next : Point} {effect : Db → Db}
    {locks : List (Row × LockMode)} (code : stmt settings conn.point = .write locks effect next)
    (advance : ∀ db, Advance settings db conn.point next)
    (flushed : ∀ db, next.flushed db = effect (conn.point.flushed db))
    (kept : next.holdsJob = true → conn.point.holdsJob = true ∨ (Row.job, .noKeyUpdate) ∈ locks)
    (copy : next.copy? = none ∨ next.copy? = conn.point.copy?) :
    Held terms moved ∧ Outcome settings world conn moved committed := by
  rcases move.inv code with gaveUp | ⟨_, rfl, rfl⟩
  · exact aborted gaveUp
  · refine ⟨⟨?_, ?_, ?_⟩, .advanced (advance _) rfl⟩
    · intro _
      rw [held.pending open_]
      funext db
      exact (flushed db).symm
    · intro holds
      rcases kept holds with before | now
      · obtain ⟨mode, strong, lock⟩ := held.locked before
        exact ⟨mode, strong, mem_append_right _ lock⟩
      · exact ⟨.noKeyUpdate, nofun, mem_append_left _ now⟩
    · intro job mem
      rcases copy with none | same
      · rw [none] at mem
        cases mem
      · exact held.copy job (same ▸ mem)

theorem sweep {sweep : Sweep} (held : Held terms conn)
    (same : world.committed.record.job.toJobTerms = terms)
    (move : Move (program settings) world index conn moved committed)
    (here : conn.point = .sweep sweep) :
    Held terms moved ∧ Outcome settings world conn moved committed := by
  obtain ⟨_, pending, _⟩ := conn
  subst here
  obtain rfl : pending = id := held.pending rfl
  rcases move.inv rfl with gaveUp | ⟨_, selected, _, rfl, rfl⟩
  · exact aborted gaveUp
  · unfold afterSweep
    split_ifs with acts
    · simp only [Bool.and_eq_true, Bool.not_eq_true', isEmpty_eq_false_iff_exists_mem] at acts
      obtain ⟨⟨row, mem⟩, applies⟩ := acts
      have isJob : row = .job := by
        have chosen := ((selected row).mp mem).1
        simp only [id_eq] at chosen
        split_ifs at chosen
        · exact mem_singleton.mp chosen
        · cases chosen
      subst isJob
      refine ⟨⟨fun _ => rfl, fun _ => ⟨.update, nofun, ?_⟩, ?_⟩, .advanced (.sweep applies) rfl⟩
      · exact mem_append_left _ (mem_map.mpr ⟨_, mem, rfl⟩)
      · intro _ copied
        cases copied
        exact same
    · exact ⟨⟨nofun, by simp [Point.holdsJob], by simp [Point.copy?]⟩, .advanced (.idles _) rfl⟩

theorem reapAttempts {reading : Reading} {now : Int} (held : Held terms conn)
    (move : Move (program settings) world index conn moved committed)
    (here : conn.point = .reapAttempts reading now) :
    Held terms moved ∧ Outcome settings world conn moved committed := by
  obtain ⟨_, pending, _⟩ := conn
  subst here
  obtain rfl : pending = id := held.pending rfl
  rcases move.inv rfl with gaveUp | ⟨_, _, _, rfl, rfl⟩
  · exact aborted gaveUp
  · exact ⟨⟨fun _ => rfl, by simp [Point.holdsJob], by simp [Point.copy?]⟩,
      .advanced (.reapAttempts reading now _) rfl⟩

theorem outcome (held : Held terms conn) (same : world.committed.record.job.toJobTerms = terms)
    (move : Move (program settings) world index conn moved committed) :
    Held terms moved ∧ Outcome settings world conn moved committed := by
  obtain ⟨point, _, _⟩ := conn
  have copy := held.copy
  cases point with
  | submit submission =>
    apply held.query same move rfl rfl
    intro _ sameDb
    exact .copied (.submit submission) rfl id rfl sameDb
  | owned => exact held.query same move rfl rfl fun db _ => .owned (copy _ rfl)
  | attemptFor =>
    exact held.query same move rfl rfl fun db _ =>
      .attemptFor (copy _ rfl)
  | startJob txn =>
    by_cases dirty : txn.dirty = true
    · refine held.write move rfl (if_pos dirty)
        (fun db => .startJob txn) ?_ (fun _ => .inr mem_cons_self)
        (.inr rfl)
      intro _
      exact if_pos dirty
    · rw [Bool.not_eq_true] at dirty
      refine held.query same move rfl (if_neg (by simp [dirty]))
        fun db _ => .copied (.startJob txn) ?_ ?_ rfl (copy _ rfl)
      · funext db
        exact Txn.started_of_clean dirty db
      · simp [Point.holdsJob, dirty]
  | finishAttempts txn =>
    exact held.write move rfl rfl (fun db => .finishAttempts txn) (fun db => rfl) .inl (.inr rfl)
  | count =>
    apply held.query same move rfl rfl
    intro _ _
    rw [finishedAttempts_length]
    split_ifs with enough
    · exact .copied (.enough enough) rfl id rfl (copy _ rfl)
    · exact .copied (.short (Nat.not_le.mp enough)) rfl id rfl (copy _ rfl)
  | load => exact held.query same move rfl rfl fun db _ => .load (copy _ rfl)
  | decide txn decided rows =>
    exact held.write move rfl rfl (fun db => .decide txn decided rows)
      (fun db => rfl) (fun _ => .inr mem_cons_self) (.inr rfl)
  | settle txn decided rows =>
    exact held.write move rfl rfl (fun db => .settle txn decided rows)
      (fun db => rfl) .inl (.inr rfl)
  | finalCommit | recordCommit | sweepCommit =>
    rcases move.inv rfl with gaveUp | ⟨rfl, rfl⟩
    · exact aborted gaveUp
    · exact ⟨fresh_done, .committed rfl rfl (by rw [held.pending rfl])⟩
  | reapAttempts => exact held.reapAttempts move rfl
  | markLapsed reading now numbers =>
    by_cases empty : numbers.isEmpty = true
    · exact held.query same move rfl (if_pos empty) fun db _ => .unchanged
    · exact held.write move rfl (if_neg empty)
        (fun db => .markLapsed reading now numbers) (fun db => rfl) .inl
        (.inr rfl)
  | reapLoad => exact held.query same move rfl rfl fun db sameDb => .reapLoad sameDb
  | sweep => exact held.sweep same move rfl
  | locked => exact held.query same move rfl rfl fun db _ => .locked
  | sweepJob job moved change =>
    exact held.write move rfl rfl (fun db => .sweepJob job moved change)
      (fun db => rfl) (fun _ => .inr mem_cons_self) (.inl rfl)
  | sweepAttempts job moved change =>
    exact held.write move rfl rfl (fun db => .sweepAttempts job moved change) (fun db => rfl) .inl
      (.inl rfl)
  | unchanged | raised =>
    rcases move.inv rfl with gaveUp | ⟨rfl, rfl⟩
    · exact aborted gaveUp
    · exact ⟨fresh_done, .ended rfl rfl⟩
  | done => exact (move.halt_inv rfl).elim

end Held

def elsewhere (kind : Point → Bool) (conns : List (Conn Db Row Point)) (index : Nat) : Bool :=
  conns.zipIdx.any fun entry => entry.2 != index && kind entry.1.point

theorem nowhere_else {kind : Point → Bool} {conns : List (Conn Db Row Point)} {index other : Nat}
    {peer : Conn Db Row Point} (absent : elsewhere kind conns index = false)
    (ne : other ≠ index) (here : conns[other]? = some peer) :
    kind peer.point = false := by
  simp only [elsewhere, any_eq_false] at absent
  have entry := absent (peer, other) (mem_zipIdx_iff_getElem?.mpr here)
  simpa [ne] using entry

def Point.starts : Point → Bool
  | .submit _ => true
  | .reapAttempts _ _ => true
  | .sweep _ => true
  | _ => false

section

structure Rows (terms : JobTerms) (Whole : Db → Prop) (world : World Db Row Point) : Prop where
  terms : world.committed.record.job.toJobTerms = terms
  whole : Whole world.committed

structure Each (terms : JobTerms) (Asserts : Db → Point → Prop)
    (committed : Db) (conn : Conn Db Row Point) : Prop where
  held : Held terms conn
  asserts : Asserts committed conn.point

def Apart (claims : Point → Bool) (left right : Conn Db Row Point) : Prop :=
  claims left.point = true → claims right.point = false

/-- An assertion about the committed rows, one about each control point, and
a right that at most one transaction has at a time. -/
def Keeps (terms : JobTerms) (Whole : Db → Prop)
    (Asserts : Db → Point → Prop) (claims : Point → Bool)
    (world : World Db Row Point) : Prop :=
  Outline (Rows terms Whole) (Each terms Asserts) (Apart claims) world

variable {settings : Settings} {terms : JobTerms} {Whole : Db → Prop}
  {Asserts : Db → Point → Prop} {claims : Point → Bool}
  {world start : World Db Row Point}

theorem keeps_start (same : start.committed.record.job.toJobTerms = terms)
    (whole : Whole start.committed)
    (begun : ∀ conn ∈ start.conns, ∃ point, conn = .fresh point ∧ point.starts = true)
    (asserts : ∀ conn ∈ start.conns, conn.point.starts = true → Asserts start.committed conn.point)
    (unclaimed : ∀ point : Point, point.starts = true → claims point = false) :
    Keeps terms Whole Asserts claims start where
  whole := ⟨same, whole⟩
  each := by
    intro _ conn found
    have member := mem_of_getElem? found
    obtain ⟨point, rfl, starts⟩ := begun conn member
    refine ⟨?_, asserts _ member starts⟩
    cases point with
    | submit | reapAttempts | sweep => exact .fresh rfl rfl rfl
    | _ => cases starts
  pair := by
    intro _ _ _ rightConn _ _ found _
    obtain ⟨point, rfl, starts⟩ := begun rightConn (mem_of_getElem? found)
    exact unclaimed point starts
  compatible := by
    intro _ _ leftConn _ _ found _ _ _ _ held
    obtain ⟨_, rfl, _⟩ := begun leftConn (mem_of_getElem? found)
    cases held

theorem reaches_keeps {allowed : World Db Row Point → Action → Prop}
    (reached : Reaches (program settings) allowed start world)
    (initial : Keeps terms Whole Asserts claims start) (idle : ∀ db, Asserts db .done)
    (unclaimed : claims .done = false)
    (advances : ∀ world index conn next, Keeps terms Whole Asserts claims world →
      allowed world (.exec index) → world.conns[index]? = some conn →
      Advance settings (conn.point.flushed world.committed) conn.point next →
      Asserts world.committed next ∧ (claims next = true → ∀ other bystander, other ≠ index →
      world.conns[other]? = some bystander → claims bystander.point = false))
    (commits : ∀ world (index : Nat) (conn : Conn Db Row Point),
      Keeps terms Whole Asserts claims world →
      world.conns[index]? = some conn → conn.point.commits = true →
      Whole (conn.point.flushed world.committed) ∧ ∀ other bystander, other ≠ index →
      world.conns[other]? = some bystander →
      Asserts (conn.point.flushed world.committed) bystander.point) :
    Keeps terms Whole Asserts claims world := by
  apply reached.outline initial
  intro world action conn moved committed keeps permitted found move gaveUp
  obtain ⟨held, _⟩ := keeps.each _ conn found
  obtain ⟨same, whole⟩ := keeps.whole
  have others : ∀ other bystander, other ≠ action.index → world.conns[other]? = some bystander →
      Each terms Asserts world.committed bystander :=
    fun other bystander _ here => keeps.each other bystander here
  -- whoever ends its transaction has no right to conflict with
  have ended (gone : moved = .fresh .done) (kept : committed = world.committed) :
      Undisturbed (Rows terms Whole) (Each terms Asserts) (Apart claims)
        world action.index moved committed := by
    subst gone kept
    refine ⟨⟨same, whole⟩, ⟨.fresh_done, idle _⟩, ?_⟩
    intro other bystander ne here
    refine ⟨others other bystander ne here, ?_, fun _ => unclaimed⟩
    intro claimed
    rw [Conn.fresh, unclaimed] at claimed
    cases claimed
  cases action with
  | abort =>
    obtain ⟨gone, kept⟩ := gaveUp rfl
    exact ended gone kept
  | exec index =>
    obtain ⟨heldMoved, outcome⟩ := held.outcome same move
    cases outcome with
    | ended gone kept => exact ended gone kept
    | committed commit gone effect =>
      subst gone effect
      obtain ⟨wholeAfter, assertsAfter⟩ := commits world index conn keeps found commit
      refine ⟨⟨(conn.point.flushed_terms _).trans same, wholeAfter⟩, ⟨.fresh_done, idle _⟩, ?_⟩
      intro other bystander ne here
      refine ⟨⟨(others other bystander ne here).held, assertsAfter other bystander ne here⟩, ?_,
        fun _ => unclaimed⟩
      intro claimed
      rw [Conn.fresh, unclaimed] at claimed
      cases claimed
    | advanced advance kept =>
      subst kept
      obtain ⟨asserts, free⟩ := advances world index conn moved.point keeps permitted found advance
      refine ⟨⟨same, whole⟩, ⟨heldMoved, asserts⟩, ?_⟩
      intro other bystander ne here
      refine ⟨others other bystander ne here, fun claimed => free claimed other bystander ne here,
        ?_⟩
      intro theirs
      by_contra ours
      rw [Bool.not_eq_false] at ours
      rw [free ours other bystander ne here] at theirs
      cases theirs

end

end Gridix.Finalisation
