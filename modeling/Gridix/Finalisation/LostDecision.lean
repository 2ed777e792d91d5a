import Gridix.Finalisation.AtMostOnce

/-!
# No lost finalisation

Every transaction counts the finished attempts it sees, its own included, and
leaves the job alone when they are too few.  As long as nobody counts while
another transaction has a finish flushed and not committed, the job is
terminal exactly when enough attempts are finished.
-/

namespace Gridix.Finalisation

open ReadCommitted List

def Point.counting : Point → Bool
  | .count _ => true
  | _ => false

def Point.finishing (point : Point) : Bool := !point.finishes.isEmpty

/-- A transaction counts only when no other one has an uncommitted finish. -/
def countsAlone (world : World Db Row Point) : Action → Bool
  | .abort _ => true
  | .exec index =>
    match world.conns[index]? with
    | none => true
    | some conn =>
      !conn.point.counting || !elsewhere Point.finishing world.conns index

structure Decisive (terms : JobTerms) (db : Db) : Prop where
  attempts : db.record.attempts.length = terms.redundancy
  terminal : db.record.job.status.isTerminal = true ↔ terms.redundancy ≤ db.votes []

inductive Recording (terms : JobTerms) (txn : Txn) (committed : Db) : Prop where
  | closed : txn.job.status.isTerminal = true → txn.dirty = false →
      committed.record.job.status.isTerminal = true →
      Recording terms txn committed
  | idle : txn.job.status.isTerminal = false → txn.dirty = false →
      txn.finish.numbers = [] → Recording terms txn committed
  | short : txn.job.status.isTerminal = false →
      committed.votes txn.finish.numbers < terms.redundancy →
      Recording terms txn committed

namespace Point

def countedFinish : Point → Bool
  | .load txn => !txn.finish.numbers.isEmpty
  | .decide txn _ _ => !txn.finish.numbers.isEmpty
  | .settle txn _ _ => !txn.finish.numbers.isEmpty
  | .finalCommit txn _ _ => !txn.finish.numbers.isEmpty
  | .recordCommit txn =>
    !txn.job.status.isTerminal && !txn.finish.numbers.isEmpty
  | _ => false

theorem finishing_of_countedFinish {point : Point}
    (counted : point.countedFinish = true) : point.finishing = true := by
  cases point with
  | recordCommit => exact (Bool.and_eq_true_iff.mp counted).2
  | load | decide | settle | finalCommit => exact counted
  | _ => cases counted

def Decides (terms : JobTerms) (txn : Txn) (decided : Job) (committed : Db) : Prop :=
  terms.redundancy ≤ committed.votes txn.finish.numbers ∧
    txn.job.status ≠ decided.status ∧ decided.status.isTerminal = true

def LosesNothing (terms : JobTerms) (committed : Db) : Point → Prop
  | .attemptFor _ _ job => job.status.isTerminal = false
  | .startJob txn => txn.job.status.isTerminal = false
  | .finishAttempts txn => txn.job.status.isTerminal = false
  | .count txn => txn.job.status.isTerminal = false
  | .load txn => terms.redundancy ≤ committed.votes txn.finish.numbers
  | .decide txn decided _ => Decides terms txn decided committed
  | .settle txn decided _ => Decides terms txn decided committed
  | .finalCommit txn decided _ => Decides terms txn decided committed
  | .recordCommit txn => Recording terms txn committed
  | .sweep _ => False
  | .locked _ _ => False
  | .sweepJob _ _ _ => False
  | .sweepAttempts _ _ _ => False
  | .sweepCommit _ _ _ => False
  | _ => True

end Point

section

variable {terms : JobTerms} {committed : Db} {point : Point} {txn : Txn}

theorem Txn.written_of_idle (clean : txn.dirty = false)
    (none : txn.finish.numbers = []) (db : Db) : txn.written db = db := by
  rw [Txn.written, Txn.started_of_clean clean, Db.updateAttempts, Finish.apply_of_nil none]

theorem Txn.written_length (txn : Txn) (db : Db) :
    (txn.written db).record.attempts.length = db.record.attempts.length := by
  simp [Txn.written, Db.updateAttempts, Finish.apply]

theorem Txn.written_votes_of_nil (none : txn.finish.numbers = []) (db : Db) (numbers : List Nat) :
    (txn.written db).votes numbers = db.votes numbers := by
  rw [Txn.written, Db.updateAttempts, Finish.apply_of_nil none]
  exact txn.started_votes db numbers

theorem Decisive.open_of_short (decisive : Decisive terms committed)
    (short : committed.votes [] < terms.redundancy) :
    committed.record.job.status.isTerminal = false := by
  rw [← Bool.not_eq_true, decisive.terminal, Nat.not_le]
  exact short

theorem decisive_short (decisive : Decisive terms committed)
    (open_ : txn.job.status.isTerminal = false)
    (short : committed.votes txn.finish.numbers < terms.redundancy) :
    Decisive terms (txn.written committed) where
  attempts := (txn.written_length committed).trans decisive.attempts
  terminal := by
    have before := decisive.open_of_short ((Db.votes_mono (nil_subset _)).trans_lt short)
    have status : (txn.written committed).record.job.status.isTerminal = false := by
      change (txn.started committed).record.job.status.isTerminal = false
      by_cases dirty : txn.dirty = true
      · rw [Txn.started_status dirty]
        exact open_
      · rw [Txn.started_of_clean (Bool.not_eq_true _ ▸ dirty)]
        exact before
    rw [status, Txn.written_votes]
    exact iff_of_false nofun (Nat.not_le.mpr short)

theorem decisive_recording (decisive : Decisive terms committed)
    (recording : Recording terms txn committed) :
    Decisive terms (txn.written committed) := by
  cases recording with
  | closed _ clean terminal =>
    refine ⟨(txn.written_length committed).trans decisive.attempts, iff_of_true ?_ ?_⟩
    · change (txn.started committed).record.job.status.isTerminal = true
      rw [Txn.started_of_clean clean]
      exact terminal
    · exact (decisive.terminal.mp terminal).trans (txn.votes_le_written committed [])
  | idle _ clean none =>
    rw [Txn.written_of_idle clean none]
    exact decisive
  | short open_ short => exact decisive_short decisive open_ short

theorem decisive_decision {decided : Job} {rows : Ledger} (decisive : Decisive terms committed)
    (decides : Point.Decides terms txn decided committed) :
    Decisive terms ((Point.finalCommit txn decided rows).flushed committed) where
  attempts := (txn.written_length committed).trans decisive.attempts
  terminal := by
    obtain ⟨enough, moved, terminal⟩ := decides
    apply iff_of_true
    · change (txn.decided decided committed).record.job.status.isTerminal = true
      rw [Txn.decided_status moved]
      exact terminal
    · change _ ≤ (txn.written committed).votes []
      rw [Txn.written_votes]
      exact enough

theorem decisive_commit (commits : point.commits = true) (decisive : Decisive terms committed)
    (asserts : point.LosesNothing terms committed) :
    Decisive terms (point.flushed committed) := by
  cases point with
  | finalCommit => exact decisive_decision decisive asserts
  | recordCommit => exact decisive_recording decisive asserts
  | sweepCommit => cases asserts
  | _ => cases commits

theorem short_commit {other : Txn} (commits : point.commits = true)
    (asserts : point.LosesNothing terms committed) (decisive : Decisive terms committed)
    (short : committed.votes other.finish.numbers < terms.redundancy)
    (apart : point.countedFinish = true → other.finish.numbers = [])
    (exclusive : point.holdsJob = true → other.dirty = false)
    (active : other.finish.numbers = [] → other.dirty = true) :
    (point.flushed committed).votes other.finish.numbers < terms.redundancy := by
  have fewNow : committed.votes [] < terms.redundancy :=
    (Db.votes_mono (nil_subset _)).trans_lt short
  cases point with
  | finalCommit txn =>
    by_cases none : txn.finish.numbers = []
    · change (txn.written committed).votes _ < _
      rw [Txn.written_votes_of_nil none]
      exact short
    · have free : other.finish.numbers = [] := apart (by simpa [Point.countedFinish] using none)
      cases (exclusive rfl).symm.trans (active free)
  | recordCommit txn =>
    change (txn.written committed).votes _ < _
    by_cases none : txn.finish.numbers = []
    · rw [Txn.written_votes_of_nil none]
      exact short
    · cases asserts with
      | closed _ _ terminal => cases terminal.symm.trans (decisive.open_of_short fewNow)
      | idle _ _ nothing => exact absurd nothing none
      | short open_ few =>
        have free : other.finish.numbers = [] :=
          apart (by simpa [Point.countedFinish, open_] using none)
        rw [free, Txn.written_votes]
        exact few
  | sweepCommit => cases asserts
  | _ => cases commits

end

section

variable {settings : Settings} {terms : JobTerms}
  {start world : World Db Row Point} {index : Nat}
  {conn : Conn Db Row Point} {next : Point}

theorem uncounted_of_countsAlone (alone : countsAlone world (.exec index) = true)
    (found : world.conns[index]? = some conn) (counting : conn.point.counting = true) :
    ∀ other peer, other ≠ index → world.conns[other]? = some peer →
      peer.point.countedFinish = false := by
  intro _ _ ne here
  have absent : elsewhere Point.finishing world.conns index = false := by
    simpa [countsAlone, found, counting] using alone
  have unfinished := nowhere_else absent ne here
  by_contra counted
  rw [Bool.not_eq_false] at counted
  cases (Point.finishing_of_countedFinish counted).symm.trans unfinished

theorem losesNothing_advance
    (keeps : Keeps terms (Decisive terms) (Point.LosesNothing terms) Point.countedFinish world)
    (alone : countsAlone world (.exec index) = true) (found : world.conns[index]? = some conn)
    (advance : Advance settings (conn.point.flushed world.committed) conn.point next) :
    Point.LosesNothing terms world.committed next ∧
      (next.countedFinish = true → ∀ other peer, other ≠ index → world.conns[other]? = some peer →
        peer.point.countedFinish = false) := by
  obtain ⟨held, asserts⟩ := keeps.each index conn found
  have already (counted : conn.point.countedFinish = true) : ∀ other peer, other ≠ index →
        world.conns[other]? = some peer →
        peer.point.countedFinish = false :=
    fun other peer ne here =>
      keeps.pair index other conn peer ne.symm found here counted
  have first := uncounted_of_countsAlone alone found
  have copy := held.copy
  generalize conn.point = point at advance asserts already copy first
  cases advance with
  | owned inFlight started =>
    refine ⟨?_, (by rintro ⟨⟩)⟩
    change JobStatus.isTerminal _ = false
    rw [(startRunning_ok inFlight started).2]
    rfl
  | attemptFor | startJob | finishAttempts => exact ⟨asserts, (by rintro ⟨⟩)⟩
  | enough enough =>
    rename_i txn
    have same : txn.job.toJobTerms = terms := copy _ rfl
    refine ⟨?_, fun _ => first rfl⟩
    change terms.redundancy ≤ _
    rw [← same, ← Txn.written_votes]
    exact enough
  | short short =>
    rename_i txn
    have same : txn.job.toJobTerms = terms := copy _ rfl
    refine ⟨.short asserts ?_, fun _ => first rfl⟩
    rw [← same, ← Txn.written_votes]
    exact short
  | load concluded =>
    exact ⟨⟨asserts, conclude_final concluded⟩, fun counted =>
      already counted⟩
  | decide | settle => exact ⟨asserts, fun counted => already counted⟩
  | reapCount open_ => exact ⟨open_, (by rintro ⟨⟩)⟩
  | reapClosed terminal =>
    refine ⟨.closed terminal (by simp [Txn.dirty]) terminal, ?_⟩
    intro counted
    have stale := (Bool.and_eq_true_iff.mp counted).1
    rw [Bool.not_eq_true'] at stale
    cases stale.symm.trans terminal
  | sweep | locked | sweepJob | sweepAttempts => cases asserts
  | _ => exact ⟨trivial, (by rintro ⟨⟩)⟩

theorem losesNothing_bystander {peer : Conn Db Row Point} {other : Nat}
    (keeps : Keeps terms (Decisive terms) (Point.LosesNothing terms) Point.countedFinish world)
    (found : world.conns[index]? = some conn) (commits : conn.point.commits = true)
    (ne : other ≠ index) (here : world.conns[other]? = some peer) :
    Point.LosesNothing terms (conn.point.flushed world.committed) peer.point := by
  obtain ⟨held, asserts⟩ := keeps.each index conn found
  obtain ⟨theirs, relied⟩ := keeps.each other peer here
  have decisive := keeps.whole.whole
  have votes := conn.point.votes_le_flushed world.committed
  have apart := keeps.pair index other conn peer ne.symm found here
  have locked := held.exclusive theirs (keeps.compatible index other conn peer ne.symm found here)
  unfold Apart at apart
  generalize peer.point = point at relied apart locked ⊢
  cases point with
  | load => exact Nat.le_trans relied (votes _)
  | decide | settle => exact ⟨relied.1.trans (votes _), relied.2⟩
  | finalCommit => exact ⟨relied.1.trans (votes _), relied.2⟩
  | recordCommit txn =>
    cases relied with
    | closed stale clean terminal =>
      refine .closed stale clean ?_
      apply (decisive_commit commits decisive asserts).terminal.mpr
      exact (decisive.terminal.mp terminal).trans (votes [])
    | idle open_ clean none => exact .idle open_ clean none
    | short open_ few =>
      by_cases active : txn.finish.numbers = [] → txn.dirty = true
      · refine .short open_ (short_commit commits asserts decisive few ?_ locked active)
        intro counted
        simpa [Point.countedFinish, open_] using apart counted
      · obtain ⟨none, clean⟩ := Classical.not_imp.mp active
        exact .idle open_ (Bool.not_eq_true _ ▸ clean) none
  | _ => exact relied

theorem reaches_decisive
    (begun : ∀ conn ∈ start.conns, (∃ submission, conn = .fresh (.submit submission)) ∨
      ∃ reading now, conn = .fresh (.reapAttempts reading now))
    (initial : Decisive start.committed.record.job.toJobTerms start.committed)
    (reached : Reaches (program settings)
      (fun world action => countsAlone world action = true) start world) :
    Keeps start.committed.record.job.toJobTerms (Decisive start.committed.record.job.toJobTerms)
      (Point.LosesNothing start.committed.record.job.toJobTerms)
      Point.countedFinish world := by
  refine reaches_keeps reached (keeps_start rfl initial ?_ ?_ ?_) (fun _ => trivial) rfl ?_ ?_
  · intro conn mem
    rcases begun conn mem with ⟨_, rfl⟩ | ⟨_, _, rfl⟩ <;> exact ⟨_, rfl, rfl⟩
  · intro conn mem _
    rcases begun conn mem with ⟨_, rfl⟩ | ⟨_, _, rfl⟩ <;> trivial
  · intro point starts
    revert starts
    cases point <;> simp [Point.starts, Point.countedFinish]
  · intro _ _ _ _ keeps alone found advance
    exact losesNothing_advance keeps alone found advance
  · intro _ index conn keeps found commits
    exact ⟨decisive_commit commits keeps.whole.whole (keeps.each index conn found).asserts,
      fun other peer ne here =>
        losesNothing_bystander keeps found commits ne here⟩

end

/-- In every run in which nobody counts beside an uncommitted finish, a job
whose attempts are all committed as finished is terminal. -/
theorem no_lost_finalisation {settings : Settings} {start world : World Db Row Point}
    (begun : ∀ conn ∈ start.conns, (∃ submission, conn = .fresh (.submit submission)) ∨
      ∃ reading now, conn = .fresh (.reapAttempts reading now))
    (redundant : 2 ≤ start.committed.record.job.redundancy)
    (assigned : start.committed.record.attempts.length = start.committed.record.job.redundancy)
    (inFlight : start.committed.record.job.status.inFlight = true)
    (unfinished : ∀ attempt ∈ start.committed.record.attempts, attempt.finished = false)
    (reached : Reaches (program settings)
      (fun world action => countsAlone world action = true) start world)
    (finished : ∀ attempt ∈ world.committed.record.attempts, attempt.finished = true) :
    world.committed.record.job.status.isTerminal = true := by
  have nobody : start.committed.votes [] = 0 := by
    rw [Db.votes, countP_eq_zero]
    intro attempt member
    simp [accountedFor, unfinished attempt member]
  have initial : Decisive start.committed.record.job.toJobTerms start.committed := by
    refine ⟨assigned, ?_⟩
    rw [inFlight_open inFlight]
    exact iff_of_false (by rintro ⟨⟩) (by omega)
  have decisive := (reaches_decisive begun initial reached).whole.whole
  have all : world.committed.votes [] = world.committed.record.attempts.length := by
    rw [Db.votes, countP_eq_length]
    intro attempt member
    simp [accountedFor, finished attempt member]
  apply decisive.terminal.mpr
  rw [all, decisive.attempts]

def pairTerms : JobTerms := (minuteRequest true 2).terms .default 1 3 none

def lastTwo : World Db Row Point where
  committed :=
    { record := { job := runningJob pairTerms
                  attempts := [runningAttempt 7 1, runningAttempt 8 2] }
      ledger := escrowRows 3 1 (10 ^ 8) }
  conns := [.fresh (.submit (delivery 7)), .fresh (.submit (delivery 8))]

theorem lastTwo_begun : ∀ conn ∈ lastTwo.conns, (∃ submission, conn = .fresh (.submit submission)) ∨
      ∃ reading now, conn = .fresh (.reapAttempts reading now) := by
  intro _ mem
  simp only [lastTwo, mem_cons, not_mem_nil, or_false] at mem
  rcases mem with rfl | rfl <;> exact .inl ⟨_, rfl⟩

theorem no_lost_finalisation_serially : ∃ world : World Db Row Point, run (program Settings.default)
        (fun world action => countsAlone world action = true) lastTwo
        (List.replicate 7 (.exec 0) ++ List.replicate 10 (.exec 1)) = some world ∧
      world.committed.record.job.status.isTerminal = true := by
  obtain ⟨world, ran, finished⟩ : ∃ world ∈ run (program Settings.default)
      (fun world action => countsAlone world action = true) lastTwo
      (List.replicate 7 (.exec 0) ++ List.replicate 10 (.exec 1)),
        ∀ attempt ∈ world.committed.record.attempts, attempt.finished = true := by
    decide +kernel
  refine ⟨world, ran, no_lost_finalisation lastTwo_begun (by decide)
    (by decide) (by decide) ?_ (reaches_of_run .refl ran) finished⟩
  intro _ member
  simp only [lastTwo, mem_cons, not_mem_nil, or_false] at member
  rcases member with rfl | rfl <;> rfl

/-- Each counts its own finished attempt only, and commits: the job stays
running. -/
theorem last_two_results_lost : ∃ world : World Db Row Point,
      Reaches (program Settings.default) (fun _ _ => True) lastTwo world ∧
      (∀ attempt ∈ world.committed.record.attempts, attempt.finished = true) ∧
      world.conns.all (fun conn => conn.point.over) = true ∧
      world.committed.record.job.status = .running :=
  exists_reaches (List.replicate 6 (.exec 0) ++ List.replicate 6 (.exec 1) ++ [.exec 0, .exec 1])
    (by decide +kernel)

end Gridix.Finalisation
