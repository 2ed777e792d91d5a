import Gridix.Finalisation.Moves

/-!
# At-most-once settlement

The settlements and refunds of a job debit its escrow once, as long as a
transaction passes the count only while the committed job is open and no other
transaction is past the count.
-/

namespace Gridix.Finalisation

open ReadCommitted List

/-- The settlements and refunds of a job. -/
def resolutions (jobId : Uuid) (ledger : Ledger) : Ledger :=
  (ledger.forJob jobId).filter fun group =>
    group.reason == .settle || group.reason == .refund

/-- At most the escrow leaves it, and at most one group settles. -/
structure AtMostOnce (terms : JobTerms) (groups : Ledger) : Prop where
  debited : groups.sum .escrow .debit none ≤ terms.escrowAmount.getD 0
  settled : groups.countP (fun group => group.reason == .settle) ≤ 1

@[simp] theorem resolutions_append (jobId : Uuid) (left right : Ledger) :
    resolutions jobId (left ++ right) = resolutions jobId left ++ resolutions jobId right := by
  simp [resolutions]

theorem atMostOnce_nil (terms : JobTerms) : AtMostOnce terms [] where
  debited := by
    cases amount : terms.escrowAmount with
    | none => exact Int.le_refl _
    | some escrow => exact terms.escrowNonneg escrow amount
  settled := Nat.zero_le _

section

variable (jobId developerId providerId : Uuid) {amount cost : Int}
  (fee : Int)

theorem debited_refundRows (nonneg : 0 ≤ amount) :
    (resolutions jobId (refundRows jobId developerId amount)).sum .escrow .debit none = amount := by
  unfold refundRows
  split_ifs
  · simp [resolutions]
    omega
  · simp [resolutions, Ledger.forJob]

theorem debited_releaseRows (nonneg : 0 ≤ cost) : (resolutions jobId
      (releaseRows jobId developerId providerId cost fee)).sum .escrow .debit none = cost := by
  unfold releaseRows
  split_ifs
  · simp [resolutions]
    omega
  · simp only [resolutions, Ledger.forJob, settlePostings]
    split_ifs <;> simp [sumPostings, Posting.counts]

theorem settled_refundRows : (resolutions jobId (refundRows jobId developerId amount)).countP
      (fun group => group.reason == .settle) = 0 := by
  unfold refundRows
  split_ifs <;> simp [resolutions, Ledger.forJob]

theorem settled_releaseRows : (resolutions jobId
      (releaseRows jobId developerId providerId cost fee)).countP
        (fun group => group.reason == .settle) ≤ 1 := by
  unfold releaseRows
  split_ifs <;> simp [resolutions, Ledger.forJob]

end

variable {job : Job} {settings : Settings}

theorem atMostOnce_refundRows {escrow : Int} (billed : job.escrowAmount = some escrow) :
    AtMostOnce job.toJobTerms (resolutions job.id (refundRows job.id job.developerId escrow)) where
  debited := by
    rw [debited_refundRows _ _ (job.escrowNonneg escrow billed), billed]
    exact Int.le_refl _
  settled := by
    rw [settled_refundRows]
    exact Nat.zero_le _

theorem atMostOnce_completionRows {bytes escrow : Int}
    (providerId : Uuid) (billed : job.escrowAmount = some escrow) :
    AtMostOnce job.toJobTerms (resolutions job.id
        (completionRows settings job bytes providerId escrow)) := by
  have nonneg := settledCost_nonneg settings job (job.escrowNonneg escrow billed)
  have le := settledCost_le settings job escrow
  have noData : resolutions job.id (dataRows job (dataCost bytes settings)) = [] := by
    unfold dataRows
    split_ifs <;> simp [resolutions, Ledger.forJob]
  simp only [completionRows, resolutions_append, noData, append_nil]
  constructor
  · rw [Ledger.sum_append, debited_releaseRows _ _ _ _ nonneg,
      debited_refundRows _ _ (Int.sub_nonneg.mpr le), billed,
      Option.getD_some]
    omega
  · rw [countP_append, settled_refundRows]
    exact settled_releaseRows _ _ _ _

theorem conclude_once {reading : Reading}
    {decided : Job} {attempts : List JobAttempt} {rows : Ledger}
    (ok : conclude settings reading job attempts = .ok (decided, rows)) :
    AtMostOnce job.toJobTerms (resolutions job.id rows) := by
  obtain ⟨_, chosen, _, _, decision, settlement, rfl⟩ := conclude_ok ok
  obtain ⟨terms, _, paid⟩ := decideJob_ok decision
  rw [← terms]
  by_cases canary : chosen.kind = .canary
  · cases settlement.symm.trans (settleJob_unbilled (.inl canary))
    exact atMostOnce_nil _
  · cases billed : chosen.escrowAmount with
    | none =>
      cases settlement.symm.trans (settleJob_unbilled (.inr billed))
      exact atMostOnce_nil _
    | some =>
      by_cases completed : chosen.status = .completed
      · obtain ⟨providerId, rfl⟩ := Option.isSome_iff_exists.mp (paid completed)
        cases settlement.symm.trans (settleJob_completed canary billed completed)
        exact atMostOnce_completionRows providerId billed
      · cases settlement.symm.trans (settleJob_refunded canary billed completed)
        exact atMostOnce_refundRows billed

def passesCount (committed : Db) (conn : Conn Db Row Point) : Bool :=
  match conn.point with
  | .count txn => decide (txn.job.redundancy ≤
      (conn.pending committed).record.finishedAttempts.length)
  | _ => false

/-- A transaction passes the count only while the committed job is open and
no other transaction is past the count. -/
def guarded (world : World Db Row Point) : Action → Bool
  | .abort _ => true
  | .exec index =>
    match world.conns[index]? with
    | none => true
    | some conn =>
      !passesCount world.committed conn || (!world.committed.record.job.status.isTerminal &&
          !elsewhere Point.finalizing world.conns index)

def Unresolved (terms : JobTerms) (db : Db) : Prop := resolutions terms.id db.ledger = []

inductive Settled (terms : JobTerms) (db : Db) : Prop where
  | unresolved : Unresolved terms db → Settled terms db
  | resolved : AtMostOnce terms (resolutions terms.id db.ledger) →
      db.record.job.status.isTerminal = true →
      terms.redundancy ≤ db.votes [] → Settled terms db

structure Deciding (terms : JobTerms) (txn : Txn) (committed : Db) : Prop where
  unresolved : Unresolved terms committed
  enough : terms.redundancy ≤ committed.votes txn.finish.numbers

structure Decided (terms : JobTerms) (txn : Txn) (decided : Job) (rows : Ledger) : Prop where
  moved : txn.job.status ≠ decided.status
  terminal : decided.status.isTerminal = true
  once : AtMostOnce terms (resolutions terms.id rows)

namespace Point

def SettlesOnce (terms : JobTerms) (committed : Db) : Point → Prop
  | .load txn => Deciding terms txn committed
  | .decide txn decided rows =>
    Deciding terms txn committed ∧ Decided terms txn decided rows
  | .settle txn decided rows =>
    Deciding terms txn committed ∧ Decided terms txn decided rows
  | .finalCommit txn decided rows =>
    Deciding terms txn committed ∧ Decided terms txn decided rows
  | .recordCommit txn => txn.dirty = true → Unresolved terms committed
  | .locked _ _ => Unresolved terms committed
  | .sweepJob _ _ _ => Unresolved terms committed
  | .sweepAttempts _ _ _ => Unresolved terms committed
  | .sweepCommit _ _ _ => Unresolved terms committed
  | _ => True

variable {terms : JobTerms} {committed later : Db} {point : Point}

theorem SettlesOnce.mono (asserts : point.SettlesOnce terms committed)
    (quiet : later.ledger = committed.ledger)
    (votes : ∀ numbers, committed.votes numbers ≤ later.votes numbers) :
    point.SettlesOnce terms later := by
  have unresolved (before : Unresolved terms committed) : Unresolved terms later := by
    rw [Unresolved, quiet]
    exact before
  have deciding {txn : Txn} (before : Deciding terms txn committed) : Deciding terms txn later :=
    ⟨unresolved before.unresolved, before.enough.trans (votes _)⟩
  cases point with
  | load => exact deciding asserts
  | decide | settle | finalCommit => exact asserts.imp_left deciding
  | recordCommit => exact fun dirty => unresolved (asserts dirty)
  | locked | sweepJob | sweepAttempts | sweepCommit => exact unresolved asserts
  | _ => trivial

theorem settlesOnce_of_bystander (undecided : point.finalizing = false)
    (free : point.holdsJob = false) :
    point.SettlesOnce terms committed := by
  cases point with
  | load | decide | settle | finalCommit => cases undecided
  | recordCommit =>
    intro dirty
    cases dirty.symm.trans free
  | locked | sweepJob | sweepAttempts | sweepCommit => cases free
  | _ => trivial

end Point

section

variable {terms : JobTerms} {committed : Db} {point : Point}

theorem Settled.unresolved_of_open (settled : Settled terms committed)
    (open_ : committed.record.job.status.isTerminal = false) :
    Unresolved terms committed := by
  cases settled with
  | unresolved nothing => exact nothing
  | resolved _ terminal => cases open_.symm.trans terminal

theorem Settled.unresolved_of_short (settled : Settled terms committed)
    (short : committed.votes [] < terms.redundancy) :
    Unresolved terms committed := by
  cases settled with
  | unresolved nothing => exact nothing
  | resolved _ _ enough => exact absurd enough (Nat.not_le.mpr short)

theorem settled_finalCommit {txn : Txn} {decided : Job} {rows : Ledger}
    (deciding : Deciding terms txn committed) (decision : Decided terms txn decided rows) :
    Settled terms ((Point.finalCommit txn decided rows).flushed committed) := by
  apply Settled.resolved
  · have ledger : ((Point.finalCommit txn decided rows).flushed
        committed).ledger = committed.ledger ++ rows := by
      simp [Point.flushed, Txn.decided, Txn.written, Db.post, Db.updateJob, Db.updateAttempts]
    rw [ledger, resolutions_append, deciding.unresolved]
    exact decision.once
  · change (txn.decided decided committed).record.job.status.isTerminal = true
    rw [Txn.decided_status decision.moved]
    exact decision.terminal
  · change _ ≤ (txn.written committed).votes []
    rw [Txn.written_votes]
    exact deciding.enough

theorem settled_recordCommit {txn : Txn} (settled : Settled terms committed)
    (dirty : txn.dirty = true → Unresolved terms committed) :
    Settled terms ((Point.recordCommit txn).flushed committed) := by
  have ledger := Point.flushed_ledger committed
    (show (Point.recordCommit txn).finalizing = false from rfl)
  by_cases started : txn.dirty = true
  · apply Settled.unresolved
    rw [Unresolved, ledger]
    exact dirty started
  · cases settled with
    | unresolved nothing =>
      apply Settled.unresolved
      rw [Unresolved, ledger]
      exact nothing
    | resolved once terminal enough =>
      apply Settled.resolved
      · rw [ledger]
        exact once
      · change (txn.started committed).record.job.status.isTerminal = true
        rw [Txn.started_of_clean (Bool.not_eq_true _ ▸ started)]
        exact terminal
      · exact enough.trans (Point.votes_le_flushed _ _ _)

theorem settled_commit (commits : point.commits = true) (settled : Settled terms committed)
    (asserts : point.SettlesOnce terms committed) :
    Settled terms (point.flushed committed) := by
  cases point with
  | finalCommit => exact settled_finalCommit asserts.1 asserts.2
  | recordCommit => exact settled_recordCommit settled asserts
  | sweepCommit => exact .unresolved asserts
  | _ => cases commits

end

section

variable {settings : Settings} {terms : JobTerms}
  {start world : World Db Row Point} {index : Nat}
  {conn : Conn Db Row Point} {next : Point}

theorem passed_of_guarded {txn : Txn} (held : Held terms conn) (here : conn.point = .count txn)
    (found : world.conns[index]? = some conn) (guard : guarded world (.exec index) = true)
    (enough : txn.job.redundancy ≤ (conn.point.flushed world.committed).votes []) :
    world.committed.record.job.status.isTerminal = false ∧
      elsewhere Point.finalizing world.conns index = false := by
  have passes : passesCount world.committed conn = true := by
    rw [passesCount, held.pending (by rw [here]; rfl), here]
    rw [here] at enough
    simpa [finishedAttempts_length] using enough
  simpa [guarded, found, passes] using guard

theorem settlesOnce_advance
    (keeps : Keeps terms (Settled terms) (Point.SettlesOnce terms) Point.finalizing world)
    (guard : guarded world (.exec index) = true) (found : world.conns[index]? = some conn)
    (advance : Advance settings (conn.point.flushed world.committed) conn.point next) :
    Point.SettlesOnce terms world.committed next ∧
      (next.finalizing = true → ∀ other peer, other ≠ index → world.conns[other]? = some peer →
        peer.point.finalizing = false) := by
  obtain ⟨held, asserts⟩ := keeps.each index conn found
  have settled := keeps.whole.whole
  -- a transaction that is past the count already excludes the others
  have alone (already : conn.point.finalizing = true) : ∀ other peer, other ≠ index →
        world.conns[other]? = some peer →
        peer.point.finalizing = false :=
    fun other peer ne present =>
      keeps.pair index other conn peer ne.symm found present already
  have copy := held.copy
  generalize here : conn.point = point at advance asserts alone copy
  cases advance with
  | enough enough =>
    rename_i txn
    obtain ⟨open_, absent⟩ := passed_of_guarded held here found guard (by rw [here]; exact enough)
    have same : txn.job.toJobTerms = terms := copy _ rfl
    refine ⟨⟨settled.unresolved_of_open open_, ?_⟩, fun _ other peer ne present =>
        nowhere_else absent ne present⟩
    rw [← same, ← Txn.written_votes]
    exact enough
  | short short =>
    rename_i txn
    have same : txn.job.toJobTerms = terms := copy _ rfl
    refine ⟨fun _ => settled.unresolved_of_short ?_, (by rintro ⟨⟩)⟩
    rw [← same]
    exact (Point.votes_le_flushed _ _ _).trans_lt short
  | load concluded =>
    rename_i txn _ _ _
    have same : txn.job.toJobTerms = terms := copy _ rfl
    obtain ⟨moved, terminal⟩ := conclude_final concluded
    refine ⟨⟨asserts, moved, terminal, ?_⟩, fun _ => alone rfl⟩
    rw [← same]
    exact conclude_once concluded
  | decide | settle => exact ⟨asserts, fun _ => alone rfl⟩
  | reapClosed =>
    refine ⟨fun dirty => ?_, (by rintro ⟨⟩)⟩
    simp [Txn.dirty] at dirty
  | sweep applies => exact ⟨settled.unresolved_of_open (Sweep.applies_open applies), (by rintro ⟨⟩)⟩
  | locked | sweepJob | sweepAttempts => exact ⟨asserts, (by rintro ⟨⟩)⟩
  | _ => exact ⟨trivial, (by rintro ⟨⟩)⟩

theorem reaches_settled
    (begun : ∀ conn ∈ start.conns, ∃ point, conn = .fresh point ∧ point.starts = true)
    (unresolved : resolutions start.committed.record.job.id start.committed.ledger = [])
    (reached : Reaches (program settings)
      (fun world action => guarded world action = true) start world) :
    Keeps start.committed.record.job.toJobTerms (Settled start.committed.record.job.toJobTerms)
      (Point.SettlesOnce start.committed.record.job.toJobTerms)
      Point.finalizing world := by
  have quiet (point : Point) (starts : point.starts = true) :
      point.finalizing = false ∧ point.holdsJob = false := by
    revert starts
    cases point <;> simp [Point.starts, Point.finalizing, Point.holdsJob]
  refine reaches_keeps reached (keeps_start rfl (.unresolved unresolved) begun ?_
      fun point starts => (quiet point starts).1)
    (fun _ => trivial) rfl ?_ ?_
  · intro _ _ starts
    exact Point.settlesOnce_of_bystander (quiet _ starts).1 (quiet _ starts).2
  · intro _ _ _ _ keeps guard found advance
    exact settlesOnce_advance keeps guard found advance
  · intro _ index conn keeps found commits
    obtain ⟨held, asserts⟩ := keeps.each index conn found
    refine ⟨settled_commit commits keeps.whole.whole asserts, ?_⟩
    intro other peer ne here
    obtain ⟨theirs, relied⟩ := keeps.each other peer here
    by_cases decides : conn.point.finalizing = true
    · -- a decision commits with the job row locked
      have holds : conn.point.holdsJob = true := by
        revert commits decides
        cases conn.point <;> simp [Point.commits, Point.finalizing, Point.holdsJob]
      apply Point.settlesOnce_of_bystander
      · exact keeps.pair index other conn peer ne.symm found here decides
      · exact held.exclusive theirs (keeps.compatible index other conn peer ne.symm found
            here) holds
    · exact relied.mono (Point.flushed_ledger _ (Bool.not_eq_true _ ▸ decides))
        (Point.votes_le_flushed _ _)

end

/-- In every run that passes the count only while the committed job is open
and nobody else is past it, the job's escrow is debited once at most. -/
theorem settled_at_most_once {settings : Settings} {start world : World Db Row Point}
    (begun : ∀ conn ∈ start.conns, ∃ point, conn = .fresh point ∧ point.starts = true)
    (unresolved : resolutions start.committed.record.job.id start.committed.ledger = [])
    (reached : Reaches (program settings)
      (fun world action => guarded world action = true) start world) :
    AtMostOnce start.committed.record.job.toJobTerms
      (resolutions start.committed.record.job.id world.committed.ledger) := by
  cases (reaches_settled begun unresolved reached).whole.whole with
  | unresolved nothing =>
    rw [nothing]
    exact atMostOnce_nil _
  | resolved once => exact once

def minuteTerms : JobTerms := (minuteRequest false 1).terms .default 1 3 none

def runningJob (terms : JobTerms) : Job :=
  { newJob terms 0 with
    status := .running
    assignedProviderId := some 7
    attemptCount := 1
    leaseExpiresAt := some 60000000
    assignedAt := some 0
    startedAt := some 0 }

def runningAttempt (providerId number : Nat) : JobAttempt where
  providerId := providerId
  attemptNumber := number
  outcome := .running
  leaseExpiresAt := some 60000000
  resultRef := none
  proof := none
  startedAt := some 0
  finishedAt := none

def delivery (providerId : Uuid) : Submission where
  providerId := providerId
  request :=
    { resultRef := none, exitCode := 0, timedOut := false,
      proof := [("exit_code", .int 0), ("output_sha256", .str "output")] }
  reading :=
    { order := .stored, bytes := 0,
      clock := ⟨30000000, 30000000, 30000000, 30000000⟩ }

def twoDeliveries : World Db Row Point where
  committed :=
    { record := { job := runningJob minuteTerms
                  attempts := [runningAttempt 7 1] }
      ledger := escrowRows 3 1 (10 ^ 8) }
  conns := [.fresh (.submit (delivery 7)), .fresh (.submit (delivery 7))]

theorem twoDeliveries_begun : ∀ conn ∈ twoDeliveries.conns,
    ∃ point, conn = .fresh point ∧ point.starts = true := by
  intro _ mem
  simp only [twoDeliveries, mem_cons, not_mem_nil, or_false, or_self] at mem
  exact ⟨_, mem, rfl⟩

theorem settled_at_most_once_serially : ∃ world : World Db Row Point, run (program Settings.default)
        (fun world action => guarded world action = true) twoDeliveries
        (List.replicate 10 (.exec 0) ++ List.replicate 3 (.exec 1)) = some world ∧
      AtMostOnce minuteTerms (resolutions 3 world.committed.ledger) :=
  exists_run (by decide +kernel) fun _ =>
    settled_at_most_once twoDeliveries_begun (by decide +kernel)

/-- Both load the running job before either commits: the escrow of one USDC
is debited by two, and the provider is paid twice. -/
theorem retry_settles_twice : ∃ world : World Db Row Point,
      Reaches (program Settings.default) (fun _ _ => True) twoDeliveries world ∧
      (resolutions 3 world.committed.ledger).sum .escrow .debit none = 2 * 10 ^ 8 ∧
      (resolutions 3 world.committed.ledger).countP (fun group => group.reason == .settle) = 2 :=
  exists_reaches (List.replicate 2 (.exec 0) ++ List.replicate 2 (.exec 1) ++
    List.replicate 8 (.exec 0) ++ List.replicate 8 (.exec 1)) (by decide +kernel)

end Gridix.Finalisation
