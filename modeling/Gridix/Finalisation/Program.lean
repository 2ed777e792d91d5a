import Gridix.Base.ReadCommitted
import Gridix.Jobs.Requests

/-!
# The transactions that decide one job

The control points of `submit_result`, `reap_expired_attempts`,
`assign_providers` and of the two job-level reapers, one for each statement
that reaches the rows of the job.

A session keeps the job as it loaded it and works on that copy: the status
checks read the copy, and a flush writes the columns that changed since the
copy was loaded over whatever the row holds by then.
-/

namespace Gridix.Finalisation

open ReadCommitted

structure Db where
  record : JobRecord
  ledger : Ledger

inductive Row where
  | job
  | attempt (number : Nat)
  deriving DecidableEq, Repr

namespace Db

def updateJob (db : Db) (update : Job → Job) : Db :=
  { db with record := { db.record with job := update db.record.job } }

def updateAttempts (db : Db) (update : List JobAttempt → List JobAttempt) : Db :=
  { db with
    record := { db.record with attempts := update db.record.attempts } }

def post (db : Db) (rows : Ledger) : Db := { db with ledger := db.ledger ++ rows }

end Db

/-- A column is written when the copy differs from what was loaded. -/
def changed {α : Type} [DecidableEq α] (loaded copy row : α) : α :=
  if loaded = copy then row else copy

/-- The `UPDATE` of a job: the changed columns of the copy, over the row. -/
def flushJob (loaded copy row : Job) : Job :=
  { row with
    status := changed loaded.status copy.status row.status
    resultRef := changed loaded.resultRef copy.resultRef row.resultRef
    -- the proof is written once, with the completed status
    proof := copy.proof.or row.proof
    assignedProviderId := changed loaded.assignedProviderId
      copy.assignedProviderId row.assignedProviderId
    attemptCount := changed loaded.attemptCount copy.attemptCount row.attemptCount
    leaseExpiresAt := changed loaded.leaseExpiresAt copy.leaseExpiresAt row.leaseExpiresAt
    costFinal := changed loaded.costFinal copy.costFinal row.costFinal
    queuedAt := changed loaded.queuedAt copy.queuedAt row.queuedAt
    assignedAt := changed loaded.assignedAt copy.assignedAt row.assignedAt
    startedAt := changed loaded.startedAt copy.startedAt row.startedAt
    finishedAt := changed loaded.finishedAt copy.finishedAt row.finishedAt }

@[simp] theorem flushJob_terms (loaded copy row : Job) :
    (flushJob loaded copy row).toJobTerms = row.toJobTerms := rfl

theorem flushJob_status {loaded copy : Job} (row : Job) (moved : loaded.status ≠ copy.status) :
    (flushJob loaded copy row).status = copy.status :=
  if_neg moved

inductive Finish where
  | nothing
  | result (number : Nat) (clock : Clock) (request : AgentResultRequest) (valid : Bool)
  | lapsed (numbers : List Nat) (now : Int)

namespace Finish

def numbers : Finish → List Nat
  | .nothing => []
  | .result number _ _ _ => [number]
  | .lapsed numbers _ => numbers

def change : Finish → JobAttempt → JobAttempt
  | .nothing, attempt => attempt
  | .result _ clock request valid, attempt =>
    attempt.record clock request valid
  | .lapsed _ now, attempt =>
    { attempt with outcome := .reassigned, finishedAt := some now }

def apply (finish : Finish) (attempts : List JobAttempt) : List JobAttempt :=
  attempts.map fun attempt =>
    if attempt.attemptNumber ∈ finish.numbers then finish.change attempt
    else attempt

end Finish

/-- `reap_expired_leases` and `drain_unreachable_providers` differ in the
jobs they select. -/
structure Reclaiming where
  selected : Job → Bool
  inFlight : ∀ job, selected job = true → job.status.inFlight = true
  now : Int
  transitioned : Int

def reapExpiredLeases (now transitioned : Int) : Reclaiming where
  selected := leaseLapsed now
  inFlight := by
    intro job lapsed
    simp only [leaseLapsed, Bool.and_eq_true] at lapsed
    exact lapsed.1.1
  now := now
  transitioned := transitioned

/-- `books` is what the query reads of the providers. -/
def drainUnreachableProviders (settings : Settings) (books : Books)
    (now transitioned : Int) : Reclaiming where
  selected := stranded settings now books
  inFlight := by
    intro job silent
    simp only [stranded, Bool.and_eq_true] at silent
    exact silent.1.1
  now := now
  transitioned := transitioned

inductive Change where
  | nothing
  | close (number : Nat) (stamp : Option Int) (outcome : AttemptOutcome)
  | add (attempts : List JobAttempt)

def Change.apply : Change → List JobAttempt → List JobAttempt
  | .nothing, attempts => attempts
  | .close number stamp outcome, attempts =>
    attempts.map fun attempt =>
      if attempt.attemptNumber = number then
        { attempt with
          finishedAt := stamp.or attempt.finishedAt
          outcome := outcome }
      else attempt
  | .add new, attempts => attempts ++ new

/-- The lock on the row that is updated, or of the foreign key of the rows
that are inserted. -/
def Change.locks : Change → List (Row × LockMode)
  | .nothing => []
  | .close number _ _ => [(.attempt number, .noKeyUpdate)]
  | .add _ => [(.job, .keyShare)]

/-- The latest attempt is closed, and finished unless it is. -/
def closeLatest (record : JobRecord) (outcome : AttemptOutcome) (now : Int) : Change :=
  match record.latestAttempt with
  | none => .nothing
  | some latest =>
    .close latest.attemptNumber (if latest.finished then none else some now) outcome

def Reclaiming.plan (settings : Settings) (reclaiming : Reclaiming)
    (job : Job) (record : JobRecord) : Except Raised (Job × Change) :=
  if settings.maxAttempts ≤ job.attemptCount then do
    let moved ← transition job .failed reclaiming.transitioned
    .ok (moved, closeLatest record .failed reclaiming.now)
  else do
    let moved ← transition job .queued reclaiming.transitioned
    .ok (moved, closeLatest record .reassigned reclaiming.now)

inductive Sweep where
  | reclaim (reclaiming : Reclaiming)
  | assign (candidates : Candidates) (now : Int)

namespace Sweep

def selects : Sweep → Job → Bool
  | .reclaim reclaiming, job => reclaiming.selected job
  | .assign _ _, _ => true

def applies : Sweep → Job → Bool
  | .reclaim reclaiming, job => reclaiming.selected job
  | .assign candidates _, job =>
    job.status == .queued && !(candidates.ids.take job.wanted).isEmpty

def plan (settings : Settings) : Sweep → Job → JobRecord → Except Raised (Job × Change)
  | .reclaim reclaiming, job, record => reclaiming.plan settings job record
  | .assign candidates now, job, record => do
      let providers := candidates.ids.take job.wanted
      let lease := now + settings.leaseSeconds * 1000000
      let moved ← transition job .assigned now
      .ok ({ moved with
             assignedProviderId := providers.head?
             leaseExpiresAt := some lease
             attemptCount := moved.attemptCount + 1 },
           .add (newAttempts record.maxNumber providers lease))

theorem applies_open {sweep : Sweep} {job : Job} (applies : sweep.applies job = true) :
    job.status.isTerminal = false := by
  cases sweep with
  | reclaim reclaiming => exact inFlight_open (reclaiming.inFlight job applies)
  | assign =>
    simp only [Sweep.applies, Bool.and_eq_true, beq_iff_eq] at applies
    rw [applies.1]
    rfl

end Sweep

structure Reading where
  order : RowOrder
  clock : Clock
  bytes : Int

/-- The decision over the finished attempts, and the groups it posts. -/
def conclude (settings : Settings) (reading : Reading) (job : Job)
    (attempts : List JobAttempt) : Except Raised (Job × Ledger) := do
  let outcome ← evaluateQuorum (attempts.map attemptResult) job.redundancy
  let (decided, winner) ← decideJob job attempts outcome reading.clock.jobFinished
  match settleJob settings decided winner reading.bytes with
  | .error error => .error (.ledger error)
  | .ok (rows, costFinal) =>
    .ok ({ decided with costFinal := costFinal }, rows)

/-- A result report and what it reads. -/
structure Submission where
  providerId : Uuid
  request : AgentResultRequest
  reading : Reading

structure Txn where
  reading : Reading
  loaded : Job
  job : Job
  finish : Finish

namespace Txn

def dirty (txn : Txn) : Bool := txn.loaded.status != txn.job.status

def started (txn : Txn) (db : Db) : Db :=
  if txn.dirty then db.updateJob (flushJob txn.loaded txn.job) else db

def written (txn : Txn) (db : Db) : Db := (txn.started db).updateAttempts txn.finish.apply

def decided (txn : Txn) (job : Job) (db : Db) : Db :=
  (txn.written db).updateJob (flushJob txn.job job)

end Txn

/-- Where a request or a tick is in its transaction. -/
inductive Point where
  | submit (submission : Submission)
  | owned (submission : Submission) (loaded : Job)
  | attemptFor (submission : Submission) (loaded job : Job)
  | startJob (txn : Txn)
  | finishAttempts (txn : Txn)
  | count (txn : Txn)
  | load (txn : Txn)
  | decide (txn : Txn) (decided : Job) (rows : Ledger)
  | settle (txn : Txn) (decided : Job) (rows : Ledger)
  | finalCommit (txn : Txn) (decided : Job) (rows : Ledger)
  | recordCommit (txn : Txn)
  | reapAttempts (reading : Reading) (now : Int)
  | markLapsed (reading : Reading) (now : Int) (numbers : List Nat)
  | reapLoad (reading : Reading) (now : Int) (numbers : List Nat)
  | sweep (sweep : Sweep)
  | locked (sweep : Sweep) (job : Job)
  | sweepJob (job moved : Job) (change : Change)
  | sweepAttempts (job moved : Job) (change : Change)
  | sweepCommit (job moved : Job) (change : Change)
  | unchanged
  | raised (error : Raised)
  | done

/-- The checks of `submit_result` on the loaded job, and the start of work. -/
def afterOwned (submission : Submission) (loaded : Job) (db : Db) : Point :=
  match db.record.providerAttempt submission.providerId with
  | none => .raised (.http 404 "Job not found.")
  | some _ =>
    if loaded.status.inFlight then
      if resultRefChecks submission.request then
        match startRunning loaded submission.reading.clock.started with
        | .error error => .raised error
        | .ok job => .attemptFor submission loaded job
      else .raised (.http 400
        "proof.output_sha256 must be the sha256 (64 hex chars) of result_ref.")
    else .raised (.http 409 "Job is not in flight.")

/-- The result goes to the attempt that is unfinished now, if there is one. -/
def afterAttemptFor (submission : Submission) (loaded job : Job) (db : Db) : Point :=
  match db.record.providerAttempt submission.providerId with
  | none => .startJob ⟨submission.reading, loaded, job, .nothing⟩
  | some attempt =>
    if submission.request.storable then
      .startJob ⟨submission.reading, loaded, job,
        .result attempt.attemptNumber submission.reading.clock
          submission.request (verify job submission.request).valid⟩
    else .raised .unstorable

def afterLoad (settings : Settings) (txn : Txn) (db : Db) : Point :=
  match conclude settings txn.reading txn.job
      (txn.reading.order.shuffle db.record.finishedAttempts) with
  | .error error => .raised error
  | .ok (decided, rows) => .decide txn decided rows

def lapsedRows (now : Int) (db : Db) : List Row :=
  if decide (1 < db.record.job.redundancy) && db.record.job.status.inFlight then
    (db.record.attempts.filter (attemptLapsed now)).map fun attempt =>
      .attempt attempt.attemptNumber
  else []

def Row.number? : Row → Option Nat
  | .job => none
  | .attempt number => some number

/-- The attempt reaper leaves a job alone that is terminal by now. -/
def afterReapLoad (reading : Reading) (now : Int) (numbers : List Nat) (db : Db) : Point :=
  let txn : Txn := ⟨reading, db.record.job, db.record.job, .lapsed numbers now⟩
  if db.record.job.status.isTerminal then .recordCommit txn else .count txn

def afterSweep (sweep : Sweep) (rows : List Row) (db : Db) : Point :=
  if !rows.isEmpty && sweep.applies db.record.job then
    .locked sweep db.record.job
  else .unchanged

def afterLocked (settings : Settings) (sweep : Sweep) (job : Job) (db : Db) : Point :=
  match sweep.plan settings job db.record with
  | .error error => .raised error
  | .ok (moved, change) => .sweepJob job moved change

def attemptLocks (numbers : List Nat) : List (Row × LockMode) :=
  numbers.map fun number => (.attempt number, .noKeyUpdate)

def stmt (settings : Settings) : Point → Stmt Db Row Point
  -- `submit_result`: the job, the attempt that shows ownership, and then
  -- `record_result` with the attempt that takes the result
  | .submit submission => .query fun db => .owned submission db.record.job
  | .owned submission loaded => .query (afterOwned submission loaded)
  | .attemptFor submission loaded job =>
    .query (afterAttemptFor submission loaded job)
  | .startJob txn =>
    if txn.dirty then
      .write [(.job, .noKeyUpdate)] (fun db => db.updateJob (flushJob txn.loaded txn.job))
        (.finishAttempts txn)
    else .query fun _ => .finishAttempts txn
  | .finishAttempts txn =>
    .write (attemptLocks txn.finish.numbers)
      (fun db => db.updateAttempts txn.finish.apply) (.count txn)
  -- `maybe_finalize` and `_finalize`
  | .count txn =>
    .query fun db =>
      if txn.job.redundancy ≤ db.record.finishedAttempts.length then
        .load txn
      else .recordCommit txn
  | .load txn => .query (afterLoad settings txn)
  | .decide txn decided rows =>
    .write [(.job, .noKeyUpdate)] (fun db => db.updateJob (flushJob txn.job decided))
      (.settle txn decided rows)
  | .settle txn decided rows =>
    .write [] (fun db => db.post rows) (.finalCommit txn decided rows)
  | .finalCommit _ _ _ => .commit .done
  | .recordCommit _ => .commit .done
  -- `reap_expired_attempts`
  | .reapAttempts reading now =>
    .lockSkip (lapsedRows now) .update fun rows _ =>
      .markLapsed reading now (rows.filterMap Row.number?)
  | .markLapsed reading now numbers =>
    if numbers.isEmpty then .query fun _ => .unchanged
    else .write (attemptLocks numbers)
      (fun db => db.updateAttempts (Finish.lapsed numbers now).apply)
      (.reapLoad reading now numbers)
  | .reapLoad reading now numbers =>
    .query (afterReapLoad reading now numbers)
  -- `reap_expired_leases`, `drain_unreachable_providers` and
  -- `assign_providers`
  | .sweep sweep =>
    .lockSkip (fun db => if sweep.selects db.record.job then [.job] else [])
      .update (afterSweep sweep)
  | .locked sweep job => .query (afterLocked settings sweep job)
  | .sweepJob job moved change =>
    .write [(.job, .noKeyUpdate)] (fun db => db.updateJob (flushJob job moved))
      (.sweepAttempts job moved change)
  | .sweepAttempts job moved change =>
    .write change.locks (fun db => db.updateAttempts change.apply) (.sweepCommit job moved change)
  | .sweepCommit _ _ _ => .commit .done
  | .unchanged => .rollback .done
  | .raised _ => .rollback .done
  | .done => .halt

/-- A request or a reaper pass whose transaction is rolled back is given
up; a retry is a request of its own. -/
def program (settings : Settings) : Program Db Row Point where
  stmt := stmt settings
  onAbort := fun _ => .done

namespace Point

def flushed : Point → Db → Db
  | .finishAttempts txn => txn.started
  | .count txn => txn.written
  | .load txn => txn.written
  | .decide txn _ _ => txn.written
  | .settle txn job _ => txn.decided job
  | .finalCommit txn job rows => fun db => (txn.decided job db).post rows
  | .recordCommit txn => txn.written
  | .reapLoad _ now numbers => fun db =>
    db.updateAttempts (Finish.lapsed numbers now).apply
  | .sweepAttempts job moved _ => fun db => db.updateJob (flushJob job moved)
  | .sweepCommit job moved change => fun db =>
    (db.updateJob (flushJob job moved)).updateAttempts change.apply
  | _ => id

def holdsJob : Point → Bool
  | .finishAttempts txn => txn.dirty
  | .count txn => txn.dirty
  | .load txn => txn.dirty
  | .decide txn _ _ => txn.dirty
  | .settle _ _ _ => true
  | .finalCommit _ _ _ => true
  | .recordCommit txn => txn.dirty
  | .locked _ _ => true
  | .sweepJob _ _ _ => true
  | .sweepAttempts _ _ _ => true
  | .sweepCommit _ _ _ => true
  | _ => false

def copy? : Point → Option Job
  | .owned _ loaded => some loaded
  | .attemptFor _ _ job => some job
  | .startJob txn => some txn.job
  | .finishAttempts txn => some txn.job
  | .count txn => some txn.job
  | .load txn => some txn.job
  | .decide txn _ _ => some txn.job
  | .settle txn _ _ => some txn.job
  | .finalCommit txn _ _ => some txn.job
  | .recordCommit txn => some txn.job
  | .locked _ job => some job
  | _ => none

def finalizing : Point → Bool
  | .load _ => true
  | .decide _ _ _ => true
  | .settle _ _ _ => true
  | .finalCommit _ _ _ => true
  | _ => false

def finishes : Point → List Nat
  | .count txn => txn.finish.numbers
  | .load txn => txn.finish.numbers
  | .decide txn _ _ => txn.finish.numbers
  | .settle txn _ _ => txn.finish.numbers
  | .finalCommit txn _ _ => txn.finish.numbers
  | .recordCommit txn => txn.finish.numbers
  | .reapLoad _ _ numbers => numbers
  | _ => []

end Point

end Gridix.Finalisation
