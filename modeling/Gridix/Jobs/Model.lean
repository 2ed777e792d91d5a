import Gridix.Base.PyValue
import Gridix.Pricing

/-!
# Jobs, attempts and the state machine

A job is kept together with its attempts, which reference it by foreign key.
Every status change goes through `transition`, which refuses the moves that
the adjacency map does not list and stamps the lifecycle times.  Times are
microseconds.
-/

namespace Gridix

inductive JobKind where
  | standard
  | canary
  deriving DecidableEq, Repr

inductive JobStatus where
  | queued
  | assigned
  | running
  | completed
  | failed
  | timeout
  deriving DecidableEq, Repr

inductive AttemptOutcome where
  | assigned
  | running
  | completed
  | failed
  | timeout
  | reassigned
  deriving DecidableEq, Repr

abbrev Proof := List (String × Py.Value)

/-- The columns that are written when the job is created and never again. -/
structure JobTerms where
  id : Uuid
  developerId : Uuid
  kind : JobKind
  inputRef : Option String
  resourceSpec : ResourceSpec
  timeoutSeconds : Nat
  isHighValue : Bool
  redundancy : Nat
  expectedOutputHash : Option String
  escrowAmount : Option Int
  idempotencyKey : Option String
  redundancyPos : 1 ≤ redundancy
  escrowNonneg : ∀ amount ∈ escrowAmount, 0 ≤ amount

/-- A row of `jobs`: its terms and what the scheduler writes. -/
structure Job extends JobTerms where
  status : JobStatus
  resultRef : Option String
  proof : Option Proof
  assignedProviderId : Option Uuid
  attemptCount : Nat
  leaseExpiresAt : Option Int
  costFinal : Option Int
  queuedAt : Option Int
  assignedAt : Option Int
  startedAt : Option Int
  finishedAt : Option Int

structure JobAttempt where
  providerId : Uuid
  attemptNumber : Nat
  outcome : AttemptOutcome
  leaseExpiresAt : Option Int
  resultRef : Option String
  proof : Option Proof
  startedAt : Option Int
  finishedAt : Option Int

structure JobRecord where
  job : Job
  attempts : List JobAttempt

def JobAttempt.finished (attempt : JobAttempt) : Bool := attempt.finishedAt.isSome

def JobRecord.finishedAttempts (record : JobRecord) : List JobAttempt :=
  record.attempts.filter JobAttempt.finished

/-- The exceptions that roll a session back. -/
inductive Raised where
  | illegalTransition (current target : JobStatus)
  | unhashableOutput
  | noWinner
  | unstorable
  | ledger (error : LedgerError)
  | http (status : Nat) (detail : String)
  deriving DecidableEq, Repr

/-- A status that is never left. -/
def JobStatus.isTerminal : JobStatus → Bool
  | .completed => true
  | .failed => true
  | .timeout => true
  | _ => false

/-- A provider holds the job. -/
def JobStatus.inFlight : JobStatus → Bool
  | .assigned => true
  | .running => true
  | _ => false

def canTransition : JobStatus → JobStatus → Bool
  | .queued, .assigned => true
  | .assigned, .running => true
  | .assigned, .queued => true
  | .assigned, .failed => true
  | .assigned, .timeout => true
  | .running, .completed => true
  | .running, .failed => true
  | .running, .timeout => true
  | .running, .queued => true
  | _, _ => false

def Job.stamp (job : Job) (target : JobStatus) (now : Int) : Job :=
  match target with
  | .queued =>
    { job with status := target, queuedAt := some now,
               assignedProviderId := none, leaseExpiresAt := none }
  | .assigned => { job with status := target, assignedAt := some now }
  | .running => { job with status := target, startedAt := some now }
  | _ =>
    { job with status := target, finishedAt := some now,
               leaseExpiresAt := none }

def transition (job : Job) (target : JobStatus) (now : Int) : Except Raised Job :=
  if canTransition job.status target then .ok (job.stamp target now)
  else .error (.illegalTransition job.status target)

theorem transition_ok {job moved : Job} {target : JobStatus} {now : Int}
    (ok : transition job target now = .ok moved) :
    canTransition job.status target = true ∧ moved = job.stamp target now := by
  unfold transition at ok
  split_ifs at ok with legal
  cases ok
  exact ⟨legal, rfl⟩

section

variable (job : Job) (target : JobStatus) (now : Int)

@[simp] theorem stamp_status : (job.stamp target now).status = target := by
  cases target <;> rfl

@[simp] theorem stamp_terms : (job.stamp target now).toJobTerms = job.toJobTerms := by
  cases target <;> rfl

@[simp] theorem stamp_attemptCount : (job.stamp target now).attemptCount = job.attemptCount := by
  cases target <;> rfl

end

theorem inFlight_iff {status : JobStatus} :
    status.inFlight = true ↔ status = .assigned ∨ status = .running := by
  cases status <;> decide

theorem inFlight_open {status : JobStatus}
    (inFlight : status.inFlight = true) : status.isTerminal = false := by
  rcases inFlight_iff.mp inFlight with rfl | rfl <;> rfl

end Gridix
