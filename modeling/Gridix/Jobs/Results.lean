import Gridix.Jobs.Quorum

/-!
# Result intake and finalisation

A provider's result is verified and recorded on its attempt.  Once as many
attempts are finished as the job demands votes, a quorum is taken over them,
the job becomes terminal, escrow is settled or refunded, and reputation and
stake move.
-/

namespace Gridix

structure AgentResultRequest where
  resultRef : Option String
  exitCode : Int
  proof : Proof
  timedOut : Bool

def Proof.get (proof : Proof) (key : String) : Py.Value := (proof.lookup key).getD .none

def isLowerHex (char : Char) : Bool := ('0' ≤ char && char ≤ '9') || ('a' ≤ char && char ≤ 'f')

/-- A string of exactly 64 lowercase hex characters. -/
def isSha256Hex : Py.Value → Bool
  | .str value => value.toList.length == 64 && value.toList.all isLowerHex
  | _ => false

def proofWellFormed (request : AgentResultRequest) : Bool :=
  match request.proof.get "exit_code" with
  | .int _ =>
    request.resultRef.isNone || isSha256Hex (request.proof.get "output_sha256")
  | _ => false

inductive VerdictReason where
  | malformedProof
  | timeout
  | nonzeroExit
  | canaryPass
  | canaryFail
  | ok
  deriving DecidableEq, Repr

structure Verdict where
  valid : Bool
  reason : VerdictReason
  isCanary : Bool
  canaryPassed : Option Bool
  deriving DecidableEq, Repr

/-- `claimed == expected` for a known answer. -/
def matchesHash (claimed : Py.Value) (expected : Option String) : Bool :=
  match claimed, expected with
  | .str claimed, some expected => claimed == expected
  | _, _ => false

def verify (job : Job) (request : AgentResultRequest) : Verdict :=
  let isCanary := job.kind == .canary
  let rejected (reason : VerdictReason) : Verdict :=
    { valid := false, reason := reason, isCanary := isCanary,
      canaryPassed := if isCanary then some false else none }
  if !proofWellFormed request then rejected .malformedProof
  else if request.timedOut then rejected .timeout
  else if request.exitCode ≠ 0 then rejected .nonzeroExit
  else if isCanary then
    let passed := matchesHash (request.proof.get "output_sha256") job.expectedOutputHash
    { valid := passed,
      reason := if passed then .canaryPass else .canaryFail,
      isCanary := true, canaryPassed := some passed }
  else { valid := true, reason := .ok, isCanary := false,
         canaryPassed := none }

def attemptOutcome (request : AgentResultRequest) (valid : Bool) : AttemptOutcome :=
  if request.timedOut then .timeout
  else if valid then .completed
  else .failed

inductive ReputationKind where
  | jobSuccess
  | jobFailure
  | timeout
  | canaryPass
  | canaryFail
  | quorumAgree
  | quorumDisagree
  deriving DecidableEq, Repr

def ReputationKind.delta : ReputationKind → ℚ
  | .jobSuccess => 1
  | .jobFailure => -1
  | .timeout => -2
  | .canaryPass => 2
  | .canaryFail => -25
  | .quorumAgree => 3 / 2
  | .quorumDisagree => -15

structure Provider where
  id : Uuid
  reputation : ℚ
  lastSeen : Option Int

structure ReputationEvent where
  providerId : Uuid
  jobId : Uuid
  kind : ReputationKind
  delta : ℚ
  scoreAfter : ℚ

inductive DisputeState where
  | opened
  | underReview
  | upheld
  | overturned
  deriving DecidableEq, Repr

inductive SlashReason where
  | canaryFail
  | quorumDisagree
  deriving DecidableEq, Repr

/-- A slash waiting for its window to end. -/
structure Dispute where
  providerId : Uuid
  jobId : Uuid
  amount : Int
  reason : SlashReason
  state : DisputeState
  windowExpiresAt : Int

structure BandwidthEvent where
  providerId : Uuid
  jobId : Option Uuid
  numBytes : Int

/-- What finalisation writes besides the job. -/
structure Books where
  ledger : Ledger
  providers : List Provider
  events : List ReputationEvent
  disputes : List Dispute
  bandwidth : List BandwidthEvent

def clampReputation (score : ℚ) : ℚ := max 0 (min 100 score)

def Books.provider? (books : Books) (providerId : Uuid) : Option Provider :=
  books.providers.find? fun provider => provider.id == providerId

def Books.setProvider (books : Books) (provider : Provider) : Books :=
  { books with
    providers := books.providers.map fun other =>
      if other.id = provider.id then provider else other }

def recordReputation (books : Books) (providerId : Uuid)
    (kind : ReputationKind) (jobId : Uuid) : Books :=
  match books.provider? providerId with
  | none => books
  | some provider =>
    let score := clampReputation (provider.reputation + kind.delta)
    let moved := books.setProvider { provider with reputation := score }
    { moved with
      events := moved.events ++
        [{ providerId := providerId, jobId := jobId, kind := kind,
           delta := kind.delta, scoreAfter := score }] }

def countPriorOffenses (books : Books) (providerId : Uuid) : Nat :=
  books.disputes.countP fun dispute =>
    dispute.providerId == providerId && dispute.state == .upheld

/-- The base for a first offence, doubled per upheld one, eightfold at most. -/
def graduatedSlash (base : Int) (priorUpheld : Nat) : Int := base * (min (2 ^ priorUpheld) 8 : Nat)

/-- Hold up to `amount` of stake and open a dispute about it. -/
def openDispute (settings : Settings) (books : Books) (providerId : Uuid)
    (amount : Int) (reason : SlashReason) (jobId : Uuid) (now : Int) :
    Except Raised Books :=
  let held := min amount (accountBalance books.ledger .stake (some providerId))
  let dispute : Dispute :=
    { providerId := providerId, jobId := jobId, amount := held,
      reason := reason, state := .opened,
      windowExpiresAt := now + settings.disputeWindowSeconds * 1000000 }
  if 0 < held then
    match postTransaction (transferPostings .stake (some providerId) .disputed
          (some providerId) held) .slashHold (some jobId) none with
    | .error error => .error (.ledger error)
    | .ok rows =>
      .ok { books with
        ledger := books.ledger ++ rows
        disputes := books.disputes ++ [dispute] }
  else .ok { books with disputes := books.disputes ++ [dispute] }

def honestReputation : AttemptOutcome → ReputationKind
  | .completed => .jobSuccess
  | .failed => .jobFailure
  | .timeout => .timeout
  | _ => .jobFailure

/-- Move reputation, and stake when cheating, for one provider's attempt. -/
def applyOutcome (settings : Settings) (job : Job) (attempt : JobAttempt)
    (won : Bool) (now : Int) (books : Books) : Except Raised Books :=
  match books.provider? attempt.providerId with
  | none => .ok books
  | some provider =>
    let isCanary := job.kind == .canary
    if won then
      let kind := if isCanary then ReputationKind.canaryPass
        else .jobSuccess
      let books := recordReputation books provider.id kind job.id
      .ok (if 1 < job.redundancy then
        recordReputation books provider.id .quorumAgree job.id else books)
    else if isCanary || (decide (1 < job.redundancy) && attempt.outcome == .completed) then
      let reason := if isCanary then SlashReason.canaryFail
        else .quorumDisagree
      let kind := if isCanary then ReputationKind.canaryFail
        else .quorumDisagree
      let books := recordReputation books provider.id kind job.id
      let prior := countPriorOffenses books provider.id
      openDispute settings books provider.id
        (graduatedSlash (settings.slashAmount * 10 ^ 8) prior) reason
        job.id now
    else
      .ok (recordReputation books provider.id (honestReputation attempt.outcome) job.id)

def jobBytes (books : Books) (jobId : Uuid) : Int :=
  ((books.bandwidth.filter fun event => event.jobId == some jobId).map BandwidthEvent.numBytes).sum

def durationSeconds (job : Job) : ℚ :=
  match job.startedAt, job.finishedAt with
  | some started, some finished => max 0 ((finished - started : Int) / 10 ^ 6)
  | _, _ => job.timeoutSeconds

/-- What the job costs its developer: never more than the escrow. -/
def settledCost (settings : Settings) (job : Job) (escrow : Int) : Int :=
  min (computeCost job.resourceSpec (durationSeconds job) settings) escrow

def postDataCost (job : Job) (cost : Int) : Except LedgerError Ledger :=
  if 0 < cost then
    postTransaction (transferPostings .developer (some job.developerId) .protocol none
        cost) .dataCost (some job.id) none
  else .ok []

def refundRemainder (job : Job) (remainder : Int) : Except LedgerError Ledger :=
  if 0 < remainder then refund job.id job.developerId remainder
  else .ok []

/-- Release or refund escrow: the rows posted and the final cost.  Canaries
are skipped. -/
def settleJob (settings : Settings) (job : Job) (winner : Option Uuid)
    (bytes : Int) : Except LedgerError (Ledger × Option Int) :=
  if job.kind = .canary then .ok ([], job.costFinal)
  else
    match job.escrowAmount with
    | none => .ok ([], job.costFinal)
    | some escrow =>
      match job.status, winner with
      | .completed, some providerId => do
          let cost := settledCost settings job escrow
          let fee := protocolFee cost settings
          let settled ← settle job.id job.developerId providerId cost fee
          let refunded ← refundRemainder job (escrow - cost)
          let dataCharge := dataCost bytes settings
          let charged ← postDataCost job dataCharge
          .ok (settled ++ refunded ++ charged, some (cost + dataCharge))
      | _, _ => do
          let refunded ← refund job.id job.developerId escrow
          .ok (refunded, some 0)

/-- The order in which the database returns the rows of an unordered query. -/
structure RowOrder where
  shuffle : List JobAttempt → List JobAttempt
  perm : ∀ rows, (shuffle rows).Perm rows

def RowOrder.stored : RowOrder := { shuffle := id, perm := fun _ => .refl _ }

structure Clock where
  started : Int
  attemptFinished : Int
  jobFinished : Int
  disputed : Int

def JobAttempt.outputHash (attempt : JobAttempt) : Py.Value :=
  (attempt.proof.getD []).get "output_sha256"

def attemptResult (attempt : JobAttempt) : AttemptResult :=
  { providerId := attempt.providerId
    outputHash := attempt.outputHash
    succeeded := attempt.outcome == .completed }

def decideJob (job : Job) (attempts : List JobAttempt) (outcome : QuorumOutcome) (now : Int) :
    Except Raised (Job × Option Uuid) :=
  if outcome.reached then
    match attempts.find? fun attempt =>
        outcome.agreers.contains attempt.providerId && attempt.outcome == .completed with
    | none => .error .noWinner
    | some winner => do
        let decided ← transition { job with resultRef := winner.resultRef, proof := winner.proof }
          .completed now
        .ok (decided, some winner.providerId)
  else do
    let allTimedOut := !attempts.isEmpty && attempts.all fun attempt => attempt.outcome == .timeout
    let decided ← transition job (if allTimedOut then .timeout else .failed) now
    .ok (decided, none)

/-- Take the quorum over the finished attempts, set the terminal state, and
move reputation, stake and escrow. -/
def finalize (settings : Settings) (order : RowOrder) (clock : Clock)
    (record : JobRecord) (books : Books) :
    Except Raised (JobRecord × Books) :=
  if record.job.status.isTerminal then .ok (record, books)
  else do
    let attempts := order.shuffle record.finishedAttempts
    let outcome ← evaluateQuorum (attempts.map attemptResult) record.job.redundancy
    let (job, winner) ← decideJob record.job attempts outcome clock.jobFinished
    let moved ← attempts.foldlM (fun books attempt =>
      applyOutcome settings job attempt
        (outcome.agreers.contains attempt.providerId && outcome.reached)
        clock.disputed books) books
    match settleJob settings job winner (jobBytes moved job.id) with
    | .error error => .error (.ledger error)
    | .ok (rows, costFinal) =>
      .ok ({ record with job := { job with costFinal := costFinal } },
           { moved with ledger := moved.ledger ++ rows })

/-- Finalises an open job once enough attempts are finished. -/
def maybeFinalize (settings : Settings) (order : RowOrder) (clock : Clock)
    (record : JobRecord) (books : Books) :
    Except Raised (JobRecord × Books) :=
  if record.job.status.isTerminal then .ok (record, books)
  else if record.job.redundancy ≤ record.finishedAttempts.length then
    finalize settings order clock record books
  else .ok (record, books)

end Gridix
