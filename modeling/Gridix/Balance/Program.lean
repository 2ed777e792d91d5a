import Gridix.Base.ReadCommitted
import Gridix.UsageBilling

/-!
# The transactions that move one developer's balance

The control points of `reserve_balance`, `settle_reservation`,
`release_reservation`, `credit_deposit` and `submit_job`, one for each
statement that reaches the database.
-/

namespace Gridix.Balance

open ReadCommitted

inductive Resolution where
  | settle (providerId : Uuid) (actual : ℚ)
  | release
  deriving DecidableEq

/-- The bill never exceeds the raw amount that was reserved. -/
def Resolution.Within (raw : ℚ) : Resolution → Prop
  | .settle _ actual => actual ≤ raw
  | .release => True

structure Request where
  raw : ℚ
  later : Resolution
  within : later.Within raw

def Request.amount (request : Request) : Int := quantizeUsdc request.raw

def Request.held (request : Request) : Int := heldAmount request.raw

/-- A job submission that reaches the gate.  `onchain` is the escrow balance
read from the chain, for a developer with a linked wallet. -/
structure Submission (settings : Settings) where
  jobId : Uuid
  spec : ResourceSpec
  timeoutSeconds : Nat
  onchain : Option Int
  escrow : Int
  priced : escrow = escrowEstimate spec timeoutSeconds settings

inductive Pass where
  | decide
  | report
  deriving DecidableEq

/-- Where a request is between its hold and its settlement. -/
inductive Point (settings : Settings) where
  | reserve (request : Request)
  | reserveCredits (request : Request)
  | reserveDebits (request : Request) (credits : Int)
  | reservePost (request : Request)
  | reserveCommit (request : Request)
  | reserveRaised (balance required : Int)
  | holding (request : Request)
  | charge (request : Request) (providerId : Uuid) (actual : ℚ)
  | chargeCredits (request : Request) (providerId : Uuid) (actual : ℚ)
  | chargeDebits (request : Request) (providerId : Uuid) (actual : ℚ) (credits : Int)
  | chargePost (request : Request) (providerId : Uuid) (actual : ℚ)
  | settleCommit (request : Request) (providerId : Uuid) (actual : ℚ)
  | settleRaised (request : Request) (balance required : Int)
  | releaseCommit (request : Request)
  | deposit (amount : ℚ)
  | depositCommit (amount : ℚ)
  | gateCredits (pass : Pass) (submission : Submission settings)
  | gateDebits (pass : Pass) (submission : Submission settings) (credits : Int)
  | gateHeldCredits (pass : Pass) (submission : Submission settings) (free : Int)
  | gateHeldDebits (pass : Pass) (submission : Submission settings) (free heldCredits : Int)
  | insertJob (submission : Submission settings)
  | submitHold (submission : Submission settings)
  | submitCommit (submission : Submission settings)
  | submitRefused (available : Int)
  | submitted (submission : Submission settings)
  | raised (error : LedgerError)
  | done

variable {settings : Settings}

def gateNext (pass : Pass) (submission : Submission settings) (available : Int) : Point settings :=
  match pass with
  | .decide =>
    if submission.escrow ≤ available then .insertJob submission
    else .gateCredits .report submission
  | .report => .submitRefused available

def flush (posting : Except LedgerError Ledger) (next : Point settings) :
    Stmt Ledger Uuid (Point settings) :=
  match posting with
  | .ok rows => .write [] (fun ledger => ledger ++ rows) next
  | .error error => .rollback (.raised error)

def stmt (settings : Settings) (developerId : Uuid) :
    Point settings → Stmt Ledger Uuid (Point settings)
  -- `reserve_balance`: a worst case that rounds to nothing is not held
  | .reserve request =>
    if request.amount ≤ 0 then .query fun _ => .holding request
    else .lock developerId .update fun _ => .reserveCredits request
  | .reserveCredits request =>
    .query fun ledger => .reserveDebits request (ledger.sum .developer .credit (some developerId))
  | .reserveDebits request credits =>
    .query fun ledger =>
      let balance := credits - ledger.sum .developer .debit (some developerId)
      if balance < request.amount then
        .reserveRaised balance request.amount
      else .reservePost request
  | .reservePost request =>
    flush (postHold developerId request.amount) (.reserveCommit request)
  | .reserveCommit request => .commit (.holding request)
  | .reserveRaised _ _ => .rollback .done
  -- `settle_reservation` returns the hold and then charges, and
  -- `release_reservation` only returns it
  | .holding request =>
    match request.later with
    | .settle providerId actual =>
      flush (returnHold developerId request.held) (.charge request providerId actual)
    | .release =>
      flush (returnHold developerId request.held) (.releaseCommit request)
  | .charge request providerId actual =>
    if quantizeUsdc actual ≤ 0 then
      .query fun _ => .settleCommit request providerId actual
    else .lock developerId .update fun _ =>
      .chargeCredits request providerId actual
  | .chargeCredits request providerId actual =>
    .query fun ledger => .chargeDebits request providerId actual
      (ledger.sum .developer .credit (some developerId))
  | .chargeDebits request providerId actual credits =>
    .query fun ledger =>
      let balance := credits - ledger.sum .developer .debit (some developerId)
      if balance < quantizeUsdc actual then
        .settleRaised request balance (quantizeUsdc actual)
      else .chargePost request providerId actual
  | .chargePost request providerId actual =>
    flush (postCharge settings developerId providerId (quantizeUsdc actual))
      (.settleCommit request providerId actual)
  | .settleCommit _ _ _ => .commit .done
  | .settleRaised request _ _ => .rollback (.holding request)
  | .releaseCommit _ => .commit .done
  | .deposit amount =>
    flush (creditDeposit developerId amount) (.depositCommit amount)
  | .depositCommit _ => .commit .done
  -- `submit_job`: the gate's two or four sums, the job row, the hold
  | .gateCredits pass submission =>
    .query fun ledger => .gateDebits pass submission
      (ledger.sum .developer .credit (some developerId))
  | .gateDebits pass submission credits =>
    .query fun ledger =>
      let free := credits - ledger.sum .developer .debit (some developerId)
      match submission.onchain with
      | none => gateNext pass submission free
      | some _ => .gateHeldCredits pass submission free
  | .gateHeldCredits pass submission free =>
    .query fun ledger => .gateHeldDebits pass submission free
      (ledger.sum .escrow .credit (some developerId))
  | .gateHeldDebits pass submission free heldCredits =>
    .query fun ledger =>
      let held := heldCredits - ledger.sum .escrow .debit (some developerId)
      gateNext pass submission (min free (submission.onchain.getD 0 - held))
  | .insertJob submission =>
    .write [(developerId, .keyShare)] id (.submitHold submission)
  | .submitHold submission =>
    flush (holdEscrow submission.jobId developerId submission.escrow) (.submitCommit submission)
  | .submitCommit submission => .commit (.submitted submission)
  | .submitRefused _ => .rollback .done
  | .submitted _ => .halt
  | .raised _ => .halt
  | .done => .halt

/-- A resolution that is rolled back leaves its hold to be resolved later;
every other request is given up. -/
def onAbort : Point settings → Point settings
  | .holding request => .holding request
  | .charge request _ _ => .holding request
  | .chargeCredits request _ _ => .holding request
  | .chargeDebits request _ _ _ => .holding request
  | .chargePost request _ _ => .holding request
  | .settleCommit request _ _ => .holding request
  | .settleRaised request _ _ => .holding request
  | .releaseCommit request => .holding request
  | .submitted submission => .submitted submission
  | _ => .done

def program (settings : Settings) (developerId : Uuid) : Program Ledger Uuid (Point settings) where
  stmt := stmt settings developerId
  onAbort := onAbort

def Point.flushed (developerId : Uuid) : Point settings → Ledger
  | .reserveCommit request => holdRows developerId request.amount
  | .charge request _ _ => returnRows developerId request.held
  | .chargeCredits request _ _ => returnRows developerId request.held
  | .chargeDebits request _ _ _ => returnRows developerId request.held
  | .chargePost request _ _ => returnRows developerId request.held
  | .settleCommit request providerId actual =>
    returnRows developerId request.held ++
      if quantizeUsdc actual ≤ 0 then []
      else chargeRows settings developerId providerId (quantizeUsdc actual)
  | .settleRaised request _ _ => returnRows developerId request.held
  | .releaseCommit request => returnRows developerId request.held
  | .depositCommit amount => depositRows developerId (quantizeUsdc amount)
  | .submitCommit submission =>
    if submission.escrow ≤ 0 then [] else
      [⟨transferPostings .developer (some developerId) .escrow
        (some developerId) submission.escrow, .escrowHold,
        some submission.jobId, none⟩]
  | _ => []

def Point.lockMode : Point settings → Option LockMode
  | .reserveCredits _ => some .update
  | .reserveDebits _ _ => some .update
  | .reservePost _ => some .update
  | .reserveCommit _ => some .update
  | .chargeCredits _ _ _ => some .update
  | .chargeDebits _ _ _ _ => some .update
  | .chargePost _ _ _ => some .update
  | .settleCommit _ _ actual =>
    if quantizeUsdc actual ≤ 0 then none else some .update
  | .submitHold _ => some .keyShare
  | .submitCommit _ => some .keyShare
  | _ => none

/-- The hold that is still to be resolved. -/
def Point.outstanding : Point settings → Int
  | .holding request => request.held
  | .charge request _ _ => request.held
  | .chargeCredits request _ _ => request.held
  | .chargeDebits request _ _ _ => request.held
  | .chargePost request _ _ => request.held
  | .settleCommit request _ _ => request.held
  | .settleRaised request _ _ => request.held
  | .releaseCommit request => request.held
  | .submitted submission => max 0 submission.escrow
  | _ => 0

def Point.commitsHold : Point settings → Bool
  | .reserveCommit _ => true
  | .submitCommit _ => true
  | _ => false

/-- A submission that has read its debits for the gate and has not committed
its own hold yet. -/
def Point.gated : Point settings → Bool
  | .gateHeldCredits .decide _ _ => true
  | .gateHeldDebits .decide _ _ _ => true
  | .insertJob _ => true
  | .submitHold _ => true
  | .submitCommit _ => true
  | _ => false

end Gridix.Balance
