import Gridix.Accounts.Conservation
import Gridix.Base.Binary64

/-!
# The billing summary

The summary of a developer adds up the rows of the developer's jobs.  What jobs
and their data consumed is in it, what inference charged is not, since those
rows carry no job.  Each sum is turned into a double, and the doubles are added.
-/

namespace Gridix.Accounts

open List

open Watcher (mirrored watcherReason)

def usdc (amount : Int) : ℚ := amount / 10 ^ 8

/-- `float` of the decimal that the database has summed. -/
def float (amount : Int) : ℚ := Binary64.round (usdc amount)

/-- `provider_paid + protocol_fees + data_costs`. -/
def floatSpent (paid fees dataCosts : Int) : ℚ :=
  Binary64.add (Binary64.add (float paid) (float fees)) (float dataCosts)

section

variable (system : System) (developer : Uuid)

def devJobs : List Uuid := (system.records.filter fun record =>
    record.job.developerId == developer).map fun record => record.job.id

def jobGroups : Ledger := system.books.ledger.filter fun group =>
    match group.jobId with
    | none => false
    | some jobId => jobId ∈ devJobs system developer

def jobGroupsFor (reason : Reason) : Ledger :=
  (jobGroups system developer).filter fun group => group.reason = reason

def dataCosts : Int := (jobGroupsFor system developer .dataCost).sum .developer .debit none

end

section

variable {system : System} {developer : Uuid} {group : LedgerGroup} {settings : Settings}

def spent (jobs : List Uuid) (rows : Ledger) : Int :=
  let counted := rows.filter fun group =>
    match group.jobId with
    | none => false
    | some jobId => jobId ∈ jobs
  Ledger.sum (counted.filter fun group => group.reason = .settle) .provider .credit none +
    Ledger.sum (counted.filter fun group => group.reason = .settle) .protocol .credit none +
    Ledger.sum (counted.filter fun group => group.reason = .dataCost) .developer .debit none

end

variable {network : Watcher.Network}

/-- By how much the doubles exceed the amounts they report. -/
def excess (held paid fees dataCosts : Int) : ℚ :=
  float held - usdc held + (floatSpent paid fees dataCosts - usdc (paid + fees + dataCosts))

end Gridix.Accounts
