import Gridix.Base.Serial
import Gridix.Jobs.Results

/-!
# Disputes and their adjudication

A slash holds stake in the `disputed` account and opens a dispute.  The
provider may contest it, and a ruling burns the held amount or returns it.
-/

namespace Py

mutual

def Value.equals : Value → Value → Bool
  | .list items, .list others => equalItems items others
  | .dict entries, .dict others =>
    entries.length == others.length && equalEntries entries others
  | left, right =>
    match left.key, right.key with
    | some key, some other => key == other && key != .nan
    | _, _ => false

def equalItems : List Value → List Value → Bool
  | [], [] => true
  | item :: rest, other :: others =>
    item.equals other && equalItems rest others
  | _, _ => false

def equalEntries : List (String × Value) → List (String × Value) → Bool
  | [], _ => true
  | (key, item) :: rest, others =>
    (match others.lookup key with
      | some other => item.equals other
      | none => false) && equalEntries rest others

end

end Py

namespace Gridix

def DisputeState.terminal : DisputeState → Bool
  | .upheld => true
  | .overturned => true
  | _ => false

namespace Disputes

structure Dispute where
  id : Uuid
  providerId : Uuid
  jobId : Option Uuid
  amount : Int
  state : DisputeState
  reason : String
  evidence : Option Proof
  rulingReason : Option String
  windowExpiresAt : Option Int
  resolvedAt : Option Int

structure Tables where
  ledger : Ledger
  disputes : List Dispute

inductive Failure where
  | ledger (error : LedgerError)
  | duplicateId
  | notFound
  | malformedVotes
  | unhashableVote
  | quorum (error : Raised)
  | unsliceableHash

def Tables.dispute? (tables : Tables) (id : Uuid) : Option Dispute :=
  tables.disputes.find? fun dispute => dispute.id == id

def Tables.update (tables : Tables) (id : Uuid) (change : Dispute → Dispute) : Tables :=
  { tables with
    disputes := KeyedRows.update Dispute.id id change tables.disputes }

def Tables.post (tables : Tables) (postings : List Posting)
    (reason : Reason) (jobId : Option Uuid) : Except Failure Tables :=
  match postTransaction postings reason jobId none with
  | .error error => .error (.ledger error)
  | .ok rows => .ok { tables with ledger := tables.ledger ++ rows }

def Tables.postPositive (tables : Tables) (amount : Int)
    (postings : List Posting) (reason : Reason) (jobId : Option Uuid) :
    Except Failure Tables :=
  if 0 < amount then tables.post postings reason jobId else .ok tables

theorem postPositive_transfer (tables : Tables) (source : LedgerAccount) (sourceRef : Option Uuid)
    (target : LedgerAccount) (targetRef : Option Uuid) (amount : Int) (reason : Reason)
    (jobId : Option Uuid) :
    tables.postPositive amount (transferPostings source sourceRef target targetRef amount) reason
        jobId =
      .ok { tables with ledger := tables.ledger ++
        if 0 < amount then
          [⟨transferPostings source sourceRef target targetRef amount, reason, jobId, none⟩]
        else [] } := by
  unfold Tables.postPositive
  split_ifs with pos
  · rw [Tables.post, postTransaction_transfer _ _ _ _ _ _ _ (Int.le_of_lt pos)]
  · rw [List.append_nil]

def providerStake (tables : Tables) (providerId : Uuid) : Int :=
  accountBalance tables.ledger .stake (some providerId)

def depositStake (providerId : Uuid) (amount : Int) (tables : Tables) : Except Failure Tables :=
  tables.post (transferPostings .protocol none .stake (some providerId) amount) .stakeDeposit none

def openDispute (settings : Settings) (id providerId : Uuid) (amount : Int)
    (reason : String) (jobId : Option Uuid) (evidence : Option Proof)
    (now : Int) (tables : Tables) : Except Failure Tables := do
  let held := min amount (providerStake tables providerId)
  let tables ← tables.postPositive held
    (transferPostings .stake (some providerId) .disputed (some providerId) held) .slashHold jobId
  if (tables.dispute? id).isSome then .error .duplicateId
  else
    .ok { tables with
      disputes := tables.disputes ++
        [{ id := id, providerId := providerId, jobId := jobId,
           amount := held, state := .opened, reason := reason,
           evidence := evidence, rulingReason := none,
           windowExpiresAt := some (now + settings.disputeWindowSeconds * 1000000),
           resolvedAt := none }] }

/-- The row describes a slash of the finalisation. -/
structure Dispute.Abstracts (dispute : Dispute) (slash : Gridix.Dispute) : Prop where
  providerId : dispute.providerId = slash.providerId
  jobId : dispute.jobId = some slash.jobId
  amount : dispute.amount = slash.amount
  state : dispute.state = slash.state
  windowExpiresAt : dispute.windowExpiresAt = some slash.windowExpiresAt

theorem openDispute_abstracts {settings : Settings} {books : Books} {id providerId jobId : Uuid}
    {amount now : Int} {reason : String} {evidence : Option Proof} {disputes : List Dispute}
    {moved : Tables} (slashReason : SlashReason)
    (ok : openDispute settings id providerId amount reason (some jobId)
      evidence now ⟨books.ledger, disputes⟩ = .ok moved) :
    ∃ dispute slash, dispute.Abstracts slash ∧ moved.disputes = disputes ++ [dispute] ∧
      Gridix.openDispute settings books providerId amount slashReason jobId now =
        .ok { books with
          ledger := moved.ledger
          disputes := books.disputes ++ [slash] } := by
  rw [openDispute, postPositive_transfer] at ok
  obtain ⟨_, posted, ok⟩ := Serial.bind_eq_ok.mp ok
  split_ifs at ok
  cases ok
  cases posted
  let held := min amount (accountBalance books.ledger .stake (some providerId))
  let slash : Gridix.Dispute := ⟨providerId, jobId, held, slashReason, .opened,
      now + settings.disputeWindowSeconds * 1000000⟩
  refine ⟨_, slash, ?_, rfl, ?_⟩
  · exact ⟨rfl, rfl, rfl, rfl, rfl⟩
  · change Gridix.openDispute settings books providerId amount slashReason
      jobId now = .ok { books with
        ledger := books.ledger ++ if 0 < held then
          [⟨transferPostings .stake (some providerId) .disputed
            (some providerId) held, .slashHold, some jobId, none⟩] else []
        disputes := books.disputes ++ [slash] }
    by_cases pos : 0 < held
    · rw [if_pos pos]
      refine (if_pos pos).trans ?_
      rw [postTransaction_transfer _ _ _ _ _ _ _ (Int.le_of_lt pos)]
    · rw [if_neg pos, List.append_nil]
      exact if_neg pos

/-- A dispute without a window is treated as closed. -/
def windowOpen (dispute : Dispute) (now : Int) : Bool :=
  match dispute.windowExpiresAt with
  | none => false
  | some expires => now < expires

def Dispute.escalated (dispute : Dispute) : Dispute := { dispute with state := .underReview }

def contestDispute (dispute : Dispute) (now : Int) (tables : Tables) : Bool × Tables :=
  if dispute.state ≠ .opened ∨ windowOpen dispute now = false then
    (false, tables)
  else (true, tables.update dispute.id Dispute.escalated)

def ruling (upheld : Bool) : DisputeState :=
  if upheld then .upheld else .overturned

def Dispute.ruled (upheld : Bool) (rulingReason : String) (now : Int)
    (dispute : Dispute) : Dispute :=
  { dispute with
    state := ruling upheld
    rulingReason :=
      if rulingReason = "" then dispute.rulingReason else some rulingReason
    resolvedAt := some now }

def releasePostings (providerId : Uuid) (amount : Int) (upheld : Bool) : List Posting :=
  transferPostings .disputed (some providerId) (if upheld then .protocol else .stake)
    (if upheld then none else some providerId) amount

def resolveDispute (dispute : Dispute) (upheld : Bool)
    (rulingReason : String) (now : Int) (tables : Tables) :
    Except Failure Tables :=
  if dispute.state.terminal then .ok tables
  else do
    let tables ← tables.postPositive dispute.amount
      (releasePostings dispute.providerId dispute.amount upheld)
      (if upheld then .slashConfirmed else .slashReversed) dispute.jobId
    .ok (tables.update dispute.id (.ruled upheld rulingReason now))

def votedHash (vote : Py.Value) : Except Failure (Option Py.Value) :=
  match vote with
  | .dict entries =>
    let hash := Proof.get entries "output_hash"
    .ok (if (Proof.get entries "succeeded").truthy && hash.truthy then
      some hash else none)
  | _ => .error .malformedVotes

def majorityHash (votes : List Py.Value) : Except Failure (Option Py.Value) := do
  let hashes := (← votes.mapM votedHash).filterMap id
  match hashes.mapM Py.Value.key with
  | none => .error .unhashableVote
  | some keys =>
    match mostCommon keys with
    | none => .ok none
    | some winner =>
      if votes.length / 2 + 1 ≤ keys.count winner then
        .ok (hashes.find? fun hash => hash.key == some winner)
      else .ok none

def knownGood (evidence : Proof) : Except Failure (Option Py.Value) :=
  let expected := evidence.get "expected_output_hash"
  if expected.truthy then .ok (some expected)
  else
    let votes := evidence.get "quorum_votes"
    if votes.truthy then
      match votes with
      | .list votes => majorityHash votes
      | _ => .error .malformedVotes
    else .ok none

/-- The terminal state, or `none` when the dispute is left to a human. -/
def autoAdjudicate (dispute : Dispute) (now : Int) (tables : Tables) :
    Except Failure (Option DisputeState × Tables) := do
  let evidence := dispute.evidence.getD []
  let submitted := evidence.get "submitted_output_hash"
  match ← knownGood evidence with
  | none => .ok (none, tables.update dispute.id Dispute.escalated)
  | some expected =>
    if submitted.isNone then
      .ok (none, tables.update dispute.id Dispute.escalated)
    else if submitted.equals expected then
      let tables ← resolveDispute dispute false "auto: matches known-good output" now tables
      .ok (some .overturned, tables)
    else
      let tables ← resolveDispute dispute true "auto: differs from known-good output" now tables
      .ok (some .upheld, tables)

/-- What a revote reads of the job of a dispute: its redundancy, if the job
is still there, and its attempts. -/
structure Revote where
  redundancy : Option Nat
  attempts : List JobAttempt

/-- The second vote, over the attempts as they are now. -/
def quorumRevote (dispute : Dispute) (revote : Revote) (now : Int)
    (tables : Tables) : Except Failure (Option DisputeState × Tables) :=
  let escalate := tables.update dispute.id Dispute.escalated
  if dispute.jobId.isNone then .ok (none, escalate)
  else
    let results := revote.attempts.map attemptResult
    match evaluateQuorum results (revote.redundancy.getD results.length) with
    | .error error => .error (.quorum error)
    | .ok outcome =>
      match outcome.winningHash with
      | none => .ok (none, escalate)
      | some (.str winning) => do
          let submitted := ((revote.attempts.find? fun attempt =>
            attempt.providerId == dispute.providerId).map JobAttempt.outputHash).getD .none
          let upheld := !matchesHash submitted (some winning)
          let tables ← resolveDispute dispute upheld ("revote: majority=" ++
              String.ofList (winning.toList.take 12)) now tables
          .ok (some (ruling upheld), tables)
      | some _ => .error .unsliceableHash

/-- The routes that move a disputed stake. -/
inductive Call where
  | depositStake (providerId : Uuid) (amount : Int)
  | openDispute (id providerId : Uuid) (amount : Int) (reason : String)
      (jobId : Option Uuid) (evidence : Option Proof)
  | contestDispute (id : Uuid)
  | resolveDispute (id : Uuid) (upheld : Bool) (rulingReason : String)
  | autoAdjudicate (id : Uuid)
  | quorumRevote (id : Uuid) (revote : Revote)

def Tables.load (tables : Tables) (id : Uuid) : Except Failure Dispute :=
  match tables.dispute? id with
  | none => .error .notFound
  | some dispute => .ok dispute

def perform (settings : Settings) (now : Int) (call : Call)
    (tables : Tables) : Except Failure Tables :=
  match call with
  | .depositStake providerId amount => depositStake providerId amount tables
  | .openDispute id providerId amount reason jobId evidence =>
    openDispute settings id providerId amount reason jobId evidence now tables
  | .contestDispute id => do
      let dispute ← tables.load id
      .ok (contestDispute dispute now tables).2
  | .resolveDispute id upheld rulingReason => do
      let dispute ← tables.load id
      resolveDispute dispute upheld rulingReason now tables
  | .autoAdjudicate id => do
      let dispute ← tables.load id
      let (_, tables) ← autoAdjudicate dispute now tables
      .ok tables
  | .quorumRevote id revote => do
      let dispute ← tables.load id
      let (_, tables) ← quorumRevote dispute revote now tables
      .ok tables

end Disputes

end Gridix
