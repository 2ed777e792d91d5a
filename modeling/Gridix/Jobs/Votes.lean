import Gridix.Jobs.Progress

/-!
# The outcome of redundant execution

A job of redundancy `K > 1` that has been assigned to `K` distinct providers
stays open until its `K`-th attempt is finished, by a result or by a lapsed
lease.
-/

namespace Gridix

open List Serial

theorem eq_str_of_key {value : Py.Value} {hash : String}
    (key : value.key = some (.str hash)) : value = .str hash := by
  cases value with
  | str =>
    cases key
    rfl
  | float value => cases value <;> cases key
  | _ => cases key

theorem matchesHash_iff {value : Py.Value} {hash : String} :
    matchesHash value (some hash) = true ↔ value = .str hash := by
  cases value with
  | str => simp [matchesHash]
  | _ => simp [matchesHash]

def JobRecord.carriers (record : JobRecord) (hash : String) : List JobAttempt :=
  record.attempts.filter fun attempt =>
    attempt.outcome == .completed && matchesHash attempt.outputHash (some hash)

def JobRecord.Majority (record : JobRecord) (hash : String) : Prop :=
  record.job.redundancy < 2 * (record.carriers hash).length

theorem mem_carriers {record : JobRecord} {hash : String} {attempt : JobAttempt} :
    attempt ∈ record.carriers hash ↔ attempt ∈ record.attempts ∧ attempt.outcome = .completed ∧
        attempt.outputHash = .str hash := by
  simp [JobRecord.carriers, matchesHash_iff]

theorem votes_eq_carriers {record : JobRecord} {attempts : List JobAttempt}
    (perm : attempts.Perm record.attempts) (hash : String) :
    votes (attempts.map attemptResult) (.str hash) = (record.carriers hash).length := by
  rw [votes, countP_map, perm.countP_eq, JobRecord.carriers, ← countP_eq_length_filter]
  refine countP_congr fun attempt _ => ?_
  simp only [Function.comp_apply, AttemptResult.usable, attemptResult,
    Bool.and_eq_true, beq_iff_eq, matchesHash_iff]
  constructor
  · rintro ⟨⟨completed, _⟩, carries⟩
    exact ⟨completed, eq_str_of_key carries⟩
  · rintro ⟨completed, carries⟩
    rw [carries]
    exact ⟨⟨completed, rfl⟩, rfl⟩

/-- How such a job ends, with what is posted for it. -/
inductive Outcome (settings : Settings) (escrow : Int)
    (record : JobRecord) (posted : Ledger) : Prop where
  | completed (hash : String) (winner : JobAttempt) (status : record.job.status = .completed)
      (majority : record.Majority hash)
      (carries : winner ∈ record.carriers hash)
      (result : record.job.resultRef = winner.resultRef)
      (proof : record.job.proof = winner.proof)
      (credited : ∀ providerId, accountBalance posted .provider (some providerId) =
          if winner.providerId = providerId then
            settledCost settings record.job escrow -
              protocolFee (settledCost settings record.job escrow) settings
          else 0)
  | refunded (noMajority : ∀ hash, ¬ record.Majority hash) (status : record.job.status =
        if allTimedOut record.attempts then .timeout else .failed)
      (refund : accountBalance posted .developer (some record.job.developerId) = escrow)
      (uncredited : ∀ providerId, accountBalance posted .provider (some providerId) = 0)

structure Voting (record : JobRecord) : Prop where
  several : 1 < record.job.redundancy
  billed : record.job.kind ≠ .canary
  funded : record.job.escrowAmount.isSome = true
  inFlight : record.job.status.inFlight = true
  full : record.attempts.length = record.job.redundancy
  distinct : (record.attempts.map JobAttempt.providerId).Nodup
  ballots : ∀ attempt ∈ record.attempts, attempt.outcome = .completed →
    record.job.status = .running ∧ (attempt.outputHash = .none ∨
        ∃ hash, attempt.outputHash = .str hash)

section

variable {settings : Settings} {order : RowOrder}
  {record moved : JobRecord} {now bytes escrow : Int} {posted : Ledger} {attempts : List JobAttempt}

theorem Voting.allFinished (voting : Voting record)
    (enough : record.job.redundancy ≤ record.finishedAttempts.length) :
    record.finishedAttempts = record.attempts := by
  rw [← voting.full] at enough
  exact filter_sublist.eq_of_length_le enough

theorem Voting.finished_le (voting : Voting record) :
    record.finishedAttempts.length ≤ record.job.redundancy := by
  rw [← voting.full]
  exact length_filter_le _ _

theorem allTimedOut_perm {others : List JobAttempt} (perm : attempts.Perm others) :
    allTimedOut attempts = allTimedOut others := by
  unfold allTimedOut
  rw [perm.all_eq, perm.isEmpty_eq]

theorem developer_refundRows (jobId developerId : Uuid) {amount : Int} (nonneg : 0 ≤ amount) :
    accountBalance (refundRows jobId developerId amount) .developer
      (some developerId) = amount := by
  unfold refundRows accountBalance
  split_ifs
  · simp
    omega
  · simp

theorem accountBalance_held_append {jobId : Uuid} {held rows : Ledger}
    (holds : ∀ group ∈ held, IsStakeHold jobId group) {account : LedgerAccount}
    (notStake : account ≠ .stake) (notDisputed : account ≠ .disputed) (ref : Option Uuid) :
    accountBalance (held ++ rows) account ref = accountBalance rows account ref := by
  rw [accountBalance_append, accountBalance_stakeHolds holds notStake notDisputed, Int.zero_add]

theorem Voting.eq_of_providerId (voting : Voting record) {left right : JobAttempt}
    (leftMember : left ∈ record.attempts) (rightMember : right ∈ record.attempts)
    (same : left.providerId = right.providerId) : left = right :=
  inj_on_of_nodup_map voting.distinct leftMember rightMember same

theorem Voting.winning_hash (voting : Voting record)
    (perm : attempts.Perm record.attempts) {winning : Py.Key} (notNone : winning ≠ .none)
    (supported : 0 < votes (attempts.map attemptResult) winning) :
    ∃ hash, winning = .str hash := by
  rw [votes, countP_pos_iff] at supported
  obtain ⟨_, mem, carries⟩ := supported
  obtain ⟨attempt, here, rfl⟩ := mem_map.mp mem
  simp only [AttemptResult.usable, attemptResult, Bool.and_eq_true, beq_iff_eq] at carries
  obtain ⟨⟨completed, _⟩, key⟩ := carries
  rcases (voting.ballots attempt (perm.mem_iff.mp here) completed).2 with none | ⟨hash, carried⟩
  · rw [none] at key
    exact absurd (Option.some.inj key).symm notNone
  · rw [carried] at key
    exact ⟨hash, (Option.some.inj key).symm⟩

theorem Voting.agreer_carries (voting : Voting record) (perm : attempts.Perm record.attempts)
    {hash : String} {winner : JobAttempt} (mem : winner ∈ attempts)
    (agrees : winner.providerId ∈ ((attempts.map attemptResult).filter
      (AttemptResult.agrees (.str hash))).map AttemptResult.providerId) :
    winner ∈ record.carriers hash := by
  obtain ⟨_, chosen, same⟩ := mem_map.mp agrees
  obtain ⟨mapped, agreeing⟩ := mem_filter.mp chosen
  obtain ⟨_, here, rfl⟩ := mem_map.mp mapped
  cases voting.eq_of_providerId (perm.mem_iff.mp here) (perm.mem_iff.mp mem) same
  simp only [AttemptResult.agrees, attemptResult, Bool.and_eq_true, beq_iff_eq] at agreeing
  exact mem_carriers.mpr ⟨perm.mem_iff.mp mem, agreeing.2.2, eq_str_of_key agreeing.1⟩

theorem Voting.decided (voting : Voting record) (amount : record.job.escrowAmount = some escrow)
    (enough : record.job.redundancy ≤ record.finishedAttempts.length)
    (resolved : Resolved settings (order.shuffle record.finishedAttempts)
      now bytes record moved posted) :
    Outcome settings escrow moved posted := by
  have perm : (order.shuffle record.finishedAttempts).Perm record.attempts := by
    rw [voting.allFinished enough]
    exact order.perm _
  have nonneg := record.job.escrowNonneg escrow amount
  obtain ⟨quorum, decision, holds, settlement⟩ := resolved
  rename_i decided _ _ _ _
  obtain ⟨terms, _, _⟩ := decideJob_ok decision
  have billed : decided.kind ≠ .canary := (congrArg JobTerms.kind terms).trans_ne voting.billed
  have decidedAmount : decided.escrowAmount = some escrow :=
    (congrArg JobTerms.escrowAmount terms).trans amount
  have redundancy : decided.redundancy = record.job.redundancy := congrArg JobTerms.redundancy terms
  rcases evaluateQuorum_ok quorum with ⟨rfl, few⟩ | ⟨_, reached, many, notNone, agreers, _⟩
  · obtain ⟨rfl, rfl⟩ := decideJob_unreached rfl decision
    have open_ : (record.job.stamp (if allTimedOut (order.shuffle record.finishedAttempts) then
          .timeout else .failed) now).status ≠ .completed := by
      split_ifs <;> nofun
    cases (settleJob_refunded billed decidedAmount open_).symm.trans settlement
    refine .refunded ?_ ?_ ?_ ?_
    · intro hash majority
      have count := few (.str hash)
      rw [votes_eq_carriers perm] at count
      rw [JobRecord.Majority, redundancy] at majority
      change _ < 2 * (record.carriers hash).length at majority
      omega
    · rw [stamp_status, allTimedOut_perm perm]
    · rw [accountBalance_held_append holds (by decide) (by decide)]
      exact developer_refundRows _ _ nonneg
    · intro _
      rw [accountBalance_held_append holds (by decide) (by decide)]
      exact provider_refundRows _ _ _
  · obtain ⟨hash, rfl⟩ := voting.winning_hash perm notNone
      (Nat.lt_of_lt_of_le (Nat.succ_pos _) many)
    obtain ⟨winner, mem, agrees, _, rfl, rfl⟩ := decideJob_reached reached decision
    rw [agreers] at agrees
    cases (settleJob_completed billed decidedAmount (stamp_status _ _ _)).symm.trans settlement
    rw [votes_eq_carriers perm] at many
    refine .completed hash winner (stamp_status _ _ _) ?_
      (voting.agreer_carries perm mem agrees) rfl rfl ?_
    · rw [JobRecord.Majority, redundancy]
      change _ < 2 * (record.carriers hash).length
      omega
    · intro providerId
      rw [accountBalance_held_append holds (by decide) (by decide)]
      exact provider_completionRows nonneg providerId

end

/-- A result whose hash, if it carries one, is a string. -/
def AgentResultRequest.StringHash (request : AgentResultRequest) : Prop :=
  request.proof.get "output_sha256" = .none ∨ ∃ hash, request.proof.get "output_sha256" = .str hash

/-- Results for the job report a string as hash. -/
def StringHashes (jobId : Uuid) (record : JobRecord) : JobEvent → Prop
  | .submitResult _ _ _ request =>
    record.job.id = jobId → request.StringHash
  | _ => True

section

variable {settings : Settings} {order : RowOrder} {clock : Clock}
  {record moved : JobRecord} {books movedBooks : Books} {escrow : Int}

theorem Voting.ofMap (voting : Voting record) {change : JobAttempt → JobAttempt}
    (terms : moved.job.toJobTerms = record.job.toJobTerms)
    (inFlight : moved.job.status.inFlight = true)
    (attempts : moved.attempts = record.attempts.map change)
    (provider : ∀ attempt, (change attempt).providerId = attempt.providerId)
    (ballots : ∀ attempt ∈ record.attempts, (change attempt).outcome = .completed →
      moved.job.status = .running ∧ ((change attempt).outputHash = .none ∨
      ∃ hash, (change attempt).outputHash = .str hash)) :
    Voting moved ∧ moved.attempts.map JobAttempt.providerId =
        record.attempts.map JobAttempt.providerId := by
  have redundancy : moved.job.redundancy = record.job.redundancy :=
    congrArg JobTerms.redundancy terms
  have providers : moved.attempts.map JobAttempt.providerId =
      record.attempts.map JobAttempt.providerId := by
    rw [attempts, map_map]
    exact map_congr_left fun attempt _ => provider attempt
  refine ⟨⟨redundancy ▸ voting.several,
    (congrArg JobTerms.kind terms).trans_ne voting.billed, ?_, inFlight,
    ?_, providers ▸ voting.distinct, ?_⟩, providers⟩
  · rw [congrArg JobTerms.escrowAmount terms]
    exact voting.funded
  · rw [attempts, length_map, redundancy]
    exact voting.full
  · intro _ mem completed
    rw [attempts] at mem
    obtain ⟨source, here, rfl⟩ := mem_map.mp mem
    exact ballots source here completed

theorem Voting.recorded (voting : Voting record) {providerId : Uuid} {request : AgentResultRequest}
    (strings : request.StringHash) (recording : Recorded clock providerId request record moved) :
    Voting moved ∧ moved.attempts.map JobAttempt.providerId =
        record.attempts.map JobAttempt.providerId := by
  obtain ⟨_, _, _, attempts⟩ := recording.attempts
  refine voting.ofMap recording.terms (by rw [recording.running]; rfl) attempts ?_ ?_
  · intro _
    split_ifs <;> rfl
  · intro attempt mem completed
    refine ⟨recording.running, ?_⟩
    split_ifs at completed ⊢
    · exact strings
    · exact (voting.ballots attempt mem completed).2

theorem Voting.marked (voting : Voting record) (now : Int) : Voting (markLapsed now record) ∧
      (markLapsed now record).attempts.map JobAttempt.providerId =
        record.attempts.map JobAttempt.providerId := by
  refine voting.ofMap rfl voting.inFlight rfl ?_ ?_
  · intro _
    split_ifs <;> rfl
  · intro attempt mem completed
    split_ifs at completed ⊢
    exact voting.ballots attempt mem completed

theorem Voting.touched (voting : Voting record) {number : Nat} {update : JobAttempt → JobAttempt}
    (touched : Touched record moved number update) :
    (Voting moved ∧ moved.attempts.map JobAttempt.providerId =
        record.attempts.map JobAttempt.providerId) ∧
    moved.finishedAttempts.length = record.finishedAttempts.length := by
  refine ⟨voting.ofMap touched.terms touched.stillInFlight touched.attempts ?_ ?_, ?_⟩
  · intro attempt
    split_ifs
    · exact touched.provider attempt
    · rfl
  · intro attempt mem done
    obtain ⟨before, same⟩ := touched.vote done
    obtain ⟨running, hash⟩ := voting.ballots attempt mem before
    rw [same]
    exact ⟨touched.stillRunning running, hash⟩
  · simp only [JobRecord.finishedAttempts, touched.attempts,
      JobRecord.updateAttempt, ← countP_eq_length_filter,
      countP_map]
    refine countP_congr fun attempt _ => ?_
    simp only [Function.comp_apply]
    split_ifs
    · rw [touched.finished attempt]
    · rfl

theorem Voting.finalised (voting : Voting record) (amount : record.job.escrowAmount = some escrow)
    (ok : maybeFinalize settings order clock record books = .ok (moved, movedBooks)) :
    (moved = record ∧ movedBooks.ledger = books.ledger ∧
      record.finishedAttempts.length < record.job.redundancy) ∨
    (moved.attempts = record.attempts ∧ moved.job.status.isTerminal = true ∧
      moved.finishedAttempts.length = record.job.redundancy ∧
      ∃ posted, movedBooks.ledger = books.ledger ++ posted ∧
        Outcome settings escrow moved posted) := by
  rcases maybeFinalize_ok ok with ⟨rfl, rfl, closed | few⟩ | ⟨_, enough, posted, ledger, resolved⟩
  · rw [inFlight_open voting.inFlight] at closed
    cases closed
  · exact Or.inl ⟨rfl, rfl, few⟩
  · obtain ⟨_, attempts, terminal, _⟩ := resolved.facts
    refine Or.inr ⟨attempts, terminal, ?_, posted, ledger, voting.decided amount enough resolved⟩
    rw [JobRecord.finishedAttempts, attempts]
    exact Nat.le_antisymm voting.finished_le enough

end

theorem JobEvent.perform_terminal {settings : Settings} {event : JobEvent}
    {record moved : JobRecord} {books movedBooks : Books}
    (closed : record.job.status.isTerminal = true)
    (ok : event.perform settings record books = .ok (moved, movedBooks)) :
    moved = record ∧ movedBooks.ledger = books.ledger := by
  rcases JobEvent.perform_stages ok with same | ⟨quiet, _⟩ | ⟨_, _, _, ready, _⟩
  · exact same
  · rw [quiet.unresolved] at closed
    cases closed
  · rw [inFlight_open ready.inFlight.1] at closed
    cases closed

/-- A funded job in flight with all its attempts, by distinct providers. -/
structure FullyAssigned (record : JobRecord) : Prop where
  several : 1 < record.job.redundancy
  billed : record.job.kind ≠ .canary
  funded : record.job.escrowAmount.isSome = true
  inFlight : record.job.status.inFlight = true
  full : record.attempts.length = record.job.redundancy
  distinct : (record.attempts.map JobAttempt.providerId).Nodup
  fresh : ∀ attempt ∈ record.attempts, attempt.finished = false ∧ attempt.outcome ≠ .completed

structure Tally (settings : Settings) (escrow : Int) (origin : JobRecord)
    (before : Ledger) (record : JobRecord) (rows : Ledger) : Prop where
  terms : record.job.toJobTerms = origin.job.toJobTerms
  providers : record.attempts.map JobAttempt.providerId = origin.attempts.map JobAttempt.providerId
  standing : (Voting record ∧ rows = before ∧
      record.finishedAttempts.length < record.job.redundancy) ∨
    (record.job.status.isTerminal = true ∧ record.finishedAttempts.length = record.job.redundancy ∧
      ∃ posted, rows = before ++ posted ∧ Outcome settings escrow record posted)

section

variable {settings : Settings} {escrow : Int} {origin : JobRecord}
  {before : Ledger} {record moved : JobRecord} {rows : Ledger}

theorem FullyAssigned.voting (assigned : FullyAssigned record) : Voting record ∧
      record.finishedAttempts.length < record.job.redundancy := by
  refine ⟨⟨assigned.several, assigned.billed, assigned.funded,
    assigned.inFlight, assigned.full, assigned.distinct, ?_⟩, ?_⟩
  · intro attempt mem completed
    exact absurd completed (assigned.fresh attempt mem).2
  · have none : record.finishedAttempts = [] := by
      rw [JobRecord.finishedAttempts, filter_eq_nil_iff]
      intro attempt mem
      simp [(assigned.fresh attempt mem).1]
    rw [none]
    exact Nat.lt_of_lt_of_le Nat.zero_lt_one (Nat.le_of_lt assigned.several)

theorem Tally.ofFinalise {books movedBooks : Books} {order : RowOrder} {clock : Clock}
    (ok : maybeFinalize settings order clock record books = .ok (moved, movedBooks))
    (terms : record.job.toJobTerms = origin.job.toJobTerms)
    (amount : origin.job.escrowAmount = some escrow)
    (providers : record.attempts.map JobAttempt.providerId =
      origin.attempts.map JobAttempt.providerId) (voting : Voting record)
    (unposted : books.ledger.forJob record.job.id = before) :
    Tally settings escrow origin before moved (movedBooks.ledger.forJob record.job.id) := by
  have recordAmount : record.job.escrowAmount = some escrow :=
    (congrArg JobTerms.escrowAmount terms).trans amount
  obtain ⟨posted, posts⟩ := maybeFinalize_posts ok
  rcases voting.finalised recordAmount ok with
    ⟨rfl, same, few⟩ | ⟨attempts, closed, count, more, ledger, outcome⟩
  · refine ⟨terms, providers, Or.inl ⟨voting, ?_, few⟩⟩
    rw [same, unposted]
  · cases append_cancel_left (posts.ledger.symm.trans ledger)
    refine ⟨posts.terms.trans terms, by rw [attempts, providers],
      Or.inr ⟨closed, ?_, posted, ?_, outcome⟩⟩
    · rw [count, congrArg JobTerms.redundancy posts.terms]
    · rw [posts.ledger, Ledger.forJob_append_own posts.stamped, unposted]

theorem tally_preserved (amount : origin.job.escrowAmount = some escrow) :
    Preserved settings (StringHashes origin.job.id) (Tally settings escrow origin before) := by
  intro event record books moved movedBooks tally strings ok
  obtain ⟨terms, providers, standing⟩ := tally
  have id : record.job.id = origin.job.id := congrArg JobTerms.id terms
  rcases standing with ⟨voting, unposted, few⟩ | decided
  · have reported : movedBooks.ledger = books.ledger ∧
        (∃ number update, Touched record moved number update) →
        Tally settings escrow origin before moved (movedBooks.ledger.forJob record.job.id) := by
      rintro ⟨ledger, _, _, touched⟩
      obtain ⟨⟨stillVoting, sameProviders⟩, count⟩ := voting.touched touched
      refine ⟨touched.terms.trans terms, sameProviders.trans providers,
        Or.inl ⟨stillVoting, by rw [ledger, unposted], ?_⟩⟩
      rw [count, touched.redundancy]
      exact few
    cases event with
    | idle =>
      cases ok
      exact ⟨terms, providers, Or.inl ⟨voting, unposted, few⟩⟩
    | assign =>
      obtain ⟨rfl, ⟨rfl, _⟩ | ⟨queued, _⟩⟩ := assignProviders_ok ok
      · exact ⟨terms, providers, Or.inl ⟨voting, unposted, few⟩⟩
      · have inFlight := voting.inFlight
        rw [queued] at inFlight
        cases inFlight
    | heartbeat => exact reported (heartbeat_touched ok)
    | reportStatus => exact reported (reportStatus_touched ok)
    | submitResult =>
      obtain ⟨recorded, ⟨recording, _, _⟩, finalised⟩ := submitResult_ready ok
      obtain ⟨stillVoting, sameProviders⟩ := voting.recorded (strings id) recording
      have recordedId : recorded.job.id = record.job.id := congrArg JobTerms.id recording.terms
      rw [← recordedId] at unposted ⊢
      exact .ofFinalise finalised (recording.terms.trans terms) amount
        (sameProviders.trans providers) stillVoting unposted
    | reclaim =>
      rcases reclaim_ok ok with ⟨rfl, rfl⟩ | ⟨_, _⟩
      · exact ⟨terms, providers, Or.inl ⟨voting, unposted, few⟩⟩
      · have several := voting.several
        omega
    | reapAttempts _ _ now =>
      rcases reapAttempts_ok ok with ⟨rfl, rfl⟩ | ⟨_, finalised⟩
      · exact ⟨terms, providers, Or.inl ⟨voting, unposted, few⟩⟩
      · obtain ⟨stillVoting, sameProviders⟩ := voting.marked now
        have decided := Tally.ofFinalise finalised terms amount
          (sameProviders.trans providers) stillVoting unposted
        exact decided
  · obtain ⟨rfl, ledger⟩ := JobEvent.perform_terminal decided.1 ok
    rw [ledger]
    exact ⟨terms, providers, Or.inr decided⟩

theorem Voting.finalises (voting : Voting record) (settings : Settings)
    (order : RowOrder) (clock : Clock) (books : Books) :
    ∃ moved movedBooks, maybeFinalize settings order clock record books =
        .ok (moved, movedBooks) := by
  refine maybeFinalize_total settings order clock books voting.inFlight ?_
  intro attempt mem completed
  obtain ⟨running, hash⟩ := voting.ballots attempt mem completed
  rcases hash with none | ⟨_, carried⟩
  · rw [none]
    exact ⟨⟨running, nofun⟩, rfl⟩
  · rw [carried]
    exact ⟨⟨running, nofun⟩, rfl⟩

theorem Voting.takesResult (voting : Voting record) {attempt : JobAttempt} {providerId : Uuid}
    {request : AgentResultRequest} (found : record.providerAttempt providerId = some attempt)
    (checks : resultRefChecks request = true) (storable : request.storable = true)
    (strings : request.StringHash) (settings : Settings) (order : RowOrder) (clock : Clock)
    (books : Books) :
    ∃ moved movedBooks, submitResult settings order clock providerId request record books =
        .ok (moved, movedBooks) := by
  obtain ⟨_, recording, code⟩ := @submitResult_eq settings order
    clock record books _ attempt request found voting.inFlight checks
    storable
  obtain ⟨moved, movedBooks, finalised⟩ :=
    (voting.recorded strings recording).1.finalises settings order clock books
  exact ⟨moved, movedBooks, code.trans finalised⟩

/-- A fully assigned redundant job is open with an untouched ledger while votes
are missing; with the last vote it is decided by majority, and nothing changes
it afterwards. -/
theorem redundant_job_outcome {start system : System} {jobId : Uuid}
    (found : start.record? jobId = some record) (assigned : FullyAssigned record)
    (reached : Reaches (Operation.step settings)
      (Permits settings (StringHashes jobId)) (fun state => state = start) system) :
    ∃ moved escrow, system.record? jobId = some moved ∧ record.job.escrowAmount = some escrow ∧
      moved.job.toJobTerms = record.job.toJobTerms ∧
      moved.attempts.map JobAttempt.providerId = record.attempts.map JobAttempt.providerId ∧
      ((moved.finishedAttempts.length < moved.job.redundancy ∧ moved.job.status.isTerminal = false ∧
          system.books.ledger.forJob jobId = start.books.ledger.forJob jobId ∧
          (∀ order clock providerId attempt request,
            moved.providerAttempt providerId = some attempt →
            resultRefChecks request = true → request.storable = true →
            request.StringHash →
            ∃ next, Operation.perform settings (.submitResult order clock providerId jobId request)
              system = .ok next) ∧
          (∀ order clock now books, ∃ next,
            maybeFinalize settings order clock (markLapsed now moved) books = .ok next)) ∨
        (moved.finishedAttempts.length = moved.job.redundancy ∧ (∃ posted,
            system.books.ledger.forJob jobId = start.books.ledger.forJob jobId ++ posted ∧
            Outcome settings escrow moved posted) ∧
          ∀ later, Reaches (Operation.step settings) (fun _ _ => True)
              (fun state => state = system) later →
            later.record? jobId = some moved ∧ later.books.ledger.forJob jobId =
                system.books.ledger.forJob jobId)) := by
  obtain ⟨escrow, amount⟩ := Option.isSome_iff_exists.mp assigned.funded
  obtain ⟨voting, few⟩ := assigned.voting
  cases id_of_record? found
  obtain ⟨moved, after, terms, providers, standing⟩ := reaches_oneJob (tally_preserved amount) found
    ⟨rfl, rfl, Or.inl ⟨voting, rfl, few⟩⟩ reached
  refine ⟨moved, escrow, after, amount, terms, providers, ?_⟩
  rcases standing with ⟨stillVoting, unposted, missing⟩ | ⟨closed, count, decided⟩
  · refine Or.inl ⟨missing, inFlight_open stillVoting.inFlight, unposted, ?_, ?_⟩
    · intro order clock _ _ _ mine checks storable strings
      obtain ⟨next, nextBooks, success⟩ := stillVoting.takesResult mine
        checks storable strings settings order clock system.books
      refine ⟨system.put next nextBooks, ?_⟩
      simp only [Operation.perform, System.onJob, after]
      exact bind_eq_ok.mpr ⟨_, success, rfl⟩
    · intro order clock now books
      obtain ⟨_, _, success⟩ := (stillVoting.marked now).1.finalises settings order clock books
      exact ⟨_, success⟩
  · refine Or.inr ⟨count, decided, ?_⟩
    intro _ reachedLater
    have unchanged : Preserved settings (fun _ _ => True) fun other rows => other = moved ∧
          rows = system.books.ledger.forJob record.job.id := by
      rintro _ _ _ _ _ ⟨same, kept⟩ _ success
      rw [same] at success kept ⊢
      obtain ⟨rfl, ledger⟩ := JobEvent.perform_terminal closed success
      exact ⟨rfl, by rw [ledger, kept]⟩
    obtain ⟨_, present, rfl, rows⟩ := reaches_oneJob unchanged after
      ⟨rfl, rfl⟩ (reachedLater.mono fun _ _ _ _ _ _ => trivial)
    exact ⟨present, rows⟩

end

def threeAssigned : System := Serial.run (Operation.step .default)
    (assignedJob true 3 [5, 6, 8]) System.empty

theorem threeAssigned_fullyAssigned : ∃ record,
      threeAssigned.record? 1 = some record ∧ FullyAssigned record := by
  obtain ⟨record, found, several, billed, funded, inFlight, full, distinct, fresh⟩ :
      ∃ record ∈ threeAssigned.record? 1, 1 < record.job.redundancy ∧ record.job.kind ≠ .canary ∧
        record.job.escrowAmount.isSome = true ∧ record.job.status.inFlight = true ∧
        record.attempts.length = record.job.redundancy ∧
        (record.attempts.map JobAttempt.providerId).Nodup ∧
        ∀ attempt ∈ record.attempts, attempt.finished = false ∧ attempt.outcome ≠ .completed := by
    decide +kernel
  exact ⟨record, found, ⟨several, billed, funded, inFlight, full, distinct, fresh⟩⟩

def twoAgree : List Operation := [answer 5 (.str "a"), answer 6 (.str "b"), answer 8 (.str "a")]

theorem twoAgree_permitted : AllPermitted (Operation.step .default)
      (Permits .default (StringHashes 1)) twoAgree threeAssigned := by
  refine ⟨?_, ?_, ?_, trivial⟩ <;>
    · intro _ _ _
      simp only [answer, Operation.event]
      split_ifs
      · exact fun _ => Or.inr ⟨_, rfl⟩
      · trivial

theorem redundant_job_outcome_twoAgree : ∃ moved escrow posted,
      (Serial.run (Operation.step .default) twoAgree threeAssigned).record? 1 = some moved ∧
      moved.job.status = .completed ∧
      Outcome .default escrow moved posted := by
  obtain ⟨_, found, assigned⟩ := threeAssigned_fullyAssigned
  obtain ⟨moved, escrow, after, _, _, _, standing⟩ := redundant_job_outcome found assigned
      (Reaches.run (.start rfl) twoAgree_permitted)
  obtain ⟨_, same, completed, _⟩ : ∃ record ∈ (Serial.run (Operation.step .default) twoAgree
      threeAssigned).record? 1, record.job.status = .completed ∧
        record.finishedAttempts.length = record.job.redundancy := by
    decide +kernel
  cases after.symm.trans same
  rcases standing with ⟨_, _⟩ | ⟨_, ⟨posted, _, outcome⟩, _⟩
  · omega
  · exact ⟨moved, escrow, posted, after, completed, outcome⟩

end Gridix
