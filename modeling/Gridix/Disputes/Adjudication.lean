import Gridix.Disputes.Model
import Gridix.Jobs.Majority
import Gridix.Jobs.Panel

/-!
# The two adjudicators

A slash for disagreeing leaves two records of the votes: the evidence of its
dispute and the attempts of the job.  They drop different votes and treat a
missing hash differently, so they agree only when the majority is for a
non-empty string and the slashed provider submitted something, or when there
is no majority at all.
-/

namespace Py

def Key.truthy : Key → Bool
  | .none => false
  | .number value => value != 0
  | .infinite _ => true
  | .nan => true
  | .str value => value != ""

theorem Value.truthy_of_key {value : Value} {key : Key}
    (carries : value.key = some key) : value.truthy = key.truthy := by
  cases value with
  | bool value =>
    cases carries
    cases value <;> rfl
  | int =>
    cases carries
    simp [Value.truthy, Key.truthy, bne]
  | float value => cases value <;> (cases carries; rfl)
  | none | str => cases carries; rfl
  | list | dict => cases carries

theorem Value.isNone_of_truthy {value : Value}
    (truthy : value.truthy = true) : value.isNone = false := by
  cases value with
  | none => cases truthy
  | _ => rfl

theorem Value.equals_of_key {value other : Value} {key : Key}
    (carries : other.key = some key) (ne : value.key ≠ some key) :
    value.equals other = false := by
  cases hashed : value.key with
  | none =>
    cases other with
    | list | dict => cases carries
    | _ => cases value <;> simp_all [Value.equals]
  | some _ =>
    cases other with
    | list | dict => cases carries
    | _ => cases value <;> simp_all [Value.equals]

end Py

namespace Gridix.Disputes

def kindText : JobKind → String
  | .standard => "standard"
  | .canary => "canary"

def textOrNone : Option String → Py.Value
  | none => .none
  | some text => .str text

def quorumVote (result : AttemptResult) : Py.Value :=
  .dict [("provider_id", .str (toString result.providerId)), ("output_hash", result.outputHash),
    ("succeeded", .bool result.succeeded)]

def slashEvidence (job : JobTerms) (attempt : JobAttempt) (results : List AttemptResult) : Proof :=
  [("job_id", .str (toString job.id)), ("kind", .str (kindText job.kind)),
    ("input_ref", textOrNone job.inputRef),
    ("expected_output_hash", textOrNone job.expectedOutputHash),
    ("submitted_output_hash", attempt.outputHash),
    ("submitted_result_ref", textOrNone attempt.resultRef),
    ("proof", (attempt.proof.map Py.Value.dict).getD .none),
    ("attempt_number", .int attempt.attemptNumber),
    ("quorum_votes", .list (results.map quorumVote))]

/-- A vote that the adjudicator reads: it succeeded and its hash is truthy. -/
def speaks (result : AttemptResult) : Bool := result.succeeded && result.outputHash.truthy

section

variable {results : List AttemptResult}

theorem usable_of_speaks {result : AttemptResult}
    (spoken : speaks result = true) : result.usable = true := by
  simp only [speaks, Bool.and_eq_true] at spoken
  rw [AttemptResult.usable, spoken.1, Py.Value.isNone_of_truthy spoken.2]
  rfl

theorem votedHashes_eq (results : List AttemptResult) : (results.map quorumVote).mapM votedHash =
      .ok (results.map fun result =>
        if speaks result then some result.outputHash else none) := by
  induction results with
  | nil => rfl
  | cons _ _ ih =>
    rw [List.map_cons, List.mapM_cons, ih]
    rfl

theorem spokenHashes_eq (results : List AttemptResult) : (results.map fun result =>
        if speaks result then some result.outputHash else none).filterMap id =
      (results.filter speaks).map AttemptResult.outputHash := by
  induction results with
  | nil => rfl
  | cons result _ ih =>
    rw [List.map_cons, List.filter_cons]
    split_ifs
    · exact congrArg (result.outputHash :: ·) ih
    · exact ih

theorem mapM_key_eq (results : List AttemptResult) :
    (results.map AttemptResult.outputHash).mapM Py.Value.key = countedKeys results := by
  rw [List.mapM_map]
  rfl

theorem count_spoken {keys : List Py.Key}
    (counted : countedKeys (results.filter speaks) = some keys) (key : Py.Key) :
    keys.count key = if key.truthy then votes results key else 0 := by
  rw [count_countedKeys counted, List.countP_filter]
  split_ifs with truthy
  · apply List.countP_congr
    intro _ _
    simp only [Bool.and_eq_true, beq_iff_eq]
    constructor
    · rintro ⟨carries, spoken⟩
      exact ⟨usable_of_speaks spoken, carries⟩
    · rintro ⟨usable, carries⟩
      simp only [AttemptResult.usable, Bool.and_eq_true] at usable
      rw [speaks, usable.1, Py.Value.truthy_of_key carries, truthy]
      exact ⟨carries, rfl⟩
  · rw [List.countP_eq_zero]
    intro _ _ spoken
    simp only [Bool.and_eq_true, beq_iff_eq, speaks] at spoken
    rw [Py.Value.truthy_of_key spoken.1] at spoken
    exact truthy spoken.2.2

theorem majorityHash_spec (hashable : ∀ result ∈ results, result.succeeded = true →
      result.outputHash.key.isSome = true) :
    (majorityHash (results.map quorumVote) = .ok none ∧ ∀ key : Py.Key, key.truthy = true →
        ¬ results.length < 2 * votes results key) ∨
    ∃ value winner, majorityHash (results.map quorumVote) = .ok (some value) ∧
      value.key = some winner ∧ winner.truthy = true ∧
      results.length < 2 * votes results winner := by
  have twice : (results.filter speaks).filter AttemptResult.usable = results.filter speaks := by
    apply List.filter_eq_self.mpr
    intro _ member
    exact usable_of_speaks (List.mem_filter.mp member).2
  obtain ⟨keys, counted⟩ := @countedKeys_total (results.filter speaks)
    fun result member => hashable result (List.mem_filter.mp member).1
  rw [twice] at counted
  have code : majorityHash (results.map quorumVote) =
      (mostCommon keys).elim (.ok none) fun winner =>
        if results.length / 2 + 1 ≤ keys.count winner then
          .ok (((results.filter speaks).map AttemptResult.outputHash).find? fun hash =>
              hash.key == some winner)
        else .ok none := by
    unfold majorityHash
    rw [votedHashes_eq]
    simp only [Except.bind, bind, spokenHashes_eq, mapM_key_eq, counted, List.length_map]
    cases mostCommon keys <;> rfl
  cases most : mostCommon keys with
  | none =>
    rw [mostCommon, List.argmax_eq_none] at most
    subst most
    refine .inl ⟨code, fun key truthy => ?_⟩
    have none := count_spoken counted key
    rw [if_pos truthy, List.count_nil] at none
    omega
  | some winner =>
    have member := List.argmax_mem (Option.mem_def.mpr most)
    have count := count_spoken counted
    have largest : ∀ key, keys.count key ≤ keys.count winner := by
      intro key
      by_cases here : key ∈ keys
      · exact List.le_of_mem_argmax (f := fun key => keys.count key) here (Option.mem_def.mpr most)
      · rw [List.count_eq_zero.mpr here]
        exact Nat.zero_le _
    have positive := List.count_pos_iff.mpr member
    have truthy : winner.truthy = true := by
      by_contra falsy
      rw [count, if_neg falsy] at positive
      exact Nat.lt_irrefl 0 positive
    rw [most, Option.elim_some] at code
    by_cases enough : results.length / 2 + 1 ≤ keys.count winner
    · rw [if_pos enough] at code
      obtain ⟨_, here, carries⟩ := mem_countedKeys counted member
      have found : (((results.filter speaks).map AttemptResult.outputHash).find? fun hash =>
            hash.key == some winner).isSome = true :=
        List.find?_isSome.mpr ⟨_, List.mem_map_of_mem here,
          by simpa using carries⟩
      obtain ⟨value, chosen⟩ := Option.isSome_iff_exists.mp found
      rw [chosen] at code
      refine .inr ⟨value, winner, code, ?_, truthy, ?_⟩
      · simpa using List.find?_some chosen
      · rw [count, if_pos truthy] at enough
        omega
    · rw [if_neg enough] at code
      refine .inl ⟨code, fun key truthyKey => ?_⟩
      have less := largest key
      rw [count key, if_pos truthyKey] at less
      omega

theorem knownGood_evidence {job : JobTerms} (attempt : JobAttempt)
    (unanswered : job.expectedOutputHash = none) :
    knownGood (slashEvidence job attempt results) = majorityHash (results.map quorumVote) := by
  have expected : Proof.get (slashEvidence job attempt results) "expected_output_hash" = .none := by
    change textOrNone job.expectedOutputHash = .none
    rw [unanswered]
    rfl
  have votes : Proof.get (slashEvidence job attempt results)
      "quorum_votes" = .list (results.map quorumVote) := rfl
  unfold knownGood
  rw [expected]
  cases results with
  | nil | cons => rfl

end

theorem resolveDispute_total (dispute : Dispute) (upheld : Bool)
    (rulingReason : String) (now : Int) (tables : Tables) :
    ∃ moved, resolveDispute dispute upheld rulingReason now tables = .ok moved := by
  unfold resolveDispute releasePostings
  split_ifs
  · exact ⟨tables, rfl⟩
  all_goals
    rw [postPositive_transfer]
    exact ⟨_, rfl⟩

/-- Without a known answer, or without a hash to compare, the dispute is left
to a human. -/
def autoVerdict (submitted : Py.Value) : Option Py.Value → Option DisputeState
  | none => none
  | some expected =>
    if submitted.isNone then none
    else some (ruling (!submitted.equals expected))

variable {now : Int} {attempts : List JobAttempt}

variable {dispute : Dispute} {tables : Tables} {outcome : QuorumOutcome}

theorem autoAdjudicate_verdict
    {known : Option Py.Value} (answer : knownGood (dispute.evidence.getD []) = .ok known) :
    (autoAdjudicate dispute now tables).map Prod.fst =
      .ok (autoVerdict ((dispute.evidence.getD []).get "submitted_output_hash") known) := by
  unfold autoAdjudicate autoVerdict
  dsimp only
  rw [answer]
  cases known with
  | none => rfl
  | some =>
    change Except.map Prod.fst (if _ then _ else _) = _
    split_ifs with _ matching
    · rfl
    · obtain ⟨_, resolved⟩ := resolveDispute_total dispute false
        "auto: matches known-good output" now tables
      dsimp only
      rw [resolved, matching]
      rfl
    · obtain ⟨_, resolved⟩ := resolveDispute_total dispute true
        "auto: differs from known-good output" now tables
      dsimp only
      rw [resolved, Bool.eq_false_of_not_eq_true matching]
      rfl

def submittedHash (attempts : List JobAttempt) (providerId : Uuid) : Py.Value :=
  ((attempts.find? fun attempt => attempt.providerId == providerId).map
    JobAttempt.outputHash).getD .none

theorem submittedHash_eq {attempt : JobAttempt}
    (distinct : (attempts.map JobAttempt.providerId).Nodup) (mem : attempt ∈ attempts) :
    submittedHash attempts attempt.providerId = attempt.outputHash := by
  have found : (attempts.find? fun other =>
      other.providerId == attempt.providerId).isSome = true :=
    List.find?_isSome.mpr ⟨attempt, mem, beq_self_eq_true _⟩
  obtain ⟨other, chosen⟩ := Option.isSome_iff_exists.mp found
  have same : other.providerId = attempt.providerId := by simpa using List.find?_some chosen
  cases List.inj_on_of_nodup_map distinct (List.mem_of_find?_eq_some chosen) mem same
  rw [submittedHash, chosen]
  rfl

def revoteVerdict (submitted : Py.Value) : Option Py.Key → Except Failure (Option DisputeState)
  | none => .ok none
  | some (.str winning) =>
    .ok (some (ruling (!matchesHash submitted (some winning))))
  | some _ => .error .unsliceableHash

theorem quorumRevote_verdict {redundancy : Nat} (job : dispute.jobId.isNone = false)
    (quorum : evaluateQuorum (attempts.map attemptResult) redundancy = .ok outcome) :
    (quorumRevote dispute ⟨some redundancy, attempts⟩ now tables).map Prod.fst =
      revoteVerdict (submittedHash attempts dispute.providerId) outcome.winningHash := by
  unfold quorumRevote
  dsimp only
  rw [job, Option.getD_some, quorum]
  dsimp only
  cases outcome.winningHash with
  | none => rfl
  | some key =>
    cases key with
    | str winning =>
      obtain ⟨_, resolved⟩ := resolveDispute_total dispute
        (!matchesHash (submittedHash attempts dispute.providerId) (some winning))
        ("revote: majority=" ++ String.ofList (winning.toList.take 12)) now tables
      unfold submittedHash at resolved
      dsimp only
      rw [resolved]
      rfl
    | none | number | infinite | nan => rfl

/-- Both succeed with the same verdict. -/
def SameVerdict (left right : Except Failure (Option DisputeState × Tables)) : Prop :=
  ∃ verdict, left.map Prod.fst = .ok verdict ∧ right.map Prod.fst = .ok verdict

/-- There is no majority, or one for a non-empty string against a provider
that submitted some hash. -/
def ClearVote (outcome : QuorumOutcome) (attempt : JobAttempt) : Prop :=
  outcome.winningHash = none ∨ ∃ winning, outcome.winningHash = some (.str winning) ∧
      winning ≠ "" ∧ attempt.outputHash.isNone = false

theorem evaluateQuorum_hashable {results : List AttemptResult} {redundancy : Nat}
    (ok : evaluateQuorum results redundancy = .ok outcome) :
    ∀ result ∈ results, result.succeeded = true → result.outputHash.key.isSome = true := by
  intro result mem succeeded
  cases hash : result.outputHash.key with
  | some => rfl
  | none =>
    have raises := evaluateQuorum_unhashable redundancy mem succeeded hash
    cases ok.symm.trans raises

theorem matchesHash_of_key {value : Py.Value} {text : String} (ne : value.key ≠ some (.str text)) :
    matchesHash value (some text) = false := by
  cases value with
  | str => simpa [matchesHash, Py.Value.key] using ne
  | _ => rfl

section

variable {attempts : List JobAttempt} {redundancy : Nat}
  {outcome : QuorumOutcome} {attempt : JobAttempt}

theorem key_of_lost {winning : Py.Key} (equal : winning ≠ .nan) (mem : attempt ∈ attempts)
    (completed : attempt.outcome = .completed)
    (lost : wins (.decided (attempts.map attemptResult) winning) attempt = false) :
    attempt.outputHash.key ≠ some winning := by
  intro carries
  have agrees : attempt.providerId ∈ (QuorumOutcome.decided
      (attempts.map attemptResult) winning).agreers :=
    (mem_decided_agreers equal).mpr ⟨attemptResult attempt,
      List.mem_map_of_mem mem, rfl, by simp [attemptResult, completed],
      carries⟩
  have won : wins (.decided (attempts.map attemptResult) winning) attempt = true := by
    rw [wins, List.contains_iff_mem.mpr agrees]
    rfl
  rw [lost] at won
  cases won

theorem verdicts_agree_iff {known : Option Py.Value} (size : attempts.length = redundancy)
    (quorum : evaluateQuorum (attempts.map attemptResult) redundancy = .ok outcome)
    (mem : attempt ∈ attempts) (completed : attempt.outcome = .completed)
    (lost : wins outcome attempt = false)
    (answer : majorityHash ((attempts.map attemptResult).map quorumVote) = .ok known) :
    revoteVerdict attempt.outputHash outcome.winningHash =
        .ok (autoVerdict attempt.outputHash known) ↔
      ClearVote outcome attempt := by
  have length : (attempts.map attemptResult).length = redundancy := by rw [List.length_map, size]
  have few : (attempts.map attemptResult).countP AttemptResult.usable ≤
      redundancy := length ▸ List.countP_le_length
  have majority := majorityHash_spec (evaluateQuorum_hashable quorum)
  rw [answer, length] at majority
  rcases evaluateQuorum_majority quorum with ⟨rfl, nobody⟩ | ⟨winning, rfl, most⟩
  · rcases majority with ⟨none, _⟩ | ⟨_, key, _, _, _, many⟩
    · cases none
      exact ⟨fun _ => .inl rfl, fun _ => rfl⟩
    · exact absurd many (nobody key)
  · change revoteVerdict attempt.outputHash (some winning) = _ ↔ _
    by_cases equal : winning = .nan
    · -- the vote for a hash that differs from itself is not a clear one
      rw [equal]
      refine iff_of_false nofun ?_
      rintro (undecided | ⟨_, hash, _⟩)
      · cases undecided
      · cases hash
    have different := key_of_lost equal mem completed lost
    rcases majority with ⟨none, falsy⟩ | ⟨value, _, some, carries, truthy, many⟩
    · -- the winning hash is falsy, so the evidence shows no majority
      cases none
      have empty : winning.truthy ≠ true := fun truthy => falsy winning truthy most
      constructor
      · intro same
        cases winning <;> cases same
      · rintro (undecided | ⟨_, hash, filled, _⟩)
        · cases undecided
        · cases hash
          exact absurd (bne_iff_ne.mpr filled) empty
    · cases majority_unique few most many
      cases some
      have upheld : autoVerdict attempt.outputHash (some value) =
          if attempt.outputHash.isNone then none else some .upheld := by
        simp only [autoVerdict, Py.Value.equals_of_key carries different]
        rfl
      rw [upheld]
      cases winning with
      | str text =>
        rw [revoteVerdict, matchesHash_of_key different]
        constructor
        · intro same
          refine .inr ⟨text, rfl, bne_iff_ne.mp truthy, ?_⟩
          by_contra missing
          rw [if_pos (by simpa using missing)] at same
          cases same
        · rintro (undecided | ⟨_, _, _, here⟩)
          · cases undecided
          · rw [here]
            rfl
      | none | number | infinite | nan =>
        constructor
        · intro same
          cases same
        · rintro (undecided | ⟨_, hash, _⟩)
          · cases undecided
          · cases hash

theorem autoAdjudicate_evidence {results : List AttemptResult}
    {job : JobTerms} {dispute : Dispute} {now : Int} {tables : Tables}
    (attempt : JobAttempt) (unanswered : job.expectedOutputHash = none)
    (hashable : ∀ result ∈ results, result.succeeded = true → result.outputHash.key.isSome = true)
    (evidence : dispute.evidence = some (slashEvidence job attempt results)) :
    ∃ known, majorityHash (results.map quorumVote) = .ok known ∧
      (autoAdjudicate dispute now tables).map Prod.fst =
        .ok (autoVerdict attempt.outputHash known) := by
  obtain ⟨known, answer⟩ : ∃ known, majorityHash (results.map quorumVote) = .ok known := by
    rcases majorityHash_spec hashable with ⟨code, _⟩ | ⟨_, _, code, _⟩ <;> exact ⟨_, code⟩
  refine ⟨known, answer, ?_⟩
  have submitted : Proof.get (slashEvidence job attempt results)
      "submitted_output_hash" = attempt.outputHash := rfl
  have known : knownGood (dispute.evidence.getD []) = .ok known := by
    rw [evidence, Option.getD_some, knownGood_evidence attempt unanswered, answer]
  rw [autoAdjudicate_verdict known, evidence, Option.getD_some, submitted]

theorem quorumRevote_reordered {permuted : List JobAttempt} {dispute : Dispute} {now : Int}
    {tables : Tables} (size : attempts.length = redundancy)
    (quorum : evaluateQuorum (attempts.map attemptResult) redundancy = .ok outcome)
    (distinct : (attempts.map JobAttempt.providerId).Nodup) (mem : attempt ∈ attempts)
    (order : permuted.Perm attempts) (provider : dispute.providerId = attempt.providerId)
    (job : dispute.jobId.isNone = false) :
    (quorumRevote dispute ⟨some redundancy, permuted⟩ now tables).map Prod.fst =
      revoteVerdict attempt.outputHash outcome.winningHash := by
  have results := order.map attemptResult
  have few : (attempts.map attemptResult).countP AttemptResult.usable ≤ redundancy := by
    rw [← size, ← List.length_map attemptResult]
    exact List.countP_le_length
  obtain ⟨_, again⟩ := evaluateQuorum_total redundancy
    fun result counted => evaluateQuorum_hashable quorum result (results.mem_iff.mp counted)
  have same := (evaluateQuorum_perm few results quorum again).winningHash
  have submitted : submittedHash permuted dispute.providerId = attempt.outputHash := by
    rw [provider]
    apply submittedHash_eq
    · rw [(order.map _).nodup_iff]
      exact distinct
    · exact order.mem_iff.mpr mem
  rw [quorumRevote_verdict job again, submitted, same]

theorem disagree_of_opened {settings : Settings} {order : RowOrder} {clock : Clock}
    {record middle moved : JobRecord} {books movedBooks : Books} {event : JobEvent}
    {slash : Gridix.Dispute} (panel : Panel record) (ready : Ready record event middle)
    (ok : maybeFinalize settings order clock middle books = .ok (moved, movedBooks))
    (opened : slash ∈ movedBooks.disputes.drop books.disputes.length)
    (disagree : slash.reason = .quorumDisagree) :
    middle.finishedAttempts = middle.attempts ∧ middle.attempts.length = middle.job.redundancy ∧
      (middle.attempts.map JobAttempt.providerId).Nodup ∧
      middle.job.expectedOutputHash = none ∧
      slash.jobId = middle.job.id ∧
      ∃ outcome attempt, evaluateQuorum ((order.shuffle middle.finishedAttempts).map
          attemptResult) middle.job.redundancy = .ok outcome ∧
        attempt ∈ order.shuffle middle.finishedAttempts ∧
        attempt.providerId = slash.providerId ∧
        attempt.outcome = .completed ∧ wins outcome attempt = false := by
  obtain ⟨terms, unresolved, _⟩ := ready.facts
  unfold maybeFinalize at ok
  rw [if_neg (by simp [unresolved])] at ok
  split_ifs at ok with due
  · obtain ⟨outcome, quorum, opens⟩ := finalize_judges unresolved ok
    obtain ⟨attempt, chosen, about⟩ := List.mem_map.mp
      ((mem_opened_iff opens).mp ⟨slash, opened, rfl⟩)
    obtain ⟨mem, cheats⟩ := List.mem_filter.mp chosen
    simp only [Gridix.Dispute.subject, Prod.mk.injEq] at about
    obtain ⟨provider, job, reason⟩ := about
    have standard : middle.job.kind ≠ .canary := by
      intro canary
      rw [disagree, slashReason, canary] at reason
      cases reason
    have several : 1 < middle.job.redundancy := by
      simp only [slashes, Bool.and_eq_true, Bool.or_eq_true, beq_iff_eq,
        standard, decide_eq_true_eq, false_or] at cheats
      exact cheats.2.1
    obtain ⟨_, lost, completed⟩ := (slashes_redundant_iff several standard).mp cheats
    obtain ⟨all, size, distinct⟩ := panel.complete ready (Nat.ne_of_gt several) due
    refine ⟨all, size, distinct, ?_, job.symm, outcome, attempt, quorum,
      mem, provider, completed, lost⟩
    rw [congrArg JobTerms.expectedOutputHash terms]
    apply panel.unanswered
    rwa [← congrArg JobTerms.kind terms]
  · cases ok
    rw [List.drop_length] at opened
    cases opened

end

/-- The two adjudicators of a dispute for disagreeing return the same verdict
exactly when there was no majority, or one for a non-empty string and the
slashed provider submitted a hash. -/
theorem adjudicators_agree_iff {settings : Settings} {system : System} {jobId : Uuid}
    {record middle moved : JobRecord} {event : JobEvent} {order : RowOrder} {clock : Clock}
    {books movedBooks : Books} {slash : Gridix.Dispute}
    (reached : Serial.Reaches (Operation.step settings)
      (Permits settings fun _ _ => True) System.Initial system)
    (found : system.record? jobId = some record) (ready : Ready record event middle)
    (success : maybeFinalize settings order clock middle books = .ok (moved, movedBooks))
    (opened : slash ∈ movedBooks.disputes.drop books.disputes.length)
    (disagree : slash.reason = .quorumDisagree) :
    ∃ outcome attempt, evaluateQuorum ((order.shuffle middle.finishedAttempts).map
        attemptResult) middle.job.redundancy = .ok outcome ∧
      attempt ∈ moved.attempts ∧
      attempt.providerId = slash.providerId ∧
      ∀ (dispute : Dispute) (rows : RowOrder) (now later : Int) (tables others : Tables),
        dispute.Abstracts slash →
        dispute.evidence = some (slashEvidence middle.job.toJobTerms attempt
          ((order.shuffle middle.finishedAttempts).map attemptResult)) →
        (SameVerdict (autoAdjudicate dispute now tables) (quorumRevote dispute
              ⟨some moved.job.redundancy, rows.shuffle moved.attempts⟩
              later others) ↔
          ClearVote outcome attempt) := by
  have panel : Panel record := reaches_everyJob
    (fun _ _ creation => creation.panel) (panel_preserved settings) reached
    found
  obtain ⟨all, size, distinct, unanswered, _, outcome, attempt, quorum,
    member, provider, completed, lost⟩ := disagree_of_opened panel ready success opened disagree
  obtain ⟨_, posts⟩ := maybeFinalize_posts success
  have attempts := maybeFinalize_attempts success
  have perm := order.perm middle.finishedAttempts
  have present : attempt ∈ moved.attempts := by
    rw [attempts, ← all]
    exact perm.mem_iff.mp member
  refine ⟨outcome, attempt, quorum, present, provider, ?_⟩
  intro dispute rows now later tables others abstracts evidence
  have panelSize : (order.shuffle middle.finishedAttempts).length = middle.job.redundancy := by
    rw [perm.length_eq, all, size]
  -- the revote reads the same attempts, in an order of its own
  have reordered : (rows.shuffle moved.attempts).Perm (order.shuffle middle.finishedAttempts) := by
    refine (rows.perm _).trans ?_
    rw [attempts, ← all]
    exact perm.symm
  have distinctVotes : ((order.shuffle middle.finishedAttempts).map
      JobAttempt.providerId).Nodup := by
    rw [(perm.map _).nodup_iff, all]
    exact distinct
  have revote := @quorumRevote_reordered _ _ _ _ _ dispute later others
    panelSize quorum distinctVotes member reordered
    (abstracts.providerId.trans provider.symm) (by rw [abstracts.jobId]; rfl)
  rw [← congrArg JobTerms.redundancy posts.terms] at revote
  obtain ⟨_, answer, auto⟩ := @autoAdjudicate_evidence _ _ dispute
    now tables attempt unanswered (evaluateQuorum_hashable quorum) evidence
  rw [← verdicts_agree_iff panelSize quorum member completed lost answer]
  constructor
  · rintro ⟨_, first, second⟩
    rw [← revote, second, ← first, auto]
  · intro agree
    exact ⟨_, auto, revote.trans agree⟩

def splitPanel (hash : Py.Value) : List Operation :=
  [.submitJob (minuteRequest true 5) 7 1 none true none 0,
    .assignProviders 1 (.of [5, 6, 7, 8, 9]) 0,
    .submitResult .stored ⟨0, 1000000, 1000000, 1000000⟩ 5 1 (cleanResult (.str "x")),
    .submitResult .stored ⟨0, 1000000, 1000000, 1000000⟩ 6 1 (cleanResult (.str "x")),
    .submitResult .stored ⟨0, 1000000, 1000000, 1000000⟩ 7 1 (cleanResult (.str "x")),
    .submitResult .stored ⟨0, 1000000, 1000000, 1000000⟩ 8 1 (cleanResult hash)]

def splitSystem (hash : Py.Value) : System := Serial.run (Operation.step .default) (splitPanel hash)
    ⟨[], .ofProviders [5, 6, 7, 8, 9]⟩

theorem splitSystem_reached (hash : Py.Value) : Serial.Reaches (Operation.step .default)
      (Permits .default fun _ _ => True) System.Initial
      (splitSystem hash) := by
  apply Serial.Reaches.run (.start ⟨rfl, nofun⟩)
  simp [splitPanel, Serial.AllPermitted, Permits]

def splitClock : Clock := ⟨61000000, 61000000, 61000000, 61000000⟩

def splitOutcome (hash : Py.Value) : Option (JobRecord × JobRecord × Books) :=
  ((splitSystem hash).record? 1).bind fun record =>
    if hasLapsedAttempt 61000000 record then
      (maybeFinalize .default .stored splitClock
        (markLapsed 61000000 record) (splitSystem hash).books).toOption.map
          fun (moved, books) => (record, moved, books)
    else none

theorem splitOutcome_eq_some {hash : Py.Value} {record moved : JobRecord} {books : Books}
    (outcome : splitOutcome hash = some (record, moved, books)) :
    (splitSystem hash).record? 1 = some record ∧ hasLapsedAttempt 61000000 record = true ∧
      maybeFinalize .default .stored splitClock
        (markLapsed 61000000 record) (splitSystem hash).books = .ok (moved, books) := by
  obtain ⟨_, found, finalised⟩ := Option.bind_eq_some_iff.mp outcome
  split_ifs at finalised with lapsed
  obtain ⟨⟨_, _⟩, success, same⟩ := Option.map_eq_some_iff.mp finalised
  cases same
  cases code : maybeFinalize .default .stored splitClock
      (markLapsed 61000000 record) (splitSystem hash).books with
  | error =>
    rw [code] at success
    cases success
  | ok =>
    rw [code] at success
    cases success
    exact ⟨found, lapsed, rfl⟩

theorem adjudicators_agree_iff_splitPanel : ∃ record moved books slash outcome attempt,
      splitOutcome (.str "y") = some (record, moved, books) ∧
      slash ∈ books.disputes ∧
      evaluateQuorum ((markLapsed 61000000 record).finishedAttempts.map
        attemptResult) 5 = .ok outcome ∧
      attempt.providerId = slash.providerId ∧
      ∀ (dispute : Dispute) (tables : Tables), dispute.Abstracts slash →
        dispute.evidence = some (slashEvidence record.job.toJobTerms attempt
          ((markLapsed 61000000 record).finishedAttempts.map attemptResult)) →
        SameVerdict (autoAdjudicate dispute 61000000 tables)
          (quorumRevote dispute ⟨some moved.job.redundancy, moved.attempts⟩ 61000000 tables) := by
  have facts : (splitOutcome (.str "y")).any (fun (record, moved, books) =>
      (splitSystem (.str "y")).books.disputes.isEmpty &&
      record.job.redundancy == 5 &&
      books.disputes.map Gridix.Dispute.subject == [(8, 1, .quorumDisagree)] &&
      (evaluateQuorum ((markLapsed 61000000 record).finishedAttempts.map
        attemptResult) 5).toOption.map QuorumOutcome.winningHash == some (some (.str "x")) &&
      moved.attempts.all fun attempt => attempt.providerId != 8 ||
        !attempt.outputHash.isNone) = true := by
    decide +kernel
  obtain ⟨⟨record, moved, books⟩, ran, facts⟩ := (Option.any_eq_true _ _).mp facts
  simp only [Bool.and_eq_true, beq_iff_eq, List.isEmpty_iff] at facts
  obtain ⟨⟨⟨⟨before, redundancy⟩, opened⟩, winner⟩, spoke⟩ := facts
  obtain ⟨found, lapsed, success⟩ := splitOutcome_eq_some ran
  obtain ⟨slash, single, about⟩ := List.map_eq_singleton_iff.mp opened
  have new : slash ∈ books.disputes.drop (splitSystem (.str "y")).books.disputes.length := by
    rw [before, single]
    exact List.mem_singleton_self slash
  obtain ⟨outcome, attempt, quorum, member, provider, agree⟩ :=
    adjudicators_agree_iff (splitSystem_reached _) found
      (@Ready.marked record .stored splitClock _ lapsed) success new
      (congrArg (fun subject => subject.2.2) about)
  have decided : evaluateQuorum ((markLapsed 61000000
      record).finishedAttempts.map attemptResult) 5 = .ok outcome := by
    rw [← redundancy]
    exact quorum
  refine ⟨record, moved, books, slash, outcome, attempt, ran, ?_, decided, provider, ?_⟩
  · rw [single]
    exact List.mem_singleton_self slash
  · intro dispute tables abstracts evidence
    refine (agree dispute .stored 61000000 61000000 tables tables abstracts
      evidence).mpr (.inr ⟨"x", ?_, by decide, ?_⟩)
    · rw [decided] at winner
      exact Option.some.inj winner
    · have said := List.all_eq_true.mp spoke attempt member
      have id : attempt.providerId = 8 := provider.trans (congrArg Prod.fst about)
      simpa [id] using said

theorem missing_hash_divides_adjudicators : ∃ record moved books slash attempt,
      Serial.Reaches (Operation.step .default) (Permits .default fun _ _ => True) System.Initial
        (splitSystem .none) ∧
      splitOutcome .none = some (record, moved, books) ∧
      books.disputes = [slash] ∧
      slash.reason = .quorumDisagree ∧
      attempt ∈ moved.attempts ∧
      attempt.providerId = slash.providerId ∧
      ∀ (dispute : Dispute) (tables : Tables), dispute.Abstracts slash →
        dispute.evidence = some (slashEvidence record.job.toJobTerms attempt
          ((markLapsed 61000000 record).finishedAttempts.map attemptResult)) →
        (autoAdjudicate dispute 61000000 tables).map Prod.fst = .ok none ∧
        (quorumRevote dispute ⟨some moved.job.redundancy, moved.attempts⟩
          61000000 tables).map Prod.fst = .ok (some .upheld) := by
  have facts : (splitOutcome .none).any (fun (record, moved, books) =>
      record.job.expectedOutputHash == none &&
      books.disputes.map Gridix.Dispute.subject == [(8, 1, .quorumDisagree)] &&
      (((markLapsed 61000000 record).finishedAttempts.map
        attemptResult).all fun result => result.outputHash.key.isSome) &&
      (evaluateQuorum (moved.attempts.map attemptResult)
        moved.job.redundancy).toOption.map QuorumOutcome.winningHash == some (some (.str "x")) &&
      (moved.attempts.find? fun attempt => attempt.providerId == 8).any
        fun attempt => attempt.outputHash.isNone) = true := by
    decide +kernel
  obtain ⟨⟨record, moved, books⟩, ran, facts⟩ := (Option.any_eq_true _ _).mp facts
  simp only [Bool.and_eq_true, beq_iff_eq] at facts
  obtain ⟨⟨⟨⟨unanswered, opened⟩, hashable⟩, winner⟩, silent⟩ := facts
  obtain ⟨attempt, lookup, silent⟩ := (Option.any_eq_true _ _).mp silent
  obtain ⟨slash, single, about⟩ := List.map_eq_singleton_iff.mp opened
  have id : attempt.providerId = 8 := by simpa using List.find?_some lookup
  have provider : slash.providerId = 8 := congrArg Prod.fst about
  refine ⟨record, moved, books, slash, attempt, splitSystem_reached _, ran,
    single, congrArg (fun subject => subject.2.2) about,
    List.mem_of_find?_eq_some lookup, id.trans provider.symm, ?_⟩
  intro dispute tables abstracts evidence
  constructor
  · obtain ⟨known, _, auto⟩ := @autoAdjudicate_evidence _ _ dispute
      61000000 tables attempt unanswered
      (fun result member _ => List.all_eq_true.mp hashable result member)
      evidence
    rw [auto]
    cases known with
    | none => rfl
    | some => rw [autoVerdict, if_pos silent]
  · cases quorum : evaluateQuorum (moved.attempts.map attemptResult) moved.job.redundancy with
    | error =>
      rw [quorum] at winner
      cases winner
    | ok =>
      rw [quorum] at winner
      have named : dispute.jobId.isNone = false := by
        rw [abstracts.jobId]
        rfl
      rw [quorumRevote_verdict named quorum, Option.some.inj winner,
        abstracts.providerId, provider, submittedHash, lookup]
      cases hash : attempt.outputHash with
      | none =>
        rw [Option.map_some, hash]
        rfl
      | _ =>
        rw [hash] at silent
        cases silent

end Gridix.Disputes
