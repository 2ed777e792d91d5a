import Gridix.Jobs.Votes

/-!
# Who is slashed

A finalisation opens a dispute for each finished attempt that did not win and
counts as cheating.
-/

namespace Gridix

open List Serial

def Books.knows (books : Books) (providerId : Uuid) : Bool :=
  books.providers.any fun provider => provider.id == providerId

def slashes (job : Job) (known : Uuid → Bool) (won : JobAttempt → Bool)
    (attempt : JobAttempt) : Bool :=
  known attempt.providerId && !won attempt && (job.kind == .canary ||
      (decide (1 < job.redundancy) && attempt.outcome == .completed))

def slashReason (job : Job) : SlashReason :=
  if job.kind == .canary then .canaryFail else .quorumDisagree

def Dispute.subject (dispute : Dispute) : Uuid × Uuid × SlashReason :=
  (dispute.providerId, dispute.jobId, dispute.reason)

def winnerKinds (job : Job) : List ReputationKind :=
  (if job.kind == .canary then .canaryPass else .jobSuccess) ::
    if 1 < job.redundancy then [.quorumAgree] else []

def loserKind (job : Job) (attempt : JobAttempt) : ReputationKind :=
  if job.kind == .canary then .canaryFail
  else if decide (1 < job.redundancy) && attempt.outcome == .completed then
    .quorumDisagree
  else honestReputation attempt.outcome

def recordedKinds (job : Job) (won : JobAttempt → Bool)
    (attempt : JobAttempt) : List ReputationKind :=
  if won attempt then winnerKinds job else [loserKind job attempt]

def recordedFor (job : Job) (known : Uuid → Bool) (won : JobAttempt → Bool)
    (attempt : JobAttempt) : List (Uuid × ReputationKind) :=
  if known attempt.providerId then
    (recordedKinds job won attempt).map (attempt.providerId, ·)
  else []

def ReputationEvent.subject (event : ReputationEvent) : Uuid × ReputationKind :=
  (event.providerId, event.kind)

/-- The disputes opened and the reputation events recorded; the same providers
are known. -/
structure Judges (books moved : Books) (slashed : List (Uuid × Uuid × SlashReason))
    (recorded : List (Uuid × ReputationKind)) : Prop where
  disputes : ∃ opened, moved.disputes = books.disputes ++ opened ∧
      opened.map Dispute.subject = slashed
  events : ∃ added, moved.events = books.events ++ added ∧
      added.map ReputationEvent.subject = recorded
  knows : moved.knows = books.knows

namespace Judges

variable {books middle moved : Books} {slashed further : List (Uuid × Uuid × SlashReason)}
  {recorded more : List (Uuid × ReputationKind)}

theorem refl (books : Books) : Judges books books [] [] :=
  ⟨⟨[], (append_nil _).symm, rfl⟩, ⟨[], (append_nil _).symm, rfl⟩, rfl⟩

theorem trans (first : Judges books middle slashed recorded)
    (second : Judges middle moved further more) :
    Judges books moved (slashed ++ further) (recorded ++ more) := by
  obtain ⟨⟨opened, disputes, about⟩, ⟨added, events, kinds⟩, knows⟩ := first
  obtain ⟨⟨later, moreDisputes, moreAbout⟩, ⟨extra, moreEvents, moreKinds⟩, stillKnows⟩ := second
  refine ⟨⟨opened ++ later, ?_, ?_⟩, ⟨added ++ extra, ?_, ?_⟩, stillKnows.trans knows⟩
  · rw [moreDisputes, disputes, append_assoc]
  · rw [map_append, about, moreAbout]
  · rw [moreEvents, events, append_assoc]
  · rw [map_append, kinds, moreKinds]

theorem drop_events (judges : Judges books moved slashed recorded) :
    (moved.events.drop books.events.length).map ReputationEvent.subject = recorded := by
  obtain ⟨_, ⟨_, events, about⟩, _⟩ := judges
  rw [events, drop_left, about]

end Judges

theorem provider?_isSome (books : Books) (providerId : Uuid) :
    (books.provider? providerId).isSome = books.knows providerId := by
  rw [Books.provider?, Books.knows, isSome_find?]

theorem setProvider_knows (books : Books) (provider : Provider) :
    (books.setProvider provider).knows = books.knows := by
  funext providerId
  unfold Books.knows Books.setProvider
  rw [any_map]
  congr 1
  funext other
  simp only [Function.comp_apply]
  split_ifs with same
  · rw [same]
  · rfl

variable {settings : Settings} {books moved : Books} {now : Int}

theorem recordReputation_judges {providerId : Uuid} {provider : Provider}
    (found : books.provider? providerId = some provider) (kind : ReputationKind) (jobId : Uuid) :
    Judges books (recordReputation books providerId kind jobId) [] [(providerId, kind)] := by
  unfold recordReputation
  rw [found]
  exact ⟨⟨[], (append_nil _).symm, rfl⟩, ⟨_, rfl, rfl⟩, setProvider_knows books _⟩

theorem openDispute_judges {providerId : Uuid} {amount : Int} {reason : SlashReason} {jobId : Uuid}
    (ok : openDispute settings books providerId amount reason jobId now = .ok moved) :
    Judges books moved [(providerId, jobId, reason)] [] := by
  unfold openDispute at ok
  dsimp only at ok
  split_ifs at ok with pos
  · rw [postTransaction_transfer _ _ _ _ _ _ _ (Int.le_of_lt pos)] at ok
    cases ok
    exact ⟨⟨_, rfl, rfl⟩, ⟨[], (append_nil _).symm, rfl⟩, rfl⟩
  · cases ok
    exact ⟨⟨_, rfl, rfl⟩, ⟨[], (append_nil _).symm, rfl⟩, rfl⟩

theorem applyOutcome_judges {job : Job} {attempt : JobAttempt} {won : JobAttempt → Bool}
    (ok : applyOutcome settings job attempt (won attempt) now books = .ok moved) :
    Judges books moved (if slashes job books.knows won attempt then
        [(attempt.providerId, job.id, slashReason job)] else [])
      (recordedFor job books.knows won attempt) := by
  have known := provider?_isSome books attempt.providerId
  unfold applyOutcome at ok
  unfold slashes recordedFor
  rw [← known]
  split at ok
  · rename_i missing
    cases ok
    rw [missing]
    exact .refl books
  · rename_i provider found
    have id : provider.id = attempt.providerId := by simpa using List.find?_some found
    rw [found, Option.isSome_some, if_pos rfl, recordedKinds]
    rw [id] at ok
    cases winner : won attempt with
    | true =>
      rw [winner] at ok
      cases ok
      simp only [Bool.not_true, Bool.and_false, Bool.false_and, Bool.false_eq_true, if_false,
        if_true, winnerKinds]
      generalize (if job.kind == .canary then ReputationKind.canaryPass
        else .jobSuccess) = kind
      have first := recordReputation_judges found kind job.id
      split_ifs
      · obtain ⟨_, again⟩ := Option.isSome_iff_exists.mp ((provider?_isSome _ _).trans
          ((congrFun first.knows _).trans (known.symm.trans (by rw [found]; rfl))))
        exact first.trans (recordReputation_judges again _ _)
      · exact first
    | false =>
      rw [winner] at ok
      have first := recordReputation_judges found (loserKind job attempt) job.id
      unfold slashReason
      rw [loserKind] at first ⊢
      cases canary : job.kind == .canary with
      | true =>
        simp only [canary] at ok first ⊢
        exact first.trans (openDispute_judges ok)
      | false =>
        simp only [canary, Bool.false_or, Bool.false_eq_true, if_false, Bool.not_false,
          Bool.true_and] at ok first ⊢
        split_ifs at ok first ⊢
        · exact first.trans (openDispute_judges ok)
        · cases ok
          exact first

theorem outcomes_judge {job : Job} {attempts : List JobAttempt} {won : JobAttempt → Bool}
    (ok : attempts.foldlM (fun books attempt =>
      applyOutcome settings job attempt (won attempt) now books) books = .ok moved) :
    Judges books moved ((attempts.filter (slashes job books.knows won)).map fun attempt =>
        (attempt.providerId, job.id, slashReason job))
      (attempts.flatMap (recordedFor job books.knows won)) := by
  induction attempts generalizing books with
  | nil =>
    cases ok
    exact .refl _
  | cons _ _ ih =>
    rw [foldlM_cons, bind_eq_ok] at ok
    obtain ⟨_, head, tail⟩ := ok
    have first := applyOutcome_judges head
    have second := ih tail
    rw [first.knows] at second
    have both := first.trans second
    rw [filter_cons]
    split_ifs at both ⊢ <;> exact both

def wins (outcome : QuorumOutcome) (attempt : JobAttempt) : Bool :=
  outcome.agreers.contains attempt.providerId && outcome.reached

theorem finalize_judges {order : RowOrder} {clock : Clock} {record moved : JobRecord}
    {movedBooks : Books} (unresolved : record.job.status.isTerminal = false)
    (ok : finalize settings order clock record books = .ok (moved, movedBooks)) :
    ∃ outcome, evaluateQuorum ((order.shuffle record.finishedAttempts).map attemptResult)
        record.job.redundancy = .ok outcome ∧
      Judges books movedBooks (((order.shuffle record.finishedAttempts).filter
          (slashes record.job books.knows (wins outcome))).map
            fun attempt => (attempt.providerId, record.job.id, slashReason record.job))
        ((order.shuffle record.finishedAttempts).flatMap
          (recordedFor record.job books.knows (wins outcome))) := by
  unfold finalize at ok
  rw [if_neg (by simp [unresolved])] at ok
  obtain ⟨outcome, quorum, ok⟩ := bind_eq_ok.mp ok
  obtain ⟨⟨decided, _⟩, decision, ok⟩ := bind_eq_ok.mp ok
  obtain ⟨_, folded, ok⟩ := bind_eq_ok.mp ok
  obtain ⟨terms, _⟩ := decideJob_ok decision
  have kind := congrArg JobTerms.kind terms
  have redundancy := congrArg JobTerms.redundancy terms
  have judges := @outcomes_judge settings books _ _ decided _ (wins outcome) folded
  have slashed : slashes decided books.knows (wins outcome) =
      slashes record.job books.knows (wins outcome) := by
    funext attempt
    rw [slashes, slashes, kind, redundancy]
  have recorded : recordedFor decided books.knows (wins outcome) =
      recordedFor record.job books.knows (wins outcome) := by
    funext attempt
    simp only [recordedFor, recordedKinds, winnerKinds, loserKind, kind, redundancy]
  rw [slashed, recorded, slashReason, kind, congrArg JobTerms.id terms] at judges
  refine ⟨outcome, quorum, ?_⟩
  split at ok
  · cases ok
  · cases ok
    exact ⟨judges.disputes, judges.events, judges.knows⟩

/-- The quorum was reached, and the provider's completed attempt carries
another hash than the winning one. -/
def DissentsFromMajority (attempts : List JobAttempt) (redundancy : Nat)
    (providerId : Uuid) : Prop :=
  ∃ outcome, evaluateQuorum (attempts.map attemptResult) redundancy = .ok outcome ∧
    outcome.reached = true ∧
    ∃ attempt ∈ attempts, attempt.providerId = providerId ∧ attempt.outcome = .completed ∧
      attempt.outputHash.isNone = false ∧
      attempt.outputHash.key ≠ outcome.winningHash

/-- Some hash has a majority and every completed attempt of a known provider
carries a hash, or there is no such attempt. -/
def MajorityOrNobody (record : JobRecord) (books : Books) : Prop :=
  (∃ key, record.job.redundancy / 2 + 1 ≤ votes (record.finishedAttempts.map attemptResult) key) ∧
    (∀ attempt ∈ record.finishedAttempts, books.knows attempt.providerId = true →
      attempt.outcome = .completed → attempt.outputHash.isNone = false) ∨
  ∀ attempt ∈ record.finishedAttempts,
    books.knows attempt.providerId = true → attempt.outcome ≠ .completed

section

variable {settings : Settings} {order : RowOrder} {clock : Clock}
  {record moved : JobRecord} {books movedBooks : Books} {attempt : JobAttempt}

theorem slashes_redundant_iff {job : Job} {known : Uuid → Bool} {won : JobAttempt → Bool}
    (several : 1 < job.redundancy) (standard : job.kind ≠ .canary) :
    slashes job known won attempt = true ↔ known attempt.providerId = true ∧ won attempt = false ∧
        attempt.outcome = .completed := by
  simp [slashes, several, standard, and_assoc]

theorem wins_iff {attempts : List JobAttempt} {outcome : QuorumOutcome} {winning : Py.Key}
    (distinct : (attempts.map JobAttempt.providerId).Nodup) (equal : winning ≠ .nan)
    (reached : outcome.reached = true)
    (agreers : outcome.agreers = ((attempts.map attemptResult).filter
      (AttemptResult.agrees winning)).map AttemptResult.providerId) (mem : attempt ∈ attempts) :
    wins outcome attempt = true ↔ attempt.outputHash.key = some winning ∧
        attempt.outcome = .completed := by
  simp only [wins, reached, Bool.and_true, contains_eq_mem, decide_eq_true_eq, agreers]
  constructor
  · intro agrees
    obtain ⟨_, chosen, same⟩ := mem_map.mp agrees
    obtain ⟨mapped, agreeing⟩ := mem_filter.mp chosen
    obtain ⟨_, here, rfl⟩ := mem_map.mp mapped
    cases inj_on_of_nodup_map distinct here mem same
    simpa [AttemptResult.agrees, attemptResult, equal] using agreeing
  · rintro ⟨carries, completed⟩
    refine mem_map.mpr ⟨attemptResult attempt, mem_filter.mpr ⟨mem_map_of_mem mem, ?_⟩, rfl⟩
    simp [AttemptResult.agrees, attemptResult, carries, completed, equal]

theorem mem_opened_iff {subjects : List (Uuid × Uuid × SlashReason)}
    {recorded : List (Uuid × ReputationKind)}
    (judges : Judges books movedBooks subjects recorded) {subject : Uuid × Uuid × SlashReason} :
    (∃ dispute ∈ movedBooks.disputes.drop books.disputes.length,
      dispute.subject = subject) ↔ subject ∈ subjects := by
  obtain ⟨⟨_, disputes, about⟩, _⟩ := judges
  rw [disputes, drop_left, ← about, mem_map]

section

variable {attempts : List JobAttempt} {won : JobAttempt → Bool}
  {recorded : List (Uuid × ReputationKind)}
  (several : 1 < record.job.redundancy)
  (standard : record.job.kind ≠ .canary)
  (judges : Judges books movedBooks
    ((attempts.filter (slashes record.job books.knows won)).map
      fun attempt => (attempt.providerId, record.job.id,
        slashReason record.job)) recorded)

include several standard judges

theorem dispute_of_lost {attempt : JobAttempt} (mem : attempt ∈ attempts)
    (known : books.knows attempt.providerId = true)
    (lost : won attempt = false) (completed : attempt.outcome = .completed) :
    ∃ dispute ∈ movedBooks.disputes.drop books.disputes.length, dispute.reason = .quorumDisagree ∧
      dispute.providerId = attempt.providerId := by
  have chosen : slashes record.job books.knows won attempt = true :=
    (slashes_redundant_iff several standard).mpr ⟨known, lost, completed⟩
  obtain ⟨dispute, new, about⟩ := (mem_opened_iff judges).mpr
    (mem_map_of_mem (mem_filter.mpr ⟨mem, chosen⟩))
  simp only [Dispute.subject, slashReason, Prod.mk.injEq] at about
  refine ⟨dispute, new, ?_, about.1⟩
  rw [about.2.2, if_neg (by simpa using standard)]

theorem lost_of_dispute {dispute : Dispute}
    (new : dispute ∈ movedBooks.disputes.drop books.disputes.length) :
    ∃ attempt ∈ attempts, attempt.providerId = dispute.providerId ∧
      books.knows attempt.providerId = true ∧
      won attempt = false ∧ attempt.outcome = .completed := by
  obtain ⟨attempt, chosen, about⟩ := mem_map.mp ((mem_opened_iff judges).mp ⟨dispute, new, rfl⟩)
  obtain ⟨mem, slash⟩ := mem_filter.mp chosen
  exact ⟨attempt, mem, congrArg Prod.fst about, (slashes_redundant_iff several standard).mp slash⟩

end

/-- Only dissent from a reached majority is slashed exactly when there is a
majority to dissent from. -/
theorem only_dissent_slashed_iff (unresolved : record.job.status.isTerminal = false)
    (several : 1 < record.job.redundancy) (standard : record.job.kind ≠ .canary)
    (distinct : (record.attempts.map JobAttempt.providerId).Nodup)
    (success : finalize settings order clock record books = .ok (moved, movedBooks)) :
    (∀ dispute ∈ movedBooks.disputes.drop books.disputes.length, dispute.reason = .quorumDisagree →
      DissentsFromMajority (order.shuffle record.finishedAttempts)
        record.job.redundancy dispute.providerId) ↔
    MajorityOrNobody record books := by
  obtain ⟨outcome, quorum, judges⟩ := finalize_judges unresolved success
  have defined := finalize_defined unresolved success quorum
  have perm := order.perm record.finishedAttempts
  have distinctFinished : ((order.shuffle record.finishedAttempts).map
      JobAttempt.providerId).Nodup := by
    rw [(perm.map _).nodup_iff]
    exact distinct.sublist (filter_sublist.map _)
  have count : ∀ key, votes ((order.shuffle record.finishedAttempts).map attemptResult)
        key = votes (record.finishedAttempts.map attemptResult) key :=
    fun key => (perm.map attemptResult).countP_eq _
  constructor
  · intro only
    rcases evaluateQuorum_ok quorum with ⟨rfl, _⟩ | ⟨winning, reached, many, notNone, agreers, hash⟩
    · refine Or.inr ?_
      intro _ member known completed
      obtain ⟨dispute, new, reason, _⟩ := dispute_of_lost several standard
        judges (perm.mem_iff.mpr member) known rfl completed
      obtain ⟨_, again, reached, _⟩ := only dispute new reason
      cases quorum.symm.trans again
      cases reached
    · refine Or.inl ⟨⟨winning, count winning ▸ many⟩, ?_⟩
      intro attempt member known completed
      have present := perm.mem_iff.mpr member
      by_contra silent
      rw [Bool.not_eq_false] at silent
      have lost : wins outcome attempt = false := by
        rw [← Bool.not_eq_true, wins_iff distinctFinished (fun nan => defined (nan ▸ hash)) reached
          agreers present]
        rintro ⟨carries, _⟩
        cases hash : attempt.outputHash with
        | none =>
          rw [hash] at carries
          exact notNone (Option.some.inj carries).symm
        | _ =>
          rw [hash] at silent
          cases silent
      obtain ⟨dispute, new, reason, same⟩ := dispute_of_lost several
        standard judges present known lost completed
      obtain ⟨_, _, _, _, voterMember, voterId, _, spoke, _⟩ := only dispute new reason
      cases inj_on_of_nodup_map distinctFinished voterMember present (voterId.trans same)
      rw [silent] at spoke
      cases spoke
  · rintro condition _ new _
    obtain ⟨attempt, member, id, known, lost, completed⟩ :=
      lost_of_dispute several standard judges new
    have finished := perm.mem_iff.mp member
    rcases condition with ⟨⟨key, _⟩, spoke⟩ | nobody
    · rcases evaluateQuorum_ok quorum with ⟨_, few⟩ | ⟨_, reached, _, _, agreers, winningHash⟩
      · have less := few key
        rw [count key] at less
        omega
      · refine ⟨outcome, quorum, reached, attempt, member, id, completed,
          spoke attempt finished known completed, ?_⟩
        rw [winningHash]
        intro carries
        have won := (wins_iff distinctFinished (fun nan => defined (nan ▸ winningHash)) reached
          agreers member).mpr ⟨carries, completed⟩
        rw [lost] at won
        cases won
    · exact absurd completed (nobody attempt finished known)

end

def Books.ofProviders (ids : List Uuid) : Books :=
  { ledger := [], events := [], disputes := [], bandwidth := []
    providers := ids.map fun id =>
      { id := id, reputation := 50, lastSeen := none } }

def ballotRecord (ballots : List (Uuid × String)) : JobRecord :=
  { job := { newJob ((minuteRequest true ballots.length).terms
      .default 7 1 none) 0 with status := .running }
    attempts := ballots.mapIdx fun index (providerId, hash) =>
      { providerId := providerId, attemptNumber := index + 1,
        outcome := .completed, leaseExpiresAt := none, resultRef := none,
        proof := some (cleanResult (.str hash)).proof, startedAt := none,
        finishedAt := some 0 } }

def twoAgainstOne : JobRecord := ballotRecord [(5, "a"), (6, "a"), (8, "b")]

theorem only_dissent_slashed_iff_twoAgainstOne : ∃ moved movedBooks,
      finalize .default .stored ⟨0, 0, 0, 0⟩ twoAgainstOne (.ofProviders [5, 6, 8]) =
        .ok (moved, movedBooks) ∧
      ∀ dispute ∈ movedBooks.disputes, dispute.reason = .quorumDisagree →
        DissentsFromMajority twoAgainstOne.finishedAttempts 3 dispute.providerId := by
  obtain ⟨⟨moved, movedBooks⟩, success, _⟩ := exists_ok (fun _ => true) (show (finalize .default
    .stored ⟨0, 0, 0, 0⟩ twoAgainstOne (.ofProviders [5, 6, 8])).toOption.any _ = true by
      decide +kernel)
  refine ⟨moved, movedBooks, success, ?_⟩
  refine (only_dissent_slashed_iff rfl (by decide) (by decide)
    (by decide) success).mpr (Or.inl ⟨⟨.str "a", by decide⟩, ?_⟩)
  decide +kernel

def tieRun : List Operation :=
  assignedJob true 2 [5, 6] ++ [answer 5 (.str "a"), answer 6 (.str "b")]

theorem tie_slashes_everybody : ∃ system record,
      Reaches (Operation.step .default) (fun _ _ => True) System.Initial system ∧
      system.record? 1 = some record ∧
      record.job.kind = .standard ∧
      record.job.status = .failed ∧
      evaluateQuorum (record.finishedAttempts.map attemptResult) 2 = .ok .inconclusive ∧
      system.books.disputes.map Dispute.subject =
        [(5, 1, .quorumDisagree), (6, 1, .quorumDisagree)] := by
  have initial : System.Initial ⟨[], .ofProviders [5, 6]⟩ := ⟨rfl, nofun⟩
  exact exists_reached tieRun initial (by decide +kernel)

def Numbered (record : JobRecord) : Prop := (record.attempts.map JobAttempt.attemptNumber).Nodup

section

variable {settings : Settings} {record moved : JobRecord}
  {books movedBooks : Books}

theorem updateAttempt_numbers {number : Nat} {update : JobAttempt → JobAttempt}
    (same : ∀ attempt, (update attempt).attemptNumber = attempt.attemptNumber) :
    (record.updateAttempt number update).attempts.map JobAttempt.attemptNumber =
        record.attempts.map JobAttempt.attemptNumber := by
  rw [JobRecord.updateAttempt, map_map]
  refine map_congr_left fun attempt _ => ?_
  simp only [Function.comp_apply]
  split_ifs
  · exact same attempt
  · rfl

theorem Numbered.updated {number : Nat}
    {update : JobAttempt → JobAttempt} (numbered : Numbered record)
    (attempts : moved.attempts = (record.updateAttempt number update).attempts)
    (same : ∀ attempt, (update attempt).attemptNumber = attempt.attemptNumber) :
    Numbered moved := by
  rw [Numbered, attempts, updateAttempt_numbers same]
  exact numbered

theorem reclaimJob_numbers {now transitioned : Int}
    (ok : reclaimJob settings now transitioned record = .ok moved) :
    moved.attempts.map JobAttempt.attemptNumber = record.attempts.map JobAttempt.attemptNumber := by
  unfold reclaimJob at ok
  split_ifs at ok <;>
    · obtain ⟨_, _, ok⟩ := bind_eq_ok.mp ok
      cases ok
      unfold JobRecord.closeLatest
      split
      · rfl
      · exact updateAttempt_numbers fun _ => rfl

theorem markLapsed_numbers (now : Int) :
    (markLapsed now record).attempts.map JobAttempt.attemptNumber =
      record.attempts.map JobAttempt.attemptNumber := by
  rw [markLapsed, map_map]
  refine map_congr_left fun attempt _ => ?_
  simp only [Function.comp_apply]
  split_ifs <;> rfl

theorem maybeFinalize_attempts {order : RowOrder} {clock : Clock}
    (ok : maybeFinalize settings order clock record books = .ok (moved, movedBooks)) :
    moved.attempts = record.attempts := by
  rcases maybeFinalize_ok ok with ⟨rfl, _⟩ | ⟨_, _, _, _, resolved⟩
  · rfl
  · exact resolved.facts.2.1

theorem newAttempts_numbers (base : Nat) (providers : List Uuid) (lease : Int) :
    (newAttempts base providers lease).map JobAttempt.attemptNumber =
      (List.range providers.length).map fun index =>
        base + (index + 1) := by
  apply ext_getElem
  · simp
  · intro _ _ _
    simp [newAttempts]

theorem numbered_preserved (settings : Settings) :
    Preserved settings (fun _ _ => True) fun record _ =>
      Numbered record := by
  intro event _ _ _ _ numbered _ ok
  cases event with
  | idle =>
    cases ok
    exact numbered
  | assign =>
    obtain ⟨_, ⟨rfl, _⟩ | ⟨_, _, _, _, _, _, attempts⟩⟩ := assignProviders_ok ok
    · exact numbered
    · rw [Numbered, attempts, map_append, newAttempts_numbers, nodup_append]
      refine ⟨numbered, ?_, ?_⟩
      · refine nodup_range.map ?_
        intro _ _ same
        simpa using same
      · intro _ oldMember _ newMember _
        obtain ⟨_, here, rfl⟩ := mem_map.mp oldMember
        obtain ⟨_, _, rfl⟩ := mem_map.mp newMember
        have bound := attemptNumber_le_maxNumber here
        omega
  | heartbeat =>
    obtain ⟨_, _, _, _, _, _, _, attempts⟩ := heartbeat_ok ok
    exact numbered.updated attempts fun _ => rfl
  | reportStatus =>
    obtain ⟨_, _, _, _, _, _, attempts⟩ := reportStatus_ok ok
    exact numbered.updated attempts fun _ => rfl
  | submitResult =>
    obtain ⟨_, ⟨recording, _, _⟩, finalised⟩ := submitResult_ready ok
    obtain ⟨_, _, _, attempts⟩ := recording.attempts
    exact numbered.updated ((maybeFinalize_attempts finalised).trans attempts) fun _ => rfl
  | reclaim =>
    rcases reclaim_ok ok with ⟨rfl, _⟩ | ⟨_, _, code⟩
    · exact numbered
    · rw [Numbered, reclaimJob_numbers code]
      exact numbered
  | reapAttempts =>
    rcases reapAttempts_ok ok with ⟨rfl, _⟩ | ⟨_, finalised⟩
    · exact numbered
    · rw [Numbered, maybeFinalize_attempts finalised, markLapsed_numbers]
      exact numbered

end

end Gridix
