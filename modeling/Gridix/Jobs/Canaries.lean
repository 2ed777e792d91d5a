import Gridix.Jobs.Penalties

/-!
# Canaries and honest failures

A canary is decided by its first recorded result, and the decision revisits
every earlier attempt: whoever held the canary before and let it lapse is
slashed along with a wrong answer.
-/

namespace Gridix

open List Serial

/-- The disputes opened are all of one kind. -/
def OpensOnly (books moved : Books) (Kind : Dispute → Prop) : Prop :=
  ∃ opened, moved.disputes = books.disputes ++ opened ∧ ∀ dispute ∈ opened, Kind dispute

section

variable {settings : Settings} {order : RowOrder} {clock : Clock}
  {record moved : JobRecord} {books middle movedBooks : Books}
  {Kind Wider : Dispute → Prop}

theorem OpensOnly.nothing (disputes : movedBooks.disputes = books.disputes) :
    OpensOnly books movedBooks Kind :=
  ⟨[], by rw [disputes, append_nil], nofun⟩

theorem OpensOnly.mono (opens : OpensOnly books movedBooks Kind)
    (wider : ∀ dispute, Kind dispute → Wider dispute) :
    OpensOnly books movedBooks Wider := by
  obtain ⟨opened, disputes, all⟩ := opens
  exact ⟨opened, disputes, fun dispute mem => wider dispute (all dispute mem)⟩

theorem OpensOnly.trans (first : OpensOnly books middle Kind)
    (second : OpensOnly middle movedBooks Kind) :
    OpensOnly books movedBooks Kind := by
  obtain ⟨opened, disputes, all⟩ := first
  obtain ⟨more, moreDisputes, allMore⟩ := second
  refine ⟨opened ++ more, ?_, ?_⟩
  · rw [moreDisputes, disputes, append_assoc]
  · intro dispute mem
    rcases mem_append.mp mem with early | late
    · exact all dispute early
    · exact allMore dispute late

theorem maybeFinalize_opensOnly (ok : maybeFinalize settings order clock record books =
      .ok (moved, movedBooks)) :
    OpensOnly books movedBooks fun dispute =>
      dispute.jobId = record.job.id ∧ ∃ attempt ∈ record.finishedAttempts,
          attempt.providerId = dispute.providerId := by
  unfold maybeFinalize at ok
  split_ifs at ok with closed enough
  · cases ok
    exact .nothing rfl
  · obtain ⟨_, _, ⟨opened, disputes, about⟩, _⟩ := finalize_judges (Bool.not_eq_true _ ▸ closed) ok
    refine ⟨opened, disputes, ?_⟩
    intro _ mem
    have subject := mem_map_of_mem (f := Dispute.subject) mem
    rw [about] at subject
    obtain ⟨attempt, chosen, same⟩ := mem_map.mp subject
    simp only [Dispute.subject, Prod.mk.injEq] at same
    exact ⟨same.2.1.symm, attempt, (order.perm _).mem_iff.mp (mem_filter.mp chosen).1, same.1⟩
  · cases ok
    exact .nothing rfl

theorem markSeen_disputes (books : Books) (providerId : Uuid) (now : Int) :
    (markSeen books providerId now).disputes = books.disputes := by
  unfold markSeen
  split <;> rfl

end

def Slashable (system : System) (dispute : Dispute) : Operation → Prop
  | .submitResult _ clock providerId jobId request =>
    dispute.jobId = jobId ∧ ∃ record recorded, system.record? jobId = some record ∧
        Recorded clock providerId request record recorded ∧
        ∃ attempt ∈ recorded.finishedAttempts, attempt.providerId = dispute.providerId
  | .reapExpiredAttempts _ _ _ _ =>
    ∃ record, system.record? dispute.jobId = some record ∧ 1 < record.job.redundancy
  | _ => False

section

variable {settings : Settings} {system moved : System} {now : Int} {order : RowOrder}

theorem onJob_opensOnly {Kind : Dispute → Prop} {jobId : Uuid}
    {event : JobRecord → Books → Except Raised (JobRecord × Books)}
    (effect : ∀ record movedRecord books, system.record? jobId = some record →
      event record system.books = .ok (movedRecord, books) → OpensOnly system.books books Kind)
    (ok : system.onJob jobId event = .ok moved) :
    OpensOnly system.books moved.books Kind := by
  obtain ⟨record, movedRecord, books, found, code, rfl⟩ := onJob_ok ok
  exact effect record movedRecord books found code

theorem reclaimWhere_disputes {transitioned : Int} {selected : Job → Bool}
    (ok : reclaimWhere settings now transitioned selected system = .ok moved) :
    moved.books = system.books := by
  obtain ⟨_, _, ok⟩ := bind_eq_ok.mp ok
  cases ok
  rfl

theorem finalizeById_opensOnly {clock : Clock} {jobId : Uuid}
    (ok : finalizeById settings order clock system jobId = .ok moved) :
    OpensOnly system.books moved.books fun dispute =>
      dispute.jobId = jobId := by
  rcases finalizeById_cases ok with ⟨_, rfl⟩ | ⟨_, _, _, found, code, rfl⟩
  · exact .nothing rfl
  · refine (maybeFinalize_opensOnly code).mono fun dispute kind => ?_
    rw [kind.1, id_of_record? found]

theorem reapExpiredAttempts_opensOnly {clock : Clock} {visit : List Uuid}
    (ok : reapExpiredAttempts settings order clock now visit system = .ok moved) :
    OpensOnly system.books moved.books fun dispute =>
      ∃ record, system.record? dispute.jobId = some record ∧ 1 < record.job.redundancy := by
  unfold reapExpiredAttempts at ok
  refine @Serial.foldlM_invariant System Raised Uuid
    (fun state => OpensOnly system.books state.books _) _ _ _ moved ?_ ?_ ok
  · intro _ _ _ mem opens code
    refine opens.trans ((finalizeById_opensOnly code).mono ?_)
    rintro dispute rfl
    have lapsed := (mem_filter.mp mem).2
    cases found : system.record? dispute.jobId with
    | none =>
      rw [found] at lapsed
      cases lapsed
    | some record =>
      rw [found] at lapsed
      simp only [Option.any_some, hasLapsedAttempt, Bool.and_eq_true, decide_eq_true_eq] at lapsed
      exact ⟨record, rfl, lapsed.1.2⟩
  · exact .nothing rfl

theorem Operation.perform_opensOnly {operation : Operation}
    (jobPath : ∀ books, operation ≠ .elsewhere books)
    (ok : operation.perform settings system = .ok moved) :
    OpensOnly system.books moved.books fun dispute =>
      Slashable system dispute operation := by
  cases operation with
  | submitJob => rcases submitJob_cases ok with rfl | ⟨_, rfl⟩ <;> exact .nothing rfl
  | createCanaryJob =>
    obtain ⟨_, rfl⟩ := createCanaryJob_ok ok
    exact .nothing rfl
  | assignProviders =>
    refine onJob_opensOnly ?_ ok
    intro _ _ _ _ code
    rw [(assignProviders_ok code).1]
    exact .nothing rfl
  | heartbeat =>
    refine onJob_opensOnly ?_ ok
    intro _ _ _ _ code
    obtain ⟨_, _, code⟩ := bind_eq_ok.mp code
    cases code
    exact .nothing (markSeen_disputes _ _ _)
  | reportStatus =>
    refine onJob_opensOnly ?_ ok
    intro _ _ _ _ code
    obtain ⟨_, _, code⟩ := bind_eq_ok.mp code
    obtain ⟨_, _, code⟩ := bind_eq_ok.mp code
    cases code
    exact .nothing (markSeen_disputes _ _ _)
  | submitResult =>
    refine onJob_opensOnly ?_ ok
    intro record _ _ found code
    obtain ⟨recorded, ⟨recording, _, _⟩, finalised⟩ := submitResult_ready code
    refine (maybeFinalize_opensOnly finalised).mono ?_
    rintro _ ⟨sameJob, attempt, mem, sameProvider⟩
    refine ⟨?_, record, recorded, found, recording, attempt, mem, sameProvider⟩
    rw [sameJob, congrArg JobTerms.id recording.terms, id_of_record? found]
  | reapExpiredLeases | drainUnreachableProviders =>
    rw [reclaimWhere_disputes ok]
    exact .nothing rfl
  | reapExpiredAttempts => exact reapExpiredAttempts_opensOnly ok
  | elsewhere books => exact absurd rfl (jobPath books)

end

/-- A system with the operations that succeeded so far. -/
abbrev Traced := System × List Operation

def Operation.traced (settings : Settings) (operation : Operation) (state : Traced) : Traced :=
  match operation.perform settings state.1 with
  | .ok moved => (moved, state.2 ++ [operation])
  | .error _ => state

/-- The provider submitted a result for the job that neither timed out nor
exited with an error. -/
def Answered (log : List Operation) (providerId jobId : Uuid) : Prop := ∃ order clock request,
    .submitResult order clock providerId jobId request ∈ log ∧
    request.timedOut = false ∧ request.exitCode = 0

/-- A result for a canary is an answer, and all attempts finished before are
of the same provider. -/
def AnswersAlone (record : JobRecord) : JobEvent → Prop
  | .submitResult _ _ providerId request =>
    record.job.kind = .canary → request.timedOut = false ∧ request.exitCode = 0 ∧
        ∀ attempt ∈ record.attempts, attempt.finished = true → attempt.providerId = providerId
  | _ => True

section

variable {settings : Settings} {record : JobRecord} {rows : Ledger}

theorem traced_fst (operation : Operation) (state : Traced) : (operation.traced settings state).1 =
      operation.step settings state.1 := by
  unfold Operation.traced Operation.step transact
  cases operation.perform settings state.1 <;> rfl

theorem reaches_of_traced {state : Traced} {condition : JobRecord → JobEvent → Prop}
    (reached : Reaches (Operation.traced settings) (fun state => Permits settings condition state.1)
      (fun state => state.1.Initial ∧ state.2 = []) state) :
    Reaches (Operation.step settings) (Permits settings condition) System.Initial state.1 := by
  induction reached with
  | start initial => exact .start initial.1
  | step _ operation permitted reached =>
    rw [traced_fst]
    exact .step reached operation permitted

theorem canarySingle_preserved : Preserved settings (fun _ _ => True) fun record _ =>
      record.job.kind = .canary → record.job.redundancy = 1 := by
  intro _ _ _ _ _ single _ ok
  obtain ⟨_, posts⟩ := JobEvent.perform_posts ok
  rw [congrArg JobTerms.kind posts.terms, congrArg JobTerms.redundancy posts.terms]
  exact single

theorem Created.canarySingle (creation : Created settings record rows) :
    record.job.kind = .canary → record.job.redundancy = 1 := by
  cases creation with
  | submitted => nofun
  | canary => exact fun _ => rfl

theorem Created.numbered (creation : Created settings record rows) : Numbered record := by
  cases creation <;> exact nodup_nil

theorem Recorded.finished_cases {clock : Clock} {providerId : Uuid} {request : AgentResultRequest}
    {recorded : JobRecord} (recording : Recorded clock providerId request record recorded)
    (numbered : Numbered record) {attempt : JobAttempt}
    (mem : attempt ∈ recorded.finishedAttempts) :
    attempt.providerId = providerId ∨ attempt ∈ record.attempts ∧ attempt.finished = true := by
  obtain ⟨here, finished⟩ := mem_filter.mp mem
  obtain ⟨_, _, found, attempts⟩ := recording.attempts
  obtain ⟨latestPresent, mine, _⟩ := mem_of_providerAttempt found
  rw [attempts] at here
  obtain ⟨_, sourcePresent, rfl⟩ := mem_updateAttempt.mp here
  split_ifs at finished ⊢ with same
  · cases inj_on_of_nodup_map numbered sourcePresent latestPresent same
    exact Or.inl mine
  · exact Or.inr ⟨sourcePresent, finished⟩

/-- As long as results on canaries are answers that meet no attempt of somebody
else, a canary slashes only a provider who answered it. -/
theorem canary_slashes_answers {state : Traced} (reached : Reaches (Operation.traced settings)
      (fun state => Permits settings AnswersAlone state.1)
      (fun state => state.1.Initial ∧ state.2 = []) state) {operation : Operation}
    (permitted : Permits settings AnswersAlone state.1 operation)
    (jobPath : ∀ books, operation ≠ .elsewhere books) {moved : System}
    (success : operation.perform settings state.1 = .ok moved) :
    OpensOnly state.1.books moved.books fun dispute =>
      ∀ record, state.1.record? dispute.jobId = some record → record.job.kind = .canary →
        Answered (state.2 ++ [operation]) dispute.providerId dispute.jobId := by
  have untraced : Reaches (Operation.step settings)
      (Permits settings fun _ _ => True) System.Initial state.1 :=
    (reaches_of_traced reached).mono fun _ _ _ _ _ _ => trivial
  refine (Operation.perform_opensOnly jobPath success).mono ?_
  intro dispute slashable record found canary
  cases operation with
  | submitResult order clock providerId _ request =>
    obtain ⟨rfl, _, _, present, recording, attempt, member, sameProvider⟩ := slashable
    cases found.symm.trans present
    have clean := permitted dispute.jobId record found
    simp only [Operation.event, id_of_record? found] at clean
    obtain ⟨inTime, exitZero, alone⟩ := clean canary
    have numbered : Numbered record := reaches_everyJob
      (fun _ _ => Created.numbered) (numbered_preserved settings)
      untraced found
    have own : dispute.providerId = providerId := by
      rw [← sameProvider]
      rcases recording.finished_cases numbered member with mine | ⟨before, finished⟩
      · exact mine
      · exact alone attempt before finished
    rw [own]
    exact ⟨order, clock, request, mem_append_right _ (mem_singleton.mpr rfl), inTime, exitZero⟩
  | reapExpiredAttempts =>
    obtain ⟨_, present, _⟩ := slashable
    cases found.symm.trans present
    have single := reaches_everyJob (fun _ _ => Created.canarySingle)
      canarySingle_preserved untraced found canary
    omega
  | _ => cases slashable

end

def canaryAssigned : List Operation :=
  [.createCanaryJob 0 1 "ok" 0, .assignProviders 1 (.of [5]) 0]

def wrongAnswer : Operation := answer 5 (.str "wrong")

def canaryStart : Traced := (⟨[], .ofProviders [5, 6]⟩, [])

theorem canary_slashes_answers_wrongAnswer : ∃ moved, wrongAnswer.perform .default (Serial.run
        (Operation.traced .default) canaryAssigned canaryStart).1 = .ok moved ∧
      OpensOnly (Serial.run (Operation.traced .default) canaryAssigned
          canaryStart).1.books moved.books fun dispute =>
        ∀ record, (Serial.run (Operation.traced .default) canaryAssigned
            canaryStart).1.record? dispute.jobId = some record →
          record.job.kind = .canary →
          Answered ((Serial.run (Operation.traced .default) canaryAssigned
            canaryStart).2 ++ [wrongAnswer]) dispute.providerId dispute.jobId := by
  have permitted : AllPermitted (Operation.traced .default)
      (fun state => Permits .default AnswersAlone state.1) canaryAssigned
      canaryStart := by
    refine ⟨fun _ _ _ => trivial, ?_, trivial⟩
    intro _ _ _
    simp only [Operation.event]
    split_ifs <;> trivial
  have start : Reaches (Operation.traced .default)
      (fun state => Permits .default AnswersAlone state.1)
      (fun state => state.1.Initial ∧ state.2 = []) canaryStart :=
    .start ⟨⟨rfl, forall_mem_nil _⟩, rfl⟩
  have reached := start.run permitted
  have unfinished : ((Serial.run (Operation.traced .default)
      canaryAssigned canaryStart).1.records.all fun record =>
        record.attempts.all fun attempt => !attempt.finished) = true := by
    decide +kernel
  obtain ⟨moved, success, _⟩ := exists_ok (fun _ => true) (show (wrongAnswer.perform .default
    (Serial.run (Operation.traced .default) canaryAssigned canaryStart).1).toOption.any _ = true by
      decide +kernel)
  refine ⟨moved, success, canary_slashes_answers reached ?_ (fun _ same => by cases same) success⟩
  intro _ record found
  simp only [wrongAnswer, answer, Operation.event]
  split_ifs
  · refine fun _ => ⟨rfl, rfl, fun attempt member finished => ?_⟩
    have none := all_eq_true.mp (all_eq_true.mp unfinished
      record (mem_of_find?_eq_some found)) attempt member
    rw [finished] at none
    cases none
  · trivial

def lapsedRun : List Operation := canaryAssigned ++ [.reapExpiredLeases 1000000000 1000000000,
      .assignProviders 1 (.of [6]) 1000000000,
      .submitResult .stored ⟨1000000000, 1000000000, 1000000000, 1000000000⟩ 6 1
        (cleanResult (.str "ok"))]

def Operation.answers (providerId jobId : Uuid) : Operation → Bool
  | .submitResult _ _ provider job request =>
    provider == providerId && job == jobId && !request.timedOut && request.exitCode == 0
  | _ => false

theorem Answered.any {log : List Operation} {providerId jobId : Uuid}
    (answered : Answered log providerId jobId) :
    log.any (Operation.answers providerId jobId) = true := by
  obtain ⟨_, _, _, mem, inTime, exitZero⟩ := answered
  refine any_eq_true.mpr ⟨_, mem, ?_⟩
  simp [Operation.answers, inTime, exitZero]

theorem lapsed_canary_slashed : ∃ state : Traced,
      Reaches (Operation.traced .default) (fun _ _ => True)
        (fun state => state.1.Initial ∧ state.2 = []) state ∧
      state.1.books.disputes.map Dispute.subject = [(5, 1, .canaryFail)] ∧
      ¬ Answered state.2 5 1 := by
  refine ⟨Serial.run (Operation.traced .default) lapsedRun canaryStart, ?_, by decide +kernel, ?_⟩
  · apply Reaches.run (.start ⟨⟨rfl, forall_mem_nil _⟩, rfl⟩)
    simp [lapsedRun, canaryAssigned, AllPermitted]
  · intro answered
    have found := answered.any
    have none : (Serial.run (Operation.traced .default) lapsedRun
        canaryStart).2.any (Operation.answers 5 1) = false := by
      decide +kernel
    cases found

end Gridix
