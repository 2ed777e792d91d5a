import Gridix.Jobs.Runs

/-!
# Coherence of single-provider jobs

The status, the assigned provider and the lease of a job are columns of one
table and its attempts are rows of another.  For a job of redundancy one they
agree: it is in flight exactly while it has one unfinished attempt, which is
the latest one and belongs to the assigned provider.
-/

namespace Gridix

open List Serial

def JobRecord.openAttempts (record : JobRecord) : List JobAttempt :=
  record.attempts.filter fun attempt => !attempt.finished

section

variable {record : JobRecord} {number : Nat}
  {update : JobAttempt → JobAttempt} {attempt : JobAttempt}

theorem mem_openAttempts : attempt ∈ record.openAttempts ↔
      attempt ∈ record.attempts ∧ attempt.finished = false := by
  simp [JobRecord.openAttempts]

theorem openAttempts_update (same : ∀ attempt, (update attempt).finished = attempt.finished) :
    (record.updateAttempt number update).openAttempts = record.openAttempts.map fun attempt =>
        if attempt.attemptNumber = number then update attempt
        else attempt := by
  unfold JobRecord.openAttempts JobRecord.updateAttempt
  rw [filter_map]
  congr 1
  apply filter_congr
  intro _ _
  simp only [Function.comp_apply]
  split_ifs
  · rw [same]
  · rfl

theorem openAttempts_finish (finishes : ∀ attempt, (update attempt).finished = true) :
    (record.updateAttempt number update).openAttempts = record.openAttempts.filter fun attempt =>
        attempt.attemptNumber ≠ number := by
  unfold JobRecord.openAttempts JobRecord.updateAttempt
  rw [filter_map, filter_filter]
  conv_rhs => rw [← map_id (List.filter _ record.attempts)]
  have selected : ∀ attempt ∈ record.attempts,
      ((fun attempt : JobAttempt => !attempt.finished) ∘ fun attempt =>
        if attempt.attemptNumber = number then update attempt
        else attempt) attempt =
      (decide (attempt.attemptNumber ≠ number) && !attempt.finished) := by
    intro attempt _
    by_cases here : attempt.attemptNumber = number
    · simp [here, finishes]
    · simp [here]
  rw [filter_congr selected]
  apply map_congr_left
  intro _ mem
  have test := (mem_filter.mp mem).2
  simp only [Bool.and_eq_true, decide_eq_true_eq] at test
  rw [if_neg test.1, id_eq]

end

structure Holding (record : JobRecord) (attempt : JobAttempt) : Prop where
  only : record.openAttempts = [attempt]
  provider : record.job.assignedProviderId = some attempt.providerId
  lease : record.job.leaseExpiresAt.isSome = true
  latest : ∀ other ∈ record.attempts, other.attemptNumber ≤ attempt.attemptNumber

structure Coherent (record : JobRecord) : Prop where
  inFlight : record.job.status.inFlight = true → ∃ attempt, Holding record attempt
  queued : record.job.status = .queued → record.job.assignedProviderId = none ∧
      record.job.leaseExpiresAt = none ∧ record.openAttempts = []
  terminal : record.job.status.isTerminal = true →
    record.job.leaseExpiresAt = none ∧ record.openAttempts = []

/-- The provider is the one assigned to the job in flight. -/
def JobRecord.HeldBy (record : JobRecord) (providerId : Uuid) : Prop :=
  record.job.status.inFlight = true ∧ record.job.assignedProviderId = some providerId

section

variable {settings : Settings} {order : RowOrder} {clock : Clock}
  {record moved : JobRecord} {books movedBooks : Books}
  {providerId : Uuid} {now : Int} {attempt : JobAttempt} {found : JobAttempt}
  {candidates : Candidates}

theorem Holding.coherent (inFlight : record.job.status.inFlight = true)
    (holding : Holding record attempt) : Coherent record where
  inFlight _ := ⟨attempt, holding⟩
  queued queued := by
    rw [queued] at inFlight
    cases inFlight
  terminal closed := by
    rw [inFlight_open inFlight] at closed
    cases closed

theorem Coherent.closed (closed : record.job.status.isTerminal = true)
    (lease : record.job.leaseExpiresAt = none)
    (nobody : record.openAttempts = []) : Coherent record where
  inFlight inFlight := by
    rw [inFlight_open inFlight] at closed
    cases closed
  queued queued := by
    rw [queued] at closed
    cases closed
  terminal _ := ⟨lease, nobody⟩

theorem Holding.providerAttempt (holding : Holding record attempt)
    (owned : record.providerAttempt providerId = some found) :
    found = attempt ∧ attempt.providerId = providerId := by
  obtain ⟨mem, provider, unfinished⟩ := mem_of_providerAttempt owned
  have listed := mem_openAttempts.mpr ⟨mem, unfinished⟩
  rw [holding.only, mem_singleton] at listed
  exact ⟨listed, listed ▸ provider⟩

theorem Holding.updated {update : JobAttempt → JobAttempt} (holding : Holding record attempt)
    (attempts : moved.attempts = (record.updateAttempt attempt.attemptNumber update).attempts)
    (number : ∀ attempt, (update attempt).attemptNumber = attempt.attemptNumber)
    (provider : ∀ attempt, (update attempt).providerId = attempt.providerId)
    (finished : ∀ attempt, (update attempt).finished = attempt.finished)
    (assigned : moved.job.assignedProviderId = record.job.assignedProviderId)
    (lease : moved.job.leaseExpiresAt.isSome = true) :
    Holding moved (update attempt) where
  only := by
    have same : moved.openAttempts = (record.updateAttempt
        attempt.attemptNumber update).openAttempts := by
      rw [JobRecord.openAttempts, attempts, JobRecord.openAttempts]
    rw [same, openAttempts_update finished, holding.only]
    simp
  provider := by rw [assigned, provider, holding.provider]
  lease := lease
  latest := by
    intro _ mem
    rw [attempts] at mem
    obtain ⟨source, here, rfl⟩ := mem_map.mp mem
    have before := holding.latest source here
    split_ifs <;> simpa [number] using before

theorem Job.wanted_single {job : Job} (single : job.redundancy = 1) : job.wanted = 1 := by
  unfold Job.wanted
  split_ifs
  · exact single
  · rfl

theorem assignProviders_single (single : record.job.redundancy = 1)
    (ok : assignProviders settings candidates now record books = .ok (moved, movedBooks)) :
    moved = record ∨ record.job.status = .queued ∧ moved.job.status = .assigned ∧ ∃ primary lease,
        candidates.ids.head? = some primary ∧
        moved.job.assignedProviderId = some primary ∧
        moved.job.leaseExpiresAt = some lease ∧
        moved.attempts = record.attempts ++ newAttempts record.maxNumber [primary] lease := by
  unfold assignProviders at ok
  rw [Job.wanted_single single] at ok
  split_ifs at ok with queued
  · cases ok
    exact .inl rfl
  · split at ok
    · cases ok
      exact .inl rfl
    · rename_i primary others chosen
      obtain ⟨_, legal, ok⟩ := bind_eq_ok.mp ok
      cases ok
      obtain ⟨_, rfl⟩ := transition_ok legal
      have alone : others = [] ∧ candidates.ids.head? = some primary := by
        cases ids : candidates.ids with
        | nil =>
          rw [ids] at chosen
          cases chosen
        | cons =>
          rw [ids] at chosen
          cases chosen
          exact ⟨rfl, rfl⟩
      obtain ⟨rfl, first⟩ := alone
      exact .inr ⟨not_not.mp queued, stamp_status _ _ _, primary, _, first, rfl, rfl, rfl⟩

theorem coherent_assign (coherent : Coherent record) (single : record.job.redundancy = 1)
    (ok : assignProviders settings candidates now record books = .ok (moved, movedBooks)) :
    Coherent moved := by
  rcases assignProviders_single single ok with
    rfl | ⟨queued, assigned, primary, lease, _, provider, leased, attempts⟩
  · exact coherent
  · have nobody := (coherent.queued queued).2.2
    let attempt : JobAttempt :=
      ⟨primary, record.maxNumber + 1, .assigned, some lease, none, none, none, none⟩
    have new : newAttempts record.maxNumber [primary] lease = [attempt] := rfl
    rw [new] at attempts
    apply @Holding.coherent moved attempt (by rw [assigned]; rfl)
    refine ⟨?_, provider, by rw [leased]; rfl, ?_⟩
    · rw [JobRecord.openAttempts, attempts, filter_append]
      exact congrArg (· ++ _) nobody
    · intro _ mem
      rw [attempts] at mem
      rcases mem_append.mp mem with old | new
      · exact (attemptNumber_le_maxNumber old).trans (Nat.le_add_right _ _)
      · rw [mem_singleton.mp new]

theorem Coherent.owned (coherent : Coherent record)
    (owned : ownedInFlight record providerId = .ok found) :
    Holding record found ∧ record.HeldBy providerId := by
  obtain ⟨here, inFlight⟩ := ownedInFlight_ok owned
  obtain ⟨_, holding⟩ := coherent.inFlight inFlight
  obtain ⟨rfl, provider⟩ := holding.providerAttempt here
  exact ⟨holding, inFlight, provider ▸ holding.provider⟩

theorem startRunning_columns {job started : Job} (ok : startRunning job now = .ok started) :
    started.assignedProviderId = job.assignedProviderId ∧
      started.leaseExpiresAt = job.leaseExpiresAt := by
  unfold startRunning at ok
  split_ifs at ok
  · obtain ⟨_, rfl⟩ := transition_ok ok
    exact ⟨rfl, rfl⟩
  · cases ok
    exact ⟨rfl, rfl⟩

theorem coherent_reportStatus (coherent : Coherent record)
    (ok : reportStatus providerId now record books = .ok (moved, movedBooks)) :
    Coherent moved ∧ moved.job.assignedProviderId = record.job.assignedProviderId := by
  obtain ⟨_, owned, ok⟩ := bind_eq_ok.mp ok
  obtain ⟨_, started, ok⟩ := bind_eq_ok.mp ok
  cases ok
  obtain ⟨holding, inFlight, _⟩ := coherent.owned owned
  obtain ⟨provider, lease⟩ := startRunning_columns started
  have running := (startRunning_ok inFlight started).2
  refine ⟨Holding.coherent ?_ (holding.updated rfl ?_ ?_ ?_ provider ?_), provider⟩
  · rw [running]
    rfl
  · exact fun _ => rfl
  · exact fun _ => rfl
  · exact fun _ => rfl
  · rw [lease]
    exact holding.lease

theorem decideJob_lease {job decided : Job} {attempts : List JobAttempt} {outcome : QuorumOutcome}
    {paid : Option Uuid} (ok : decideJob job attempts outcome now = .ok (decided, paid)) :
    decided.leaseExpiresAt = none := by
  by_cases reached : outcome.reached = true
  · obtain ⟨_, _, _, _, rfl, rfl⟩ := decideJob_reached reached ok
    rfl
  · obtain ⟨rfl, rfl⟩ := decideJob_unreached (Bool.not_eq_true _ ▸ reached) ok
    split_ifs <;> rfl

theorem coherent_finalised (single : record.job.redundancy = 1) (nobody : record.openAttempts = [])
    (some : record.attempts ≠ []) (running : record.job.status = .running)
    (ok : maybeFinalize settings order clock record books = .ok (moved, movedBooks)) :
    Coherent moved ∧ moved.job.status.isTerminal = true := by
  rcases maybeFinalize_ok ok with ⟨_, _, terminal | few⟩ | ⟨_, _, _, _, resolved⟩
  · rw [running] at terminal
    cases terminal
  · exfalso
    have finished : record.finishedAttempts = record.attempts := by
      rw [JobRecord.finishedAttempts, filter_eq_self]
      intro _ mem
      by_contra unfinished
      have listed := mem_openAttempts.mpr ⟨mem, Bool.not_eq_true _ ▸ unfinished⟩
      rw [nobody] at listed
      cases listed
    rw [finished, single] at few
    exact some (length_eq_zero_iff.mp (Nat.lt_one_iff.mp few))
  · obtain ⟨_, attempts, terminal, _⟩ := resolved.facts
    refine ⟨.closed terminal ?_ ?_, terminal⟩
    · obtain ⟨_, decision, _, _⟩ := resolved
      have lease := decideJob_lease decision
      exact lease
    · rw [JobRecord.openAttempts, attempts]
      exact nobody

theorem coherent_submitResult {request : AgentResultRequest}
    (coherent : Coherent record) (single : record.job.redundancy = 1)
    (ok : submitResult settings order clock providerId request record
      books = .ok (moved, movedBooks)) :
    Coherent moved ∧ moved.job.status.isTerminal = true := by
  obtain ⟨recorded, ⟨recording, _, _⟩, finalised⟩ := submitResult_ready ok
  obtain ⟨found, valid, owned, attempts⟩ := recording.attempts
  obtain ⟨_, holding⟩ := coherent.inFlight recording.inFlight
  obtain ⟨rfl, _⟩ := holding.providerAttempt owned
  refine coherent_finalised ?_ ?_ ?_ recording.running finalised
  · exact (congrArg JobTerms.redundancy recording.terms).trans single
  · have same : recorded.openAttempts = (record.updateAttempt found.attemptNumber fun attempt =>
          attempt.record clock request valid).openAttempts := by
      rw [JobRecord.openAttempts, attempts, JobRecord.openAttempts]
    rw [same, openAttempts_finish (fun _ => rfl), holding.only]
    simp
  · intro none
    have member := (mem_of_providerAttempt owned).1
    rw [attempts] at none
    rw [map_eq_nil_iff.mp none] at member
    cases member

theorem Holding.closeLatest (holding : Holding record attempt)
    (outcome : AttemptOutcome) (now : Int) :
    (record.closeLatest outcome now).openAttempts = [] := by
  have mem : attempt ∈ record.attempts := by
    apply (mem_openAttempts.mp _).1
    rw [holding.only]
    exact mem_singleton_self attempt
  unfold JobRecord.closeLatest
  cases found : record.latestAttempt with
  | none =>
    rw [argmax_eq_none.mp found] at mem
    cases mem
  | some latest =>
    have present := argmax_mem (Option.mem_def.mpr found)
    have number : latest.attemptNumber = attempt.attemptNumber :=
      Nat.le_antisymm (holding.latest latest present)
        (le_of_mem_argmax mem (Option.mem_def.mpr found))
    rw [openAttempts_finish (fun _ => rfl), holding.only, number]
    simp

theorem coherent_reclaim {transitioned : Int} (coherent : Coherent record)
    (ok : reclaimJob settings now transitioned record = .ok moved) :
    Coherent moved ∧ moved.job.status.inFlight = false := by
  obtain ⟨_, holding⟩ := coherent.inFlight (reclaimJob_ok ok).2.2.1
  unfold reclaimJob at ok
  split_ifs at ok
  · obtain ⟨_, legal, ok⟩ := bind_eq_ok.mp ok
    cases ok
    obtain ⟨_, rfl⟩ := transition_ok legal
    exact ⟨.closed rfl rfl (holding.closeLatest _ _), rfl⟩
  · obtain ⟨_, legal, ok⟩ := bind_eq_ok.mp ok
    cases ok
    obtain ⟨_, rfl⟩ := transition_ok legal
    exact ⟨⟨nofun, fun _ => ⟨rfl, rfl, holding.closeLatest _ _⟩, nofun⟩, rfl⟩

end

/-- The job is not assigned to the provider again. -/
def NotAssignedTo (jobId providerId : Uuid) (record : JobRecord) : JobEvent → Prop
  | .assign candidates _ => record.job.id = jobId → candidates.ids.head? ≠ some providerId
  | _ => True

section

variable {settings : Settings} {system : System} {jobId providerId : Uuid}
  {record moved : JobRecord} {books movedBooks : Books}

theorem JobEvent.perform_coherent {event : JobEvent}
    (coherent : Coherent record) (single : record.job.redundancy = 1)
    (ok : event.perform settings record books = .ok (moved, movedBooks)) :
    Coherent moved ∧ ∀ providerId, moved.HeldBy providerId → record.HeldBy providerId ∨
        ∃ candidates now, event = .assign candidates now ∧
          candidates.ids.head? = some providerId := by
  cases event with
  | idle =>
    cases ok
    exact ⟨coherent, fun _ held => .inl held⟩
  | assign candidates now =>
    refine ⟨coherent_assign coherent single ok, ?_⟩
    intro _ held
    rcases assignProviders_single single ok with rfl | ⟨_, _, _, _, first, provider, _⟩
    · exact .inl held
    · cases provider.symm.trans held.2
      exact .inr ⟨candidates, now, rfl, first⟩
  | heartbeat =>
    obtain ⟨kept, provider⟩ : Coherent moved ∧ moved.job.assignedProviderId =
        record.job.assignedProviderId := by
      obtain ⟨_, owned, ok⟩ := bind_eq_ok.mp ok
      cases ok
      obtain ⟨holding, inFlight, _⟩ := coherent.owned owned
      refine ⟨Holding.coherent inFlight (holding.updated rfl ?_ ?_ ?_ rfl rfl), rfl⟩ <;>
        exact fun _ => rfl
    have inFlight := (heartbeat_ok ok).2.1
    exact ⟨kept, fun _ held => .inl ⟨inFlight, provider ▸ held.2⟩⟩
  | reportStatus =>
    obtain ⟨kept, provider⟩ := coherent_reportStatus coherent ok
    have inFlight := (reportStatus_ok ok).2.1
    exact ⟨kept, fun _ held => .inl ⟨inFlight, provider ▸ held.2⟩⟩
  | submitResult =>
    obtain ⟨kept, terminal⟩ := coherent_submitResult coherent single ok
    refine ⟨kept, fun _ held => ?_⟩
    rw [inFlight_open held.1] at terminal
    cases terminal
  | reclaim =>
    rcases reclaim_ok ok with ⟨rfl, _⟩ | ⟨_, _, code⟩
    · exact ⟨coherent, fun _ held => .inl held⟩
    · obtain ⟨kept, grounded⟩ := coherent_reclaim coherent code
      refine ⟨kept, fun _ held => ?_⟩
      rw [held.1] at grounded
      cases grounded
  | reapAttempts =>
    rcases reapAttempts_ok ok with ⟨rfl, _⟩ | ⟨lapsed, _⟩
    · exact ⟨coherent, fun _ held => .inl held⟩
    · simp [hasLapsedAttempt, single] at lapsed

theorem coherent_preserved (settings : Settings) :
    Preserved settings (fun _ _ => True) fun record _ =>
      record.job.redundancy = 1 → Coherent record := by
  intro event record _ _ _ coherent _ ok single
  obtain ⟨_, posts⟩ := event.perform_posts ok
  have before : record.job.redundancy = 1 :=
    (congrArg JobTerms.redundancy posts.terms).symm.trans single
  exact (event.perform_coherent (coherent before) before ok).1

theorem coherent_created {rows : Ledger}
    (created : Created settings record rows) : Coherent record := by
  cases created <;> exact ⟨nofun, fun _ => ⟨rfl, rfl, rfl⟩, nofun⟩

def LetGo (providerId : Uuid) (record : JobRecord) : Prop :=
  record.job.redundancy = 1 ∧ Coherent record ∧ ¬record.HeldBy providerId

theorem letGo_preserved (settings : Settings) (jobId providerId : Uuid) :
    Preserved settings (NotAssignedTo jobId providerId) fun record _ =>
      record.job.id = jobId → LetGo providerId record := by
  intro event record _ _ _ letGo elsewhere ok isJob
  obtain ⟨_, posts⟩ := event.perform_posts ok
  have id : record.job.id = jobId := (congrArg JobTerms.id posts.terms).symm.trans isJob
  obtain ⟨single, coherent, notHeld⟩ := letGo id
  obtain ⟨kept, origin⟩ := event.perform_coherent coherent single ok
  refine ⟨(congrArg JobTerms.redundancy posts.terms).trans single, kept, ?_⟩
  intro held
  rcases origin providerId held with before | ⟨_, _, rfl, first⟩
  · exact notHeld before
  · exact elsewhere id first

theorem LetGo.refused (letGo : LetGo providerId record) : ownedInFlight record providerId =
      .error (.http 404 "Job not found.") := by
  unfold ownedInFlight
  cases found : record.providerAttempt providerId with
  | none => rfl
  | some =>
    exfalso
    obtain ⟨mem, _, unfinished⟩ := mem_of_providerAttempt found
    have listed := mem_openAttempts.mpr ⟨mem, unfinished⟩
    cases status : record.job.status.inFlight with
    | true =>
      obtain ⟨_, holding⟩ := letGo.2.1.inFlight status
      obtain ⟨rfl, rfl⟩ := holding.providerAttempt found
      exact letGo.2.2 ⟨status, holding.provider⟩
    | false =>
      have nobody : record.openAttempts = [] := by
        cases state : record.job.status with
        | queued => exact (letGo.2.1.queued state).2.2
        | assigned | running =>
          rw [state] at status
          cases status
        | _ => exact (letGo.2.1.terminal (by rw [state]; rfl)).2
      rw [nobody] at listed
      cases listed

/-- The provider's requests for the job are answered with 404. -/
structure Rejected (settings : Settings) (providerId jobId : Uuid) (system : System) : Prop where
  heartbeat : ∀ now, (Operation.heartbeat providerId jobId now).perform
    settings system = .error (.http 404 "Job not found.")
  reportStatus : ∀ now, (Operation.reportStatus providerId jobId now).perform settings system =
      .error (.http 404 "Job not found.")
  submitResult : ∀ order clock request,
    (Operation.submitResult order clock providerId jobId request).perform
      settings system = .error (.http 404 "Job not found.")

end

/-- A job of redundancy one is in flight exactly while its assigned provider has
its only unfinished attempt and a lease is set. -/
theorem single_provider_coherent {settings : Settings} {system : System} {jobId : Uuid}
    {record : JobRecord}
    (reached : Reaches (Operation.step settings) (fun _ _ => True) System.Initial system)
    (found : system.record? jobId = some record) (single : record.job.redundancy = 1) :
    (record.job.status.inFlight = true ↔ ∃ attempt, record.openAttempts = [attempt] ∧
        record.job.assignedProviderId = some attempt.providerId ∧
        record.job.leaseExpiresAt.isSome = true) ∧
    (record.job.status = .queued → record.job.assignedProviderId = none ∧
        record.job.leaseExpiresAt = none ∧ record.openAttempts = []) ∧
    (record.job.status.isTerminal = true →
      record.job.leaseExpiresAt = none ∧ record.openAttempts = []) ∧
    ∀ (operation : Operation) (now transitioned : Int) (reclaimed : System),
      operation.event settings system record = .reclaim now transitioned →
      operation.perform settings system = .ok reclaimed →
      ∀ providerId later, Reaches (Operation.step settings)
          (Permits settings (NotAssignedTo jobId providerId))
          (fun state => state = reclaimed) later →
        Rejected settings providerId jobId later := by
  have permitted : Reaches (Operation.step settings)
      (Permits settings fun _ _ => True) System.Initial system :=
    reached.mono fun _ _ _ _ _ _ => trivial
  have coherent : Coherent record := @reaches_everyJob settings _
      (fun record _ => record.job.redundancy = 1 → Coherent record) system
      jobId record (fun _ _ created _ => coherent_created created)
      (coherent_preserved settings) permitted found single
  refine ⟨?_, coherent.queued, coherent.terminal, ?_⟩
  · constructor
    · intro inFlight
      obtain ⟨attempt, holding⟩ := coherent.inFlight inFlight
      exact ⟨attempt, holding.only, holding.provider, holding.lease⟩
    · rintro ⟨_, only, _, _⟩
      cases state : record.job.status with
      | assigned | running => rfl
      | queued =>
        rw [(coherent.queued state).2.2] at only
        cases only
      | _ =>
        rw [(coherent.terminal (by rw [state]; rfl)).2] at only
        cases only
  · intro _ _ _ reclaimed isReclaim success providerId later onwards
    obtain ⟨moved, after, _, _, _, code, _⟩ :=
      (Operation.perform_projects success).follows jobId record found
    rw [isReclaim, JobEvent.perform, if_pos single] at code
    obtain ⟨_, reclaiming, code⟩ := bind_eq_ok.mp code
    cases code
    obtain ⟨kept, grounded⟩ := coherent_reclaim coherent reclaiming
    have letGo : LetGo providerId moved := by
      refine ⟨?_, kept, ?_⟩
      · have terms := (reclaimJob_ok reclaiming).1
        exact (congrArg JobTerms.redundancy terms).trans single
      · intro held
        rw [held.1] at grounded
        cases grounded
    obtain ⟨_, present, stillGone⟩ := @reaches_oneJob settings _
      (fun record _ => record.job.id = jobId → LetGo providerId record)
      later jobId moved (letGo_preserved settings jobId providerId)
      reclaimed after (fun _ => letGo) onwards
    have letGo := (stillGone (id_of_record? present))
    constructor
    · intro _
      simp [Operation.perform, System.onJob, present, Gridix.heartbeat,
        letGo.refused, Bind.bind, Except.bind]
    · intro _
      simp [Operation.perform, System.onJob, present, Gridix.reportStatus,
        letGo.refused, Bind.bind, Except.bind]
    · intro _ _ _
      simp [Operation.perform, System.onJob, present, Gridix.submitResult,
        letGo.refused, Bind.bind, Except.bind]

def assignedOnce : System := Serial.run (Operation.step .default)
    (assignedJob false 1 [5, 6]) System.empty

theorem single_provider_coherent_reassigned : ∃ reclaimed,
      (Operation.reapExpiredLeases (10 ^ 9) (10 ^ 9)).perform .default
        assignedOnce = .ok reclaimed ∧
      Rejected .default 5 1 ((Operation.assignProviders 1 (.of [6]) (10 ^ 9)).step
          .default reclaimed) := by
  obtain ⟨_, found, single, lapsed⟩ : ∃ record ∈ assignedOnce.record? 1,
      record.job.redundancy = 1 ∧ leaseLapsed (10 ^ 9) record.job = true := by
    decide +kernel
  obtain ⟨reclaimed, success, _⟩ := exists_ok (fun _ => true)
    (show ((Operation.reapExpiredLeases (10 ^ 9) (10 ^ 9)).perform .default
      assignedOnce).toOption.any _ = true by decide +kernel)
  refine ⟨reclaimed, success, ?_⟩
  have reached : Reaches (Operation.step .default)
      (fun _ _ => True) System.Initial assignedOnce := by
    apply Reaches.run (.start System.empty_initial)
    exact ⟨trivial, trivial, trivial⟩
  apply (single_provider_coherent reached found single).2.2.2
    (.reapExpiredLeases (10 ^ 9) (10 ^ 9)) (10 ^ 9) (10 ^ 9) reclaimed
    (if_pos lapsed) success
  have start : Reaches (Operation.step .default) (Permits .default (NotAssignedTo 1 5))
      (fun state => state = reclaimed) reclaimed := .start rfl
  apply start.step
  intro _ _ _
  simp only [Operation.event]
  split_ifs
  · exact fun _ => by decide
  · trivial

end Gridix
