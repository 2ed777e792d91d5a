import Gridix.Jobs.Requests

/-!
# Runs of the job path, one job at a time

An operation acts on the whole system, but what it does to one job depends on
that job only: each operation amounts to one `JobEvent` per job.
-/

namespace Gridix

open List Serial

/-- The requests and ticks that touch jobs. -/
inductive Operation where
  | submitJob (request : SubmitJobRequest) (developerId jobId : Uuid)
      (key : Option String) (inputExists : Bool) (gate : Option UsdcGate)
      (now : Int)
  | createCanaryJob (systemDeveloperId jobId : Uuid) (expected : String) (now : Int)
  | assignProviders (jobId : Uuid) (candidates : Candidates) (now : Int)
  | heartbeat (providerId jobId : Uuid) (now : Int)
  | reportStatus (providerId jobId : Uuid) (now : Int)
  | submitResult (order : RowOrder) (clock : Clock)
      (providerId jobId : Uuid) (request : AgentResultRequest)
  | reapExpiredLeases (now transitioned : Int)
  | drainUnreachableProviders (now transitioned : Int)
  | reapExpiredAttempts (order : RowOrder) (clock : Clock) (now : Int) (visit : List Uuid)
  /-- Everything else the platform does meanwhile: the tables of providers,
  reputation, disputes and bandwidth change, and the ledger gains groups that
  belong to no job.  Rulings on disputes are apart: they post under the id of
  a job, and only once it has ended. -/
  | elsewhere (books : Books)

def System.onJob (system : System) (jobId : Uuid)
    (event : JobRecord → Books → Except Raised (JobRecord × Books)) :
    Except Raised System :=
  match system.record? jobId with
  | none => .error (.http 404 "Job not found.")
  | some record => do
      let (moved, books) ← event record system.books
      .ok (system.put moved books)

def Operation.perform (settings : Settings) : Operation → System → Except Raised System
  | .submitJob request developerId jobId key inputExists gate now, system =>
    Gridix.submitJob settings request developerId jobId key inputExists gate now system
  | .createCanaryJob systemDeveloperId jobId expected now, system =>
    Gridix.createCanaryJob systemDeveloperId jobId expected now system
  | .assignProviders jobId candidates now, system =>
    system.onJob jobId (Gridix.assignProviders settings candidates now)
  | .heartbeat providerId jobId now, system =>
    system.onJob jobId (Gridix.heartbeat settings providerId now)
  | .reportStatus providerId jobId now, system =>
    system.onJob jobId (Gridix.reportStatus providerId now)
  | .submitResult order clock providerId jobId request, system =>
    system.onJob jobId (Gridix.submitResult settings order clock providerId request)
  | .reapExpiredLeases now transitioned, system =>
    Gridix.reapExpiredLeases settings now transitioned system
  | .drainUnreachableProviders now transitioned, system =>
    Gridix.drainUnreachableProviders settings now transitioned system
  | .reapExpiredAttempts order clock now visit, system =>
    Gridix.reapExpiredAttempts settings order clock now visit system
  | .elsewhere books, system =>
    .ok { system with
      books := { books with
        ledger := system.books.ledger ++ books.ledger.filter fun group => group.jobId.isNone } }

def Operation.step (settings : Settings) (operation : Operation) (system : System) : System :=
  transact (operation.perform settings) system

/-- What an operation does to one job. -/
inductive JobEvent where
  | idle
  | assign (candidates : Candidates) (now : Int)
  | heartbeat (providerId : Uuid) (now : Int)
  | reportStatus (providerId : Uuid) (now : Int)
  | submitResult (order : RowOrder) (clock : Clock) (providerId : Uuid)
      (request : AgentResultRequest)
  | reclaim (now transitioned : Int)
  | reapAttempts (order : RowOrder) (clock : Clock) (now : Int)

def JobEvent.perform (settings : Settings) :
    JobEvent → JobRecord → Books → Except Raised (JobRecord × Books)
  | .idle, record, books => .ok (record, books)
  | .assign candidates now, record, books =>
    assignProviders settings candidates now record books
  | .heartbeat providerId now, record, books =>
    Gridix.heartbeat settings providerId now record books
  | .reportStatus providerId now, record, books =>
    Gridix.reportStatus providerId now record books
  | .submitResult order clock providerId request, record, books =>
    Gridix.submitResult settings order clock providerId request record books
  | .reclaim now transitioned, record, books =>
    if record.job.redundancy = 1 then do
      let moved ← reclaimJob settings now transitioned record
      .ok (moved, books)
    else .ok (record, books)
  | .reapAttempts order clock now, record, books =>
    if hasLapsedAttempt now record then
      maybeFinalize settings order clock (markLapsed now record) books
    else .ok (record, books)

/-- The part of an operation that concerns the job of `record`. -/
def Operation.event (settings : Settings) (system : System)
    (record : JobRecord) : Operation → JobEvent
  | .assignProviders jobId candidates now =>
    if jobId = record.job.id then .assign candidates now else .idle
  | .heartbeat providerId jobId now =>
    if jobId = record.job.id then .heartbeat providerId now else .idle
  | .reportStatus providerId jobId now =>
    if jobId = record.job.id then .reportStatus providerId now else .idle
  | .submitResult order clock providerId jobId request =>
    if jobId = record.job.id then
      .submitResult order clock providerId request
    else .idle
  | .reapExpiredLeases now transitioned =>
    if leaseLapsed now record.job then .reclaim now transitioned
    else .idle
  | .drainUnreachableProviders now transitioned =>
    if stranded settings now system.books record.job then
      .reclaim now transitioned
    else .idle
  | .reapExpiredAttempts order clock now _ =>
    if hasLapsedAttempt now record then .reapAttempts order clock now
    else .idle
  | _ => .idle

structure Quiet (record moved : JobRecord) : Prop where
  terms : moved.job.toJobTerms = record.job.toJobTerms
  unresolved : record.job.status.isTerminal = false
  undecided : moved.job.status ≠ .completed
  results : ∀ attempt ∈ moved.attempts, attempt.outcome = .completed →
    ∃ source ∈ record.attempts, source.outcome = .completed ∧
      attempt.proof = source.proof ∧ attempt.resultRef = source.resultRef

inductive Ready (record : JobRecord) : JobEvent → JobRecord → Prop where
  | recorded {order : RowOrder} {clock : Clock} {providerId : Uuid}
      {request : AgentResultRequest} {middle : JobRecord}
      (recording : Recorded clock providerId request record middle)
      (checks : resultRefChecks request = true)
      (results : ∀ attempt ∈ middle.attempts,
        attempt.outcome = .completed → attempt ∈ record.attempts ∨
          (verify record.job request).valid = true ∧ attempt.proof = some request.proof ∧
            attempt.resultRef = request.resultRef) :
      Ready record (.submitResult order clock providerId request) middle
  | marked {order : RowOrder} {clock : Clock} {now : Int}
      (lapsed : hasLapsedAttempt now record = true) :
      Ready record (.reapAttempts order clock now) (markLapsed now record)

structure JobEvent.Posts (record : JobRecord) (books : Books)
    (moved : JobRecord) (movedBooks : Books) (posted : Ledger) : Prop where
  terms : moved.job.toJobTerms = record.job.toJobTerms
  ledger : movedBooks.ledger = books.ledger ++ posted
  stamped : ∀ group ∈ posted, group.jobId = some record.job.id

section

variable {settings : Settings} {record moved : JobRecord}
  {books movedBooks : Books} {order : RowOrder} {now : Int}

theorem JobEvent.Posts.nothing (terms : moved.job.toJobTerms = record.job.toJobTerms)
    (ledger : movedBooks.ledger = books.ledger) :
    JobEvent.Posts record books moved movedBooks [] :=
  ⟨terms, by rw [ledger, append_nil], nofun⟩

theorem maybeFinalize_posts {clock : Clock}
    (ok : maybeFinalize settings order clock record books = .ok (moved, movedBooks)) :
    ∃ posted, JobEvent.Posts record books moved movedBooks posted := by
  rcases maybeFinalize_ok ok with ⟨rfl, rfl, _⟩ | ⟨_, _, posted, ledger, resolved⟩
  · exact ⟨[], .nothing rfl rfl⟩
  · obtain ⟨terms, _, _, stamped, _⟩ := resolved.facts
    exact ⟨posted, terms, ledger, stamped⟩

theorem reclaim_ok {transitioned : Int}
    (ok : JobEvent.perform settings (.reclaim now transitioned) record
      books = .ok (moved, movedBooks)) :
    moved = record ∧ movedBooks = books ∨ record.job.redundancy = 1 ∧ movedBooks = books ∧
        reclaimJob settings now transitioned record = .ok moved := by
  dsimp only [JobEvent.perform] at ok
  split_ifs at ok with single
  · obtain ⟨_, code, same⟩ := bind_eq_ok.mp ok
    cases same
    exact Or.inr ⟨single, rfl, code⟩
  · cases ok
    exact Or.inl ⟨rfl, rfl⟩

theorem reapAttempts_ok {clock : Clock}
    (ok : JobEvent.perform settings (.reapAttempts order clock now)
      record books = .ok (moved, movedBooks)) :
    moved = record ∧ movedBooks = books ∨ hasLapsedAttempt now record = true ∧
        maybeFinalize settings order clock (markLapsed now record) books =
          .ok (moved, movedBooks) := by
  dsimp only [JobEvent.perform] at ok
  split_ifs at ok with lapsed
  · exact Or.inr ⟨lapsed, ok⟩
  · cases ok
    exact Or.inl ⟨rfl, rfl⟩

theorem mem_updateAttempt {number : Nat} {update : JobAttempt → JobAttempt} {attempt : JobAttempt} :
    attempt ∈ (record.updateAttempt number update).attempts ↔ ∃ source ∈ record.attempts,
        (if source.attemptNumber = number then update source else source) = attempt :=
  mem_map

theorem hasLapsedAttempt_facts {record : JobRecord} (lapsed : hasLapsedAttempt now record = true) :
    record.job.status.inFlight = true ∧ record.job.redundancy ≠ 1 := by
  simp only [hasLapsedAttempt, Bool.and_eq_true, decide_eq_true_eq] at lapsed
  exact ⟨lapsed.1.1, Nat.ne_of_gt lapsed.1.2⟩

theorem verify_congr {job other : Job} (request : AgentResultRequest)
    (terms : job.toJobTerms = other.toJobTerms) :
    verify job request = verify other request := by
  unfold verify
  rw [congrArg JobTerms.kind terms, congrArg JobTerms.expectedOutputHash terms]

theorem submitResult_ready {clock : Clock} {providerId : Uuid} {request : AgentResultRequest}
    (ok : submitResult settings order clock providerId request record
      books = .ok (moved, movedBooks)) :
    ∃ middle, Ready record (.submitResult order clock providerId request) middle ∧
      maybeFinalize settings order clock middle books = .ok (moved, movedBooks) := by
  obtain ⟨attempt, owned, ok⟩ := bind_eq_ok.mp ok
  split_ifs at ok with checks
  obtain ⟨job, started, ok⟩ := bind_eq_ok.mp ok
  split_ifs at ok with storable
  obtain ⟨found, inFlight⟩ := ownedInFlight_ok owned
  obtain ⟨terms, running⟩ := startRunning_ok inFlight started
  refine ⟨record.recordAttempt job attempt.attemptNumber clock request,
    .recorded ⟨inFlight, terms, running, ⟨attempt, _, found, rfl⟩,
      AgentResultRequest.defined_of_storable storable⟩ checks ?_, ok⟩
  intro _ mem completed
  obtain ⟨_, here, rfl⟩ := mem_updateAttempt.mp mem
  split_ifs at completed ⊢
  · refine Or.inr ⟨?_, rfl, rfl⟩
    rw [← verify_congr request terms]
    by_contra invalid
    have outcome : attemptOutcome request (verify job request).valid = .completed := completed
    rw [attemptOutcome] at outcome
    split_ifs at outcome
  · exact Or.inl here

theorem JobEvent.perform_stages {event : JobEvent}
    (ok : event.perform settings record books = .ok (moved, movedBooks)) :
    (moved = record ∧ movedBooks.ledger = books.ledger) ∨
    (Quiet record moved ∧ movedBooks.ledger = books.ledger) ∨
    ∃ order clock middle, Ready record event middle ∧
      maybeFinalize settings order clock middle books = .ok (moved, movedBooks) := by
  cases event with
  | idle =>
    cases ok
    exact Or.inl ⟨rfl, rfl⟩
  | assign =>
    obtain ⟨rfl, ⟨rfl, _⟩ | ⟨queued, _, _, _, terms, status, attempts⟩⟩ := assignProviders_ok ok
    · exact Or.inl ⟨rfl, rfl⟩
    · refine Or.inr (Or.inl ⟨⟨terms, by rw [queued]; rfl,
        by rw [status]; nofun, ?_⟩, rfl⟩)
      intro attempt mem completed
      rw [attempts] at mem
      rcases mem_append.mp mem with old | new
      · exact ⟨attempt, old, completed, rfl, rfl⟩
      · rw [(mem_newAttempts new).2] at completed
        cases completed
  | heartbeat =>
    obtain ⟨ledger, inFlight, terms, status, _, _, _, attempts⟩ := heartbeat_ok ok
    refine Or.inr (Or.inl ⟨⟨terms, inFlight_open inFlight, ?_, ?_⟩, ledger⟩)
    · intro completed
      rw [← status, completed] at inFlight
      cases inFlight
    · intro _ mem completed
      rw [attempts] at mem
      obtain ⟨source, here, rfl⟩ := mem_updateAttempt.mp mem
      refine ⟨source, here, ?_⟩
      split_ifs at completed ⊢ <;> exact ⟨completed, rfl, rfl⟩
  | reportStatus =>
    obtain ⟨ledger, inFlight, terms, running, _, _, attempts⟩ := reportStatus_ok ok
    refine Or.inr (Or.inl ⟨⟨terms, inFlight_open inFlight,
      by rw [running]; nofun, ?_⟩, ledger⟩)
    intro _ mem completed
    rw [attempts] at mem
    obtain ⟨source, here, rfl⟩ := mem_updateAttempt.mp mem
    split_ifs at completed ⊢
    exact ⟨source, here, completed, rfl, rfl⟩
  | submitResult order clock =>
    obtain ⟨middle, ready, finalised⟩ := submitResult_ready ok
    exact Or.inr (Or.inr ⟨order, clock, middle, ready, finalised⟩)
  | reclaim =>
    rcases reclaim_ok ok with ⟨rfl, rfl⟩ | ⟨_, rfl, code⟩
    · exact Or.inl ⟨rfl, rfl⟩
    · obtain ⟨terms, status, inFlight, completed⟩ := reclaimJob_ok code
      refine Or.inr (Or.inl ⟨⟨terms, inFlight_open inFlight, ?_, ?_⟩, rfl⟩)
      · rcases status with ⟨_, failed⟩ | ⟨_, queued⟩
        · rw [failed]
          nofun
        · rw [queued]
          nofun
      · intro attempt mem done
        exact ⟨attempt, completed attempt mem done, done, rfl, rfl⟩
  | reapAttempts order clock =>
    rcases reapAttempts_ok ok with ⟨rfl, rfl⟩ | ⟨lapsed, finalised⟩
    · exact Or.inl ⟨rfl, rfl⟩
    · exact Or.inr (Or.inr ⟨order, clock, _, .marked lapsed, finalised⟩)

namespace Ready

variable {event : JobEvent} {middle : JobRecord}
  (ready : Ready record event middle)

include ready

theorem terms : middle.job.toJobTerms = record.job.toJobTerms := by
  cases ready with
  | recorded recording => exact recording.terms
  | marked => rfl

theorem inFlight : record.job.status.inFlight = true ∧ middle.job.status.inFlight = true := by
  cases ready with
  | recorded recording =>
    refine ⟨recording.inFlight, ?_⟩
    rw [recording.running]
    rfl
  | marked lapsed =>
    have inFlight := (hasLapsedAttempt_facts lapsed).1
    exact ⟨inFlight, inFlight⟩

end Ready

theorem JobEvent.perform_posts {event : JobEvent}
    (ok : event.perform settings record books = .ok (moved, movedBooks)) :
    ∃ posted, JobEvent.Posts record books moved movedBooks posted := by
  rcases JobEvent.perform_stages ok with
    ⟨rfl, ledger⟩ | ⟨quiet, ledger⟩ | ⟨_, _, middle, ready, finalised⟩
  · exact ⟨[], .nothing rfl ledger⟩
  · exact ⟨[], .nothing quiet.terms ledger⟩
  · obtain ⟨posted, posts⟩ := maybeFinalize_posts finalised
    refine ⟨posted, posts.terms.trans ready.terms, posts.ledger, ?_⟩
    rw [← congrArg JobTerms.id ready.terms]
    exact posts.stamped

end

theorem find?_of_forall₂ {left right : List JobRecord} (jobId : Uuid)
    {Related : JobRecord → JobRecord → Prop} (related : List.Forall₂ Related left right)
    (sameId : ∀ source target, Related source target → target.job.id = source.job.id) :
    (left.find? fun record => record.job.id == jobId) = none ∧
      (right.find? fun record => record.job.id == jobId) = none ∨
    ∃ source target, (left.find? fun record => record.job.id == jobId) = some source ∧
      (right.find? fun record => record.job.id == jobId) = some target ∧
      Related source target := by
  induction related with
  | nil => exact Or.inl ⟨rfl, rfl⟩
  | @cons source target _ _ head _ ih =>
    have same := sameId source target head
    by_cases here : source.job.id = jobId
    · refine Or.inr ⟨source, target, ?_, ?_, head⟩
      · simp [here]
      · simp [same, here]
    · simpa [same, here] using ih

section

variable {system : System} {record moved : JobRecord} {books : Books}
  {jobId : Uuid}

theorem id_of_record? (found : system.record? jobId = some record) : record.job.id = jobId := by
  simpa using List.find?_some found

theorem record?_put (found : system.record? jobId = some record) :
    (system.put moved books).record? jobId =
      some (if moved.job.id = jobId then moved else record) := by
  have related : List.Forall₂ (fun source target : JobRecord => target =
        if source.job.id = moved.job.id then moved else source)
      system.records (system.put moved books).records := by
    unfold System.put
    rw [forall₂_map_right_iff]
    exact forall₂_same.mpr fun _ _ => rfl
  have sameId : ∀ source target : JobRecord,
      (target = if source.job.id = moved.job.id then moved else source) →
        target.job.id = source.job.id := by
    rintro _ _ rfl
    split_ifs with same
    · exact same.symm
    · rfl
  have id := id_of_record? found
  rcases find?_of_forall₂ jobId related sameId with
    ⟨absent, _⟩ | ⟨source, target, before, after, rfl⟩
  · cases found.symm.trans absent
  · cases found.symm.trans before
    rw [id] at after
    refine after.trans ?_
    simp only [eq_comm]

theorem record?_put_none (absent : system.record? jobId = none) :
    (system.put moved books).record? jobId = none := by
  unfold System.record? System.put at *
  rw [List.find?_eq_none] at absent ⊢
  intro _ mem
  obtain ⟨source, here, rfl⟩ := mem_map.mp mem
  have other := absent source here
  split_ifs with same
  · rwa [same] at other
  · exact other

end

def Follows (settings : Settings) (event : JobEvent)
    (record moved : JobRecord) (ledger movedLedger : Ledger) : Prop :=
  ∃ books movedBooks, books.ledger.forJob record.job.id = ledger.forJob record.job.id ∧
    event.perform settings record books = .ok (moved, movedBooks) ∧
    movedLedger.forJob record.job.id = movedBooks.ledger.forJob record.job.id

inductive Created (settings : Settings) : JobRecord → Ledger → Prop where
  | submitted (request : SubmitJobRequest) (developerId jobId : Uuid)
      (key : Option String) (now : Int) :
      Created settings ⟨newJob (request.terms settings developerId jobId key) now, []⟩
        (escrowRows jobId developerId (escrowEstimate request.resourceSpec
          request.timeoutSeconds settings))
  | canary (systemDeveloperId jobId : Uuid) (expected : String) (now : Int) : Created settings
        ⟨newJob (canaryTerms systemDeveloperId jobId expected) now, []⟩ []

structure Projects (settings : Settings)
    (event : JobRecord → JobEvent) (system moved : System) : Prop where
  follows : ∀ jobId record, system.record? jobId = some record → ∃ movedRecord,
      moved.record? jobId = some movedRecord ∧
      Follows settings (event record) record movedRecord system.books.ledger moved.books.ledger
  created : ∀ jobId, system.record? jobId = none → moved.record? jobId = none ∧
      moved.books.ledger.forJob jobId = system.books.ledger.forJob jobId ∨
    ∃ record rows, moved.record? jobId = some record ∧ Created settings record rows ∧
      moved.books.ledger.forJob jobId = system.books.ledger.forJob jobId ++ rows

section

variable {settings : Settings} {system moved : System} {books : Books} {now : Int}
  {order : RowOrder}

theorem Follows.idle {record : JobRecord} {ledger movedLedger : Ledger}
    (same : movedLedger.forJob record.job.id = ledger.forJob record.job.id) :
    Follows settings .idle record record ledger movedLedger :=
  ⟨⟨ledger, [], [], [], []⟩, _, rfl, rfl, same⟩

theorem put_ok {jobId : Uuid} {target movedTarget : JobRecord} {posted : Ledger}
    (here : system.record? jobId = some target)
    (posts : JobEvent.Posts target system.books movedTarget books posted) :
    (∀ other record, system.record? other = some record → ∃ movedRecord,
        (system.put movedTarget books).record? other = some movedRecord ∧
        if jobId = record.job.id then
          record = target ∧ movedRecord = movedTarget
        else
          movedRecord = record ∧
          books.ledger.forJob record.job.id = system.books.ledger.forJob record.job.id) ∧
    (∀ other, system.record? other = none → (system.put movedTarget books).record? other = none ∧
      books.ledger.forJob other = system.books.ledger.forJob other) := by
  have targetId := id_of_record? here
  have movedId : movedTarget.job.id = jobId := by rw [congrArg JobTerms.id posts.terms, targetId]
  have unposted : ∀ other, jobId ≠ other → Ledger.forJob books.ledger other =
        Ledger.forJob system.books.ledger other := by
    intro _ ne
    rw [posts.ledger]
    exact Ledger.forJob_append_other (targetId ▸ posts.stamped) ne
  refine ⟨?_, ?_⟩
  · intro other _ found
    have otherId := id_of_record? found
    refine ⟨_, record?_put found, ?_⟩
    by_cases same : jobId = other
    · rw [if_pos (by rw [otherId, same]), if_pos (by rw [movedId, same])]
      subst same
      cases here.symm.trans found
      exact ⟨rfl, rfl⟩
    · rw [if_neg (otherId ▸ same), if_neg (movedId ▸ same)]
      exact ⟨rfl, otherId ▸ unposted other same⟩
  · intro other absent
    have ne : jobId ≠ other := by
      rintro rfl
      cases here.symm.trans absent
    exact ⟨record?_put_none absent, unposted other ne⟩

theorem onJob_ok {event : JobRecord → Books → Except Raised (JobRecord × Books)} {jobId : Uuid}
    (ok : system.onJob jobId event = .ok moved) :
    ∃ record movedRecord books, system.record? jobId = some record ∧
      event record system.books = .ok (movedRecord, books) ∧
      moved = system.put movedRecord books := by
  unfold System.onJob at ok
  split at ok
  · cases ok
  · rename_i record here
    obtain ⟨⟨movedRecord, books⟩, code, same⟩ := bind_eq_ok.mp ok
    cases same
    exact ⟨record, movedRecord, books, here, code, rfl⟩

theorem onJob_projects {event : JobEvent} {jobId : Uuid}
    (ok : system.onJob jobId (event.perform settings) = .ok moved) :
    Projects settings (fun record => if jobId = record.job.id then event else .idle)
      system moved := by
  obtain ⟨_, _, books, here, code, rfl⟩ := onJob_ok ok
  obtain ⟨_, posts⟩ := JobEvent.perform_posts code
  obtain ⟨others, unused⟩ := put_ok here posts
  refine ⟨?_, fun other absent => Or.inl (unused other absent)⟩
  intro other record found
  obtain ⟨movedRecord, after, effect⟩ := others other record found
  refine ⟨movedRecord, after, ?_⟩
  split_ifs at effect ⊢
  · obtain ⟨rfl, rfl⟩ := effect
    exact ⟨system.books, books, rfl, code, rfl⟩
  · obtain ⟨rfl, same⟩ := effect
    exact .idle same

theorem reclaimWhere_projects {transitioned : Int} {selected : Job → Bool}
    (single : ∀ job, selected job = true → job.redundancy = 1)
    (ok : reclaimWhere settings now transitioned selected system = .ok moved) :
    Projects settings (fun record => if selected record.job then .reclaim now transitioned
        else .idle) system moved := by
  obtain ⟨_, code, ok⟩ := bind_eq_ok.mp ok
  cases ok
  have sameId : ∀ source target : JobRecord,
      (if selected source.job then reclaimJob settings now transitioned
        source else .ok source) = .ok target →
      target.job.id = source.job.id := by
    intro _ _ moved
    split_ifs at moved
    · exact congrArg JobTerms.id (reclaimJob_ok moved).1
    · cases moved
      rfl
  refine ⟨?_, ?_⟩
  · intro jobId _ found
    rcases find?_of_forall₂ jobId (forall₂_of_mapM code) sameId with
      ⟨absent, _⟩ | ⟨source, target, before, after, moved⟩
    · cases found.symm.trans absent
    · cases found.symm.trans before
      refine ⟨target, after, ?_⟩
      split_ifs at moved ⊢ with chosen
      · refine ⟨system.books, system.books, rfl, ?_, rfl⟩
        dsimp only [JobEvent.perform]
        rw [if_pos (single _ chosen)]
        exact bind_eq_ok.mpr ⟨target, moved, rfl⟩
      · cases moved
        exact .idle rfl
  · intro jobId absent
    rcases find?_of_forall₂ jobId (forall₂_of_mapM code) sameId with
      ⟨_, after⟩ | ⟨source, target, before, _, _⟩
    · exact Or.inl ⟨after, rfl⟩
    · cases before.symm.trans absent

structure Visited (settings : Settings) (order : RowOrder) (clock : Clock)
    (jobIds : List Uuid) (record moved : JobRecord)
    (ledger movedLedger : Ledger) : Prop where
  inside : record.job.id ∈ jobIds → ∃ books movedBooks,
      books.ledger.forJob record.job.id = ledger.forJob record.job.id ∧
      maybeFinalize settings order clock record books = .ok (moved, movedBooks) ∧
      movedLedger.forJob record.job.id = movedBooks.ledger.forJob record.job.id
  outside : record.job.id ∉ jobIds → moved = record ∧
      movedLedger.forJob record.job.id = ledger.forJob record.job.id

theorem finalizeById_cases {clock : Clock} {jobId : Uuid}
    (ok : finalizeById settings order clock system jobId = .ok moved) :
    system.record? jobId = none ∧ moved = system ∨
      ∃ record movedRecord books, system.record? jobId = some record ∧
        maybeFinalize settings order clock record system.books = .ok (movedRecord, books) ∧
        moved = system.put movedRecord books := by
  unfold finalizeById at ok
  split at ok
  · rename_i missing
    cases ok
    exact .inl ⟨missing, rfl⟩
  · rename_i record here
    obtain ⟨⟨movedRecord, books⟩, code, same⟩ := bind_eq_ok.mp ok
    cases same
    exact .inr ⟨record, movedRecord, books, here, code, rfl⟩

theorem finalizeById_ok {clock : Clock} {jobId : Uuid}
    (ok : finalizeById settings order clock system jobId = .ok moved) :
    (∀ other record, system.record? other = some record → ∃ movedRecord,
        moved.record? other = some movedRecord ∧
        Visited settings order clock [jobId] record movedRecord
          system.books.ledger moved.books.ledger) ∧
    (∀ other, system.record? other = none → moved.record? other = none ∧
        moved.books.ledger.forJob other = system.books.ledger.forJob other) := by
  rcases finalizeById_cases ok with ⟨missing, rfl⟩ | ⟨_, _, books, present, code, rfl⟩
  · refine ⟨?_, fun _ absent => ⟨absent, rfl⟩⟩
    intro _ record found
    refine ⟨record, found, ?_⟩
    have ne : record.job.id ≠ jobId := by
      rintro rfl
      rw [id_of_record? found] at missing
      cases missing.symm.trans found
    refine ⟨?_, fun _ => ⟨rfl, rfl⟩⟩
    intro inside
    exact absurd (mem_singleton.mp inside) ne
  · obtain ⟨_, posts⟩ := maybeFinalize_posts code
    obtain ⟨others, unused⟩ := put_ok present posts
    refine ⟨?_, unused⟩
    intro other record found
    obtain ⟨movedRecord, after, effect⟩ := others other record found
    refine ⟨movedRecord, after, ?_⟩
    split_ifs at effect with here
    · obtain ⟨rfl, rfl⟩ := effect
      refine ⟨fun _ => ⟨system.books, books, rfl, code, rfl⟩, ?_⟩
      intro outside
      exact absurd (mem_singleton.mpr here.symm) outside
    · refine ⟨?_, fun _ => effect⟩
      intro inside
      exact absurd (mem_singleton.mp inside).symm here

theorem foldlM_finalizeById_ok {clock : Clock} {jobIds : List Uuid} (distinct : jobIds.Nodup)
    (ok : jobIds.foldlM (finalizeById settings order clock) system = .ok moved) :
    (∀ other record, system.record? other = some record → ∃ movedRecord,
        moved.record? other = some movedRecord ∧
        Visited settings order clock jobIds record movedRecord
          system.books.ledger moved.books.ledger) ∧
    (∀ other, system.record? other = none → moved.record? other = none ∧
        moved.books.ledger.forJob other = system.books.ledger.forJob other) := by
  induction jobIds generalizing system with
  | nil =>
    cases ok
    exact ⟨fun _ record found => ⟨record, found, nofun,
      fun _ => ⟨rfl, rfl⟩⟩, fun _ absent => ⟨absent, rfl⟩⟩
  | cons _ _ ih =>
    rw [foldlM_cons, bind_eq_ok] at ok
    obtain ⟨_, head, tail⟩ := ok
    obtain ⟨notAgain, restDistinct⟩ := nodup_cons.mp distinct
    obtain ⟨first, firstUnused⟩ := finalizeById_ok head
    obtain ⟨second, secondUnused⟩ := ih restDistinct tail
    refine ⟨?_, ?_⟩
    · intro other record found
      obtain ⟨visited, between, now⟩ := first other record found
      obtain ⟨final, after, later⟩ := second other visited between
      have id : visited.job.id = record.job.id := by rw [id_of_record? found, id_of_record? between]
      refine ⟨final, after, ?_, ?_⟩
      · intro inside
        rcases mem_cons.mp inside with here | inRest
        · obtain ⟨books, movedBooks, before, code, same⟩ := now.inside (mem_singleton.mpr here)
          obtain ⟨rfl, unchanged⟩ := later.outside (by rw [id, here]; exact notAgain)
          rw [id] at unchanged
          exact ⟨books, movedBooks, before, code, unchanged.trans same⟩
        · obtain ⟨rfl, unchanged⟩ := now.outside (by
            rw [mem_singleton]
            rintro here
            exact notAgain (here ▸ inRest))
          rw [← unchanged]
          exact later.inside inRest
      · intro outside
        rw [mem_cons, not_or] at outside
        obtain ⟨_, notRest⟩ := outside
        obtain ⟨rfl, unchanged⟩ := now.outside (by rwa [mem_singleton])
        obtain ⟨same, stillUnchanged⟩ := later.outside notRest
        exact ⟨same, stillUnchanged.trans unchanged⟩
    · intro other absent
      obtain ⟨between, unchanged⟩ := firstUnused other absent
      obtain ⟨after, same⟩ := secondUnused other between
      exact ⟨after, same.trans unchanged⟩

theorem find?_map (records : List JobRecord) {change : JobRecord → JobRecord}
    (sameId : ∀ record, (change record).job.id = record.job.id) (jobId : Uuid) :
    ((records.map change).find? fun record => record.job.id == jobId) =
      (records.find? fun record => record.job.id == jobId).map change := by
  have same : (fun record : JobRecord => record.job.id == jobId) ∘ change =
      fun record => record.job.id == jobId := by
    funext record
    simp [sameId]
  rw [List.find?_map, same]

theorem reapExpiredAttempts_projects {clock : Clock} {visit : List Uuid}
    (ok : reapExpiredAttempts settings order clock now visit system = .ok moved) :
    Projects settings (fun record => if hasLapsedAttempt now record then
        .reapAttempts order clock now else .idle) system moved := by
  have marking : ∀ record : JobRecord, (if hasLapsedAttempt now record then markLapsed now record
        else record).job.id = record.job.id := by
    intro _
    split_ifs <;> rfl
  obtain ⟨others, unused⟩ := foldlM_finalizeById_ok ((nodup_dedup _).filter _) ok
  refine ⟨?_, ?_⟩
  · intro jobId record found
    have id := id_of_record? found
    have listed : jobId ∈ ((visit ++ system.records.map fun record =>
        record.job.id).dedup.filter fun jobId =>
          (system.record? jobId).any (hasLapsedAttempt now)) ↔
        hasLapsedAttempt now record = true := by
      have here : jobId ∈ system.records.map fun record =>
          record.job.id :=
        mem_map.mpr ⟨record, mem_of_find?_eq_some found, id⟩
      simp [found, here]
    obtain ⟨movedRecord, after, visited⟩ := others jobId
      (if hasLapsedAttempt now record then markLapsed now record
        else record) (by
          unfold System.record? at found ⊢
          rw [find?_map system.records marking, found]
          rfl)
    refine ⟨movedRecord, after, ?_⟩
    split_ifs at visited ⊢ with lapsed
    · obtain ⟨books, movedBooks, before, code, same⟩ :=
        visited.inside (by
          change record.job.id ∈ _
          rw [id]
          exact listed.mpr lapsed)
      refine ⟨books, movedBooks, before, ?_, same⟩
      dsimp only [JobEvent.perform]
      rw [if_pos lapsed]
      exact code
    · obtain ⟨rfl, same⟩ := visited.outside (by
        rw [id, listed]
        exact lapsed)
      exact .idle same
  · intro jobId absent
    refine Or.inl (unused jobId ?_)
    unfold System.record? at absent ⊢
    rw [find?_map system.records marking, absent]
    rfl

/-- A new job and the groups that are posted for it. -/
def System.create (system : System) (fresh : JobRecord) (rows : Ledger) : System :=
  ⟨system.records ++ [fresh], { system.books with ledger := system.books.ledger ++ rows }⟩

theorem submitJob_cases {request : SubmitJobRequest} {developerId jobId : Uuid}
    {key : Option String} {inputExists : Bool} {gate : Option UsdcGate}
    (ok : submitJob settings request developerId jobId key inputExists
      gate now system = .ok moved) :
    moved = system ∨ system.record? jobId = none ∧
      moved = system.create ⟨newJob (request.terms settings developerId jobId key) now, []⟩
        (escrowRows jobId developerId (escrowEstimate request.resourceSpec
          request.timeoutSeconds settings)) := by
  unfold submitJob at ok
  dsimp only at ok
  split_ifs at ok with _ _ _ _ used
  · exact .inl (Except.ok.inj ok).symm
  · rw [holdEscrow_eq] at ok
    exact .inr ⟨Option.not_isSome_iff_eq_none.mp used, (Except.ok.inj ok).symm⟩

theorem createCanaryJob_ok {systemDeveloperId jobId : Uuid} {expected : String}
    (ok : createCanaryJob systemDeveloperId jobId expected now system = .ok moved) :
    system.record? jobId = none ∧ moved = system.create
      ⟨newJob (canaryTerms systemDeveloperId jobId expected) now, []⟩ [] := by
  unfold createCanaryJob at ok
  split_ifs at ok with used
  cases ok
  rw [System.create, append_nil]
  exact ⟨Option.not_isSome_iff_eq_none.mp used, rfl⟩

theorem record?_create {fresh : JobRecord} {rows : Ledger} {jobId : Uuid} :
    (system.create fresh rows).record? jobId = (system.record? jobId).or
        (if fresh.job.id = jobId then some fresh else none) := by
  unfold System.record? System.create
  by_cases same : fresh.job.id = jobId <;> simp [same]

theorem create_projects {fresh : JobRecord} {rows : Ledger}
    (unused : system.record? fresh.job.id = none) (creation : Created settings fresh rows) :
    Projects settings (fun _ => .idle) system (system.create fresh rows) := by
  have stamped : ∀ group ∈ rows, group.jobId = some fresh.job.id := by
    cases creation with
    | submitted => exact fun _ => jobId_of_mem_escrowRows _ _
    | canary => exact forall_mem_nil _
  refine ⟨?_, ?_⟩
  · intro _ record found
    have id := id_of_record? found
    refine ⟨record, by rw [record?_create, found]; rfl, .idle ?_⟩
    refine Ledger.forJob_append_other stamped ?_
    rintro same
    rw [same, id] at unused
    cases unused.symm.trans found
  · intro jobId absent
    by_cases same : fresh.job.id = jobId
    · refine Or.inr ⟨fresh, rows, ?_, creation, Ledger.forJob_append_own (same ▸ stamped)⟩
      rw [record?_create, absent, if_pos same]
      rfl
    · refine Or.inl ⟨?_, Ledger.forJob_append_other stamped same⟩
      rw [record?_create, absent, if_neg same]
      rfl

theorem Projects.idle (records : moved.records = system.records)
    (ledger : ∀ jobId, moved.books.ledger.forJob jobId = system.books.ledger.forJob jobId) :
    Projects settings (fun _ => .idle) system moved := by
  have same : ∀ jobId, moved.record? jobId = system.record? jobId := by
    intro _
    rw [System.record?, records, System.record?]
  refine ⟨?_, ?_⟩
  · intro jobId record found
    exact ⟨record, (same jobId).trans found, .idle (ledger _)⟩
  · intro jobId absent
    exact Or.inl ⟨(same jobId).trans absent, ledger jobId⟩

theorem Operation.perform_projects {operation : Operation}
    (ok : operation.perform settings system = .ok moved) :
    Projects settings (fun record => operation.event settings system record) system moved := by
  cases operation with
  | submitJob request developerId jobId key _ _ now =>
    rcases submitJob_cases ok with rfl | ⟨unused, rfl⟩
    · exact .idle rfl fun _ => rfl
    · exact create_projects unused (.submitted request developerId jobId key now)
  | createCanaryJob systemDeveloperId jobId expected now =>
    obtain ⟨unused, rfl⟩ := createCanaryJob_ok ok
    exact create_projects unused (.canary systemDeveloperId jobId expected now)
  | assignProviders jobId candidates now =>
    exact @onJob_projects settings system moved (.assign candidates now) jobId ok
  | heartbeat providerId jobId now =>
    exact @onJob_projects settings system moved (.heartbeat providerId now) jobId ok
  | reportStatus providerId jobId now =>
    exact @onJob_projects settings system moved (.reportStatus providerId now) jobId ok
  | submitResult order clock providerId jobId request =>
    exact @onJob_projects settings system moved
      (.submitResult order clock providerId request) jobId ok
  | reapExpiredLeases =>
    refine reclaimWhere_projects ?_ ok
    intro _ chosen
    simp only [leaseLapsed, Bool.and_eq_true, beq_iff_eq] at chosen
    exact chosen.1.2
  | drainUnreachableProviders =>
    refine reclaimWhere_projects ?_ ok
    intro _ chosen
    simp only [stranded, Bool.and_eq_true, beq_iff_eq] at chosen
    exact chosen.1.2
  | reapExpiredAttempts => exact reapExpiredAttempts_projects ok
  | elsewhere books =>
    cases ok
    refine .idle rfl fun jobId => ?_
    have nothing : Ledger.forJob (books.ledger.filter fun group =>
        group.jobId.isNone) jobId = [] := by
      rw [Ledger.forJob, filter_eq_nil_iff]
      intro _ mem
      have none := (mem_filter.mp mem).2
      rw [Option.isNone_iff_eq_none] at none
      simp [none]
    rw [Ledger.forJob_append, nothing, append_nil]

end

/-- The operation does to each job only what `condition` allows. -/
def Permits (settings : Settings) (condition : JobRecord → JobEvent → Prop) (system : System)
    (operation : Operation) : Prop :=
  ∀ jobId record, system.record? jobId = some record →
    condition record (operation.event settings system record)

/-- No job yet, and no posting for one. -/
def System.Initial (system : System) : Prop :=
  system.records = [] ∧ ∀ group ∈ system.books.ledger, group.jobId = none

/-- Every event that the condition admits keeps the property of a job and
its groups. -/
def Preserved (settings : Settings) (condition : JobRecord → JobEvent → Prop)
    (Holds : JobRecord → Ledger → Prop) : Prop :=
  ∀ (event : JobEvent) (record : JobRecord) (books : Books)
    (moved : JobRecord) (movedBooks : Books),
    Holds record (books.ledger.forJob record.job.id) →
    condition record event →
    event.perform settings record books = .ok (moved, movedBooks) →
    Holds moved (movedBooks.ledger.forJob record.job.id)

section

variable {settings : Settings} {condition : JobRecord → JobEvent → Prop}
  {Holds : JobRecord → Ledger → Prop} {system : System} {jobId : Uuid}
  {record : JobRecord}

theorem Operation.step_job (preserved : Preserved settings condition Holds) {operation : Operation}
    (permitted : Permits settings condition system operation)
    (found : system.record? jobId = some record)
    (held : Holds record (system.books.ledger.forJob jobId)) :
    ∃ moved, (operation.step settings system).record? jobId = some moved ∧ Holds moved
        ((operation.step settings system).books.ledger.forJob jobId) := by
  rcases transact_cases (operation.perform settings) system with ok | unchanged
  · obtain ⟨moved, after, books, movedBooks, before, code, same⟩ :=
      (Operation.perform_projects ok).follows jobId record found
    have id := id_of_record? found
    rw [id] at before same
    refine ⟨moved, after, ?_⟩
    unfold Operation.step
    rw [same, ← id]
    refine preserved _ record books moved movedBooks ?_ (permitted jobId record found) code
    rw [id, before]
    exact held
  · unfold Operation.step
    rw [unchanged]
    exact ⟨record, found, held⟩

theorem reaches_oneJob (preserved : Preserved settings condition Holds)
    {start : System} (found : start.record? jobId = some record)
    (held : Holds record (start.books.ledger.forJob jobId))
    (reached : Reaches (Operation.step settings)
      (Permits settings condition) (fun state => state = start) system) :
    ∃ moved, system.record? jobId = some moved ∧
      Holds moved (system.books.ledger.forJob jobId) := by
  induction reached with
  | start initial =>
    subst initial
    exact ⟨record, found, held⟩
  | step _ _ permitted ih =>
    obtain ⟨_, here, holds⟩ := ih
    exact Operation.step_job preserved permitted here holds

/-- The job of an id, if there is one, has the property; otherwise no group
carries the id. -/
def HoldsAt (Holds : JobRecord → Ledger → Prop) (jobId : Uuid) (system : System) : Prop :=
  match system.record? jobId with
  | some record => Holds record (system.books.ledger.forJob jobId)
  | none => system.books.ledger.forJob jobId = []

theorem Operation.step_holdsAt
    (created : ∀ record rows, Created settings record rows → Holds record rows)
    (preserved : Preserved settings condition Holds) {operation : Operation}
    (permitted : Permits settings condition system operation) (held : HoldsAt Holds jobId system) :
    HoldsAt Holds jobId (operation.step settings system) := by
  cases before : system.record? jobId with
  | some =>
    simp only [HoldsAt, before] at held
    obtain ⟨_, after, holds⟩ := Operation.step_job preserved permitted before held
    simpa only [HoldsAt, after] using holds
  | none =>
    rcases transact_cases (operation.perform settings) system with ok | unchanged
    · simp only [HoldsAt, before] at held
      rcases (Operation.perform_projects ok).created jobId before
        with ⟨after, same⟩ | ⟨fresh, rows, after, new, same⟩
      · simp only [HoldsAt, Operation.step, after]
        exact same.trans held
      · simp only [HoldsAt, Operation.step, after]
        rw [same, held]
        exact created fresh rows new
    · rw [Operation.step, unchanged]
      exact held

theorem reaches_everyJob (created : ∀ record rows, Created settings record rows → Holds record rows)
    (preserved : Preserved settings condition Holds)
    (reached : Reaches (Operation.step settings) (Permits settings condition) System.Initial system)
    (found : system.record? jobId = some record) :
    Holds record (system.books.ledger.forJob jobId) := by
  have held : HoldsAt Holds jobId system := by
    clear found
    induction reached with
    | @start state initial =>
      have absent : state.record? jobId = none := by
        rw [System.record?, initial.1]
        rfl
      simp only [HoldsAt, absent]
      rw [Ledger.forJob, filter_eq_nil_iff]
      intro group mem
      simp [initial.2 group mem]
    | step _ _ permitted ih => exact Operation.step_holdsAt created preserved permitted ih
  simpa only [HoldsAt, found] using held

end

def System.empty : System :=
  { records := []
    books := { ledger := [], providers := [], events := [], disputes := [],
               bandwidth := [] } }

theorem System.empty_initial : System.empty.Initial := ⟨rfl, nofun⟩

def cleanResult (hash : Py.Value) : AgentResultRequest where
  resultRef := none
  exitCode := 0
  proof := [("exit_code", .int 0), ("output_sha256", hash)]
  timedOut := false

def answer (providerId : Uuid) (hash : Py.Value) : Operation :=
  .submitResult .stored ⟨0, 30000000, 30000000, 30000000⟩ providerId 1 (cleanResult hash)

def assignedJob (isHighValue : Bool) (redundancy : Nat) (panel : List Uuid) : List Operation :=
  [.submitJob (minuteRequest isHighValue redundancy) 7 1 none true none 0,
    .assignProviders 1 (.of panel) 0]

/-- What a run shows of a job can be reached. -/
theorem exists_reached {settings : Settings} {start : System} {jobId : Uuid}
    {Shown : System → JobRecord → Prop} (operations : List Operation) (initial : start.Initial)
    (shown : ∃ record ∈ (Serial.run (Operation.step settings) operations start).record? jobId,
      Shown (Serial.run (Operation.step settings) operations start) record) :
    ∃ system record, Reaches (Operation.step settings) (fun _ _ => True) System.Initial system ∧
      system.record? jobId = some record ∧ Shown system record := by
  obtain ⟨record, found, shown⟩ := shown
  refine ⟨_, record, ?_, found, shown⟩
  exact Reaches.run (.start initial) (allPermitted_of_forall (fun _ _ _ => trivial) _)

end Gridix
