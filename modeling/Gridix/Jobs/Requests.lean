import Gridix.Jobs.Finalize
import Mathlib.Data.List.Dedup

/-!
# Requests and reapers of the job path

Every operation is one serialised transaction on the system.
-/

namespace Gridix

open List Serial

/-- The jobs and the books they are settled in. -/
structure System where
  records : List JobRecord
  books : Books

def JobRecord.providerAttempt (record : JobRecord) (providerId : Uuid) : Option JobAttempt :=
  (record.attempts.filter fun attempt =>
    attempt.providerId == providerId && !attempt.finished).argmax JobAttempt.attemptNumber

def JobRecord.latestAttempt (record : JobRecord) : Option JobAttempt :=
  record.attempts.argmax JobAttempt.attemptNumber

/-- The rows are identified by their number, which is unique per job. -/
def JobRecord.updateAttempt (record : JobRecord) (number : Nat)
    (update : JobAttempt → JobAttempt) : JobRecord :=
  { record with
    attempts := record.attempts.map fun attempt =>
      if attempt.attemptNumber = number then update attempt else attempt }

structure SubmitJobRequest where
  inputRef : Option String
  resourceSpec : ResourceSpec
  timeoutSeconds : Nat
  isHighValue : Bool
  redundancy : Nat
  redundancyPos : 1 ≤ redundancy
  redundancyLe : redundancy ≤ 9

/-- A job of one minute on one core, for one to nine providers. -/
def minuteRequest (isHighValue : Bool) (redundancy : Nat) : SubmitJobRequest where
  inputRef := none
  resourceSpec := ⟨1, 1024, false, 0⟩
  timeoutSeconds := 60
  isHighValue := isHighValue
  redundancy := max 1 (min redundancy 9)
  redundancyPos := Nat.le_max_left _ _
  redundancyLe := Nat.max_le.mpr ⟨by decide, Nat.min_le_right _ _⟩

/-- What the submit gate reads when on-chain settlement is active: the
on-chain escrow balance of a developer with a linked wallet. -/
structure UsdcGate where
  onchain : Option Int

def UsdcGate.available (gate : UsdcGate) (ledger : Ledger) (developerId : Uuid) : Int :=
  let free := accountBalance ledger .developer (some developerId)
  match gate.onchain with
  | none => free
  | some units =>
    min free (units - accountBalance ledger .escrow (some developerId))

/-- Without on-chain settlement every job is affordable. -/
def submitGate (gate : Option UsdcGate) (ledger : Ledger)
    (developerId : Uuid) (escrow : Int) : Bool :=
  match gate with
  | none => true
  | some gate => decide (escrow ≤ gate.available ledger developerId)

def newJob (terms : JobTerms) (now : Int) : Job where
  toJobTerms := terms
  status := .queued
  resultRef := none
  proof := none
  assignedProviderId := none
  attemptCount := 0
  leaseExpiresAt := none
  costFinal := none
  queuedAt := some now
  assignedAt := none
  startedAt := none
  finishedAt := none

def SubmitJobRequest.terms (request : SubmitJobRequest)
    (settings : Settings) (developerId jobId : Uuid)
    (key : Option String) : JobTerms where
  id := jobId
  developerId := developerId
  kind := .standard
  inputRef := request.inputRef
  resourceSpec := request.resourceSpec
  timeoutSeconds := request.timeoutSeconds
  isHighValue := request.isHighValue
  redundancy := request.redundancy
  expectedOutputHash := none
  escrowAmount := some (escrowEstimate request.resourceSpec request.timeoutSeconds settings)
  idempotencyKey := key
  redundancyPos := request.redundancyPos
  escrowNonneg := by
    intro amount found
    cases found
    exact escrowEstimate_nonneg _ _ settings

/-- A canary is owned by the system developer and not billed. -/
def canaryTerms (systemDeveloperId jobId : Uuid) (expected : String) : JobTerms where
  id := jobId
  developerId := systemDeveloperId
  kind := .canary
  inputRef := none
  resourceSpec := ⟨1, 512, false, 0⟩
  timeoutSeconds := 120
  isHighValue := false
  redundancy := 1
  expectedOutputHash := some expected
  escrowAmount := none
  idempotencyKey := none
  redundancyPos := by decide
  escrowNonneg := nofun

def System.record? (system : System) (jobId : Uuid) : Option JobRecord :=
  system.records.find? fun record => record.job.id == jobId

def submitJob (settings : Settings) (request : SubmitJobRequest)
    (developerId jobId : Uuid) (key : Option String) (inputExists : Bool)
    (gate : Option UsdcGate) (now : Int) (system : System) :
    Except Raised System :=
  if request.resourceSpec.gpu && request.resourceSpec.gpuVramMb ≤ 0 then
    .error (.http 422 "gpu=true requires gpu_vram_mb > 0.")
  else if request.inputRef.isSome && !inputExists then
    .error (.http 400 "input_ref does not resolve to a stored blob.")
  else if key.isSome && system.records.any (fun record =>
      record.job.developerId == developerId && record.job.idempotencyKey == key) then .ok system
  else
    let escrow := escrowEstimate request.resourceSpec request.timeoutSeconds settings
    if !submitGate gate system.books.ledger developerId escrow then
      .error (.http 403 "Insufficient balance")
    else if (system.record? jobId).isSome then
      .error (.http 500 "duplicate key")
    else
      match holdEscrow jobId developerId escrow with
      | .error error => .error (.ledger error)
      | .ok rows =>
        let terms := request.terms settings developerId jobId key
        .ok { records := system.records ++
                [{ job := newJob terms now, attempts := [] }]
              books := { system.books with
                ledger := system.books.ledger ++ rows } }

def createCanaryJob (systemDeveloperId jobId : Uuid) (expected : String)
    (now : Int) (system : System) : Except Raised System :=
  if (system.record? jobId).isSome then .error (.http 500 "duplicate key")
  else
    let terms := canaryTerms systemDeveloperId jobId expected
    .ok { system with
      records := system.records ++ [{ job := newJob terms now, attempts := [] }] }

structure Candidates where
  ids : List Uuid
  nodup : ids.Nodup

def Candidates.of (ids : List Uuid) : Candidates := ⟨ids.dedup, ids.nodup_dedup⟩

def newAttempts (base : Nat) (providers : List Uuid) (lease : Int) : List JobAttempt :=
  providers.mapIdx fun index providerId =>
    { providerId := providerId, attemptNumber := base + (index + 1),
      outcome := .assigned, leaseExpiresAt := some lease, resultRef := none,
      proof := none, startedAt := none, finishedAt := none }

@[simp] theorem newAttempts_length (base : Nat) (providers : List Uuid) (lease : Int) :
    (newAttempts base providers lease).length = providers.length :=
  length_mapIdx

theorem newAttempts_providers (base : Nat) (providers : List Uuid) (lease : Int) :
    (newAttempts base providers lease).map JobAttempt.providerId = providers := by
  apply ext_getElem?
  intro index
  rw [newAttempts, List.getElem?_map, List.getElem?_mapIdx]
  cases providers[index]? <;> rfl

variable {attempt : JobAttempt} {now : Int}

theorem mem_newAttempts {base : Nat} {providers : List Uuid} {lease : Int}
    (mem : attempt ∈ newAttempts base providers lease) :
    attempt.finished = false ∧ attempt.outcome = .assigned := by
  obtain ⟨_, _, rfl⟩ := mem_mapIdx.mp mem
  exact ⟨rfl, rfl⟩

def JobRecord.maxNumber (record : JobRecord) : Nat :=
  (record.attempts.map JobAttempt.attemptNumber).foldl max 0

theorem le_foldl_max (numbers : List Nat) (bound : Nat) : bound ≤ numbers.foldl max bound ∧
      ∀ number ∈ numbers, number ≤ numbers.foldl max bound := by
  induction numbers generalizing bound with
  | nil => exact ⟨Nat.le_refl _, nofun⟩
  | cons head _ ih =>
    obtain ⟨start, later⟩ := ih (max bound head)
    refine ⟨(Nat.le_max_left _ _).trans start, ?_⟩
    intro number mem
    rcases mem_cons.mp mem with rfl | here
    · exact (Nat.le_max_right _ _).trans start
    · exact later number here

theorem attemptNumber_le_maxNumber {record : JobRecord} (mem : attempt ∈ record.attempts) :
    attempt.attemptNumber ≤ record.maxNumber :=
  (le_foldl_max _ 0).2 _ (mem_map_of_mem mem)

/-- Only a high-value job gets as many attempts as it demands votes. -/
def Job.wanted (job : Job) : Nat :=
  if job.isHighValue then job.redundancy else 1

def assignProviders (settings : Settings) (candidates : Candidates)
    (now : Int) (record : JobRecord) (books : Books) :
    Except Raised (JobRecord × Books) :=
  if record.job.status ≠ .queued then .ok (record, books)
  else
    match candidates.ids.take record.job.wanted with
    | [] => .ok (record, books)
    | primary :: others => do
        let lease := now + settings.leaseSeconds * 1000000
        let job ← transition record.job .assigned now
        .ok ({ job := { job with
                 assignedProviderId := some primary
                 leaseExpiresAt := some lease
                 attemptCount := job.attemptCount + 1 }
               attempts := record.attempts ++
                 newAttempts record.maxNumber (primary :: others) lease },
             books)

/-- The job of a provider with an unfinished attempt on it, while in flight;
otherwise the two refusals of the agent routes. -/
def ownedInFlight (record : JobRecord) (providerId : Uuid) : Except Raised JobAttempt :=
  match record.providerAttempt providerId with
  | none => .error (.http 404 "Job not found.")
  | some attempt =>
    if record.job.status.inFlight then .ok attempt
    else .error (.http 409 "Job is not in flight.")

def markSeen (books : Books) (providerId : Uuid) (now : Int) : Books :=
  match books.provider? providerId with
  | none => books
  | some provider =>
    books.setProvider { provider with lastSeen := some now }

def heartbeat (settings : Settings) (providerId : Uuid) (now : Int)
    (record : JobRecord) (books : Books) :
    Except Raised (JobRecord × Books) := do
  let attempt ← ownedInFlight record providerId
  let lease := now + settings.leaseSeconds * 1000000
  let extended := record.updateAttempt attempt.attemptNumber fun attempt =>
    { attempt with leaseExpiresAt := some lease }
  .ok ({ extended with
         job := { extended.job with leaseExpiresAt := some lease } },
       markSeen books providerId now)

def startRunning (job : Job) (now : Int) : Except Raised Job :=
  if job.status = .assigned then transition job .running now else .ok job

def reportStatus (providerId : Uuid) (now : Int) (record : JobRecord)
    (books : Books) : Except Raised (JobRecord × Books) := do
  let attempt ← ownedInFlight record providerId
  let job ← startRunning record.job now
  let started := record.updateAttempt attempt.attemptNumber fun attempt =>
    { attempt with outcome := .running, startedAt := some now }
  .ok ({ started with job := job }, markSeen books providerId now)

/-- The columns take the result: a reference of at most 512 characters, and
no value that JSONB refuses. -/
def AgentResultRequest.storable (request : AgentResultRequest) : Bool :=
  Py.Value.storableEntries request.proof &&
    match request.resultRef with
    | none => true
    | some ref => Py.storableText ref && decide (ref.length ≤ 512)

def JobAttempt.record (attempt : JobAttempt) (clock : Clock)
    (request : AgentResultRequest) (valid : Bool) : JobAttempt :=
  { attempt with
    resultRef := request.resultRef
    proof := some request.proof
    finishedAt := some clock.attemptFinished
    outcome := attemptOutcome request valid }

def JobRecord.recordAttempt (record : JobRecord) (job : Job) (number : Nat)
    (clock : Clock) (request : AgentResultRequest) : JobRecord :=
  let recorded := record.updateAttempt number fun attempt =>
    attempt.record clock request (verify job request).valid
  { recorded with job := job }

/-- `record_result`: the attempt is finished, and the job with it once enough
attempts are in. -/
def recordResult (settings : Settings) (order : RowOrder) (clock : Clock)
    (attempt : JobAttempt) (request : AgentResultRequest)
    (record : JobRecord) (books : Books) :
    Except Raised (JobRecord × Books) := do
  let job ← startRunning record.job clock.started
  if request.storable then
    maybeFinalize settings order clock
      (record.recordAttempt job attempt.attemptNumber clock request) books
  else .error .unstorable

/-- The claimed hash of a result must be the content address it points to. -/
def resultRefChecks (request : AgentResultRequest) : Bool :=
  match request.resultRef with
  | none => true
  | some ref =>
    match request.proof.get "output_sha256" with
    | .str claimed =>
      isSha256Hex (.str claimed) && ref.toList.take 64 == claimed.toList
    | _ => false

def submitResult (settings : Settings) (order : RowOrder) (clock : Clock)
    (providerId : Uuid) (request : AgentResultRequest)
    (record : JobRecord) (books : Books) :
    Except Raised (JobRecord × Books) := do
  let attempt ← ownedInFlight record providerId
  if resultRefChecks request then
    recordResult settings order clock attempt request record books
  else .error (.http 400 "proof.output_sha256 must be the sha256 (64 hex chars) of result_ref.")

section

variable {settings : Settings} {order : RowOrder} {clock : Clock}
  {record moved : JobRecord} {books movedBooks : Books}
  {providerId : Uuid} {now : Int}

theorem mem_of_providerAttempt {attempt : JobAttempt}
    (found : record.providerAttempt providerId = some attempt) :
    attempt ∈ record.attempts ∧ attempt.providerId = providerId ∧ attempt.finished = false := by
  have member := argmax_mem (Option.mem_def.mpr found)
  simpa using member

theorem ownedInFlight_ok {attempt : JobAttempt}
    (ok : ownedInFlight record providerId = .ok attempt) :
    record.providerAttempt providerId = some attempt ∧ record.job.status.inFlight = true := by
  unfold ownedInFlight at ok
  split at ok
  · cases ok
  · rename_i found
    split_ifs at ok with inFlight
    cases ok
    exact ⟨found, inFlight⟩

@[simp] theorem markSeen_ledger (books : Books) (providerId : Uuid)
    (now : Int) : (markSeen books providerId now).ledger = books.ledger := by
  unfold markSeen
  split <;> rfl

theorem startRunning_ok {job started : Job} (inFlight : job.status.inFlight = true)
    (ok : startRunning job now = .ok started) :
    started.toJobTerms = job.toJobTerms ∧ started.status = .running := by
  unfold startRunning at ok
  split_ifs at ok with assigned
  · obtain ⟨_, rfl⟩ := transition_ok ok
    exact ⟨stamp_terms _ _ _, stamp_status _ _ _⟩
  · cases ok
    exact ⟨rfl, (inFlight_iff.mp inFlight).resolve_left assigned⟩

theorem startRunning_total (job : Job) (now : Int) :
    ∃ started, startRunning job now = .ok started := by
  unfold startRunning
  split_ifs with assigned
  · refine ⟨_, if_pos ?_⟩
    rw [assigned]
    rfl
  · exact ⟨_, rfl⟩

theorem assignProviders_ok {candidates : Candidates}
    (ok : assignProviders settings candidates now record books = .ok (moved, movedBooks)) :
    movedBooks = books ∧ (moved = record ∧ (record.job.status ≠ .queued ∨
            candidates.ids.take record.job.wanted = []) ∨
        record.job.status = .queued ∧
        ∃ primary others, candidates.ids.take record.job.wanted = primary :: others ∧
          moved.job.toJobTerms = record.job.toJobTerms ∧
          moved.job.status = .assigned ∧
          moved.attempts = record.attempts ++ newAttempts record.maxNumber (primary :: others)
              (now + settings.leaseSeconds * 1000000)) := by
  unfold assignProviders at ok
  split_ifs at ok with queued
  · cases ok
    exact ⟨rfl, Or.inl ⟨rfl, Or.inl queued⟩⟩
  · split at ok
    · rename_i nobody
      cases ok
      exact ⟨rfl, Or.inl ⟨rfl, Or.inr nobody⟩⟩
    · rename_i primary others chosen
      obtain ⟨_, legal, ok⟩ := bind_eq_ok.mp ok
      cases ok
      obtain ⟨_, rfl⟩ := transition_ok legal
      exact ⟨rfl, Or.inr ⟨not_not.mp queued, primary, others, chosen,
        stamp_terms _ _ _, stamp_status _ _ _, rfl⟩⟩

theorem heartbeat_ok (ok : heartbeat settings providerId now record books =
      .ok (moved, movedBooks)) :
    movedBooks.ledger = books.ledger ∧ record.job.status.inFlight = true ∧
      moved.job.toJobTerms = record.job.toJobTerms ∧
      moved.job.status = record.job.status ∧
      ∃ attempt lease, record.providerAttempt providerId = some attempt ∧ moved.attempts =
          (record.updateAttempt attempt.attemptNumber fun attempt =>
            { attempt with leaseExpiresAt := lease }).attempts := by
  obtain ⟨_, owned, ok⟩ := bind_eq_ok.mp ok
  cases ok
  obtain ⟨found, inFlight⟩ := ownedInFlight_ok owned
  exact ⟨markSeen_ledger _ _ _, inFlight, rfl, rfl, _, _, found, rfl⟩

theorem reportStatus_ok (ok : reportStatus providerId now record books = .ok (moved, movedBooks)) :
    movedBooks.ledger = books.ledger ∧ record.job.status.inFlight = true ∧
      moved.job.toJobTerms = record.job.toJobTerms ∧
      moved.job.status = .running ∧
      ∃ attempt, record.providerAttempt providerId = some attempt ∧ moved.attempts =
          (record.updateAttempt attempt.attemptNumber fun attempt =>
            { attempt with outcome := .running,
                           startedAt := some now }).attempts := by
  obtain ⟨attempt, owned, ok⟩ := bind_eq_ok.mp ok
  obtain ⟨_, started, ok⟩ := bind_eq_ok.mp ok
  cases ok
  obtain ⟨found, inFlight⟩ := ownedInFlight_ok owned
  obtain ⟨terms, running⟩ := startRunning_ok inFlight started
  exact ⟨markSeen_ledger _ _ _, inFlight, terms, running, attempt, found, rfl⟩

structure Recorded (clock : Clock) (providerId : Uuid)
    (request : AgentResultRequest) (record recorded : JobRecord) :
    Prop where
  inFlight : record.job.status.inFlight = true
  terms : recorded.job.toJobTerms = record.job.toJobTerms
  running : recorded.job.status = .running
  attempts : ∃ attempt valid, record.providerAttempt providerId = some attempt ∧ recorded.attempts =
      (record.updateAttempt attempt.attemptNumber fun attempt =>
        attempt.record clock request valid).attempts
  defined : (request.proof.get "output_sha256").key ≠ some .nan

theorem AgentResultRequest.defined_of_storable {request : AgentResultRequest}
    (storable : request.storable = true) :
    (request.proof.get "output_sha256").key ≠ some .nan := by
  rw [AgentResultRequest.storable, Bool.and_eq_true] at storable
  unfold Proof.get
  cases found : request.proof.lookup "output_sha256" with
  | none => nofun
  | some value =>
    have stored := Py.Value.storable_lookup storable.1 found
    cases value with
    | float number =>
      cases number with
      | finite => nofun
      | infinite | nan => cases stored
    | _ => nofun

theorem submitResult_eq {attempt : JobAttempt} {request : AgentResultRequest}
    (found : record.providerAttempt providerId = some attempt)
    (inFlight : record.job.status.inFlight = true) (checks : resultRefChecks request = true)
    (storable : request.storable = true) :
    ∃ recorded, Recorded clock providerId request record recorded ∧
      submitResult settings order clock providerId request record books =
        maybeFinalize settings order clock recorded books := by
  obtain ⟨job, started⟩ := startRunning_total record.job clock.started
  obtain ⟨terms, running⟩ := startRunning_ok inFlight started
  refine ⟨record.recordAttempt job attempt.attemptNumber clock request,
    ⟨inFlight, terms, running, ⟨attempt, _, found, rfl⟩,
      AgentResultRequest.defined_of_storable storable⟩, ?_⟩
  unfold submitResult recordResult
  rw [ownedInFlight, found]
  dsimp only
  rw [if_pos inFlight]
  simp only [bind, Except.bind]
  rw [if_pos checks, started]
  dsimp only
  rw [if_pos storable]

end

/-- Close the latest attempt, unless it is finished, with an outcome. -/
def JobRecord.closeLatest (record : JobRecord) (outcome : AttemptOutcome) (now : Int) : JobRecord :=
  match record.latestAttempt with
  | none => record
  | some latest =>
    record.updateAttempt latest.attemptNumber fun attempt =>
      { attempt with
        finishedAt := some (attempt.finishedAt.getD now)
        outcome := outcome }

/-- Requeue an in-flight job, or fail it once its attempts are exhausted. -/
def reclaimJob (settings : Settings) (now transitioned : Int)
    (record : JobRecord) : Except Raised JobRecord :=
  if settings.maxAttempts ≤ record.job.attemptCount then do
    let job ← transition record.job .failed transitioned
    .ok { record.closeLatest .failed now with job := job }
  else do
    let job ← transition record.job .queued transitioned
    .ok { record.closeLatest .reassigned now with job := job }

/-- The job-level reaper owns jobs of redundancy one whose lease lapsed. -/
def leaseLapsed (now : Int) (job : Job) : Bool := job.status.inFlight && job.redundancy == 1 &&
    match job.leaseExpiresAt with
    | none => false
    | some lease => decide (lease < now)

/-- Jobs of redundancy one whose provider has gone silent. -/
def stranded (settings : Settings) (now : Int) (books : Books) (job : Job) : Bool :=
  job.status.inFlight && job.redundancy == 1 &&
    match job.assignedProviderId with
    | none => false
    | some providerId => books.providers.any fun provider =>
      provider.id == providerId &&
        match provider.lastSeen with
        | none => false
        | some seen => decide (seen < now - settings.connectionTimeoutSeconds * 1000000)

def reclaimWhere (settings : Settings) (now transitioned : Int)
    (selected : Job → Bool) (system : System) : Except Raised System := do
  let records ← system.records.mapM fun record =>
    if selected record.job then
      reclaimJob settings now transitioned record
    else .ok record
  .ok { system with records := records }

def reapExpiredLeases (settings : Settings) (now transitioned : Int)
    (system : System) : Except Raised System :=
  reclaimWhere settings now transitioned (leaseLapsed now) system

def drainUnreachableProviders (settings : Settings)
    (now transitioned : Int) (system : System) : Except Raised System :=
  reclaimWhere settings now transitioned (stranded settings now system.books) system

def attemptLapsed (now : Int) (attempt : JobAttempt) : Bool := !attempt.finished &&
    match attempt.leaseExpiresAt with
    | none => false
    | some lease => decide (lease < now)

/-- The attempt reaper owns the in-flight jobs of redundancy above one. -/
def hasLapsedAttempt (now : Int) (record : JobRecord) : Bool :=
  record.job.status.inFlight && decide (1 < record.job.redundancy) &&
    record.attempts.any (attemptLapsed now)

def markLapsed (now : Int) (record : JobRecord) : JobRecord :=
  { record with
    attempts := record.attempts.map fun attempt =>
      if attemptLapsed now attempt then
        { attempt with outcome := .reassigned, finishedAt := some now }
      else attempt }

def System.put (system : System) (record : JobRecord) (books : Books) : System :=
  { records := system.records.map fun other =>
      if other.job.id = record.job.id then record else other
    books := books }

def finalizeById (settings : Settings) (order : RowOrder) (clock : Clock)
    (system : System) (jobId : Uuid) : Except Raised System :=
  match system.record? jobId with
  | none => .ok system
  | some record => do
      let (moved, books) ← maybeFinalize settings order clock record system.books
      .ok (system.put moved books)

/-- `visit` says in which order the set of job ids is visited. -/
def reapExpiredAttempts (settings : Settings) (order : RowOrder)
    (clock : Clock) (now : Int) (visit : List Uuid) (system : System) :
    Except Raised System :=
  let ids := (visit ++ system.records.map fun record => record.job.id).dedup
  let jobIds := ids.filter fun jobId =>
    (system.record? jobId).any (hasLapsedAttempt now)
  let marked : System :=
    { system with
      records := system.records.map fun record =>
        if hasLapsedAttempt now record then markLapsed now record
        else record }
  jobIds.foldlM (finalizeById settings order clock) marked

theorem mem_of_mem_closeLatest {record : JobRecord} {outcome : AttemptOutcome}
    (notCompleted : outcome ≠ .completed)
    (mem : attempt ∈ (record.closeLatest outcome now).attempts)
    (completed : attempt.outcome = .completed) :
    attempt ∈ record.attempts := by
  unfold JobRecord.closeLatest at mem
  split at mem
  · exact mem
  · obtain ⟨_, here, rfl⟩ := mem_map.mp mem
    split_ifs at completed ⊢ with latest
    · exact absurd completed notCompleted
    · exact here

theorem reclaimJob_ok {settings : Settings} {transitioned : Int} {record moved : JobRecord}
    (ok : reclaimJob settings now transitioned record = .ok moved) :
    moved.job.toJobTerms = record.job.toJobTerms ∧ (settings.maxAttempts ≤ record.job.attemptCount ∧
          moved.job.status = .failed ∨
        record.job.attemptCount < settings.maxAttempts ∧ moved.job.status = .queued) ∧
      record.job.status.inFlight = true ∧
      ∀ attempt ∈ moved.attempts, attempt.outcome = .completed → attempt ∈ record.attempts := by
  unfold reclaimJob at ok
  split_ifs at ok with exhausted
  · obtain ⟨_, legal, ok⟩ := bind_eq_ok.mp ok
    cases ok
    obtain ⟨permitted, rfl⟩ := transition_ok legal
    refine ⟨stamp_terms _ _ _, Or.inl ⟨exhausted, stamp_status _ _ _⟩, ?_,
      fun _ => mem_of_mem_closeLatest nofun⟩
    revert permitted
    cases record.job.status <;> decide
  · obtain ⟨_, legal, ok⟩ := bind_eq_ok.mp ok
    cases ok
    obtain ⟨permitted, rfl⟩ := transition_ok legal
    refine ⟨stamp_terms _ _ _, Or.inr ⟨Nat.not_le.mp exhausted, stamp_status _ _ _⟩, ?_,
      fun _ => mem_of_mem_closeLatest nofun⟩
    revert permitted
    cases record.job.status <;> decide

end Gridix
