import Gridix.Disputes.Model
import Gridix.Jobs.Coherence
import Gridix.Jobs.Votes

/-!
# Keys and secrets of a job

The routes that hand a job's data key and its short-lived secrets to an agent.
-/

namespace Gridix

open List Serial

/-- The settings, columns and primitives that the routes read beside a job's
status and attempts. -/
structure Broker where
  kek : String
  wrappedKey : Uuid → Option String
  dataTier : Uuid → DataTier
  teeAttested : Uuid → Bool
  decryptRotating : String → Option String
  hmac : String → String
  secretsTtlSeconds : Int

def ownedActiveJob (providerId jobId : Uuid) (system : System) : Except Raised Job :=
  match system.record? jobId with
  | none => .error (.http 404 "Job not found.")
  | some record =>
    match record.providerAttempt providerId with
    | none => .error (.http 404 "Job not found.")
    | some _ => .ok record.job

def releaseDataKey (broker : Broker) (providerId : Uuid) (job : Job) : Except String String :=
  if broker.kek = "" then .error "key brokering is not configured"
  else match broker.wrappedKey job.id with
  | none => .error "job has no brokered key"
  | some wrapped =>
    if job.status.inFlight = false then .error "job is not in flight; key no longer available"
    else if broker.dataTier job.id = .confidentialTee ∧ broker.teeAttested providerId = false then
      .error "provider has no valid TEE attestation"
    else match broker.decryptRotating wrapped with
    | none => .error "could not unwrap job key"
    | some key => .ok key

def mintJobSecrets (broker : Broker) (now : Int) (job : Job) :
    Except String (List (String × String) × Int) :=
  if job.status.inFlight = false then
    .error "job is not in flight; secrets no longer available"
  else
    let window := now / broker.secretsTtlSeconds
    let token := broker.hmac s!"jobsecret:{job.id}:{window}"
    let tier := match broker.dataTier job.id with
      | .publicTier => []
      | .encryptedAtRest => [("GRIDIX_DATA_TIER", "encrypted_at_rest")]
      | .confidentialTee => [("GRIDIX_DATA_TIER", "confidential_tee")]
    .ok ([("GRIDIX_JOB_ID", toString job.id), ("GRIDIX_JOB_TOKEN", token)] ++ tier,
      (window + 1) * broker.secretsTtlSeconds)

def getJobKey (broker : Broker) (providerId jobId : Uuid) (system : System) :
    Except Raised String := do
  let job ← ownedActiveJob providerId jobId system
  (releaseDataKey broker providerId job).mapError (.http 409)

def getJobSecrets (broker : Broker) (now : Int) (providerId jobId : Uuid) (system : System) :
    Except Raised (List (String × String) × Int) := do
  let job ← ownedActiveJob providerId jobId system
  (mintJobSecrets broker now job).mapError (.http 409)

section

variable {settings : Settings} {system : System} {jobId providerId : Uuid} {record : JobRecord}
  {broker : Broker} {now : Int}

theorem ownedActiveJob_ok {Value : Type} {release : Job → Except String Value} {value : Value}
    (found : system.record? jobId = some record)
    (ok : (do let job ← ownedActiveJob providerId jobId system
              (release job).mapError (Raised.http 409)) = .ok value) :
    release record.job = .ok value ∧
      ∃ attempt, record.providerAttempt providerId = some attempt := by
  obtain ⟨_, owned, ok⟩ := bind_eq_ok.mp ok
  unfold ownedActiveJob at owned
  rw [found] at owned
  dsimp only at owned
  split at owned
  · cases owned
  · cases owned
    exact ⟨mapError_ok ok, _, ‹_›⟩

theorem releaseDataKey_ok {job : Job} {key : String}
    (ok : releaseDataKey broker providerId job = .ok key) : job.status.inFlight = true ∧
      (broker.dataTier job.id = .confidentialTee → broker.teeAttested providerId = true) := by
  unfold releaseDataKey at ok
  cases wrapped : broker.wrappedKey job.id with
  | none =>
    rw [wrapped] at ok
    split_ifs at ok
  | some =>
    rw [wrapped] at ok
    dsimp only at ok
    split_ifs at ok with _ closed untrusted
    exact ⟨by simpa using closed, fun tee => by simpa [tee] using untrusted⟩

theorem mintJobSecrets_ok {job : Job} {secrets : List (String × String) × Int}
    (ok : mintJobSecrets broker now job = .ok secrets) : job.status.inFlight = true := by
  unfold mintJobSecrets at ok
  split_ifs at ok with closed
  simpa using closed

/-- An operation, or a ruling on a dispute, which posts under the id of the job
that the slash was for. -/
inductive PlatformStep where
  | job (operation : Operation)
  | ruling (dispute : Disputes.Dispute) (upheld : Bool) (reason : String) (now : Int)

def PlatformStep.step (settings : Settings) : PlatformStep → System → System
  | .job operation, system => operation.step settings system
  | .ruling dispute upheld reason now, system =>
    match Disputes.resolveDispute dispute upheld reason now ⟨system.books.ledger, [dispute]⟩ with
    | .ok tables => { system with books := { system.books with ledger := tables.ledger } }
    | .error _ => system

/-- A dispute's ruling posted the group. -/
def LedgerGroup.FromRuling (group : LedgerGroup) : Prop :=
  group.reason = .slashConfirmed ∨ group.reason = .slashReversed

theorem Disputes.resolveDispute_posts {dispute : Disputes.Dispute} {upheld : Bool}
    {reason : String} {tables moved : Disputes.Tables}
    (ok : Disputes.resolveDispute dispute upheld reason now tables = .ok moved) :
    ∃ posted, moved.ledger = tables.ledger ++ posted ∧ ∀ group ∈ posted, group.FromRuling := by
  unfold Disputes.resolveDispute at ok
  by_cases closed : dispute.state.terminal = true
  · rw [if_pos closed] at ok
    cases ok
    exact ⟨[], (append_nil _).symm, forall_mem_nil _⟩
  · rw [if_neg closed, Disputes.releasePostings, Disputes.postPositive_transfer] at ok
    cases ok
    refine ⟨_, rfl, fun group mem => ?_⟩
    by_cases pos : 0 < dispute.amount
    · rw [if_pos pos] at mem
      rw [mem_singleton.mp mem]
      cases upheld with
      | true => exact .inl rfl
      | false => exact .inr rfl
    · rw [if_neg pos] at mem
      cases mem

theorem PlatformStep.step_ended (found : system.record? jobId = some record)
    (ended : record.job.status.isTerminal = true) (activity : PlatformStep) :
    (activity.step settings system).record? jobId = some record ∧
      ∃ posted, (activity.step settings system).books.ledger.forJob jobId =
        system.books.ledger.forJob jobId ++ posted ∧ ∀ group ∈ posted, group.FromRuling := by
  cases activity with
  | job operation =>
    have unchanged : Preserved settings (fun _ _ => True) fun other rows =>
        other = record ∧ rows = system.books.ledger.forJob jobId := by
      rintro _ _ _ _ _ ⟨rfl, kept⟩ _ success
      obtain ⟨same, ledger⟩ := JobEvent.perform_terminal ended success
      exact ⟨same, by rw [ledger, kept]⟩
    have permitted : Permits settings (fun _ _ => True) system operation := fun _ _ _ => trivial
    obtain ⟨_, present, rfl, rows⟩ := Operation.step_job unchanged permitted found ⟨rfl, rfl⟩
    exact ⟨present, [], by rw [append_nil]; exact rows, forall_mem_nil _⟩
  | ruling dispute upheld reason now =>
    dsimp only [PlatformStep.step]
    split
    · rename_i ok
      obtain ⟨posted, ledger, ruled⟩ := Disputes.resolveDispute_posts ok
      refine ⟨found, Ledger.forJob posted jobId, ?_,
        fun group mem => ruled group (mem_filter.mp mem).1⟩
      dsimp only
      rw [ledger, Ledger.forJob_append]
    · exact ⟨found, [], (append_nil _).symm, forall_mem_nil _⟩

/-- Whatever happens after a job has ended, its record and its groups stay as
they are, only a ruling adds to them, and neither its key nor its secrets are
released to anybody. -/
theorem ended_job_final {later : System} (found : system.record? jobId = some record)
    (ended : record.job.status.isTerminal = true)
    (reached : Reaches (PlatformStep.step settings) (fun _ _ => True) (· = system) later)
    (broker : Broker) (now : Int) (providerId : Uuid) :
    later.record? jobId = some record ∧
      (∃ posted, later.books.ledger.forJob jobId = system.books.ledger.forJob jobId ++ posted ∧
        ∀ group ∈ posted, group.FromRuling) ∧
      (∀ key, getJobKey broker providerId jobId later ≠ .ok key) ∧
      ∀ secrets, getJobSecrets broker now providerId jobId later ≠ .ok secrets := by
  have kept : later.record? jobId = some record ∧
      ∃ posted, later.books.ledger.forJob jobId = system.books.ledger.forJob jobId ++ posted ∧
        ∀ group ∈ posted, group.FromRuling := by
    induction reached with
    | start same =>
      rw [same]
      exact ⟨found, [], (append_nil _).symm, forall_mem_nil _⟩
    | step _ activity _ ih =>
      obtain ⟨here, before, groups, ruled⟩ := ih
      obtain ⟨there, posted, grown, rulings⟩ := PlatformStep.step_ended here ended activity
      refine ⟨there, before ++ posted, by rw [grown, groups, append_assoc], ?_⟩
      exact fun group mem => (mem_append.mp mem).elim (ruled group) (rulings group)
  refine ⟨kept.1, kept.2, ?_, ?_⟩
  · intro _ ok
    have released := releaseDataKey_ok (ownedActiveJob_ok kept.1 ok).1
    cases (inFlight_open released.1).symm.trans ended
  · intro _ ok
    have released := mintJobSecrets_ok (ownedActiveJob_ok kept.1 ok).1
    cases (inFlight_open released).symm.trans ended

/-- The key and the secrets of a job of redundancy one go only to its assigned
provider, while it is in flight, and the key of a confidential job only to an
attested one. -/
theorem released_to_assigned
    (reached : Reaches (Operation.step settings) (fun _ _ => True) System.Initial system)
    (found : system.record? jobId = some record) (single : record.job.redundancy = 1)
    (broker : Broker) (now : Int) (providerId : Uuid) :
    (∀ key, getJobKey broker providerId jobId system = .ok key → record.HeldBy providerId ∧
        (broker.dataTier record.job.id = .confidentialTee →
          broker.teeAttested providerId = true)) ∧
      ∀ secrets, getJobSecrets broker now providerId jobId system = .ok secrets →
        record.HeldBy providerId := by
  have coherent : Coherent record := @reaches_everyJob settings _
    (fun record _ => record.job.redundancy = 1 → Coherent record) system jobId record
    (fun _ _ created _ => coherent_created created) (coherent_preserved settings)
    (reached.mono fun _ _ _ _ _ _ => trivial) found single
  have holder (inFlight : record.job.status.inFlight = true)
      (owned : ∃ attempt, record.providerAttempt providerId = some attempt) :
      record.HeldBy providerId := by
    obtain ⟨_, holding⟩ := coherent.inFlight inFlight
    obtain ⟨_, owned⟩ := owned
    obtain ⟨_, rfl⟩ := holding.providerAttempt owned
    exact ⟨inFlight, holding.provider⟩
  constructor
  · intro _ ok
    obtain ⟨released, owned⟩ := ownedActiveJob_ok found ok
    obtain ⟨inFlight, attested⟩ := releaseDataKey_ok released
    exact ⟨holder inFlight owned, attested⟩
  · intro _ ok
    obtain ⟨released, owned⟩ := ownedActiveJob_ok found ok
    exact holder (mintJobSecrets_ok released) owned

end

/-- Every job is confidential, and only provider 5 is attested. -/
def exampleBroker : Broker :=
  ⟨"kek", fun _ => some "key", fun _ => .confidentialTee, (· == 5), some, id, 3600⟩

def finalSlash : Disputes.Dispute where
  id := 1
  providerId := 5
  jobId := some 1
  amount := 100
  state := .opened
  reason := "quorum_minority"
  evidence := none
  rulingReason := none
  windowExpiresAt := none
  resolvedAt := none

theorem ended_job_final_twoAgree : getJobKey exampleBroker 5 1
    ((PlatformStep.job (.heartbeat 5 1 0)).step .default
      ((PlatformStep.ruling finalSlash true "" 0).step .default
        (Serial.run (Operation.step .default) twoAgree threeAssigned))) ≠ .ok "key" := by
  have closed : ((Serial.run (Operation.step .default) twoAgree threeAssigned).record? 1).map
      (fun record => record.job.status.isTerminal) = some true := by decide +kernel
  obtain ⟨_, found, ended⟩ := Option.map_eq_some_iff.mp closed
  refine (ended_job_final found ended (.step (.step (.start ?_) _ trivial) _ trivial) _ 0 5).2.2.1 _
  rfl

theorem released_to_assigned_once : ∃ record, assignedOnce.record? 1 = some record ∧
    record.HeldBy 5 := by
  have single : (assignedOnce.record? 1).map (fun record => record.job.redundancy) = some 1 := by
    decide +kernel
  obtain ⟨record, found, single⟩ := Option.map_eq_some_iff.mp single
  have released : getJobKey exampleBroker 5 1 assignedOnce = .ok "key" := by decide +kernel
  refine ⟨record, found, ((released_to_assigned (Reaches.run (.start System.empty_initial) ?_)
    found single exampleBroker 0 5).1 _ released).1⟩
  exact ⟨trivial, trivial, trivial⟩

end Gridix
