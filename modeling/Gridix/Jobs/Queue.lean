import Gridix.Jobs.Ballots

/-!
# The assignment queue

Ids of queued jobs wait in a Redis list.  `assign_job` gives the same answer
for a job that nobody can take and for one that has long been assigned, so an
id never leaves the list unless an iteration is interrupted by an exception.
-/

namespace Gridix

open List Serial

/-- The database, the Redis list, the ids that replicas have taken and will push
back, and the ids `lost` to iterations that raised. -/
structure SchedulerState where
  system : System
  queue : List Uuid
  hand : List Uuid
  lost : List Uuid

/-- The order in which the database returns the ids of an unordered query. -/
structure IdOrder where
  shuffle : List Uuid → List Uuid
  perm : ∀ ids, (shuffle ids).Perm ids

def IdOrder.stored : IdOrder := { shuffle := id, perm := fun _ => .refl _ }

/-- `assign_job`: whether a provider was found, with the system after it.
`locked` says that another transaction holds the row. -/
def assignJob (settings : Settings) (candidates : Candidates) (now : Int)
    (locked : Bool) (jobId : Uuid) (system : System) :
    Except Raised (System × Bool) :=
  match system.record? jobId with
  | none => .ok (system, false)
  | some record =>
    if locked then .ok (system, false)
    else do
      let (moved, books) ← assignProviders settings candidates now record system.books
      .ok (system.put moved books, record.job.status == .queued &&
          !(candidates.ids.take record.job.wanted).isEmpty)

inductive LoopFault where
  | none
  | dequeue
  | assign
  deriving DecidableEq

def takeJob (settings : Settings) (candidates : Candidates) (now : Int)
    (locked : Bool) (fault : LoopFault) (state : SchedulerState) :
    SchedulerState :=
  match fault, state.queue with
  | .dequeue, _ => state
  | _, [] => state
  | .assign, jobId :: rest =>
    { state with queue := rest, lost := jobId :: state.lost }
  | .none, jobId :: rest =>
    match assignJob settings candidates now locked jobId state.system with
    | .error _ => { state with queue := rest, lost := jobId :: state.lost }
    | .ok (system, true) => { state with system := system, queue := rest }
    | .ok (system, false) =>
      { state with system := system, queue := rest,
                   hand := jobId :: state.hand }

/-- The end of an iteration that found no provider: the id is pushed back,
unless Redis fails. -/
def returnJob (index : Nat) (pushed : Bool) (state : SchedulerState) : SchedulerState :=
  match state.hand[index]? with
  | none => state
  | some jobId =>
    if pushed then
      { state with queue := state.queue ++ [jobId],
                   hand := state.hand.eraseIdx index }
    else
      { state with lost := jobId :: state.lost,
                   hand := state.hand.eraseIdx index }

/-- A submission that adds a job commits it and then pushes its id, unless
Redis fails. -/
def enqueueCreated (jobId : Uuid) (pushed : Bool) (state : SchedulerState)
    (result : Except Raised System) : SchedulerState :=
  match result with
  | .error _ => state
  | .ok moved =>
    { state with
      system := moved
      queue := if state.system.records.length < moved.records.length &&
          pushed then state.queue ++ [jobId] else state.queue }

/-- The ids that a pass of `_reclaim_job` returns. -/
def requeuedBy (settings : Settings) (selected : Job → Bool) (system : System) : List Uuid :=
  (system.records.filter fun record =>
    selected record.job && decide (record.job.attemptCount < settings.maxAttempts)).map
        fun record => record.job.id

def recoverQueuedJobs (order : IdOrder) (system : System) : List Uuid :=
  (order.shuffle ((system.records.filter fun record =>
    record.job.status == .queued).map fun record => record.job.id)).take 1000

/-- What a reaper iteration meets: the clocks and row orders of its four
transactions, and how many ids it pushes before Redis fails. -/
structure ReaperPass where
  rows : RowOrder
  clock : Clock
  visit : List Uuid
  attemptsAt : Int
  leasesAt : Int
  leasesMoved : Int
  drainAt : Int
  drainMoved : Int
  leaseOrder : IdOrder
  drainOrder : IdOrder
  recoverOrder : IdOrder
  pushes : Nat

def reaperIteration (settings : Settings) (pass : ReaperPass)
    (state : SchedulerState) : SchedulerState :=
  match reapExpiredAttempts settings pass.rows pass.clock pass.attemptsAt
      pass.visit state.system with
  | .error _ => state
  | .ok reaped =>
    match reapExpiredLeases settings pass.leasesAt pass.leasesMoved reaped with
    | .error _ => { state with system := reaped }
    | .ok leased =>
      match drainUnreachableProviders settings pass.drainAt pass.drainMoved leased with
      | .error _ => { state with system := leased }
      | .ok drained =>
        let requeued := pass.leaseOrder.shuffle (requeuedBy settings
              (leaseLapsed pass.leasesAt) reaped) ++
            pass.drainOrder.shuffle (requeuedBy settings
              (stranded settings pass.drainAt leased.books) leased) ++
            recoverQueuedJobs pass.recoverOrder drained
        { state with
          system := drained
          queue := state.queue ++ requeued.take pass.pushes }

/-- What the API, the scheduler and the reaper do. -/
inductive SchedulerAction where
  | submit (request : SubmitJobRequest) (developerId jobId : Uuid)
      (key : Option String) (inputExists : Bool) (gate : Option UsdcGate)
      (now : Int) (pushed : Bool)
  | canary (systemDeveloperId jobId : Uuid) (expected : String) (now : Int) (pushed : Bool)
  | take (candidates : Candidates) (now : Int) (locked : Bool) (fault : LoopFault)
  | giveBack (index : Nat) (pushed : Bool)
  | reaper (pass : ReaperPass)
  | request (operation : Operation)

def SchedulerAction.step (settings : Settings) (action : SchedulerAction)
    (state : SchedulerState) : SchedulerState :=
  match action with
  | .submit body developerId jobId key inputExists gate now pushed =>
    enqueueCreated jobId pushed state
      (submitJob settings body developerId jobId key inputExists gate now state.system)
  | .canary systemDeveloperId jobId expected now pushed =>
    enqueueCreated jobId pushed state
      (createCanaryJob systemDeveloperId jobId expected now state.system)
  | .take candidates now locked fault =>
    takeJob settings candidates now locked fault state
  | .giveBack index pushed => returnJob index pushed state
  | .reaper pass => reaperIteration settings pass state
  | .request operation =>
    { state with system := operation.step settings state.system }

def System.Unqueued (system : System) : Prop :=
  ∀ record ∈ system.records, record.job.status ≠ .queued

instance (system : System) : Decidable system.Unqueued := inferInstanceAs
    (Decidable (∀ record ∈ system.records, record.job.status ≠ .queued))

/-- Nothing is submitted and nothing is requeued: no job is queued before the
action or after it. -/
def StaysUnqueued (settings : Settings) (state : SchedulerState)
    (action : SchedulerAction) : Prop :=
  state.system.Unqueued ∧ (action.step settings state).system.Unqueued

def SchedulerState.entries (state : SchedulerState) : List Uuid :=
  state.queue ++ state.hand ++ state.lost

section

variable {settings : Settings} {state : SchedulerState} {now transitioned : Int}
  {system moved : System} {selected : Job → Bool}

theorem assignJob_unqueued {candidates : Candidates} {locked : Bool} {jobId : Uuid}
    {assigned : Bool} (unqueued : system.Unqueued)
    (ok : assignJob settings candidates now locked jobId system = .ok (moved, assigned)) :
    assigned = false := by
  unfold assignJob at ok
  split at ok
  · cases ok
    rfl
  · rename_i record found
    split_ifs at ok
    · cases ok
      rfl
    · obtain ⟨_, _, ok⟩ := bind_eq_ok.mp ok
      cases ok
      have status := unqueued record (mem_of_find?_eq_some found)
      rw [beq_eq_false_iff_ne.mpr status, Bool.false_and]

theorem takeJob_entries (candidates : Candidates) (now : Int)
    (locked : Bool) (fault : LoopFault) (unqueued : state.system.Unqueued) :
    (takeJob settings candidates now locked fault state).entries.Perm state.entries := by
  unfold takeJob
  split
  · exact .refl _
  · exact .refl _
  · rename_i _ queue
    simp only [SchedulerState.entries, queue]
    exact perm_middle
  · rename_i _ queue
    split
    · simp only [SchedulerState.entries, queue]
      exact perm_middle
    · rename_i assigned
      cases assignJob_unqueued unqueued assigned
    · simp only [SchedulerState.entries, queue, append_assoc]
      exact perm_middle

theorem returnJob_entries (index : Nat) (pushed : Bool) :
    (returnJob index pushed state).entries.Perm state.entries := by
  unfold returnJob
  split
  · exact .refl _
  · rename_i jobId found
    obtain ⟨inside, value⟩ := List.getElem?_eq_some_iff.mp found
    have moved : (jobId :: state.hand.eraseIdx index).Perm state.hand := by
      rw [← value]
      exact getElem_cons_eraseIdx_perm inside
    split_ifs
    · simp only [SchedulerState.entries, append_assoc]
      exact (moved.append_right state.lost).append_left state.queue
    · simp only [SchedulerState.entries, append_assoc]
      refine List.Perm.append_left state.queue ?_
      exact perm_middle.trans (moved.append_right state.lost)

theorem enqueueCreated_entries {jobId : Uuid} {pushed : Bool} {result : Except Raised System}
    (adds : ∀ moved, result = .ok moved → state.system.records.length < moved.records.length →
      ¬ moved.Unqueued) (unqueued : (enqueueCreated jobId pushed state result).system.Unqueued) :
    (enqueueCreated jobId pushed state result).entries.Perm state.entries := by
  cases result with
  | error => exact .refl _
  | ok moved =>
    have none : ¬ state.system.records.length < moved.records.length :=
      fun more => adds moved rfl more unqueued
    simp only [enqueueCreated, none]
    exact .refl _

theorem submitJob_adds {request : SubmitJobRequest} {developerId jobId : Uuid} {key : Option String}
    {inputExists : Bool} {gate : Option UsdcGate}
    (ok : submitJob settings request developerId jobId key inputExists
      gate now system = .ok moved) (more : system.records.length < moved.records.length) :
    ¬ moved.Unqueued := by
  rcases submitJob_cases ok with rfl | ⟨_, rfl⟩
  · exact absurd more (Nat.lt_irrefl _)
  · intro unqueued
    exact unqueued _ (mem_append_right _ mem_cons_self) rfl

theorem createCanaryJob_adds {systemDeveloperId jobId : Uuid} {expected : String}
    (ok : createCanaryJob systemDeveloperId jobId expected now system = .ok moved) :
    ¬ moved.Unqueued := by
  obtain ⟨_, rfl⟩ := createCanaryJob_ok ok
  intro unqueued
  exact unqueued _ (mem_append_right _ mem_cons_self) rfl

theorem requeued_queued {jobId : Uuid}
    (ok : reclaimWhere settings now transitioned selected system = .ok moved)
    (requeued : jobId ∈ requeuedBy settings selected system) :
    ¬ moved.Unqueued := by
  obtain ⟨_, code, ok⟩ := bind_eq_ok.mp ok
  cases ok
  obtain ⟨_, chosen, _⟩ := mem_map.mp requeued
  obtain ⟨mem, test⟩ := mem_filter.mp chosen
  simp only [Bool.and_eq_true, decide_eq_true_eq] at test
  obtain ⟨target, here, reclaimed⟩ := exists_of_mapM code mem
  rw [if_pos test.1] at reclaimed
  intro unqueued
  rcases (reclaimJob_ok reclaimed).2.1 with ⟨exhausted, _⟩ | ⟨_, queued⟩
  · exact absurd test.2 (Nat.not_lt.mpr exhausted)
  · exact unqueued target here queued

theorem unqueued_of_reclaimWhere (flying : ∀ job, selected job = true → job.status.inFlight = true)
    (ok : reclaimWhere settings now transitioned selected system = .ok moved)
    (unqueued : moved.Unqueued) : system.Unqueued := by
  obtain ⟨_, code, ok⟩ := bind_eq_ok.mp ok
  cases ok
  intro record mem queued
  obtain ⟨_, here, reclaimed⟩ := exists_of_mapM code mem
  have grounded : ¬ selected record.job = true := by
    intro chosen
    have inFlight := flying record.job chosen
    rw [queued] at inFlight
    cases inFlight
  rw [if_neg grounded] at reclaimed
  cases reclaimed
  exact unqueued record here queued

theorem requeuedBy_eq_nil (ok : reclaimWhere settings now transitioned selected system =
      .ok moved) (unqueued : moved.Unqueued) :
    requeuedBy settings selected system = [] := by
  rw [eq_nil_iff_forall_not_mem]
  intro _ requeued
  exact requeued_queued ok requeued unqueued

theorem recoverQueuedJobs_eq_nil (order : IdOrder)
    (unqueued : system.Unqueued) : recoverQueuedJobs order system = [] := by
  have none : (system.records.filter fun record =>
      record.job.status == .queued) = [] := by
    rw [filter_eq_nil_iff]
    intro record mem
    simpa using unqueued record mem
  have perm := order.perm []
  rw [recoverQueuedJobs, none, map_nil, perm.eq_nil, take_nil]

theorem IdOrder.shuffle_nil (order : IdOrder) : order.shuffle [] = [] := (order.perm []).eq_nil

theorem reaperIteration_entries (pass : ReaperPass)
    (unqueued : (reaperIteration settings pass state).system.Unqueued) :
    (reaperIteration settings pass state).entries.Perm state.entries := by
  unfold reaperIteration at unqueued ⊢
  split at unqueued
  · exact .refl _
  · rename_i reaped _
    split at unqueued
    · exact .refl _
    · rename_i leases
      split at unqueued
      · exact .refl _
      · rename_i drains
        have fromLeases : requeuedBy settings (leaseLapsed pass.leasesAt) reaped = [] := by
          apply requeuedBy_eq_nil leases
          refine unqueued_of_reclaimWhere ?_ drains unqueued
          intro _ chosen
          simp only [stranded, Bool.and_eq_true] at chosen
          exact chosen.1.1
        have fromDrain := requeuedBy_eq_nil drains unqueued
        simp only [fromLeases, fromDrain, IdOrder.shuffle_nil, take_nil, append_nil,
          recoverQueuedJobs_eq_nil pass.recoverOrder unqueued]
        exact .refl _

theorem SchedulerAction.step_entries {action : SchedulerAction}
    (unqueued : StaysUnqueued settings state action) :
    (action.step settings state).entries.Perm state.entries := by
  obtain ⟨before, after⟩ := unqueued
  cases action with
  | submit => exact enqueueCreated_entries (fun _ => submitJob_adds) after
  | canary => exact enqueueCreated_entries (fun _ created _ => createCanaryJob_adds created) after
  | take candidates now locked fault => exact takeJob_entries candidates now locked fault before
  | giveBack index pushed => exact returnJob_entries index pushed
  | reaper pass => exact reaperIteration_entries pass after
  | request => exact .refl _

theorem run_entries {actions : List SchedulerAction}
    (unqueued : AllPermitted (SchedulerAction.step settings)
      (StaysUnqueued settings) actions state) :
    (Serial.run (SchedulerAction.step settings) actions state).entries.Perm state.entries := by
  induction actions generalizing state with
  | nil => exact .refl _
  | cons _ _ ih => exact (ih unqueued.2).trans (SchedulerAction.step_entries unqueued.1)

end

/-- While no job is queued, submitted or requeued and no iteration is
unfinished, the list is empty if and only if every id that stood in it was lost
by an iteration that raised. -/
theorem queue_drained_iff {settings : Settings} {state final : SchedulerState}
    {actions : List SchedulerAction}
    (unqueued : AllPermitted (SchedulerAction.step settings) (StaysUnqueued settings) actions state)
    (ran : final = Serial.run (SchedulerAction.step settings) actions state)
    (started : state.hand = []) (ended : final.hand = []) :
    final.queue = [] ↔ final.lost.length = state.lost.length + state.queue.length := by
  have lengths := (run_entries unqueued).length_eq
  rw [← ran] at lengths
  simp only [SchedulerState.entries, length_append, started, ended] at lengths
  rw [← length_eq_zero_iff]
  omega

def SchedulerState.empty : SchedulerState :=
  { system := .empty, queue := [], hand := [], lost := [] }

def smoothPass : ReaperPass where
  rows := .stored
  clock := ⟨0, 0, 0, 0⟩
  visit := []
  attemptsAt := 0
  leasesAt := 0
  leasesMoved := 0
  drainAt := 0
  drainMoved := 0
  leaseOrder := .stored
  drainOrder := .stored
  recoverOrder := .stored
  pushes := 1000

def recoveredRun : List SchedulerAction :=
  [.submit (minuteRequest false 1) 7 1 none true none 0 true,
    .reaper smoothPass,
    .take (.of [5]) 0 false .none]

def recovered : SchedulerState := Serial.run (SchedulerAction.step .default) recoveredRun .empty

def interrupted : List SchedulerAction := [.take (.of [5]) 0 false .assign]

theorem queue_drained_interrupted : recovered.queue = [1] ∧
      (Serial.run (SchedulerAction.step .default) interrupted recovered).queue = [] := by
  have unqueued : AllPermitted (SchedulerAction.step .default)
      (StaysUnqueued .default) interrupted recovered :=
    ⟨⟨by decide +kernel, by decide +kernel⟩, trivial⟩
  refine ⟨by decide +kernel, ?_⟩
  exact (queue_drained_iff unqueued rfl (by decide +kernel)
    (by decide +kernel)).mpr (by decide +kernel)

theorem queue_keeps_assigned_job : ∃ state,
      Reaches (SchedulerAction.step .default) (fun _ _ => True)
        (fun start => start = .empty) state ∧
      state.system.Unqueued ∧ state.queue = [1] ∧ state.hand = [] ∧
      AllPermitted (SchedulerAction.step .default) (StaysUnqueued .default)
        [.take (.of [5]) 0 false .none, .giveBack 0 true] state ∧
      (Serial.run (SchedulerAction.step .default)
        [.take (.of [5]) 0 false .none, .giveBack 0 true]
        state).queue = [1] := by
  refine ⟨recovered, ?_, by decide +kernel, by decide +kernel,
    by decide +kernel, ?_, by decide +kernel⟩
  · have start : Reaches (SchedulerAction.step .default)
        (fun _ _ => True) (fun start => start = SchedulerState.empty)
        SchedulerState.empty := .start rfl
    apply start.run
    simp [recoveredRun, AllPermitted]
  · exact ⟨⟨by decide +kernel, by decide +kernel⟩, ⟨by decide +kernel, by decide +kernel⟩, trivial⟩

end Gridix
