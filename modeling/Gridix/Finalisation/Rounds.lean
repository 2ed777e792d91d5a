import Gridix.Finalisation.AtMostOnce
import Gridix.Jobs.Penalties

/-!
# Assignment rounds of one job

Any number of replicas run `assign_providers` and the job-level reapers on
one job of redundancy one.  Whoever acts on the job has locked its row and
re-read it, so the copy it plans with is the committed row until it commits:
a round of assignment takes the job out of `queued` with one new attempt, and
only a reaper brings it back.
-/

namespace Gridix.Finalisation

open ReadCommitted List

inductive Episode (settings : Settings) (before after : JobRecord) : Prop where
  | unchanged : after = before → Episode settings before after
  | round (attempt : JobAttempt) : before.job.status = .queued → after.job.status = .assigned →
      after.attempts = before.attempts ++ [attempt] →
      (∀ other ∈ before.attempts, other.attemptNumber ≠ attempt.attemptNumber) →
      after.job.attemptCount = before.job.attemptCount + 1 →
      Episode settings before after
  | reclaimed : before.job.status.inFlight = true → (after.job.status = .queued ∧
          before.job.attemptCount < settings.maxAttempts ∨
        after.job.status = .failed) →
      after.attempts.map JobAttempt.attemptNumber = before.attempts.map JobAttempt.attemptNumber →
      after.job.attemptCount = before.job.attemptCount →
      Episode settings before after

/-- The attempts are within the budget, and a queued job has one left. -/
structure Budgeted (settings : Settings) (record : JobRecord) : Prop where
  within : record.job.attemptCount ≤ settings.maxAttempts
  left : record.job.status = .queued → record.job.attemptCount < settings.maxAttempts

variable {settings : Settings}

theorem budgeted_newJob (allowed : 0 < settings.maxAttempts) (terms : JobTerms) (now : Int) :
    Budgeted settings { job := newJob terms now, attempts := [] } :=
  ⟨Nat.zero_le _, fun _ => allowed⟩

theorem Episode.budgeted {before after : JobRecord} (episode : Episode settings before after)
    (budgeted : Budgeted settings before) : Budgeted settings after := by
  cases episode with
  | unchanged same => rwa [same]
  | round _ queued assigned _ _ =>
    have left := budgeted.left queued
    refine ⟨by omega, ?_⟩
    rw [assigned]
    nofun
  | reclaimed _ outcome _ count =>
    refine ⟨count ▸ budgeted.within, ?_⟩
    intro queued
    rcases outcome with ⟨_, _⟩ | failed
    · rwa [count]
    · rw [failed] at queued
      cases queued

section

variable {settings : Settings} {sweep : Sweep} {job moved : Job}
  {record : JobRecord} {change : Change}

theorem flushJob_own (job moved : Job) : (flushJob job moved job).status = moved.status ∧
      (flushJob job moved job).attemptCount = moved.attemptCount := by
  simp only [flushJob, changed]
  constructor <;> split_ifs with same <;> simp [same]

theorem closeLatest_keeps_numbers (outcome : AttemptOutcome) (now : Int) :
    ((closeLatest record outcome now).apply record.attempts).map JobAttempt.attemptNumber =
        record.attempts.map JobAttempt.attemptNumber := by
  unfold closeLatest
  split
  · rfl
  · rw [Change.apply, map_map]
    refine map_congr_left fun attempt _ => ?_
    simp only [Function.comp_apply]
    split_ifs <;> rfl

theorem newAttempts_single (base : Nat) (providerId : Uuid) (lease : Int) :
    ∃ attempt, newAttempts base [providerId] lease = [attempt] ∧ attempt.attemptNumber = base + 1 :=
  ⟨_, rfl, rfl⟩

theorem plan_episode (single : record.job.redundancy = 1)
    (applies : sweep.applies record.job = true)
    (planned : sweep.plan settings record.job record = .ok (moved, change)) :
    Episode settings record
      { job := flushJob record.job moved record.job
        attempts := change.apply record.attempts } := by
  obtain ⟨status, count⟩ := flushJob_own record.job moved
  cases sweep with
  | reclaim reclaiming =>
    have inFlight := reclaiming.inFlight _ applies
    dsimp only [Sweep.plan] at planned
    unfold Reclaiming.plan at planned
    split_ifs at planned with exhausted
    · obtain ⟨_, legal, result⟩ := Serial.bind_eq_ok.mp planned
      cases result
      obtain ⟨_, rfl⟩ := transition_ok legal
      refine .reclaimed inFlight (.inr ?_) (closeLatest_keeps_numbers _ _) ?_
      · rw [status, stamp_status]
      · rw [count, stamp_attemptCount]
    · obtain ⟨_, legal, result⟩ := Serial.bind_eq_ok.mp planned
      cases result
      obtain ⟨_, rfl⟩ := transition_ok legal
      refine .reclaimed inFlight (.inl ⟨?_, Nat.not_le.mp exhausted⟩)
        (closeLatest_keeps_numbers _ _) ?_
      · rw [status, stamp_status]
      · rw [count, stamp_attemptCount]
  | assign candidates now =>
    simp only [Sweep.applies, Bool.and_eq_true, beq_iff_eq,
      Bool.not_eq_true', isEmpty_eq_false_iff] at applies
    obtain ⟨_, legal, result⟩ := Serial.bind_eq_ok.mp planned
    cases result
    obtain ⟨_, rfl⟩ := transition_ok legal
    have wanted : record.job.wanted = 1 := by
      unfold Job.wanted
      split_ifs
      · exact single
      · rfl
    rw [wanted] at applies
    obtain ⟨providerId, others, ids⟩ :
        ∃ providerId others, candidates.ids = providerId :: others := by
      apply exists_cons_of_ne_nil
      intro none
      rw [none] at applies
      exact applies.2 rfl
    obtain ⟨attempt, new, _⟩ := newAttempts_single record.maxNumber
      providerId (now + settings.leaseSeconds * 1000000)
    refine .round attempt applies.1 ?_ ?_ ?_ ?_
    · rw [status]
      exact stamp_status _ _ _
    · rw [Change.apply, wanted, ids, take_succ_cons, take_zero, new]
    · intro _ mem
      have bound := attemptNumber_le_maxNumber mem
      omega
    · rw [count]
      rw [stamp_attemptCount]

end

def Planned (settings : Settings) (committed : Db) (job moved : Job) (change : Change) : Prop :=
  ∃ sweep : Sweep, sweep.applies job = true ∧ committed.record.job = job ∧
    sweep.plan settings job committed.record = .ok (moved, change)

/-- What each control point relies on: the copy of whoever has locked the job
is the committed row, and its plan was made over the committed rows. -/
def PlansCommitted (settings : Settings) (committed : Db) : Point → Prop
  | .sweep _ => True
  | .locked sweep job =>
    sweep.applies job = true ∧ committed.record.job = job
  | .sweepJob job moved change => Planned settings committed job moved change
  | .sweepAttempts job moved change =>
    Planned settings committed job moved change
  | .sweepCommit job moved change =>
    Planned settings committed job moved change
  | .unchanged => True
  | .raised _ => True
  | .done => True
  | _ => False

abbrev Sweeping (settings : Settings) (terms : JobTerms) : World Db Row Point → Prop := Outline
    (fun world => world.committed.record.job.toJobTerms = terms ∧
      Budgeted settings world.committed.record)
    (fun committed conn => Held terms conn ∧ PlansCommitted settings committed conn.point)
    (fun _ _ => True)

section

variable {settings : Settings} {terms : JobTerms}
  {world start : World Db Row Point} {index : Nat}
  {conn moved bystander : Conn Db Row Point} {committed : Db}

theorem plansCommitted_unlocked {other : Db} {point : Point}
    (plans : PlansCommitted settings committed point) (unlocked : point.holdsJob = false) :
    PlansCommitted settings other point := by
  cases point with
  | sweep | unchanged | raised | done => trivial
  | locked | sweepJob | sweepAttempts | sweepCommit => cases unlocked
  | _ => exact plans.elim

theorem sweep_move (held : Held terms conn)
    (plans : PlansCommitted settings world.committed conn.point)
    (move : Move (program settings) world index conn moved committed) :
    (committed = world.committed ∧ PlansCommitted settings world.committed moved.point) ∨
    (∃ job target change, conn.point = .sweepCommit job target change ∧ moved = .fresh .done ∧
      Planned settings world.committed job target change ∧
      committed = conn.point.flushed world.committed) := by
  have gaveUp (aborted : Aborted (program settings) world conn moved
      committed) : committed = world.committed ∧
        PlansCommitted settings world.committed moved.point := by
    obtain ⟨rfl, rfl⟩ := aborted
    exact ⟨rfl, trivial⟩
  obtain ⟨point, pending, _⟩ := conn
  cases point with
  | sweep =>
    obtain rfl : pending = id := held.pending rfl
    rcases move.inv rfl with aborted | ⟨_, _, _, rfl, rfl⟩
    · exact .inl (gaveUp aborted)
    · refine .inl ⟨rfl, ?_⟩
      unfold afterSweep
      split_ifs with acts
      · rw [Bool.and_eq_true] at acts
        exact ⟨acts.2, rfl⟩
      · trivial
  | locked sweep _ =>
    obtain rfl : pending = id := held.pending rfl
    rcases move.inv rfl with aborted | ⟨rfl, rfl⟩
    · exact .inl (gaveUp aborted)
    · refine .inl ⟨rfl, ?_⟩
      unfold afterLocked
      split
      · trivial
      · rename_i _ planned
        exact ⟨sweep, plans.1, plans.2, planned⟩
  | sweepJob | sweepAttempts =>
    rcases move.inv rfl with aborted | ⟨_, rfl, rfl⟩
    · exact .inl (gaveUp aborted)
    · exact .inl ⟨rfl, plans⟩
  | sweepCommit job target change =>
    rcases move.inv rfl with aborted | ⟨rfl, rfl⟩
    · exact .inl (gaveUp aborted)
    · refine .inr ⟨job, target, change, rfl, rfl, plans, ?_⟩
      rw [held.pending rfl]
  | unchanged | raised =>
    rcases move.inv rfl with aborted | ⟨rfl, rfl⟩
    · exact .inl (gaveUp aborted)
    · exact .inl ⟨rfl, trivial⟩
  | done => exact (move.halt_inv rfl).elim
  | _ => exact plans.elim

theorem sweep_episode (single : world.committed.record.job.redundancy = 1) (held : Held terms conn)
    (plans : PlansCommitted settings world.committed conn.point)
    (move : Move (program settings) world index conn moved committed) :
    Episode settings world.committed.record committed.record := by
  rcases sweep_move held plans move with ⟨rfl, _⟩ | ⟨_, _, _, here, _, planned, rfl⟩
  · exact .unchanged rfl
  · rw [here]
    obtain ⟨_, applies, rfl, plan⟩ := planned
    exact plan_episode single applies plan

theorem sweeping_start (begun : ∀ conn ∈ start.conns, ∃ sweep, conn = .fresh (.sweep sweep))
    (budgeted : Budgeted settings start.committed.record) :
    Sweeping settings start.committed.record.job.toJobTerms start where
  whole := ⟨rfl, budgeted⟩
  each := by
    intro _ conn found
    obtain ⟨_, rfl⟩ := begun conn (mem_of_getElem? found)
    exact ⟨.fresh rfl rfl rfl, trivial⟩
  pair := by
    intros
    trivial
  compatible := by
    intro _ _ leftConn _ _ found _ _ _ _ held
    obtain ⟨_, rfl⟩ := begun leftConn (mem_of_getElem? found)
    cases held

theorem reaches_sweeping {allowed : World Db Row Point → Action → Prop}
    (reached : Reaches (program settings) allowed start world) (single : terms.redundancy = 1)
    (initial : Sweeping settings terms start) :
    Sweeping settings terms world := by
  apply reached.outline initial
  intro world _ conn _ _ sweeping _ found move _
  obtain ⟨held, plans⟩ := sweeping.each _ conn found
  obtain ⟨same, budgeted⟩ := sweeping.whole
  have alone : world.committed.record.job.redundancy = 1 :=
    (congrArg JobTerms.redundancy same).trans single
  have episode := sweep_episode alone held plans move
  obtain ⟨heldMoved, _⟩ := held.outcome same move
  rcases sweep_move held plans move with
    ⟨rfl, plansMoved⟩ | ⟨job, target, change, here, rfl, planned, rfl⟩
  · exact ⟨⟨same, budgeted⟩, ⟨heldMoved, plansMoved⟩, fun other peer _ present =>
        ⟨sweeping.each other peer present, trivial, trivial⟩⟩
  · refine ⟨⟨?_, episode.budgeted budgeted⟩, ⟨.fresh_done, trivial⟩, ?_⟩
    · exact (conn.point.flushed_terms _).trans same
    · intro other peer ne present
      obtain ⟨heldOther, plansOther⟩ := sweeping.each other peer present
      refine ⟨⟨heldOther, plansCommitted_unlocked plansOther ?_⟩, trivial, trivial⟩
      -- the committing connection holds the job row
      apply held.exclusive heldOther (sweeping.compatible _ _ _ _ (Ne.symm ne) found present)
      rw [here]
      rfl

end

/-- How often attempts were added. -/
def rounds : List JobRecord → Nat
  | after :: before :: rest =>
    (if before.attempts.length < after.attempts.length then 1 else 0) + rounds (before :: rest)
  | _ => 0

/-- How often the job entered the queue. -/
def queuedPeriods : List JobRecord → Nat
  | [] => 0
  | [first] => if first.job.status = .queued then 1 else 0
  | after :: before :: rest =>
    (if after.job.status = .queued ∧ before.job.status ≠ .queued then 1
      else 0) + queuedPeriods (before :: rest)

theorem Episode.counts {before after : JobRecord} (episode : Episode settings before after) :
    (if before.attempts.length < after.attempts.length then 1 else 0) +
        (if after.job.status = .queued then 1 else 0) =
      (if after.job.status = .queued ∧ before.job.status ≠ .queued then 1
          else 0) +
        (if before.job.status = .queued then 1 else 0) := by
  cases episode with
  | unchanged same =>
    subst same
    simp
  | round _ queued assigned attempts => simp [queued, assigned, attempts]
  | reclaimed inFlight _ numbers =>
    have length : after.attempts.length = before.attempts.length := by
      simpa using congrArg List.length numbers
    have flying : before.job.status ≠ .queued := by
      intro queued
      rw [queued] at inFlight
      cases inFlight
    simp [length, flying]

theorem rounds_add_queued {latest : JobRecord} {rest : List JobRecord}
    (chain : (latest :: rest).IsChain fun after before => Episode settings before after) :
    rounds (latest :: rest) + (if latest.job.status = .queued then 1 else 0) =
      queuedPeriods (latest :: rest) := by
  induction rest generalizing latest with
  | nil => simp [rounds, queuedPeriods]
  | cons _ _ ih =>
    obtain ⟨episode, older⟩ := isChain_cons_cons.mp chain
    have counts := episode.counts
    have earlier := ih older
    rw [rounds, queuedPeriods]
    omega

/-- However replicas assign and reap a job of redundancy one, each period in the
queue ends in at most one round, and the attempts stay within their budget. -/
theorem one_round_per_queued_period {settings : Settings} {start world : World Db Row Point}
    {history : List Db} (traced : Traced (program settings) (fun _ _ => True) start world history)
    (begun : ∀ conn ∈ start.conns, ∃ sweep, conn = .fresh (.sweep sweep))
    (single : start.committed.record.job.redundancy = 1)
    (budgeted : Budgeted settings start.committed.record) :
    (history.map Db.record).IsChain (fun after before =>
        Episode settings before after) ∧
      rounds (history.map Db.record) +
          (if world.committed.record.job.status = .queued then 1 else 0) =
        queuedPeriods (history.map Db.record) ∧
      ∀ db ∈ history, db.record.job.attemptCount ≤ settings.maxAttempts := by
  have sweeping : ∀ world, Reaches (program settings) (fun _ _ => True) start world →
      Sweeping settings start.committed.record.job.toJobTerms world :=
    fun world reached =>
      reaches_sweeping reached single (sweeping_start begun budgeted)
  have related : ∀ world action next,
      Reaches (program settings) (fun _ _ => True) start world → True →
      step (program settings) world action = some next →
      Episode settings world.committed.record next.committed.record := by
    intro world _ _ reached _ stepped
    obtain ⟨conn, _, _, found, move, _, rfl⟩ := step_move stepped
    obtain ⟨held, plans⟩ := (sweeping world reached).each _ conn found
    have same := (sweeping world reached).whole.1
    exact sweep_episode ((congrArg JobTerms.redundancy same).trans single) held plans move
  obtain ⟨rest, rfl, chain⟩ := @Traced.chain Db Row Point _ _ _ _ _ _
    (fun before after => Episode settings before.record after.record)
    traced related
  have records : ((world.committed :: rest).map Db.record).IsChain
      fun after before => Episode settings before after :=
    (isChain_map Db.record).mpr chain
  refine ⟨records, rounds_add_queued records, ?_⟩
  exact traced.forall fun world reached =>
    (sweeping world reached).whole.2.within

/-! Two replicas race for the queued job, a reaper brings it back, and a third
replica assigns it again. -/

def racingReplicas : World Db Row Point where
  committed :=
    { record := { job := newJob minuteTerms 0, attempts := [] }
      ledger := [] }
  conns := [.fresh (.sweep (.assign ⟨[7], by decide⟩ 0)),
      .fresh (.sweep (.assign ⟨[8], by decide⟩ 0)),
      .fresh (.sweep (.reclaim (reapExpiredLeases (10 ^ 9) (10 ^ 9)))),
      .fresh (.sweep (.assign ⟨[9], by decide⟩ (10 ^ 9)))]

def racingSchedule : List Action := [0, 1, 0, 0, 0, 0, 1, 2, 2, 2, 2, 2, 3, 3, 3, 3, 3].map .exec

theorem racingReplicas_begun : ∀ conn ∈ racingReplicas.conns,
    ∃ sweep, conn = .fresh (.sweep sweep) := by
  intro _ mem
  simp only [racingReplicas, mem_cons, not_mem_nil, or_false] at mem
  rcases mem with rfl | rfl | rfl | rfl <;> exact ⟨_, rfl⟩

theorem one_round_per_queued_period_racing : ∃ world history,
      runTraced (program Settings.default) racingReplicas
        [racingReplicas.committed] racingSchedule = some (world, history) ∧
      rounds (history.map Db.record) = 2 ∧
      rounds (history.map Db.record) +
          (if world.committed.record.job.status = .queued then 1 else 0) =
        queuedPeriods (history.map Db.record) ∧
      ∀ db ∈ history, db.record.job.attemptCount ≤ 3 := by
  obtain ⟨⟨world, history⟩, ran, two⟩ : ∃ result ∈ runTraced (program Settings.default)
      racingReplicas [racingReplicas.committed] racingSchedule,
        rounds (result.2.map Db.record) = 2 := by
    decide +kernel
  obtain ⟨_, counts, within⟩ := one_round_per_queued_period
    (traced_of_run .refl ran) racingReplicas_begun rfl
    (budgeted_newJob (by decide) minuteTerms 0)
  exact ⟨world, history, ran, two, counts, within⟩

end Gridix.Finalisation
