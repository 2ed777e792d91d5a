import Gridix.Base.Coroutines
import Gridix.Inference.Streaming

/-!
# Free chat

A run of the body holds one of the process's slots while it reads the frames
of a node.  The loop over `dispatch_stream` is not inside an `aclosing`.  When
it is left at a yield or by a `break`, the generator is only dropped, and the
event loop closes it later, in a task of its own.
-/

namespace Gridix.FreeChat

open Coroutines List Serial

/-- The `dispatch_stream` generator of a run.  An open one counts as in flight,
and so does its relay stream. -/
inductive Generation where
  | unopened
  | opened
  | closed
  deriving DecidableEq

/-- The future of a waiter.  `cancel()` on its task cancels the future at once
and is delivered to the task later. -/
inductive Waiter where
  | pending
  | granted
  | cancelled
  deriving DecidableEq

/-- Where a run of the body is suspended: in `acquire`, at the next frame, at
a yield inside the loop or behind it, or at a yield of an `except` clause. -/
inductive Stage where
  | queued (waiter : Waiter)
  | awaiting
  | content
  | errorEvent
  | closing (last : Bool)
  | apology (last : Bool)
  | done
  deriving DecidableEq

/-- The caller is inside the semaphore. -/
def Stage.holds : Stage → Bool
  | .awaiting | .content | .errorEvent | .closing _ => true
  | _ => false

def Stage.isQueued : Stage → Bool
  | .queued _ => true
  | _ => false

def Stage.blocks : Stage → Bool
  | .queued waiter => waiter ≠ .cancelled
  | _ => false

def Stage.owns : Stage → Bool
  | .queued waiter => waiter = .granted
  | stage => stage.holds

/-- `closer` says that the generator was dropped and that the event loop has its
`aclose` still to run. -/
structure Run where
  stage : Stage
  generation : Generation
  closer : Bool

structure Capacity where
  value : Nat
  waiting : Nat

/-- How an await or a yield ends; `cancelled` is also the `GeneratorExit` of a
client that has gone. -/
inductive Reply where
  | returned
  | frame (frame : Frame)
  | exhausted
  | dispatchError
  | raised
  | cancelled

/-- A caller that met `CapacityFull`. -/
def Run.refused : Run := ⟨.apology false, .unopened, false⟩

namespace Run

variable (parse : String → Option Int) (run : Run)

def leave (capacity : Capacity) : Run × Capacity :=
  (run, { capacity with value := capacity.value + 1 })

def drop (stage : Stage) : Run :=
  { run with stage := stage, closer := run.generation = .opened }

def read (frame : Frame) (capacity : Capacity) : Run × Capacity :=
  match frame.kind with
  | .chunk => ({ run with stage := if frame.hasDelta then .content else .awaiting }, capacity)
  | .error => ({ run with stage := .errorEvent }, capacity)
  | kind =>
    match frame.status parse with
    | none => (run.drop .done).leave capacity
    | some status =>
      if 400 ≤ status then ({ run with stage := .errorEvent }, capacity)
      else if kind = .response then (run.drop (.closing false), capacity)
      else ({ run with stage := .awaiting }, capacity)

def resume (reply : Reply) (capacity : Capacity) : Run × Capacity :=
  match run.stage, reply with
  | .queued .granted, .returned =>
    (⟨.awaiting, .opened, false⟩, { capacity with waiting := capacity.waiting - 1 })
  | .queued .granted, .cancelled =>
    ({ run with stage := .done }, ⟨capacity.value + 1, capacity.waiting - 1⟩)
  | .queued .cancelled, .cancelled =>
    ({ run with stage := .done }, { capacity with waiting := capacity.waiting - 1 })
  | .awaiting, .frame frame => run.read parse frame capacity
  -- these end the generator before they get here
  | .awaiting, .exhausted => (⟨.closing false, .closed, false⟩, capacity)
  | .awaiting, .dispatchError => leave ⟨.apology false, .closed, false⟩ capacity
  | .awaiting, .raised => leave ⟨.done, .closed, false⟩ capacity
  | .awaiting, .cancelled => leave ⟨.done, .closed, false⟩ capacity
  | .content, .returned => ({ run with stage := .awaiting }, capacity)
  | .errorEvent, .returned => (run.drop (.closing false), capacity)
  | .content, .cancelled => (run.drop .done).leave capacity
  | .errorEvent, .cancelled => (run.drop .done).leave capacity
  | .closing false, .returned => ({ run with stage := .closing true }, capacity)
  | .closing true, .returned => leave { run with stage := .done } capacity
  | .closing _, .cancelled => leave { run with stage := .done } capacity
  | .apology false, .returned => ({ run with stage := .apology true }, capacity)
  | .apology _, _ => ({ run with stage := .done }, capacity)
  | _, _ => (run, capacity)

def grant (capacity : Capacity) : Run × Capacity :=
  if run.stage = .queued .pending ∧ 0 < capacity.value then
    ({ run with stage := .queued .granted }, { capacity with value := capacity.value - 1 })
  else (run, capacity)

/-- `cancel()` on the task of a waiter. -/
def cancel (capacity : Capacity) : Run × Capacity :=
  ({ run with stage := if run.stage = .queued .pending then .queued .cancelled else run.stage },
    capacity)

/-- The event loop runs the `aclose` of a dropped generator. -/
def finalise (capacity : Capacity) : Run × Capacity :=
  (if run.closer then { run with generation := .closed, closer := false } else run, capacity)

/-- The generator is not open inside the loop, or is open behind it and nothing
is there to close it. -/
def strays : Bool :=
  match run.stage with
  | .awaiting | .content | .errorEvent => run.generation ≠ .opened || run.closer
  | .closing _ => decide (run.generation = .opened) != run.closer
  | _ => run.generation = .opened || run.closer

end Run

abbrev Runs := Pool Capacity Run

/-- What the loop does to a caller. -/
inductive Event where
  | arrive
  | resume (index : Nat) (reply : Reply)
  | cancel (index : Nat)
  | finalise (index : Nat)

/-- `_wake_up_next`: the first waiter whose future is not done gets what is
free. -/
def wake (pool : Runs) : Runs :=
  (pool.tasks.findIdx? (·.stage = .queued .pending)).elim pool (pool.resume Run.grant)

/-- A `release` wakes one waiter, the end of an `acquire` as many as there is
room for. -/
def wakes (before after : Capacity) : Nat :=
  if after.waiting < before.waiting then after.value else after.value - before.value

def start (slots : Nat) : Runs := ⟨⟨slots, 0⟩, []⟩

/-- `slot()` runs up to its await on arrival; nobody overtakes a waiter that is
not cancelled. -/
def step (parse : String → Option Int) (queueDepth : Nat) : Event → Runs → Runs
  | .arrive, pool =>
    if queueDepth ≤ pool.shared.waiting then pool.spawn .refused
    else if pool.shared.value = 0 ∨ pool.tasks.any (·.stage.blocks) then
      { pool.spawn ⟨.queued .pending, .unopened, false⟩ with
        shared := { pool.shared with waiting := pool.shared.waiting + 1 } }
    else
      { pool.spawn ⟨.awaiting, .opened, false⟩ with
        shared := { pool.shared with value := pool.shared.value - 1 } }
  | .resume index reply, pool =>
    let moved := pool.resume (Run.resume parse · reply) index
    wake^[wakes pool.shared moved.shared] moved
  | .cancel index, pool => pool.resume Run.cancel index
  | .finalise index, pool => pool.resume Run.finalise index

variable {parse : String → Option Int} {pool : Runs} {run : Run} {capacity : Capacity}
  {reply : Reply} {slots queueDepth : Nat}

def Capacity.total (capacity : Capacity) (run : Run) : Nat := capacity.value + run.stage.owns.toNat

theorem Run.read_counts (awaiting : run.stage = .awaiting) (frame : Frame) :
    (run.read parse frame capacity).2.total (run.read parse frame capacity).1 =
        capacity.total run ∧
      (run.read parse frame capacity).2.waiting = capacity.waiting ∧
      (run.read parse frame capacity).1.stage.isQueued = false := by
  obtain ⟨_, _⟩ := run
  subst awaiting
  unfold read
  split
  · dsimp only
    split_ifs <;> exact ⟨rfl, rfl, rfl⟩
  · exact ⟨rfl, rfl, rfl⟩
  · split
    · exact ⟨rfl, rfl, rfl⟩
    · split_ifs <;> exact ⟨rfl, rfl, rfl⟩

/-- What a resumed run does to the counters: the slots stay, and `waiting` goes
with the queue. -/
theorem Run.resume_counts (run : Run) (reply : Reply) (capacity : Capacity) :
    (run.resume parse reply capacity).2.total (run.resume parse reply capacity).1 =
        capacity.total run ∧
      ((run.stage.isQueued = true → 0 < capacity.waiting) →
        (run.resume parse reply capacity).2.waiting + run.stage.isQueued.toNat =
          capacity.waiting + (run.resume parse reply capacity).1.stage.isQueued.toNat) ∧
      ((run.resume parse reply capacity).1.stage.isQueued = true → run.stage.isQueued = true) := by
  obtain ⟨stage, generation, closer⟩ := run
  cases stage with
  | awaiting =>
    cases reply with
    | frame frame =>
      obtain ⟨kept, same, unqueued⟩ :=
        @read_counts parse ⟨.awaiting, generation, closer⟩ capacity rfl frame
      refine ⟨kept, fun _ => ?_, fun queued => ?_⟩
      · change (Run.read _ _ _ _).2.waiting + 0 = _ + (Run.read _ _ _ _).1.stage.isQueued.toNat
        rw [same, unqueued]
        rfl
      · exact absurd (unqueued.symm.trans queued) Bool.false_ne_true
    | _ => exact ⟨rfl, fun _ => rfl, id⟩
  | queued waiter =>
    cases waiter <;> cases reply <;> first
      | exact ⟨rfl, fun _ => rfl, fun _ => rfl⟩
      | exact ⟨rfl, fun counted => Nat.sub_add_cancel (counted rfl), fun _ => rfl⟩
  | closing last | apology last => cases last <;> cases reply <;> exact ⟨rfl, fun _ => rfl, id⟩
  | _ => cases reply <;> exact ⟨rfl, fun _ => rfl, id⟩

def total (pool : Runs) : Nat := pool.shared.value + pool.count (·.stage.owns)

theorem total_resume {body : Run → Capacity → Run × Capacity}
    (keeps : ∀ run capacity, (body run capacity).2.total (body run capacity).1 =
      capacity.total run) (index : Nat) : total (pool.resume body index) = total pool := by
  rcases pool.resume_cases body index with same | ⟨run, _, _, rfl, shared, counts⟩
  · rw [same]
  · have kept := keeps run pool.shared
    have owned := counts (·.stage.owns)
    rw [total, total, shared]
    unfold Capacity.total at kept
    omega

theorem strays_resume {body : Run → Capacity → Run × Capacity} {index : Nat}
    (tight : ∀ run, pool.tasks[index]? = some run → run.strays = false →
      (body run pool.shared).1.strays = false) (none : pool.count Run.strays = 0) :
    (pool.resume body index).count Run.strays = 0 := by
  rcases pool.resume_cases body index with same | ⟨run, _, found, rfl, _, counts⟩
  · rw [same, none]
  · have sound : run.strays = false := by
      rw [← Bool.not_eq_true]
      intro straying
      exact absurd none (Nat.ne_of_gt (Pool.count_pos found straying))
    have counted := counts Run.strays
    rw [tight run found sound, sound, none] at counted
    exact counted

/-- No slot is given back, nobody enters or leaves the queue, and no run starts
to stray. -/
structure Quiet (pool moved : Runs) : Prop where
  total : total moved = total pool
  value : moved.shared.value ≤ pool.shared.value
  waiting : moved.shared.waiting = pool.shared.waiting
  queued : moved.count (·.stage.isQueued) = pool.count (·.stage.isQueued)
  strays : pool.count Run.strays = 0 → moved.count Run.strays = 0

structure Run.Quiet (run : Run) (capacity : Capacity) (moved : Run × Capacity) : Prop where
  total : moved.2.total moved.1 = capacity.total run
  value : moved.2.value ≤ capacity.value
  waiting : moved.2.waiting = capacity.waiting
  queued : moved.1.stage.isQueued = run.stage.isQueued
  strays : run.strays = false → moved.1.strays = false

theorem Run.Quiet.same (run : Run) (capacity : Capacity) : run.Quiet capacity (run, capacity) :=
  ⟨rfl, Nat.le_refl _, rfl, rfl, id⟩

theorem Run.grant_quiet (run : Run) (capacity : Capacity) :
    run.Quiet capacity (run.grant capacity) := by
  unfold grant
  split_ifs with free
  · obtain ⟨_, _⟩ := run
    obtain ⟨rfl, pos⟩ := free
    exact ⟨Nat.sub_add_cancel pos, Nat.sub_le _ _, rfl, rfl, id⟩
  · exact .same run capacity

theorem Run.cancel_quiet (run : Run) (capacity : Capacity) :
    run.Quiet capacity (run.cancel capacity) := by
  unfold cancel
  split_ifs with pending
  · obtain ⟨_, _⟩ := run
    obtain rfl := pending
    exact ⟨rfl, Nat.le_refl _, rfl, rfl, id⟩
  · exact .same run capacity

theorem Run.finalise_quiet (run : Run) (capacity : Capacity) :
    run.Quiet capacity (run.finalise capacity) := by
  unfold finalise
  split_ifs
  · refine ⟨rfl, Nat.le_refl _, rfl, rfl, fun sound => ?_⟩
    obtain ⟨stage, _, _⟩ := run
    cases stage <;> simp_all [strays]
  · exact .same run capacity

theorem Quiet.resume {body : Run → Capacity → Run × Capacity}
    (quiet : ∀ (run : Run) capacity, run.Quiet capacity (body run capacity)) (index : Nat) :
    Quiet pool (pool.resume body index) := by
  have total := @total_resume pool _ (fun run capacity => (quiet run capacity).total) index
  have strays := @strays_resume pool _ index fun run _ => (quiet run pool.shared).strays
  rcases pool.resume_cases body index with same | ⟨run, _, _, rfl, shared, counts⟩
  · rw [same]
    exact ⟨rfl, Nat.le_refl _, rfl, rfl, id⟩
  · obtain ⟨_, value, waiting, queued, _⟩ := quiet run pool.shared
    have counted := counts (·.stage.isQueued)
    rw [queued] at counted
    exact ⟨total, shared ▸ value, shared ▸ waiting, Nat.add_right_cancel counted, strays⟩

theorem wakes_quiet (count : Nat) (pool : Runs) : Quiet pool (wake^[count] pool) := by
  induction count with
  | zero => exact ⟨rfl, Nat.le_refl _, rfl, rfl, id⟩
  | succ count ih =>
    have woken : Quiet (wake^[count] pool) (wake (wake^[count] pool)) := by
      unfold wake
      cases List.findIdx? _ _ with
      | none => exact ⟨rfl, Nat.le_refl _, rfl, rfl, id⟩
      | some next => exact .resume Run.grant_quiet next
    rw [Function.iterate_succ_apply']
    exact ⟨woken.total.trans ih.total, woken.value.trans ih.value, woken.waiting.trans ih.waiting,
      woken.queued.trans ih.queued, fun none => woken.strays (ih.strays none)⟩

theorem step_total (event : Event) : total (step parse queueDepth event pool) = total pool := by
  cases event with
  | arrive =>
    simp only [step]
    split_ifs
    · rw [total, Pool.count_spawn]
      rfl
    · change pool.shared.value + (pool.spawn _).count _ = _
      rw [Pool.count_spawn]
      rfl
    · change pool.shared.value - 1 + (pool.spawn _).count _ = _
      rw [Pool.count_spawn, total]
      simp only [Stage.owns, Stage.holds, Bool.toNat_true]
      omega
  | resume index reply =>
    refine (wakes_quiet _ _).total.trans (total_resume ?_ index)
    exact fun run capacity => (run.resume_counts reply capacity).1
  | cancel index => exact (Quiet.resume Run.cancel_quiet index).total
  | finalise index => exact (Quiet.resume Run.finalise_quiet index).total

theorem reaches_total {allowed : Runs → Event → Prop}
    (reached : Reaches (step parse queueDepth) allowed (· = start slots) pool) :
    total pool = slots := by
  induction reached with
  | start initial => rw [initial]; rfl
  | step _ _ _ ih => rw [step_total, ih]

structure Counted (queueDepth : Nat) (pool : Runs) : Prop where
  waiting : pool.shared.waiting = pool.count (·.stage.isQueued)
  bounded : pool.shared.waiting ≤ queueDepth

theorem Counted.quiet {moved : Runs} (counted : Counted queueDepth pool)
    (quiet : Quiet pool moved) : Counted queueDepth moved := by
  refine ⟨?_, quiet.waiting ▸ counted.bounded⟩
  rw [quiet.waiting, quiet.queued, counted.waiting]

theorem Counted.resume (counted : Counted queueDepth pool) (index : Nat) (reply : Reply) :
    Counted queueDepth (pool.resume (Run.resume parse · reply) index) ∧
      (pool.count (·.stage.isQueued) = 0 →
        (pool.resume (Run.resume parse · reply) index).count (·.stage.isQueued) = 0) := by
  rcases pool.resume_cases (Run.resume parse · reply) index with
    same | ⟨run, _, found, rfl, shared, counts⟩
  · rw [same]
    exact ⟨counted, id⟩
  · have queued := counts (·.stage.isQueued)
    obtain ⟨_, moves, never⟩ := @Run.resume_counts parse run reply pool.shared
    have moved := moves fun waits => counted.waiting ▸ Pool.count_pos found waits
    have waiting := counted.waiting
    have bounded := counted.bounded
    have fewer : (run.resume parse reply pool.shared).1.stage.isQueued.toNat ≤
        run.stage.isQueued.toNat := Bool.toNat_le_toNat never
    refine ⟨⟨?_, ?_⟩, fun none => ?_⟩
    · rw [shared]
      omega
    · rw [shared]
      omega
    · omega

theorem Counted.step (counted : Counted queueDepth pool) (event : Event) :
    Counted queueDepth (step parse queueDepth event pool) := by
  cases event with
  | arrive =>
    obtain ⟨waiting, bounded⟩ := counted
    simp only [FreeChat.step]
    split_ifs with full _
    · exact ⟨by rw [Pool.count_spawn]; exact waiting, bounded⟩
    · refine ⟨?_, Nat.not_le.mp full⟩
      change pool.shared.waiting + 1 = (pool.spawn _).count _
      rw [Pool.count_spawn, waiting]
      rfl
    · refine ⟨?_, bounded⟩
      change pool.shared.waiting = (pool.spawn _).count _
      rw [Pool.count_spawn, waiting]
      rfl
  | resume index reply =>
    exact (@Counted.resume parse _ _ counted index reply).1.quiet (wakes_quiet _ _)
  | cancel index => exact counted.quiet (.resume Run.cancel_quiet index)
  | finalise index => exact counted.quiet (.resume Run.finalise_quiet index)

/-- A slot is not given back while everyone in the queue has been handed one
and has yet to take it up. -/
def Settled (parse : String → Option Int) (pool : Runs) : Event → Prop
  | .resume index reply =>
    let moved := pool.resume (Run.resume parse · reply) index
    pool.shared.value < moved.shared.value → moved.count (·.stage.isQueued) = 0 ∨
      ∃ run ∈ moved.tasks, run.stage = .queued .pending
  | _ => True

/-- No slot lies free while somebody is queued. -/
def Busy (pool : Runs) : Prop := 0 < pool.shared.value → pool.count (·.stage.isQueued) = 0

theorem wake_waiter (waiter : ∃ run ∈ pool.tasks, run.stage = .queued .pending)
    (one : pool.shared.value = 1) : (wake pool).shared.value = 0 := by
  unfold wake
  cases found : pool.tasks.findIdx? (·.stage = .queued .pending) with
  | none =>
    obtain ⟨run, mem, queued⟩ := waiter
    exact absurd queued (of_decide_eq_false (findIdx?_eq_none_iff.mp found run mem))
  | some next =>
    obtain ⟨inside, queued, _⟩ := findIdx?_eq_some_iff_getElem.mp found
    have granted : (pool.tasks[next].grant pool.shared).2.value = 0 := by
      rw [Run.grant, if_pos ⟨of_decide_eq_true queued, one ▸ Nat.one_pos⟩, one]
    simpa [Pool.resume, getElem?_eq_getElem inside] using granted

theorem Busy.quiet {moved : Runs} (busy : Busy pool) (quiet : Quiet pool moved) : Busy moved :=
  fun free => quiet.queued.trans (busy (Nat.lt_of_lt_of_le free quiet.value))

theorem Busy.step (busy : Busy pool) (counted : Counted queueDepth pool) {event : Event}
    (settled : Settled parse pool event) : Busy (step parse queueDepth event pool) := by
  cases event with
  | arrive =>
    simp only [FreeChat.step]
    split_ifs with _ taken
    · intro free
      rw [Pool.count_spawn, busy free]
      rfl
    · intro free
      have nobody := countP_eq_zero.mp (busy free)
      rcases taken with spent | queued
      · exact absurd spent (Nat.ne_of_gt free)
      · obtain ⟨run, mem, waits⟩ := any_eq_true.mp queued
        refine absurd ?_ (nobody run mem)
        cases stage : run.stage <;> rw [stage] at waits <;> first | rfl | cases waits
    · intro free
      change (pool.spawn _).count _ = 0
      rw [Pool.count_spawn, busy (Nat.lt_of_lt_of_le free (Nat.sub_le _ _))]
      rfl
  | resume index reply =>
    obtain ⟨_, stays⟩ := @Counted.resume parse _ _ counted index reply
    have limited : (pool.resume (Run.resume parse · reply) index).shared.value ≤
        pool.shared.value + 1 := by
      rcases pool.resume_cases (Run.resume parse · reply) index with
        same | ⟨run, _, _, rfl, shared, _⟩
      · rw [same]
        omega
      · have kept := (@Run.resume_counts parse run reply pool.shared).1
        rw [shared]
        unfold Capacity.total at kept
        have one := Bool.toNat_le run.stage.owns
        omega
    simp only [FreeChat.step, Settled] at settled ⊢
    generalize pool.resume (Run.resume parse · reply) index = moved at *
    intro free
    rw [(wakes_quiet _ _).queued]
    rcases Nat.eq_zero_or_pos pool.shared.value with _ | had
    · by_cases gained : pool.shared.value < moved.shared.value
      · rcases settled gained with nobody | waiter
        · exact nobody
        · have once : wakes pool.shared moved.shared = 1 := by
            unfold wakes
            split_ifs <;> omega
          rw [once, Function.iterate_one, wake_waiter waiter (by omega)] at free
          exact absurd free (Nat.lt_irrefl 0)
      · have none : wakes pool.shared moved.shared = 0 := by
          unfold wakes
          split_ifs <;> omega
        rw [none, Function.iterate_zero_apply] at free
        omega
    · exact stays (busy had)
  | cancel index => exact busy.quiet (.resume Run.cancel_quiet index)
  | finalise index => exact busy.quiet (.resume Run.finalise_quiet index)

/-- No more than `slots` callers hold a slot, and `waiting` counts those in the
queue.  A caller is refused only when every slot is taken and the queue is full,
as long as the pool is settled. -/
theorem waiting_room_bounded {allowed : Runs → Event → Prop}
    (reached : Reaches (step parse queueDepth) allowed (· = start slots) pool) :
    pool.count (·.stage.holds) ≤ slots ∧ pool.shared.waiting = pool.count (·.stage.isQueued) ∧
      (0 < queueDepth → Reaches (step parse queueDepth) (Settled parse) (· = start slots) pool →
        (step parse queueDepth .arrive pool).tasks = pool.tasks ++ [.refused] →
        pool.count (·.stage.owns) = slots ∧ pool.count (·.stage.isQueued) = queueDepth) := by
  have counted : Counted queueDepth pool := by
    induction reached with
    | start initial => rw [initial]; exact ⟨rfl, Nat.zero_le _⟩
    | step _ event _ ih => exact ih.step event
  have slots := reaches_total reached
  unfold total at slots
  refine ⟨?_, counted.waiting, fun room settled refused => ?_⟩
  · have owned : pool.count (·.stage.holds) ≤ pool.count (·.stage.owns) := by
      refine countP_mono_left fun run mem holding => ?_
      cases stage : run.stage <;> rw [stage] at holding <;> first | rfl | cases holding
    omega
  · have busy : Busy pool ∧ Counted queueDepth pool := by
      clear slots counted refused reached
      induction settled with
      | start initial => rw [initial]; exact ⟨fun _ => rfl, rfl, Nat.zero_le _⟩
      | step _ event permitted ih => exact ⟨ih.1.step ih.2 permitted, ih.2.step event⟩
    have full : queueDepth ≤ pool.shared.waiting := by
      by_contra room
      simp only [step] at refused
      split_ifs at refused <;> simp [Pool.spawn, Run.refused] at refused
    have queued : pool.count (·.stage.isQueued) = queueDepth :=
      Nat.le_antisymm (counted.waiting ▸ counted.bounded) (counted.waiting ▸ full)
    have spent : pool.shared.value = 0 := by
      by_contra free
      have nobody := busy.1 (Nat.pos_of_ne_zero free)
      omega
    exact ⟨by omega, queued⟩

theorem waiting_room_bounded_third : (Serial.run (step (fun _ => none) 1) [.arrive, .arrive]
    (start 1)).count (·.stage.owns) = 1 := by
  have reached : Reaches (step (fun _ => none) 1) (Settled fun _ => none) (· = start 1)
      (Serial.run (step (fun _ => none) 1) [.arrive, .arrive] (start 1)) :=
    .run (.start rfl) ⟨trivial, trivial, trivial⟩
  exact ((waiting_room_bounded reached).2.2 Nat.one_pos reached rfl).1

/-- With no queue; with two slots given back before the one waiter is resumed;
and with one given back while the only waiter is being cancelled. -/
theorem free_slot_refused :
    (step (fun _ => none) 0 .arrive (start 1)).tasks = [.refused] ∧
      let pool := Serial.run (step (fun _ => none) 1) [.arrive, .arrive, .arrive,
        .resume 0 .raised, .resume 1 .raised] (start 2)
      (step (fun _ => none) 1 .arrive pool).tasks = pool.tasks ++ [.refused] ∧
        pool.count (·.stage.owns) = 1 ∧
      let pool := Serial.run (step (fun _ => none) 1) [.arrive, .arrive, .cancel 1,
        .resume 0 .raised] (start 1)
      (step (fun _ => none) 1 .arrive pool).tasks = pool.tasks ++ [.refused] ∧
        pool.count (·.stage.owns) = 0 :=
  ⟨rfl, rfl, rfl, rfl, rfl⟩

end Gridix.FreeChat
