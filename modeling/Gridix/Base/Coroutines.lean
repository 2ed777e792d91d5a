import Gridix.Base.Serial

/-!
# Coroutines on one event loop

Coroutines that share a state run one at a time, each from one await to the
next.  A limit that is checked before an await and counted after it is
overshot by the coroutines in between.
-/

namespace Coroutines

open List

structure Pool (Shared Task : Type) where
  shared : Shared
  tasks : List Task

namespace Pool

variable {Shared Task : Type} {pool : Pool Shared Task} {task : Task}

def count (holds : Task → Bool) (pool : Pool Shared Task) : Nat := pool.tasks.countP holds

def spawn (task : Task) (pool : Pool Shared Task) : Pool Shared Task :=
  { pool with tasks := pool.tasks ++ [task] }

def resume (body : Task → Shared → Task × Shared) (index : Nat)
    (pool : Pool Shared Task) : Pool Shared Task :=
  match pool.tasks[index]? with
  | none => pool
  | some task =>
    let moved := body task pool.shared
    ⟨moved.2, pool.tasks.set index moved.1⟩

theorem count_spawn (holds : Task → Bool) :
    (pool.spawn task).count holds = pool.count holds + (holds task).toNat := by
  rw [count, spawn, countP_append, countP_singleton]
  cases holds task <;> rfl

theorem resume_cases (body : Task → Shared → Task × Shared) (index : Nat) :
    pool.resume body index = pool ∨
      ∃ task moved, pool.tasks[index]? = some task ∧ body task pool.shared = moved ∧
        (pool.resume body index).shared = moved.2 ∧
        ∀ holds, (pool.resume body index).count holds + (holds task).toNat =
          pool.count holds + (holds moved.1).toNat := by
  unfold resume
  cases found : pool.tasks[index]? with
  | none => exact .inl rfl
  | some task =>
    refine .inr ⟨task, _, rfl, rfl, rfl, fun holds => ?_⟩
    obtain ⟨inside, here⟩ := List.getElem?_eq_some_iff.mp found
    simp only [count, countP_set inside, here]
    cases old : holds task with
    | false => cases holds (body task pool.shared).1 <;> rfl
    | true =>
      have some := countP_pos_iff.mpr ⟨task, mem_of_getElem? found, old⟩
      cases holds (body task pool.shared).1 <;> simp <;> omega

theorem count_pos {holds : Task → Bool} {index : Nat}
    (found : pool.tasks[index]? = some task) (here : holds task = true) : 0 < pool.count holds :=
  countP_pos_iff.mpr ⟨task, mem_of_getElem? found, here⟩

end Pool

variable {State Input : Type}

/-- Nothing is added to what is counted or inside, or one task enters where
the counter is below the limit and fewer than `width` are inside. -/
def Gated (counter inside : State → Nat) (limit width : Nat) (state moved : State) : Prop :=
  counter moved + inside moved ≤ counter state + inside state ∨
    (counter state < limit ∧ inside state < width ∧
      counter moved + inside moved ≤ counter state + inside state + 1)

theorem overshoot {next : Input → State → State} {allowed : State → Input → Prop}
    {start : State → Prop} {counter inside : State → Nat} {limit width : Nat}
    (initially : ∀ state, start state → counter state + inside state = 0) (pos : 0 < width)
    (gated : ∀ state input, allowed state input →
      Gated counter inside limit width state (next input state))
    {state : State} (reached : Serial.Reaches next allowed start state) :
    counter state + inside state < limit + width := by
  induction reached with
  | start initial =>
    rw [initially _ initial]
    omega
  | step _ input permitted => rcases gated _ input permitted with _ | ⟨_, _, _⟩ <;> omega

end Coroutines
