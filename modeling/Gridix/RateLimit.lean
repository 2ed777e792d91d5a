import Gridix.Base.Coroutines

/-!
# The request limiter

`check_rate_limit` counts a call in Redis, and in a dict of the process when a
call to Redis raises.  The window is read before the first await, so a call may
be counted long after its window, when either counter has forgotten it.
-/

namespace Gridix.RateLimit

open Coroutines Serial

inductive Counter where
  | redis
  | process
  deriving DecidableEq

/-- An identity and a window. -/
abbrev Key := String × Nat

/-- The clock, in windows, the counts in Redis, and `_local_windows`. -/
structure Counts where
  window : Nat
  redis : Key → Nat
  localWindows : Key → Nat

namespace Counts

def incr (key : Key) (counts : Counts) : Counts :=
  { counts with redis := Function.update counts.redis key (counts.redis key + 1) }

/-- `_bump_local` forgets what is older than the window before its own. -/
def bumpLocal (key : Key) (counts : Counts) : Counts :=
  let kept (place : Key) : Nat := if place.2 + 1 < key.2 then 0 else counts.localWindows place
  { counts with localWindows := Function.update kept key (kept key + 1) }

end Counts

/-- Where a call of `check_rate_limit` is suspended, or what it has returned. -/
inductive Call where
  | incr (key : Key)
  | expire (key : Key)
  | returned (key : Key) (counter : Counter) (allowed : Bool)
  | cancelled

/-- How an await of Redis ends.  An `incr` may raise after it was counted. -/
inductive Reply where
  | answers
  | raises (counted : Bool)
  | cancelled

namespace Call

def checkLocal (limit : Nat) (key : Key) (counts : Counts) : Call × Counts :=
  let bumped := counts.bumpLocal key
  (.returned key .process (bumped.localWindows key ≤ limit), bumped)

def resume (limit : Nat) (reply : Reply) (call : Call) (counts : Counts) : Call × Counts :=
  match call, reply with
  | .incr key, .answers =>
    let counted := counts.incr key
    let count := counted.redis key
    (if count = 1 then .expire key else .returned key .redis (count ≤ limit), counted)
  | .incr key, .raises counted =>
    checkLocal limit key (if counted then counts.incr key else counts)
  | .expire key, .answers => (.returned key .redis (1 ≤ limit), counts)
  | .expire key, .raises _ => checkLocal limit key counts
  | .incr _, .cancelled | .expire _, .cancelled => (.cancelled, counts)
  | call, _ => (call, counts)

def awaited : Call → Option Key
  | .incr key | .expire key => some key
  | _ => none

def decided (counter : Counter) (key : Key) : Call → Bool
  | .returned place decider _ => place = key ∧ decider = counter
  | _ => false

def allowed (counter : Counter) (key : Key) : Call → Bool
  | .returned place decider allowed => place = key ∧ decider = counter ∧ allowed
  | _ => false

end Call

abbrev Limiter := Pool Counts Call

/-- A call, its reply, or what happens to Redis. -/
inductive Event where
  | call (identity : String)
  | resume (index : Nat) (reply : Reply)
  /-- Another process counts a call in Redis. -/
  | elsewhere (key : Key)
  /-- Redis drops a key. -/
  | expired (key : Key)
  | tick

def step (limit : Nat) : Event → Limiter → Limiter
  | .call identity, limiter => limiter.spawn (.incr (identity, limiter.shared.window))
  | .resume index reply, limiter => limiter.resume (Call.resume limit reply) index
  | .elsewhere key, limiter => { limiter with shared := limiter.shared.incr key }
  | .expired key, limiter =>
    { limiter with
      shared := { limiter.shared with redis := Function.update limiter.shared.redis key 0 } }
  | .tick, limiter =>
    { limiter with shared := { limiter.shared with window := limiter.shared.window + 1 } }

/-- The window is over, and none of its calls of the identity is under way. -/
def Over (key : Key) (limiter : Limiter) : Prop :=
  key.2 < limiter.shared.window ∧ limiter.count (·.awaited = some key) = 0

/-- Neither counter forgets the calls of a window before they are over. -/
def Kept (key : Key) (limiter : Limiter) : Event → Prop
  | .expired place => place = key → Over key limiter
  | .resume index (.raises _) => ∀ call place, limiter.tasks[index]? = some call →
      call.awaited = some place → key.2 + 1 < place.2 → Over key limiter
  | _ => True

/-- What a call has taken from a counter.  The result of one that waits for
`expire` is settled. -/
def Call.takes (limit : Nat) (counter : Counter) (key : Key) : Call → Bool
  | .expire place => place = key ∧ .redis = counter ∧ 1 ≤ limit
  | call => call.allowed counter key

def Counts.of (counts : Counts) : Counter → Key → Nat
  | .redis => counts.redis
  | .process => counts.localWindows

variable {limit : Nat} {limiter : Limiter} {key : Key} {counter : Counter} {call : Call}
  {reply : Reply} {counts : Counts}

theorem Counts.of_incr (place : Key) :
    (counts.incr place).of counter key =
      counts.of counter key + (decide (counter = .redis ∧ place = key)).toNat := by
  cases counter with
  | process => rfl
  | redis =>
    by_cases same : place = key
    · subst same
      simp [Counts.of, incr]
    · simp [Counts.of, incr, same, Ne.symm same]

theorem Counts.of_bumpLocal {place : Key} (kept : ¬ key.2 + 1 < place.2) :
    (counts.bumpLocal place).of counter key =
      counts.of counter key + (decide (counter = .process ∧ place = key)).toNat := by
  cases counter with
  | redis => rfl
  | process =>
    by_cases same : place = key
    · subst same
      simp [Counts.of, bumpLocal, kept]
    · simp [Counts.of, bumpLocal, kept, same, Ne.symm same]

/-- A call takes one more only where the counter is below the limit, and is
counted. -/
def Takes (limit : Nat) (counter : Counter) (key : Key) (call : Call) (counts : Counts)
    (moved : Call × Counts) : Prop :=
  counts.of counter key ≤ moved.2.of counter key ∧
    ((moved.1.takes limit counter key).toNat ≤ (call.takes limit counter key).toNat ∨
      counts.of counter key < limit ∧ counts.of counter key < moved.2.of counter key)

theorem Call.checkLocal_takes {place : Key} {moved : Counts} (kept : ¬ key.2 + 1 < place.2)
    (more : counts.of counter key ≤ moved.of counter key)
    (unbumped : moved.localWindows = counts.localWindows) :
    Takes limit counter key call counts (checkLocal limit place moved) := by
  have bumped := @Counts.of_bumpLocal key counter moved place kept
  refine ⟨by simp only [checkLocal]; omega, ?_⟩
  by_cases taken : (checkLocal limit place moved).1.takes limit counter key = true
  · simp only [checkLocal, takes, allowed, decide_eq_true_eq] at taken
    obtain ⟨rfl, rfl, below⟩ := taken
    have same : counts.localWindows place = moved.localWindows place := by rw [unbumped]
    simp only [checkLocal, Counts.of, decide_true, and_self, Bool.toNat_true] at bumped below ⊢
    omega
  · rw [Bool.not_eq_true] at taken
    rw [taken]
    exact .inl (Nat.zero_le _)

theorem Call.resume_takes (kept : ∀ counted place, reply = .raises counted →
      call.awaited = some place → ¬ key.2 + 1 < place.2) :
    Takes limit counter key call counts (call.resume limit reply counts) := by
  cases call with
  | incr place =>
    have counted := @Counts.of_incr key counter counts place
    cases reply with
    | answers =>
      refine ⟨by simp only [resume]; omega, ?_⟩
      by_cases taken : ((incr place).resume limit .answers counts).1.takes limit counter key = true
      · have below : place = key ∧ .redis = counter ∧ (counts.incr place).redis place ≤ limit := by
          simp only [resume] at taken
          split_ifs at taken with first <;> simpa [takes, allowed, first] using taken
        obtain ⟨rfl, rfl, below⟩ := below
        simp only [resume, Counts.of, decide_true, and_self, Bool.toNat_true] at counted below ⊢
        omega
      · rw [Bool.not_eq_true] at taken
        rw [taken]
        exact .inl (Nat.zero_le _)
    | raises lost =>
      apply checkLocal_takes (kept lost place rfl rfl)
      · split_ifs <;> omega
      · split_ifs <;> rfl
    | cancelled => exact ⟨Nat.le_refl _, .inl (Nat.zero_le _)⟩
  | expire place =>
    cases reply with
    | answers =>
      refine ⟨Nat.le_refl _, .inl (Nat.le_of_eq ?_)⟩
      simp [resume, takes, allowed]
    | raises lost => exact checkLocal_takes (kept lost place rfl rfl) (Nat.le_refl _) rfl
    | cancelled => exact ⟨Nat.le_refl _, .inl (Nat.zero_le _)⟩
  | returned | cancelled => cases reply <;> exact ⟨Nat.le_refl _, .inl (Nat.le_refl _)⟩

theorem Call.resume_other (other : call.awaited ≠ some key) :
    (call.resume limit reply counts).1.takes limit counter key = call.takes limit counter key ∧
      (call.resume limit reply counts).1.awaited ≠ some key ∧
      (call.resume limit reply counts).2.window = counts.window := by
  cases call with
  | incr place | expire place =>
    have apart : place ≠ key := fun same => other (congrArg some same)
    rcases reply with _ | (_ | _) | _ <;> simp only [resume, checkLocal] <;> (try split_ifs) <;>
      simp [takes, allowed, awaited, apart, Counts.incr, Counts.bumpLocal]
  | returned | cancelled => cases reply <;> exact ⟨rfl, other, rfl⟩

/-- A counter has let at most `limit` calls through, and has counted them as
long as some may follow. -/
def Limited (limit : Nat) (counter : Counter) (key : Key) (limiter : Limiter) : Prop :=
  limiter.count (Call.takes limit counter key) ≤ limit ∧
    (Over key limiter ∨
      limiter.count (Call.takes limit counter key) ≤ limiter.shared.of counter key)

theorem Limited.resume (limited : Limited limit counter key limiter) {index : Nat}
    (kept : Kept key limiter (.resume index reply)) :
    Limited limit counter key (step limit (.resume index reply) limiter) := by
  simp only [step]
  rcases limiter.resume_cases (Call.resume limit reply) index with
    same | ⟨call, _, found, rfl, shared, counts⟩
  · rwa [same]
  obtain ⟨few, counted⟩ := limited
  have taken := counts (Call.takes limit counter key)
  by_cases ended : Over key limiter
  · -- the call is not one of the key's
    have other : call.awaited ≠ some key := fun own =>
      absurd ended.2 (Nat.ne_of_gt (Pool.count_pos found (decide_eq_true own)))
    obtain ⟨same, still, window⟩ :=
      @Call.resume_other limit key counter call reply limiter.shared other
    have awaiting := counts (·.awaited = some key)
    rw [decide_eq_false other, decide_eq_false still, ended.2] at awaiting
    rw [same] at taken
    exact ⟨by omega, .inl ⟨shared ▸ window ▸ ended.1, awaiting⟩⟩
  · have room := counted.resolve_left ended
    obtain ⟨grows, gains⟩ := @Call.resume_takes limit key counter call reply limiter.shared (by
      rintro counted place rfl awaits pruned
      exact ended (kept call place found awaits pruned))
    rw [Limited, shared]
    have one := Bool.toNat_le ((call.resume limit reply limiter.shared).1.takes limit counter key)
    refine ⟨?_, .inr ?_⟩ <;> rcases gains with less | ⟨below, more⟩ <;> omega

theorem Limited.step (limited : Limited limit counter key limiter) {event : Event}
    (kept : Kept key limiter event) : Limited limit counter key (step limit event limiter) := by
  cases event with
  | resume => exact limited.resume kept
  | call identity =>
    obtain ⟨few, counted⟩ := limited
    simp only [RateLimit.step, Limited, Over, Pool.count_spawn]
    refine ⟨few, counted.imp_left fun ended => ⟨ended.1, ?_⟩⟩
    have later : (Call.incr (identity, limiter.shared.window)).awaited ≠ some key := by
      rintro ⟨⟩
      exact Nat.lt_irrefl _ ended.1
    rw [ended.2, decide_eq_false later]
    rfl
  | elsewhere place =>
    refine ⟨limited.1, limited.2.imp_right fun counted => ?_⟩
    exact Nat.le_trans counted (Counts.of_incr place ▸ Nat.le_add_right _ _)
  | expired place =>
    refine ⟨limited.1, ?_⟩
    by_cases own : place = key
    · exact .inl (kept own)
    · refine limited.2.imp_right fun counted => Nat.le_trans counted (Nat.le_of_eq ?_)
      cases counter with
      | redis => exact (Function.update_of_ne (Ne.symm own) _ _).symm
      | process => rfl
  | tick =>
    exact ⟨limited.1, limited.2.imp_left fun ended => ⟨Nat.lt_succ_of_lt ended.1, ended.2⟩⟩

/-- In a window at most `limit` calls of an identity get through, if one counter
has decided them all, or if there were no more than that. -/
theorem allowed_le_limit (reached : Reaches (step limit) (Kept key) (·.tasks = []) limiter)
    (calls : limiter.count (Call.decided .redis key) = 0 ∨
      limiter.count (Call.decided .process key) = 0 ∨
      limiter.count (Call.decided .redis key) + limiter.count (Call.decided .process key) ≤ limit) :
    limiter.count (Call.allowed .redis key) +
      limiter.count (Call.allowed .process key) ≤ limit := by
  have bound (counter : Counter) : limiter.count (Call.allowed counter key) ≤ limit ∧
      limiter.count (Call.allowed counter key) ≤ limiter.count (Call.decided counter key) := by
    have limited : Limited limit counter key limiter := by
      refine reached.invariant ?_ fun _ _ limited kept => limited.step kept
      intro limiter none
      simp [Limited, Pool.count, none]
    constructor
    · refine Nat.le_trans (List.countP_mono_left fun call _ allowed => ?_) limited.1
      cases call <;> first | exact allowed | cases allowed
    · refine List.countP_mono_left fun call _ allowed => ?_
      cases call <;> simp_all [Call.allowed, Call.decided]
  have redis := bound .redis
  have process := bound .process
  omega

def visitor : Key := ("ip:203.0.113.9", 0)

def idle : Limiter := ⟨⟨0, fun _ => 0, fun _ => 0⟩, []⟩

/-- Of three calls, one falls back to the counter of the process. -/
def flapping : List Event := [.call visitor.1, .call visitor.1, .call visitor.1,
  .resume 0 .answers, .resume 1 (.raises false), .resume 0 .answers, .resume 2 .answers]

theorem allowed_le_limit_flapping :
    let limiter := Serial.run (step 3) flapping idle
    limiter.count (Call.allowed .redis visitor) +
      limiter.count (Call.allowed .process visitor) ≤ 3 := by
  refine allowed_le_limit (.run (.start ?_) ?_) (.inr (.inr ?_))
  · rfl
  · refine ⟨trivial, trivial, trivial, trivial, ?_, trivial, trivial, trivial⟩
    rintro _ _ ⟨⟩ ⟨⟩ pruned
    cases pruned
  · decide +kernel

theorem flapping_doubles_limit :
    let limiter := Serial.run (step 1) (flapping.take 6) idle
    limiter.count (Call.allowed .redis visitor) +
      limiter.count (Call.allowed .process visitor) = 2 := by
  decide +kernel

end Gridix.RateLimit
