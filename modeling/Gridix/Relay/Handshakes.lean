import Gridix.Base.Coroutines

/-!
# Handshakes at the relay's door

`relay_agent` looks at the socket counter and at the IP's budget of failed
keys before it accepts.  It counts behind an await: the socket once `accept`
has returned, a failed key once the authenticator has answered.
-/

namespace Gridix.Relay

open Coroutines Serial

def maxConnections : Nat := 512

/-- The `await` a handshake is at. -/
inductive Stage where
  | checkingBudget
  | accepting
  | awaitingKey
  | authenticating (valid : Bool)
  | recording
  | closing
  | serving
  | done
  deriving DecidableEq, Repr

namespace Stage

def isPending : Stage → Bool
  | .checkingBudget | .accepting => true
  | _ => false

def isOpen : Stage → Bool
  | .awaitingKey | .authenticating _ | .recording | .closing | .serving => true
  | _ => false

def isAdmitted : Stage → Bool
  | .accepting | .awaitingKey | .authenticating _ | .recording => true
  | _ => false

def isGuessing : Stage → Bool
  | .authenticating false | .recording => true
  | _ => false

end Stage

structure Handshake where
  ip : String
  stage : Stage

/-- The socket counter, the failures that Redis has counted in this window,
and the invalid keys that the authenticator was asked about, both by IP. -/
structure Door where
  connections : Nat
  failures : List String
  guesses : List String

inductive Reply where
  | returned
  | key (valid : Bool)
  | raised
  deriving DecidableEq

/-- `relay_agent` and `_serve_tunnel` from one await to the next. -/
def Handshake.resume (limit : Nat) (reply : Reply) (handshake : Handshake)
    (door : Door) : Handshake × Door :=
  match handshake.stage, reply with
  | .checkingBudget, .returned =>
    ({ handshake with
        stage := if limit ≤ door.failures.count handshake.ip then .done else .accepting }, door)
  | .accepting, .returned =>
    ({ handshake with stage := .awaitingKey }, { door with connections := door.connections + 1 })
  | .awaitingKey, .key valid =>
    ({ handshake with stage := .authenticating valid },
      if valid then door else { door with guesses := handshake.ip :: door.guesses })
  | .awaitingKey, .returned => ({ handshake with stage := .closing }, door)
  | .authenticating valid, .returned =>
    ({ handshake with stage := if valid then .serving else .recording }, door)
  | .recording, .returned =>
    ({ handshake with stage := .closing }, { door with failures := handshake.ip :: door.failures })
  -- the end of the handler, or an exception through its `finally`
  | stage, _ =>
    ({ handshake with stage := .done },
      if stage.isOpen then { door with connections := door.connections - 1 } else door)

structure Policy where
  authFailuresPerMinute : Nat
  allowedOrigins : List String

/-- `relay_auth_failures_per_minute` and `relay_allowed_origins`. -/
def Policy.default : Policy := ⟨10, []⟩

def Policy.refuses (policy : Policy) (origin : Option String) : Bool :=
  origin.any fun origin => origin ∉ policy.allowedOrigins

inductive DoorEvent where
  | connect (ip : String) (origin : Option String)
  | resume (index : Nat) (reply : Reply)

abbrev Handshakes := Pool Door Handshake

namespace Handshakes

def start : Handshakes := ⟨⟨0, [], []⟩, []⟩

/-- The origin and the capacity are checked before the first await. -/
def step (policy : Policy) : DoorEvent → Handshakes → Handshakes
  | .connect ip origin, pool =>
    let refused := policy.refuses origin || maxConnections ≤ pool.shared.connections
    pool.spawn ⟨ip, if refused then .done else .checkingBudget⟩
  | .resume index reply, pool =>
    pool.resume (Handshake.resume policy.authFailuresPerMinute reply) index

def opened (pool : Handshakes) : Nat := pool.count (·.stage.isOpen)

def pending (pool : Handshakes) : Nat := pool.count (·.stage.isPending)

def admitted (ip : String) (pool : Handshakes) : Nat :=
  pool.count fun handshake => handshake.ip == ip && handshake.stage.isAdmitted

def guessing (ip : String) (pool : Handshakes) : Nat :=
  pool.count fun handshake => handshake.ip == ip && handshake.stage.isGuessing

end Handshakes

variable {policy : Policy} {pool : Handshakes} {event : DoorEvent} {limit width : Nat}
  {ip : String} {handshake : Handshake} {door : Door} {reply : Reply} {moved : Handshake × Door}

theorem Handshake.resume_sockets (code : handshake.resume limit reply door = moved)
    (counted : handshake.stage.isOpen = true → 0 < door.connections) :
    moved.2.connections + handshake.stage.isOpen.toNat =
      door.connections + moved.1.stage.isOpen.toNat := by
  subst code
  obtain ⟨_, stage⟩ := handshake
  cases stage <;> cases reply <;> simp [resume, Stage.isOpen] at counted ⊢ <;> grind

theorem Handshake.resume_pending (code : handshake.resume limit reply door = moved) :
    moved.2.connections + moved.1.stage.isPending.toNat ≤
      door.connections + handshake.stage.isPending.toNat := by
  subst code
  obtain ⟨_, stage⟩ := handshake
  cases stage <;> cases reply <;> simp [resume, Stage.isPending] <;> grind

/-- Who comes from an allowed origin and sees room in the counter sees fewer
than `width` others that have seen it and are not yet counted. -/
def Handshakes.Spaced (policy : Policy) (width : Nat) (pool : Handshakes) : DoorEvent → Prop
  | .connect _ origin => policy.refuses origin = false →
      pool.shared.connections < maxConnections → pool.pending < width
  | .resume _ _ => True

instance : ∀ event, Decidable (pool.Spaced policy width event)
  | .connect _ _ => inferInstanceAs (Decidable (_ → _ → _))
  | .resume _ _ => instDecidableTrue

theorem Handshakes.step_pending (spaced : pool.Spaced policy width event) :
    Gated (·.shared.connections) pending maxConnections width pool (pool.step policy event) := by
  cases event with
  | connect _ origin =>
    simp only [Gated, step, pending, Pool.count_spawn]
    split_ifs with refused
    · exact .inl (Nat.le_refl _)
    · simp only [Bool.or_eq_true, decide_eq_true_eq, not_or, Bool.not_eq_true,
        Nat.not_le] at refused
      exact .inr ⟨refused.2, spaced refused.1 refused.2, Nat.le_refl _⟩
  | resume index reply =>
    left
    rcases pool.resume_cases (Handshake.resume policy.authFailuresPerMinute reply) index with
      same | ⟨handshake, moved, _, code, shared, counted⟩
    · exact Nat.le_of_eq (by rw [step, same])
    · have fewer := Handshake.resume_pending code
      have pending := counted (·.stage.isPending)
      simp only [step, Handshakes.pending, shared]
      omega

theorem Handshakes.reaches_connections {allowed : Handshakes → DoorEvent → Prop}
    (reached : Reaches (step policy) allowed (· = .start) pool) :
    pool.shared.connections = pool.opened := by
  induction reached with
  | start initial => rw [initial]; rfl
  | @step pool _ event _ ih =>
    cases event with
    | connect =>
      simp only [step, opened, Pool.count_spawn]
      split_ifs <;> exact ih
    | resume index reply =>
      rcases pool.resume_cases (Handshake.resume policy.authFailuresPerMinute reply) index with
        same | ⟨handshake, moved, found, code, shared, counted⟩
      · rwa [step, same]
      · have socket := Handshake.resume_sockets code fun opened => by
          rw [ih]
          exact Pool.count_pos found opened
        have opened := counted (·.stage.isOpen)
        simp only [step, Handshakes.opened, shared] at ih ⊢
        omega

/-- The counter is the number of accepted sockets, zero once all have
finished.  Where fewer than `width` handshakes at a time have seen room and
are not yet counted, the open sockets exceed `maxConnections` by less than
`width`; one by one they never exceed it. -/
theorem sockets_within_cap (policy : Policy) :
    (∀ pool, Reaches (Handshakes.step policy) (fun _ _ => True) (· = .start) pool →
      pool.shared.connections = pool.opened ∧
        ((∀ handshake ∈ pool.tasks, handshake.stage = .done) → pool.shared.connections = 0)) ∧
    ∀ width pool, 0 < width →
      Reaches (Handshakes.step policy) (Handshakes.Spaced policy width) (· = .start) pool →
        pool.opened < maxConnections + width := by
  constructor
  · intro _ reached
    have exact := Handshakes.reaches_connections reached
    refine ⟨exact, fun finished => ?_⟩
    rw [exact, Handshakes.opened, Pool.count, List.countP_eq_zero]
    intro handshake mem
    rw [finished handshake mem]
    exact Bool.false_ne_true
  · intro _ _ positive reached
    have bound := overshoot (by rintro _ rfl; rfl) positive
      (fun pool event => Handshakes.step_pending) reached
    rw [← Handshakes.reaches_connections reached]
    exact Nat.lt_of_le_of_lt (Nat.le_add_right _ _) bound

theorem sockets_within_cap_serially : (Serial.run (Handshakes.step .default)
      ((List.range 3).flatMap fun index => [.connect "203.0.113.9" none,
        .connect "203.0.113.9" (some "https://evil.example"), .resume (2 * index) .returned,
        .resume (2 * index) .returned]) .start).opened < maxConnections + 1 :=
  (sockets_within_cap .default).2 1 _ Nat.one_pos (.run (.start rfl) (by decide +kernel))

theorem reaches_waiting {count : Nat} (few : count ≤ maxConnections) :
    Reaches (Handshakes.step .default) (fun _ _ => True) (· = .start)
      ⟨⟨count, [], []⟩, ⟨"203.0.113.9", .checkingBudget⟩ ::
        List.replicate count ⟨"203.0.113.9", .awaitingKey⟩⟩ := by
  induction count with
  | zero =>
    have nobody : Reaches (Handshakes.step .default) (fun _ _ => True)
      (· = .start) .start := .start rfl
    exact nobody.step (.connect "203.0.113.9" none) trivial
  | succ count ih =>
    have connected := (ih (Nat.le_of_succ_le few)).step (.connect "203.0.113.9" none) trivial
    have admitted := connected.step (.resume (count + 1) .returned) trivial
    have accepted := admitted.step (.resume (count + 1) .returned) trivial
    have room : ¬ maxConnections ≤ count := Nat.not_le.mpr few
    simpa [Handshakes.step, Pool.spawn, Pool.resume, Handshake.resume, room, Policy.default,
      Policy.refuses, List.replicate_succ'] using accepted

theorem flood_exceeds_cap : ∃ pool,
    Reaches (Handshakes.step .default) (fun _ _ => True) (· = .start) pool ∧
      maxConnections < pool.opened := by
  have admitted := (reaches_waiting (Nat.le_refl _)).step (.resume 0 .returned) trivial
  have accepted := admitted.step (.resume 0 .returned) trivial
  refine ⟨_, accepted, ?_⟩
  have counted : Stage.isOpen .awaitingKey = true := rfl
  simp [Handshakes.step, Pool.resume, Handshake.resume, Policy.default, Handshakes.opened,
    Pool.count, List.countP_replicate, counted]

theorem Handshake.resume_admitted (code : handshake.resume limit reply door = moved) :
    moved.2.failures.count ip + (moved.1.ip == ip && moved.1.stage.isAdmitted).toNat ≤
      door.failures.count ip + (handshake.ip == ip && handshake.stage.isAdmitted).toNat +
        (handshake.ip == ip && handshake.stage == .checkingBudget &&
          decide (door.failures.count ip < limit)).toNat := by
  subst code
  obtain ⟨source, stage⟩ := handshake
  by_cases same : source = ip
  · subst same
    by_cases spent : limit ≤ door.failures.count source
    all_goals cases stage <;> cases reply <;>
      simp [resume, Stage.isAdmitted, spent, Nat.not_le.mp] <;> try omega
    all_goals split <;> simp +arith
  · cases stage <;> cases reply <;> simp [resume, Stage.isOpen, same, beq_false_of_ne same]
    split <;> simp

theorem Handshake.resume_guesses (code : handshake.resume limit reply door = moved)
    (charged : handshake.ip = ip → handshake.stage.isGuessing = true → reply = .returned) :
    moved.2.guesses.count ip + door.failures.count ip +
        (handshake.ip == ip && handshake.stage.isGuessing).toNat =
      door.guesses.count ip + moved.2.failures.count ip +
        (moved.1.ip == ip && moved.1.stage.isGuessing).toNat := by
  subst code
  obtain ⟨source, stage⟩ := handshake
  by_cases same : source = ip
  · subst same
    cases stage <;> cases reply <;> simp [resume, Stage.isGuessing] at charged ⊢ <;> grind
  · cases stage <;> cases reply <;> simp [resume] <;> grind

/-- Who finds the budget unspent finds fewer than `width` others that are not
yet charged, and no handshake is torn down between its guess and the charge. -/
def Handshakes.Charged (policy : Policy) (ip : String) (width : Nat) (pool : Handshakes) :
    DoorEvent → Prop
  | .connect _ _ => True
  | .resume index reply => ∀ handshake ∈ pool.tasks[index]?, handshake.ip = ip →
      (handshake.stage = .checkingBudget →
        pool.shared.failures.count ip < policy.authFailuresPerMinute → pool.admitted ip < width) ∧
      (handshake.stage.isGuessing = true → reply = .returned)

instance : ∀ event, Decidable (pool.Charged policy ip width event)
  | .connect _ _ => instDecidableTrue
  | .resume _ _ => inferInstanceAs (Decidable (∀ _ ∈ _, _))

theorem Handshakes.step_admitted (charged : pool.Charged policy ip width event) :
    Gated (·.shared.failures.count ip) (admitted ip) policy.authFailuresPerMinute width
      pool (pool.step policy event) := by
  cases event with
  | connect =>
    simp only [Gated, step, admitted, Pool.count_spawn]
    split_ifs <;> exact .inl (by simp [Stage.isAdmitted, Pool.spawn])
  | resume index reply =>
    rcases pool.resume_cases (Handshake.resume policy.authFailuresPerMinute reply) index with
      same | ⟨handshake, moved, found, code, shared, counted⟩
    · exact .inl (Nat.le_of_eq (by rw [step, same]))
    · have fewer := @Handshake.resume_admitted _ ip _ _ _ _ code
      have admitted := counted fun handshake => handshake.ip == ip && handshake.stage.isAdmitted
      simp only [Gated, step, Handshakes.admitted, shared]
      cases looks : handshake.ip == ip && handshake.stage == .checkingBudget &&
        decide (pool.shared.failures.count ip < policy.authFailuresPerMinute) with
      | false =>
        rw [looks, Bool.toNat_false] at fewer
        exact .inl (by omega)
      | true =>
        rw [looks, Bool.toNat_true] at fewer
        simp only [Bool.and_eq_true, beq_iff_eq, decide_eq_true_eq] at looks
        exact .inr ⟨looks.2, (charged handshake found looks.1.1).1 looks.1.2 looks.2, by omega⟩

theorem Handshakes.reaches_guesses (reached : Reaches (step policy)
      (Charged policy ip width) (· = .start) pool) :
    pool.shared.guesses.count ip = pool.shared.failures.count ip + pool.guessing ip := by
  induction reached with
  | start initial => rw [initial]; rfl
  | @step pool _ event charged ih =>
    cases event with
    | connect source =>
      simp only [step, guessing, Pool.count_spawn]
      split_ifs <;> cases source == ip <;> exact ih
    | resume index reply =>
      rcases pool.resume_cases (Handshake.resume policy.authFailuresPerMinute reply) index with
        same | ⟨handshake, moved, found, code, shared, counted⟩
      · rwa [step, same]
      · have same := Handshake.resume_guesses code fun same => (charged handshake found same).2
        have guessing := counted fun handshake => handshake.ip == ip && handshake.stage.isGuessing
        simp only [step, Handshakes.guessing, shared] at ih ⊢
        omega

/-- The invalid keys that reach the authenticator exceed the budget by less
than `width`. -/
theorem guesses_within_budget (positive : 0 < width)
    (reached : Reaches (Handshakes.step policy) (Handshakes.Charged policy ip width)
      (· = .start) pool) :
    pool.shared.guesses.count ip < policy.authFailuresPerMinute + width := by
  have bound := overshoot (by rintro _ rfl; rfl) positive
    (fun pool event => Handshakes.step_admitted) reached
  have within : pool.guessing ip ≤ pool.admitted ip := by
    apply List.countP_mono_left
    rintro ⟨_, stage⟩ _ guesses
    rw [Bool.and_eq_true] at guesses ⊢
    refine ⟨guesses.1, ?_⟩
    cases stage with
    | authenticating | recording => rfl
    | _ => cases guesses.2
  rw [Handshakes.reaches_guesses reached]
  omega

theorem guesses_within_budget_serially : (Serial.run (Handshakes.step .default)
      ((List.range 3).flatMap fun index => [.connect "203.0.113.9" none, .resume index .returned,
        .resume index .returned, .resume index (.key false), .resume index .returned,
        .resume index .returned]) .start).shared.guesses.count "203.0.113.9" < 10 + 1 :=
  @guesses_within_budget .default _ 1 "203.0.113.9" Nat.one_pos
    (.run (.start rfl) (by decide +kernel))

theorem guesses_beside_each_other : (Serial.run (Handshakes.step .default)
      (List.replicate 11 (.connect "203.0.113.9" none) ++ (List.range 11).flatMap fun index =>
        [.resume index .returned, .resume index .returned, .resume index (.key false)])
      .start).shared.guesses.count "203.0.113.9" = Policy.default.authFailuresPerMinute + 1 := by
  decide +kernel

end Gridix.Relay
