import Gridix.Base.ReadCommitted
import Gridix.Jobs.Requests

/-!
# Racing submissions

The control points of `submit_job`, one for each statement that reaches the
database.  The lookup of the idempotency key locks nothing, so two requests
with one key can both go on to insert; the second then waits for the first on
the unique index, and fails once the first has committed.
-/

namespace Gridix.Submission

open ReadCommitted List

structure Db where
  jobs : List Job
  ledger : Ledger

inductive Row where
  | id (jobId : Uuid)
  | key (developerId : Uuid) (key : String)
  deriving DecidableEq, Repr

/-- A job without a key has no entry in the index of keys. -/
def indexRows (job : Job) : List Row :=
  .id job.id :: (job.idempotencyKey.map (.key job.developerId)).toList

def Db.taken (db : Db) (row : Row) : Bool := db.jobs.any fun job => row ∈ indexRows job

def hasKey (developerId : Uuid) (key : String) (job : Job) : Bool :=
  job.developerId == developerId && job.idempotencyKey == some key

/-- A request with everything its handler reads outside the database.
`jobId` is the identifier that the flush will assign. -/
structure Request where
  body : SubmitJobRequest
  developerId : Uuid
  jobId : Uuid
  key : Option String
  inputExists : Bool
  gate : Option UsdcGate
  now : Int

namespace Request

variable (settings : Settings) (request : Request)

def escrow : Int := escrowEstimate request.body.resourceSpec request.body.timeoutSeconds settings

def job : Job := newJob (request.body.terms settings request.developerId request.jobId
    request.key) request.now

def refusal : Option Raised :=
  if request.body.resourceSpec.gpu && request.body.resourceSpec.gpuVramMb ≤ 0 then
    some (.http 422 "gpu=true requires gpu_vram_mb > 0.")
  else if request.body.inputRef.isSome && !request.inputExists then
    some (.http 400 "input_ref does not resolve to a stored blob.")
  else none

def existing (db : Db) : Option Job :=
  match request.key with
  | none => none
  | some key => db.jobs.find? (hasKey request.developerId key)

def insert (db : Db) : Db := { db with jobs := db.jobs ++ [request.job settings] }

end Request

def gateRead : Nat → LedgerAccount × LedgerDirection
  | 0 => (.developer, .credit)
  | 1 => (.developer, .debit)
  | 2 => (.escrow, .credit)
  | _ => (.escrow, .debit)

def availableOf (gate : UsdcGate) (sums : List Int) : Option Int :=
  match gate.onchain, sums with
  | none, [credits, debits] => some (credits - debits)
  | some units, [credits, debits, heldCredits, heldDebits] =>
    some (min (credits - debits) (units - (heldCredits - heldDebits)))
  | _, _ => none

/-- Where a submission is in its transaction. -/
inductive Point where
  | validate (request : Request)
  | lookup (request : Request)
  | gate (request : Request) (gate : UsdcGate) (refused : Bool) (sums : List Int)
  | insert (request : Request) (rows : List Row)
  | hold (request : Request)
  | commit (request : Request)
  | found (request : Request) (job : Job)
  | returned (request : Request) (job : Job)
  | failing (error : Raised)
  | failed (error : Raised)
  | lost

def Request.create (settings : Settings) (request : Request) : Point :=
  .insert request (indexRows (request.job settings))

def Request.gated (settings : Settings) (request : Request) : Point :=
  match request.gate with
  | none => request.create settings
  | some gate => .gate request gate false []

def Request.decide (settings : Settings) (request : Request)
    (gate : UsdcGate) (refused : Bool) (available : Int) : Point :=
  if refused then .failing (.http 403 "Insufficient balance")
  else if request.escrow settings ≤ available then request.create settings
  else .gate request gate true []

def stmt (settings : Settings) : Point → Stmt Db Row Point
  | .validate request =>
    .query fun _ =>
      match request.refusal with
      | some error => .failing error
      | none => .lookup request
  | .lookup request =>
    .query fun db =>
      match request.existing db with
      | some job => .found request job
      | none => request.gated settings
  | .gate request gate refused sums =>
    .query fun db =>
      let read := gateRead sums.length
      let sums := sums ++ [db.ledger.sum read.1 read.2 (some request.developerId)]
      match availableOf gate sums with
      | some available => request.decide settings gate refused available
      | none => .gate request gate refused sums
  | .insert request rows =>
    .insert Db.taken (request.insert settings) (.hold request)
      (.insert request) (.failing (.http 500 "duplicate key")) rows
  | .hold request =>
    match holdEscrow request.jobId request.developerId (request.escrow settings) with
    | .error error => .rollback (.failed (.ledger error))
    | .ok rows =>
      .write [] (fun db => { db with ledger := db.ledger ++ rows }) (.commit request)
  | .commit request =>
    .commit (.returned request (request.job settings))
  | .found request job => .commit (.returned request job)
  | .failing error => .rollback (.failed error)
  | .returned _ _ => .halt
  | .failed _ => .halt
  | .lost => .halt

def program (settings : Settings) : Program Db Row Point where
  stmt := stmt settings
  onAbort := fun _ => .lost

def heldFor (ledger : Ledger) (jobId : Uuid) : Int := Ledger.sum (ledger.filter fun group =>
    group.reason == .escrowHold && group.jobId == some jobId)
    .escrow .credit none

/-- Keys are unique, and every job holds its own escrow. -/
structure Coherent (db : Db) : Prop where
  unique : db.jobs.Pairwise fun left right =>
    (indexRows left).Disjoint (indexRows right)
  held : ∀ job ∈ db.jobs, heldFor db.ledger job.id = job.escrowAmount.getD 0
  owned : ∀ group ∈ db.ledger, group.reason = .escrowHold →
    ∃ job ∈ db.jobs, group.jobId = some job.id

theorem taken_iff (db : Db) (row : Row) :
    db.taken row = true ↔ ∃ job ∈ db.jobs, row ∈ indexRows job := by
  simp [Db.taken]

section

variable (settings : Settings) (request : Request)

def Request.committed (db : Db) : Db :=
  { jobs := db.jobs ++ [request.job settings]
    ledger := db.ledger ++ escrowRows request.jobId request.developerId (request.escrow settings) }

theorem heldFor_append (before added : Ledger) (jobId : Uuid) : heldFor (before ++ added) jobId =
      heldFor before jobId + heldFor added jobId := by
  simp only [heldFor, filter_append, Ledger.sum_append]

theorem heldFor_eq_zero {ledger : Ledger} {jobId : Uuid}
    (others : ∀ group ∈ ledger, group.reason = .escrowHold → group.jobId ≠ some jobId) :
    heldFor ledger jobId = 0 := by
  have none : (ledger.filter fun group =>
      group.reason == .escrowHold && group.jobId == some jobId) = [] := by
    rw [filter_eq_nil_iff]
    intro group mem
    simp only [Bool.and_eq_true, beq_iff_eq, not_and]
    exact others group mem
  rw [heldFor, none, Ledger.sum_nil]

theorem heldFor_escrowRows (jobId developerId : Uuid) {amount : Int} (nonneg : 0 ≤ amount) :
    heldFor (escrowRows jobId developerId amount) jobId = amount := by
  unfold escrowRows heldFor
  split_ifs
  · simp only [filter_nil, Ledger.sum_nil]
    omega
  · simp

theorem Coherent.committed {db : Db} (coherent : Coherent db)
    (free : ∀ row ∈ indexRows (request.job settings), ¬db.taken row = true) :
    Coherent (request.committed settings db) where
  unique := by
    refine pairwise_append.mpr ⟨coherent.unique, pairwise_singleton _ _, ?_⟩
    intro job mem _ singleton row inOld inNew
    rw [mem_singleton.mp singleton] at inNew
    exact free row inNew ((taken_iff db row).mpr ⟨job, mem, inOld⟩)
  held := by
    intro job mem
    simp only [Request.committed, heldFor_append]
    rcases mem_append.mp mem with old | new
    · -- the new rows are another job's
      have ne : request.jobId ≠ job.id := by
        intro same
        apply free (.id request.jobId) mem_cons_self
        exact (taken_iff db _).mpr ⟨job, old, same ▸ mem_cons_self⟩
      have none : heldFor (escrowRows request.jobId request.developerId
          (request.escrow settings)) job.id = 0 := by
        apply heldFor_eq_zero
        intro _ posted _
        rw [jobId_of_mem_escrowRows _ _ posted]
        exact fun same => ne (Option.some.inj same)
      rw [coherent.held job old, none, Int.add_zero]
    · rw [mem_singleton.mp new]
      have none : heldFor db.ledger request.jobId = 0 := by
        apply heldFor_eq_zero
        intro group posted hold same
        obtain ⟨job, old, owner⟩ := coherent.owned group posted hold
        apply free (.id request.jobId) mem_cons_self
        have ids : request.jobId = job.id := Option.some.inj (same.symm.trans owner)
        exact (taken_iff db _).mpr ⟨job, old, ids ▸ mem_cons_self⟩
      have own := heldFor_escrowRows request.jobId request.developerId
        (escrowEstimate_nonneg request.body.resourceSpec request.body.timeoutSeconds settings)
      calc heldFor db.ledger request.jobId + _
          = 0 + request.escrow settings := congrArg₂ (· + ·) none own
        _ = request.escrow settings := Int.zero_add _
  owned := by
    intro group mem hold
    rcases mem_append.mp mem with old | new
    · obtain ⟨job, oldJob, owner⟩ := coherent.owned group old hold
      exact ⟨job, mem_append_left _ oldJob, owner⟩
    · exact ⟨request.job settings, mem_append_right _ (mem_singleton.mpr rfl),
        jobId_of_mem_escrowRows _ _ new⟩

end

section

variable {settings : Settings} {db : Db} {conn : Conn Db Row Point} {point : Point}
  {request : Request}

def Point.effect (settings : Settings) : Point → Db → Db
  | .hold request => request.insert settings
  | .commit request => request.committed settings
  | _ => id

def Point.claimed (settings : Settings) : Point → List Row
  | .insert request rows =>
    (indexRows (request.job settings)).filter (· ∉ rows)
  | .hold request => indexRows (request.job settings)
  | .commit request => indexRows (request.job settings)
  | _ => []

/-- The request that is answered, and the job it is answered with. -/
def Point.answer : Point → Option (Request × Job)
  | .found request job => some (request, job)
  | .returned request job => some (request, job)
  | _ => none

structure Answers (db : Db) (request : Request) (job : Job) : Prop where
  stored : job ∈ db.jobs
  developer : job.developerId = request.developerId
  key : job.idempotencyKey = request.key

def Point.commits : Point → Bool
  | .commit _ => true
  | _ => false

def script (settings : Settings) : Script Db Row Point where
  taken := Db.taken
  effect := Point.effect settings
  claimed := Point.claimed settings
  dropped := fun _ => false
  commits := Point.commits
  Knows db point := ∀ request job, point.answer = some (request, job) → Answers db request job

theorem unanswered (answer : point.answer = none) : (script settings).Knows db point := by
  intro _ _ answered
  cases answer.symm.trans answered

variable {world : World Db Row Point} {index : Nat}
  {moved : Conn Db Row Point} {committed : Db}

theorem create_follows (follows : (script settings).Follows db conn)
    (quiet : conn.point.effect settings = id) :
    (script settings).Follows db { conn with point := request.create settings } := by
  refine follows.write id rfl quiet.symm ?_ (unanswered rfl)
  intro _ mem
  obtain ⟨indexed, left⟩ := mem_filter.mp mem
  exact absurd indexed (of_decide_eq_true left)

def Request.post (settings : Settings) (request : Request) (db : Db) : Db :=
  { db with
    ledger := db.ledger ++ escrowRows request.jobId request.developerId (request.escrow settings) }

theorem stmt_hold (request : Request) : (program settings).stmt (.hold request) =
      .write [] (request.post settings) (.commit request) := by
  have code : (program settings).stmt (.hold request) =
      match holdEscrow request.jobId request.developerId (request.escrow settings) with
      | .error error => .rollback (.failed (.ledger error))
      | .ok rows =>
        .write [] (fun db => { db with ledger := db.ledger ++ rows }) (.commit request) := rfl
  rw [code, holdEscrow_eq]
  rfl

theorem executes_script (follows : (script settings).Follows world.committed conn)
    (executed : Executed world index conn moved committed ((program settings).stmt conn.point)) :
    (script settings).Passes world.committed moved committed ∨
      (script settings).Commits world.committed conn.point moved committed := by
  obtain ⟨point, _, _⟩ := conn
  cases point with
  | validate request =>
    refine .inl (.query follows executed rfl ?_)
    cases request.refusal with
    | some | none => exact follows.write id rfl rfl (nil_subset _) (unanswered rfl)
  | lookup _ =>
    refine .inl (.query follows executed rfl ?_)
    split
    · rename_i found
      refine follows.write id rfl rfl (nil_subset _) ?_
      rintro _ _ ⟨⟩
      unfold Request.existing at found
      split at found
      · cases found
      · rename_i keyed
        have matched := List.find?_some found
        simp only [hasKey, Bool.and_eq_true, beq_iff_eq] at matched
        exact ⟨mem_of_find?_eq_some found, matched.1, matched.2.trans keyed.symm⟩
    · unfold Request.gated
      split
      · exact create_follows follows rfl
      · exact follows.write id rfl rfl (nil_subset _) (unanswered rfl)
  | gate =>
    refine .inl (.query follows executed rfl ?_)
    dsimp only
    split
    · unfold Request.decide
      split_ifs
      · exact follows.write id rfl rfl (nil_subset _) (unanswered rfl)
      · exact create_follows follows rfl
      · exact follows.write id rfl rfl (nil_subset _) (unanswered rfl)
    · exact follows.write id rfl rfl (nil_subset _) (unanswered rfl)
  | insert request =>
    refine .inl (.insert [] (indexRows (request.job settings)) follows executed rfl
      (fun _ => rfl) (fun _ => rfl) (fun _ => unanswered rfl) (fun _ taken => taken)
      (follows.write id rfl rfl (nil_subset _) (unanswered rfl)) ?_)
    rintro rfl
    refine follows.write (request.insert settings) rfl rfl ?_ (unanswered rfl)
    simp [script, Point.claimed]
  | hold request =>
    rw [stmt_hold] at executed
    obtain ⟨_, rfl, rfl⟩ := executed
    exact .inl ⟨rfl, follows.write (request.post settings) rfl rfl (List.Subset.refl _)
      (unanswered rfl)⟩
  | commit request =>
    obtain ⟨rfl, rfl⟩ := executed
    refine .inr ⟨rfl, congrFun (follows.pending rfl) _, _, rfl, rfl, rfl, ?_⟩
    rintro _ _ ⟨⟩
    rw [congrFun (follows.pending rfl) _]
    exact ⟨mem_append_right _ (mem_singleton.mpr rfl), rfl, rfl⟩
  | found =>
    obtain ⟨rfl, rfl⟩ := executed
    exact .inl ⟨congrFun (follows.pending rfl) _, .fresh ⟨rfl, rfl, follows.knows⟩⟩
  | failing =>
    obtain ⟨rfl, rfl⟩ := executed
    exact .inl ⟨rfl, .fresh ⟨rfl, rfl, unanswered rfl⟩⟩
  | returned | failed | lost => exact executed.elim

theorem script_lawful : (script settings).Lawful (program settings) Coherent where
  aborts := fun _ _ => ⟨rfl, rfl, unanswered rfl⟩
  executes := executes_script
  takes := by
    intro point commits db row taken
    cases point with
    | commit => simpa [script, Db.taken, Request.committed, Point.effect, Point.claimed] using taken
    | _ => cases commits
  keeps := by
    intro point commits _ _ knows request job answered
    have answers := knows request job answered
    cases point with
    | commit => exact ⟨mem_append_left _ answers.stored, answers.developer, answers.key⟩
    | _ => cases commits
  whole := by
    intro point commits _ coherent _ free
    cases point with
    | commit request => exact coherent.committed settings request free
    | _ => cases commits

end

section

variable {settings : Settings} {db : Db} {developerId : Uuid}

def Db.jobsOf (db : Db) (developerId : Uuid) (key : String) : List Job :=
  db.jobs.filter (hasKey developerId key)

/-- What is held for the jobs under an idempotency key. -/
def Db.heldUnder (db : Db) (developerId : Uuid) (key : String) : Int :=
  Ledger.sum (db.ledger.filter fun group =>
    group.reason == .escrowHold &&
      (db.jobsOf developerId key).any fun job => group.jobId == some job.id)
    .escrow .credit none

theorem Coherent.jobsOf (coherent : Coherent db) (developerId : Uuid) (key : String) :
    ∃ owner : Option Job, db.jobsOf developerId key = owner.toList := by
  have unique := coherent.unique.filter (hasKey developerId key)
  have keyed (job : Job) (mem : job ∈ db.jobsOf developerId key) :
      .key developerId key ∈ indexRows job := by
    have owned := (mem_filter.mp mem).2
    simp only [hasKey, Bool.and_eq_true, beq_iff_eq] at owned
    simp [indexRows, owned]
  change (db.jobsOf developerId key).Pairwise _ at unique
  cases listed : db.jobsOf developerId key with
  | nil => exact ⟨none, rfl⟩
  | cons first rest =>
    cases rest with
    | nil => exact ⟨some first, rfl⟩
    | cons second =>
      rw [listed] at unique keyed
      have apart := (pairwise_cons.mp unique).1 second mem_cons_self
      exact absurd (keyed second (mem_cons_of_mem _ mem_cons_self))
        (apart (keyed first mem_cons_self))

theorem Coherent.heldUnder (coherent : Coherent db) {key : String}
    {owner : Option Job} (owned : db.jobsOf developerId key = owner.toList) :
    db.heldUnder developerId key = (owner.bind fun job => job.escrowAmount).getD 0 := by
  unfold Db.heldUnder
  rw [owned]
  cases owner with
  | none => simp
  | some job =>
    have stored : job ∈ db.jobs := by
      apply mem_of_mem_filter (p := hasKey developerId key)
      change job ∈ db.jobsOf developerId key
      rw [owned]
      exact mem_singleton.mpr rfl
    simpa [heldFor] using coherent.held job stored

/-- However the requests interleave, a key has at most one job, and whoever got
an answer got that job. -/
theorem one_job_per_key {start world : World Db Row Point}
    (begun : ∀ conn ∈ start.conns, ∃ request, conn = .fresh (.validate request))
    (coherent : Coherent start.committed)
    (reached : Reaches (program settings) (fun _ _ => True) start world) (developerId : Uuid)
    (key : String) :
    (∃ owner : Option Job, world.committed.jobsOf developerId key = owner.toList ∧
      world.committed.heldUnder developerId key = (owner.bind fun job => job.escrowAmount).getD 0 ∧
      ∀ conn ∈ world.conns, ∀ request job, conn.point = .returned request job →
        request.developerId = developerId → request.key = some key →
        owner = some job) ∧
    ∀ group ∈ world.committed.ledger, group.reason = .escrowHold →
      ∃ job ∈ world.committed.jobs, group.jobId = some job.id := by
  have kept := script_lawful.reaches coherent (fun conn mem => by
    obtain ⟨_, fresh⟩ := begun conn mem
    exact ⟨_, fresh, rfl, rfl, unanswered rfl⟩) reached
  obtain ⟨owner, owned⟩ := kept.whole.jobsOf developerId key
  refine ⟨⟨owner, owned, kept.whole.heldUnder owned, ?_⟩, kept.whole.owned⟩
  rintro conn member request job point rfl keyed
  obtain ⟨index, found⟩ := List.getElem?_of_mem member
  have answers := (kept.each index conn found).knows request job (by rw [point]; rfl)
  have listed : job ∈ owner.toList := by
    rw [← owned]
    refine mem_filter.mpr ⟨answers.stored, ?_⟩
    simp [hasKey, answers.developer, answers.key, keyed]
  exact Option.mem_toList.mp listed

end

def minutes (jobId : Uuid) (timeoutSeconds : Nat) : Request where
  body := { minuteRequest false 1 with timeoutSeconds := timeoutSeconds }
  developerId := 7
  jobId := jobId
  key := some "retry"
  inputExists := true
  gate := none
  now := 0

def threeRequests : World Db Row Point where
  committed := { jobs := [], ledger := [] }
  conns := [.fresh (.validate (minutes 1 60)), .fresh (.validate (minutes 2 600)),
      .fresh (.validate (minutes 3 60))]

theorem threeRequests_begun : ∀ conn ∈ threeRequests.conns,
    ∃ request, conn = .fresh (.validate request) := by
  intro _ mem
  simp only [threeRequests, mem_cons, not_mem_nil, or_false] at mem
  rcases mem with rfl | rfl | rfl <;> exact ⟨_, rfl⟩

/-- Two requests look the key up before either inserts; the second waits for
the first and fails, and the third finds the job. -/
def racingRequests : List Action := [0, 0, 1, 1, 0, 0, 0, 0, 1, 1, 0, 1, 1, 2, 2, 2].map .exec

def Point.returnedId : Point → Option Uuid
  | .returned _ job => some job.id
  | _ => none

theorem one_job_per_key_racing : ∃ world : World Db Row Point,
      run (program Settings.default) (fun _ _ => True) threeRequests racingRequests = some world ∧
      world.conns.map (fun conn => conn.point.returnedId) = [some 1, none, some 1] ∧
      ∃ owner : Option Job, world.committed.jobsOf 7 "retry" = owner.toList ∧
        world.committed.heldUnder 7 "retry" = (owner.bind fun job => job.escrowAmount).getD 0 := by
  obtain ⟨world, ran, answers⟩ : ∃ world ∈ run (program Settings.default) (fun _ _ => True)
      threeRequests racingRequests,
        world.conns.map (fun conn => conn.point.returnedId) = [some 1, none, some 1] := by
    decide +kernel
  obtain ⟨⟨owner, owned, held, _⟩, _⟩ := one_job_per_key
    threeRequests_begun ⟨.nil, fun _ mem => absurd mem not_mem_nil,
      fun _ mem => absurd mem not_mem_nil⟩ (reaches_of_run .refl ran) 7 "retry"
  exact ⟨world, ran, answers, owner, owned, held⟩

end Gridix.Submission
