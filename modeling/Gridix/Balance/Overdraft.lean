import Gridix.Balance.Outline

/-!
# No overdraft

The inference path never overdraws a developer, whatever the interleaving.
The submit gate of the job path reads the balance without a lock; it is safe
as long as no hold commits between a gate's read and its own commit, and
without that two submissions can spend the same balance.
-/

namespace Gridix.Balance

open ReadCommitted List

variable {settings : Settings} {developerId : Uuid} {world : World Ledger Uuid (Point settings)}
  {point : Point settings} {base : Int}

/-- Nobody commits a hold while another submission stands between the debit
sum of its gate and its own commit. -/
def HoldsApart (world : World Ledger Uuid (Point settings)) : Action → Prop
  | .abort _ => True
  | .exec index =>
    ∀ conn ∈ world.conns[index]?, conn.point.commitsHold = true →
      ∀ other < world.conns.length, other ≠ index →
        ∀ bystander ∈ world.conns[other]?, bystander.point.gated = false

instance (world : World Ledger Uuid (Point settings)) (action : Action) :
    Decidable (HoldsApart world action) :=
  match action with
  | .abort _ => inferInstanceAs (Decidable True)
  | .exec index => inferInstanceAs (Decidable
      (∀ conn ∈ world.conns[index]?, conn.point.commitsHold = true →
        ∀ other < world.conns.length, other ≠ index →
          ∀ bystander ∈ world.conns[other]?, bystander.point.gated = false))

theorem flush_ne_commit (posting : Except LedgerError Ledger) (target next : Point settings) :
    flush posting target ≠ .commit next := by
  cases posting <;> exact nofun

theorem commit_cases {next : Point settings}
    (code : stmt settings developerId point = .commit next) :
    (∃ request, point = .reserveCommit request ∧ next = .holding request) ∨
    (∃ request providerId actual, point = .settleCommit request providerId actual ∧ next = .done) ∨
    (∃ request, point = .releaseCommit request ∧ next = .done) ∨
    (∃ amount, point = .depositCommit amount ∧ next = .done) ∨
    (∃ submission, point = .submitCommit submission ∧ next = .submitted submission) := by
  cases point with
  | reserve => simp only [stmt] at code; split_ifs at code
  | charge =>
    simp only [stmt] at code
    split_ifs at code
  | holding =>
    simp only [stmt] at code
    split at code <;> exact absurd code (flush_ne_commit _ _ _)
  | reservePost | deposit | submitHold => exact absurd code (flush_ne_commit _ _ _)
  | chargePost => exact absurd code (flush_ne_commit _ _ _)
  | reserveCommit request =>
    cases code
    exact .inl ⟨request, rfl, rfl⟩
  | settleCommit request providerId actual =>
    cases code
    exact .inr (.inl ⟨request, providerId, actual, rfl, rfl⟩)
  | releaseCommit request =>
    cases code
    exact .inr (.inr (.inl ⟨request, rfl, rfl⟩))
  | depositCommit amount =>
    cases code
    exact .inr (.inr (.inr (.inl ⟨amount, rfl, rfl⟩)))
  | submitCommit submission =>
    cases code
    exact .inr (.inr (.inr (.inr ⟨submission, rfl, rfl⟩)))
  | _ => cases code

theorem escrowBalance_append (left right : Ledger) (developerId : Uuid) :
    escrowBalance (left ++ right) developerId =
      escrowBalance left developerId + escrowBalance right developerId :=
  accountBalance_append _ _ _ _

theorem commit_escrow {next : Point settings}
    (code : stmt settings developerId point = .commit next) (committed : Ledger)
    (asserts : point.Asserts developerId committed) :
    escrowBalance (point.flushed developerId) developerId =
      next.outstanding - point.outstanding := by
  rcases commit_cases code with ⟨request, rfl, rfl⟩ |
    ⟨request, providerId, actual, rfl, rfl⟩ | ⟨request, rfl, rfl⟩ |
    ⟨amount, rfl, rfl⟩ | ⟨submission, rfl, rfl⟩
  · have pos : ¬ request.amount ≤ 0 := not_le.mpr asserts.1
    have whole : request.held = request.amount := if_neg pos
    simp [Point.flushed, Point.outstanding, whole]
  · have heldNonneg := request.held_nonneg
    simp only [Point.flushed, Point.outstanding, escrowBalance_append, returnRows_escrow]
    split_ifs
    · simp only [escrowBalance, accountBalance, Ledger.sum_nil]
      omega
    · simp only [chargeRows_escrow]
      omega
  · have heldNonneg := request.held_nonneg
    simp only [Point.flushed, Point.outstanding, returnRows_escrow]
    omega
  · simp [Point.flushed, Point.outstanding]
  · have escrowNonneg := submission.escrow_nonneg
    simp only [Point.flushed, Point.outstanding]
    split_ifs
    · simp only [escrowBalance, accountBalance, Ledger.sum_nil]
      omega
    · simp [escrowBalance, accountBalance]
      omega

theorem undisturbed {action : Action} {conn moved : Conn Ledger Uuid (Point settings)}
    {committed : Ledger}
    (outline : Outline (Whole developerId base) (Each developerId) (fun _ _ => True) world)
    (apart : HoldsApart world action) (found : world.conns[action.index]? = some conn)
    (acts : Acts (program settings developerId) world conn moved committed action) :
    Undisturbed (Whole developerId base) (Each developerId) (fun _ _ => True)
      world action.index moved committed := by
  have each := outline.each _ conn found
  have whole := outline.whole
  -- a move that commits nothing disturbs nobody
  have silent (same : committed = world.committed) (mover : Each developerId world.committed moved)
      (outstanding : moved.point.outstanding = conn.point.outstanding) :
      Undisturbed (Whole developerId base) (Each developerId) (fun _ _ => True)
        world action.index moved committed := by
    subst same
    refine ⟨⟨whole.balance, ?_⟩, mover, ?_⟩
    · rw [World.total_set found, whole.escrow]
      omega
    · intro other peer _ lookup
      exact ⟨outline.each other peer lookup, trivial, trivial⟩
  cases action with
  | abort =>
    obtain ⟨rfl, same⟩ := acts
    obtain ⟨mover, outstanding⟩ := Each.abort conn.point world.committed
    exact silent same mover outstanding
  | exec index => ?_
  by_cases commits : ∃ next, stmt settings developerId conn.point = .commit next
  · obtain ⟨_, code⟩ := commits
    obtain ⟨rfl, rfl⟩ := acts.exec code
    have added : conn.pending world.committed =
        world.committed ++ conn.point.flushed developerId := by
      rw [each.pending]
    rw [added]
    refine ⟨⟨?_, ?_⟩, ?_, ?_⟩
    · cases holds : conn.point.commitsHold with
      | true => exact conn.point.balance_of_commitsHold each.asserts holds
      | false =>
        exact le_balance_append whole.balance (conn.point.flushed_balance_nonneg each.asserts holds)
    · rw [World.total_set found, escrowBalance_append,
        commit_escrow code world.committed each.asserts, whole.escrow]
      simp only [Conn.fresh]
      omega
    · rcases commit_cases code with ⟨_, _, rfl⟩ | ⟨_, _, _, _, rfl⟩ | ⟨_, _, rfl⟩ |
        ⟨_, _, rfl⟩ | ⟨_, _, rfl⟩ <;> exact .fresh rfl rfl trivial
    · intro other peer ne lookup
      refine ⟨?_, trivial, trivial⟩
      have untouched := outline.each other peer lookup
      refine ⟨untouched.pending, untouched.locked,
        untouched.asserts.append conn.point.flushed_credit_nonneg ?_ ?_⟩
      · intro locked
        apply conn.point.flushed_debit_of_unlocked
        cases mode : conn.point.lockMode with
        | none => rfl
        | some held =>
          have conflict := outline.compatible other index peer
            conn ne lookup found developerId .update held
            (untouched.locked _ locked) (each.locked _ mode)
          cases held <;> cases conflict
      · intro gated
        apply conn.point.flushed_balance_nonneg each.asserts
        by_contra holds
        obtain ⟨bound, -⟩ := List.getElem?_eq_some_iff.mp lookup
        have clear := apart conn found (by simpa using holds) other bound ne peer lookup
        rw [gated] at clear
        cases clear
  · obtain ⟨same, mover, outstanding⟩ := each.step whole.balance acts
      (fun next code => commits ⟨next, code⟩)
    exact silent same mover outstanding

def Point.resting : Point settings → Bool
  | .reserve _ => true
  | .holding _ => true
  | .deposit _ => true
  | .gateCredits .decide _ => true
  | .submitted _ => true
  | .done => true
  | _ => false

/-- Every connection rests, and the balance is not negative. -/
structure Starts (developerId : Uuid) (world : World Ledger Uuid (Point settings)) : Prop where
  resting : ∀ conn ∈ world.conns, conn = .fresh conn.point ∧ conn.point.resting = true
  balance : 0 ≤ developerBalance world.committed developerId

theorem outline_of_reaches {start : World Ledger Uuid (Point settings)}
    (starts : Starts developerId start)
    (escrow : escrowBalance start.committed developerId = base + start.total Point.outstanding)
    (reached : Reaches (program settings developerId) HoldsApart start world) :
    Outline (Whole developerId base) (Each developerId) (fun _ _ => True) world := by
  apply reached.outline_acts (.start ⟨starts.balance, escrow⟩ ?_)
  · intro _ _ _ _ _ outline apart found _ acts
    exact undisturbed outline apart found acts
  · intro conn mem
    obtain ⟨fresh, resting⟩ := starts.resting conn mem
    refine ⟨conn.point, fresh, ?_⟩
    revert resting
    cases conn.point with
    | gateCredits | reserve | holding | deposit | submitted | done =>
      exact fun _ => .fresh rfl rfl trivial
    | _ => exact nofun

/-- A point of a job submission. -/
def Point.submits : Point settings → Bool
  | .gateCredits _ _ => true
  | .gateDebits _ _ _ => true
  | .gateHeldCredits _ _ _ => true
  | .gateHeldDebits _ _ _ _ => true
  | .insertJob _ => true
  | .submitHold _ => true
  | .submitCommit _ => true
  | .submitRefused _ => true
  | .submitted _ => true
  | _ => false

theorem flush_leadsTo {posting : Except LedgerError Ledger} {next target : Point settings}
    (inference : next.submits = false) (leads : (flush posting next).LeadsTo target) :
    target.submits = false := by
  cases posting with
  | ok => exact leads ▸ inference
  | error => exact leads ▸ rfl

theorem inference_stays (point : Point settings) (inference : point.submits = false) :
    (onAbort point).submits = false ∧ ∀ target, (stmt settings developerId point).LeadsTo target →
        target.submits = false := by
  refine ⟨by cases point <;> first | rfl | exact inference, ?_⟩
  intro _ leads
  cases point with
  | reserve | charge =>
    simp only [stmt] at leads
    split_ifs at leads <;> obtain ⟨_, rfl⟩ := leads <;> rfl
  | reserveDebits | chargeDebits =>
    obtain ⟨_, rfl⟩ := leads
    dsimp only
    split_ifs <;> rfl
  | reservePost | chargePost | deposit => exact flush_leadsTo rfl leads
  | holding =>
    simp only [stmt] at leads
    split at leads <;> exact flush_leadsTo rfl leads
  | reserveCredits => obtain ⟨_, rfl⟩ := leads; rfl
  | chargeCredits =>
    obtain ⟨_, rfl⟩ := leads
    rfl
  | reserveCommit | reserveRaised | settleCommit | settleRaised | releaseCommit | depositCommit =>
    exact leads ▸ rfl
  | raised | done => exact leads.elim
  | _ => cases inference

/-- Whatever the interleaving, the committed balance is never negative, no
settlement finds it insufficient, and escrow is the sum of the open holds. -/
theorem inference_never_overdraws {start world : World Ledger Uuid (Point settings)}
    (starts : Starts developerId start)
    (inference : ∀ conn ∈ start.conns, conn.point.submits = false)
    (escrow : escrowBalance start.committed developerId = start.total Point.outstanding)
    (reached : Reaches (program settings developerId) (fun _ _ => True) start world) :
    0 ≤ developerBalance world.committed developerId ∧
      (∀ conn ∈ world.conns, ∀ request balance required,
        conn.point ≠ .settleRaised request balance required) ∧
      escrowBalance world.committed developerId = world.total Point.outstanding := by
  have kept : Reaches (program settings developerId) HoldsApart start world := by
    apply reached.strengthen
    intro _ action earlier _
    cases action with
    | abort => trivial
    | exec =>
      intro _ _ _ _ _ _ bystander lookup
      have stays := earlier.everywhere inference inference_stays bystander (mem_of_getElem? lookup)
      revert stays
      cases bystander.point <;> simp [Point.submits, Point.gated]
  have outline := outline_of_reaches starts (escrow.trans (Int.zero_add _).symm) kept
  refine ⟨outline.whole.balance, ?_, ?_⟩
  · intro conn member _ _ _ raised
    obtain ⟨index, lookup⟩ := mem_iff_getElem?.mp member
    have asserts := (outline.each index conn lookup).asserts
    rw [raised] at asserts
    exact asserts
  · rw [outline.whole.escrow, Int.zero_add]

def twoReservations : World Ledger Uuid (Point Settings.default) where
  committed := depositRows 7 (10 ^ 8)
  conns :=
    let request : Request := ⟨3 / 4, .settle 9 (1 / 2), by
      norm_num [Resolution.Within]⟩
    [.fresh (.reserve request), .fresh (.reserve request)]

theorem inference_never_overdraws_twoReservations :
    ∃ world : World Ledger Uuid (Point Settings.default),
      run (program Settings.default 7) (fun _ _ => True) twoReservations
        ((List.replicate 5 (.exec 0)) ++ (List.replicate 4 (.exec 1)) ++
          (List.replicate 6 (.exec 0))) = some world ∧
      0 ≤ developerBalance world.committed 7 ∧
      (∀ conn ∈ world.conns, ∀ request balance required,
        conn.point ≠ .settleRaised request balance required) ∧
      escrowBalance world.committed 7 = world.total Point.outstanding := by
  have starts : Starts 7 twoReservations := by
    refine ⟨?_, by decide⟩
    intro _ member
    simp only [twoReservations, mem_cons, not_mem_nil, or_false, or_self] at member
    subst member
    exact ⟨rfl, rfl⟩
  refine exists_run (by decide +kernel) fun world reached =>
    inference_never_overdraws starts ?_ (by decide) reached
  intro _ member
  simp only [twoReservations, mem_cons, not_mem_nil, or_false, or_self] at member
  subst member
  rfl

/-- However submissions interleave, the developer's balance is never negative,
as long as nobody commits a hold while another one stands behind its gate. -/
theorem submitGate_holds {start world : World Ledger Uuid (Point settings)}
    (starts : Starts developerId start)
    (reached : Reaches (program settings developerId) HoldsApart start world) :
    0 ≤ developerBalance world.committed developerId := by
  have base : escrowBalance start.committed developerId =
      (escrowBalance start.committed developerId -
        start.total Point.outstanding) + start.total Point.outstanding := by
    omega
  exact (outline_of_reaches starts base reached).whole.balance

def minuteJob (jobId : Uuid) : Submission Settings.default where
  jobId := jobId
  spec := ⟨1, 512, false, 0⟩
  timeoutSeconds := 60
  onchain := some (10 ^ 8)
  escrow := 10 ^ 8
  priced := by decide +kernel

def twoSubmissions : World Ledger Uuid (Point Settings.default) where
  committed := depositRows 7 (10 ^ 8)
  conns := [.fresh (.gateCredits .decide (minuteJob 1)),
     .fresh (.gateCredits .decide (minuteJob 2))]

theorem twoSubmissions_starts : Starts 7 twoSubmissions := by
  refine ⟨?_, by decide⟩
  intro _ mem
  simp only [twoSubmissions, mem_cons, not_mem_nil, or_false] at mem
  rcases mem with rfl | rfl <;> exact ⟨rfl, rfl⟩

theorem submitGate_overdrawn : ∃ world : World Ledger Uuid (Point Settings.default),
      Starts 7 twoSubmissions ∧
      Reaches (program Settings.default 7) (fun _ _ => True) twoSubmissions world ∧
      developerBalance world.committed 7 = -10 ^ 8 := by
  obtain ⟨world, ran, overdrawn⟩ : ∃ world ∈ run (program Settings.default 7) (fun _ _ => True)
      twoSubmissions (List.replicate 4 (.exec 0) ++ List.replicate 4 (.exec 1) ++
        List.replicate 3 (.exec 0) ++ List.replicate 3 (.exec 1)),
      developerBalance world.committed 7 = -10 ^ 8 := by
    decide +kernel
  exact ⟨world, twoSubmissions_starts, reaches_of_run .refl ran, overdrawn⟩

theorem submitGate_holds_serially : ∃ world : World Ledger Uuid (Point Settings.default),
      run (program Settings.default 7) HoldsApart twoSubmissions
        (List.replicate 7 (.exec 0) ++ List.replicate 9 (.exec 1)) = some world ∧
      0 ≤ developerBalance world.committed 7 :=
  exists_run (by decide +kernel) fun _ => submitGate_holds twoSubmissions_starts

end Gridix.Balance
