import Gridix.Balance.Program

/-!
# The balance invariant of all interleavings

What a transaction may rely on at each of its control points, and that no
other transaction can take it away.
-/

namespace Gridix.Balance

open ReadCommitted List

variable {settings : Settings} {developerId : Uuid} {request : Request} {providerId : Uuid}
  {actual : ℚ} {added : Ledger} {point : Point settings}

theorem Request.held_nonneg (request : Request) : 0 ≤ request.held := heldAmount_nonneg request.raw

theorem Request.cost_le_held (settles : request.later = .settle providerId actual) :
    quantizeUsdc actual ≤ request.held := by
  have within := request.within
  rw [settles] at within
  exact quantizeUsdc_le_heldAmount within

theorem Request.returnHold_held (request : Request) (developerId : Uuid) :
    returnHold developerId request.held = .ok (returnRows developerId request.held) := by
  obtain ⟨amount, quantised⟩ := exists_quantizeUsdc_eq_heldAmount request.raw
  rw [Request.held, quantised]
  exact returnHold_eq developerId amount

theorem Submission.escrow_nonneg (submission : Submission settings) : 0 ≤ submission.escrow := by
  rw [submission.priced]
  exact escrowEstimate_nonneg _ _ _

def Point.Asserts (developerId : Uuid) (committed : Ledger) : Point settings → Prop
  | .reserveCredits request => 0 < request.amount
  | .reserveDebits request credits =>
    0 < request.amount ∧ credits ≤ committed.sum .developer .credit (some developerId)
  | .reservePost request =>
    0 < request.amount ∧ request.amount ≤ developerBalance committed developerId
  | .reserveCommit request =>
    0 < request.amount ∧ request.amount ≤ developerBalance committed developerId
  | .charge request providerId actual =>
    request.later = .settle providerId actual
  | .chargeCredits request providerId actual =>
    request.later = .settle providerId actual ∧ 0 < quantizeUsdc actual
  | .chargeDebits request providerId actual credits =>
    request.later = .settle providerId actual ∧ 0 < quantizeUsdc actual ∧ quantizeUsdc actual ≤
        credits - committed.sum .developer .debit (some developerId)
  | .chargePost request providerId actual =>
    request.later = .settle providerId actual ∧ 0 < quantizeUsdc actual
  | .settleCommit request providerId actual =>
    request.later = .settle providerId actual
  | .settleRaised _ _ _ => False
  | .gateDebits _ _ credits =>
    credits ≤ committed.sum .developer .credit (some developerId)
  | .gateHeldCredits .decide _ free =>
    free ≤ developerBalance committed developerId
  | .gateHeldDebits .decide _ free _ =>
    free ≤ developerBalance committed developerId
  | .insertJob submission =>
    submission.escrow ≤ developerBalance committed developerId
  | .submitHold submission =>
    submission.escrow ≤ developerBalance committed developerId
  | .submitCommit submission =>
    submission.escrow ≤ developerBalance committed developerId
  | _ => True

structure Each (developerId : Uuid) (committed : Ledger)
    (conn : Conn Ledger Uuid (Point settings)) : Prop where
  pending : conn.pending = fun ledger => ledger ++ conn.point.flushed developerId
  locked : ∀ mode, conn.point.lockMode = some mode → (developerId, mode) ∈ conn.locks
  asserts : conn.point.Asserts developerId committed

/-- The committed balance is never negative, and escrow is what the
outstanding holds add up to, over what it held before. -/
structure Whole (developerId : Uuid) (base : Int)
    (world : World Ledger Uuid (Point settings)) : Prop where
  balance : 0 ≤ developerBalance world.committed developerId
  escrow : escrowBalance world.committed developerId = base + world.total Point.outstanding

section

variable (point : Point settings)

theorem Point.flushed_credit_nonneg : 0 ≤ (point.flushed developerId).sum .developer .credit
      (some developerId) := by
  cases point with
  | settleCommit =>
    simp only [Point.flushed]
    split_ifs <;> simp
  | submitCommit =>
    simp only [Point.flushed]
    split_ifs <;> simp
  | _ => simp [Point.flushed]

theorem Point.flushed_debit_of_unlocked (unlocked : point.lockMode = none) :
    (point.flushed developerId).sum .developer .debit (some developerId) = 0 := by
  cases point with
  | settleCommit _ _ actual =>
    have free : quantizeUsdc actual ≤ 0 := by
      by_contra pos
      simp [Point.lockMode, pos] at unlocked
    simp [Point.flushed, free]
  | reserveCommit | submitCommit => cases unlocked
  | _ => simp [Point.flushed]

theorem Point.flushed_balance_nonneg {committed : Ledger}
    (asserts : point.Asserts developerId committed) (noHold : point.commitsHold = false) :
    0 ≤ developerBalance (point.flushed developerId) developerId := by
  cases point with
  | settleCommit _ =>
    have covered := Request.cost_le_held asserts
    simp only [developerBalance, accountBalance, Point.flushed,
      Ledger.sum_append, returnRows_credit, returnRows_debit]
    split_ifs
    · simp
    · simp only [chargeRows_credit, chargeRows_debit]
      omega
  | reserveCommit | submitCommit => cases noHold
  | _ => simp [developerBalance, accountBalance, Point.flushed]

theorem Point.balance_of_commitsHold {committed : Ledger}
    (asserts : point.Asserts developerId committed) (holds : point.commitsHold = true) :
    0 ≤ developerBalance (committed ++ point.flushed developerId) developerId := by
  cases point with
  | reserveCommit =>
    have covered := asserts.2
    simp only [developerBalance, accountBalance_append] at covered ⊢
    simp only [Point.flushed, accountBalance, holdRows_credit, holdRows_debit] at covered ⊢
    omega
  | submitCommit submission =>
    have covered : submission.escrow ≤ _ := asserts
    have escrowNonneg := submission.escrow_nonneg
    simp only [developerBalance, accountBalance_append, Point.flushed] at covered ⊢
    split_ifs
    · simp only [accountBalance, Ledger.sum_nil] at covered ⊢
      omega
    · simp only [accountBalance, Ledger.sum_cons, Ledger.sum_nil,
        sumPostings_transfer_credit, sumPostings_transfer_debit]
        at covered ⊢
      omega
  | _ => cases holds

end

theorem le_balance_append {bound : Int} {committed : Ledger}
    (before : bound ≤ developerBalance committed developerId)
    (raised : 0 ≤ developerBalance added developerId) :
    bound ≤ developerBalance (committed ++ added) developerId := by
  simp only [developerBalance, accountBalance_append] at before raised ⊢
  omega

theorem Point.Asserts.append {committed : Ledger} (asserts : point.Asserts developerId committed)
    (credits : 0 ≤ added.sum .developer .credit (some developerId))
    (lockedOut : point.lockMode = some .update → added.sum .developer .debit (some developerId) = 0)
    (apart : point.gated = true → 0 ≤ developerBalance added developerId) :
    point.Asserts developerId (committed ++ added) := by
  have raisedUnderLock (locked : point.lockMode = some .update) :
      0 ≤ developerBalance added developerId := by
    have noDebit := lockedOut locked
    simp only [developerBalance, accountBalance]
    omega
  cases point with
  | reserveDebits =>
    obtain ⟨pos, _⟩ := asserts
    refine ⟨pos, ?_⟩
    rw [Ledger.sum_append]
    omega
  | reservePost | reserveCommit =>
    exact ⟨asserts.1, le_balance_append asserts.2 (raisedUnderLock rfl)⟩
  | chargeDebits =>
    obtain ⟨settles, pos, _⟩ := asserts
    refine ⟨settles, pos, ?_⟩
    have noDebit := lockedOut rfl
    rw [Ledger.sum_append]
    omega
  | gateDebits _ _ read =>
    have before : read ≤ _ := asserts
    show read ≤ _
    rw [Ledger.sum_append]
    omega
  | gateHeldCredits pass | gateHeldDebits pass =>
    cases pass with
    | report => trivial
    | decide => exact le_balance_append asserts (apart rfl)
  | insertJob | submitHold | submitCommit => exact le_balance_append asserts (apart rfl)
  | _ => exact asserts

theorem Each.fresh {committed : Ledger} (quiet : point.flushed developerId = [])
    (unlocked : point.lockMode = none) (asserts : point.Asserts developerId committed) :
    Each developerId committed (.fresh point) where
  pending := by
    funext ledger
    simp [Conn.fresh, quiet]
  locked := by
    intro _ held
    rw [Conn.fresh, unlocked] at held
    cases held
  asserts := asserts

section

variable {committed : Ledger} {conn : Conn Ledger Uuid (Point settings)}

theorem Each.query (each : Each developerId committed conn) {next : Point settings}
    (flushed : next.flushed developerId = conn.point.flushed developerId)
    (locked : next.lockMode = none ∨ next.lockMode = conn.point.lockMode)
    (asserts : next.Asserts developerId committed) :
    Each developerId committed { conn with point := next } where
  pending := by
    rw [flushed]
    exact each.pending
  locked := by
    intro mode held
    rcases locked with none | same
    · rw [none] at held
      cases held
    · exact each.locked mode (same ▸ held)
  asserts := asserts

theorem Each.lock (each : Each developerId committed conn) {next : Point settings} {mode : LockMode}
    (flushed : next.flushed developerId = conn.point.flushed developerId)
    (locked : next.lockMode = some mode) (asserts : next.Asserts developerId committed) :
    Each developerId committed
      { conn with
        point := next, locks := (developerId, mode) :: conn.locks } where
  pending := by
    rw [flushed]
    exact each.pending
  locked := by
    intro _ held
    cases locked.symm.trans held
    exact mem_cons_self
  asserts := asserts

theorem Each.post (each : Each developerId committed conn) {next : Point settings} {rows : Ledger}
    {locks : List (Uuid × LockMode)}
    (flushed : next.flushed developerId = conn.point.flushed developerId ++ rows)
    (locked : next.lockMode = conn.point.lockMode) (asserts : next.Asserts developerId committed) :
    Each developerId committed
      { point := next
        pending := fun ledger => conn.pending ledger ++ rows
        locks := locks ++ conn.locks } where
  pending := by
    rw [flushed, each.pending]
    funext ledger
    exact append_assoc _ _ _
  locked := by
    intro mode held
    exact mem_append_right _ (each.locked mode (locked ▸ held))
  asserts := asserts

theorem Each.abort (point : Point settings) (committed : Ledger) :
    Each developerId committed (.fresh (onAbort point)) ∧
      (onAbort point).outstanding = point.outstanding := by
  cases point <;> exact ⟨Each.fresh rfl rfl trivial, rfl⟩

end

theorem gateNext_asserts {pass : Pass} {submission : Submission settings}
    {available : Int} {committed : Ledger}
    (covered : pass = .decide → available ≤ developerBalance committed developerId) :
    (gateNext pass submission available).Asserts developerId committed := by
  cases pass with
  | report => trivial
  | decide =>
    simp only [gateNext]
    split_ifs with enough
    · exact enough.trans (covered rfl)
    · trivial

theorem gateNext_quiet (pass : Pass) (submission : Submission settings) (available : Int) :
    (gateNext pass submission available).flushed developerId = [] ∧
      (gateNext pass submission available).lockMode = none ∧
      (gateNext pass submission available).outstanding = 0 := by
  cases pass with
  | report => exact ⟨rfl, rfl, rfl⟩
  | decide =>
    simp only [gateNext]
    split_ifs <;> exact ⟨rfl, rfl, rfl⟩

theorem Each.step {world : World Ledger Uuid (Point settings)} {index : Nat}
    {conn moved : Conn Ledger Uuid (Point settings)} {committed : Ledger}
    (each : Each developerId world.committed conn)
    (balance : 0 ≤ developerBalance world.committed developerId)
    (acts : Acts (program settings developerId) world conn moved committed (.exec index))
    (noCommit : ∀ next, stmt settings developerId conn.point ≠ .commit next) :
    committed = world.committed ∧ Each developerId world.committed moved ∧
      moved.point.outstanding = conn.point.outstanding := by
  obtain ⟨point, pending, _⟩ := conn
  obtain rfl : pending = fun ledger => ledger ++ point.flushed developerId := each.pending
  have asserts := each.asserts
  cases point with
  | reserve request =>
    by_cases small : request.amount ≤ 0
    · obtain ⟨rfl, rfl⟩ := acts.exec (if_pos small)
      refine ⟨rfl, each.query rfl (.inl rfl) trivial, ?_⟩
      have nothing : request.held = 0 := if_pos small
      simp [Point.outstanding, nothing]
    · obtain ⟨_, rfl, rfl⟩ := acts.exec (if_neg small)
      exact ⟨rfl, each.lock rfl rfl (by simpa [Point.Asserts] using small), rfl⟩
  | reserveCredits =>
    obtain ⟨rfl, rfl⟩ := acts
    refine ⟨rfl, each.query rfl (.inr rfl) ⟨asserts, ?_⟩, rfl⟩
    simp only [Point.flushed, append_nil]
    exact Int.le_refl _
  | reserveDebits =>
    obtain ⟨rfl, rfl⟩ := acts
    obtain ⟨pos, _⟩ := asserts
    refine ⟨rfl, ?_⟩
    dsimp only
    split_ifs with short
    · exact ⟨each.query rfl (.inl rfl) trivial, rfl⟩
    · refine ⟨each.query rfl (.inr rfl) ⟨pos, ?_⟩, rfl⟩
      simp only [Point.flushed, append_nil] at short
      simp only [developerBalance, accountBalance]
      omega
  | reservePost =>
    obtain ⟨pos, covered⟩ := asserts
    obtain ⟨_, rfl, rfl⟩ := acts.exec (by
      simp only [program, stmt, postHold_eq developerId pos.le]; rfl)
    exact ⟨rfl, each.post rfl rfl ⟨pos, covered⟩, rfl⟩
  | reserveCommit | settleCommit | releaseCommit | depositCommit | submitCommit =>
    exact absurd rfl (noCommit _)
  | reserveRaised | submitRefused =>
    obtain ⟨rfl, rfl⟩ := acts
    exact ⟨rfl, .fresh rfl rfl trivial, rfl⟩
  | holding request =>
    cases later : request.later with
    | settle =>
      obtain ⟨_, rfl, rfl⟩ := acts.exec (by
        simp only [program, stmt, later, request.returnHold_held]; rfl)
      exact ⟨rfl, each.post rfl rfl later, rfl⟩
    | release =>
      obtain ⟨_, rfl, rfl⟩ := acts.exec (by
        simp only [program, stmt, later, request.returnHold_held]; rfl)
      exact ⟨rfl, each.post rfl rfl trivial, rfl⟩
  | charge _ _ actual =>
    by_cases small : quantizeUsdc actual ≤ 0
    · obtain ⟨rfl, rfl⟩ := acts.exec (if_pos small)
      refine ⟨rfl, each.query ?_ (.inl ?_) asserts, rfl⟩
      · simp [Point.flushed, small]
      · simp [Point.lockMode, small]
    · obtain ⟨_, rfl, rfl⟩ := acts.exec (if_neg small)
      exact ⟨rfl, each.lock rfl rfl ⟨asserts, by omega⟩, rfl⟩
  | chargeCredits =>
    obtain ⟨rfl, rfl⟩ := acts
    obtain ⟨settles, pos⟩ := asserts
    refine ⟨rfl, each.query rfl (.inr rfl) ⟨settles, pos, ?_⟩, rfl⟩
    -- the hold has been returned in this transaction, and the committed
    -- balance is not negative
    have covered := Request.cost_le_held settles
    simp only [developerBalance, accountBalance] at balance
    simp only [Point.flushed, Ledger.sum_append, returnRows_credit]
    omega
  | chargeDebits =>
    obtain ⟨rfl, rfl⟩ := acts
    obtain ⟨settles, pos, _⟩ := asserts
    refine ⟨rfl, ?_⟩
    dsimp only
    split_ifs with short
    · simp only [Point.flushed, Ledger.sum_append, returnRows_debit] at short
      omega
    · exact ⟨each.query rfl (.inr rfl) ⟨settles, pos⟩, rfl⟩
  | chargePost =>
    obtain ⟨settles, pos⟩ := asserts
    obtain ⟨_, rfl, rfl⟩ := acts.exec (by
      simp only [program, stmt, postCharge_eq _ _ _ pos]; rfl)
    refine ⟨rfl, each.post ?_ ?_ settles, rfl⟩
    · simp [Point.flushed, not_le.mpr pos]
    · simp [Point.lockMode, not_le.mpr pos]
  | settleRaised => exact asserts.elim
  | deposit =>
    obtain ⟨_, rfl, rfl⟩ := acts.exec (by
      simp only [program, stmt, creditDeposit_eq]; rfl)
    exact ⟨rfl, each.post rfl rfl trivial, rfl⟩
  | gateCredits =>
    obtain ⟨rfl, rfl⟩ := acts
    refine ⟨rfl, each.query rfl (.inl rfl) ?_, rfl⟩
    simp only [Point.flushed, append_nil]
    exact Int.le_refl _
  | gateDebits pass submission credits =>
    obtain ⟨rfl, rfl⟩ := acts
    have read : credits ≤ _ := asserts
    have free : credits - (world.committed ++ []).sum .developer .debit (some developerId) ≤
        developerBalance world.committed developerId := by
      simp only [developerBalance, accountBalance, append_nil]
      omega
    refine ⟨rfl, ?_⟩
    split
    · obtain ⟨quiet, unlocked, nothing⟩ := gateNext_quiet pass submission _
      exact ⟨each.query quiet (.inl unlocked) (gateNext_asserts fun _ => free), nothing⟩
    · refine ⟨each.query rfl (.inl rfl) ?_, rfl⟩
      cases pass with
      | report => trivial
      | decide => exact free
  | gateHeldCredits pass =>
    obtain ⟨rfl, rfl⟩ := acts
    refine ⟨rfl, each.query rfl (.inl rfl) ?_, rfl⟩
    cases pass with
    | report => trivial
    | decide => exact asserts
  | gateHeldDebits pass submission =>
    obtain ⟨rfl, rfl⟩ := acts
    obtain ⟨quiet, unlocked, nothing⟩ := gateNext_quiet pass submission _
    refine ⟨rfl, each.query quiet (.inl unlocked) ?_, nothing⟩
    apply gateNext_asserts
    rintro rfl
    exact (min_le_left _ _).trans asserts
  | insertJob =>
    obtain ⟨_, rfl, rfl⟩ := acts
    refine ⟨rfl, ⟨rfl, ?_, asserts⟩, rfl⟩
    intro _ held
    cases held
    exact mem_cons_self
  | submitHold submission =>
    have code := holdEscrow_eq submission.jobId developerId submission.escrow
    obtain ⟨_, rfl, rfl⟩ := acts.exec (by simp only [program, stmt, code]; rfl)
    exact ⟨rfl, each.post rfl rfl asserts, rfl⟩
  | submitted | raised | done => exact False.elim acts

end Gridix.Balance
