import Gridix.UsageBilling

/-!
# Billing on a database session

A session sees what others have committed, what it has committed itself and
what it has flushed.
-/

namespace Gridix

inductive Activity where
  | deposit (amount : ℚ)
  | jobHold (jobId : Uuid) (amount : Int)
  | dataCharge (jobId : Uuid) (amount : Int)
  | chainWithdraw (amount : Int) (txHash : String)
  | reserve (amount : ℚ)
  | settle (providerId : Uuid) (held : Int) (actual : ℚ)
  | release (held : Int)

def rowsOf : Except LedgerError Ledger → Ledger
  | .ok rows => rows
  | .error _ => []

def Activity.rows (settings : Settings) (developerId : Uuid)
    (committed : Ledger) : Activity → Ledger
  | .deposit amount => rowsOf (creditDeposit developerId amount)
  | .jobHold jobId amount => rowsOf (holdEscrow jobId developerId amount)
  | .dataCharge jobId amount =>
    rowsOf (postTransaction (transferPostings .developer (some developerId) .protocol none
        amount) .dataCost (some jobId) none)
  | .chainWithdraw amount txHash =>
    rowsOf (postTransaction (transferPostings .developer (some developerId) .protocol none
        amount) .chainWithdraw none (some txHash))
  | .reserve amount =>
    if quantizeUsdc amount ≤ 0 then []
    else if developerBalance committed developerId < quantizeUsdc amount
      then []
    else rowsOf (postHold developerId (quantizeUsdc amount))
  | .settle providerId held actual =>
    let returned := rowsOf (returnHold developerId held)
    if quantizeUsdc actual ≤ 0 then returned
    else if developerBalance (committed ++ returned) developerId < quantizeUsdc actual then []
    else returned ++ rowsOf (postCharge settings developerId providerId (quantizeUsdc actual))
  | .release held => rowsOf (returnHold developerId held)

def Activity.ledger (settings : Settings) (developerId : Uuid)
    (activities : List Activity) : Ledger :=
  activities.foldl (fun ledger activity =>
    ledger ++ activity.rows settings developerId ledger) []

/-- What others have committed, and what this session wrote. -/
structure Session where
  others : Ledger
  own : Ledger
  flushed : Ledger
  deriving DecidableEq

namespace Session

def visible (session : Session) : Ledger := session.others ++ session.own ++ session.flushed

def flush (session : Session) (rows : Ledger) : Session :=
  { session with flushed := session.flushed ++ rows }

def commit (session : Session) : Session :=
  { session with own := session.own ++ session.flushed, flushed := [] }

def rollback (session : Session) : Session := { session with flushed := [] }

def meanwhile (settings : Settings) (developerId : Uuid)
    (session : Session) (activities : List Activity) : Session :=
  activities.foldl (fun session activity =>
    { session with
      others := session.others ++ activity.rows settings developerId
        (session.others ++ session.own) }) session

@[simp] theorem meanwhile_own (settings : Settings) (developerId : Uuid)
    (session : Session) (activities : List Activity) :
    (session.meanwhile settings developerId activities).own = session.own := by
  unfold meanwhile
  induction activities generalizing session with
  | nil => rfl
  | cons _ _ ih => exact ih _

@[simp] theorem meanwhile_flushed (settings : Settings) (developerId : Uuid)
    (session : Session) (activities : List Activity) :
    (session.meanwhile settings developerId activities).flushed = session.flushed := by
  unfold meanwhile
  induction activities generalizing session with
  | nil => rfl
  | cons _ _ ih => exact ih _

theorem meanwhile_flush (settings : Settings) (developerId : Uuid)
    (session : Session) (rows : Ledger) (activities : List Activity) :
    (session.flush rows).meanwhile settings developerId activities =
      (session.meanwhile settings developerId activities).flush rows := by
  unfold meanwhile
  induction activities generalizing session with
  | nil => rfl
  | cons _ _ ih =>
    rw [List.foldl_cons, List.foldl_cons, ← ih]
    rfl

def committed (session : Session) : Ledger := session.others ++ session.own

end Session

structure Race where
  beforeCredits : List Activity
  beforeDebits : List Activity

section

variable (settings : Settings) (developerId : Uuid)

/-- Holds the worst case if the balance covers it. -/
def reserveBalance (session : Session) (amount : ℚ) : Except BillingError Int × Session :=
  let amount := quantizeUsdc amount
  if amount ≤ 0 then (.ok 0, session)
  else
    let balance := developerBalance session.visible developerId
    if balance < amount then
      (.error (.insufficientBalance balance amount), session)
    else
      match postHold developerId amount with
      | .error error => (.error (.ledger error), session)
      | .ok rows => (.ok amount, (session.flush rows).commit)

def chargeUsage (race : Race) (session : Session) (providerId : Uuid)
    (cost : ℚ) : Except BillingError Int × Session :=
  let cost := quantizeUsdc cost
  if cost ≤ 0 then (.ok 0, session)
  else
    let session := session.meanwhile settings developerId race.beforeCredits
    let credits := session.visible.sum .developer .credit (some developerId)
    let session := session.meanwhile settings developerId race.beforeDebits
    let debits := session.visible.sum .developer .debit (some developerId)
    let balance := credits - debits
    if balance < cost then
      (.error (.insufficientBalance balance cost), session)
    else
      match postCharge settings developerId providerId cost with
      | .error error => (.error (.ledger error), session)
      | .ok rows => (.ok cost, session.flush rows)

def settleReservation (race : Race) (session : Session) (providerId : Uuid)
    (held : Int) (actual : ℚ) : Except BillingError Int × Session :=
  match returnHold developerId held with
  | .error error => (.error (.ledger error), session)
  | .ok rows =>
    match chargeUsage settings developerId race (session.flush rows) providerId actual with
    | (.error error, session) => (.error error, session)
    | (.ok cost, session) => (.ok cost, session.commit)

def releaseReservation (session : Session) (held : Int) : Except BillingError Unit × Session :=
  match returnHold developerId held with
  | .error error => (.error (.ledger error), session)
  | .ok rows => (.ok (), (session.flush rows).commit)

end

section

variable {settings : Settings} {developerId : Uuid} {session : Session}

theorem reserveBalance_ok {amount : ℚ} {held : Int} {after : Session}
    (reserved : reserveBalance developerId session amount = (.ok held, after))
    (pos : 0 < held) :
    held = quantizeUsdc amount ∧ after = (session.flush (holdRows developerId held)).commit := by
  simp only [reserveBalance] at reserved
  split_ifs at reserved with small short
  · cases reserved
    exact absurd pos (lt_irrefl 0)
  · cases reserved
  · rw [postHold_eq developerId (le_of_lt (not_le.mp small))] at reserved
    cases reserved
    exact ⟨rfl, rfl⟩

theorem releaseReservation_eq (raw : ℚ) :
    releaseReservation developerId session (quantizeUsdc raw) = (.ok (), (session.flush
        (returnRows developerId (quantizeUsdc raw))).commit) := by
  unfold releaseReservation
  rw [returnHold_eq]

def balanceSeen (settings : Settings) (developerId : Uuid) (race : Race)
    (session : Session) : Int :=
  let session := session.meanwhile settings developerId race.beforeCredits
  let credits := session.visible.sum .developer .credit (some developerId)
  let session := session.meanwhile settings developerId race.beforeDebits
  credits - session.visible.sum .developer .debit (some developerId)

def fundsSeen (settings : Settings) (developerId : Uuid) (race : Race) (session : Session) : Int :=
  let session := session.meanwhile settings developerId race.beforeCredits
  let credits := session.committed.sum .developer .credit (some developerId)
  let session := session.meanwhile settings developerId race.beforeDebits
  credits - session.committed.sum .developer .debit (some developerId)

theorem balanceSeen_returned {race : Race} {raw : ℚ}
    (clean : session.flushed = []) (nonneg : 0 ≤ quantizeUsdc raw) :
    balanceSeen settings developerId race
        (session.flush (returnRows developerId (quantizeUsdc raw))) =
      fundsSeen settings developerId race session + quantizeUsdc raw := by
  simp only [balanceSeen, fundsSeen, Session.meanwhile_flush]
  simp only [Session.visible, Session.committed, Session.flush,
    Session.meanwhile_flushed, clean, List.nil_append, Ledger.sum_append,
    returnRows_credit, returnRows_debit]
  omega

theorem chargeUsage_cases (race : Race) (providerId : Uuid) (cost : ℚ) : (0 < quantizeUsdc cost ∧
      balanceSeen settings developerId race session < quantizeUsdc cost ∧
      ∃ error after, chargeUsage settings developerId race session providerId cost =
          (.error error, after) ∧
        after.own = session.own ∧ after.flushed = session.flushed) ∨
    (¬ (0 < quantizeUsdc cost ∧ balanceSeen settings developerId race session < quantizeUsdc cost) ∧
      ∃ paid after, chargeUsage settings developerId race session providerId cost =
          (.ok paid, after) ∧
        after.own = session.own ∧
        after.flushed = session.flushed ++
          if quantizeUsdc cost ≤ 0 then []
          else chargeRows settings developerId providerId (quantizeUsdc cost)) := by
  by_cases small : quantizeUsdc cost ≤ 0
  · refine .inr ⟨fun costs => absurd costs.1 (not_lt.mpr small), 0, session, ?_, rfl, ?_⟩
    · simp [chargeUsage, small]
    · simp [small]
  · by_cases short : balanceSeen settings developerId race session < quantizeUsdc cost
    · refine .inl ⟨not_le.mp small, short, ?_⟩
      simp only [balanceSeen] at short
      simp only [chargeUsage, if_neg small, if_pos short]
      exact ⟨_, _, rfl, by simp, by simp⟩
    · refine .inr ⟨fun costs => short costs.2, ?_⟩
      simp only [balanceSeen] at short
      simp only [chargeUsage, if_neg small, if_neg short, postCharge_eq _ _ _ (not_le.mp small)]
      exact ⟨_, _, rfl, by simp [Session.flush], by simp [Session.flush]⟩

theorem settleReservation_cases (race : Race) (providerId : Uuid) (raw actual : ℚ) :
    let returned := returnRows developerId (quantizeUsdc raw)
    let seen := balanceSeen settings developerId race (session.flush returned)
    (0 < quantizeUsdc actual ∧ seen < quantizeUsdc actual ∧ ∃ error after,
        settleReservation settings developerId race session providerId
          (quantizeUsdc raw) actual = (.error error, after) ∧
        after.own = session.own ∧
        after.flushed = session.flushed ++ returned) ∨
    (¬ (0 < quantizeUsdc actual ∧ seen < quantizeUsdc actual) ∧ ∃ paid after,
        settleReservation settings developerId race session providerId
          (quantizeUsdc raw) actual = (.ok paid, after) ∧
        after.own = session.own ++ (session.flushed ++ returned ++
          if quantizeUsdc actual ≤ 0 then []
          else chargeRows settings developerId providerId (quantizeUsdc actual)) ∧
        after.flushed = []) := by
  intro returned _
  have charge := @chargeUsage_cases settings developerId
    (session.flush returned) race providerId actual
  rcases charge with ⟨costs, short, error, after, charged, own, flushed⟩ |
    ⟨covered, paid, after, charged, own, flushed⟩
  · refine .inl ⟨costs, short, error, after, ?_, own, flushed⟩
    unfold settleReservation
    rw [returnHold_eq]
    dsimp only
    rw [charged]
  · refine .inr ⟨covered, paid, after.commit, ?_, ?_, rfl⟩
    · unfold settleReservation
      rw [returnHold_eq]
      dsimp only
      rw [charged]
    · simp only [Session.commit, own, flushed]
      rfl

end

end Gridix
