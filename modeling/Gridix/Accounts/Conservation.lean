import Gridix.Accounts.Program
import Gridix.Chain.Reconcile

/-!
# Every developer's money is accounted for

What came in for a developer, from the chain or as a deposit, is on its
account, in its escrow, or was consumed: by jobs, by the data they moved, or
by inference.
-/

namespace Gridix.Accounts

open List

open Watcher (mirrored watcherReason)

def deposited (ledger : Ledger) (developer : Uuid) : Int :=
  accountBalance (ledger.filter fun group => group.reason = .deposit) .developer (some developer)

def dataCharged (ledger : Ledger) (developer : Uuid) : Int :=
  Ledger.sum (ledger.filter fun group => group.reason = .dataCost)
    .developer .debit (some developer)

def netCredits (ledger : Ledger) (developer : Uuid) : Int :=
  mirrored ledger developer + deposited ledger developer

def consumed (ledger : Ledger) (developer : Uuid) : Int :=
  jobsConsumed ledger developer + dataCharged ledger developer + usageCharged ledger developer

section

variable (left right : Ledger) (developer : Uuid)

theorem dataCharged_append : dataCharged (left ++ right) developer =
    dataCharged left developer + dataCharged right developer := by
  simp [dataCharged]

end

section

variable {postings : List Posting} {reason : Reason} {jobId : Option Uuid}
  {txHash : Option String}

theorem dataCharged_group (developer : Uuid) :
    dataCharged [⟨postings, reason, jobId, txHash⟩] developer =
      if reason = .dataCost then
        sumPostings .developer .debit (some developer) postings
      else 0 := by
  by_cases data : reason = .dataCost <;> simp [dataCharged, data]

end

def Balanced (rows : Ledger) : Prop := ∀ developer, netCredits rows developer =
    funds rows developer + consumed rows developer

theorem balanced_of_groups {rows : Ledger}
    (groups : ∀ group ∈ rows, Balanced [group]) : Balanced rows := by
  intro developer
  induction rows with
  | nil => rfl
  | cons group _ ih =>
    have head := groups group mem_cons_self developer
    have tail := ih fun other mem =>
      groups other (mem_cons_of_mem _ mem)
    rw [← singleton_append, funds_append]
    simp only [netCredits, Watcher.mirrored_append, deposited, filter_append, accountBalance_append,
      consumed, jobsConsumed_append, usageCharged_append, dataCharged_append] at head tail ⊢
    omega

/-- The group moves neither the developer's balance nor their escrow. -/
def Spares (developer : Uuid) (group : LedgerGroup) : Prop :=
  developerBalance [group] developer = 0 ∧ escrowBalance [group] developer = 0

theorem balances_append {ledger rows : Ledger} {developer : Uuid}
    (spared : ∀ group ∈ rows, Spares developer group) :
    developerBalance (ledger ++ rows) developer = developerBalance ledger developer ∧
      escrowBalance (ledger ++ rows) developer = escrowBalance ledger developer := by
  induction rows generalizing ledger with
  | nil => simp
  | cons group _ ih =>
    obtain ⟨own, escrow⟩ := spared group mem_cons_self
    have tail := @ih (ledger ++ [group]) fun other mem => spared other (mem_cons_of_mem _ mem)
    rw [append_assoc, singleton_append] at tail
    unfold developerBalance at own tail ⊢
    unfold escrowBalance at escrow tail ⊢
    rw [tail.1, tail.2, accountBalance_append, accountBalance_append, own,
      escrow, add_zero, add_zero]
    exact ⟨rfl, rfl⟩

variable {network : Watcher.Network}

theorem reachable_balanced {config : Config} {world : World network}
    (reached : Reachable config world) : Balanced world.ledger := by
  apply balanced_of_groups
  intro group mem
  obtain ⟨_, posted⟩ := (reachable_consistent reached).posted group mem
  rcases posted with ⟨_, _, _, _, job⟩ | own
  · intro _
    cases job <;> simp [netCredits, mirrored, deposited, funds, accountBalance, consumed,
      jobsConsumed_group, dataCharged_group, usageCharged_group, watcherReason]
  · intro _
    cases own with
    | hold | giveBack | charge | deposit =>
      simp [netCredits, mirrored, deposited, funds, accountBalance, consumed, jobsConsumed_group,
        dataCharged_group, usageCharged_group, watcherReason]
    | crossing crossing =>
      cases crossing with
      | credit amount reason txHash counted
      | debit _ reason _ counted =>
        have notSettle : reason ≠ .settle := ne_of_watcherReason counted rfl
        have notData : reason ≠ .dataCost := ne_of_watcherReason counted rfl
        have notUsage : reason ≠ .inferenceUsage := ne_of_watcherReason counted rfl
        have either : reason ≠ .deposit := ne_of_watcherReason counted rfl
        simp [netCredits, mirrored, deposited, funds, accountBalance, consumed, jobsConsumed_group,
          dataCharged_group, usageCharged_group, counted, notData, notUsage, either]

/-- Each developer's net credits are its balance, its escrow and what it has
consumed, and a step changes the balances of nobody it is not about. -/
theorem accounts_conserved {config : Config} {world : World network}
    (reached : Reachable config world) :
    (∀ developer, netCredits world.ledger developer = developerBalance world.ledger developer +
        escrowBalance world.ledger developer +
        consumed world.ledger developer) ∧
    ∀ action, Permitted world action → ∀ developer, ¬ Concerns config world developer action →
        developerBalance (step config action world).ledger developer =
            developerBalance world.ledger developer ∧
          escrowBalance (step config action world).ledger developer =
            escrowBalance world.ledger developer := by
  constructor
  · exact reachable_balanced reached
  · intro _ permitted developer unconcerned
    obtain ⟨_, ledger, groups⟩ := step_posts (reachable_consistent reached) permitted
    rw [ledger]
    apply balances_append
    intro group member
    obtain ⟨owner, about, posted⟩ := groups group member
    have other : owner ≠ developer := by
      rintro rfl
      exact unconcerned about
    rcases posted with ⟨_, _, _, rfl, job⟩ | own
    · unfold Spares developerBalance escrowBalance accountBalance
      cases job <;> simp [other]
    · unfold Spares developerBalance escrowBalance accountBalance
      cases own with
      | hold | giveBack | charge | deposit => simp [other]
      | crossing crossing => cases crossing <;> simp [other]

def tradingConfig : Config := ⟨Settings.default, escrowDeployment.watcher⟩

def beforeTrade : World escrowNetwork := ⟨System.empty, emptyPlatform.watcher⟩

/-- Developer 1 deposits on the chain and runs a job, developer 2 deposits
and is charged for inference. -/
def trades : List (Action escrowNetwork) := [.watcher (.tick .stored),
    .billing 2 [.deposit 1, .commit],
    .job (.submitJob (minuteRequest false 1) 1 3 none true none 0),
    .job (.assignProviders 3 (.of [5]) 0),
    .billing 2 [.reserve (1 / 10)],
    .job (.submitResult .stored ⟨0, 30000000, 30000000, 30000000⟩ 5 3 (cleanResult (.str "a"))),
    .billing 2 [.settle 7 10000000 (1 / 25)]]

def traded : World escrowNetwork := Serial.run (step tradingConfig) trades beforeTrade

theorem traded_reachable : Reachable tradingConfig traded := by
  refine Serial.Reaches.run (.start ⟨rfl, rfl, ⟨rfl, rfl, rfl⟩, rfl⟩) ?_
  apply Serial.allPermitted_of_forall
  intro _ mem _
  simp only [trades, mem_cons, not_mem_nil, or_false] at mem
  rcases mem with rfl | rfl | rfl | rfl | rfl | rfl | rfl <;> trivial

theorem accounts_conserved_traded : consumed traded.ledger 1 = 50000000 ∧
      netCredits traded.ledger 1 =
        developerBalance traded.ledger 1 + escrowBalance traded.ledger 1 +
          consumed traded.ledger 1 ∧
      developerBalance (step tradingConfig (.billing 2 [.release 100])
          traded).ledger 1 = developerBalance traded.ledger 1 := by
  obtain ⟨conserved, isolated⟩ := accounts_conserved traded_reachable
  refine ⟨by decide +kernel, conserved 1, ?_⟩
  refine (isolated (.billing 2 [.release 100]) trivial 1 ?_).1
  change ¬ (2 : Uuid) = 1
  decide

end Gridix.Accounts
