import Gridix.Jobs.Penalties

/-!
# Who has voted on a job

A job of redundancy one has no completed attempt before it is decided, and a
redundant job is assigned once, to distinct providers.
-/

namespace Gridix

open List

structure Ballots (record : JobRecord) : Prop where
  alone : record.job.redundancy = 1 → record.job.status.isTerminal = false →
      ∀ attempt ∈ record.attempts, attempt.outcome ≠ .completed
  unassigned : record.job.redundancy ≠ 1 → record.job.status = .queued → record.attempts = []
  distinct : record.job.redundancy ≠ 1 → (record.attempts.map JobAttempt.providerId).Nodup

def OneBallotEach (attempts : List JobAttempt) : Prop := ∀ left ∈ attempts, ∀ right ∈ attempts,
    left.outcome = .completed → right.outcome = .completed → left.providerId = right.providerId →
        left.proof = right.proof ∧ left.resultRef = right.resultRef

section

variable {record moved : JobRecord} {providerId : Uuid} {request : AgentResultRequest}

theorem updateAttempt_providers {number : Nat} {update : JobAttempt → JobAttempt}
    (same : ∀ attempt, (update attempt).providerId = attempt.providerId) :
    (record.updateAttempt number update).attempts.map JobAttempt.providerId =
        record.attempts.map JobAttempt.providerId := by
  rw [JobRecord.updateAttempt, map_map]
  refine map_congr_left fun attempt _ => ?_
  simp only [Function.comp_apply]
  split_ifs
  · exact same attempt
  · rfl

theorem Touched.providers {number : Nat} {update : JobAttempt → JobAttempt}
    (touched : Touched record moved number update) :
    moved.attempts.map JobAttempt.providerId = record.attempts.map JobAttempt.providerId := by
  rw [touched.attempts]
  exact updateAttempt_providers touched.provider

theorem Recorded.providers {clock : Clock}
    (recording : Recorded clock providerId request record moved) :
    moved.attempts.map JobAttempt.providerId = record.attempts.map JobAttempt.providerId := by
  obtain ⟨_, _, _, attempts⟩ := recording.attempts
  rw [attempts]
  exact updateAttempt_providers fun _ => rfl

theorem markLapsed_providers (now : Int) :
    (markLapsed now record).attempts.map JobAttempt.providerId =
      record.attempts.map JobAttempt.providerId := by
  rw [markLapsed, map_map]
  refine map_congr_left fun attempt _ => ?_
  simp only [Function.comp_apply]
  split_ifs <;> rfl

theorem Recorded.finished_pos {clock : Clock}
    (recording : Recorded clock providerId request record moved) :
    0 < moved.finishedAttempts.length := by
  obtain ⟨attempt, valid, found, attempts⟩ := recording.attempts
  obtain ⟨mem, _, _⟩ := mem_of_providerAttempt found
  have recorded : attempt.record clock request valid ∈ moved.attempts := by
    rw [attempts]
    exact mem_updateAttempt.mpr ⟨attempt, mem, if_pos rfl⟩
  exact length_pos_of_mem (mem_filter.mpr ⟨recorded, rfl⟩)

end

namespace Ballots

variable {settings : Settings} {order : RowOrder} {clock : Clock}
  {record moved : JobRecord} {books movedBooks : Books}

theorem ofSingle (single : record.job.redundancy = 1)
    (alone : record.job.status.isTerminal = false →
      ∀ attempt ∈ record.attempts, attempt.outcome ≠ .completed) :
    Ballots record where
  alone _ := alone
  unassigned several := absurd single several
  distinct several := absurd single several

theorem ofSeveral (several : record.job.redundancy ≠ 1) (left : record.job.status ≠ .queued)
    (distinct : (record.attempts.map JobAttempt.providerId).Nodup) :
    Ballots record where
  alone single := absurd single several
  unassigned _ queued := absurd queued left
  distinct _ := distinct

theorem ofAssign (ballots : Ballots record) {candidates : Candidates} {now : Int}
    (ok : assignProviders settings candidates now record books = .ok (moved, movedBooks)) :
    Ballots moved := by
  obtain ⟨_, ⟨rfl, _⟩ | ⟨queued, _, _, chosen, terms, status, attempts⟩⟩ := assignProviders_ok ok
  · exact ballots
  · have redundancy : moved.job.redundancy = record.job.redundancy :=
      congrArg JobTerms.redundancy terms
    by_cases single : record.job.redundancy = 1
    · refine ofSingle (redundancy.trans single) ?_
      intro _ attempt mem
      rw [attempts] at mem
      rcases mem_append.mp mem with old | new
      · exact ballots.alone single (by rw [queued]; rfl) attempt old
      · rw [(mem_newAttempts new).2]
        nofun
    · refine ofSeveral (redundancy.trans_ne single) (by rw [status]; nofun) ?_
      rw [attempts, ballots.unassigned single queued, nil_append, newAttempts_providers, ← chosen]
      exact candidates.nodup.sublist (take_sublist _ _)

theorem ofTouched (ballots : Ballots record) {number : Nat} {update : JobAttempt → JobAttempt}
    (touched : Touched record moved number update) : Ballots moved := by
  by_cases single : record.job.redundancy = 1
  · refine ofSingle (touched.redundancy.trans single) ?_
    intro _ _ mem completed
    rw [touched.attempts] at mem
    obtain ⟨source, here, rfl⟩ := mem_updateAttempt.mp mem
    exact ballots.alone single (inFlight_open touched.inFlight) source
      here (touched.vote completed).1
  · refine ofSeveral (touched.redundancy.trans_ne single) ?_ ?_
    · intro queued
      have inFlight := touched.stillInFlight
      rw [queued] at inFlight
      cases inFlight
    · rw [touched.providers]
      exact ballots.distinct single

theorem ofFinalised (ok : maybeFinalize settings order clock record books = .ok (moved, movedBooks))
    (inFlight : record.job.status.isTerminal = false)
    (enough : record.job.redundancy = 1 → 0 < record.finishedAttempts.length)
    (several : record.job.redundancy ≠ 1 → record.job.status ≠ .queued ∧
      (record.attempts.map JobAttempt.providerId).Nodup) :
    Ballots moved := by
  rcases maybeFinalize_ok ok with ⟨rfl, _, closed | _⟩ | ⟨_, _, _, _, resolved⟩
  · rw [inFlight] at closed
    cases closed
  · by_cases single : moved.job.redundancy = 1
    · have some := enough single
      omega
    · exact ofSeveral single (several single).1 (several single).2
  · obtain ⟨terms, attempts, terminal, _⟩ := resolved.facts
    have redundancy : moved.job.redundancy = record.job.redundancy :=
      congrArg JobTerms.redundancy terms
    by_cases single : record.job.redundancy = 1
    · refine ofSingle (redundancy.trans single) ?_
      intro unresolved
      rw [terminal] at unresolved
      cases unresolved
    · refine ofSeveral (redundancy.trans_ne single) ?_ ?_
      · intro queued
        rw [queued] at terminal
        cases terminal
      · rw [attempts]
        exact (several single).2

theorem ofReclaim (ballots : Ballots record) {now transitioned : Int}
    (single : record.job.redundancy = 1)
    (ok : reclaimJob settings now transitioned record = .ok moved) :
    Ballots moved := by
  obtain ⟨terms, _, inFlight, completed⟩ := reclaimJob_ok ok
  refine ofSingle ((congrArg JobTerms.redundancy terms).trans single) ?_
  intro _ attempt mem done
  exact ballots.alone single (inFlight_open inFlight) attempt (completed attempt mem done) done

theorem recorded (ballots : Ballots record) {providerId : Uuid} {request : AgentResultRequest}
    (recording : Recorded clock providerId request record moved) :
    OneBallotEach moved.attempts := by
  intro left leftMember right rightMember leftDone rightDone same
  by_cases single : record.job.redundancy = 1
  · -- every completed attempt is the one that was just recorded
    obtain ⟨_, _, _, attempts⟩ := recording.attempts
    have request : ∀ other ∈ moved.attempts, other.outcome = .completed →
        other.proof = some request.proof ∧ other.resultRef = request.resultRef := by
      intro _ mem done
      rw [attempts] at mem
      obtain ⟨source, here, rfl⟩ := mem_updateAttempt.mp mem
      split_ifs at done ⊢
      · exact ⟨rfl, rfl⟩
      · exact absurd done (ballots.alone single (inFlight_open recording.inFlight) source here)
    obtain ⟨leftProof, leftRef⟩ := request left leftMember leftDone
    obtain ⟨rightProof, rightRef⟩ := request right rightMember rightDone
    exact ⟨leftProof.trans rightProof.symm, leftRef.trans rightRef.symm⟩
  · have distinct := ballots.distinct single
    rw [← recording.providers] at distinct
    cases inj_on_of_nodup_map distinct leftMember rightMember same
    exact ⟨rfl, rfl⟩

theorem marked (ballots : Ballots record) (now : Int) (several : record.job.redundancy ≠ 1) :
    OneBallotEach (markLapsed now record).attempts := by
  intro _ leftMember _ rightMember _ _ same
  have distinct := ballots.distinct several
  rw [← markLapsed_providers now] at distinct
  cases inj_on_of_nodup_map distinct leftMember rightMember same
  exact ⟨rfl, rfl⟩

end Ballots

theorem ballots_preserved (settings : Settings) :
    Preserved settings (fun _ _ => True) fun record _ => Ballots record := by
  intro event record _ _ _ ballots _ ok
  cases event with
  | idle =>
    cases ok
    exact ballots
  | assign => exact ballots.ofAssign ok
  | heartbeat =>
    obtain ⟨_, _, _, touched⟩ := heartbeat_touched ok
    exact ballots.ofTouched touched
  | reportStatus =>
    obtain ⟨_, _, _, touched⟩ := reportStatus_touched ok
    exact ballots.ofTouched touched
  | submitResult =>
    obtain ⟨_, ⟨recording, _, _⟩, finalised⟩ := submitResult_ready ok
    refine .ofFinalised finalised (by rw [recording.running]; rfl)
      (fun _ => recording.finished_pos) ?_
    intro _
    refine ⟨by rw [recording.running]; nofun, ?_⟩
    rw [recording.providers]
    apply ballots.distinct
    rwa [← congrArg JobTerms.redundancy recording.terms]
  | reclaim =>
    rcases reclaim_ok ok with ⟨rfl, _⟩ | ⟨single, _, code⟩
    · exact ballots
    · exact ballots.ofReclaim single code
  | reapAttempts =>
    rcases reapAttempts_ok ok with ⟨rfl, _⟩ | ⟨lapsed, finalised⟩
    · exact ballots
    · obtain ⟨inFlight, several⟩ := hasLapsedAttempt_facts lapsed
      refine .ofFinalised finalised (inFlight_open inFlight)
        (fun single => absurd single several) ?_
      intro _
      refine ⟨?_, ?_⟩
      · intro queued
        change record.job.status = .queued at queued
        rw [queued] at inFlight
        cases inFlight
      · rw [markLapsed_providers]
        exact ballots.distinct several

variable {settings : Settings} {record : JobRecord} {rows : Ledger}

theorem Created.fresh (creation : Created settings record rows) :
    record.attempts = [] ∧ record.job.status = .queued := by
  cases creation <;> exact ⟨rfl, rfl⟩

theorem Created.ballots (creation : Created settings record rows) : Ballots record := by
  obtain ⟨nobody, _⟩ := creation.fresh
  refine ⟨?_, fun _ _ => nobody, ?_⟩
  · intro _ _ _ mem
    rw [nobody] at mem
    exact absurd mem not_mem_nil
  · intro _
    rw [nobody]
    exact nodup_nil

section

variable {settings : Settings} {order : RowOrder} {clock : Clock}
  {record moved : JobRecord} {books movedBooks : Books}

namespace Ready

variable {event : JobEvent} {middle : JobRecord}
  (ready : Ready record event middle)

include ready

theorem oneBallotEach (ballots : Ballots record) : OneBallotEach middle.attempts := by
  cases ready with
  | recorded recording => exact ballots.recorded recording
  | marked lapsed => exact ballots.marked _ (hasLapsedAttempt_facts lapsed).2

end Ready

end

end Gridix
