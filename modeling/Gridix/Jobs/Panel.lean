import Gridix.Jobs.Ballots

/-!
# The panel of a redundant job

A redundant job is assigned once, to no more providers than it demands votes.
-/

namespace Gridix

open List

structure Panel (record : JobRecord) : Prop where
  ballots : Ballots record
  bounded : record.job.redundancy ≠ 1 → record.attempts.length ≤ record.job.redundancy
  unanswered : record.job.kind ≠ .canary → record.job.expectedOutputHash = none

theorem Job.wanted_le (job : Job) : job.wanted ≤ job.redundancy := by
  have positive := job.redundancyPos
  unfold Job.wanted
  split_ifs
  · exact Nat.le_refl _
  · exact positive

section

variable {settings : Settings} {record moved : JobRecord}
  {books movedBooks : Books}

theorem length_of_providers (same : moved.attempts.map JobAttempt.providerId =
      record.attempts.map JobAttempt.providerId) :
    moved.attempts.length = record.attempts.length := by
  have lengths := congrArg List.length same
  rwa [length_map, length_map] at lengths

theorem JobEvent.perform_length {event : JobEvent}
    (ballots : Ballots record) (several : record.job.redundancy ≠ 1)
    (ok : event.perform settings record books = .ok (moved, movedBooks)) :
    moved.attempts.length = record.attempts.length ∨
      moved.attempts.length ≤ record.job.redundancy := by
  cases event with
  | idle =>
    cases ok
    exact .inl rfl
  | assign _ now =>
    obtain ⟨_, ⟨rfl, _⟩ | ⟨queued, primary, others, chosen, _, _,
      attempts⟩⟩ := assignProviders_ok ok
    · exact .inl rfl
    · refine .inr ?_
      have providers := congrArg List.length
        (newAttempts_providers record.maxNumber (primary :: others)
          (now + settings.leaseSeconds * 1000000))
      rw [length_map, ← chosen] at providers
      rw [attempts, ballots.unassigned several queued, nil_append, ← chosen, providers]
      exact (length_take_le _ _).trans record.job.wanted_le
  | heartbeat =>
    obtain ⟨_, _, _, touched⟩ := heartbeat_touched ok
    exact .inl (length_of_providers touched.providers)
  | reportStatus =>
    obtain ⟨_, _, _, touched⟩ := reportStatus_touched ok
    exact .inl (length_of_providers touched.providers)
  | submitResult =>
    obtain ⟨_, ⟨recording, _, _⟩, finalised⟩ := submitResult_ready ok
    rw [maybeFinalize_attempts finalised]
    exact .inl (length_of_providers recording.providers)
  | reclaim =>
    rcases reclaim_ok ok with ⟨rfl, _⟩ | ⟨single, _⟩
    · exact .inl rfl
    · exact absurd single several
  | reapAttempts _ _ now =>
    rcases reapAttempts_ok ok with ⟨rfl, _⟩ | ⟨_, finalised⟩
    · exact .inl rfl
    · rw [maybeFinalize_attempts finalised]
      exact .inl (length_of_providers (markLapsed_providers now))

end

theorem panel_preserved (settings : Settings) :
    Preserved settings (fun _ _ => True) fun record _ => Panel record := by
  intro event record books moved movedBooks panel permitted ok
  obtain ⟨_, posts⟩ := JobEvent.perform_posts ok
  have redundancy : moved.job.redundancy = record.job.redundancy :=
    congrArg JobTerms.redundancy posts.terms
  refine ⟨ballots_preserved settings event record books moved movedBooks
    panel.ballots permitted ok, ?_, ?_⟩
  · rw [redundancy]
    intro several
    rcases JobEvent.perform_length panel.ballots several ok with same | few
    · rw [same]
      exact panel.bounded several
    · exact few
  · rw [congrArg JobTerms.kind posts.terms, congrArg JobTerms.expectedOutputHash posts.terms]
    exact panel.unanswered

theorem Created.panel {settings : Settings} {record : JobRecord}
    {rows : Ledger} (creation : Created settings record rows) :
    Panel record := by
  refine ⟨creation.ballots, ?_, ?_⟩
  · intro _
    rw [creation.fresh.1]
    exact Nat.zero_le _
  · cases creation with
    | submitted => exact fun _ => rfl
    | canary => exact fun standard => absurd rfl standard

section

variable {record middle : JobRecord} {event : JobEvent}

theorem Ready.facts (ready : Ready record event middle) :
    middle.job.toJobTerms = record.job.toJobTerms ∧ middle.job.status.isTerminal = false ∧
      middle.attempts.map JobAttempt.providerId = record.attempts.map JobAttempt.providerId := by
  cases ready with
  | recorded recording =>
    exact ⟨recording.terms, by rw [recording.running]; rfl,
      recording.providers⟩
  | marked lapsed =>
    exact ⟨rfl, inFlight_open (hasLapsedAttempt_facts lapsed).1, markLapsed_providers _⟩

theorem Panel.complete (panel : Panel record) (ready : Ready record event middle)
    (several : middle.job.redundancy ≠ 1)
    (due : middle.job.redundancy ≤ middle.finishedAttempts.length) :
    middle.finishedAttempts = middle.attempts ∧ middle.attempts.length = middle.job.redundancy ∧
      (middle.attempts.map JobAttempt.providerId).Nodup := by
  obtain ⟨terms, _, providers⟩ := ready.facts
  have redundancy : middle.job.redundancy = record.job.redundancy :=
    congrArg JobTerms.redundancy terms
  have bounded := panel.bounded (redundancy ▸ several)
  rw [← length_of_providers providers, ← redundancy] at bounded
  have kept : middle.finishedAttempts.Sublist middle.attempts := filter_sublist
  have all := kept.eq_of_length_le (bounded.trans due)
  refine ⟨all, Nat.le_antisymm bounded (all ▸ due), ?_⟩
  rw [providers]
  exact panel.ballots.distinct (redundancy ▸ several)

end

end Gridix
