import Gridix.Jobs.Ballots
import Gridix.Jobs.Matcher
import Gridix.Jobs.Postings

/-!
# Concurrency caps

The matcher counts a job against the provider it is assigned to, and keeps
that load below the provider's cap.  Work is handed out as attempts, though,
and a redundant job gives one to each provider of its panel.
-/

namespace Gridix

open List Serial

section

variable {settings : Settings} {record moved : JobRecord}
  {books movedBooks : Books} {providerId : Uuid}

theorem occupies_iff : record.occupies providerId = true ↔ record.HeldBy providerId := by
  rw [JobRecord.occupies, Bool.and_eq_true, beq_iff_eq]
  rfl

theorem assignProviders_lead {candidates : Candidates} {now : Int}
    (ok : assignProviders settings candidates now record books = .ok (moved, movedBooks)) :
    moved = record ∨ moved.job.assignedProviderId = candidates.ids.head? := by
  unfold assignProviders at ok
  split_ifs at ok
  · cases ok
    exact .inl rfl
  · split at ok
    · cases ok
      exact .inl rfl
    · rename_i _ chosen
      obtain ⟨_, _, ok⟩ := bind_eq_ok.mp ok
      cases ok
      refine .inr ?_
      cases listed : candidates.ids with
      | nil =>
        rw [listed, take_nil] at chosen
        cases chosen
      | cons =>
        cases wanted : record.job.wanted with
        | zero =>
          rw [wanted] at chosen
          cases chosen
        | succ =>
          rw [listed, wanted] at chosen
          rw [(List.cons.inj chosen).1]
          rfl

theorem maybeFinalize_lead {order : RowOrder} {clock : Clock}
    (ok : maybeFinalize settings order clock record books = .ok (moved, movedBooks))
    (held : moved.HeldBy providerId) : moved = record := by
  rcases maybeFinalize_ok ok with ⟨rfl, _⟩ | ⟨_, _, _, _, resolved⟩
  · rfl
  · have terminal := resolved.facts.2.2.1
    rw [inFlight_open held.1] at terminal
    cases terminal

theorem JobEvent.perform_lead {event : JobEvent}
    (ok : event.perform settings record books = .ok (moved, movedBooks))
    (held : moved.HeldBy providerId) :
    record.HeldBy providerId ∨ ∃ candidates now, event = .assign candidates now ∧
        candidates.ids.head? = some providerId := by
  cases event with
  | idle =>
    cases ok
    exact .inl held
  | assign candidates now =>
    rcases assignProviders_lead ok with rfl | lead
    · exact .inl held
    · exact .inr ⟨candidates, now, rfl, lead.symm.trans held.2⟩
  | heartbeat =>
    obtain ⟨_, _, ok⟩ := bind_eq_ok.mp ok
    cases ok
    exact .inl held
  | reportStatus =>
    obtain ⟨_, owned, ok⟩ := bind_eq_ok.mp ok
    obtain ⟨_, started, ok⟩ := bind_eq_ok.mp ok
    cases ok
    have lead := (startRunning_columns started).1
    exact .inl ⟨(ownedInFlight_ok owned).2, lead.symm.trans held.2⟩
  | submitResult =>
    obtain ⟨_, owned, ok⟩ := bind_eq_ok.mp ok
    split_ifs at ok
    obtain ⟨_, started, ok⟩ := bind_eq_ok.mp ok
    split_ifs at ok
    rw [maybeFinalize_lead ok held] at held
    have lead := (startRunning_columns started).1
    exact .inl ⟨(ownedInFlight_ok owned).2, lead.symm.trans held.2⟩
  | reclaim =>
    rcases reclaim_ok ok with ⟨rfl, _⟩ | ⟨_, _, code⟩
    · exact .inl held
    · have inFlight := held.1
      obtain ⟨_, ⟨_, failed⟩ | ⟨_, queued⟩, _⟩ := reclaimJob_ok code
      · rw [failed] at inFlight
        cases inFlight
      · rw [queued] at inFlight
        cases inFlight
  | reapAttempts =>
    rcases reapAttempts_ok ok with ⟨rfl, _⟩ | ⟨_, finalised⟩
    · exact .inl held
    · rw [maybeFinalize_lead finalised held] at held
      exact .inl held

end

section

variable {settings : Settings} {fleet : Fleet} {system moved : System}
  {providerId : Uuid} {operation : Operation}

def System.ledBy (system : System) (providerId : Uuid) : List Uuid :=
  (system.records.filter fun record => record.occupies providerId).map fun record => record.job.id

theorem length_ledBy (system : System) (providerId : Uuid) :
    (system.ledBy providerId).length = system.load providerId := by
  rw [System.ledBy, length_map, System.load, countP_eq_length_filter]

theorem ledBy_nodup (unique : system.ids.Nodup) (providerId : Uuid) :
    (system.ledBy providerId).Nodup :=
  unique.sublist (filter_sublist.map _)

theorem mem_ledBy (unique : system.ids.Nodup) {jobId : Uuid} : jobId ∈ system.ledBy providerId ↔
      ∃ record, system.record? jobId = some record ∧ record.HeldBy providerId := by
  simp only [System.ledBy, mem_map, mem_filter, occupies_iff]
  constructor
  · rintro ⟨record, ⟨mem, held⟩, rfl⟩
    exact ⟨record, record?_of_mem unique mem, held⟩
  · rintro ⟨record, found, held⟩
    exact ⟨record, ⟨mem_of_find?_eq_some found, held⟩, id_of_record? found⟩

theorem Operation.perform_lead {jobId : Uuid} {record : JobRecord}
    (ok : operation.perform settings system = .ok moved)
    (found : moved.record? jobId = some record) (held : record.HeldBy providerId) :
    (∃ source, system.record? jobId = some source ∧ source.HeldBy providerId) ∨
    ∃ candidates now source, operation = .assignProviders jobId candidates now ∧
      system.record? jobId = some source ∧
      candidates.ids.head? = some providerId := by
  obtain ⟨follows, created⟩ := Operation.perform_projects ok
  cases before : system.record? jobId with
  | none =>
    rcases created jobId before with ⟨absent, _⟩ | ⟨_, _, here, creation, _⟩
    · cases absent.symm.trans found
    · cases here.symm.trans found
      have inFlight := held.1
      rw [creation.fresh.2] at inFlight
      cases inFlight
  | some source =>
    obtain ⟨_, after, _, _, _, code, _⟩ := follows jobId source before
    cases after.symm.trans found
    rcases JobEvent.perform_lead code held with led | ⟨candidates, now, assigned, first⟩
    · exact .inl ⟨source, rfl, led⟩
    · have id := id_of_record? before
      cases operation with
      | assignProviders =>
        simp only [Operation.event] at assigned
        split_ifs at assigned with same
        cases assigned
        rw [same, id]
        exact .inr ⟨candidates, now, source, rfl, rfl, first⟩
      | submitJob | createCanaryJob | elsewhere => cases assigned
      | heartbeat | reportStatus | submitResult | reapExpiredLeases
      | drainUnreachableProviders | reapExpiredAttempts =>
        simp only [Operation.event] at assigned
        split_ifs at assigned

structure LeadsWithinCap (fleet : Fleet) (system : System) : Prop where
  unique : system.ids.Nodup
  capped : ∀ providerId, system.load providerId ≤ (fleet.capabilities providerId).maxConcurrent

theorem Operation.perform_load (leads : LeadsWithinCap fleet system)
    (permitted : Matched settings fleet system operation)
    (ok : operation.perform settings system = .ok moved)
    (unique : moved.ids.Nodup) (providerId : Uuid) :
    moved.load providerId ≤ (fleet.capabilities providerId).maxConcurrent := by
  rw [← length_ledBy]
  by_cases given : ∃ jobId candidates now source,
      operation = .assignProviders jobId candidates now ∧
      system.record? jobId = some source ∧
      candidates.ids.head? = some providerId
  · obtain ⟨jobId, _, _, source, rfl, found, first⟩ := given
    obtain ⟨_, _, _, _, _, listed⟩ := permitted source found
    have free := load_lt_of_mem_matchCandidates (listed ▸ mem_of_head? first)
    -- the one new job is the one that was assigned
    have covered : moved.ledBy providerId ⊆ jobId :: system.ledBy providerId := by
      intro _ mem
      obtain ⟨_, after, held⟩ := (mem_ledBy unique).mp mem
      rcases Operation.perform_lead ok after held with before | ⟨_, _, _, same, _⟩
      · exact mem_cons_of_mem _ ((mem_ledBy leads.unique).mpr before)
      · cases same
        exact mem_cons_self
    have longer := ((ledBy_nodup unique providerId).subperm covered).length_le
    rw [length_cons, length_ledBy system] at longer
    omega
  · have covered : moved.ledBy providerId ⊆ system.ledBy providerId := by
      intro jobId mem
      obtain ⟨_, after, held⟩ := (mem_ledBy unique).mp mem
      rcases Operation.perform_lead ok after held with before | ⟨candidates, now, source, rest⟩
      · exact (mem_ledBy leads.unique).mpr before
      · exact absurd ⟨jobId, candidates, now, source, rest⟩ given
    have shorter := ((ledBy_nodup unique providerId).subperm covered).length_le
    rw [length_ledBy system] at shorter
    exact shorter.trans (leads.capped providerId)

theorem Operation.step_load (leads : LeadsWithinCap fleet system)
    (permitted : Matched settings fleet system operation) :
    LeadsWithinCap fleet (operation.step settings system) := by
  have unique := @Operation.step_ids_nodup settings system operation leads.unique
  refine ⟨unique, ?_⟩
  rcases transact_cases (operation.perform settings) system with ok | unchanged
  · exact Operation.perform_load leads permitted ok unique
  · rw [Operation.step, unchanged]
    exact leads.capped

theorem reaches_leadsWithinCap (reached : Reaches (Operation.step settings)
      (Matched settings fleet) System.Initial system) :
    LeadsWithinCap fleet system := by
  refine reached.invariant ?_ ?_
  · rintro _ ⟨empty, _⟩
    refine ⟨?_, fun providerId => ?_⟩
    · rw [System.ids, empty]
      exact nodup_nil
    · rw [System.load, empty]
      exact Nat.zero_le _
  · intro _ _ leads permitted
    exact Operation.step_load leads permitted

end

def JobRecord.openFor (record : JobRecord) (providerId : Uuid) : Nat :=
  record.openAttempts.countP fun attempt => attempt.providerId == providerId

/-- The provider's open attempts at jobs in flight. -/
def System.unfinished (system : System) (providerId : Uuid) : Nat :=
  ((system.records.filter fun record => record.job.status.inFlight).map
    fun record => record.openFor providerId).sum

/-- Those among them at jobs assigned to somebody else. -/
def System.seconded (system : System) (providerId : Uuid) : Nat :=
  ((system.records.filter fun record => record.job.status.inFlight &&
    record.job.assignedProviderId != some providerId).map
      fun record => record.openFor providerId).sum

section

variable {settings : Settings} {fleet : Fleet} {system : System}
  {record : JobRecord} {providerId : Uuid}

theorem unfinished_le_load (once : ∀ record ∈ system.records,
      record.job.status.inFlight = true → record.openFor providerId ≤ 1) :
    system.unfinished providerId ≤ system.load providerId + system.seconded providerId := by
  unfold System.unfinished System.load System.seconded JobRecord.occupies
  generalize system.records = records at once
  induction records with
  | nil => exact Nat.le_refl 0
  | cons record _ ih =>
    have tail := ih fun other mem =>
      once other (mem_cons_of_mem _ mem)
    have head := once record mem_cons_self
    cases inFlight : record.job.status.inFlight with
    | false => simpa [countP_cons, inFlight] using tail
    | true =>
      by_cases leads : record.job.assignedProviderId = some providerId
      · simp only [filter_cons, countP_cons, inFlight, leads,
          beq_self_eq_true, bne_self_eq_false, Bool.and_true,
          Bool.and_false, if_true, Bool.false_eq_true, if_false,
          map_cons, sum_cons]
        have one := head inFlight
        omega
      · have other : (record.job.assignedProviderId !=
            some providerId) = true := bne_iff_ne.mpr leads
        have follows : (record.job.assignedProviderId ==
            some providerId) = false := beq_eq_false_iff_ne.mpr leads
        simp only [filter_cons, countP_cons, inFlight, other, Bool.and_true, if_true, map_cons,
          sum_cons]
        omega

theorem reaches_openFor_le_one (reached : Reaches (Operation.step settings)
      (Matched settings fleet) System.Initial system)
    (providerId : Uuid) :
    ∀ record ∈ system.records, record.job.status.inFlight = true →
      record.openFor providerId ≤ 1 := by
  intro record mem inFlight
  have found := record?_of_mem (reaches_leadsWithinCap reached).unique mem
  have free : Reaches (Operation.step settings)
      (Permits settings fun _ _ => True) System.Initial system :=
    reached.mono fun _ _ _ _ _ _ => trivial
  have ballots : Ballots record := reaches_everyJob
    (fun _ _ creation => creation.ballots) (ballots_preserved settings)
    free found
  have coherent := @reaches_everyJob settings (fun _ _ => True)
    (fun record _ => record.job.redundancy = 1 → Coherent record) _ _ _
    (fun _ _ creation _ => coherent_created creation)
    (coherent_preserved settings) free found
  unfold JobRecord.openFor
  by_cases single : record.job.redundancy = 1
  · obtain ⟨_, holding⟩ := (coherent single).inFlight inFlight
    rw [holding.only]
    exact countP_le_length
  · have distinct : (record.openAttempts.map JobAttempt.providerId).Nodup :=
      (ballots.distinct single).sublist (filter_sublist.map _)
    rw [nodup_iff_count_le_one] at distinct
    have once := distinct providerId
    rw [count_eq_countP, countP_map] at once
    exact once

end

/-- In every reachable state a provider leads no more jobs in flight than its
cap. -/
theorem unfinished_within_cap {settings : Settings} {fleet : Fleet} {system : System}
    (reached : Reaches (Operation.step settings)
      (Matched settings fleet) System.Initial system) (providerId : Uuid) :
    system.load providerId ≤ (fleet.capabilities providerId).maxConcurrent ∧
      system.unfinished providerId ≤ (fleet.capabilities providerId).maxConcurrent +
          system.seconded providerId ∧
      (system.seconded providerId = 0 → system.unfinished providerId ≤
        (fleet.capabilities providerId).maxConcurrent) := by
  have capped := (reaches_leadsWithinCap reached).capped providerId
  have covered := unfinished_le_load (reaches_openFor_le_one reached providerId)
  refine ⟨capped, ?_, ?_⟩
  · omega
  · intro _
    omega

theorem matched_of_listed {settings : Settings} {fleet : Fleet} {system : System} {jobId : Uuid}
    {candidates : Candidates} {now : Int} (policy : MatchPolicy) (time : Int)
    (listed : (system.record? jobId).all (fun record =>
      candidates.ids == matchCandidates settings fleet policy []
      system.books.providers record.job time system) = true) :
    Matched settings fleet system (.assignProviders jobId candidates now) := by
  intro _ found
  rw [found] at listed
  exact ⟨policy, [], system.books.providers, time, .refl _,
    by simpa using listed⟩

def pairFleet : Fleet where
  capabilities providerId :=
    { enabled := true, degraded := false, cpuCores := 8
      memoryMb := 16384, gpuModel := none, gpuVramMb := 0
      teeAttested := false
      maxConcurrent := if providerId = 5 then 10 else 1
      maxConcurrentPos := by split_ifs <;> decide }
  dataTier _ := .publicTier
  minProviderStake := 100
  highValueMinReputation := 70

def pairStart : System where
  records := []
  books :=
    { ledger := [5, 6].map fun providerId =>
        ⟨transferPostings .protocol none .stake (some providerId)
          (100 * 10 ^ 8), .stakeDeposit, none, none⟩
      providers := [⟨5, 90, none⟩, ⟨6, 80, none⟩]
      events := [], disputes := [], bandwidth := [] }

def pairRun (isHighValue : Bool) (redundancy : Nat) : List Operation :=
  [.submitJob (minuteRequest isHighValue redundancy) 7 1 none true none 0,
    .assignProviders 1 (.of [5, 6]) 0,
    .submitJob (minuteRequest isHighValue redundancy) 7 2 none true none 0,
    .assignProviders 2 (.of [5, 6]) 0]

theorem pairStart_initial : pairStart.Initial := by
  refine ⟨rfl, ?_⟩
  intro _ mem
  simp only [pairStart, map_cons, map_nil, mem_cons, not_mem_nil, or_false] at mem
  rcases mem with rfl | rfl <;> rfl

theorem unfinished_within_cap_pair : (Serial.run (Operation.step .default)
        (pairRun false 1) pairStart).unfinished 5 =
      2 ∧
    (Serial.run (Operation.step .default)
        (pairRun false 1) pairStart).unfinished 5 ≤
      (pairFleet.capabilities 5).maxConcurrent := by
  refine ⟨by decide +kernel, (@unfinished_within_cap .default pairFleet _ ?_
    5).2.2 (by decide +kernel)⟩
  apply Reaches.run (.start pairStart_initial)
  exact ⟨trivial, matched_of_listed .reputation 0 (by decide +kernel),
    trivial, matched_of_listed .reputation 0 (by decide +kernel), trivial⟩

theorem second_panel_exceeds_cap : Reaches (Operation.step .default) (Matched .default pairFleet)
      System.Initial (Serial.run (Operation.step .default)
        (pairRun true 2) pairStart) ∧
    (Serial.run (Operation.step .default)
        (pairRun true 2) pairStart).unfinished 6 =
      2 ∧
    (pairFleet.capabilities 6).maxConcurrent = 1 := by
  refine ⟨?_, by decide +kernel, rfl⟩
  apply Reaches.run (.start pairStart_initial)
  exact ⟨trivial, matched_of_listed .reputation 0 (by decide +kernel),
    trivial, matched_of_listed .reputation 0 (by decide +kernel), trivial⟩

end Gridix
