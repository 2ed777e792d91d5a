import Gridix.Jobs.Coherence
import Mathlib.Data.List.Sort

/-!
# Matching providers to jobs

Two policies list the eligible providers of a job, best first.
-/

namespace Gridix

structure Capabilities where
  enabled : Bool
  degraded : Bool
  cpuCores : Int
  memoryMb : Int
  gpuModel : Option String
  gpuVramMb : Int
  teeAttested : Bool
  maxConcurrent : Nat
  maxConcurrentPos : 1 ≤ maxConcurrent

/-- What the matcher knows of the providers. -/
structure Fleet where
  capabilities : Uuid → Capabilities
  dataTier : Uuid → DataTier
  minProviderStake : Nat
  highValueMinReputation : ℚ

inductive MatchPolicy where
  | capability
  | reputation
  deriving DecidableEq, Repr

def JobRecord.occupies (record : JobRecord) (providerId : Uuid) : Bool :=
  record.job.status.inFlight && record.job.assignedProviderId == some providerId

def System.load (system : System) (providerId : Uuid) : Nat :=
  system.records.countP fun record => record.occupies providerId

def eligible (settings : Settings) (fleet : Fleet) (system : System)
    (job : Job) (now : Int) (provider : Provider) : Bool :=
  let declared := fleet.capabilities provider.id
  let spec := job.resourceSpec
  declared.enabled && !declared.degraded && decide (spec.cpuCores ≤ declared.cpuCores) &&
    decide (spec.memoryMb ≤ declared.memoryMb) &&
    decide (system.load provider.id < declared.maxConcurrent) &&
    (match provider.lastSeen with
      | none => true
      | some seen =>
        decide (now - settings.connectionTimeoutSeconds * 1000000 ≤ seen)) &&
    (!spec.gpu || (declared.gpuModel.isSome && decide (spec.gpuVramMb ≤ declared.gpuVramMb))) &&
    (fleet.dataTier job.id != .confidentialTee || declared.teeAttested)

def hasArtifact (artifacts : List (Uuid × String)) (job : Job) (providerId : Uuid) : Bool :=
  match job.inputRef with
  | none => false
  | some ref => ref != "" && artifacts.contains (providerId, ref)

structure MatchRow where
  providerId : Uuid
  hasArtifact : Bool
  load : Nat
  reputation : ℚ

def MatchRow.precedes (policy : MatchPolicy) (left right : MatchRow) : Bool :=
  if left.hasArtifact != right.hasArtifact then left.hasArtifact
  else
    match policy with
    | .capability =>
      decide (left.load < right.load) || (left.load == right.load &&
        decide (right.reputation ≤ left.reputation))
    | .reputation =>
      decide (right.reputation < left.reputation) || (left.reputation == right.reputation &&
          decide (left.load ≤ right.load))

def meetsFloor (fleet : Fleet) (policy : MatchPolicy) (job : Job) (provider : Provider) : Bool :=
  match policy with
  | .capability => true
  | .reputation => !job.isHighValue || decide (fleet.highValueMinReputation ≤ provider.reputation)

def staked (fleet : Fleet) (policy : MatchPolicy) (books : Books) (providerId : Uuid) : Bool :=
  match policy with
  | .capability => true
  | .reputation => decide ((fleet.minProviderStake : Int) * 10 ^ 8 ≤
      accountBalance books.ledger .stake (some providerId))

/-- `candidates`, over the provider rows in the order they are read. -/
def matchCandidates (settings : Settings) (fleet : Fleet)
    (policy : MatchPolicy) (artifacts : List (Uuid × String))
    (rows : List Provider) (job : Job) (now : Int) (system : System) :
    List Uuid :=
  let chosen := rows.filter fun provider =>
    eligible settings fleet system job now provider && meetsFloor fleet policy job provider
  let keyed := chosen.map fun provider =>
    { providerId := provider.id
      hasArtifact := hasArtifact artifacts job provider.id
      load := system.load provider.id
      reputation := provider.reputation : MatchRow }
  let ordered := keyed.insertionSort fun left right =>
    left.precedes policy right = true
  (ordered.map MatchRow.providerId).filter (staked fleet policy system.books)

theorem load_lt_of_mem_matchCandidates {settings : Settings} {fleet : Fleet} {policy : MatchPolicy}
    {artifacts : List (Uuid × String)} {rows : List Provider} {job : Job} {now : Int}
    {system : System} {providerId : Uuid}
    (listed : providerId ∈ matchCandidates settings fleet policy artifacts rows job now system) :
    system.load providerId < (fleet.capabilities providerId).maxConcurrent := by
  obtain ⟨_, sorted, rfl⟩ := List.mem_map.mp (List.mem_filter.mp listed).1
  rw [List.mem_insertionSort] at sorted
  obtain ⟨_, chosen, rfl⟩ := List.mem_map.mp sorted
  have test := (List.mem_filter.mp chosen).2
  simp only [eligible, Bool.and_eq_true, decide_eq_true_eq] at test
  exact test.1.1.1.1.2

/-- The candidates of an assignment are what an active policy lists for the
job. -/
def Matched (settings : Settings) (fleet : Fleet) (system : System) : Operation → Prop
  | .assignProviders jobId candidates _ =>
    ∀ record, system.record? jobId = some record → ∃ policy artifacts rows now,
        rows.Perm system.books.providers ∧
        candidates.ids = matchCandidates settings fleet policy artifacts rows record.job now system
  | _ => True

end Gridix
