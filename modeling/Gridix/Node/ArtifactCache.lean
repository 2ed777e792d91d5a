import Gridix.Base.KeyedRows
import Mathlib.Algebra.Order.Group.Nat
import Mathlib.Data.List.Induction

/-!
# The artifact cache

The agent keeps pulled inputs on disk and in its memory the order in which
they were last used.  A process caps what it tracks.  A new process tracks
nothing, so it never evicts what an earlier one left in the directory.
-/

namespace Gridix.Node

open List

abbrev Bytes := List UInt8

/-- `files` is the cache directory, and `sizes` the ordered dictionary with
the least recently used digest first. -/
structure ArtifactCache (Digest : Type) where
  maxBytes : Nat
  sizes : List (Digest × Nat)
  files : List (Digest × Bytes)

variable {Digest : Type} [DecidableEq Digest]

namespace ArtifactCache

def opened (maxBytes : Nat) (files : List (Digest × Bytes)) : ArtifactCache Digest :=
  ⟨maxBytes, [], files⟩

def tracked (cache : ArtifactCache Digest) : List Digest := cache.sizes.map Prod.fst

def total (sizes : List (Digest × Nat)) : Nat := (sizes.map Prod.snd).sum

def read (files : List (Digest × Bytes)) (digest : Digest) : Option Bytes :=
  (files.find? fun file => file.1 = digest).map Prod.snd

def has (cache : ArtifactCache Digest) (digest : Digest) : Bool :=
  digest ∈ cache.tracked && (read cache.files digest).isSome

def moveToEnd (sizes : List (Digest × Nat)) (digest : Digest) : List (Digest × Nat) :=
  KeyedRows.remove Prod.fst digest sizes ++ sizes.filter fun entry => entry.1 = digest

def get (cache : ArtifactCache Digest) (digest : Digest) : Option Bytes × ArtifactCache Digest :=
  if cache.has digest then
    (read cache.files digest, { cache with sizes := moveToEnd cache.sizes digest })
  else
    (none, { cache with sizes := KeyedRows.remove Prod.fst digest cache.sizes })

def unlink (files : List (Digest × Bytes)) (digest : Digest) : List (Digest × Bytes) :=
  KeyedRows.remove Prod.fst digest files

def evict (maxBytes : Nat) : List (Digest × Nat) → List (Digest × Bytes) → ArtifactCache Digest
  | [], files => ⟨maxBytes, [], files⟩
  | entry :: sizes, files =>
    if maxBytes < total (entry :: sizes) then evict maxBytes sizes (unlink files entry.1)
    else ⟨maxBytes, entry :: sizes, files⟩

def recorded (cache : ArtifactCache Digest) (digest : Digest) (data : Bytes) :
    List (Digest × Nat) :=
  if digest ∈ cache.tracked then moveToEnd cache.sizes digest
  else cache.sizes ++ [(digest, data.length)]

def put (cache : ArtifactCache Digest) (digest : Digest) (data : Bytes) : ArtifactCache Digest :=
  if digest ∈ cache.tracked then { cache with sizes := cache.recorded digest data }
  else evict cache.maxBytes (cache.recorded digest data)
    (unlink cache.files digest ++ [(digest, data)])

inductive Call (Digest : Type) where
  | get (digest : Digest)
  | put (digest : Digest) (data : Bytes)

namespace Call

def digest : Call Digest → Digest
  | .get digest => digest
  | .put digest _ => digest

def step (cache : ArtifactCache Digest) : Call Digest → ArtifactCache Digest
  | .get digest => (cache.get digest).2
  | .put digest data => cache.put digest data

/-- The digests, the least recently used first. -/
def lastUsed (calls : List (Call Digest)) : List Digest :=
  calls.foldl (fun order call => order.filter (· ≠ call.digest) ++ [call.digest]) []

end Call

def run (cache : ArtifactCache Digest) (calls : List (Call Digest)) : ArtifactCache Digest :=
  calls.foldl Call.step cache

abbrev after (maxBytes : Nat) (calls : List (Call Digest)) : ArtifactCache Digest :=
  (opened maxBytes []).run calls

/-- `data` was put when the digest was last tracked anew. -/
inductive Inserted (maxBytes : Nat) : List (Call Digest) → Digest → Bytes → Prop where
  | put {calls : List (Call Digest)} {digest : Digest} {data : Bytes}
      (fresh : digest ∉ (after maxBytes calls).tracked)
      (kept : digest ∈ (after maxBytes (calls ++ [.put digest data])).tracked) :
      Inserted maxBytes (calls ++ [.put digest data]) digest data
  | later {calls : List (Call Digest)} {digest : Digest} {data : Bytes}
      (inserted : Inserted maxBytes calls digest data) (call : Call Digest)
      (kept : digest ∈ (after maxBytes (calls ++ [call])).tracked) :
      Inserted maxBytes (calls ++ [call]) digest data

structure Sound (cache : ArtifactCache Digest) : Prop where
  tracked : cache.tracked.Nodup
  names : (cache.files.map Prod.fst).Nodup
  stored : ∀ entry ∈ cache.sizes, ∃ data, (entry.1, data) ∈ cache.files ∧ data.length = entry.2
  capped : total cache.sizes ≤ cache.maxBytes

variable {cache : ArtifactCache Digest} {digest : Digest} {data : Bytes}
  {sizes : List (Digest × Nat)} {maxBytes : Nat} {calls : List (Call Digest)}

theorem moveToEnd_perm (sizes : List (Digest × Nat)) (digest : Digest) :
    moveToEnd sizes digest ~ sizes := by
  have split := filter_append_perm (fun entry : Digest × Nat => entry.1 ≠ digest) sizes
  simpa [moveToEnd, KeyedRows.remove] using split

omit [DecidableEq Digest] in
theorem Sound.reordered (sound : cache.Sound) (perm : sizes ~ cache.sizes) :
    ({ cache with sizes := sizes } : ArtifactCache Digest).Sound where
  tracked := (perm.map Prod.fst).nodup_iff.mpr sound.tracked
  names := sound.names
  stored := fun entry mem => sound.stored entry (perm.mem_iff.mp mem)
  capped := (perm.map Prod.snd).sum_eq.trans_le sound.capped

theorem evict_spec (maxBytes : Nat) (sizes : List (Digest × Nat)) (files : List (Digest × Bytes)) :
    ∃ evicted kept, sizes = evicted ++ kept ∧ evict maxBytes sizes files =
        ⟨maxBytes, kept, files.filter fun file => file.1 ∉ evicted.map Prod.fst⟩ ∧
      total kept ≤ maxBytes ∧ ∀ shorter rest, sizes = shorter ++ rest →
        shorter.length < evicted.length → maxBytes < total rest := by
  induction sizes generalizing files with
  | nil => exact ⟨[], [], rfl, by simp [evict], Nat.zero_le _, by simp⟩
  | cons entry sizes ih =>
    rw [evict]
    split_ifs with exceeds
    · obtain ⟨evicted, kept, rfl, same, fits, shortest⟩ := ih (unlink files entry.1)
      refine ⟨entry :: evicted, kept, rfl, ?_, fits, ?_⟩
      · rw [same, unlink, KeyedRows.remove]
        simp [-mem_map, Bool.and_comm]
      · intro shorter rest split fewer
        cases shorter with
        | nil => rwa [← nil_append rest, ← split]
        | cons _ shorter =>
          exact shortest shorter rest (cons.inj split).2 (Nat.lt_of_succ_lt_succ fewer)
    · exact ⟨[], entry :: sizes, rfl, by simp, not_lt.mp exceeds, by simp⟩

/-- What a call does: it moves a digest it knows to the end, or a `put` takes
a new one in. -/
theorem Sound.step_cases (sound : cache.Sound) (call : Call Digest) :
    (call.step cache = { cache with sizes := moveToEnd cache.sizes call.digest } ∧
      ∀ data, call = .put call.digest data → call.digest ∈ cache.tracked) ∨
    ∃ data, call = .put call.digest data ∧ call.digest ∉ cache.tracked ∧ ∃ evicted kept,
      cache.sizes ++ [(call.digest, data.length)] = evicted ++ kept ∧
      call.step cache = ⟨cache.maxBytes, kept,
        (unlink cache.files call.digest ++ [(call.digest, data)]).filter
          fun file => file.1 ∉ evicted.map Prod.fst⟩ ∧
      total kept ≤ cache.maxBytes := by
  cases call with
  | get digest =>
    refine .inl ⟨?_, fun data same => by cases same⟩
    change (cache.get digest).2 = { cache with sizes := moveToEnd cache.sizes digest }
    unfold get
    split_ifs with hit
    · rfl
    · have untracked (entry : Digest × Nat) (mem : entry ∈ cache.sizes) : entry.1 ≠ digest := by
        rintro rfl
        obtain ⟨_, stored, _⟩ := sound.stored entry mem
        refine hit (Bool.and_eq_true_iff.mpr ⟨decide_eq_true (mem_map_of_mem mem), ?_⟩)
        rw [read, Option.isSome_map, find?_isSome]
        exact ⟨_, stored, decide_eq_true rfl⟩
      have none : cache.sizes.filter (fun entry => entry.1 = digest) = [] := by
        simpa [filter_eq_nil_iff] using untracked
      rw [moveToEnd, none, append_nil]
  | put digest data =>
    by_cases known : digest ∈ cache.tracked
    · refine .inl ⟨?_, fun _ _ => known⟩
      change cache.put digest data = _
      rw [put, if_pos known, recorded, if_pos known]
      rfl
    · obtain ⟨evicted, kept, split, same, fits, _⟩ := evict_spec cache.maxBytes
        (cache.recorded digest data) (unlink cache.files digest ++ [(digest, data)])
      refine .inr ⟨data, rfl, known, evicted, kept, ?_, ?_, fits⟩
      · rw [← split, recorded, if_neg known]
        rfl
      · change cache.put digest data = _
        rw [put, if_neg known]
        exact same

theorem Sound.step (sound : cache.Sound) (call : Call Digest) : (call.step cache).Sound := by
  rcases sound.step_cases call with ⟨same, _⟩ | ⟨data, _, fresh, evicted, kept, split, same, fits⟩
  · rw [same]
    exact sound.reordered (moveToEnd_perm _ _)
  · have distinct : ((evicted ++ kept).map Prod.fst).Nodup := by
      rw [← split, map_append]
      exact concat_eq_append ▸ sound.tracked.concat fresh
    rw [map_append] at distinct
    rw [same]
    refine ⟨(nodup_append.mp distinct).2.1, ?_, ?_, fits⟩
    · refine Nodup.sublist (filter_sublist.map _) ?_
      rw [map_append]
      have names : ((unlink cache.files call.digest).map Prod.fst).Nodup :=
        KeyedRows.nodup_remove _ sound.names
      exact concat_eq_append ▸ names.concat (by simp [unlink, KeyedRows.mem_remove])
    · intro entry mem
      have apart : entry.1 ∉ evicted.map Prod.fst := fun old =>
        (nodup_append.mp distinct).2.2 entry.1 old entry.1 (mem_map_of_mem mem) rfl
      have recorded : entry ∈ cache.sizes ++ [(call.digest, data.length)] :=
        split ▸ mem_append_right _ mem
      rcases mem_append.mp recorded with old | new
      · obtain ⟨bytes, stored, length⟩ := sound.stored entry old
        have other : entry.1 ≠ call.digest := fun same => fresh (same ▸ mem_map_of_mem old)
        refine ⟨bytes, mem_filter.mpr ⟨mem_append_left _ ?_, decide_eq_true apart⟩, length⟩
        exact KeyedRows.mem_remove.mpr ⟨stored, other⟩
      · cases mem_singleton.mp new
        exact ⟨data, mem_filter.mpr ⟨mem_append_right _ mem_cons_self, decide_eq_true apart⟩, rfl⟩

/-- A file that is not tracked after a call was not tracked before it, and the
call did not put it. -/
theorem Sound.untracked (sound : cache.Sound) {call : Call Digest} {file : Digest × Bytes}
    (left : file ∈ (call.step cache).files) (untracked : file.1 ∉ (call.step cache).tracked) :
    file ∈ cache.files ∧ file.1 ∉ cache.tracked ∧ ∀ data, call ≠ .put file.1 data := by
  rcases sound.step_cases call with ⟨same, known⟩ | ⟨data, _, _, _, _, split, same, _⟩
  · rw [same] at left untracked
    have unknown : file.1 ∉ cache.tracked :=
      fun mem => untracked (((moveToEnd_perm _ _).map Prod.fst).mem_iff.mpr mem)
    refine ⟨left, unknown, ?_⟩
    rintro data rfl
    exact unknown (known data rfl)
  · rw [same] at left untracked
    obtain ⟨present, stays⟩ := mem_filter.mp left
    have unrecorded : file.1 ∉ (cache.sizes ++ [(call.digest, data.length)]).map Prod.fst := by
      rw [split, map_append, mem_append]
      exact fun either => either.elim (by simpa using stays) untracked
    rw [map_append, mem_append, not_or] at unrecorded
    have other : file.1 ≠ call.digest := fun same => unrecorded.2 (mem_singleton.mpr same)
    refine ⟨?_, unrecorded.1, ?_⟩
    · rcases mem_append.mp present with old | new
      · exact (KeyedRows.mem_remove.mp old).1
      · exact absurd (congrArg Prod.fst (mem_singleton.mp new)) other
    · rintro _ rfl
      exact other rfl

theorem Sound.written (sound : cache.Sound) {call : Call Digest} {file : Digest × Bytes}
    (mem : file ∈ (call.step cache).files) :
    file ∈ cache.files ∨ call = .put file.1 file.2 ∧ file.1 ∉ cache.tracked := by
  rcases sound.step_cases call with ⟨same, _⟩ | ⟨_, put, fresh, _, _, _, same, _⟩
  · rw [same] at mem
    exact .inl mem
  · rw [same] at mem
    rcases mem_append.mp (mem_of_mem_filter mem) with old | new
    · exact .inl (KeyedRows.mem_remove.mp old).1
    · rw [mem_singleton.mp new]
      exact .inr ⟨put, fresh⟩

theorem Sound.ordered (sound : cache.Sound) (call : Call Digest) {order : List Digest}
    (ordered : cache.tracked <+ order) :
    (call.step cache).tracked <+ order.filter (· ≠ call.digest) ++ [call.digest] := by
  have others : cache.tracked.filter (· ≠ call.digest) =
      (KeyedRows.remove Prod.fst call.digest cache.sizes).map Prod.fst :=
    filter_map
  rcases sound.step_cases call with ⟨same, _⟩ | ⟨_, _, fresh, evicted, kept, split, same, _⟩
  · have once : (cache.sizes.filter fun entry => entry.1 = call.digest).map Prod.fst <+
        [call.digest] := by
      have called : cache.tracked.filter (· = call.digest) =
          (cache.sizes.filter fun entry => entry.1 = call.digest).map Prod.fst :=
        filter_map
      rw [← called, filter_eq]
      exact replicate_sublist_replicate _ |>.mpr (nodup_iff_count_le_one.mp sound.tracked _)
    rw [same, ArtifactCache.tracked, moveToEnd, map_append, ← others]
    exact (ordered.filter _).append once
  · have all : cache.tracked.filter (· ≠ call.digest) = cache.tracked :=
      filter_eq_self.mpr fun digest mem => decide_eq_true fun same => fresh (same ▸ mem)
    have recorded : kept.map Prod.fst <+ cache.tracked ++ [call.digest] := by
      have kept : kept.map Prod.fst <+ (evicted ++ kept).map Prod.fst :=
        (sublist_append_right _ _).map _
      rwa [← split, map_append] at kept
    rw [same]
    refine recorded.trans (Sublist.append ?_ (Sublist.refl _))
    rw [← all]
    exact ordered.filter _

structure Upkeep (maxBytes : Nat) (found : List (Digest × Bytes))
    (calls : List (Call Digest)) (cache : ArtifactCache Digest) : Prop where
  sound : cache.Sound
  cap : cache.maxBytes = maxBytes
  ordered : cache.tracked <+ Call.lastUsed calls
  untracked : ∀ file ∈ cache.files, file.1 ∉ cache.tracked →
    file ∈ found ∧ ∀ data, .put file.1 data ∉ calls

theorem run_concat (cache : ArtifactCache Digest) (calls : List (Call Digest))
    (call : Call Digest) : cache.run (calls ++ [call]) = call.step (cache.run calls) :=
  foldl_concat ..

theorem upkeep {found : List (Digest × Bytes)} (names : (found.map Prod.fst).Nodup)
    (calls : List (Call Digest)) :
    Upkeep maxBytes found calls ((opened maxBytes found).run calls) := by
  induction calls using List.reverseRecOn with
  | nil =>
    exact ⟨⟨nodup_nil, names, fun _ mem => absurd mem not_mem_nil, Nat.zero_le _⟩, rfl,
      Sublist.refl _, fun _ mem _ => ⟨mem, fun _ => not_mem_nil⟩⟩
  | append_singleton _ call ih =>
    rw [run_concat]
    refine ⟨ih.sound.step call, ?_, ?_, ?_⟩
    · rcases ih.sound.step_cases call with ⟨same, _⟩ | ⟨_, _, _, _, _, _, same, _⟩ <;>
        exact same ▸ ih.cap
    · rw [Call.lastUsed, foldl_concat]
      exact ih.sound.ordered call ih.ordered
    · intro file mem untracked
      obtain ⟨before, unknown, other⟩ := ih.sound.untracked mem untracked
      obtain ⟨left, unput⟩ := ih.untracked file before unknown
      refine ⟨left, fun data put => ?_⟩
      rcases mem_append.mp put with earlier | last
      · exact unput data earlier
      · exact other data (mem_singleton.mp last).symm

theorem upkeep_fresh (calls : List (Call Digest)) :
    Upkeep maxBytes [] calls (after maxBytes calls) :=
  @upkeep _ _ _ [] nodup_nil calls

omit [DecidableEq Digest] in
theorem Sound.directory (sound : cache.Sound) (all : ∀ file ∈ cache.files, file.1 ∈ cache.tracked) :
    (cache.files.map fun file => file.2.length).sum = total cache.sizes := by
  have same : cache.files.map (fun file => (file.1, file.2.length)) ~ cache.sizes := by
    refine (perm_ext_iff_of_nodup ?_ sound.tracked.of_map).mpr ?_
    · refine Nodup.of_map Prod.fst ?_
      rw [map_map]
      exact sound.names
    · rintro ⟨_, _⟩
      constructor
      · intro mem
        obtain ⟨⟨_, _⟩, present, same⟩ := mem_map.mp mem
        cases same
        obtain ⟨entry, noted, rfl⟩ := mem_map.mp (all _ present)
        obtain ⟨_, stored, length⟩ := sound.stored entry noted
        cases inj_on_of_nodup_map sound.names present stored rfl
        rwa [length]
      · intro noted
        obtain ⟨_, stored, rfl⟩ := sound.stored _ noted
        exact mem_map.mpr ⟨_, stored, rfl⟩
  have summed := (same.map Prod.snd).sum_eq
  rwa [map_map] at summed

theorem read_eq_some (sound : cache.Sound) :
    read cache.files digest = some data ↔ (digest, data) ∈ cache.files := by
  constructor
  · intro found
    obtain ⟨_, first, rfl⟩ := Option.map_eq_some_iff.mp found
    have same := find?_some first
    rw [decide_eq_true_eq] at same
    rw [← same]
    exact mem_of_find?_eq_some first
  · intro mem
    obtain ⟨file, first⟩ : ∃ file, cache.files.find? (fun file => file.1 = digest) = some file :=
      Option.isSome_iff_exists.mp (find?_isSome.mpr ⟨_, mem, decide_eq_true rfl⟩)
    have same := find?_some first
    rw [decide_eq_true_eq] at same
    rw [read, first, inj_on_of_nodup_map sound.names (mem_of_find?_eq_some first) mem same]
    rfl

theorem all_tracked (calls : List (Call Digest)) {file : Digest × Bytes}
    (mem : file ∈ (after maxBytes calls).files) :
    file.1 ∈ (after maxBytes calls).tracked := by
  by_contra untracked
  exact not_mem_nil ((upkeep_fresh calls).untracked file mem untracked).1

theorem inserted_iff : Inserted maxBytes calls digest data ↔
    (digest, data) ∈ (after maxBytes calls).files := by
  have sound (calls : List (Call Digest)) : (after maxBytes calls).Sound :=
    (upkeep_fresh calls).sound
  -- a digest that is tracked now has a file, either from before or from this call
  have written {calls : List (Call Digest)} {call : Call Digest} {digest : Digest}
      (kept : digest ∈ (after maxBytes (calls ++ [call])).tracked) :
      ∃ data, (digest, data) ∈ (after maxBytes (calls ++ [call])).files ∧
        ((digest, data) ∈ (after maxBytes calls).files ∨ call = .put digest data ∧
            digest ∉ (after maxBytes calls).tracked) := by
    obtain ⟨entry, noted, rfl⟩ := mem_map.mp kept
    obtain ⟨data, stored, _⟩ := (sound _).stored entry noted
    refine ⟨data, stored, (sound calls).written ?_⟩
    rwa [← run_concat]
  constructor
  · intro inserted
    induction inserted with
    | put fresh kept =>
      obtain ⟨_, stored, old | ⟨same, _⟩⟩ := written kept
      · exact absurd (all_tracked _ old) fresh
      · cases same
        exact stored
    | later _ _ kept ih =>
      obtain ⟨_, stored, old | ⟨_, fresh⟩⟩ := written kept
      · cases inj_on_of_nodup_map (sound _).names ih old rfl
        exact stored
      · exact absurd (all_tracked _ ih) fresh
  · induction calls using List.reverseRecOn with
    | nil => exact fun mem => absurd mem not_mem_nil
    | append_singleton calls call ih =>
      intro mem
      have kept := all_tracked _ mem
      rw [after, run_concat] at mem
      rcases (sound calls).written mem with old | ⟨rfl, fresh⟩
      · exact .later (ih old) call kept
      · exact .put fresh kept

/-- However a fresh cache is used, it holds no more than it may, and a `put`
evicts the shortest beginning of the order of last use that lets the rest fit.
-/
theorem cache_is_lru (maxBytes : Nat) (calls : List (Call Digest)) :
    let cache := after maxBytes calls
    (cache.files.map fun file => file.2.length).sum = total cache.sizes ∧
      total cache.sizes ≤ maxBytes ∧
      (∀ digest, digest ∈ cache.files.map Prod.fst ↔ digest ∈ cache.tracked) ∧
      cache.tracked <+ Call.lastUsed calls ∧
      (∀ digest data, (cache.get digest).1 = some data ↔ Inserted maxBytes calls digest data) ∧
      ∀ digest data, ∃ evicted,
        cache.recorded digest data = evicted ++ (cache.put digest data).sizes ∧
        ∀ shorter rest, cache.recorded digest data = shorter ++ rest →
          shorter.length < evicted.length → maxBytes < total rest := by
  intro cache
  have upkeep : Upkeep maxBytes [] calls cache := upkeep_fresh calls
  have all : ∀ file ∈ cache.files, file.1 ∈ cache.tracked := fun _ mem => all_tracked calls mem
  refine ⟨upkeep.sound.directory all, upkeep.sound.capped.trans_eq upkeep.cap, ?_,
    upkeep.ordered, ?_, ?_⟩
  · intro _
    constructor
    · intro mem
      obtain ⟨file, present, rfl⟩ := mem_map.mp mem
      exact all file present
    · intro mem
      obtain ⟨entry, noted, rfl⟩ := mem_map.mp mem
      obtain ⟨_, stored, _⟩ := upkeep.sound.stored entry noted
      exact mem_map_of_mem stored
  · intro _ _
    rw [inserted_iff, ← read_eq_some upkeep.sound, get]
    split_ifs with hit
    · rfl
    · refine iff_of_false (fun none => by cases none) fun found => hit ?_
      have present := all _ ((read_eq_some upkeep.sound).mp found)
      rw [has, found]
      exact Bool.and_eq_true_iff.mpr ⟨decide_eq_true present, rfl⟩
  · intro digest data
    rw [put]
    split_ifs
    · exact ⟨[], rfl, fun _ _ _ fewer => absurd fewer (Nat.not_lt_zero _)⟩
    · obtain ⟨evicted, _, split, same, _, shortest⟩ := evict_spec cache.maxBytes
        (cache.recorded digest data) (unlink cache.files digest ++ [(digest, data)])
      rw [same]
      exact ⟨evicted, split, upkeep.cap ▸ shortest⟩

/-- The directory behind a sequence of processes. -/
def directoryAfter (maxBytes : Nat) (processes : List (List (Call Digest))) :
    List (Digest × Bytes) :=
  processes.foldl (fun files calls => ((opened maxBytes files).run calls).files) []

theorem directoryAfter_names (maxBytes : Nat) (processes : List (List (Call Digest))) :
    ((directoryAfter maxBytes processes).map Prod.fst).Nodup := by
  induction processes using List.reverseRecOn with
  | nil => exact nodup_nil
  | append_singleton _ calls ih =>
    rw [directoryAfter, foldl_concat]
    exact (upkeep ih calls).sound.names

/-- The directory stays capped if the process has put again whatever the
earlier ones left. -/
theorem directory_capped {maxBytes : Nat} {earlier : List (List (Call Digest))}
    {calls : List (Call Digest)}
    (again : ∀ file ∈ directoryAfter maxBytes earlier, ∃ data, .put file.1 data ∈ calls) :
    ((directoryAfter maxBytes (earlier ++ [calls])).map fun file => file.2.length).sum ≤
      maxBytes := by
  have upkeep := @upkeep _ _ maxBytes _ (directoryAfter_names maxBytes earlier) calls
  rw [directoryAfter, foldl_concat]
  refine (upkeep.sound.directory ?_).trans_le (upkeep.sound.capped.trans_eq upkeep.cap)
  intro file mem
  by_contra untracked
  obtain ⟨left, unput⟩ := upkeep.untracked file mem untracked
  obtain ⟨data, put⟩ := again file left
  exact unput data put

theorem directory_capped_again : ((directoryAfter 3 [[.put 1 [7, 7]], [.put 1 [7, 7]]]).map
    fun file : Nat × Bytes => file.2.length).sum ≤ 3 := by
  refine @directory_capped Nat _ 3 [[.put 1 [7, 7]]] [.put 1 [7, 7]] ?_
  intro _ mem
  cases mem_singleton.mp mem
  exact ⟨_, mem_cons_self⟩

theorem restart_exceeds_cap : ((directoryAfter 3 [[.put 1 [7, 7]], [.put 2 [8, 8]]]).map
    fun file : Nat × Bytes => file.2.length).sum = 4 := by
  decide

end ArtifactCache

end Gridix.Node
