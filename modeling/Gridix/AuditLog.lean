import Mathlib.Data.List.Induction
import Mathlib.Data.List.Sort

/-!
# The audit log

Each entry carries the hash of the entry before it.  The check recomputes the
chain from the first sequence number on, but nothing says where the log ends.
-/

namespace Gridix.AuditLog

open List

structure AuditLogEntry (Data Hash : Type) where
  seq : Int
  event : String
  data : Data
  prevHash : Hash
  entryHash : Hash
  deriving DecidableEq

structure Payload (Data Hash : Type) where
  seq : Int
  event : String
  data : Data
  prevHash : Hash

variable {Data Hash : Type}

def AuditLogEntry.payload (entry : AuditLogEntry Data Hash) : Payload Data Hash :=
  ⟨entry.seq, entry.event, entry.data, entry.prevHash⟩

variable (genesis : Hash) (sha256 : Payload Data Hash → Hash)

/-- `ORDER BY seq DESC LIMIT 1`, as the rows are gone through. -/
def latest (found : Option (AuditLogEntry Data Hash)) (entry : AuditLogEntry Data Hash) :
    Option (AuditLogEntry Data Hash) :=
  match found with
  | none => some entry
  | some other => if other.seq < entry.seq then some entry else some other

def appendAudit (log : List (AuditLogEntry Data Hash)) (event : String) (data : Data) :
    List (AuditLogEntry Data Hash) :=
  let last := log.foldl latest none
  let seq := (last.map fun entry => entry.seq + 1).getD 1
  let prevHash := (last.map AuditLogEntry.entryHash).getD genesis
  log ++ [⟨seq, event, data, prevHash, sha256 ⟨seq, event, data, prevHash⟩⟩]

/-- The log that the calls write. -/
def written (calls : List (String × Data)) : List (AuditLogEntry Data Hash) :=
  calls.foldl (fun log call => appendAudit genesis sha256 log call.1 call.2) []

/-- An altered row whose hash is not that of its new contents. -/
def Altered (before after : AuditLogEntry Data Hash) : Prop :=
  after ≠ before ∧ (after.entryHash = before.entryHash ∨ after.entryHash ≠ sha256 after.payload)

section

variable {sha256} {entry : AuditLogEntry Data Hash} {log : List (AuditLogEntry Data Hash)}

theorem foldl_latest (sorted : log.Pairwise fun left right => left.seq < right.seq) :
    log.foldl latest none = log.getLast? := by
  induction log using List.reverseRecOn with
  | nil => rfl
  | append_singleton log entry ih =>
    obtain ⟨before, _, ordered⟩ := pairwise_append.mp sorted
    rw [foldl_concat, getLast?_concat, ih before]
    cases found : log.getLast? with
    | none => rfl
    | some last => exact if_pos (ordered last (mem_of_getLast? found) entry (mem_singleton_self _))

theorem Altered.broken (injective : Function.Injective sha256) {after : AuditLogEntry Data Hash}
    (sealed : sha256 entry.payload = entry.entryHash) (altered : Altered sha256 entry after) :
    sha256 after.payload ≠ after.entryHash := by
  obtain ⟨differs, same | forged⟩ := altered
  · intro passes
    have equal := injective (passes.trans (same.trans sealed.symm))
    cases after
    cases equal
    cases same
    exact differs rfl
  · exact fun passes => forged passes.symm

theorem unaltered (injective : Function.Injective sha256)
    {tampered : List (AuditLogEntry Data Hash)}
    (rows : Forall₂ (fun before after => after = before ∨ Altered sha256 before after) log tampered)
    (original : ∀ entry ∈ log, sha256 entry.payload = entry.entryHash)
    (sealed : ∀ entry ∈ tampered, sha256 entry.payload = entry.entryHash) : tampered = log := by
  induction rows with
  | nil => rfl
  | @cons before after log tampered row _ ih =>
    have first : after = before := by
      refine row.resolve_right fun altered => ?_
      exact altered.broken injective (original before mem_cons_self) (sealed after mem_cons_self)
    rw [first, ih (fun entry mem => original entry (mem_cons_of_mem _ mem))
      (fun entry mem => sealed entry (mem_cons_of_mem _ mem))]

end

variable [DecidableEq Hash]

def verifyFrom (prev : Hash) (expectedSeq : Int) : List (AuditLogEntry Data Hash) → Bool
  | [] => true
  | entry :: rest =>
    if entry.seq ≠ expectedSeq ∨ entry.prevHash ≠ prev then false
    else if sha256 entry.payload ≠ entry.entryHash then false
    else verifyFrom entry.entryHash (expectedSeq + 1) rest

def verifyAuditChain (log : List (AuditLogEntry Data Hash)) : Bool :=
  verifyFrom sha256 genesis 1 (log.insertionSort fun left right => left.seq ≤ right.seq)

section

variable {genesis sha256} {prev : Hash} {expected : Int} {entry : AuditLogEntry Data Hash}
  {log kept rest : List (AuditLogEntry Data Hash)}

theorem verifyFrom_cons : verifyFrom sha256 prev expected (entry :: rest) = true ↔
    (entry.seq = expected ∧ entry.prevHash = prev ∧ sha256 entry.payload = entry.entryHash) ∧
      verifyFrom sha256 entry.entryHash (expected + 1) rest = true := by
  rw [verifyFrom]
  split_ifs
  · simp only [false_iff]
    tauto
  · simp only [false_iff]
    tauto
  · tauto

theorem verifyFrom_append : verifyFrom sha256 prev expected (log ++ rest) = true ↔
    verifyFrom sha256 prev expected log = true ∧
      verifyFrom sha256 ((log.getLast?.map AuditLogEntry.entryHash).getD prev)
        ((log.getLast?.map fun entry => entry.seq + 1).getD expected) rest = true := by
  induction log generalizing prev expected with
  | nil => simp [verifyFrom]
  | cons _ log ih =>
    rw [cons_append, verifyFrom_cons, verifyFrom_cons, ih, ← and_assoc]
    refine and_congr_right fun checked => ?_
    cases log with
    | nil =>
      rw [← checked.1.1]
      rfl
    | cons _ _ => rfl

theorem sealed_of_verifyFrom (verified : verifyFrom sha256 prev expected log = true)
    (mem : entry ∈ log) : sha256 entry.payload = entry.entryHash ∧ expected ≤ entry.seq := by
  induction log generalizing prev expected with
  | nil => cases mem
  | cons _ _ ih =>
    obtain ⟨⟨numbered, _, sealed⟩, later⟩ := verifyFrom_cons.mp verified
    rcases mem_cons.mp mem with rfl | mem
    · exact ⟨sealed, numbered.ge⟩
    · obtain ⟨sealed, _⟩ := ih later mem
      exact ⟨sealed, by omega⟩

theorem sorted_of_verifyFrom (verified : verifyFrom sha256 prev expected log = true) :
    log.Pairwise fun left right => left.seq < right.seq := by
  induction log generalizing prev expected with
  | nil => exact .nil
  | cons _ _ ih =>
    obtain ⟨⟨_, _, _⟩, later⟩ := verifyFrom_cons.mp verified
    refine pairwise_cons.mpr ⟨?_, ih later⟩
    intro _ mem
    have above := (sealed_of_verifyFrom later mem).2
    omega

theorem verifyFrom_sublist (verified : verifyFrom sha256 prev expected log = true)
    (remains : kept.Sublist log) : verifyFrom sha256 prev expected kept = true ↔ kept <+: log := by
  constructor
  · intro passes
    induction remains generalizing prev expected with
    | slnil => exact prefix_rfl
    | @cons kept log first remains ih =>
      cases kept with
      | nil => exact nil_prefix
      | cons _ _ =>
        -- the first row left would have to carry the deleted row's number
        have above := (sealed_of_verifyFrom (verifyFrom_cons.mp verified).2
          (remains.subset mem_cons_self)).2
        have numbered := (verifyFrom_cons.mp passes).1.1
        omega
    | cons_cons first _ ih =>
      have onward := ih (verifyFrom_cons.mp verified).2 (verifyFrom_cons.mp passes).2
      exact prefix_cons_inj first |>.mpr onward
  · rintro ⟨_, rfl⟩
    exact (verifyFrom_append.mp verified).1

theorem verifyFrom_written (calls : List (String × Data)) :
    verifyFrom sha256 genesis 1 (written genesis sha256 calls) = true := by
  induction calls using List.reverseRecOn with
  | nil => rfl
  | append_singleton calls call ih =>
    rw [written, foldl_append]
    change verifyFrom sha256 genesis 1
      (appendAudit genesis sha256 (written genesis sha256 calls) call.1 call.2) = true
    unfold appendAudit
    rw [foldl_latest (sorted_of_verifyFrom ih)]
    exact verifyFrom_append.mpr ⟨ih, verifyFrom_cons.mpr ⟨⟨rfl, rfl, rfl⟩, rfl⟩⟩

theorem written_of_verifyFrom (verified : verifyFrom sha256 genesis 1 log = true) :
    log = written genesis sha256 (log.map fun entry => (entry.event, entry.data)) := by
  induction log using List.reverseRecOn with
  | nil => rfl
  | append_singleton log entry ih =>
    obtain ⟨before, last⟩ := verifyFrom_append.mp verified
    obtain ⟨⟨numbered, linked, sealed⟩, _⟩ := verifyFrom_cons.mp last
    rw [map_append, written, foldl_append]
    change _ = appendAudit genesis sha256 (written genesis sha256 _) entry.event entry.data
    rw [← ih before, appendAudit, foldl_latest (sorted_of_verifyFrom before)]
    simp only [← numbered, ← linked]
    rw [← AuditLogEntry.payload, sealed]

end

/-- The check accepts exactly the rows that `append_audit` would write for some
events, in whatever order the table has them. -/
theorem verified_iff_written (log : List (AuditLogEntry Data Hash)) :
    verifyAuditChain genesis sha256 log = true ↔
      ∃ calls, log.Perm (written genesis sha256 calls) := by
  have sorting := perm_insertionSort (fun left right : AuditLogEntry Data Hash =>
    left.seq ≤ right.seq) log
  constructor
  · intro verified
    exact ⟨_, written_of_verifyFrom verified ▸ sorting.symm⟩
  · rintro ⟨calls, same⟩
    have verified : verifyFrom sha256 genesis 1 (written genesis sha256 calls) = true :=
      verifyFrom_written calls
    have ordered := sorted_of_verifyFrom verified
    have distinct : ((written genesis sha256 calls).map AuditLogEntry.seq).Nodup :=
      pairwise_map.mpr (ordered.imp ne_of_lt)
    rw [verifyAuditChain, (sorting.trans same).eq_of_pairwise ?_ (pairwise_insertionSort _ log)
      (ordered.imp le_of_lt), verified]
    intro left right here there below above
    exact inj_on_of_nodup_map distinct ((sorting.trans same).mem_iff.mp here) there
      (le_antisymm below above)

/-- Rows altered without a new hash break the chain, wherever they are sorted
to.  Deleted rows break it exactly if a row behind one of them is left. -/
theorem tampering_detected (injective : Function.Injective sha256) (calls : List (String × Data))
    (tampered : List (AuditLogEntry Data Hash)) :
    (Forall₂ (fun before after => after = before ∨ Altered sha256 before after)
        (written genesis sha256 calls) tampered →
      tampered ≠ written genesis sha256 calls → verifyAuditChain genesis sha256 tampered = false) ∧
      (tampered.Sublist (written genesis sha256 calls) →
        (verifyAuditChain genesis sha256 tampered = false ↔
          ¬ tampered <+: written genesis sha256 calls)) := by
  have verified : verifyFrom sha256 genesis 1 (written genesis sha256 calls) = true :=
    verifyFrom_written calls
  constructor
  · intro rows differs
    rw [Bool.eq_false_iff]
    intro passes
    apply differs
    refine unaltered injective rows (fun entry mem => (sealed_of_verifyFrom verified mem).1) ?_
    intro _ mem
    exact (sealed_of_verifyFrom passes ((perm_insertionSort _ _).mem_iff.mpr mem)).1
  · intro remains
    have sorted : tampered.Pairwise fun left right => left.seq ≤ right.seq :=
      ((sorted_of_verifyFrom verified).sublist remains).imp le_of_lt
    rw [Bool.eq_false_iff, verifyAuditChain, sorted.insertionSort_eq]
    exact not_congr (verifyFrom_sublist verified remains)

/-- A hash that keeps everything it is taken over. -/
inductive Seal where
  | genesis
  | over (seq : Int) (event : String) (data : Nat) (prevHash : Seal)
  deriving DecidableEq

def Seal.of (payload : Payload Nat Seal) : Seal :=
  .over payload.seq payload.event payload.data payload.prevHash

theorem Seal.of_injective : Function.Injective Seal.of := by
  rintro ⟨⟩ ⟨⟩ same
  cases same
  rfl

def settlements : List (AuditLogEntry Nat Seal) :=
  written .genesis .of [("settle", 10), ("settle", 20)]

theorem tampering_detected_first : verifyAuditChain Seal.genesis .of (settlements.drop 1) = false :=
  (tampering_detected Seal.genesis .of Seal.of_injective [("settle", 10), ("settle", 20)]
    (settlements.drop 1)).2 (drop_sublist 1 _) |>.mpr (by decide +kernel)

theorem lost_tail_unnoticed : settlements.length = 2 ∧
    verifyAuditChain Seal.genesis .of (settlements.take 1) = true := by
  decide +kernel

end Gridix.AuditLog
