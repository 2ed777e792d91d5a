import Mathlib.Algebra.BigOperators.Group.List.Basic
import Mathlib.Algebra.GroupWithZero.Nat
import Mathlib.Algebra.Ring.Int.Defs
import Mathlib.Data.Int.Basic
import Mathlib.Data.List.Nodup

/-!
# Rows with distinct keys

A table is a list of rows whose keys are distinct.
-/

namespace KeyedRows

open List

variable {Row Key : Type} [DecidableEq Key] (key : Row → Key)

def update (wanted : Key) (change : Row → Row) (rows : List Row) : List Row :=
  rows.map fun row => if key row = wanted then change row else row

def remove (wanted : Key) (rows : List Row) : List Row := rows.filter fun row => key row ≠ wanted

variable {key} {rows : List Row} {row : Row}

theorem mem_update_of_ne {wanted : Key} {change : Row → Row}
    (mem : row ∈ rows) (other : key row ≠ wanted) :
    row ∈ update key wanted change rows :=
  mem_map.mpr ⟨row, mem, if_neg other⟩

theorem mem_update_self {change : Row → Row} (mem : row ∈ rows) :
    change row ∈ update key (key row) change rows :=
  mem_map.mpr ⟨row, mem, if_pos rfl⟩

theorem update_of_forall_ne {wanted : Key} {change : Row → Row}
    (absent : ∀ row ∈ rows, key row ≠ wanted) :
    update key wanted change rows = rows := by
  conv_rhs => rw [← map_id rows]
  apply map_congr_left
  intro row mem
  simp [absent row mem]

theorem remove_of_forall_ne {wanted : Key} (absent : ∀ row ∈ rows, key row ≠ wanted) :
    remove key wanted rows = rows := by
  rw [remove, filter_eq_self]
  intro row mem
  simpa using absent row mem

theorem nodup_remove (wanted : Key) (distinct : (rows.map key).Nodup) :
    ((remove key wanted rows).map key).Nodup :=
  distinct.sublist (filter_sublist.map _)

theorem mem_remove {wanted : Key} :
    row ∈ remove key wanted rows ↔ row ∈ rows ∧ key row ≠ wanted := by
  simp [remove]

theorem keys_update {wanted : Key} {change : Row → Row} (same : ∀ row, key (change row) = key row) :
    (update key wanted change rows).map key = rows.map key := by
  simp only [update, map_map]
  apply map_congr_left
  intro row _
  simp only [Function.comp_apply]
  split_ifs
  · exact same row
  · rfl

omit [DecidableEq Key] in
theorem exists_split (distinct : (rows.map key).Nodup) (mem : row ∈ rows) :
    ∃ before after, rows = before ++ row :: after ∧ (∀ other ∈ before, key other ≠ key row) ∧
      ∀ other ∈ after, key other ≠ key row := by
  obtain ⟨before, after, rfl⟩ := append_of_mem mem
  rw [map_append, map_cons, nodup_middle, nodup_cons] at distinct
  refine ⟨before, after, rfl, ?_, ?_⟩
  · intro other early same
    exact distinct.1 (mem_append_left _ (mem_map.mpr ⟨other, early, same⟩))
  · intro other late same
    exact distinct.1 (mem_append_right _ (mem_map.mpr ⟨other, late, same⟩))

theorem sum_update (value : Row → Int) {change : Row → Row}
    (distinct : (rows.map key).Nodup) (mem : row ∈ rows) :
    ((update key (key row) change rows).map value).sum =
      (rows.map value).sum + (value (change row) - value row) := by
  obtain ⟨before, after, rfl, early, late⟩ := exists_split distinct mem
  have split : update key (key row) change (before ++ row :: after) =
      before ++ change row :: after := by
    rw [update, map_append, map_cons, if_pos rfl]
    exact congrArg₂ (· ++ change row :: ·) (update_of_forall_ne early) (update_of_forall_ne late)
  rw [split]
  simp only [map_append, map_cons, sum_append, sum_cons]
  omega

theorem sum_remove (value : Row → Int) (distinct : (rows.map key).Nodup) (mem : row ∈ rows) :
    ((remove key (key row) rows).map value).sum = (rows.map value).sum - value row := by
  obtain ⟨before, after, rfl, early, late⟩ := exists_split distinct mem
  have split : remove key (key row) (before ++ row :: after) = before ++ after := by
    rw [remove, filter_append, filter_cons_of_neg (by simp)]
    exact congrArg₂ (· ++ ·) (remove_of_forall_ne early) (remove_of_forall_ne late)
  rw [split]
  simp only [map_append, map_cons, sum_append, sum_cons]
  omega

omit [DecidableEq Key] in
theorem sum_filter (test : Row → Bool) (value : Row → Nat) (rows : List Row) :
    ((rows.filter test).map value).sum =
      (rows.map fun row => if test row then value row else 0).sum := by
  induction rows with
  | nil => rfl
  | cons row _ ih =>
    cases passed : test row with
    | true | false => simp [passed, ih]

theorem sum_single {Sum : Type} [AddCommMonoid Sum] (value : Row → Sum)
    (distinct : (rows.map key).Nodup) (mem : row ∈ rows) :
    (rows.map fun other =>
      if key other = key row then value other else 0).sum = value row := by
  obtain ⟨before, after, rfl, early, late⟩ := exists_split distinct mem
  have nothing : ∀ others : List Row, (∀ other ∈ others, key other ≠ key row) →
      (others.map fun other =>
        if key other = key row then value other else 0).sum = 0 := by
    intro _ ne
    apply sum_eq_zero
    intro _ here
    obtain ⟨other, mem, rfl⟩ := mem_map.mp here
    exact if_neg (ne other mem)
  rw [map_append, map_cons, sum_append, sum_cons,
    nothing before early, nothing after late, if_pos rfl, zero_add, add_zero]

omit [DecidableEq Key] in
/-- Rows of distinct keys, each matched by a row of the same key that counts
at least as much, count no more together. -/
theorem sum_le_of_matched {Other : Type} {otherKey : Other → Key} {others : List Other}
    {value : Row → Nat} {otherValue : Other → Nat} (distinct : (rows.map key).Nodup)
    (matched : ∀ row ∈ rows, value row ≠ 0 → ∃ other ∈ others,
      otherKey other = key row ∧ value row ≤ otherValue other) :
    (rows.map value).sum ≤ (others.map otherValue).sum := by
  induction rows generalizing others with
  | nil => simp
  | cons row _ ih =>
    rw [map_cons, nodup_cons] at distinct
    by_cases counts : value row = 0
    · rw [map_cons, sum_cons, counts, Nat.zero_add]
      exact ih distinct.2 fun other mem =>
        matched other (mem_cons_of_mem _ mem)
    · obtain ⟨_, mem, sameKey, _⟩ := matched row mem_cons_self counts
      obtain ⟨before, after, rfl⟩ := append_of_mem mem
      -- the matched row is used up; the others have other keys
      have rest := @ih (before ++ after) distinct.2 (by
          intro other later counted
          obtain ⟨found, foundMember, foundKey, foundBound⟩ :=
            matched other (mem_cons_of_mem _ later) counted
          refine ⟨found, ?_, foundKey, foundBound⟩
          rcases mem_append.mp foundMember with early | late
          · exact mem_append_left _ early
          · rcases mem_cons.mp late with rfl | late
            · exact (distinct.1 (mem_map.mpr ⟨other, later, foundKey.symm.trans sameKey⟩)).elim
            · exact mem_append_right _ late)
      simp only [map_cons, sum_cons, map_append, sum_append] at rest ⊢
      omega

theorem sum_indicator {keys : List Key} (distinct : keys.Nodup) {listed : Key}
    (mem : listed ∈ keys) (value : Int) :
    (keys.map fun wanted => if listed = wanted then value else 0).sum = value := by
  simp only [eq_comm (a := listed)]
  exact sum_single (fun _ => value) ((map_id keys).symm ▸ distinct) mem

/-- Grouping by the key loses nothing: the sums of the groups add up to the
sum over all rows. -/
theorem sum_fibres (value : Row → Int) {keys : List Key}
    (distinct : keys.Nodup) (covered : ∀ row ∈ rows, key row ∈ keys) :
    (keys.map fun wanted =>
      ((rows.filter fun row => key row = wanted).map value).sum).sum = (rows.map value).sum := by
  induction rows with
  | nil => simp
  | cons row rest ih =>
    have own := sum_indicator distinct (covered row mem_cons_self) (value row)
    have others := ih fun other mem =>
      covered other (mem_cons_of_mem _ mem)
    have split : ∀ wanted, (((row :: rest).filter fun other => key other = wanted).map value).sum =
        (if key row = wanted then value row else 0) +
          ((rest.filter fun other => key other = wanted).map value).sum := by
      intro wanted
      by_cases same : key row = wanted <;> simp [same]
    simp only [split]
    rw [sum_map_add, own, others, map_cons, sum_cons]

end KeyedRows
