import Gridix.Accounts.Decimals

/-!
# The ledger listing

A developer's legs come newest first, and legs of one instant by their group.
Each leg carries a time of its own, so the legs of groups that were written at
once can alternate, and nothing orders the legs of one group that share their
time.
-/

namespace Gridix.Decimals

open List

structure LedgerRow extends LedgerEntry where
  id : Uuid
  createdAt : Nat

structure JobOwner where
  id : Uuid
  developerId : Uuid

section

variable (rows : List LedgerRow) (jobs : List JobOwner) (developer : Uuid)

def ownGroups : List Uuid :=
  (rows.filter fun row => row.accountRef = some developer).map fun row => row.entryGroup

def jobGroups : List Uuid := (rows.filter fun row => jobs.any fun job =>
    row.jobId = some job.id ∧ job.developerId = developer).map fun row => row.entryGroup

/-- The developer's own groups and those of their jobs. -/
def selected : List LedgerRow :=
  rows.filter fun row => row.entryGroup ∈ ownGroups rows developer ++ jobGroups rows jobs developer

end

/-- `ORDER BY created_at DESC, entry_group`. -/
def Precedes (left right : LedgerRow) : Prop := right.createdAt < left.createdAt ∨
    left.createdAt = right.createdAt ∧ left.entryGroup ≤ right.entryGroup

instance : DecidableRel Precedes := fun _ _ => inferInstanceAs (Decidable (_ ∨ _))

/-- The order in which the database may return the rows: it is free to place
rows that the clause does not tell apart. -/
structure Listed (rows order : List LedgerRow) : Prop where
  all : order ~ rows
  sorted : order.Pairwise Precedes

/-- What a reader collects page by page. -/
def readPages (offset : Nat) : List (List LedgerRow × Nat) → List LedgerRow
  | [] => []
  | (order, limit) :: later => (order.drop offset).take limit ++ readPages (offset + limit) later

/-- No leg stands between two legs of another group. -/
def Whole (order : List LedgerRow) : Prop := ∀ first between last, [first, between, last] <+ order →
    first.entryGroup = last.entryGroup → between.entryGroup = first.entryGroup

/-- The clause places no leg between two legs of another group: none is stamped
between the two, or at the time of one of them with a group on the inner side. -/
def Separate (rows : List LedgerRow) : Prop :=
  ∀ first ∈ rows, ∀ between ∈ rows, ∀ last ∈ rows, first.entryGroup = last.entryGroup →
    Precedes first between → Precedes between last → between.entryGroup = first.entryGroup

/-- No two legs share their time and their group. -/
def Told (rows : List LedgerRow) : Prop :=
  ∀ left ∈ rows, ∀ right ∈ rows, left.createdAt = right.createdAt →
    left.entryGroup = right.entryGroup → left = right

variable {rows order : List LedgerRow}

theorem Precedes.falls {left right : LedgerRow} (before : Precedes left right) :
    right.createdAt ≤ left.createdAt :=
  before.elim le_of_lt fun tied => tied.1.ge

theorem Precedes.rises {left right : LedgerRow} (before : Precedes left right)
    (tied : right.createdAt = left.createdAt) : left.entryGroup ≤ right.entryGroup :=
  before.elim (fun later => absurd tied later.ne) And.right

theorem Precedes.trans {left middle right : LedgerRow} (before : Precedes left middle)
    (after : Precedes middle right) : Precedes left right := by
  rcases before with later | ⟨tied, least⟩
  · exact .inl (after.falls.trans_lt later)
  · exact after.imp (fun later => tied ▸ later)
      fun ⟨level, most⟩ => ⟨tied.trans level, least.trans most⟩

theorem Precedes.total (left right : LedgerRow) : Precedes left right ∨ Precedes right left := by
  rcases lt_trichotomy left.createdAt right.createdAt with less | tied | more
  · exact .inr (.inl less)
  · exact (le_total left.entryGroup right.entryGroup).imp (fun le => .inr ⟨tied, le⟩)
      fun le => .inr ⟨tied.symm, le⟩
  · exact .inl (.inl more)

theorem Precedes.antisymm {left right : LedgerRow} (before : Precedes left right)
    (after : Precedes right left) :
    left.createdAt = right.createdAt ∧ left.entryGroup = right.entryGroup := by
  have tied := le_antisymm after.falls before.falls
  exact ⟨tied, le_antisymm (before.rises tied.symm) (after.rises tied)⟩

/-- A leg that the clause puts in front of another stands there. -/
theorem Listed.mem_behind (sorted : order.Pairwise Precedes) {left right : LedgerRow}
    (here : left ∈ order) (there : right ∈ order) (before : ¬Precedes right left) :
    ∃ front behind, order = front ++ left :: behind ∧ right ∈ behind := by
  obtain ⟨front, behind, rfl⟩ := append_of_mem here
  refine ⟨front, behind, rfl, ?_⟩
  rcases mem_append.mp there with early | late
  · exact absurd ((pairwise_append.mp sorted).2.2 right early left mem_cons_self) before
  · refine (mem_cons.mp late).resolve_left ?_
    rintro rfl
    exact before (.inr ⟨rfl, Nat.le_refl _⟩)

theorem Listed.whole_iff (listed : Listed rows order) : Whole order ↔ Separate rows := by
  have mem (row : LedgerRow) : row ∈ order ↔ row ∈ rows := listed.all.mem_iff
  constructor
  · intro whole first inFirst between inBetween last inLast same before after
    by_contra other
    have strict : ¬Precedes between first ∧ ¬Precedes last between :=
      ⟨fun back => other (before.antisymm back).2.symm,
        fun back => other ((after.antisymm back).2.trans same.symm)⟩
    obtain ⟨front, behind, rfl, later⟩ := Listed.mem_behind listed.sorted ((mem first).mpr inFirst)
      ((mem between).mpr inBetween) strict.1
    have sorted := (pairwise_cons.mp (pairwise_append.mp listed.sorted).2.1).2
    have inBehind : last ∈ behind := by
      rcases mem_append.mp ((mem last).mpr inLast) with early | late
      · exact absurd ((pairwise_append.mp listed.sorted).2.2 last early between
          (mem_cons_of_mem _ later)) strict.2
      · refine (mem_cons.mp late).resolve_left ?_
        rintro rfl
        exact strict.1 after
    obtain ⟨skipped, rest, rfl, latest⟩ := Listed.mem_behind sorted later inBehind strict.2
    refine other (whole first between last ?_ same)
    have inRest : [last] <+ rest := singleton_sublist.mpr latest
    have later := (inRest.cons_cons between).trans (sublist_append_right skipped _)
    exact (later.cons_cons first).trans (sublist_append_right front _)
  · intro separate first between last triple same
    have inRows (row : LedgerRow) (inTriple : row ∈ [first, between, last]) : row ∈ rows :=
      (mem row).mp (triple.subset inTriple)
    have sorted := listed.sorted.sublist triple
    exact separate first (inRows _ mem_cons_self) between (inRows _ (by simp)) last
      (inRows _ (by simp)) same ((pairwise_cons.mp sorted).1 between mem_cons_self)
      ((pairwise_cons.mp (pairwise_cons.mp sorted).2).1 last mem_cons_self)

theorem Listed.exists (rows : List LedgerRow) : ∃ order, Listed rows order :=
  ⟨rows.mergeSort fun left right => Precedes left right, mergeSort_perm _ _,
    (pairwise_mergeSort (fun _ _ _ before after =>
        decide_eq_true ((of_decide_eq_true before).trans (of_decide_eq_true after)))
      (fun left right => by simpa using Precedes.total left right) rows).imp of_decide_eq_true⟩

theorem Listed.unique {others : List LedgerRow} (listed : Listed rows order)
    (again : Listed rows others) (told : Told rows) : order = others := by
  refine Perm.eq_of_pairwise ?_ listed.sorted again.sorted (listed.all.trans again.all.symm)
  intro _ _ inOrder inOthers before after
  obtain ⟨tied, grouped⟩ := before.antisymm after
  exact told _ (listed.all.mem_iff.mp inOrder) _ (again.all.mem_iff.mp inOthers) tied grouped

/-- Two legs that the clause does not tell apart may change places. -/
theorem Listed.swap (listed : Listed rows order) (keyed : rows.Nodup) {left right : LedgerRow}
    (here : left ∈ rows) (there : right ∈ rows) (stamped : left.createdAt = right.createdAt)
    (grouped : left.entryGroup = right.entryGroup) :
    ∃ exchange : LedgerRow → LedgerRow, exchange left = right ∧
      Listed rows (order.map exchange) := by
  classical
  have inside (row : LedgerRow) (mem : row ∈ rows) : Equiv.swap left right row ∈ rows := by
    rw [Equiv.swap_apply_def]
    split_ifs <;> assumption
  have key (row : LedgerRow) : (Equiv.swap left right row).createdAt = row.createdAt ∧
      (Equiv.swap left right row).entryGroup = row.entryGroup := by
    rw [Equiv.swap_apply_def]
    split_ifs with first second
    · exact first ▸ ⟨stamped.symm, grouped.symm⟩
    · exact second ▸ ⟨stamped, grouped⟩
    · exact ⟨rfl, rfl⟩
  refine ⟨Equiv.swap left right, Equiv.swap_apply_left .., ?_, ?_⟩
  · refine (listed.all.map _).trans ((perm_ext_iff_of_nodup
      (keyed.map (Equiv.swap left right).injective) keyed).mpr fun row => ⟨?_, fun mem => ?_⟩)
    · intro mem
      obtain ⟨other, inRows, rfl⟩ := mem_map.mp mem
      exact inside other inRows
    · exact mem_map.mpr ⟨_, inside row mem, by simp⟩
  · refine pairwise_map.mpr (listed.sorted.imp fun before => ?_)
    unfold Precedes at *
    rw [(key _).1, (key _).1, (key _).2, (key _).2]
    exact before

theorem readPages_append (pages later : List (List LedgerRow × Nat)) (offset : Nat) :
    readPages offset (pages ++ later) =
      readPages offset pages ++ readPages (offset + (pages.map Prod.snd).sum) later := by
  induction pages generalizing offset with
  | nil => rfl
  | cons page _ ih =>
    rw [cons_append, readPages, readPages, ih, map_cons, sum_cons, append_assoc, Nat.add_assoc]

theorem readPages_eq {pages : List (List LedgerRow × Nat)} (same : ∀ page ∈ pages, page.1 = order)
    (offset : Nat) :
    readPages offset pages = (order.drop offset).take (pages.map Prod.snd).sum := by
  induction pages generalizing offset with
  | nil => simp [readPages]
  | cons page _ ih =>
    rw [readPages, ih fun other mem => same other (mem_cons_of_mem _ mem),
      same page mem_cons_self, ← drop_drop, map_cons, sum_cons, take_add]

/-- The pages are those that the route gives, from orders that the database may
choose anew for each. -/
def Served (rows : List LedgerRow) (pages : List (List LedgerRow × Nat)) : Prop :=
  ∀ page ∈ pages, Listed rows page.1 ∧ 1 ≤ page.2 ∧ page.2 ≤ 500

/-- One page from an order with two legs exchanged shows one of them again. -/
theorem Listed.page_repeats (keyed : rows.Nodup) {left right : LedgerRow} (here : left ∈ rows)
    (there : right ∈ rows) (stamped : left.createdAt = right.createdAt)
    (grouped : left.entryGroup = right.entryGroup) (other : left ≠ right) :
    ∃ pages, Served rows pages ∧ rows.length ≤ (pages.map Prod.snd).sum ∧
      ¬readPages 0 pages ~ rows := by
  obtain ⟨order, listed⟩ := Listed.exists rows
  obtain ⟨exchange, moved, exchanged⟩ := listed.swap keyed here there stamped grouped
  obtain ⟨front, behind, rfl⟩ := append_of_mem (listed.all.mem_iff.mpr here)
  let same (count : Nat) : List (List LedgerRow × Nat) :=
    replicate count (front ++ left :: behind, 1)
  refine ⟨same front.length ++ ((front ++ left :: behind).map exchange, 1) :: same behind.length,
    ?_, ?_, ?_⟩
  · intro page mem
    rcases mem_append.mp mem with early | late
    · rw [eq_of_mem_replicate early]
      exact ⟨listed, le_rfl, Nat.le_add_left 1 499⟩
    · rcases mem_cons.mp late with rfl | last
      · exact ⟨exchanged, le_rfl, Nat.le_add_left 1 499⟩
      · rw [eq_of_mem_replicate last]
        exact ⟨listed, le_rfl, Nat.le_add_left 1 499⟩
  · rw [← listed.all.length_eq]
    simp only [same, map_append, map_cons, map_replicate, sum_append_nat, sum_cons,
      sum_replicate_nat, length_append, length_cons]
    omega
  · intro complete
    rw [readPages_append, readPages_eq fun page mem => congrArg Prod.fst (eq_of_mem_replicate mem),
      readPages, readPages_eq fun page mem => congrArg Prod.fst (eq_of_mem_replicate mem)]
      at complete
    have repeated : front ++ right :: behind ~ front ++ left :: behind := by
      refine Perm.trans ?_ (complete.trans listed.all.symm)
      simp [same, moved, drop_append, drop_eq_nil_of_le]
    rcases perm_singleton.mp ((perm_append_right_iff behind).mp
      ((perm_append_left_iff front).mp repeated : [right] ++ behind ~ [left] ++ behind)) with same
    exact other (singleton_inj.mp same).symm

/-- The listing keeps groups whole exactly if the clause places none inside
another, and its pages are complete exactly if it tells all legs apart. -/
theorem statement_keeps_groups (table : List LedgerRow) (jobs : List JobOwner) (developer : Uuid)
    (keyed : table.Nodup) :
    (∀ order, Listed (selected table jobs developer) order →
      (Whole order ↔ Separate (selected table jobs developer))) ∧
    ((∀ pages, Served (selected table jobs developer) pages →
        (selected table jobs developer).length ≤ (pages.map Prod.snd).sum →
          readPages 0 pages ~ selected table jobs developer) ↔
      Told (selected table jobs developer)) := by
  refine ⟨fun _ listed => listed.whole_iff, ?_, ?_⟩
  · intro complete left here right there stamped grouped
    by_contra other
    obtain ⟨pages, served, enough, broken⟩ :=
      Listed.page_repeats (keyed.filter _) here there stamped grouped other
    exact broken (complete pages served enough)
  · intro told pages served enough
    cases pages with
    | nil =>
      rw [length_eq_zero_iff.mp (Nat.le_zero.mp enough)]
      rfl
    | cons page pages =>
      have first := (served page mem_cons_self).1
      have same : ∀ other ∈ page :: pages, other.1 = page.1 :=
        fun other mem => (served other mem).1.unique first told
      rw [readPages_eq same, drop_zero, take_of_length_le (first.all.length_eq.trans_le enough)]
      exact first.all

def holdLeg (group id createdAt : Nat) : LedgerRow where
  entryGroup := group
  jobId := none
  account := .developer
  accountRef := some 7
  direction := .debit
  amount := ⟨100, by norm_num⟩
  reason := .inferenceHold
  txHash := none
  id := id
  createdAt := createdAt

theorem statement_keeps_groups_two :
    let order := [holdLeg 2 4 8, holdLeg 2 3 7, holdLeg 1 2 6, holdLeg 1 1 5]
    Whole order ∧ readPages 0 [(order, 3), (order, 1)] ~ order.reverse := by
  obtain ⟨whole, complete⟩ := statement_keeps_groups
    [holdLeg 1 1 5, holdLeg 1 2 6, holdLeg 2 3 7, holdLeg 2 4 8] [] 7
    (.of_map LedgerRow.id (by decide))
  have listed : Listed (selected [holdLeg 1 1 5, holdLeg 1 2 6, holdLeg 2 3 7, holdLeg 2 4 8] [] 7)
      [holdLeg 2 4 8, holdLeg 2 3 7, holdLeg 1 2 6, holdLeg 1 1 5] :=
    ⟨reverse_perm [holdLeg 1 1 5, holdLeg 1 2 6, holdLeg 2 3 7, holdLeg 2 4 8], by decide⟩
  have told : Told (selected [holdLeg 1 1 5, holdLeg 1 2 6, holdLeg 2 3 7, holdLeg 2 4 8] [] 7) :=
    fun _ here _ there stamped _ => inj_on_of_nodup_map (by decide) here there stamped
  refine ⟨(whole _ listed).mpr (by unfold Separate; decide), complete.mpr told _ ?_ (by decide)⟩
  exact forall_mem_cons.mpr ⟨⟨listed, by decide⟩, forall_mem_cons.mpr
    ⟨⟨listed, by decide⟩, forall_mem_nil _⟩⟩

theorem interleaved_groups_split :
    Listed (selected [holdLeg 1 1 5, holdLeg 2 3 6, holdLeg 1 2 7, holdLeg 2 4 8] [] 7)
        [holdLeg 2 4 8, holdLeg 1 2 7, holdLeg 2 3 6, holdLeg 1 1 5] ∧
      ¬Whole [holdLeg 2 4 8, holdLeg 1 2 7, holdLeg 2 3 6, holdLeg 1 1 5] := by
  constructor
  · exact ⟨reverse_perm [holdLeg 1 1 5, holdLeg 2 3 6, holdLeg 1 2 7, holdLeg 2 4 8], by decide⟩
  · intro whole
    cases whole (holdLeg 2 4 8) (holdLeg 1 2 7) (holdLeg 2 3 6) (by simp) rfl

end Gridix.Decimals
