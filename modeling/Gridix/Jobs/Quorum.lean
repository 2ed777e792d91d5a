import Gridix.Jobs.Model
import Mathlib.Data.List.MinMax

/-!
# Quorum

Results are grouped by output hash and a hash wins with a strict majority of
the required votes.  The hash is whatever the provider's proof carries, so
counting it can fail on a value that Python cannot hash.
-/

namespace Py

/-- A value as a dict key: equal numbers share it. -/
inductive Key where
  | none
  | number (value : ℚ)
  | infinite (negative : Bool)
  | nan
  | str (value : String)
  deriving DecidableEq

/-- The key of a value; lists and dicts cannot be hashed. -/
def Value.key : Value → Option Key
  | .none => some .none
  | .bool value => some (.number (if value then 1 else 0))
  | .int value => some (.number value)
  | .float (.finite value) => some (.number value)
  | .float (.infinite negative) => some (.infinite negative)
  | .float .nan => some .nan
  | .str value => some (.str value)
  | .list _ => Option.none
  | .dict _ => Option.none

def Value.isNone : Value → Bool
  | .none => true
  | _ => false

theorem Value.isNone_of_key {value : Value}
    (none : value.key = some .none) : value.isNone = true := by
  cases value with
  | none => rfl
  | float value => cases value <;> cases none
  | _ => cases none

end Py

namespace Gridix

structure AttemptResult where
  providerId : Uuid
  outputHash : Py.Value
  succeeded : Bool

structure QuorumOutcome where
  reached : Bool
  winningHash : Option Py.Key
  agreers : List Uuid
  disagreers : List Uuid
  deriving DecidableEq

def QuorumOutcome.inconclusive : QuorumOutcome :=
  { reached := false, winningHash := none, agreers := [], disagreers := [] }

def AttemptResult.usable (result : AttemptResult) : Bool :=
  result.succeeded && !result.outputHash.isNone

/-- The keys a counter sees, or `none` if one of them cannot be hashed. -/
def countedKeys (results : List AttemptResult) : Option (List Py.Key) :=
  results.mapM fun result => result.outputHash.key

/-- `Counter(keys).most_common(1)`: the first of the most frequent keys. -/
def mostCommon (keys : List Py.Key) : Option Py.Key := keys.argmax fun key => keys.count key

/-- `output_hash == winning_hash`, where a NaN equals nothing. -/
def AttemptResult.agrees (winning : Py.Key) (result : AttemptResult) : Bool :=
  result.outputHash.key == some winning && (winning != .nan && result.succeeded)

/-- The majority among the completed results with a hash. -/
def evaluateQuorum (attempts : List AttemptResult) (redundancy : Nat) :
    Except Raised QuorumOutcome :=
  let usable := attempts.filter AttemptResult.usable
  match countedKeys usable with
  | none => .error .unhashableOutput
  | some keys =>
    match mostCommon keys with
    | none => .ok .inconclusive
    | some winning =>
      if keys.count winning < redundancy / 2 + 1 then .ok .inconclusive
      else
        let agreers := (attempts.filter (AttemptResult.agrees winning)).map AttemptResult.providerId
        let disagreers := (attempts.filter fun result =>
          !agreers.contains result.providerId &&
            (!result.outputHash.isNone || !result.succeeded)).map AttemptResult.providerId
        .ok { reached := true, winningHash := some winning,
              agreers := agreers, disagreers := disagreers }

def votes (attempts : List AttemptResult) (key : Py.Key) : Nat := attempts.countP fun result =>
    result.usable && result.outputHash.key == some key

variable {results attempts : List AttemptResult} {keys : List Py.Key} {result : AttemptResult}

theorem count_countedKeys (counted : countedKeys results = some keys) (key : Py.Key) :
    keys.count key = results.countP fun result => result.outputHash.key == some key := by
  induction results generalizing keys with
  | nil =>
    cases counted
    rfl
  | cons _ _ ih =>
    simp only [countedKeys, List.mapM_cons, Option.bind_eq_bind,
      Option.pure_def, Option.bind_eq_some_iff, Option.some.injEq]
      at counted
    obtain ⟨head, headKey, _, tailKeys, rfl⟩ := counted
    rw [List.count_cons, List.countP_cons, ih tailKeys, headKey]
    by_cases same : head = key <;> simp [same]

theorem count_usable (counted : countedKeys (attempts.filter AttemptResult.usable) = some keys)
    (key : Py.Key) : keys.count key = votes attempts key := by
  rw [count_countedKeys counted, List.countP_filter]
  exact List.countP_congr fun result _ => by rw [Bool.and_comm]

theorem mem_countedKeys (counted : countedKeys results = some keys)
    {key : Py.Key} (mem : key ∈ keys) :
    ∃ result ∈ results, result.outputHash.key = some key := by
  have positive := List.count_pos_iff.mpr mem
  rw [count_countedKeys counted, List.countP_pos_iff] at positive
  obtain ⟨result, here, carries⟩ := positive
  exact ⟨result, here, by simpa using carries⟩

theorem votes_eq_zero (counted : countedKeys (attempts.filter AttemptResult.usable) = some [])
    (key : Py.Key) : votes attempts key = 0 := by
  rw [← count_usable counted, List.count_nil]

theorem evaluateQuorum_ok {redundancy : Nat} {outcome : QuorumOutcome}
    (ok : evaluateQuorum attempts redundancy = .ok outcome) :
    (outcome = .inconclusive ∧ ∀ key, votes attempts key < redundancy / 2 + 1) ∨
    ∃ winning, outcome.reached = true ∧ redundancy / 2 + 1 ≤ votes attempts winning ∧
      winning ≠ .none ∧
      outcome.agreers = (attempts.filter
        (AttemptResult.agrees winning)).map AttemptResult.providerId ∧
      outcome.winningHash = some winning := by
  unfold evaluateQuorum at ok
  dsimp only at ok
  split at ok
  · cases ok
  · rename_i keys counted
    split at ok
    · rename_i empty
      cases ok
      rw [mostCommon, List.argmax_eq_none] at empty
      subst empty
      refine Or.inl ⟨rfl, ?_⟩
      intro _
      rw [votes_eq_zero counted]
      exact Nat.succ_pos _
    · rename_i winning most
      have winner := List.argmax_mem (Option.mem_def.mpr most)
      split_ifs at ok with few
      · cases ok
        refine Or.inl ⟨rfl, ?_⟩
        intro key
        rw [← count_usable counted]
        by_cases here : key ∈ keys
        · exact Nat.lt_of_le_of_lt (List.le_of_mem_argmax (f := fun key => keys.count key) here
              (Option.mem_def.mpr most)) few
        · rw [List.count_eq_zero.mpr here]
          exact Nat.succ_pos _
      · cases ok
        refine Or.inr ⟨winning, rfl, ?_, ?_, rfl, rfl⟩
        · rw [← count_usable counted]
          exact Nat.not_lt.mp few
        · rintro rfl
          obtain ⟨_, usable, carries⟩ := mem_countedKeys counted winner
          have hash := Py.Value.isNone_of_key carries
          simp [AttemptResult.usable, hash] at usable

theorem countedKeys_total {attempts : List AttemptResult}
    (hashable : ∀ result ∈ attempts, result.succeeded = true →
      result.outputHash.key.isSome = true) :
    ∃ keys, countedKeys (attempts.filter AttemptResult.usable) = some keys := by
  induction attempts with
  | nil => exact ⟨[], rfl⟩
  | cons result _ ih =>
    obtain ⟨keys, counted⟩ := ih fun other mem => hashable other (List.mem_cons_of_mem _ mem)
    by_cases usable : result.usable = true
    · have succeeded : result.succeeded = true := by
        simp only [AttemptResult.usable, Bool.and_eq_true] at usable
        exact usable.1
      obtain ⟨key, carries⟩ := Option.isSome_iff_exists.mp
        (hashable result List.mem_cons_self succeeded)
      refine ⟨key :: keys, ?_⟩
      rw [List.filter_cons_of_pos usable]
      rw [countedKeys] at counted ⊢
      rw [List.mapM_cons, carries, counted]
      rfl
    · rw [List.filter_cons_of_neg usable]
      exact ⟨keys, counted⟩

theorem evaluateQuorum_total (redundancy : Nat)
    (hashable : ∀ result ∈ attempts, result.succeeded = true →
      result.outputHash.key.isSome = true) :
    ∃ outcome, evaluateQuorum attempts redundancy = .ok outcome := by
  obtain ⟨_, counted⟩ := countedKeys_total hashable
  unfold evaluateQuorum
  dsimp only
  rw [counted]
  dsimp only
  split
  · exact ⟨_, rfl⟩
  · split_ifs
    · exact ⟨_, rfl⟩
    · exact ⟨_, rfl⟩

theorem countedKeys_eq_none (mem : result ∈ results) (unhashable : result.outputHash.key = none) :
    countedKeys results = none := by
  induction results with
  | nil => cases mem
  | cons head _ ih =>
    rw [countedKeys, List.mapM_cons]
    rcases List.mem_cons.mp mem with rfl | here
    · rw [unhashable]
      rfl
    · have tail := ih here
      rw [countedKeys] at tail
      rw [tail]
      cases head.outputHash.key <;> rfl

theorem evaluateQuorum_unhashable (redundancy : Nat) (mem : result ∈ attempts)
    (succeeded : result.succeeded = true) (unhashable : result.outputHash.key = none) :
    evaluateQuorum attempts redundancy = .error .unhashableOutput := by
  have usable : result ∈ attempts.filter AttemptResult.usable := by
    refine List.mem_filter.mpr ⟨mem, ?_⟩
    rw [AttemptResult.usable, succeeded]
    cases hash : result.outputHash with
    | none =>
      rw [hash] at unhashable
      cases unhashable
    | _ => rfl
  unfold evaluateQuorum
  dsimp only
  rw [countedKeys_eq_none usable unhashable]

end Gridix
