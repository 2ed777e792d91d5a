import Gridix.Base.Serial
import Mathlib.Algebra.BigOperators.Group.Finset.Basic
import Mathlib.Algebra.BigOperators.Group.Finset.Piecewise
import Mathlib.Algebra.GroupWithZero.Nat
import Mathlib.Algebra.Order.BigOperators.Group.Finset

/-!
# Words, mappings and tokens

Unsigned arithmetic that reverts on overflow, mappings from a finite type of
accounts with the sum of their values, and a token that moves exactly the
units it is asked to move.
-/

namespace Solidity

variable {Error : Type} {overflow : Error} {words : List Nat}

def checkedAdd (overflow : Error) (left right : Nat) : Except Error Nat :=
  if left + right < 2 ^ 256 then .ok (left + right) else .error overflow

theorem checkedAdd_ok {left right sum : Nat} (ok : checkedAdd overflow left right = .ok sum) :
    sum = left + right := by
  unfold checkedAdd at ok
  split_ifs at ok
  cases ok
  rfl

def checkedSum (overflow : Error) (words : List Nat) : Except Error Nat :=
  words.foldlM (checkedAdd overflow) 0

theorem foldlM_checkedAdd {start sum : Nat}
    (ok : words.foldlM (checkedAdd overflow) start = .ok sum) :
    sum = start + words.sum := by
  induction words generalizing start with
  | nil =>
    cases ok
    rfl
  | cons _ _ ih =>
    rw [List.foldlM_cons, Serial.bind_eq_ok] at ok
    obtain ⟨_, head, tail⟩ := ok
    rw [ih tail, checkedAdd_ok head, List.sum_cons]
    omega

theorem checkedSum_ok {sum : Nat} (ok : checkedSum overflow words = .ok sum) : sum = words.sum := by
  rw [foldlM_checkedAdd ok, Nat.zero_add]

variable {Account : Type}

section

variable [Fintype Account]

def total (mapping : Account → Nat) : Nat := ∑ account, mapping account

theorem le_total (mapping : Account → Nat) (account : Account) : mapping account ≤ total mapping :=
  Finset.single_le_sum (fun _ _ => Nat.zero_le _) (Finset.mem_univ account)

theorem total_zero : total (fun _ : Account => 0) = 0 := Finset.sum_eq_zero fun _ _ => rfl

theorem total_of_eq_elsewhere [DecidableEq Account] {before after : Account → Nat}
    {changed : Account} (same : ∀ account, account ≠ changed → after account = before account) :
    total after + before changed = total before + after changed := by
  have rest : ∑ account ∈ Finset.univ.erase changed, after account =
      ∑ account ∈ Finset.univ.erase changed, before account := by
    apply Finset.sum_congr rfl
    intro account mem
    exact same account (Finset.ne_of_mem_erase mem)
  have split (mapping : Account → Nat) : total mapping =
      ∑ account ∈ Finset.univ.erase changed, mapping account + mapping changed :=
    (Finset.sum_erase_add _ _ (Finset.mem_univ changed)).symm
  rw [split after, split before]
  omega

theorem total_update [DecidableEq Account] (mapping : Account → Nat)
    (account : Account) (value : Nat) :
    total (Function.update mapping account value) + mapping account = total mapping + value := by
  have changed := total_of_eq_elsewhere (fun other (ne : other ≠ account) =>
      Function.update_of_ne ne value mapping)
  rwa [Function.update_self] at changed

theorem total_add (left right : Account → Nat) :
    total (fun account => left account + right account) = total left + total right :=
  Finset.sum_add_distrib

end

inductive TokenError where
  | insufficientBalance (balance needed : Nat)
  | insufficientAllowance (allowance needed : Nat)
  deriving DecidableEq, Repr

variable [DecidableEq Account]

def transfer (source target : Account) (amount : Nat)
    (balances : Account → Nat) : Except TokenError (Account → Nat) :=
  if amount ≤ balances source then
    let debited := Function.update balances source (balances source - amount)
    .ok (Function.update debited target (debited target + amount))
  else .error (.insufficientBalance (balances source) amount)

def transferFrom (allowance : Nat) (source target : Account) (amount : Nat)
    (balances : Account → Nat) : Except TokenError (Account → Nat) :=
  if amount ≤ allowance then transfer source target amount balances
  else .error (.insufficientAllowance allowance amount)

section

variable {source target : Account} {amount : Nat}
  {balances moved : Account → Nat}

theorem transfer_source (ne : source ≠ target)
    (ok : transfer source target amount balances = .ok moved) :
    amount ≤ balances source ∧ moved source + amount = balances source := by
  unfold transfer at ok
  split_ifs at ok with enough
  cases ok
  simp only [Function.update_of_ne ne, Function.update_self]
  omega

theorem le_transfer_source (ok : transfer source target amount balances = .ok moved) :
    balances source ≤ moved source + amount := by
  by_cases ne : source = target
  · subst ne
    unfold transfer at ok
    split_ifs at ok
    cases ok
    simp only [Function.update_self]
    omega
  · exact (transfer_source ne ok).2.ge

theorem transfer_total (target : Account) (enough : amount ≤ balances source) :
    ∃ moved, transfer source target amount balances = .ok moved :=
  ⟨_, if_pos enough⟩

theorem transferFrom_target {allowance : Nat} (ne : source ≠ target)
    (ok : transferFrom allowance source target amount balances = .ok moved) :
    moved target = balances target + amount := by
  unfold transferFrom at ok
  unfold transfer at ok
  split_ifs at ok
  cases ok
  simp only [Function.update_of_ne ne.symm, Function.update_self]

end

end Solidity
