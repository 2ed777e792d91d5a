import Gridix.Ledger
import Mathlib.Algebra.Order.Ring.Int
import Mathlib.Tactic.Positivity
import Mathlib.Tactic.Ring

/-!
# Token units and wallets

The ledger counts in `10⁻⁸` USDC and the chain in raw units of a token with
`decimals` decimals.
-/

namespace Gridix

/-- An account or contract address.  The program stores addresses in
lowercase hexadecimal, so equal texts are equal addresses. -/
abbrev Address := Nat

inductive UnitsError where
  | negative (amount : Int)
  deriving DecidableEq, Repr

def wholeUnits (decimals : Nat) (amount : Int) : Int := amount * 10 ^ decimals / 10 ^ 8

def toUnits (decimals : Nat) (amount : Int) : Except UnitsError Int :=
  if amount < 0 then .error (.negative amount)
  else .ok (wholeUnits decimals amount)

def fromUnits (decimals : Nat) (units : Nat) : Int := units * 10 ^ (8 - decimals)

theorem wholeUnits_eq {decimals : Nat} (fits : decimals ≤ 8) (amount : Int) :
    wholeUnits decimals amount = amount / 10 ^ (8 - decimals) := by
  have scale : (10 : Int) ^ 8 = 10 ^ (8 - decimals) * 10 ^ decimals := by
    rw [← pow_add, Nat.sub_add_cancel fits]
  rw [wholeUnits, scale]
  exact Int.mul_ediv_mul_of_pos_left _ _ (by positivity)

structure Developer where
  id : Uuid
  walletAddress : Option Address
  deriving DecidableEq, Repr

/-- The `developers` table with its primary key and its unique wallet. -/
structure Developers where
  rows : List Developer
  ids : (rows.map Developer.id).Nodup
  wallets : (rows.filterMap Developer.walletAddress).Nodup

def Developers.none : Developers := ⟨[], by decide, by decide⟩

def Developers.one : Developers := ⟨[⟨1, some 10⟩], by decide, by decide⟩

theorem Developers.eq_of_wallet {developers : Developers} {wallet : Address}
    {owner developer : Developer} (ownerKnown : owner ∈ developers.rows)
    (ownerWallet : owner.walletAddress = some wallet) (known : developer ∈ developers.rows)
    (same : developer.walletAddress = some wallet) : developer = owner := by
  have apart := List.pairwise_filterMap.mp developers.wallets
  have : Std.Symm fun left right : Developer =>
      ∀ wallet, left.walletAddress = some wallet →
        ∀ other, right.walletAddress = some other → wallet ≠ other :=
    ⟨fun _ _ held wallet found other found' =>
      (held other found' wallet found).symm⟩
  by_contra ne
  exact apart.forall known ownerKnown ne wallet same wallet ownerWallet rfl

structure ProviderAccount where
  id : Uuid
  walletAddress : Address
  deriving DecidableEq, Repr

/-- The default of `usdc_decimals`. -/
def usdcDecimals : Nat := 6

theorem usdcDecimals_fit : usdcDecimals ≤ 8 := by decide

/-- The `providers` table with its primary key and its unique wallet. -/
structure Providers where
  rows : List ProviderAccount
  ids : (rows.map ProviderAccount.id).Nodup
  wallets : (rows.map ProviderAccount.walletAddress).Nodup

def Providers.five : Providers := ⟨[⟨5, 50⟩], by decide, by decide⟩

def Providers.seven : Providers := ⟨[⟨7, 70⟩], by decide, by decide⟩

end Gridix
