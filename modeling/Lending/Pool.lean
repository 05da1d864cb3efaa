import Lending.Bytes
import Lending.Fault
import Lending.ShareBook
import Lending.BondBook

/-!
# The totals of a pool

A pool lends one asset. It keeps five totals: the collateral its borrowers have put up, the
liquidity its suppliers own, the shares that divide the liquidity, the part of the liquidity that is
not lent out, and the bonds that divide the part that is. The debt is not stored: it is the
liquidity less what is still borrowable, and a pool with more to lend than it has is insolvent.

Prices are those of the two books of the pool, `ShareBook` on the liquidity and `BondBook` on the
debt, with a fault where a book has no answer. Interest is added to the liquidity and to nothing
else, so it lands on the debt: the borrowers owe it and the suppliers own it.
-/

set_option autoImplicit false

namespace Lending

/-- The totals of a pool; all zero where it starts. -/
structure Pool where
  /-- The collateral of all accounts. -/
  collateral : Amount := 0
  /-- What the suppliers own: the sums supplied and the interest so far. -/
  liquidity : Amount := 0
  /-- The shares of all accounts. -/
  shares : Amount := 0
  /-- The part of the liquidity that is not lent out. -/
  borrowable : Amount := 0
  /-- The bonds of all accounts. -/
  bonds : Amount := 0
  /-- When interest was last charged by the clock. -/
  accruedAt : Timestamp := 0
  /-- Bytes of the stored record that nothing reads. -/
  reserved : Bytes 8 := 0
deriving DecidableEq

namespace Pool

/-- There is no more to lend than there is liquidity. -/
def Solvent (pool : Pool) : Prop := pool.borrowable ≤ pool.liquidity

instance (pool : Pool) : Decidable pool.Solvent :=
  inferInstanceAs (Decidable (pool.borrowable ≤ pool.liquidity))

/-- The part of the liquidity that is lent out; none of an insolvent pool. -/
def debt? (pool : Pool) : Option Amount := pool.liquidity.sub? pool.borrowable

/-- The part of the liquidity that is lent out. -/
def debt (pool : Pool) : Except Fault Amount := demand pool.debt? .insolvent

theorem debt_eq_ok_iff {pool : Pool} {d : Amount} :
    pool.debt = .ok d ↔ d.toNat + pool.borrowable.toNat = pool.liquidity.toNat := by
  rw [debt, demand_eq_ok_iff, debt?, Quantity.sub?_eq_some_iff]

theorem debt_eq_error_iff {pool : Pool} {f : Fault} :
    pool.debt = .error f ↔ ¬pool.Solvent ∧ f = .insolvent := by
  rw [debt, demand_eq_error_iff, debt?, Quantity.sub?_eq_none_iff, Solvent, Quantity.le_def,
    Nat.not_le, eq_comm (a := f)]

/-! ## Prices -/

/-- The shares of the pool on its liquidity. -/
def shareBook (pool : Pool) : ShareBook 128 := ⟨pool.liquidity, pool.shares⟩

/-- The bonds of the pool on its debt. -/
def bondBook (pool : Pool) : Except Fault (BondBook 128) := do
  return ⟨← pool.debt, pool.bonds⟩

/-- The shares that `amount` of liquidity buys. -/
def sharesFor (pool : Pool) (amount : Amount) : Except Fault Amount :=
  demand (pool.shareBook.sharesFor? amount) .overflow

/-- The liquidity that `shares` are worth. -/
def liquidityFor (pool : Pool) (shares : Amount) : Except Fault Amount :=
  demand (pool.shareBook.liquidityFor? shares) .overflow

/-- The bonds assigned for borrowing `amount`. -/
def bondsFor (pool : Pool) (amount : Amount) : Except Fault Amount := do
  demand ((← pool.bondBook).bondsFor? amount) .overflow

/-- The debt that `bonds` are worth. -/
def debtFor (pool : Pool) (bonds : Amount) : Except Fault Amount := do
  demand ((← pool.bondBook).debtFor? bonds) .overflow

/-- What `cash` does to the bonds of a debtor who holds `held` of them. -/
def convert (pool : Pool) (cash held : Amount) : Except Fault (Conversion 128) := do
  demand ((← pool.bondBook).convert? cash held) .conversionOutOfBounds

/-! ## Interest -/

/-- Adds interest to the liquidity. -/
def accrue (pool : Pool) (interest : Amount) : Except Fault Pool := do
  let liquidity ← demand (pool.liquidity.add? interest) .overflow
  return { pool with liquidity }

theorem accrue_eq_ok_iff {pool after : Pool} {interest : Amount} :
    pool.accrue interest = .ok after ↔
      ∃ liquidity : Amount, liquidity.toNat = pool.liquidity.toNat + interest.toNat ∧
        { pool with liquidity } = after := by
  simp only [accrue, bind_eq_ok_iff, demand_eq_ok_iff, Quantity.add?_eq_some_iff, pure_eq_ok_iff]

end Pool

end Lending
