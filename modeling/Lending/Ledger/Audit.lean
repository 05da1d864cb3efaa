import Lending.Ledger

/-!
# Audits

A ledger is sound if its pool is solvent and the balances of its accounts sum to the totals of its
pool. `audit` decides this with running sums of amounts, which can run out of range; `Balanced` says
what it is meant to decide, with sums of numbers, which cannot.
-/

set_option autoImplicit false

namespace Lending

/-- What all accounts hold together, by the totals of the pool. -/
def Pool.held (pool : Pool) : Account := ⟨pool.collateral, pool.shares, pool.bonds⟩

namespace Ledger

/-- The sum of one balance over all accounts. -/
def sum (l : Ledger) (balance : Account → Amount) : Nat :=
  l.accounts.entries.foldr (fun e rest => (balance e.2).toNat + rest) 0

/-- The balances of the accounts sum to the totals of the pool. -/
def Balanced (l : Ledger) : Prop :=
  l.sum Account.collateral = l.pool.collateral.toNat ∧
    l.sum Account.shares = l.pool.shares.toNat ∧ l.sum Account.bonds = l.pool.bonds.toNat

/-- The running sums of the three balances, if they stay in range. -/
def totals? (l : Ledger) : Option Account :=
  l.accounts.entries.foldlM (fun total e => total.add? e.2) .empty

/-- Says what is unsound about the ledger: first whether the pool is insolvent, then whether the
accounts fail to sum to it. -/
def audit (l : Ledger) : Except Fault Unit := do
  require l.pool.Solvent .insolvent
  let totals ← demand l.totals? .unbalanced
  require (totals = l.pool.held) .unbalanced

end Ledger

end Lending
