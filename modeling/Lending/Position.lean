import Lending.Pool
import Lending.Account

/-!
# Positions: a holder against a pool

A `Position` is the totals of a pool together with one holder's account, the two records that a
transition changes. Every transition moves the totals and the account by the same amounts, so what
held between the pool and all its accounts still holds after it; and each is a chain of partial
steps, so it changes either both records or neither.

Rounding follows the books of the pool. Whoever supplies is issued shares rounded down and redeems
them rounded down; whoever borrows is assigned bonds rounded up and retires them rounded up.

A transition that trades one thing for another gives, beside the position, the amount on the other
side of the trade: the shares minted, the liquidity redeemed, the bonds assigned, the debt retired.
-/

set_option autoImplicit false

namespace Lending

/-- The totals of a pool and one holder's account. -/
structure Position where
  /-- The totals of the pool. -/
  pool : Pool
  /-- The holder's balances. -/
  account : Account
deriving DecidableEq

namespace Position

/-! ## Collateral -/

/-- Puts up collateral. -/
def deposit (p : Position) (amount : Amount) : Except Fault Position := do
  let total ← demand (p.pool.collateral.add? amount) .depositOverflow
  let own ← demand (p.account.collateral.add? amount) .overflow
  return {
    pool := { p.pool with collateral := total }
    account := { p.account with collateral := own } }

/-- Takes collateral back. -/
def withdraw (p : Position) (amount : Amount) : Except Fault Position := do
  let own ← demand (p.account.collateral.sub? amount) .withdrawExceedsCollateral
  let total ← demand (p.pool.collateral.sub? amount) .underflow
  return {
    pool := { p.pool with collateral := total }
    account := { p.account with collateral := own } }

/-! ## Shares -/

/-- Supplies `amount` and a fee, and mints shares for `amount` alone: the fee is spread over all
shares. Both can be lent at once. Gives the shares minted. -/
def mint (p : Position) (amount fee : Amount) : Except Fault (Amount × Position) := do
  let supplied ← demand (amount.add? fee) .overflow
  let minted ← p.pool.sharesFor amount
  let shares ← demand (p.pool.shares.add? minted) .overflow
  let own ← demand (p.account.shares.add? minted) .overflow
  let liquidity ← demand (p.pool.liquidity.add? supplied) .overflow
  let borrowable ← demand (p.pool.borrowable.add? supplied) .overflow
  return (minted, {
    pool := { p.pool with shares, liquidity, borrowable }
    account := { p.account with shares := own } })

/-- Redeems shares, as far as their worth is not out on loan. Gives the liquidity redeemed. -/
def burn (p : Position) (shares : Amount) : Except Fault (Amount × Position) := do
  let own ← demand (p.account.shares.sub? shares) .burnExceedsShares
  let redeemed ← p.pool.liquidityFor shares
  let borrowable ← demand (p.pool.borrowable.sub? redeemed) .burnExceedsBorrowable
  let total ← demand (p.pool.shares.sub? shares) .underflow
  let liquidity ← demand (p.pool.liquidity.sub? redeemed) .underflow
  return (redeemed, {
    pool := { p.pool with shares := total, liquidity, borrowable }
    account := { p.account with shares := own } })

/-! ## Bonds -/

/-- Borrows `amount` against new bonds. The fee joins the debt: bonds are assigned for the two
together, and both leave what can be borrowed. Gives the bonds assigned. -/
def borrow (p : Position) (amount fee : Amount) : Except Fault (Amount × Position) := do
  let owed ← demand (amount.add? fee) .overflow
  let borrowable ← demand (p.pool.borrowable.sub? owed) .borrowExceedsBorrowable
  let assigned ← p.pool.bondsFor owed
  let bonds ← demand (p.pool.bonds.add? assigned) .overflow
  let own ← demand (p.account.bonds.add? assigned) .overflow
  return (assigned, {
    pool := { p.pool with bonds, borrowable }
    account := { p.account with bonds := own } })

/-- Retires bonds at their worth, which can be lent again. Gives the debt retired. -/
def repay (p : Position) (bonds : Amount) : Except Fault (Amount × Position) := do
  let own ← demand (p.account.bonds.sub? bonds) .repayExceedsBonds
  let credited ← p.pool.debtFor bonds
  let borrowable ← demand (p.pool.borrowable.add? credited) .repayExceedsLiquidity
  require (borrowable ≤ p.pool.liquidity) .repayExceedsLiquidity
  let total ← demand (p.pool.bonds.sub? bonds) .underflow
  return (credited, {
    pool := { p.pool with bonds := total, borrowable }
    account := { p.account with bonds := own } })

/-! ## Cash for bonds -/

/-- Burns the bonds of a conversion and makes what they cost borrowable again. All bounds are
checked first: the cost is covered, the pool stays solvent, and no account is left with more bonds
than there are. -/
def burnConverted (p : Position) (c : Conversion 128) (cash : Amount) :
    Except Fault Position := do
  require (c.repaid ≤ cash) .conversionOutOfBounds
  let borrowable ← demand (p.pool.borrowable.add? c.repaid) .conversionOutOfBounds
  require (borrowable ≤ p.pool.liquidity) .conversionOutOfBounds
  let own ← demand (p.account.bonds.sub? c.burned) .conversionOutOfBounds
  let total ← demand (p.pool.bonds.sub? c.burned) .conversionOutOfBounds
  require (own ≤ total) .conversionOutOfBounds
  return {
    pool := { p.pool with bonds := total, borrowable }
    account := { p.account with bonds := own } }

/-- Spends up to `cash` from outside on the holder's bonds. What the conversion does not spend was
never the pool's. -/
def repayWithCash (p : Position) (cash : Amount) :
    Except Fault (Conversion 128 × Position) := do
  let c ← p.pool.convert cash p.account.bonds
  return (c, ← p.burnConverted c cash)

/-- Spends up to `cash` of the holder's collateral on the holder's bonds. Only what the conversion
spends is seized. -/
def liquidate (p : Position) (cash : Amount) : Except Fault (Conversion 128 × Position) := do
  require (cash ≤ p.account.collateral) .withdrawExceedsCollateral
  let (c, after) ← p.repayWithCash cash
  let own ← demand (after.account.collateral.sub? c.repaid) .conversionOutOfBounds
  let total ← demand (after.pool.collateral.sub? c.repaid) .conversionOutOfBounds
  return (c, {
    pool := { after.pool with collateral := total }
    account := { after.account with collateral := own } })

end Position

end Lending
