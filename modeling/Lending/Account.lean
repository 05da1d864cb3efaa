import Lending.Fault
import Lending.Quantity

/-!
# Accounts

A holder's part in a pool is three balances: the collateral put up, the shares of the liquidity and
the bonds of the debt. A holder the pool has never met has the empty account, so an empty account
need not be stored.
-/

set_option autoImplicit false

namespace Lending

/-- The balances of one holder; all zero where nothing is held. -/
structure Account where
  /-- Collateral put up. -/
  collateral : Amount := 0
  /-- Shares of the liquidity. -/
  shares : Amount := 0
  /-- Bonds of the debt. -/
  bonds : Amount := 0
deriving DecidableEq

namespace Account

/-- The account of a holder who holds nothing. -/
def empty : Account := {}

/-- Nothing is held. -/
def IsEmpty (account : Account) : Prop := account = empty

instance (account : Account) : Decidable account.IsEmpty :=
  inferInstanceAs (Decidable (account = empty))

/-- The sum of two accounts, balance by balance, if there is room for it. -/
def add? (a b : Account) : Option Account := do
  let collateral ← a.collateral.add? b.collateral
  let shares ← a.shares.add? b.shares
  let bonds ← a.bonds.add? b.bonds
  return { collateral, shares, bonds }

/-- Moves shares from one account to another: the sender's account and the recipient's. The two are
different holders' accounts. -/
def sendShares (sender recipient : Account) (shares : Amount) :
    Except Fault (Account × Account) := do
  let left ← demand (sender.shares.sub? shares) .transferExceedsBalance
  let received ← demand (recipient.shares.add? shares) .overflow
  return ({ sender with shares := left }, { recipient with shares := received })

end Account

end Lending
