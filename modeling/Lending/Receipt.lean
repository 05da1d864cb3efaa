import Lending.Bytes.Base58

/-!
# Receipts

A pool moves no money. What an action did is told by its receipt, and the host settles from that:
it pays out what was withdrawn, redeemed or borrowed, and collects what was put up, supplied or
repaid. The same facts are written to the journal as one line of text.
-/

set_option autoImplicit false

namespace Lending

instance {w : Nat} : ToString (Quantity w) := ⟨fun q => toString q.toNat⟩

/-- What an action did. -/
inductive Receipt where
  /-- Collateral was put up. -/
  | deposited (amount : Amount)
  /-- Collateral was taken back. -/
  | withdrawn (amount : Amount)
  /-- The minter pays the liquidity and the fee for the shares. -/
  | minted (liquidity shares fee : Amount)
  /-- The shares were redeemed for the liquidity. -/
  | burned (shares liquidity : Amount)
  /-- The borrower receives the liquidity and owes it together with the fee. -/
  | borrowed (liquidity bonds fee : Amount)
  /-- The bonds were retired for the debt they were worth. -/
  | repaid (bonds credited : Amount)
  /-- Collateral of the victim was seized for the bonds burned. -/
  | liquidated (victim : Key) (seized bonds : Amount)
  /-- Interest was charged; the liquidity is what it came to. -/
  | accrued (liquidity : Amount)
  /-- The caller's shares were sent. -/
  | transferred (recipient : Key) (shares : Amount)
  /-- The caller spent one part of the cash on the debtor's bonds and keeps the other. -/
  | repaidFor (debtor : Key) (spent bonds unspent : Amount)
  /-- The caller now allows the spender this many shares. -/
  | allowanceSet (spender : Key) (amount : Amount)
  /-- The owner's shares were sent. -/
  | transferredFrom (owner recipient : Key) (shares : Amount)
deriving DecidableEq

/-- The line of the journal for an action with this receipt, before which `interest` was charged.
Only the line of a charge for its own sake tells the interest. -/
def Receipt.line (interest : Amount) : Receipt → String
  | .deposited amount => s!"Deposited {amount} collateral"
  | .withdrawn amount => s!"Withdrew {amount} collateral"
  | .minted liquidity shares fee => s!"Minted {shares} shares for {liquidity} liquidity, fee {fee}"
  | .burned shares liquidity => s!"Burned {shares} shares for {liquidity} liquidity"
  | .borrowed liquidity bonds fee =>
    s!"Borrowed {liquidity} liquidity against {bonds} bonds, fee {fee}"
  | .repaid bonds credited => s!"Repaid {bonds} bonds, {credited} credited to borrowable"
  | .liquidated victim seized bonds =>
    s!"Liquidated {victim}: {seized} collateral burned {bonds} bonds"
  | .accrued _ => s!"Accrued {interest} interest"
  | .transferred recipient shares => s!"Transferred {shares} shares to {recipient}"
  | .repaidFor debtor spent bonds unspent =>
    s!"Repaid {spent} for {debtor}: {bonds} bonds burned, {unspent} unspent"
  | .allowanceSet spender amount => s!"Approved {spender} for {amount} shares"
  | .transferredFrom owner recipient shares =>
    s!"Transferred {shares} shares from {owner} to {recipient}"

end Lending
