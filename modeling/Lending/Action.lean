import Lending.Bytes
import Lending.Quantity

/-!
# Actions

What a holder can ask of a pool. An action names its counterparty where there is one, and never the
caller: who calls is known to whoever submits the action.
-/

set_option autoImplicit false

namespace Lending

/-- What a holder asks of a pool. -/
inductive Action where
  /-- Put up collateral. -/
  | deposit (amount : Amount)
  /-- Take collateral back. -/
  | withdraw (amount : Amount)
  /-- Supply liquidity for new shares. -/
  | mint (amount : Amount)
  /-- Redeem shares. -/
  | burn (shares : Amount)
  /-- Borrow liquidity against new bonds. -/
  | borrow (amount : Amount)
  /-- Retire the caller's bonds at their worth. -/
  | repay (bonds : Amount)
  /-- Spend up to `cash` of the victim's collateral on the victim's bonds. -/
  | liquidate (victim : Key) (cash : Amount)
  /-- Charge the interest and do nothing else. -/
  | accrue
  /-- Send shares of the caller. -/
  | transfer (recipient : Key) (shares : Amount)
  /-- Spend up to `cash` of the caller's own money on the debtor's bonds. -/
  | repayFor (debtor : Key) (cash : Amount)
  /-- Set how many of the caller's shares the spender may send. -/
  | approve (spender : Key) (amount : Amount)
  /-- Raise what the spender may send. -/
  | raiseAllowance (spender : Key) (delta : Amount)
  /-- Lower what the spender may send. -/
  | lowerAllowance (spender : Key) (delta : Amount)
  /-- Send shares of the owner, within what the owner allows the caller. -/
  | transferFrom (owner recipient : Key) (shares : Amount)
deriving DecidableEq

end Lending
