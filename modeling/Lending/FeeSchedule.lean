import Lending.Fault
import Lending.Rate

/-!
# Fees

A pool can charge for minting shares and for borrowing, at rates that its host sets. A fee comes on
top of the principal and stays in the pool: the minting fee joins the liquidity without minting
shares for it, the borrowing fee joins the borrower's debt. Both rates start at zero, where nothing
is charged.
-/

set_option autoImplicit false

namespace Lending

/-- The rates at which fees are charged. -/
structure FeeSchedule where
  /-- Charged on the liquidity supplied. -/
  minting : Rate := 0
  /-- Charged on the liquidity borrowed. -/
  borrowing : Rate := 0
deriving DecidableEq

namespace FeeSchedule

/-- The fee that `rate` charges on `amount`. -/
def fee (amount : Amount) (rate : Rate) : Except Fault Amount :=
  demand (Rate.charge? amount rate) .overflow

/-- The fee for minting shares for `amount`. -/
def mintingFee (fees : FeeSchedule) (amount : Amount) : Except Fault Amount :=
  fee amount fees.minting

/-- The fee for borrowing `amount`. -/
def borrowingFee (fees : FeeSchedule) (amount : Amount) : Except Fault Amount :=
  fee amount fees.borrowing

end FeeSchedule

end Lending
