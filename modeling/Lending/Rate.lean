import Lending.Quantity.Ratio

/-!
# Rates: fractions in fixed point

Fees and interest are charged at rates, fractions of an amount counted in units of `10 ^ -18`. A
charge rounds up, so that a pool is never paid less than the rate says; a rate above one is allowed,
and a charge that would exceed the largest amount is `none`.
-/

set_option autoImplicit false

namespace Lending

/-- A fraction of an amount, in units of `10 ^ -18`. -/
abbrev Rate := Amount

namespace Rate

/-- The rate that charges all of an amount. -/
def one : Rate := ⟨1000000000000000000, by decide⟩

/-- What `rate` charges on `amount`, rounded up. -/
def charge? (amount : Amount) (rate : Rate) : Option Amount :=
  Quantity.mulDivCeil? amount rate one

end Rate

end Lending
