import Lending.Pool
import Lending.Rate

/-!
# Interest by the clock

A pool accepts interest from any source. This module is one source: a rate per second that depends
on how much of the liquidity is lent out, charged on the debt for the time since the last charge.

The rate is the larger of two lines. The standard line rises from its floor with the part of the
liquidity that is lent out; the emergency line falls from its ceiling with the part that is still
borrowable, and stops at zero, so it matters where little is left to borrow. Both quotients round
down, and the interest rounds up.

The clock of a pool does not run backwards: a time before the last charge counts as that of the
last charge, no time has passed, and nothing is owed for it.
-/

set_option autoImplicit false

namespace Lending

/-- The two lines of the rate of interest per second. -/
structure RateCurve where
  /-- What the standard line gains from no liquidity lent out to all of it. -/
  standardSlope : Rate := 0
  /-- The standard line where nothing is lent out. -/
  standardFloor : Rate := 0
  /-- What the emergency line loses from no liquidity borrowable to all of it. -/
  emergencySlope : Rate := 0
  /-- The emergency line where nothing is borrowable. -/
  emergencyCeiling : Rate := 0
deriving DecidableEq

namespace RateCurve

open Quantity

/-- The standard line: the floor and the lent part of the slope. -/
def standard? (curve : RateCurve) (liquidity debt : Amount) : Option Rate := do
  curve.standardFloor.add? (← mulDivFloor? curve.standardSlope debt liquidity)

/-- The emergency line: the ceiling less the borrowable part of the slope, or zero. -/
def emergency? (curve : RateCurve) (liquidity borrowable : Amount) : Option Rate := do
  return curve.emergencyCeiling - (← mulDivFloor? curve.emergencySlope borrowable liquidity)

/-- The rate per second for the given balances. Without liquidity both lines stand at their start,
whatever is borrowable. -/
def rate (curve : RateCurve) (liquidity borrowable : Amount) : Except Fault Rate := do
  if liquidity = 0 then
    return max curve.standardFloor curve.emergencyCeiling
  let debt ← demand (liquidity.sub? borrowable) .insolvent
  let standard ← demand (curve.standard? liquidity debt) .overflow
  let emergency ← demand (curve.emergency? liquidity borrowable) .overflow
  return max standard emergency

/-- The interest on the debt over `elapsed` seconds, rounded up. -/
def interest (curve : RateCurve) (liquidity borrowable : Amount) (elapsed : Timestamp) :
    Except Fault Amount := do
  let debt ← demand (liquidity.sub? borrowable) .insolvent
  if elapsed = 0 ∨ debt = 0 then
    return 0
  let rate ← curve.rate liquidity borrowable
  let matured ← demand (rate.mul? (elapsed.widen (by decide))) .overflow
  demand (Rate.charge? debt matured) .overflow

end RateCurve

namespace Pool

/-- What the clock of a pool shows when the host's shows `now`: never less than at the last
charge. -/
def clock (accruedAt now : Timestamp) : Timestamp := max now accruedAt

/-- The interest that the pool owes at `now`, and the time up to which it is then charged. -/
def pending (pool : Pool) (curve : RateCurve) (now : Timestamp) :
    Except Fault (Amount × Timestamp) := do
  let stamp := clock pool.accruedAt now
  let interest ← curve.interest pool.liquidity pool.borrowable (stamp - pool.accruedAt)
  return (interest, stamp)

end Pool

end Lending
