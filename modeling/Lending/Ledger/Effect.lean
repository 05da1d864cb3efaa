import Lending.Action
import Lending.Ledger
import Lending.RateCurve
import Lending.Receipt

/-!
# What actions do to a ledger

An action is applied in two steps: the interest is charged, and the action acts on the ledger that
this leaves. Both are chains of partial steps, so their result is either a whole `Effect` or the
fault that stopped it, and there is no ledger in between. `apply` charges interest that the host
names; `applyAt` charges what a rate curve says is owed at a time, and stamps the pool with that
time.

Most actions change the position of one holder: the caller, or the one whose debt is paid. The
others send shares between two holders or write an allowance.
-/

set_option autoImplicit false

namespace Lending

/-- What an action did, whole. -/
structure Effect where
  /-- What the action did, for the host to settle. -/
  receipt : Receipt
  /-- The interest charged before it. -/
  interest : Amount
  /-- The ledger after it. -/
  ledger : Ledger
deriving DecidableEq

/-- The line of the journal. -/
def Effect.line (e : Effect) : String := e.receipt.line e.interest

namespace Ledger

/-! ## Acting on a ledger whose interest is charged -/

/-- Sends shares from one holder to another. Who sends to himself must hold the shares, and nothing
is written. -/
def send (l : Ledger) (sender recipient : Key) (shares : Amount) : Except Fault Ledger := do
  if recipient = sender then
    require (shares ≤ (l.account sender).shares) .transferExceedsBalance
    return l
  let (left, received) ← (l.account sender).sendShares (l.account recipient) shares
  return (l.setAccount sender left).setAccount recipient received

/-- Sends an owner's shares on the word of a spender, and takes them off what the spender may send.
An owner's shares sent to the owner cost no allowance, though there has to be enough of it. -/
def sendFor (l : Ledger) (spender owner recipient : Key) (shares : Amount) :
    Except Fault Ledger := do
  let remaining ← demand ((l.allowance owner spender).sub? shares) .allowanceExceeded
  let sent ← l.send owner recipient shares
  return if recipient = owner then sent else sent.setAllowance owner spender remaining

/-- Does what the caller asks. -/
def act (l : Ledger) (caller : Key) (action : Action) : Except Fault (Receipt × Ledger) :=
  match action with
  | .deposit amount => do
    let p ← (l.position caller).deposit amount
    return (.deposited amount, l.setPosition caller p)
  | .withdraw amount => do
    let p ← (l.position caller).withdraw amount
    return (.withdrawn amount, l.setPosition caller p)
  | .mint amount => do
    let fee ← l.fees.mintingFee amount
    let (shares, p) ← (l.position caller).mint amount fee
    return (.minted amount shares fee, l.setPosition caller p)
  | .burn shares => do
    let (liquidity, p) ← (l.position caller).burn shares
    return (.burned shares liquidity, l.setPosition caller p)
  | .borrow amount => do
    let fee ← l.fees.borrowingFee amount
    let (bonds, p) ← (l.position caller).borrow amount fee
    return (.borrowed amount bonds fee, l.setPosition caller p)
  | .repay bonds => do
    let (credited, p) ← (l.position caller).repay bonds
    return (.repaid bonds credited, l.setPosition caller p)
  | .liquidate victim cash => do
    let (c, p) ← (l.position victim).liquidate cash
    return (.liquidated victim c.repaid c.burned, l.setPosition victim p)
  | .accrue => return (.accrued l.pool.liquidity, l)
  | .transfer recipient shares => do
    return (.transferred recipient shares, ← l.send caller recipient shares)
  | .repayFor debtor cash => do
    let (c, p) ← (l.position debtor).repayWithCash cash
    return (.repaidFor debtor c.repaid c.burned (cash - c.repaid), l.setPosition debtor p)
  | .approve spender amount =>
    return (.allowanceSet spender amount, l.setAllowance caller spender amount)
  | .raiseAllowance spender delta => do
    let amount ← demand ((l.allowance caller spender).add? delta) .overflow
    return (.allowanceSet spender amount, l.setAllowance caller spender amount)
  | .lowerAllowance spender delta => do
    let amount ← demand ((l.allowance caller spender).sub? delta) .allowanceExceeded
    return (.allowanceSet spender amount, l.setAllowance caller spender amount)
  | .transferFrom owner recipient shares => do
    return (.transferredFrom owner recipient shares, ← l.sendFor caller owner recipient shares)

/-! ## Charging the interest first -/

/-- Charges interest. -/
def accrue (l : Ledger) (interest : Amount) : Except Fault Ledger := do
  return { l with pool := ← l.pool.accrue interest }

/-- Charges the given interest and does what the caller asks. -/
def apply (l : Ledger) (caller : Key) (action : Action) (interest : Amount) :
    Except Fault Effect := do
  let (receipt, after) ← (← l.accrue interest).act caller action
  return { receipt, interest, ledger := after }

/-- Writes the time up to which interest is charged. -/
def stamp (l : Ledger) (time : Timestamp) : Ledger :=
  { l with pool := { l.pool with accruedAt := time } }

/-- Charges the interest owed at `now` and does what the caller asks. -/
def applyAt (l : Ledger) (caller : Key) (action : Action) (curve : RateCurve)
    (now : Timestamp) : Except Fault Effect := do
  let (interest, time) ← l.pool.pending curve now
  let e ← l.apply caller action interest
  return { e with ledger := e.ledger.stamp time }

end Ledger

end Lending
