import Lending.History

/-!
# Desks: a request handled write by write

What a request does is an `Effect`, whole or not there at all. A host that keeps one ledger in place
does not get it whole. It charges the interest on a copy of the totals, checks the rules of the
action on copies of the accounts, and then writes: the totals, the accounts, for some actions an
allowance, a line of the journal, and the time when it goes by the clock. What is written stays
written, whatever stops it later.

A `Desk` is what such a host writes on, and a `Procedure` is what it goes through. Each action has
its own, and where the receipt tells what was traded, it tells the difference of the records before
and after, which is one thing more that can fail. That nothing fails after the first write is not in
the form of a procedure. It is in the order of its steps.
-/

set_option autoImplicit false

namespace Lending

/-- A ledger, and the journal beside it. -/
structure Desk where
  /-- The ledger as it stands. -/
  ledger : Ledger
  /-- The lines written so far. -/
  journal : List String

/-- A program that writes on a desk. If it stops at a fault, the desk is left as it stands then. -/
abbrev Procedure := EStateM Fault Desk

namespace Procedure

/-! ## The steps of a procedure -/

/-- Stops at the fault of a rule, if it has one. -/
def check {α : Type} (rule : Except Fault α) : Procedure α := ofExcept rule

/-- Writes the totals, and the accounts one after the other. -/
def commit (pool : Pool) (accounts : List (Key × Account)) : Procedure Unit :=
  modify fun d =>
    { d with
      ledger := accounts.foldl (fun l e => l.setAccount e.1 e.2) { d.ledger with pool } }

/-- Writes the shares of `owner` that `spender` may still send. -/
def setAllowance (owner spender : Key) (amount : Amount) : Procedure Unit :=
  modify fun d => { d with ledger := d.ledger.setAllowance owner spender amount }

/-- Writes the time up to which interest is charged. -/
def stamp (time : Timestamp) : Procedure Unit :=
  modify fun d => { d with ledger := d.ledger.stamp time }

/-- Writes the line of a receipt and hands it over. -/
def report (interest : Amount) (receipt : Receipt) : Procedure Receipt := do
  modify fun d => { d with journal := d.journal ++ [receipt.line interest] }
  return receipt

/-! ## Requests -/

/-- Charges the given interest and does what the caller asks. -/
def charging (caller : Key) (action : Action) (interest : Amount) : Procedure Receipt := do
  let l := (← get).ledger
  let pool ← check (l.pool.accrue interest)
  let account := l.account caller
  match action with
  | .deposit amount => do
    let after ← check (Position.deposit ⟨pool, account⟩ amount)
    commit after.pool [(caller, after.account)]
    report interest (.deposited amount)
  | .withdraw amount => do
    let after ← check (Position.withdraw ⟨pool, account⟩ amount)
    commit after.pool [(caller, after.account)]
    report interest (.withdrawn amount)
  | .mint amount => do
    let fee ← check (l.fees.mintingFee amount)
    let (_, after) ← check (Position.mint ⟨pool, account⟩ amount fee)
    let shares ← check (demand (after.account.shares.sub? account.shares) .underflow)
    commit after.pool [(caller, after.account)]
    report interest (.minted amount shares fee)
  | .burn shares => do
    let (_, after) ← check (Position.burn ⟨pool, account⟩ shares)
    let redeemed ← check (demand (pool.liquidity.sub? after.pool.liquidity) .underflow)
    commit after.pool [(caller, after.account)]
    report interest (.burned shares redeemed)
  | .borrow amount => do
    let fee ← check (l.fees.borrowingFee amount)
    let (_, after) ← check (Position.borrow ⟨pool, account⟩ amount fee)
    let bonds ← check (demand (after.account.bonds.sub? account.bonds) .underflow)
    commit after.pool [(caller, after.account)]
    report interest (.borrowed amount bonds fee)
  | .repay bonds => do
    let (_, after) ← check (Position.repay ⟨pool, account⟩ bonds)
    let credited ← check (demand (after.pool.borrowable.sub? pool.borrowable) .underflow)
    commit after.pool [(caller, after.account)]
    report interest (.repaid bonds credited)
  | .liquidate victim cash => do
    let (c, after) ← check (Position.liquidate ⟨pool, l.account victim⟩ cash)
    commit after.pool [(victim, after.account)]
    report interest (.liquidated victim c.repaid c.burned)
  | .accrue => do
    commit pool []
    report interest (.accrued pool.liquidity)
  | .transfer recipient shares => do
    if recipient = caller then
      check (require (shares ≤ account.shares) .transferExceedsBalance)
      commit pool []
    else
      let (left, received) ← check (account.sendShares (l.account recipient) shares)
      commit pool [(caller, left), (recipient, received)]
    report interest (.transferred recipient shares)
  | .repayFor debtor cash => do
    let (c, after) ← check (Position.repayWithCash ⟨pool, l.account debtor⟩ cash)
    let unspent ← check (demand (cash.sub? c.repaid) .underflow)
    commit after.pool [(debtor, after.account)]
    report interest (.repaidFor debtor c.repaid c.burned unspent)
  | .approve spender amount => do
    commit pool []
    setAllowance caller spender amount
    report interest (.allowanceSet spender amount)
  | .raiseAllowance spender delta => do
    let amount ← check (demand ((l.allowance caller spender).add? delta) .overflow)
    commit pool []
    setAllowance caller spender amount
    report interest (.allowanceSet spender amount)
  | .lowerAllowance spender delta => do
    let amount ← check (demand ((l.allowance caller spender).sub? delta) .allowanceExceeded)
    commit pool []
    setAllowance caller spender amount
    report interest (.allowanceSet spender amount)
  | .transferFrom owner recipient shares => do
    let remaining ← check (demand ((l.allowance owner caller).sub? shares) .allowanceExceeded)
    if recipient = owner then
      check (require (shares ≤ (l.account owner).shares) .transferExceedsBalance)
      commit pool []
    else
      let (left, received) ← check ((l.account owner).sendShares (l.account recipient) shares)
      commit pool [(owner, left), (recipient, received)]
      setAllowance owner caller remaining
    report interest (.transferredFrom owner recipient shares)

/-- Charges the interest owed at `now`, does what the caller asks, and stamps the ledger last. -/
def clocked (caller : Key) (action : Action) (curve : RateCurve) (now : Timestamp) :
    Procedure Receipt := do
  let (interest, time) ← check ((← get).ledger.pool.pending curve now)
  let receipt ← charging caller action interest
  stamp time
  return receipt

/-- What a host goes through for a request. -/
def ofRequest : Request → Procedure Receipt
  | .charging caller action interest => charging caller action interest
  | .clocked caller action curve now => clocked caller action curve now

end Procedure

namespace Desk

/-- Handles a request: the receipt or the fault, and the desk as it stands then. -/
def handle (d : Desk) (r : Request) : EStateM.Result Fault Desk Receipt :=
  (Procedure.ofRequest r).run d

/-- The desk after a request, whether it took effect or not. -/
def after (d : Desk) (r : Request) : Desk :=
  match d.handle r with
  | .ok _ left | .error _ left => left

/-- The desk after all requests. -/
def serve (d : Desk) (requests : List Request) : Desk := requests.foldl after d

end Desk

end Lending
