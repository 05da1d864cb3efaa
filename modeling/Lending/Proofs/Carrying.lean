import Lending.Proofs.Transitions

/-!
# What an action does not read it carries along

An action looks at few of the fields that it could look at. The time stamp is read by none, and
collateral only by the actions that move some. A ledger can therefore have these fields changed
before such an action or after it: the action takes effect on the one ledger if it does on the
other, tells the same, and is refused for the same fault.

The change that is carried along is given on the fields (`Pool.aside`, `Account.aside`), as a
function of each, so a transition can be followed step by step and what it writes be changed as what
it read was. A change of ledgers that is such a change of the totals and of every account
(`Ledger.Carries`) is carried along by whole actions (`Ledger.Carries.act`), whichever holders they
name, and if it leaves the stamp as it is, by requests and histories (`Ledger.Carries.run`).
-/

set_option autoImplicit false

namespace Lending

/-- The totals with their stamp and their collateral changed. -/
def Pool.aside (pool : Pool) (stamp : Timestamp → Timestamp) (total : Amount → Amount) : Pool :=
  { pool with accruedAt := stamp pool.accruedAt, collateral := total pool.collateral }

/-- The account with its collateral changed. -/
def Account.aside (account : Account) (own : Amount → Amount) : Account :=
  { account with collateral := own account.collateral }

/-- The action reads or writes collateral. -/
def Action.MovesCollateral : Action → Prop
  | .deposit _ | .withdraw _ | .liquidate _ _ => True
  | _ => False

/-! ## Transitions -/

theorem Pool.accrue_aside (pool : Pool) (stamp : Timestamp → Timestamp)
    (total : Amount → Amount) (interest : Amount) :
    (pool.aside stamp total).accrue interest = (·.aside stamp total) <$> pool.accrue interest := by
  simp only [accrue, map_bind, map_pure]
  rfl

namespace Position

/-- The position with its stamp and both its collaterals changed. -/
def aside (p : Position) (stamp : Timestamp → Timestamp) (total own : Amount → Amount) :
    Position :=
  ⟨p.pool.aside stamp total, p.account.aside own⟩

variable (p : Position) (stamp : Timestamp → Timestamp) (total own : Amount → Amount)

theorem mint_aside (amount fee : Amount) :
    (p.aside stamp total own).mint amount fee =
      (Prod.map id (·.aside stamp total own)) <$> p.mint amount fee := by
  simp only [mint, map_bind, map_pure]
  rfl

theorem burn_aside (shares : Amount) :
    (p.aside stamp total own).burn shares =
      (Prod.map id (·.aside stamp total own)) <$> p.burn shares := by
  simp only [burn, map_bind, map_pure]
  rfl

theorem borrow_aside (amount fee : Amount) :
    (p.aside stamp total own).borrow amount fee =
      (Prod.map id (·.aside stamp total own)) <$> p.borrow amount fee := by
  simp only [borrow, map_bind, map_pure]
  rfl

theorem repay_aside (bonds : Amount) :
    (p.aside stamp total own).repay bonds =
      (Prod.map id (·.aside stamp total own)) <$> p.repay bonds := by
  simp only [repay, map_bind, map_pure]
  rfl

theorem repayWithCash_aside (cash : Amount) :
    (p.aside stamp total own).repayWithCash cash =
      (Prod.map id (·.aside stamp total own)) <$> p.repayWithCash cash := by
  simp only [repayWithCash, burnConverted, map_bind, map_pure, bind_assoc, pure_bind]
  rfl

end Position

theorem Account.sendShares_aside (sender recipient : Account) (shares : Amount)
    (own own' : Amount → Amount) :
    (sender.aside own).sendShares (recipient.aside own') shares =
      (Prod.map (·.aside own) (·.aside own')) <$> sender.sendShares recipient shares := by
  simp only [sendShares, map_bind, map_pure]
  rfl

/-! ## Actions -/

namespace Ledger

/-- The change of ledgers `f` changes the totals and each account, as told, and nothing else. -/
structure Carries (f : Ledger → Ledger) (stamp : Timestamp → Timestamp)
    (total : Amount → Amount) (own : Key → Amount → Amount) : Prop where
  fees (l : Ledger) : (f l).fees = l.fees
  allowances (l : Ledger) : (f l).allowances = l.allowances
  pool (l : Ledger) : (f l).pool = l.pool.aside stamp total
  account (l : Ledger) (holder : Key) :
    (f l).account holder = (l.account holder).aside (own holder)
  withPool (l : Ledger) (pool : Pool) :
    { f l with pool := pool.aside stamp total } = f { l with pool }
  withAllowances (l : Ledger) (allowances : SortedMap Grant Amount) :
    { f l with allowances } = f { l with allowances }
  withFees (l : Ledger) (fees : FeeSchedule) : (f l).withFees fees = f (l.withFees fees)
  setAccount (l : Ledger) (holder : Key) (a : Account) :
    (f l).setAccount holder (a.aside (own holder)) = f (l.setAccount holder a)

theorem carries_id : Carries id id id fun _ => id where
  fees _ := rfl
  allowances _ := rfl
  pool _ := rfl
  account _ _ := rfl
  withPool _ _ := rfl
  withAllowances _ _ := rfl
  withFees _ _ := rfl
  setAccount _ _ _ := rfl

namespace Carries

variable {f : Ledger → Ledger} {stamp : Timestamp → Timestamp} {total : Amount → Amount}
  {own : Key → Amount → Amount}

theorem position (h : Carries f stamp total own) (l : Ledger) (holder : Key) :
    (f l).position holder = (l.position holder).aside stamp total (own holder) := by
  rw [Ledger.position, h.pool, h.account]
  rfl

theorem setPosition (h : Carries f stamp total own) (l : Ledger) (holder : Key) (p : Position) :
    (f l).setPosition holder (p.aside stamp total (own holder)) = f (l.setPosition holder p) := by
  show { f l with pool := p.pool.aside stamp total }.setAccount holder _ = _
  rw [h.withPool]
  exact h.setAccount { l with pool := p.pool } holder p.account

theorem setAllowance (h : Carries f stamp total own) (l : Ledger) (owner spender : Key)
    (amount : Amount) :
    (f l).setAllowance owner spender amount = f (l.setAllowance owner spender amount) := by
  rw [Ledger.setAllowance, h.allowances]
  exact h.withAllowances l _

theorem allowance (h : Carries f stamp total own) (l : Ledger) (owner spender : Key) :
    (f l).allowance owner spender = l.allowance owner spender := by
  rw [Ledger.allowance, h.allowances]
  rfl

theorem send (h : Carries f stamp total own) (l : Ledger) (sender recipient : Key)
    (shares : Amount) :
    (f l).send sender recipient shares = f <$> l.send sender recipient shares := by
  unfold Ledger.send
  by_cases hself : recipient = sender
  · simp only [if_pos hself, h.account, map_bind, map_pure]
    rfl
  · simp only [if_neg hself, h.account, Account.sendShares_aside, map_bind, map_pure,
      bind_map_left, Prod.map, h.setAccount]

theorem sendFor (h : Carries f stamp total own) (l : Ledger) (spender owner recipient : Key)
    (shares : Amount) :
    (f l).sendFor spender owner recipient shares =
      f <$> l.sendFor spender owner recipient shares := by
  by_cases hself : recipient = owner
  · simp only [Ledger.sendFor, h.allowance, h.send, if_pos hself, map_bind, map_pure,
      bind_map_left]
  · simp only [Ledger.sendFor, h.allowance, h.send, h.setAllowance, if_neg hself, map_bind,
      map_pure, bind_map_left]

/-- An action that moves no collateral carries the change along. -/
theorem act (h : Carries f stamp total own) (l : Ledger) (caller : Key) {action : Action}
    (haction : ¬action.MovesCollateral) :
    (f l).act caller action = (Prod.map id f) <$> l.act caller action := by
  cases action with
  | deposit _ | withdraw _ | liquidate _ _ => exact absurd trivial haction
  | mint amount =>
    simp only [Ledger.act, h.fees, h.position, Position.mint_aside, map_bind, map_pure,
      bind_map_left, Prod.map, h.setPosition]
    rfl
  | burn shares =>
    simp only [Ledger.act, h.position, Position.burn_aside, map_bind, map_pure,
      bind_map_left, Prod.map, h.setPosition]
    rfl
  | borrow amount =>
    simp only [Ledger.act, h.fees, h.position, Position.borrow_aside, map_bind, map_pure,
      bind_map_left, Prod.map, h.setPosition]
    rfl
  | repay bonds =>
    simp only [Ledger.act, h.position, Position.repay_aside, map_bind, map_pure,
      bind_map_left, Prod.map, h.setPosition]
    rfl
  | repayFor debtor cash =>
    simp only [Ledger.act, h.position, Position.repayWithCash_aside, map_bind, map_pure,
      bind_map_left, Prod.map, h.setPosition]
    rfl
  | accrue =>
    simp only [Ledger.act, h.pool, map_pure]
    rfl
  | transfer recipient shares =>
    simp only [Ledger.act, h.send, map_bind, map_pure, bind_map_left]
    rfl
  | transferFrom owner recipient shares =>
    simp only [Ledger.act, h.sendFor, map_bind, map_pure, bind_map_left]
    rfl
  | approve spender amount =>
    simp only [Ledger.act, h.setAllowance, map_pure]
    rfl
  | raiseAllowance spender delta =>
    simp only [Ledger.act, h.allowance, h.setAllowance, map_bind, map_pure]
    rfl
  | lowerAllowance spender delta =>
    simp only [Ledger.act, h.allowance, h.setAllowance, map_bind, map_pure]
    rfl

theorem accrue (h : Carries f stamp total own) (l : Ledger) (interest : Amount) :
    (f l).accrue interest = f <$> l.accrue interest := by
  simp only [Ledger.accrue, h.pool, Pool.accrue_aside, map_bind, map_pure, bind_map_left,
    h.withPool]

theorem apply (h : Carries f stamp total own) (l : Ledger) (caller : Key) {action : Action}
    (haction : ¬action.MovesCollateral) (interest : Amount) :
    (f l).apply caller action interest =
      (fun e => { e with ledger := f e.ledger }) <$> l.apply caller action interest := by
  simp only [Ledger.apply, h.accrue, h.act _ caller haction, map_bind, map_pure, bind_map_left]
  rfl

end Carries

/-! ## Histories

No action reads the stamp, but a request by the clock does. So from here on the change leaves it as
it is. -/

namespace Carries

variable {f : Ledger → Ledger} {total : Amount → Amount} {own : Key → Amount → Amount}

theorem stamp (h : Carries f id total own) (l : Ledger) (time : Timestamp) :
    (f l).stamp time = f (l.stamp time) := by
  rw [Ledger.stamp, h.pool]
  exact h.withPool l { l.pool with accruedAt := time }

theorem attempt (h : Carries f id total own) (l : Ledger) {r : Request}
    (hr : ¬r.action.MovesCollateral) :
    (f l).attempt r = (fun e => { e with ledger := f e.ledger }) <$> l.attempt r := by
  cases r with
  | charging caller action interest => exact h.apply l caller hr interest
  | clocked caller action curve now =>
    have haction : ¬action.MovesCollateral := hr
    simp only [Ledger.attempt, applyAt, h.pool, h.apply l caller haction, map_bind, map_pure, bind_map_left,
      h.stamp]
    rfl

/-- What a host sees of a request that moves no collateral differs by the change. -/
theorem submit (h : Carries f id total own) (l : Ledger) {r : Request}
    (hr : ¬r.action.MovesCollateral) :
    (f l).submit r = { l.submit r with ledger := f (l.submit r).ledger } := by
  rw [Ledger.submit, h.attempt l hr, Ledger.submit]
  cases l.attempt r with
  | ok e => rfl
  | error cause => rfl

theorem after (h : Carries f id total own) (l : Ledger) {s : Step}
    (hs : ∀ r, s = .request r → ¬r.action.MovesCollateral) :
    (f l).after s = f (l.after s) := by
  cases s with
  | request r => exact congrArg Outcome.ledger (h.submit l (hs r rfl))
  | setFees fees => exact h.withFees l fees

/-- A whole history that moves no collateral carries the change along. -/
theorem run (h : Carries f id total own) {steps : List Step}
    (hsteps : ∀ r, .request r ∈ steps → ¬r.action.MovesCollateral) (l : Ledger) :
    (f l).run steps = f (l.run steps) := by
  induction steps generalizing l with
  | nil => rfl
  | cons s rest ih =>
    have hs : (f l).after s = f (l.after s) := by
      refine h.after l fun r hr => hsteps r ?_
      rw [← hr]
      exact List.mem_cons_self
    rw [run_cons, run_cons, hs]
    exact ih (fun r hr => hsteps r (List.mem_cons_of_mem s hr)) (l.after s)

end Carries

end Ledger

end Lending
