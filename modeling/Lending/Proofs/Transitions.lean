import Lending.History
import Lending.Position.Lemmas

/-!
# What an action that took effect did

`Ledger.act` answers every action with one chain of partial steps, and a proof that opened the
chain would meet every step of it, the failing ones included. This file opens it once. What is left
of an action that took effect is one of few things:

* a *trade* of one holder with the pool (`Position.Trades`): a single transition, on a single
  position, which is then written back;
* shares sent between two holders, in the sender's name or on an allowance;
* an allowance written, or nothing.

`Ledger.acts_of_act` says so for `act`, and `Ledger.exists_of_attempt` for a request of either kind:
the interest that the request is due is charged, the action acts, and the ledger is stamped. A
request that names its interest leaves the stamp as it was, so the two kinds differ in what is due
(`Ledger.due`) and in nothing else.
-/

set_option autoImplicit false

namespace Lending

/-- Whose position an action changes, if it changes one: the debtor's where a debt is paid for
somebody, and the caller's otherwise. -/
def Action.holder (caller : Key) : Action → Key
  | .liquidate victim _ => victim
  | .repayFor debtor _ => debtor
  | _ => caller

/-- The action changes one position, the one of its holder. -/
def Action.IsTrade : Action → Prop
  | .accrue | .transfer _ _ | .transferFrom _ _ _ => False
  | .approve _ _ | .raiseAllowance _ _ | .lowerAllowance _ _ => False
  | _ => True

/-! ## Trades -/

namespace Position

/-- An action that changes one position, its receipt, and the position that it leaves. -/
inductive Trades (fees : FeeSchedule) (p : Position) : Action → Receipt → Position → Prop
  | deposit {amount : Amount} {q : Position} (h : p.deposit amount = .ok q) :
      Trades fees p (.deposit amount) (.deposited amount) q
  | withdraw {amount : Amount} {q : Position} (h : p.withdraw amount = .ok q) :
      Trades fees p (.withdraw amount) (.withdrawn amount) q
  | mint {amount fee shares : Amount} {q : Position} (hfee : fees.mintingFee amount = .ok fee)
      (h : p.mint amount fee = .ok (shares, q)) :
      Trades fees p (.mint amount) (.minted amount shares fee) q
  | burn {shares liquidity : Amount} {q : Position} (h : p.burn shares = .ok (liquidity, q)) :
      Trades fees p (.burn shares) (.burned shares liquidity) q
  | borrow {amount fee bonds : Amount} {q : Position} (hfee : fees.borrowingFee amount = .ok fee)
      (h : p.borrow amount fee = .ok (bonds, q)) :
      Trades fees p (.borrow amount) (.borrowed amount bonds fee) q
  | repay {bonds credited : Amount} {q : Position} (h : p.repay bonds = .ok (credited, q)) :
      Trades fees p (.repay bonds) (.repaid bonds credited) q
  | liquidate {victim : Key} {cash : Amount} {c : Conversion 128} {q : Position}
      (h : p.liquidate cash = .ok (c, q)) :
      Trades fees p (.liquidate victim cash) (.liquidated victim c.repaid c.burned) q
  | repayFor {debtor : Key} {cash : Amount} {c : Conversion 128} {q : Position}
      (h : p.repayWithCash cash = .ok (c, q)) :
      Trades fees p (.repayFor debtor cash)
        (.repaidFor debtor c.repaid c.burned (cash - c.repaid)) q

variable {p q : Position} {cash : Amount} {c : Conversion 128}

/-- A conversion that is paid for retires the debtor's bonds and nothing else. -/
theorem exists_of_repayWithCash (h : p.repayWithCash cash = .ok (c, q)) :
    p.pool.convert cash p.account.bonds = .ok c ∧ c.repaid ≤ cash ∧
      ∃ borrowable own total : Amount,
        borrowable.toNat = p.pool.borrowable.toNat + c.repaid.toNat ∧
        borrowable ≤ p.pool.liquidity ∧
        own.toNat + c.burned.toNat = p.account.bonds.toNat ∧
        total.toNat + c.burned.toNat = p.pool.bonds.toNat ∧
        q = ⟨{ p.pool with bonds := total, borrowable }, { p.account with bonds := own }⟩ := by
  obtain ⟨hc, hb⟩ := repayWithCash_eq_ok_iff.mp h
  obtain ⟨hcash, borrowable, own, total, h₁, hle, h₂, h₃, -, hq⟩ := burnConverted_eq_ok_iff.mp hb
  exact ⟨hc, hcash, borrowable, own, total, h₁, hle, h₂, h₃, hq⟩

/-- A liquidation is that, and what it cost is taken out of the collateral as well. -/
theorem exists_of_liquidate (h : p.liquidate cash = .ok (c, q)) :
    p.pool.convert cash p.account.bonds = .ok c ∧
      ∃ borrowable own total ownCollateral collateral : Amount,
        borrowable.toNat = p.pool.borrowable.toNat + c.repaid.toNat ∧
        borrowable ≤ p.pool.liquidity ∧
        own.toNat + c.burned.toNat = p.account.bonds.toNat ∧
        total.toNat + c.burned.toNat = p.pool.bonds.toNat ∧
        ownCollateral.toNat + c.repaid.toNat = p.account.collateral.toNat ∧
        collateral.toNat + c.repaid.toNat = p.pool.collateral.toNat ∧
        q = ⟨{ p.pool with collateral, bonds := total, borrowable },
          { p.account with collateral := ownCollateral, bonds := own }⟩ := by
  obtain ⟨-, mid, hmid, ownCollateral, collateral, h₄, h₅, rfl⟩ := liquidate_eq_ok_iff.mp h
  obtain ⟨hc, -, borrowable, own, total, h₁, hle, h₂, h₃, rfl⟩ := exists_of_repayWithCash hmid
  exact ⟨hc, borrowable, own, total, ownCollateral, collateral, h₁, hle, h₂, h₃, h₄, h₅, rfl⟩

/-- No trade moves the clock of the pool, or writes what nothing reads. -/
theorem Trades.frame {fees : FeeSchedule} {action : Action} {r : Receipt}
    (h : p.Trades fees action r q) :
    q.pool.accruedAt = p.pool.accruedAt ∧ q.pool.reserved = p.pool.reserved := by
  cases h with
  | deposit h =>
    obtain ⟨_, _, -, -, rfl⟩ := deposit_eq_ok_iff.mp h
    exact ⟨rfl, rfl⟩
  | withdraw h =>
    obtain ⟨_, _, -, -, rfl⟩ := withdraw_eq_ok_iff.mp h
    exact ⟨rfl, rfl⟩
  | mint _ h =>
    obtain ⟨-, _, _, _, _, -, -, -, -, rfl⟩ := mint_eq_ok_iff.mp h
    exact ⟨rfl, rfl⟩
  | burn h =>
    obtain ⟨-, _, _, _, _, -, -, -, -, rfl⟩ := burn_eq_ok_iff.mp h
    exact ⟨rfl, rfl⟩
  | borrow _ h =>
    obtain ⟨_, -, -, _, _, _, -, -, -, rfl⟩ := borrow_eq_ok_iff.mp h
    exact ⟨rfl, rfl⟩
  | repay h =>
    obtain ⟨-, _, _, _, -, -, -, -, rfl⟩ := repay_eq_ok_iff.mp h
    exact ⟨rfl, rfl⟩
  | liquidate h =>
    obtain ⟨-, _, _, _, _, _, -, -, -, -, -, -, rfl⟩ := exists_of_liquidate h
    exact ⟨rfl, rfl⟩
  | repayFor h =>
    obtain ⟨-, -, _, _, _, -, -, -, -, rfl⟩ := exists_of_repayWithCash h
    exact ⟨rfl, rfl⟩

end Position

/-! ## Actions on a ledger -/

namespace Ledger

variable {l after : Ledger}

@[simp] theorem pool_setPosition (l : Ledger) (holder : Key) (p : Position) :
    (l.setPosition holder p).pool = p.pool := rfl

theorem account_setPosition (l : Ledger) (holder other : Key) (p : Position) :
    (l.setPosition holder p).account other =
      if other = holder then p.account else l.account other :=
  account_setAccount { l with pool := p.pool } holder other p.account

theorem position_setPosition (l : Ledger) (holder : Key) (p : Position) :
    (l.setPosition holder p).position holder = p := by
  rw [position, account_setPosition, if_pos rfl, pool_setPosition]

/-- Shares that were sent were held. A sender who is also the recipient keeps them, and two holders
otherwise divide them anew. -/
theorem exists_of_send {sender recipient : Key} {shares : Amount}
    (h : l.send sender recipient shares = .ok after) :
    (recipient = sender ∧ after = l) ∨
      (recipient ≠ sender ∧ ∃ left received : Amount,
        left.toNat + shares.toNat = (l.account sender).shares.toNat ∧
        received.toNat = (l.account recipient).shares.toNat + shares.toNat ∧
        after = (l.setAccount sender { l.account sender with shares := left }).setAccount
          recipient { l.account recipient with shares := received }) := by
  unfold send at h
  by_cases hself : recipient = sender
  · rw [if_pos hself] at h
    simp only [bind_eq_ok_iff, require_eq_ok_iff, pure_eq_ok_iff] at h
    obtain ⟨-, -, hl⟩ := h
    exact .inl ⟨hself, hl.symm⟩
  · rw [if_neg hself] at h
    simp only [Account.sendShares, bind_eq_ok_iff, demand_eq_ok_iff, Quantity.sub?_eq_some_iff,
      Quantity.add?_eq_some_iff, pure_eq_ok_iff] at h
    obtain ⟨_, ⟨left, hleft, received, hreceived, rfl⟩, rfl⟩ := h
    exact .inr ⟨hself, left, received, hleft, hreceived, rfl⟩

/-- To send shares writes accounts and nothing else. -/
theorem exists_accounts_of_send {sender recipient : Key} {shares : Amount}
    (h : l.send sender recipient shares = .ok after) :
    ∃ accounts, after = { l with accounts } := by
  rcases exists_of_send h with ⟨-, rfl⟩ | ⟨-, left, received, -, -, rfl⟩
  · exact ⟨_, rfl⟩
  · exact ⟨_, rfl⟩

/-- Shares that were sent on an allowance were allowed and sent, and came off the allowance unless
they were sent to their owner. -/
theorem sendFor_eq_ok_iff {spender owner recipient : Key} {shares : Amount} :
    l.sendFor spender owner recipient shares = .ok after ↔
      ∃ (remaining : Amount) (sent : Ledger),
        remaining.toNat + shares.toNat = (l.allowance owner spender).toNat ∧
        l.send owner recipient shares = .ok sent ∧
        after = if recipient = owner then sent else sent.setAllowance owner spender remaining := by
  simp only [sendFor, bind_eq_ok_iff, demand_eq_ok_iff, Quantity.sub?_eq_some_iff, pure_eq_ok_iff]
  simp only [eq_comm (a := after), exists_and_left]

theorem exists_of_sendFor {spender owner recipient : Key} {shares : Amount}
    (h : l.sendFor spender owner recipient shares = .ok after) :
    ∃ sent, l.send owner recipient shares = .ok sent ∧ after.pool = sent.pool ∧
      after.accounts = sent.accounts ∧ after.fees = sent.fees := by
  obtain ⟨remaining, sent, -, hsent, rfl⟩ := sendFor_eq_ok_iff.mp h
  refine ⟨sent, hsent, ?_⟩
  by_cases hself : recipient = owner
  · rw [if_pos hself]
    exact ⟨rfl, rfl, rfl⟩
  · rw [if_neg hself]
    exact ⟨rfl, rfl, rfl⟩

/-- An action that took effect, its receipt, and the ledger that it leaves. -/
inductive Acts (l : Ledger) (caller : Key) : Action → Receipt → Ledger → Prop
  | trade {action : Action} {r : Receipt} {q : Position}
      (h : (l.position (action.holder caller)).Trades l.fees action r q) :
      Acts l caller action r (l.setPosition (action.holder caller) q)
  | accrue : Acts l caller .accrue (.accrued l.pool.liquidity) l
  | transfer {recipient : Key} {shares : Amount} {after : Ledger}
      (h : l.send caller recipient shares = .ok after) :
      Acts l caller (.transfer recipient shares) (.transferred recipient shares) after
  | transferFrom {owner recipient : Key} {shares : Amount} {after : Ledger}
      (h : l.sendFor caller owner recipient shares = .ok after) :
      Acts l caller (.transferFrom owner recipient shares)
        (.transferredFrom owner recipient shares) after
  | approve {spender : Key} {amount : Amount} :
      Acts l caller (.approve spender amount) (.allowanceSet spender amount)
        (l.setAllowance caller spender amount)
  | raiseAllowance {spender : Key} {delta amount : Amount}
      (h : amount.toNat = (l.allowance caller spender).toNat + delta.toNat) :
      Acts l caller (.raiseAllowance spender delta) (.allowanceSet spender amount)
        (l.setAllowance caller spender amount)
  | lowerAllowance {spender : Key} {delta amount : Amount}
      (h : amount.toNat + delta.toNat = (l.allowance caller spender).toNat) :
      Acts l caller (.lowerAllowance spender delta) (.allowanceSet spender amount)
        (l.setAllowance caller spender amount)

theorem acts_of_act {caller : Key} {action : Action} {r : Receipt}
    (h : l.act caller action = .ok (r, after)) : l.Acts caller action r after := by
  cases action with
  | deposit amount =>
    simp only [act, bind_eq_ok_iff, pure_eq_ok_iff, Prod.mk.injEq] at h
    obtain ⟨q, hq, rfl, rfl⟩ := h
    exact .trade (.deposit hq)
  | withdraw amount =>
    simp only [act, bind_eq_ok_iff, pure_eq_ok_iff, Prod.mk.injEq] at h
    obtain ⟨q, hq, rfl, rfl⟩ := h
    exact .trade (.withdraw hq)
  | mint amount =>
    simp only [act, bind_eq_ok_iff, pure_eq_ok_iff, Prod.mk.injEq] at h
    obtain ⟨fee, hfee, ⟨shares, q⟩, hq, rfl, rfl⟩ := h
    exact .trade (.mint hfee hq)
  | burn shares =>
    simp only [act, bind_eq_ok_iff, pure_eq_ok_iff, Prod.mk.injEq] at h
    obtain ⟨⟨liquidity, q⟩, hq, rfl, rfl⟩ := h
    exact .trade (.burn hq)
  | borrow amount =>
    simp only [act, bind_eq_ok_iff, pure_eq_ok_iff, Prod.mk.injEq] at h
    obtain ⟨fee, hfee, ⟨bonds, q⟩, hq, rfl, rfl⟩ := h
    exact .trade (.borrow hfee hq)
  | repay bonds =>
    simp only [act, bind_eq_ok_iff, pure_eq_ok_iff, Prod.mk.injEq] at h
    obtain ⟨⟨credited, q⟩, hq, rfl, rfl⟩ := h
    exact .trade (.repay hq)
  | liquidate victim cash =>
    simp only [act, bind_eq_ok_iff, pure_eq_ok_iff, Prod.mk.injEq] at h
    obtain ⟨⟨c, q⟩, hq, rfl, rfl⟩ := h
    exact .trade (.liquidate hq)
  | repayFor debtor cash =>
    simp only [act, bind_eq_ok_iff, pure_eq_ok_iff, Prod.mk.injEq] at h
    obtain ⟨⟨c, q⟩, hq, rfl, rfl⟩ := h
    exact .trade (.repayFor hq)
  | accrue =>
    simp only [act, pure_eq_ok_iff, Prod.mk.injEq] at h
    obtain ⟨rfl, rfl⟩ := h
    exact .accrue
  | transfer recipient shares =>
    simp only [act, bind_eq_ok_iff, pure_eq_ok_iff, Prod.mk.injEq] at h
    obtain ⟨sent, hsent, rfl, rfl⟩ := h
    exact .transfer hsent
  | transferFrom owner recipient shares =>
    simp only [act, bind_eq_ok_iff, pure_eq_ok_iff, Prod.mk.injEq] at h
    obtain ⟨sent, hsent, rfl, rfl⟩ := h
    exact .transferFrom hsent
  | approve spender amount =>
    simp only [act, pure_eq_ok_iff, Prod.mk.injEq] at h
    obtain ⟨rfl, rfl⟩ := h
    exact .approve
  | raiseAllowance spender delta =>
    simp only [act, bind_eq_ok_iff, demand_eq_ok_iff, Quantity.add?_eq_some_iff, pure_eq_ok_iff,
      Prod.mk.injEq] at h
    obtain ⟨amount, hamount, rfl, rfl⟩ := h
    exact .raiseAllowance hamount
  | lowerAllowance spender delta =>
    simp only [act, bind_eq_ok_iff, demand_eq_ok_iff, Quantity.sub?_eq_some_iff, pure_eq_ok_iff,
      Prod.mk.injEq] at h
    obtain ⟨amount, hamount, rfl, rfl⟩ := h
    exact .lowerAllowance hamount

theorem Acts.exists_trade {caller : Key} {action : Action} {r : Receipt}
    (h : l.Acts caller action r after) (htrade : action.IsTrade) :
    ∃ q, (l.position (action.holder caller)).Trades l.fees action r q ∧
      after = l.setPosition (action.holder caller) q := by
  cases h with
  | trade h => exact ⟨_, h, rfl⟩
  | accrue | transfer _ | transferFrom _ | approve | raiseAllowance _ | lowerAllowance _ =>
    cases htrade

/-- What is not a trade leaves the totals of the pool alone. -/
theorem pool_of_send {sender recipient : Key} {shares : Amount}
    (h : l.send sender recipient shares = .ok after) : after.pool = l.pool := by
  obtain ⟨accounts, rfl⟩ := exists_accounts_of_send h
  rfl

theorem pool_of_sendFor {spender owner recipient : Key} {shares : Amount}
    (h : l.sendFor spender owner recipient shares = .ok after) : after.pool = l.pool := by
  obtain ⟨sent, hsent, hpool, -, -⟩ := exists_of_sendFor h
  exact hpool.trans (pool_of_send hsent)

/-- The totals after an action are those of a trade, or those of before. -/
theorem Acts.pool_cases {caller : Key} {action : Action} {r : Receipt}
    (h : l.Acts caller action r after) :
    (∃ q, (l.position (action.holder caller)).Trades l.fees action r q ∧ after.pool = q.pool) ∨
      after.pool = l.pool := by
  cases h with
  | trade h => exact .inl ⟨_, h, rfl⟩
  | transfer h => exact .inr (pool_of_send h)
  | transferFrom h => exact .inr (pool_of_sendFor h)
  | accrue | approve | raiseAllowance _ | lowerAllowance _ => exact .inr rfl

theorem Acts.accruedAt_eq {caller : Key} {action : Action} {r : Receipt}
    (h : l.Acts caller action r after) : after.pool.accruedAt = l.pool.accruedAt := by
  rcases h.pool_cases with ⟨q, hq, hpool⟩ | hpool
  · rw [hpool]
    exact hq.frame.1
  · rw [hpool]

/-! ## Requests -/

/-- The interest that a request is to charge on the ledger, and the time up to which interest is
charged then. -/
def due (l : Ledger) : Request → Except Fault (Amount × Timestamp)
  | .charging _ _ interest => .ok (interest, l.pool.accruedAt)
  | .clocked _ _ curve now => l.pool.pending curve now

theorem accrue_eq_ok_iff {interest : Amount} :
    l.accrue interest = .ok after ↔ ∃ liquidity : Amount,
      liquidity.toNat = l.pool.liquidity.toNat + interest.toNat ∧
        after = { l with pool := { l.pool with liquidity } } := by
  simp only [accrue, bind_eq_ok_iff, Pool.accrue_eq_ok_iff, pure_eq_ok_iff]
  refine ⟨?_, ?_⟩
  · intro h
    obtain ⟨_, ⟨liquidity, hl, rfl⟩, rfl⟩ := h
    exact ⟨liquidity, hl, rfl⟩
  · intro h
    obtain ⟨liquidity, hl, rfl⟩ := h
    exact ⟨_, ⟨liquidity, hl, rfl⟩, rfl⟩

theorem exists_of_apply {caller : Key} {action : Action} {interest : Amount} {e : Effect}
    (h : l.apply caller action interest = .ok e) :
    e.interest = interest ∧ ∃ charged, l.accrue interest = .ok charged ∧
      charged.Acts caller action e.receipt e.ledger := by
  simp only [apply, bind_eq_ok_iff, pure_eq_ok_iff] at h
  obtain ⟨charged, hcharged, ⟨receipt, after⟩, hact, rfl⟩ := h
  exact ⟨rfl, charged, hcharged, acts_of_act hact⟩

theorem accrue_zero (l : Ledger) : l.accrue 0 = .ok l :=
  accrue_eq_ok_iff.mpr ⟨l.pool.liquidity, rfl, rfl⟩

/-- Without interest the action meets the ledger as it is. -/
theorem acts_of_apply {caller : Key} {action : Action} {e : Effect}
    (h : l.apply caller action 0 = .ok e) : l.Acts caller action e.receipt e.ledger := by
  obtain ⟨-, charged, hcharged, hacts⟩ := exists_of_apply h
  rw [accrue_zero] at hcharged
  cases hcharged
  exact hacts

/-- What is charged and acted on by one request, from the ledger that the charge leaves. -/
theorem apply_of_accrue {charged : Ledger} {caller : Key} {action : Action} {interest : Amount}
    (h : l.accrue interest = .ok charged) :
    l.apply caller action interest =
      (fun x => ⟨x.1, interest, x.2⟩) <$> charged.act caller action := by
  rw [apply, h]
  rfl

theorem apply_of_act {caller : Key} {action : Action} {r : Receipt}
    (h : l.act caller action = .ok (r, after)) : l.apply caller action 0 = .ok ⟨r, 0, after⟩ := by
  rw [apply_of_accrue (accrue_zero l), h]
  rfl

/-- A request that took effect charged what was due, acted, and stamped the ledger. -/
theorem exists_of_attempt {r : Request} {e : Effect} (h : l.attempt r = .ok e) :
    ∃ time charged acted, l.due r = .ok (e.interest, time) ∧ l.accrue e.interest = .ok charged ∧
      charged.Acts r.caller r.action e.receipt acted ∧ e.ledger = acted.stamp time := by
  cases r with
  | charging caller action interest =>
    obtain ⟨rfl, charged, hcharged, hacts⟩ := exists_of_apply h
    refine ⟨l.pool.accruedAt, charged, e.ledger, rfl, hcharged, hacts, ?_⟩
    -- Neither the charge nor the action moves the clock, so the stamp writes what is there.
    have hclock : e.ledger.pool.accruedAt = l.pool.accruedAt := by
      obtain ⟨_, -, rfl⟩ := accrue_eq_ok_iff.mp hcharged
      exact hacts.accruedAt_eq
    rw [← hclock]
    rfl
  | clocked caller action curve now =>
    simp only [attempt, applyAt, bind_eq_ok_iff, pure_eq_ok_iff] at h
    obtain ⟨⟨interest, time⟩, hdue, e', he', rfl⟩ := h
    obtain ⟨rfl, charged, hcharged, hacts⟩ := exists_of_apply he'
    exact ⟨time, charged, e'.ledger, hdue, hcharged, hacts, rfl⟩

/-- A request leaves the ledger of its effect, or the ledger as it was. -/
theorem ledger_submit (l : Ledger) (r : Request) :
    (∃ e, l.attempt r = .ok e ∧ (l.submit r).ledger = e.ledger) ∨
      ((∃ f, l.attempt r = .error f) ∧ (l.submit r).ledger = l) := by
  cases hr : l.attempt r with
  | ok e => exact .inl ⟨e, rfl, by simp only [submit, commit, hr]⟩
  | error f => exact .inr ⟨⟨f, rfl⟩, by simp only [submit, commit, hr]⟩

/-! ## Invariants -/

/-- A property of ledgers that each part of a step keeps: the charge of interest, the action, the
stamp, and the change of fees. -/
structure Kept (P : Ledger → Prop) : Prop where
  accrue {l charged : Ledger} {interest : Amount} (hl : P l)
    (h : l.accrue interest = .ok charged) : P charged
  act {l acted : Ledger} {caller : Key} {action : Action} {r : Receipt} (hl : P l)
    (h : l.Acts caller action r acted) : P acted
  stamp {l : Ledger} (time : Timestamp) (hl : P l) : P (l.stamp time)
  withFees {l : Ledger} (fees : FeeSchedule) (hl : P l) : P (l.withFees fees)

namespace Kept

variable {P : Ledger → Prop}

theorem attempt (hP : Kept P) (hl : P l) {r : Request} {e : Effect} (h : l.attempt r = .ok e) :
    P e.ledger := by
  obtain ⟨time, charged, acted, -, hcharged, hacts, hstamp⟩ := exists_of_attempt h
  rw [hstamp]
  exact hP.stamp time (hP.act (hP.accrue hl hcharged) hacts)

theorem submit (hP : Kept P) (hl : P l) (r : Request) : P (l.submit r).ledger := by
  rcases ledger_submit l r with ⟨e, he, hledger⟩ | ⟨-, hledger⟩
  · rw [hledger]
    exact hP.attempt hl he
  · rw [hledger]
    exact hl

/-- What each part of a step keeps holds at the end of every history that starts with it. -/
theorem run (hP : Kept P) (hl : P l) (steps : List Step) : P (l.run steps) := by
  refine run_induction ?_ steps l hl
  intro l s hl
  cases s with
  | request r => exact hP.submit hl r
  | setFees fees => exact hP.withFees fees hl

end Kept

end Ledger

end Lending
