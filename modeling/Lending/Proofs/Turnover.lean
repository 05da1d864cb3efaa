import Lending.Proofs.Sums

/-!
# Turnover: what receipts say was moved

A pool moves no money, so its host knows what an action moved from the receipt alone. A `Turnover`
is what the host writes down: each amount that a receipt tells, under its kind, with the interest of
the action. Turnovers are added kind by kind, so a list of receipts has one too.

The totals of a pool follow their turnover exactly. That is `Settles`, five equations of natural
numbers with what came in on the right and what went out on the left, and it is proved once for each
kind of action (`Position.Trades.settles`). The account of a trade follows the same turnover by the
same equations, which is why the accounts go on summing to the totals (`Ledger.Acts.balanced`).
-/

set_option autoImplicit false

namespace Lending

/-- Amounts that were moved, each under its kind. -/
structure Turnover where
  /-- Collateral put up. -/
  deposited : Nat := 0
  /-- Collateral taken back. -/
  withdrawn : Nat := 0
  /-- Collateral seized to pay a debt. -/
  seized : Nat := 0
  /-- Liquidity paid in for new shares, with its fee. -/
  supplied : Nat := 0
  /-- Liquidity paid out for old shares. -/
  redeemed : Nat := 0
  /-- Liquidity paid out to borrowers. -/
  lent : Nat := 0
  /-- Fees on loans, which are owed and not paid out. -/
  lendingFees : Nat := 0
  /-- Debt paid for bonds at their worth. -/
  credited : Nat := 0
  /-- Debt paid with cash from outside. -/
  spent : Nat := 0
  /-- Shares minted. -/
  sharesMinted : Nat := 0
  /-- Shares burned. -/
  sharesBurned : Nat := 0
  /-- Bonds assigned to borrowers. -/
  bondsAssigned : Nat := 0
  /-- Bonds retired at their worth. -/
  bondsRetired : Nat := 0
  /-- Bonds burned against collateral or cash. -/
  bondsConverted : Nat := 0
  /-- Interest charged. -/
  interest : Nat := 0

/-- Two turnovers together, kind by kind. -/
def Turnover.add (t u : Turnover) : Turnover where
  deposited := t.deposited + u.deposited
  withdrawn := t.withdrawn + u.withdrawn
  seized := t.seized + u.seized
  supplied := t.supplied + u.supplied
  redeemed := t.redeemed + u.redeemed
  lent := t.lent + u.lent
  lendingFees := t.lendingFees + u.lendingFees
  credited := t.credited + u.credited
  spent := t.spent + u.spent
  sharesMinted := t.sharesMinted + u.sharesMinted
  sharesBurned := t.sharesBurned + u.sharesBurned
  bondsAssigned := t.bondsAssigned + u.bondsAssigned
  bondsRetired := t.bondsRetired + u.bondsRetired
  bondsConverted := t.bondsConverted + u.bondsConverted
  interest := t.interest + u.interest

/-- What a receipt says was moved. -/
def Receipt.turnover : Receipt → Turnover
  | .deposited amount => { deposited := amount.toNat }
  | .withdrawn amount => { withdrawn := amount.toNat }
  | .minted liquidity shares fee =>
    { supplied := liquidity.toNat + fee.toNat, sharesMinted := shares.toNat }
  | .burned shares liquidity =>
    { redeemed := liquidity.toNat, sharesBurned := shares.toNat }
  | .borrowed liquidity bonds fee =>
    { lent := liquidity.toNat, lendingFees := fee.toNat, bondsAssigned := bonds.toNat }
  | .repaid bonds credited => { credited := credited.toNat, bondsRetired := bonds.toNat }
  | .liquidated _ seized bonds => { seized := seized.toNat, bondsConverted := bonds.toNat }
  | .repaidFor _ spent bonds _ => { spent := spent.toNat, bondsConverted := bonds.toNat }
  | .accrued _ | .transferred _ _ | .allowanceSet _ _ | .transferredFrom _ _ _ => {}

/-- What an action moved, its interest included. -/
def Effect.turnover (e : Effect) : Turnover :=
  { e.receipt.turnover with interest := e.interest.toNat }

/-- The totals differ by what was moved. -/
structure Pool.Settles (before after : Pool) (t : Turnover) : Prop where
  collateral : after.collateral.toNat + t.withdrawn + t.seized =
    before.collateral.toNat + t.deposited
  liquidity : after.liquidity.toNat + t.redeemed =
    before.liquidity.toNat + t.supplied + t.interest
  borrowable : after.borrowable.toNat + t.redeemed + t.lent + t.lendingFees =
    before.borrowable.toNat + t.supplied + t.credited + t.seized + t.spent
  shares : after.shares.toNat + t.sharesBurned = before.shares.toNat + t.sharesMinted
  bonds : after.bonds.toNat + t.bondsRetired + t.bondsConverted =
    before.bonds.toNat + t.bondsAssigned

/-- The balances of an account differ by what was moved. -/
structure Account.Settles (before after : Account) (t : Turnover) : Prop where
  collateral : after.collateral.toNat + t.withdrawn + t.seized =
    before.collateral.toNat + t.deposited
  shares : after.shares.toNat + t.sharesBurned = before.shares.toNat + t.sharesMinted
  bonds : after.bonds.toNat + t.bondsRetired + t.bondsConverted =
    before.bonds.toNat + t.bondsAssigned

namespace Pool.Settles

theorem refl (pool : Pool) : pool.Settles pool {} := ⟨rfl, rfl, rfl, rfl, rfl⟩

theorem trans {a b c : Pool} {t u : Turnover} (hab : a.Settles b t) (hbc : b.Settles c u) :
    a.Settles c (t.add u) := by
  obtain ⟨h₁, h₂, h₃, h₄, h₅⟩ := hab
  obtain ⟨k₁, k₂, k₃, k₄, k₅⟩ := hbc
  refine ⟨?_, ?_, ?_, ?_, ?_⟩ <;> simp only [Turnover.add] <;> omega

/-- Totals that nothing was moved between, with the rest of the record as it was, are the same. -/
theorem eq_of_nothing {before after : Pool} (h : before.Settles after {})
    (hclock : after.accruedAt = before.accruedAt) (hrest : after.reserved = before.reserved) :
    after = before := by
  cases before
  cases after
  rw [Pool.mk.injEq]
  exact ⟨Quantity.ext h.collateral, Quantity.ext h.liquidity, Quantity.ext h.shares,
    Quantity.ext h.borrowable, Quantity.ext h.bonds, hclock, hrest⟩

end Pool.Settles

theorem Account.Settles.eq_of_nothing {before after : Account} (h : before.Settles after {}) :
    after = before := by
  cases before
  cases after
  rw [Account.mk.injEq]
  exact ⟨Quantity.ext h.collateral, Quantity.ext h.shares, Quantity.ext h.bonds⟩

/-! ## Trades -/

namespace Position

variable {p q : Position}

/-- The totals and the account of a trade differ by what its receipt says. -/
theorem Trades.settles {fees : FeeSchedule} {action : Action} {r : Receipt}
    (h : p.Trades fees action r q) :
    p.pool.Settles q.pool r.turnover ∧ p.account.Settles q.account r.turnover := by
  cases h with
  | deposit h =>
    obtain ⟨total, own, htotal, hown, rfl⟩ := deposit_eq_ok_iff.mp h
    exact ⟨⟨htotal, rfl, rfl, rfl, rfl⟩, hown, rfl, rfl⟩
  | withdraw h =>
    obtain ⟨own, total, hown, htotal, rfl⟩ := withdraw_eq_ok_iff.mp h
    exact ⟨⟨htotal, rfl, rfl, rfl, rfl⟩, hown, rfl, rfl⟩
  | mint _ h =>
    obtain ⟨-, shares, own, liquidity, borrowable, hshares, hown, hliquidity, hborrowable, rfl⟩ :=
      mint_eq_ok_iff.mp h
    exact ⟨⟨rfl, hliquidity, hborrowable, hshares, rfl⟩, rfl, hown, rfl⟩
  | burn h =>
    obtain ⟨-, own, borrowable, total, liquidity, hown, hborrowable, htotal, hliquidity, rfl⟩ :=
      burn_eq_ok_iff.mp h
    exact ⟨⟨rfl, hliquidity, hborrowable, htotal, rfl⟩, rfl, hown, rfl⟩
  | borrow _ h =>
    obtain ⟨owed, howed, -, borrowable, bonds, own, hborrowable, hbonds, hown, rfl⟩ :=
      borrow_eq_ok_iff.mp h
    refine ⟨⟨rfl, rfl, ?_, rfl, hbonds⟩, rfl, rfl, hown⟩
    simp only [Receipt.turnover]
    omega
  | repay h =>
    obtain ⟨-, own, borrowable, total, hown, hborrowable, -, htotal, rfl⟩ := repay_eq_ok_iff.mp h
    exact ⟨⟨rfl, rfl, hborrowable, rfl, htotal⟩, rfl, rfl, hown⟩
  | liquidate h =>
    obtain ⟨-, borrowable, own, total, ownCollateral, collateral, hborrowable, -, hown, htotal,
      hownCollateral, hcollateral, rfl⟩ := exists_of_liquidate h
    exact ⟨⟨hcollateral, rfl, hborrowable, rfl, htotal⟩, hownCollateral, rfl, hown⟩
  | repayFor h =>
    obtain ⟨-, -, borrowable, own, total, hborrowable, -, hown, htotal, rfl⟩ :=
      exists_of_repayWithCash h
    exact ⟨⟨rfl, rfl, hborrowable, rfl, htotal⟩, rfl, rfl, hown⟩

/-- A trade that moves nothing leaves the position as it is. -/
theorem Trades.eq_of_turnover {fees : FeeSchedule} {action : Action} {r : Receipt}
    (h : p.Trades fees action r q) (hnone : r.turnover = {}) : q = p := by
  obtain ⟨hpool, haccount⟩ := h.settles
  obtain ⟨hclock, hrest⟩ := h.frame
  rw [hnone] at hpool haccount
  cases p
  cases q
  rw [Position.mk.injEq]
  exact ⟨hpool.eq_of_nothing hclock hrest, haccount.eq_of_nothing⟩

end Position

/-! ## Actions -/

namespace Ledger

variable {l after : Ledger} {caller : Key} {action : Action} {r : Receipt}

/-- The totals of the pool differ by what the receipt of an action says. -/
theorem Acts.settles (h : l.Acts caller action r after) :
    l.pool.Settles after.pool r.turnover := by
  cases h with
  | trade h => exact h.settles.1
  | accrue => exact .refl _
  | transfer h => rw [pool_of_send h]; exact .refl _
  | transferFrom h => rw [pool_of_sendFor h]; exact .refl _
  | approve => exact .refl _
  | raiseAllowance _ => exact .refl _
  | lowerAllowance _ => exact .refl _

/-- The account of its holder differs by what the receipt of a trade says. -/
theorem Acts.settles_holder (h : l.Acts caller action r after) (htrade : action.IsTrade) :
    (l.account (action.holder caller)).Settles (after.account (action.holder caller))
      r.turnover := by
  obtain ⟨q, hq, rfl⟩ := h.exists_trade htrade
  rw [account_setPosition, if_pos rfl]
  exact hq.settles.2

/-- An account that differs by what the totals differ by can be written back. -/
theorem balanced_setPosition {holder : Key} {q : Position} {t : Turnover}
    (hpool : l.pool.Settles q.pool t) (haccount : (l.account holder).Settles q.account t)
    (hl : l.Balanced) : (l.setPosition holder q).Balanced := by
  obtain ⟨hcollateral, hshares, hbonds⟩ := hl
  have hsum : ∀ balance : Account → Amount, balance .empty = 0 →
      (l.setPosition holder q).sum balance + (balance (l.account holder)).toNat =
        l.sum balance + (balance q.account).toNat := fun balance hzero =>
    sum_setAccount_add hzero { l with pool := q.pool } holder q.account
  refine ⟨?_, ?_, ?_⟩
  · have := hsum Account.collateral rfl
    have := hpool.collateral
    have := haccount.collateral
    rw [pool_setPosition]
    omega
  · have := hsum Account.shares rfl
    have := hpool.shares
    have := haccount.shares
    rw [pool_setPosition]
    omega
  · have := hsum Account.bonds rfl
    have := hpool.bonds
    have := haccount.bonds
    rw [pool_setPosition]
    omega

/-- Whatever an action does, the accounts go on summing to the totals. -/
theorem Acts.balanced (h : l.Acts caller action r after) (hl : l.Balanced) : after.Balanced := by
  cases h with
  | trade h => exact balanced_setPosition h.settles.1 h.settles.2 hl
  | accrue => exact hl
  | transfer h => exact balanced_of_send h hl
  | transferFrom h =>
    obtain ⟨sent, hsent, hpool, haccounts, -⟩ := exists_of_sendFor h
    have hbalanced := balanced_of_send hsent hl
    simp only [Balanced, sum, hpool, haccounts] at hbalanced ⊢
    exact hbalanced
  | approve => exact hl
  | raiseAllowance _ => exact hl
  | lowerAllowance _ => exact hl

/-- The totals of the pool differ by what a request that took effect moved. -/
theorem settles_of_attempt {request : Request} {e : Effect} (h : l.attempt request = .ok e) :
    l.pool.Settles e.ledger.pool e.turnover := by
  obtain ⟨time, charged, acted, -, hcharged, hacts, hstamp⟩ := exists_of_attempt h
  obtain ⟨liquidity, hliquidity, rfl⟩ := accrue_eq_ok_iff.mp hcharged
  obtain ⟨h₁, h₂, h₃, h₄, h₅⟩ := hacts.settles
  have hnone : e.receipt.turnover.interest = 0 := by
    cases e.receipt <;> rfl
  rw [hstamp]
  refine ⟨h₁, ?_, h₃, h₄, h₅⟩
  simp only [Effect.turnover, stamp] at h₂ ⊢
  omega

end Ledger

end Lending
