import Lending.Proofs.PriceFloor
import Lending.Proofs.Quotes

/-!
# The price of a share never falls

Shares are bought and redeemed at the same price, and both are rounded down, so what rounding leaves
over is left to those who keep their shares. Interest and fees are left to them as well: they raise
the liquidity and mint nothing. No request lowers the price, then, at any fee and any interest
(`share_price_of_attempt`), and nobody's mint or redemption dilutes a bystander (`shareValue_mono`).

Nothing is asked of the ledger but that it passes its audit. Where there are shares and no
liquidity, which a ledger with a history never comes to, new shares are priced at one each and the
old ones stay worthless; that is no fall in price either.
-/

set_option autoImplicit false

namespace Lending

/-! ## The pool -/

namespace Pool

variable {pool : Pool} {amount shares n v : Amount}

/-- Shares are bought at no less than their price. -/
theorem mul_le_of_sharesFor (h : pool.sharesFor amount = .ok n) :
    n.toNat * pool.liquidity.toNat ≤ amount.toNat * pool.shares.toNat :=
  mul_le_of_roundsDown ((sharesFor_cases h).imp And.left And.right)

/-- Shares are redeemed at no more than their price. -/
theorem mul_le_of_liquidityFor (h : pool.liquidityFor shares = .ok v) :
    v.toNat * pool.shares.toNat ≤ shares.toNat * pool.liquidity.toNat :=
  mul_le_of_roundsDown ((liquidityFor_cases h).imp And.left And.right)

/-- Any part of all shares has a worth, which is within the liquidity. -/
theorem exists_liquidityFor (h : shares ≤ pool.shares) : ∃ v, pool.liquidityFor shares = .ok v := by
  by_cases hz : pool.shares = 0
  · exact ⟨0, demand_eq_ok_iff.mpr (if_pos hz)⟩
  · have hwhole : shares.toNat * pool.liquidity.toNat ≤
        pool.liquidity.toNat * pool.shares.toNat := by
      rw [Nat.mul_comm pool.liquidity.toNat]
      exact Nat.mul_le_mul_right _ h
    obtain ⟨v, hv, -⟩ := Quantity.exists_mulDivFloor? hz pool.liquidity.toNat_lt hwhole
    exact ⟨v, demand_eq_ok_iff.mpr ((if_neg hz).trans hv)⟩

theorem liquidityFor_le (hpart : shares ≤ pool.shares) (h : pool.liquidityFor shares = .ok v) :
    v.toNat ≤ pool.liquidity.toNat := by
  rcases liquidityFor_cases h with ⟨-, rfl⟩ | ⟨hpos, hrounds⟩
  · exact Nat.zero_le _
  · exact hrounds.le_whole hpos hpart

end Pool

/-- Where nothing is lent out, whoever holds shares can redeem them. -/
theorem Position.exists_burn {p : Position} (hw : p.Within) (hsolvent : p.pool.Solvent)
    (hnothing : p.pool.lent = 0) {shares : Amount} (h : shares ≤ p.account.shares) :
    ∃ v q, p.burn shares = .ok (v, q) := by
  have hown : shares.toNat ≤ p.account.shares.toNat := h
  have hpart : shares ≤ p.pool.shares := Nat.le_trans hown hw.shares_le
  obtain ⟨v, hv⟩ := Pool.exists_liquidityFor hpart
  have hmost := Pool.liquidityFor_le hpart hv
  have hfree : v.toNat ≤ p.pool.borrowable.toNat := by
    have hlent := hsolvent.lent_add
    omega
  exact ⟨v, _, burn_eq_ok_iff.mpr ⟨hv, _, _, _, _, Quantity.toNat_sub_add_toNat hown,
    Quantity.toNat_sub_add_toNat hfree, Quantity.toNat_sub_add_toNat hpart,
    Quantity.toNat_sub_add_toNat hmost, rfl⟩⟩

/-! ## One action -/

theorem Position.Trades.share_price {fees : FeeSchedule} {p q : Position} {action : Action}
    {r : Receipt} (h : p.Trades fees action r q) :
    p.pool.liquidity.toNat * q.pool.shares.toNat ≤
      q.pool.liquidity.toNat * p.pool.shares.toNat := by
  obtain ⟨-, hliquidity, -, hshares, -⟩ := h.settles.1
  cases h with
  | deposit _ | withdraw _ | borrow _ _ | repay _ | liquidate _ | repayFor _ =>
    simp only [Receipt.turnover, Nat.add_zero] at hliquidity hshares
    exact Nat.le_of_eq (by rw [hliquidity, hshares])
  | @mint amount fee n _ _ h =>
    have hbought := Pool.mul_le_of_sharesFor (mint_eq_ok_iff.mp h).1
    simp only [Receipt.turnover, Nat.add_zero] at hliquidity hshares
    rw [hliquidity, hshares]
    apply mul_le_mul_of_added
    -- The fee is paid for no shares at all.
    calc n.toNat * p.pool.liquidity.toNat ≤ amount.toNat * p.pool.shares.toNat := hbought
      _ ≤ (amount.toNat + fee.toNat) * p.pool.shares.toNat :=
        Nat.mul_le_mul_right _ (Nat.le_add_right _ _)
  | burn h =>
    have hredeemed := Pool.mul_le_of_liquidityFor (burn_eq_ok_iff.mp h).1
    simp only [Receipt.turnover, Nat.add_zero] at hliquidity hshares
    exact mul_le_mul_of_removed hliquidity hshares hredeemed

namespace Ledger

variable {l after : Ledger}

theorem Acts.share_price {caller : Key} {action : Action} {r : Receipt}
    (h : l.Acts caller action r after) :
    l.pool.liquidity.toNat * after.pool.shares.toNat ≤
      after.pool.liquidity.toNat * l.pool.shares.toNat := by
  rcases h.pool_cases with ⟨q, hq, hpool⟩ | hpool
  · rw [hpool]
    exact hq.share_price
  · exact Nat.le_of_eq (by rw [hpool])

/-- Interest raises the price first, and then the action does not lower it. -/
theorem share_price_of_attempt {request : Request} {e : Effect} (h : l.attempt request = .ok e) :
    l.pool.liquidity.toNat * e.ledger.pool.shares.toNat ≤
      e.ledger.pool.liquidity.toNat * l.pool.shares.toNat := by
  obtain ⟨time, charged, acted, -, hcharged, hacts, hstamp⟩ := exists_of_attempt h
  have hacted := hacts.share_price
  obtain ⟨liquidity, hliquidity, rfl⟩ := accrue_eq_ok_iff.mp hcharged
  rw [hstamp]
  calc l.pool.liquidity.toNat * acted.pool.shares.toNat
      ≤ liquidity.toNat * acted.pool.shares.toNat :=
        Nat.mul_le_mul_right _ (by omega)
    _ ≤ acted.pool.liquidity.toNat * l.pool.shares.toNat := hacted

/-! ## What a holder's shares are worth -/

theorem Sound.exists_shareValue (hl : l.Sound) (holder : Key) :
    ∃ v, l.shareValue holder = .ok v :=
  Pool.exists_liquidityFor (hl.balanced.within holder).shares_le

/-- At a price that is no lower, as many shares are worth no less. -/
theorem shareValue_mono (hafter : after.Sound) {holder : Key} {v v' : Amount}
    (hprice : l.pool.liquidity.toNat * after.pool.shares.toNat ≤
      after.pool.liquidity.toNat * l.pool.shares.toNat)
    (hkept : (after.account holder).shares = (l.account holder).shares)
    (hv : l.shareValue holder = .ok v) (hv' : after.shareValue holder = .ok v') : v ≤ v' := by
  have hworth := Pool.mul_le_of_liquidityFor hv
  have hpart := (hafter.balanced.within holder).shares_le
  rcases Pool.liquidityFor_cases hv with ⟨-, rfl⟩ | ⟨hpos, -⟩
  · exact Nat.zero_le _
  · have hcross : v.toNat * after.pool.shares.toNat ≤
        after.pool.liquidity.toNat * (l.account holder).shares.toNat := by
      rw [Nat.mul_comm (l.account holder).shares.toNat] at hworth
      exact mul_le_mul_trans hpos hworth hprice
    rcases Pool.liquidityFor_cases hv' with ⟨hnone, -⟩ | ⟨-, hrounds⟩
    · -- Without shares in the pool the holder has none, and they were worth nothing before.
      have hzero : (l.account holder).shares.toNat = 0 := by
        rw [← hkept]
        exact Nat.le_zero.mp (hnone ▸ hpart)
      have hnothing : v.toNat * l.pool.shares.toNat ≤ 0 * l.pool.shares.toNat := by
        rw [hzero, Nat.zero_mul] at hworth
        rw [Nat.zero_mul]
        exact hworth
      exact Nat.le_trans (Nat.le_of_mul_le_mul_right hnothing hpos) (Nat.zero_le _)
    · rw [Quantity.le_def, hrounds.le_iff, hkept, Nat.mul_comm (l.account holder).shares.toNat]
      exact hcross

/-- No request lowers the price of a share, and whoever has as many shares after it as before it has
shares of at least the worth. -/
theorem no_dilution (haudit : l.audit = .ok ()) {request : Request} {e : Effect}
    (h : l.attempt request = .ok e) :
    l.pool.liquidity.toNat * e.ledger.pool.shares.toNat ≤
      e.ledger.pool.liquidity.toNat * l.pool.shares.toNat ∧
    ∀ holder, (e.ledger.account holder).shares = (l.account holder).shares →
      ∃ before after, l.shareValue holder = .ok before ∧
        e.ledger.shareValue holder = .ok after ∧ before ≤ after := by
  have hsound := sound_iff.mpr haudit
  have hsound' := kept_sound.attempt hsound h
  have hprice := share_price_of_attempt h
  refine ⟨hprice, ?_⟩
  intro holder hkept
  obtain ⟨before, hbefore⟩ := hsound.exists_shareValue holder
  obtain ⟨after, hafter⟩ := hsound'.exists_shareValue holder
  exact ⟨before, after, hbefore, hafter, shareValue_mono hsound' hprice hkept hbefore hafter⟩

/-- Somebody mints beside the only holder. -/
theorem bystander_keeps_share_value :
    soleHolder.audit = .ok () ∧ ∃ e,
      soleHolder.attempt (.charging ⟨List.replicate 32 1, rfl⟩ (.mint ⟨5, by decide⟩) 0) = .ok e ∧
      (e.ledger.account 0).shares = (soleHolder.account 0).shares ∧
      ∃ before after, soleHolder.shareValue 0 = .ok before ∧
        e.ledger.shareValue 0 = .ok after ∧ before ≤ after := by
  have haudit : soleHolder.audit = .ok () := rfl
  obtain ⟨e, he, hkept⟩ : ∃ e,
      soleHolder.attempt (.charging ⟨List.replicate 32 1, rfl⟩ (.mint ⟨5, by decide⟩) 0) = .ok e ∧
      (e.ledger.account 0).shares = (soleHolder.account 0).shares := ⟨_, rfl, rfl⟩
  exact ⟨haudit, e, he, hkept, (no_dilution haudit he).2 0 hkept⟩

end Ledger

end Lending
