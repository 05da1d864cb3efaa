import Lending.Proofs.Rounding
import Lending.Proofs.Soundness

/-!
# A share is worth a unit, and so is a bond

Nothing in a pool says that there are no more shares than liquidity or no more bonds than debt. It
is true of every pool with a history all the same (`Ledger.healthy_run`), and much rests on it: no
price ever exceeds the largest amount, so whoever may repay or redeem can, and no bonds are left
once the debt is gone.

Each kind of trade keeps it for a reason of its own. New shares and new bonds start at one for a
unit and are never issued below that price, and interest only raises the two sides that are the
larger. Burned shares and retired bonds are a part of a whole at a price of at least one; retiring
rounds against the pool's price, by less than a unit, and that is what `add_le_add_of_mul_lt`
allows.

It cannot be proved from the totals alone. A holder retires bonds from a balance, and only because
the balances sum to the totals is a balance no more than its total (`Position.Within`).
-/

set_option autoImplicit false

namespace Lending

open Quantity

/-! ## Prices of at least one -/

/-- No more shares than liquidity, and no more bonds than debt. -/
structure Pool.Priced (pool : Pool) : Prop where
  shares_le : pool.shares.toNat ≤ pool.liquidity.toNat
  bonds_le : pool.bonds.toNat + pool.borrowable.toNat ≤ pool.liquidity.toNat

namespace Pool.Priced

variable {pool : Pool}

theorem exists_sharesFor (h : pool.Priced) (amount : Amount) :
    ∃ n, pool.sharesFor amount = .ok n ∧ n ≤ amount := by
  have hbook : pool.shareBook.shares ≤ pool.shareBook.liquidity := h.shares_le
  obtain ⟨n, hn, hle⟩ := ShareBook.exists_sharesFor? hbook amount
  exact ⟨n, demand_eq_ok_iff.mpr hn, hle⟩

theorem exists_liquidityFor (h : pool.Priced) {shares : Amount} (hs : shares ≤ pool.shares) :
    ∃ v, pool.liquidityFor shares = .ok v ∧
      v.toNat = shares.toNat * pool.liquidity.toNat / pool.shares.toNat ∧
      v.toNat + pool.shares.toNat ≤ pool.liquidity.toNat + shares.toNat := by
  have hbook : pool.shareBook.shares ≤ pool.shareBook.liquidity := h.shares_le
  obtain ⟨v, hv, hval, hle⟩ := ShareBook.exists_liquidityFor? hbook hs
  exact ⟨v, demand_eq_ok_iff.mpr hv, hval, hle⟩

/-- The debt is there to be divided by the bonds. -/
theorem exists_bondBook (h : pool.Priced) :
    ∃ book, pool.bondBook = .ok book ∧ book.bonds = pool.bonds ∧ book.bonds ≤ book.debt ∧
      book.debt.toNat + pool.borrowable.toNat = pool.liquidity.toNat := by
  have hbonds := h.bonds_le
  have hlt := pool.liquidity.toNat_lt
  have hdebt : pool.liquidity.toNat - pool.borrowable.toNat + pool.borrowable.toNat =
      pool.liquidity.toNat := by omega
  refine ⟨⟨⟨pool.liquidity.toNat - pool.borrowable.toNat, by omega⟩, pool.bonds⟩, ?_, rfl, ?_,
    hdebt⟩
  · simp only [bondBook, bind_eq_ok_iff, pure_eq_ok_iff]
    exact ⟨_, debt_eq_ok_iff.mpr hdebt, rfl⟩
  · simp only [le_def]
    omega

theorem exists_bondsFor (h : pool.Priced) (amount : Amount) :
    ∃ n, pool.bondsFor amount = .ok n ∧ n ≤ amount := by
  obtain ⟨book, hbook, -, hle, -⟩ := h.exists_bondBook
  obtain ⟨n, hn, hamount⟩ := BondBook.exists_bondsFor? hle amount
  exact ⟨n, bind_eq_ok_iff.mpr ⟨_, hbook, demand_eq_ok_iff.mpr hn⟩, hamount⟩

theorem exists_debtFor (h : pool.Priced) {bonds : Amount} (hb : bonds ≤ pool.bonds) :
    ∃ v, pool.debtFor bonds = .ok v ∧
      v.toNat + pool.borrowable.toNat ≤ pool.liquidity.toNat ∧
      v.toNat + pool.bonds.toNat + pool.borrowable.toNat ≤
        pool.liquidity.toNat + bonds.toNat := by
  obtain ⟨book, hbook, hbonds, hle, hdebt⟩ := h.exists_bondBook
  rw [← hbonds] at hb ⊢
  obtain ⟨v, hv, hmost, hleft⟩ := BondBook.exists_debtFor? hle hb
  rw [le_def] at hmost
  exact ⟨v, bind_eq_ok_iff.mpr ⟨_, hbook, demand_eq_ok_iff.mpr hv⟩, by omega, by omega⟩

theorem exists_convert (h : pool.Priced) (cash : Amount) {held : Amount}
    (hb : held ≤ pool.bonds) :
    ∃ c, pool.convert cash held = .ok c ∧ c.burned ≤ held ∧ c.repaid ≤ cash ∧
      c.repaid.toNat + pool.borrowable.toNat ≤ pool.liquidity.toNat ∧
      c.repaid.toNat + pool.bonds.toNat + pool.borrowable.toNat ≤
        pool.liquidity.toNat + c.burned.toNat := by
  obtain ⟨book, hbook, hbonds, hle, hdebt⟩ := h.exists_bondBook
  rw [← hbonds] at hb ⊢
  obtain ⟨c, hc, hburned, hcash, hmost, hleft⟩ := BondBook.exists_convert? hle cash hb
  rw [le_def] at hmost
  exact ⟨c, bind_eq_ok_iff.mpr ⟨_, hbook, demand_eq_ok_iff.mpr hc⟩, hburned, hcash, by omega,
    by omega⟩

end Pool.Priced

/-! ## Trades -/

namespace Position

variable {p q : Position}

/-- The balances of the account are part of the totals. -/
structure Within (p : Position) : Prop where
  collateral_le : p.account.collateral ≤ p.pool.collateral
  shares_le : p.account.shares ≤ p.pool.shares
  bonds_le : p.account.bonds ≤ p.pool.bonds

theorem Trades.priced {fees : FeeSchedule} {action : Action} {r : Receipt}
    (h : p.Trades fees action r q) (hw : p.Within) (hp : p.pool.Priced) : q.pool.Priced := by
  obtain ⟨-, hliquidity, hborrowable, hshares, hbonds⟩ := h.settles.1
  have hpshares := hp.shares_le
  have hpbonds := hp.bonds_le
  have hwshares := le_def.mp hw.shares_le
  have hwbonds := le_def.mp hw.bonds_le
  cases h with
  | deposit _ | withdraw _ =>
    simp only [Receipt.turnover] at hliquidity hborrowable hshares hbonds
    exact ⟨by omega, by omega⟩
  | mint _ h =>
    obtain ⟨n, hn, hle⟩ := hp.exists_sharesFor _
    cases hn.symm.trans (mint_eq_ok_iff.mp h).1
    rw [le_def] at hle
    simp only [Receipt.turnover] at hliquidity hborrowable hshares hbonds
    exact ⟨by omega, by omega⟩
  | @burn shares _ _ h =>
    obtain ⟨hv', own, -, -, -, hown, -⟩ := burn_eq_ok_iff.mp h
    have hpart : shares ≤ p.pool.shares := le_def.mpr (by omega)
    obtain ⟨v, hv, -, hleft⟩ := hp.exists_liquidityFor hpart
    cases hv.symm.trans hv'
    simp only [Receipt.turnover] at hliquidity hborrowable hshares hbonds
    exact ⟨by omega, by omega⟩
  | borrow _ h =>
    obtain ⟨owed, howed, hn', -⟩ := borrow_eq_ok_iff.mp h
    obtain ⟨n, hn, hle⟩ := hp.exists_bondsFor owed
    cases hn.symm.trans hn'
    rw [le_def] at hle
    simp only [Receipt.turnover] at hliquidity hborrowable hshares hbonds
    exact ⟨by omega, by omega⟩
  | @repay bonds _ _ h =>
    obtain ⟨hv', own, -, -, hown, -⟩ := repay_eq_ok_iff.mp h
    have hpart : bonds ≤ p.pool.bonds := le_def.mpr (by omega)
    obtain ⟨v, hv, -, hleft⟩ := hp.exists_debtFor hpart
    cases hv.symm.trans hv'
    simp only [Receipt.turnover] at hliquidity hborrowable hshares hbonds
    exact ⟨by omega, by omega⟩
  | liquidate h =>
    obtain ⟨c, hc, -, -, -, hleft⟩ := hp.exists_convert _ hw.bonds_le
    cases hc.symm.trans (exists_of_liquidate h).1
    simp only [Receipt.turnover] at hliquidity hborrowable hshares hbonds
    exact ⟨by omega, by omega⟩
  | repayFor h =>
    obtain ⟨c, hc, -, -, -, hleft⟩ := hp.exists_convert _ hw.bonds_le
    cases hc.symm.trans (exists_of_repayWithCash h).1
    simp only [Receipt.turnover] at hliquidity hborrowable hshares hbonds
    exact ⟨by omega, by omega⟩

end Position

namespace Ledger

variable {l after : Ledger}

theorem Balanced.within (h : l.Balanced) (holder : Key) : (l.position holder).Within := by
  obtain ⟨hcollateral, hshares, hbonds⟩ := h
  refine ⟨?_, ?_, ?_⟩
  · exact le_def.mpr (hcollateral ▸ balance_le_sum rfl l holder)
  · exact le_def.mpr (hshares ▸ balance_le_sum rfl l holder)
  · exact le_def.mpr (hbonds ▸ balance_le_sum rfl l holder)

/-! ## Every run -/

/-- A sound ledger at prices of at least one. -/
structure Healthy (l : Ledger) : Prop extends l.Sound where
  priced : l.pool.Priced

theorem Healthy.accrue {interest : Amount} (hl : l.Healthy) (h : l.accrue interest = .ok after) :
    after.Healthy := by
  refine ⟨hl.toSound.accrue h, ?_⟩
  obtain ⟨liquidity, hliquidity, rfl⟩ := accrue_eq_ok_iff.mp h
  have hshares := hl.priced.shares_le
  have hbonds := hl.priced.bonds_le
  exact ⟨by simp only; omega, by simp only; omega⟩

theorem Healthy.act {caller : Key} {action : Action} {r : Receipt} (hl : l.Healthy)
    (h : l.Acts caller action r after) : after.Healthy := by
  refine ⟨hl.toSound.act h, ?_⟩
  rcases h.pool_cases with ⟨q, hq, hpool⟩ | hpool
  · rw [hpool]
    exact hq.priced (hl.balanced.within _) hl.priced
  · rw [hpool]
    exact hl.priced

theorem kept_healthy : Kept Healthy where
  accrue := .accrue
  act := .act
  stamp time hl := ⟨kept_sound.stamp time hl.toSound, hl.priced.shares_le, hl.priced.bonds_le⟩
  withFees fees hl := ⟨kept_sound.withFees fees hl.toSound, hl.priced⟩

theorem healthy_genesis : genesis.Healthy := ⟨sound_genesis, Nat.le_refl 0, Nat.le_refl 0⟩

theorem healthy_run (steps : List Step) : (genesis.run steps).Healthy :=
  kept_healthy.run healthy_genesis steps

/-- At the end of every history that starts from nothing there are no more shares than liquidity,
and no more bonds than liquidity that is lent out. -/
theorem prices_at_least_one (steps : List Step) :
    (genesis.run steps).pool.shares.toNat ≤ (genesis.run steps).pool.liquidity.toNat ∧
      ((genesis.run steps).pool.bonds.toNat : Int) ≤
        (genesis.run steps).pool.liquidity.toNat - (genesis.run steps).pool.borrowable.toNat := by
  have hpriced := (healthy_run steps).priced
  have hbonds := hpriced.bonds_le
  exact ⟨hpriced.shares_le, by omega⟩

end Ledger

end Lending
