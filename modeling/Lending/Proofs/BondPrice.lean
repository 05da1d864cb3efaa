import Lending.Proofs.PriceFloor
import Lending.Proofs.Quotes

/-!
# Nobody raises the debt of another

Bonds are assigned and retired at the same price, and both are rounded up, so a borrower takes on
more bonds than the loan is worth and a payer retires more debt than the bonds are worth. Each of
these lowers what a bond of anybody else owes (`Healthy.bond_price`). Only interest raises it, so at
no interest a holder whose bonds are left alone owes no more after the action of another
(`debtOwed_mono`).

This is said of ledgers with a history. Where there are bonds and no debt, which an audit does not
notice, a loan is one bond for a unit and the old bonds would share in it. A price of at least one
(`Pool.Priced`) is what rules this out: no debt, no bonds.
-/

set_option autoImplicit false

namespace Lending

open Quantity

/-! ## The pool -/

namespace Pool

variable {pool : Pool} {amount bonds cash held n v : Amount}

theorem Priced.bonds_le_lent (h : pool.Priced) : pool.bonds.toNat ≤ pool.lent := by
  have hbonds := h.bonds_le
  rw [lent]
  omega

/-- Bonds are assigned at no more than their price: enough of them to cover the loan. -/
theorem Priced.mul_le_of_bondsFor (hp : pool.Priced) (h : pool.bondsFor amount = .ok n) :
    amount.toNat * pool.bonds.toNat ≤ n.toNat * pool.lent := by
  rcases bondsFor_cases h with ⟨hz, -⟩ | ⟨-, hrounds⟩
  · have hnone : pool.bonds.toNat = 0 := Nat.le_zero.mp (hz ▸ hp.bonds_le_lent)
    rw [hnone, Nat.mul_zero]
    exact Nat.zero_le _
  · exact hrounds.ge

/-- Bonds are retired at no less than their price. -/
theorem mul_le_of_debtFor (hpart : bonds.toNat ≤ pool.bonds.toNat)
    (h : pool.debtFor bonds = .ok v) : bonds.toNat * pool.lent ≤ v.toNat * pool.bonds.toNat :=
  mul_le_of_roundsUp hpart ((debtFor_cases h).imp And.left And.right)

theorem mul_le_of_convert {c : Conversion 128} (hpart : c.burned.toNat ≤ pool.bonds.toNat)
    (h : pool.convert cash held = .ok c) :
    c.burned.toNat * pool.lent ≤ c.repaid.toNat * pool.bonds.toNat :=
  mul_le_of_roundsUp hpart ((convert_cases h).2.imp And.left And.right)

/-- Any part of all bonds owes a debt, which is within what is lent out. -/
theorem Solvent.exists_debtFor (hs : pool.Solvent) (hpart : bonds ≤ pool.bonds) :
    ∃ v, pool.debtFor bonds = .ok v := by
  have hsolvent : pool.borrowable.toNat ≤ pool.liquidity.toNat := hs
  have hdebt : (pool.liquidity - pool.borrowable).toNat + pool.borrowable.toNat =
      pool.liquidity.toNat := toNat_sub_add_toNat hsolvent
  have hbook : pool.bondBook = .ok ⟨pool.liquidity - pool.borrowable, pool.bonds⟩ :=
    bondBook_eq_ok_iff.mpr ⟨hdebt, rfl⟩
  by_cases hz : pool.bonds = 0
  · exact ⟨_, bind_eq_ok_iff.mpr ⟨_, hbook, demand_eq_ok_iff.mpr (if_pos hz)⟩⟩
  · have hwhole : bonds.toNat * (pool.liquidity - pool.borrowable).toNat ≤
        (pool.liquidity - pool.borrowable).toNat * pool.bonds.toNat := by
      rw [Nat.mul_comm (pool.liquidity - pool.borrowable).toNat]
      exact Nat.mul_le_mul_right _ hpart
    obtain ⟨v, hv, -⟩ :=
      exists_mulDivCeil? hz (pool.liquidity - pool.borrowable).toNat_lt hwhole
    exact ⟨v, bind_eq_ok_iff.mpr ⟨_, hbook, demand_eq_ok_iff.mpr ((if_neg hz).trans hv)⟩⟩

theorem debtFor_le (hpart : bonds ≤ pool.bonds) (h : pool.debtFor bonds = .ok v) :
    v.toNat ≤ pool.lent := by
  rcases debtFor_cases h with ⟨-, hwhole⟩ | ⟨-, hrounds⟩
  · exact Nat.le_of_eq hwhole
  · exact hrounds.le_whole hpart

end Pool

/-- Whoever holds bonds can retire them: they are worth no more than is lent out. -/
theorem Position.exists_repay {p : Position} (hw : p.Within) (hsolvent : p.pool.Solvent)
    {bonds : Amount} (h : bonds ≤ p.account.bonds) : ∃ v q, p.repay bonds = .ok (v, q) := by
  have hown : bonds.toNat ≤ p.account.bonds.toNat := h
  have hpart : bonds.toNat ≤ p.pool.bonds.toNat := Nat.le_trans hown hw.bonds_le
  obtain ⟨v, hv⟩ := hsolvent.exists_debtFor (le_def.mpr hpart)
  have hmost := Pool.debtFor_le (le_def.mpr hpart) hv
  have hlt := p.pool.liquidity.toNat_lt
  have hlent := hsolvent.lent_add
  refine ⟨v, _, repay_eq_ok_iff.mpr ⟨hv, _, ⟨p.pool.borrowable.toNat + v.toNat, by omega⟩, _,
    toNat_sub_add_toNat hown, rfl, ?_, toNat_sub_add_toNat hpart, rfl⟩⟩
  rw [le_def]
  simp only
  omega

/-! ## One action -/

/-- What a turnover does to the debt: loans and their fees join it, and payments leave it. -/
theorem Pool.Settles.lent {before after : Pool} {t : Turnover} (h : before.Settles after t)
    (hbefore : before.Solvent) (hafter : after.Solvent) :
    after.lent + t.credited + t.seized + t.spent =
      before.lent + t.lent + t.lendingFees + t.interest := by
  have hliquidity := h.liquidity
  have hborrowable := h.borrowable
  have hlent := hbefore.lent_add
  have hlent' := hafter.lent_add
  omega

theorem Position.Trades.bond_price {fees : FeeSchedule} {p q : Position} {action : Action}
    {r : Receipt} (h : p.Trades fees action r q) (hsolvent : p.pool.Solvent)
    (hp : p.pool.Priced) : q.pool.lent * p.pool.bonds.toNat ≤ p.pool.lent * q.pool.bonds.toNat := by
  have hlent := h.settles.1.lent hsolvent (h.solvent hsolvent)
  have hbonds := h.settles.1.bonds
  rw [Nat.mul_comm, Nat.mul_comm p.pool.lent]
  cases h with
  | deposit _ | withdraw _ | mint _ _ | burn _ =>
    simp only [Receipt.turnover, Nat.add_zero] at hlent hbonds
    exact Nat.le_of_eq (by rw [hlent, hbonds])
  | borrow _ h =>
    obtain ⟨owed, howed, hquote, -⟩ := borrow_eq_ok_iff.mp h
    have hassigned := hp.mul_le_of_bondsFor hquote
    simp only [Receipt.turnover, Nat.add_zero, Nat.add_assoc] at hlent hbonds
    rw [hlent, hbonds, ← howed]
    exact mul_le_mul_of_added hassigned
  | repay h =>
    simp only [Receipt.turnover, Nat.add_zero] at hlent hbonds
    have hretired := Pool.mul_le_of_debtFor (by omega) (repay_eq_ok_iff.mp h).1
    exact mul_le_mul_of_removed hbonds hlent hretired
  | liquidate h =>
    simp only [Receipt.turnover, Nat.add_zero] at hlent hbonds
    have hburned := Pool.mul_le_of_convert (by omega) (exists_of_liquidate h).1
    exact mul_le_mul_of_removed hbonds hlent hburned
  | repayFor h =>
    simp only [Receipt.turnover, Nat.add_zero] at hlent hbonds
    have hburned := Pool.mul_le_of_convert (by omega) (exists_of_repayWithCash h).1
    exact mul_le_mul_of_removed hbonds hlent hburned

namespace Ledger

variable {l after : Ledger}

theorem Healthy.bond_price {caller : Key} {action : Action} {r : Receipt} (hl : l.Healthy)
    (h : l.Acts caller action r after) :
    after.pool.lent * l.pool.bonds.toNat ≤ l.pool.lent * after.pool.bonds.toNat := by
  rcases h.pool_cases with ⟨q, hq, hpool⟩ | hpool
  · rw [hpool]
    exact hq.bond_price hl.solvent hl.priced
  · exact Nat.le_of_eq (by rw [hpool])

/-! ## What a holder's bonds oblige to pay -/

theorem Sound.exists_debtOwed (hl : l.Sound) (holder : Key) :
    ∃ v, l.debtOwed holder = .ok v := by
  by_cases hz : (l.account holder).bonds = 0
  · exact ⟨0, if_pos hz⟩
  · obtain ⟨v, hv⟩ := hl.solvent.exists_debtFor (hl.balanced.within holder).bonds_le
    exact ⟨v, (if_neg hz).trans hv⟩

/-- What is owed on bonds is their part of the debt, rounded up. The fallbacks of the book never
show: without bonds in the pool the holder has none. -/
theorem Sound.debtOwed_cases (hl : l.Sound) {holder : Key} {v : Amount}
    (h : l.debtOwed holder = .ok v) :
    (l.pool.bonds.toNat = 0 ∧ v = 0) ∨ (0 < l.pool.bonds.toNat ∧
      RoundsUp v.toNat (l.account holder).bonds.toNat l.pool.lent l.pool.bonds.toNat) := by
  have hpart := le_def.mp (hl.balanced.within holder).bonds_le
  unfold debtOwed at h
  by_cases hz : (l.account holder).bonds = 0
  · rw [if_pos hz] at h
    cases h
    rcases Nat.eq_zero_or_pos l.pool.bonds.toNat with hnone | hpos
    · exact .inl ⟨hnone, rfl⟩
    · refine .inr ⟨hpos, ?_⟩
      rw [hz, toNat_zero]
      exact ⟨by omega, by omega⟩
  · rw [if_neg hz] at h
    rcases Pool.debtFor_cases h with ⟨hnone, -⟩ | hrounds
    · exact absurd (eq_zero_iff.mpr (Nat.le_zero.mp (hnone ▸ hpart))) hz
    · exact .inr hrounds

/-- At a price that is no higher, as many bonds owe no more. -/
theorem debtOwed_mono (hl : l.Sound) (hafter : after.Sound) {holder : Key} {v v' : Amount}
    (hprice : after.pool.lent * l.pool.bonds.toNat ≤ l.pool.lent * after.pool.bonds.toNat)
    (hkept : (after.account holder).bonds = (l.account holder).bonds)
    (hv : l.debtOwed holder = .ok v) (hv' : after.debtOwed holder = .ok v') : v' ≤ v := by
  rcases hafter.debtOwed_cases hv' with ⟨-, rfl⟩ | ⟨-, hrounds'⟩
  · exact Nat.zero_le _
  · rw [le_def, hrounds'.le_iff, hkept, Nat.mul_comm]
    rcases hl.debtOwed_cases hv with ⟨hnone, -⟩ | ⟨hpos, hrounds⟩
    · have hpart := le_def.mp (hl.balanced.within holder).bonds_le
      rw [show (l.account holder).bonds.toNat = 0 from Nat.le_zero.mp (hnone ▸ hpart), Nat.mul_zero]
      exact Nat.zero_le _
    · have howed := hrounds.ge
      rw [Nat.mul_comm] at howed
      exact mul_le_mul_trans hpos hprice howed

/-- On a ledger with a history, no action without interest raises the price of a bond, and whoever
has as many bonds after it as before it owes no more. -/
theorem debts_do_not_rise (steps : List Step) {caller : Key} {action : Action} {e : Effect}
    (h : (genesis.run steps).apply caller action 0 = .ok e) :
    ((e.ledger.pool.liquidity.toNat : Int) - e.ledger.pool.borrowable.toNat) *
        (genesis.run steps).pool.bonds.toNat ≤
      ((genesis.run steps).pool.liquidity.toNat - (genesis.run steps).pool.borrowable.toNat) *
        e.ledger.pool.bonds.toNat ∧
    ∀ holder, (e.ledger.account holder).bonds = ((genesis.run steps).account holder).bonds →
      ∃ before after, (genesis.run steps).debtOwed holder = .ok before ∧
        e.ledger.debtOwed holder = .ok after ∧ after ≤ before := by
  have hl := healthy_run steps
  have hacts := acts_of_apply h
  have hafter := hl.act hacts
  have hprice := hl.bond_price hacts
  refine ⟨?_, ?_⟩
  · have hlent : ∀ pool : Pool, pool.Solvent →
        (pool.liquidity.toNat : Int) - pool.borrowable.toNat = pool.lent :=
      fun pool hsolvent => (Int.ofNat_sub hsolvent).symm
    rw [hlent _ hl.solvent, hlent _ hafter.solvent]
    exact_mod_cast hprice
  · intro holder hkept
    obtain ⟨before, hbefore⟩ := hl.toSound.exists_debtOwed holder
    obtain ⟨owed, howed⟩ := hafter.toSound.exists_debtOwed holder
    exact ⟨before, owed, hbefore, howed,
      debtOwed_mono hl.toSound hafter.toSound hprice hkept hbefore howed⟩

/-- Two holders borrow what the first has supplied, the second of them after interest. -/
def twoDebtors : List Step :=
  [.request (.charging 0 (.mint ⟨100, by decide⟩) 0),
    .request (.charging 0 (.borrow ⟨40, by decide⟩) 0),
    .request (.charging ⟨List.replicate 32 1, rfl⟩ (.borrow ⟨8, by decide⟩) ⟨11, by decide⟩)]

theorem first_debt_does_not_rise :
    ∃ e, (genesis.run twoDebtors).apply ⟨List.replicate 32 1, rfl⟩ (.repay ⟨3, by decide⟩) 0 =
        .ok e ∧
      (e.ledger.account 0).bonds = ((genesis.run twoDebtors).account 0).bonds ∧
      ∃ before after, (genesis.run twoDebtors).debtOwed 0 = .ok before ∧
        e.ledger.debtOwed 0 = .ok after ∧ after ≤ before := by
  obtain ⟨e, he, hkept⟩ : ∃ e,
      (genesis.run twoDebtors).apply ⟨List.replicate 32 1, rfl⟩ (.repay ⟨3, by decide⟩) 0 = .ok e ∧
      (e.ledger.account 0).bonds = ((genesis.run twoDebtors).account 0).bonds := ⟨_, rfl, rfl⟩
  exact ⟨e, he, hkept, (debts_do_not_rise twoDebtors he).2 0 hkept⟩

end Ledger

end Lending
