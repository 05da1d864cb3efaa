import Lending.Proofs.Factoring
import Lending.Proofs.Refusals
import Lending.Proofs.Tidiness

/-!
# Three ways to retire bonds, and why they agree

Bonds are retired by their number, when a debtor repays; for a sum of cash, when somebody pays for
the debtor; and for a sum of the debtor's own collateral, when the debtor is liquidated. The three
check different bounds in a different order and name different faults. What they do is the same.

* What a conversion spends is what the bonds that it burns are worth (`Pool.debtFor_of_convert`), so
  the debtor could have retired those bonds by their number (`Position.repay_of_repayWithCash`).
  Only a debt without bonds sets the two apart: it is retired whole by whoever repays, and cash does
  not touch it.
* A liquidation is a payment with the cash, and then a withdrawal of what that spent. Once there is
  collateral for all of the cash, its other bounds never stop it
  (`Position.liquidate_of_repayWithCash`).

The second of these is one of an account within the totals. A ledger that passes its audit has no
others, whatever its prices.
-/

set_option autoImplicit false

namespace Lending

open Quantity

/-! ## Bonds burned for cash are bonds retired at their worth -/

theorem BondBook.debtFor?_of_convert? {w : Nat} {book : BondBook w} {cash held : Quantity w}
    {c : Conversion w} (hbonds : 0 < book.bonds.toNat) (h : book.convert? cash held = some c) :
    book.debtFor? c.burned = some c.repaid := by
  obtain ⟨-, ⟨hnone, -⟩ | ⟨-, hrounds⟩⟩ := convert?_cases h
  · omega
  · have hsome : book.bonds ≠ 0 := fun hz => Nat.ne_of_gt hbonds (eq_zero_iff.mp hz)
    rw [debtFor?_of_pos hsome]
    exact mulDivCeil?_eq_some_iff.mpr ⟨hrounds.ge, hrounds.lt⟩

theorem Pool.debtFor_of_convert {pool : Pool} {cash held : Amount} {c : Conversion 128}
    (hbonds : 0 < pool.bonds.toNat) (h : pool.convert cash held = .ok c) :
    pool.debtFor c.burned = .ok c.repaid := by
  obtain ⟨book, hbook, hc⟩ := bind_eq_ok_iff.mp h
  have hsame := (bondBook_eq_ok_iff.mp hbook).2
  rw [← hsame] at hbonds
  exact bind_eq_ok_iff.mpr ⟨book, hbook,
    demand_eq_ok_iff.mpr (BondBook.debtFor?_of_convert? hbonds (demand_eq_ok_iff.mp hc))⟩

namespace Position

variable {p q mid : Position} {cash : Amount} {c : Conversion 128}

/-- Whoever pays with cash could have retired the same bonds by their number. -/
theorem repay_of_repayWithCash (hbonds : 0 < p.pool.bonds.toNat)
    (h : p.repayWithCash cash = .ok (c, q)) : p.repay c.burned = .ok (c.repaid, q) := by
  obtain ⟨hc, -, borrowable, own, total, hborrowable, hle, hown, htotal, rfl⟩ :=
    exists_of_repayWithCash h
  exact repay_eq_ok_iff.mpr ⟨Pool.debtFor_of_convert hbonds hc, own, borrowable, total, hown,
    hborrowable, hle, htotal, rfl⟩

/-! ## A liquidation pays with cash and withdraws it -/

theorem liquidate_of_error {f : Fault} (hcash : cash ≤ p.account.collateral)
    (h : p.repayWithCash cash = .error f) : p.liquidate cash = .error f := by
  rw [liquidate, bind_of_ok (require_eq_ok_iff (u := ()).mpr hcash), h]
  rfl

/-- What a payment spends is no more than the cash, so where that is there to be seized it can be
withdrawn, and the liquidation comes to the same. -/
theorem liquidate_of_repayWithCash (hw : p.Within) (hcash : cash ≤ p.account.collateral)
    (h : p.repayWithCash cash = .ok (c, mid)) :
    ∃ q, mid.withdraw c.repaid = .ok q ∧ p.liquidate cash = .ok (c, q) := by
  obtain ⟨-, hspent, _, _, _, -, -, -, -, rfl⟩ := exists_of_repayWithCash h
  have hown := le_def.mp hw.collateral_le
  rw [le_def] at hcash hspent
  have hseized := toNat_sub_add_toNat (Nat.le_trans hspent hcash)
  have htotal := toNat_sub_add_toNat (Nat.le_trans (Nat.le_trans hspent hcash) hown)
  exact ⟨_, withdraw_eq_ok_iff.mpr ⟨_, _, hseized, htotal, rfl⟩,
    liquidate_eq_ok_iff.mpr ⟨le_def.mpr hcash, _, h, _, _, hseized, htotal, rfl⟩⟩

end Position

/-! ## Requests -/

namespace Ledger

variable {l : Ledger}

theorem accounts_of_accrue {interest : Amount} {charged : Ledger}
    (h : l.accrue interest = .ok charged) : charged.accounts = l.accounts := by
  obtain ⟨_, -, rfl⟩ := accrue_eq_ok_iff.mp h
  rfl

/-- Of one sum for one debtor, a liquidation and a payment are refused for the same fault; or they
retire the same bonds at the same cost, and the withdrawal of that is the only difference. -/
theorem Sound.liquidation_cases (hl : l.Sound) (liquidator payer : Key) {debtor : Key}
    {cash : Amount} (interest : Amount) (hcash : cash ≤ (l.account debtor).collateral) :
    (∃ f, l.apply liquidator (.liquidate debtor cash) interest = .error f ∧
      l.apply payer (.repayFor debtor cash) interest = .error f) ∨
    ∃ (bonds spent : Amount) (e e' w : Effect),
      l.apply liquidator (.liquidate debtor cash) interest = .ok e ∧
      e.receipt = .liquidated debtor spent bonds ∧
      l.apply payer (.repayFor debtor cash) interest = .ok e' ∧
      e'.receipt = .repaidFor debtor spent bonds (cash - spent) ∧
      e'.ledger.apply debtor (.withdraw spent) 0 = .ok w ∧ w.ledger = e.ledger := by
  cases hcharged : l.accrue interest with
  | error f =>
    refine .inl ⟨f, ?_, ?_⟩
    · rw [apply, hcharged]
      rfl
    · rw [apply, hcharged]
      rfl
  | ok charged =>
    have hw : (charged.position debtor).Within := (hl.accrue hcharged).balanced.within debtor
    have hheld : cash ≤ (charged.position debtor).account.collateral := by
      rw [position, account, accounts_of_accrue hcharged]
      exact hcash
    rw [apply_of_accrue hcharged, apply_of_accrue hcharged, Ledger.act, Ledger.act]
    cases hpaid : (charged.position debtor).repayWithCash cash with
    | error f =>
      rw [Position.liquidate_of_error hheld hpaid]
      exact .inl ⟨f, rfl, rfl⟩
    | ok paid =>
      obtain ⟨c, mid⟩ := paid
      obtain ⟨q, hq, hseized⟩ := Position.liquidate_of_repayWithCash hw hheld hpaid
      -- The withdrawal finds the debtor's position as the payment left it, and writes over it.
      have hwithdrawn : (charged.setPosition debtor mid).act debtor (.withdraw c.repaid) =
          .ok (.withdrawn c.repaid, charged.setPosition debtor q) := by
        rw [Ledger.act, position_setPosition, hq, ← setPosition_setPosition charged debtor mid q]
        rfl
      rw [hseized]
      exact .inr ⟨c.burned, c.repaid, _, _, _, rfl, rfl, rfl, rfl, apply_of_act hwithdrawn, rfl⟩

/-- Bonds that are burned for cash, whoever pays it, could have been retired by the debtor at the
same cost and with the same ledger left. Cash that is no more than the debtor's collateral
liquidates the debtor if and only if it pays for the debtor, burns as many bonds and is spent as
far; and the ledger it leaves is that of the payment, after the debtor has withdrawn what was
spent. -/
theorem bonds_are_retired_alike (l : Ledger) (debtor payer liquidator : Key)
    (cash interest : Amount) :
    (0 < l.pool.bonds.toNat → ∀ e, l.apply payer (.repayFor debtor cash) interest = .ok e →
      ∃ bonds spent, e.receipt = .repaidFor debtor spent bonds (cash - spent) ∧
        ∃ e', l.apply debtor (.repay bonds) interest = .ok e' ∧
          e'.receipt = .repaid bonds spent ∧ e'.ledger = e.ledger) ∧
    (l.audit = .ok () → cash ≤ (l.account debtor).collateral →
      ((∃ e, l.apply liquidator (.liquidate debtor cash) interest = .ok e) ↔
        ∃ e', l.apply payer (.repayFor debtor cash) interest = .ok e') ∧
      ∀ e e', l.apply liquidator (.liquidate debtor cash) interest = .ok e →
        l.apply payer (.repayFor debtor cash) interest = .ok e' →
        ∃ bonds spent, e.receipt = .liquidated debtor spent bonds ∧
          e'.receipt = .repaidFor debtor spent bonds (cash - spent) ∧
          ∃ w, e'.ledger.apply debtor (.withdraw spent) 0 = .ok w ∧ w.ledger = e.ledger) := by
  refine ⟨?_, ?_⟩
  · intro hbonds e he
    obtain ⟨receipt, _, after⟩ := e
    obtain ⟨-, charged, hcharged, hacts⟩ := exists_of_apply he
    obtain ⟨q, hq, rfl⟩ := hacts.exists_trade trivial
    cases hq with
    | @repayFor _ _ c _ hpaid =>
      -- Interest adds no bonds.
      have hbonds' : 0 < charged.pool.bonds.toNat := by
        obtain ⟨_, -, rfl⟩ := accrue_eq_ok_iff.mp hcharged
        exact hbonds
      have hrepaid : charged.act debtor (.repay c.burned) =
          .ok (.repaid c.burned c.repaid, charged.setPosition debtor q) :=
        bind_eq_ok_iff.mpr ⟨_, Position.repay_of_repayWithCash hbonds' hpaid, rfl⟩
      have hsame : l.apply debtor (.repay c.burned) interest =
          .ok ⟨.repaid c.burned c.repaid, interest, charged.setPosition debtor q⟩ := by
        rw [apply_of_accrue hcharged, hrepaid]
        rfl
      exact ⟨c.burned, c.repaid, rfl, _, hsame, rfl, rfl⟩
  · intro haudit hcash
    rcases (sound_iff.mpr haudit).liquidation_cases liquidator payer interest hcash with
      ⟨f, hliquidation, hpayment⟩ | ⟨bonds, spent, e, e', w, he, hr, he', hr', hw, hsame⟩
    · rw [hliquidation, hpayment]
      refine ⟨Iff.rfl, ?_⟩
      intro e e' he
      cases he
    · refine ⟨⟨fun _ => ⟨e', he'⟩, fun _ => ⟨e, he⟩⟩, ?_⟩
      intro x x' hx hx'
      cases he.symm.trans hx
      cases he'.symm.trans hx'
      exact ⟨bonds, spent, hr, hr', w, hw, hsame⟩

/-- Of five in cash, four retire two of three bonds, and one is left. The holder could have retired
them, and a liquidation for five seizes four. -/
theorem five_retire_two_bonds :
    ∃ e e' e'' w : Effect,
      soleHolder.apply ⟨List.replicate 32 6, rfl⟩ (.repayFor 0 ⟨5, by decide⟩) ⟨1, by decide⟩ =
        .ok e ∧
      e.receipt = .repaidFor 0 ⟨4, by decide⟩ ⟨2, by decide⟩ ⟨1, by decide⟩ ∧
      soleHolder.apply 0 (.repay ⟨2, by decide⟩) ⟨1, by decide⟩ = .ok e' ∧
      e'.ledger = e.ledger ∧
      soleHolder.apply ⟨List.replicate 32 5, rfl⟩ (.liquidate 0 ⟨5, by decide⟩) ⟨1, by decide⟩ =
        .ok e'' ∧
      e.ledger.apply 0 (.withdraw ⟨4, by decide⟩) 0 = .ok w ∧ w.ledger = e''.ledger := by
  obtain ⟨hrepay, hliquidate⟩ := bonds_are_retired_alike soleHolder 0 ⟨List.replicate 32 6, rfl⟩
    ⟨List.replicate 32 5, rfl⟩ ⟨5, by decide⟩ ⟨1, by decide⟩
  obtain ⟨e, he, hreceipt⟩ : ∃ e, soleHolder.apply ⟨List.replicate 32 6, rfl⟩
      (.repayFor 0 ⟨5, by decide⟩) ⟨1, by decide⟩ = .ok e ∧
      e.receipt = .repaidFor 0 ⟨4, by decide⟩ ⟨2, by decide⟩ ⟨1, by decide⟩ := ⟨_, rfl, rfl⟩
  obtain ⟨bonds, spent, hr, e', he', -, hsame⟩ := hrepay (by decide) e he
  cases hreceipt.symm.trans hr
  obtain ⟨hiff, hagree⟩ := hliquidate rfl (by decide)
  obtain ⟨e'', he''⟩ := hiff.mpr ⟨e, he⟩
  obtain ⟨_, _, -, hr', w, hw, hafter⟩ := hagree e'' e he'' he
  cases hr.symm.trans hr'
  exact ⟨e, e', e'', w, he, hreceipt, he', hsame, he'', hw, hafter⟩

end Ledger

end Lending
