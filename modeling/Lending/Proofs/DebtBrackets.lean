import Lending.Proofs.Borrowing

/-!
# A debt moves by what is paid on it, or borrowed

A debtor who pays expects to owe that much less, and one who borrows to owe that much more. What he
owes is a part of the debt, rounded up, and a trade moves his part, all bonds and the debt at once,
at a price that is rounded up as well. Two roundings could make two units. They make one at most:
after a payment he owes what he owed less what was paid, or one more (`Sound.debt_of_payment`).

A loan is rounded in bonds and not in units, since he is assigned whole ones. So he owes the loan
and its fee on top, and beyond that at most what one bond owes (`Sound.debt_of_loan`).

All of this is arithmetic of stakes (`RoundsUp.left_bracket`, `RoundsUp.joined_bracket`), for
anybody who holds any part of the bonds. What is shown here is that the three ways to pay a debt are
one, in which somebody leaves the debt at the price of his bonds (`Sound.exists_payment`), and that
a loan is the other way round. Nothing else is asked of the ledger but that it passes its audit and
that there are bonds to price.
-/

set_option autoImplicit false

namespace Lending

/-- The action pays a debt: with the caller's own money, or out of the victim's collateral. -/
def Action.IsPayment : Action → Prop
  | .repay _ | .liquidate _ _ | .repayFor _ _ => True
  | _ => False

/-- What a receipt tells of a payment: the bonds that are gone, and what they cost. -/
def Receipt.payment? : Receipt → Option (Amount × Amount)
  | .repaid bonds credited => some (bonds, credited)
  | .liquidated _ seized bonds => some (bonds, seized)
  | .repaidFor _ spent bonds _ => some (bonds, spent)
  | _ => none

theorem Action.IsPayment.isTrade {action : Action} (h : action.IsPayment) : action.IsTrade := by
  cases action with
  | repay _ | liquidate _ _ | repayFor _ _ => trivial
  | deposit _ | withdraw _ | mint _ | burn _ | borrow _ | accrue | transfer _ _ | approve _ _
  | raiseAllowance _ _ | lowerAllowance _ _ | transferFrom _ _ _ => cases h

/-- What one bond owes, rounded up to a whole unit. -/
def Pool.bondPrice (pool : Pool) : Nat := (pool.lent + (pool.bonds.toNat - 1)) / pool.bonds.toNat

namespace Ledger

open Quantity

variable {l after : Ledger} {caller holder : Key} {action : Action} {r : Receipt}
variable {bonds paid owed before now : Amount}

/-! ## Payments -/

/-- A payment leaves the debt at the price of the bonds that are gone. -/
theorem Sound.exists_payment (hl : l.Sound) (h : l.Acts caller action r after)
    (hpays : action.IsPayment) (hpos : 0 < l.pool.bonds.toNat) :
    ∃ bonds paid : Amount, r.payment? = some (bonds, paid) ∧
      after.Joins l (action.holder caller) bonds.toNat paid.toNat ∧
      RoundsUp paid.toNat bonds.toNat l.pool.lent l.pool.bonds.toNat := by
  have hlent := h.settles.lent hl.solvent (hl.act h).solvent
  have hbonds := h.settles.bonds
  have hown := (h.settles_holder hpays.isTrade).bonds
  obtain ⟨q, hq, -⟩ := h.exists_trade hpays.isTrade
  cases hq with
  | deposit _ | withdraw _ | mint _ _ | burn _ | borrow _ _ => cases hpays
  | repay hrepay =>
    simp only [Receipt.turnover, Nat.add_zero] at hlent hbonds hown
    have hworth := Pool.debtFor_cases (Position.repay_eq_ok_iff.mp hrepay).1
    exact ⟨_, _, rfl, ⟨hlent.symm, hbonds.symm, hown.symm⟩, quotient_of_pos hpos hworth⟩
  | liquidate hseized =>
    simp only [Receipt.turnover, Nat.add_zero] at hlent hbonds hown
    have hcost := (Pool.convert_cases (Position.exists_of_liquidate hseized).1).2
    exact ⟨_, _, rfl, ⟨hlent.symm, hbonds.symm, hown.symm⟩, quotient_of_pos hpos hcost⟩
  | repayFor hspent =>
    simp only [Receipt.turnover, Nat.add_zero] at hlent hbonds hown
    have hcost := (Pool.convert_cases (Position.exists_of_repayWithCash hspent).1).2
    exact ⟨_, _, rfl, ⟨hlent.symm, hbonds.symm, hown.symm⟩, quotient_of_pos hpos hcost⟩

/-- Who leaves the debt at the price of his bonds owes as much less, or one unit more than that. -/
theorem Sound.debt_of_payment (hl : l.Sound) (hafter : after.Sound)
    (hleaves : after.Joins l holder bonds.toNat paid.toNat) (hpos : 0 < l.pool.bonds.toNat)
    (hprice : RoundsUp paid.toNat bonds.toNat l.pool.lent l.pool.bonds.toNat)
    (hbefore : l.debtOwed holder = .ok before) (hnow : after.debtOwed holder = .ok now) :
    before.toNat ≤ now.toNat + paid.toNat ∧ now.toNat + paid.toNat ≤ before.toNat + 1 := by
  have hpart := le_def.mp (hafter.balanced.within holder).bonds_le
  have hrounds := quotient_of_pos hpos (hl.debtOwed_cases hbefore)
  rcases hafter.debtOwed_cases hnow with ⟨hnone, rfl⟩ | ⟨-, hrounds'⟩
  · -- The last bonds are gone, and they were all his: he owed all of the debt, and paid it.
    have hleft : (after.account holder).bonds.toNat = 0 := Nat.le_zero.mp (hnone ▸ hpart)
    have hall : (l.account holder).bonds.toNat = bonds.toNat := by
      rw [hleaves.own, hleft, Nat.zero_add]
    have hbefore_eq : before.toNat = paid.toNat := by
      rw [hall] at hrounds
      exact Nat.le_antisymm (hrounds.le_iff.mpr hprice.ge) (hprice.le_iff.mpr hrounds.ge)
    rw [toNat_zero]
    omega
  · rw [hleaves.lent, hleaves.bonds] at hprice hrounds
    rw [hleaves.own] at hrounds
    exact hprice.left_bracket hpart hrounds hrounds'

/-! ## Loans -/

/-- Who joins the debt with a loan at the price of the bonds owes it on top, and beyond that no more
than one bond does. -/
theorem Sound.debt_of_loan (hl : l.Sound) (hafter : after.Sound)
    (hjoins : l.Joins after holder bonds.toNat owed.toNat) (hpos : 0 < l.pool.bonds.toNat)
    (hlent : 0 < l.pool.lent) (hquote : l.pool.bondsFor owed = .ok bonds)
    (hbefore : l.debtOwed holder = .ok before) (hnow : after.debtOwed holder = .ok now) :
    before.toNat + owed.toNat ≤ now.toNat ∧
      now.toNat ≤ before.toNat + owed.toNat + l.pool.bondPrice := by
  have hpart := le_def.mp (hl.balanced.within holder).bonds_le
  have hrounds := quotient_of_pos hpos (hl.debtOwed_cases hbefore)
  have hpos' : 0 < after.pool.bonds.toNat := by
    rw [hjoins.bonds]
    exact Nat.add_pos_left hpos _
  have hrounds' := quotient_of_pos hpos' (hafter.debtOwed_cases hnow)
  have hassigned := quotient_of_pos hlent (Pool.bondsFor_cases hquote)
  rw [hjoins.lent, hjoins.bonds, hjoins.own] at hrounds'
  exact hassigned.joined_bracket hpart (le_ceil_mul hpos) hrounds hrounds'

/-! ## Requests -/

/-- On a ledger that passes its audit, with bonds in its pool, a payment lowers what its debtor owes
by what was paid, or by one less. A loan raises it by the loan and its fee, or by more, but by no
more than a bond owes. Both are counted from the charge of the interest. -/
theorem debts_move_by_what_is_paid (haudit : l.audit = .ok ()) {request : Request} {e : Effect}
    (h : l.attempt request = .ok e) :
    ∃ (charged : Ledger) (before after : Amount), l.accrue e.interest = .ok charged ∧
      charged.debtOwed (request.action.holder request.caller) = .ok before ∧
      e.ledger.debtOwed (request.action.holder request.caller) = .ok after ∧
      (0 < charged.pool.bonds.toNat →
        (request.action.IsPayment → ∃ bonds paid : Amount,
          e.receipt.payment? = some (bonds, paid) ∧
          before.toNat ≤ after.toNat + paid.toNat ∧
          after.toNat + paid.toNat ≤ before.toNat + 1) ∧
        ∀ amount, request.action = .borrow amount → 0 < charged.pool.lent →
          ∃ bonds fee : Amount, e.receipt = .borrowed amount bonds fee ∧
            before.toNat + amount.toNat + fee.toNat ≤ after.toNat ∧
            after.toNat ≤
              before.toNat + amount.toNat + fee.toNat + charged.pool.bondPrice) := by
  obtain ⟨time, charged, acted, -, hcharged, hacts, hstamp⟩ := exists_of_attempt h
  have hl := (sound_iff.mpr haudit).accrue hcharged
  have hacted := hl.act hacts
  obtain ⟨before, hbefore⟩ := hl.exists_debtOwed (request.action.holder request.caller)
  obtain ⟨now, hnow⟩ := hacted.exists_debtOwed (request.action.holder request.caller)
  -- The stamp is not read when a debt is priced.
  have hstamped : e.ledger.debtOwed (request.action.holder request.caller) = .ok now := by
    rw [hstamp]
    exact hnow
  refine ⟨charged, before, now, hcharged, hbefore, hstamped, fun hpos => ⟨?_, ?_⟩⟩
  · intro hpays
    obtain ⟨bonds, paid, hpayment, hleaves, hprice⟩ := hl.exists_payment hacts hpays hpos
    exact ⟨bonds, paid, hpayment, hl.debt_of_payment hacted hleaves hpos hprice hbefore hnow⟩
  · intro amount hloan hlent
    rw [hloan] at hacts hbefore hnow
    obtain ⟨owed, bonds, fee, howed, -, hreceipt, hquote, hjoins⟩ := hl.exists_of_borrow hacts
    have hbracket := hl.debt_of_loan hacted hjoins hpos hlent hquote hbefore hnow
    rw [howed, ← Nat.add_assoc] at hbracket
    exact ⟨bonds, fee, hreceipt, hbracket⟩

/-- The second of two debtors pays for the first one, or borrows more. -/
theorem second_debtor_pays_or_borrows :
    (genesis.run twoDebtors).audit = .ok () ∧
    (∃ (e : Effect) (charged : Ledger) (bonds paid before after : Amount),
      (genesis.run twoDebtors).attempt
        (.charging ⟨List.replicate 32 1, rfl⟩ (.repayFor 0 ⟨15, by decide⟩) ⟨3, by decide⟩) =
        .ok e ∧
      (genesis.run twoDebtors).accrue e.interest = .ok charged ∧ 0 < charged.pool.bonds.toNat ∧
      e.receipt.payment? = some (bonds, paid) ∧
      charged.debtOwed 0 = .ok before ∧ e.ledger.debtOwed 0 = .ok after ∧
      before.toNat ≤ after.toNat + paid.toNat ∧
      after.toNat + paid.toNat ≤ before.toNat + 1) ∧
    ∃ (e : Effect) (charged : Ledger) (bonds fee before after : Amount),
      (genesis.run twoDebtors).attempt
        (.charging ⟨List.replicate 32 1, rfl⟩ (.borrow ⟨6, by decide⟩) ⟨3, by decide⟩) = .ok e ∧
      (genesis.run twoDebtors).accrue e.interest = .ok charged ∧ 0 < charged.pool.bonds.toNat ∧
      0 < charged.pool.lent ∧ e.receipt = .borrowed ⟨6, by decide⟩ bonds fee ∧
      charged.debtOwed ⟨List.replicate 32 1, rfl⟩ = .ok before ∧
      e.ledger.debtOwed ⟨List.replicate 32 1, rfl⟩ = .ok after ∧
      before.toNat + 6 + fee.toNat ≤ after.toNat ∧
      after.toNat ≤ before.toNat + 6 + fee.toNat + charged.pool.bondPrice := by
  have haudit : (genesis.run twoDebtors).audit = .ok () := rfl
  have hbonds : 0 < (genesis.run twoDebtors).pool.bonds.toNat := by decide
  have hlent : 0 < (genesis.run twoDebtors).pool.lent := by decide
  refine ⟨haudit, ?_, ?_⟩
  · obtain ⟨e, he⟩ : ∃ e, (genesis.run twoDebtors).attempt
        (.charging ⟨List.replicate 32 1, rfl⟩ (.repayFor 0 ⟨15, by decide⟩) ⟨3, by decide⟩) =
        .ok e := ⟨_, rfl⟩
    obtain ⟨charged, before, after, hcharged, hbefore, hafter, hbracket⟩ :=
      debts_move_by_what_is_paid haudit he
    have hpos : 0 < charged.pool.bonds.toNat := by
      obtain ⟨_, -, rfl⟩ := accrue_eq_ok_iff.mp hcharged
      exact hbonds
    obtain ⟨bonds, paid, hpayment, hle, hge⟩ := (hbracket hpos).1 trivial
    exact ⟨e, charged, bonds, paid, before, after, he, hcharged, hpos, hpayment, hbefore, hafter,
      hle, hge⟩
  · obtain ⟨e, he⟩ : ∃ e, (genesis.run twoDebtors).attempt
        (.charging ⟨List.replicate 32 1, rfl⟩ (.borrow ⟨6, by decide⟩) ⟨3, by decide⟩) =
        .ok e := ⟨_, rfl⟩
    obtain ⟨charged, before, after, hcharged, hbefore, hafter, hbracket⟩ :=
      debts_move_by_what_is_paid haudit he
    obtain ⟨hpos, hdebt⟩ : 0 < charged.pool.bonds.toNat ∧ 0 < charged.pool.lent := by
      obtain ⟨liquidity, hliquidity, rfl⟩ := accrue_eq_ok_iff.mp hcharged
      refine ⟨hbonds, ?_⟩
      simp only [Pool.lent] at hlent ⊢
      omega
    obtain ⟨bonds, fee, hreceipt, hle, hge⟩ := (hbracket hpos).2 _ rfl hdebt
    exact ⟨e, charged, bonds, fee, before, after, he, hcharged, hpos, hdebt, hreceipt, hbefore,
      hafter, hle, hge⟩

end Ledger

end Lending
