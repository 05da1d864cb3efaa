import Lending.Proofs.BondPrice
import Lending.Proofs.Stakes

/-!
# What a borrower comes to owe

A pool that never collects less than it lent asks of a loan that the borrower owes all of it
afterwards, its fee included, on top of what he owed before. Rounding up gives this wherever there
is a price (`RoundsUp.add_le_of_joined`): he holds part of the old bonds and all of the new ones,
and the new ones are not cheaper than the old. It gives it too where nothing is lent out yet, as a
bond is then one unit.

There is one more case, and in it a loan is free. Interest can be charged while nobody has borrowed,
and is then a debt that has no bonds (`Pool.OwnerlessDebt`). A price of zero bonds for a unit rounds
up to none, so whoever borrows from such a pool is assigned nothing and owes nothing. The result at
the end says both, for all ledgers with a history.
-/

set_option autoImplicit false

namespace Lending

/-- Something is lent out, and there are no bonds for it. -/
def Pool.OwnerlessDebt (pool : Pool) : Prop := pool.bonds = 0 ∧ 0 < pool.lent

open Quantity

/-- Where debt has bonds, a loan is assigned some: they are priced at one for a unit, or they cover
a part of the debt. -/
theorem Pool.bondsFor_pos {pool : Pool} {amount bonds : Amount} (howner : ¬pool.OwnerlessDebt)
    (h : pool.bondsFor amount = .ok bonds) (hpos : 0 < amount.toNat) : 0 < bonds.toNat := by
  rcases bondsFor_cases h with ⟨-, rfl⟩ | ⟨hlent, hrounds⟩
  · exact hpos
  · have hB : 0 < pool.bonds.toNat :=
      Nat.pos_of_ne_zero fun hz => howner ⟨eq_zero_iff.mpr hz, hlent⟩
    have hsome : 0 < bonds.toNat * pool.lent := Nat.lt_of_lt_of_le (Nat.mul_pos hpos hB) hrounds.ge
    exact Nat.pos_of_mul_pos_right hsome

namespace Ledger

variable {l after : Ledger}

/-- A holder joins the debt with `owed` and is assigned so many bonds. Read from the ledger after to
the one before, he leaves it. -/
structure Joins (l after : Ledger) (holder : Key) (assigned owed : Nat) : Prop where
  lent : after.pool.lent = l.pool.lent + owed
  bonds : after.pool.bonds.toNat = l.pool.bonds.toNat + assigned
  own : (after.account holder).bonds.toNat = (l.account holder).bonds.toNat + assigned

/-- Whoever borrows joins the debt with the loan and its fee. -/
theorem Sound.exists_of_borrow (hl : l.Sound) {caller : Key} {amount : Amount} {r : Receipt}
    (h : l.Acts caller (.borrow amount) r after) :
    ∃ owed bonds fee : Amount, owed.toNat = amount.toNat + fee.toNat ∧
      l.fees.borrowingFee amount = .ok fee ∧ r = .borrowed amount bonds fee ∧
      l.pool.bondsFor owed = .ok bonds ∧ l.Joins after caller bonds.toNat owed.toNat := by
  have hlent := h.settles.lent hl.solvent (hl.act h).solvent
  have hbonds := h.settles.bonds
  have hown := (h.settles_holder trivial).bonds
  obtain ⟨q, hq, -⟩ := h.exists_trade trivial
  cases hq with
  | @borrow _ fee bonds _ hfee hb =>
    obtain ⟨owed, howed, hquote, -⟩ := Position.borrow_eq_ok_iff.mp hb
    simp only [Receipt.turnover, Nat.add_zero, Nat.add_assoc, ← howed] at hlent hbonds hown
    exact ⟨owed, bonds, fee, howed, hfee, rfl, hquote, hlent, hbonds, hown⟩

/-- Whoever joins a debt that has bonds, with the bonds that his part is quoted at, has bonds for it
and owes all of it on top of what he owed. -/
theorem Healthy.add_le_debtOwed (hl : l.Healthy) (hafter : after.Healthy) {caller : Key}
    {owed bonds before now : Amount} (howner : ¬l.pool.OwnerlessDebt)
    (hquote : l.pool.bondsFor owed = .ok bonds)
    (hjoins : l.Joins after caller bonds.toNat owed.toNat)
    (hbefore : l.debtOwed caller = .ok before) (hnow : after.debtOwed caller = .ok now) :
    before.toNat + owed.toNat ≤ now.toNat ∧ (0 < owed.toNat → 0 < bonds.toNat) := by
  refine ⟨?_, Pool.bondsFor_pos howner hquote⟩
  have hpart := le_def.mp (hl.balanced.within caller).bonds_le
  have hnow' := hafter.toSound.debtOwed_cases hnow
  rw [hjoins.lent, hjoins.bonds, hjoins.own] at hnow'
  rcases Pool.bondsFor_cases hquote with ⟨hnothing, rfl⟩ | ⟨hpos, hassigned⟩
  · -- Nothing was lent out, so there were no bonds, and this loan is all of the debt now.
    have hnone : l.pool.bonds.toNat = 0 := Nat.le_zero.mp (hnothing ▸ hl.priced.bonds_le_lent)
    have hnoone : (l.account caller).bonds.toNat = 0 := Nat.le_zero.mp (hnone ▸ hpart)
    have hbefore0 : before.toNat = 0 := by
      rcases hl.toSound.debtOwed_cases hbefore with ⟨-, rfl⟩ | ⟨hsome, -⟩
      · rfl
      · omega
    rw [hnothing, hnone, hnoone, Nat.zero_add] at hnow'
    rw [hbefore0, Nat.zero_add]
    rcases hnow' with ⟨hzero, -⟩ | ⟨hsome, hrounds⟩
    · rw [hzero]
      exact Nat.zero_le _
    · exact Nat.le_of_mul_le_mul_right hrounds.ge hsome
  · have hB : 0 < l.pool.bonds.toNat :=
      Nat.pos_of_ne_zero fun hz => howner ⟨eq_zero_iff.mpr hz, hpos⟩
    rcases hnow' with ⟨hzero, -⟩ | ⟨-, hrounds⟩
    · omega
    · rcases hl.toSound.debtOwed_cases hbefore with ⟨hzero, -⟩ | ⟨-, hrounds₀⟩
      · omega
      · have hcovered := hassigned.ge
        exact hrounds₀.add_le_of_joined (p := 0) hpart hrounds (by rwa [Nat.zero_mul])

/-- On a ledger with a history, whoever borrows owes the loan and its fee on top of what he owed
once the interest was charged, and is assigned bonds for it, unless there was a debt that nobody
owed. In that case he is assigned no bonds and owes nothing at all. -/
theorem borrow_is_owed (steps : List Step) {caller : Key} {amount interest : Amount} {e : Effect}
    (h : (genesis.run steps).apply caller (.borrow amount) interest = .ok e) :
    ∃ (charged : Ledger) (bonds fee before after : Amount),
      (genesis.run steps).accrue interest = .ok charged ∧
      charged.fees.borrowingFee amount = .ok fee ∧
      e.receipt = .borrowed amount bonds fee ∧
      charged.debtOwed caller = .ok before ∧ e.ledger.debtOwed caller = .ok after ∧
      (¬charged.pool.OwnerlessDebt →
        before.toNat + amount.toNat + fee.toNat ≤ after.toNat ∧
          (0 < amount.toNat + fee.toNat → 0 < bonds.toNat)) ∧
      (charged.pool.OwnerlessDebt → bonds = 0 ∧ after = 0) := by
  obtain ⟨-, charged, hcharged, hacts⟩ := exists_of_apply h
  have hl := (healthy_run steps).accrue hcharged
  have hafter := hl.act hacts
  obtain ⟨owed, bonds, fee, howed, hfee, hreceipt, hquote, hjoins⟩ :=
    hl.toSound.exists_of_borrow hacts
  obtain ⟨before, hbefore⟩ := hl.toSound.exists_debtOwed caller
  obtain ⟨after, hnow⟩ := hafter.toSound.exists_debtOwed caller
  refine ⟨charged, bonds, fee, before, after, hcharged, hfee, hreceipt, hbefore, hnow, ?_, ?_⟩
  · intro howner
    rw [Nat.add_assoc, ← howed]
    exact hl.add_le_debtOwed hafter howner hquote hjoins hbefore hnow
  · intro hownerless
    obtain ⟨hnone, hpos⟩ := hownerless
    have hassigned : bonds.toNat = 0 := by
      rcases Pool.bondsFor_cases hquote with ⟨hnothing, -⟩ | ⟨-, hrounds⟩
      · omega
      · rw [hnone, toNat_zero] at hrounds
        exact Nat.le_zero.mp (hrounds.le_iff.mpr (by omega))
    refine ⟨eq_zero_iff.mpr hassigned, ?_⟩
    rcases hafter.toSound.debtOwed_cases hnow with ⟨-, hzero⟩ | ⟨hsome, -⟩
    · exact hzero
    · rw [hjoins.bonds, hnone, hassigned, toNat_zero] at hsome
      omega

/-- The second of the two debtors borrows once more, at a price above one. -/
theorem second_loan_is_owed :
    ∃ e charged before after, (genesis.run twoDebtors).apply ⟨List.replicate 32 1, rfl⟩
        (.borrow ⟨7, by decide⟩) ⟨3, by decide⟩ = .ok e ∧
      (genesis.run twoDebtors).accrue ⟨3, by decide⟩ = .ok charged ∧
      charged.debtOwed ⟨List.replicate 32 1, rfl⟩ = .ok before ∧
      e.ledger.debtOwed ⟨List.replicate 32 1, rfl⟩ = .ok after ∧
      before.toNat + 7 ≤ after.toNat := by
  obtain ⟨e, he⟩ : ∃ e, (genesis.run twoDebtors).apply ⟨List.replicate 32 1, rfl⟩
      (.borrow ⟨7, by decide⟩) ⟨3, by decide⟩ = .ok e := ⟨_, rfl⟩
  obtain ⟨charged, bonds, fee, before, after, hcharged, -, -, hbefore, hafter, howed, -⟩ :=
    borrow_is_owed twoDebtors he
  have howner : ¬charged.pool.OwnerlessDebt := by
    have hsome : (genesis.run twoDebtors).pool.bonds ≠ 0 := by decide
    obtain ⟨_, -, rfl⟩ := accrue_eq_ok_iff.mp hcharged
    exact fun hnone => hsome hnone.1
  have hle := (howed howner).1
  exact ⟨e, charged, before, after, he, hcharged, hbefore, hafter,
    Nat.le_trans (Nat.le_add_right _ _) hle⟩

/-- Interest is charged on liquidity of which nobody has borrowed any. -/
def ownerlessDebt : List Step :=
  [.request (.charging 0 (.mint ⟨20, by decide⟩) 0),
    .request (.charging 0 .accrue ⟨5, by decide⟩)]

/-- Then the next loan is assigned no bonds and is not owed by anybody. -/
theorem loan_on_ownerless_debt_is_free :
    ∃ e charged, (genesis.run ownerlessDebt).apply 0 (.borrow ⟨1, by decide⟩) 0 = .ok e ∧
      (genesis.run ownerlessDebt).accrue 0 = .ok charged ∧
      e.receipt = .borrowed ⟨1, by decide⟩ 0 0 ∧
      charged.debtOwed 0 = .ok 0 ∧ e.ledger.debtOwed 0 = .ok 0 :=
  ⟨_, _, rfl, rfl, rfl, rfl, rfl⟩

end Ledger

end Lending
