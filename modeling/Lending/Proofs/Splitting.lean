import Lending.Proofs.BondPrice
import Lending.Proofs.SharePrice

/-!
# Two actions never beat one

A holder who wants to mint, redeem, borrow, repay or pay for another may do it at once or in two
actions. Each of the two is rounded against him, but the second meets a pool whose price the first
has moved, so it is not enough that every single quote is rounded the right way.

For minting and borrowing the first action moves the price against the second: a share is dearer
after a mint, and a bond stands for less debt after a loan, so that more of them are assigned for a
unit. The two quotes are compared with the one by way of the moved price (`mul_le_mul_trans`). For
redeeming and for the two ways to burn bonds it is the other way round. What rounding took on the
first part is left in the pool, and the second part has a share in it. That share is never the whole
of it, because the second part is part of what is left, and this is `add_mul_le_of_removed_twice`:
of two parts taken out of a whole, each priced no higher than what was there when it was taken, the
sum is priced no higher than the whole.
-/

set_option autoImplicit false

namespace Lending

theorem add_mul_le_of_removed_twice {P Q P₁ Q₁ x₁ x₂ y₁ y₂ : Nat} (hP : P₁ + x₁ = P)
    (hQ : Q₁ + y₁ = Q) (hx : x₂ ≤ P₁) (hy : y₂ ≤ Q₁) (h₁ : x₁ * Q ≤ y₁ * P)
    (h₂ : x₂ * Q₁ ≤ y₂ * P₁) : (x₁ + x₂) * Q ≤ (y₁ + y₂) * P := by
  obtain ⟨P₂, rfl⟩ := Nat.exists_eq_add_of_le' hx
  obtain ⟨Q₂, rfl⟩ := Nat.exists_eq_add_of_le' hy
  subst hP hQ
  -- Both parts are priced no higher than what is left after them.
  have hfirst : x₁ * Q₂ ≤ P₂ * y₁ := by
    have hleft : x₁ * (Q₂ + y₂) ≤ (P₂ + x₂) * y₁ := by grind
    have hraised := mul_le_mul_of_removed rfl rfl h₂
    rcases Nat.eq_zero_or_pos (Q₂ + y₂) with hz | hpos
    · rw [(Nat.add_eq_zero_iff.mp hz).1, Nat.mul_zero]
      exact Nat.zero_le _
    · exact mul_le_mul_trans hpos hleft hraised
  have hsecond : x₂ * Q₂ ≤ y₂ * P₂ := by grind
  grind

/-- Two fees are no less than the one for both amounts. -/
theorem FeeSchedule.fee_le_add {rate : Rate} {x y z f₁ f₂ f : Amount}
    (hz : z.toNat = x.toNat + y.toNat) (h₁ : FeeSchedule.fee x rate = .ok f₁)
    (h₂ : FeeSchedule.fee y rate = .ok f₂) (h : FeeSchedule.fee z rate = .ok f) :
    f.toNat ≤ f₁.toNat + f₂.toNat := by
  rw [(roundsUp_of_fee h).le_iff, hz, Nat.add_mul, Nat.add_mul]
  exact Nat.add_le_add (roundsUp_of_fee h₁).ge (roundsUp_of_fee h₂).ge

open Quantity

/-- At a price of one, no fewer bonds are assigned than units borrowed. -/
theorem Pool.le_of_bondsFor {pool : Pool} {amount n : Amount} (hone : pool.bonds.toNat = pool.lent)
    (h : pool.bondsFor amount = .ok n) : amount.toNat ≤ n.toNat := by
  rcases bondsFor_cases h with ⟨-, rfl⟩ | ⟨hpos, hrounds⟩
  · exact Nat.le_refl _
  · have hge := hrounds.ge
    rw [hone] at hge
    exact Nat.le_of_mul_le_mul_right hge hpos

/-! ## Two trades and one -/

namespace Position

variable {fees : FeeSchedule} {p q s t : Position} {x y z : Amount} {r₁ r₂ r : Receipt}

theorem Trades.mint_twice (hw : p.Within) (hp : p.pool.Priced) (hz : z.toNat = x.toNat + y.toNat)
    (h₁ : p.Trades fees (.mint x) r₁ q) (h₂ : q.Trades fees (.mint y) r₂ s)
    (h : p.Trades fees (.mint z) r t) :
    ∃ n₁ n₂ n f₁ f₂ f : Amount, r₁ = .minted x n₁ f₁ ∧ r₂ = .minted y n₂ f₂ ∧
      r = .minted z n f ∧ n₁.toNat + n₂.toNat ≤ n.toNat ∧ f.toNat ≤ f₁.toNat + f₂.toNat := by
  have hprice := h₁.share_price
  have hpriced := h₁.priced hw hp
  have hliquidity := h₁.settles.1.liquidity
  cases h₁ with
  | @mint _ f₁ n₁ _ hf₁ h₁ =>
  cases h₂ with
  | @mint _ f₂ n₂ _ hf₂ h₂ =>
  cases h with
  | @mint _ f n _ hf h =>
    have hn₁ := (mint_eq_ok_iff.mp h₁).1
    have hn₂ := (mint_eq_ok_iff.mp h₂).1
    refine ⟨n₁, n₂, n, f₁, f₂, f, rfl, rfl, rfl, ?_, FeeSchedule.fee_le_add hz hf₁ hf₂ hf⟩
    rcases Pool.sharesFor_cases (mint_eq_ok_iff.mp h).1 with ⟨hempty, rfl⟩ | ⟨hpos, hrounds⟩
    · -- The first part starts the pool at one for a unit, and the second buys at no less.
      obtain ⟨n₂', hn₂', hle⟩ := hpriced.exists_sharesFor y
      cases hn₂'.symm.trans hn₂
      rcases Pool.sharesFor_cases hn₁ with ⟨-, rfl⟩ | ⟨hpos, -⟩
      · rw [hz]
        exact Nat.add_le_add_left (le_def.mp hle) _
      · omega
    · have hfirst := Pool.mul_le_of_sharesFor hn₁
      have hsecond := Pool.mul_le_of_sharesFor hn₂
      have hmoved : n₂.toNat * p.pool.liquidity.toNat ≤ p.pool.shares.toNat * y.toNat := by
        have hpos' : 0 < q.pool.liquidity.toNat := by
          simp only [Receipt.turnover] at hliquidity
          omega
        rw [Nat.mul_comm y.toNat] at hsecond
        rw [Nat.mul_comm, Nat.mul_comm q.pool.liquidity.toNat] at hprice
        exact mul_le_mul_trans hpos' hsecond hprice
      rw [hrounds.le_iff, hz, Nat.add_mul, Nat.add_mul, Nat.mul_comm y.toNat]
      exact Nat.add_le_add hfirst hmoved

theorem Trades.burn_twice (hz : z.toNat = x.toNat + y.toNat)
    (h₁ : p.Trades fees (.burn x) r₁ q) (h₂ : q.Trades fees (.burn y) r₂ s)
    (h : p.Trades fees (.burn z) r t) :
    ∃ v₁ v₂ v : Amount, r₁ = .burned x v₁ ∧ r₂ = .burned y v₂ ∧ r = .burned z v ∧
      v₁.toNat + v₂.toNat ≤ v.toNat := by
  obtain ⟨-, hliquidity₁, -, hshares₁, -⟩ := h₁.settles.1
  obtain ⟨-, hliquidity₂, -, hshares₂, -⟩ := h₂.settles.1
  cases h₁ with
  | @burn _ v₁ _ h₁ =>
  cases h₂ with
  | @burn _ v₂ _ h₂ =>
  cases h with
  | @burn _ v _ h =>
    have hv₁ := (burn_eq_ok_iff.mp h₁).1
    have hv₂ := (burn_eq_ok_iff.mp h₂).1
    simp only [Receipt.turnover, Nat.add_zero] at hliquidity₁ hshares₁ hliquidity₂ hshares₂
    refine ⟨v₁, v₂, v, rfl, rfl, rfl, ?_⟩
    rcases Pool.liquidityFor_cases (burn_eq_ok_iff.mp h).1 with ⟨hnone, -⟩ | ⟨-, hrounds⟩
    · -- Without shares the pool pays nothing, whoever asks and how often.
      rcases Pool.liquidityFor_cases hv₁ with ⟨-, rfl⟩ | ⟨hpos, -⟩
      · rcases Pool.liquidityFor_cases hv₂ with ⟨-, rfl⟩ | ⟨hpos, -⟩
        · exact Nat.zero_le _
        · omega
      · omega
    · rw [hrounds.le_iff, hz]
      exact add_mul_le_of_removed_twice hliquidity₁ hshares₁ (by omega) (by omega)
        (Pool.mul_le_of_liquidityFor hv₁) (Pool.mul_le_of_liquidityFor hv₂)

theorem Trades.borrow_twice (hw : p.Within) (hp : p.pool.Priced) (hsolvent : p.pool.Solvent)
    (hz : z.toNat = x.toNat + y.toNat) (h₁ : p.Trades fees (.borrow x) r₁ q)
    (h₂ : q.Trades fees (.borrow y) r₂ s) (h : p.Trades fees (.borrow z) r t) :
    ∃ n₁ n₂ n f₁ f₂ f : Amount, r₁ = .borrowed x n₁ f₁ ∧ r₂ = .borrowed y n₂ f₂ ∧
      r = .borrowed z n f ∧ n.toNat ≤ n₁.toNat + n₂.toNat ∧ f.toNat ≤ f₁.toNat + f₂.toNat := by
  have hprice := h₁.bond_price hsolvent hp
  have hpriced := h₁.priced hw hp
  have hlent := h₁.settles.1.lent hsolvent (h₁.solvent hsolvent)
  have hbonds := h₁.settles.1.bonds
  cases h₁ with
  | @borrow _ f₁ n₁ _ hf₁ h₁ =>
  cases h₂ with
  | @borrow _ f₂ n₂ _ hf₂ h₂ =>
  cases h with
  | @borrow _ f n _ hf h =>
    have hfee := FeeSchedule.fee_le_add hz hf₁ hf₂ hf
    obtain ⟨owed₁, howed₁, hn₁, -⟩ := borrow_eq_ok_iff.mp h₁
    obtain ⟨owed₂, howed₂, hn₂, -⟩ := borrow_eq_ok_iff.mp h₂
    obtain ⟨owed, howed, hn, -⟩ := borrow_eq_ok_iff.mp h
    have hless : owed.toNat ≤ owed₁.toNat + owed₂.toNat := by omega
    simp only [Receipt.turnover] at hlent hbonds
    refine ⟨n₁, n₂, n, f₁, f₂, f, rfl, rfl, rfl, ?_, hfee⟩
    have hfirst := hp.mul_le_of_bondsFor hn₁
    have hsecond := hpriced.mul_le_of_bondsFor hn₂
    rcases Pool.bondsFor_cases hn with ⟨hnothing, rfl⟩ | ⟨hpos, hrounds⟩
    · -- The first loan is the whole debt, at one bond for a unit, and so is the second.
      have hnone : p.pool.bonds.toNat = 0 := Nat.le_zero.mp (hnothing ▸ hp.bonds_le_lent)
      have hone : n₁ = owed₁ := by
        rcases Pool.bondsFor_cases hn₁ with ⟨-, hone⟩ | ⟨hpos, -⟩
        · exact hone
        · omega
      have hsame : q.pool.bonds.toNat = q.pool.lent := by
        rw [← hone] at howed₁
        omega
      calc n.toNat ≤ owed₁.toNat + owed₂.toNat := hless
        _ ≤ n₁.toNat + n₂.toNat :=
          Nat.add_le_add (Nat.le_of_eq (by rw [hone])) (Pool.le_of_bondsFor hsame hn₂)
    · have hmoved : p.pool.bonds.toNat * owed₂.toNat ≤ n₂.toNat * p.pool.lent := by
        rw [Nat.mul_comm, Nat.mul_comm p.pool.lent] at hprice
        rw [Nat.mul_comm] at hsecond
        exact mul_le_mul_trans (by omega) hprice hsecond
      rw [hrounds.le_iff]
      calc owed.toNat * p.pool.bonds.toNat
          ≤ (owed₁.toNat + owed₂.toNat) * p.pool.bonds.toNat := Nat.mul_le_mul_right _ hless
        _ = owed₁.toNat * p.pool.bonds.toNat + p.pool.bonds.toNat * owed₂.toNat := by
          rw [Nat.add_mul, Nat.mul_comm owed₂.toNat]
        _ ≤ n₁.toNat * p.pool.lent + n₂.toNat * p.pool.lent := Nat.add_le_add hfirst hmoved
        _ = (n₁.toNat + n₂.toNat) * p.pool.lent := (Nat.add_mul _ _ _).symm

/-- Bonds that are burned twice, at no less than their price each time, are burned at no less than
their price together. -/
theorem mul_le_of_burned_twice {a b c : Pool} {k₁ k₂ v₁ v₂ : Nat}
    (hlent₁ : b.lent + v₁ = a.lent) (hlent₂ : c.lent + v₂ = b.lent)
    (hbonds₁ : b.bonds.toNat + k₁ = a.bonds.toNat) (hbonds₂ : c.bonds.toNat + k₂ = b.bonds.toNat)
    (h₁ : k₁ * a.lent ≤ v₁ * a.bonds.toNat) (h₂ : k₂ * b.lent ≤ v₂ * b.bonds.toNat) :
    (k₁ + k₂) * a.lent ≤ (v₁ + v₂) * a.bonds.toNat :=
  add_mul_le_of_removed_twice hbonds₁ hlent₁ (by omega) (by omega) h₁ h₂

theorem Trades.repay_twice (hsolvent : p.pool.Solvent) (hz : z.toNat = x.toNat + y.toNat)
    (h₁ : p.Trades fees (.repay x) r₁ q) (h₂ : q.Trades fees (.repay y) r₂ s)
    (h : p.Trades fees (.repay z) r t) :
    ∃ v₁ v₂ v : Amount, r₁ = .repaid x v₁ ∧ r₂ = .repaid y v₂ ∧ r = .repaid z v ∧
      v.toNat ≤ v₁.toNat + v₂.toNat := by
  have hsolvent' := h₁.solvent hsolvent
  have hlent₁ := h₁.settles.1.lent hsolvent hsolvent'
  have hlent₂ := h₂.settles.1.lent hsolvent' (h₂.solvent hsolvent')
  have hbonds₁ := h₁.settles.1.bonds
  have hbonds₂ := h₂.settles.1.bonds
  cases h₁ with
  | @repay _ v₁ _ h₁ =>
  cases h₂ with
  | @repay _ v₂ _ h₂ =>
  cases h with
  | @repay _ v _ h =>
    simp only [Receipt.turnover, Nat.add_zero] at hlent₁ hlent₂ hbonds₁ hbonds₂
    have hv₁ := (repay_eq_ok_iff.mp h₁).1
    have hv₂ := (repay_eq_ok_iff.mp h₂).1
    refine ⟨v₁, v₂, v, rfl, rfl, rfl, ?_⟩
    rcases Pool.debtFor_cases (repay_eq_ok_iff.mp h).1 with ⟨hnone, hwhole⟩ | ⟨-, hrounds⟩
    · -- Without bonds the first payment is the whole debt already.
      rcases Pool.debtFor_cases hv₁ with ⟨-, hwhole₁⟩ | ⟨hpos, -⟩
      · omega
      · omega
    · rw [hrounds.le_iff, hz]
      exact mul_le_of_burned_twice hlent₁ hlent₂ hbonds₁ hbonds₂
        (Pool.mul_le_of_debtFor (by omega) hv₁) (Pool.mul_le_of_debtFor (by omega) hv₂)

theorem Trades.repayFor_twice {debtor : Key} (hw : p.Within) (hp : p.pool.Priced)
    (hsolvent : p.pool.Solvent) (hz : z.toNat = x.toNat + y.toNat)
    (h₁ : p.Trades fees (.repayFor debtor x) r₁ q)
    (h₂ : q.Trades fees (.repayFor debtor y) r₂ s)
    (h : p.Trades fees (.repayFor debtor z) r t) :
    ∃ v₁ v₂ v k₁ k₂ k u₁ u₂ u : Amount, r₁ = .repaidFor debtor v₁ k₁ u₁ ∧
      r₂ = .repaidFor debtor v₂ k₂ u₂ ∧ r = .repaidFor debtor v k u ∧
      k₁.toNat + k₂.toNat ≤ k.toNat := by
  have hsolvent' := h₁.solvent hsolvent
  have hlent₁ := h₁.settles.1.lent hsolvent hsolvent'
  have hlent₂ := h₂.settles.1.lent hsolvent' (h₂.solvent hsolvent')
  obtain ⟨hpool₁, haccount₁⟩ := h₁.settles
  obtain ⟨hpool₂, haccount₂⟩ := h₂.settles
  have hbonds₁ := hpool₁.bonds
  have hbonds₂ := hpool₂.bonds
  have hown₁ := haccount₁.bonds
  have hown₂ := haccount₂.bonds
  cases h₁ with
  | @repayFor _ _ c₁ _ h₁ =>
  cases h₂ with
  | @repayFor _ _ c₂ _ h₂ =>
  cases h with
  | @repayFor _ _ c _ h =>
    simp only [Receipt.turnover, Nat.add_zero] at hlent₁ hlent₂ hbonds₁ hbonds₂ hown₁ hown₂
    obtain ⟨hc₁, hcash₁, -⟩ := exists_of_repayWithCash h₁
    obtain ⟨hc₂, hcash₂, -⟩ := exists_of_repayWithCash h₂
    refine ⟨_, _, _, c₁.burned, c₂.burned, c.burned, _, _, _, rfl, rfl, rfl, ?_⟩
    have hpart := le_def.mp hw.bonds_le
    have hcost := mul_le_of_burned_twice hlent₁ hlent₂ hbonds₁ hbonds₂
      (Pool.mul_le_of_convert (by omega) hc₁) (Pool.mul_le_of_convert (by omega) hc₂)
    obtain ⟨⟨k, hcovered, hburned⟩, -⟩ := Pool.convert_cases (exists_of_repayWithCash h).1
    -- Both together burn no more than is held, and no more than their cash covers.
    refine hburned ▸ Nat.le_min.mpr ⟨?_, by omega⟩
    rcases hcovered with ⟨hnothing, -⟩ | ⟨-, hrounds⟩
    · have hnone := hp.bonds_le_lent
      omega
    · rw [hrounds.le_iff, hz]
      exact Nat.le_trans hcost (Nat.mul_le_mul_right _ (Nat.add_le_add hcash₁ hcash₂))

end Position

/-! ## Two actions and one -/

namespace Ledger

/-- A holder does something for `x` and then for `y`, and alternatively for `z` at once, each time
without interest. -/
structure Splits (l : Ledger) (caller : Key) (action : Amount → Action) (x y z : Amount)
    (e₁ e₂ e : Effect) : Prop where
  sum : z.toNat = x.toNat + y.toNat
  first : l.apply caller (action x) 0 = .ok e₁
  second : e₁.ledger.apply caller (action y) 0 = .ok e₂
  whole : l.apply caller (action z) 0 = .ok e

variable {l : Ledger} {caller : Key} {action : Amount → Action} {x y z : Amount} {e₁ e₂ e : Effect}

/-- The two actions and the one are trades of one holder, whose position the first of the two leaves
to the second. -/
theorem Splits.exists_trades (h : l.Splits caller action x y z e₁ e₂ e) {holder : Key}
    (htrade : ∀ a, (action a).IsTrade) (hholder : ∀ a, (action a).holder caller = holder) :
    ∃ q s t, (l.position holder).Trades l.fees (action x) e₁.receipt q ∧
      q.Trades l.fees (action y) e₂.receipt s ∧
      (l.position holder).Trades l.fees (action z) e.receipt t := by
  obtain ⟨q, hq, hledger⟩ := (acts_of_apply h.first).exists_trade (htrade x)
  obtain ⟨s, hs, -⟩ := (acts_of_apply h.second).exists_trade (htrade y)
  obtain ⟨t, ht, -⟩ := (acts_of_apply h.whole).exists_trade (htrade z)
  rw [hholder] at hq hs ht hledger
  rw [hledger, position_setPosition] at hs
  exact ⟨q, s, t, hq, hs, ht⟩

/-- On a ledger with a history and without interest, an action that is split in two mints no more
shares, redeems no more liquidity, assigns no fewer bonds, costs no less to repay or burns no more
bonds for the cash than the same action done at once, and is charged no less in fees. -/
theorem splitting_never_pays (steps : List Step) (caller debtor : Key) (x y z : Amount)
    (e₁ e₂ e : Effect) :
    ((genesis.run steps).Splits caller .mint x y z e₁ e₂ e →
      ∃ n₁ n₂ n f₁ f₂ f : Amount, e₁.receipt = .minted x n₁ f₁ ∧ e₂.receipt = .minted y n₂ f₂ ∧
        e.receipt = .minted z n f ∧ n₁.toNat + n₂.toNat ≤ n.toNat ∧
        f.toNat ≤ f₁.toNat + f₂.toNat) ∧
    ((genesis.run steps).Splits caller .burn x y z e₁ e₂ e →
      ∃ v₁ v₂ v : Amount, e₁.receipt = .burned x v₁ ∧ e₂.receipt = .burned y v₂ ∧
        e.receipt = .burned z v ∧ v₁.toNat + v₂.toNat ≤ v.toNat) ∧
    ((genesis.run steps).Splits caller .borrow x y z e₁ e₂ e →
      ∃ n₁ n₂ n f₁ f₂ f : Amount, e₁.receipt = .borrowed x n₁ f₁ ∧
        e₂.receipt = .borrowed y n₂ f₂ ∧ e.receipt = .borrowed z n f ∧
        n.toNat ≤ n₁.toNat + n₂.toNat ∧ f.toNat ≤ f₁.toNat + f₂.toNat) ∧
    ((genesis.run steps).Splits caller .repay x y z e₁ e₂ e →
      ∃ v₁ v₂ v : Amount, e₁.receipt = .repaid x v₁ ∧ e₂.receipt = .repaid y v₂ ∧
        e.receipt = .repaid z v ∧ v.toNat ≤ v₁.toNat + v₂.toNat) ∧
    ((genesis.run steps).Splits caller (.repayFor debtor) x y z e₁ e₂ e →
      ∃ v₁ v₂ v k₁ k₂ k u₁ u₂ u : Amount, e₁.receipt = .repaidFor debtor v₁ k₁ u₁ ∧
        e₂.receipt = .repaidFor debtor v₂ k₂ u₂ ∧ e.receipt = .repaidFor debtor v k u ∧
        k₁.toNat + k₂.toNat ≤ k.toNat) := by
  have hl := healthy_run steps
  have hw := fun holder => hl.balanced.within holder
  refine ⟨?_, ?_, ?_, ?_, ?_⟩
  · intro h
    obtain ⟨q, s, t, h₁, h₂, h₃⟩ := h.exists_trades (fun _ => trivial) (fun _ => rfl)
    exact h₁.mint_twice (hw _) hl.priced h.sum h₂ h₃
  · intro h
    obtain ⟨q, s, t, h₁, h₂, h₃⟩ := h.exists_trades (fun _ => trivial) (fun _ => rfl)
    exact h₁.burn_twice h.sum h₂ h₃
  · intro h
    obtain ⟨q, s, t, h₁, h₂, h₃⟩ := h.exists_trades (fun _ => trivial) (fun _ => rfl)
    exact h₁.borrow_twice (hw _) hl.priced hl.solvent h.sum h₂ h₃
  · intro h
    obtain ⟨q, s, t, h₁, h₂, h₃⟩ := h.exists_trades (fun _ => trivial) (fun _ => rfl)
    exact h₁.repay_twice hl.solvent h.sum h₂ h₃
  · intro h
    obtain ⟨q, s, t, h₁, h₂, h₃⟩ := h.exists_trades (fun _ => trivial) (fun _ => rfl)
    exact h₁.repayFor_twice (hw _) hl.priced hl.solvent h.sum h₂ h₃

/-- Two holders borrow, and from then on both fees are charged. -/
def feesCharged : List Step :=
  twoDebtors ++ [.setFees ⟨⟨10000000000000000, by decide⟩, ⟨30000000000000000, by decide⟩⟩]

/-- Each of the five actions done for ten, and for five and five. -/
theorem splitting_never_pays_here :
    (∃ e₁ e₂ e, (genesis.run feesCharged).Splits 0 .mint ⟨5, by decide⟩ ⟨5, by decide⟩
        ⟨10, by decide⟩ e₁ e₂ e ∧
      ∃ n₁ n₂ n f₁ f₂ f : Amount, e₁.receipt = .minted ⟨5, by decide⟩ n₁ f₁ ∧
        e₂.receipt = .minted ⟨5, by decide⟩ n₂ f₂ ∧ e.receipt = .minted ⟨10, by decide⟩ n f ∧
        n₁.toNat + n₂.toNat ≤ n.toNat ∧ f.toNat ≤ f₁.toNat + f₂.toNat) ∧
    (∃ e₁ e₂ e, (genesis.run feesCharged).Splits 0 .burn ⟨5, by decide⟩ ⟨5, by decide⟩
        ⟨10, by decide⟩ e₁ e₂ e ∧
      ∃ v₁ v₂ v : Amount, e₁.receipt = .burned ⟨5, by decide⟩ v₁ ∧
        e₂.receipt = .burned ⟨5, by decide⟩ v₂ ∧ e.receipt = .burned ⟨10, by decide⟩ v ∧
        v₁.toNat + v₂.toNat ≤ v.toNat) ∧
    (∃ e₁ e₂ e, (genesis.run feesCharged).Splits 0 .borrow ⟨5, by decide⟩ ⟨5, by decide⟩
        ⟨10, by decide⟩ e₁ e₂ e ∧
      ∃ n₁ n₂ n f₁ f₂ f : Amount, e₁.receipt = .borrowed ⟨5, by decide⟩ n₁ f₁ ∧
        e₂.receipt = .borrowed ⟨5, by decide⟩ n₂ f₂ ∧
        e.receipt = .borrowed ⟨10, by decide⟩ n f ∧
        n.toNat ≤ n₁.toNat + n₂.toNat ∧ f.toNat ≤ f₁.toNat + f₂.toNat) ∧
    (∃ e₁ e₂ e, (genesis.run feesCharged).Splits 0 .repay ⟨5, by decide⟩ ⟨5, by decide⟩
        ⟨10, by decide⟩ e₁ e₂ e ∧
      ∃ v₁ v₂ v : Amount, e₁.receipt = .repaid ⟨5, by decide⟩ v₁ ∧
        e₂.receipt = .repaid ⟨5, by decide⟩ v₂ ∧ e.receipt = .repaid ⟨10, by decide⟩ v ∧
        v.toNat ≤ v₁.toNat + v₂.toNat) ∧
    (∃ e₁ e₂ e, (genesis.run feesCharged).Splits 0 (.repayFor 0) ⟨5, by decide⟩
        ⟨5, by decide⟩ ⟨10, by decide⟩ e₁ e₂ e ∧
      ∃ v₁ v₂ v k₁ k₂ k u₁ u₂ u : Amount, e₁.receipt = .repaidFor 0 v₁ k₁ u₁ ∧
        e₂.receipt = .repaidFor 0 v₂ k₂ u₂ ∧ e.receipt = .repaidFor 0 v k u ∧
        k₁.toNat + k₂.toNat ≤ k.toNat) := by
  have hnever := splitting_never_pays feesCharged 0 0 ⟨5, by decide⟩ ⟨5, by decide⟩ ⟨10, by decide⟩
  refine ⟨?_, ?_, ?_, ?_, ?_⟩
  · obtain ⟨e₁, e₂, e, h⟩ : ∃ e₁ e₂ e, (genesis.run feesCharged).Splits 0 .mint ⟨5, by decide⟩
        ⟨5, by decide⟩ ⟨10, by decide⟩ e₁ e₂ e := ⟨_, _, _, rfl, rfl, rfl, rfl⟩
    exact ⟨e₁, e₂, e, h, (hnever e₁ e₂ e).1 h⟩
  · obtain ⟨e₁, e₂, e, h⟩ : ∃ e₁ e₂ e, (genesis.run feesCharged).Splits 0 .burn ⟨5, by decide⟩
        ⟨5, by decide⟩ ⟨10, by decide⟩ e₁ e₂ e := ⟨_, _, _, rfl, rfl, rfl, rfl⟩
    exact ⟨e₁, e₂, e, h, (hnever e₁ e₂ e).2.1 h⟩
  · obtain ⟨e₁, e₂, e, h⟩ : ∃ e₁ e₂ e, (genesis.run feesCharged).Splits 0 .borrow ⟨5, by decide⟩
        ⟨5, by decide⟩ ⟨10, by decide⟩ e₁ e₂ e := ⟨_, _, _, rfl, rfl, rfl, rfl⟩
    exact ⟨e₁, e₂, e, h, (hnever e₁ e₂ e).2.2.1 h⟩
  · obtain ⟨e₁, e₂, e, h⟩ : ∃ e₁ e₂ e, (genesis.run feesCharged).Splits 0 .repay ⟨5, by decide⟩
        ⟨5, by decide⟩ ⟨10, by decide⟩ e₁ e₂ e := ⟨_, _, _, rfl, rfl, rfl, rfl⟩
    exact ⟨e₁, e₂, e, h, (hnever e₁ e₂ e).2.2.2.1 h⟩
  · obtain ⟨e₁, e₂, e, h⟩ : ∃ e₁ e₂ e, (genesis.run feesCharged).Splits 0 (.repayFor 0)
        ⟨5, by decide⟩ ⟨5, by decide⟩ ⟨10, by decide⟩ e₁ e₂ e := ⟨_, _, _, rfl, rfl, rfl, rfl⟩
    exact ⟨e₁, e₂, e, h, (hnever e₁ e₂ e).2.2.2.2 h⟩

end Ledger

end Lending
