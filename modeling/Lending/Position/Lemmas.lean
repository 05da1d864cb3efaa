import Lending.Position

/-!
# When a transition succeeds, and what it then leaves

One statement per transition: it gives the position `q` when the new totals and balances exist, as
numbers in range, and `q` is made of them. Prices are left as they are, for the laws of the books to
speak about; the rest is sums and differences in `Nat`.
-/

set_option autoImplicit false

namespace Lending

namespace Position

open Quantity

variable {p q : Position} {amount fee cash traded : Amount}

theorem deposit_eq_ok_iff :
    p.deposit amount = .ok q ↔ ∃ total own : Amount,
      total.toNat = p.pool.collateral.toNat + amount.toNat ∧
      own.toNat = p.account.collateral.toNat + amount.toNat ∧
      q = ⟨{ p.pool with collateral := total }, { p.account with collateral := own }⟩ := by
  simp only [deposit, bind_eq_ok_iff, demand_eq_ok_iff, add?_eq_some_iff, pure_eq_ok_iff]
  simp only [eq_comm (a := q), exists_and_left]

theorem withdraw_eq_ok_iff :
    p.withdraw amount = .ok q ↔ ∃ own total : Amount,
      own.toNat + amount.toNat = p.account.collateral.toNat ∧
      total.toNat + amount.toNat = p.pool.collateral.toNat ∧
      q = ⟨{ p.pool with collateral := total }, { p.account with collateral := own }⟩ := by
  simp only [withdraw, bind_eq_ok_iff, demand_eq_ok_iff, sub?_eq_some_iff, pure_eq_ok_iff]
  simp only [eq_comm (a := q), exists_and_left]

theorem mint_eq_ok_iff :
    p.mint amount fee = .ok (traded, q) ↔
      p.pool.sharesFor amount = .ok traded ∧ ∃ shares own liquidity borrowable : Amount,
        shares.toNat = p.pool.shares.toNat + traded.toNat ∧
        own.toNat = p.account.shares.toNat + traded.toNat ∧
        liquidity.toNat = p.pool.liquidity.toNat + (amount.toNat + fee.toNat) ∧
        borrowable.toNat = p.pool.borrowable.toNat + (amount.toNat + fee.toNat) ∧
        q = ⟨{ p.pool with shares, liquidity, borrowable },
          { p.account with shares := own }⟩ := by
  simp only [mint, bind_eq_ok_iff, demand_eq_ok_iff, add?_eq_some_iff, pure_eq_ok_iff,
    Prod.mk.injEq]
  constructor
  · rintro ⟨supplied, hs, _, hprice, shares, h₁, own, h₂, liquidity, h₃, borrowable, h₄, rfl, rfl⟩
    exact ⟨hprice, shares, own, liquidity, borrowable, h₁, h₂, by omega, by omega, rfl⟩
  · rintro ⟨hprice, shares, own, liquidity, borrowable, h₁, h₂, h₃, h₄, rfl⟩
    have hl := liquidity.toNat_lt
    exact ⟨⟨amount.toNat + fee.toNat, by omega⟩, rfl, traded, hprice, shares, h₁, own, h₂,
      liquidity, h₃, borrowable, h₄, rfl, rfl⟩

theorem burn_eq_ok_iff {shares : Amount} :
    p.burn shares = .ok (traded, q) ↔
      p.pool.liquidityFor shares = .ok traded ∧ ∃ own borrowable total liquidity : Amount,
        own.toNat + shares.toNat = p.account.shares.toNat ∧
        borrowable.toNat + traded.toNat = p.pool.borrowable.toNat ∧
        total.toNat + shares.toNat = p.pool.shares.toNat ∧
        liquidity.toNat + traded.toNat = p.pool.liquidity.toNat ∧
        q = ⟨{ p.pool with shares := total, liquidity, borrowable },
          { p.account with shares := own }⟩ := by
  simp only [burn, bind_eq_ok_iff, demand_eq_ok_iff, sub?_eq_some_iff, pure_eq_ok_iff,
    Prod.mk.injEq]
  constructor
  · rintro ⟨own, h₁, _, hprice, borrowable, h₂, total, h₃, liquidity, h₄, rfl, rfl⟩
    exact ⟨hprice, own, borrowable, total, liquidity, h₁, h₂, h₃, h₄, rfl⟩
  · rintro ⟨hprice, own, borrowable, total, liquidity, h₁, h₂, h₃, h₄, rfl⟩
    exact ⟨own, h₁, traded, hprice, borrowable, h₂, total, h₃, liquidity, h₄, rfl, rfl⟩

theorem borrow_eq_ok_iff :
    p.borrow amount fee = .ok (traded, q) ↔ ∃ owed : Amount,
      owed.toNat = amount.toNat + fee.toNat ∧ p.pool.bondsFor owed = .ok traded ∧
      ∃ borrowable bonds own : Amount,
        borrowable.toNat + owed.toNat = p.pool.borrowable.toNat ∧
        bonds.toNat = p.pool.bonds.toNat + traded.toNat ∧
        own.toNat = p.account.bonds.toNat + traded.toNat ∧
        q = ⟨{ p.pool with bonds, borrowable }, { p.account with bonds := own }⟩ := by
  simp only [borrow, bind_eq_ok_iff, demand_eq_ok_iff, add?_eq_some_iff, sub?_eq_some_iff,
    pure_eq_ok_iff, Prod.mk.injEq]
  constructor
  · rintro ⟨owed, ho, borrowable, h₁, _, hprice, bonds, h₂, own, h₃, rfl, rfl⟩
    exact ⟨owed, ho, hprice, borrowable, bonds, own, h₁, h₂, h₃, rfl⟩
  · rintro ⟨owed, ho, hprice, borrowable, bonds, own, h₁, h₂, h₃, rfl⟩
    exact ⟨owed, ho, borrowable, h₁, traded, hprice, bonds, h₂, own, h₃, rfl, rfl⟩

theorem repay_eq_ok_iff {bonds : Amount} :
    p.repay bonds = .ok (traded, q) ↔
      p.pool.debtFor bonds = .ok traded ∧ ∃ own borrowable total : Amount,
        own.toNat + bonds.toNat = p.account.bonds.toNat ∧
        borrowable.toNat = p.pool.borrowable.toNat + traded.toNat ∧
        borrowable ≤ p.pool.liquidity ∧
        total.toNat + bonds.toNat = p.pool.bonds.toNat ∧
        q = ⟨{ p.pool with bonds := total, borrowable }, { p.account with bonds := own }⟩ := by
  simp only [repay, bind_eq_ok_iff, demand_eq_ok_iff, require_eq_ok_iff, add?_eq_some_iff,
    sub?_eq_some_iff, pure_eq_ok_iff, Prod.mk.injEq]
  constructor
  · rintro ⟨own, h₁, _, hprice, borrowable, h₂, _, hle, total, h₃, rfl, rfl⟩
    exact ⟨hprice, own, borrowable, total, h₁, h₂, hle, h₃, rfl⟩
  · rintro ⟨hprice, own, borrowable, total, h₁, h₂, hle, h₃, rfl⟩
    exact ⟨own, h₁, traded, hprice, borrowable, h₂, (), hle, total, h₃, rfl, rfl⟩

theorem burnConverted_eq_ok_iff {c : Conversion 128} :
    p.burnConverted c cash = .ok q ↔ c.repaid ≤ cash ∧ ∃ borrowable own total : Amount,
      borrowable.toNat = p.pool.borrowable.toNat + c.repaid.toNat ∧
      borrowable ≤ p.pool.liquidity ∧
      own.toNat + c.burned.toNat = p.account.bonds.toNat ∧
      total.toNat + c.burned.toNat = p.pool.bonds.toNat ∧
      own ≤ total ∧
      q = ⟨{ p.pool with bonds := total, borrowable }, { p.account with bonds := own }⟩ := by
  simp only [burnConverted, bind_eq_ok_iff, demand_eq_ok_iff, require_eq_ok_iff,
    add?_eq_some_iff, sub?_eq_some_iff, pure_eq_ok_iff]
  constructor
  · rintro ⟨_, hcash, borrowable, h₁, _, hle, own, h₂, total, h₃, _, hown, rfl⟩
    exact ⟨hcash, borrowable, own, total, h₁, hle, h₂, h₃, hown, rfl⟩
  · rintro ⟨hcash, borrowable, own, total, h₁, hle, h₂, h₃, hown, rfl⟩
    exact ⟨(), hcash, borrowable, h₁, (), hle, own, h₂, total, h₃, (), hown, rfl⟩

theorem repayWithCash_eq_ok_iff {c : Conversion 128} :
    p.repayWithCash cash = .ok (c, q) ↔
      p.pool.convert cash p.account.bonds = .ok c ∧ p.burnConverted c cash = .ok q := by
  simp only [repayWithCash, bind_eq_ok_iff, pure_eq_ok_iff, Prod.mk.injEq]
  constructor
  · rintro ⟨_, hc, _, hq, rfl, rfl⟩
    exact ⟨hc, hq⟩
  · rintro ⟨hc, hq⟩
    exact ⟨c, hc, q, hq, rfl, rfl⟩

theorem liquidate_eq_ok_iff {c : Conversion 128} :
    p.liquidate cash = .ok (c, q) ↔ cash ≤ p.account.collateral ∧ ∃ mid : Position,
      p.repayWithCash cash = .ok (c, mid) ∧ ∃ own total : Amount,
        own.toNat + c.repaid.toNat = mid.account.collateral.toNat ∧
        total.toNat + c.repaid.toNat = mid.pool.collateral.toNat ∧
        q = ⟨{ mid.pool with collateral := total }, { mid.account with collateral := own }⟩ := by
  simp only [liquidate, bind_eq_ok_iff, demand_eq_ok_iff, require_eq_ok_iff, sub?_eq_some_iff,
    pure_eq_ok_iff, Prod.exists, Prod.mk.injEq]
  constructor
  · rintro ⟨_, hcash, _, mid, hmid, own, h₁, total, h₂, rfl, rfl⟩
    exact ⟨hcash, mid, hmid, own, total, h₁, h₂, rfl⟩
  · rintro ⟨hcash, mid, hmid, own, total, h₁, h₂, rfl⟩
    exact ⟨(), hcash, c, mid, hmid, own, h₁, total, h₂, rfl, rfl⟩

end Position

end Lending
