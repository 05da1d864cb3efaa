import Lending.ShareBook
import Lending.Proofs.Conversion

/-!
# Quotients at a price of at least one

A price of a pool is a quotient, and what a quotient is worth to the pool depends on which way it
was rounded. Most of what a pool can rely on needs less: both roundings stay within one unit of the
exact quotient, `q * c < a * b + c`, and as long as the divisor `c` is not above the factor `b`,
that alone decides two things.

* Buying at a price of at least one gives no more than was paid (`le_of_mul_lt`).
* Taking a part out of a whole at that price leaves a price of at least one
  (`add_le_add_of_mul_lt`), because the unit that rounding can cost is not enough to push a whole
  number below another.

The two books then answer every question that a holder can ask them, and their answers keep to these
bounds: `ShareBook` while there are no more shares than liquidity, `BondBook` while there are no
more bonds than debt.
-/

set_option autoImplicit false

namespace Lending

/-! ## The two bounds, in `Nat` -/

theorem le_of_mul_lt {q a b c : Nat} (hbc : b ≤ c) (h : q * c < a * b + c) : q ≤ a := by
  have hlt : q * c < (a + 1) * c :=
    calc q * c < a * b + c := h
      _ ≤ a * c + c := Nat.add_le_add_right (Nat.mul_le_mul_left a hbc) c
      _ = (a + 1) * c := (Nat.succ_mul a c).symm
  exact Nat.le_of_lt_succ (Nat.lt_of_mul_lt_mul_right hlt)

theorem add_le_add_of_mul_lt {q a b c : Nat} (hac : a ≤ c) (hcb : c ≤ b)
    (h : q * c < a * b + c) : q + c ≤ b + a := by
  obtain ⟨d, rfl⟩ := Nat.exists_eq_add_of_le hcb
  have hlt : q * c < (a + d + 1) * c :=
    calc q * c < a * (c + d) + c := h
      _ = a * c + a * d + c := by rw [Nat.mul_add]
      _ ≤ a * c + c * d + c :=
        Nat.add_le_add_right (Nat.add_le_add_left (Nat.mul_le_mul_right d hac) _) c
      _ = (a + d + 1) * c := by rw [Nat.add_mul, Nat.add_mul, Nat.one_mul, Nat.mul_comm c d]
  have hq := Nat.lt_of_mul_lt_mul_right hlt
  omega

namespace Quantity

variable {w : Nat}

/-! ## When a quotient exists -/

theorem exists_mulDivFloor? {a b c : Quantity w} (hc : c ≠ 0) {n : Nat} (hn : n < capacity w)
    (h : a.toNat * b.toNat ≤ n * c.toNat) :
    ∃ q, mulDivFloor? a b c = some q ∧ q.toNat = a.toNat * b.toNat / c.toNat := by
  have hc' : c.toNat ≠ 0 := fun h0 => hc (eq_zero_iff.mpr h0)
  have hq : a.toNat * b.toNat / c.toNat ≤ n :=
    Nat.div_le_of_le_mul (Nat.mul_comm n c.toNat ▸ h)
  refine ⟨⟨a.toNat * b.toNat / c.toNat, by omega⟩, ?_, rfl⟩
  rw [mulDivFloor?_eq, if_neg hc', ofNat?_eq_some_iff]

theorem exists_mulDivCeil? {a b c : Quantity w} (hc : c ≠ 0) {n : Nat} (hn : n < capacity w)
    (h : a.toNat * b.toNat ≤ n * c.toNat) :
    ∃ q, mulDivCeil? a b c = some q ∧ q.toNat ≤ n := by
  have hc' : c.toNat ≠ 0 := fun h0 => hc (eq_zero_iff.mpr h0)
  have hq : (a.toNat * b.toNat + (c.toNat - 1)) / c.toNat < n + 1 := by
    rw [Nat.div_lt_iff_lt_mul (Nat.pos_of_ne_zero hc'), Nat.succ_mul]
    omega
  refine ⟨⟨(a.toNat * b.toNat + (c.toNat - 1)) / c.toNat, by omega⟩, ?_, Nat.le_of_lt_succ hq⟩
  rw [mulDivCeil?_eq, if_neg hc', ofNat?_eq_some_iff]

theorem mulDivFloor?_lt {a b c q : Quantity w} (hc : c ≠ 0) (h : mulDivFloor? a b c = some q) :
    q.toNat * c.toNat < a.toNat * b.toNat + c.toNat := by
  have hc' : c.toNat ≠ 0 := fun h0 => hc (eq_zero_iff.mpr h0)
  have hle := (mulDivFloor?_eq_some_iff.mp h).1
  omega

end Quantity

open Quantity

variable {w : Nat}

/-! ## Shares while there are no more of them than liquidity -/

namespace ShareBook

variable {book : ShareBook w}

/-- Shares can always be bought, and there are no more of them than units paid. -/
theorem exists_sharesFor? (h : book.shares ≤ book.liquidity) (amount : Quantity w) :
    ∃ n, book.sharesFor? amount = some n ∧ n ≤ amount := by
  by_cases hl : book.liquidity = 0
  · exact ⟨amount, if_pos hl, Nat.le_refl _⟩
  · obtain ⟨n, hn, -⟩ :=
      exists_mulDivFloor? hl amount.toNat_lt (Nat.mul_le_mul_left amount.toNat (le_def.mp h))
    refine ⟨n, (sharesFor?_of_pos hl amount).trans hn, ?_⟩
    exact le_of_mul_lt h (mulDivFloor?_lt hl hn)

/-- Shares can always be redeemed for the exact quotient rounded down, and those that are left are
still no more than the liquidity that is left. -/
theorem exists_liquidityFor? (h : book.shares ≤ book.liquidity) {shares : Quantity w}
    (hs : shares ≤ book.shares) :
    ∃ v, book.liquidityFor? shares = some v ∧
      v.toNat = shares.toNat * book.liquidity.toNat / book.shares.toNat ∧
      v.toNat + book.shares.toNat ≤ book.liquidity.toNat + shares.toNat := by
  by_cases hz : book.shares = 0
  · refine ⟨0, if_pos hz, ?_, ?_⟩
    · rw [hz, toNat_zero, Nat.div_zero]
    · rw [hz, toNat_zero]
      omega
  · have hroom : shares.toNat * book.liquidity.toNat
        ≤ book.liquidity.toNat * book.shares.toNat := by
      rw [Nat.mul_comm book.liquidity.toNat]
      exact Nat.mul_le_mul_right _ hs
    obtain ⟨v, hv, hval⟩ := exists_mulDivFloor? hz book.liquidity.toNat_lt hroom
    refine ⟨v, (liquidityFor?_of_pos hz shares).trans hv, hval, ?_⟩
    exact add_le_add_of_mul_lt hs h (mulDivFloor?_lt hz hv)

end ShareBook

/-! ## Bonds while there are no more of them than debt -/

namespace BondBook

variable {book : BondBook w}

/-- Bonds can always be assigned, and there are no more of them than units borrowed. -/
theorem exists_bondsFor? (h : book.bonds ≤ book.debt) (amount : Quantity w) :
    ∃ n, book.bondsFor? amount = some n ∧ n ≤ amount := by
  by_cases hd : book.debt = 0
  · exact ⟨amount, if_pos hd, Nat.le_refl _⟩
  · obtain ⟨n, hn, hle⟩ :=
      exists_mulDivCeil? hd amount.toNat_lt (Nat.mul_le_mul_left amount.toNat (le_def.mp h))
    exact ⟨n, (bondsFor?_of_pos hd amount).trans hn, hle⟩

/-- Bonds can always be retired, for no more than the debt, and those that are left are still no
more than the debt that is left. Without bonds the whole debt is retired and nothing is left. -/
theorem exists_debtFor? (h : book.bonds ≤ book.debt) {bonds : Quantity w}
    (hb : bonds ≤ book.bonds) :
    ∃ v, book.debtFor? bonds = some v ∧ v ≤ book.debt ∧
      v.toNat + book.bonds.toNat ≤ book.debt.toNat + bonds.toNat := by
  by_cases hz : book.bonds = 0
  · refine ⟨book.debt, if_pos hz, Nat.le_refl _, ?_⟩
    rw [hz, toNat_zero]
    omega
  · have hroom : bonds.toNat * book.debt.toNat ≤ book.debt.toNat * book.bonds.toNat := by
      rw [Nat.mul_comm book.debt.toNat]
      exact Nat.mul_le_mul_right _ hb
    obtain ⟨v, hv, hle⟩ := exists_mulDivCeil? hz book.debt.toNat_lt hroom
    refine ⟨v, (debtFor?_of_pos hz bonds).trans hv, hle, ?_⟩
    exact add_le_add_of_mul_lt hb h (mulDivCeil?_eq_some_iff.mp hv).2

/-- Cash can always be turned into a burn of bonds. It costs no more than the cash and no more than
the debt, and leaves no more bonds than debt. -/
theorem exists_convert? (h : book.bonds ≤ book.debt) (cash : Quantity w) {held : Quantity w}
    (hb : held ≤ book.bonds) :
    ∃ c, book.convert? cash held = some c ∧ c.burned ≤ held ∧ c.repaid ≤ cash ∧
      c.repaid ≤ book.debt ∧
      c.repaid.toNat + book.bonds.toNat ≤ book.debt.toNat + c.burned.toNat := by
  -- No more bonds are covered than there are units of cash, so they can be counted.
  have hcount : book.covered cash.toNat ≤ cash.toNat := by
    refine Nat.div_le_of_le_mul ?_
    rw [Nat.mul_comm book.debt.toNat]
    exact Nat.mul_le_mul_left _ h
  obtain ⟨c, hc⟩ := exists_convert?_of_covered held (Nat.lt_of_le_of_lt hcount cash.toNat_lt)
  obtain ⟨hburned, hrepaid, -⟩ := numbers_of_convert? hc
  have hheld := burned_le_of_convert? hc
  have hpart : c.burned.toNat ≤ book.bonds.toNat := Nat.le_trans hheld hb
  have hleft : c.repaid.toNat + book.bonds.toNat ≤ book.debt.toNat + c.burned.toNat := by
    rw [hrepaid]
    rcases Nat.eq_zero_or_pos book.bonds.toNat with hz | hpos
    · rw [cost, hz, Nat.div_zero]
      omega
    · exact add_le_add_of_mul_lt hpart h (cost_mul_lt hpos _)
  refine ⟨c, hc, hheld, ?_, le_def.mpr (by omega), hleft⟩
  rw [le_def, hrepaid]
  exact cost_le_of_le_covered (by omega)

end BondBook

end Lending
