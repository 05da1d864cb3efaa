import Mathlib.Data.Rat.Floor
import Lending.Quantity.Ratio

/-!
# A quotient is rounded once, and from the exact ratio

A product of two quantities, divided by a third, is a rational number. The two ways to round it are
defined by words: a product, a sum and a division in twice the width, and then a cut back to one
width. This file says that nothing is lost in any of the four. The words do not wrap, not even where
`c - 1` is added to a product that is itself close to the top (`mul_add_pred_lt`). Their quotient is
the floor or the ceiling of the ratio, and the cut gives it back if it is in range and refuses it if
not (`mulDivFloor?_eq_floor`, `mulDivCeil?_eq_ceil`).

How the two roundings compare is then a fact about floors and ceilings, in which no word occurs.
They are one unit apart at most, so the ceiling can be refused where the floor is given only if the
floor is the largest quantity itself.
-/

set_option autoImplicit false

namespace Lending

namespace Quantity

variable {w : Nat}

/-- The product of `a` and `b` divided by `c`, exactly; zero where there is nothing to divide by. -/
def ratio (a b c : Quantity w) : ℚ := a.toNat * b.toNat / c.toNat

variable (a b c : Quantity w)

/-! ## The words have room -/

theorem mul_add_pred_lt : a.toNat * b.toNat + (c.toNat - 1) < capacity (2 * w) :=
  mul_add_lt a b (Nat.lt_of_le_of_lt (Nat.sub_le c.toNat 1) c.toNat_lt)

/-! ## The two roundings of the ratio -/

theorem floor_ratio : ⌊ratio a b c⌋₊ = a.toNat * b.toNat / c.toNat := by
  rw [ratio, ← Nat.cast_mul, Rat.natFloor_natCast_div_natCast]

/-- To round up is to add `c - 1` and to round down. -/
theorem ceil_ratio (hc : 0 < c.toNat) :
    ⌈ratio a b c⌉₊ = (a.toNat * b.toNat + (c.toNat - 1)) / c.toNat := by
  have hpos : (0 : ℚ) < c.toNat := Nat.cast_pos.mpr hc
  refine eq_of_forall_ge_iff fun n => ?_
  calc ⌈ratio a b c⌉₊ ≤ n
      ↔ (a.toNat * b.toNat : ℚ) ≤ n * c.toNat := by rw [Nat.ceil_le, ratio, div_le_iff₀ hpos]
    _ ↔ a.toNat * b.toNat ≤ n * c.toNat := by exact_mod_cast Iff.rfl
    _ ↔ (a.toNat * b.toNat + (c.toNat - 1)) / c.toNat ≤ n := by
      rw [← Nat.lt_succ_iff (n := n), Nat.div_lt_iff_lt_mul hc, Nat.succ_mul]
      omega

/-- The number as a quotient by `c`, if there is a divisor and the number is in range. -/
def asQuotient? (n : Nat) : Option (Quantity w) := if c.toNat = 0 then none else ofNat? w n

theorem mulDivFloor?_eq_floor : mulDivFloor? a b c = asQuotient? c ⌊ratio a b c⌋₊ := by
  rw [mulDivFloor?_eq, floor_ratio, asQuotient?]

theorem mulDivCeil?_eq_ceil : mulDivCeil? a b c = asQuotient? c ⌈ratio a b c⌉₊ := by
  rw [mulDivCeil?_eq, asQuotient?]
  by_cases hc : c.toNat = 0
  · rw [if_pos hc, if_pos hc]
  · rw [if_neg hc, if_neg hc, ceil_ratio a b c (Nat.pos_of_ne_zero hc)]

variable {a b c} {n m : Nat} {q q' : Quantity w}

theorem asQuotient?_eq_some_iff : asQuotient? c n = some q ↔ 0 < c.toNat ∧ q.toNat = n := by
  rw [asQuotient?]
  by_cases hc : c.toNat = 0
  · rw [if_pos hc]
    simp [hc]
  · rw [if_neg hc, ofNat?_eq_some_iff]
    simp [Nat.pos_of_ne_zero hc]

theorem asQuotient?_eq_none_iff :
    asQuotient? c n = none ↔ c.toNat = 0 ∨ (top w).toNat < n := by
  have hpos := capacity_pos w
  rw [asQuotient?]
  by_cases hc : c.toNat = 0
  · rw [if_pos hc]
    simp [hc]
  · rw [if_neg hc, ofNat?_eq_none_iff, toNat_top]
    omega

/-! ## The two roundings compared -/

theorem ceil_eq_floor_or_succ (hfloor : mulDivFloor? a b c = some q)
    (hceil : mulDivCeil? a b c = some q') : q'.toNat = q.toNat ∨ q'.toNat = q.toNat + 1 := by
  rw [mulDivFloor?_eq_floor, asQuotient?_eq_some_iff] at hfloor
  rw [mulDivCeil?_eq_ceil, asQuotient?_eq_some_iff] at hceil
  have hle := Nat.floor_le_ceil (ratio a b c)
  have hsucc := Nat.ceil_le_floor_add_one (ratio a b c)
  omega

/-- Where the floor is refused the ceiling is. -/
theorem ceil_eq_none (hfloor : mulDivFloor? a b c = none) : mulDivCeil? a b c = none := by
  rw [mulDivFloor?_eq_floor, asQuotient?_eq_none_iff] at hfloor
  rw [mulDivCeil?_eq_ceil, asQuotient?_eq_none_iff]
  have hle := Nat.floor_le_ceil (ratio a b c)
  omega

/-- Where the ceiling alone is refused, the floor is the largest quantity. -/
theorem floor_eq_top (hfloor : mulDivFloor? a b c = some q) (hceil : mulDivCeil? a b c = none) :
    q = top w := by
  rw [mulDivFloor?_eq_floor, asQuotient?_eq_some_iff] at hfloor
  rw [mulDivCeil?_eq_ceil, asQuotient?_eq_none_iff] at hceil
  have hsucc := Nat.ceil_le_floor_add_one (ratio a b c)
  have hlt := q.toNat_lt
  rw [Quantity.ext_iff]
  rw [toNat_top] at hceil ⊢
  omega

/-- Amounts are multiplied and divided exactly, in words of twice their width that never wrap: both
quotients are the ratio, rounded down and up, as far as that is in range, and there is none
otherwise. They are one unit apart at most, and the ceiling is refused with the floor, or on its own
above the largest floor. -/
theorem quotients_are_exact (a b c : Amount) :
    (∀ q, mulDivFloor? a b c = some q ↔
      0 < c.toNat ∧ q.toNat = ⌊(a.toNat * b.toNat / c.toNat : ℚ)⌋₊) ∧
    (mulDivFloor? a b c = none ↔
      c.toNat = 0 ∨ (top 128).toNat < ⌊(a.toNat * b.toNat / c.toNat : ℚ)⌋₊) ∧
    (∀ q, mulDivCeil? a b c = some q ↔
      0 < c.toNat ∧ q.toNat = ⌈(a.toNat * b.toNat / c.toNat : ℚ)⌉₊) ∧
    (mulDivCeil? a b c = none ↔
      c.toNat = 0 ∨ (top 128).toNat < ⌈(a.toNat * b.toNat / c.toNat : ℚ)⌉₊) ∧
    (a.toNat * b.toNat + (c.toNat - 1) < capacity 256 ∧
      (product a b).toNat = a.toNat * b.toNat ∧
      (c ≠ 0 → (raised a b c).toNat = a.toNat * b.toNat + (c.toNat - 1))) ∧
    (∀ q q', mulDivFloor? a b c = some q → mulDivCeil? a b c = some q' →
      q'.toNat = q.toNat ∨ q'.toNat = q.toNat + 1) ∧
    (mulDivFloor? a b c = none → mulDivCeil? a b c = none) ∧
    ∀ q, mulDivFloor? a b c = some q → mulDivCeil? a b c = none → q = top 128 := by
  refine ⟨?_, ?_, ?_, ?_, ?_, ?_, ceil_eq_none, ?_⟩
  · intro q
    rw [mulDivFloor?_eq_floor]
    exact asQuotient?_eq_some_iff
  · rw [mulDivFloor?_eq_floor]
    exact asQuotient?_eq_none_iff
  · intro q
    rw [mulDivCeil?_eq_ceil]
    exact asQuotient?_eq_some_iff
  · rw [mulDivCeil?_eq_ceil]
    exact asQuotient?_eq_none_iff
  · exact ⟨mul_add_pred_lt a b c, toNat_product a b, toNat_raised a b⟩
  · intro q q' hfloor hceil
    exact ceil_eq_floor_or_succ hfloor hceil
  · intro q hfloor hceil
    exact floor_eq_top hfloor hceil

/-- Seven times this is four times the largest amount, and two more. -/
def fourSevenths : Amount := ⟨194447066811964836264785489961010406546, by decide⟩

/-- Seven times it over five is in range, over four it is in range rounded down alone, and over
three it is out of range. -/
theorem quotients_at_the_edge :
    (∃ q q', mulDivFloor? fourSevenths ⟨7, by decide⟩ ⟨5, by decide⟩ = some q ∧
      mulDivCeil? fourSevenths ⟨7, by decide⟩ ⟨5, by decide⟩ = some q' ∧
      (q'.toNat = q.toNat ∨ q'.toNat = q.toNat + 1)) ∧
    (∃ q, mulDivFloor? fourSevenths ⟨7, by decide⟩ ⟨4, by decide⟩ = some q ∧
      mulDivCeil? fourSevenths ⟨7, by decide⟩ ⟨4, by decide⟩ = none ∧ q = top 128) ∧
    mulDivFloor? fourSevenths ⟨7, by decide⟩ ⟨3, by decide⟩ = none ∧
    mulDivCeil? fourSevenths ⟨7, by decide⟩ ⟨3, by decide⟩ = none ∧
    (raised fourSevenths ⟨7, by decide⟩ ⟨3, by decide⟩).toNat = fourSevenths.toNat * 7 + 2 := by
  obtain ⟨-, -, -, -, -, hapart, -, -⟩ :=
    quotients_are_exact fourSevenths ⟨7, by decide⟩ ⟨5, by decide⟩
  obtain ⟨-, -, -, -, -, -, -, htop⟩ :=
    quotients_are_exact fourSevenths ⟨7, by decide⟩ ⟨4, by decide⟩
  obtain ⟨-, -, -, -, ⟨-, -, hraised⟩, -, hrefused, -⟩ :=
    quotients_are_exact fourSevenths ⟨7, by decide⟩ ⟨3, by decide⟩
  refine ⟨?_, ?_, ?_⟩
  · obtain ⟨q, hq⟩ : ∃ q, mulDivFloor? fourSevenths ⟨7, by decide⟩ ⟨5, by decide⟩ = some q :=
      ⟨_, rfl⟩
    obtain ⟨q', hq'⟩ : ∃ q', mulDivCeil? fourSevenths ⟨7, by decide⟩ ⟨5, by decide⟩ = some q' :=
      ⟨_, rfl⟩
    exact ⟨q, q', hq, hq', hapart q q' hq hq'⟩
  · obtain ⟨q, hq⟩ : ∃ q, mulDivFloor? fourSevenths ⟨7, by decide⟩ ⟨4, by decide⟩ = some q :=
      ⟨_, rfl⟩
    have hnone : mulDivCeil? fourSevenths ⟨7, by decide⟩ ⟨4, by decide⟩ = none := rfl
    exact ⟨q, hq, hnone, htop q hq hnone⟩
  · have hnone : mulDivFloor? fourSevenths ⟨7, by decide⟩ ⟨3, by decide⟩ = none := rfl
    exact ⟨hnone, hrefused hnone, hraised (by decide)⟩

end Quantity

end Lending
