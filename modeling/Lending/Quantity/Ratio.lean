import Lending.Quantity

/-!
# Products divided by a third quantity

Every price of a pool is a quotient `a * b / c`, rounded down for what the pool gives and up for
what it is owed. The product needs twice the width of its factors, so it is formed in a word of
width `2 * w`, and only the quotient has to fit `w` bits again: `mulDivFloor? a b c` and
`mulDivCeil? a b c` are `none` exactly when `c` is zero or the quotient is too large.

Words wrap, and the main statements here say that these do not: `toNat_product` for the product
and `toNat_raised` for the product with `c - 1` added, which is what rounding up divides. With that
the two quotients are the ones of `Nat` (`mulDivFloor?_eq`, `mulDivCeil?_eq`), and each is pinned
down by two inequalities (`mulDivFloor?_eq_some_iff`, `mulDivCeil?_eq_some_iff`).
-/

set_option autoImplicit false

namespace Lending

namespace Quantity

variable {w : Nat}

/-! ## Words of twice the width -/

/-- The quantity as a word of twice its width. -/
def wide (q : Quantity w) : BitVec (2 * w) := BitVec.ofNat (2 * w) q.toNat

/-- The number in a word of twice the width, if it fits the width. -/
def narrow? (x : BitVec (2 * w)) : Option (Quantity w) := ofNat? w x.toNat

/-- The product of two quantities, in full. -/
def product (a b : Quantity w) : BitVec (2 * w) := a.wide * b.wide

/-- The product with `c - 1` added: dividing it by `c` rounds up. -/
def raised (a b c : Quantity w) : BitVec (2 * w) := product a b + (c.wide - 1)

/-- The product of `a` and `b` divided by `c`, rounded down. -/
def mulDivFloor? (a b c : Quantity w) : Option (Quantity w) :=
  if c = 0 then none else narrow? (product a b / c.wide)

/-- The product of `a` and `b` divided by `c`, rounded up. -/
def mulDivCeil? (a b c : Quantity w) : Option (Quantity w) :=
  if c = 0 then none else narrow? (raised a b c / c.wide)

/-! ## The words do not wrap -/

theorem capacity_two_mul (w : Nat) : capacity (2 * w) = capacity w * capacity w := by
  rw [Nat.two_mul, capacity_add]

@[simp] theorem toNat_wide (q : Quantity w) : q.wide.toNat = q.toNat :=
  (BitVec.toNat_ofNat q.toNat (2 * w)).trans
    (Nat.mod_eq_of_lt (Nat.lt_of_lt_of_le q.toNat_lt (capacity_le_capacity (by omega))))

/-- There is room above a product of two quantities for two more of them. -/
theorem mul_add_lt (a b : Quantity w) {n : Nat} (h : n < capacity w) :
    a.toNat * b.toNat + n < capacity (2 * w) := by
  have ha : a.toNat ≤ capacity w - 1 := by have := a.toNat_lt; omega
  have hb := b.toNat_lt
  have hm : a.toNat * b.toNat ≤ (capacity w - 1) * capacity w :=
    Nat.le_trans (Nat.mul_le_mul_left _ (by omega)) (Nat.mul_le_mul_right _ ha)
  have hs : (capacity w - 1) * capacity w + capacity w = capacity w * capacity w := by
    rw [← Nat.succ_mul, Nat.succ_eq_add_one, Nat.sub_add_cancel (capacity_pos w)]
  rw [capacity_two_mul]
  omega

theorem toNat_product (a b : Quantity w) : (product a b).toNat = a.toNat * b.toNat := by
  have hroom : a.wide.toNat * b.wide.toNat < capacity (2 * w) := by
    rw [toNat_wide, toNat_wide]
    exact mul_add_lt a b (capacity_pos w)
  rw [product, BitVec.toNat_mul_of_lt hroom, toNat_wide, toNat_wide]

theorem toNat_wide_sub_one {c : Quantity w} (h : c ≠ 0) : (c.wide - 1).toNat = c.toNat - 1 := by
  have hc : c.toNat ≠ 0 := fun h0 => h (eq_zero_iff.mpr h0)
  have hlt := c.toNat_lt
  have hw : capacity w ≤ capacity (2 * w) := capacity_le_capacity (by omega)
  have hone : (1 : BitVec (2 * w)).toNat = 1 := by
    have h1 : 1 < capacity (2 * w) := by omega
    exact (BitVec.toNat_ofNat 1 (2 * w)).trans (Nat.mod_eq_of_lt h1)
  rw [BitVec.toNat_sub_of_le (by rw [BitVec.le_def, hone, toNat_wide]; omega), hone, toNat_wide]

theorem toNat_raised (a b : Quantity w) {c : Quantity w} (h : c ≠ 0) :
    (raised a b c).toNat = a.toNat * b.toNat + (c.toNat - 1) := by
  have hpred := toNat_wide_sub_one h
  have hlt := c.toNat_lt
  have hroom : (product a b).toNat + (c.wide - 1).toNat < capacity (2 * w) := by
    rw [toNat_product, hpred]
    exact mul_add_lt a b (by omega)
  rw [raised, BitVec.toNat_add_of_lt hroom, toNat_product, hpred]

/-! ## The quotients in `Nat` -/

theorem mulDivFloor?_eq (a b c : Quantity w) :
    mulDivFloor? a b c =
      if c.toNat = 0 then none else ofNat? w (a.toNat * b.toNat / c.toNat) := by
  simp only [mulDivFloor?, eq_zero_iff, narrow?, BitVec.toNat_udiv, toNat_product, toNat_wide]

theorem mulDivCeil?_eq (a b c : Quantity w) :
    mulDivCeil? a b c =
      if c.toNat = 0 then none
      else ofNat? w ((a.toNat * b.toNat + (c.toNat - 1)) / c.toNat) := by
  by_cases h : c = 0
  · simp [mulDivCeil?, h]
  · have hc : c.toNat ≠ 0 := fun h0 => h (eq_zero_iff.mpr h0)
    simp only [mulDivCeil?, if_neg h, if_neg hc, narrow?, BitVec.toNat_udiv, toNat_raised a b h,
      toNat_wide]

/-- Rounding down: the largest quantity that, times the divisor, stays within the product. -/
theorem mulDivFloor?_eq_some_iff {a b c q : Quantity w} :
    mulDivFloor? a b c = some q ↔
      q.toNat * c.toNat ≤ a.toNat * b.toNat ∧
        a.toNat * b.toNat < (q.toNat + 1) * c.toNat := by
  rw [mulDivFloor?_eq]
  split
  · next h =>
    rw [h, Nat.mul_zero]
    simp only [reduceCtorEq, false_iff]
    omega
  · next h =>
    rw [ofNat?_eq_some_iff, eq_comm, Nat.div_eq_iff (Nat.pos_of_ne_zero h), Nat.succ_mul]
    omega

/-- Rounding up: the smallest quantity that, times the divisor, covers the product. -/
theorem mulDivCeil?_eq_some_iff {a b c q : Quantity w} :
    mulDivCeil? a b c = some q ↔
      a.toNat * b.toNat ≤ q.toNat * c.toNat ∧
        q.toNat * c.toNat < a.toNat * b.toNat + c.toNat := by
  rw [mulDivCeil?_eq]
  split
  · next h =>
    rw [h, Nat.mul_zero]
    simp only [reduceCtorEq, false_iff]
    omega
  · next h =>
    rw [ofNat?_eq_some_iff, eq_comm, Nat.div_eq_iff (Nat.pos_of_ne_zero h)]
    omega

end Quantity

end Lending
