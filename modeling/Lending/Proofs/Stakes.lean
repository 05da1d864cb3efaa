import Lending.Proofs.Quotes

/-!
# What a stake is worth after its holder trades

Whoever holds `a` of the `A` shares or bonds on a sum `D` has a stake of `a * D / A`, rounded down
for shares and up for bonds. A trade changes all three numbers. Somebody who joins with `x` for `k`
new ones holds `a + k` of `A + k` on `D + x` afterwards, and somebody who leaves goes the other way.
So what he traded for is priced by the pool, and what he kept is priced anew, and both prices are
rounded.

How far the two stakes are from being `x` apart is decided before anything is rounded. At the price
of the pool `x * A` is `k * D`, and then they are exactly that. If the one product exceeds the other
by at most `p` for every share there is afterwards, they are off by at most `p`, because only the
part that the others hold bears on it (`joined_mul_le`, `mul_joined_le`). Stakes that are rounded
the same way, with whole numbers added to them, are then compared by products, like any quotients
(`add_le_add`), and the rounding costs nothing more.

A trade is priced by the pool and rounded. Where somebody joins, `k` is rounded, and the trade is
off by less than the price of one share; where somebody leaves, `x` is, and it is off by less than
one unit. The brackets at the end say so for either way of rounding.
-/

set_option autoImplicit false

namespace Lending

/-! ## Quotients with whole numbers added -/

section Quotients

variable {q q' a b c a' b' c' x y : Nat}

theorem RoundsDown.pos (h : RoundsDown q a b c) : 0 < c :=
  Nat.pos_of_mul_pos_left (Nat.lt_of_le_of_lt (Nat.zero_le _) h.lt)

theorem RoundsUp.pos (h : RoundsUp q a b c) : 0 < c := by
  have hge := h.ge
  have hlt := h.lt
  omega

theorem RoundsDown.add_le_add (h : RoundsDown q a b c) (h' : RoundsDown q' a' b' c')
    (hcross : (a * b + x * c) * c' ≤ (a' * b' + y * c') * c) : q + x ≤ q' + y := by
  have hlt : (q + x) * c * c' < (q' + y + 1) * c * c' :=
    calc (q + x) * c * c' = (q * c + x * c) * c' := by rw [Nat.add_mul]
      _ ≤ (a * b + x * c) * c' := Nat.mul_le_mul_right c' (Nat.add_le_add_right h.le _)
      _ ≤ (a' * b' + y * c') * c := hcross
      _ < ((q' + 1) * c' + y * c') * c :=
        Nat.mul_lt_mul_of_pos_right (Nat.add_lt_add_right h'.lt _) h.pos
      _ = (q' + y + 1) * c * c' := by grind
  exact Nat.le_of_lt_succ (Nat.lt_of_mul_lt_mul_right (Nat.lt_of_mul_lt_mul_right hlt))

theorem RoundsUp.add_le_add (h : RoundsUp q a b c) (h' : RoundsUp q' a' b' c')
    (hcross : (a * b + x * c) * c' ≤ (a' * b' + y * c') * c) : q + x ≤ q' + y := by
  have hlt : (q + x) * c * c' < (q' + y + 1) * c * c' :=
    calc (q + x) * c * c' = (q * c + x * c) * c' := by rw [Nat.add_mul]
      _ < (a * b + c + x * c) * c' :=
        Nat.mul_lt_mul_of_pos_right (Nat.add_lt_add_right h.lt _) h'.pos
      _ = (a * b + x * c) * c' + c * c' := by rw [Nat.add_right_comm, Nat.add_mul]
      _ ≤ (a' * b' + y * c') * c + c * c' := Nat.add_le_add_right hcross _
      _ ≤ (q' * c' + y * c') * c + c * c' :=
        Nat.add_le_add_right (Nat.mul_le_mul_right c (Nat.add_le_add_right h'.ge _)) _
      _ = (q' + y + 1) * c * c' := by grind
  exact Nat.le_of_lt_succ (Nat.lt_of_mul_lt_mul_right (Nat.lt_of_mul_lt_mul_right hlt))

theorem le_ceil_mul {n : Nat} (hc : 0 < c) : n ≤ (n + (c - 1)) / c * c := by
  have hlt : n + (c - 1) < (n + (c - 1)) / c * c + c := Nat.lt_div_mul_add hc
  omega

end Quotients

/-! ## Stakes -/

section Stakes

variable {v v' a k A D x y p : Nat}

/-- Over one denominator, the stake before with `x` added to it and the stake after differ by what
the trade gives to the `m` other shares, or takes from them. -/
theorem joined_identity (m : Nat) :
    (a * D + x * (a + m)) * (a + m + k) + k * D * m =
      (a + k) * (D + x) * (a + m) + x * (a + m) * m := by
  grind

/-- Whoever joins with at least `x` loses at most `p`, if `k` is too few by at most `p` a share. -/
theorem joined_mul_le (hpart : a ≤ A) (hmore : x ≤ y) (h : x * A ≤ k * D + p * (A + k)) :
    (a * D + x * A) * (A + k) ≤ ((a + k) * (D + y) + p * (A + k)) * A := by
  obtain ⟨m, rfl⟩ := Nat.exists_eq_add_of_le hpart
  have hothers : x * (a + m) * m ≤ k * D * m + p * (a + m + k) * m :=
    calc x * (a + m) * m ≤ (k * D + p * (a + m + k)) * m := Nat.mul_le_mul_right m h
      _ = k * D * m + p * (a + m + k) * m := Nat.add_mul _ _ _
  have hpaid : p * (a + m + k) * m ≤ p * (a + m + k) * (a + m) :=
    Nat.mul_le_mul_left _ (Nat.le_add_left m a)
  have hworth : (a + k) * (D + x) * (a + m) ≤ (a + k) * (D + y) * (a + m) :=
    Nat.mul_le_mul_right _ (Nat.mul_le_mul_left _ (Nat.add_le_add_left hmore D))
  have hidentity := joined_identity (a := a) (D := D) (x := x) (k := k) m
  rw [Nat.add_mul ((a + k) * (D + y))]
  omega

/-- Whoever joins with `x` gains at most `p`, if `k` is too many by at most `p` a share. -/
theorem mul_joined_le (hpart : a ≤ A) (h : k * D ≤ x * A + p * (A + k)) :
    (a + k) * (D + x) * A ≤ (a * D + (x + p) * A) * (A + k) := by
  obtain ⟨m, rfl⟩ := Nat.exists_eq_add_of_le hpart
  have hothers : k * D * m ≤ x * (a + m) * m + p * (a + m + k) * m :=
    calc k * D * m ≤ (x * (a + m) + p * (a + m + k)) * m := Nat.mul_le_mul_right m h
      _ = x * (a + m) * m + p * (a + m + k) * m := Nat.add_mul _ _ _
  have hpaid : p * (a + m + k) * m ≤ p * (a + m + k) * (a + m) :=
    Nat.mul_le_mul_left _ (Nat.le_add_left m a)
  have hidentity := joined_identity (a := a) (D := D) (x := x) (k := k) m
  have hsplit : (a * D + (x + p) * (a + m)) * (a + m + k) =
      (a * D + x * (a + m)) * (a + m + k) + p * (a + m + k) * (a + m) := by grind
  omega

namespace RoundsDown

theorem add_le_of_joined (hpart : a ≤ A) (hmore : x ≤ y) (hv : RoundsDown v a D A)
    (hv' : RoundsDown v' (a + k) (D + y) (A + k)) (h : x * A ≤ k * D + p * (A + k)) :
    v + x ≤ v' + p :=
  hv.add_le_add hv' (joined_mul_le hpart hmore h)

theorem le_add_of_joined (hpart : a ≤ A) (hv : RoundsDown v a D A)
    (hv' : RoundsDown v' (a + k) (D + x) (A + k)) (h : k * D ≤ x * A + p * (A + k)) :
    v' ≤ v + x + p := by
  have hcross := mul_joined_le hpart h
  have hle := hv'.add_le_add (x := 0) hv (by rwa [Nat.zero_mul])
  omega

/-- Whoever buys with `x` loses at most the price of one share. -/
theorem add_le_of_bought (hpart : a ≤ A) (hmore : x ≤ y) (hk : RoundsDown k x A D)
    (hprice : D ≤ p * A) (hv : RoundsDown v a D A)
    (hv' : RoundsDown v' (a + k) (D + y) (A + k)) : v + x ≤ v' + p := by
  have hlt := hk.lt
  have hone : p * A ≤ p * (A + k) := Nat.mul_le_mul_left p (Nat.le_add_right A k)
  rw [Nat.succ_mul] at hlt
  exact hv.add_le_of_joined hpart hmore hv' (by omega)

theorem left_bracket (hpart : a ≤ A) (hx : RoundsDown x k (D + x) (A + k))
    (hv : RoundsDown v (a + k) (D + x) (A + k)) (hv' : RoundsDown v' a D A) :
    v' + x ≤ v ∧ v ≤ v' + x + 1 := by
  have hle := hx.le
  have hlt := hx.lt
  rw [Nat.mul_add, Nat.mul_add, Nat.mul_comm k x] at hle hlt
  rw [Nat.succ_mul, Nat.succ_mul] at hlt
  constructor
  · exact hv'.add_le_of_joined (p := 0) hpart (Nat.le_refl x) hv (by omega)
  · exact hv'.le_add_of_joined (p := 1) hpart hv (by omega)

end RoundsDown

namespace RoundsUp

theorem add_le_of_joined (hpart : a ≤ A) (hv : RoundsUp v a D A)
    (hv' : RoundsUp v' (a + k) (D + x) (A + k)) (h : x * A ≤ k * D + p * (A + k)) :
    v + x ≤ v' + p :=
  hv.add_le_add hv' (joined_mul_le hpart (Nat.le_refl x) h)

theorem le_add_of_joined (hpart : a ≤ A) (hv : RoundsUp v a D A)
    (hv' : RoundsUp v' (a + k) (D + x) (A + k)) (h : k * D ≤ x * A + p * (A + k)) :
    v' ≤ v + x + p := by
  have hcross := mul_joined_le hpart h
  have hle := hv'.add_le_add (x := 0) hv (by rwa [Nat.zero_mul])
  omega

theorem joined_bracket (hpart : a ≤ A) (hk : RoundsUp k x A D) (hprice : D ≤ p * A)
    (hv : RoundsUp v a D A) (hv' : RoundsUp v' (a + k) (D + x) (A + k)) :
    v + x ≤ v' ∧ v' ≤ v + x + p := by
  have hge := hk.ge
  have hlt := hk.lt
  have hone : p * A ≤ p * (A + k) := Nat.mul_le_mul_left p (Nat.le_add_right A k)
  constructor
  · exact hv.add_le_of_joined (p := 0) hpart hv' (by omega)
  · exact hv.le_add_of_joined hpart hv' (by omega)

theorem left_bracket (hpart : a ≤ A) (hx : RoundsUp x k (D + x) (A + k))
    (hv : RoundsUp v (a + k) (D + x) (A + k)) (hv' : RoundsUp v' a D A) :
    v ≤ v' + x ∧ v' + x ≤ v + 1 := by
  have hge := hx.ge
  have hlt := hx.lt
  rw [Nat.mul_add, Nat.mul_add, Nat.mul_comm k x] at hge hlt
  constructor
  · exact hv'.le_add_of_joined (p := 0) hpart hv (by omega)
  · exact hv'.add_le_of_joined (p := 1) hpart hv (by omega)

end RoundsUp

end Stakes

end Lending
