/-!
# Quantities: whole numbers below a power of two

Every balance, total, rate and time of the library is a `Quantity w`: a natural number together
with the proof that it fits `w` bits. The width is a parameter and not a constant, because the
arithmetic of a pool does not depend on it: what is shown of narrow quantities, whose pools can be
enumerated, is the same statement as for the wide ones in which balances are kept.

Nothing here wraps. A sum, a product or a difference that leaves the range is `none`, and the
caller says which fault that is; the one subtraction that stops at zero is written `-` and is used
only where a floor at zero is meant. Each operation has a lemma that gives its value in `Nat`, so
later proofs leave this file with a goal about natural numbers.
-/

set_option autoImplicit false

namespace Lending

/-- The number of quantities of width `w`: two to the power of `w`. -/
def capacity (w : Nat) : Nat := Nat.pow 2 w

theorem capacity_pos (w : Nat) : 0 < capacity w := Nat.two_pow_pos w

theorem capacity_add (v w : Nat) : capacity (v + w) = capacity v * capacity w := Nat.pow_add 2 v w

theorem capacity_le_capacity {v w : Nat} (h : v ≤ w) : capacity v ≤ capacity w :=
  Nat.pow_le_pow_right Nat.two_pos h

theorem capacity_eight : capacity 8 = 256 := rfl

/-- A natural number below the capacity of `w` bits. -/
@[ext]
structure Quantity (w : Nat) where
  /-- The number itself. -/
  toNat : Nat
  /-- It fits `w` bits. -/
  toNat_lt : toNat < capacity w
deriving DecidableEq

/-- What balances, totals and rates are counted in. -/
abbrev Amount := Quantity 128

/-- Seconds on the clock of the host. -/
abbrev Timestamp := Quantity 64

namespace Quantity

variable {v w : Nat}

/-! ## The range -/

/-- The quantity that counts `n`, if there is room for it. -/
def ofNat? (w n : Nat) : Option (Quantity w) :=
  if h : n < capacity w then some ⟨n, h⟩ else none

theorem ofNat?_eq_some_iff {n : Nat} {q : Quantity w} : ofNat? w n = some q ↔ q.toNat = n := by
  unfold ofNat?
  split
  · next h =>
    constructor
    · intro hs
      rw [← Option.some.inj hs]
    · intro hn
      exact congrArg some (Quantity.ext hn.symm)
  · next h =>
    constructor
    · intro hs
      exact absurd hs (by simp)
    · intro hn
      exact absurd (hn ▸ q.toNat_lt) h

theorem ofNat?_eq_none_iff {n : Nat} : ofNat? w n = none ↔ capacity w ≤ n := by
  unfold ofNat?
  split <;> simp <;> omega

@[simp] theorem ofNat?_toNat (q : Quantity w) : ofNat? w q.toNat = some q :=
  ofNat?_eq_some_iff.mpr rfl

instance : Zero (Quantity w) := ⟨⟨0, capacity_pos w⟩⟩

instance : Inhabited (Quantity w) := ⟨0⟩

@[simp] theorem toNat_zero : (0 : Quantity w).toNat = 0 := rfl

theorem eq_zero_iff {q : Quantity w} : q = 0 ↔ q.toNat = 0 :=
  ⟨fun h => h ▸ rfl, fun h => Quantity.ext h⟩

/-- The largest quantity of a width. -/
def top (w : Nat) : Quantity w :=
  ⟨capacity w - 1, Nat.sub_lt (capacity_pos w) Nat.one_pos⟩

@[simp] theorem toNat_top : (top w).toNat = capacity w - 1 := rfl

/-- The same number at a larger width. -/
def widen (h : v ≤ w) (q : Quantity v) : Quantity w :=
  ⟨q.toNat, Nat.lt_of_lt_of_le q.toNat_lt (capacity_le_capacity h)⟩

@[simp] theorem toNat_widen (h : v ≤ w) (q : Quantity v) : (q.widen h).toNat = q.toNat := rfl

theorem widen_eq_zero_iff (h : v ≤ w) {q : Quantity v} : q.widen h = 0 ↔ q = 0 := by
  rw [eq_zero_iff, eq_zero_iff, toNat_widen]

/-! ## Order -/

instance : LE (Quantity w) := ⟨fun a b => a.toNat ≤ b.toNat⟩

instance : LT (Quantity w) := ⟨fun a b => a.toNat < b.toNat⟩

theorem le_def {a b : Quantity w} : a ≤ b ↔ a.toNat ≤ b.toNat := Iff.rfl

theorem lt_def {a b : Quantity w} : a < b ↔ a.toNat < b.toNat := Iff.rfl

instance (a b : Quantity w) : Decidable (a ≤ b) := Nat.decLe a.toNat b.toNat

instance (a b : Quantity w) : Decidable (a < b) := Nat.decLt a.toNat b.toNat

instance : Min (Quantity w) := minOfLe

instance : Max (Quantity w) := maxOfLe

theorem toNat_min (a b : Quantity w) : (min a b).toNat = min a.toNat b.toNat := by
  show (if a.toNat ≤ b.toNat then a else b).toNat = _
  split <;> omega

theorem toNat_max (a b : Quantity w) : (max a b).toNat = max a.toNat b.toNat := by
  show (if a.toNat ≤ b.toNat then b else a).toNat = _
  split <;> omega

/-! ## Arithmetic that keeps to the range -/

/-- The sum, if there is room for it. -/
def add? (a b : Quantity w) : Option (Quantity w) := ofNat? w (a.toNat + b.toNat)

theorem add?_eq_some_iff {a b c : Quantity w} :
    a.add? b = some c ↔ c.toNat = a.toNat + b.toNat := ofNat?_eq_some_iff

theorem add?_eq_none_iff {a b : Quantity w} : a.add? b = none ↔ capacity w ≤ a.toNat + b.toNat :=
  ofNat?_eq_none_iff

/-- The next number, if there is one. -/
def succ? (a : Quantity w) : Option (Quantity w) := ofNat? w (a.toNat + 1)

theorem succ?_eq_some_iff {a b : Quantity w} : a.succ? = some b ↔ b.toNat = a.toNat + 1 :=
  ofNat?_eq_some_iff

theorem succ?_eq_none_iff {a : Quantity w} : a.succ? = none ↔ capacity w ≤ a.toNat + 1 :=
  ofNat?_eq_none_iff

/-- The product, if there is room for it. -/
def mul? (a b : Quantity w) : Option (Quantity w) := ofNat? w (a.toNat * b.toNat)

theorem mul?_eq_some_iff {a b c : Quantity w} :
    a.mul? b = some c ↔ c.toNat = a.toNat * b.toNat := ofNat?_eq_some_iff

/-- The difference, with a floor at zero. -/
instance : Sub (Quantity w) :=
  ⟨fun a b => ⟨a.toNat - b.toNat, Nat.lt_of_le_of_lt (Nat.sub_le _ _) a.toNat_lt⟩⟩

@[simp] theorem toNat_sub (a b : Quantity w) : (a - b).toNat = a.toNat - b.toNat := rfl

theorem toNat_sub_add_toNat {a b : Quantity w} (h : b.toNat ≤ a.toNat) :
    (a - b).toNat + b.toNat = a.toNat := Nat.sub_add_cancel h

/-- The difference, if it is not negative. -/
def sub? (a b : Quantity w) : Option (Quantity w) := if b ≤ a then some (a - b) else none

theorem sub?_eq_some_iff {a b c : Quantity w} :
    a.sub? b = some c ↔ c.toNat + b.toNat = a.toNat := by
  unfold sub?
  split
  · next h =>
    rw [le_def] at h
    simp only [Option.some.injEq, Quantity.ext_iff, toNat_sub]
    omega
  · next h =>
    rw [le_def] at h
    simp only [reduceCtorEq, false_iff]
    omega

theorem sub?_eq_none_iff {a b : Quantity w} : a.sub? b = none ↔ a.toNat < b.toNat := by
  unfold sub?
  split
  · next h =>
    rw [le_def] at h
    simp only [reduceCtorEq, false_iff]
    omega
  · next h =>
    rw [le_def] at h
    simp only [true_iff]
    omega

end Quantity

end Lending
