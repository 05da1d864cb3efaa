import Lending.FeeSchedule
import Lending.Pool
import Lending.Proofs.Conversion

/-!
# Quotes: what the books answer, and what a trade at a quote does to the price

A book is asked how many shares or bonds a sum buys, or what sum they are worth. Its answer is a
rounded quotient, or what takes the place of one where there is nothing to divide by. `RoundsDown`
and `RoundsUp` say what the two roundings are without a division: each puts the quotient between two
products, and each is then decided against any other number by *one* product (`le_iff`). That is all
that later files use. The `_cases` lemmas open the five questions of the books once, and nobody
unfolds them again.

Prices themselves are never computed. That one of them is no more than another is an inequality of
two products, and a trade moves a price by adding to both sides of it or taking from both. Whether
the price rises or falls is decided by the price of the trade alone (`mul_le_mul_of_added`,
`mul_le_mul_of_removed`), and the same two facts serve shares and bonds, with the sides exchanged.
-/

set_option autoImplicit false

namespace Lending

/-- The number `q` is `a * b / c`, rounded down. -/
structure RoundsDown (q a b c : Nat) : Prop where
  le : q * c ≤ a * b
  lt : a * b < (q + 1) * c

/-- The number `q` is `a * b / c`, rounded up. -/
structure RoundsUp (q a b c : Nat) : Prop where
  ge : a * b ≤ q * c
  lt : q * c < a * b + c

section Quotients

variable {q n a b c : Nat}

theorem RoundsDown.le_iff (h : RoundsDown q a b c) : n ≤ q ↔ n * c ≤ a * b := by
  constructor
  · intro hn
    exact Nat.le_trans (Nat.mul_le_mul_right c hn) h.le
  · intro hn
    have hlt : n * c < (q + 1) * c := Nat.lt_of_le_of_lt hn h.lt
    exact Nat.le_of_lt_succ (Nat.lt_of_mul_lt_mul_right hlt)

theorem RoundsUp.le_iff (h : RoundsUp q a b c) : q ≤ n ↔ a * b ≤ n * c := by
  constructor
  · intro hn
    exact Nat.le_trans h.ge (Nat.mul_le_mul_right c hn)
  · intro hn
    have hlt : q * c < (n + 1) * c :=
      calc q * c < a * b + c := h.lt
        _ ≤ n * c + c := Nat.add_le_add_right hn c
        _ = (n + 1) * c := (Nat.succ_mul n c).symm
    exact Nat.le_of_lt_succ (Nat.lt_of_mul_lt_mul_right hlt)

/-! Of nothing there is no part, a part is worth no more than all there is, and the whole is worth
all of it, whichever way it is rounded. -/

theorem RoundsDown.eq_zero (hc : 0 < c) (h : RoundsDown q 0 b c) : q = 0 := by
  have hle : q * c ≤ 0 * c := by
    rw [Nat.zero_mul, ← Nat.zero_mul b]
    exact h.le
  exact Nat.le_zero.mp (Nat.le_of_mul_le_mul_right hle hc)

theorem RoundsUp.eq_zero (h : RoundsUp q 0 b c) : q = 0 := by
  refine Nat.le_zero.mp (h.le_iff.mpr ?_)
  rw [Nat.zero_mul]
  exact Nat.zero_le _

theorem RoundsDown.le_whole (hc : 0 < c) (hpart : a ≤ c) (h : RoundsDown q a b c) : q ≤ b := by
  refine Nat.le_of_mul_le_mul_right ?_ hc
  calc q * c ≤ a * b := h.le
    _ ≤ c * b := Nat.mul_le_mul_right b hpart
    _ = b * c := Nat.mul_comm c b

theorem RoundsUp.le_whole (hpart : a ≤ c) (h : RoundsUp q a b c) : q ≤ b := by
  rw [h.le_iff, Nat.mul_comm b]
  exact Nat.mul_le_mul_right b hpart

theorem RoundsDown.eq_whole (hc : 0 < c) (h : RoundsDown q c b c) : q = b := by
  apply Nat.le_antisymm
  · exact h.le_whole hc (Nat.le_refl c)
  · exact h.le_iff.mpr (Nat.le_of_eq (Nat.mul_comm b c))

theorem RoundsUp.eq_whole (hc : 0 < c) (h : RoundsUp q c b c) : q = b := by
  apply Nat.le_antisymm
  · exact h.le_whole (Nat.le_refl c)
  · exact Nat.le_of_mul_le_mul_right (Nat.mul_comm c b ▸ h.ge) hc

/-- A quotient is worth no more than it was taken of, and where there is nothing to divide by,
whatever is answered is worth nothing. -/
theorem mul_le_of_roundsDown (h : c = 0 ∨ RoundsDown q a b c) : q * c ≤ a * b := by
  rcases h with hz | hrounds
  · rw [hz, Nat.mul_zero]
    exact Nat.zero_le _
  · exact hrounds.le

/-- Rounded up, a quotient is worth no less, and of nothing there is no part but nothing. -/
theorem mul_le_of_roundsUp (hpart : a ≤ c) (h : c = 0 ∨ RoundsUp q a b c) : a * b ≤ q * c := by
  rcases h with hz | hrounds
  · rw [hz] at hpart
    rw [Nat.le_zero.mp hpart, Nat.zero_mul]
    exact Nat.zero_le _
  · exact hrounds.ge

/-- Where there is something to divide by, an answer is the quotient. -/
theorem quotient_of_pos {p r : Prop} (hc : 0 < c) (h : (c = 0 ∧ p) ∨ (0 < c ∧ r)) : r :=
  (h.resolve_left fun hnone => Nat.ne_of_gt hc hnone.1).2

/-! ## Prices as ratios -/

/-- Of three prices `a / b`, `c / d` and `e / f`, each no more than the next, the first is no more
than the last. The middle one has to be a price. -/
theorem mul_le_mul_trans {a b c d e f : Nat} (hd : 0 < d) (h₁ : a * d ≤ c * b)
    (h₂ : c * f ≤ e * d) : a * f ≤ e * b := by
  refine Nat.le_of_mul_le_mul_right ?_ hd
  calc a * f * d = a * d * f := Nat.mul_right_comm a f d
    _ ≤ c * b * f := Nat.mul_le_mul_right f h₁
    _ = c * f * b := Nat.mul_right_comm c b f
    _ ≤ e * d * b := Nat.mul_le_mul_right b h₂
    _ = e * b * d := Nat.mul_right_comm e d b

/-- At a price that is no lower, the same quantity is worth no less. -/
theorem RoundsDown.mono {q' b' c' : Nat} (hc : 0 < c) (h : RoundsDown q a b c)
    (h' : RoundsDown q' a b' c') (hprice : b * c' ≤ b' * c) : q ≤ q' := by
  have hworth : q * c ≤ b * a := Nat.mul_comm a b ▸ h.le
  rw [h'.le_iff, Nat.mul_comm a b']
  exact mul_le_mul_trans hc hworth hprice

/-- What is added at a price of at least `c / d` does not lower the price. -/
theorem mul_le_mul_of_added {c d x n : Nat} (h : n * c ≤ x * d) :
    c * (d + n) ≤ (c + x) * d :=
  calc c * (d + n) = c * d + n * c := by rw [Nat.mul_add, Nat.mul_comm n c]
    _ ≤ c * d + x * d := Nat.add_le_add_left h _
    _ = (c + x) * d := (Nat.add_mul c x d).symm

/-- What is removed at a price of at most `c / d` does not lower the price. -/
theorem mul_le_mul_of_removed {c d c' d' x n : Nat} (hc : c' + x = c) (hd : d' + n = d)
    (h : x * d ≤ n * c) : c * d' ≤ c' * d := by
  subst hc hd
  have hleft : (c' + x) * d' + x * n = c' * d' + x * (d' + n) := by
    rw [Nat.add_mul, Nat.mul_add, Nat.add_assoc]
  have hright : c' * (d' + n) + x * n = c' * d' + n * (c' + x) := by
    rw [Nat.mul_add, Nat.mul_add, Nat.mul_comm n c', Nat.mul_comm n x, Nat.add_assoc]
  omega

end Quotients

/-! ## The books -/

open Quantity

variable {w : Nat}

namespace Quantity

variable {a b c x q : Quantity w}

theorem roundsDown_of_mulDivFloor? (h : mulDivFloor? a b c = some q) :
    RoundsDown q.toNat a.toNat b.toNat c.toNat := by
  obtain ⟨hle, hlt⟩ := mulDivFloor?_eq_some_iff.mp h
  exact ⟨hle, hlt⟩

theorem roundsUp_of_mulDivCeil? (h : mulDivCeil? a b c = some q) :
    RoundsUp q.toNat a.toNat b.toNat c.toNat := by
  obtain ⟨hge, hlt⟩ := mulDivCeil?_eq_some_iff.mp h
  exact ⟨hge, hlt⟩

/-- An answer is the one for where there is nothing to divide by, or it is a quotient. -/
theorem fallback_cases {α : Type} {o : Option α} {x y : α}
    (h : (if c = 0 then some x else o) = some y) :
    (c.toNat = 0 ∧ y = x) ∨ (0 < c.toNat ∧ o = some y) := by
  by_cases hc : c = 0
  · rw [if_pos hc] at h
    exact .inl ⟨eq_zero_iff.mp hc, (Option.some.inj h).symm⟩
  · rw [if_neg hc] at h
    exact .inr ⟨Nat.pos_of_ne_zero fun h0 => hc (eq_zero_iff.mpr h0), h⟩

theorem floor_cases (h : (if c = 0 then some x else mulDivFloor? a b c) = some q) :
    (c.toNat = 0 ∧ q = x) ∨ (0 < c.toNat ∧ RoundsDown q.toNat a.toNat b.toNat c.toNat) :=
  (fallback_cases h).imp_right (And.imp_right roundsDown_of_mulDivFloor?)

theorem ceil_cases (h : (if c = 0 then some x else mulDivCeil? a b c) = some q) :
    (c.toNat = 0 ∧ q = x) ∨ (0 < c.toNat ∧ RoundsUp q.toNat a.toNat b.toNat c.toNat) :=
  (fallback_cases h).imp_right (And.imp_right roundsUp_of_mulDivCeil?)

end Quantity

theorem BondBook.convert?_cases {book : BondBook w} {cash held : Quantity w} {c : Conversion w}
    (h : book.convert? cash held = some c) :
    (∃ k, ((book.debt.toNat = 0 ∧ k = 0) ∨
        (0 < book.debt.toNat ∧ RoundsDown k cash.toNat book.bonds.toNat book.debt.toNat)) ∧
      c.burned.toNat = min k held.toNat) ∧
    ((book.bonds.toNat = 0 ∧ c.repaid = 0) ∨ (0 < book.bonds.toNat ∧
      RoundsUp c.repaid.toNat c.burned.toNat book.debt.toNat book.bonds.toNat)) := by
  obtain ⟨hburned, hrepaid, -⟩ := numbers_of_convert? h
  refine ⟨⟨book.covered cash.toNat, ?_, hburned⟩, ?_⟩
  · rcases Nat.eq_zero_or_pos book.debt.toNat with hz | hpos
    · exact .inl ⟨hz, by rw [covered, hz, Nat.div_zero]⟩
    · exact .inr ⟨hpos, Nat.div_mul_le_self _ _, Nat.lt_mul_of_div_lt (Nat.lt_succ_self _) hpos⟩
  · rcases Nat.eq_zero_or_pos book.bonds.toNat with hz | hpos
    · exact .inl ⟨hz, eq_zero_iff.mpr (by rw [hrepaid, cost, hz, Nat.div_zero])⟩
    · rw [hrepaid]
      exact .inr ⟨hpos, le_cost_mul hpos _, cost_mul_lt hpos _⟩

/-- A fee is the amount times the rate, rounded up. -/
theorem FeeSchedule.roundsUp_of_fee {amount fee : Amount} {rate : Rate}
    (h : FeeSchedule.fee amount rate = .ok fee) :
    RoundsUp fee.toNat amount.toNat rate.toNat Rate.one.toNat :=
  roundsUp_of_mulDivCeil? (demand_eq_ok_iff.mp h)

theorem FeeSchedule.fee_of_zero {rate : Rate} {fee : Amount}
    (h : FeeSchedule.fee 0 rate = .ok fee) : fee = 0 :=
  eq_zero_iff.mpr (roundsUp_of_fee h).eq_zero

/-! ## The pool -/

namespace Pool

variable {pool : Pool} {amount shares bonds cash held n v : Amount}

/-- What is lent out, as a number. -/
def lent (pool : Pool) : Nat := pool.liquidity.toNat - pool.borrowable.toNat

theorem Solvent.lent_add (h : pool.Solvent) :
    pool.lent + pool.borrowable.toNat = pool.liquidity.toNat :=
  Nat.sub_add_cancel h

theorem sharesFor_cases (h : pool.sharesFor amount = .ok n) :
    (pool.liquidity.toNat = 0 ∧ n = amount) ∨ (0 < pool.liquidity.toNat ∧
      RoundsDown n.toNat amount.toNat pool.shares.toNat pool.liquidity.toNat) :=
  floor_cases (demand_eq_ok_iff.mp h)

theorem liquidityFor_cases (h : pool.liquidityFor shares = .ok v) :
    (pool.shares.toNat = 0 ∧ v = 0) ∨ (0 < pool.shares.toNat ∧
      RoundsDown v.toNat shares.toNat pool.liquidity.toNat pool.shares.toNat) :=
  floor_cases (demand_eq_ok_iff.mp h)

theorem bondBook_eq_ok_iff {book : BondBook 128} :
    pool.bondBook = .ok book ↔
      book.debt.toNat + pool.borrowable.toNat = pool.liquidity.toNat ∧
        book.bonds = pool.bonds := by
  simp only [bondBook, bind_eq_ok_iff, debt_eq_ok_iff, pure_eq_ok_iff]
  constructor
  · intro h
    obtain ⟨d, hd, rfl⟩ := h
    exact ⟨hd, rfl⟩
  · intro h
    obtain ⟨hdebt, hbonds⟩ := h
    exact ⟨book.debt, hdebt, by rw [← hbonds]⟩

/-- Whatever is asked of the bonds is asked of a book on what is lent out. -/
theorem exists_of_bondBook {α : Type} {f : BondBook 128 → Except Fault α} {a : α}
    (h : (do f (← pool.bondBook)) = .ok a) :
    ∃ book : BondBook 128, book.debt.toNat = pool.lent ∧ book.bonds = pool.bonds ∧
      f book = .ok a := by
  obtain ⟨book, hbook, ha⟩ := bind_eq_ok_iff.mp h
  obtain ⟨hdebt, hbonds⟩ := bondBook_eq_ok_iff.mp hbook
  exact ⟨book, by rw [lent]; omega, hbonds, ha⟩

theorem bondsFor_cases (h : pool.bondsFor amount = .ok n) :
    (pool.lent = 0 ∧ n = amount) ∨
      (0 < pool.lent ∧ RoundsUp n.toNat amount.toNat pool.bonds.toNat pool.lent) := by
  obtain ⟨book, hdebt, hbonds, hn⟩ := exists_of_bondBook h
  rw [← hdebt, ← hbonds]
  exact ceil_cases (demand_eq_ok_iff.mp hn)

theorem debtFor_cases (h : pool.debtFor bonds = .ok v) :
    (pool.bonds.toNat = 0 ∧ v.toNat = pool.lent) ∨
      (0 < pool.bonds.toNat ∧ RoundsUp v.toNat bonds.toNat pool.lent pool.bonds.toNat) := by
  obtain ⟨book, hdebt, hbonds, hv⟩ := exists_of_bondBook h
  rw [← hdebt, ← hbonds]
  rcases ceil_cases (demand_eq_ok_iff.mp hv) with ⟨hz, rfl⟩ | hpos
  · exact .inl ⟨hz, rfl⟩
  · exact .inr hpos

/-- A conversion burns what the cash covers, or all that is held, and is paid for in full. -/
theorem convert_cases {c : Conversion 128} (h : pool.convert cash held = .ok c) :
    (∃ k, ((pool.lent = 0 ∧ k = 0) ∨
        (0 < pool.lent ∧ RoundsDown k cash.toNat pool.bonds.toNat pool.lent)) ∧
      c.burned.toNat = min k held.toNat) ∧
    ((pool.bonds.toNat = 0 ∧ c.repaid = 0) ∨ (0 < pool.bonds.toNat ∧
      RoundsUp c.repaid.toNat c.burned.toNat pool.lent pool.bonds.toNat)) := by
  obtain ⟨book, hdebt, hbonds, hc⟩ := exists_of_bondBook h
  rw [← hdebt, ← hbonds]
  exact BondBook.convert?_cases (demand_eq_ok_iff.mp hc)

/-! For nothing the answers are nothing, except that the bonds of a debt that has none are worth all
of it. -/

theorem sharesFor_of_zero (h : pool.sharesFor 0 = .ok n) : n = 0 := by
  rcases sharesFor_cases h with ⟨-, rfl⟩ | ⟨hpos, hrounds⟩
  · rfl
  · exact eq_zero_iff.mpr (hrounds.eq_zero hpos)

theorem liquidityFor_of_zero (h : pool.liquidityFor 0 = .ok v) : v = 0 := by
  rcases liquidityFor_cases h with ⟨-, rfl⟩ | ⟨hpos, hrounds⟩
  · rfl
  · exact eq_zero_iff.mpr (hrounds.eq_zero hpos)

theorem bondsFor_of_zero (h : pool.bondsFor 0 = .ok n) : n = 0 := by
  rcases bondsFor_cases h with ⟨-, rfl⟩ | ⟨-, hrounds⟩
  · rfl
  · exact eq_zero_iff.mpr hrounds.eq_zero

theorem debtFor_of_zero (howner : pool.bonds.toNat = 0 → pool.lent = 0)
    (h : pool.debtFor 0 = .ok v) : v = 0 := by
  rcases debtFor_cases h with ⟨hnone, hwhole⟩ | ⟨-, hrounds⟩
  · exact eq_zero_iff.mpr (hwhole.trans (howner hnone))
  · exact eq_zero_iff.mpr hrounds.eq_zero

theorem convert_of_zero {c : Conversion 128} (h : pool.convert 0 held = .ok c) :
    c.burned = 0 ∧ c.repaid = 0 := by
  obtain ⟨⟨k, hcovered, hburned⟩, hcost⟩ := convert_cases h
  have hk : k = 0 := by
    rcases hcovered with ⟨-, hz⟩ | ⟨hpos, hrounds⟩
    · exact hz
    · exact hrounds.eq_zero hpos
  have hnone : c.burned.toNat = 0 := by rw [hburned, hk, Nat.zero_min]
  refine ⟨eq_zero_iff.mpr hnone, ?_⟩
  rcases hcost with ⟨-, hfree⟩ | ⟨-, hrounds⟩
  · exact hfree
  · rw [hnone] at hrounds
    exact eq_zero_iff.mpr hrounds.eq_zero

end Pool

end Lending
