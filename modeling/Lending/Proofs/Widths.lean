import Lending.Proofs.Conversion
import Lending.Proofs.Quotes

/-!
# Narrow pools answer as wide ones do

The books of a pool are the same at every width, so a pool of narrow quantities can stand for a wide
one while its answers are enumerated. What it answers is then known of the wide pool too, because
the two agree: where the narrow book gives a number the wide book gives the same, and where it gives
none the number of the wide one does not fit. Each side is the same exact number, kept if it fits
the width, and to keep it at the larger width first changes nothing
(`Quantity.ofNat?_eq_bind_fit?`).

The conversion of cash is the one answer in which a width shows. Its upper bound is cut off at the
largest quantity, so the narrow bound is the wide one only where that fits, and the largest quantity
elsewhere (`Conversion.Agrees`).
-/

set_option autoImplicit false

namespace Lending

variable {v w : Nat}

/-! ## Quantities -/

namespace Quantity

/-- The same number at another width, if it fits. -/
def fit? (v : Nat) (q : Quantity w) : Option (Quantity v) := ofNat? v q.toNat

/-- A number that fits the smaller width fits the larger one. -/
theorem ofNat?_eq_bind_fit? (h : v ≤ w) (n : Nat) : ofNat? v n = (ofNat? w n).bind (fit? v) := by
  cases hw : ofNat? w n with
  | some q => rw [Option.bind_some, fit?, ofNat?_eq_some_iff.mp hw]
  | none =>
    have hcapacity := capacity_le_capacity h
    have hlarge := ofNat?_eq_none_iff.mp hw
    rw [Option.bind_none, ofNat?_eq_none_iff]
    omega

theorem fit?_widen (h : v ≤ w) (q : Quantity v) : fit? v (q.widen h) = some q := ofNat?_toNat q

variable (h : v ≤ w) (a b c : Quantity v)

theorem mulDivFloor?_widen :
    mulDivFloor? a b c = (mulDivFloor? (a.widen h) (b.widen h) (c.widen h)).bind (fit? v) := by
  rw [mulDivFloor?_eq, mulDivFloor?_eq, toNat_widen, toNat_widen, toNat_widen]
  by_cases hc : c.toNat = 0
  · rw [if_pos hc, if_pos hc]
    rfl
  · rw [if_neg hc, if_neg hc]
    exact ofNat?_eq_bind_fit? h _

theorem mulDivCeil?_widen :
    mulDivCeil? a b c = (mulDivCeil? (a.widen h) (b.widen h) (c.widen h)).bind (fit? v) := by
  rw [mulDivCeil?_eq, mulDivCeil?_eq, toNat_widen, toNat_widen, toNat_widen]
  by_cases hc : c.toNat = 0
  · rw [if_pos hc, if_pos hc]
    rfl
  · rw [if_neg hc, if_neg hc]
    exact ofNat?_eq_bind_fit? h _

/-- What takes the place of a quotient is the same number at both widths. -/
theorem fallback_widen {c x : Quantity v} {o : Option (Quantity v)} {o' : Option (Quantity w)}
    (ho : o = o'.bind (fit? v)) :
    (if c = 0 then some x else o) =
      (if c.widen h = 0 then some (x.widen h) else o').bind (fit? v) := by
  by_cases hc : c = 0
  · rw [if_pos hc, if_pos ((widen_eq_zero_iff h).mpr hc), Option.bind_some, fit?_widen]
  · rw [if_neg hc, if_neg fun hz => hc ((widen_eq_zero_iff h).mp hz), ho]

end Quantity

open Quantity

/-! ## Books -/

namespace ShareBook

/-- The same book at a larger width. -/
def widen (h : v ≤ w) (book : ShareBook v) : ShareBook w :=
  ⟨book.liquidity.widen h, book.shares.widen h⟩

variable (h : v ≤ w) (book : ShareBook v) (n : Quantity v)

theorem sharesFor?_widen :
    book.sharesFor? n = ((book.widen h).sharesFor? (n.widen h)).bind (fit? v) :=
  fallback_widen h (mulDivFloor?_widen h n book.shares book.liquidity)

theorem liquidityFor?_widen :
    book.liquidityFor? n = ((book.widen h).liquidityFor? (n.widen h)).bind (fit? v) :=
  fallback_widen h (mulDivFloor?_widen h n book.liquidity book.shares)

end ShareBook

namespace BondBook

/-- The same book at a larger width. -/
def widen (h : v ≤ w) (book : BondBook v) : BondBook w := ⟨book.debt.widen h, book.bonds.widen h⟩

variable (h : v ≤ w) (book : BondBook v) (n : Quantity v)

theorem bondsFor?_widen :
    book.bondsFor? n = ((book.widen h).bondsFor? (n.widen h)).bind (fit? v) :=
  fallback_widen h (mulDivCeil?_widen h n book.bonds book.debt)

theorem debtFor?_widen :
    book.debtFor? n = ((book.widen h).debtFor? (n.widen h)).bind (fit? v) :=
  fallback_widen h (mulDivCeil?_widen h n book.debt book.bonds)

end BondBook

/-! ## Conversions -/

/-- The narrow conversion `c` is the wide one `c'`, with its upper bound cut off at its width. -/
structure Conversion.Agrees (c : Conversion v) (c' : Conversion w) : Prop where
  burned : c.burned.toNat = c'.burned.toNat
  repaid : c.repaid.toNat = c'.repaid.toNat
  leastCash : c.leastCash.toNat = c'.leastCash.toNat
  /-- The bound is cut off as well where there is no room to count one bond more. -/
  nextCash : c.nextCash.toNat =
    if c.burned.toNat + 1 ≤ (top v).toNat ∧ c'.nextCash.toNat ≤ (top v).toNat then
      c'.nextCash.toNat
    else (top v).toNat

/-- Where there are bonds, the upper bounds of the two books are cut off the same number. -/
theorem BondBook.toNat_nextCash_widen (h : v ≤ w) {book : BondBook v}
    (hbonds : 0 < book.bonds.toNat) {n : Quantity v} {n' : Quantity w} (hn : n.toNat = n'.toNat) :
    (book.nextCash n).toNat =
      if n.toNat + 1 ≤ (top v).toNat ∧ ((book.widen h).nextCash n').toNat ≤ (top v).toNat then
        ((book.widen h).nextCash n').toNat
      else (top v).toNat := by
  have hcapacity := capacity_le_capacity h
  have hbonds' : 0 < (book.widen h).bonds.toNat := hbonds
  have hcost : (book.widen h).cost (n'.toNat + 1) = book.cost (n.toNat + 1) := by rw [hn]; rfl
  rw [toNat_nextCash hbonds, toNat_nextCash hbonds', hcost, ← hn, toNat_top]
  have hlt := n.toNat_lt
  split <;> split <;> split <;> omega

theorem BondBook.exists_convert?_widen (h : v ≤ w) {book : BondBook v} {cash held : Quantity v}
    {c : Conversion v} (hc : book.convert? cash held = some c) :
    ∃ c', (book.widen h).convert? (cash.widen h) (held.widen h) = some c' ∧ c.Agrees c' := by
  have hcapacity := capacity_le_capacity h
  have hroom : (book.widen h).covered (cash.widen h).toNat < capacity w := by
    refine Nat.lt_of_lt_of_le (Nat.lt_of_not_le fun hmany => ?_) hcapacity
    rw [convert?_eq_none_iff.mpr hmany] at hc
    cases hc
  obtain ⟨c', hc'⟩ := exists_convert?_of_covered (held.widen h) hroom
  obtain ⟨hburned, hrepaid, hleast, hnone, hbound⟩ := numbers_of_convert? hc
  obtain ⟨hburned', hrepaid', hleast', hnone', hbound'⟩ := numbers_of_convert? hc'
  have hsame : c.burned.toNat = c'.burned.toNat := hburned.trans hburned'.symm
  refine ⟨c', hc', hsame, ?_, ?_, ?_⟩
  · rw [hrepaid, hrepaid', hsame]
    rfl
  · rw [hleast, hleast', hsame]
    rfl
  · rcases Nat.eq_zero_or_pos book.bonds.toNat with hz | hbonds
    · -- Without bonds both bounds are zero.
      rw [hnone hz, hnone' hz, toNat_zero, toNat_zero]
      have hunburned : c.burned.toNat = 0 := by
        rw [hburned, covered, hz, Nat.mul_zero, Nat.zero_div, Nat.zero_min]
      split <;> omega
    · rw [hbound hbonds, hbound' hbonds]
      exact toNat_nextCash_widen h hbonds hsame

/-! ## Pools of thirty-two bits -/

/-- The narrow quantity as an amount. -/
def Quantity.toAmount (q : Quantity 32) : Amount := q.widen (by decide)

/-- The pool of amounts whose liquidity and shares are those of a narrow book. -/
def ShareBook.toPool (book : ShareBook 32) : Pool where
  liquidity := book.liquidity.toAmount
  shares := book.shares.toAmount

/-- The narrow book as one of amounts. -/
def BondBook.toAmounts (book : BondBook 32) : BondBook 128 := book.widen (by decide)

/-- The pool of amounts whose debt and bonds are those of a narrow book: all of its liquidity is
lent out. -/
def BondBook.toPool (book : BondBook 32) : Pool where
  liquidity := book.debt.toAmount
  bonds := book.bonds.toAmount

theorem toOption_demand {ε α : Type} (x : Option α) (e : ε) : (demand x e).toOption = x := by
  cases x <;> rfl

theorem BondBook.bondBook_toPool (book : BondBook 32) :
    book.toPool.bondBook = .ok book.toAmounts :=
  Pool.bondBook_eq_ok_iff.mpr ⟨rfl, rfl⟩

/-- The pools of thirty-two bits form their products in words of sixty-four, which never wrap. What
they answer is what the pools of amounts answer, where that fits; and cash that they convert is
converted alike. -/
theorem narrow_pools_answer_alike :
    (∀ a b c : Quantity 32,
      (product a b).toNat = a.toNat * b.toNat ∧
      (c ≠ 0 → (c.wide - 1).toNat = c.toNat - 1 ∧
        (raised a b c).toNat = a.toNat * b.toNat + (c.toNat - 1)) ∧
      mulDivFloor? a b c =
        (mulDivFloor? a.toAmount b.toAmount c.toAmount).bind (fit? 32) ∧
      mulDivCeil? a b c = (mulDivCeil? a.toAmount b.toAmount c.toAmount).bind (fit? 32)) ∧
    (∀ (book : ShareBook 32) (n : Quantity 32),
      book.sharesFor? n = (book.toPool.sharesFor n.toAmount).toOption.bind (fit? 32) ∧
      book.liquidityFor? n = (book.toPool.liquidityFor n.toAmount).toOption.bind (fit? 32)) ∧
    (∀ (book : BondBook 32) (n : Quantity 32),
      book.bondsFor? n = (book.toPool.bondsFor n.toAmount).toOption.bind (fit? 32) ∧
      book.debtFor? n = (book.toPool.debtFor n.toAmount).toOption.bind (fit? 32)) ∧
    ∀ (book : BondBook 32) (cash held : Quantity 32),
      (book.convert? cash held = none ↔ 0 < book.debt.toNat ∧
        (top 32).toNat < cash.toNat * book.bonds.toNat / book.debt.toNat) ∧
      ∀ c, book.convert? cash held = some c → ∃ c' : Conversion 128,
        demand (book.toAmounts.convert? cash.toAmount held.toAmount)
          Fault.conversionOutOfBounds = .ok c' ∧ c.Agrees c' := by
  refine ⟨?_, ?_, ?_, ?_⟩
  · intro a b c
    exact ⟨toNat_product a b, fun hc => ⟨toNat_wide_sub_one hc, toNat_raised a b hc⟩,
      mulDivFloor?_widen _ a b c, mulDivCeil?_widen _ a b c⟩
  · intro book n
    rw [Pool.sharesFor, Pool.liquidityFor, toOption_demand, toOption_demand]
    exact ⟨book.sharesFor?_widen _ n, book.liquidityFor?_widen _ n⟩
  · intro book n
    rw [Pool.bondsFor, Pool.debtFor, book.bondBook_toPool]
    show book.bondsFor? n = (demand _ _).toOption.bind _ ∧
      book.debtFor? n = (demand _ _).toOption.bind _
    rw [toOption_demand, toOption_demand]
    exact ⟨book.bondsFor?_widen _ n, book.debtFor?_widen _ n⟩
  · intro book cash held
    refine ⟨BondBook.convert?_eq_none_iff.trans BondBook.capacity_le_covered_iff, ?_⟩
    intro c hc
    obtain ⟨c', hc', hagrees⟩ := BondBook.exists_convert?_widen (w := 128) (by decide) hc
    exact ⟨c', demand_eq_ok_iff.mpr hc', hagrees⟩

/-- Two bonds are the whole of the largest debt. A third one costs more than a narrow quantity, and
the wide pool has the price. -/
theorem third_bond_is_too_dear :
    (raised (top 32) (top 32) (top 32)).toNat =
      (top 32).toNat * (top 32).toNat + ((top 32).toNat - 1) ∧
    ∃ (c : Conversion 32) (c' : Conversion 128),
      (⟨top 32, ⟨2, by decide⟩⟩ : BondBook 32).convert? (top 32) ⟨5, by decide⟩ = some c ∧
      demand ((⟨top 32, ⟨2, by decide⟩⟩ : BondBook 32).toAmounts.convert? (top 32).toAmount
        (Quantity.toAmount ⟨5, by decide⟩)) Fault.conversionOutOfBounds = .ok c' ∧
      c.Agrees c' ∧ c.nextCash = top 32 ∧ c'.nextCash.toNat = 6442450943 := by
  obtain ⟨hwords, -, -, hconvert⟩ := narrow_pools_answer_alike
  refine ⟨((hwords _ _ _).2.1 (by decide)).2, ?_⟩
  obtain ⟨c, hc, hnext⟩ : ∃ c, (⟨top 32, ⟨2, by decide⟩⟩ : BondBook 32).convert? (top 32)
      ⟨5, by decide⟩ = some c ∧ c.nextCash = top 32 := ⟨_, rfl, by decide⟩
  obtain ⟨c', hc', hagrees⟩ := (hconvert _ _ _).2 c hc
  refine ⟨c, c', hc, hc', hagrees, hnext, ?_⟩
  cases hc'
  rfl

end Lending
