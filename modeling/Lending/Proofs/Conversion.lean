import Mathlib.Order.Bounds.Defs
import Mathlib.Order.GaloisConnection.Defs
import Lending.BondBook
import Lending.Fault

/-!
# What cash burns, and that it could not burn more

A sum of cash is turned into a number of bonds by a quotient that rounds down, and the bonds are
paid for by one that rounds up. The two are adjoint (`BondBook.gc_cost_covered`): so many bonds cost
no more than the cash exactly if there are no more of them than the cash covers. That makes the
conversion the best there is. It burns all that the debtor holds, or else the most that the cash can
pay for, and what it spends is within the cash whichever of the two it is.

The four numbers of a conversion are exact quotients, and the last one alone is cut off at the width
(`BondBook.numbers_of_convert?`). Later files use these numbers and open no conversion again. It
fails only where the bonds that the cash covers are too many to be counted
(`BondBook.convert?_eq_none_iff`). No other step of it can: what is spent is no more than the cash,
and the cash is in range.
-/

set_option autoImplicit false

namespace Lending

open Quantity

variable {w : Nat}

namespace BondBook

variable {book : BondBook w} {cash held burned : Quantity w} {c : Conversion w} {k n : Nat}

/-! ## The two quotients, as numbers without a bound -/

/-- The bonds that `n` units of cash pay for in full, rounded down; none where nothing is owed. -/
def covered (book : BondBook w) (n : Nat) : Nat := n * book.bonds.toNat / book.debt.toNat

/-- What `k` bonds cost, rounded up; nothing where no bonds are outstanding. -/
def cost (book : BondBook w) (k : Nat) : Nat :=
  (k * book.debt.toNat + (book.bonds.toNat - 1)) / book.bonds.toNat

theorem cost_mono (book : BondBook w) : Monotone book.cost := by
  intro k k' hk
  exact Nat.div_le_div_right (Nat.add_le_add_right (Nat.mul_le_mul_right _ hk) _)

theorem covered_mono (book : BondBook w) : Monotone book.covered := by
  intro n n' hn
  exact Nat.div_le_div_right (Nat.mul_le_mul_right _ hn)

/-- Bonds cost no more than the cash exactly if there are no more of them than it covers. -/
theorem gc_cost_covered (hbonds : 0 < book.bonds.toNat) (hdebt : 0 < book.debt.toNat) :
    GaloisConnection book.cost book.covered := by
  intro k n
  rw [cost, covered, Nat.le_div_iff_mul_le hdebt, ← Nat.lt_succ_iff, Nat.div_lt_iff_lt_mul hbonds,
    Nat.succ_mul]
  omega

/-- Rounded down, bonds are worth what they cost or one unit less. -/
theorem cost_bracket (book : BondBook w) (k : Nat) :
    k * book.debt.toNat / book.bonds.toNat ≤ book.cost k ∧
      book.cost k ≤ k * book.debt.toNat / book.bonds.toNat + 1 := by
  refine ⟨Nat.div_le_div_right (Nat.le_add_right _ _), ?_⟩
  rcases Nat.eq_zero_or_pos book.bonds.toNat with hz | hbonds
  · rw [cost, hz, Nat.div_zero]
    exact Nat.zero_le _
  · rw [cost, ← Nat.add_div_right _ hbonds]
    exact Nat.div_le_div_right (by omega)

theorem cost_mul_lt (hbonds : 0 < book.bonds.toNat) (k : Nat) :
    book.cost k * book.bonds.toNat < k * book.debt.toNat + book.bonds.toNat := by
  have hle := Nat.div_mul_le_self (k * book.debt.toNat + (book.bonds.toNat - 1)) book.bonds.toNat
  rw [cost]
  omega

theorem le_cost_mul (hbonds : 0 < book.bonds.toNat) (k : Nat) :
    k * book.debt.toNat ≤ book.cost k * book.bonds.toNat := by
  have hlt := Nat.lt_div_mul_add hbonds (a := k * book.debt.toNat + (book.bonds.toNat - 1))
  rw [cost]
  omega

/-! ## The closed form of a conversion -/

theorem covered?_eq (book : BondBook w) (cash : Quantity w) :
    book.covered? cash = ofNat? w (book.covered cash.toNat) := by
  rw [covered?, covered]
  by_cases hdebt : book.debt = 0
  · rw [if_pos hdebt, hdebt, toNat_zero, Nat.div_zero]
    exact (ofNat?_eq_some_iff.mpr rfl).symm
  · rw [if_neg hdebt, mulDivFloor?_eq, if_neg fun hz => hdebt (eq_zero_iff.mpr hz)]

/-- The worth of one bond more, unless it is out of range or that bond is. -/
theorem toNat_nextCash (hbonds : 0 < book.bonds.toNat) :
    (book.nextCash burned).toNat =
      if burned.toNat + 1 < capacity w then min (book.cost (burned.toNat + 1)) (capacity w - 1)
      else capacity w - 1 := by
  rw [nextCash]
  by_cases hnext : burned.toNat + 1 < capacity w
  · have hsucc : burned.succ? = some ⟨burned.toNat + 1, hnext⟩ := succ?_eq_some_iff.mpr rfl
    rw [if_pos hnext, hsucc, Option.bind_some, mulDivCeil?_eq, if_neg (Nat.ne_of_gt hbonds)]
    show ((ofNat? w (book.cost (burned.toNat + 1))).getD (top w)).toNat = _
    cases hq : ofNat? w (book.cost (burned.toNat + 1)) with
    | none =>
      rw [Option.getD_none, toNat_top]
      have := ofNat?_eq_none_iff.mp hq
      omega
    | some q =>
      rw [Option.getD_some, ofNat?_eq_some_iff.mp hq]
      have := ofNat?_eq_some_iff.mp hq
      have := q.toNat_lt
      omega
  · rw [if_neg hnext, succ?_eq_none_iff.mpr (by omega), Option.bind_none, Option.getD_none,
      toNat_top]

/-- What is in range and costs no more than one bond more is within the bound. -/
theorem le_nextCash (hbonds : 0 < book.bonds.toNat) {q : Quantity w}
    (h : q.toNat ≤ book.cost (burned.toNat + 1)) : q ≤ book.nextCash burned := by
  have hlt := q.toNat_lt
  rw [le_def, toNat_nextCash hbonds]
  split <;> omega

/-- What is less than one bond more costs is below the bound, or the bound is as large as can be. -/
theorem lt_nextCash (hbonds : 0 < book.bonds.toNat) {q : Quantity w}
    (h : q.toNat < book.cost (burned.toNat + 1)) :
    q < book.nextCash burned ∨ book.nextCash burned = top w := by
  rw [lt_def, Quantity.ext_iff, toNat_nextCash hbonds, toNat_top]
  split <;> omega

/-- All four numbers of a conversion. -/
theorem numbers_of_convert? (h : book.convert? cash held = some c) :
    c.burned.toNat = min (book.covered cash.toNat) held.toNat ∧
      c.repaid.toNat = book.cost c.burned.toNat ∧
      c.leastCash.toNat = c.burned.toNat * book.debt.toNat / book.bonds.toNat ∧
      (book.bonds.toNat = 0 → c.nextCash = 0) ∧
      (0 < book.bonds.toNat → c.nextCash = book.nextCash c.burned) := by
  unfold convert? at h
  obtain ⟨k, hk, h⟩ := Option.bind_eq_some_iff.mp h
  rw [covered?_eq, ofNat?_eq_some_iff] at hk
  rw [← hk, ← toNat_min]
  by_cases hbonds : book.bonds = 0
  · rw [if_pos hbonds] at h
    obtain rfl := Option.some.inj h
    rw [cost, hbonds, toNat_zero, Nat.div_zero, Nat.div_zero]
    exact ⟨rfl, rfl, rfl, fun _ => rfl, fun hpos => absurd hpos (Nat.lt_irrefl 0)⟩
  · rw [if_neg hbonds] at h
    obtain ⟨r, hr, h⟩ := Option.bind_eq_some_iff.mp h
    obtain ⟨least, hleast, h⟩ := Option.bind_eq_some_iff.mp h
    have hpos : book.bonds.toNat ≠ 0 := fun hz => hbonds (eq_zero_iff.mpr hz)
    rw [mulDivCeil?_eq, if_neg hpos, ofNat?_eq_some_iff] at hr
    rw [mulDivFloor?_eq, if_neg hpos, ofNat?_eq_some_iff] at hleast
    obtain rfl := Option.some.inj h
    exact ⟨rfl, hr, hleast, fun hz => absurd hz hpos, fun _ => rfl⟩

/-- A conversion burns no more than the debtor holds. -/
theorem burned_le_of_convert? (h : book.convert? cash held = some c) : c.burned ≤ held := by
  rw [le_def, (numbers_of_convert? h).1]
  exact Nat.min_le_right _ _

/-- Bonds that the cash covers cost no more than the cash. -/
theorem cost_le_of_le_covered (h : k ≤ book.covered n) : book.cost k ≤ n := by
  rcases Nat.eq_zero_or_pos book.bonds.toNat with hz | hbonds
  · rw [cost, hz, Nat.div_zero]
    exact Nat.zero_le n
  · rcases Nat.eq_zero_or_pos book.debt.toNat with hz | hdebt
    · rw [cost, hz, Nat.mul_zero, Nat.zero_add, Nat.div_eq_of_lt (Nat.sub_lt hbonds Nat.one_pos)]
      exact Nat.zero_le n
    · exact (gc_cost_covered hbonds hdebt).l_le h

/-- Where the covered bonds can be counted nothing else goes wrong: what they cost is within the
cash, and the cash is in range. -/
theorem exists_convert?_of_covered (held : Quantity w)
    (hroom : book.covered cash.toNat < capacity w) :
    ∃ c, book.convert? cash held = some c := by
  have hcovered : book.covered? cash = some ⟨book.covered cash.toNat, hroom⟩ := by
    rw [covered?_eq, ofNat?_eq_some_iff]
  rw [convert?, hcovered]
  by_cases hbonds : book.bonds = 0
  · exact ⟨_, if_pos hbonds⟩
  · generalize hburned : min ⟨book.covered cash.toNat, hroom⟩ held = burned
    have hcost : book.cost burned.toNat ≤ cash.toNat := by
      refine cost_le_of_le_covered ?_
      rw [← hburned, toNat_min]
      exact Nat.min_le_left _ _
    have hpos : book.bonds.toNat ≠ 0 := fun hz => hbonds (eq_zero_iff.mpr hz)
    have hleast := (book.cost_bracket burned.toNat).1
    have hlt := cash.toNat_lt
    have hr : mulDivCeil? burned book.debt book.bonds =
        some ⟨book.cost burned.toNat, by omega⟩ := by
      rw [mulDivCeil?_eq, if_neg hpos, ofNat?_eq_some_iff]
      rfl
    have hl : mulDivFloor? burned book.debt book.bonds =
        some ⟨burned.toNat * book.debt.toNat / book.bonds.toNat, by omega⟩ := by
      rw [mulDivFloor?_eq, if_neg hpos, ofNat?_eq_some_iff]
    simp only [Option.bind_eq_bind, Option.bind_some, if_neg hbonds, hburned, hr, hl,
      Option.pure_def]
    exact ⟨_, rfl⟩

/-- A conversion fails exactly if the bonds that the cash covers are too many to be counted. -/
theorem convert?_eq_none_iff :
    book.convert? cash held = none ↔ capacity w ≤ book.covered cash.toNat := by
  constructor
  · intro hnone
    refine Nat.le_of_not_lt fun hroom => ?_
    obtain ⟨c, hc⟩ := exists_convert?_of_covered held hroom
    rw [hnone] at hc
    cases hc
  · intro hroom
    rw [convert?, covered?_eq, ofNat?_eq_none_iff.mpr hroom]
    rfl

/-- Too many bonds to be counted are covered only where something is owed. -/
theorem capacity_le_covered_iff :
    capacity w ≤ book.covered n ↔
      0 < book.debt.toNat ∧ (top w).toNat < n * book.bonds.toNat / book.debt.toNat := by
  have hpos := capacity_pos w
  rw [covered, toNat_top]
  constructor
  · intro hmany
    refine ⟨Nat.pos_of_ne_zero fun hz => ?_, by omega⟩
    rw [hz, Nat.div_zero] at hmany
    omega
  · intro h
    have := h.2
    omega

/-! ## The best conversion -/

/-- No conversion of the cash burns more, and its bounds enclose what it spends. -/
structure IsBest (book : BondBook w) (cash held : Quantity w) (c : Conversion w) : Prop where
  /-- The most bonds, of those that the debtor holds, that the cash can pay for. -/
  isGreatest (hbonds : 0 < book.bonds.toNat) (hdebt : 0 < book.debt.toNat) :
    IsGreatest {k | k ≤ held.toNat ∧ book.cost k ≤ cash.toNat} c.burned.toNat
  /-- Nothing is burned where there are no bonds or nothing is owed. -/
  burned_eq_zero (h : book.bonds.toNat = 0 ∨ book.debt.toNat = 0) : c.burned = 0
  repaid_eq_cost : c.repaid.toNat = book.cost c.burned.toNat
  repaid_le_cash : c.repaid ≤ cash
  leastCash_le_repaid : c.leastCash ≤ c.repaid
  repaid_le_leastCash_succ : c.repaid.toNat ≤ c.leastCash.toNat + 1
  repaid_le_nextCash : c.repaid ≤ c.nextCash
  /-- A debtor who is left with bonds would need more cash for one more of them. -/
  cash_lt_nextCash (hbonds : 0 < book.bonds.toNat) (hdebt : 0 < book.debt.toNat)
    (hleft : c.burned < held) : cash < c.nextCash ∨ c.nextCash = top w

theorem isBest_of_convert? (h : book.convert? cash held = some c) : book.IsBest cash held c := by
  obtain ⟨hburned, hrepaid, hleast, -, hbound⟩ := numbers_of_convert? h
  have hcovered : c.burned.toNat ≤ book.covered cash.toNat := by omega
  have hcash : c.repaid ≤ cash := by
    rw [le_def, hrepaid]
    exact cost_le_of_le_covered hcovered
  obtain ⟨hle, hsucc⟩ := book.cost_bracket c.burned.toNat
  rw [← hrepaid, ← hleast] at hle hsucc
  refine ⟨?_, ?_, hrepaid, hcash, hle, hsucc, ?_, ?_⟩
  · intro hbonds hdebt
    refine ⟨⟨by omega, hrepaid ▸ hcash⟩, ?_⟩
    intro k hk
    have := (gc_cost_covered hbonds hdebt).le_u hk.2
    have := hk.1
    omega
  · intro hnone
    have hz : book.covered cash.toNat = 0 := by
      rcases hnone with hz | hz
      · rw [covered, hz, Nat.mul_zero, Nat.zero_div]
      · rw [covered, hz, Nat.div_zero]
    exact eq_zero_iff.mpr (by omega)
  · rcases Nat.eq_zero_or_pos book.bonds.toNat with hz | hbonds
    · rw [le_def, hrepaid, cost, hz, Nat.div_zero]
      exact Nat.zero_le _
    · rw [hbound hbonds]
      exact le_nextCash hbonds (hrepaid ▸ book.cost_mono (Nat.le_succ _))
  · intro hbonds hdebt hleft
    rw [hbound hbonds]
    refine lt_nextCash hbonds (Nat.lt_of_not_le fun hcost => ?_)
    -- Another bond that the cash pays for would be covered, and the debtor has one.
    have := (gc_cost_covered hbonds hdebt).le_u hcost
    rw [lt_def] at hleft
    omega

/-- Less cash is converted wherever more is, burns no more bonds and is no more of it spent. -/
theorem convert?_mono {less : Quantity w} (hle : less ≤ cash)
    (h : book.convert? cash held = some c) :
    ∃ c', book.convert? less held = some c' ∧ c'.burned ≤ c.burned ∧ c'.repaid ≤ c.repaid := by
  have hroom : book.covered cash.toNat < capacity w := by
    refine Nat.lt_of_not_le fun hmany => ?_
    rw [convert?_eq_none_iff.mpr hmany] at h
    cases h
  have hcovered : book.covered less.toNat ≤ book.covered cash.toNat := book.covered_mono hle
  obtain ⟨c', hc'⟩ := exists_convert?_of_covered held (Nat.lt_of_le_of_lt hcovered hroom)
  obtain ⟨hburned, hrepaid, -⟩ := numbers_of_convert? h
  obtain ⟨hburned', hrepaid', -⟩ := numbers_of_convert? hc'
  have hfewer : c'.burned.toNat ≤ c.burned.toNat := by omega
  refine ⟨c', hc', hfewer, ?_⟩
  rw [le_def, hrepaid, hrepaid']
  exact book.cost_mono hfewer

/-- Cash is refused exactly if something is owed and the bonds that the cash covers exceed the
largest amount. Otherwise it burns the most that it can, at a cost between the two bounds, and less
cash neither burns nor spends more. -/
theorem cash_burns_the_most (book : BondBook 128) (cash held : Amount) :
    (∀ f, demand (book.convert? cash held) Fault.conversionOutOfBounds = .error f ↔
      f = .conversionOutOfBounds ∧ 0 < book.debt.toNat ∧
        (top 128).toNat < cash.toNat * book.bonds.toNat / book.debt.toNat) ∧
    ∀ c, demand (book.convert? cash held) Fault.conversionOutOfBounds = .ok c →
      book.IsBest cash held c ∧
      ∀ less : Amount, less ≤ cash → ∃ c',
        demand (book.convert? less held) Fault.conversionOutOfBounds = .ok c' ∧
        c'.burned ≤ c.burned ∧ c'.repaid ≤ c.repaid := by
  refine ⟨?_, ?_⟩
  · intro f
    rw [demand_eq_error_iff, convert?_eq_none_iff, capacity_le_covered_iff, eq_comm, and_comm]
  · intro c h
    rw [demand_eq_ok_iff] at h
    refine ⟨isBest_of_convert? h, ?_⟩
    intro less hle
    obtain ⟨c', hc', hfewer⟩ := convert?_mono hle h
    exact ⟨c', demand_eq_ok_iff.mpr hc', hfewer⟩

/-- Of nine bonds, at a price of seven for three, eighteen burn seven and eleven no more. -/
theorem eighteen_burn_the_most :
    ∃ c, demand ((⟨⟨70, by decide⟩, ⟨30, by decide⟩⟩ : BondBook 128).convert? ⟨18, by decide⟩
        ⟨9, by decide⟩) Fault.conversionOutOfBounds = .ok c ∧ c.burned.toNat = 7 ∧
      IsGreatest {k | k ≤ 9 ∧ (⟨⟨70, by decide⟩, ⟨30, by decide⟩⟩ : BondBook 128).cost k ≤ 18}
        c.burned.toNat ∧
      (⟨18, by decide⟩ < c.nextCash ∨ c.nextCash = top 128) ∧
      ∃ c', demand ((⟨⟨70, by decide⟩, ⟨30, by decide⟩⟩ : BondBook 128).convert? ⟨11, by decide⟩
          ⟨9, by decide⟩) Fault.conversionOutOfBounds = .ok c' ∧
        c'.burned ≤ c.burned ∧ c'.repaid ≤ c.repaid := by
  have hconvert : demand ((⟨⟨70, by decide⟩, ⟨30, by decide⟩⟩ : BondBook 128).convert?
      ⟨18, by decide⟩ ⟨9, by decide⟩) Fault.conversionOutOfBounds =
      .ok ⟨⟨7, by decide⟩, ⟨17, by decide⟩, ⟨16, by decide⟩, ⟨19, by decide⟩⟩ := rfl
  obtain ⟨hbest, hless⟩ := (cash_burns_the_most _ _ _).2 _ hconvert
  exact ⟨_, hconvert, rfl, hbest.isGreatest (by decide) (by decide),
    hbest.cash_lt_nextCash (by decide) (by decide) (by decide), hless _ (by decide)⟩

end BondBook

end Lending
