import Lending.Proofs.Sums

/-!
# What an audit decides

An audit adds up three balances of all accounts at once, in amounts, and gives up at the first sum
that leaves the range. It is meant to compare sums of numbers with the totals of the pool, and it
does. A sum never falls from one account to the next, so one that has left the range stays outside,
and the number that it stands for is no total of any pool (`Ledger.totals?_eq_none_iff`). Where all
three stay in range, they are the numbers (`Ledger.totals?_eq_some_iff`). Both are read off one
induction over the accounts, for running sums from any start.
-/

set_option autoImplicit false

namespace Lending

theorem Account.add?_eq_some_iff {a b c : Account} :
    a.add? b = some c ↔ c.collateral.toNat = a.collateral.toNat + b.collateral.toNat ∧
      c.shares.toNat = a.shares.toNat + b.shares.toNat ∧
      c.bonds.toNat = a.bonds.toNat + b.bonds.toNat := by
  simp only [add?, Option.bind_eq_bind, Option.bind_eq_some_iff, Quantity.add?_eq_some_iff,
    Option.pure_def, Option.some.injEq]
  refine ⟨?_, ?_⟩
  · intro h
    obtain ⟨collateral, h₁, shares, h₂, bonds, h₃, rfl⟩ := h
    exact ⟨h₁, h₂, h₃⟩
  · intro h
    exact ⟨c.collateral, h.1, c.shares, h.2.1, c.bonds, h.2.2, rfl⟩

namespace Ledger

variable {l : Ledger}

/-! ## The running sums -/

/-- Running sums from any start: they reach `t` exactly if `t` is the start and the subtotals. Where
`t` exists every sum on the way is in range, as no sum falls. -/
theorem foldlM_add?_eq_some_iff (es : List (Key × Account)) (a t : Account) :
    es.foldlM (fun total e => total.add? e.2) a = some t ↔
      t.collateral.toNat = a.collateral.toNat + subtotal Account.collateral es ∧
      t.shares.toNat = a.shares.toNat + subtotal Account.shares es ∧
      t.bonds.toNat = a.bonds.toNat + subtotal Account.bonds es := by
  induction es generalizing a with
  | nil =>
    cases a
    cases t
    simp [Quantity.ext_iff, eq_comm]
  | cons e es ih =>
    simp only [List.foldlM_cons, Option.bind_eq_bind, Option.bind_eq_some_iff,
      Account.add?_eq_some_iff, ih, subtotal_cons]
    refine ⟨?_, ?_⟩
    · intro h
      obtain ⟨b, ⟨h₁, h₂, h₃⟩, k₁, k₂, k₃⟩ := h
      exact ⟨by omega, by omega, by omega⟩
    · intro h
      obtain ⟨h₁, h₂, h₃⟩ := h
      have hc := t.collateral.toNat_lt
      have hs := t.shares.toNat_lt
      have hb := t.bonds.toNat_lt
      exact ⟨⟨⟨a.collateral.toNat + e.2.collateral.toNat, by omega⟩,
        ⟨a.shares.toNat + e.2.shares.toNat, by omega⟩,
        ⟨a.bonds.toNat + e.2.bonds.toNat, by omega⟩⟩, ⟨rfl, rfl, rfl⟩,
        by simp only; omega, by simp only; omega, by simp only; omega⟩

theorem totals?_eq_some_iff {t : Account} :
    l.totals? = some t ↔ t.collateral.toNat = l.sum Account.collateral ∧
      t.shares.toNat = l.sum Account.shares ∧ t.bonds.toNat = l.sum Account.bonds := by
  rw [totals?, foldlM_add?_eq_some_iff]
  simp only [Account.empty, Quantity.toNat_zero, Nat.zero_add, sum_eq_subtotal]

/-- The running sums come to nothing if one of the three is out of range at the end. -/
theorem totals?_eq_none_iff :
    l.totals? = none ↔ capacity 128 ≤ l.sum Account.collateral ∨
      capacity 128 ≤ l.sum Account.shares ∨ capacity 128 ≤ l.sum Account.bonds := by
  refine ⟨?_, ?_⟩
  · intro hnone
    refine Classical.byContradiction fun hroom => ?_
    have hsome : l.totals? = some ⟨⟨l.sum Account.collateral, by omega⟩,
        ⟨l.sum Account.shares, by omega⟩, ⟨l.sum Account.bonds, by omega⟩⟩ :=
      totals?_eq_some_iff.mpr ⟨rfl, rfl, rfl⟩
    rw [hnone] at hsome
    cases hsome
  · intro hlarge
    cases ht : l.totals? with
    | none => rfl
    | some t =>
      obtain ⟨hc, hs, hb⟩ := totals?_eq_some_iff.mp ht
      have hc' := t.collateral.toNat_lt
      have hs' := t.shares.toNat_lt
      have hb' := t.bonds.toNat_lt
      omega

theorem totals?_eq_some_held_iff : l.totals? = some l.pool.held ↔ l.Balanced := by
  rw [totals?_eq_some_iff]
  simp only [Pool.held, Balanced, eq_comm]

/-! ## The audit -/

theorem audit_eq_ok_iff : l.audit = .ok () ↔ l.pool.Solvent ∧ l.Balanced := by
  simp only [audit, bind_eq_ok_iff, require_eq_ok_iff, demand_eq_ok_iff]
  refine ⟨?_, ?_⟩
  · intro h
    obtain ⟨-, hsolvent, t, ht, rfl⟩ := h
    exact ⟨hsolvent, totals?_eq_some_held_iff.mp ht⟩
  · intro h
    exact ⟨(), h.1, l.pool.held, totals?_eq_some_held_iff.mpr h.2, rfl⟩

/-- An audit finds a pool insolvent whatever the accounts hold. -/
theorem audit_eq_insolvent_iff : l.audit = .error .insolvent ↔ ¬l.pool.Solvent := by
  simp [audit, bind_eq_error_iff]

/-- Of a solvent pool it says only that the accounts do not sum to the totals, whichever of its two
checks says so. -/
theorem audit_eq_unbalanced_iff :
    l.audit = .error .unbalanced ↔ l.pool.Solvent ∧ ¬l.Balanced := by
  rw [← totals?_eq_some_held_iff]
  cases ht : l.totals? with
  | none => simp [audit, bind_eq_error_iff, ht]
  | some t => simp [audit, bind_eq_error_iff, ht]

/-- An audit decides soundness exactly, for any accounts. A pool is called insolvent if more is
borrowable than there is liquidity. Any other passes if the collateral, the shares and the bonds of
all accounts, summed as numbers, are its totals, and is called unbalanced if one of them is not. The
running sums are these numbers unless one of the numbers itself exceeds the largest amount. -/
theorem audit_is_exact (l : Ledger) :
    (l.audit = .error .insolvent ↔ l.pool.liquidity < l.pool.borrowable) ∧
    (l.audit = .ok () ↔ l.pool.borrowable ≤ l.pool.liquidity ∧
      l.sum Account.collateral = l.pool.collateral.toNat ∧
      l.sum Account.shares = l.pool.shares.toNat ∧
      l.sum Account.bonds = l.pool.bonds.toNat) ∧
    (l.audit = .error .unbalanced ↔ l.pool.borrowable ≤ l.pool.liquidity ∧
      ¬(l.sum Account.collateral = l.pool.collateral.toNat ∧
        l.sum Account.shares = l.pool.shares.toNat ∧
        l.sum Account.bonds = l.pool.bonds.toNat)) ∧
    (∀ t, l.totals? = some t ↔ t.collateral.toNat = l.sum Account.collateral ∧
      t.shares.toNat = l.sum Account.shares ∧ t.bonds.toNat = l.sum Account.bonds) ∧
    (l.totals? = none ↔ capacity 128 ≤ l.sum Account.collateral ∨
      capacity 128 ≤ l.sum Account.shares ∨ capacity 128 ≤ l.sum Account.bonds) := by
  refine ⟨?_, audit_eq_ok_iff, audit_eq_unbalanced_iff, ?_, totals?_eq_none_iff⟩
  · rw [audit_eq_insolvent_iff, Pool.Solvent, Quantity.le_def, Nat.not_le]
    exact Iff.rfl
  · intro t
    exact totals?_eq_some_iff

/-- Two accounts hold as many shares as there can be. The total is what a sum that wrapped would come
to, and the audit is not taken in. -/
example : (ofParts { shares := ⟨capacity 128 - 2, by decide⟩ }
    [(⟨List.replicate 32 20, rfl⟩, ⟨0, .top 128, 0⟩),
      (⟨List.replicate 32 22, rfl⟩, ⟨0, .top 128, 0⟩)]).audit = .error .unbalanced := rfl

end Ledger

end Lending
