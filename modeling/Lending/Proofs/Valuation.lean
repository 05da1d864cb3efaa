import Mathlib.Algebra.BigOperators.Ring.List
import Mathlib.Algebra.Ring.Nat
import Lending.Proofs.BondPrice
import Lending.Proofs.SharePrice

/-!
# What all holders own and owe together

The worth of shares rounds down and the debt on bonds rounds up, holder by holder. So the shares of
all holders are worth no more than the liquidity, and the bonds of all holders owe no less than what
is lent out. What rounding leaves over is less than one unit for each holder who has a part, and
nothing for the others (`sum_roundsDown`, `sum_roundsUp`). Of the liquidity, then, at most one
unit less than there are shareholders belongs to nobody, and at most one unit less than there are
debtors is owed beyond the debt.

Both bounds are reached, by three holders with one share and one bond each
(`Ledger.threeEqualHolders`).
-/

set_option autoImplicit false

namespace Lending

open Quantity

/-! ## Sums that are off by less than a unit in each part -/

/-- Each number is at most another: short of it by less than `c` where `p` holds, and not short at
all elsewhere. Then the sum is short by less than `c` for each `p`. -/
theorem sum_le_and_lt {ι : Type} {x y : ι → Nat} {p : ι → Bool} {c : Nat} {es : List ι}
    (h : ∀ e ∈ es, x e ≤ y e ∧ y e < x e + if p e then c else 1) :
    (es.map x).sum ≤ (es.map y).sum ∧
      (es.map y).sum + es.countP p ≤ (es.map x).sum + es.countP p * c := by
  induction es with
  | nil => simp
  | cons e es ih =>
    obtain ⟨hle, hlt⟩ := ih fun e' he' => h e' (List.mem_cons_of_mem e he')
    obtain ⟨hle', hlt'⟩ := h e List.mem_cons_self
    rw [List.map_cons, List.map_cons, List.sum_cons, List.sum_cons, List.countP_cons]
    cases hp : p e with
    | false =>
      rw [hp, if_neg Bool.false_ne_true] at hlt'
      rw [if_neg Bool.false_ne_true, Nat.add_zero]
      omega
    | true =>
      rw [hp, if_pos rfl] at hlt'
      rw [if_pos rfl, Nat.succ_mul]
      omega

section Quotients

variable {ι : Type} {part quotient : ι → Nat} {b c : Nat} {es : List ι}

/-- What is short by less than `c` in each of `n` parts is short by less than `n` when divided
by `c`. -/
theorem le_and_lt_add_of_mul {q n : Nat} (hc : 0 < c) (hn : 0 < n) (hle : q * c ≤ b * c)
    (hlt : b * c + n ≤ q * c + n * c) : q ≤ b ∧ b < q + n := by
  have hless : b * c < (q + n) * c := by
    rw [Nat.add_mul]
    omega
  exact ⟨Nat.le_of_mul_le_mul_right hle hc, Nat.lt_of_mul_lt_mul_right hless⟩

theorem countP_pos_of_sum_pos (h : 0 < (es.map part).sum) : 0 < es.countP (part · ≠ 0) := by
  obtain ⟨_, hpart, he⟩ := List.sum_pos_iff_exists_pos_nat.mp h
  obtain ⟨e, hmem, rfl⟩ := List.mem_map.mp hpart
  exact List.countP_pos_iff.mpr ⟨e, hmem, by simpa using Nat.ne_of_gt he⟩

/-- The quotients of the parts of a whole, rounded down, make up that of the whole but for less than
one in each part. -/
theorem sum_roundsDown (hc : 0 < c) (hwhole : (es.map part).sum = c)
    (h : ∀ e ∈ es, RoundsDown (quotient e) (part e) b c) :
    (es.map quotient).sum ≤ b ∧ b < (es.map quotient).sum + es.countP (part · ≠ 0) := by
  have hpos : 0 < es.countP (part · ≠ 0) := countP_pos_of_sum_pos (hwhole ▸ hc)
  have hsums : (es.map quotient).sum * c ≤ (es.map part).sum * b ∧
      (es.map part).sum * b + es.countP (part · ≠ 0) ≤
        (es.map quotient).sum * c + es.countP (part · ≠ 0) * c := by
    rw [← List.sum_map_mul_right, ← List.sum_map_mul_right]
    refine sum_le_and_lt fun e he => ⟨(h e he).le, ?_⟩
    by_cases hz : part e = 0
    · have hnone : quotient e = 0 := (hz ▸ h e he).eq_zero hc
      simp [hz, hnone]
    · have hrounds := (h e he).lt
      rw [Nat.succ_mul] at hrounds
      simpa [hz] using hrounds
  rw [hwhole, Nat.mul_comm c b] at hsums
  exact le_and_lt_add_of_mul hc hpos hsums.1 hsums.2

/-- Rounded up they make up that of the whole and less than one more in each part. -/
theorem sum_roundsUp (hc : 0 < c) (hwhole : (es.map part).sum = c)
    (h : ∀ e ∈ es, RoundsUp (quotient e) (part e) b c) :
    b ≤ (es.map quotient).sum ∧ (es.map quotient).sum < b + es.countP (part · ≠ 0) := by
  have hpos : 0 < es.countP (part · ≠ 0) := countP_pos_of_sum_pos (hwhole ▸ hc)
  have hsums : (es.map part).sum * b ≤ (es.map quotient).sum * c ∧
      (es.map quotient).sum * c + es.countP (part · ≠ 0) ≤
        (es.map part).sum * b + es.countP (part · ≠ 0) * c := by
    rw [← List.sum_map_mul_right, ← List.sum_map_mul_right]
    refine sum_le_and_lt fun e he => ⟨(h e he).ge, ?_⟩
    by_cases hz : part e = 0
    · have hnone : quotient e = 0 := (hz ▸ h e he).eq_zero
      simp [hz, hnone]
    · simpa [hz] using (h e he).lt
  rw [hwhole, Nat.mul_comm c b] at hsums
  exact le_and_lt_add_of_mul hc hpos hsums.1 hsums.2

end Quotients

/-! ## Valuations of a ledger -/

namespace Ledger

variable {l : Ledger} {worth owed : Key → Amount}

/-- What all accounts come to, each valued by its holder. -/
def valued (l : Ledger) (worth : Key → Amount) : Nat :=
  (l.accounts.entries.map fun e => (worth e.1).toNat).sum

/-- The number of accounts that have some of a balance. -/
def holders (l : Ledger) (balance : Account → Amount) : Nat :=
  l.accounts.entries.countP fun e => (balance e.2).toNat ≠ 0

theorem sum_eq_sum_map (l : Ledger) (balance : Account → Amount) :
    l.sum balance = (l.accounts.entries.map fun e => (balance e.2).toNat).sum := by
  rw [List.sum_eq_foldr, List.foldr_map]
  rfl

/-- The worth of all shares: nothing where there are none, and otherwise less than the liquidity by
less than one for each shareholder. -/
theorem Sound.valued_shares (hl : l.Sound)
    (h : ∀ holder, l.shareValue holder = .ok (worth holder)) :
    l.valued worth ≤ l.pool.liquidity.toNat ∧ (0 < l.pool.shares.toNat →
      l.pool.liquidity.toNat < l.valued worth + l.holders Account.shares) := by
  rcases Nat.eq_zero_or_pos l.pool.shares.toNat with hnone | hpos
  · have hnothing : l.valued worth = 0 := by
      refine Nat.eq_zero_of_not_pos fun hsome => ?_
      obtain ⟨_, hpart, he⟩ := List.sum_pos_iff_exists_pos_nat.mp hsome
      obtain ⟨e, -, rfl⟩ := List.mem_map.mp hpart
      rcases Pool.liquidityFor_cases (h e.1) with ⟨-, hz⟩ | ⟨hshares, -⟩
      · rw [hz] at he
        exact absurd he (Nat.lt_irrefl 0)
      · omega
    exact ⟨by omega, fun hshares => by omega⟩
  · have hshares : (l.accounts.entries.map fun e => e.2.shares.toNat).sum = l.pool.shares.toNat :=
      (l.sum_eq_sum_map Account.shares).symm.trans hl.balanced.2.1
    obtain ⟨hle, hlt⟩ := sum_roundsDown hpos hshares fun e he => by
      rcases Pool.liquidityFor_cases (h e.1) with ⟨hnone, -⟩ | ⟨-, hrounds⟩
      · omega
      · rw [account_of_mem he] at hrounds
        exact hrounds
    exact ⟨hle, fun _ => hlt⟩

/-- What all bonds owe: more than what is lent out by less than one for each debtor. -/
theorem Sound.valued_bonds (hl : l.Sound) (h : ∀ holder, l.debtOwed holder = .ok (owed holder))
    (hpos : 0 < l.pool.bonds.toNat) :
    l.pool.lent ≤ l.valued owed ∧ l.valued owed < l.pool.lent + l.holders Account.bonds := by
  have hbonds : (l.accounts.entries.map fun e => e.2.bonds.toNat).sum = l.pool.bonds.toNat :=
    (l.sum_eq_sum_map Account.bonds).symm.trans hl.balanced.2.2
  refine sum_roundsUp hpos hbonds fun e he => ?_
  rcases hl.debtOwed_cases (h e.1) with ⟨hnone, -⟩ | ⟨-, hrounds⟩
  · omega
  · rw [account_of_mem he] at hrounds
    exact hrounds

/-- On a ledger that passes its audit every holder's shares have a worth and every holder's bonds a
debt. All shares together are worth no more than the liquidity, and if there are any, less by at
most one for every shareholder but one. All bonds together owe no less than what is lent out, and
more by at most one for every debtor but one. -/
theorem valuations_cover_the_pool (h : l.audit = .ok ()) :
    ∃ worth owed : Key → Amount,
      (∀ holder, l.shareValue holder = .ok (worth holder)) ∧
      (∀ holder, l.debtOwed holder = .ok (owed holder)) ∧
      l.valued worth ≤ l.pool.liquidity.toNat ∧
      (0 < l.pool.shares.toNat →
        (l.pool.liquidity.toNat : Int) - l.valued worth ≤ l.holders Account.shares - 1) ∧
      (0 < l.pool.bonds.toNat →
        (l.pool.liquidity.toNat : Int) - l.pool.borrowable.toNat ≤ l.valued owed ∧
        l.valued owed - ((l.pool.liquidity.toNat : Int) - l.pool.borrowable.toNat) ≤
          l.holders Account.bonds - 1) := by
  have hl := sound_iff.mpr h
  obtain ⟨worth, hworth⟩ := Classical.axiomOfChoice hl.exists_shareValue
  obtain ⟨owed, howed⟩ := Classical.axiomOfChoice hl.exists_debtOwed
  obtain ⟨hmost, hleast⟩ := hl.valued_shares hworth
  have hlent := hl.solvent.lent_add
  refine ⟨worth, owed, hworth, howed, hmost, ?_, ?_⟩
  · intro hshares
    have hshort := hleast hshares
    omega
  · intro hbonds
    obtain ⟨hcovered, hover⟩ := hl.valued_bonds howed hbonds
    omega

/-- Three holders of as many shares and bonds each, in a pool with eighty-nine of liquidity and
thirty-seven of it lent. -/
def threeEqualHolders : Ledger :=
  ofParts ⟨0, ⟨89, by decide⟩, ⟨84, by decide⟩, ⟨52, by decide⟩, ⟨84, by decide⟩, 0, 0⟩
    [(⟨List.replicate 32 15, rfl⟩, ⟨0, ⟨28, by decide⟩, ⟨28, by decide⟩⟩),
      (⟨List.replicate 32 16, rfl⟩, ⟨0, ⟨28, by decide⟩, ⟨28, by decide⟩⟩),
      (⟨List.replicate 32 17, rfl⟩, ⟨0, ⟨28, by decide⟩, ⟨28, by decide⟩⟩)]

/-- Each owns a third of the eighty-nine and owes a third of the thirty-seven. -/
theorem three_holders_cover_the_pool :
    threeEqualHolders.audit = .ok () ∧ ∃ worth owed : Key → Amount,
      (∀ holder, threeEqualHolders.shareValue holder = .ok (worth holder)) ∧
      (∀ holder, threeEqualHolders.debtOwed holder = .ok (owed holder)) ∧
      threeEqualHolders.valued worth ≤ 89 ∧
      (89 : Int) - threeEqualHolders.valued worth ≤ 2 ∧
      (37 : Int) ≤ threeEqualHolders.valued owed ∧
      threeEqualHolders.valued owed - (37 : Int) ≤ 2 := by
  have haudit : threeEqualHolders.audit = .ok () := rfl
  obtain ⟨worth, owed, hworth, howed, hmost, hshort, hdebt⟩ := valuations_cover_the_pool haudit
  obtain ⟨hcovered, hover⟩ := hdebt (by decide)
  exact ⟨haudit, worth, owed, hworth, howed, hmost, hshort (by decide), hcovered, hover⟩

/-- The thirds are rounded to twenty-nine and to thirteen: two of the eighty-nine belong to nobody,
and two more than the thirty-seven are owed. -/
example : threeEqualHolders.accounts.entries.map
      (fun e => (threeEqualHolders.shareValue e.1, threeEqualHolders.debtOwed e.1)) =
    List.replicate 3 (.ok ⟨29, by decide⟩, .ok ⟨13, by decide⟩) := rfl

end Ledger

end Lending
