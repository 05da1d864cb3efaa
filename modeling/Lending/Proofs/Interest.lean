import Lending.Proofs.Quotes
import Lending.RateCurve

/-!
# What a rate curve charges, and why more debt is not charged less

A charge by the clock is a chain of partial steps: the debt, the two lines of the rate, the rate
times the seconds, and that on the debt. The `_cases` lemmas open the chain once. What they give is
numbers: two quotients rounded down in the rate, and one rounded up in the interest.

The rate depends on how much of the liquidity is borrowable, and on nothing else. Where that part is
smaller the standard line is higher, because more is lent out, and the emergency line has lost less
(`RateCurve.rate_le_rate`). Each quotient is compared with its like, so rounding does not come into
it. Of all this a charge needs two consequences. It is never below what a known rate makes of the
debt, if the curve does not go below that rate (`RateCurve.le_interest`); and it is the least such
number for a rate that the curve does not go below however much liquidity is added, because added
liquidity is lent out (`RateCurve.exists_rate_of_interest`).
-/

set_option autoImplicit false

namespace Lending

open Quantity

namespace RateCurve

variable {curve : RateCurve} {liquidity borrowable liquidity' borrowable' i : Amount}
  {elapsed : Timestamp} {r r' : Rate}

/-! ## The rate -/

/-- The rate where there is liquidity: the larger of the two lines. -/
theorem rate_cases (hpos : 0 < liquidity.toNat) (h : curve.rate liquidity borrowable = .ok r) :
    ∃ gain loss : Nat,
      RoundsDown gain curve.standardSlope.toNat (liquidity.toNat - borrowable.toNat)
        liquidity.toNat ∧
      RoundsDown loss curve.emergencySlope.toNat borrowable.toNat liquidity.toNat ∧
      r.toNat = max (curve.standardFloor.toNat + gain) (curve.emergencyCeiling.toNat - loss) := by
  have hsome : liquidity ≠ 0 := fun hz => Nat.ne_of_gt hpos (eq_zero_iff.mp hz)
  rw [rate, if_neg hsome] at h
  simp only [standard?, emergency?, bind_eq_ok_iff, demand_eq_ok_iff, pure_eq_ok_iff,
    Option.bind_eq_bind, Option.bind_eq_some_iff, Option.pure_def, Option.some.injEq,
    sub?_eq_some_iff, add?_eq_some_iff] at h
  obtain ⟨debt, hdebt, standard, ⟨gain, hgain, hstandard⟩, _, ⟨loss, hloss, rfl⟩, rfl⟩ := h
  refine ⟨gain.toNat, loss.toNat, ?_, roundsDown_of_mulDivFloor? hloss, ?_⟩
  · rw [show liquidity.toNat - borrowable.toNat = debt.toNat by omega]
    exact roundsDown_of_mulDivFloor? hgain
  · rw [toNat_max, hstandard, toNat_sub]

/-- Where a smaller part of the liquidity is borrowable the rate is no lower. -/
theorem rate_le_rate (hpos : 0 < liquidity.toNat) (hpos' : 0 < liquidity'.toNat)
    (hpart : borrowable'.toNat * liquidity.toNat ≤ borrowable.toNat * liquidity'.toNat)
    (h : curve.rate liquidity borrowable = .ok r)
    (h' : curve.rate liquidity' borrowable' = .ok r') : r ≤ r' := by
  obtain ⟨gain, loss, hgain, hloss, hr⟩ := rate_cases hpos h
  obtain ⟨gain', loss', hgain', hloss', hr'⟩ := rate_cases hpos' h'
  have hlent : (liquidity.toNat - borrowable.toNat) * liquidity'.toNat ≤
      (liquidity'.toNat - borrowable'.toNat) * liquidity.toNat := by
    rw [Nat.sub_mul, Nat.sub_mul, Nat.mul_comm liquidity'.toNat]
    exact Nat.sub_le_sub_left hpart _
  have hmore : gain ≤ gain' := hgain.mono hpos hgain' hlent
  have hless : loss' ≤ loss := hloss'.mono hpos' hloss hpart
  rw [le_def, hr, hr']
  omega

/-! ## The interest -/

/-- A charge finds no more to lend than there is liquidity. Without time or debt it comes to
nothing, and otherwise to the rate for all of the time on all of the debt. -/
theorem interest_cases (h : curve.interest liquidity borrowable elapsed = .ok i) :
    borrowable ≤ liquidity ∧
      (((elapsed.toNat = 0 ∨ liquidity.toNat - borrowable.toNat = 0) ∧ i = 0) ∨
        (0 < elapsed.toNat ∧ 0 < liquidity.toNat - borrowable.toNat ∧
          ∃ r, curve.rate liquidity borrowable = .ok r ∧
            RoundsUp i.toNat (liquidity.toNat - borrowable.toNat) (r.toNat * elapsed.toNat)
              Rate.one.toNat)) := by
  simp only [interest, bind_eq_ok_iff, demand_eq_ok_iff, sub?_eq_some_iff] at h
  obtain ⟨debt, hdebt, h⟩ := h
  have hlent : liquidity.toNat - borrowable.toNat = debt.toNat := by omega
  refine ⟨le_def.mpr (by omega), ?_⟩
  rw [hlent, ← eq_zero_iff, ← eq_zero_iff]
  by_cases hnone : elapsed = 0 ∨ debt = 0
  · rw [if_pos hnone] at h
    exact .inl ⟨hnone, (pure_eq_ok_iff.mp h).symm⟩
  · rw [if_neg hnone] at h
    simp only [bind_eq_ok_iff, demand_eq_ok_iff, mul?_eq_some_iff, toNat_widen] at h
    obtain ⟨r, hr, matured, hmatured, hi⟩ := h
    refine .inr ⟨Nat.pos_of_ne_zero fun hz => hnone (.inl (eq_zero_iff.mpr hz)),
      Nat.pos_of_ne_zero fun hz => hnone (.inr (eq_zero_iff.mpr hz)), r, hr, ?_⟩
    rw [← hmatured]
    exact roundsUp_of_mulDivCeil? hi

/-- A charge is no less than what a rate makes of the debt, if the curve does not go below it. -/
theorem le_interest {rate : Nat} (h : curve.interest liquidity borrowable elapsed = .ok i)
    (hrate : ∀ r, curve.rate liquidity borrowable = .ok r → rate ≤ r.toNat) :
    (liquidity.toNat - borrowable.toNat) * (rate * elapsed.toNat) ≤
      i.toNat * Rate.one.toNat := by
  obtain ⟨-, ⟨hnone, -⟩ | ⟨-, -, r, hr, hrounds⟩⟩ := interest_cases h
  · have hnothing : (liquidity.toNat - borrowable.toNat) * (rate * elapsed.toNat) = 0 := by
      rcases hnone with htime | hdebt
      · rw [htime, Nat.mul_zero, Nat.mul_zero]
      · rw [hdebt, Nat.zero_mul]
    rw [hnothing]
    exact Nat.zero_le _
  · refine Nat.le_trans (Nat.mul_le_mul_left _ ?_) hrounds.ge
    exact Nat.mul_le_mul_right _ (hrate r hr)

/-- A charge is the least number that covers the debt at some rate, and the curve does not go below
that rate when liquidity is added and lent out. -/
theorem exists_rate_of_interest (h : curve.interest liquidity borrowable elapsed = .ok i) :
    ∃ rate : Nat,
      (∀ n, (liquidity.toNat - borrowable.toNat) * (rate * elapsed.toNat) ≤
        n * Rate.one.toNat → i.toNat ≤ n) ∧
      ∀ (more : Amount) (r : Rate), liquidity ≤ more → curve.rate more borrowable = .ok r →
        rate ≤ r.toNat := by
  obtain ⟨-, ⟨-, hnothing⟩ | ⟨-, hlent, r, hr, hrounds⟩⟩ := interest_cases h
  · refine ⟨0, ?_, fun _ _ _ _ => Nat.zero_le _⟩
    intro n _
    rw [hnothing]
    exact Nat.zero_le n
  · refine ⟨r.toNat, fun n hn => hrounds.le_iff.mpr hn, ?_⟩
    intro more r' hmore hr'
    have hmore' := le_def.mp hmore
    exact rate_le_rate (by omega) (by omega) (Nat.mul_le_mul_left _ hmore') hr hr'

end RateCurve

/-! ## The clock of a pool -/

namespace Pool

variable {pool : Pool} {curve : RateCurve} {now time : Timestamp} {interest : Amount}

/-- What is pending is the charge for the time from the last charge to what the clock shows. -/
theorem pending_eq_ok_iff :
    pool.pending curve now = .ok (interest, time) ↔ time = clock pool.accruedAt now ∧
      curve.interest pool.liquidity pool.borrowable (time - pool.accruedAt) = .ok interest := by
  simp only [pending, bind_eq_ok_iff, pure_eq_ok_iff, Prod.mk.injEq]
  constructor
  · intro h
    obtain ⟨_, hi, rfl, rfl⟩ := h
    exact ⟨rfl, hi⟩
  · intro h
    obtain ⟨rfl, hi⟩ := h
    exact ⟨interest, hi, rfl, rfl⟩

/-- The clock counts up from the last charge, and stands still at times before it. -/
theorem toNat_clock (accruedAt now : Timestamp) :
    (clock accruedAt now).toNat = accruedAt.toNat + (now.toNat - accruedAt.toNat) := by
  rw [clock, toNat_max]
  omega

end Pool

end Lending
