import Mathlib.Data.Nat.Basic
import Mathlib.Order.MinMax
import Lending.Proofs.Refusals
import Lending.RateCurve

/-!
# More debt for a longer time is not charged less

The rate of a curve and the interest that it makes of a debt are chains of partial steps, and each
step can find no room for its result. In a solvent pool that is all that can go wrong, and every
answer is one number, kept if there is room for it: `rate_eq` gives the number for the rate and
`interest_eq` the one for the interest, in `Nat`, where every quotient exists. The rate for all of
the time has to be in range as well, and where nothing is lent out the curve is not asked for it.

Charges are then compared as numbers. The rate falls as more is borrowable
(`perSecond_antitone`), so both factors of the interest do, and the time is the third
(`due_le_due`). What is in range bounds what is not larger, so a charge that can be made stays one
that can be made when less is lent out or less time has passed.
-/

set_option autoImplicit false

namespace Lending

open Quantity

/-- Where a number is in range a smaller one is. -/
theorem Quantity.exists_ofNat?_of_le {w m n : Nat} {q : Quantity w} (hle : m ≤ n)
    (h : ofNat? w n = some q) : ∃ p, ofNat? w m = some p ∧ p ≤ q := by
  have hn := ofNat?_eq_some_iff.mp h
  have hlt := q.toNat_lt
  exact ⟨⟨m, by omega⟩, ofNat?_eq_some_iff.mpr rfl, le_def.mpr (by simp only; omega)⟩

/-- The product of a number and a positive quantity is in range only if the number is. -/
theorem Quantity.bind_mul? {w : Nat} (n : Nat) {q : Quantity w} (hq : q ≠ 0) :
    (ofNat? w n).bind (·.mul? q) = ofNat? w (n * q.toNat) := by
  have hpos : 0 < q.toNat := Nat.pos_of_ne_zero fun hz => hq (eq_zero_iff.mpr hz)
  have hfactor : n ≤ n * q.toNat := Nat.le_mul_of_pos_right n hpos
  cases hn : ofNat? w n with
  | some p => rw [Option.bind_some, mul?, ofNat?_eq_some_iff.mp hn]
  | none =>
    have hlarge := ofNat?_eq_none_iff.mp hn
    rw [Option.bind_none, ofNat?_eq_none_iff.mpr (Nat.le_trans hlarge hfactor)]

/-- Two demands in a row that fail for one cause are one demand. -/
theorem demand_bind_demand {ε α β : Type} (x : Option α) (f : α → Option β) (cause : ε) :
    (demand x cause >>= fun a => demand (f a) cause) = demand (x.bind f) cause := by
  cases x <;> rfl

namespace RateCurve

/-! ## The numbers -/

/-- The standard line, be it in range or not. -/
def standardLine (curve : RateCurve) (liquidity debt : Nat) : Nat :=
  curve.standardFloor.toNat + curve.standardSlope.toNat * debt / liquidity

/-- The emergency line. -/
def emergencyLine (curve : RateCurve) (liquidity borrowable : Nat) : Nat :=
  curve.emergencyCeiling.toNat - curve.emergencySlope.toNat * borrowable / liquidity

/-- The larger of the two lines. -/
def perSecond (curve : RateCurve) (liquidity borrowable : Nat) : Nat :=
  max (curve.standardLine liquidity (liquidity - borrowable))
    (curve.emergencyLine liquidity borrowable)

/-- The interest on the debt over `elapsed` seconds, be it in range or not. -/
def due (curve : RateCurve) (liquidity borrowable elapsed : Nat) : Nat :=
  ((liquidity - borrowable) * (curve.perSecond liquidity borrowable * elapsed) +
    (Rate.one.toNat - 1)) / Rate.one.toNat

section Numbers

variable (curve : RateCurve) (liquidity borrowable : Nat)

theorem floor_le_perSecond : curve.standardFloor.toNat ≤ curve.perSecond liquidity borrowable :=
  Nat.le_trans (Nat.le_add_right _ _) (Nat.le_max_left _ _)

/-- No part of the liquidity is more than all of it, so neither line leaves its ends. -/
theorem perSecond_le : curve.perSecond liquidity borrowable ≤
    max (curve.standardFloor.toNat + curve.standardSlope.toNat) curve.emergencyCeiling.toNat := by
  have hgain : curve.standardSlope.toNat * (liquidity - borrowable) / liquidity ≤
      curve.standardSlope.toNat := by
    refine Nat.div_le_of_le_mul ?_
    rw [Nat.mul_comm liquidity]
    exact Nat.mul_le_mul_left _ (Nat.sub_le _ _)
  exact max_le_max (Nat.add_le_add_left hgain _) (Nat.sub_le _ _)

theorem standardLine_mono : Monotone (curve.standardLine liquidity) := by
  intro less more hmore
  exact Nat.add_le_add_left (Nat.div_le_div_right (Nat.mul_le_mul_left _ hmore)) _

theorem emergencyLine_antitone : Antitone (curve.emergencyLine liquidity) := by
  intro less more hmore
  exact Nat.sub_le_sub_left (Nat.div_le_div_right (Nat.mul_le_mul_left _ hmore)) _

/-- As more is borrowable, less is lent out, and both lines fall. -/
theorem perSecond_antitone : Antitone (curve.perSecond liquidity) := by
  intro less more hmore
  exact max_le_max (curve.standardLine_mono liquidity (Nat.sub_le_sub_left hmore _))
    (curve.emergencyLine_antitone liquidity hmore)

/-- Without time or debt nothing is due. -/
theorem due_eq_zero {elapsed : Nat} (h : elapsed = 0 ∨ liquidity - borrowable = 0) :
    curve.due liquidity borrowable elapsed = 0 := by
  rcases h with hz | hz
  · rw [due, hz, Nat.mul_zero, Nat.mul_zero, Nat.zero_add]
    rfl
  · rw [due, hz, Nat.zero_mul, Nat.zero_add]
    rfl

variable {borrowable}
variable {borrowable' elapsed elapsed' : Nat}

theorem matured_le_matured (hmore : borrowable ≤ borrowable') (htime : elapsed' ≤ elapsed) :
    curve.perSecond liquidity borrowable' * elapsed' ≤
      curve.perSecond liquidity borrowable * elapsed :=
  Nat.mul_le_mul (curve.perSecond_antitone liquidity hmore) htime

theorem due_le_due (hmore : borrowable ≤ borrowable') (htime : elapsed' ≤ elapsed) :
    curve.due liquidity borrowable' elapsed' ≤ curve.due liquidity borrowable elapsed :=
  Nat.div_le_div_right (Nat.add_le_add_right
    (Nat.mul_le_mul (Nat.sub_le_sub_left hmore _) (curve.matured_le_matured liquidity hmore htime))
    _)

end Numbers

/-! ## The answers of a curve are these numbers -/

variable {curve : RateCurve} {liquidity borrowable : Amount}

theorem standard?_eq (hsome : liquidity ≠ 0) {debt : Amount} (h : debt ≤ liquidity) :
    curve.standard? liquidity debt =
      ofNat? 128 (curve.standardLine liquidity.toNat debt.toNat) := by
  obtain ⟨gain, hgain, hgained⟩ :=
    exists_mulDivFloor? hsome curve.standardSlope.toNat_lt (Nat.mul_le_mul_left _ (le_def.mp h))
  rw [standard?, hgain, standardLine, ← hgained]
  rfl

/-- The emergency line never leaves the range. -/
theorem exists_emergency? (curve : RateCurve) (hsome : liquidity ≠ 0)
    (h : borrowable ≤ liquidity) :
    ∃ r, curve.emergency? liquidity borrowable = some r ∧
      r.toNat = curve.emergencyLine liquidity.toNat borrowable.toNat := by
  obtain ⟨loss, hloss, hlost⟩ :=
    exists_mulDivFloor? hsome curve.emergencySlope.toNat_lt (Nat.mul_le_mul_left _ (le_def.mp h))
  refine ⟨curve.emergencyCeiling - loss, ?_, ?_⟩
  · rw [emergency?, hloss]
    rfl
  · rw [toNat_sub, hlost, emergencyLine]

/-- The rate of a solvent pool is one number, and there is an answer where that is in range. -/
theorem rate_eq (h : borrowable ≤ liquidity) : curve.rate liquidity borrowable =
    demand (ofNat? 128 (curve.perSecond liquidity.toNat borrowable.toNat)) .overflow := by
  by_cases hz : liquidity = 0
  · -- A quotient by nothing is zero, so both lines stand at their start in `Nat` too.
    have hstart : (max curve.standardFloor curve.emergencyCeiling).toNat =
        curve.perSecond liquidity.toNat borrowable.toNat := by
      rw [perSecond, standardLine, emergencyLine, hz, toNat_zero, Nat.div_zero, Nat.div_zero,
        toNat_max, Nat.add_zero, Nat.sub_zero]
    rw [rate, if_pos hz, ← hstart, ofNat?_toNat]
    rfl
  · have hlent : liquidity - borrowable ≤ liquidity := Nat.sub_le _ _
    obtain ⟨emergency, hemergency, hline⟩ := exists_emergency? curve hz h
    rw [rate, if_neg hz, bind_of_ok (demand_sub? h), standard?_eq hz hlent, hemergency, perSecond,
      ← hline, ← toNat_sub]
    cases hstandard : ofNat? 128 (curve.standardLine liquidity.toNat
        (liquidity - borrowable).toNat) with
    | none =>
      have hlarge := ofNat?_eq_none_iff.mp hstandard
      rw [ofNat?_eq_none_iff.mpr (Nat.le_trans hlarge (Nat.le_max_left _ _))]
      rfl
    | some standard =>
      rw [← ofNat?_eq_some_iff.mp hstandard, ← toNat_max, ofNat?_toNat]
      rfl

/-- The interest of a solvent pool is one number. There is an answer where it is in range, and so is
the rate for all of the time if anything is lent out. -/
theorem interest_eq (h : borrowable ≤ liquidity) (elapsed : Timestamp) :
    curve.interest liquidity borrowable elapsed =
      demand
        (if 0 < liquidity.toNat - borrowable.toNat →
            curve.perSecond liquidity.toNat borrowable.toNat * elapsed.toNat < capacity 128 then
          ofNat? 128 (curve.due liquidity.toNat borrowable.toNat elapsed.toNat)
        else none) .overflow := by
  rw [interest, bind_of_ok (demand_sub? h)]
  by_cases hnone : elapsed = 0 ∨ liquidity - borrowable = 0
  · have hnone' : elapsed.toNat = 0 ∨ liquidity.toNat - borrowable.toNat = 0 :=
      hnone.imp eq_zero_iff.mp eq_zero_iff.mp
    have hroom : 0 < liquidity.toNat - borrowable.toNat →
        curve.perSecond liquidity.toNat borrowable.toNat * elapsed.toNat < capacity 128 := by
      intro hlent
      rw [hnone'.resolve_right (Nat.ne_of_gt hlent), Nat.mul_zero]
      exact capacity_pos 128
    rw [if_pos hnone, if_pos hroom, due_eq_zero _ _ _ hnone']
    rfl
  · obtain ⟨htime, hlent⟩ := not_or.mp hnone
    have hlent' : 0 < liquidity.toNat - borrowable.toNat :=
      Nat.pos_of_ne_zero fun hz => hlent (eq_zero_iff.mpr hz)
    rw [if_neg hnone, rate_eq h]
    simp only [demand_bind_demand]
    rw [← Option.bind_assoc, bind_mul? _ (mt (widen_eq_zero_iff _).mp htime), toNat_widen]
    by_cases hroom : curve.perSecond liquidity.toNat borrowable.toNat * elapsed.toNat < capacity 128
    · have hmatured : ofNat? 128 _ = some (⟨_, hroom⟩ : Rate) := ofNat?_eq_some_iff.mpr rfl
      rw [if_pos fun _ => hroom, hmatured, Option.bind_some, Rate.charge?_eq]
      rfl
    · rw [if_neg fun hkept => hroom (hkept hlent'),
        ofNat?_eq_none_iff.mpr (Nat.le_of_not_lt hroom), Option.bind_none]

/-! ## Charges compared -/

/-- Where more is borrowable and less time has passed, a charge that could be made still can be and
is no larger. The rate does not rise either, and stays between the ends of the lines. Overflow is
all that a charge to a solvent pool can fail of. -/
theorem less_debt_is_charged_no_more (curve : RateCurve) (liquidity : Amount) :
    (∀ (borrowable borrowable' : Amount) (elapsed elapsed' : Timestamp),
      borrowable ≤ borrowable' → borrowable' ≤ liquidity → elapsed' ≤ elapsed →
      ∀ i, curve.interest liquidity borrowable elapsed = .ok i →
        ∃ i', curve.interest liquidity borrowable' elapsed' = .ok i' ∧ i' ≤ i) ∧
    (∀ borrowable borrowable' : Amount, borrowable ≤ borrowable' → borrowable' ≤ liquidity →
      ∀ r, curve.rate liquidity borrowable = .ok r →
        ∃ r', curve.rate liquidity borrowable' = .ok r' ∧ curve.standardFloor ≤ r' ∧ r' ≤ r ∧
          r.toNat ≤ max (curve.standardFloor.toNat + curve.standardSlope.toNat)
            curve.emergencyCeiling.toNat) ∧
    ∀ (borrowable : Amount) (f : Fault), borrowable ≤ liquidity →
      (curve.rate liquidity borrowable = .error f → f = .overflow) ∧
      ∀ elapsed, curve.interest liquidity borrowable elapsed = .error f → f = .overflow := by
  refine ⟨?_, ?_, ?_⟩
  · intro borrowable borrowable' elapsed elapsed' hmore hle htime i hi
    rw [interest_eq (Nat.le_trans hmore hle), demand_eq_ok_iff] at hi
    rw [interest_eq hle]
    split at hi
    · next hroom =>
      -- If anything is still lent out, it was before, and the old product bounds the new one.
      have hroom' : 0 < liquidity.toNat - borrowable'.toNat →
          curve.perSecond liquidity.toNat borrowable'.toNat * elapsed'.toNat < capacity 128 := by
        intro hlent
        refine Nat.lt_of_le_of_lt (curve.matured_le_matured _ hmore htime) (hroom ?_)
        exact Nat.lt_of_lt_of_le hlent (Nat.sub_le_sub_left hmore _)
      obtain ⟨i', hi', hless⟩ := exists_ofNat?_of_le (curve.due_le_due _ hmore htime) hi
      rw [if_pos hroom']
      exact ⟨i', demand_eq_ok_iff.mpr hi', hless⟩
    · cases hi
  · intro borrowable borrowable' hmore hle r hr
    rw [rate_eq (Nat.le_trans hmore hle), demand_eq_ok_iff] at hr
    obtain ⟨r', hr', hless⟩ := exists_ofNat?_of_le (curve.perSecond_antitone _ hmore) hr
    refine ⟨r', (rate_eq hle).trans (demand_eq_ok_iff.mpr hr'), ?_, hless, ?_⟩
    · rw [le_def, ofNat?_eq_some_iff.mp hr']
      exact curve.floor_le_perSecond _ _
    · rw [ofNat?_eq_some_iff.mp hr]
      exact curve.perSecond_le _ _
  · intro borrowable f hle
    refine ⟨fun hf => ?_, fun elapsed hf => ?_⟩
    · rw [rate_eq hle, demand_eq_error_iff] at hf
      exact hf.2.symm
    · rw [interest_eq hle, demand_eq_error_iff] at hf
      exact hf.2.symm

/-- A curve whose standard line leaves the range where all of the liquidity is lent out. -/
def risingCurve : RateCurve where
  standardSlope := top 128
  standardFloor := Rate.one

/-- For all of the liquidity there is no rate. A quarter of it can be charged for during three
seconds, and an eighth of it during two. -/
theorem part_of_the_liquidity_is_charged :
    risingCurve.rate ⟨80, by decide⟩ 0 = .error .overflow ∧
    ∃ i i' : Amount,
      risingCurve.interest ⟨80, by decide⟩ ⟨60, by decide⟩ ⟨3, by decide⟩ = .ok i ∧
      risingCurve.interest ⟨80, by decide⟩ ⟨70, by decide⟩ ⟨2, by decide⟩ = .ok i' ∧
      i' ≤ i ∧ i' ≠ 0 := by
  obtain ⟨hcharge, -, -⟩ := less_debt_is_charged_no_more risingCurve ⟨80, by decide⟩
  obtain ⟨i, hi⟩ : ∃ i, risingCurve.interest ⟨80, by decide⟩ ⟨60, by decide⟩ ⟨3, by decide⟩ =
      .ok i := ⟨_, rfl⟩
  obtain ⟨i', hi', hless⟩ := hcharge ⟨60, by decide⟩ ⟨70, by decide⟩ ⟨3, by decide⟩ ⟨2, by decide⟩
    (by decide) (by decide) (by decide) i hi
  refine ⟨rfl, i, i', hi, hi', hless, ?_⟩
  cases hi'
  decide

end RateCurve

end Lending
