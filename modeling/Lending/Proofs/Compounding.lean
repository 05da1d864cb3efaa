import Lending.Proofs.Interest
import Lending.Proofs.Unwinding

/-!
# To charge more often never charges less

Anybody may ask for a charge at any time, and a debtor might hope to gain by it: interest that is
charged in many parts is computed on debts and at rates that change from part to part, and each part
is rounded. It comes to no less than one charge for all of the time would.

Two facts make it so, one for each factor of a charge. The debt only grows, because interest is
added to it. And the rate does not fall, because what is added to the liquidity is lent out, so a
smaller part of the liquidity is borrowable than before. So each part is at least what the debt and
the rate of the start make of its seconds (`RateCurve.le_interest`), and all parts together are at
least that for all seconds (`Ledger.Outgrows`). One charge is the least whole number that is
(`RateCurve.exists_rate_of_interest`), so rounding each part up can only add to it.

That the one charge succeeds is a condition of its own. A rate times all of the seconds can be too
large where it was not for any part of them.
-/

set_option autoImplicit false

namespace Lending

open Quantity

/-- Charges by one curve, each asked for by somebody at a time, and nothing else. -/
def charges (curve : RateCurve) (asked : List (Key × Timestamp)) : List Step :=
  asked.map fun x => .request (.clocked x.1 .accrue curve x.2)

namespace Ledger

variable {l start : Ledger} {curve : RateCurve} {caller : Key} {now : Timestamp} {e : Effect}

/-! ## One charge -/

/-- A charge for its own sake leaves the ledger as the interest left it. -/
theorem Acts.eq_of_accrue {after : Ledger} {r : Receipt} (h : l.Acts caller .accrue r after) :
    after = l := by
  cases h with
  | trade h => cases h
  | accrue => rfl

/-- A charge at a time that is not past adds the interest for the seconds since the last one,
and moves the clock to its time. -/
theorem exists_of_charge (hle : l.pool.accruedAt ≤ now)
    (h : l.applyAt caller .accrue curve now = .ok e) :
    ∃ liquidity : Amount, liquidity.toNat = l.pool.liquidity.toNat + e.interest.toNat ∧
      curve.interest l.pool.liquidity l.pool.borrowable (now - l.pool.accruedAt) =
        .ok e.interest ∧
      e.ledger.pool = { l.pool with liquidity, accruedAt := now } := by
  obtain ⟨time, charged, acted, hdue, hcharged, hacts, hstamp⟩ :=
    exists_of_attempt (r := .clocked caller .accrue curve now) h
  obtain ⟨hclock, hinterest⟩ := Pool.pending_eq_ok_iff.mp hdue
  have htime : time = now := by
    rw [le_def] at hle
    rw [hclock, Quantity.ext_iff, Pool.toNat_clock]
    omega
  obtain ⟨liquidity, hliquidity, rfl⟩ := accrue_eq_ok_iff.mp hcharged
  rw [htime] at hinterest hstamp
  refine ⟨liquidity, hliquidity, hinterest, ?_⟩
  rw [hstamp, hacts.eq_of_accrue]
  rfl

/-- The pool of `l` is that of the start with interest added to it, and the interest is no less than
what `rate` makes of the debt of the start for all seconds between. -/
structure Outgrows (start : Ledger) (rate : Nat) (l : Ledger) : Prop where
  borrowable_eq : l.pool.borrowable = start.pool.borrowable
  accruedAt_le : start.pool.accruedAt ≤ l.pool.accruedAt
  liquidity_le : start.pool.liquidity ≤ l.pool.liquidity
  covers : start.pool.lent *
      (rate * (l.pool.accruedAt.toNat - start.pool.accruedAt.toNat)) ≤
    (l.pool.liquidity.toNat - start.pool.liquidity.toNat) * Rate.one.toNat

namespace Outgrows

variable {rate : Nat}

theorem refl (start : Ledger) (rate : Nat) : Outgrows start rate start where
  borrowable_eq := rfl
  accruedAt_le := Nat.le_refl _
  liquidity_le := Nat.le_refl _
  covers := by
    rw [Nat.sub_self, Nat.mul_zero, Nat.mul_zero]
    exact Nat.zero_le _

/-- A charge by a curve that does not go below the rate is such interest. -/
theorem charge (hcurve : ∀ (more : Amount) (r : Rate), start.pool.liquidity ≤ more →
      curve.rate more start.pool.borrowable = .ok r → rate ≤ r.toNat)
    (hg : Outgrows start rate l) (hle : l.pool.accruedAt ≤ now)
    (h : l.applyAt caller .accrue curve now = .ok e) : Outgrows start rate e.ledger := by
  obtain ⟨liquidity, hliquidity, hinterest, hpool⟩ := exists_of_charge hle h
  have hclock := le_def.mp hg.accruedAt_le
  have hmore := le_def.mp hg.liquidity_le
  have hcovers := hg.covers
  have hpart := RateCurve.le_interest hinterest fun r hr =>
    hcurve l.pool.liquidity r hg.liquidity_le (hg.borrowable_eq ▸ hr)
  have hdebt : start.pool.lent ≤ l.pool.liquidity.toNat - l.pool.borrowable.toNat := by
    rw [hg.borrowable_eq, Pool.lent]
    omega
  rw [le_def] at hle
  refine ⟨?_, ?_, ?_, ?_⟩
  · rw [hpool]
    exact hg.borrowable_eq
  · rw [hpool, le_def]
    exact Nat.le_trans hclock hle
  · rw [hpool, le_def]
    exact Nat.le_trans hmore (by simp only; omega)
  · rw [hpool]
    simp only
    have hseconds : now.toNat - start.pool.accruedAt.toNat =
        l.pool.accruedAt.toNat - start.pool.accruedAt.toNat +
          (now - l.pool.accruedAt).toNat := by
      rw [toNat_sub]
      omega
    rw [hseconds, Nat.mul_add, Nat.mul_add, show liquidity.toNat - start.pool.liquidity.toNat =
      l.pool.liquidity.toNat - start.pool.liquidity.toNat + e.interest.toNat by omega, Nat.add_mul]
    exact Nat.add_le_add hcovers (Nat.le_trans (Nat.mul_le_mul_right _ hdebt) hpart)

/-- Many charges in the order of their times are such interest, and leave the clock at the last. -/
theorem run (hcurve : ∀ (more : Amount) (r : Rate), start.pool.liquidity ≤ more →
      curve.rate more start.pool.borrowable = .ok r → rate ≤ r.toNat)
    {asked : List (Key × Timestamp)} (hg : Outgrows start rate l)
    (horder : (l.pool.accruedAt :: asked.map Prod.snd).Pairwise (· ≤ ·))
    (h : l.Admits (charges curve asked)) :
    Outgrows start rate (l.run (charges curve asked)) ∧
      (l.run (charges curve asked)).pool.accruedAt =
        (asked.map Prod.snd).getLast?.getD l.pool.accruedAt := by
  induction asked generalizing l with
  | nil => exact ⟨hg, rfl⟩
  | cons x rest ih =>
    obtain ⟨caller, now⟩ := x
    obtain ⟨e, he, hadmits, hrun⟩ := h.exists_of_cons
    obtain ⟨hfirst, hrest⟩ := List.pairwise_cons.mp horder
    have hle : l.pool.accruedAt ≤ now := hfirst now List.mem_cons_self
    obtain ⟨_, -, -, hpool⟩ := exists_of_charge hle he
    have hclock : e.ledger.pool.accruedAt = now := by rw [hpool]
    obtain ⟨hg', hlast⟩ := ih (hg.charge hcurve hle he) (hclock.symm ▸ hrest) hadmits
    have hchain : l.run (charges curve ((caller, now) :: rest)) =
        e.ledger.run (charges curve rest) := hrun
    rw [hchain, hlast, hclock, List.map_cons, List.getLast?_cons]
    exact ⟨hg', rfl⟩

end Outgrows

/-! ## Many charges and one -/

/-- If charges by one curve all succeed, in the order of their times, and one charge at the last of
these times would succeed as well, then the many leave no less liquidity than the one. What is
borrowable and the time of the last charge are the same after both. -/
theorem poking_never_cuts_interest {asked : List (Key × Timestamp)}
    (horder : (l.pool.accruedAt :: asked.map Prod.snd).Pairwise (· ≤ ·))
    (hlast : (asked.map Prod.snd).getLast? = some now) (hasked : l.Admits (charges curve asked))
    (honce : l.applyAt caller .accrue curve now = .ok e) :
    e.ledger.pool.liquidity ≤ (l.run (charges curve asked)).pool.liquidity ∧
      (l.run (charges curve asked)).pool.borrowable = e.ledger.pool.borrowable ∧
      (l.run (charges curve asked)).pool.accruedAt = e.ledger.pool.accruedAt := by
  have hle : l.pool.accruedAt ≤ now :=
    (List.pairwise_cons.mp horder).1 now (List.mem_of_getLast? hlast)
  obtain ⟨liquidity, hliquidity, hinterest, hpool⟩ := exists_of_charge hle honce
  obtain ⟨rate, hleast, hcurve⟩ := RateCurve.exists_rate_of_interest hinterest
  obtain ⟨hg, hclock⟩ := (Outgrows.refl l rate).run hcurve horder hasked
  rw [hlast, Option.getD_some] at hclock
  have hmore := le_def.mp hg.liquidity_le
  have hcovers := hg.covers
  rw [hclock] at hcovers
  have hinterest_le := hleast _ hcovers
  rw [hpool]
  refine ⟨?_, hg.borrowable_eq, hclock⟩
  rw [le_def]
  simp only
  omega

/-- Two holders by turns, one of them twice at the same time. -/
def eagerCharges : List (Key × Timestamp) :=
  [(0, ⟨4, by decide⟩), (⟨List.replicate 32 19, rfl⟩, ⟨4, by decide⟩), (0, ⟨9, by decide⟩),
    (⟨List.replicate 32 19, rfl⟩, ⟨12, by decide⟩)]

/-- A curve whose emergency line is the higher one where much is lent out. -/
def steepCurve : RateCurve where
  standardSlope := ⟨22000000000000000, by decide⟩
  standardFloor := ⟨11000000000000000, by decide⟩
  emergencySlope := ⟨55000000000000000, by decide⟩
  emergencyCeiling := ⟨45000000000000000, by decide⟩

/-- In twelve seconds four charges come to more than one. -/
theorem eager_charges_cut_nothing :
    (twoHolders.pool.accruedAt :: eagerCharges.map Prod.snd).Pairwise (· ≤ ·) ∧
    (eagerCharges.map Prod.snd).getLast? = some ⟨12, by decide⟩ ∧
    twoHolders.Admits (charges steepCurve eagerCharges) ∧
    ∃ e, twoHolders.applyAt 0 .accrue steepCurve ⟨12, by decide⟩ = .ok e ∧
      e.interest ≠ 0 ∧
      e.ledger.pool.liquidity ≤
        (twoHolders.run (charges steepCurve eagerCharges)).pool.liquidity ∧
      (twoHolders.run (charges steepCurve eagerCharges)).pool.accruedAt =
        e.ledger.pool.accruedAt := by
  have horder : (twoHolders.pool.accruedAt :: eagerCharges.map Prod.snd).Pairwise (· ≤ ·) := by
    decide
  have hadmits : twoHolders.Admits (charges steepCurve eagerCharges) := rfl
  obtain ⟨e, he, hinterest⟩ : ∃ e,
      twoHolders.applyAt 0 .accrue steepCurve ⟨12, by decide⟩ = .ok e ∧ e.interest ≠ 0 :=
    ⟨_, rfl, by decide⟩
  obtain ⟨hmore, -, hclock⟩ := poking_never_cuts_interest horder rfl hadmits he
  exact ⟨horder, rfl, hadmits, e, he, hinterest, hmore, hclock⟩

end Ledger

end Lending
