import Mathlib.Algebra.Ring.Nat
import Lending.Proofs.Interest
import Lending.Proofs.Reconciliation

/-!
# Every second is charged once

A pool that is charged by the clock keeps the time of its last charge, and the next charge is for
the seconds since. Hosts may name any times, in any order, and requests may be refused between, so
what has to be said is about whole histories: no second is charged twice and none is lost.

It comes down to one equation. A request that takes effect moves the clock of the pool on by the
seconds that it charges for, and not otherwise (`Ledger.accruedAt_of_attempt`). A refused request
leaves the ledger as it was, so its seconds are still to be charged; a request at a time that is
past charges for none. Along a history the seconds add up to the way that the clock has moved
(`Ledger.accruedAt_run`), and the clock shows the latest time of all requests that took effect
(`Ledger.latest_run`). None of this asks anything of the ledger at the start.
-/

set_option autoImplicit false

namespace Lending

open Quantity

/-- The time that a request names, if it goes by the clock. -/
def Request.time? : Request → Option Timestamp
  | charging _ _ _ => none
  | clocked _ _ _ now => some now

/-- The seconds that a request charges for on a ledger, if it takes effect: those from the last
charge up to the time that it names. -/
def Ledger.elapsed (l : Ledger) (r : Request) : Timestamp :=
  match r.time? with
  | none => 0
  | some now => Pool.clock l.pool.accruedAt now - l.pool.accruedAt

/-- The seconds that an event charged for. -/
def Event.elapsed (e : Event) : Timestamp := e.before.elapsed e.request

/-- The latest of a time and the times of the events. -/
def latest (start : Timestamp) (events : List Event) : Timestamp :=
  (events.filterMap fun e => e.request.time?).foldl max start

theorem latest_append (start : Timestamp) (es fs : List Event) :
    latest start (es ++ fs) = latest (latest start es) fs := by
  rw [latest, List.filterMap_append, List.foldl_append]
  rfl

namespace Ledger

variable {l : Ledger}

/-! ## One request -/

theorem toNat_elapsed (l : Ledger) (r : Request) :
    (l.elapsed r).toNat = (r.time?.getD 0).toNat - l.pool.accruedAt.toNat := by
  cases r with
  | charging caller action interest => exact (Nat.zero_sub _).symm
  | clocked caller action curve now =>
    show (Pool.clock l.pool.accruedAt now).toNat - l.pool.accruedAt.toNat = now.toNat - _
    rw [Pool.toNat_clock]
    omega

/-- A request that takes effect moves the clock on by the seconds that it charges for. -/
theorem accruedAt_of_attempt {r : Request} {e : Effect} (h : l.attempt r = .ok e) :
    e.ledger.pool.accruedAt.toNat = l.pool.accruedAt.toNat + (l.elapsed r).toNat := by
  obtain ⟨time, charged, acted, hdue, -, -, hstamp⟩ := exists_of_attempt h
  rw [hstamp]
  show time.toNat = _
  cases r with
  | charging caller action interest =>
    cases hdue
    rfl
  | clocked caller action curve now =>
    obtain ⟨rfl, -⟩ := Pool.pending_eq_ok_iff.mp hdue
    rw [toNat_elapsed, Pool.toNat_clock]
    rfl

/-- Then it shows the time that the request names, or its own if that is later. -/
theorem latest_of_attempt {r : Request} {e : Effect} (h : l.attempt r = .ok e) :
    e.ledger.pool.accruedAt = latest l.pool.accruedAt [⟨l, r, e⟩] := by
  rw [Quantity.ext_iff, accruedAt_of_attempt h, toNat_elapsed]
  cases r with
  | charging caller action interest =>
    show _ + (0 - _) = l.pool.accruedAt.toNat
    omega
  | clocked caller action curve now =>
    show _ + (now.toNat - _) = (max l.pool.accruedAt now).toNat
    rw [toNat_max]
    omega

/-- A request by the clock that takes effect charges the interest for the seconds since the last
charge, which is nothing if there are none. -/
theorem interest_of_attempt {caller : Key} {action : Action} {curve : RateCurve} {now : Timestamp}
    {e : Effect} (h : l.attempt (.clocked caller action curve now) = .ok e) :
    curve.interest l.pool.liquidity l.pool.borrowable
        (l.elapsed (.clocked caller action curve now)) = .ok e.interest ∧
      (l.elapsed (.clocked caller action curve now) = 0 → e.interest = 0) := by
  obtain ⟨time, -, -, hdue, -⟩ := exists_of_attempt h
  obtain ⟨rfl, hinterest⟩ := Pool.pending_eq_ok_iff.mp hdue
  refine ⟨hinterest, ?_⟩
  intro hnone
  obtain ⟨-, ⟨-, hnothing⟩ | ⟨hpos, -⟩⟩ := RateCurve.interest_cases hinterest
  · exact hnothing
  · exact absurd (eq_zero_iff.mp hnone) (Nat.ne_of_gt hpos)

/-- A step does not turn the clock back. Where it moves the clock, it is a request by the clock that
took effect, and the clock shows its time. -/
theorem accruedAt_after (l : Ledger) (s : Step) :
    l.pool.accruedAt ≤ (l.after s).pool.accruedAt ∧
      ((l.after s).pool.accruedAt ≠ l.pool.accruedAt →
        ∃ caller action curve e,
          s = .request (.clocked caller action curve (l.after s).pool.accruedAt) ∧
          l.attempt (.clocked caller action curve (l.after s).pool.accruedAt) = .ok e) := by
  have hstill : ∀ t : Timestamp, t ≤ t := fun t => Nat.le_refl t.toNat
  cases s with
  | setFees fees => exact ⟨hstill _, fun hmoved => absurd rfl hmoved⟩
  | request r =>
    rcases ledger_submit l r with ⟨e, he, hledger⟩ | ⟨-, hledger⟩
    · have hclock := accruedAt_of_attempt he
      rw [after, hledger]
      refine ⟨le_def.mpr (by omega), ?_⟩
      intro hmoved
      have hlater : (l.elapsed r).toNat ≠ 0 := fun hz => hmoved (Quantity.ext (by omega))
      rw [toNat_elapsed] at hclock hlater
      cases r with
      | charging caller action interest => exact absurd (Nat.zero_sub _) hlater
      | clocked caller action curve now =>
        have hnow : e.ledger.pool.accruedAt = now := by
          simp only [Request.time?, Option.getD_some] at hclock hlater
          exact Quantity.ext (by omega)
        exact ⟨caller, action, curve, e, by rw [hnow], by rw [hnow]; exact he⟩
    · rw [after, hledger]
      exact ⟨hstill _, fun hmoved => absurd rfl hmoved⟩

/-! ## Histories -/

/-- After a history the clock shows the latest time of its events. -/
theorem latest_run (steps : List Step) (l : Ledger) :
    (l.run steps).pool.accruedAt = latest l.pool.accruedAt (l.events steps) := by
  induction steps generalizing l with
  | nil => rfl
  | cons s rest ih =>
    cases s with
    | setFees fees => exact ih (l.withFees fees)
    | request r =>
      rcases l.events_request r rest with ⟨e, he, hevents, hrun⟩ | ⟨hevents, hrun⟩
      · rw [hevents, hrun, ih e.ledger, latest_of_attempt he, ← latest_append]
        rfl
      · rw [hevents, hrun]
        exact ih l

/-- It has moved on by the seconds that the events charged for. -/
theorem accruedAt_run (steps : List Step) (l : Ledger) :
    (l.run steps).pool.accruedAt.toNat =
      l.pool.accruedAt.toNat + ((l.events steps).map fun e => e.elapsed.toNat).sum := by
  induction steps generalizing l with
  | nil => rfl
  | cons s rest ih =>
    cases s with
    | setFees fees => exact ih (l.withFees fees)
    | request r =>
      rcases l.events_request r rest with ⟨e, he, hevents, hrun⟩ | ⟨hevents, hrun⟩
      · rw [hevents, hrun, ih e.ledger, accruedAt_of_attempt he, List.map_cons, List.sum_cons,
          Nat.add_assoc]
        rfl
      · rw [hevents, hrun]
        exact ih l

/-- An event met the ledger that the steps before it leave, and the events of those steps are the
events before it. -/
theorem exists_of_events {steps : List Step} {earlier later : List Event} {e : Event}
    (h : l.events steps = earlier ++ e :: later) :
    ∃ first, l.run first = e.before ∧ l.events first = earlier := by
  induction steps generalizing l earlier with
  | nil => exact absurd h.symm (by simp [events])
  | cons s rest ih =>
    cases s with
    | setFees fees =>
      obtain ⟨first, hrun, hevents⟩ := ih (l := l.withFees fees) h
      exact ⟨.setFees fees :: first, hrun, hevents⟩
    | request r =>
      rcases l.events_request r rest with ⟨e', he', hevents, -⟩ | ⟨hevents, -⟩
      · rw [hevents] at h
        cases earlier with
        | nil =>
          obtain ⟨rfl, -⟩ := List.cons.inj h
          exact ⟨[], rfl, rfl⟩
        | cons d earlier =>
          obtain ⟨rfl, hrest⟩ := List.cons.inj h
          obtain ⟨first, hrun, hfirst⟩ := ih hrest
          obtain ⟨hevents', hrun'⟩ := events_of_attempt he' first
          exact ⟨.request r :: first, hrun'.trans hrun, by rw [hevents', hfirst]⟩
      · exact ih (hevents ▸ h)

/-- Whatever a ledger goes through, at whichever times and whatever is refused: its clock ends at
the latest time of the requests by the clock that took effect, or where it started, and the seconds
that these charged for are all the seconds between, each of them once. Each of them charged the
interest for the seconds since the latest time before it, and for none if its own was not later. No
step turns the clock back, and none moves it but such a request. -/
theorem every_second_is_charged_once (l : Ledger) (steps : List Step) :
    (l.run steps).pool.accruedAt = latest l.pool.accruedAt (l.events steps) ∧
    ((l.events steps).map fun e => e.elapsed.toNat).sum + l.pool.accruedAt.toNat =
      (l.run steps).pool.accruedAt.toNat ∧
    (∀ earlier e later, l.events steps = earlier ++ e :: later →
      ∀ caller action curve now, e.request = .clocked caller action curve now →
        curve.interest e.before.pool.liquidity e.before.pool.borrowable e.elapsed =
          .ok e.effect.interest ∧
        e.elapsed.toNat = now.toNat - (latest l.pool.accruedAt earlier).toNat ∧
        (e.elapsed = 0 → e.effect.interest = 0)) ∧
    ∀ s : Step,
      (l.run steps).pool.accruedAt ≤ ((l.run steps).after s).pool.accruedAt ∧
      (((l.run steps).after s).pool.accruedAt ≠ (l.run steps).pool.accruedAt →
        ∃ caller action curve e,
          s = .request (.clocked caller action curve ((l.run steps).after s).pool.accruedAt) ∧
          (l.run steps).attempt
            (.clocked caller action curve ((l.run steps).after s).pool.accruedAt) = .ok e) := by
  refine ⟨latest_run steps l, ?_, ?_, accruedAt_after (l.run steps)⟩
  · rw [accruedAt_run steps l, Nat.add_comm]
  · intro earlier e later hsplit caller action curve now hrequest
    have hmem : e ∈ l.events steps := hsplit ▸ List.mem_append_right earlier List.mem_cons_self
    have hattempt := attempt_of_mem_events steps l hmem
    obtain ⟨first, hrun, hevents⟩ := exists_of_events hsplit
    have hbefore : e.before.pool.accruedAt = latest l.pool.accruedAt earlier := by
      rw [← hrun, ← hevents]
      exact latest_run first l
    have helapsed : e.elapsed.toNat = now.toNat - (latest l.pool.accruedAt earlier).toNat := by
      rw [Event.elapsed, toNat_elapsed, hrequest, hbefore]
      rfl
    rw [hrequest] at hattempt
    obtain ⟨hinterest, hnone⟩ := interest_of_attempt hattempt
    rw [← hrequest] at hinterest hnone
    exact ⟨hinterest, helapsed, hnone⟩

/-- A loan at a time that is past, a request that is refused at twenty, a charge that names its
interest, and a charge for the time since ten. -/
def lateCharge : List Step :=
  [.request (.clocked 0 (.mint ⟨44, by decide⟩) {} ⟨10, by decide⟩),
    .request (.clocked 0 (.borrow ⟨27, by decide⟩) {} ⟨6, by decide⟩),
    .request (.clocked 0 (.withdraw ⟨1, by decide⟩) {} ⟨20, by decide⟩),
    .request (.charging 0 .accrue ⟨2, by decide⟩),
    .request (.clocked 0 .accrue ⟨0, Rate.one, 0, 0⟩ ⟨31, by decide⟩)]

/-- One more charge, two seconds later. -/
def laterCharge : Step := .request (.clocked 0 .accrue {} ⟨33, by decide⟩)

theorem late_charge_is_for_all_the_time :
    ((genesis.events lateCharge).map fun e => e.elapsed.toNat).sum = 31 ∧
    (∃ earlier e, genesis.events lateCharge = earlier ++ [e] ∧
      e.request = .clocked 0 .accrue ⟨0, Rate.one, 0, 0⟩ ⟨31, by decide⟩ ∧
      e.elapsed.toNat = 31 - 10 ∧
      RateCurve.interest ⟨0, Rate.one, 0, 0⟩ e.before.pool.liquidity e.before.pool.borrowable
        e.elapsed = .ok e.effect.interest ∧ e.effect.interest.toNat = 609) ∧
    ((genesis.run lateCharge).after laterCharge).pool.accruedAt ≠
      (genesis.run lateCharge).pool.accruedAt ∧
    ∃ caller action curve e, (genesis.run lateCharge).attempt (.clocked caller action curve
      ((genesis.run lateCharge).after laterCharge).pool.accruedAt) = .ok e := by
  obtain ⟨-, hsum, hevents, hstep⟩ := every_second_is_charged_once genesis lateCharge
  have hend : (genesis.run lateCharge).pool.accruedAt.toNat = 31 := rfl
  refine ⟨hsum.trans hend, ?_, ?_⟩
  · obtain ⟨earlier, e, hsplit, hrequest, hlatest, hinterest⟩ : ∃ earlier e,
        genesis.events lateCharge = earlier ++ [e] ∧
        e.request = .clocked 0 .accrue ⟨0, Rate.one, 0, 0⟩ ⟨31, by decide⟩ ∧
        (latest genesis.pool.accruedAt earlier).toNat = 10 ∧ e.effect.interest.toNat = 609 :=
      ⟨[_, _, _], _, rfl, rfl, rfl, rfl⟩
    obtain ⟨hcharged, helapsed, -⟩ := hevents earlier e [] hsplit _ _ _ _ hrequest
    rw [hlatest] at helapsed
    exact ⟨earlier, e, hsplit, hrequest, helapsed, hcharged, hinterest⟩
  · have hmoved : ((genesis.run lateCharge).after laterCharge).pool.accruedAt ≠
        (genesis.run lateCharge).pool.accruedAt := by decide
    obtain ⟨-, hrequest⟩ := hstep laterCharge
    obtain ⟨caller, action, curve, e, -, he⟩ := hrequest hmoved
    exact ⟨hmoved, caller, action, curve, e, he⟩

end Ledger

end Lending
