import Lending.Proofs.Carrying
import Lending.Proofs.Interest
import Lending.Proofs.Soundness

/-!
# To charge first and act later

An action is a charge of interest with something after it, so to charge the interest in a request
of its own, and then to ask for the action at no interest, should be the same. It is as far as the
host can see (`Outcome.Agrees`): the same receipt with the same ledger after it, or the same fault.

By the clock there is more to it, because the charge also leaves a stamp, and the action that
follows meets it. No rule of an action reads the stamp, and all carry it along (`Ledger.act_stamp`).
And at the time of the last charge nothing more is owed, whatever the curve
(`Pool.pending_of_le`).
-/

set_option autoImplicit false

namespace Lending

open Quantity

/-- Two outcomes tell a host the same: one receipt and one ledger, or one fault. -/
structure Outcome.Agrees {ε : Type} (o o' : Outcome ε) : Prop where
  result : o.result = o'.result
  ledger {r : Receipt} (h : o.result = .ok r) : o.ledger = o'.ledger

/-! ## The stamp is carried along -/

namespace Position

/-- The position against a pool that is stamped. -/
def stamp (p : Position) (time : Timestamp) : Position :=
  { p with pool := { p.pool with accruedAt := time } }

variable (p : Position) (time : Timestamp)

theorem deposit_stamp (amount : Amount) :
    (p.stamp time).deposit amount = (·.stamp time) <$> p.deposit amount := by
  simp only [deposit, map_bind, map_pure]
  rfl

theorem withdraw_stamp (amount : Amount) :
    (p.stamp time).withdraw amount = (·.stamp time) <$> p.withdraw amount := by
  simp only [withdraw, map_bind, map_pure]
  rfl

theorem repayWithCash_stamp (cash : Amount) :
    (p.stamp time).repayWithCash cash =
      (Prod.map id (·.stamp time)) <$> p.repayWithCash cash :=
  p.repayWithCash_aside (fun _ => time) id id cash

theorem liquidate_stamp (cash : Amount) :
    (p.stamp time).liquidate cash = (Prod.map id (·.stamp time)) <$> p.liquidate cash := by
  simp only [liquidate, repayWithCash_stamp, map_bind, map_pure, bind_map_left]
  rfl

end Position

namespace Ledger

variable (l : Ledger) (time : Timestamp)

theorem carries_stamp : Carries (·.stamp time) (fun _ => time) id fun _ => id where
  fees _ := rfl
  allowances _ := rfl
  pool _ := rfl
  account _ _ := rfl
  withPool _ _ := rfl
  withAllowances _ _ := rfl
  withFees _ _ := rfl
  setAccount _ _ _ := rfl

/-- No action reads the stamp. -/
theorem act_stamp (caller : Key) (action : Action) :
    (l.stamp time).act caller action = (Prod.map id (·.stamp time)) <$> l.act caller action := by
  have hposition : ∀ holder, (l.stamp time).position holder = (l.position holder).stamp time :=
    fun _ => rfl
  cases action with
  | deposit amount =>
    simp only [act, hposition, Position.deposit_stamp, map_bind, map_pure, bind_map_left]
    rfl
  | withdraw amount =>
    simp only [act, hposition, Position.withdraw_stamp, map_bind, map_pure, bind_map_left]
    rfl
  | liquidate victim cash =>
    simp only [act, hposition, Position.liquidate_stamp, map_bind, map_pure, bind_map_left]
    rfl
  | mint _ | burn _ | borrow _ | repay _ | repayFor _ _ | accrue | approve _ _ | transfer _ _
  | transferFrom _ _ _ | raiseAllowance _ _ | lowerAllowance _ _ =>
    exact (carries_stamp time).act l caller id

end Ledger

/-! ## Nothing is owed twice for the same time -/

theorem Pool.clock_of_le {accruedAt now : Timestamp} (h : now ≤ accruedAt) :
    clock accruedAt now = accruedAt := by
  rw [le_def] at h
  rw [clock, Quantity.ext_iff, toNat_max]
  omega

/-- A solvent pool owes nothing at a time up to which it is charged already. -/
theorem Pool.pending_of_le {pool : Pool} (hsolvent : pool.Solvent) (curve : RateCurve)
    {now : Timestamp} (h : now ≤ pool.accruedAt) :
    pool.pending curve now = .ok (0, pool.accruedAt) := by
  have hlent : pool.liquidity.sub? pool.borrowable = some (pool.liquidity - pool.borrowable) :=
    if_pos hsolvent
  have helapsed : pool.accruedAt - pool.accruedAt = 0 :=
    Quantity.ext (Nat.sub_self pool.accruedAt.toNat)
  simp only [pending, RateCurve.interest, clock_of_le h, helapsed, hlent]
  rfl

/-- What a pool owes is found only if it is solvent, and it is owed up to the time given or to the
last charge, whichever is later. -/
theorem Pool.time_of_pending {pool : Pool} {curve : RateCurve} {now time : Timestamp}
    {interest : Amount} (h : pool.pending curve now = .ok (interest, time)) :
    pool.Solvent ∧ now ≤ time := by
  obtain ⟨rfl, hi⟩ := pending_eq_ok_iff.mp h
  refine ⟨(RateCurve.interest_cases hi).1, ?_⟩
  rw [le_def, toNat_clock]
  omega

/-! ## Charging first -/

namespace Ledger

variable {l charged : Ledger} {caller : Key} {action : Action} {interest : Amount}

theorem applyAt_of_accrue {curve : RateCurve} {now time : Timestamp}
    (hdue : l.pool.pending curve now = .ok (interest, time))
    (h : l.accrue interest = .ok charged) :
    l.applyAt caller action curve now =
      (fun x => ⟨x.1, interest, x.2.stamp time⟩) <$> charged.act caller action := by
  rw [applyAt, hdue]
  show (l.apply caller action interest >>= _) = _
  rw [apply_of_accrue h, bind_map_left]
  rfl

/-- Two attempts that go alike are told alike, whichever interest each of them charged. -/
theorem agrees_commit {l' : Ledger} {α : Type} {x : Except Fault α} {f g : α → Effect}
    (hreceipt : ∀ a, (f a).receipt = (g a).receipt) (hledger : ∀ a, (f a).ledger = (g a).ledger) :
    (l.commit (f <$> x)).Agrees (l'.commit (g <$> x)) := by
  cases x with
  | ok a =>
    refine ⟨congrArg Except.ok (hreceipt a), ?_⟩
    intro r _
    exact hledger a
  | error cause =>
    refine ⟨rfl, ?_⟩
    intro r h
    cases h

theorem exists_accrue (h : l.pool.liquidity.toNat + interest.toNat < capacity 128) :
    ∃ charged, l.accrue interest = .ok charged :=
  ⟨_, accrue_eq_ok_iff.mpr ⟨⟨l.pool.liquidity.toNat + interest.toNat, h⟩, rfl, rfl⟩⟩

/-- Whatever a ledger holds and whoever asks for what, it is the same to ask at some interest, or to
have it charged by a request before, which may be anybody's, and to ask at none. By the clock it is
the same to ask at a time, or to have the interest up to then charged before and to ask then. -/
theorem charging_first_agrees (l : Ledger) (caller other : Key) (action : Action) :
    (∀ interest : Amount, l.pool.liquidity.toNat + interest.toNat < capacity 128 →
      ∃ first, l.apply other .accrue interest = .ok first ∧
        (first.ledger.submit (.charging caller action 0)).Agrees
          (l.submit (.charging caller action interest))) ∧
    ∀ (curve : RateCurve) (now : Timestamp) (first : Effect),
      l.applyAt other .accrue curve now = .ok first →
      (first.ledger.submit (.clocked caller action curve now)).Agrees
        (l.submit (.clocked caller action curve now)) := by
  refine ⟨?_, ?_⟩
  · intro interest hroom
    obtain ⟨charged, hcharged⟩ := exists_accrue hroom
    refine ⟨⟨.accrued charged.pool.liquidity, interest, charged⟩, ?_, ?_⟩
    · rw [apply_of_accrue hcharged]
      rfl
    · rw [submit, submit, attempt, attempt, apply_of_accrue hcharged,
        apply_of_accrue (accrue_zero charged)]
      exact agrees_commit (fun _ => rfl) fun _ => rfl
  · intro curve now first hfirst
    obtain ⟨time, charged, -, hdue, hcharged, -⟩ :=
      exists_of_attempt (r := .clocked other .accrue curve now) hfirst
    have hafter : first.ledger = charged.stamp time := by
      rw [applyAt_of_accrue hdue hcharged] at hfirst
      exact (congrArg Effect.ledger (Except.ok.inj hfirst)).symm
    obtain ⟨hsolvent, htime⟩ := Pool.time_of_pending hdue
    -- The second request meets the stamp of the first one, so it finds that nothing is due.
    have hsolvent' : (charged.stamp time).pool.Solvent := by
      show charged.pool.Solvent
      exact solvent_of_accrue hsolvent hcharged
    have hagain := Pool.pending_of_le hsolvent' curve htime
    rw [hafter, submit, submit, attempt, attempt, applyAt_of_accrue hdue hcharged,
      applyAt_of_accrue hagain (accrue_zero _), act_stamp, ← comp_map]
    exact agrees_commit (fun _ => rfl) fun _ => rfl

/-- The sole holder repays two bonds at a given interest, and at one that a curve charges. -/
theorem charging_first_agrees_on_repayment :
    (∃ first, soleHolder.apply ⟨List.replicate 32 6, rfl⟩ .accrue ⟨8, by decide⟩ = .ok first ∧
      (first.ledger.submit (.charging 0 (.repay ⟨2, by decide⟩) 0)).Agrees
        (soleHolder.submit (.charging 0 (.repay ⟨2, by decide⟩) ⟨8, by decide⟩))) ∧
    ∃ first, soleHolder.applyAt ⟨List.replicate 32 6, rfl⟩ .accrue
        ⟨0, ⟨90000000000000000, by decide⟩, 0, 0⟩ ⟨60, by decide⟩ = .ok first ∧
      first.interest ≠ 0 ∧
      (first.ledger.submit (.clocked 0 (.repay ⟨2, by decide⟩)
          ⟨0, ⟨90000000000000000, by decide⟩, 0, 0⟩ ⟨60, by decide⟩)).Agrees
        (soleHolder.submit (.clocked 0 (.repay ⟨2, by decide⟩)
          ⟨0, ⟨90000000000000000, by decide⟩, 0, 0⟩ ⟨60, by decide⟩)) := by
  obtain ⟨hgiven, hclocked⟩ := charging_first_agrees soleHolder 0 ⟨List.replicate 32 6, rfl⟩
    (.repay ⟨2, by decide⟩)
  obtain ⟨first, hfirst, hinterest⟩ : ∃ first, soleHolder.applyAt ⟨List.replicate 32 6, rfl⟩ .accrue
      ⟨0, ⟨90000000000000000, by decide⟩, 0, 0⟩ ⟨60, by decide⟩ = .ok first ∧
      first.interest ≠ 0 := ⟨_, rfl, by decide⟩
  exact ⟨hgiven _ (by decide), first, hfirst, hinterest, hclocked _ _ first hfirst⟩

end Ledger

end Lending
