import Lending.Proofs.Auditing
import Lending.Proofs.Turnover

/-!
# Sound ledgers stay sound

A ledger is sound if its pool is solvent and its accounts sum to its totals. This file says that no
request makes a sound ledger unsound, whoever asks for what at whichever interest, and whether or
not the request takes effect (`Ledger.kept_sound`). What is asked may name the same holder twice:
nothing here depends on the holders being different ones, since the sums of `Sums` do not.

Solvency is the half that rests on rounding. Minting and burning move the liquidity and what is
borrowable by the same amount, borrowing lowers only the latter, and the three ways to pay a debt
are refused if they would credit more than is lent out.

An audit decides exactly this (`Ledger.audit_eq_ok_iff`), so what is sound passes its audit.
-/

set_option autoImplicit false

namespace Lending

namespace Ledger

variable {l : Ledger}

/-- The pool is solvent and the accounts sum to its totals. -/
structure Sound (l : Ledger) : Prop where
  solvent : l.pool.Solvent
  balanced : l.Balanced

theorem sound_iff : l.Sound ↔ l.audit = .ok () :=
  ⟨fun h => audit_eq_ok_iff.mpr ⟨h.solvent, h.balanced⟩,
    fun h => ⟨(audit_eq_ok_iff.mp h).1, (audit_eq_ok_iff.mp h).2⟩⟩

end Ledger

/-! ## Solvency -/

/-- A trade with a solvent pool leaves it solvent. -/
theorem Position.Trades.solvent {fees : FeeSchedule} {p q : Position} {action : Action}
    {r : Receipt} (h : p.Trades fees action r q) (hp : p.pool.Solvent) : q.pool.Solvent := by
  have hliquidity := h.settles.1.liquidity
  have hborrowable := h.settles.1.borrowable
  simp only [Pool.Solvent, Quantity.le_def] at hp ⊢
  cases h with
  | deposit _ | withdraw _ | mint _ _ | burn _ | borrow _ _ =>
    -- What is borrowable gains no more than the liquidity does.
    simp only [Receipt.turnover] at hliquidity hborrowable
    omega
  | repay h =>
    obtain ⟨-, _, _, _, -, -, hle, -, rfl⟩ := repay_eq_ok_iff.mp h
    exact hle
  | liquidate h =>
    obtain ⟨-, _, _, _, _, _, -, hle, -, -, -, -, rfl⟩ := exists_of_liquidate h
    exact hle
  | repayFor h =>
    obtain ⟨-, -, _, _, _, -, hle, -, -, rfl⟩ := exists_of_repayWithCash h
    exact hle

namespace Ledger

variable {l after : Ledger}

/-! ## Every step -/

theorem solvent_of_accrue {interest : Amount} (hl : l.pool.Solvent)
    (h : l.accrue interest = .ok after) : after.pool.Solvent := by
  obtain ⟨liquidity, hliquidity, rfl⟩ := accrue_eq_ok_iff.mp h
  simp only [Pool.Solvent, Quantity.le_def] at hl ⊢
  omega

theorem Sound.accrue {interest : Amount} (hl : l.Sound) (h : l.accrue interest = .ok after) :
    after.Sound := by
  refine ⟨solvent_of_accrue hl.solvent h, ?_⟩
  -- Interest is added to the liquidity, and to no account.
  obtain ⟨liquidity, -, rfl⟩ := accrue_eq_ok_iff.mp h
  exact hl.balanced

theorem Sound.act {caller : Key} {action : Action} {r : Receipt} (hl : l.Sound)
    (h : l.Acts caller action r after) : after.Sound := by
  refine ⟨?_, h.balanced hl.balanced⟩
  rcases h.pool_cases with ⟨q, hq, hpool⟩ | hpool
  · rw [hpool]
    exact hq.solvent hl.solvent
  · rw [hpool]
    exact hl.solvent

theorem kept_sound : Kept Sound where
  accrue := .accrue
  act := .act
  stamp _ hl := ⟨hl.solvent, hl.balanced⟩
  withFees _ hl := ⟨hl.solvent, hl.balanced⟩

theorem sound_genesis : genesis.Sound := ⟨Nat.le_refl 0, rfl, rfl, rfl⟩

/-- A ledger that passes its audit passes it after any request, at whichever fees and interest and
whether the request takes effect or not. An untouched ledger passes it, so after every step of every
history no more is borrowable than there is liquidity, and the accounts sum to the totals. -/
theorem audit_passes_at_every_step {l : Ledger} (h : l.audit = .ok ()) (request : Request) :
    (l.submit request).ledger.audit = .ok () ∧ genesis.audit = .ok () ∧
      ∀ steps : List Step,
        (genesis.run steps).audit = .ok () ∧
        (genesis.run steps).pool.borrowable ≤ (genesis.run steps).pool.liquidity ∧
        (genesis.run steps).sum Account.collateral =
          (genesis.run steps).pool.collateral.toNat ∧
        (genesis.run steps).sum Account.shares = (genesis.run steps).pool.shares.toNat ∧
        (genesis.run steps).sum Account.bonds = (genesis.run steps).pool.bonds.toNat := by
  refine ⟨sound_iff.mp (kept_sound.submit (sound_iff.mpr h) request), sound_iff.mp sound_genesis, ?_⟩
  intro steps
  have hrun := kept_sound.run sound_genesis steps
  exact ⟨sound_iff.mp hrun, hrun.solvent, hrun.balanced⟩

/-- One holder with collateral, shares and bonds, in a pool where a bond is worth more than one. -/
def soleHolder : Ledger :=
  ofParts ⟨⟨10, by decide⟩, ⟨9, by decide⟩, ⟨7, by decide⟩, ⟨4, by decide⟩, ⟨3, by decide⟩, 0, 0⟩
    [(0, ⟨⟨10, by decide⟩, ⟨7, by decide⟩, ⟨3, by decide⟩⟩)]

/-- The holder liquidates himself. -/
theorem audit_passes_after_own_liquidation :
    soleHolder.audit = .ok () ∧
      (soleHolder.submit (.charging 0 (.liquidate 0 ⟨5, by decide⟩) ⟨1, by decide⟩)).ledger.audit =
        .ok () :=
  ⟨rfl, (audit_passes_at_every_step rfl _).1⟩

end Ledger

end Lending
