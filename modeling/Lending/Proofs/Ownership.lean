import Lending.Proofs.Borrowing
import Lending.Proofs.Interest
import Lending.Proofs.SharePrice

/-!
# Who owns the liquidity, and who owes the debt

Two things can go wrong with a pool that no audit sees: liquidity of which there are no shares, and
debt for which there are no bonds. The first belongs to nobody and the second is owed by nobody.
`Pool.Owned` says that there is neither.

No trade breaks it (`Position.Trades.owned`). A first mint and a first loan are priced at one for a
unit, so something comes with shares or bonds whenever it comes from nothing; and the last share is
worth all the liquidity and the last bond all the debt, because of the whole there is nothing to
round. So a pool loses its last owner only when there is nothing left to own.

Interest can break it, and only because a host may name it freely: interest on a pool without
shares, or without loans, is ownerless at once. A rate curve never charges such interest. Where a
host charges by the clock alone, value has owners at the end of every history
(`Ledger.clocked_value_is_owned`), and since prices are at least one (`Pool.Priced`) there are no
owners without value either.
-/

set_option autoImplicit false

namespace Lending

open Quantity

/-- Where there is liquidity there are shares of it, and where there is debt there are bonds. -/
structure Pool.Owned (pool : Pool) : Prop where
  liquidity_eq_zero : pool.shares.toNat = 0 → pool.liquidity.toNat = 0
  lent_eq_zero : pool.bonds.toNat = 0 → pool.lent = 0

namespace Pool

variable {pool : Pool} {shares bonds cash held v : Amount}

theorem Owned.not_ownerlessDebt (h : pool.Owned) : ¬pool.OwnerlessDebt := by
  intro hownerless
  obtain ⟨hnone, hlent⟩ := hownerless
  have hz := h.lent_eq_zero (eq_zero_iff.mp hnone)
  omega

/-! ## The whole of the shares, and the whole of the bonds -/

theorem liquidityFor_whole (ho : pool.shares.toNat = 0 → pool.liquidity.toNat = 0)
    (hall : shares.toNat = pool.shares.toNat) (h : pool.liquidityFor shares = .ok v) :
    v.toNat = pool.liquidity.toNat := by
  rcases liquidityFor_cases h with ⟨hnone, rfl⟩ | ⟨hpos, hrounds⟩
  · exact (ho hnone).symm
  · rw [hall] at hrounds
    exact hrounds.eq_whole hpos

/-- Nothing is asked of the pool here: without bonds, too, the whole debt is retired. -/
theorem debtFor_whole (hall : bonds.toNat = pool.bonds.toNat)
    (h : pool.debtFor bonds = .ok v) : v.toNat = pool.lent := by
  rcases debtFor_cases h with ⟨-, hwhole⟩ | ⟨hpos, hrounds⟩
  · exact hwhole
  · rw [hall] at hrounds
    exact hrounds.eq_whole hpos

theorem Owned.convert_whole {c : Conversion 128} (ho : pool.Owned)
    (hall : c.burned.toNat = pool.bonds.toNat) (h : pool.convert cash held = .ok c) :
    c.repaid.toNat = pool.lent := by
  rcases (convert_cases h).2 with ⟨hnone, hfree⟩ | ⟨hpos, hrounds⟩
  · rw [hfree, ho.lent_eq_zero hnone]
    rfl
  · rw [hall] at hrounds
    exact hrounds.eq_whole hpos

end Pool

/-! ## One action -/

namespace Position

variable {fees : FeeSchedule} {p q : Position} {action : Action} {r : Receipt}

/-- Liquidity that was owned is owned after a trade. -/
theorem Trades.liquidity_eq_zero (h : p.Trades fees action r q)
    (ho : p.pool.shares.toNat = 0 → p.pool.liquidity.toNat = 0)
    (hnone : q.pool.shares.toNat = 0) : q.pool.liquidity.toNat = 0 := by
  obtain ⟨-, hliquidity, -, hshares, -⟩ := h.settles.1
  cases h with
  | deposit _ | withdraw _ | borrow _ _ | repay _ | liquidate _ | repayFor _ =>
    simp only [Receipt.turnover, Nat.add_zero] at hliquidity hshares
    rw [hliquidity]
    exact ho (hshares.symm.trans hnone)
  | @mint amount fee n _ hfee h =>
    simp only [Receipt.turnover, Nat.add_zero] at hliquidity hshares
    have hempty := ho (by omega)
    -- A mint that brings no shares into an empty pool brings nothing, and has no fee.
    have hamount : amount = 0 := by
      rcases Pool.sharesFor_cases (mint_eq_ok_iff.mp h).1 with ⟨-, rfl⟩ | ⟨hpos, -⟩
      · exact eq_zero_iff.mpr (by omega)
      · omega
    rw [hamount] at hfee hliquidity
    rw [FeeSchedule.fee_of_zero hfee, toNat_zero] at hliquidity
    omega
  | burn h =>
    simp only [Receipt.turnover, Nat.add_zero] at hliquidity hshares
    have hwhole := Pool.liquidityFor_whole ho (by omega) (burn_eq_ok_iff.mp h).1
    omega

/-- Debt that was owned is owned after a trade. -/
theorem Trades.lent_eq_zero (h : p.Trades fees action r q) (hsolvent : p.pool.Solvent)
    (ho : p.pool.Owned) (hnone : q.pool.bonds.toNat = 0) : q.pool.lent = 0 := by
  have hlent := h.settles.1.lent hsolvent (h.solvent hsolvent)
  have hbonds := h.settles.1.bonds
  cases h with
  | deposit _ | withdraw _ | mint _ _ | burn _ =>
    simp only [Receipt.turnover, Nat.add_zero] at hlent hbonds
    rw [hlent]
    exact ho.lent_eq_zero (hbonds.symm.trans hnone)
  | borrow _ h =>
    simp only [Receipt.turnover, Nat.add_zero] at hlent hbonds
    have hnothing := ho.lent_eq_zero (by omega)
    obtain ⟨owed, howed, hquote, -⟩ := borrow_eq_ok_iff.mp h
    rcases Pool.bondsFor_cases hquote with ⟨-, rfl⟩ | ⟨hpos, -⟩
    · omega
    · omega
  | repay h =>
    simp only [Receipt.turnover, Nat.add_zero] at hlent hbonds
    have hwhole := Pool.debtFor_whole (by omega) (repay_eq_ok_iff.mp h).1
    omega
  | liquidate h =>
    simp only [Receipt.turnover, Nat.add_zero] at hlent hbonds
    have hwhole := ho.convert_whole (by omega) (exists_of_liquidate h).1
    omega
  | repayFor h =>
    simp only [Receipt.turnover, Nat.add_zero] at hlent hbonds
    have hwhole := ho.convert_whole (by omega) (exists_of_repayWithCash h).1
    omega

theorem Trades.owned (h : p.Trades fees action r q) (hsolvent : p.pool.Solvent)
    (ho : p.pool.Owned) : q.pool.Owned :=
  ⟨h.liquidity_eq_zero ho.liquidity_eq_zero, h.lent_eq_zero hsolvent ho⟩

end Position

namespace Ledger

variable {l after : Ledger}

theorem Acts.owned {caller : Key} {action : Action} {r : Receipt}
    (h : l.Acts caller action r after) (hsolvent : l.pool.Solvent) (ho : l.pool.Owned) :
    after.pool.Owned := by
  rcases h.pool_cases with ⟨q, hq, hpool⟩ | hpool
  · rw [hpool]
    exact hq.owned hsolvent ho
  · rw [hpool]
    exact ho

end Ledger

/-! ## Interest by the clock -/

/-- A rate curve charges nothing where nothing is lent out. -/
theorem Pool.eq_zero_of_pending {pool : Pool} {curve : RateCurve} {now time : Timestamp}
    {interest : Amount} (hnothing : pool.lent = 0)
    (h : pool.pending curve now = .ok (interest, time)) : interest = 0 := by
  obtain ⟨-, hi⟩ := pending_eq_ok_iff.mp h
  obtain ⟨-, ⟨-, hzero⟩ | ⟨-, hsome, -⟩⟩ := RateCurve.interest_cases hi
  · exact hzero
  · exact absurd hnothing (Nat.ne_of_gt hsome)

/-- Interest that is charged only where something is lent out has owners, and so has the debt that
it is added to. -/
theorem Pool.Owned.charge {pool : Pool} {interest liquidity : Amount} (ho : pool.Owned)
    (hsolvent : pool.Solvent) (hcharged : pool.lent = 0 → interest = 0)
    (h : liquidity.toNat = pool.liquidity.toNat + interest.toNat) :
    { pool with liquidity }.Owned := by
  have hnone : pool.lent = 0 → interest.toNat = 0 := fun hz => eq_zero_iff.mp (hcharged hz)
  have hlent := hsolvent.lent_add
  refine ⟨?_, ?_⟩
  · intro hshares
    have hempty := ho.liquidity_eq_zero hshares
    have hfree := hnone (by omega)
    show liquidity.toNat = 0
    omega
  · intro hbonds
    have hnothing := ho.lent_eq_zero hbonds
    have hfree := hnone hnothing
    show liquidity.toNat - pool.borrowable.toNat = 0
    omega

/-! ## Histories by the clock -/

/-- The step charges no interest but what a rate curve says. -/
def Step.Clocked : Step → Prop
  | .request (.clocked _ _ _ _) | .setFees _ => True
  | .request (.charging _ _ _) => False

instance : DecidablePred Step.Clocked
  | .request (.clocked _ _ _ _) | .setFees _ => isTrue trivial
  | .request (.charging _ _ _) => isFalse id

namespace Ledger

variable {l after : Ledger}

/-- What a request by the clock charges keeps value owned, whatever it goes on to do. -/
theorem Healthy.owned_accrue (hl : l.Healthy) (ho : l.pool.Owned) {curve : RateCurve}
    {now time : Timestamp} {interest : Amount} {charged : Ledger}
    (hdue : l.pool.pending curve now = .ok (interest, time))
    (hcharged : l.accrue interest = .ok charged) : charged.pool.Owned := by
  obtain ⟨liquidity, hliquidity, rfl⟩ := accrue_eq_ok_iff.mp hcharged
  exact ho.charge hl.solvent (fun hnothing => Pool.eq_zero_of_pending hnothing hdue) hliquidity

theorem Healthy.owned_after (hl : l.Healthy) (ho : l.pool.Owned) {s : Step} (hs : s.Clocked) :
    (l.after s).pool.Owned := by
  cases s with
  | setFees fees => exact ho
  | request r =>
    cases r with
    | charging caller action interest => cases hs
    | clocked caller action curve now =>
      rcases ledger_submit l (.clocked caller action curve now) with ⟨e, he, hledger⟩ | ⟨-, hledger⟩
      · obtain ⟨time, charged, acted, hdue, hcharged, hacts, hstamp⟩ := exists_of_attempt he
        rw [after, hledger, hstamp]
        have hacted := hacts.owned (hl.accrue hcharged).solvent (hl.owned_accrue ho hdue hcharged)
        exact ⟨hacted.liquidity_eq_zero, hacted.lent_eq_zero⟩
      · rw [after, hledger]
        exact ho

theorem Healthy.owned_run {steps : List Step} (hl : l.Healthy) (ho : l.pool.Owned)
    (hsteps : ∀ s ∈ steps, s.Clocked) : (l.run steps).pool.Owned := by
  induction steps generalizing l with
  | nil => exact ho
  | cons s rest ih =>
    rw [run_cons]
    have hstep := hl.owned_after ho (hsteps s List.mem_cons_self)
    exact ih (kept_healthy.run hl [s]) hstep fun s' hs' => hsteps s' (List.mem_cons_of_mem s hs')

/-- At the end of every history by the clock that starts from nothing, there are shares exactly if
there is liquidity and bonds exactly if there is debt. So somebody holds the shares and somebody the
bonds, and whoever borrows next is assigned bonds for it. -/
theorem clocked_value_is_owned {steps : List Step} (h : ∀ s ∈ steps, s.Clocked) :
    let l := genesis.run steps
    (l.pool.shares = 0 ↔ l.pool.liquidity = 0) ∧
    (l.pool.bonds = 0 ↔ l.pool.liquidity = l.pool.borrowable) ∧
    (l.pool.liquidity ≠ 0 → ∃ holder, (l.account holder).shares ≠ 0) ∧
    (l.pool.liquidity ≠ l.pool.borrowable → ∃ holder, (l.account holder).bonds ≠ 0) ∧
    ∀ caller amount curve now e, l.applyAt caller (.borrow amount) curve now = .ok e →
      ∃ bonds fee, e.receipt = .borrowed amount bonds fee ∧
        (0 < amount.toNat + fee.toNat → bonds ≠ 0) := by
  intro l
  have hl : l.Healthy := healthy_run steps
  have ho : l.pool.Owned := healthy_genesis.owned_run ⟨fun _ => rfl, fun _ => rfl⟩ h
  have hshares : l.pool.shares = 0 ↔ l.pool.liquidity = 0 := by
    have hpriced := hl.priced.shares_le
    rw [eq_zero_iff, eq_zero_iff]
    exact ⟨ho.liquidity_eq_zero, by omega⟩
  have hbonds : l.pool.bonds = 0 ↔ l.pool.liquidity = l.pool.borrowable := by
    have hpriced := hl.priced.bonds_le
    have hlent := hl.solvent.lent_add
    rw [eq_zero_iff, Quantity.ext_iff]
    constructor
    · intro hnone
      have hnothing := ho.lent_eq_zero hnone
      omega
    · intro hsame
      omega
  refine ⟨hshares, hbonds, ?_, ?_, ?_⟩
  · intro hsome
    have hpos : 0 < l.sum Account.shares :=
      hl.balanced.2.1 ▸ Nat.pos_of_ne_zero fun hz => hsome (hshares.mp (eq_zero_iff.mpr hz))
    obtain ⟨holder, hheld⟩ := exists_of_sum_pos hpos
    exact ⟨holder, fun hz => absurd (eq_zero_iff.mp hz) (by omega)⟩
  · intro hsome
    have hpos : 0 < l.sum Account.bonds :=
      hl.balanced.2.2 ▸ Nat.pos_of_ne_zero fun hz => hsome (hbonds.mp (eq_zero_iff.mpr hz))
    obtain ⟨holder, hheld⟩ := exists_of_sum_pos hpos
    exact ⟨holder, fun hz => absurd (eq_zero_iff.mp hz) (by omega)⟩
  · intro caller amount curve now e he
    obtain ⟨time, charged, acted, hdue, hcharged, hacts, -⟩ :=
      exists_of_attempt (r := .clocked caller (.borrow amount) curve now) he
    have hl' := hl.accrue hcharged
    have ho' := hl.owned_accrue ho hdue hcharged
    obtain ⟨owed, bonds, fee, howed, -, hreceipt, hquote, -⟩ :=
      hl'.toSound.exists_of_borrow hacts
    refine ⟨bonds, fee, hreceipt, ?_⟩
    rw [← howed, Ne, eq_zero_iff]
    intro hpos
    exact Nat.ne_of_gt (Pool.bondsFor_pos ho'.not_ownerlessDebt hquote hpos)

/-- A loan by the clock that has come to more than was lent, and then a fee on loans. -/
def agedLoan : List Step :=
  [.request (.clocked 0 (.mint ⟨900, by decide⟩) {} 0),
    .request (.clocked ⟨List.replicate 32 2, rfl⟩ (.borrow ⟨350, by decide⟩) {} ⟨30, by decide⟩),
    .request (.clocked 0 .accrue ⟨0, ⟨70000000000000000, by decide⟩, 0, 0⟩ ⟨32, by decide⟩),
    .setFees ⟨0, ⟨60000000000000000, by decide⟩⟩]

theorem aged_loan_is_owned :
    (∀ s ∈ agedLoan, s.Clocked) ∧
    (genesis.run agedLoan).pool.liquidity ≠ (genesis.run agedLoan).pool.borrowable ∧
    (∃ holder, ((genesis.run agedLoan).account holder).bonds ≠ 0) ∧
    ∃ e bonds fee, (genesis.run agedLoan).applyAt 0 (.borrow ⟨1, by decide⟩) {} ⟨33, by decide⟩ =
        .ok e ∧ e.receipt = .borrowed ⟨1, by decide⟩ bonds fee ∧ bonds ≠ 0 := by
  have hclocked : ∀ s ∈ agedLoan, s.Clocked := by decide
  have hlent : (genesis.run agedLoan).pool.liquidity ≠ (genesis.run agedLoan).pool.borrowable := by
    decide
  obtain ⟨-, -, -, hholder, hborrow⟩ := clocked_value_is_owned hclocked
  obtain ⟨e, he⟩ : ∃ e, (genesis.run agedLoan).applyAt 0 (.borrow ⟨1, by decide⟩) {}
      ⟨33, by decide⟩ = .ok e := ⟨_, rfl⟩
  obtain ⟨bonds, fee, hreceipt, hassigned⟩ := hborrow _ _ _ _ e he
  refine ⟨hclocked, hlent, hholder hlent, e, bonds, fee, he, hreceipt, hassigned ?_⟩
  exact Nat.lt_of_lt_of_le Nat.one_pos (Nat.le_add_right 1 fee.toNat)

end Ledger

end Lending
