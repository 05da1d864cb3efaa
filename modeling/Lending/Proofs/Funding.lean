import Lending.Proofs.Ownership
import Lending.Proofs.Reconciliation

/-!
# Whether a pool can be funded

Whoever supplies at least as much as a pool already has should be issued shares for it, and whoever
supplies a pool without shares should be issued all of them. Neither can be read off the price. A
first mint is priced at one share for a unit, but the pool takes a mint for the first one if it has
no liquidity, not if it has no shares.

The two come apart in one way. Interest that is charged while there are no shares is liquidity that
nobody owns (`Pool.OwnerlessLiquidity`), and at a price of zero shares for a unit a mint brings
none, however much it supplies. No trade makes such liquidity and no trade takes it away
(`Position.Trades.ownerlessLiquidity_iff`): in particular not a burn of the last share, which is
worth everything, nor a fee, nor what rounding leaves over. So a history ends with ownerless
liquidity exactly if it has charged interest of this kind (`Ledger.ownerlessLiquidity_run_iff`), and
from there no mint ever brings a share again. In every other case a pool can be funded.
-/

set_option autoImplicit false

namespace Lending

open Quantity

/-- There is liquidity, and there are no shares of it. -/
def Pool.OwnerlessLiquidity (pool : Pool) : Prop := pool.shares = 0 ∧ 0 < pool.liquidity.toNat

/-- The interest was charged while there were no shares. -/
def Event.ChargesForNobody (ev : Event) : Prop :=
  ev.before.pool.shares = 0 ∧ ev.effect.interest ≠ 0

namespace Pool

variable {pool : Pool} {amount n : Amount}

theorem not_ownerlessLiquidity_iff :
    ¬pool.OwnerlessLiquidity ↔ (pool.shares.toNat = 0 → pool.liquidity.toNat = 0) := by
  rw [OwnerlessLiquidity, eq_zero_iff]
  omega

theorem OwnerlessLiquidity.sharesFor_eq_zero (ho : pool.OwnerlessLiquidity)
    (h : pool.sharesFor amount = .ok n) : n = 0 := by
  obtain ⟨hnone, hsome⟩ := ho
  rcases sharesFor_cases h with ⟨hempty, -⟩ | ⟨hpos, hrounds⟩
  · omega
  · rw [hnone, toNat_zero] at hrounds
    have hle : n.toNat * pool.liquidity.toNat ≤ 0 * pool.liquidity.toNat := by
      rw [Nat.zero_mul]
      exact hrounds.le
    exact eq_zero_iff.mpr (Nat.le_zero.mp (Nat.le_of_mul_le_mul_right hle hpos))

/-- What covers the liquidity buys at least as many shares as there are, and one at least. -/
theorem sharesFor_ne_zero (ho : ¬pool.OwnerlessLiquidity) (h : pool.sharesFor amount = .ok n)
    (hamount : amount ≠ 0) (hcovers : pool.liquidity ≤ amount) : n ≠ 0 := by
  rw [not_ownerlessLiquidity_iff] at ho
  rcases sharesFor_cases h with ⟨-, rfl⟩ | ⟨hpos, hrounds⟩
  · exact hamount
  · have hall : pool.shares.toNat ≤ n.toNat := by
      rw [hrounds.le_iff, Nat.mul_comm amount.toNat]
      exact Nat.mul_le_mul_left _ hcovers
    rw [Ne, eq_zero_iff]
    omega

/-- Without shares, a unit buys one. -/
theorem sharesFor_first (ho : ¬pool.OwnerlessLiquidity) (h : pool.sharesFor amount = .ok n)
    (hnone : pool.shares = 0) : n = amount := by
  have hempty := not_ownerlessLiquidity_iff.mp ho (eq_zero_iff.mp hnone)
  rcases sharesFor_cases h with ⟨-, hone⟩ | ⟨hpos, -⟩
  · exact hone
  · omega

/-- Interest is liquidity without an owner if there is nobody to own it. -/
theorem ownerlessLiquidity_charge_iff {interest liquidity : Amount}
    (h : liquidity.toNat = pool.liquidity.toNat + interest.toNat) :
    { pool with liquidity }.OwnerlessLiquidity ↔
      pool.OwnerlessLiquidity ∨ (pool.shares = 0 ∧ interest ≠ 0) := by
  simp only [OwnerlessLiquidity, Ne, eq_zero_iff, h]
  omega

end Pool

/-! ## One action -/

namespace Position

variable {fees : FeeSchedule} {p q : Position} {action : Action} {r : Receipt}

/-- Liquidity without an owner keeps none, whoever trades. -/
theorem Trades.ownerlessLiquidity (h : p.Trades fees action r q)
    (ho : p.pool.OwnerlessLiquidity) : q.pool.OwnerlessLiquidity := by
  obtain ⟨-, hliquidity, -, hshares, -⟩ := h.settles.1
  have hnone := eq_zero_iff.mp ho.1
  have hsome := ho.2
  rw [Pool.OwnerlessLiquidity, eq_zero_iff]
  cases h with
  | deposit _ | withdraw _ | borrow _ _ | repay _ | liquidate _ | repayFor _ =>
    simp only [Receipt.turnover, Nat.add_zero] at hliquidity hshares
    omega
  | mint _ h =>
    have hissued := ho.sharesFor_eq_zero (mint_eq_ok_iff.mp h).1
    rw [hissued] at hshares
    simp only [Receipt.turnover, Nat.add_zero, toNat_zero] at hliquidity hshares
    omega
  | burn h =>
    -- Shares that are burned were there, so none are, and none are worth anything.
    rcases Pool.liquidityFor_cases (burn_eq_ok_iff.mp h).1 with ⟨-, rfl⟩ | ⟨hpos, -⟩
    · simp only [Receipt.turnover, Nat.add_zero, toNat_zero] at hliquidity hshares
      omega
    · omega

theorem Trades.ownerlessLiquidity_iff (h : p.Trades fees action r q) :
    q.pool.OwnerlessLiquidity ↔ p.pool.OwnerlessLiquidity := by
  refine ⟨?_, h.ownerlessLiquidity⟩
  intro hafter
  by_cases hbefore : p.pool.OwnerlessLiquidity
  · exact hbefore
  · rw [Pool.not_ownerlessLiquidity_iff] at hbefore
    have hempty := h.liquidity_eq_zero hbefore (eq_zero_iff.mp hafter.1)
    have hsome := hafter.2
    omega

end Position

namespace Ledger

variable {l after : Ledger}

theorem Acts.ownerlessLiquidity_iff {caller : Key} {action : Action} {r : Receipt}
    (h : l.Acts caller action r after) :
    after.pool.OwnerlessLiquidity ↔ l.pool.OwnerlessLiquidity := by
  rcases h.pool_cases with ⟨q, hq, hpool⟩ | hpool
  · rw [hpool]
    exact hq.ownerlessLiquidity_iff
  · rw [hpool]

theorem ownerlessLiquidity_accrue_iff {interest : Amount} (h : l.accrue interest = .ok after) :
    after.pool.OwnerlessLiquidity ↔
      l.pool.OwnerlessLiquidity ∨ (l.pool.shares = 0 ∧ interest ≠ 0) := by
  obtain ⟨liquidity, hliquidity, rfl⟩ := accrue_eq_ok_iff.mp h
  exact Pool.ownerlessLiquidity_charge_iff hliquidity

/-! ## Histories -/

theorem ownerlessLiquidity_attempt_iff {r : Request} {e : Effect} (h : l.attempt r = .ok e) :
    e.ledger.pool.OwnerlessLiquidity ↔
      l.pool.OwnerlessLiquidity ∨ Event.ChargesForNobody ⟨l, r, e⟩ := by
  obtain ⟨time, charged, acted, -, hcharged, hacts, hstamp⟩ := exists_of_attempt h
  have hstamped : e.ledger.pool.OwnerlessLiquidity ↔ acted.pool.OwnerlessLiquidity := by
    rw [hstamp]
    rfl
  rw [hstamped, hacts.ownerlessLiquidity_iff, ownerlessLiquidity_accrue_iff hcharged]
  rfl

/-- There is ownerless liquidity after a history if there was before, or else if some request of it
charged interest while there were no shares. -/
theorem ownerlessLiquidity_run_iff (steps : List Step) (l : Ledger) :
    (l.run steps).pool.OwnerlessLiquidity ↔
      l.pool.OwnerlessLiquidity ∨ ∃ ev ∈ l.events steps, ev.ChargesForNobody := by
  induction steps generalizing l with
  | nil => simp [events]
  | cons s rest ih =>
    cases s with
    | setFees fees => exact ih (l.withFees fees)
    | request r =>
      rcases l.events_request r rest with ⟨e, he, hevents, hrun⟩ | ⟨hevents, hrun⟩
      · rw [hevents, hrun, ih, ownerlessLiquidity_attempt_iff he, or_assoc]
        simp only [List.mem_cons, exists_eq_or_imp]
      · rw [hevents, hrun, ih]

/-- A mint that took effect, as what it did to the pool and to the minter. -/
theorem exists_of_mint {caller : Key} {amount : Amount} {r : Receipt}
    (h : l.Acts caller (.mint amount) r after) :
    ∃ shares fee : Amount, l.fees.mintingFee amount = .ok fee ∧ r = .minted amount shares fee ∧
      l.pool.sharesFor amount = .ok shares ∧
      after.pool.liquidity.toNat = l.pool.liquidity.toNat + (amount.toNat + fee.toNat) ∧
      ∃ own : Amount, own.toNat = (l.account caller).shares.toNat + shares.toNat ∧
        after.account caller = { l.account caller with shares := own } := by
  obtain ⟨q, hq, rfl⟩ := h.exists_trade trivial
  cases hq with
  | @mint _ fee shares _ hfee hmint =>
    obtain ⟨hquote, _, own, liquidity, _, -, hown, hliquidity, -, rfl⟩ :=
      Position.mint_eq_ok_iff.mp hmint
    refine ⟨shares, fee, hfee, rfl, hquote, hliquidity, own, hown, ?_⟩
    exact (account_setPosition _ _ _ _).trans (if_pos rfl)

/-- While there is ownerless liquidity, and whatever else happens, no mint brings a share. -/
theorem mint_after_ownerlessLiquidity (ho : l.pool.OwnerlessLiquidity) (steps : List Step)
    {caller : Key} {amount interest : Amount} {e : Effect}
    (h : (l.run steps).apply caller (.mint amount) interest = .ok e) :
    ∃ fee, e.receipt = .minted amount 0 fee := by
  obtain ⟨-, charged, hcharged, hacts⟩ := exists_of_apply h
  have hrun := (ownerlessLiquidity_run_iff steps l).mpr (.inl ho)
  have ho' := (ownerlessLiquidity_accrue_iff hcharged).mpr (.inl hrun)
  obtain ⟨shares, fee, -, hreceipt, hquote, -⟩ := exists_of_mint hacts
  rw [ho'.sharesFor_eq_zero hquote] at hreceipt
  exact ⟨fee, hreceipt⟩

/-- On a ledger with a history, whoever supplies at least the liquidity, its interest included, is
issued shares for it, and whoever supplies a pool without shares is issued one for each unit, unless
there is liquidity without shares. There is if interest was charged while there were no shares, this
mint's own or that of a request before, and in no other case. Then a mint takes the whole sum and
its fee, leaves the minter's account as it was, and no later mint of anybody brings a share. -/
theorem mint_brings_shares (steps : List Step) {caller : Key} {amount interest : Amount}
    {e : Effect} (h : (genesis.run steps).apply caller (.mint amount) interest = .ok e) :
    ∃ (charged : Ledger) (shares fee : Amount),
      (genesis.run steps).accrue interest = .ok charged ∧
      e.receipt = .minted amount shares fee ∧
      (charged.pool.OwnerlessLiquidity ↔
        (∃ ev ∈ genesis.events steps, ev.ChargesForNobody) ∨
          ((genesis.run steps).pool.shares = 0 ∧ interest ≠ 0)) ∧
      (¬charged.pool.OwnerlessLiquidity →
        (amount ≠ 0 →
          (genesis.run steps).pool.liquidity.toNat + interest.toNat ≤ amount.toNat →
          shares ≠ 0) ∧
        ((genesis.run steps).pool.shares = 0 → shares = amount)) ∧
      (charged.pool.OwnerlessLiquidity →
        shares = 0 ∧ e.ledger.account caller = charged.account caller ∧
        e.ledger.pool.liquidity.toNat =
          charged.pool.liquidity.toNat + (amount.toNat + fee.toNat) ∧
        ∀ (later : List Step) (caller' : Key) (amount' interest' : Amount) (e' : Effect),
          (e.ledger.run later).apply caller' (.mint amount') interest' = .ok e' →
          ∃ fee', e'.receipt = .minted amount' 0 fee') := by
  obtain ⟨-, charged, hcharged, hacts⟩ := exists_of_apply h
  obtain ⟨shares, fee, -, hreceipt, hquote, hliquidity, own, hown, haccount⟩ := exists_of_mint hacts
  refine ⟨charged, shares, fee, hcharged, hreceipt, ?_, ?_, ?_⟩
  · rw [ownerlessLiquidity_accrue_iff hcharged, ownerlessLiquidity_run_iff]
    refine or_congr_left ?_
    exact ⟨fun h => h.resolve_left fun hgenesis => Nat.lt_irrefl 0 hgenesis.2, .inr⟩
  · intro ho
    obtain ⟨charge, hsum, rfl⟩ := accrue_eq_ok_iff.mp hcharged
    refine ⟨?_, ?_⟩
    · intro hamount hcovers
      exact Pool.sharesFor_ne_zero ho hquote hamount (le_def.mpr (hsum ▸ hcovers))
    · intro hnone
      exact Pool.sharesFor_first ho hquote hnone
  · intro ho
    have hissued := ho.sharesFor_eq_zero hquote
    refine ⟨hissued, ?_, hliquidity, ?_⟩
    · rw [hissued] at hown
      rw [haccount, show own = (charged.account caller).shares from Quantity.ext hown]
    · intro later caller' amount' interest' e' he'
      exact mint_after_ownerlessLiquidity (hacts.ownerlessLiquidity_iff.mpr ho) later he'

/-- Somebody supplies seventy, the whole is lent out and repaid with interest on it, and the shares
are burned to the last, so the next supplier is the first again. -/
def refunded : List Step :=
  [.request (.charging 0 (.mint ⟨70, by decide⟩) 0),
    .request (.charging ⟨List.replicate 32 7, rfl⟩ (.borrow ⟨70, by decide⟩) 0),
    .request (.charging ⟨List.replicate 32 7, rfl⟩ (.repay ⟨70, by decide⟩) ⟨65, by decide⟩),
    .request (.charging 0 (.burn ⟨70, by decide⟩) 0)]

theorem refunded_pool_takes_a_mint :
    ∃ e fee, (genesis.run refunded).apply 0 (.mint ⟨11, by decide⟩) 0 = .ok e ∧
      e.receipt = .minted ⟨11, by decide⟩ ⟨11, by decide⟩ fee := by
  obtain ⟨e, he⟩ : ∃ e, (genesis.run refunded).apply 0 (.mint ⟨11, by decide⟩) 0 = .ok e :=
    ⟨_, rfl⟩
  obtain ⟨charged, shares, fee, hcharged, hreceipt, -, hissued, -⟩ :=
    mint_brings_shares refunded he
  rw [accrue_zero] at hcharged
  cases hcharged
  have hnone : (genesis.run refunded).pool.shares = 0 := by decide
  have howner : ¬(genesis.run refunded).pool.OwnerlessLiquidity := by
    rw [Pool.not_ownerlessLiquidity_iff]
    decide
  rw [(hissued howner).2 hnone] at hreceipt
  exact ⟨e, fee, he, hreceipt⟩

/-- Five are charged as interest on a pool that nobody has supplied, and whoever then supplies five
is issued no share for them. -/
theorem mint_on_ownerless_liquidity_is_lost :
    ∃ e, (genesis.run [.request (.charging 0 .accrue ⟨5, by decide⟩)]).apply 0
        (.mint ⟨5, by decide⟩) 0 = .ok e ∧
      e.receipt = .minted ⟨5, by decide⟩ 0 0 ∧ e.ledger.account 0 = .empty ∧
      e.ledger.pool.liquidity = ⟨10, by decide⟩ :=
  ⟨_, rfl, rfl, rfl, rfl⟩

end Ledger

end Lending
