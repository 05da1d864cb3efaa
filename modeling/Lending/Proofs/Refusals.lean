import Lending.Proofs.BondPrice

/-!
# When an action is refused, and for what

The transitions of a pool check every sum and every difference, and many of these checks are there
for safety alone. Here is the list of those that can fail on a ledger with a history, as one function
in numbers without a bound: `Ledger.refusal?` is the fault for which a request is refused, if it is.
It mentions no price but the one that a burn is refused by, and no debt at all: whoever may repay or
be liquidated is not turned away by a check of the pool's own books.

The list is complete because of what the other files keep. An account is within the totals, so only
the total of a sum can leave the range. Prices are at least one, so every quotient is bounded by what
it was asked for, and what is retired is part of the debt.
-/

set_option autoImplicit false

namespace Lending

open Quantity

/-! ## The cause of a failure -/

section Cause

variable {α β : Type} {x : Except Fault α}

/-- The fault that stopped a chain of partial steps, if one did. -/
def cause? : Except Fault α → Option Fault
  | .ok _ => none
  | .error f => some f

theorem cause?_eq_none_iff : cause? x = none ↔ ∃ a, x = .ok a := by
  cases x <;> simp [cause?]

theorem cause?_eq_some_iff {f : Fault} : cause? x = some f ↔ x = .error f := by
  cases x <;> simp [cause?]

theorem cause?_of_ok {a : α} (h : x = .ok a) : cause? x = none := by rw [h]; rfl

theorem bind_of_ok {a : α} (h : x = .ok a) (f : α → Except Fault β) : x >>= f = f a := by
  rw [h]; rfl

theorem cause?_bind_of_error {e : Fault} (h : x = .error e) (f : α → Except Fault β) :
    cause? (x >>= f) = some e := by
  rw [h]; rfl

/-- What cannot fail does not change the cause. -/
theorem cause?_bind {f : α → Except Fault β} (hf : ∀ a, cause? (f a) = none) :
    cause? (x >>= f) = cause? x := by
  cases x with
  | ok a => exact hf a
  | error e => rfl

theorem demand_of_none {value : Option α} {e : Fault} (h : value = none) :
    demand value e = .error e := demand_eq_error_iff.mpr ⟨h, rfl⟩

theorem demand_add? {a b : Amount} {e : Fault} (h : a.toNat + b.toNat < capacity 128) :
    demand (a.add? b) e = .ok ⟨a.toNat + b.toNat, h⟩ :=
  demand_eq_ok_iff.mpr (add?_eq_some_iff.mpr rfl)

theorem demand_sub? {a b : Amount} {e : Fault} (h : b.toNat ≤ a.toNat) :
    demand (a.sub? b) e = .ok (a - b) :=
  demand_eq_ok_iff.mpr (sub?_eq_some_iff.mpr (toNat_sub_add_toNat h))

/-- A demand fails where what it demands is not there. -/
theorem cause?_demand {value : Option α} {e : Fault} {p : Prop} [Decidable p]
    (h : value = none ↔ p) : cause? (demand value e) = if p then some e else none := by
  cases value with
  | none => rw [if_pos (h.mp rfl)]; rfl
  | some a => rw [if_neg fun hp => nomatch h.mpr hp]; rfl

/-- A chain that starts with a demand fails there, or has the cause that it has otherwise. -/
theorem cause?_demand_bind {value : Option α} {e : Fault} {f : α → Except Fault β} {p : Prop}
    [Decidable p] {why : Option Fault} (h : value = none ↔ p)
    (hrest : ¬p → cause? (demand value e >>= f) = why) :
    cause? (demand value e >>= f) = if p then some e else why := by
  by_cases hp : p
  · rw [if_pos hp]
    exact cause?_bind_of_error (demand_of_none (h.mpr hp)) f
  · rw [if_neg hp]
    exact hrest hp

end Cause

/-! ## Fees -/

/-- What `rate` charges on `amount`, rounded up, be it in range or not. -/
def Rate.exactCharge (rate : Rate) (amount : Amount) : Nat :=
  (amount.toNat * rate.toNat + (one.toNat - 1)) / one.toNat

theorem Rate.charge?_eq (amount : Amount) (rate : Rate) :
    charge? amount rate = ofNat? 128 (rate.exactCharge amount) := by
  rw [charge?, mulDivCeil?_eq, if_neg (by decide)]
  rfl

theorem FeeSchedule.fee_eq_ok_iff {amount fee : Amount} {rate : Rate} :
    FeeSchedule.fee amount rate = .ok fee ↔ fee.toNat = rate.exactCharge amount := by
  rw [FeeSchedule.fee, demand_eq_ok_iff, Rate.charge?_eq, ofNat?_eq_some_iff]

/-! ## Trades -/

namespace Position

variable {p : Position}

theorem cause?_deposit (hw : p.Within) (amount : Amount) :
    cause? (p.deposit amount) =
      if capacity 128 ≤ p.pool.collateral.toNat + amount.toNat then some .depositOverflow
      else none := by
  refine cause?_demand_bind add?_eq_none_iff ?_
  intro hroom
  have hown := le_def.mp hw.collateral_le
  exact cause?_of_ok (deposit_eq_ok_iff.mpr ⟨⟨p.pool.collateral.toNat + amount.toNat, by omega⟩,
    ⟨p.account.collateral.toNat + amount.toNat, by omega⟩, rfl, rfl, rfl⟩)

theorem cause?_withdraw (hw : p.Within) (amount : Amount) :
    cause? (p.withdraw amount) =
      if p.account.collateral.toNat < amount.toNat then some .withdrawExceedsCollateral
      else none := by
  refine cause?_demand_bind sub?_eq_none_iff ?_
  intro hheld
  have hown := le_def.mp hw.collateral_le
  exact cause?_of_ok (withdraw_eq_ok_iff.mpr ⟨p.account.collateral - amount,
    p.pool.collateral - amount, toNat_sub_add_toNat (by omega), toNat_sub_add_toNat (by omega),
    rfl⟩)

/-- Whatever stops a mint is a sum out of range. -/
theorem overflow_of_mint {amount fee : Amount} {f : Fault} (h : p.mint amount fee = .error f) :
    f = .overflow := by
  simp only [mint, Pool.sharesFor, bind_eq_error_iff, demand_eq_error_iff, pure_ne_error,
    and_false, exists_false, or_false] at h
  rcases h with h | ⟨_, _, h | ⟨_, _, h | ⟨_, _, h | ⟨_, _, h | ⟨_, _, h⟩⟩⟩⟩⟩ <;>
    exact h.2.symm

theorem cause?_mint (hw : p.Within) (hp : p.pool.Priced) (amount fee : Amount) :
    cause? (p.mint amount fee) =
      if capacity 128 ≤ p.pool.liquidity.toNat + amount.toNat + fee.toNat then some .overflow
      else none := by
  by_cases hroom : capacity 128 ≤ p.pool.liquidity.toNat + amount.toNat + fee.toNat
  · rw [if_pos hroom]
    cases hmint : p.mint amount fee with
    | error f => rw [overflow_of_mint hmint]; rfl
    | ok r =>
      obtain ⟨-, _, _, liquidity, _, -, -, hliquidity, -⟩ := mint_eq_ok_iff.mp hmint
      have := liquidity.toNat_lt
      omega
  · rw [if_neg hroom]
    obtain ⟨n, hn, hle⟩ := hp.exists_sharesFor amount
    -- The new shares are no more than the amount, and the old ones no more than the liquidity.
    have hshares := hp.shares_le
    have hbonds := hp.bonds_le
    have hown := le_def.mp hw.shares_le
    rw [le_def] at hle
    exact cause?_of_ok (mint_eq_ok_iff.mpr ⟨hn, ⟨p.pool.shares.toNat + n.toNat, by omega⟩,
      ⟨p.account.shares.toNat + n.toNat, by omega⟩,
      ⟨p.pool.liquidity.toNat + (amount.toNat + fee.toNat), by omega⟩,
      ⟨p.pool.borrowable.toNat + (amount.toNat + fee.toNat), by omega⟩, rfl, rfl, rfl, rfl, rfl⟩)

theorem cause?_burn (hw : p.Within) (hp : p.pool.Priced) (shares : Amount) :
    cause? (p.burn shares) =
      if p.account.shares.toNat < shares.toNat then some .burnExceedsShares
      else if p.pool.borrowable.toNat <
          shares.toNat * p.pool.liquidity.toNat / p.pool.shares.toNat then
        some .burnExceedsBorrowable
      else none := by
  refine cause?_demand_bind sub?_eq_none_iff ?_
  intro hheld
  have hown := le_def.mp hw.shares_le
  have hbonds := hp.bonds_le
  have hpart : shares ≤ p.pool.shares := le_def.mpr (by omega)
  obtain ⟨v, hv, hval, -⟩ := hp.exists_liquidityFor hpart
  rw [← hval, bind_of_ok (demand_sub? (by omega)), bind_of_ok hv]
  refine cause?_demand_bind sub?_eq_none_iff ?_
  intro hlent
  rw [bind_of_ok (demand_sub? (by omega)), bind_of_ok (demand_sub? (by omega)),
    bind_of_ok (demand_sub? (by omega))]
  rfl

theorem cause?_borrow (hw : p.Within) (hp : p.pool.Priced) (amount fee : Amount) :
    cause? (p.borrow amount fee) =
      if capacity 128 ≤ amount.toNat + fee.toNat then some .overflow
      else if p.pool.borrowable.toNat < amount.toNat + fee.toNat then
        some .borrowExceedsBorrowable
      else none := by
  refine cause?_demand_bind add?_eq_none_iff ?_
  intro hroom
  rw [bind_of_ok (demand_add? (by omega))]
  refine cause?_demand_bind sub?_eq_none_iff ?_
  intro hlent
  obtain ⟨n, hn, hle⟩ := hp.exists_bondsFor ⟨amount.toNat + fee.toNat, by omega⟩
  -- What is borrowed joins the debt, and the new bonds are no more than that.
  have hbonds := hp.bonds_le
  have hown := le_def.mp hw.bonds_le
  have hlt := p.pool.liquidity.toNat_lt
  simp only [le_def] at hle hlent
  rw [bind_of_ok (demand_sub? (by simp only; omega)), bind_of_ok hn,
    bind_of_ok (demand_add? (by omega)), bind_of_ok (demand_add? (by omega))]
  rfl

theorem cause?_repay (hw : p.Within) (hp : p.pool.Priced) (bonds : Amount) :
    cause? (p.repay bonds) =
      if p.account.bonds.toNat < bonds.toNat then some .repayExceedsBonds else none := by
  refine cause?_demand_bind sub?_eq_none_iff ?_
  intro hheld
  have hbonds := hp.bonds_le
  have hsolvent : p.pool.Solvent := le_def.mpr (by omega)
  obtain ⟨v, q, hq⟩ := exists_repay hw hsolvent (le_def.mpr (Nat.le_of_not_lt hheld))
  exact cause?_of_ok hq

/-- Nothing stops a payment from outside: as many bonds are burned as it covers. -/
theorem exists_repayWithCash (hw : p.Within) (hp : p.pool.Priced) (cash : Amount) :
    ∃ c q, p.repayWithCash cash = .ok (c, q) := by
  obtain ⟨c, hc, hburned, hcash, hmost, -⟩ := hp.exists_convert cash hw.bonds_le
  have hown := le_def.mp hw.bonds_le
  have hlt := p.pool.liquidity.toNat_lt
  rw [le_def] at hburned
  have hleft := toNat_sub_add_toNat hburned
  have htotal : (p.pool.bonds - c.burned).toNat + c.burned.toNat = p.pool.bonds.toNat :=
    toNat_sub_add_toNat (by omega)
  refine ⟨c, _, repayWithCash_eq_ok_iff.mpr ⟨hc, burnConverted_eq_ok_iff.mpr ⟨hcash,
    ⟨p.pool.borrowable.toNat + c.repaid.toNat, by omega⟩, p.account.bonds - c.burned,
    p.pool.bonds - c.burned, rfl, ?_, hleft, htotal, ?_, rfl⟩⟩⟩
  · rw [le_def]
    simp only
    omega
  · rw [le_def]
    omega

theorem cause?_liquidate (hw : p.Within) (hp : p.pool.Priced) (cash : Amount) :
    cause? (p.liquidate cash) =
      if p.account.collateral.toNat < cash.toNat then some .withdrawExceedsCollateral
      else none := by
  by_cases hheld : p.account.collateral.toNat < cash.toNat
  · rw [if_pos hheld]
    refine cause?_bind_of_error (require_eq_error_iff.mpr ⟨?_, rfl⟩) _
    rw [le_def]
    omega
  · rw [if_neg hheld]
    obtain ⟨c, mid, hmid⟩ := exists_repayWithCash hw hp cash
    obtain ⟨-, hcash, _, _, _, -, -, -, -, rfl⟩ := exists_of_repayWithCash hmid
    -- What is seized is no more than the cash, and that is no more than the collateral.
    have hown := le_def.mp hw.collateral_le
    rw [le_def] at hcash
    have hseized : c.repaid.toNat ≤ p.account.collateral.toNat := by omega
    have htotal : c.repaid.toNat ≤ p.pool.collateral.toNat := by omega
    exact cause?_of_ok (liquidate_eq_ok_iff.mpr ⟨le_def.mpr (by omega), _, hmid, _, _,
      toNat_sub_add_toNat hseized, toNat_sub_add_toNat htotal, rfl⟩)

end Position

/-! ## Actions -/

namespace Ledger

variable {l : Ledger}

theorem cause?_send (hl : l.Balanced) (sender recipient : Key) (shares : Amount) :
    cause? (l.send sender recipient shares) =
      if (l.account sender).shares.toNat < shares.toNat then some .transferExceedsBalance
      else none := by
  by_cases hself : recipient = sender
  · rw [send, if_pos hself, cause?_bind fun _ => rfl, require]
    by_cases hheld : (l.account sender).shares.toNat < shares.toNat
    · rw [if_pos hheld, if_neg (by rw [le_def]; omega)]
      rfl
    · rw [if_neg hheld, if_pos (le_def.mpr (by omega))]
      rfl
  · rw [send, if_neg hself, cause?_bind fun _ => rfl, Account.sendShares]
    refine cause?_demand_bind sub?_eq_none_iff ?_
    intro hheld
    -- Two different holders' shares are part of all shares together.
    have hboth : (l.account sender).shares.toNat + (l.account recipient).shares.toNat ≤
        l.pool.shares.toNat := hl.2.1 ▸ balance_add_balance_le_sum rfl l hself
    have hlt := l.pool.shares.toNat_lt
    rw [bind_of_ok (demand_sub? (by omega)), bind_of_ok (demand_add? (by omega))]
    rfl

theorem cause?_sendFor (hl : l.Balanced) (spender owner recipient : Key) (shares : Amount) :
    cause? (l.sendFor spender owner recipient shares) =
      if (l.allowance owner spender).toNat < shares.toNat then some .allowanceExceeded
      else if (l.account owner).shares.toNat < shares.toNat then some .transferExceedsBalance
      else none := by
  refine cause?_demand_bind sub?_eq_none_iff ?_
  intro hallowed
  rw [bind_of_ok (demand_sub? (by omega)), cause?_bind fun _ => rfl]
  exact cause?_send hl owner recipient shares

/-- Why an action is refused on a ledger whose pool has come to `liquidity`. Without shares the
quotient of a burn is zero. -/
def refusalAt? (l : Ledger) (liquidity : Nat) (caller : Key) : Action → Option Fault
  | .deposit amount =>
    if capacity 128 ≤ l.pool.collateral.toNat + amount.toNat then some .depositOverflow else none
  | .withdraw amount =>
    if (l.account caller).collateral.toNat < amount.toNat then some .withdrawExceedsCollateral
    else none
  | .mint amount =>
    let fee := l.fees.minting.exactCharge amount
    if capacity 128 ≤ fee then some .overflow
    else if capacity 128 ≤ liquidity + amount.toNat + fee then some .overflow
    else none
  | .burn shares =>
    if (l.account caller).shares.toNat < shares.toNat then some .burnExceedsShares
    else if l.pool.borrowable.toNat < shares.toNat * liquidity / l.pool.shares.toNat then
      some .burnExceedsBorrowable
    else none
  | .borrow amount =>
    let fee := l.fees.borrowing.exactCharge amount
    if capacity 128 ≤ fee then some .overflow
    else if capacity 128 ≤ amount.toNat + fee then some .overflow
    else if l.pool.borrowable.toNat < amount.toNat + fee then some .borrowExceedsBorrowable
    else none
  | .repay bonds =>
    if (l.account caller).bonds.toNat < bonds.toNat then some .repayExceedsBonds else none
  | .liquidate victim cash =>
    if (l.account victim).collateral.toNat < cash.toNat then some .withdrawExceedsCollateral
    else none
  | .accrue => none
  | .transfer _ shares =>
    if (l.account caller).shares.toNat < shares.toNat then some .transferExceedsBalance else none
  | .repayFor _ _ => none
  | .approve _ _ => none
  | .raiseAllowance spender delta =>
    if capacity 128 ≤ (l.allowance caller spender).toNat + delta.toNat then some .overflow
    else none
  | .lowerAllowance spender delta =>
    if (l.allowance caller spender).toNat < delta.toNat then some .allowanceExceeded else none
  | .transferFrom owner _ shares =>
    if (l.allowance owner caller).toNat < shares.toNat then some .allowanceExceeded
    else if (l.account owner).shares.toNat < shares.toNat then some .transferExceedsBalance
    else none

/-- Why a request that names its interest is refused: because the interest is too much, or else
because the action is refused once it is charged. -/
def refusal? (l : Ledger) (caller : Key) (action : Action) (interest : Amount) : Option Fault :=
  if capacity 128 ≤ l.pool.liquidity.toNat + interest.toNat then some .overflow
  else l.refusalAt? (l.pool.liquidity.toNat + interest.toNat) caller action

/-- A fee is too much by itself, or is one more amount for what is charged with it. -/
theorem cause?_fee_bind {α : Type} {amount : Amount} {rate : Rate} {f : Amount → Except Fault α}
    (why : Nat → Option Fault) (hf : ∀ fee : Amount, cause? (f fee) = why fee.toNat) :
    cause? (FeeSchedule.fee amount rate >>= f) =
      if capacity 128 ≤ rate.exactCharge amount then some .overflow
      else why (rate.exactCharge amount) := by
  by_cases hroom : capacity 128 ≤ rate.exactCharge amount
  · rw [if_pos hroom, FeeSchedule.fee, Rate.charge?_eq]
    exact cause?_bind_of_error (demand_of_none (ofNat?_eq_none_iff.mpr hroom)) _
  · rw [if_neg hroom]
    have hfee : FeeSchedule.fee amount rate = .ok ⟨rate.exactCharge amount, by omega⟩ :=
      FeeSchedule.fee_eq_ok_iff.mpr rfl
    rw [bind_of_ok hfee, hf]

theorem cause?_act (hl : l.Healthy) (caller : Key) (action : Action) :
    cause? (l.act caller action) = l.refusalAt? l.pool.liquidity.toNat caller action := by
  have hw := fun holder => hl.balanced.within holder
  have hp := hl.priced
  cases action with
  | deposit amount => exact (cause?_bind fun _ => rfl).trans (Position.cause?_deposit (hw _) _)
  | withdraw amount => exact (cause?_bind fun _ => rfl).trans (Position.cause?_withdraw (hw _) _)
  | mint amount =>
    refine cause?_fee_bind (fun fee =>
      if capacity 128 ≤ l.pool.liquidity.toNat + amount.toNat + fee then some .overflow
      else none) fun fee => ?_
    exact (cause?_bind fun _ => rfl).trans (Position.cause?_mint (hw caller) hp amount fee)
  | burn shares => exact (cause?_bind fun _ => rfl).trans (Position.cause?_burn (hw _) hp _)
  | borrow amount =>
    refine cause?_fee_bind (fun fee =>
      if capacity 128 ≤ amount.toNat + fee then some .overflow
      else if l.pool.borrowable.toNat < amount.toNat + fee then some .borrowExceedsBorrowable
      else none) fun fee => ?_
    exact (cause?_bind fun _ => rfl).trans (Position.cause?_borrow (hw caller) hp amount fee)
  | repay bonds => exact (cause?_bind fun _ => rfl).trans (Position.cause?_repay (hw _) hp _)
  | liquidate victim cash =>
    exact (cause?_bind fun _ => rfl).trans (Position.cause?_liquidate (hw _) hp _)
  | accrue => rfl
  | transfer recipient shares =>
    exact (cause?_bind fun _ => rfl).trans (cause?_send hl.balanced _ _ _)
  | repayFor debtor cash =>
    obtain ⟨c, q, hq⟩ := Position.exists_repayWithCash (hw debtor) hp cash
    exact (cause?_bind fun _ => rfl).trans (cause?_of_ok hq)
  | approve spender amount => rfl
  | raiseAllowance spender delta =>
    exact (cause?_bind fun _ => rfl).trans (cause?_demand add?_eq_none_iff)
  | lowerAllowance spender delta =>
    exact (cause?_bind fun _ => rfl).trans (cause?_demand sub?_eq_none_iff)
  | transferFrom owner recipient shares =>
    exact (cause?_bind fun _ => rfl).trans (cause?_sendFor hl.balanced _ _ _ _)

/-! ## Requests -/

/-- The list looks at the liquidity that it is given, and at no other. -/
theorem refusalAt?_charged (l : Ledger) (liquidity : Amount) (n : Nat) (caller : Key)
    (action : Action) :
    { l with pool := { l.pool with liquidity } }.refusalAt? n caller action =
      l.refusalAt? n caller action := by
  cases action <;> rfl

theorem cause?_apply (hl : l.Healthy) (caller : Key) (action : Action) (interest : Amount) :
    cause? (l.apply caller action interest) = l.refusal? caller action interest := by
  unfold refusal?
  by_cases hroom : capacity 128 ≤ l.pool.liquidity.toNat + interest.toNat
  · rw [if_pos hroom]
    have hnone := demand_of_none (e := .overflow) (add?_eq_none_iff.mpr hroom)
    have haccrue : l.accrue interest = .error .overflow :=
      bind_eq_error_iff.mpr (.inl (bind_eq_error_iff.mpr (.inl hnone)))
    exact cause?_bind_of_error haccrue _
  · rw [if_neg hroom]
    have haccrue := accrue_eq_ok_iff.mpr
      ⟨⟨l.pool.liquidity.toNat + interest.toNat, by omega⟩, rfl, rfl⟩
    rw [apply, bind_of_ok haccrue, cause?_bind fun _ => rfl,
      cause?_act (hl.accrue haccrue), refusalAt?_charged]

/-- On a ledger with a history, a request that names its interest fails exactly for the fault that
is listed, and takes effect exactly if none is. -/
theorem apply_refused_iff (steps : List Step) (caller : Key) (action : Action)
    (interest : Amount) :
    (∀ f, (genesis.run steps).apply caller action interest = .error f ↔
      (genesis.run steps).refusal? caller action interest = some f) ∧
    ((∃ e, (genesis.run steps).apply caller action interest = .ok e) ↔
      (genesis.run steps).refusal? caller action interest = none) := by
  rw [← cause?_apply (healthy_run steps)]
  refine ⟨?_, ?_⟩
  · intro f
    exact cause?_eq_some_iff.symm
  · exact cause?_eq_none_iff.symm

end Ledger

end Lending
