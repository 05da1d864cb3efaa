import Lending.Proofs.Refusals

/-!
# What an insolvent pool still does

A ledger with a history is solvent. A host can store and restore one that is not, and then the debt
of its pool is no amount. The clock asks for the debt before anything else is done, so a request by
the clock is refused as insolvent, whoever asks for what.

A request that names its interest is not looked at in this way. It meets the debt only where a price
is made of it, which four actions do: to borrow, to repay, to liquidate and to repay for somebody.
These are refused, for insolvency if there is no other cause before it. All others are answered as
if the pool were solvent, so a deposit into it takes effect. And interest that makes up what is
missing is charged before the debt is looked at, so at enough interest all of them are answered
again.
-/

set_option autoImplicit false

namespace Lending

open Quantity

/-- The action is priced by the debt. -/
def Action.AsksDebt : Action → Prop
  | .borrow _ | .repay _ | .liquidate _ _ | .repayFor _ _ => True
  | _ => False

namespace Pool

variable {pool : Pool}

/-- What is asked of the bonds fails as insolvent exactly if the pool is. -/
theorem quote_eq_insolvent_iff {α : Type} {f : BondBook 128 → Option α} {cause : Fault}
    (hcause : cause ≠ .insolvent) :
    (do demand (f (← pool.bondBook)) cause) = .error .insolvent ↔ ¬pool.Solvent := by
  simp only [bondBook, bind_eq_error_iff, debt_eq_error_iff, demand_eq_error_iff, pure_ne_error,
    hcause, and_false, exists_false, or_false, and_true]

theorem bondsFor_eq_insolvent_iff {amount : Amount} :
    pool.bondsFor amount = .error .insolvent ↔ ¬pool.Solvent :=
  quote_eq_insolvent_iff (by decide)

theorem debtFor_eq_insolvent_iff {bonds : Amount} :
    pool.debtFor bonds = .error .insolvent ↔ ¬pool.Solvent :=
  quote_eq_insolvent_iff (by decide)

theorem convert_eq_insolvent_iff {cash held : Amount} :
    pool.convert cash held = .error .insolvent ↔ ¬pool.Solvent :=
  quote_eq_insolvent_iff (by decide)

/-- The clock asks for the debt first. -/
theorem pending_of_insolvent (h : ¬pool.Solvent) (curve : RateCurve) (now : Timestamp) :
    pool.pending curve now = .error .insolvent := by
  have hnone : pool.liquidity.sub? pool.borrowable = none := by
    rw [sub?_eq_none_iff, ← Nat.not_le]
    exact h
  exact bind_eq_error_iff.mpr (.inl (bind_eq_error_iff.mpr (.inl (demand_of_none hnone))))

end Pool

/-! ## Actions that ask for the debt -/

namespace Position

variable {p : Position}

theorem cause?_borrow_of_insolvent (h : ¬p.pool.Solvent) (amount fee : Amount) :
    cause? (p.borrow amount fee) =
      if capacity 128 ≤ amount.toNat + fee.toNat then some .overflow
      else if p.pool.borrowable.toNat < amount.toNat + fee.toNat then
        some .borrowExceedsBorrowable
      else some .insolvent := by
  refine cause?_demand_bind add?_eq_none_iff ?_
  intro hroom
  rw [bind_of_ok (demand_add? (by omega))]
  refine cause?_demand_bind sub?_eq_none_iff ?_
  intro hlent
  rw [bind_of_ok (demand_sub? (Nat.le_of_not_lt hlent))]
  exact cause?_bind_of_error (Pool.bondsFor_eq_insolvent_iff.mpr h) _

theorem cause?_repay_of_insolvent (h : ¬p.pool.Solvent) (bonds : Amount) :
    cause? (p.repay bonds) =
      if p.account.bonds.toNat < bonds.toNat then some .repayExceedsBonds
      else some .insolvent := by
  refine cause?_demand_bind sub?_eq_none_iff ?_
  intro hheld
  rw [bind_of_ok (demand_sub? (Nat.le_of_not_lt hheld))]
  exact cause?_bind_of_error (Pool.debtFor_eq_insolvent_iff.mpr h) _

theorem repayWithCash_of_insolvent (h : ¬p.pool.Solvent) (cash : Amount) :
    p.repayWithCash cash = .error .insolvent :=
  bind_eq_error_iff.mpr (.inl (Pool.convert_eq_insolvent_iff.mpr h))

theorem cause?_liquidate_of_insolvent (h : ¬p.pool.Solvent) (cash : Amount) :
    cause? (p.liquidate cash) =
      if p.account.collateral.toNat < cash.toNat then some .withdrawExceedsCollateral
      else some .insolvent := by
  by_cases hheld : p.account.collateral.toNat < cash.toNat
  · rw [if_pos hheld]
    exact cause?_bind_of_error (require_eq_error_iff.mpr ⟨Nat.not_le.mpr hheld, rfl⟩) _
  · have hcash : cash ≤ p.account.collateral := Nat.le_of_not_lt hheld
    rw [if_neg hheld, liquidate, bind_of_ok (a := ()) (require_eq_ok_iff.mpr hcash)]
    exact cause?_bind_of_error (repayWithCash_of_insolvent h cash) _

/-! No transition fails as insolvent on a solvent pool. -/

theorem insolvent_of_borrow {amount fee : Amount} (h : p.borrow amount fee = .error .insolvent) :
    ¬p.pool.Solvent := by
  simp only [borrow, bind_eq_error_iff, demand_eq_error_iff, pure_ne_error, reduceCtorEq,
    and_false, exists_false, or_false, false_or] at h
  obtain ⟨_, -, _, -, hquote⟩ := h
  exact Pool.bondsFor_eq_insolvent_iff.mp hquote

theorem insolvent_of_repay {bonds : Amount} (h : p.repay bonds = .error .insolvent) :
    ¬p.pool.Solvent := by
  simp only [repay, bind_eq_error_iff, demand_eq_error_iff, require_eq_error_iff, pure_ne_error,
    reduceCtorEq, and_false, exists_false, or_false, false_or] at h
  obtain ⟨_, -, hquote⟩ := h
  exact Pool.debtFor_eq_insolvent_iff.mp hquote

theorem insolvent_of_repayWithCash {cash : Amount}
    (h : p.repayWithCash cash = .error .insolvent) : ¬p.pool.Solvent := by
  simp only [repayWithCash, burnConverted, bind_eq_error_iff, demand_eq_error_iff,
    require_eq_error_iff, pure_ne_error, reduceCtorEq, and_false, exists_false, or_false] at h
  exact Pool.convert_eq_insolvent_iff.mp h

theorem insolvent_of_liquidate {cash : Amount} (h : p.liquidate cash = .error .insolvent) :
    ¬p.pool.Solvent := by
  simp only [liquidate, bind_eq_error_iff, demand_eq_error_iff, require_eq_error_iff,
    pure_ne_error, reduceCtorEq, and_false, exists_false, or_false, false_or] at h
  obtain ⟨-, -, hpaid⟩ := h
  exact insolvent_of_repayWithCash hpaid

end Position

/-! ## Requests -/

namespace Ledger

variable {l : Ledger}

theorem send_ne_insolvent (sender recipient : Key) (shares : Amount) :
    l.send sender recipient shares ≠ .error .insolvent := by
  intro h
  unfold send at h
  split at h
  · simp only [bind_eq_error_iff, require_eq_error_iff, pure_ne_error, reduceCtorEq, and_false,
      exists_false, or_false] at h
  · simp only [Account.sendShares, bind_eq_error_iff, demand_eq_error_iff, pure_ne_error,
      reduceCtorEq, and_false, exists_false, or_false] at h

/-- Only a price of bonds fails as insolvent, and only on an insolvent pool. -/
theorem insolvent_of_act {caller : Key} {action : Action}
    (h : l.act caller action = .error .insolvent) : ¬l.pool.Solvent ∧ action.AsksDebt := by
  cases action with
  | borrow amount =>
    simp only [act, FeeSchedule.borrowingFee, FeeSchedule.fee, bind_eq_error_iff,
      demand_eq_error_iff, pure_ne_error, reduceCtorEq, and_false, exists_false, or_false,
      false_or] at h
    obtain ⟨_, -, h⟩ := h
    exact ⟨Position.insolvent_of_borrow h, trivial⟩
  | repay bonds =>
    simp only [act, bind_eq_error_iff, pure_ne_error, and_false, exists_false, or_false] at h
    exact ⟨Position.insolvent_of_repay h, trivial⟩
  | liquidate victim cash =>
    simp only [act, bind_eq_error_iff, pure_ne_error, and_false, exists_false, or_false] at h
    exact ⟨Position.insolvent_of_liquidate h, trivial⟩
  | repayFor debtor cash =>
    simp only [act, bind_eq_error_iff, pure_ne_error, and_false, exists_false, or_false] at h
    exact ⟨Position.insolvent_of_repayWithCash h, trivial⟩
  | mint amount =>
    simp only [act, FeeSchedule.mintingFee, FeeSchedule.fee, bind_eq_error_iff,
      demand_eq_error_iff, pure_ne_error, reduceCtorEq, and_false, exists_false, or_false,
      false_or] at h
    obtain ⟨_, -, h⟩ := h
    cases Position.overflow_of_mint h
  | deposit _ | withdraw _ | burn _ | accrue | approve _ _ | raiseAllowance _ _
  | lowerAllowance _ _ =>
    simp only [act, Position.deposit, Position.withdraw, Position.burn, Pool.liquidityFor,
      bind_eq_error_iff, demand_eq_error_iff, pure_ne_error, reduceCtorEq, and_false, exists_false,
      or_false] at h
  | transfer recipient shares =>
    simp only [act, bind_eq_error_iff, pure_ne_error, and_false, exists_false, or_false] at h
    exact absurd h (send_ne_insolvent caller recipient shares)
  | transferFrom owner recipient shares =>
    simp only [act, sendFor, bind_eq_error_iff, demand_eq_error_iff, pure_ne_error, reduceCtorEq,
      and_false, exists_false, or_false, false_or] at h
    obtain ⟨_, -, h⟩ := h
    exact absurd h (send_ne_insolvent owner recipient shares)

/-- Insolvency is the last cause for which such an action is refused. -/
theorem cause?_act_of_insolvent (h : ¬l.pool.Solvent) (caller : Key) {action : Action}
    (hasks : action.AsksDebt) (n : Nat) :
    cause? (l.act caller action) = (l.refusalAt? n caller action).or (some .insolvent) := by
  have hor : ∀ (p : Prop) [Decidable p] (f : Fault) (why : Option Fault),
      (if p then some f else why).or (some .insolvent) =
        if p then some f else why.or (some .insolvent) := fun p _ f why => by split <;> rfl
  cases action with
  | borrow amount =>
    simp only [refusalAt?, hor, Option.none_or]
    refine cause?_fee_bind (fun fee =>
      if capacity 128 ≤ amount.toNat + fee then some .overflow
      else if l.pool.borrowable.toNat < amount.toNat + fee then some .borrowExceedsBorrowable
      else some .insolvent) fun fee => ?_
    exact (cause?_bind fun _ => rfl).trans (Position.cause?_borrow_of_insolvent h amount fee)
  | repay bonds =>
    simp only [refusalAt?, hor, Option.none_or]
    exact (cause?_bind fun _ => rfl).trans (Position.cause?_repay_of_insolvent h bonds)
  | liquidate victim cash =>
    simp only [refusalAt?, hor, Option.none_or]
    exact (cause?_bind fun _ => rfl).trans (Position.cause?_liquidate_of_insolvent h cash)
  | repayFor debtor cash =>
    exact cause?_bind_of_error (Position.repayWithCash_of_insolvent h cash) _
  | deposit _ | withdraw _ | mint _ | burn _ | accrue | transfer _ _ | approve _ _
  | raiseAllowance _ _ | lowerAllowance _ _ | transferFrom _ _ _ => cases hasks

/-- What interest leaves insolvent was insolvent, and is so by what the interest does not cover. -/
theorem insolvent_of_accrue {charged : Ledger} {interest : Amount}
    (h : l.accrue interest = .ok charged) :
    ¬charged.pool.Solvent ↔
      l.pool.liquidity.toNat + interest.toNat < l.pool.borrowable.toNat := by
  obtain ⟨liquidity, hliquidity, rfl⟩ := accrue_eq_ok_iff.mp h
  rw [← hliquidity]
  exact Nat.not_le

/-- Where the interest does not cover what is missing, nothing that asks for the debt takes effect. -/
theorem apply_of_insolvent {interest : Amount}
    (hshort : l.pool.liquidity.toNat + interest.toNat < l.pool.borrowable.toNat) (caller : Key)
    {action : Action} (hasks : action.AsksDebt) :
    l.apply caller action interest =
      .error ((l.refusal? caller action interest).getD .insolvent) := by
  have hlt := l.pool.borrowable.toNat_lt
  have hcharged := accrue_eq_ok_iff.mpr
    ⟨⟨l.pool.liquidity.toNat + interest.toNat, by omega⟩, rfl, rfl⟩
  have hinsolvent := (insolvent_of_accrue hcharged).mpr hshort
  have hlisted : l.refusal? caller action interest =
      l.refusalAt? (l.pool.liquidity.toNat + interest.toNat) caller action :=
    if_neg (by omega)
  rw [← cause?_eq_some_iff, hlisted, apply, bind_of_ok hcharged, cause?_bind fun _ => rfl,
    cause?_act_of_insolvent hinsolvent caller hasks, refusalAt?_charged]
  cases l.refusalAt? (l.pool.liquidity.toNat + interest.toNat) caller action <;> rfl

theorem insolvent_of_apply {caller : Key} {action : Action} {interest : Amount}
    (h : l.apply caller action interest = .error .insolvent) :
    l.pool.liquidity.toNat + interest.toNat < l.pool.borrowable.toNat ∧ action.AsksDebt := by
  rcases bind_eq_error_iff.mp h with hfull | ⟨charged, hcharged, h⟩
  · simp only [accrue, Pool.accrue, bind_eq_error_iff, demand_eq_error_iff, pure_ne_error,
      reduceCtorEq, and_false, exists_false, or_false] at hfull
  · rcases bind_eq_error_iff.mp h with hact | ⟨_, -, hnever⟩
    · obtain ⟨hinsolvent, hasks⟩ := insolvent_of_act hact
      exact ⟨(insolvent_of_accrue hcharged).mp hinsolvent, hasks⟩
    · exact absurd hnever pure_ne_error

/-- Insolvency is not on the list of causes for which a sound ledger refuses. -/
theorem refusal?_ne_insolvent (l : Ledger) (caller : Key) (action : Action) (interest : Amount) :
    l.refusal? caller action interest ≠ some .insolvent := by
  unfold refusal?
  split
  · exact nofun
  · cases action <;> simp only [refusalAt?] <;> repeat' split
    all_goals exact nofun

theorem submit_eq_refused_iff {r : Request} {f : Fault} :
    l.submit r = ⟨.error f, l, []⟩ ↔ l.attempt r = .error f := by
  rw [submit]
  cases l.attempt r with
  | ok e => simp [commit]
  | error d => simp [commit]

/-- An insolvent ledger refuses every request by the clock as insolvent. Of the requests that name
their interest it refuses as insolvent exactly those that ask for the debt, if the interest does not
cover what is missing and there is no other cause first; whatever the cause, none of these takes
effect. What is refused leaves the ledger as it was and writes nothing. -/
theorem insolvent_refuses (h : ¬l.pool.Solvent) (caller : Key) (action : Action) :
    (∀ curve now, l.submit (.clocked caller action curve now) = ⟨.error .insolvent, l, []⟩) ∧
    ∀ interest,
      (l.submit (.charging caller action interest) = ⟨.error .insolvent, l, []⟩ ↔
        l.pool.liquidity.toNat + interest.toNat < l.pool.borrowable.toNat ∧ action.AsksDebt ∧
          l.refusal? caller action interest = none) ∧
      (l.pool.liquidity.toNat + interest.toNat < l.pool.borrowable.toNat → action.AsksDebt →
        l.submit (.charging caller action interest) =
          ⟨.error ((l.refusal? caller action interest).getD .insolvent), l, []⟩) := by
  simp only [submit_eq_refused_iff, attempt]
  refine ⟨?_, ?_⟩
  · intro curve now
    exact bind_eq_error_iff.mpr (.inl (Pool.pending_of_insolvent h curve now))
  · intro interest
    refine ⟨⟨?_, ?_⟩, fun hshort hasks => apply_of_insolvent hshort caller hasks⟩
    · intro hrefused
      obtain ⟨hshort, hasks⟩ := insolvent_of_apply hrefused
      refine ⟨hshort, hasks, ?_⟩
      -- Any other cause would have come first.
      have hfirst := (apply_of_insolvent hshort caller hasks).symm.trans hrefused
      cases hlisted : l.refusal? caller action interest with
      | none => rfl
      | some f =>
        rw [hlisted] at hfirst
        cases hfirst
        exact absurd hlisted (refusal?_ne_insolvent l caller action interest)
    · intro hlast
      obtain ⟨hshort, hasks, hnone⟩ := hlast
      rw [apply_of_insolvent hshort caller hasks, hnone]
      rfl

/-- A pool with more to lend than it has. -/
def overlent : Ledger := ofParts { liquidity := ⟨13, by decide⟩, borrowable := ⟨14, by decide⟩ } []

theorem overlent_refuses :
    ¬overlent.pool.Solvent ∧
    overlent.submit (.clocked 0 (.deposit ⟨1, by decide⟩) {} 0) =
      ⟨.error .insolvent, overlent, []⟩ ∧
    overlent.submit (.charging 0 (.borrow ⟨2, by decide⟩) 0) =
      ⟨.error .insolvent, overlent, []⟩ := by
  have hinsolvent : ¬overlent.pool.Solvent := by decide
  have hborrow := (insolvent_refuses hinsolvent 0 (.borrow ⟨2, by decide⟩)).2 0
  have hclock := (insolvent_refuses hinsolvent 0 (.deposit ⟨1, by decide⟩)).1 {} 0
  exact ⟨hinsolvent, hclock, hborrow.1.mpr ⟨by decide, trivial, by decide⟩⟩

/-- With the interest named, collateral is taken, and the missing unit as interest makes a loan. -/
theorem overlent_accepts :
    ¬overlent.pool.Solvent ∧
    (∃ e, overlent.apply 0 (.deposit ⟨1, by decide⟩) 0 = .ok e ∧
      e.receipt = .deposited ⟨1, by decide⟩ ∧ e.ledger ≠ overlent) ∧
    ∃ e, overlent.apply 0 (.borrow ⟨2, by decide⟩) ⟨1, by decide⟩ = .ok e ∧
      e.receipt = .borrowed ⟨2, by decide⟩ ⟨2, by decide⟩ 0 :=
  ⟨by decide, ⟨_, rfl, rfl, by decide⟩, _, rfl, rfl⟩

end Ledger

end Lending
