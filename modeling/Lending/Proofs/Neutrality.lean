import Lending.Proofs.Ownership
import Lending.Proofs.Refusals
import Lending.Proofs.Tidiness

/-!
# To ask for nothing is to do nothing

An action whose amount is zero should change nothing at all: a host may submit one to see whether it
would be refused. That it is never refused is read off the list of causes. That it changes nothing
takes more, because where a book has nothing to divide by its answer does not depend on what it is
asked, and because a ledger could lose an entry that is written back.

The two concerns are met apart. What a trade moves is its turnover, and a trade that moves nothing
leaves its position (`Position.Trades.eq_of_turnover`); a tidy ledger is left by a position that is
written back (`Tidy.setPosition_eq`). So it is enough that every quote for zero is zero, and there is
a single exception to that. While there is a debt without bonds (`Pool.OwnerlessDebt`), no bonds are
worth all of it, and whoever repays none is credited the whole debt.
-/

set_option autoImplicit false

namespace Lending

open Quantity

/-- What the action would move is zero. An approval does not move what it names but sets it, so none
is one of these. -/
def Action.AsksNothing : Action → Prop
  | .deposit amount | .withdraw amount | .mint amount | .burn amount | .borrow amount
  | .repay amount | .liquidate _ amount | .repayFor _ amount | .transfer _ amount
  | .transferFrom _ _ amount | .raiseAllowance _ amount | .lowerAllowance _ amount => amount = 0
  | .accrue => True
  | .approve _ _ => False

/-! ## Trades -/

namespace Position

variable {fees : FeeSchedule} {p q : Position} {action : Action} {r : Receipt}

/-- A trade of nothing moves nothing, unless it is to repay no bonds of a debt that has none. -/
theorem Trades.turnover_of_nothing (h : p.Trades fees action r q) (hnothing : action.AsksNothing)
    (howner : p.pool.OwnerlessDebt → action ≠ .repay 0) : r.turnover = {} := by
  cases h with
  | deposit _ =>
    cases hnothing
    rfl
  | withdraw _ =>
    cases hnothing
    rfl
  | mint hfee h =>
    cases hnothing
    rw [FeeSchedule.fee_of_zero hfee, Pool.sharesFor_of_zero (mint_eq_ok_iff.mp h).1]
    rfl
  | burn h =>
    cases hnothing
    rw [Pool.liquidityFor_of_zero (burn_eq_ok_iff.mp h).1]
    rfl
  | borrow hfee h =>
    cases hnothing
    obtain ⟨owed, howed, hquote, -⟩ := borrow_eq_ok_iff.mp h
    have hfree := FeeSchedule.fee_of_zero hfee
    rw [hfree] at howed
    rw [eq_zero_iff.mpr howed] at hquote
    rw [hfree, Pool.bondsFor_of_zero hquote]
    rfl
  | repay h =>
    cases hnothing
    have howned : p.pool.bonds.toNat = 0 → p.pool.lent = 0 := fun hnone =>
      Nat.eq_zero_of_not_pos fun hpos => howner ⟨eq_zero_iff.mpr hnone, hpos⟩ rfl
    rw [Pool.debtFor_of_zero howned (repay_eq_ok_iff.mp h).1]
    rfl
  | liquidate h =>
    cases hnothing
    obtain ⟨hburned, hrepaid⟩ := Pool.convert_of_zero (exists_of_liquidate h).1
    rw [hburned, hrepaid]
    rfl
  | repayFor h =>
    cases hnothing
    obtain ⟨hburned, hrepaid⟩ := Pool.convert_of_zero (exists_of_repayWithCash h).1
    rw [hburned, hrepaid]
    rfl

end Position

/-! ## Ledgers -/

namespace Ledger

variable {l after : Ledger}

theorem Tidy.eq_of_send (hl : l.Tidy) {sender recipient : Key}
    (h : l.send sender recipient 0 = .ok after) : after = l := by
  rcases exists_of_send h with ⟨-, rfl⟩ | ⟨-, left, received, hleft, hreceived, rfl⟩
  · rfl
  · have hsender : { l.account sender with shares := left } = l.account sender := by
      rw [show left = (l.account sender).shares from Quantity.ext hleft]
    have hrecipient : { l.account recipient with shares := received } = l.account recipient := by
      rw [show received = (l.account recipient).shares from Quantity.ext hreceived]
    rw [hsender, hrecipient, hl.setAccount_self, hl.setAccount_self]

theorem Acts.eq_of_nothing {caller : Key} {action : Action} {r : Receipt}
    (h : l.Acts caller action r after) (hl : l.Tidy) (hnothing : action.AsksNothing)
    (howner : l.pool.OwnerlessDebt → action ≠ .repay 0) : after = l := by
  cases h with
  | trade h =>
    rw [h.eq_of_turnover (h.turnover_of_nothing hnothing howner)]
    exact hl.setPosition_eq rfl
  | accrue => rfl
  | transfer h =>
    cases hnothing
    exact hl.eq_of_send h
  | transferFrom h =>
    cases hnothing
    obtain ⟨remaining, sent, hremaining, hsent, rfl⟩ := sendFor_eq_ok_iff.mp h
    have hsame : remaining = l.allowance _ caller := Quantity.ext hremaining
    rw [hl.eq_of_send hsent, hsame, hl.setAllowance_self, ite_self]
  | approve => cases hnothing
  | @raiseAllowance spender _ amount h =>
    cases hnothing
    have hsame : amount = l.allowance caller spender := Quantity.ext h
    rw [hsame, hl.setAllowance_self]
  | @lowerAllowance spender _ amount h =>
    cases hnothing
    have hsame : amount = l.allowance caller spender := Quantity.ext h
    rw [hsame, hl.setAllowance_self]

/-! ## Requests -/

/-- Nothing is too much of nothing. -/
theorem refusal?_of_nothing (l : Ledger) (caller : Key) {action : Action}
    (hnothing : action.AsksNothing) : l.refusal? caller action 0 = none := by
  have hfee : ∀ rate : Rate, rate.exactCharge 0 = 0 := by
    intro rate
    rw [Rate.exactCharge, toNat_zero, Nat.zero_mul]
    rfl
  have hrange : ∀ amount : Amount, ¬capacity 128 ≤ amount.toNat := fun amount =>
    Nat.not_le.mpr amount.toNat_lt
  have hzero : ¬capacity 128 ≤ 0 := hrange 0
  rw [refusal?, toNat_zero, Nat.add_zero, if_neg (hrange _)]
  cases action with
  | approve _ _ => cases hnothing
  | accrue => rfl
  | deposit _ | withdraw _ | mint _ | burn _ | borrow _ | repay _ | liquidate _ _ | repayFor _ _
  | transfer _ _ | transferFrom _ _ _ | raiseAllowance _ _ | lowerAllowance _ _ =>
    cases hnothing
    simp only [refusalAt?, hfee, hrange, hzero, toNat_zero, Nat.add_zero, Nat.not_lt_zero,
      Nat.zero_mul, Nat.zero_div, if_false]

theorem Healthy.exists_apply_of_nothing (hl : l.Healthy) (caller : Key) {action : Action}
    (hnothing : action.AsksNothing) : ∃ e, l.apply caller action 0 = .ok e := by
  rw [← cause?_eq_none_iff, cause?_apply hl, refusal?_of_nothing l caller hnothing]

/-- Whoever repays no bonds of a debt that has none is credited all of it. -/
theorem Acts.repay_nothing {caller : Key} {r : Receipt} (h : l.Acts caller (.repay 0) r after)
    (hl : l.Sound) (ht : l.Tidy) (howner : l.pool.OwnerlessDebt) :
    ∃ credited : Amount, r = .repaid 0 credited ∧ credited.toNat = l.pool.lent ∧
      after = { l with pool := { l.pool with borrowable := l.pool.liquidity } } := by
  obtain ⟨q, hq, rfl⟩ := h.exists_trade trivial
  cases hq with
  | @repay _ credited _ hq =>
    obtain ⟨hquote, own, borrowable, total, hown, hborrowable, -, htotal, rfl⟩ :=
      Position.repay_eq_ok_iff.mp hq
    have hwhole : credited.toNat = l.pool.lent :=
      Pool.debtFor_whole (eq_zero_iff.mp howner.1).symm hquote
    have hall : borrowable = l.pool.liquidity := by
      have hlent := hl.solvent.lent_add
      have hsum : borrowable.toNat = l.pool.borrowable.toNat + credited.toNat := hborrowable
      exact Quantity.ext (by omega)
    have hsame : own = (l.account caller).bonds := Quantity.ext hown
    have hsame' : total = l.pool.bonds := Quantity.ext htotal
    rw [hall, hsame, hsame']
    exact ⟨credited, rfl, hwhole, ht.setPosition_eq rfl⟩

/-- At the end of every history that starts from nothing, an action of zero takes effect at no
interest and leaves the ledger as it is, whoever asks for it and whomever it names. To repay no
bonds is one of these actions unless there is a debt without bonds; then it credits the whole debt,
which is borrowable again, and changes nothing else. -/
theorem zero_actions_are_neutral (steps : List Step) (caller : Key) :
    let l := genesis.run steps
    (∀ action : Action, action.AsksNothing → (l.pool.OwnerlessDebt → action ≠ .repay 0) →
      ∃ e, l.apply caller action 0 = .ok e ∧ e.ledger = l) ∧
    (l.pool.OwnerlessDebt → ∃ e credited, l.apply caller (.repay 0) 0 = .ok e ∧
      e.receipt = .repaid 0 credited ∧ credited.toNat = l.pool.lent ∧
      e.ledger = { l with pool := { l.pool with borrowable := l.pool.liquidity } } ∧
      e.ledger ≠ l) := by
  intro l
  have hl : l.Healthy := healthy_run steps
  have ht : l.Tidy := tidy_run steps
  refine ⟨?_, ?_⟩
  · intro action hnothing howner
    obtain ⟨e, he⟩ := hl.exists_apply_of_nothing caller hnothing
    exact ⟨e, he, (acts_of_apply he).eq_of_nothing ht hnothing howner⟩
  · intro howner
    have hnothing : Action.AsksNothing (.repay 0) := rfl
    obtain ⟨e, he⟩ := hl.exists_apply_of_nothing caller hnothing
    obtain ⟨credited, hreceipt, hwhole, hafter⟩ :=
      (acts_of_apply he).repay_nothing hl.toSound ht howner
    refine ⟨e, credited, he, hreceipt, hwhole, hafter, ?_⟩
    intro hsame
    have hall : l.pool.liquidity = l.pool.borrowable :=
      congrArg (fun l => l.pool.borrowable) (hafter.symm.trans hsame)
    have hlent := hl.solvent.lent_add
    have hpos := howner.2
    rw [hall] at hlent
    omega

/-- Twenty were supplied and five charged as interest, and somebody who owes nothing repays it. -/
theorem repaying_nothing_clears_ownerless_debt :
    ∃ e, (genesis.run ownerlessDebt).apply 0 (.repay 0) 0 = .ok e ∧
      e.receipt = .repaid 0 ⟨5, by decide⟩ ∧ e.ledger ≠ genesis.run ownerlessDebt :=
  ⟨_, rfl, rfl, by decide⟩

end Ledger

end Lending
