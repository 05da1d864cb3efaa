import Lending.Desk
import Lending.Proofs.Reconciliation
import Lending.Proofs.Tidiness

/-!
# A request is handled whole or not at all

`Ledger.attempt` gives an effect or a fault, and there is nothing between the two. A `Desk` is
written on bit by bit, and there could be: a procedure that fails after its first write leaves a
part of what it was to do. This file says that none does. After a request the desk is what the
attempt makes of it (`Desk.settle`), with an effect its ledger and one more line in the journal, and
with a fault the desk of before; so what holds of histories holds of desks (`Desk.serve_eq`).

There is one lemma per kind of step. A check that stops the procedure leaves the desk as it is, as
long as nothing has been written (`Procedure.settles_check`), and a check that is known to pass is
no step at all (`Procedure.settles_passed`). There is no lemma for a check after a write, and no
procedure needs one. Only the receipts take a check of the second kind: the difference of two
records is never negative, since a trade moves them by what it says it does.
-/

set_option autoImplicit false

namespace Lending

open Quantity

/-- What an attempt makes of the desk, and what it answers. -/
def Desk.settle (d : Desk) : Except Fault Effect → EStateM.Result Fault Desk Receipt
  | .ok e => .ok e.receipt ⟨e.ledger, d.journal ++ [e.line]⟩
  | .error f => .error f d

namespace Procedure

/-- The procedure, started on the desk, does what the attempt does, whole or not at all. -/
def Settles (d : Desk) (x : Procedure Receipt) (attempt : Except Fault Effect) : Prop :=
  x.run d = d.settle attempt

variable {α : Type} {d : Desk} {rule : Except Fault α} {f : α → Procedure Receipt}

/-- A check that stops the procedure leaves the desk as it is. -/
theorem settles_check {g : α → Except Fault Effect}
    (h : ∀ a, rule = .ok a → Settles d (f a) (g a)) :
    Settles d (check rule >>= f) (rule >>= g) := by
  cases hrule : rule with
  | ok a => exact h a hrule
  | error cause => rfl

/-- A check that passes is no step at all. -/
theorem settles_passed {attempt : Except Fault Effect} {a : α} (ha : rule = .ok a)
    (h : Settles d (f a) attempt) : Settles d (check rule >>= f) attempt := by
  rw [ha]
  exact h

theorem demand_sub?_of_add {total part rest : Amount} {cause : Fault}
    (h : total.toNat = part.toNat + rest.toNat) : demand (total.sub? part) cause = .ok rest := by
  rw [demand_eq_ok_iff, sub?_eq_some_iff]
  omega

/-- An action is written as it is attempted. Where its receipt tells a difference, that is the
amount on the other side of the trade. -/
theorem settles_charging (d : Desk) (caller : Key) (action : Action) (interest : Amount) :
    Settles d (charging caller action interest) (d.ledger.apply caller action interest) := by
  simp only [Ledger.apply, Ledger.accrue, bind_assoc, pure_bind]
  show Settles d (check (d.ledger.pool.accrue interest) >>= _) _
  refine settles_check fun pool _ => ?_
  cases action with
  | deposit amount =>
    simp only [Ledger.act, bind_assoc, pure_bind]
    exact settles_check fun after _ => rfl
  | withdraw amount =>
    simp only [Ledger.act, bind_assoc, pure_bind]
    exact settles_check fun after _ => rfl
  | mint amount =>
    simp only [Ledger.act, bind_assoc, pure_bind]
    refine settles_check fun fee _ => settles_check fun minted hminted => ?_
    obtain ⟨shares, after⟩ := minted
    obtain ⟨-, _, own, _, _, -, hown, -, -, rfl⟩ := Position.mint_eq_ok_iff.mp hminted
    exact settles_passed (demand_sub?_of_add hown) rfl
  | burn shares =>
    simp only [Ledger.act, bind_assoc, pure_bind]
    refine settles_check fun burned hburned => ?_
    obtain ⟨redeemed, after⟩ := burned
    obtain ⟨-, _, _, _, liquidity, -, -, -, hliquidity, rfl⟩ := Position.burn_eq_ok_iff.mp hburned
    exact settles_passed (demand_sub?_of_add hliquidity.symm) rfl
  | borrow amount =>
    simp only [Ledger.act, bind_assoc, pure_bind]
    refine settles_check fun fee _ => settles_check fun borrowed hborrowed => ?_
    obtain ⟨bonds, after⟩ := borrowed
    obtain ⟨_, -, -, _, _, own, -, -, hown, rfl⟩ := Position.borrow_eq_ok_iff.mp hborrowed
    exact settles_passed (demand_sub?_of_add hown) rfl
  | repay bonds =>
    simp only [Ledger.act, bind_assoc, pure_bind]
    refine settles_check fun repaid hrepaid => ?_
    obtain ⟨credited, after⟩ := repaid
    obtain ⟨-, _, borrowable, _, -, hborrowable, -, -, rfl⟩ := Position.repay_eq_ok_iff.mp hrepaid
    exact settles_passed (demand_sub?_of_add hborrowable) rfl
  | liquidate victim cash =>
    simp only [Ledger.act, bind_assoc, pure_bind]
    exact settles_check fun burned _ => rfl
  | accrue => rfl
  | transfer recipient shares =>
    simp only [Ledger.act, Ledger.send]
    by_cases hself : recipient = caller
    · simp only [if_pos hself, bind_assoc, pure_bind]
      exact settles_check fun _ _ => rfl
    · simp only [if_neg hself, bind_assoc, pure_bind]
      exact settles_check fun sent _ => rfl
  | repayFor debtor cash =>
    simp only [Ledger.act, bind_assoc, pure_bind]
    refine settles_check fun burned hburned => ?_
    obtain ⟨c, after⟩ := burned
    have hspent := (Position.exists_of_repayWithCash hburned).2.1
    refine settles_passed (a := cash - c.repaid) ?_ rfl
    rw [demand_eq_ok_iff, sub?_eq_some_iff]
    exact toNat_sub_add_toNat hspent
  | approve spender amount => rfl
  | raiseAllowance spender delta =>
    simp only [Ledger.act, bind_assoc, pure_bind]
    exact settles_check fun amount _ => rfl
  | lowerAllowance spender delta =>
    simp only [Ledger.act, bind_assoc, pure_bind]
    exact settles_check fun amount _ => rfl
  | transferFrom owner recipient shares =>
    simp only [Ledger.act, Ledger.sendFor, Ledger.send, bind_assoc, pure_bind]
    refine settles_check fun remaining _ => ?_
    by_cases hself : recipient = owner
    · simp only [if_pos hself, bind_assoc, pure_bind]
      exact settles_check fun _ _ => rfl
    · simp only [if_neg hself, bind_assoc, pure_bind]
      exact settles_check fun sent _ => rfl

/-- A stamp that follows is the last write of both. -/
theorem Settles.stamped {x : Procedure Receipt} {attempt : Except Fault Effect}
    (h : Settles d x attempt) (time : Timestamp) :
    Settles d (do
        let receipt ← x
        stamp time
        return receipt)
      (do
        let e ← attempt
        return { e with ledger := e.ledger.stamp time }) := by
  unfold Settles at h ⊢
  rw [EStateM.run_bind, h]
  cases attempt with
  | ok e => rfl
  | error f => rfl

theorem settles_clocked (d : Desk) (caller : Key) (action : Action) (curve : RateCurve)
    (now : Timestamp) :
    Settles d (clocked caller action curve now) (d.ledger.applyAt caller action curve now) := by
  unfold Ledger.applyAt
  show Settles d (check (d.ledger.pool.pending curve now) >>= _) _
  refine settles_check fun due _ => ?_
  obtain ⟨interest, time⟩ := due
  exact (settles_charging d caller action interest).stamped time

end Procedure

namespace Desk

/-- A request is handled as it is attempted. -/
theorem handle_eq_settle (d : Desk) (r : Request) :
    d.handle r = d.settle (d.ledger.attempt r) := by
  cases r with
  | charging caller action interest => exact Procedure.settles_charging d caller action interest
  | clocked caller action curve now => exact Procedure.settles_clocked d caller action curve now

theorem handle_of_ok {d : Desk} {r : Request} {e : Effect} (h : d.ledger.attempt r = .ok e) :
    d.handle r = .ok e.receipt ⟨e.ledger, d.journal ++ [e.line]⟩ := by
  rw [handle_eq_settle, h]
  rfl

theorem handle_of_error {d : Desk} {r : Request} {f : Fault}
    (h : d.ledger.attempt r = .error f) : d.handle r = .error f d := by
  rw [handle_eq_settle, h]
  rfl

theorem after_of_ok {d : Desk} {r : Request} {e : Effect} (h : d.ledger.attempt r = .ok e) :
    d.after r = ⟨e.ledger, d.journal ++ [e.line]⟩ := by
  rw [after, handle_of_ok h]

theorem after_of_error {d : Desk} {r : Request} {f : Fault} (h : d.ledger.attempt r = .error f) :
    d.after r = d := by
  rw [after, handle_of_error h]

/-- A desk that serves many requests ends with the ledger of their history, and with a line in its
journal for each that took effect. -/
theorem serve_eq (d : Desk) (requests : List Request) :
    d.serve requests = ⟨d.ledger.run (requests.map .request),
      d.journal ++ (d.ledger.events (requests.map .request)).map fun ev => ev.effect.line⟩ := by
  induction requests generalizing d with
  | nil => simp [serve, Ledger.events]
  | cons r rest ih =>
    have hserve : d.serve (r :: rest) = (d.after r).serve rest := rfl
    rw [hserve, ih, List.map_cons]
    cases hr : d.ledger.attempt r with
    | ok e =>
      obtain ⟨hevents, hrun⟩ := Ledger.events_of_attempt hr (rest.map .request)
      rw [after_of_ok hr, hevents, hrun, List.map_cons, List.append_assoc]
      rfl
    | error f =>
      obtain ⟨hevents, hrun⟩ := Ledger.events_of_refused hr (rest.map .request)
      rw [after_of_error hr, hevents, hrun]

/-- Whatever the ledger and the journal, and whoever asks for what: a request that is refused leaves
the desk exactly as it was, the interest of that request included. One that takes effect writes one
line, that of its receipt and of the interest it charged, and stores no empty account and no
allowance of zero that was not stored before. -/
theorem handled_whole_or_not_at_all (d : Desk) (r : Request) :
    (∀ f left, d.handle r = .error f left → left = d) ∧
    ∀ receipt left, d.handle r = .ok receipt left →
      (∃ interest time, d.ledger.due r = .ok (interest, time) ∧
        left.journal = d.journal ++ [receipt.line interest]) ∧
      (∀ entry ∈ left.ledger.accounts.entries, entry.2.IsEmpty →
        entry ∈ d.ledger.accounts.entries) ∧
      ∀ entry ∈ left.ledger.allowances.entries, entry.2 = 0 →
        entry ∈ d.ledger.allowances.entries := by
  cases hr : d.ledger.attempt r with
  | ok e =>
    rw [handle_of_ok hr]
    refine ⟨fun f left h => (by cases h), ?_⟩
    intro receipt left h
    cases h
    obtain ⟨time, charged, acted, hdue, -⟩ := Ledger.exists_of_attempt hr
    obtain ⟨haccount, hallowance⟩ := Ledger.addsNoIdle_of_attempt hr
    refine ⟨⟨e.interest, time, hdue, rfl⟩, ?_, ?_⟩
    · intro entry hentry hidle
      exact haccount hentry hidle
    · intro entry hentry hidle
      exact hallowance hentry hidle
  | error f =>
    rw [handle_of_error hr]
    refine ⟨?_, fun receipt left h => (by cases h)⟩
    intro f' left h
    cases h
    rfl

/-- A desk on which fifty were put up as collateral. -/
def fiftyPutUp : Desk :=
  serve ⟨.genesis, []⟩ [.charging 0 (.deposit ⟨50, by decide⟩) 0]

/-- To take fifty-one back is refused with the interest, and to take fifty back is written down. -/
theorem withdrawals_are_whole_or_not_at_all :
    (∃ left, fiftyPutUp.handle (.charging 0 (.withdraw ⟨51, by decide⟩) ⟨7, by decide⟩) =
      .error .withdrawExceedsCollateral left ∧ left = fiftyPutUp) ∧
    ∃ receipt left, fiftyPutUp.handle (.charging 0 (.withdraw ⟨50, by decide⟩) ⟨7, by decide⟩) =
      .ok receipt left ∧ ∃ line, left.journal = fiftyPutUp.journal ++ [line] := by
  obtain ⟨left, hrefused⟩ : ∃ left, fiftyPutUp.handle
      (.charging 0 (.withdraw ⟨51, by decide⟩) ⟨7, by decide⟩) =
        .error .withdrawExceedsCollateral left := ⟨_, rfl⟩
  obtain ⟨receipt, left', hdone⟩ : ∃ receipt left, fiftyPutUp.handle
      (.charging 0 (.withdraw ⟨50, by decide⟩) ⟨7, by decide⟩) = .ok receipt left := ⟨_, _, rfl⟩
  have hsame := (handled_whole_or_not_at_all _ _).1 _ left hrefused
  obtain ⟨⟨interest, time, -, hline⟩, -⟩ :=
    (handled_whole_or_not_at_all _ _).2 receipt left' hdone
  exact ⟨⟨left, hrefused, hsame⟩, receipt, left', hdone, _, hline⟩

end Desk

end Lending
