import Lending.Proofs.Ownership
import Lending.Proofs.Reconciliation

/-!
# A pool can be unwound, by anybody and in any order

Suppose that no more interest is charged, that everybody pays what he owes and that everybody then
takes out what he owns. Prices are rounded anew at each exit, and always against whoever leaves, so
it has to be said that nobody is turned away and that nothing is left behind or missing at the end.

Both halves of it are one argument. Each exit is admitted, because what a holder has is part of the
totals, and it takes what it pays out of what is left (`Drains`). A pool whose value is owned stays
so, exit by exit (`Pool.Owned`), and where the last bond or the last share is gone there is nothing
left for it to be owned by. So the payments come to all there was, whoever made them and in however
many parts (`Drains.run`).

The order of the two halves matters. Shares are redeemed as far as their worth is not out on loan,
so it is only after the last bond that every holder can leave.
-/

set_option autoImplicit false

namespace Lending

open Quantity

/-! ## Exits -/

/-- One holder after the other asks for his amount, at no interest. -/
def inTurn (action : Amount → Action) (asked : List (Key × Amount)) : List Step :=
  asked.map fun x => .request (.charging x.1 (action x.2) 0)

theorem inTurn_cons (action : Amount → Action) (holder : Key) (amount : Amount)
    (rest : List (Key × Amount)) :
    inTurn action ((holder, amount) :: rest) =
      .request (.charging holder (action amount) 0) :: inTurn action rest := rfl

namespace Ledger

/-- Every one of these steps takes effect. -/
def Admits (l : Ledger) (steps : List Step) : Prop :=
  (l.events steps).map (fun e => .request e.request) = steps

theorem length_events_le (steps : List Step) (l : Ledger) :
    (l.events steps).length ≤ steps.length := by
  induction steps generalizing l with
  | nil => exact Nat.le_refl 0
  | cons s rest ih =>
    cases s with
    | setFees fees => exact Nat.le_succ_of_le (ih (l.withFees fees))
    | request r =>
      rcases l.events_request r rest with ⟨e, -, hevents, -⟩ | ⟨hevents, -⟩
      · rw [hevents]
        exact Nat.succ_le_succ (ih e.ledger)
      · rw [hevents]
        exact Nat.le_succ_of_le (ih l)

/-- Steps that all take effect do so one after the other. -/
theorem Admits.exists_of_cons {l : Ledger} {r : Request} {rest : List Step}
    (h : l.Admits (.request r :: rest)) :
    ∃ e, l.attempt r = .ok e ∧ e.ledger.Admits rest ∧
      l.run (.request r :: rest) = e.ledger.run rest := by
  rcases l.events_request r rest with ⟨e, he, hevents, hrun⟩ | ⟨hevents, -⟩
  · rw [Admits, hevents, List.map_cons] at h
    exact ⟨e, he, (List.cons.inj h).2, hrun⟩
  · -- If the first were refused there would be fewer events than steps.
    have hlength := congrArg List.length h
    rw [hevents, List.length_map, List.length_cons] at hlength
    have hfewer := length_events_le rest l
    omega

/-- Everybody who asks has what he asks for, when it is his turn. -/
def Affords (balance : Account → Amount) (action : Amount → Action) :
    Ledger → List (Key × Amount) → Prop
  | _, [] => True
  | l, (holder, amount) :: rest => amount ≤ balance (l.account holder) ∧
    (l.after (.request (.charging holder (action amount) 0))).Affords balance action rest

variable {l : Ledger}

/-- Where `P` holds, whoever has the balance for an action can take it. It keeps `P`, and what it
pays is what it leaves less of. -/
structure Drains (P : Ledger → Prop) (balance : Account → Amount) (action : Amount → Action)
    (paid : Turnover → Nat) (left : Pool → Nat) : Prop where
  paid_nil : paid {} = 0
  paid_add (t u : Turnover) : paid (t.add u) = paid t + paid u
  turn {l : Ledger} {holder : Key} {amount : Amount} (hl : P l)
    (h : amount ≤ balance (l.account holder)) :
    ∃ e, l.apply holder (action amount) 0 = .ok e ∧ P e.ledger ∧
      paid e.turnover + left e.ledger.pool = left l.pool

theorem Drains.run {P : Ledger → Prop} {balance : Account → Amount} {action : Amount → Action}
    {paid : Turnover → Nat} {left : Pool → Nat} (hd : Drains P balance action paid left)
    {asked : List (Key × Amount)} (hl : P l) (h : l.Affords balance action asked) :
    l.Admits (inTurn action asked) ∧ P (l.run (inTurn action asked)) ∧
      paid (.ofEvents (l.events (inTurn action asked))) + left (l.run (inTurn action asked)).pool =
        left l.pool := by
  induction asked generalizing l with
  | nil =>
    have hnone : paid {} + left l.pool = left l.pool := by rw [hd.paid_nil, Nat.zero_add]
    exact ⟨rfl, hl, hnone⟩
  | cons x rest ih =>
    obtain ⟨holder, amount⟩ := x
    obtain ⟨hheld, hrest⟩ := h
    obtain ⟨e, he, hkept, hpaid⟩ := hd.turn hl hheld
    have hadmitted : l.attempt (.charging holder (action amount) 0) = .ok e := he
    have hafter : l.after (.request (.charging holder (action amount) 0)) = e.ledger := by
      simp only [after, submit, commit, hadmitted]
    obtain ⟨hadmits, hend, hsum⟩ := ih hkept (hafter ▸ hrest)
    obtain ⟨hevents, hrun⟩ := events_of_attempt hadmitted (inTurn action rest)
    refine ⟨?_, ?_, ?_⟩
    · rw [Admits, inTurn_cons, hevents, List.map_cons, hadmits]
    · rw [inTurn_cons, hrun]
      exact hend
    · rw [inTurn_cons, hevents, hrun, Turnover.ofEvents, hd.paid_add, Nat.add_assoc, hsum]
      exact hpaid

/-! ## Paying the debt -/

/-- Repayments drain the debt, and leave the liquidity as it is. -/
theorem drains_debt (liquidity : Amount) :
    Drains (fun l => l.Sound ∧ l.pool.Owned ∧ l.pool.liquidity = liquidity) Account.bonds .repay
      Turnover.credited Pool.lent where
  paid_nil := rfl
  paid_add _ _ := rfl
  turn := by
    intro l holder bonds hl hheld
    obtain ⟨hsound, howned, hliquidity⟩ := hl
    obtain ⟨v, q, hq⟩ :=
      Position.exists_repay (hsound.balanced.within holder) hsound.solvent hheld
    have hact : l.act holder (.repay bonds) = .ok (.repaid bonds v, l.setPosition holder q) :=
      bind_eq_ok_iff.mpr ⟨(v, q), hq, rfl⟩
    have hacts := acts_of_act hact
    have hafter := hsound.act hacts
    have hlent := hacts.settles.lent hsound.solvent hafter.solvent
    have hsame := hacts.settles.liquidity
    simp only [Receipt.turnover, Nat.add_zero] at hlent hsame
    refine ⟨_, apply_of_act hact, ⟨hafter, hacts.owned hsound.solvent howned, ?_⟩, ?_⟩
    · exact (Quantity.ext_iff.mpr hsame).trans hliquidity
    · exact (Nat.add_comm _ _).trans hlent

/-! ## Taking out the liquidity -/

/-- Where nothing is lent out, redemptions drain the liquidity. -/
theorem drains_liquidity :
    Drains (fun l => l.Sound ∧ l.pool.Owned ∧ l.pool.lent = 0) Account.shares .burn
      Turnover.redeemed fun pool => pool.liquidity.toNat where
  paid_nil := rfl
  paid_add _ _ := rfl
  turn := by
    intro l holder shares hl hheld
    obtain ⟨hsound, howned, hnothing⟩ := hl
    obtain ⟨v, q, hq⟩ :=
      Position.exists_burn (hsound.balanced.within holder) hsound.solvent hnothing hheld
    have hact : l.act holder (.burn shares) = .ok (.burned shares v, l.setPosition holder q) :=
      bind_eq_ok_iff.mpr ⟨(v, q), hq, rfl⟩
    have hacts := acts_of_act hact
    have hafter := hsound.act hacts
    have hlent := hacts.settles.lent hsound.solvent hafter.solvent
    have hleft := hacts.settles.liquidity
    simp only [Receipt.turnover, Nat.add_zero] at hlent hleft
    refine ⟨_, apply_of_act hact, ⟨hafter, hacts.owned hsound.solvent howned, ?_⟩, ?_⟩
    · exact hlent.trans hnothing
    · exact (Nat.add_comm _ _).trans hleft

/-! ## Both -/

/-- On a ledger that passes its audit and whose value is owned, everybody can pay what he owes, in
any order and in any parts; when the last bond is gone, exactly the debt was paid and all liquidity
is there. From then on everybody can redeem his shares, in any order and in any parts; when the last
share is gone, exactly the liquidity was paid out and nothing is left. -/
theorem unwinds_in_any_order (haudit : l.audit = .ok ()) (howned : l.pool.Owned)
    {payments : List (Key × Amount)} (h : l.Affords Account.bonds .repay payments) :
    let paid := l.run (inTurn .repay payments)
    l.Admits (inTurn .repay payments) ∧
    (paid.pool.bonds = 0 →
      (Turnover.ofEvents (l.events (inTurn .repay payments))).credited = l.pool.lent ∧
      paid.pool.borrowable = paid.pool.liquidity ∧
      ∀ redemptions, paid.Affords Account.shares .burn redemptions →
        let redeemed := paid.run (inTurn .burn redemptions)
        paid.Admits (inTurn .burn redemptions) ∧
        (redeemed.pool.shares = 0 →
          (Turnover.ofEvents (paid.events (inTurn .burn redemptions))).redeemed =
            l.pool.liquidity.toNat ∧
          redeemed.pool.liquidity = 0 ∧ redeemed.pool.borrowable = 0)) := by
  intro paid
  have hstart : l.Sound ∧ l.pool.Owned ∧ l.pool.liquidity = l.pool.liquidity :=
    ⟨sound_iff.mpr haudit, howned, rfl⟩
  obtain ⟨hadmits, ⟨hsound, howned', hliquidity⟩, hcredited⟩ :=
    (drains_debt l.pool.liquidity).run hstart h
  refine ⟨hadmits, ?_⟩
  intro hnone
  have hnothing : paid.pool.lent = 0 := howned'.lent_eq_zero (eq_zero_iff.mp hnone)
  have hall : paid.pool.borrowable = paid.pool.liquidity := by
    have hsolvent : paid.pool.Solvent := hsound.solvent
    have hlent := hsolvent.lent_add
    exact Quantity.ext (by omega)
  have hsum : (Turnover.ofEvents (l.events (inTurn .repay payments))).credited + paid.pool.lent =
      l.pool.lent := hcredited
  refine ⟨by omega, hall, ?_⟩
  intro redemptions hredemptions redeemed
  obtain ⟨hadmits', ⟨hsound', howned'', -⟩, hpaid⟩ :=
    drains_liquidity.run ⟨hsound, howned', hnothing⟩ hredemptions
  have hsum' : (Turnover.ofEvents (paid.events (inTurn .burn redemptions))).redeemed +
      redeemed.pool.liquidity.toNat = paid.pool.liquidity.toNat := hpaid
  rw [hliquidity] at hsum'
  refine ⟨hadmits', ?_⟩
  intro hnoshares
  have hempty : redeemed.pool.liquidity.toNat = 0 :=
    howned''.liquidity_eq_zero (eq_zero_iff.mp hnoshares)
  have hsolvent : redeemed.pool.Solvent := hsound'.solvent
  have hlent := hsolvent.lent_add
  exact ⟨by omega, eq_zero_iff.mpr hempty, eq_zero_iff.mpr (by omega)⟩

/-- Two holders in a pool that prices a share and a bond above one. -/
def twoHolders : Ledger :=
  ofParts ⟨0, ⟨47, by decide⟩, ⟨31, by decide⟩, ⟨18, by decide⟩, ⟨23, by decide⟩, 0, 0⟩
    [(0, ⟨0, ⟨19, by decide⟩, ⟨17, by decide⟩⟩),
      (⟨List.replicate 32 3, rfl⟩, ⟨0, ⟨12, by decide⟩, ⟨6, by decide⟩⟩)]

/-- The debt of twenty-nine is paid in three parts, and the liquidity leaves in three others. -/
theorem two_holders_unwind :
    let payments : List (Key × Amount) := [(⟨List.replicate 32 3, rfl⟩, ⟨4, by decide⟩),
      (0, ⟨17, by decide⟩), (⟨List.replicate 32 3, rfl⟩, ⟨2, by decide⟩)]
    let redemptions : List (Key × Amount) := [(0, ⟨5, by decide⟩),
      (⟨List.replicate 32 3, rfl⟩, ⟨12, by decide⟩), (0, ⟨14, by decide⟩)]
    let paid := twoHolders.run (inTurn .repay payments)
    twoHolders.audit = .ok () ∧ twoHolders.pool.Owned ∧
    twoHolders.Affords Account.bonds .repay payments ∧ paid.pool.bonds = 0 ∧
    paid.Affords Account.shares .burn redemptions ∧
    (paid.run (inTurn .burn redemptions)).pool.shares = 0 ∧
    (Turnover.ofEvents (twoHolders.events (inTurn .repay payments))).credited = 29 ∧
    (Turnover.ofEvents (paid.events (inTurn .burn redemptions))).redeemed = 47 := by
  intro payments redemptions paid
  have haudit : twoHolders.audit = .ok () := rfl
  have howned : twoHolders.pool.Owned := ⟨by decide, by decide⟩
  have hpayments : twoHolders.Affords Account.bonds .repay payments :=
    ⟨by decide, by decide, by decide, trivial⟩
  have hnone : paid.pool.bonds = 0 := by decide +kernel
  have hredemptions : paid.Affords Account.shares .burn redemptions :=
    ⟨by decide +kernel, by decide +kernel, by decide +kernel, trivial⟩
  have hnoshares : (paid.run (inTurn .burn redemptions)).pool.shares = 0 := by decide +kernel
  obtain ⟨-, hpaid⟩ := unwinds_in_any_order haudit howned hpayments
  obtain ⟨hcredited, -, hredeemed⟩ := hpaid hnone
  obtain ⟨hout, -, -⟩ := (hredeemed redemptions hredemptions).2 hnoshares
  exact ⟨haudit, howned, hpayments, hnone, hredemptions, hnoshares, hcredited, hout⟩

end Ledger

end Lending
