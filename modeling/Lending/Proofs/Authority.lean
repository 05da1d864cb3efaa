import Lending.Proofs.Transitions

/-!
# What an action may do to others

Nothing here checks a signature. The host says who the caller is, and what protects everybody else
is what an action in that name can reach. Up to three holders appear in one action, some of them may
be the same, and each account is written back from a copy.

There are four ways to reach the account of somebody who did not call (`Ledger.Reaches`): a debt is
paid, with the payer's cash or out of the debtor's own collateral; shares are received; and shares
are sent on an allowance, which is spent by as many. The rest is read off that list
(`Ledger.Authorized`): what can be taken from a holder and what cannot, and that a holder whom the
action does not name keeps the account as it is. Over a history it comes to this: whoever has
allowed nobody anything, and stays away, loses no shares and owes no more bonds
(`Ledger.idle_holder_loses_no_shares`).
-/

set_option autoImplicit false

namespace Lending

open Quantity

/-- The action names the holder as one whose account it may write: as the debtor whose debt is paid,
or as an end of a transfer. The spender of an allowance is not one of these. -/
def Action.Names (holder : Key) : Action → Prop
  | .liquidate victim _ => holder = victim
  | .repayFor debtor _ => holder = debtor
  | .transfer recipient _ => holder = recipient
  | .transferFrom owner recipient _ => holder = owner ∨ holder = recipient
  | _ => False

namespace Ledger

variable {l after : Ledger} {caller holder : Key} {action : Action} {r : Receipt}

/-! ## Accounts -/

/-- What an action can make of the account of a holder who did not call. -/
inductive Reaches (l : Ledger) (caller holder : Key) (after : Ledger) : Action → Account → Prop
  | untouched {action : Action} : Reaches l caller holder after action (l.account holder)
  | paid {cash own : Amount} (hbonds : own ≤ (l.account holder).bonds) :
      Reaches l caller holder after (.repayFor holder cash) { l.account holder with bonds := own }
  | seized {cash own collateral : Amount} (hbonds : own ≤ (l.account holder).bonds)
      (hcollateral : collateral ≤ (l.account holder).collateral)
      (hcash : (l.account holder).collateral.toNat ≤ collateral.toNat + cash.toNat) :
      Reaches l caller holder after (.liquidate holder cash)
        { l.account holder with collateral, bonds := own }
  | received {action : Action} {shares own : Amount}
      (haction : action = .transfer holder shares ∨
        ∃ owner, owner ≠ holder ∧ action = .transferFrom owner holder shares)
      (hown : own.toNat = (l.account holder).shares.toNat + shares.toNat) :
      Reaches l caller holder after action { l.account holder with shares := own }
  | spent {recipient : Key} {shares own : Amount} (hrecipient : recipient ≠ holder)
      (hown : own.toNat + shares.toNat = (l.account holder).shares.toNat)
      (hallowance : (after.allowance holder caller).toNat + shares.toNat =
        (l.allowance holder caller).toNat) :
      Reaches l caller holder after (.transferFrom holder recipient shares)
        { l.account holder with shares := own }

/-- A trade reaches another holder only by paying that holder's debt. -/
theorem reaches_of_trade {q : Position} (hholder : holder ≠ caller)
    (h : (l.position (action.holder caller)).Trades l.fees action r q) :
    ∃ a, (l.setPosition (action.holder caller) q).account holder = a ∧
      l.Reaches caller holder (l.setPosition (action.holder caller) q) action a := by
  refine ⟨_, account_setPosition _ _ _ _, ?_⟩
  split
  · next hsame =>
    cases h with
    | deposit _ | withdraw _ | mint _ _ | burn _ | borrow _ _ | repay _ =>
      exact absurd hsame hholder
    | liquidate h =>
      obtain rfl : holder = _ := hsame
      obtain ⟨-, mid, hmid, -⟩ := Position.liquidate_eq_ok_iff.mp h
      have hspent := (Position.exists_of_repayWithCash hmid).2.1
      obtain ⟨-, _, own, _, collateral, _, -, -, hown, -, hcollateral, -, rfl⟩ :=
        Position.exists_of_liquidate h
      refine .seized (Nat.le.intro hown) (Nat.le.intro hcollateral) ?_
      exact hcollateral ▸ Nat.add_le_add_left hspent collateral.toNat
    | repayFor h =>
      obtain rfl : holder = _ := hsame
      obtain ⟨-, -, _, own, _, -, -, hown, -, rfl⟩ := Position.exists_of_repayWithCash h
      exact .paid (Nat.le.intro hown)
  · exact .untouched

/-- Shares that are sent reach the two ends of the transfer. -/
theorem account_of_send {sender recipient : Key} {shares : Amount}
    (h : l.send sender recipient shares = .ok after) (holder : Key) :
    after.account holder = l.account holder ∨
      (recipient ≠ sender ∧ ∃ own : Amount,
        after.account holder = { l.account holder with shares := own } ∧
        (holder = recipient ∧ own.toNat = (l.account holder).shares.toNat + shares.toNat ∨
          holder = sender ∧ own.toNat + shares.toNat = (l.account holder).shares.toNat)) := by
  rcases exists_of_send h with ⟨-, rfl⟩ | ⟨hne, left, received, hleft, hreceived, rfl⟩
  · exact .inl rfl
  · rw [account_setAccount, account_setAccount]
    by_cases hrecipient : holder = recipient
    · subst hrecipient
      rw [if_pos rfl]
      exact .inr ⟨hne, received, rfl, .inl ⟨rfl, hreceived⟩⟩
    · rw [if_neg hrecipient]
      by_cases hsender : holder = sender
      · subst hsender
        rw [if_pos rfl]
        exact .inr ⟨hne, left, rfl, .inr ⟨rfl, hleft⟩⟩
      · rw [if_neg hsender]
        exact .inl rfl

theorem Acts.reaches (h : l.Acts caller action r after) (hholder : holder ≠ caller) :
    ∃ a, after.account holder = a ∧ l.Reaches caller holder after action a := by
  cases h with
  | trade h => exact reaches_of_trade hholder h
  | accrue | approve | raiseAllowance _ | lowerAllowance _ => exact ⟨_, rfl, .untouched⟩
  | transfer h =>
    rcases account_of_send h holder with hsame | ⟨-, own, hafter, ⟨rfl, hown⟩ | ⟨hsender, -⟩⟩
    · exact ⟨_, hsame, .untouched⟩
    · exact ⟨_, hafter, .received (.inl rfl) hown⟩
    · exact absurd hsender hholder
  | transferFrom h =>
    obtain ⟨remaining, sent, hremaining, hsent, rfl⟩ := sendFor_eq_ok_iff.mp h
    split
    · next hself =>
      rcases account_of_send hsent holder with hsame | ⟨hne, -⟩
      · exact ⟨_, hsame, .untouched⟩
      · exact absurd hself hne
    · next hne =>
      rcases account_of_send hsent holder with hsame | ⟨-, own, hafter, ⟨rfl, hown⟩ | ⟨rfl, hown⟩⟩
      · exact ⟨_, hsame, .untouched⟩
      · exact ⟨_, hafter, .received (.inr ⟨_, Ne.symm hne, rfl⟩) hown⟩
      · refine ⟨_, hafter, .spent hne hown ?_⟩
        rw [allowance_setAllowance, if_pos ⟨rfl, rfl⟩]
        exact hremaining

/-! ## Allowances -/

/-- A write of one allowance leaves the others. -/
theorem allowance_setAllowance_cases (l : Ledger) (owner spender : Key) (amount : Amount)
    (owner' spender' : Key) :
    (l.setAllowance owner spender amount).allowance owner' spender' =
        l.allowance owner' spender' ∨ owner' = owner ∧ spender' = spender := by
  rw [allowance_setAllowance]
  split
  · next hsame => exact .inr hsame
  · exact .inl rfl

/-- An allowance is written by its owner, or spent by its spender. -/
theorem Acts.allowance_cases (h : l.Acts caller action r after) (owner spender : Key) :
    after.allowance owner spender = l.allowance owner spender ∨
      (owner = caller ∧ ∃ amount, action = .approve spender amount ∨
        action = .raiseAllowance spender amount ∨ action = .lowerAllowance spender amount) ∨
      (spender = caller ∧ ∃ recipient shares, action = .transferFrom owner recipient shares ∧
        (after.allowance owner spender).toNat + shares.toNat =
          (l.allowance owner spender).toNat) := by
  cases h with
  | trade _ | accrue => exact .inl rfl
  | transfer h =>
    obtain ⟨accounts, rfl⟩ := exists_accounts_of_send h
    exact .inl rfl
  | @approve named amount =>
    rcases allowance_setAllowance_cases l caller named amount owner spender with hsame | ⟨rfl, rfl⟩
    · exact .inl hsame
    · exact .inr (.inl ⟨rfl, _, .inl rfl⟩)
  | @raiseAllowance named _ amount _ =>
    rcases allowance_setAllowance_cases l caller named amount owner spender with hsame | ⟨rfl, rfl⟩
    · exact .inl hsame
    · exact .inr (.inl ⟨rfl, _, .inr (.inl rfl)⟩)
  | @lowerAllowance named _ amount _ =>
    rcases allowance_setAllowance_cases l caller named amount owner spender with hsame | ⟨rfl, rfl⟩
    · exact .inl hsame
    · exact .inr (.inl ⟨rfl, _, .inr (.inr rfl)⟩)
  | transferFrom h =>
    obtain ⟨remaining, sent, hremaining, hsent, rfl⟩ := sendFor_eq_ok_iff.mp h
    obtain ⟨accounts, rfl⟩ := exists_accounts_of_send hsent
    split
    · exact .inl rfl
    · rw [allowance_setAllowance]
      split
      · next hsame =>
        obtain ⟨rfl, rfl⟩ := hsame
        exact .inr (.inr ⟨rfl, _, _, rfl, hremaining⟩)
      · exact .inl rfl

/-! ## The rest of the ledger -/

theorem Acts.frame (h : l.Acts caller action r after) :
    after.fees = l.fees ∧ after.pool.accruedAt = l.pool.accruedAt ∧
      after.pool.reserved = l.pool.reserved := by
  refine ⟨?_, h.accruedAt_eq, ?_⟩
  · cases h with
    | trade _ | accrue | approve | raiseAllowance _ | lowerAllowance _ => rfl
    | transfer h =>
      obtain ⟨accounts, rfl⟩ := exists_accounts_of_send h
      rfl
    | transferFrom h =>
      obtain ⟨sent, hsent, -, -, hfees⟩ := exists_of_sendFor h
      obtain ⟨accounts, rfl⟩ := exists_accounts_of_send hsent
      exact hfees
  · rcases h.pool_cases with ⟨q, hq, hpool⟩ | hpool
    · rw [hpool]
      exact hq.frame.2
    · rw [hpool]

/-- Who pays somebody else's debt keeps his own account. -/
theorem Acts.account_of_payer (h : l.Acts caller action r after) {debtor : Key} {cash : Amount}
    (hdebtor : debtor ≠ caller)
    (haction : action = .liquidate debtor cash ∨ action = .repayFor debtor cash) :
    after.account caller = l.account caller := by
  have hholder : action.holder caller = debtor := by
    rcases haction with rfl | rfl
    · rfl
    · rfl
  have htrade : action.IsTrade := by
    rcases haction with rfl | rfl
    · trivial
    · trivial
  obtain ⟨q, -, rfl⟩ := h.exists_trade htrade
  rw [account_setPosition, hholder, if_neg (Ne.symm hdebtor)]

/-! ## Authority -/

/-- What an action of the caller leaves of a ledger keeps within what the caller may do. -/
structure Authorized (l : Ledger) (caller : Key) (action : Action) (after : Ledger) : Prop where
  /-- Shares leave another holder only on an allowance, which is spent by as many. -/
  shares_taken {holder : Key} (hholder : holder ≠ caller)
      (h : (after.account holder).shares < (l.account holder).shares) :
    ∃ recipient shares, recipient ≠ holder ∧ action = .transferFrom holder recipient shares ∧
      (after.account holder).shares.toNat + shares.toNat = (l.account holder).shares.toNat ∧
      shares ≤ l.allowance holder caller ∧
      (after.allowance holder caller).toNat + shares.toNat = (l.allowance holder caller).toNat
  /-- Shares come to another holder only as the recipient of a transfer. -/
  shares_given {holder : Key} (hholder : holder ≠ caller)
      (h : (l.account holder).shares < (after.account holder).shares) :
    ∃ shares : Amount,
      (after.account holder).shares.toNat = (l.account holder).shares.toNat + shares.toNat ∧
      (action = .transfer holder shares ∨
        ∃ owner, owner ≠ holder ∧ action = .transferFrom owner holder shares)
  /-- Nobody puts up collateral for another holder. -/
  collateral_le {holder : Key} (hholder : holder ≠ caller) :
    (after.account holder).collateral ≤ (l.account holder).collateral
  /-- Collateral of another holder is taken only to pay his debt, and up to the cash asked for. -/
  collateral_taken {holder : Key} (hholder : holder ≠ caller)
      (h : (after.account holder).collateral < (l.account holder).collateral) :
    ∃ cash : Amount, action = .liquidate holder cash ∧
      (l.account holder).collateral.toNat ≤ (after.account holder).collateral.toNat + cash.toNat
  /-- Nobody borrows in the name of another holder. -/
  bonds_le {holder : Key} (hholder : holder ≠ caller) :
    (after.account holder).bonds ≤ (l.account holder).bonds
  /-- Bonds of another holder are burned only by paying for them. -/
  bonds_taken {holder : Key} (hholder : holder ≠ caller)
      (h : (after.account holder).bonds < (l.account holder).bonds) :
    ∃ cash, action = .liquidate holder cash ∨ action = .repayFor holder cash
  /-- An account is left as it is if its holder neither calls nor is named. -/
  bystander {holder : Key} (hholder : holder ≠ caller) (h : ¬action.Names holder) :
    after.account holder = l.account holder
  /-- The payer of another holder's debt keeps his own account. -/
  payer {debtor : Key} {cash : Amount} (hdebtor : debtor ≠ caller)
      (h : action = .liquidate debtor cash ∨ action = .repayFor debtor cash) :
    after.account caller = l.account caller
  /-- An allowance is written by its owner or spent by its spender. -/
  allowance {owner spender : Key}
      (h : after.allowance owner spender ≠ l.allowance owner spender) :
    (owner = caller ∧ ∃ amount, action = .approve spender amount ∨
        action = .raiseAllowance spender amount ∨ action = .lowerAllowance spender amount) ∨
      (spender = caller ∧ ∃ recipient shares, action = .transferFrom owner recipient shares ∧
        (after.allowance owner spender).toNat + shares.toNat =
          (l.allowance owner spender).toNat)
  fees : after.fees = l.fees
  accruedAt : after.pool.accruedAt = l.pool.accruedAt
  reserved : after.pool.reserved = l.pool.reserved

theorem Acts.authorized (h : l.Acts caller action r after) : l.Authorized caller action after where
  shares_taken hholder hless := by
    obtain ⟨a, ha, hreach⟩ := h.reaches hholder
    rw [ha] at hless ⊢
    cases hreach with
    | untouched | paid _ | seized _ _ _ => exact absurd hless (Nat.lt_irrefl _)
    | received _ hown => exact absurd hless (Nat.not_lt.mpr (Nat.le.intro hown.symm))
    | spent hne hown hallowance =>
      exact ⟨_, _, hne, rfl, hown, Nat.le.intro (Nat.add_comm _ _ ▸ hallowance), hallowance⟩
  shares_given hholder hmore := by
    obtain ⟨a, ha, hreach⟩ := h.reaches hholder
    rw [ha] at hmore ⊢
    cases hreach with
    | untouched | paid _ | seized _ _ _ => exact absurd hmore (Nat.lt_irrefl _)
    | received haction hown => exact ⟨_, hown, haction⟩
    | spent _ hown _ => exact absurd hmore (Nat.not_lt.mpr (Nat.le.intro hown))
  collateral_le hholder := by
    obtain ⟨a, ha, hreach⟩ := h.reaches hholder
    rw [ha]
    cases hreach with
    | untouched | paid _ | received _ _ | spent _ _ _ => exact Nat.le_refl _
    | seized _ hcollateral _ => exact hcollateral
  collateral_taken hholder hless := by
    obtain ⟨a, ha, hreach⟩ := h.reaches hholder
    rw [ha] at hless ⊢
    cases hreach with
    | untouched | paid _ | received _ _ | spent _ _ _ => exact absurd hless (Nat.lt_irrefl _)
    | seized _ _ hcash => exact ⟨_, rfl, hcash⟩
  bonds_le hholder := by
    obtain ⟨a, ha, hreach⟩ := h.reaches hholder
    rw [ha]
    cases hreach with
    | untouched | received _ _ | spent _ _ _ => exact Nat.le_refl _
    | paid hbonds => exact hbonds
    | seized hbonds _ _ => exact hbonds
  bonds_taken hholder hless := by
    obtain ⟨a, ha, hreach⟩ := h.reaches hholder
    rw [ha] at hless
    cases hreach with
    | untouched | received _ _ | spent _ _ _ => exact absurd hless (Nat.lt_irrefl _)
    | paid _ => exact ⟨_, .inr rfl⟩
    | seized _ _ _ => exact ⟨_, .inl rfl⟩
  bystander hholder hnamed := by
    obtain ⟨a, ha, hreach⟩ := h.reaches hholder
    rw [ha]
    cases hreach with
    | untouched => rfl
    | paid _ | seized _ _ _ => exact absurd rfl hnamed
    | spent _ _ _ => exact absurd (.inl rfl) hnamed
    | received haction _ =>
      rcases haction with rfl | ⟨owner, -, rfl⟩
      · exact absurd rfl hnamed
      · exact absurd (.inr rfl) hnamed
  payer := h.account_of_payer
  allowance hne := (h.allowance_cases _ _).resolve_left hne
  fees := h.frame.1
  accruedAt := h.frame.2.1
  reserved := h.frame.2.2

theorem Authorized.of_accrue {charged : Ledger} {interest : Amount}
    (hcharged : l.accrue interest = .ok charged) (h : charged.Authorized caller action after) :
    l.Authorized caller action after := by
  -- The charge of interest is in the totals, which no field looks at.
  obtain ⟨liquidity, -, rfl⟩ := accrue_eq_ok_iff.mp hcharged
  exact ⟨h.shares_taken, h.shares_given, h.collateral_le, h.collateral_taken, h.bonds_le,
    h.bonds_taken, h.bystander, h.payer, h.allowance, h.fees, h.accruedAt, h.reserved⟩

/-- Whatever the ledger holds, an action that takes effect keeps within the authority of its caller:
it takes from others what they allowed, or what pays their debts, it writes no account that it does
not name, and no allowance but the caller's own and those that the caller spends. -/
theorem acts_within_authority {interest : Amount} {e : Effect}
    (h : l.apply caller action interest = .ok e) : l.Authorized caller action e.ledger := by
  obtain ⟨-, charged, hcharged, hacts⟩ := exists_of_apply h
  exact hacts.authorized.of_accrue hcharged

/-- The holder of ninety shares allows sixty of them to somebody else. -/
def sixtyAllowed : List Step :=
  [.request (.charging ⟨List.replicate 32 4, rfl⟩ (.mint ⟨90, by decide⟩) 0),
    .request (.charging ⟨List.replicate 32 4, rfl⟩ (.approve 0 ⟨60, by decide⟩) 0)]

/-- Forty-four of them are sent, and come off what is allowed. -/
theorem allowed_shares_are_sent :
    ∃ e, (genesis.run sixtyAllowed).apply 0
        (.transferFrom ⟨List.replicate 32 4, rfl⟩ ⟨List.replicate 32 5, rfl⟩ ⟨44, by decide⟩)
        ⟨3, by decide⟩ = .ok e ∧
      (e.ledger.allowance ⟨List.replicate 32 4, rfl⟩ 0).toNat + 44 =
        ((genesis.run sixtyAllowed).allowance ⟨List.replicate 32 4, rfl⟩ 0).toNat := by
  obtain ⟨e, he, hless⟩ : ∃ e, (genesis.run sixtyAllowed).apply 0
        (.transferFrom ⟨List.replicate 32 4, rfl⟩ ⟨List.replicate 32 5, rfl⟩ ⟨44, by decide⟩)
        ⟨3, by decide⟩ = .ok e ∧ (e.ledger.account ⟨List.replicate 32 4, rfl⟩).shares <
          ((genesis.run sixtyAllowed).account ⟨List.replicate 32 4, rfl⟩).shares :=
    ⟨_, rfl, by decide⟩
  obtain ⟨recipient, shares, -, haction, -, -, hspent⟩ :=
    (acts_within_authority he).shares_taken (by decide) hless
  cases haction
  exact ⟨e, he, hspent⟩

/-! ## Histories -/

/-- A request of either kind, stamp aside. -/
theorem authorized_of_attempt {request : Request} {e : Effect} (h : l.attempt request = .ok e) :
    ∃ acted time, l.Authorized request.caller request.action acted ∧
      e.ledger = acted.stamp time := by
  obtain ⟨time, charged, acted, -, hcharged, hacts, hstamp⟩ := exists_of_attempt h
  exact ⟨acted, time, hacts.authorized.of_accrue hcharged, hstamp⟩

/-- The account after a request is that of an action within the authority of the caller, and so are
the allowances, whether or not the request takes effect. -/
theorem exists_of_submit (l : Ledger) (request : Request) :
    (l.submit request).ledger = l ∨
      ∃ acted, l.Authorized request.caller request.action acted ∧
        (l.submit request).ledger.account = acted.account ∧
        (l.submit request).ledger.allowance = acted.allowance := by
  rcases ledger_submit l request with ⟨e, he, hledger⟩ | ⟨-, hledger⟩
  · obtain ⟨acted, time, hacted, hstamp⟩ := authorized_of_attempt he
    rw [hledger, hstamp]
    exact .inr ⟨acted, hacted, rfl, rfl⟩
  · exact .inl hledger

/-- Whoever neither calls nor is named in a history keeps the account of before. -/
theorem bystander_run {steps : List Step}
    (hsteps : ∀ request, .request request ∈ steps →
      holder ≠ request.caller ∧ ¬request.action.Names holder) :
    (l.run steps).account holder = l.account holder := by
  induction steps generalizing l with
  | nil => rfl
  | cons s rest ih =>
    rw [run_cons, ih fun request hrequest => hsteps request (List.mem_cons_of_mem s hrequest)]
    cases s with
    | setFees fees => rfl
    | request request =>
      obtain ⟨hcaller, hnamed⟩ := hsteps request List.mem_cons_self
      rcases l.exists_of_submit request with hsame | ⟨acted, hacted, haccount, -⟩
      · exact congrArg (fun l => l.account holder) hsame
      · exact (congrFun haccount holder).trans (hacted.bystander hcaller hnamed)

/-- Who has allowed nobody anything loses no shares by what others do, owes no more bonds, and still
allows nothing. -/
theorem Authorized.of_no_allowance (h : l.Authorized caller action after)
    (hholder : holder ≠ caller) (hnone : ∀ spender, l.allowance holder spender = 0) :
    (l.account holder).shares ≤ (after.account holder).shares ∧
      (after.account holder).bonds ≤ (l.account holder).bonds ∧
      ∀ spender, after.allowance holder spender = 0 := by
  refine ⟨?_, h.bonds_le hholder, ?_⟩
  · refine Nat.not_lt.mp fun hless => ?_
    obtain ⟨recipient, shares, -, -, hsent, hallowed, -⟩ := h.shares_taken hholder hless
    rw [hnone, le_def, toNat_zero] at hallowed
    omega
  · intro spender
    by_cases hsame : after.allowance holder spender = l.allowance holder spender
    · exact hsame.trans (hnone spender)
    · rcases h.allowance hsame with ⟨hcaller, -⟩ | ⟨-, recipient, shares, -, hspent⟩
      · exact absurd hcaller hholder
      · rw [hnone, toNat_zero] at hspent
        exact eq_zero_iff.mpr (by omega)

/-- Whoever does not call in a history, and has allowed nobody anything before it, has no fewer
shares after it and owes no more bonds. -/
theorem idle_holder_loses_no_shares {steps : List Step}
    (hsteps : ∀ request, .request request ∈ steps → holder ≠ request.caller)
    (hnone : ∀ spender, l.allowance holder spender = 0) :
    (l.account holder).shares ≤ ((l.run steps).account holder).shares ∧
      ((l.run steps).account holder).bonds ≤ (l.account holder).bonds := by
  induction steps generalizing l with
  | nil => exact ⟨Nat.le_refl _, Nat.le_refl _⟩
  | cons s rest ih =>
    have hrest := fun request hrequest => hsteps request (List.mem_cons_of_mem s hrequest)
    rw [run_cons]
    cases s with
    | setFees fees => exact ih (l := l.withFees fees) hrest hnone
    | request request =>
      have hcaller := hsteps request List.mem_cons_self
      rcases l.exists_of_submit request with hsame | ⟨acted, hacted, haccount, hallowance⟩
      · rw [after, hsame]
        exact ih hrest hnone
      · obtain ⟨hshares, hbonds, hnone'⟩ := hacted.of_no_allowance hcaller hnone
        rw [← haccount] at hshares hbonds
        rw [← hallowance] at hnone'
        obtain ⟨hshares', hbonds'⟩ := ih hrest hnone'
        exact ⟨Nat.le_trans hshares hshares', Nat.le_trans hbonds' hbonds⟩

end Ledger

end Lending
