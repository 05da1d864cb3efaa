import Lending.Proofs.Authority
import Lending.Proofs.Carrying
import Lending.Proofs.Tidiness
import Lending.Proofs.Turnover

/-!
# Collateral keeps its own books

Nothing here weighs a debt against the collateral that is put up for it. A deposit or a withdrawal
is decided by two amounts, the collateral of the pool and that of the caller, and writes those two.
Every other action, the liquidation apart, neither reads nor writes collateral. So the two kinds can
be asked for in either order: each is told the same both times, and the ledger is the same in the
end (`Ledger.collateral_moves_commute`), whichever of them is refused. A move of collateral can even
be put off past a whole history (`Ledger.collateral_moves_past_history`).

What makes it a matter of proof is that an account is one record, which both actions may read, write
back, and store or remove. The move is told as a change of ledgers (`Ledger.withCollateral`), and
the other action carries that change along. Nothing is asked of the ledger, idle entries included:
an entry that one of the actions writes is the same in both orders, and no other is touched.
-/

set_option autoImplicit false

namespace Lending

namespace Position

/-- A deposit reads nothing but collateral, and writes nothing else. -/
theorem deposit_alike (p p' : Position) (htotal : p'.pool.collateral = p.pool.collateral)
    (hown : p'.account.collateral = p.account.collateral) (amount : Amount) :
    p'.deposit amount =
      (fun q => p'.aside id (fun _ => q.pool.collateral) (fun _ => q.account.collateral)) <$>
        p.deposit amount := by
  simp only [deposit, htotal, hown, map_bind, map_pure]
  rfl

theorem withdraw_alike (p p' : Position) (htotal : p'.pool.collateral = p.pool.collateral)
    (hown : p'.account.collateral = p.account.collateral) (amount : Amount) :
    p'.withdraw amount =
      (fun q => p'.aside id (fun _ => q.pool.collateral) (fun _ => q.account.collateral)) <$>
        p.withdraw amount := by
  simp only [withdraw, htotal, hown, map_bind, map_pure]
  rfl

end Position

namespace Ledger

variable {l l' after : Ledger} {caller holder : Key}

/-! ## Moves of collateral -/

/-- The ledger with these amounts for the collateral of the pool and of a holder. -/
def withCollateral (l : Ledger) (holder : Key) (total own : Amount) : Ledger :=
  l.setPosition holder ((l.position holder).aside id (fun _ => total) fun _ => own)

/-- Two ledgers have the same collateral, as far as a holder can move it. -/
structure SameCollateral (l l' : Ledger) (holder : Key) : Prop where
  total : l'.pool.collateral = l.pool.collateral
  own : (l'.account holder).collateral = (l.account holder).collateral

theorem SameCollateral.trans {l'' : Ledger} (h : l.SameCollateral l' holder)
    (h' : l'.SameCollateral l'' holder) : l.SameCollateral l'' holder :=
  ⟨h'.total.trans h.total, h'.own.trans h.own⟩

theorem account_withCollateral (l : Ledger) (holder other : Key) (total own : Amount) :
    (l.withCollateral holder total own).account other =
      if other = holder then (l.account holder).aside fun _ => own else l.account other :=
  account_setPosition l holder other _

/-- To write collateral is a change of the fields it writes, also where it makes an account empty or
fills one. -/
theorem carries_withCollateral (holder : Key) (total own : Amount) :
    Carries (·.withCollateral holder total own) id (fun _ => total)
      fun x => if x = holder then fun _ => own else id where
  fees _ := rfl
  allowances _ := rfl
  pool _ := rfl
  account l x := by
    rw [account_withCollateral]
    by_cases hx : x = holder
    · rw [if_pos hx, if_pos hx, hx]
    · rw [if_neg hx, if_neg hx]
      rfl
  withPool _ _ := rfl
  withAllowances _ _ := rfl
  withFees _ _ := rfl
  setAccount l x a := by
    -- The change rewrites the account that it finds, and that may be the one written just before.
    have hset : ∀ b : Account, (l.setAccount x a).account holder = b →
        (l.setAccount x a).withCollateral holder total own =
          ({ l with pool := l.pool.aside id fun _ => total }.setAccount x a).setAccount holder
            (b.aside fun _ => own) := by
      rintro b rfl
      rfl
    by_cases hx : x = holder
    · subst hx
      rw [if_pos rfl, hset a (by rw [account_setAccount, if_pos rfl]), setAccount_setAccount]
      exact setAccount_setAccount { l with pool := l.pool.aside id fun _ => total } x _ _
    · rw [if_neg hx, hset (l.account holder)
        (by rw [account_setAccount, if_neg (Ne.symm hx)]), setAccount_comm _ hx]
      rfl

/-- A move of collateral comes to the same on all ledgers that have the same collateral. -/
theorem act_of_sameCollateral {move : Action} {amount : Amount}
    (hmove : move = .deposit amount ∨ move = .withdraw amount)
    (h : l.SameCollateral l' caller) :
    l'.act caller move =
      (fun x => (x.1, l'.withCollateral caller x.2.pool.collateral
        (x.2.account caller).collateral)) <$> l.act caller move := by
  rcases hmove with rfl | rfl
  · have hmoved := Position.deposit_alike (l.position caller) (l'.position caller) h.total h.own
      amount
    simp only [act, hmoved, map_bind, map_pure, bind_map_left, pool_setPosition,
      account_setPosition, if_true]
    rfl
  · have hmoved := Position.withdraw_alike (l.position caller) (l'.position caller) h.total h.own
      amount
    simp only [act, hmoved, map_bind, map_pure, bind_map_left, pool_setPosition,
      account_setPosition, if_true]
    rfl

theorem submit_of_ok {move : Action} {x : Receipt × Ledger} (h : l.act caller move = .ok x) :
    l.submit (.charging caller move 0) = ⟨.ok x.1, x.2, [x.1.line 0]⟩ := by
  rw [submit, attempt, apply_of_act h]
  rfl

theorem submit_of_error {move : Action} {cause : Fault} (h : l.act caller move = .error cause) :
    l.submit (.charging caller move 0) = ⟨.error cause, l, []⟩ := by
  rw [submit, attempt, apply_of_accrue (accrue_zero l), h]
  rfl

/-- So it is one change of ledgers that they all undergo, and the host is told the same. -/
theorem exists_carries_of_move {move : Action} {amount : Amount}
    (hmove : move = .deposit amount ∨ move = .withdraw amount) (l : Ledger) (caller : Key) :
    ∃ f total own, Carries f id total own ∧ ∀ l', l.SameCollateral l' caller →
      l'.submit (.charging caller move 0) =
        { l.submit (.charging caller move 0) with ledger := f l' } := by
  cases hact : l.act caller move with
  | error cause =>
    -- What is refused on one of them is refused on all, and changes none.
    refine ⟨id, id, _, carries_id, ?_⟩
    intro l' h
    have hact' := act_of_sameCollateral hmove h
    rw [hact] at hact'
    rw [submit_of_error hact, submit_of_error hact']
    rfl
  | ok x =>
    refine ⟨_, _, _, carries_withCollateral caller x.2.pool.collateral
      (x.2.account caller).collateral, ?_⟩
    intro l' h
    have hact' := act_of_sameCollateral hmove h
    rw [hact] at hact'
    rw [submit_of_ok hact, submit_of_ok hact']

/-! ## Collateral stays -/

theorem Acts.turnover_of_not_movesCollateral {action : Action} {r : Receipt}
    (h : l.Acts caller action r after) (haction : ¬action.MovesCollateral) :
    r.turnover.deposited = 0 ∧ r.turnover.withdrawn = 0 ∧ r.turnover.seized = 0 := by
  cases h with
  | trade h =>
    cases h with
    | deposit _ | withdraw _ | liquidate _ => exact absurd trivial haction
    | mint _ _ | burn _ | borrow _ _ | repay _ | repayFor _ => exact ⟨rfl, rfl, rfl⟩
  | accrue | transfer _ | transferFrom _ | approve | raiseAllowance _ | lowerAllowance _ =>
    exact ⟨rfl, rfl, rfl⟩

theorem collateral_of_send {sender recipient : Key} {shares : Amount}
    (h : l.send sender recipient shares = .ok after) (holder : Key) :
    (after.account holder).collateral = (l.account holder).collateral := by
  rcases account_of_send h holder with hsame | ⟨-, own, hafter, -⟩
  · rw [hsame]
  · rw [hafter]

/-- An action that moves no collateral leaves that of the pool and of every holder. -/
theorem Acts.sameCollateral {action : Action} {r : Receipt} (h : l.Acts caller action r after)
    (haction : ¬action.MovesCollateral) (holder : Key) : l.SameCollateral after holder := by
  obtain ⟨hdeposited, hwithdrawn, hseized⟩ := h.turnover_of_not_movesCollateral haction
  refine ⟨?_, ?_⟩
  · have htotal := h.settles.collateral
    rw [hdeposited, hwithdrawn, hseized] at htotal
    exact Quantity.ext htotal
  · cases h with
    | trade h =>
      rw [account_setPosition]
      split
      · next hholder =>
        have hown := h.settles.2.collateral
        rw [hdeposited, hwithdrawn, hseized] at hown
        rw [hholder]
        exact Quantity.ext hown
      · rfl
    | transfer h => exact collateral_of_send h holder
    | transferFrom h =>
      obtain ⟨sent, hsent, -, haccounts, -⟩ := exists_of_sendFor h
      have hown := collateral_of_send hsent holder
      simp only [account, haccounts] at hown ⊢
      exact hown
    | accrue | approve | raiseAllowance _ | lowerAllowance _ => rfl

theorem sameCollateral_submit (l : Ledger) {r : Request} (hr : ¬r.action.MovesCollateral)
    (holder : Key) : l.SameCollateral (l.submit r).ledger holder := by
  rcases ledger_submit l r with ⟨e, he, hledger⟩ | ⟨-, hledger⟩
  · obtain ⟨time, charged, acted, -, hcharged, hacts, hstamp⟩ := exists_of_attempt he
    obtain ⟨liquidity, -, rfl⟩ := accrue_eq_ok_iff.mp hcharged
    obtain ⟨htotal, hown⟩ := hacts.sameCollateral hr holder
    rw [hledger, hstamp]
    exact ⟨htotal, hown⟩
  · rw [hledger]
    exact ⟨rfl, rfl⟩

theorem sameCollateral_run {steps : List Step}
    (hsteps : ∀ r, .request r ∈ steps → ¬r.action.MovesCollateral) (l : Ledger) (holder : Key) :
    l.SameCollateral (l.run steps) holder := by
  induction steps generalizing l with
  | nil => exact ⟨rfl, rfl⟩
  | cons s rest ih =>
    have hrest := fun r hr => hsteps r (List.mem_cons_of_mem s hr)
    rw [run_cons]
    refine .trans ?_ (ih hrest (l.after s))
    cases s with
    | request r => exact l.sameCollateral_submit (hsteps r List.mem_cons_self) holder
    | setFees fees => exact ⟨rfl, rfl⟩

/-! ## In either order -/

/-- Two requests that can be submitted in either order: the host is told the same of each, and the
ledger is the same in the end. -/
structure Commute (l : Ledger) (r r' : Request) : Prop where
  result : ((l.submit r').ledger.submit r).result = (l.submit r).result
  result' : ((l.submit r).ledger.submit r').result = (l.submit r').result
  journal : ((l.submit r').ledger.submit r).journal = (l.submit r).journal
  journal' : ((l.submit r).ledger.submit r').journal = (l.submit r').journal
  ledger : ((l.submit r).ledger.submit r').ledger = ((l.submit r').ledger.submit r).ledger

/-- On every ledger, a deposit or a withdrawal at no interest can be asked for before or after any
request that moves no collateral, at whatever interest and by whomever, the same caller included:
each takes effect or is refused as it would be, and the ledger is the same in the end. -/
theorem collateral_moves_commute (l : Ledger) (caller : Key) {move : Action} {amount : Amount}
    (hmove : move = .deposit amount ∨ move = .withdraw amount) {other : Request}
    (hother : ¬other.action.MovesCollateral) : l.Commute (.charging caller move 0) other := by
  obtain ⟨f, total, own, hf, hmoved⟩ := exists_carries_of_move hmove l caller
  have hfirst : (l.submit (.charging caller move 0)).ledger = f l :=
    congrArg Outcome.ledger (hmoved l ⟨rfl, rfl⟩)
  -- Submitted last, the move finds the same collateral; submitted first, it is carried along.
  have hlast := hmoved _ (l.sameCollateral_submit hother caller)
  have hcarried := hf.submit l hother
  rw [← hfirst] at hcarried
  refine ⟨?_, ?_, ?_, ?_, ?_⟩
  · rw [hlast]
  · rw [hcarried]
  · rw [hlast]
  · rw [hcarried]
  · rw [hlast, hcarried]

/-- A holder with collateral and nothing else, and one with shares. -/
def bareCollateral : Ledger :=
  ofParts ⟨⟨71, by decide⟩, ⟨74, by decide⟩, ⟨73, by decide⟩, ⟨74, by decide⟩, 0, 0, 0⟩
    [(0, ⟨⟨71, by decide⟩, 0, 0⟩), (⟨List.replicate 32 23, rfl⟩, ⟨0, ⟨73, by decide⟩, 0⟩)]

/-- The one takes all the collateral back, and the other sends shares to the same account, which is
removed in between only if the shares come last. -/
theorem withdrawal_commutes_with_transfer :
    let withdrawal : Request := .charging 0 (.withdraw ⟨71, by decide⟩) 0
    let transfer : Request :=
      .charging ⟨List.replicate 32 23, rfl⟩ (.transfer 0 ⟨37, by decide⟩) ⟨41, by decide⟩
    (bareCollateral.submit withdrawal).result = .ok (.withdrawn ⟨71, by decide⟩) ∧
    (bareCollateral.submit withdrawal).ledger.accounts.get? 0 = none ∧
    (bareCollateral.submit transfer).result = .ok (.transferred 0 ⟨37, by decide⟩) ∧
    bareCollateral.Commute withdrawal transfer := by
  intro withdrawal transfer
  exact ⟨rfl, rfl, rfl, collateral_moves_commute bareCollateral 0 (.inr rfl) id⟩

/-- A move of collateral can be put off past a whole history that moves none. -/
theorem collateral_moves_past_history (l : Ledger) (caller : Key) {move : Action} {amount : Amount}
    (hmove : move = .deposit amount ∨ move = .withdraw amount) {steps : List Step}
    (hsteps : ∀ r, .request r ∈ steps → ¬r.action.MovesCollateral) :
    ((l.run steps).submit (.charging caller move 0)).result =
        (l.submit (.charging caller move 0)).result ∧
      ((l.run steps).submit (.charging caller move 0)).ledger =
        (l.submit (.charging caller move 0)).ledger.run steps := by
  obtain ⟨f, total, own, hf, hmoved⟩ := exists_carries_of_move hmove l caller
  have hfirst : (l.submit (.charging caller move 0)).ledger = f l :=
    congrArg Outcome.ledger (hmoved l ⟨rfl, rfl⟩)
  rw [hmoved _ (sameCollateral_run hsteps l caller), hfirst, hf.run hsteps l]
  exact ⟨rfl, rfl⟩

end Ledger

end Lending
