import Lending.Proofs.Turnover

/-!
# The receipts of a history reconcile with the pool

A host that keeps the receipts of a pool can do without the pool's totals: each total is the sum of
a few amounts that the receipts tell, over the whole history and in numbers without a bound. One
request settles its own turnover (`Ledger.settles_of_attempt`), settling is transitive, and so a
history settles the turnovers of its events, whatever was refused between them.

The money of the host is another such sum. The vault from which the receipts are settled holds the
collateral, what is borrowable, and the fees that borrowers were charged: those leave what is
borrowable and are not paid out. Seized collateral stays in the vault and changes sides there. All
three are natural numbers, so the vault can pay for every receipt.
-/

set_option autoImplicit false

namespace Lending

/-- What was moved by all of these events. -/
def Turnover.ofEvents : List Event → Turnover
  | [] => {}
  | e :: rest => e.effect.turnover.add (ofEvents rest)

/-- What the vault of the host gains when a receipt is settled. -/
def Receipt.payment : Receipt → Int
  | .deposited amount => amount.toNat
  | .withdrawn amount => -amount.toNat
  | .minted liquidity _ fee => liquidity.toNat + fee.toNat
  | .burned _ liquidity => -liquidity.toNat
  | .borrowed liquidity _ _ => -liquidity.toNat
  | .repaid _ credited => credited.toNat
  | .repaidFor _ spent _ _ => spent.toNat
  | .liquidated _ _ _ | .accrued _ | .transferred _ _ | .allowanceSet _ _
  | .transferredFrom _ _ _ => 0

/-- What the vault of the host holds once all receipts of these events are settled. -/
def vault : List Event → Int
  | [] => 0
  | e :: rest => e.effect.receipt.payment + vault rest

theorem vault_eq (es : List Event) :
    vault es + (Turnover.ofEvents es).withdrawn + (Turnover.ofEvents es).redeemed +
        (Turnover.ofEvents es).lent =
      (Turnover.ofEvents es).deposited + (Turnover.ofEvents es).supplied +
        (Turnover.ofEvents es).credited + (Turnover.ofEvents es).spent := by
  induction es with
  | nil => rfl
  | cons e rest ih =>
    have hpaid : e.effect.receipt.payment + e.effect.turnover.withdrawn +
          e.effect.turnover.redeemed + e.effect.turnover.lent =
        e.effect.turnover.deposited + e.effect.turnover.supplied +
          e.effect.turnover.credited + e.effect.turnover.spent := by
      simp only [Effect.turnover]
      cases e.effect.receipt <;> simp only [Receipt.payment, Receipt.turnover] <;> omega
    simp only [vault, Turnover.ofEvents, Turnover.add]
    omega

namespace Ledger

/-- A request that takes effect is the first event of its history. -/
theorem events_of_attempt {l : Ledger} {r : Request} {e : Effect} (h : l.attempt r = .ok e)
    (rest : List Step) :
    l.events (.request r :: rest) = ⟨l, r, e⟩ :: e.ledger.events rest ∧
      l.run (.request r :: rest) = e.ledger.run rest := by
  refine ⟨?_, ?_⟩
  · simp only [events, event?, h, after, submit, commit, Except.toOption, Option.map_some,
      Option.toList_some, List.cons_append, List.nil_append]
  · simp only [run_cons, after, submit, commit, h]

/-- A request that is refused is no event. -/
theorem events_of_refused {l : Ledger} {r : Request} {f : Fault} (h : l.attempt r = .error f)
    (rest : List Step) :
    l.events (.request r :: rest) = l.events rest ∧
      l.run (.request r :: rest) = l.run rest := by
  refine ⟨?_, ?_⟩
  · simp only [events, event?, h, after, submit, commit, Except.toOption, Option.map_none,
      Option.toList_none, List.nil_append]
  · simp only [run_cons, after, submit, commit, h]

/-- The events of a history, one by one. -/
theorem events_request (l : Ledger) (r : Request) (rest : List Step) :
    (∃ e, l.attempt r = .ok e ∧
      l.events (.request r :: rest) = ⟨l, r, e⟩ :: e.ledger.events rest ∧
      l.run (.request r :: rest) = e.ledger.run rest) ∨
    (l.events (.request r :: rest) = l.events rest ∧
      l.run (.request r :: rest) = l.run rest) := by
  cases hr : l.attempt r with
  | ok e => exact .inl ⟨e, rfl, events_of_attempt hr rest⟩
  | error f => exact .inr (events_of_refused hr rest)

/-- A history settles what its events moved. -/
theorem settles_run (steps : List Step) (l : Ledger) :
    l.pool.Settles (l.run steps).pool (Turnover.ofEvents (l.events steps)) := by
  induction steps generalizing l with
  | nil => exact .refl l.pool
  | cons s rest ih =>
    cases s with
    | setFees fees => exact ih (l.withFees fees)
    | request r =>
      rcases l.events_request r rest with ⟨e, he, hevents, hrun⟩ | ⟨hevents, hrun⟩
      · rw [hevents, hrun]
        exact (settles_of_attempt he).trans (ih e.ledger)
      · rw [hevents, hrun]
        exact ih l

/-- An event is a request that took effect on the ledger it met. -/
theorem attempt_of_mem_events (steps : List Step) (l : Ledger) {e : Event}
    (h : e ∈ l.events steps) : e.before.attempt e.request = .ok e.effect := by
  induction steps generalizing l with
  | nil => cases h
  | cons s rest ih =>
    cases s with
    | setFees fees => exact ih (l.withFees fees) h
    | request r =>
      rcases l.events_request r rest with ⟨e', he', hevents, -⟩ | ⟨hevents, -⟩
      · rw [hevents] at h
        rcases List.mem_cons.mp h with rfl | hrest
        · exact he'
        · exact ih e'.ledger hrest
      · rw [hevents] at h
        exact ih l h

/-- It charged the interest that was due there. -/
theorem due_of_mem_events (steps : List Step) (l : Ledger) {e : Event} (h : e ∈ l.events steps) :
    ∃ time, e.before.due e.request = .ok (e.effect.interest, time) := by
  obtain ⟨time, -, -, hdue, -⟩ := exists_of_attempt (attempt_of_mem_events steps l h)
  exact ⟨time, hdue⟩

/-- At the end of every history that starts from nothing, each total is what the receipts of the
history say, and a vault that was settled from these receipts holds the collateral, what is
borrowable and the fees charged to borrowers, so it was never short. The interest is that which the
requests that took effect were due. -/
theorem receipts_reconcile (steps : List Step) :
    let pool := (genesis.run steps).pool
    let events := genesis.events steps
    let t := Turnover.ofEvents events
    (pool.collateral.toNat : Int) = t.deposited - t.withdrawn - t.seized ∧
    (pool.liquidity.toNat : Int) = t.supplied - t.redeemed + t.interest ∧
    (pool.borrowable.toNat : Int) + t.lendingFees =
      t.supplied - t.redeemed - t.lent + t.credited + t.seized + t.spent ∧
    (pool.shares.toNat : Int) = t.sharesMinted - t.sharesBurned ∧
    (pool.bonds.toNat : Int) = t.bondsAssigned - t.bondsRetired - t.bondsConverted ∧
    vault events = pool.collateral.toNat + pool.borrowable.toNat + t.lendingFees ∧
    0 ≤ vault events ∧
    ∀ e ∈ events, ∃ time, e.before.due e.request = .ok (e.effect.interest, time) := by
  intro pool events t
  have hsettles : genesis.pool.Settles pool t := settles_run steps genesis
  obtain ⟨hcollateral, hliquidity, hborrowable, hshares, hbonds⟩ := hsettles
  have hvault : vault events + t.withdrawn + t.redeemed + t.lent =
      t.deposited + t.supplied + t.credited + t.spent := vault_eq events
  simp only [genesis, Quantity.toNat_zero] at hcollateral hliquidity hborrowable hshares hbonds
  exact ⟨by omega, by omega, by omega, by omega, by omega, by omega, by omega,
    fun e he => due_of_mem_events steps genesis he⟩

end Ledger

end Lending
