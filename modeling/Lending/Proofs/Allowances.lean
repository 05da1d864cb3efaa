import Mathlib.Algebra.Ring.Nat
import Lending.Proofs.Authority
import Lending.Proofs.Reconciliation

/-!
# What is left of an allowance

An owner who watches the requests that take effect can keep a book on each spender. What the owner
approves is an entry, and so is what the owner adds later or takes off and what the spender sends
(`Entry`); other requests are none, and neither are those that are refused. The allowance in the
ledger is what is left by this book, counted from the last approval on (`Accounts.left`). One
request writes one entry at most, so this is kept from request to request
(`Ledger.accounts_of_attempt`, `Ledger.accounts_run`).

An owner wants to know besides that nobody can ever have taken more than was granted. An approval
makes a new start and forgets what was taken before it, so this is no consequence of what is left,
but of the entries one by one: none of them adds more to the allowance than it grants
(`Accounts.covered`). What was taken is measured at the balance of the owner and not read off the
requests. It comes to what was sent by the book, since a spender has no other way to take shares
(`Ledger.taken_of_attempt`).
-/

set_option autoImplicit false

namespace Lending

open Quantity

/-! ## The book of an allowance -/

/-- What can happen to an allowance. -/
inductive Entry where
  /-- The owner sets it, whatever it was. -/
  | approve (amount : Nat)
  /-- The owner adds to it. -/
  | raise (delta : Nat)
  /-- The owner takes off it. -/
  | lower (delta : Nat)
  /-- The spender sends shares of the owner to somebody else. -/
  | send (shares : Nat)

namespace Entry

def approved? : Entry → Option Nat
  | approve amount => some amount
  | _ => none

def raised : Entry → Nat
  | raise delta => delta
  | _ => 0

def lowered : Entry → Nat
  | lower delta => delta
  | _ => 0

def sent : Entry → Nat
  | send shares => shares
  | _ => 0

/-- What the owner lets the spender send, in addition to what was left or in place of it. -/
def granted : Entry → Nat
  | approve amount => amount
  | raise delta => delta
  | _ => 0

/-- The allowance before the entry and after it. -/
def Writes (before after : Nat) : Entry → Prop
  | approve amount => after = amount
  | raise delta => after = before + delta
  | lower delta => after + delta = before
  | send shares => after + shares = before

theorem Writes.le_granted {entry : Entry} {before after : Nat} (h : entry.Writes before after) :
    after + entry.sent ≤ before + entry.granted := by
  cases entry with
  | approve amount | raise delta | lower delta | send shares =>
    simp only [Writes] at h
    simp only [sent, granted]
    omega

end Entry

/-- The entries after the last approval, the latest first; all of them if there is none. -/
def sinceApproval (book : List Entry) : List Entry :=
  book.reverse.takeWhile (·.approved?.isNone)

/-- What the last approval set the allowance to, or zero if there is none. -/
def lastApproved (book : List Entry) : Nat := (book.reverse.findSome? Entry.approved?).getD 0

/-- The book accounts for an allowance. -/
structure Accounts (book : List Entry) (allowance : Nat) : Prop where
  /-- The allowance is what is left of the last approval. -/
  left : allowance + ((sinceApproval book).map Entry.lowered).sum +
      ((sinceApproval book).map Entry.sent).sum =
    lastApproved book + ((sinceApproval book).map Entry.raised).sum
  /-- What was sent, and what may still be, was granted. -/
  covered : allowance + (book.map Entry.sent).sum ≤ (book.map Entry.granted).sum

namespace Accounts

variable {book : List Entry} {entry : Entry} {before after : Nat}

theorem nil : Accounts [] 0 := ⟨rfl, Nat.le_refl 0⟩

theorem append (h : Accounts book before) (hentry : entry.Writes before after) :
    Accounts (book ++ [entry]) after := by
  obtain ⟨hleft, hcovered⟩ := h
  have hsince : sinceApproval (book ++ [entry]) =
      if entry.approved?.isNone then entry :: sinceApproval book else [] := by
    rw [sinceApproval, List.reverse_concat, List.takeWhile_cons, sinceApproval]
  have hlast : lastApproved (book ++ [entry]) = entry.approved?.getD (lastApproved book) := by
    rw [lastApproved, List.reverse_concat, List.findSome?_cons, lastApproved]
    cases entry.approved? <;> rfl
  refine ⟨?_, ?_⟩
  · rw [hsince, hlast]
    cases entry with
    | approve amount => exact hentry
    | raise delta | lower delta | send shares =>
      simp only [Entry.Writes] at hentry
      simp only [Entry.approved?, Option.isNone_none, if_true, Option.getD_none, List.map_cons,
        List.sum_cons, Entry.raised, Entry.lowered, Entry.sent]
      omega
  · have hgranted := hentry.le_granted
    simp only [List.map_append, List.sum_append_nat, List.map_cons, List.map_nil, List.sum_cons,
      List.sum_nil]
    omega

end Accounts

/-! ## Entries for events -/

namespace Action

variable (caller owner spender : Key)

/-- The entry that the action of a caller is in the book of the owner on the spender. -/
def entry? : Action → Option Entry
  | .approve named amount =>
    if owner = caller ∧ spender = named then some (.approve amount.toNat) else none
  | .raiseAllowance named delta =>
    if owner = caller ∧ spender = named then some (.raise delta.toNat) else none
  | .lowerAllowance named delta =>
    if owner = caller ∧ spender = named then some (.lower delta.toNat) else none
  | .transferFrom holder recipient shares =>
    -- Shares that are sent to their owner cost no allowance.
    if recipient = holder then none
    else if owner = holder ∧ spender = caller then some (.send shares.toNat) else none
  | _ => none

/-- The shares of the owner that the action sends on the word of the spender. -/
def sent (action : Action) : Nat := ((action.entry? caller owner spender).map Entry.sent).getD 0

/-- The action is a transfer on an allowance of the owner. -/
def sendsFor (owner : Key) : Action → Bool
  | .transferFrom holder _ _ => holder = owner
  | _ => false

variable {caller owner spender : Key}

theorem sent_eq_zero {action : Action} (h : ¬(caller = spender ∧ action.sendsFor owner)) :
    action.sent caller owner spender = 0 := by
  cases action with
  | approve named amount | raiseAllowance named delta | lowerAllowance named delta =>
    simp only [sent, entry?]
    split <;> rfl
  | transferFrom holder recipient shares =>
    simp only [sendsFor, decide_eq_true_eq] at h
    simp only [sent, entry?]
    split
    · rfl
    · rw [if_neg fun hsame => h ⟨hsame.2.symm, hsame.1.symm⟩]
      rfl
  | deposit _ | withdraw _ | mint _ | burn _ | borrow _ | repay _ | liquidate _ _ | accrue
  | transfer _ _ | repayFor _ _ => rfl

end Action

/-- The book of the owner on the spender. -/
def allowanceBook (owner spender : Key) (events : List Event) : List Entry :=
  events.filterMap fun e => e.request.action.entry? e.request.caller owner spender

theorem allowanceBook_cons (owner spender : Key) (e : Event) (rest : List Event) :
    allowanceBook owner spender (e :: rest) =
      (e.request.action.entry? e.request.caller owner spender).toList ++
        allowanceBook owner spender rest := by
  rw [allowanceBook, List.filterMap_cons, allowanceBook]
  cases e.request.action.entry? e.request.caller owner spender <;> rfl

/-- What was sent by the book is what the requests sent. -/
theorem sum_sent_allowanceBook (owner spender : Key) (events : List Event) :
    ((allowanceBook owner spender events).map Entry.sent).sum =
      (events.map fun e => e.request.action.sent e.request.caller owner spender).sum := by
  induction events with
  | nil => rfl
  | cons e rest ih =>
    rw [allowanceBook_cons, List.map_append, List.sum_append_nat, ih, List.map_cons, List.sum_cons,
      Action.sent]
    cases e.request.action.entry? e.request.caller owner spender <;> rfl

/-- The shares that leave the balance of the owner at a request of the spender. An owner can also
use up his own shares; of his requests those count that go by an allowance. -/
def Event.taken (owner spender : Key) (e : Event) : Nat :=
  if e.request.caller = spender ∧ (spender ≠ owner ∨ e.request.action.sendsFor owner) then
    (e.before.account owner).shares.toNat - (e.effect.ledger.account owner).shares.toNat
  else
    0

namespace Ledger

variable {l after : Ledger} {caller owner spender : Key} {action : Action} {r : Receipt}

/-! ## What is left -/

/-- To write one allowance is an entry in its own book and in no other. -/
theorem accounts_setAllowance {holder named : Key} {amount : Amount} {book : List Entry}
    {entry : Entry} (hbook : Accounts book (l.allowance owner spender).toNat)
    (hentry : entry.Writes (l.allowance holder named).toNat amount.toNat) :
    Accounts
      (book ++ (if owner = holder ∧ spender = named then some entry else none).toList)
      ((l.setAllowance holder named amount).allowance owner spender).toNat := by
  rw [allowance_setAllowance]
  by_cases hsame : owner = holder ∧ spender = named
  · rw [if_pos hsame, if_pos hsame]
    obtain ⟨rfl, rfl⟩ := hsame
    exact hbook.append hentry
  · rw [if_neg hsame, if_neg hsame, Option.toList_none, List.append_nil]
    exact hbook

theorem Acts.accounts (h : l.Acts caller action r after) {book : List Entry}
    (hbook : Accounts book (l.allowance owner spender).toNat) :
    Accounts (book ++ (action.entry? caller owner spender).toList)
      (after.allowance owner spender).toNat := by
  have hnone : Accounts (book ++ (none : Option Entry).toList)
      (l.allowance owner spender).toNat := by
    rw [Option.toList_none, List.append_nil]
    exact hbook
  cases h with
  | trade h =>
    cases h with
    | deposit _ | withdraw _ | mint _ _ | burn _ | borrow _ _ | repay _ | liquidate _
    | repayFor _ => exact hnone
  | accrue => exact hnone
  | transfer h =>
    obtain ⟨accounts, rfl⟩ := exists_accounts_of_send h
    exact hnone
  | transferFrom h =>
    obtain ⟨remaining, sent, hremaining, hsent, rfl⟩ := sendFor_eq_ok_iff.mp h
    obtain ⟨accounts, rfl⟩ := exists_accounts_of_send hsent
    rw [Action.entry?]
    split
    · exact hnone
    · exact accounts_setAllowance (l := { l with accounts }) hbook hremaining
  | approve => exact accounts_setAllowance hbook rfl
  | raiseAllowance h => exact accounts_setAllowance hbook h
  | lowerAllowance h => exact accounts_setAllowance hbook h

theorem accounts_of_attempt {request : Request} {e : Effect} (h : l.attempt request = .ok e)
    {book : List Entry} (hbook : Accounts book (l.allowance owner spender).toNat) :
    Accounts (book ++ (request.action.entry? request.caller owner spender).toList)
      (e.ledger.allowance owner spender).toNat := by
  obtain ⟨time, charged, acted, -, hcharged, hacts, hstamp⟩ := exists_of_attempt h
  obtain ⟨liquidity, -, rfl⟩ := accrue_eq_ok_iff.mp hcharged
  rw [hstamp]
  exact hacts.accounts hbook

/-- The book of a history accounts for the allowance at its end. -/
theorem accounts_run (steps : List Step) (l : Ledger) {book : List Entry}
    (hbook : Accounts book (l.allowance owner spender).toNat) :
    Accounts (book ++ allowanceBook owner spender (l.events steps))
      ((l.run steps).allowance owner spender).toNat := by
  induction steps generalizing l book with
  | nil => simpa [events, allowanceBook] using hbook
  | cons s rest ih =>
    cases s with
    | setFees fees => exact ih (l.withFees fees) hbook
    | request r =>
      rcases l.events_request r rest with ⟨e, he, hevents, hrun⟩ | ⟨hevents, hrun⟩
      · rw [hevents, hrun, allowanceBook_cons, ← List.append_assoc]
        exact ih e.ledger (accounts_of_attempt he hbook)
      · rw [hevents, hrun]
        exact ih l hbook

/-! ## What was taken -/

theorem shares_of_send {sender recipient : Key} {shares : Amount}
    (h : l.send sender recipient shares = .ok after) :
    (after.account sender).shares.toNat + (if recipient = sender then 0 else shares.toNat) =
      (l.account sender).shares.toNat := by
  rcases exists_of_send h with ⟨hself, rfl⟩ | ⟨hne, left, received, hleft, -, rfl⟩
  · rw [if_pos hself, Nat.add_zero]
  · rw [if_neg hne, account_setAccount, if_neg (Ne.symm hne), account_setAccount, if_pos rfl]
    exact hleft

/-- A transfer on an allowance takes what it sends. -/
theorem Acts.shares_of_sendsFor (h : l.Acts caller action r after)
    (hsends : action.sendsFor owner) :
    (after.account owner).shares.toNat + action.sent caller owner caller =
      (l.account owner).shares.toNat := by
  cases h with
  | trade h => cases h <;> cases hsends
  | accrue | transfer _ | approve | raiseAllowance _ | lowerAllowance _ => cases hsends
  | @transferFrom holder recipient shares _ h =>
    obtain rfl : holder = owner := by simpa [Action.sendsFor] using hsends
    obtain ⟨remaining, sent, -, hsent, rfl⟩ := sendFor_eq_ok_iff.mp h
    have hbalance := shares_of_send hsent
    simp only [Action.sent, Action.entry?]
    split
    · next hself =>
      rw [if_pos hself] at hbalance
      exact hbalance
    · next hne =>
      rw [if_neg hne] at hbalance
      rw [if_pos ⟨trivial, trivial⟩]
      exact hbalance

/-- Any other action of somebody else takes nothing. -/
theorem Acts.shares_of_not_sendsFor (h : l.Acts caller action r after) (hcaller : caller ≠ owner)
    (hsends : ¬action.sendsFor owner) :
    (l.account owner).shares ≤ (after.account owner).shares := by
  refine Nat.not_lt.mp fun hless => hsends ?_
  obtain ⟨recipient, shares, -, rfl, -⟩ := h.authorized.shares_taken (Ne.symm hcaller) hless
  simp [Action.sendsFor]

theorem taken_of_attempt {request : Request} {e : Effect} (h : l.attempt request = .ok e) :
    Event.taken owner spender ⟨l, request, e⟩ =
      request.action.sent request.caller owner spender := by
  obtain ⟨time, charged, acted, -, hcharged, hacts, hstamp⟩ := exists_of_attempt h
  obtain ⟨liquidity, -, rfl⟩ := accrue_eq_ok_iff.mp hcharged
  have hbefore : ({ l with pool := { l.pool with liquidity } } : Ledger).account owner =
      l.account owner := rfl
  have hafter : e.ledger.account owner = acted.account owner := by
    rw [hstamp]
    rfl
  simp only [Event.taken, hafter]
  by_cases hsends : request.caller = spender ∧ request.action.sendsFor owner
  · obtain ⟨rfl, hsends⟩ := hsends
    have hbalance := hacts.shares_of_sendsFor hsends
    rw [hbefore] at hbalance
    rw [if_pos ⟨rfl, .inr hsends⟩]
    omega
  · rw [Action.sent_eq_zero hsends]
    split
    · next hcounts =>
      obtain ⟨rfl, hother⟩ := hcounts
      have hkept := hacts.shares_of_not_sendsFor
        (hother.resolve_right fun h => hsends ⟨rfl, h⟩) fun h => hsends ⟨rfl, h⟩
      exact Nat.sub_eq_zero_of_le hkept
    · rfl

/-- After every history the allowance is what the owner approved last, with what was raised since
and less what was lowered and sent since. What the spender has ever taken out of the balance of the
owner is what was sent, and no more than the owner granted. -/
theorem allowance_is_what_is_left (steps : List Step) (owner spender : Key) :
    let events := genesis.events steps
    let book := allowanceBook owner spender events
    let later := sinceApproval book
    (((genesis.run steps).allowance owner spender).toNat : Int) =
        lastApproved book + (later.map Entry.raised).sum - (later.map Entry.lowered).sum -
          (later.map Entry.sent).sum ∧
      (events.map (Event.taken owner spender)).sum = (book.map Entry.sent).sum ∧
      (book.map Entry.sent).sum ≤ (book.map Entry.granted).sum := by
  intro events book later
  obtain ⟨hleft, hcovered⟩ : Accounts book ((genesis.run steps).allowance owner spender).toNat :=
    accounts_run steps genesis .nil
  change _ + (later.map Entry.lowered).sum + (later.map Entry.sent).sum =
    lastApproved book + (later.map Entry.raised).sum at hleft
  refine ⟨by omega, ?_, by omega⟩
  rw [sum_sent_allowanceBook, List.map_congr_left]
  intro e he
  exact taken_of_attempt (attempt_of_mem_events steps genesis he)

/-- Of sixty the spender sends forty-four. To send them once more is refused, and no entry. -/
example :
    let owner : Key := ⟨List.replicate 32 18, rfl⟩
    let send : Action := .transferFrom owner 0 ⟨44, by decide⟩
    allowanceBook owner 0 (genesis.events
      [.request (.charging owner (.mint ⟨90, by decide⟩) 0),
        .request (.charging owner (.approve 0 ⟨60, by decide⟩) 0),
        .request (.charging 0 send 0), .request (.charging 0 send 0),
        .request (.charging owner (.raiseAllowance 0 ⟨38, by decide⟩) 0)]) =
      [.approve 60, .send 44, .raise 38] := rfl

end Ledger

end Lending
