import Lending.Bytes
import Lending.FeeSchedule
import Lending.Position
import Lending.SortedMap

/-!
# Ledgers

A ledger is a pool with everything that hangs on it: the account of every holder, how many of an
owner's shares each spender may send, and the fees. Accounts and allowances are looked up and
written through two pairs, `account` with `setAccount` and `allowance` with `setAllowance`. A
look-up that finds nothing answers with the empty account or with zero, and a write of those removes
the entry, so a ledger built and changed by these functions stores no empty account and no allowance
of zero (`Tidy`), and two such ledgers that answer alike are equal.
-/

set_option autoImplicit false

namespace Lending

/-- Who allows whom to send shares. -/
@[ext]
structure Grant where
  /-- Whose shares may be sent. -/
  owner : Key
  /-- Who may send them. -/
  spender : Key
deriving DecidableEq

namespace Grant

instance : Ord Grant := ⟨compareLex (compareOn owner) (compareOn spender)⟩

instance : Std.TransOrd Grant :=
  inferInstanceAs (Std.TransCmp (compareLex (compareOn owner) (compareOn spender)))

instance : Std.LawfulEqOrd Grant where
  eq_of_compare {a b} h := by
    obtain ⟨howner, hspender⟩ := compareLex_eq_eq.mp h
    exact Grant.ext (Std.LawfulEqOrd.eq_of_compare howner)
      (Std.LawfulEqOrd.eq_of_compare hspender)

end Grant

/-- A pool, its accounts, its allowances and its fees; nothing at all where it starts. -/
@[ext]
structure Ledger where
  /-- The totals. -/
  pool : Pool := {}
  /-- The account of each holder. -/
  accounts : SortedMap Key Account := .empty
  /-- The shares that a spender may still send of an owner's. -/
  allowances : SortedMap Grant Amount := .empty
  /-- The fees for minting and borrowing. -/
  fees : FeeSchedule := {}
deriving DecidableEq

namespace Ledger

/-- The ledger that nothing has happened to. -/
def genesis : Ledger := {}

/-! ## Ledgers from stored parts -/

/-- The ledger with these totals and accounts. Empty accounts are skipped, and of two accounts of
one holder the later one stands. -/
def ofParts (pool : Pool) (accounts : List (Key × Account)) : Ledger :=
  { pool, accounts := .ofList (accounts.filter fun e => ¬e.2.IsEmpty) }

/-- The ledger with these allowances in place of its own. Allowances of zero are skipped, and of two
allowances of one owner to one spender the later one stands. -/
def withAllowances (l : Ledger) (allowances : List (Grant × Amount)) : Ledger :=
  { l with allowances := .ofList (allowances.filter fun e => e.2 ≠ 0) }

/-- The ledger with these fees. -/
def withFees (l : Ledger) (fees : FeeSchedule) : Ledger := { l with fees }

/-! ## Look-ups -/

/-- The balances of a holder. -/
def account (l : Ledger) (holder : Key) : Account := (l.accounts.get? holder).getD .empty

/-- The shares of `owner` that `spender` may still send. -/
def allowance (l : Ledger) (owner spender : Key) : Amount :=
  (l.allowances.get? ⟨owner, spender⟩).getD 0

/-- The totals and one holder's account. -/
def position (l : Ledger) (holder : Key) : Position := ⟨l.pool, l.account holder⟩

/-- What a holder's shares are worth, as of the last charge of interest. -/
def shareValue (l : Ledger) (holder : Key) : Except Fault Amount :=
  l.pool.liquidityFor (l.account holder).shares

/-- What a holder's bonds oblige to pay, as of the last charge of interest. Without bonds nothing is
owed, whatever the pool. -/
def debtOwed (l : Ledger) (holder : Key) : Except Fault Amount :=
  if (l.account holder).bonds = 0 then .ok 0 else l.pool.debtFor (l.account holder).bonds

/-! ## Writes -/

/-- Writes a holder's balances. -/
def setAccount (l : Ledger) (holder : Key) (account : Account) : Ledger :=
  { l with
    accounts :=
      if account.IsEmpty then l.accounts.erase holder else l.accounts.insert holder account }

/-- Writes the shares of `owner` that `spender` may still send. -/
def setAllowance (l : Ledger) (owner spender : Key) (amount : Amount) : Ledger :=
  { l with
    allowances :=
      if amount = 0 then l.allowances.erase ⟨owner, spender⟩
      else l.allowances.insert ⟨owner, spender⟩ amount }

/-- Writes the totals and one holder's account. -/
def setPosition (l : Ledger) (holder : Key) (p : Position) : Ledger :=
  { l with pool := p.pool }.setAccount holder p.account

theorem account_setAccount (l : Ledger) (holder other : Key) (a : Account) :
    (l.setAccount holder a).account other = if other = holder then a else l.account other := by
  unfold account setAccount
  by_cases ha : a.IsEmpty
  · rw [if_pos ha, SortedMap.get?_erase]
    split
    · exact Eq.symm ha
    · rfl
  · rw [if_neg ha, SortedMap.get?_insert]
    split <;> rfl

theorem allowance_setAllowance (l : Ledger) (owner spender : Key) (amount : Amount)
    (owner' spender' : Key) :
    (l.setAllowance owner spender amount).allowance owner' spender' =
      if owner' = owner ∧ spender' = spender then amount else l.allowance owner' spender' := by
  have hgrant : (⟨owner', spender'⟩ : Grant) = ⟨owner, spender⟩ ↔
      owner' = owner ∧ spender' = spender := by simp
  unfold allowance setAllowance
  by_cases ha : amount = 0
  · rw [if_pos ha, SortedMap.get?_erase]
    simp only [hgrant]
    split
    · exact ha.symm
    · rfl
  · rw [if_neg ha, SortedMap.get?_insert]
    simp only [hgrant]
    split <;> rfl

/-! ## Ledgers without idle entries -/

/-- No empty account and no allowance of zero is stored. -/
def Tidy (l : Ledger) : Prop :=
  (∀ e ∈ l.accounts.entries, ¬e.2.IsEmpty) ∧ ∀ e ∈ l.allowances.entries, e.2 ≠ 0

end Ledger

end Lending
