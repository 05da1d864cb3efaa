import Lending.Ledger.Audit
import Lending.Proofs.Transitions

/-!
# Sums over all accounts

The accounts of a ledger are a map of any size, and what a pool is sound by is a sum over the whole
of it. An action writes one account of the map, or two. So one fact about the sums carries the rest:
with the account of one holder replaced, a sum changes by what the new account has more than the old
one (`sum_setAccount_add`). It holds for a holder who had no account and for one who is left with
none, because an account that is not stored counts as the empty one.

Two holders whose shares are sent are two such replacements, and a balance is part of its sum.
-/

set_option autoImplicit false

namespace Lending

namespace Ledger

variable {l after : Ledger} {balance : Account → Amount}

/-- The sum of one balance over some of the entries of the map. -/
def subtotal (balance : Account → Amount) (entries : List (Key × Account)) : Nat :=
  entries.foldr (fun e rest => (balance e.2).toNat + rest) 0

theorem sum_eq_subtotal (l : Ledger) (balance : Account → Amount) :
    l.sum balance = subtotal balance l.accounts.entries := rfl

@[simp] theorem subtotal_nil : subtotal balance [] = 0 := rfl

@[simp] theorem subtotal_cons (e : Key × Account) (es : List (Key × Account)) :
    subtotal balance (e :: es) = (balance e.2).toNat + subtotal balance es := rfl

@[simp] theorem subtotal_append (es ds : List (Key × Account)) :
    subtotal balance (es ++ ds) = subtotal balance es + subtotal balance ds := by
  induction es with
  | nil => simp
  | cons e es ih => simp only [List.cons_append, subtotal_cons, ih, Nat.add_assoc]

/-! ## One account in its sum -/

/-- A sum falls into one holder's part and the parts of the holders before and after. -/
theorem sum_split (hzero : balance .empty = 0) (l : Ledger) (holder : Key) :
    l.sum balance = subtotal balance (l.accounts.below holder) +
      (balance (l.account holder)).toNat + subtotal balance (l.accounts.above holder) := by
  rw [sum_eq_subtotal, l.accounts.entries_eq holder, subtotal_append, subtotal_append, account]
  cases l.accounts.get? holder with
  | none => simp [hzero]
  | some a => simp

theorem sum_setAccount (hzero : balance .empty = 0) (l : Ledger) (holder : Key) (a : Account) :
    (l.setAccount holder a).sum balance = subtotal balance (l.accounts.below holder) +
      (balance a).toNat + subtotal balance (l.accounts.above holder) := by
  rw [sum_eq_subtotal, setAccount]
  by_cases ha : a.IsEmpty
  · have hnil : balance a = 0 := (congrArg balance ha).trans hzero
    simp only [if_pos ha, SortedMap.erase, subtotal_append, hnil, Quantity.toNat_zero, Nat.add_zero]
  · simp only [if_neg ha, SortedMap.insert, subtotal_append, subtotal_cons, Nat.add_assoc]

/-- With one account replaced, the new sum and the old account come to the old sum and the new
account. -/
theorem sum_setAccount_add (hzero : balance .empty = 0) (l : Ledger) (holder : Key) (a : Account) :
    (l.setAccount holder a).sum balance + (balance (l.account holder)).toNat =
      l.sum balance + (balance a).toNat := by
  rw [sum_setAccount hzero, sum_split hzero l holder]
  omega

/-- A balance is part of its sum. -/
theorem balance_le_sum (hzero : balance .empty = 0) (l : Ledger) (holder : Key) :
    (balance (l.account holder)).toNat ≤ l.sum balance := by
  rw [sum_split hzero l holder]
  omega

/-- The balances of two holders are part of their sum together. -/
theorem balance_add_balance_le_sum (hzero : balance .empty = 0) (l : Ledger) {holder other : Key}
    (hne : other ≠ holder) :
    (balance (l.account holder)).toNat + (balance (l.account other)).toNat ≤ l.sum balance := by
  -- Without the first holder the sum is smaller by that balance and still has the other's.
  have hrest := sum_setAccount_add hzero l holder .empty
  have hother := balance_le_sum hzero (l.setAccount holder .empty) other
  rw [account_setAccount, if_neg hne] at hother
  rw [hzero, Quantity.toNat_zero] at hrest
  omega

theorem account_of_mem {e : Key × Account} (h : e ∈ l.accounts.entries) : l.account e.1 = e.2 := by
  rw [account, SortedMap.get?_eq_some_iff.mpr h]
  rfl

theorem exists_of_subtotal_pos {es : List (Key × Account)} (h : 0 < subtotal balance es) :
    ∃ e ∈ es, 0 < (balance e.2).toNat := by
  induction es with
  | nil => exact absurd h (Nat.lt_irrefl 0)
  | cons e es ih =>
    rw [subtotal_cons] at h
    rcases Nat.eq_zero_or_pos (balance e.2).toNat with hz | hpos
    · obtain ⟨e', hmem, he'⟩ := ih (by omega)
      exact ⟨e', List.mem_cons_of_mem e hmem, he'⟩
    · exact ⟨e, List.mem_cons_self, hpos⟩

/-- Of what all accounts hold together, somebody holds a part. -/
theorem exists_of_sum_pos {l : Ledger} (h : 0 < l.sum balance) :
    ∃ holder, 0 < (balance (l.account holder)).toNat := by
  obtain ⟨e, hmem, he⟩ := exists_of_subtotal_pos h
  refine ⟨e.1, ?_⟩
  rw [account_of_mem hmem]
  exact he

/-! ## Two accounts that divide their balances anew -/

theorem sum_setAccount_setAccount (balance : Account → Amount) (hzero : balance .empty = 0)
    (l : Ledger) {holder other : Key} (hne : other ≠ holder) {a b : Account}
    (h : (balance a).toNat + (balance b).toNat =
      (balance (l.account holder)).toNat + (balance (l.account other)).toNat) :
    ((l.setAccount holder a).setAccount other b).sum balance = l.sum balance := by
  have hfirst := sum_setAccount_add hzero l holder a
  have hsecond := sum_setAccount_add hzero (l.setAccount holder a) other b
  rw [account_setAccount, if_neg hne] at hsecond
  omega

/-- Sending shares leaves every sum as it is, whoever sends to whom. -/
theorem balanced_of_send {sender recipient : Key} {shares : Amount}
    (h : l.send sender recipient shares = .ok after) (hl : l.Balanced) : after.Balanced := by
  rcases exists_of_send h with ⟨-, rfl⟩ | ⟨hne, left, received, hleft, hreceived, rfl⟩
  · exact hl
  · obtain ⟨hcollateral, hshares, hbonds⟩ := hl
    refine ⟨(sum_setAccount_setAccount Account.collateral rfl l hne ?_).trans hcollateral,
      (sum_setAccount_setAccount Account.shares rfl l hne ?_).trans hshares,
      (sum_setAccount_setAccount Account.bonds rfl l hne ?_).trans hbonds⟩
    · rfl
    · show left.toNat + received.toNat = _
      omega
    · rfl

end Ledger

end Lending
