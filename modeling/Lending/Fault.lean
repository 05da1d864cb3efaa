/-!
# Faults: why an action is refused

An action either happens as a whole or is refused for one cause, a `Fault`. Each fault has a code,
which hosts store and compare, and a message, which people read. The codes are consecutive and
frozen, so `code` is injective and a host can tell the faults apart by it.

Bytes that should hold an action or a record and hold none are `Malformed`, which is not a fault of
the pool.

Most faults arise where a quantity would leave its range, so a rule of the pool is a chain of
partial operations with a fault for each. `demand` and `require` are the two links of such a chain;
the lemmas below open a chain from the side of its result.
-/

set_option autoImplicit false

namespace Lending

/-- Why an action is refused. -/
inductive Fault where
  /-- A total or a balance would exceed the largest amount. -/
  | overflow
  /-- A total or a balance would fall below zero. -/
  | underflow
  /-- The collateral of the pool would exceed the largest amount. -/
  | depositOverflow
  /-- More collateral is withdrawn or seized than the account holds. -/
  | withdrawExceedsCollateral
  /-- More shares are burned than the account holds. -/
  | burnExceedsShares
  /-- The liquidity redeemed is out on loan. -/
  | burnExceedsBorrowable
  /-- More is borrowed than the pool has to lend. -/
  | borrowExceedsBorrowable
  /-- More bonds are repaid than the account holds. -/
  | repayExceedsBonds
  /-- A repayment would make more borrowable than there is liquidity. -/
  | repayExceedsLiquidity
  /-- Cash cannot be turned into a burn of bonds within the bounds of the pool. -/
  | conversionOutOfBounds
  /-- More shares are sent than the sender holds. -/
  | transferExceedsBalance
  /-- More is borrowable than there is liquidity. -/
  | insolvent
  /-- The balances of the accounts do not sum to the totals of the pool. -/
  | unbalanced
  /-- More shares are spent or revoked than the owner has allowed. -/
  | allowanceExceeded
deriving DecidableEq

namespace Fault

/-- The number by which hosts know the fault. -/
def code : Fault → Nat
  | .overflow => 0
  | .underflow => 1
  | .depositOverflow => 2
  | .withdrawExceedsCollateral => 3
  | .burnExceedsShares => 4
  | .burnExceedsBorrowable => 5
  | .borrowExceedsBorrowable => 6
  | .repayExceedsBonds => 7
  | .repayExceedsLiquidity => 8
  | .conversionOutOfBounds => 9
  | .transferExceedsBalance => 10
  | .insolvent => 11
  | .unbalanced => 12
  | .allowanceExceeded => 13

/-- The fault in words. -/
def message : Fault → String
  | .overflow => "arithmetic overflow"
  | .underflow => "arithmetic underflow"
  | .depositOverflow => "deposit overflows total collateral"
  | .withdrawExceedsCollateral => "withdraw exceeds account collateral"
  | .burnExceedsShares => "burn exceeds account shares"
  | .burnExceedsBorrowable => "burn exceeds borrowable liquidity"
  | .borrowExceedsBorrowable => "borrow exceeds borrowable liquidity"
  | .repayExceedsBonds => "repay exceeds account bonds"
  | .repayExceedsLiquidity => "repay credits more than total liquidity"
  | .conversionOutOfBounds => "liquidation invariant violated"
  | .transferExceedsBalance => "share transfer exceeds sender balance"
  | .insolvent => "pool is insolvent: borrowable exceeds liquidity"
  | .unbalanced => "account balances do not sum to pool totals"
  | .allowanceExceeded => "share transfer exceeds allowance"

theorem code_injective {f g : Fault} (h : f.code = g.code) : f = g := by
  revert h
  cases f <;> cases g <;> decide

end Fault

/-- Why bytes that should hold a value hold none. -/
inductive Malformed where
  /-- No action can be read from the front of them. -/
  | payload
  /-- Their number is not that of the record. -/
  | length
deriving DecidableEq

/-- The reason in words. -/
def Malformed.message : Malformed → String
  | .payload => "An instruction's data contents was invalid"
  | .length => "SizeMismatch"

/-! ## Chains of partial steps -/

variable {ε α β : Type}

/-- The value, or the cause that stands for its absence. -/
def demand (value : Option α) (cause : ε) : Except ε α :=
  match value with
  | some a => .ok a
  | none => .error cause

/-- Goes on if the condition holds. -/
def require (condition : Prop) [Decidable condition] (cause : ε) : Except ε Unit :=
  if condition then .ok () else .error cause

@[simp] theorem demand_eq_ok_iff {x : Option α} {e : ε} {a : α} :
    demand x e = .ok a ↔ x = some a := by
  cases x <;> simp [demand]

@[simp] theorem demand_eq_error_iff {x : Option α} {e d : ε} :
    demand x e = .error d ↔ x = none ∧ e = d := by
  cases x <;> simp [demand]

@[simp] theorem require_eq_ok_iff {p : Prop} [Decidable p] {e : ε} {u : Unit} :
    require p e = .ok u ↔ p := by
  unfold require
  split <;> simp_all

@[simp] theorem require_eq_error_iff {p : Prop} [Decidable p] {e d : ε} :
    require p e = .error d ↔ ¬p ∧ e = d := by
  unfold require
  split <;> simp_all

@[simp] theorem pure_eq_ok_iff {a b : α} : (pure a : Except ε α) = .ok b ↔ a = b := by
  simp [pure, Except.pure]

@[simp] theorem pure_ne_error {a : α} {e : ε} : (pure a : Except ε α) ≠ .error e := by
  simp [pure, Except.pure]

/-- A chain of two steps succeeds if the first does and the second does on what it gave. -/
theorem bind_eq_ok_iff {x : Except ε α} {f : α → Except ε β} {b : β} :
    x >>= f = .ok b ↔ ∃ a, x = .ok a ∧ f a = .ok b := by
  cases x <;> simp [bind, Except.bind]

/-- A chain of two steps fails if the first does, or the second does on what the first gave. -/
theorem bind_eq_error_iff {x : Except ε α} {f : α → Except ε β} {d : ε} :
    x >>= f = .error d ↔ x = .error d ∨ ∃ a, x = .ok a ∧ f a = .error d := by
  cases x <;> simp [bind, Except.bind]

/-- To tell a cause in other words changes no success. -/
@[simp] theorem mapError_eq_ok_iff {δ : Type} {x : Except ε α} {f : ε → δ} {a : α} :
    x.mapError f = .ok a ↔ x = .ok a := by
  cases x with
  | ok b =>
    show Except.ok b = Except.ok a ↔ _
    simp
  | error cause =>
    show Except.error (f cause) = Except.ok a ↔ _
    simp

@[simp] theorem mapError_eq_error_iff {δ : Type} {x : Except ε α} {f : ε → δ} {d : δ} :
    x.mapError f = .error d ↔ ∃ cause, x = .error cause ∧ f cause = d := by
  cases x with
  | ok b =>
    show Except.ok b = Except.error d ↔ _
    simp
  | error cause =>
    show Except.error (f cause) = Except.error d ↔ _
    simp

end Lending
