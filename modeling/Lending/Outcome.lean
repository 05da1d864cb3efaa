import Lending.Action.Payload
import Lending.Ledger.Effect

/-!
# Outcomes: what the host sees of an action

A host hands an action to a ledger and is left with three things: the receipt or the reason why
there is none, the ledger as it now stands, and what was written to the journal. An action that
takes effect replaces the ledger and writes one line; one that is refused leaves the ledger as it
was, the interest of that action included, and writes nothing.

An action can come as a payload, and then may be refused for a second reason: that it cannot be
read. One that can be read leaves the host with what its action does (`Ledger.commit_applyPayload`).
-/

set_option autoImplicit false

namespace Lending

/-- Why a payload has no effect. -/
inductive Refusal where
  /-- It is no action. -/
  | malformed (cause : Malformed)
  /-- The ledger refuses the action that it is. -/
  | fault (cause : Fault)
deriving DecidableEq

/-- What the host sees of an action that can be refused for an `ε`. -/
structure Outcome (ε : Type) where
  /-- What the action did, or why it did nothing. -/
  result : Except ε Receipt
  /-- The ledger as it now stands. -/
  ledger : Ledger
  /-- The lines written to the journal. -/
  journal : List String

/-- Keeps the effect of an action, if it has one. -/
def Ledger.commit {ε : Type} (l : Ledger) (attempt : Except ε Effect) : Outcome ε :=
  match attempt with
  | .ok e => { result := .ok e.receipt, ledger := e.ledger, journal := [e.line] }
  | .error cause => { result := .error cause, ledger := l, journal := [] }

/-- Charges the given interest and does what the payload of the caller asks. -/
def Ledger.applyPayload (l : Ledger) (caller : Key) (payload : List UInt8) (interest : Amount) :
    Except Refusal Effect := do
  let action ← (Action.decode payload).mapError .malformed
  (l.apply caller action interest).mapError .fault

/-! ## What a payload does -/

namespace Ledger

variable {l : Ledger} {caller : Key} {payload : List UInt8} {interest : Amount}

/-- A payload takes effect if it is an action and the action does. -/
theorem applyPayload_eq_ok_iff {e : Effect} :
    l.applyPayload caller payload interest = .ok e ↔
      ∃ action, Action.decode payload = .ok action ∧ l.apply caller action interest = .ok e := by
  simp only [applyPayload, bind_eq_ok_iff, mapError_eq_ok_iff]

/-- It is malformed if it cannot be read, whatever the ledger, the caller and the interest. -/
theorem applyPayload_eq_malformed_iff {cause : Malformed} :
    l.applyPayload caller payload interest = .error (.malformed cause) ↔
      Action.decode payload = .error cause := by
  simp only [applyPayload, bind_eq_error_iff, mapError_eq_error_iff, Refusal.malformed.injEq,
    reduceCtorEq, and_false, exists_false, or_false, exists_eq_right]

/-- A payload that can be read is refused for the fault of its action. -/
theorem applyPayload_eq_fault_iff {cause : Fault} :
    l.applyPayload caller payload interest = .error (.fault cause) ↔
      ∃ action, Action.decode payload = .ok action ∧
        l.apply caller action interest = .error cause := by
  simp only [applyPayload, bind_eq_error_iff, mapError_eq_ok_iff, mapError_eq_error_iff,
    Refusal.fault.injEq, reduceCtorEq, and_false, exists_false, false_or, exists_eq_right]

/-- The host is left with what the action of the payload leaves it with, the fault told as a
refusal. -/
theorem commit_applyPayload {action : Action} (h : Action.decode payload = .ok action) :
    l.commit (l.applyPayload caller payload interest) =
      ⟨(l.commit (l.apply caller action interest)).result.mapError .fault,
        (l.commit (l.apply caller action interest)).ledger,
        (l.commit (l.apply caller action interest)).journal⟩ := by
  cases hact : l.apply caller action interest with
  | ok e =>
    rw [applyPayload_eq_ok_iff.mpr ⟨action, h, hact⟩]
    rfl
  | error cause =>
    rw [applyPayload_eq_fault_iff.mpr ⟨action, h, hact⟩]
    rfl

/-- A payload that cannot be read leaves the ledger and the journal alone. -/
theorem commit_applyPayload_of_malformed {cause : Malformed}
    (h : Action.decode payload = .error cause) :
    l.commit (l.applyPayload caller payload interest) = ⟨.error (.malformed cause), l, []⟩ := by
  rw [applyPayload_eq_malformed_iff.mpr h]
  rfl

end Ledger

end Lending
