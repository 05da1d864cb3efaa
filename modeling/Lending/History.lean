import Lending.Outcome

/-!
# Histories: what a ledger went through

A host submits requests to a ledger and now and then changes its fees. A list of such steps leads
from one ledger to another (`Ledger.run`); a request that is refused is a step that leads nowhere.
The requests that took effect are the events of the history (`Ledger.events`), each kept with the
ledger it met, so that what is summed over a history is summed over its events.

A history can start from any ledger. One that starts from nothing (`Ledger.genesis`) leads only to
some of the ledgers that a host could restore, and some laws hold of these alone.
-/

set_option autoImplicit false

namespace Lending

/-- An action as a host submits it. -/
inductive Request where
  /-- The host names the interest. -/
  | charging (caller : Key) (action : Action) (interest : Amount)
  /-- The interest follows a rate curve up to a point in time. -/
  | clocked (caller : Key) (action : Action) (curve : RateCurve) (now : Timestamp)
deriving DecidableEq

namespace Request

/-- Who asks. -/
def caller : Request → Key
  | charging caller _ _ => caller
  | clocked caller _ _ _ => caller

/-- What is asked. -/
def action : Request → Action
  | charging _ action _ => action
  | clocked _ action _ _ => action

end Request

/-- What a host does with a ledger. -/
inductive Step where
  /-- Submits a request. -/
  | request (request : Request)
  /-- Changes the fees. -/
  | setFees (fees : FeeSchedule)
deriving DecidableEq

/-- A request that took effect. -/
structure Event where
  /-- The ledger it was submitted to. -/
  before : Ledger
  /-- The request. -/
  request : Request
  /-- What it did. -/
  effect : Effect
deriving DecidableEq

namespace Ledger

/-- What a request does, or why it does nothing. -/
def attempt (l : Ledger) : Request → Except Fault Effect
  | .charging caller action interest => l.apply caller action interest
  | .clocked caller action curve now => l.applyAt caller action curve now

/-- What the host sees of a request. -/
def submit (l : Ledger) (r : Request) : Outcome Fault := l.commit (l.attempt r)

/-- The ledger after a step. -/
def after (l : Ledger) : Step → Ledger
  | .request r => (l.submit r).ledger
  | .setFees fees => l.withFees fees

/-- The ledger after all steps. -/
def run (l : Ledger) (steps : List Step) : Ledger := steps.foldl after l

/-- The event that a step is, if it is one. -/
def event? (l : Ledger) : Step → Option Event
  | .request r => (l.attempt r).toOption.map (⟨l, r, ·⟩)
  | .setFees _ => none

/-- The requests that took effect, in order. -/
def events (l : Ledger) : List Step → List Event
  | [] => []
  | s :: rest => (l.event? s).toList ++ (l.after s).events rest

@[simp] theorem run_nil (l : Ledger) : l.run [] = l := rfl

@[simp] theorem run_cons (l : Ledger) (s : Step) (rest : List Step) :
    l.run (s :: rest) = (l.after s).run rest := rfl

/-- What holds of a ledger and is kept by every step holds at the end of its histories. -/
theorem run_induction {P : Ledger → Prop} (hstep : ∀ l s, P l → P (l.after s)) :
    ∀ (steps : List Step) (l : Ledger), P l → P (l.run steps)
  | [], _, h => h
  | s :: rest, l, h => run_induction hstep rest (l.after s) (hstep l s h)

end Ledger

end Lending
