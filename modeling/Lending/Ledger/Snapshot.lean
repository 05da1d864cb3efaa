import Lending.Image
import Lending.Ledger

/-!
# Snapshots

Between two actions a host keeps a ledger as a `Snapshot`: the images of the pool and of every
account that is stored, the allowances and the fees. `restore` reads the images back and builds the
ledger from its parts, which fails only if one of them is no image.
-/

set_option autoImplicit false

namespace Lending

/-- A ledger as a host keeps it. -/
structure Snapshot where
  /-- The image of the totals. -/
  pool : List UInt8
  /-- The image of each holder's account. -/
  accounts : List (Key × List UInt8)
  /-- The allowances. -/
  allowances : List (Grant × Amount)
  /-- The fees. -/
  fees : FeeSchedule
deriving DecidableEq

/-- The ledger as a host keeps it. -/
def Ledger.snapshot (l : Ledger) : Snapshot where
  pool := l.pool.image
  accounts := l.accounts.entries.map fun e => (e.1, e.2.image)
  allowances := l.allowances.entries
  fees := l.fees

namespace Snapshot

/-- The holder's account whose image is stored. -/
def readAccount (entry : Key × List UInt8) : Except Malformed (Key × Account) := do
  return (entry.1, ← Account.ofImage entry.2)

/-- The ledger that is stored. -/
def restore (s : Snapshot) : Except Malformed Ledger := do
  let pool ← Pool.ofImage s.pool
  let accounts ← s.accounts.mapM readAccount
  return ((Ledger.ofParts pool accounts).withAllowances s.allowances).withFees s.fees

end Snapshot

end Lending
