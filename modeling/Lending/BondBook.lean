import Lending.Quantity.Ratio

/-!
# Bonds: shares of the debt of a pool

Bonds are to the debt what shares are to the liquidity, with the rounding turned round: a borrower
is assigned bonds rounded up (`bondsFor?`), and bonds are worth a debt rounded up (`debtFor?`), so
the pool never collects less than it lent. Without debt one unit borrowed is one bond; without
bonds the whole debt falls to whoever repays.

The debt can also be paid from a sum of cash that need not match a number of bonds. `convert?` burns
as many bonds as the cash covers, up to the number that the debtor holds, and says what they cost.
Beside the cost it gives two bounds for it: the worth of the burned bonds rounded down (`leastCash`)
and that of one bond more rounded up (`nextCash`), which the cash does not reach unless the debtor
has no bond more to burn.
-/

set_option autoImplicit false

namespace Lending

/-- The debt of a pool and the bonds that divide it. -/
structure BondBook (w : Nat) where
  /-- What the debtors owe together. -/
  debt : Quantity w
  /-- The number of bonds. -/
  bonds : Quantity w
deriving DecidableEq

/-- What a sum of cash does to a debtor's bonds. -/
structure Conversion (w : Nat) where
  /-- The bonds that the cash burns. -/
  burned : Quantity w
  /-- The part of the cash that is spent: the worth of the burned bonds, rounded up. -/
  repaid : Quantity w
  /-- The worth of the burned bonds, rounded down. -/
  leastCash : Quantity w
  /-- The worth of one bond more than was burned, rounded up, or the largest quantity. -/
  nextCash : Quantity w
deriving DecidableEq

namespace BondBook

open Quantity

variable {w : Nat}

/-- The bonds assigned for borrowing `amount`, rounded up; `none` if there are too many. -/
def bondsFor? (book : BondBook w) (amount : Quantity w) : Option (Quantity w) :=
  if book.debt = 0 then some amount
  else mulDivCeil? amount book.bonds book.debt

/-- The debt that `bonds` are worth, rounded up; `none` if it is too much. -/
def debtFor? (book : BondBook w) (bonds : Quantity w) : Option (Quantity w) :=
  if book.bonds = 0 then some book.debt
  else mulDivCeil? bonds book.debt book.bonds

/-- The bonds that `cash` covers in full, rounded down; none are needed where nothing is owed. -/
def covered? (book : BondBook w) (cash : Quantity w) : Option (Quantity w) :=
  if book.debt = 0 then some 0
  else mulDivFloor? cash book.bonds book.debt

/-- The worth of one bond more than `burned`, capped by the width. -/
def nextCash (book : BondBook w) (burned : Quantity w) : Quantity w :=
  (burned.succ?.bind (mulDivCeil? · book.debt book.bonds)).getD (top w)

/-- Burns the bonds that `cash` covers, at most the `held` ones. Where no bonds are outstanding
nothing is spent. -/
def convert? (book : BondBook w) (cash held : Quantity w) : Option (Conversion w) := do
  let burned := min (← book.covered? cash) held
  if book.bonds = 0 then
    return { burned, repaid := 0, leastCash := 0, nextCash := 0 }
  let repaid ← mulDivCeil? burned book.debt book.bonds
  let leastCash ← mulDivFloor? burned book.debt book.bonds
  return { burned, repaid, leastCash, nextCash := book.nextCash burned }

theorem bondsFor?_of_pos {book : BondBook w} (h : book.debt ≠ 0) (amount : Quantity w) :
    book.bondsFor? amount = mulDivCeil? amount book.bonds book.debt := if_neg h

theorem debtFor?_of_pos {book : BondBook w} (h : book.bonds ≠ 0) (bonds : Quantity w) :
    book.debtFor? bonds = mulDivCeil? bonds book.debt book.bonds := if_neg h

end BondBook

end Lending
