import Lending.Quantity.Ratio

/-!
# Shares: claims on the liquidity of a pool

Whoever supplies liquidity holds shares of it, and a share is worth the liquidity divided by the
number of shares. Both directions round down, because both pay the holder: `sharesFor?` the shares
that an amount of liquidity buys, and `liquidityFor?` the liquidity that a number of shares is
worth. What rounding leaves over stays with the other holders.

Where there is nothing to divide by, a rule takes the place of the price. Without liquidity one
unit buys one share, which is how a pool starts; without shares there is nobody to pay, and the
worth is zero.
-/

set_option autoImplicit false

namespace Lending

/-- The liquidity of a pool and the shares that divide it. -/
structure ShareBook (w : Nat) where
  /-- What the holders own together. -/
  liquidity : Quantity w
  /-- The number of shares. -/
  shares : Quantity w
deriving DecidableEq

namespace ShareBook

open Quantity

variable {w : Nat}

/-- The shares that `amount` of liquidity buys, rounded down; `none` if there are too many. -/
def sharesFor? (book : ShareBook w) (amount : Quantity w) : Option (Quantity w) :=
  if book.liquidity = 0 then some amount
  else mulDivFloor? amount book.shares book.liquidity

/-- The liquidity that `shares` are worth, rounded down; `none` if it is too much. -/
def liquidityFor? (book : ShareBook w) (shares : Quantity w) : Option (Quantity w) :=
  if book.shares = 0 then some 0
  else mulDivFloor? shares book.liquidity book.shares

theorem sharesFor?_of_pos {book : ShareBook w} (h : book.liquidity ≠ 0) (amount : Quantity w) :
    book.sharesFor? amount = mulDivFloor? amount book.shares book.liquidity := if_neg h

theorem liquidityFor?_of_pos {book : ShareBook w} (h : book.shares ≠ 0) (shares : Quantity w) :
    book.liquidityFor? shares = mulDivFloor? shares book.liquidity book.shares := if_neg h

end ShareBook

end Lending
