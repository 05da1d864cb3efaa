import Lending.Bytes.LittleEndian

/-!
# Byte strings as text

People read a key in base 58: the bytes spell a number, the first byte counting most, and the number
is written in 58 digits that leave out the letters and figures easily mistaken for one another. A
number does not show the zero bytes in front of it, so each of them is written as the digit zero,
which is `1`.
-/

set_option autoImplicit false

namespace Lending

namespace Bytes

/-- The digits of base 58, from zero up. -/
def symbols : List Char := "123456789ABCDEFGHJKLMNPQRSTUVWXYZabcdefghijkmnopqrstuvwxyz".toList

/-- The digits of a number in base 58, the lowest first; none for zero. -/
def base58Digits (x : Nat) : List Nat :=
  if h : x = 0 then [] else x % 58 :: base58Digits (x / 58)
termination_by x
decreasing_by exact Nat.div_lt_self (Nat.pos_of_ne_zero h) (by decide)

/-- The byte string in base 58. -/
def base58 {n : Nat} (b : Bytes n) : String :=
  let zeros := b.toList.takeWhile (· == 0)
  let figures := (base58Digits (ofDigits b.toList.reverse)).reverse
  String.ofList (zeros.map fun _ => '1') ++ String.ofList (figures.map (symbols.getD · '1'))

end Bytes

instance : ToString Key := ⟨Bytes.base58⟩

end Lending
