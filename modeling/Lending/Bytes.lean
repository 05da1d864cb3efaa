/-!
# Byte strings of a fixed length

A `Bytes n` is a list of exactly `n` bytes. Two uses need the length in the type: keys, which name
the holders of accounts, and the part of a stored record that the library carries along without
reading it. Byte strings are ordered as in a dictionary, by their first differing byte, and equal in
that order only when they are equal.
-/

set_option autoImplicit false

namespace Lending

/-- A list of `n` bytes. -/
@[ext]
structure Bytes (n : Nat) where
  /-- The bytes, in order. -/
  toList : List UInt8
  /-- There are `n` of them. -/
  length_toList : toList.length = n
deriving DecidableEq

/-- Names the holder of an account. -/
abbrev Key := Bytes 32

namespace Bytes

variable {n : Nat}

/-- The list as a byte string of length `n`, if it has that length. -/
def ofList? (n : Nat) (bytes : List UInt8) : Option (Bytes n) :=
  if h : bytes.length = n then some ⟨bytes, h⟩ else none

theorem ofList?_eq_some_iff {bytes : List UInt8} {b : Bytes n} :
    ofList? n bytes = some b ↔ bytes = b.toList := by
  unfold ofList?
  split
  · next h =>
    rw [Option.some.injEq, Bytes.ext_iff]
  · next h =>
    simp only [reduceCtorEq, false_iff]
    rintro rfl
    exact h b.length_toList

instance : Zero (Bytes n) := ⟨⟨List.replicate n 0, List.length_replicate⟩⟩

instance : Inhabited (Bytes n) := ⟨0⟩

instance : Ord (Bytes n) := ⟨compareOn toList⟩

instance : Std.TransOrd (Bytes n) := inferInstanceAs (Std.TransCmp (compareOn toList))

instance : Std.LawfulEqOrd (Bytes n) where
  eq_of_compare h := Bytes.ext (Std.LawfulEqOrd.eq_of_compare (α := List UInt8) h)

end Bytes

end Lending
