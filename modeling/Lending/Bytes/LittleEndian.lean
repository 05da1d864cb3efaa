import Lending.Quantity
import Lending.Bytes

/-!
# Quantities as bytes, least significant first

A quantity of width `8 * n` is stored in `n` bytes, the byte with the lowest digit first. Every
string of `n` bytes is the form of exactly one quantity: `ofBytes_toBytes` and `toBytes_ofBytes`
are the two halves of that, and both rest on the same fact about base-256 digits, that the first
byte is the remainder and the others are the quotient.
-/

set_option autoImplicit false

namespace Lending

/-! ## Base-256 digits -/

/-- The number that the bytes spell, the first byte counting least. -/
def ofDigits : List UInt8 → Nat
  | [] => 0
  | b :: bs => b.toNat + 256 * ofDigits bs

/-- The lowest `n` base-256 digits of a number, the lowest first. -/
def digits : Nat → Nat → List UInt8
  | 0, _ => []
  | n + 1, x => UInt8.ofNat x :: digits n (x / 256)

@[simp] theorem length_digits (n x : Nat) : (digits n x).length = n := by
  induction n generalizing x with
  | zero => rfl
  | succ n ih => simp [digits, ih]

theorem ofDigits_lt (bs : List UInt8) : ofDigits bs < capacity (8 * bs.length) := by
  induction bs with
  | nil => exact capacity_pos _
  | cons b bs ih =>
    have hb := b.toNat_lt
    rw [ofDigits, List.length_cons, Nat.mul_succ, capacity_add, capacity_eight]
    omega

theorem ofDigits_digits {n x : Nat} (h : x < capacity (8 * n)) : ofDigits (digits n x) = x := by
  induction n generalizing x with
  | zero => exact (Nat.lt_one_iff.mp h).symm
  | succ n ih =>
    rw [Nat.mul_succ, capacity_add, capacity_eight] at h
    rw [digits, ofDigits, ih (by omega), UInt8.toNat_ofNat']
    omega

theorem digits_ofDigits (bs : List UInt8) : digits bs.length (ofDigits bs) = bs := by
  induction bs with
  | nil => rfl
  | cons b bs ih =>
    have hb := b.toNat_lt
    have hlow : UInt8.ofNat (b.toNat + 256 * ofDigits bs) = b := by
      apply UInt8.toNat_inj.mp
      rw [UInt8.toNat_ofNat']
      omega
    have hhigh : (b.toNat + 256 * ofDigits bs) / 256 = ofDigits bs := by omega
    rw [ofDigits, List.length_cons, digits, hlow, hhigh, ih]

/-! ## Quantities -/

namespace Quantity

variable {n : Nat}

/-- The bytes of a quantity, the least significant first. -/
def toBytes (q : Quantity (8 * n)) : Bytes n := ⟨digits n q.toNat, length_digits n q.toNat⟩

/-- The quantity whose bytes these are. -/
def ofBytes (b : Bytes n) : Quantity (8 * n) :=
  ⟨ofDigits b.toList, Nat.lt_of_lt_of_eq (ofDigits_lt b.toList) (by rw [b.length_toList])⟩

@[simp] theorem ofBytes_toBytes (q : Quantity (8 * n)) : ofBytes q.toBytes = q :=
  Quantity.ext (ofDigits_digits q.toNat_lt)

@[simp] theorem toBytes_ofBytes (b : Bytes n) : (ofBytes b).toBytes = b := by
  obtain ⟨bs, rfl⟩ := b
  exact Bytes.ext (digits_ofDigits bs)

end Quantity

/-- An amount in sixteen bytes. -/
def Bytes.ofAmount (amount : Amount) : Bytes 16 := Quantity.toBytes (n := 16) amount

/-- A point in time in eight bytes. -/
def Bytes.ofTimestamp (time : Timestamp) : Bytes 8 := Quantity.toBytes (n := 8) time

end Lending
