import Lending.Account
import Lending.Bytes.Reader
import Lending.FeeSchedule
import Lending.Pool
import Lending.RateCurve

/-!
# Records as bytes

A host stores the records of a pool as bytes. The image of a record is its fields one after the
other, each with the least significant byte first and nothing in between: 96 bytes for a pool, 48
for an account, 64 for a rate curve and 32 for a fee schedule. A record is read back from exactly
its own image, so a list of another length is no image at all.

The main statements are the four `reads_read`: each reader takes a record from those lists that
begin with its image and from no others.
-/

set_option autoImplicit false

namespace Lending

open Reader

namespace Pool

/-- The bytes of the totals of a pool. -/
def image (pool : Pool) : List UInt8 :=
  (Bytes.ofAmount pool.collateral).toList ++ (Bytes.ofAmount pool.liquidity).toList ++
    (Bytes.ofAmount pool.shares).toList ++ (Bytes.ofAmount pool.borrowable).toList ++
    (Bytes.ofAmount pool.bonds).toList ++ (Bytes.ofTimestamp pool.accruedAt).toList ++
    pool.reserved.toList

/-- Reads the totals of a pool. -/
def read : Reader Pool := do
  return {
    collateral := ← amount, liquidity := ← amount, shares := ← amount, borrowable := ← amount,
    bonds := ← amount, accruedAt := ← timestamp, reserved := ← bytes 8 }

/-- The totals with this image. -/
def ofImage (input : List UInt8) : Except Malformed Pool := demand (read.whole input) .length

theorem reads_read : read.Reads image := by
  intro input pool rest
  simp only [read, bind_eq_some_iff, pure_eq_some_iff, reads_amount _ _ _, reads_timestamp _ _ _,
    reads_bytes _ _ _, image, List.append_assoc]
  constructor
  · rintro ⟨_, _, rfl, _, _, rfl, _, _, rfl, _, _, rfl, _, _, rfl, _, _, rfl, _, _, rfl, rfl, rfl⟩
    rfl
  · rintro rfl
    exact ⟨_, _, rfl, _, _, rfl, _, _, rfl, _, _, rfl, _, _, rfl, _, _, rfl, _, _, rfl, rfl, rfl⟩

@[simp] theorem length_image (pool : Pool) : pool.image.length = 96 := by
  simp [image, Bytes.length_toList]

end Pool

namespace Account

/-- The bytes of an account. -/
def image (account : Account) : List UInt8 :=
  (Bytes.ofAmount account.collateral).toList ++ (Bytes.ofAmount account.shares).toList ++
    (Bytes.ofAmount account.bonds).toList

/-- Reads an account. -/
def read : Reader Account := do
  return { collateral := ← amount, shares := ← amount, bonds := ← amount }

/-- The account with this image. -/
def ofImage (input : List UInt8) : Except Malformed Account := demand (read.whole input) .length

theorem reads_read : read.Reads image := by
  intro input account rest
  simp only [read, bind_eq_some_iff, pure_eq_some_iff, reads_amount _ _ _, image,
    List.append_assoc]
  constructor
  · rintro ⟨_, _, rfl, _, _, rfl, _, _, rfl, rfl, rfl⟩
    rfl
  · rintro rfl
    exact ⟨_, _, rfl, _, _, rfl, _, _, rfl, rfl, rfl⟩

@[simp] theorem length_image (account : Account) : account.image.length = 48 := by
  simp [image, Bytes.length_toList]

end Account

namespace RateCurve

/-- The bytes of a rate curve. -/
def image (curve : RateCurve) : List UInt8 :=
  (Bytes.ofAmount curve.standardSlope).toList ++ (Bytes.ofAmount curve.standardFloor).toList ++
    (Bytes.ofAmount curve.emergencySlope).toList ++
    (Bytes.ofAmount curve.emergencyCeiling).toList

/-- Reads a rate curve. -/
def read : Reader RateCurve := do
  return {
    standardSlope := ← amount, standardFloor := ← amount, emergencySlope := ← amount,
    emergencyCeiling := ← amount }

/-- The rate curve with this image. -/
def ofImage (input : List UInt8) : Except Malformed RateCurve := demand (read.whole input) .length

theorem reads_read : read.Reads image := by
  intro input curve rest
  simp only [read, bind_eq_some_iff, pure_eq_some_iff, reads_amount _ _ _, image,
    List.append_assoc]
  constructor
  · rintro ⟨_, _, rfl, _, _, rfl, _, _, rfl, _, _, rfl, rfl, rfl⟩
    rfl
  · rintro rfl
    exact ⟨_, _, rfl, _, _, rfl, _, _, rfl, _, _, rfl, rfl, rfl⟩

@[simp] theorem length_image (curve : RateCurve) : curve.image.length = 64 := by
  simp [image, Bytes.length_toList]

end RateCurve

namespace FeeSchedule

/-- The bytes of a fee schedule. -/
def image (fees : FeeSchedule) : List UInt8 :=
  (Bytes.ofAmount fees.minting).toList ++ (Bytes.ofAmount fees.borrowing).toList

/-- Reads a fee schedule. -/
def read : Reader FeeSchedule := do
  return { minting := ← amount, borrowing := ← amount }

/-- The fee schedule with this image. -/
def ofImage (input : List UInt8) : Except Malformed FeeSchedule := demand (read.whole input) .length

theorem reads_read : read.Reads image := by
  intro input fees rest
  simp only [read, bind_eq_some_iff, pure_eq_some_iff, reads_amount _ _ _, image,
    List.append_assoc]
  constructor
  · rintro ⟨_, _, rfl, _, _, rfl, rfl, rfl⟩
    rfl
  · rintro rfl
    exact ⟨_, _, rfl, _, _, rfl, rfl, rfl⟩

@[simp] theorem length_image (fees : FeeSchedule) : fees.image.length = 32 := by
  simp [image, Bytes.length_toList]

end FeeSchedule

end Lending
