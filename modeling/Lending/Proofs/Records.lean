import Lending.Image

/-!
# Every byte string of the right length is the image of one record

That the reader of a record is exact (`Reader.Reads`) says which lists it accepts: the images, and
nothing else. It does not say that there is an image for every list of the length of one. There is,
because no part of a record refuses any bytes. Each takes as many as it is wide and makes a value of
them, whatever they are (`Reader.Takes`), and so does a chain of such parts, with the widths added.
An exact reader that takes `size` bytes makes of records and of lists of that length the same thing
twice (`isFormat_of_reads`).

Which byte is which is a matter of its own, since two fields could be exchanged in the writer and in
the reader alike. `Spells` says it byte by byte: the fields stand in the order given, nothing is
between them, and byte `i` of a field is its digit of weight `256 ^ i`.
-/

set_option autoImplicit false

namespace Lending

/-! ## Readers that refuse no bytes -/

namespace Reader

variable {α β : Type} {m n : Nat}

/-- The reader takes `n` bytes and gives a value, wherever there are as many. -/
def Takes (r : Reader α) (n : Nat) : Prop :=
  ∀ input, n ≤ input.length → ∃ a, r input = some (a, input.drop n)

theorem takes_pure (a : α) : (pure a : Reader α).Takes 0 := fun _ _ => ⟨a, rfl⟩

theorem takes_bytes : (bytes n).Takes n := by
  intro input h
  exact ⟨⟨input.take n, List.length_take_of_le h⟩, dif_pos h⟩

theorem takes_quantity : (quantity n).Takes n := by
  intro input h
  obtain ⟨b, hb⟩ := takes_bytes input h
  exact ⟨Quantity.ofBytes b, map_eq_some_iff.mpr ⟨b, hb, rfl⟩⟩

theorem takes_amount : amount.Takes 16 := takes_quantity

theorem takes_timestamp : timestamp.Takes 8 := takes_quantity

/-- A chain takes what its two parts take. -/
theorem Takes.bind {r : Reader α} {f : α → Reader β} (hr : r.Takes m)
    (hf : ∀ a, (f a).Takes n) : (r >>= f).Takes (m + n) := by
  intro input h
  obtain ⟨a, ha⟩ := hr input (by omega)
  obtain ⟨b, hb⟩ := hf a (input.drop m) (by rw [List.length_drop]; omega)
  rw [List.drop_drop] at hb
  exact ⟨b, bind_eq_some_iff.mpr ⟨a, _, ha, hb⟩⟩

end Reader

/-! ## Formats -/

section Formats

variable {α : Type}

/-- Records and byte strings of length `size` are in bijection, and no other bytes are accepted. -/
structure IsFormat (image : α → List UInt8) (ofImage : List UInt8 → Except Malformed α)
    (size : Nat) : Prop where
  ofImage_image (a : α) : ofImage (image a) = .ok a
  exists_image_eq {input : List UInt8} (h : input.length = size) :
    ∃ a, ofImage input = .ok a ∧ image a = input
  ofImage_of_length_ne {input : List UInt8} (h : input.length ≠ size) :
    ofImage input = .error .length

theorem isFormat_of_reads {r : Reader α} {image : α → List UInt8} {size : Nat}
    (hreads : r.Reads image) (htakes : r.Takes size)
    (hlength : ∀ a, (image a).length = size) :
    IsFormat image (fun input => demand (r.whole input) .length) size where
  ofImage_image a := demand_eq_ok_iff.mpr ((Reader.whole_eq_some_iff hreads).mpr rfl)
  exists_image_eq {input} h := by
    obtain ⟨a, ha⟩ := htakes input (Nat.le_of_eq h.symm)
    rw [List.drop_eq_nil_of_le (Nat.le_of_eq h)] at ha
    -- What an exact reader made a value of is the image of that value.
    have himage : input = image a := by simpa using (hreads input a []).mp ha
    exact ⟨a, demand_eq_ok_iff.mpr ((Reader.whole_eq_some_iff hreads).mpr himage), himage.symm⟩
  ofImage_of_length_ne {input} h := by
    refine demand_eq_error_iff.mpr ⟨?_, rfl⟩
    cases hr : r.whole input with
    | none => rfl
    | some a =>
      rw [(Reader.whole_eq_some_iff hreads).mp hr] at h
      exact absurd (hlength a) h

end Formats

open Reader

theorem Pool.isFormat : IsFormat Pool.image Pool.ofImage 96 :=
  isFormat_of_reads reads_read
    (takes_amount.bind fun _ => takes_amount.bind fun _ => takes_amount.bind fun _ =>
      takes_amount.bind fun _ => takes_amount.bind fun _ => takes_timestamp.bind fun _ =>
      takes_bytes.bind fun _ => takes_pure _)
    length_image

theorem Account.isFormat : IsFormat Account.image Account.ofImage 48 :=
  isFormat_of_reads reads_read
    (takes_amount.bind fun _ => takes_amount.bind fun _ => takes_amount.bind fun _ =>
      takes_pure _)
    length_image

theorem RateCurve.isFormat : IsFormat RateCurve.image RateCurve.ofImage 64 :=
  isFormat_of_reads reads_read
    (takes_amount.bind fun _ => takes_amount.bind fun _ => takes_amount.bind fun _ =>
      takes_amount.bind fun _ => takes_pure _)
    length_image

theorem FeeSchedule.isFormat : IsFormat FeeSchedule.image FeeSchedule.ofImage 32 :=
  isFormat_of_reads reads_read
    (takes_amount.bind fun _ => takes_amount.bind fun _ => takes_pure _)
    length_image

/-! ## Layouts -/

/-- The bytes begin with the number in `n` bytes, the least significant one first. -/
def BeginsWith (bytes : List UInt8) (n x : Nat) : Prop :=
  ∀ i, i < n → bytes[i]?.map UInt8.toNat = some (x / capacity (8 * i) % 256)

/-- The bytes are numbers one after the other, each in its number of bytes, and then the tail. -/
def Spells : List (Nat × Nat) → List UInt8 → List UInt8 → Prop
  | [], tail, bytes => bytes = tail
  | (n, x) :: fields, tail, bytes => BeginsWith bytes n x ∧ Spells fields tail (bytes.drop n)

theorem beginsWith_digits (n x : Nat) (rest : List UInt8) :
    BeginsWith (digits n x ++ rest) n x := by
  induction n generalizing x with
  | zero => exact fun i hi => absurd hi (Nat.not_lt_zero i)
  | succ n ih =>
    intro i hi
    cases i with
    | zero =>
      show some (UInt8.ofNat x).toNat = some (x / 1 % 256)
      rw [UInt8.toNat_ofNat', Nat.div_one]
    | succ i =>
      have hweight : x / capacity (8 * (i + 1)) = x / 256 / capacity (8 * i) := by
        rw [Nat.mul_succ, capacity_add, capacity_eight, Nat.mul_comm, Nat.div_div_eq_div_mul]
      rw [hweight]
      exact ih (x / 256) i (Nat.lt_of_succ_lt_succ hi)

theorem spells_cons {n x : Nat} {fields : List (Nat × Nat)} {tail rest : List UInt8}
    (h : Spells fields tail rest) : Spells ((n, x) :: fields) tail (digits n x ++ rest) := by
  refine ⟨beginsWith_digits n x rest, ?_⟩
  rw [List.drop_left' (length_digits n x)]
  exact h

theorem spells_last (n x : Nat) : Spells [(n, x)] [] (digits n x) := by
  rw [← List.append_nil (digits n x)]
  exact spells_cons rfl

theorem Pool.spells_image (pool : Pool) :
    Spells [(16, pool.collateral.toNat), (16, pool.liquidity.toNat), (16, pool.shares.toNat),
      (16, pool.borrowable.toNat), (16, pool.bonds.toNat), (8, pool.accruedAt.toNat)]
      pool.reserved.toList pool.image := by
  simp only [image, List.append_assoc]
  exact spells_cons <| spells_cons <| spells_cons <| spells_cons <| spells_cons <|
    spells_cons rfl

theorem Account.spells_image (account : Account) :
    Spells [(16, account.collateral.toNat), (16, account.shares.toNat),
      (16, account.bonds.toNat)] [] account.image := by
  simp only [image, List.append_assoc]
  exact spells_cons <| spells_cons <| spells_last _ _

theorem RateCurve.spells_image (curve : RateCurve) :
    Spells [(16, curve.standardSlope.toNat), (16, curve.standardFloor.toNat),
      (16, curve.emergencySlope.toNat), (16, curve.emergencyCeiling.toNat)] [] curve.image := by
  simp only [image, List.append_assoc]
  exact spells_cons <| spells_cons <| spells_cons <| spells_last _ _

theorem FeeSchedule.spells_image (fees : FeeSchedule) :
    Spells [(16, fees.minting.toNat), (16, fees.borrowing.toNat)] [] fees.image :=
  spells_cons <| spells_last _ _

/-! ## The four records -/

/-- Each of the four records is read back from its image, each list of its length is the image of
the one that is read from it, and a list of any other length is refused for its length. The image is
the fields in order and nothing else: numbers with the least significant byte first, and for a pool
the bytes that nothing reads. -/
theorem records_fill_their_images :
    (IsFormat Pool.image Pool.ofImage 96 ∧ IsFormat Account.image Account.ofImage 48 ∧
      IsFormat RateCurve.image RateCurve.ofImage 64 ∧
      IsFormat FeeSchedule.image FeeSchedule.ofImage 32 ∧
      Malformed.length.message = "SizeMismatch") ∧
    (∀ pool : Pool,
      Spells [(16, pool.collateral.toNat), (16, pool.liquidity.toNat), (16, pool.shares.toNat),
        (16, pool.borrowable.toNat), (16, pool.bonds.toNat), (8, pool.accruedAt.toNat)]
        pool.reserved.toList pool.image) ∧
    (∀ account : Account,
      Spells [(16, account.collateral.toNat), (16, account.shares.toNat),
        (16, account.bonds.toNat)] [] account.image) ∧
    (∀ curve : RateCurve,
      Spells [(16, curve.standardSlope.toNat), (16, curve.standardFloor.toNat),
        (16, curve.emergencySlope.toNat), (16, curve.emergencyCeiling.toNat)] [] curve.image) ∧
    ∀ fees : FeeSchedule,
      Spells [(16, fees.minting.toNat), (16, fees.borrowing.toNat)] [] fees.image :=
  ⟨⟨Pool.isFormat, Account.isFormat, RateCurve.isFormat, FeeSchedule.isFormat, rfl⟩,
    Pool.spells_image, Account.spells_image, RateCurve.spells_image, FeeSchedule.spells_image⟩

/-- Bytes that count up are a pool, and without the last of them they are none. Half of them are an
account. -/
theorem counted_bytes_are_records :
    (∃ pool, Pool.ofImage ((List.range 96).map UInt8.ofNat) = .ok pool ∧
      pool.image = (List.range 96).map UInt8.ofNat ∧
      BeginsWith pool.image 16 pool.collateral.toNat) ∧
    Pool.ofImage ((List.range 95).map UInt8.ofNat) = .error .length ∧
    ∃ account, Account.ofImage ((List.range 48).map UInt8.ofNat) = .ok account ∧
      account.image = (List.range 48).map UInt8.ofNat := by
  obtain ⟨⟨hpool, haccount, -⟩, hspells, -⟩ := records_fill_their_images
  have hlength : ((List.range 96).map UInt8.ofNat).length = 96 := by decide
  obtain ⟨pool, hread, himage⟩ := hpool.exists_image_eq hlength
  exact ⟨⟨pool, hread, himage, (hspells pool).1⟩, hpool.ofImage_of_length_ne (by decide),
    haccount.exists_image_eq (by decide)⟩

end Lending
