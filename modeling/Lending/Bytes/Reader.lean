import Lending.Bytes.LittleEndian

/-!
# Readers: values from the front of a byte string

A `Reader α` takes a value from the front of a list of bytes and leaves the rest, or fails where
the bytes run out. Readers are chained with `do`, and a chain reads its parts one after the other.

`Reads r write` says that `r` is exact: it succeeds on those lists, and only those, that begin with
the written form of a value, gives that value, and leaves what follows it. The readers of this file
are exact, and so is a chain of exact readers against the parts written one after the other.
-/

set_option autoImplicit false

namespace Lending

/-- Takes a value from the front of a list of bytes. -/
abbrev Reader := StateT (List UInt8) Option

namespace Reader

variable {α β : Type} {n : Nat}

/-- The first byte. -/
def byte : Reader UInt8
  | [] => none
  | b :: rest => some (b, rest)

/-- The first `n` bytes. -/
def bytes (n : Nat) : Reader (Bytes n) := fun input =>
  if h : n ≤ input.length then
    some (⟨input.take n, List.length_take_of_le h⟩, input.drop n)
  else
    none

/-- A quantity in `n` bytes, the least significant first. -/
def quantity (n : Nat) : Reader (Quantity (8 * n)) := Quantity.ofBytes <$> bytes n

/-- An amount, in sixteen bytes. -/
def amount : Reader Amount := quantity 16

/-- A point in time, in eight bytes. -/
def timestamp : Reader Timestamp := quantity 8

/-- A key, in thirty-two bytes. -/
def key : Reader Key := bytes 32

/-- The value that makes up the whole list. -/
def whole (r : Reader α) (input : List UInt8) : Option α :=
  match r input with
  | some (a, []) => some a
  | _ => none

/-- The value at the front of the list, whatever follows. -/
def front (r : Reader α) (input : List UInt8) : Option α := (r input).map Prod.fst

/-! ## Exactness -/

/-- The reader succeeds on a list when that begins with a written value, and leaves the rest. -/
def Reads (r : Reader α) (write : α → List UInt8) : Prop :=
  ∀ input a rest, r input = some (a, rest) ↔ input = write a ++ rest

theorem bind_eq_some_iff {r : Reader α} {f : α → Reader β} {input : List UInt8}
    {x : β × List UInt8} :
    (r >>= f) input = some x ↔ ∃ a rest, r input = some (a, rest) ∧ f a rest = some x := by
  show (r input).bind (fun p => f p.1 p.2) = some x ↔ _
  rw [Option.bind_eq_some_iff]
  constructor
  · rintro ⟨⟨a, rest⟩, hr, hf⟩
    exact ⟨a, rest, hr, hf⟩
  · rintro ⟨a, rest, hr, hf⟩
    exact ⟨(a, rest), hr, hf⟩

theorem pure_eq_some_iff {a b : α} {input rest : List UInt8} :
    (pure a : Reader α) input = some (b, rest) ↔ a = b ∧ input = rest := by
  show some (a, input) = some (b, rest) ↔ _
  simp

theorem map_eq_some_iff {r : Reader α} {f : α → β} {input rest : List UInt8} {b : β} :
    (f <$> r) input = some (b, rest) ↔ ∃ a, r input = some (a, rest) ∧ f a = b := by
  show (r input).bind (fun p => some (f p.1, p.2)) = some (b, rest) ↔ _
  rw [Option.bind_eq_some_iff]
  constructor
  · rintro ⟨⟨a, rest'⟩, hr, hf⟩
    obtain ⟨rfl, rfl⟩ := Prod.mk.inj (Option.some.inj hf)
    exact ⟨a, hr, rfl⟩
  · rintro ⟨a, hr, rfl⟩
    exact ⟨(a, rest), hr, rfl⟩

theorem reads_byte : Reads byte fun b => [b] := by
  intro input b rest
  cases input <;> simp [byte]

theorem reads_bytes : Reads (bytes n) Bytes.toList := by
  intro input b rest
  unfold bytes
  split
  · next h =>
    simp only [Option.some.injEq, Prod.mk.injEq, Bytes.ext_iff]
    constructor
    · rintro ⟨hb, hr⟩
      rw [← hb, ← hr, List.take_append_drop]
    · rintro rfl
      simp [b.length_toList]
  · next h =>
    simp only [reduceCtorEq, false_iff]
    rintro rfl
    simp [b.length_toList] at h

theorem reads_quantity : Reads (quantity n) fun q => q.toBytes.toList := by
  intro input q rest
  rw [quantity, map_eq_some_iff]
  constructor
  · rintro ⟨b, hb, rfl⟩
    simpa using (reads_bytes input b rest).mp hb
  · intro h
    exact ⟨q.toBytes, (reads_bytes input q.toBytes rest).mpr h, Quantity.ofBytes_toBytes q⟩

theorem reads_amount : Reads amount fun q => (Bytes.ofAmount q).toList := reads_quantity

theorem reads_timestamp : Reads timestamp fun t => (Bytes.ofTimestamp t).toList := reads_quantity

theorem reads_key : Reads key Bytes.toList := reads_bytes

theorem whole_eq_some_iff {r : Reader α} {write : α → List UInt8} (hr : r.Reads write)
    {input : List UInt8} {a : α} : r.whole input = some a ↔ input = write a := by
  have h := hr input a []
  rw [List.append_nil] at h
  rw [← h, whole]
  split
  · next heq => simp [heq]
  · next hne =>
    simp only [reduceCtorEq, false_iff]
    exact hne a

theorem front_eq_some_iff {r : Reader α} {write : α → List UInt8} (hr : r.Reads write)
    {input : List UInt8} {a : α} : r.front input = some a ↔ ∃ rest, input = write a ++ rest := by
  rw [front, Option.map_eq_some_iff]
  constructor
  · rintro ⟨⟨b, rest⟩, h, rfl⟩
    exact ⟨rest, (hr input b rest).mp h⟩
  · rintro ⟨rest, h⟩
    exact ⟨(a, rest), (hr input a rest).mpr h, rfl⟩

end Reader

end Lending
