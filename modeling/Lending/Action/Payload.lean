import Lending.Action
import Lending.Bytes.Reader
import Lending.Fault

/-!
# Actions as bytes

A payload is one byte that tells the action, its tag, followed by the operands in order: keys as
they are, amounts with the least significant byte first. `decode` takes the action at the front of
a payload and does not look at what follows it, so `accrue`, which has no operands, is any payload
that begins with its tag.

The main statement is `reads_read`: reading is exact, so an action is decoded from those payloads
that begin with its encoding and from no others.
-/

set_option autoImplicit false

namespace Lending

namespace Action

/-- The byte that tells the action. -/
def tag : Action → UInt8
  | deposit _ => 0
  | withdraw _ => 1
  | mint _ => 2
  | burn _ => 3
  | borrow _ => 4
  | repay _ => 5
  | liquidate _ _ => 6
  | accrue => 7
  | transfer _ _ => 8
  | repayFor _ _ => 9
  | approve _ _ => 10
  | raiseAllowance _ _ => 11
  | lowerAllowance _ _ => 12
  | transferFrom _ _ _ => 13

/-- A key and an amount, one after the other. -/
def keyed (key : Key) (amount : Amount) : List UInt8 :=
  key.toList ++ (Bytes.ofAmount amount).toList

/-- The bytes after the tag. -/
def operands : Action → List UInt8
  | deposit amount | withdraw amount | mint amount | borrow amount =>
    (Bytes.ofAmount amount).toList
  | burn shares => (Bytes.ofAmount shares).toList
  | repay bonds => (Bytes.ofAmount bonds).toList
  | liquidate victim cash => keyed victim cash
  | accrue => []
  | transfer recipient shares => keyed recipient shares
  | repayFor debtor cash => keyed debtor cash
  | approve spender amount => keyed spender amount
  | raiseAllowance spender delta => keyed spender delta
  | lowerAllowance spender delta => keyed spender delta
  | transferFrom owner recipient shares => owner.toList ++ keyed recipient shares

/-- The payload of an action. -/
def encode (action : Action) : List UInt8 := action.tag :: action.operands

/-- Reads what follows a tag. -/
def readOperands (tag : UInt8) : Reader Action :=
  match tag with
  | 0 => deposit <$> Reader.amount
  | 1 => withdraw <$> Reader.amount
  | 2 => mint <$> Reader.amount
  | 3 => burn <$> Reader.amount
  | 4 => borrow <$> Reader.amount
  | 5 => repay <$> Reader.amount
  | 6 => do return liquidate (← Reader.key) (← Reader.amount)
  | 7 => return accrue
  | 8 => do return transfer (← Reader.key) (← Reader.amount)
  | 9 => do return repayFor (← Reader.key) (← Reader.amount)
  | 10 => do return approve (← Reader.key) (← Reader.amount)
  | 11 => do return raiseAllowance (← Reader.key) (← Reader.amount)
  | 12 => do return lowerAllowance (← Reader.key) (← Reader.amount)
  | 13 => do return transferFrom (← Reader.key) (← Reader.key) (← Reader.amount)
  | _ => failure

/-- Reads an action from the front of a payload. -/
def read : Reader Action := do readOperands (← Reader.byte)

/-- The action at the front of a payload. -/
def decode (payload : List UInt8) : Except Malformed Action :=
  demand (read.front payload) .payload

/-! ## Reading is exact -/

theorem map_amount_eq_some_iff {f : Amount → Action} {input rest : List UInt8} {a : Action} :
    (f <$> Reader.amount) input = some (a, rest) ↔
      ∃ q, f q = a ∧ input = (Bytes.ofAmount q).toList ++ rest := by
  rw [Reader.map_eq_some_iff]
  exact exists_congr fun q => by rw [Reader.reads_amount input q rest, and_comm]

theorem map_keyed_eq_some_iff {f : Key → Amount → Action} {input rest : List UInt8}
    {a : Action} :
    (do return f (← Reader.key) (← Reader.amount) : Reader Action) input = some (a, rest) ↔
      ∃ k q, f k q = a ∧ input = keyed k q ++ rest := by
  simp only [Reader.bind_eq_some_iff, Reader.pure_eq_some_iff, Reader.reads_key _ _ _,
    Reader.reads_amount _ _ _]
  constructor
  · rintro ⟨k, _, rfl, q, _, rfl, rfl, rfl⟩
    exact ⟨k, q, rfl, by simp [keyed]⟩
  · rintro ⟨k, q, rfl, rfl⟩
    exact ⟨k, _, by simp [keyed], q, _, rfl, rfl, rfl⟩

theorem map_owned_eq_some_iff {f : Key → Key → Amount → Action} {input rest : List UInt8}
    {a : Action} :
    (do return f (← Reader.key) (← Reader.key) (← Reader.amount) : Reader Action) input =
        some (a, rest) ↔
      ∃ o k q, f o k q = a ∧ input = o.toList ++ keyed k q ++ rest := by
  rw [Reader.bind_eq_some_iff]
  simp only [map_keyed_eq_some_iff, Reader.reads_key _ _ _]
  constructor
  · rintro ⟨o, _, rfl, k, q, rfl, rfl⟩
    exact ⟨o, k, q, rfl, by simp⟩
  · rintro ⟨o, k, q, rfl, rfl⟩
    exact ⟨o, _, by simp, k, q, rfl, rfl⟩

/-- Operands are read with a tag when they are those of an action with that tag. -/
theorem readOperands_eq_some_iff {t : UInt8} {input rest : List UInt8} {a : Action} :
    readOperands t input = some (a, rest) ↔ a.tag = t ∧ input = a.operands ++ rest := by
  constructor
  · intro h
    unfold readOperands at h
    split at h
    case h_8 =>
      obtain ⟨rfl, rfl⟩ := Reader.pure_eq_some_iff.mp h
      exact ⟨rfl, rfl⟩
    case h_14 =>
      obtain ⟨o, k, q, rfl, rfl⟩ := map_owned_eq_some_iff.mp h
      exact ⟨rfl, rfl⟩
    case h_15 => exact absurd (show none = some (a, rest) from h) (by simp)
    case h_1 | h_2 | h_3 | h_4 | h_5 | h_6 =>
      obtain ⟨q, rfl, rfl⟩ := map_amount_eq_some_iff.mp h
      exact ⟨rfl, rfl⟩
    all_goals
      obtain ⟨k, q, rfl, rfl⟩ := map_keyed_eq_some_iff.mp h
      exact ⟨rfl, rfl⟩
  · rintro ⟨rfl, rfl⟩
    cases a with
    | accrue => rfl
    | transferFrom o k q => exact map_owned_eq_some_iff.mpr ⟨o, k, q, rfl, rfl⟩
    | deposit q | withdraw q | mint q | burn q | borrow q | repay q =>
      exact map_amount_eq_some_iff.mpr ⟨q, rfl, rfl⟩
    | liquidate k q | transfer k q | repayFor k q | approve k q | raiseAllowance k q
    | lowerAllowance k q => exact map_keyed_eq_some_iff.mpr ⟨k, q, rfl, rfl⟩

theorem reads_read : read.Reads encode := by
  intro input a rest
  rw [read, Reader.bind_eq_some_iff]
  constructor
  · rintro ⟨t, operands, ht, ha⟩
    obtain ⟨rfl, rfl⟩ := readOperands_eq_some_iff.mp ha
    exact (Reader.reads_byte _ _ _).mp ht
  · rintro rfl
    exact ⟨a.tag, a.operands ++ rest, rfl, readOperands_eq_some_iff.mpr ⟨rfl, rfl⟩⟩

end Action

end Lending
