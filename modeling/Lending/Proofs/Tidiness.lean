import Lending.Proofs.Transitions

/-!
# Nothing idle is stored

An empty account and an allowance of zero need no entry, since a look-up that finds nothing answers
with them. Every write goes through `setAccount` or `setAllowance`, and these remove the entry
instead of storing such a thing. So a step adds no idle entry (`AddsNoIdle`), whatever it is and
whether or not it takes effect, and a ledger with a history stores none at all.

That is more than saving room. Two ledgers that answer all look-ups alike can still differ in their
idle entries; tidy ones cannot. In a tidy ledger, to write what is there already is to do nothing
(`Tidy.setPosition_eq`, `Tidy.setAllowance_self`).
-/

set_option autoImplicit false

namespace Lending

namespace SortedMap

variable {κ α : Type} [Ord κ] [Std.TransOrd κ] [Std.LawfulEqOrd κ]

/-! A write that removes what is idle, and stores what is not. -/

/-- What such a write leaves that is idle was there before. -/
theorem mem_of_mem_write (idle : α → Prop) {m : SortedMap κ α} {k : κ} {v : α} [Decidable (idle v)]
    {e : κ × α} (he : e ∈ (if idle v then m.erase k else m.insert k v).entries)
    (hidle : idle e.2) : e ∈ m.entries := by
  by_cases hv : idle v
  · rw [if_pos hv] at he
    exact (mem_erase_iff.mp he).1
  · rw [if_neg hv] at he
    rcases mem_insert_iff.mp he with rfl | hold
    · exact absurd hidle hv
    · exact hold.1

/-- To write what a look-up answers does nothing to a map without idle entries. -/
theorem write_self (idle : α → Prop) [DecidablePred idle] {m : SortedMap κ α}
    (hm : ∀ e ∈ m.entries, ¬idle e.2) {d : α} (hd : idle d) (k : κ) :
    (if idle ((m.get? k).getD d) then m.erase k else m.insert k ((m.get? k).getD d)) = m := by
  cases hget : m.get? k with
  | none =>
    rw [Option.getD_none, if_pos hd]
    exact erase_eq_self hget
  | some v =>
    rw [Option.getD_some, if_neg (hm _ (get?_eq_some_iff.mp hget))]
    exact insert_eq_self hget

theorem get?_write (idle : α → Prop) [DecidablePred idle] (m : SortedMap κ α) (k j : κ) (v : α)
    [Decidable (j = k)] :
    (if idle v then m.erase k else m.insert k v).get? j =
      if j = k then (if idle v then none else some v) else m.get? j := by
  by_cases hv : idle v
  · rw [if_pos hv, if_pos hv, get?_erase]
  · rw [if_neg hv, if_neg hv, get?_insert]

/-- Of two writes at one key the later one stands. -/
theorem write_write (idle : α → Prop) [DecidablePred idle] (m : SortedMap κ α) (k : κ) (u v : α) :
    (if idle v then (if idle u then m.erase k else m.insert k u).erase k
      else (if idle u then m.erase k else m.insert k u).insert k v) =
      if idle v then m.erase k else m.insert k v := by
  classical
  refine ext_get? fun j => ?_
  rw [get?_write, get?_write, get?_write]
  by_cases hj : j = k
  · rw [if_pos hj, if_pos hj]
  · rw [if_neg hj, if_neg hj, if_neg hj]

/-- Two writes at different keys can be made in either order. -/
theorem write_comm (idle : α → Prop) [DecidablePred idle] (m : SortedMap κ α) {k k' : κ}
    (hk : k ≠ k') (u v : α) :
    (if idle v then (if idle u then m.erase k else m.insert k u).erase k'
      else (if idle u then m.erase k else m.insert k u).insert k' v) =
      if idle u then (if idle v then m.erase k' else m.insert k' v).erase k
        else (if idle v then m.erase k' else m.insert k' v).insert k u := by
  classical
  refine ext_get? fun j => ?_
  rw [get?_write, get?_write, get?_write, get?_write]
  by_cases hj : j = k
  · subst hj
    rw [if_neg hk, if_pos rfl, if_pos rfl]
  · rw [if_neg hj, if_neg hj]

end SortedMap

open SortedMap

namespace Ledger

variable {l mid after : Ledger}

/-! ## No step adds idle entries -/

/-- Each idle entry of `after` is one of `l`. -/
structure AddsNoIdle (l after : Ledger) : Prop where
  account {e : Key × Account} (h : e ∈ after.accounts.entries) (hidle : e.2.IsEmpty) :
    e ∈ l.accounts.entries
  allowance {e : Grant × Amount} (h : e ∈ after.allowances.entries) (hidle : e.2 = 0) :
    e ∈ l.allowances.entries

namespace AddsNoIdle

theorem refl (l : Ledger) : l.AddsNoIdle l := ⟨fun h _ => h, fun h _ => h⟩

theorem trans (h : l.AddsNoIdle mid) (h' : mid.AddsNoIdle after) : l.AddsNoIdle after where
  account he hidle := h.account (h'.account he hidle) hidle
  allowance he hidle := h.allowance (h'.allowance he hidle) hidle

theorem tidy (h : l.AddsNoIdle after) (hl : l.Tidy) : after.Tidy := by
  obtain ⟨haccounts, hallowances⟩ := hl
  refine ⟨?_, ?_⟩
  · intro e he hidle
    exact haccounts e (h.account he hidle) hidle
  · intro e he hidle
    exact hallowances e (h.allowance he hidle) hidle

end AddsNoIdle

theorem addsNoIdle_setAccount (l : Ledger) (holder : Key) (a : Account) :
    l.AddsNoIdle (l.setAccount holder a) :=
  ⟨mem_of_mem_write Account.IsEmpty, fun h _ => h⟩

theorem addsNoIdle_setPosition (l : Ledger) (holder : Key) (p : Position) :
    l.AddsNoIdle (l.setPosition holder p) := by
  obtain ⟨haccount, hallowance⟩ := addsNoIdle_setAccount { l with pool := p.pool } holder p.account
  exact ⟨haccount, hallowance⟩

theorem addsNoIdle_setAllowance (l : Ledger) (owner spender : Key) (amount : Amount) :
    l.AddsNoIdle (l.setAllowance owner spender amount) :=
  ⟨fun h _ => h, mem_of_mem_write (· = 0)⟩

theorem addsNoIdle_of_send {sender recipient : Key} {shares : Amount}
    (h : l.send sender recipient shares = .ok after) : l.AddsNoIdle after := by
  rcases exists_of_send h with ⟨-, rfl⟩ | ⟨-, left, received, -, -, rfl⟩
  · exact .refl after
  · exact (addsNoIdle_setAccount l sender _).trans (addsNoIdle_setAccount _ recipient _)

theorem Acts.addsNoIdle {caller : Key} {action : Action} {r : Receipt}
    (h : l.Acts caller action r after) : l.AddsNoIdle after := by
  cases h with
  | trade _ => exact addsNoIdle_setPosition l _ _
  | accrue => exact .refl l
  | transfer h => exact addsNoIdle_of_send h
  | transferFrom h =>
    obtain ⟨remaining, sent, -, hsent, rfl⟩ := sendFor_eq_ok_iff.mp h
    have hsent' := addsNoIdle_of_send hsent
    split
    · exact hsent'
    · exact hsent'.trans (addsNoIdle_setAllowance sent _ _ remaining)
  | approve => exact addsNoIdle_setAllowance l _ _ _
  | raiseAllowance _ => exact addsNoIdle_setAllowance l _ _ _
  | lowerAllowance _ => exact addsNoIdle_setAllowance l _ _ _

theorem addsNoIdle_of_attempt {r : Request} {e : Effect} (h : l.attempt r = .ok e) :
    l.AddsNoIdle e.ledger := by
  obtain ⟨time, charged, acted, -, hcharged, hacts, hstamp⟩ := exists_of_attempt h
  obtain ⟨liquidity, -, rfl⟩ := accrue_eq_ok_iff.mp hcharged
  obtain ⟨haccount, hallowance⟩ := hacts.addsNoIdle
  rw [hstamp]
  exact ⟨haccount, hallowance⟩

theorem kept_tidy : Kept Tidy where
  accrue hl h := by
    obtain ⟨_, -, rfl⟩ := accrue_eq_ok_iff.mp h
    exact hl
  act hl h := h.addsNoIdle.tidy hl
  stamp _ hl := hl
  withFees _ hl := hl

theorem tidy_genesis : genesis.Tidy :=
  ⟨fun _ he => absurd he List.not_mem_nil, fun _ he => absurd he List.not_mem_nil⟩

theorem tidy_run (steps : List Step) : (genesis.run steps).Tidy :=
  kept_tidy.run tidy_genesis steps

/-! ## Writing what is there -/

theorem Tidy.setAccount_self (hl : l.Tidy) (holder : Key) :
    l.setAccount holder (l.account holder) = l :=
  congrArg (fun accounts => { l with accounts }) (write_self Account.IsEmpty hl.1 rfl holder)

/-- Totals that come with an account as it is are all that is written. -/
theorem Tidy.setPosition_eq (hl : l.Tidy) {holder : Key} {p : Position}
    (h : p.account = l.account holder) : l.setPosition holder p = { l with pool := p.pool } := by
  have htidy : { l with pool := p.pool }.Tidy := hl
  rw [setPosition, h]
  exact htidy.setAccount_self holder

theorem Tidy.setAllowance_self (hl : l.Tidy) (owner spender : Key) :
    l.setAllowance owner spender (l.allowance owner spender) = l :=
  congrArg (fun allowances => { l with allowances }) (write_self (· = 0) hl.2 rfl ⟨owner, spender⟩)

/-! ## Writing twice -/

theorem setAccount_setAccount (l : Ledger) (holder : Key) (a b : Account) :
    (l.setAccount holder a).setAccount holder b = l.setAccount holder b :=
  congrArg (fun accounts => { l with accounts }) (write_write Account.IsEmpty l.accounts holder a b)

/-- The accounts of two holders can be written in either order. -/
theorem setAccount_comm (l : Ledger) {holder other : Key} (h : holder ≠ other) (a b : Account) :
    (l.setAccount holder a).setAccount other b = (l.setAccount other b).setAccount holder a :=
  congrArg (fun accounts => { l with accounts }) (write_comm Account.IsEmpty l.accounts h a b)

/-- Of two positions that one holder comes to, the ledger keeps the later. -/
theorem setPosition_setPosition (l : Ledger) (holder : Key) (p q : Position) :
    (l.setPosition holder p).setPosition holder q = l.setPosition holder q :=
  setAccount_setAccount { l with pool := q.pool } holder p.account q.account

end Ledger

end Lending
