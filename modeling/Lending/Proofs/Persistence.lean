import Mathlib.Data.List.Perm.Basic
import Lending.Ledger.Snapshot
import Lending.Proofs.Records
import Lending.Proofs.Tidiness

/-!
# A stored ledger comes back as it was

A host keeps a ledger as records and builds it anew from them. The constructors drop what is idle,
an empty account or an allowance of zero, and keep whatever else they are given, so a ledger with an
idle entry would come back without it. There is no such ledger. The constructors do not make one,
and no step adds an idle entry to a ledger that has none (`Ledger.AddsNoIdle`), so whatever a host
can come to hold is tidy (`Ledger.Obtainable.tidy`).

The order in which the records are handed back does not matter. A map is built by one insertion for
each entry, and where no key occurs twice the entries of the map are the entries of the list
(`SortedMap.ofList_of_perm`). Accounts go through their images on the way, and those are read back
one by one.
-/

set_option autoImplicit false

namespace Lending

/-! ## Maps from lists of entries -/

namespace SortedMap

variable {κ α : Type} [Ord κ] [Std.TransOrd κ] [Std.LawfulEqOrd κ]

/-- What a map holds after insertions was inserted, or was there before. -/
theorem mem_or_mem_of_mem_foldl_insert {es : List (κ × α)} {m : SortedMap κ α} {e : κ × α}
    (h : e ∈ (es.foldl (fun m e => m.insert e.1 e.2) m).entries) : e ∈ es ∨ e ∈ m.entries := by
  induction es generalizing m with
  | nil => exact .inr h
  | cons d es ih =>
    rcases ih h with hes | hm
    · exact .inl (List.mem_cons_of_mem d hes)
    · rcases mem_insert_iff.mp hm with rfl | hold
      · exact .inl List.mem_cons_self
      · exact .inr hold.1

/-- Insertions at different keys are all kept, and so is what they do not replace. -/
theorem mem_foldl_insert {es : List (κ × α)} (hes : es.Pairwise fun a b => a.1 ≠ b.1)
    {m : SortedMap κ α} {e : κ × α}
    (h : e ∈ es ∨ e ∈ m.entries ∧ ∀ d ∈ es, d.1 ≠ e.1) :
    e ∈ (es.foldl (fun m e => m.insert e.1 e.2) m).entries := by
  induction es generalizing m with
  | nil =>
    rcases h with habsurd | hm
    · exact absurd habsurd List.not_mem_nil
    · exact hm.1
  | cons d es ih =>
    obtain ⟨hd, hes⟩ := List.pairwise_cons.mp hes
    refine ih hes ?_
    rcases h with hmem | ⟨hm, hother⟩
    · rcases List.mem_cons.mp hmem with rfl | hmem
      · exact .inr ⟨mem_insert_iff.mpr (.inl rfl), fun d hd' => Ne.symm (hd d hd')⟩
      · exact .inl hmem
    · refine .inr ⟨mem_insert_iff.mpr (.inr ⟨hm, ?_⟩), ?_⟩
      · exact Ne.symm (hother d List.mem_cons_self)
      · intro d' hd'
        exact hother d' (List.mem_cons_of_mem d hd')

theorem mem_of_mem_ofList {es : List (κ × α)} {e : κ × α} (h : e ∈ (ofList es).entries) :
    e ∈ es :=
  (mem_or_mem_of_mem_foldl_insert h).resolve_right List.not_mem_nil

/-- A map is built again from its entries, in whichever order. -/
theorem ofList_of_perm {m : SortedMap κ α} {es : List (κ × α)} (h : es.Perm m.entries) :
    ofList es = m := by
  have hdistinct : es.Pairwise fun a b => a.1 ≠ b.1 := by
    refine (h.pairwise_iff Ne.symm).mpr (m.ascending.imp ?_)
    intro a b hlt heq
    rw [heq, Std.ReflOrd.compare_self] at hlt
    exact absurd hlt (by decide)
  refine SortedMap.ext (entries_ext (ofList es).ascending m.ascending fun e => ?_)
  constructor
  · intro he
    exact h.mem_iff.mp (mem_of_mem_ofList he)
  · intro he
    exact mem_foldl_insert hdistinct (.inl (h.mem_iff.mpr he))

end SortedMap

/-! ## Records -/

theorem Pool.ofImage_image (pool : Pool) : ofImage pool.image = .ok pool :=
  isFormat.ofImage_image pool

theorem Account.ofImage_image (account : Account) : ofImage account.image = .ok account :=
  isFormat.ofImage_image account

/-- The accounts whose images are stored, in their order. -/
theorem Snapshot.mapM_readAccount (es : List (Key × Account)) :
    (es.map fun e => (e.1, e.2.image)).mapM readAccount = .ok es := by
  induction es with
  | nil => rfl
  | cons e es ih =>
    simp only [List.map_cons, List.mapM_cons, ih, readAccount, Account.ofImage_image]
    rfl

namespace Ledger

variable {l : Ledger}

/-! ## What a host can come to hold -/

/-- A ledger that a host can come to hold: from nothing or from parts, with allowances and fees of
its choice, and after any steps. -/
inductive Obtainable : Ledger → Prop
  | genesis : Obtainable genesis
  | ofParts (pool : Pool) (accounts : List (Key × Account)) : Obtainable (ofParts pool accounts)
  | withAllowances {l : Ledger} (hl : Obtainable l) (allowances : List (Grant × Amount)) :
      Obtainable (l.withAllowances allowances)
  | withFees {l : Ledger} (hl : Obtainable l) (fees : FeeSchedule) : Obtainable (l.withFees fees)
  | run {l : Ledger} (hl : Obtainable l) (steps : List Step) : Obtainable (l.run steps)

theorem Obtainable.tidy (h : l.Obtainable) : l.Tidy := by
  induction h with
  | genesis => exact tidy_genesis
  | ofParts pool accounts =>
    refine ⟨?_, fun e he => absurd he List.not_mem_nil⟩
    intro e he
    simpa using (List.mem_filter.mp (SortedMap.mem_of_mem_ofList he)).2
  | withAllowances _ allowances hl =>
    refine ⟨hl.1, ?_⟩
    intro e he
    simpa using (List.mem_filter.mp (SortedMap.mem_of_mem_ofList he)).2
  | withFees _ fees hl => exact kept_tidy.withFees fees hl
  | run _ steps hl => exact kept_tidy.run hl steps

/-! ## Building it anew -/

theorem Tidy.ofParts_of_perm (hl : l.Tidy) {accounts : List (Key × Account)}
    (h : accounts.Perm l.accounts.entries) :
    (ofParts l.pool accounts).accounts = l.accounts := by
  have hkept : accounts.filter (fun e => ¬e.2.IsEmpty) = accounts :=
    List.filter_eq_self.mpr fun e he => by simpa using hl.1 e (h.mem_iff.mp he)
  rw [ofParts, hkept]
  exact SortedMap.ofList_of_perm h

theorem Tidy.withAllowances_of_perm (hl : l.Tidy) (k : Ledger) {allowances : List (Grant × Amount)}
    (h : allowances.Perm l.allowances.entries) :
    (k.withAllowances allowances).allowances = l.allowances := by
  have hkept : allowances.filter (fun e => e.2 ≠ 0) = allowances :=
    List.filter_eq_self.mpr fun e he => by simpa using hl.2 e (h.mem_iff.mp he)
  rw [withAllowances, hkept]
  exact SortedMap.ofList_of_perm h

/-- Whatever a host can come to hold stores no empty account and no allowance of zero, and is
restored from its snapshot as it was, its time stamp and its unread bytes included, in whichever
order the accounts and the allowances are handed back. -/
theorem restored_as_it_was (h : l.Obtainable) :
    l.Tidy ∧ ∀ accounts allowances, accounts.Perm l.snapshot.accounts →
      allowances.Perm l.snapshot.allowances →
        Snapshot.restore { l.snapshot with accounts, allowances } = .ok l := by
  have hl := h.tidy
  refine ⟨hl, ?_⟩
  intro accounts allowances haccounts hallowances
  -- The images are those of the accounts in the order in which they are handed back.
  obtain ⟨read, rfl, hread⟩ : Relation.Comp
      (· = List.map (fun e : Key × Account => (e.1, e.2.image)) ·) List.Perm
      accounts l.accounts.entries := by
    rw [List.eq_map_comp_perm]
    exact haccounts
  simp only [Snapshot.restore, bind_eq_ok_iff, pure_eq_ok_iff]
  refine ⟨l.pool, Pool.ofImage_image l.pool, read, Snapshot.mapM_readAccount read, ?_⟩
  refine Ledger.ext rfl ?_ ?_ rfl
  · exact hl.ofParts_of_perm hread
  · exact hl.withAllowances_of_perm (ofParts l.pool read) hallowances

/-- Built from parts with an empty account and an allowance of zero among them. -/
def withIdleParts : Ledger :=
  ((ofParts ⟨⟨26, by decide⟩, ⟨62, by decide⟩, ⟨61, by decide⟩, ⟨62, by decide⟩, 0,
      ⟨21, by decide⟩, ⟨[1, 2, 3, 4, 5, 6, 7, 8], rfl⟩⟩
    [(⟨List.replicate 32 10, rfl⟩, ⟨0, ⟨61, by decide⟩, 0⟩),
      (⟨List.replicate 32 11, rfl⟩, .empty),
      (⟨List.replicate 32 12, rfl⟩, ⟨⟨26, by decide⟩, 0, 0⟩)]).withAllowances
    [(⟨⟨List.replicate 32 10, rfl⟩, ⟨List.replicate 32 11, rfl⟩⟩, ⟨36, by decide⟩),
      (⟨⟨List.replicate 32 10, rfl⟩, ⟨List.replicate 32 12, rfl⟩⟩, 0),
      (⟨⟨List.replicate 32 12, rfl⟩, ⟨List.replicate 32 10, rfl⟩⟩, ⟨29, by decide⟩),
      (⟨⟨List.replicate 32 12, rfl⟩, ⟨List.replicate 32 11, rfl⟩⟩, ⟨34, by decide⟩)]).withFees
    ⟨0, ⟨35, by decide⟩⟩

/-- The shares of the first holder are all sent away, thirty-six of them on an allowance that
this uses up. -/
def sentAway : List Step :=
  [.request (.charging ⟨List.replicate 32 11, rfl⟩
      (.transferFrom ⟨List.replicate 32 10, rfl⟩ ⟨List.replicate 32 13, rfl⟩ ⟨36, by decide⟩) 0),
    .request (.charging ⟨List.replicate 32 10, rfl⟩
      (.transfer ⟨List.replicate 32 14, rfl⟩ ⟨25, by decide⟩) 0)]

theorem emptied_ledger_is_restored :
    (withIdleParts.run sentAway).Obtainable ∧
    (withIdleParts.run sentAway).snapshot.accounts.reverse.Perm
      (withIdleParts.run sentAway).snapshot.accounts ∧
    (withIdleParts.run sentAway).snapshot.allowances.reverse.Perm
      (withIdleParts.run sentAway).snapshot.allowances ∧
    Snapshot.restore { (withIdleParts.run sentAway).snapshot with
      accounts := (withIdleParts.run sentAway).snapshot.accounts.reverse
      allowances := (withIdleParts.run sentAway).snapshot.allowances.reverse } =
        .ok (withIdleParts.run sentAway) := by
  have hbuilt : (withIdleParts.run sentAway).Obtainable :=
    .run (.withFees (.withAllowances (.ofParts _ _) _) _) sentAway
  have haccounts := List.reverse_perm (withIdleParts.run sentAway).snapshot.accounts
  have hallowances := List.reverse_perm (withIdleParts.run sentAway).snapshot.allowances
  exact ⟨hbuilt, haccounts, hallowances, (restored_as_it_was hbuilt).2 _ _ haccounts hallowances⟩

/-- Three accounts and two allowances are left. -/
example : (withIdleParts.run sentAway).accounts.entries.length = 3 ∧
    (withIdleParts.run sentAway).allowances.entries.length = 2 := by decide +kernel

end Ledger

end Lending
