/-!
# Maps kept in the order of their keys

A `SortedMap κ α` is the list of its entries in strictly ascending order of the keys. The order is
part of the type, so a map has one list only, and two maps that answer every look-up alike are
equal (`ext_get?`). That is what lets two ledgers be compared by `=`, whatever was done to them in
which order.

Around any key a map falls into the entries below it, the entry at it, if there is one, and the
entries above it (`entries_eq`). Inserting and erasing keep the outer parts and replace the middle,
so what is summed over the entries changes by the middle alone.
-/

set_option autoImplicit false

namespace Lending

/-- Entries in strictly ascending order of their keys. -/
@[ext]
structure SortedMap (κ α : Type) [Ord κ] where
  /-- The entries, in order. -/
  entries : List (κ × α)
  /-- The keys ascend, so none occurs twice. -/
  ascending : entries.Pairwise fun a b => compare a.1 b.1 = .lt
deriving DecidableEq

namespace SortedMap

variable {κ α : Type} [Ord κ]

/-! ## Operations -/

/-- The map without entries. -/
def empty : SortedMap κ α := ⟨[], .nil⟩

instance : Inhabited (SortedMap κ α) := ⟨empty⟩

/-- What the map holds at a key. -/
def get? (m : SortedMap κ α) (k : κ) : Option α :=
  (m.entries.find? fun e => compare e.1 k == .eq).map Prod.snd

/-- The entries whose keys come before `k`. -/
def below (m : SortedMap κ α) (k : κ) : List (κ × α) :=
  m.entries.filter fun e => compare e.1 k == .lt

/-- The entries whose keys come after `k`. -/
def above (m : SortedMap κ α) (k : κ) : List (κ × α) :=
  m.entries.filter fun e => compare k e.1 == .lt

theorem compare_of_mem_below {m : SortedMap κ α} {k : κ} {e : κ × α} (h : e ∈ m.below k) :
    compare e.1 k = .lt := by
  simpa using (List.mem_filter.mp h).2

theorem compare_of_mem_above {m : SortedMap κ α} {k : κ} {e : κ × α} (h : e ∈ m.above k) :
    compare k e.1 = .lt := by
  simpa using (List.mem_filter.mp h).2

variable [Std.TransOrd κ]

theorem pairwise_below_above (m : SortedMap κ α) (k : κ) :
    (m.below k ++ m.above k).Pairwise fun a b => compare a.1 b.1 = .lt := by
  refine List.pairwise_append.mpr ⟨m.ascending.filter _, m.ascending.filter _, ?_⟩
  intro a ha b hb
  exact Std.TransCmp.lt_trans (compare_of_mem_below ha) (compare_of_mem_above hb)

theorem pairwise_below_cons_above (m : SortedMap κ α) (k : κ) (v : α) :
    (m.below k ++ (k, v) :: m.above k).Pairwise fun a b => compare a.1 b.1 = .lt := by
  have hsplit := List.pairwise_append.mp (m.pairwise_below_above k)
  refine List.pairwise_append.mpr ⟨hsplit.1, List.pairwise_cons.mpr ⟨?_, hsplit.2.1⟩, ?_⟩
  · intro e he
    exact compare_of_mem_above he
  · intro a ha b hb
    rcases List.mem_cons.mp hb with rfl | hb
    · exact compare_of_mem_below ha
    · exact hsplit.2.2 a ha b hb

/-- The map that holds `v` at `k` and is otherwise the same. -/
def insert (m : SortedMap κ α) (k : κ) (v : α) : SortedMap κ α :=
  ⟨m.below k ++ (k, v) :: m.above k, m.pairwise_below_cons_above k v⟩

/-- The map that holds nothing at `k` and is otherwise the same. -/
def erase (m : SortedMap κ α) (k : κ) : SortedMap κ α :=
  ⟨m.below k ++ m.above k, m.pairwise_below_above k⟩

/-- The map of these entries; of two with the same key the later one stands. -/
def ofList (entries : List (κ × α)) : SortedMap κ α :=
  entries.foldl (fun m e => m.insert e.1 e.2) empty

/-! ## Look-ups -/

section Lawful

variable [Std.LawfulEqOrd κ]

omit [Std.TransOrd κ] in
theorem find?_eq_some_iff {es : List (κ × α)}
    (h : es.Pairwise fun a b => compare a.1 b.1 = .lt) {k : κ} {v : α} :
    (es.find? fun e => compare e.1 k == .eq) = some (k, v) ↔ (k, v) ∈ es := by
  induction es with
  | nil => simp
  | cons e es ih =>
    obtain ⟨hlt, hes⟩ := List.pairwise_cons.mp h
    rw [List.find?_cons, List.mem_cons]
    split
    · next heq =>
      have hk : e.1 = k := Std.LawfulEqOrd.eq_of_compare (by simpa using heq)
      constructor
      · intro he
        exact .inl (Option.some.inj he).symm
      · rintro (rfl | hmem)
        · rfl
        · have habsurd := hlt _ hmem
          rw [hk, Std.ReflOrd.compare_self] at habsurd
          exact absurd habsurd (by decide)
    · next hne =>
      rw [ih hes]
      constructor
      · exact .inr
      · rintro (rfl | hmem)
        · simp [Std.ReflOrd.compare_self] at hne
        · exact hmem

omit [Std.TransOrd κ] in
theorem get?_eq_some_iff {m : SortedMap κ α} {k : κ} {v : α} :
    m.get? k = some v ↔ (k, v) ∈ m.entries := by
  rw [← find?_eq_some_iff m.ascending, get?, Option.map_eq_some_iff]
  constructor
  · rintro ⟨⟨j, u⟩, hfind, rfl⟩
    have hj : compare j k = .eq := by simpa using List.find?_some hfind
    rw [← Std.LawfulEqOrd.eq_of_compare hj] at hfind ⊢
    exact hfind
  · intro hfind
    exact ⟨(k, v), hfind, rfl⟩

theorem mem_below_or_mem_above {m : SortedMap κ α} {k : κ} {e : κ × α} :
    (e ∈ m.below k ∨ e ∈ m.above k) ↔ e ∈ m.entries ∧ e.1 ≠ k := by
  rw [below, above, List.mem_filter, List.mem_filter, ← and_or_left]
  refine and_congr_right fun _ => ?_
  rw [beq_iff_eq, beq_iff_eq]
  constructor
  · rintro (hlt | hgt) rfl
    · exact absurd (Std.ReflOrd.compare_self.symm.trans hlt) (by decide)
    · exact absurd (Std.ReflOrd.compare_self.symm.trans hgt) (by decide)
  · intro hne
    cases hc : compare e.1 k with
    | lt => exact Or.inl rfl
    | eq => exact absurd (Std.LawfulEqOrd.eq_of_compare hc) hne
    | gt => exact .inr (Std.OrientedCmp.lt_of_gt hc)

theorem mem_erase_iff {m : SortedMap κ α} {k : κ} {e : κ × α} :
    e ∈ (m.erase k).entries ↔ e ∈ m.entries ∧ e.1 ≠ k := by
  rw [erase, List.mem_append, mem_below_or_mem_above]

theorem mem_insert_iff {m : SortedMap κ α} {k : κ} {v : α} {e : κ × α} :
    e ∈ (m.insert k v).entries ↔ e = (k, v) ∨ e ∈ m.entries ∧ e.1 ≠ k := by
  rw [insert, List.mem_append, List.mem_cons, or_left_comm, mem_below_or_mem_above]

theorem get?_erase (m : SortedMap κ α) (k j : κ) [Decidable (j = k)] :
    (m.erase k).get? j = if j = k then none else m.get? j := by
  apply Option.ext
  intro u
  rw [get?_eq_some_iff, mem_erase_iff]
  split
  · next h => simp [h]
  · next h => simp [h, get?_eq_some_iff]

theorem get?_insert (m : SortedMap κ α) (k j : κ) (v : α) [Decidable (j = k)] :
    (m.insert k v).get? j = if j = k then some v else m.get? j := by
  apply Option.ext
  intro u
  rw [get?_eq_some_iff, mem_insert_iff]
  split
  · next h => simp [h, eq_comm]
  · next h => simp [h, get?_eq_some_iff]

omit [Std.TransOrd κ] [Std.LawfulEqOrd κ] in
@[simp] theorem get?_empty (k : κ) : (empty : SortedMap κ α).get? k = none := rfl

/-- Strictly ascending lists with the same entries are equal. -/
theorem entries_ext {es ds : List (κ × α)}
    (hes : es.Pairwise fun a b => compare a.1 b.1 = .lt)
    (hds : ds.Pairwise fun a b => compare a.1 b.1 = .lt) (h : ∀ e, e ∈ es ↔ e ∈ ds) :
    es = ds := by
  induction es generalizing ds with
  | nil =>
    cases ds with
    | nil => rfl
    | cons d ds => exact absurd ((h d).mpr List.mem_cons_self) (by simp)
  | cons e es ih =>
    cases ds with
    | nil => exact absurd ((h e).mp List.mem_cons_self) (by simp)
    | cons d ds =>
      obtain ⟨he, hes'⟩ := List.pairwise_cons.mp hes
      obtain ⟨hd, hds'⟩ := List.pairwise_cons.mp hds
      have irrefl : ∀ a : κ × α, compare a.1 a.1 ≠ .lt := fun a ha =>
        absurd (Std.ReflOrd.compare_self.symm.trans ha) (by decide)
      have hed : e = d := by
        rcases List.mem_cons.mp ((h e).mp List.mem_cons_self) with heq | hmem
        · exact heq
        · rcases List.mem_cons.mp ((h d).mpr List.mem_cons_self) with heq | hmem'
          · exact heq.symm
          · exact absurd (Std.TransCmp.lt_trans (hd e hmem) (he d hmem')) (irrefl d)
      subst hed
      refine congrArg (e :: ·) (ih hes' hds' fun a => ?_)
      have ha := h a
      rw [List.mem_cons, List.mem_cons] at ha
      constructor
      · intro hmem
        rcases ha.mp (.inr hmem) with rfl | hmem'
        · exact absurd (he a hmem) (irrefl a)
        · exact hmem'
      · intro hmem
        rcases ha.mpr (.inr hmem) with rfl | hmem'
        · exact absurd (hd a hmem) (irrefl a)
        · exact hmem'

theorem ext_get? {m n : SortedMap κ α} (h : ∀ k, m.get? k = n.get? k) : m = n := by
  refine SortedMap.ext (entries_ext m.ascending n.ascending fun e => ?_)
  rw [← get?_eq_some_iff, ← get?_eq_some_iff, h]

/-- What is not there cannot be erased. -/
theorem erase_eq_self {m : SortedMap κ α} {k : κ} (h : m.get? k = none) : m.erase k = m := by
  classical
  refine ext_get? fun j => ?_
  rw [get?_erase]
  split
  · next hj => rw [hj, h]
  · rfl

/-- What is there already can be inserted again. -/
theorem insert_eq_self {m : SortedMap κ α} {k : κ} {v : α} (h : m.get? k = some v) :
    m.insert k v = m := by
  classical
  refine ext_get? fun j => ?_
  rw [get?_insert]
  split
  · next hj => rw [hj, h]
  · rfl

/-- A map is what it holds below a key, at the key and above the key. -/
theorem entries_eq (m : SortedMap κ α) (k : κ) :
    m.entries = m.below k ++ ((m.get? k).map (k, ·)).toList ++ m.above k := by
  cases hk : m.get? k with
  | none => simpa [erase] using congrArg entries (erase_eq_self hk).symm
  | some v => simpa [insert] using congrArg entries (insert_eq_self hk).symm

end Lawful

end SortedMap

end Lending
