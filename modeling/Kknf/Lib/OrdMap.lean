/-
# Maps ordered by a comparison

A `std::map` is ordered by an `operator<` of its keys, and that operator is all it has to tell keys
apart: `find` walks past the keys that are less than the one asked for and gives the next entry
unless the key asked for is less than its key.  This file has the map with its comparison and the
operations the sources use through an iterator: `find`, `insert`, `erase` and assignment to
`it->second` (`setAt`).

For a comparison that is a strict total order, `find_insert`, `find_erase` and `find_setAt` say that
this is a map in the usual sense.
-/
import Mathlib.Order.Defs.Unbundled
import Mathlib.Data.List.Basic

namespace Kknf

/-- A finite map: its entries, in the order of their keys. -/
structure OrdMap {κ : Type*} (lt : κ → κ → Prop) (ν : Type*) where
  entries : List (κ × ν)
  sorted : entries.Pairwise fun a b => lt a.1 b.1

namespace OrdMap

variable {κ ν : Type*} {lt : κ → κ → Prop}

/-- The map without entries. -/
def empty : OrdMap lt ν := ⟨[], List.Pairwise.nil⟩

variable [DecidableRel lt]

/-! ## 1. Sorted association lists -/

variable (lt) in
/-- The value of the first entry whose key is not less than `k`, if `k` is not less than that
key. -/
def lookup : List (κ × ν) → κ → Option ν
  | [], _ => none
  | (k', v) :: t, k => if lt k' k then lookup t k else if lt k k' then none else some v

variable (lt) in
/-- Add an entry in its place; an equivalent key is left as it is. -/
def insertEntry : List (κ × ν) → κ → ν → List (κ × ν)
  | [], k, v => [(k, v)]
  | (k', w) :: t, k, v =>
    if lt k' k then (k', w) :: insertEntry t k v
    else if lt k k' then (k, v) :: (k', w) :: t
    else (k', w) :: t

theorem mem_of_mem_insertEntry {k : κ} {v : ν} {e : κ × ν} : ∀ {l : List (κ × ν)},
    e ∈ insertEntry lt l k v → e = (k, v) ∨ e ∈ l
  | [], h => Or.inl (List.mem_singleton.mp h)
  | (k', w) :: t, h => by
    unfold insertEntry at h
    split at h
    · rcases List.mem_cons.mp h with rfl | h
      · exact Or.inr List.mem_cons_self
      · exact (mem_of_mem_insertEntry h).imp id (List.mem_cons_of_mem _)
    · split at h
      · exact List.mem_cons.mp h
      · exact Or.inr h

theorem mem_insertEntry_of_mem {k : κ} {v : ν} {e : κ × ν} : ∀ {l : List (κ × ν)},
    e ∈ l → e ∈ insertEntry lt l k v
  | (k', w) :: t, h => by
    unfold insertEntry
    split
    · rcases List.mem_cons.mp h with rfl | h
      · exact List.mem_cons_self
      · exact List.mem_cons_of_mem _ (mem_insertEntry_of_mem h)
    · split
      · exact List.mem_cons_of_mem _ h
      · exact h

/-- A key that is not there is inserted. -/
theorem mem_insertEntry_self {k : κ} (v : ν) : ∀ {l : List (κ × ν)},
    lookup lt l k = none → (k, v) ∈ insertEntry lt l k v
  | [], _ => List.mem_singleton_self _
  | (k', w) :: t, h => by
    unfold lookup at h
    unfold insertEntry
    split at h
    · rename_i hlt
      rw [if_pos hlt]
      exact List.mem_cons_of_mem _ (mem_insertEntry_self v h)
    · rename_i hlt
      split at h
      · rename_i hgt
        rw [if_neg hlt, if_pos hgt]
        exact List.mem_cons_self
      · cases h

/-- Apart from the order of the entries, a key that is not there is put in front. -/
theorem insertEntry_perm {k : κ} (v : ν) : ∀ {l : List (κ × ν)},
    lookup lt l k = none → (insertEntry lt l k v).Perm ((k, v) :: l)
  | [], _ => List.Perm.refl _
  | (k', w) :: t, h => by
    unfold lookup at h
    unfold insertEntry
    split at h
    · rename_i hlt
      rw [if_pos hlt]
      exact ((insertEntry_perm v h).cons _).trans (List.Perm.swap _ _ _)
    · rename_i hlt
      split at h
      · rename_i hgt
        rw [if_neg hlt, if_pos hgt]
      · cases h

theorem insertEntry_sorted [IsStrictTotalOrder κ lt] (k : κ) (v : ν) : ∀ {l : List (κ × ν)},
    l.Pairwise (fun a b => lt a.1 b.1) →
      (insertEntry lt l k v).Pairwise fun a b => lt a.1 b.1
  | [], _ => List.pairwise_singleton _ _
  | (k', w) :: t, hl => by
    obtain ⟨hfirst, ht⟩ := List.pairwise_cons.mp hl
    unfold insertEntry
    split
    · rename_i hlt
      refine List.pairwise_cons.mpr ⟨?_, insertEntry_sorted k v ht⟩
      intro e he
      rcases mem_of_mem_insertEntry he with rfl | he
      · exact hlt
      · exact hfirst e he
    · split
      · rename_i hgt
        refine List.pairwise_cons.mpr ⟨?_, hl⟩
        intro e he
        rcases List.mem_cons.mp he with rfl | he
        · exact hgt
        · exact trans_of lt hgt (hfirst e he)
      · exact hl

variable [IsStrictTotalOrder κ lt]

theorem mem_iff_lookup {l : List (κ × ν)} (hl : l.Pairwise fun a b => lt a.1 b.1) {k : κ} {v : ν} :
    (k, v) ∈ l ↔ lookup lt l k = some v := by
  induction l with
  | nil => simp [lookup]
  | cons e t ih =>
    obtain ⟨k', w⟩ := e
    obtain ⟨hfirst, ht⟩ := List.pairwise_cons.mp hl
    have hlater : ∀ u, (k, u) ∈ t → lt k' k := fun u hu => hfirst (k, u) hu
    unfold lookup
    rw [List.mem_cons, Prod.mk.injEq]
    by_cases hlt : lt k' k
    · have hne : k ≠ k' := by
        rintro rfl
        exact irrefl_of lt k hlt
      rw [if_pos hlt, ← ih ht]
      simp [hne]
    rw [if_neg hlt]
    have hnot : (k, v) ∉ t := fun hm => hlt (hlater v hm)
    by_cases hgt : lt k k'
    · have hne : k ≠ k' := by
        rintro rfl
        exact irrefl_of lt k hgt
      rw [if_pos hgt]
      simp [hne, hnot]
    · have heq : k = k' := Std.Trichotomous.trichotomous k k' hgt hlt
      rw [if_neg hgt]
      simp [heq, heq ▸ hnot, eq_comm]

/-! ## 2. The map operations -/

/-- `m.find(k)`. -/
def find (m : OrdMap lt ν) (k : κ) : Option ν := lookup lt m.entries k

/-- `m.insert(std::pair<κ, ν>(k, v))`. -/
def insert (m : OrdMap lt ν) (k : κ) (v : ν) : OrdMap lt ν :=
  ⟨insertEntry lt m.entries k v, insertEntry_sorted k v m.sorted⟩

/-- `m.erase(it)`, for the iterator at `k`. -/
def erase (m : OrdMap lt ν) (k : κ) : OrdMap lt ν :=
  ⟨m.entries.filter fun e => decide (lt e.1 k ∨ lt k e.1), m.sorted.filter _⟩

/-- `it->second = v`, for the iterator at `k`. -/
def setAt (m : OrdMap lt ν) (k : κ) (v : ν) : OrdMap lt ν :=
  ⟨m.entries.map fun e => (e.1, if lt e.1 k ∨ lt k e.1 then e.2 else v),
    List.pairwise_map.mpr m.sorted⟩

/-- Keys that the comparison does not tell apart are equal. -/
theorem lt_or_gt_iff_ne {a b : κ} : lt a b ∨ lt b a ↔ a ≠ b := by
  constructor
  · rintro h rfl
    exact irrefl_of lt a (h.elim id id)
  · intro hne
    by_contra h
    push Not at h
    exact hne (Std.Trichotomous.trichotomous a b h.1 h.2)

theorem mem_entries (m : OrdMap lt ν) {k : κ} {v : ν} : (k, v) ∈ m.entries ↔ m.find k = some v :=
  mem_iff_lookup m.sorted

variable [DecidableEq κ]

theorem find_insert {m : OrdMap lt ν} {k : κ} (v : ν) (h : m.find k = none) (k' : κ) :
    (m.insert k v).find k' = if k' = k then some v else m.find k' := by
  ext u
  rw [← mem_entries]
  constructor
  · intro hu
    rcases mem_of_mem_insertEntry hu with heq | hmem
    · cases heq
      rw [if_pos rfl]
    · have hfind := m.mem_entries.mp hmem
      have hne : k' ≠ k := by
        rintro rfl
        rw [h] at hfind
        cases hfind
      rw [if_neg hne, hfind]
  · intro hu
    split at hu
    · rename_i heq
      cases hu
      rw [heq]
      exact mem_insertEntry_self v h
    · exact mem_insertEntry_of_mem (m.mem_entries.mpr hu)

theorem find_erase (m : OrdMap lt ν) (k k' : κ) :
    (m.erase k).find k' = if k' = k then none else m.find k' := by
  ext u
  rw [← mem_entries]
  simp only [erase, List.mem_filter, decide_eq_true_eq, lt_or_gt_iff_ne, mem_entries]
  by_cases h : k' = k
  · simp [h]
  · simp [h]

theorem find_setAt {m : OrdMap lt ν} {k : κ} {w : ν} (v : ν) (h : m.find k = some w) (k' : κ) :
    (m.setAt k v).find k' = if k' = k then some v else m.find k' := by
  ext u
  rw [← mem_entries]
  simp only [setAt, List.mem_map, Prod.mk.injEq, Prod.exists, lt_or_gt_iff_ne]
  by_cases heq : k' = k
  · rw [if_pos heq]
    subst heq
    constructor
    · rintro ⟨a, b, -, rfl, hu⟩
      simpa using hu
    · rintro ⟨⟩
      exact ⟨k', w, m.mem_entries.mpr h, rfl, by simp⟩
  · rw [if_neg heq, ← mem_entries]
    constructor
    · rintro ⟨a, b, hmem, rfl, rfl⟩
      rwa [if_pos heq]
    · intro hmem
      exact ⟨k', u, hmem, rfl, if_pos heq⟩

end OrdMap

end Kknf
