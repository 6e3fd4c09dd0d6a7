/-
# Finite maps with unique keys

The `std::map` of the sources, as an association list that carries the proof that no key
occurs twice.  The operations are the ones the sources use: `find`, assignment through
`operator[]` (`set`), `insert` of a new key, `erase` by key, and the erase-while-iterating loop
(`filter`).  A `std::map` also keeps its keys sorted; iteration order is the order of `entries`
here, and no result depends on it.

Maps whose values are lists get two more operations, since the sources store lists of sockets
in them: `pushBack` (`m[k].push_back(x)`) and `elems` (all the elements of all the lists).
-/
import Mathlib.Data.List.Perm.Basic
import Mathlib.Data.List.Nodup

namespace Kknf

/-- A finite map: its entries, with every key at most once. -/
structure StdMap (κ ν : Type*) where
  entries : List (κ × ν)
  nodupKeys : (entries.map Prod.fst).Nodup

namespace StdMap

variable {κ ν α : Type*}

/-- The map without entries. -/
def empty : StdMap κ ν := ⟨[], List.nodup_nil⟩

instance : Inhabited (StdMap κ ν) := ⟨empty⟩

/-- Erasing the entries that fail a test, the `erase(it++)` loop. -/
def filter (m : StdMap κ ν) (p : κ → ν → Bool) : StdMap κ ν :=
  ⟨m.entries.filter fun e => p e.1 e.2,
    (List.filter_sublist.map Prod.fst).nodup m.nodupKeys⟩

/-- All the elements of all the lists of a map of lists. -/
def elems (m : StdMap κ (List α)) : List α := m.entries.flatMap Prod.snd

@[simp] theorem elems_empty : (empty : StdMap κ (List α)).elems = [] := rfl

variable [DecidableEq κ]

/-! ## 1. Lookup and assignment on association lists -/

/-- The value of the first entry with key `k`. -/
def lookup : List (κ × ν) → κ → Option ν
  | [], _ => none
  | (k', v) :: t, k => if k' = k then some v else lookup t k

/-- Replace the value at `k`, or add an entry for `k` at the end. -/
def assign : List (κ × ν) → κ → ν → List (κ × ν)
  | [], k, v => [(k, v)]
  | (k', v') :: t, k, v => if k' = k then (k, v) :: t else (k', v') :: assign t k v

theorem lookup_eq_none : ∀ {l : List (κ × ν)} {k : κ},
    lookup l k = none ↔ k ∉ l.map Prod.fst
  | [], k => by simp [lookup]
  | (k', v) :: t, k => by
    by_cases h : k' = k
    · simp [lookup, h]
    · simp [lookup, h, lookup_eq_none (l := t), Ne.symm h]

theorem lookup_assign (k k' : κ) (v : ν) : ∀ l : List (κ × ν),
    lookup (assign l k v) k' = if k' = k then some v else lookup l k'
  | [] => by
    by_cases h : k' = k
    · simp [assign, lookup, h]
    · simp [assign, lookup, h, Ne.symm h]
  | (a, w) :: t => by
    by_cases ha : a = k
    · subst ha
      by_cases h : k' = a
      · simp [assign, lookup, h]
      · simp [assign, lookup, h, Ne.symm h]
    · by_cases h : k' = k
      · subst h
        simp [assign, lookup, ha, lookup_assign k' k' v t]
      · simp [assign, lookup, ha, h, lookup_assign k k' v t]

theorem keys_assign (k : κ) (v : ν) : ∀ l : List (κ × ν), (assign l k v).map Prod.fst =
    if k ∈ l.map Prod.fst then l.map Prod.fst else l.map Prod.fst ++ [k]
  | [] => by simp [assign]
  | (a, w) :: t => by
    by_cases ha : a = k
    · simp [assign, ha]
    · have ih := keys_assign k v t
      by_cases hk : k ∈ t.map Prod.fst
      · rw [if_pos hk] at ih
        rw [if_pos (by rw [List.map_cons]; exact List.mem_cons_of_mem _ hk)]
        simp [assign, ha, ih]
      · rw [if_neg hk] at ih
        rw [if_neg (by rw [List.map_cons, List.mem_cons, not_or]; exact ⟨Ne.symm ha, hk⟩)]
        simp [assign, ha, ih]

theorem nodup_keys_assign {l : List (κ × ν)} (h : (l.map Prod.fst).Nodup) (k : κ) (v : ν) :
    ((assign l k v).map Prod.fst).Nodup := by
  rw [keys_assign]
  split
  · exact h
  · rename_i hk
    exact List.Nodup.append h (List.nodup_singleton k) (List.disjoint_singleton.mpr hk)

theorem mem_iff_lookup {l : List (κ × ν)} (h : (l.map Prod.fst).Nodup) {k : κ} {v : ν} :
    (k, v) ∈ l ↔ lookup l k = some v := by
  induction l with
  | nil => simp [lookup]
  | cons e t ih =>
    obtain ⟨a, w⟩ := e
    rw [List.map_cons, List.nodup_cons] at h
    by_cases ha : a = k
    · subst ha
      have hk : (a, v) ∉ t := fun hm => h.1 (List.mem_map.mpr ⟨(a, v), hm, rfl⟩)
      simp [lookup, hk, eq_comm]
    · simp [lookup, ha, Ne.symm ha, ih h.2]

/-! ## 2. The map operations -/

/-- `m.find(k)`. -/
def find (m : StdMap κ ν) (k : κ) : Option ν := lookup m.entries k

/-- `m[k] = v`. -/
def set (m : StdMap κ ν) (k : κ) (v : ν) : StdMap κ ν :=
  ⟨assign m.entries k v, nodup_keys_assign m.nodupKeys k v⟩

/-- `m.erase(k)`. -/
def erase (m : StdMap κ ν) (k : κ) : StdMap κ ν := m.filter fun k' _ => decide (k' ≠ k)

theorem find_set (m : StdMap κ ν) (k k' : κ) (v : ν) :
    (m.set k v).find k' = if k' = k then some v else m.find k' :=
  lookup_assign k k' v m.entries

@[simp] theorem find_set_self (m : StdMap κ ν) (k : κ) (v : ν) :
    (m.set k v).find k = some v := by rw [find_set, if_pos rfl]

theorem mem_entries (m : StdMap κ ν) {k : κ} {v : ν} :
    (k, v) ∈ m.entries ↔ m.find k = some v := mem_iff_lookup m.nodupKeys

theorem find_filter (m : StdMap κ ν) (p : κ → ν → Bool) (k : κ) :
    (m.filter p).find k = (m.find k).filter (p k) := by
  ext v
  rw [← mem_entries, Option.filter_eq_some_iff, ← mem_entries]
  simp [filter]

theorem find_erase (m : StdMap κ ν) (k k' : κ) :
    (m.erase k).find k' = if k' = k then none else m.find k' := by
  rw [erase, find_filter]
  by_cases h : k' = k
  · rw [if_pos h]
    cases m.find k' <;> simp [h]
  · rw [if_neg h]
    cases m.find k' <;> simp [h]

/-- Assigning to a key adds an entry when there is none for it. -/
theorem length_set (m : StdMap κ ν) (k : κ) (v : ν) :
    (m.set k v).entries.length = m.entries.length + if (m.find k).isNone then 1 else 0 := by
  have hkeys := congrArg List.length (keys_assign k v m.entries)
  by_cases hk : k ∈ m.entries.map Prod.fst
  · have hsome : (m.find k).isNone = false := by
      rw [← Bool.not_eq_true, Option.isNone_iff_eq_none]
      exact fun hnone => lookup_eq_none.mp hnone hk
    simpa [hk, hsome, set] using hkeys
  · have hnone : m.find k = none := lookup_eq_none.mpr hk
    simpa [hk, hnone, set] using hkeys

/-- Erasing a key that is not there changes nothing. -/
theorem erase_of_none {m : StdMap κ ν} {k : κ} (h : m.find k = none) : m.erase k = m := by
  have hk : k ∉ m.entries.map Prod.fst := lookup_eq_none.mp h
  have hentries : (m.erase k).entries = m.entries := by
    refine List.filter_eq_self.mpr ?_
    rintro ⟨k', v⟩ he
    have hne : k' ≠ k := by
      rintro rfl
      exact hk (List.mem_map_of_mem he)
    simpa using hne
  obtain ⟨entries, nodup⟩ := m
  simpa [StdMap.mk.injEq, erase, filter] using hentries

/-- Erasing a key that is there takes an entry away. -/
theorem length_erase_lt {m : StdMap κ ν} {k : κ} {v : ν} (h : m.find k = some v) :
    (m.erase k).entries.length < m.entries.length := by
  refine List.length_filter_lt_length_iff_exists.mpr ⟨(k, v), m.mem_entries.mpr h, ?_⟩
  simp

/-! ## 3. Maps of lists -/

/-- `m[k]`, which is the empty list for a new key. -/
def listAt (m : StdMap κ (List α)) (k : κ) : List α := (m.find k).getD []

/-- `m[k].push_back(x)`. -/
def pushBack (m : StdMap κ (List α)) (k : κ) (x : α) : StdMap κ (List α) :=
  m.set k (m.listAt k ++ [x])

theorem listAt_pushBack (m : StdMap κ (List α)) (k k' : κ) (x : α) :
    (m.pushBack k x).listAt k' = if k' = k then m.listAt k ++ [x] else m.listAt k' := by
  unfold listAt pushBack
  rw [find_set]
  split <;> rfl

theorem flatMap_assign_perm (k : κ) (x : α) : ∀ l : List (κ × List α),
    ((assign l k ((lookup l k).getD [] ++ [x])).flatMap Prod.snd).Perm
      (l.flatMap Prod.snd ++ [x])
  | [] => by simp [assign, lookup]
  | (a, w) :: t => by
    by_cases ha : a = k
    · simp only [assign, lookup, ha, if_true, Option.getD_some, List.flatMap_cons,
        List.append_assoc]
      exact List.Perm.append_left w List.perm_append_comm
    · simp only [assign, lookup, ha, if_false, List.flatMap_cons, List.append_assoc]
      exact List.Perm.append_left w (flatMap_assign_perm k x t)

/-- **`push_back` adds exactly one element to the map.** -/
theorem elems_pushBack_perm (m : StdMap κ (List α)) (k : κ) (x : α) :
    (m.pushBack k x).elems.Perm (m.elems ++ [x]) := flatMap_assign_perm k x m.entries

end StdMap

end Kknf
