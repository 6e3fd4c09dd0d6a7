/-
# Byte buffers

The operations on a `std::vector<char>` the sources use, on lists: `search` is `std::search`
(the position of the first occurrence of a pattern), `resize` is `std::vector::resize`, and
`overwrite` is what a read into the middle of a vector leaves there.

The facts about `search` are about where the first occurrence can be: it does not move when
bytes are appended (`search_append`), a strict beginning of the text up to the end of the first
occurrence has none (`search_take_none`), and padding with a byte that is not in the pattern
adds none (`search_append_replicate`).
-/
import Mathlib.Data.List.Basic
import Mathlib.Data.List.Infix
import Mathlib.Data.List.TakeDrop

namespace Kknf

variable {α : Type*}

/-! ## 1. Vectors -/

/-- `v.resize(n)`, where new elements are `z`. -/
def resize (z : α) (v : List α) (n : Nat) : List α :=
  v.take n ++ List.replicate (n - v.length) z

@[simp] theorem length_resize (z : α) (v : List α) (n : Nat) : (resize z v n).length = n := by
  simp only [resize, List.length_append, List.length_take, List.length_replicate]
  omega

/-- Cutting a vector back to one of its beginnings. -/
theorem resize_append (z : α) (l t : List α) : resize z (l ++ t) l.length = l := by
  simp [resize]

/-- Cutting back, or making longer, behind one of the beginnings. -/
theorem resize_append_of_le (z : α) (l t : List α) {n : Nat} (h : l.length ≤ n) :
    resize z (l ++ t) n = l ++ resize z t (n - l.length) := by
  have hsize : n - (l ++ t).length = n - l.length - t.length := by
    rw [List.length_append]
    omega
  simp only [resize, hsize, List.take_append, List.take_of_length_le h, List.append_assoc]

/-- The first elements that are there before and after. -/
theorem take_resize_append (z : α) {l : List α} (t : List α) {n k : Nat} (hn : k ≤ n)
    (hl : k ≤ l.length) : (resize z (l ++ t) n).take k = l.take k := by
  have hlen : k ≤ ((l ++ t).take n).length := by
    simp only [List.length_take, List.length_append]
    omega
  rw [resize, List.take_append_of_le_length hlen, List.take_take, min_eq_left hn,
    List.take_append_of_le_length hl]

/-- The vector `v` after `data` has been written into it from position `off` on. -/
def overwrite (v : List α) (off : Nat) (data : List α) : List α :=
  v.take off ++ data ++ v.drop (off + data.length)

/-- Writing behind what is already filled. -/
theorem overwrite_append (l t data : List α) :
    overwrite (l ++ t) l.length data = l ++ data ++ t.drop data.length := by
  simp [overwrite, List.drop_append]

theorem length_overwrite {v data : List α} {off : Nat} (h : off + data.length ≤ v.length) :
    (overwrite v off data).length = v.length := by
  simp only [overwrite, List.length_append, List.length_take, List.length_drop]
  omega

/-- What is in the vector up to the end of the data. -/
theorem take_overwrite {v : List α} {off : Nat} (data : List α) (h : off ≤ v.length) :
    (overwrite v off data).take (off + data.length) = v.take off ++ data := by
  have hlen : (v.take off ++ data).length = off + data.length := by
    rw [List.length_append, List.length_take_of_le h]
  rw [overwrite, ← hlen, List.take_left]

/-- Writing over a whole vector. -/
theorem overwrite_all {v data : List α} (h : data.length = v.length) :
    overwrite v 0 data = data := by
  simp [overwrite, h]

/-! ## 2. Memory -/

/-- Memory, from some address on, after `data` has been written to offset `off`. -/
def storeAt (mem : Nat → α) (off : Nat) (data : List α) (i : Nat) : α :=
  if off ≤ i then data.getD (i - off) (mem i) else mem i

/-- The first `n` bytes of memory. -/
def loadFirst (mem : Nat → α) (n : Nat) : List α := (List.range n).map mem

@[simp] theorem length_loadFirst (mem : Nat → α) (n : Nat) : (loadFirst mem n).length = n := by
  simp [loadFirst]

theorem mem_loadFirst {mem : Nat → α} {n : Nat} {a : α} :
    a ∈ loadFirst mem n ↔ ∃ i < n, mem i = a := by
  simp [loadFirst]

/-- What was written is behind what was there. -/
theorem loadFirst_storeAt (mem : Nat → α) (off : Nat) (data : List α) :
    loadFirst (storeAt mem off data) (off + data.length) = loadFirst mem off ++ data := by
  apply List.ext_getElem
  · simp
  · intro i hi hi'
    simp only [length_loadFirst] at hi
    simp only [loadFirst, List.getElem_map, List.getElem_range, storeAt]
    by_cases hlt : i < off
    · rw [List.getElem_append_left (by simpa using hlt), if_neg (Nat.not_le.mpr hlt)]
      simp
    · have hge : off ≤ i := Nat.le_of_not_lt hlt
      rw [List.getElem_append_right (by simpa using hge), if_pos hge,
        List.getD_eq_getElem?_getD, List.getElem?_eq_getElem (by omega)]
      simp

/-- What is behind the data stays as it is. -/
theorem storeAt_behind (mem : Nat → α) {off : Nat} {data : List α} :
    storeAt mem off data (off + data.length) = mem (off + data.length) := by
  simp [storeAt]

/-! ## 3. Streams of blocks -/

/-- What a stream goes on with after its first `k` blocks. -/
theorem prefix_flatten_drop {fs : List (List α)} {k : Nat} {d : List α}
    (h : (fs.take k).flatten ++ d <+: fs.flatten) : d <+: (fs.drop k).flatten := by
  have hsplit : fs.flatten = (fs.take k).flatten ++ (fs.drop k).flatten := by
    rw [← List.flatten_append, List.take_append_drop]
  rw [hsplit] at h
  exact (List.prefix_append_right_inj _).mp h

/-- The next bytes of a stream, no more than are in each of its blocks, are the beginning of a
block. -/
theorem next_block {fs : List (List α)} {k n : Nat} {d : List α}
    (h : (fs.take k).flatten ++ d <+: fs.flatten) (hd : d.length = n) (hn : 0 < n)
    (hfs : ∀ f ∈ fs, n ≤ f.length) : ∃ f, fs[k]? = some f ∧ d = f.take n := by
  have hpre := prefix_flatten_drop h
  cases hdrop : fs.drop k with
  | nil =>
    rw [hdrop, List.flatten_nil, List.prefix_nil] at hpre
    simp [hpre] at hd
    omega
  | cons f rest =>
    have hf : fs[k]? = some f := by
      have h0 := congrArg (fun l => l[0]?) hdrop
      simpa using h0
    have hlen := hfs f (List.mem_of_getElem? hf)
    refine ⟨f, hf, ?_⟩
    rw [hdrop, List.flatten_cons] at hpre
    have heq := List.prefix_iff_eq_take.mp hpre
    rw [hd, List.take_append_of_le_length hlen] at heq
    exact heq

/-- The rest of a block of which the first `n` bytes have been seen. -/
theorem rest_of_block {fs : List (List α)} {k n : Nat} {f d : List α} (hf : fs[k]? = some f)
    (h : (fs.take k).flatten ++ f.take n ++ d <+: fs.flatten) (hn : n ≤ f.length)
    (hd : d.length = f.length - n) : d = f.drop n := by
  rw [List.append_assoc] at h
  have hpre := prefix_flatten_drop h
  have hdrop : fs.drop k = f :: fs.drop (k + 1) := by
    obtain ⟨hk, hget⟩ := List.getElem?_eq_some_iff.mp hf
    rw [List.drop_eq_getElem_cons hk, hget]
  rw [hdrop, List.flatten_cons] at hpre
  have hlen : (f.take n ++ d).length = f.length := by
    rw [List.length_append, List.length_take, hd]
    omega
  have heq := List.prefix_iff_eq_take.mp hpre
  rw [hlen, List.take_append_of_le_length le_rfl, List.take_length] at heq
  have hsplit : f.take n ++ d = f.take n ++ f.drop n := by rw [heq, List.take_append_drop]
  exact List.append_cancel_left hsplit

theorem flatten_take_succ {fs : List (List α)} {k : Nat} {f : List α} (hf : fs[k]? = some f) :
    (fs.take (k + 1)).flatten = (fs.take k).flatten ++ f := by
  rw [List.take_add_one, hf]
  simp

/-! ## 4. `std::search` -/

variable [BEq α]

/-- The position of the first occurrence of `pat`. -/
def search (pat : List α) : List α → Option Nat
  | [] => if pat.isPrefixOf [] then some 0 else none
  | c :: cs => if pat.isPrefixOf (c :: cs) then some 0 else (search pat cs).map (· + 1)

variable [LawfulBEq α]

theorem search_eq_some {pat : List α} : ∀ {l : List α} {i : Nat}, search pat l = some i ↔
    i ≤ l.length ∧ pat <+: l.drop i ∧ ∀ j < i, ¬ pat <+: l.drop j
  | [], i => by
    by_cases hp : pat = []
    · subst hp
      simp only [search, List.isPrefixOf_nil_left, if_true, Option.some.injEq, List.length_nil,
        Nat.le_zero, List.nil_prefix, true_and, not_true_eq_false, imp_false]
      constructor
      · rintro rfl
        exact ⟨rfl, fun j => Nat.not_lt_zero j⟩
      · exact fun h => h.1.symm
    · simp [search, hp]
  | c :: cs, i => by
    unfold search
    split
    · rename_i hp
      have hp' : pat <+: c :: cs := List.isPrefixOf_iff_prefix.mp hp
      simp only [Option.some.injEq]
      constructor
      · rintro rfl
        exact ⟨Nat.zero_le _, hp', fun j hj => absurd hj (Nat.not_lt_zero j)⟩
      · rintro ⟨-, -, h⟩
        by_contra hi
        exact h 0 (Nat.pos_of_ne_zero (Ne.symm hi)) hp'
    · rename_i hp
      have hp' : ¬ pat <+: c :: cs := fun h => hp (List.isPrefixOf_iff_prefix.mpr h)
      rw [Option.map_eq_some_iff]
      constructor
      · rintro ⟨i, hi, rfl⟩
        obtain ⟨hle, hpre, hmin⟩ := search_eq_some.mp hi
        refine ⟨Nat.succ_le_succ hle, hpre, fun j hj => ?_⟩
        cases j with
        | zero => exact hp'
        | succ j => exact hmin j (Nat.lt_of_succ_lt_succ hj)
      · rintro ⟨hle, hpre, hmin⟩
        cases i with
        | zero => exact absurd hpre hp'
        | succ i =>
          refine ⟨i, search_eq_some.mpr ⟨Nat.le_of_succ_le_succ hle, hpre, fun j hj => ?_⟩, rfl⟩
          exact hmin (j + 1) (Nat.succ_lt_succ hj)

theorem search_eq_none {pat : List α} : ∀ {l : List α}, search pat l = none ↔
    ∀ j ≤ l.length, ¬ pat <+: l.drop j
  | [] => by
    by_cases hp : pat = []
    · simp [search, hp]
    · simp [search, hp]
  | c :: cs => by
    unfold search
    split
    · rename_i hp
      simp only [reduceCtorEq, false_iff, not_forall]
      exact ⟨0, Nat.zero_le _, not_not.mpr (List.isPrefixOf_iff_prefix.mp hp)⟩
    · rename_i hp
      have hp' : ¬ pat <+: c :: cs := fun h => hp (List.isPrefixOf_iff_prefix.mpr h)
      rw [Option.map_eq_none_iff, search_eq_none]
      constructor
      · intro h j hj
        cases j with
        | zero => exact hp'
        | succ j => exact h j (Nat.le_of_succ_le_succ hj)
      · intro h j hj
        exact h (j + 1) (Nat.succ_le_succ hj)

/-- An occurrence ends inside the text. -/
theorem search_add_length_le {pat l : List α} {i : Nat} (h : search pat l = some i) :
    i + pat.length ≤ l.length := by
  obtain ⟨hle, hpre, -⟩ := search_eq_some.mp h
  have hlen := hpre.length_le
  rw [List.length_drop] at hlen
  omega

/-- **Appending bytes does not move the first occurrence.** -/
theorem search_append {pat l : List α} {i : Nat} (h : search pat l = some i) (t : List α) :
    search pat (l ++ t) = some i := by
  have hend := search_add_length_le h
  obtain ⟨hle, hpre, hmin⟩ := search_eq_some.mp h
  refine search_eq_some.mpr ⟨?_, ?_, fun j hj hj' => hmin j hj ?_⟩
  · rw [List.length_append]
    omega
  · rw [List.drop_append_of_le_length hle]
    exact hpre.trans (List.prefix_append _ _)
  · rw [List.drop_append_of_le_length (by omega)] at hj'
    refine List.prefix_of_prefix_length_le hj' (List.prefix_append _ _) ?_
    rw [List.length_drop]
    omega

/-- **Before the first occurrence is complete there is none.** -/
theorem search_take_none {pat l : List α} {i : Nat} (h : search pat l = some i) {n : Nat}
    (hn : n < i + pat.length) : search pat (l.take n) = none := by
  have hend := search_add_length_le h
  obtain ⟨-, -, hmin⟩ := search_eq_some.mp h
  refine search_eq_none.mpr fun j hj hpre => ?_
  have hlen := hpre.length_le
  rw [List.length_drop, List.length_take] at hlen
  have hpos : 0 < pat.length ∨ pat.length = 0 := by omega
  rcases hpos with hpos | hzero
  · refine hmin j (by omega) (hpre.trans ?_)
    exact List.IsPrefix.drop (List.take_prefix n l) j
  · rw [List.length_eq_zero_iff] at hzero
    subst hzero
    exact hmin n (by simpa using hn) List.nil_prefix

/-- **Padding adds no occurrence** of a pattern that does not contain the padding. -/
theorem search_append_replicate {pat l : List α} {z : α} (hne : pat ≠ []) (hz : z ∉ pat)
    (n : Nat) (h : search pat l = none) : search pat (l ++ List.replicate n z) = none := by
  refine search_eq_none.mpr fun j hj hpre => ?_
  have hlen := hpre.length_le
  have hpos : 0 < pat.length := List.length_pos_iff.mpr hne
  by_cases hin : j + pat.length ≤ l.length
  · rw [List.drop_append_of_le_length (by omega)] at hpre
    refine search_eq_none.mp h j (by omega) ?_
    refine List.prefix_of_prefix_length_le hpre (List.prefix_append _ _) ?_
    rw [List.length_drop]
    omega
  · -- the last byte of the occurrence would be padding
    have hlast : pat.getLast hne ∈ (l ++ List.replicate n z).drop l.length := by
      obtain ⟨t, ht⟩ := hpre
      have hsplit : (l ++ List.replicate n z).drop l.length
          = ((l ++ List.replicate n z).drop j).drop (l.length - j) ∨ l.length < j := by
        by_cases hjl : j ≤ l.length
        · rw [List.drop_drop, Nat.add_sub_cancel' hjl]
          exact Or.inl rfl
        · exact Or.inr (Nat.lt_of_not_le hjl)
      rcases hsplit with hs | hlt
      · rw [hs, ← ht, List.drop_append_of_le_length (by omega)]
        refine List.mem_append_left _ ?_
        have hd : pat.drop (l.length - j) ≠ [] := by
          rw [Ne, List.drop_eq_nil_iff]
          omega
        rw [← List.getLast_drop hd]
        exact List.getLast_mem hd
      · have hmem : pat.getLast hne ∈ (l ++ List.replicate n z).drop j := by
          rw [← ht]
          exact List.mem_append_left _ (List.getLast_mem hne)
        have hjd : (l ++ List.replicate n z).drop j
            = ((l ++ List.replicate n z).drop l.length).drop (j - l.length) := by
          rw [List.drop_drop, Nat.add_sub_cancel' (Nat.le_of_lt hlt)]
        rw [hjd] at hmem
        exact List.mem_of_mem_drop hmem
    rw [List.drop_left] at hlast
    exact hz ((List.eq_of_mem_replicate hlast) ▸ List.getLast_mem hne)

end Kknf
