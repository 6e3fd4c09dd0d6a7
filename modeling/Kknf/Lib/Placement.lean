/-
# Exclusive placement

Tokens (connections, blocks, messages) that are handed from place to place: every place holds
a list of tokens, and a hand-over takes some tokens out of one place and puts them into
another.  `Exclusive occ` says that no token is in two places and none is twice in one.  The
three kinds of hand-over a program performs keep it:

* `Moved`: a group of tokens goes from one place to another;
* `Added`: one token that is nowhere yet appears in a place;
* `Dropped`: one token leaves its place for good.

Each rule also says which tokens are placed afterwards, so that "placed" can be kept equal to
"alive" along a run.
-/
import Mathlib.Data.List.Perm.Basic
import Mathlib.Data.List.Nodup

namespace Kknf.Placement

variable {ι α : Type*}

/-- No token is in two places, and none is twice in one. -/
structure Exclusive (occ : ι → List α) : Prop where
  nodup : ∀ i, (occ i).Nodup
  unique : ∀ i j a, a ∈ occ i → a ∈ occ j → i = j

/-- The token is somewhere. -/
def Placed (occ : ι → List α) (a : α) : Prop := ∃ i, a ∈ occ i

/-- A placed token is in exactly one place, exactly once. -/
theorem Exclusive.exactly_one [DecidableEq α] {occ : ι → List α} (h : Exclusive occ) {a : α}
    (ha : Placed occ a) : ∃ i, (occ i).count a = 1 ∧ ∀ j, j ≠ i → a ∉ occ j := by
  obtain ⟨i, hi⟩ := ha
  refine ⟨i, List.count_eq_one_of_mem (h.nodup i) hi, fun j hji hj => hji ?_⟩
  exact h.unique j i a hj hi

/-! ## 1. Moving a group of tokens -/

/-- The tokens `xs` leave place `i` and enter place `j`; no other place changes. -/
structure Moved (occ occ' : ι → List α) (i j : ι) (xs : List α) : Prop where
  ne : i ≠ j
  source : (occ i).Perm (xs ++ occ' i)
  target : (occ' j).Perm (occ j ++ xs)
  frame : ∀ k, k ≠ i → k ≠ j → occ' k = occ k

/-- After a move a token is in `k` only if it was there before, or it is one of the moved
tokens and `k` is their new place. -/
theorem Moved.mem_after {occ occ' : ι → List α} {i j : ι} {xs : List α}
    (m : Moved occ occ' i j xs) {k : ι} {a : α} (h : a ∈ occ' k) :
    (a ∈ occ k ∧ (k = i → a ∈ occ' i)) ∨ (a ∈ xs ∧ k = j) := by
  by_cases hkj : k = j
  · subst hkj
    rcases List.mem_append.mp (m.target.mem_iff.mp h) with h | h
    · exact Or.inl ⟨h, fun e => absurd e.symm m.ne⟩
    · exact Or.inr ⟨h, rfl⟩
  · by_cases hki : k = i
    · subst hki
      exact Or.inl ⟨m.source.mem_iff.mpr (List.mem_append_right xs h), fun _ => h⟩
    · exact Or.inl ⟨m.frame k hki hkj ▸ h, fun e => absurd e hki⟩

theorem Moved.placed_iff {occ occ' : ι → List α} {i j : ι} {xs : List α}
    (m : Moved occ occ' i j xs) (a : α) : Placed occ' a ↔ Placed occ a := by
  constructor
  · rintro ⟨k, hk⟩
    rcases m.mem_after hk with ⟨h, -⟩ | ⟨h, -⟩
    · exact ⟨k, h⟩
    · exact ⟨i, m.source.mem_iff.mpr (List.mem_append_left _ h)⟩
  · rintro ⟨k, hk⟩
    by_cases hki : k = i
    · subst hki
      rcases List.mem_append.mp (m.source.mem_iff.mp hk) with h | h
      · exact ⟨j, m.target.mem_iff.mpr (List.mem_append_right _ h)⟩
      · exact ⟨k, h⟩
    · by_cases hkj : k = j
      · subst hkj
        exact ⟨k, m.target.mem_iff.mpr (List.mem_append_left _ hk)⟩
      · exact ⟨k, (m.frame k hki hkj).symm ▸ hk⟩

/-- **A move keeps every token in one place.** -/
theorem Exclusive.moved {occ occ' : ι → List α} {i j : ι} {xs : List α} (h : Exclusive occ)
    (m : Moved occ occ' i j xs) : Exclusive occ' := by
  have hsrc : (xs ++ occ' i).Nodup := m.source.nodup_iff.mp (h.nodup i)
  -- a moved token was in `i`, so it is in no other place and not left over in `i`
  have hxs : ∀ a ∈ xs, a ∉ occ' i ∧ ∀ k, a ∈ occ k → k = i := fun a ha =>
    ⟨fun hi => List.disjoint_of_nodup_append hsrc ha hi, fun k hk =>
      h.unique k i a hk (m.source.mem_iff.mpr (List.mem_append_left _ ha))⟩
  refine ⟨fun k => ?_, fun k l a hk hl => ?_⟩
  · by_cases hki : k = i
    · subst hki
      exact hsrc.of_append_right
    · by_cases hkj : k = j
      · subst hkj
        refine m.target.nodup_iff.mpr
          (List.Nodup.append (h.nodup k) hsrc.of_append_left fun a ha hax => ?_)
        exact hki ((hxs a hax).2 k ha)
      · rw [m.frame k hki hkj]
        exact h.nodup k
  · rcases m.mem_after hk with ⟨hk, hki⟩ | ⟨hk, rfl⟩ <;>
      rcases m.mem_after hl with ⟨hl, hli⟩ | ⟨hl, rfl⟩
    · exact h.unique k l a hk hl
    · exact absurd (hki ((hxs a hl).2 k hk)) (hxs a hl).1
    · exact absurd (hli ((hxs a hk).2 l hl)) (hxs a hk).1
    · rfl

/-! ## 2. A token appears, a token disappears -/

/-- The token `a`, so far nowhere, enters place `i`. -/
structure Added (occ occ' : ι → List α) (i : ι) (a : α) : Prop where
  fresh : ¬ Placed occ a
  target : (occ' i).Perm (occ i ++ [a])
  frame : ∀ k, k ≠ i → occ' k = occ k

theorem Added.mem_iff {occ occ' : ι → List α} {i : ι} {a : α} (m : Added occ occ' i a)
    {k : ι} {b : α} : b ∈ occ' k ↔ b ∈ occ k ∨ (b = a ∧ k = i) := by
  by_cases hk : k = i
  · subst hk
    rw [m.target.mem_iff]
    simp
  · rw [m.frame k hk]
    simp [hk]

theorem Added.placed_iff {occ occ' : ι → List α} {i : ι} {a : α} (m : Added occ occ' i a)
    (b : α) : Placed occ' b ↔ Placed occ b ∨ b = a := by
  simp only [Placed, m.mem_iff]
  constructor
  · rintro ⟨k, h | ⟨h, -⟩⟩
    · exact Or.inl ⟨k, h⟩
    · exact Or.inr h
  · rintro (⟨k, h⟩ | h)
    · exact ⟨k, Or.inl h⟩
    · exact ⟨i, Or.inr ⟨h, rfl⟩⟩

/-- **A new token is in one place.** -/
theorem Exclusive.added {occ occ' : ι → List α} {i : ι} {a : α} (h : Exclusive occ)
    (m : Added occ occ' i a) : Exclusive occ' := by
  refine ⟨fun k => ?_, fun k l b hk hl => ?_⟩
  · by_cases hk : k = i
    · subst hk
      exact m.target.nodup_iff.mpr (List.Nodup.append (h.nodup k) (List.nodup_singleton a)
        (List.disjoint_singleton.mpr fun hm => m.fresh ⟨k, hm⟩))
    · rw [m.frame k hk]
      exact h.nodup k
  · rcases m.mem_iff.mp hk with hk | ⟨rfl, rfl⟩ <;> rcases m.mem_iff.mp hl with hl | ⟨hba, rfl⟩
    · exact h.unique k l b hk hl
    · exact absurd ⟨k, hba ▸ hk⟩ m.fresh
    · exact absurd ⟨l, hl⟩ m.fresh
    · rfl

/-- The token `a` leaves place `i` and is nowhere afterwards. -/
structure Dropped (occ occ' : ι → List α) (i : ι) (a : α) : Prop where
  source : (occ i).Perm (a :: occ' i)
  frame : ∀ k, k ≠ i → occ' k = occ k

theorem Dropped.mem_before {occ occ' : ι → List α} {i : ι} {a : α} (m : Dropped occ occ' i a)
    {k : ι} {b : α} (h : b ∈ occ' k) : b ∈ occ k := by
  by_cases hk : k = i
  · subst hk
    exact m.source.mem_iff.mpr (List.mem_cons_of_mem a h)
  · exact m.frame k hk ▸ h

theorem Dropped.placed_iff {occ occ' : ι → List α} {i : ι} {a : α} (m : Dropped occ occ' i a)
    (h : Exclusive occ) (b : α) : Placed occ' b ↔ Placed occ b ∧ b ≠ a := by
  have hi : a ∈ occ i := m.source.mem_iff.mpr List.mem_cons_self
  constructor
  · rintro ⟨k, hk⟩
    refine ⟨⟨k, m.mem_before hk⟩, ?_⟩
    rintro rfl
    have hki : k = i := h.unique k i b (m.mem_before hk) hi
    subst hki
    exact (List.nodup_cons.mp (m.source.nodup_iff.mp (h.nodup k))).1 hk
  · rintro ⟨⟨k, hk⟩, hne⟩
    by_cases hki : k = i
    · subst hki
      exact ⟨k, (List.mem_cons.mp (m.source.mem_iff.mp hk)).resolve_left hne⟩
    · exact ⟨k, (m.frame k hki).symm ▸ hk⟩

/-- **Dropping a token keeps the others in one place.** -/
theorem Exclusive.dropped {occ occ' : ι → List α} {i : ι} {a : α} (h : Exclusive occ)
    (m : Dropped occ occ' i a) : Exclusive occ' := by
  refine ⟨fun k => ?_, fun k l b hk hl => h.unique k l b (m.mem_before hk) (m.mem_before hl)⟩
  by_cases hk : k = i
  · subst hk
    exact (List.nodup_cons.mp (m.source.nodup_iff.mp (h.nodup k))).2
  · rw [m.frame k hk]
    exact h.nodup k

end Kknf.Placement
