/-
# Priority queues

What a priority queue promises, leaving out its heap: the elements are a bag, and the one at the top
is one that compares less than none of them.  As in C++, `comp a b` says that `a` is less than `b`,
so that `b` comes out first.  Which of several greatest elements is at the top is left open.

A comparison that puts smaller keys first (`ByKey`) is a strict weak order, and the top of a queue
ordered by it has the smallest key.
-/
import Mathlib.Order.Defs.Unbundled
import Mathlib.Order.Lattice

namespace Kknf.PriorityQueue

variable {α κ : Type*}

/-- `t` may be at the top of the queue `q`. -/
def IsTop (comp : α → α → Bool) (q : List α) (t : α) : Prop :=
  t ∈ q ∧ ∀ u ∈ q, comp t u = false

instance [DecidableEq α] (comp : α → α → Bool) (q : List α) (t : α) :
    Decidable (IsTop comp q t) :=
  inferInstanceAs (Decidable (_ ∧ _))

variable [LinearOrder κ]

/-- The comparison puts smaller keys first. -/
def ByKey (comp : α → α → Bool) (key : α → κ) : Prop :=
  ∀ a b, comp a b = true ↔ key b < key a

theorem ByKey.eq_false_iff {comp : α → α → Bool} {key : α → κ} (h : ByKey comp key) {a b : α} :
    comp a b = false ↔ key a ≤ key b := by
  rw [← Bool.not_eq_true, h a b, not_lt]

theorem ByKey.isStrictWeakOrder {comp : α → α → Bool} {key : α → κ} (h : ByKey comp key) :
    IsStrictWeakOrder α (fun a b => comp a b = true) where
  irrefl a := by
    rw [h a a]
    exact lt_irrefl (key a)
  trans a b c := by
    rw [h a b, h b c, h a c]
    intro hab hbc
    exact hbc.trans hab
  incomp_trans a b c := by
    simp only [Bool.not_eq_true, h.eq_false_iff]
    rintro ⟨hab, hba⟩ ⟨hbc, hcb⟩
    exact ⟨hab.trans hbc, hcb.trans hba⟩

/-- **The top has the smallest key.** -/
theorem ByKey.isTop_iff {comp : α → α → Bool} {key : α → κ} (h : ByKey comp key) {q : List α}
    {t : α} : IsTop comp q t ↔ t ∈ q ∧ ∀ u ∈ q, key t ≤ key u := by
  simp only [IsTop, h.eq_false_iff]

/-- A queue that is not empty has a top. -/
theorem ByKey.exists_isTop {comp : α → α → Bool} {key : α → κ} (h : ByKey comp key) {q : List α}
    (hq : q ≠ []) : ∃ t, IsTop comp q t := by
  simp only [h.isTop_iff]
  induction q with
  | nil => exact absurd rfl hq
  | cons a q ih =>
    rcases eq_or_ne q [] with hnil | hne
    · subst hnil
      exact ⟨a, by simp⟩
    · obtain ⟨t, ht, hmin⟩ := ih hne
      rcases le_total (key a) (key t) with hat | hta
      · refine ⟨a, List.mem_cons_self, ?_⟩
        intro u hu
        rcases List.mem_cons.mp hu with rfl | hu
        · exact le_rfl
        · exact hat.trans (hmin u hu)
      · refine ⟨t, List.mem_cons_of_mem a ht, ?_⟩
        intro u hu
        rcases List.mem_cons.mp hu with rfl | hu
        · exact hta
        · exact hmin u hu

end Kknf.PriorityQueue
