/-
# Searching in a string

`find_first_of` and `find_first_not_of` of a `std::string`, as a search from a position for the
first character that meets a test, and `substr`.  A string is a list of characters here.  The lemmas
say where the search ends in a string that is given in parts: what is before the position, what
fails the test, the first character that meets it, and the rest.
-/
import Mathlib.Data.List.TakeWhile

namespace Kknf.StdString

variable {α : Type*} {p : α → Bool}

/-- The position of the first character from `pos` on that meets the test; `none` is `npos`. -/
def findFirst (p : α → Bool) (s : List α) (pos : Nat) : Option Nat :=
  ((s.drop pos).findIdx? p).map (pos + ·)

/-- `s.substr(pos, count)`, for a position in the string. -/
def substr (s : List α) (pos count : Nat) : List α := (s.drop pos).take count

theorem findFirst_bounds {s : List α} {pos k : Nat} (h : findFirst p s pos = some k) :
    pos ≤ k ∧ k < s.length := by
  obtain ⟨i, hi, rfl⟩ := Option.map_eq_some_iff.mp h
  obtain ⟨hlt, -⟩ := List.findIdx?_eq_some_iff_getElem.mp hi
  rw [List.length_drop] at hlt
  omega

/-- A string is searched in vain, or has a first character that meets the test. -/
theorem split_first (p : α → Bool) (l : List α) : (∀ x ∈ l, p x = false) ∨
    ∃ seg c rest, l = seg ++ c :: rest ∧ (∀ x ∈ seg, p x = false) ∧ p c = true := by
  induction l with
  | nil => exact Or.inl (by simp)
  | cons a t ih =>
    cases ha : p a with
    | true => exact Or.inr ⟨[], a, t, rfl, by simp, ha⟩
    | false =>
      rcases ih with hnone | ⟨seg, c, rest, rfl, hseg, hc⟩
      · exact Or.inl (List.forall_mem_cons.mpr ⟨ha, hnone⟩)
      · exact Or.inr ⟨a :: seg, c, rest, rfl, List.forall_mem_cons.mpr ⟨ha, hseg⟩, hc⟩

theorem findFirst_append {pre seg rest : List α} {c : α} (hseg : ∀ x ∈ seg, p x = false)
    (hc : p c = true) :
    findFirst p (pre ++ (seg ++ c :: rest)) pre.length = some (pre.length + seg.length) := by
  have hidx : (seg ++ c :: rest).findIdx? p = some seg.length := by
    rw [List.findIdx?_append, List.findIdx?_eq_none_iff.mpr hseg, List.findIdx?_cons, hc]
    simp
  rw [findFirst, List.drop_left, hidx, Option.map_some]

theorem findFirst_eq_none {pre l : List α} (h : ∀ x ∈ l, p x = false) :
    findFirst p (pre ++ l) pre.length = none := by
  rw [findFirst, List.drop_left, List.findIdx?_eq_none_iff.mpr h, Option.map_none]

theorem substr_append (pre l : List α) (count : Nat) :
    substr (pre ++ l) pre.length count = l.take count := by
  rw [substr, List.drop_left]

/-- What a string has from the first character on that meets the test. -/
theorem drop_findFirst (p : α → Bool) (pre l : List α) :
    ((findFirst p (pre ++ l) pre.length).elim [] fun k => (pre ++ l).drop k) =
      l.dropWhile fun x => !p x := by
  rcases split_first p l with hnone | ⟨seg, c, rest, rfl, hseg, hc⟩
  · rw [findFirst_eq_none hnone, Option.elim_none]
    exact (List.dropWhile_eq_nil_iff.mpr fun x hx => by simp [hnone x hx]).symm
  · have hdrop : (pre ++ (seg ++ c :: rest)).drop (pre.length + seg.length) = c :: rest := by
      rw [← List.append_assoc, ← List.length_append, List.drop_left]
    have hwhile : (seg ++ c :: rest).dropWhile (fun x => !p x) = c :: rest := by
      rw [List.dropWhile_append_of_pos fun x hx => by simp [hseg x hx]]
      simp [hc]
    rw [findFirst_append hseg hc, Option.elim_some, hdrop, hwhile]

end Kknf.StdString
