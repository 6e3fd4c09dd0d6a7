/-
# Streams of lines

A stream of lines ends each of them with a terminator that is in none.  Such a stream can be cut in
one way only (`lineStream_injective`), and the number of its terminators is the number of its lines.

`eq_of_sum_eq` is the counting rule that goes with it: where every term of a sum is at most the one
beside it and the sums are the same, so are the terms.
-/
import Mathlib.Data.List.Basic
import Mathlib.Algebra.Order.BigOperators.Group.List
import Mathlib.Algebra.Order.Ring.Nat

namespace Kknf.LineStream

variable {α : Type*} {nl : α}

/-- The lines, one after the other, each with the terminator `nl` behind it. -/
def lineStream (nl : α) (ls : List (List α)) : List α := (ls.map fun l => l ++ [nl]).flatten

@[simp] theorem lineStream_nil : lineStream nl [] = [] := rfl

@[simp] theorem lineStream_cons (l : List α) (ls : List (List α)) :
    lineStream nl (l :: ls) = l ++ nl :: lineStream nl ls := by
  simp [lineStream]

theorem length_lineStream (ls : List (List α)) :
    (lineStream nl ls).length = (ls.map List.length).sum + ls.length := by
  induction ls with
  | nil => rfl
  | cons l ls ih =>
    simp only [lineStream_cons, List.length_append, List.length_cons, ih, List.map_cons,
      List.sum_cons]
    omega

theorem count_lineStream [DecidableEq α] {ls : List (List α)} (h : ∀ l ∈ ls, nl ∉ l) :
    (lineStream nl ls).count nl = ls.length := by
  induction ls with
  | nil => rfl
  | cons l ls ih =>
    rw [lineStream_cons, List.count_append, List.count_cons_self, List.length_cons,
      ih fun l' hl' => h l' (List.mem_cons_of_mem l hl'),
        List.count_eq_zero_of_not_mem (h l List.mem_cons_self),
      Nat.zero_add]

/-- What comes before the first terminator. -/
theorem takeWhile_line [DecidableEq α] {l : List α} (h : nl ∉ l) (t : List α) :
    (l ++ nl :: t).takeWhile (· ≠ nl) = l := by
  rw [List.takeWhile_append_of_pos]
  · simp
  · intro x hx
    simpa using fun heq : x = nl => h (heq ▸ hx)

/-- **A stream of lines can be cut in one way only.** -/
theorem lineStream_injective [DecidableEq α] {ls ls' : List (List α)} (h : ∀ l ∈ ls, nl ∉ l)
    (h' : ∀ l ∈ ls', nl ∉ l) (heq : lineStream nl ls = lineStream nl ls') : ls = ls' := by
  induction ls generalizing ls' with
  | nil =>
    cases ls' with
    | nil => rfl
    | cons l' ls' => simp at heq
  | cons l ls ih =>
    cases ls' with
    | nil => simp at heq
    | cons l' ls' =>
      rw [lineStream_cons, lineStream_cons] at heq
      have hline : l = l' := by
        have htake := congrArg (List.takeWhile (· ≠ nl)) heq
        rwa [takeWhile_line (h l List.mem_cons_self),
          takeWhile_line (h' l' List.mem_cons_self)] at htake
      subst hline
      have hrest := (List.cons.inj (List.append_cancel_left heq)).2
      rw [ih (fun x hx => h x (List.mem_cons_of_mem l hx))
        (fun x hx => h' x (List.mem_cons_of_mem l hx)) hrest]

/-- **Equal sums of terms that are ordered** are sums of equal terms. -/
theorem eq_of_sum_eq {β : Type*} {f g : β → Nat} {l : List β} (hle : ∀ x ∈ l, f x ≤ g x)
    (hsum : (l.map f).sum = (l.map g).sum) : ∀ x ∈ l, f x = g x := by
  induction l with
  | nil =>
    rintro x ⟨⟩
  | cons y l ih =>
    have hy := hle y List.mem_cons_self
    have hrest := List.sum_le_sum fun z hz => hle z (List.mem_cons_of_mem y hz)
    simp only [List.map_cons, List.sum_cons] at hsum
    intro x hx
    rcases List.mem_cons.mp hx with rfl | hx
    · omega
    · exact ih (fun z hz => hle z (List.mem_cons_of_mem y hz)) (by omega) x hx

end Kknf.LineStream
