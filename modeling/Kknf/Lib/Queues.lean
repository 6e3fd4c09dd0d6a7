/-
# A map of first-in first-out queues

What a pool of things kept apart by a key is for: a thing put in under a key goes to the back of the
queue of that key, and a thing taken out under a key comes from its front.  A `Trace` is a history
of puts and takes with what each take gave.  `Trace.fifo` is the law of such histories: under each
key, what has been put in is what has been taken out followed by what is still there, so nothing is
taken out twice, or out of order.  What is the same under each key is the same as a whole, but for
the order (`perm_of_forall_key`).
-/
import Mathlib.Data.List.Perm.Basic
import Mathlib.Logic.Function.Basic

namespace Kknf.Queues

variable {κ α : Type*}

/-- One operation on the queues, with its result. -/
inductive Event (κ α : Type*)
  | put (k : κ) (x : α)
  /-- `none` when there was nothing to take -/
  | take (k : κ) (r : Option α)

variable [DecidableEq κ]

/-- The operations the queues `q` allow, and the queues after them. -/
inductive Step (q : κ → List α) : Event κ α → (κ → List α) → Prop
  | put (k : κ) (x : α) : Step q (.put k x) (Function.update q k (q k ++ [x]))
  | takeNone {k : κ} (h : q k = []) : Step q (.take k none) q
  | takeSome {k : κ} {x : α} {t : List α} (h : q k = x :: t) :
      Step q (.take k (some x)) (Function.update q k t)

/-- A history of operations, from `q` on. -/
inductive Trace (q : κ → List α) : List (Event κ α) → (κ → List α) → Prop
  | nil : Trace q [] q
  | snoc {es : List (Event κ α)} {e : Event κ α} {q' q'' : κ → List α} :
      Trace q es q' → Step q' e q'' → Trace q (es ++ [e]) q''

/-- What has been put in under `k`, in order. -/
def puts (k : κ) (es : List (Event κ α)) : List α :=
  es.filterMap fun
    | .put k' x => if k' = k then some x else none
    | .take _ _ => none

/-- What has been taken out under `k`, in order. -/
def takes (k : κ) (es : List (Event κ α)) : List α :=
  es.filterMap fun
    | .put _ _ => none
    | .take k' r => if k' = k then r else none

/-- **First in, first out**, under each key. -/
theorem Trace.fifo {q q' : κ → List α} {es : List (Event κ α)} (h : Trace q es q') (k : κ) :
    q k ++ puts k es = takes k es ++ q' k := by
  induction h with
  | nil => simp [puts, takes]
  | @snoc es e q' q'' _ hstep ih =>
    have hputs : puts k (es ++ [e]) = puts k es ++ puts k [e] := List.filterMap_append
    have htakes : takes k (es ++ [e]) = takes k es ++ takes k [e] := List.filterMap_append
    rw [hputs, htakes, ← List.append_assoc, ih, List.append_assoc, List.append_assoc]
    congr 1
    cases hstep with
    | put k' x =>
      by_cases hk : k' = k
      · subst hk
        simp [puts, takes]
      · simp [puts, takes, hk, Ne.symm hk]
    | takeNone hnil => simp [puts, takes]
    | @takeSome k' x t hq =>
      by_cases hk : k' = k
      · subst hk
        simp [puts, takes, hq]
      · simp [puts, takes, hk, Ne.symm hk]

/-- **Two histories that agree on every key hold the same things.** -/
theorem perm_of_forall_key {β : Type*} (key : β → κ) {l l' : List β}
    (h : ∀ k, l.filter (fun x => key x = k) = l'.filter fun x => key x = k) : l.Perm l' := by
  classical
  refine List.perm_iff_count.mpr fun x => ?_
  have hcount : ∀ m : List β, m.count x = (m.filter fun y => key y = key x).count x :=
    fun m => (List.count_filter (p := fun y => decide (key y = key x)) (by simp)).symm
  rw [hcount l, hcount l', h (key x)]

end Kknf.Queues
