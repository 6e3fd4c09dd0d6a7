/-
# Loops that may fail or go on for ever

A `while` loop is the turns it takes: from a state, a turn fails, or it ends the loop with a result,
or it leads to the state of the next turn.  `runFor` executes at most so many turns; what a loop
comes to does not depend on how many, once they are enough (`runFor_mono`).

* `diverges_of_invariant`: a loop whose turns keep an invariant and never are the last one does not;
* `Ends.fault_of_no_last`: a loop that has no last turn at all never comes to a result.
-/
import Mathlib.Order.Basic

namespace Kknf.Loop

variable {σ ρ φ : Type*}

/-- What a turn comes to, if it does not fail. -/
inductive Turn (σ ρ : Type*)
  | again (s : σ)
  | done (r : ρ)

/-- What a loop comes to within so many turns: nothing yet, a fault, or a result. -/
def runFor (body : σ → Except φ (Turn σ ρ)) : Nat → σ → Option (Except φ ρ)
  | 0, _ => none
  | n + 1, s =>
    match body s with
    | .error f => some (.error f)
    | .ok (.done r) => some (.ok r)
    | .ok (.again t) => runFor body n t

/-- The loop comes to `x`. -/
def Ends (body : σ → Except φ (Turn σ ρ)) (s : σ) (x : Except φ ρ) : Prop :=
  ∃ n, runFor body n s = some x

/-- The loop goes on for ever. -/
def Diverges (body : σ → Except φ (Turn σ ρ)) (s : σ) : Prop :=
  ∀ n, runFor body n s = none

variable {body : σ → Except φ (Turn σ ρ)} {s t : σ} {x y : Except φ ρ}

theorem runFor_again (h : body s = .ok (.again t)) (n : Nat) :
    runFor body (n + 1) s = runFor body n t := by
  simp only [runFor, h]

theorem Ends.fault {f : φ} (h : body s = .error f) : Ends body s (.error f) :=
  ⟨1, by simp only [runFor, h]⟩

theorem Ends.again (h : body s = .ok (.again t)) (ht : Ends body t x) : Ends body s x := by
  obtain ⟨n, hn⟩ := ht
  exact ⟨n + 1, (runFor_again h n).trans hn⟩

/-- More turns change nothing. -/
theorem runFor_mono {n m : Nat} (hle : n ≤ m) : ∀ {s : σ}, runFor body n s = some x →
    runFor body m s = some x := by
  induction n generalizing m with
  | zero =>
    intro s h
    cases h
  | succ n ih =>
    intro s h
    obtain ⟨m, rfl⟩ := Nat.exists_eq_add_of_lt (Nat.lt_of_succ_le hle)
    simp only [runFor] at h ⊢
    split at h
    · exact h
    · exact h
    · exact ih (Nat.le_add_right n m) h

/-- A loop comes to one thing only. -/
theorem Ends.unique (h : Ends body s x) (h' : Ends body s y) : x = y := by
  obtain ⟨n, hn⟩ := h
  obtain ⟨m, hm⟩ := h'
  have hx := runFor_mono (Nat.le_max_left n m) hn
  have hy := runFor_mono (Nat.le_max_right n m) hm
  exact Option.some.inj (hx.symm.trans hy)

theorem Diverges.again (h : body s = .ok (.again t)) (ht : Diverges body t) : Diverges body s := by
  intro n
  cases n with
  | zero => rfl
  | succ n => exact (runFor_again h n).trans (ht n)

/-- **A loop that never takes a last turn goes on for ever.** -/
theorem diverges_of_invariant {I : σ → Prop}
    (hstep : ∀ s, I s → ∃ t, body s = .ok (.again t) ∧ I t) (hs : I s) : Diverges body s := by
  intro n
  induction n generalizing s with
  | zero => rfl
  | succ n ih =>
    obtain ⟨t, ht, hI⟩ := hstep s hs
    exact (runFor_again ht n).trans (ih hI)

/-- A loop without a last turn comes to no result, whatever else becomes of it. -/
theorem Ends.fault_of_no_last (hno : ∀ s r, body s ≠ .ok (.done r)) (h : Ends body s x) :
    ∃ f, x = .error f := by
  obtain ⟨n, hn⟩ := h
  induction n generalizing s with
  | zero => cases hn
  | succ n ih =>
    simp only [runFor] at hn
    split at hn
    · next f _ => exact ⟨f, (Option.some.inj hn).symm⟩
    · next r hr => exact absurd hr (hno s r)
    · exact ih hn

end Kknf.Loop
