/-
# Leases

Workers take resources, use each alone for a while, and give it back.  What is true of a resource
that nobody holds (`idle`) may fail while somebody works on it; then its holder knows what is true
instead (`busy`).  `Leased` is this as an invariant, and the two rules say what has to be shown for
a step:

* `Leased.step`: one worker acts.  It answers for what it holds afterwards and for what it has given
  back; the resources of the others must not be touched.
* `Leased.env`: nobody takes or gives back anything.
-/
import Mathlib.Tactic.ByContra

namespace Kknf.Lease

variable {ω ι : Type*}

/-- No resource has two holders; a resource without one is `idle`, and one with a holder is as the
holder has it. -/
structure Leased (holds : ω → ι → Prop) (idle : ι → Prop) (busy : ω → ι → Prop) : Prop where
  exclusive : ∀ {v w : ω} {i : ι}, holds v i → holds w i → v = w
  idle : ∀ i, (∀ w, ¬ holds w i) → idle i
  busy : ∀ w i, holds w i → busy w i

variable {holds holds' : ω → ι → Prop} {idle idle' : ι → Prop} {busy busy' : ω → ι → Prop}

/-- **One worker acts.**  What it holds afterwards it held before or nobody did. -/
theorem Leased.step (h : Leased holds idle busy) (w : ω)
    (hother : ∀ v, v ≠ w → ∀ i, holds' v i ↔ holds v i)
    (hnew : ∀ i, holds' w i → holds w i ∨ ∀ v, ¬ holds v i)
    (hbusy : ∀ i, holds' w i → busy' w i)
    (hidle : ∀ i, ¬ holds' w i → (∀ v, v ≠ w → ¬ holds v i) → idle' i)
    (hframe : ∀ v, v ≠ w → ∀ i, holds v i → busy v i → busy' v i) :
    Leased holds' idle' busy' := by
  -- what `w` holds afterwards is held by nobody else
  have halone : ∀ v i, holds' w i → holds' v i → v = w := by
    intro v i hw hv
    by_contra hne
    have hv' := (hother v hne i).mp hv
    rcases hnew i hw with hold | hfree
    · exact hne (h.exclusive hv' hold)
    · exact hfree v hv'
  refine ⟨fun {u v i} hu hv => ?_, fun i hi => ?_, fun v i hv => ?_⟩
  · by_cases hvw : v = w
    · subst hvw
      exact halone u i hv hu
    · by_cases huw : u = w
      · subst huw
        exact (halone v i hu hv).symm
      · exact h.exclusive ((hother u huw i).mp hu) ((hother v hvw i).mp hv)
  · exact hidle i (hi w) fun v hne hv => hi v ((hother v hne i).mpr hv)
  · by_cases hvw : v = w
    · subst hvw
      exact hbusy i hv
    · have hv' := (hother v hvw i).mp hv
      exact hframe v hvw i hv' (h.busy v i hv')

/-- **Nobody takes or gives back anything.** -/
theorem Leased.env (h : Leased holds idle busy) (hholds : ∀ w i, holds' w i ↔ holds w i)
    (hidle : ∀ i, (∀ w, ¬ holds w i) → idle i → idle' i)
    (hbusy : ∀ w i, holds w i → busy w i → busy' w i) : Leased holds' idle' busy' where
  exclusive := fun hv hw => h.exclusive ((hholds _ _).mp hv) ((hholds _ _).mp hw)
  idle := fun i hi => by
    have hi' : ∀ w, ¬ holds w i := fun w hw => hi w ((hholds w i).mpr hw)
    exact hidle i hi' (h.idle i hi')
  busy := fun w i hw => hbusy w i ((hholds w i).mp hw) (h.busy w i ((hholds w i).mp hw))

end Kknf.Lease
