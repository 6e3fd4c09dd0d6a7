/-
# Runs of a fallible, event-driven system

A program that reacts to events is a function `step : σ → ε → Except φ σ`: from a state and an
event it goes to the next state, or it stops with a fault (a failed assertion, an exit, an event
that the environment cannot produce in this state).  This file fixes what a run of such a
program is, and the rules every safety result of the development goes through:

* `Along.invariant`: what is true at the start and kept by every step that meets a condition
  `G` is true in every state of every run whose steps all meet `G`;
* `Along.exec_ok`: when, moreover, every such step succeeds, such a run goes through;
* `always_iff_along`: when, besides, a step that does NOT meet `G` breaks the property at
  once, the property holds in every state of a run IF AND ONLY IF every step of it meets `G`.

Runs that go on for ever (`Endless`) have an invariant rule too, and `tally_add` is the rule for
what is counted along a run.  Nothing here names a particular program.
-/
import Mathlib.Data.List.Basic
import Mathlib.Data.List.Infix

namespace Kknf.Run

variable {σ ε φ : Type*}

/-! ## 1. Executing a list of events -/

/-- Mapping over a computation succeeds exactly when the computation does. -/
theorem map_eq_ok {α β : Type*} {f : α → β} {x : Except φ α} {b : β} :
    x.map f = .ok b ↔ ∃ a, x = .ok a ∧ f a = b := by
  cases x with
  | ok a => simp [Except.map]
  | error e => simp [Except.map]

theorem map_eq_error {α β : Type*} {f : α → β} {x : Except φ α} {e : φ}
    (h : x.map f = .error e) : x = .error e := by
  cases x with
  | ok a => cases h
  | error e' =>
    cases h
    rfl

/-- Execute the events in order, stopping at the first fault. -/
def exec (step : σ → ε → Except φ σ) : σ → List ε → Except φ σ
  | s, [] => .ok s
  | s, e :: es =>
    match step s e with
    | .ok t => exec step t es
    | .error f => .error f

@[simp] theorem exec_nil (step : σ → ε → Except φ σ) (s : σ) : exec step s [] = .ok s := rfl

theorem exec_cons_ok {step : σ → ε → Except φ σ} {s u : σ} {e : ε} {es : List ε} :
    exec step s (e :: es) = .ok u ↔ ∃ t, step s e = .ok t ∧ exec step t es = .ok u := by
  simp only [exec]
  cases hs : step s e with
  | ok t => simp
  | error f => simp

theorem exec_append_ok {step : σ → ε → Except φ σ} {u : σ} {es₂ : List ε} :
    ∀ {es₁ : List ε} {s : σ}, exec step s (es₁ ++ es₂) = .ok u ↔
      ∃ t, exec step s es₁ = .ok t ∧ exec step t es₂ = .ok u
  | [], s => by simp
  | e :: es₁, s => by
    simp only [List.cons_append, exec_cons_ok]
    constructor
    · rintro ⟨t, ht, h⟩
      obtain ⟨v, hv, hu⟩ := exec_append_ok.mp h
      exact ⟨v, ⟨t, ht, hv⟩, hu⟩
    · rintro ⟨v, ⟨t, ht, hv⟩, hu⟩
      exact ⟨t, ht, exec_append_ok.mpr ⟨v, hv, hu⟩⟩

/-- `Visits step s es t`: the run of `es` from `s` passes through `t` (after some prefix of
its events, the empty prefix and the whole run included). -/
def Visits (step : σ → ε → Except φ σ) (s : σ) (es : List ε) (t : σ) : Prop :=
  ∃ pre, pre <+: es ∧ exec step s pre = .ok t

theorem Visits.start (step : σ → ε → Except φ σ) (s : σ) (es : List ε) : Visits step s es s :=
  ⟨[], List.nil_prefix, rfl⟩

theorem Visits.cons {step : σ → ε → Except φ σ} {s t u : σ} {e : ε} {es : List ε}
    (hst : step s e = .ok t) (h : Visits step t es u) : Visits step s (e :: es) u := by
  obtain ⟨pre, hpre, hu⟩ := h
  exact ⟨e :: pre, List.cons_prefix_cons.mpr ⟨rfl, hpre⟩, exec_cons_ok.mpr ⟨t, hst, hu⟩⟩

theorem forall_visits_nil {step : σ → ε → Except φ σ} {s : σ} {P : σ → Prop} (hs : P s) :
    ∀ u, Visits step s [] u → P u := by
  rintro u ⟨pre, hpre, hu⟩
  cases List.prefix_nil.mp hpre
  cases hu
  exact hs

/-- To look at the states of a run one after the other. -/
theorem forall_visits_cons {step : σ → ε → Except φ σ} {s : σ} {e : ε} {es : List ε}
    {P : σ → Prop} (hs : P s) (h : ∀ t, step s e = .ok t → ∀ u, Visits step t es u → P u) :
    ∀ u, Visits step s (e :: es) u → P u := by
  rintro u ⟨pre, hpre, hu⟩
  cases pre with
  | nil =>
    cases hu
    exact hs
  | cons e' pre =>
    obtain ⟨rfl, hpre'⟩ := List.cons_prefix_cons.mp hpre
    obtain ⟨t, ht, hu'⟩ := exec_cons_ok.mp hu
    exact h t ht u ⟨pre, hpre', hu'⟩

/-- The states a run passes through, in order. -/
def states (step : σ → ε → Except φ σ) : σ → List ε → List σ
  | s, [] => [s]
  | s, e :: es => s :: match step s e with
    | .ok t => states step t es
    | .error _ => []

theorem mem_states_of_visits {step : σ → ε → Except φ σ} :
    ∀ {es : List ε} {s t : σ}, Visits step s es t → t ∈ states step s es
  | [], s, t, h => forall_visits_nil (P := (· ∈ states step s [])) (by simp [states]) t h
  | e :: es, s, t, h => by
    refine forall_visits_cons (P := (· ∈ states step s (e :: es))) (by simp [states]) ?_ t h
    intro u hu v hv
    have hmem := mem_states_of_visits hv
    simp [states, hu, hmem]

/-- Induction along a run, for properties of the state and of the events executed so far. -/
theorem exec_induction {step : σ → ε → Except φ σ} {P : List ε → σ → Prop} {s : σ}
    (hinit : P [] s) {es : List ε} (hstep : ∀ pre e t u, pre ++ [e] <+: es →
      exec step s pre = .ok t → P pre t → step t e = .ok u → P (pre ++ [e]) u)
    {t : σ} (h : exec step s es = .ok t) : P es t := by
  induction es using List.reverseRecOn generalizing t with
  | nil =>
    cases h
    exact hinit
  | append_singleton es e ih =>
    obtain ⟨u, hu, ht⟩ := exec_append_ok.mp h
    obtain ⟨v, hv, hend⟩ := exec_cons_ok.mp ht
    cases hend
    have hprev : P es u := ih (fun pre e' t' u' hpre =>
      hstep pre e' t' u' (hpre.trans (List.prefix_append es [e]))) hu
    exact hstep es e u _ List.prefix_rfl hu hprev hv

/-! ## 2. Runs whose steps all meet a condition -/

/-- Every step of the run meets `G` in the state it is taken from. -/
def Along (step : σ → ε → Except φ σ) (G : σ → ε → Prop) : σ → List ε → Prop
  | _, [] => True
  | s, e :: es => G s e ∧ ∀ t, step s e = .ok t → Along step G t es

theorem along_cons_ok {step : σ → ε → Except φ σ} {G : σ → ε → Prop} {s t : σ} {e : ε}
    {es : List ε} (ht : step s e = .ok t) :
    Along step G s (e :: es) ↔ G s e ∧ Along step G t es := by
  simp [Along, ht]

theorem along_cons_error {step : σ → ε → Except φ σ} {G : σ → ε → Prop} {s : σ} {e : ε}
    {es : List ε} {f : φ} (hf : step s e = .error f) : Along step G s (e :: es) ↔ G s e := by
  simp [Along, hf]

/-- A condition that can be decided can be decided along a run. -/
instance decidableAlong {step : σ → ε → Except φ σ} {G : σ → ε → Prop}
    [∀ s e, Decidable (G s e)] : ∀ (s : σ) (es : List ε), Decidable (Along step G s es)
  | _, [] => isTrue trivial
  | s, e :: es =>
    match hs : step s e with
    | .ok t =>
      have : Decidable (Along step G t es) := decidableAlong t es
      decidable_of_iff (G s e ∧ Along step G t es) (along_cons_ok hs).symm
    | .error _ => decidable_of_iff (G s e) (along_cons_error hs).symm

/-- A condition on the events alone holds along a run when it holds of each event. -/
theorem along_of_forall {step : σ → ε → Except φ σ} {G : σ → ε → Prop} :
    ∀ {es : List ε} {s : σ}, (∀ e ∈ es, ∀ t, G t e) → Along step G s es
  | [], _, _ => trivial
  | e :: _, s, h => ⟨h e List.mem_cons_self s, fun _ _ =>
      along_of_forall fun e' he' => h e' (List.mem_cons_of_mem e he')⟩

/-- Along a run that executes, a condition on the events alone is met at every step exactly when
every event meets it. -/
theorem along_iff_forall {step : σ → ε → Except φ σ} {G : ε → Prop} :
    ∀ {es : List ε} {s t : σ}, exec step s es = .ok t →
      (Along step (fun _ e => G e) s es ↔ ∀ e ∈ es, G e)
  | [], _, _, _ => by simp [Along]
  | e :: es, s, t, h => by
    obtain ⟨u, hu, ht⟩ := exec_cons_ok.mp h
    refine ⟨fun ha => ?_, fun hall => along_of_forall fun e' he' _ => hall e' he'⟩
    have hrest := (along_iff_forall ht).mp (ha.2 u hu)
    exact List.forall_mem_cons.mpr ⟨ha.1, hrest⟩

/-- A condition is met along a run when it is met at each event by the state that the events before
it lead to. -/
theorem along_iff_at {step : σ → ε → Except φ σ} {G : σ → ε → Prop} {es : List ε} {s : σ} :
    Along step G s es ↔
      ∀ pre e post t, es = pre ++ e :: post → exec step s pre = .ok t → G t e := by
  induction es generalizing s with
  | nil => simp [Along]
  | cons e es ih =>
    constructor
    · rintro ⟨he, hrest⟩ pre e' post t heq ht
      cases pre with
      | nil =>
        cases ht
        cases heq
        exact he
      | cons e'' pre =>
        cases heq
        obtain ⟨u, hu, ht⟩ := exec_cons_ok.mp ht
        exact ih.mp (hrest u hu) pre e' post t rfl ht
    · intro h
      refine ⟨h [] e es s rfl rfl, fun u hu => ih.mpr fun pre e' post t heq ht => ?_⟩
      refine h (e :: pre) e' post t (by rw [heq]; rfl) ?_
      exact exec_cons_ok.mpr ⟨u, hu, ht⟩

/-- A run that does not end in a fault takes no step that ends in it. -/
theorem along_ne_error {step : σ → ε → Except φ σ} {f : φ} :
    ∀ {es : List ε} {s : σ}, exec step s es ≠ .error f →
      Along step (fun t e => step t e ≠ .error f) s es
  | [], _, _ => trivial
  | e :: es, s, h => by
    refine ⟨?_, ?_⟩
    · intro hf
      exact h (by simp [exec, hf])
    · intro t ht
      refine along_ne_error ?_
      intro hf
      exact h (by simp [exec, ht, hf])

theorem Along.mono {step : σ → ε → Except φ σ} {G G' : σ → ε → Prop}
    (hG : ∀ t e, G t e → G' t e) :
    ∀ {es : List ε} {s : σ}, Along step G s es → Along step G' s es
  | [], _, _ => trivial
  | _ :: _, _, ⟨h, hrest⟩ => ⟨hG _ _ h, fun t ht => (hrest t ht).mono hG⟩

theorem Along.and {step : σ → ε → Except φ σ} {G G' : σ → ε → Prop} :
    ∀ {es : List ε} {s : σ}, Along step G s es → Along step G' s es →
      Along step (fun t e => G t e ∧ G' t e) s es
  | [], _, _, _ => trivial
  | _ :: _, _, ⟨h, hrest⟩, ⟨h', hrest'⟩ => ⟨⟨h, h'⟩, fun t ht => (hrest t ht).and (hrest' t ht)⟩

theorem Along.of_isPrefix {step : σ → ε → Except φ σ} {G : σ → ε → Prop} :
    ∀ {pre es : List ε} {s : σ}, Along step G s es → pre <+: es → Along step G s pre
  | [], _, _, _, _ => trivial
  | e :: pre, es, s, h, hpre => by
    cases es with
    | nil => simp at hpre
    | cons e' es =>
      obtain ⟨rfl, hpre'⟩ := List.cons_prefix_cons.mp hpre
      exact ⟨h.1, fun t ht => (h.2 t ht).of_isPrefix hpre'⟩

/-- **The invariant rule.**  A property kept by every step that meets `G` holds at the end of
every run whose steps all meet `G`. -/
theorem Along.invariant {step : σ → ε → Except φ σ} {G : σ → ε → Prop} {P : σ → Prop}
    (hstep : ∀ t e u, P t → G t e → step t e = .ok u → P u) :
    ∀ {es : List ε} {s t : σ}, P s → Along step G s es → exec step s es = .ok t → P t
  | [], s, t, hs, _, h => by
    cases h
    exact hs
  | e :: es, s, t, hs, ha, h => by
    obtain ⟨u, hu, ht⟩ := exec_cons_ok.mp h
    exact (ha.2 u hu).invariant hstep (hstep s e u hs ha.1 hu) ht

/-- The invariant rule at every state the run passes through. -/
theorem Along.invariant_visits {step : σ → ε → Except φ σ} {G : σ → ε → Prop} {P : σ → Prop}
    (hstep : ∀ t e u, P t → G t e → step t e = .ok u → P u) {es : List ε} {s t : σ}
    (hs : P s) (ha : Along step G s es) (ht : Visits step s es t) : P t := by
  obtain ⟨pre, hpre, hexec⟩ := ht
  exact (ha.of_isPrefix hpre).invariant hstep hs hexec

/-- Two conditions that come to the same in every state of an invariant, which one of them keeps,
are met by the same runs. -/
theorem along_congr {step : σ → ε → Except φ σ} {G G' : σ → ε → Prop} {P : σ → Prop}
    (hstep : ∀ t e u, P t → G' t e → step t e = .ok u → P u)
    (hiff : ∀ t e, P t → (G t e ↔ G' t e)) {es : List ε} {s : σ} (hs : P s) :
    Along step G s es ↔ Along step G' s es := by
  induction es generalizing s with
  | nil => exact Iff.rfl
  | cons e es ih =>
    constructor
    · intro ha
      have he := (hiff s e hs).mp ha.1
      exact ⟨he, fun t ht => (ih (hstep s e t hs he ht)).mp (ha.2 t ht)⟩
    · intro ha
      exact ⟨(hiff s e hs).mpr ha.1, fun t ht => (ih (hstep s e t hs ha.1 ht)).mpr (ha.2 t ht)⟩

/-- A fault that no step from the invariant ends in does not end the run. -/
theorem Along.ne_error {step : σ → ε → Except φ σ} {G : σ → ε → Prop} {P : σ → Prop} {f : φ}
    (hstep : ∀ t e u, P t → G t e → step t e = .ok u → P u)
    (hne : ∀ t e, P t → G t e → step t e ≠ .error f) :
    ∀ {es : List ε} {s : σ}, P s → Along step G s es → exec step s es ≠ .error f
  | [], _, _, _ => by simp
  | e :: es, s, hs, ha => by
    simp only [exec]
    cases hv : step s e with
    | error g =>
      rintro ⟨⟩
      exact hne s e hs ha.1 hv
    | ok v => exact (ha.2 v hv).ne_error hstep hne (hstep s e v hs ha.1 hv)

/-- **The progress rule.**  If every step that meets `G` succeeds in the states of an invariant and
keeps it, then a run whose steps all meet `G` executes. -/
theorem Along.exec_ok {step : σ → ε → Except φ σ} {G : σ → ε → Prop} {P : σ → Prop}
    (hstep : ∀ t e, P t → G t e → ∃ u, step t e = .ok u ∧ P u) {es : List ε} {s : σ}
    (hs : P s) (ha : Along step G s es) : ∃ t, exec step s es = .ok t := by
  induction es generalizing s with
  | nil => exact ⟨s, rfl⟩
  | cons e es ih =>
    obtain ⟨u, hu, hP⟩ := hstep s e hs ha.1
    obtain ⟨t, ht⟩ := ih hP (ha.2 u hu)
    exact ⟨t, exec_cons_ok.mpr ⟨u, hu, ht⟩⟩

/-- **The rule for a single fault.**  If every step keeps the property or ends in `f`, then every
run ends in a state with the property or in `f`. -/
theorem exec_error_or_ok {step : σ → ε → Except φ σ} {P : σ → Prop} {f : φ}
    (hstep : ∀ t e, P t → step t e = .error f ∨ ∃ u, step t e = .ok u ∧ P u) {es : List ε} {s : σ}
    (hs : P s) : exec step s es = .error f ∨ ∃ t, exec step s es = .ok t ∧ P t := by
  induction es generalizing s with
  | nil => exact Or.inr ⟨s, rfl, hs⟩
  | cons e es ih =>
    rcases hstep s e hs with hf | ⟨t, ht, hP⟩
    · exact Or.inl (by simp [exec, hf])
    · simp only [exec, ht]
      exact ih hP

/-- **The exactness rule.**  `I` is kept by the steps that meet `G` and gives `P`; a step from
`I` that does not meet `G` ends outside `P`.  Then a run that executes stays inside `P`
throughout exactly when all its steps meet `G`. -/
theorem always_iff_along {step : σ → ε → Except φ σ} {G : σ → ε → Prop} {I P : σ → Prop}
    (hkeep : ∀ t e u, I t → G t e → step t e = .ok u → I u)
    (hI : ∀ t, I t → P t)
    (hbreak : ∀ t e u, I t → ¬ G t e → step t e = .ok u → ¬ P u) :
    ∀ {es : List ε} {s t : σ}, I s → exec step s es = .ok t →
      ((∀ u, Visits step s es u → P u) ↔ Along step G s es)
  | [], s, t, hs, _ => by
    exact ⟨fun _ => trivial, fun _ => forall_visits_nil (hI s hs)⟩
  | e :: es, s, t, hs, h => by
    obtain ⟨v, hv, ht⟩ := exec_cons_ok.mp h
    constructor
    · intro hall
      have hG : G s e := by
        by_contra hG
        exact hbreak s e v hs hG hv (hall v (Visits.cons hv (Visits.start _ _ _)))
      refine ⟨hG, fun w hw => ?_⟩
      cases hv.symm.trans hw
      exact (always_iff_along hkeep hI hbreak (hkeep s e v hs hG hv) ht).mp
        fun u hu => hall u (Visits.cons hv hu)
    · intro ha u hu
      exact hI u (ha.invariant_visits hkeep hs hu)

/-- **The exactness rule with a fault.**  As `always_iff_along`, for runs of the events in `A` that
may also end in the fault `bad`, which only a step that does not meet `G` can end in. -/
theorem safe_iff_along {step : σ → ε → Except φ σ} {A : ε → Prop} {G : σ → ε → Prop}
    {I P : σ → Prop} {bad : φ}
    (hkeep : ∀ t e u, A e → I t → G t e → step t e = .ok u → I u)
    (hI : ∀ t, I t → P t)
    (hbreak : ∀ t e u, A e → I t → ¬ G t e → step t e = .ok u → ¬ P u)
    (hbad : ∀ t e, A e → I t → step t e = .error bad → ¬ G t e) :
    ∀ {es : List ε} {s : σ}, (∀ e ∈ es, A e) → I s →
      (∃ t, exec step s es = .ok t) ∨ exec step s es = .error bad →
      (((∀ u, Visits step s es u → P u) ∧ exec step s es ≠ .error bad) ↔ Along step G s es)
  | [], s, _, hs, _ => by
    exact ⟨fun _ => trivial, fun _ => ⟨forall_visits_nil (hI s hs), by simp⟩⟩
  | e :: es, s, hA, hs, h => by
    have hAe := hA e List.mem_cons_self
    have hAes : ∀ e' ∈ es, A e' := fun e' he' => hA e' (List.mem_cons_of_mem e he')
    cases hv : step s e with
    | error f =>
      have hexec : exec step s (e :: es) = .error f := by simp [exec, hv]
      have hf : f = bad := by
        rcases h with ⟨t, ht⟩ | hb
        · cases hexec.symm.trans ht
        · cases hexec.symm.trans hb
          rfl
      subst hf
      exact ⟨fun hsafe => absurd hexec hsafe.2, fun ha => absurd ha.1 (hbad s e hAe hs hv)⟩
    | ok v =>
      have hexec : exec step s (e :: es) = exec step v es := by simp [exec, hv]
      rw [hexec] at h ⊢
      constructor
      · rintro ⟨hall, hne⟩
        have hG : G s e := by
          by_contra hG
          exact hbreak s e v hAe hs hG hv (hall v (Visits.cons hv (Visits.start _ _ _)))
        refine ⟨hG, fun w hw => ?_⟩
        cases hv.symm.trans hw
        exact (safe_iff_along hkeep hI hbreak hbad hAes (hkeep s e v hAe hs hG hv) h).mp
          ⟨fun u hu => hall u (Visits.cons hv hu), hne⟩
      · intro ha
        have hrest := (safe_iff_along hkeep hI hbreak hbad hAes
          (hkeep s e v hAe hs ha.1 hv) h).mpr (ha.2 v hv)
        refine ⟨forall_visits_cons (hI s hs) fun w hw => ?_, hrest.2⟩
        cases hv.symm.trans hw
        exact hrest.1

/-- **The exactness rule for runs that have to succeed.**  From `I` a step that meets `G` succeeds
and keeps `I`, and a step that does not meet `G` fails or ends outside `P`.  Then a run whose steps
are all possible (`A`) executes and stays inside `P` exactly when all its steps meet `G`. -/
theorem runs_iff_along {step : σ → ε → Except φ σ} {A G : σ → ε → Prop} {I P : σ → Prop}
    (hkeep : ∀ t e, A t e → I t → G t e → ∃ u, step t e = .ok u ∧ I u)
    (hI : ∀ t, I t → P t)
    (hbreak : ∀ t e u, A t e → I t → ¬ G t e → step t e = .ok u → ¬ P u) :
    ∀ {es : List ε} {s : σ}, Along step A s es → I s →
      (((∃ t, exec step s es = .ok t) ∧ ∀ u, Visits step s es u → P u) ↔ Along step G s es)
  | [], s, _, hs => by
    exact ⟨fun _ => trivial, fun _ => ⟨⟨s, rfl⟩, forall_visits_nil (hI s hs)⟩⟩
  | e :: es, s, hA, hs => by
    constructor
    · rintro ⟨⟨t, ht⟩, hall⟩
      obtain ⟨v, hv, ht'⟩ := exec_cons_ok.mp ht
      have hG : G s e := by
        by_contra hG
        exact hbreak s e v hA.1 hs hG hv (hall v (Visits.cons hv (Visits.start _ _ _)))
      obtain ⟨w, hw, hIw⟩ := hkeep s e hA.1 hs hG
      cases hv.symm.trans hw
      refine (along_cons_ok hv).mpr ⟨hG, ?_⟩
      exact (runs_iff_along hkeep hI hbreak (hA.2 v hv) hIw).mp ⟨⟨t, ht'⟩, fun u hu =>
        hall u (Visits.cons hv hu)⟩
    · intro ha
      obtain ⟨v, hv, hIv⟩ := hkeep s e hA.1 hs ha.1
      obtain ⟨⟨t, ht⟩, hall⟩ := (runs_iff_along hkeep hI hbreak (hA.2 v hv) hIv).mpr (ha.2 v hv)
      refine ⟨⟨t, exec_cons_ok.mpr ⟨v, hv, ht⟩⟩, forall_visits_cons (hI s hs) fun w hw => ?_⟩
      cases hv.symm.trans hw
      exact hall

/-- The states and the events of a run that goes on for ever. -/
def Endless (step : σ → ε → Except φ σ) (run : Nat → σ) (events : Nat → ε) : Prop :=
  ∀ i, step (run i) (events i) = .ok (run (i + 1))

/-- What is kept by every step holds throughout. -/
theorem Endless.invariant {step : σ → ε → Except φ σ} {run : Nat → σ} {events : Nat → ε}
    (h : Endless step run events) {P : σ → Prop} (hstart : P (run 0))
    (hstep : ∀ t e u, P t → step t e = .ok u → P u) : ∀ i, P (run i)
  | 0 => hstart
  | i + 1 => hstep _ _ _ (h.invariant hstart hstep i) (h i)

/-- What every step makes longer only gets longer. -/
theorem Endless.isPrefix {step : σ → ε → Except φ σ} {run : Nat → σ} {events : Nat → ε}
    (h : Endless step run events) {α : Type*} {f : σ → List α}
    (hstep : ∀ t e u, step t e = .ok u → f t <+: f u) {i j : Nat} (hij : i ≤ j) :
    f (run i) <+: f (run j) := by
  induction j, hij using Nat.le_induction with
  | base => exact List.prefix_rfl
  | succ j _ ih => exact ih.trans (hstep _ _ _ (h j))

/-! ## 4. Counting along a run -/

/-- The sum of what the steps of a run count for. -/
def tally (step : σ → ε → Except φ σ) (cost : σ → ε → Nat) : σ → List ε → Nat
  | _, [] => 0
  | s, e :: es => cost s e + match step s e with
    | .ok t => tally step cost t es
    | .error _ => 0

/-- **The counting rule.**  What every step changes by its count is changed by a run by the sum. -/
theorem tally_add {step : σ → ε → Except φ σ} (cost : σ → ε → Nat) {P : σ → Prop}
    {F : σ → Nat} (hkeep : ∀ t e u, P t → step t e = .ok u → P u)
    (hcost : ∀ t e u, P t → step t e = .ok u → F u = F t + cost t e) :
    ∀ {es : List ε} {s t : σ}, P s → exec step s es = .ok t → F t = F s + tally step cost s es
  | [], s, t, _, h => by
    cases h
    rfl
  | e :: es, s, t, hs, h => by
    obtain ⟨u, hu, ht⟩ := exec_cons_ok.mp h
    rw [tally_add cost hkeep hcost (hkeep s e u hs hu) ht, hcost s e u hs hu, Nat.add_assoc]
    simp only [tally, hu]

end Kknf.Run
