/-
# Messages on an unreliable network

Parties that talk by messages only.  The network holds the messages that have been sent and have not
arrived; it hands them over in any order, and it may lose them and duplicate them.  What a party
does with a message that arrives is a handler: it changes the state of the parties and sends
messages.

The history of a run is kept beside the network: everything that was sent, and everything that
arrived, in order, with what the handler took from its surroundings.

* `step_carried`: what arrives was sent.
* `arrived_subperm_sent`: as long as nothing is duplicated, nothing arrives more often than it was
  sent.
* `history_inv` is the invariant rule that follows.  An invariant of the parties is about their
  state and the history; the messages that are on their way need not be looked at.  `handler_safe`
  is the rule for what no handler does.
* `exec_congr`: handlers that agree on the messages that can arrive have the same runs.
* `exec_map`: a handler whose messages are those of another in a different form has the runs of the
  other, message by message.
-/
import Mathlib.Data.List.InsertIdx
import Mathlib.Data.List.Perm.Basic
import Mathlib.Data.List.Perm.Subperm
import Kknf.Lib.Run

namespace Kknf.Network

open Kknf.Run

variable {σ μ ρ φ : Type*}

/-! ## 1. One step -/

/-- The parties and the network.  `sent` and `log`, which has what has arrived and what its handler
took from its surroundings, are read by nothing. -/
structure State (σ μ ρ : Type*) where
  parties : σ
  flight : List μ := []
  sent : List μ := []
  log : List (μ × ρ) := []

/-- What has arrived. -/
def State.arrived (s : State σ μ ρ) : List μ := s.log.map Prod.fst

inductive Event (μ ρ : Type*)
  /-- a message is sent from outside -/
  | send (m : μ)
  /-- the message at this place of `flight` arrives; `r` is what its handler takes from its
  surroundings -/
  | arrive (i : Nat) (r : ρ)
  | lose (i : Nat)
  | duplicate (i : Nat)

inductive Fault (φ : Type*)
  /-- there is no such message -/
  | disabled
  | handler (f : φ)
  deriving DecidableEq

/-- What the parties do with a message: their state after it, and what they send. -/
abbrev Handler (σ μ ρ φ : Type*) := σ → μ → ρ → Except φ (σ × List μ)

/-- The state after a message at place `i` was handled. -/
def State.handled (s : State σ μ ρ) (i : Nat) (m : μ) (r : ρ) (out : σ × List μ) : State σ μ ρ where
  parties := out.1
  flight := s.flight.eraseIdx i ++ out.2
  sent := s.sent ++ out.2
  log := s.log ++ [(m, r)]

@[simp] theorem State.handled_arrived (s : State σ μ ρ) (i : Nat) (m : μ) (r : ρ)
    (out : σ × List μ) :
    (s.handled i m r out).arrived = s.arrived ++ [m] := List.map_append

def step (handle : Handler σ μ ρ φ) (s : State σ μ ρ) : Event μ ρ → Except (Fault φ) (State σ μ ρ)
  | .send m => .ok { s with flight := s.flight ++ [m], sent := s.sent ++ [m] }
  | .arrive i r =>
    match s.flight[i]? with
    | none => .error .disabled
    | some m =>
      match handle s.parties m r with
      | .ok out => .ok (s.handled i m r out)
      | .error f => .error (.handler f)
  | .lose i =>
    match s.flight[i]? with
    | none => .error .disabled
    | some _ => .ok { s with flight := s.flight.eraseIdx i }
  | .duplicate i =>
    match s.flight[i]? with
    | none => .error .disabled
    | some m => .ok { s with flight := s.flight ++ [m] }

/-- Nothing has been sent. -/
def start (x : σ) : State σ μ ρ := { parties := x }

/-- What comes from outside is admissible. -/
def Admits (A : μ → Prop) : State σ μ ρ → Event μ ρ → Prop
  | _, .send m => A m
  | _, _ => True

/-- The network does not duplicate. -/
def NoDuplicate : State σ μ ρ → Event μ ρ → Prop
  | _, .duplicate _ => False
  | _, _ => True

variable {handle : Handler σ μ ρ φ} {s t : State σ μ ρ} {e : Event μ ρ}

/-- What comes from outside is admissible all along when the events say so. -/
theorem along_admits {A : μ → Prop} {es : List (Event μ ρ)} (h : ∀ m, .send m ∈ es → A m) :
    Along (step handle) (Admits A) s es := by
  refine along_of_forall fun e he t => ?_
  cases e with
  | send m => exact h m he
  | _ => exact trivial

/-- **What a step does**, by its kind. -/
theorem step_cases (h : step handle s e = .ok t) :
    (∃ m, e = .send m ∧ t = { s with flight := s.flight ++ [m], sent := s.sent ++ [m] }) ∨
      (∃ i m r out, e = .arrive i r ∧ s.flight[i]? = some m ∧ handle s.parties m r = .ok out ∧
        t = s.handled i m r out) ∨
      (∃ i m, e = .lose i ∧ s.flight[i]? = some m ∧ t = { s with flight := s.flight.eraseIdx i }) ∨
      (∃ i m, e = .duplicate i ∧ s.flight[i]? = some m ∧
        t = { s with flight := s.flight ++ [m] }) := by
  cases e with
  | send m =>
    cases h
    exact Or.inl ⟨m, rfl, rfl⟩
  | arrive i r =>
    simp only [step] at h
    split at h
    · cases h
    · rename_i m hm
      split at h
      · rename_i out hout
        cases h
        exact Or.inr (Or.inl ⟨i, m, r, out, rfl, hm, hout, rfl⟩)
      · cases h
  | lose i =>
    simp only [step] at h
    split at h
    · cases h
    · rename_i m hm
      cases h
      exact Or.inr (Or.inr (Or.inl ⟨i, m, rfl, hm, rfl⟩))
  | duplicate i =>
    simp only [step] at h
    split at h
    · cases h
    · rename_i m hm
      cases h
      exact Or.inr (Or.inr (Or.inr ⟨i, m, rfl, hm, rfl⟩))

/-! ## 2. What arrives was sent -/

/-- The network makes nothing up. -/
def Carried (s : State σ μ ρ) : Prop := (∀ m ∈ s.flight, m ∈ s.sent) ∧ ∀ m ∈ s.arrived, m ∈ s.sent

theorem carried_start (x : σ) : Carried (start x : State σ μ ρ) := ⟨by rintro m ⟨⟩, by rintro m ⟨⟩⟩

/-- **What arrives was sent.** -/
theorem step_carried (h : Carried s) (hstep : step handle s e = .ok t) : Carried t := by
  obtain ⟨hflight, harrived⟩ := h
  obtain ⟨m, -, rfl⟩ | ⟨i, m, r, out, -, hm, -, rfl⟩ | ⟨i, m, -, hm, rfl⟩ | ⟨i, m, -, hm, rfl⟩ :=
    step_cases hstep
  · refine ⟨fun x hx => ?_, fun x hx => List.mem_append_left _ (harrived x hx)⟩
    rcases List.mem_append.mp hx with hx | hx
    · exact List.mem_append_left _ (hflight x hx)
    · exact List.mem_append_right _ hx
  · refine ⟨fun x hx => ?_, fun x hx => ?_⟩
    · rcases List.mem_append.mp hx with hx | hx
      · exact List.mem_append_left _ (hflight x (List.mem_of_mem_eraseIdx hx))
      · exact List.mem_append_right _ hx
    · rw [State.handled_arrived] at hx
      rcases List.mem_append.mp hx with hx | hx
      · exact List.mem_append_left _ (harrived x hx)
      · rw [List.mem_singleton.mp hx]
        exact List.mem_append_left _ (hflight m (List.mem_of_getElem? hm))
  · exact ⟨fun x hx => hflight x (List.mem_of_mem_eraseIdx hx), harrived⟩
  · refine ⟨fun x hx => ?_, harrived⟩
    rcases List.mem_append.mp hx with hx | hx
    · exact hflight x hx
    · rw [List.mem_singleton.mp hx]
      exact hflight m (List.mem_of_getElem? hm)

/-- What was sent has not arrived, has arrived once, or has been lost. -/
def OnceEach (s : State σ μ ρ) : Prop := (s.flight ++ s.arrived).Subperm s.sent

/-- The message that arrives leaves the network. -/
theorem flight_perm {i : Nat} {m : μ} (hm : s.flight[i]? = some m) :
    (s.flight.eraseIdx i ++ [m]).Perm s.flight := by
  obtain ⟨hi, rfl⟩ := List.getElem?_eq_some_iff.mp hm
  exact List.perm_append_comm.trans (List.getElem_cons_eraseIdx_perm hi)

/-- **Without duplicates nothing arrives twice.** -/
theorem step_onceEach (h : OnceEach s) (hno : NoDuplicate s e) (hstep : step handle s e = .ok t) :
    OnceEach t := by
  unfold OnceEach at h
  obtain ⟨m, -, rfl⟩ | ⟨i, m, r, out, -, hm, -, rfl⟩ | ⟨i, m, -, hm, rfl⟩ | ⟨i, m, rfl, -, -⟩ :=
    step_cases hstep
  · have hperm : (s.flight ++ [m] ++ s.arrived).Perm (s.flight ++ s.arrived ++ [m]) := by
      rw [List.append_assoc, List.append_assoc]
      exact List.perm_append_comm.append_left s.flight
    exact hperm.subperm.trans ((List.subperm_append_right [m]).mpr h)
  · have hperm : (s.flight.eraseIdx i ++ out.2 ++ (s.arrived ++ [m])).Perm
        (s.flight ++ s.arrived ++ out.2) := by
      have hback : (out.2 ++ (s.arrived ++ [m])).Perm ([m] ++ (s.arrived ++ out.2)) := by
        have hswap : (out.2 ++ s.arrived ++ [m]).Perm ([m] ++ (out.2 ++ s.arrived)) :=
          List.perm_append_comm
        rw [← List.append_assoc]
        exact hswap.trans (List.perm_append_comm.append_left [m])
      have hfront := (flight_perm hm).append_right (s.arrived ++ out.2)
      rw [List.append_assoc] at hfront ⊢
      rw [List.append_assoc s.flight]
      exact (hback.append_left _).trans hfront
    rw [OnceEach, State.handled_arrived]
    exact hperm.subperm.trans ((List.subperm_append_right out.2).mpr h)
  · have hless : (s.flight.eraseIdx i ++ s.arrived).Subperm (s.flight ++ s.arrived) :=
      ((List.eraseIdx_sublist s.flight i).append_right s.arrived).subperm
    exact hless.trans h
  · exact hno.elim

/-- What a history says of a kind of messages, when another has no more of them. -/
theorem subperm_filterMap {α : Type*} (f : μ → Option α) {l l' : List μ} (h : l.Subperm l') :
    (l.filterMap f).Subperm (l'.filterMap f) := by
  obtain ⟨l₀, hperm, hsub⟩ := h
  exact ⟨l₀.filterMap f, hperm.filterMap f, hsub.filterMap f⟩

/-! ## 3. The invariant rules -/

/-- **The rule.**  `I` speaks of the parties, of what has arrived and of what has been sent.  It has
to be kept by a message from outside, and by a handler that is given a message that was sent. -/
theorem history_inv {A : μ → Prop} {I : σ → List (μ × ρ) → List μ → Prop}
    (hsend : ∀ {x log sent m}, A m → I x log sent → I x log (sent ++ [m]))
    (harrive : ∀ {x log sent m r out}, I x log sent → (∀ m' ∈ log.map Prod.fst, m' ∈ sent) →
      m ∈ sent → handle x m r = .ok out → I out.1 (log ++ [(m, r)]) (sent ++ out.2))
    {x : σ} (hx : I x [] []) {es : List (Event μ ρ)}
    (hadmits : Along (step handle) (Admits A) (start x) es) {s : State σ μ ρ}
    (hrun : exec (step handle) (start x) es = .ok s) :
    I s.parties s.log s.sent ∧ ∀ m ∈ s.arrived, m ∈ s.sent := by
  have hinv : Carried s ∧ I s.parties s.log s.sent :=
    Along.invariant (P := fun s => Carried s ∧ I s.parties s.log s.sent)
      (fun s e t ⟨hcarried, hI⟩ hallowed hstep => by
        refine ⟨step_carried hcarried hstep, ?_⟩
        obtain ⟨m, rfl, rfl⟩ | ⟨i, m, r, out, -, hm, hout, rfl⟩ | ⟨i, m, -, -, rfl⟩ |
          ⟨i, m, -, -, rfl⟩ := step_cases hstep
        · exact hsend hallowed hI
        · exact harrive hI hcarried.2 (hcarried.1 m (List.mem_of_getElem? hm)) hout
        · exact hI
        · exact hI)
      ⟨carried_start x, hx⟩ hadmits hrun
  exact ⟨hinv.2, hinv.1.2⟩

/-- **The rule for a network that does not duplicate**: nothing has arrived more often than it was
sent. -/
theorem arrived_subperm_sent {x : σ} {es : List (Event μ ρ)}
    (hno : Along (step handle) NoDuplicate (start x) es) {s : State σ μ ρ}
    (hrun : exec (step handle) (start x) es = .ok s) : s.arrived.Subperm s.sent := by
  have hstart : OnceEach (start x : State σ μ ρ) := List.Subperm.refl []
  have honce : OnceEach s :=
    Along.invariant (fun _ _ _ h hno hstep => step_onceEach h hno hstep) hstart hno hrun
  exact (List.sublist_append_right s.flight s.arrived).subperm.trans honce

/-! ## 4. What all messages have in common -/

/-- What is true of the messages from outside and of those the handler sends is true of all that are
on their way. -/
theorem step_flight {A P : μ → Prop} {I : σ → Prop} (hA : ∀ m, A m → P m)
    (hkeep : ∀ {x m r out}, I x → P m → handle x m r = .ok out → I out.1 ∧ ∀ m' ∈ out.2, P m')
    (h : I s.parties ∧ ∀ m ∈ s.flight, P m) (hallowed : Admits A s e)
    (hstep : step handle s e = .ok t) :
    I t.parties ∧ ∀ m ∈ t.flight, P m := by
  obtain ⟨hI, hP⟩ := h
  obtain ⟨m, rfl, rfl⟩ | ⟨i, m, r, out, -, hm, hout, rfl⟩ | ⟨i, m, -, hm, rfl⟩
      | ⟨i, m, -, hm, rfl⟩ :=
    step_cases hstep
  · refine ⟨hI, fun x hx => ?_⟩
    rcases List.mem_append.mp hx with hx | hx
    · exact hP x hx
    · rw [List.mem_singleton.mp hx]
      exact hA m hallowed
  · obtain ⟨hI', hout'⟩ := hkeep hI (hP m (List.mem_of_getElem? hm)) hout
    refine ⟨hI', fun x hx => ?_⟩
    rcases List.mem_append.mp hx with hx | hx
    · exact hP x (List.mem_of_mem_eraseIdx hx)
    · exact hout' x hx
  · exact ⟨hI, fun x hx => hP x (List.mem_of_mem_eraseIdx hx)⟩
  · refine ⟨hI, fun x hx => ?_⟩
    rcases List.mem_append.mp hx with hx | hx
    · exact hP x hx
    · rw [List.mem_singleton.mp hx]
      exact hP m (List.mem_of_getElem? hm)

/-- **A handler that never fails on such a message does not fail in a run.** -/
theorem handler_safe {A P : μ → Prop} {I : σ → Prop} (hA : ∀ m, A m → P m)
    (hkeep : ∀ {x m r out}, I x → P m → handle x m r = .ok out → I out.1 ∧ ∀ m' ∈ out.2, P m')
    {f : φ} (hsafe : ∀ {x m r}, I x → P m → handle x m r ≠ .error f) {x : σ} (hx : I x)
    {es : List (Event μ ρ)} (hadmits : Along (step handle) (Admits A) (start x) es) :
    exec (step handle) (start x) es ≠ .error (.handler f) := by
  refine Along.ne_error (P := fun s => I s.parties ∧ ∀ m ∈ s.flight, P m) ?_ ?_
    ⟨hx, by rintro m ⟨⟩⟩ hadmits
  · exact fun s e t h hallowed hstep => step_flight hA hkeep h hallowed hstep
  · intro s e h _ hstep
    cases e with
    | arrive i r =>
      simp only [step] at hstep
      cases hm : s.flight[i]? with
      | none =>
        rw [hm] at hstep
        cases hstep
      | some m =>
        rw [hm] at hstep
        dsimp only at hstep
        split at hstep
        · cases hstep
        · rename_i f' hf
          cases hstep
          exact hsafe h.1 (h.2 m (List.mem_of_getElem? hm)) hf
    | send m => cases hstep
    | lose i | duplicate i =>
      simp only [step] at hstep
      split at hstep <;> cases hstep

/-- **Handlers that agree on such a message have the same runs.** -/
theorem exec_congr {handle' : Handler σ μ ρ φ} {A P : μ → Prop} {I : σ → Prop} (hA : ∀ m, A m → P m)
    (hkeep : ∀ {x m r out}, I x → P m → handle x m r = .ok out → I out.1 ∧ ∀ m' ∈ out.2, P m')
    (hagree : ∀ {x m r}, I x → P m → handle x m r = handle' x m r) {es : List (Event μ ρ)} :
    ∀ {s : State σ μ ρ}, (I s.parties ∧ ∀ m ∈ s.flight, P m) → Along (step handle) (Admits A) s es →
      exec (step handle') s es = exec (step handle) s es := by
  induction es with
  | nil =>
    intro s _ _
    rfl
  | cons e es ih =>
    intro s h hadmits
    have hsame : step handle' s e = step handle s e := by
      cases e with
      | arrive i r =>
        simp only [step]
        cases hm : s.flight[i]? with
        | none => rfl
        | some m =>
          dsimp only
          rw [hagree h.1 (h.2 m (List.mem_of_getElem? hm))]
      | send m => rfl
      | lose i => rfl
      | duplicate i => rfl
    simp only [exec, hsame]
    cases hstep : step handle s e with
    | error f => rfl
    | ok t => exact ih (step_flight hA hkeep h hadmits.1 hstep) (hadmits.2 t hstep)

/-! ## 5. The same messages in another form -/

section

variable {ν : Type*}

def State.map (f : μ → ν) (s : State σ μ ρ) : State σ ν ρ where
  parties := s.parties
  flight := s.flight.map f
  sent := s.sent.map f
  log := s.log.map fun x => (f x.1, x.2)

def Event.map (f : μ → ν) : Event μ ρ → Event ν ρ
  | .send m => .send (f m)
  | .arrive i r => .arrive i r
  | .lose i => .lose i
  | .duplicate i => .duplicate i

/-- **One step**, when the handlers do the same with what can arrive now. -/
theorem step_map {handle' : Handler σ ν ρ φ} (f : μ → ν) (e : Event μ ρ)
    (hsim : ∀ m ∈ s.flight, ∀ r, handle' s.parties (f m) r =
      (handle s.parties m r).map fun out => (out.1, out.2.map f)) :
    step handle' (s.map f) (e.map f) = (step handle s e).map (State.map f) := by
  have hget : ∀ i, (s.map f).flight[i]? = s.flight[i]?.map f := fun i => List.getElem?_map
  cases e with
  | send m => simp [step, Event.map, State.map, Except.map]
  | arrive i r =>
    simp only [step, Event.map, hget]
    cases hm : s.flight[i]? with
    | none => rfl
    | some m =>
      have hsame : handle' (s.map f).parties (f m) r =
          (handle s.parties m r).map fun out => (out.1, out.2.map f) :=
        hsim m (List.mem_of_getElem? hm) r
      simp only [Option.map_some, hsame]
      cases handle s.parties m r with
      | error g => rfl
      | ok out => simp [Except.map, State.handled, State.map, List.eraseIdx_map]
  | lose i =>
    simp only [step, Event.map, hget]
    cases hm : s.flight[i]? with
    | none => rfl
    | some m => simp [Except.map, State.map, List.eraseIdx_map]
  | duplicate i =>
    simp only [step, Event.map, hget]
    cases hm : s.flight[i]? with
    | none => rfl
    | some m => simp [Except.map, State.map]

/-- **A handler that does the same with messages in another form has the same runs**, in that
form. -/
theorem exec_map {handle' : Handler σ ν ρ φ} (f : μ → ν) {A P : μ → Prop} {I : σ → Prop}
    (hA : ∀ m, A m → P m)
    (hkeep : ∀ {x m r out}, I x → P m → handle x m r = .ok out → I out.1 ∧ ∀ m' ∈ out.2, P m')
    (hsim : ∀ {x m r}, I x → P m → handle' x (f m) r =
      (handle x m r).map fun out => (out.1, out.2.map f)) {es : List (Event μ ρ)} :
    ∀ {s : State σ μ ρ}, (I s.parties ∧ ∀ m ∈ s.flight, P m) → Along (step handle) (Admits A) s es →
      exec (step handle') (s.map f) (es.map (Event.map f)) =
        (exec (step handle) s es).map (State.map f) := by
  induction es with
  | nil =>
    intro s _ _
    rfl
  | cons e es ih =>
    intro s h hadmits
    have hstep' : step handle' (s.map f) (e.map f) = (step handle s e).map (State.map f) :=
      step_map f e fun m hm r => hsim h.1 (h.2 m hm)
    simp only [List.map_cons, exec, hstep']
    cases hstep : step handle s e with
    | error g => rfl
    | ok t => exact ih (step_flight hA hkeep h hadmits.1 hstep) (hadmits.2 t hstep)

end

end Kknf.Network
