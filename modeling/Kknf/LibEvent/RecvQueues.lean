/-
# The receive queues: `PushMessageToRecvQueue` and `GetMessageFromRecvQueue`

The main thread gives each message to the shortest receive queue, and every queue has a consumer
that takes from it.  The search for the shortest queue takes no lock: while it goes on, and between
the two reads of one size, consumers take messages out.  The queue found is locked for the rest,
with the test whether it is full, so a queue may be shorter by then than it was seen, but not
longer: nobody else puts messages in.

That is enough for everything one asks of the queues (`recv_queues_correct`).  No queue grows past
`max_recv_queue_size_`, and -2 is returned only if every queue was full when the call began.  Each
queue is first in, first out (`Lib/Queues.lean`), with the pushes that returned 0 as what goes in.
A consumer sleeps only while its queue is empty, although the signal is given only to a queue of
size 1; so a consumer that goes on gets every message.

Between two locks a thread takes one step, and each read of a size without a lock is a step of its
own.  A call of the main thread keeps the sizes it saw, and those at its beginning, to speak about
them.  `tmp_which` in the lock of `GetMessageFromRecvQueue` is read as `which_queue`, and
`numerical<int>` as `numeric_limits<int>`; the size of a queue is an `int` as long as no queue grows
past its bound.  The number of queues is not 0, which the constructor of `NetFrame` checks.
-/
import Mathlib.Data.List.GetD
import Mathlib.Tactic.IntervalCases
import Kknf.Lib.Queues
import Kknf.Lib.Run

namespace Kknf.LibEvent.RecvQueues

open Kknf.Run
open Kknf.Queues (Trace puts takes)

/-! ## 1. Data -/

/-- `numeric_limits<int>::max()`. -/
def intMax : Nat := 2147483647

/-- A call of `PushMessageToRecvQueue`. -/
structure Call (μ : Type*) where
  inPack : μ
  /-- the sizes of the queues when the call began -/
  atCall : Nat → Nat
  /-- the sizes that the comparisons of the search saw so far, from queue 0 on -/
  observed : List Nat

/-- Where the main thread is. -/
inductive Pusher (μ : Type*)
  | outside
  /-- at the test of the loop -/
  | scan (c : Call μ) (i tmpMin tmpWhich : Nat)
  /-- queue `i` was shorter than the ones before; its size is read again -/
  | assign (c : Call μ) (i : Nat)

/-- Where the consumer of a queue is. -/
inductive Consumer
  | running
  /-- in `cv.Wait()` -/
  | waiting
  /-- on its way out of `cv.Wait()` -/
  | woken
  deriving DecidableEq

/-- A call that has returned. -/
inductive Return (μ : Type*)
  /-- -1, for a null pointer -/
  | pushInvalid
  | push (c : Call μ) (tmpWhich : Nat) (ret : Int)
  /-- -1 -/
  | getInvalid (whichQueue : Nat)
  /-- 0 -/
  | get (whichQueue : Nat) (pack : μ)

/-- The queues, the threads, and the calls that have returned. -/
structure State (μ : Type*) where
  queues : Nat → List μ := fun _ => []
  pusher : Pusher μ := .outside
  consumers : Nat → Consumer := fun _ => .running
  returns : List (Return μ) := []

inductive Fault
  /-- an event that cannot happen in this state -/
  | disabled
  deriving DecidableEq

/-! ## 2. The steps -/

section

variable {μ : Type*}

/-- The main thread calls `PushMessageToRecvQueue`. -/
def State.begin (s : State μ) : Option μ → State μ
  | none => { s with returns := s.returns ++ [.pushInvalid] }
  | some inPack =>
    { s with pusher := .scan ⟨inPack, fun q => (s.queues q).length, []⟩ 0 intMax 0 }

/-- `recv_queues_[i].size() < tmp_min`. -/
def State.compare (s : State μ) (c : Call μ) (i tmpMin tmpWhich : Nat) : State μ :=
  let size := (s.queues i).length
  let c := { c with observed := c.observed ++ [size] }
  if size < tmpMin then { s with pusher := .assign c i }
  else { s with pusher := .scan c (i + 1) tmpMin tmpWhich }

/-- `cv.Signal()` for the consumer of queue `q`. -/
def signal (consumers : Nat → Consumer) (q : Nat) : Nat → Consumer :=
  if consumers q = .waiting then Function.update consumers q .woken else consumers

/-- From the lock of the queue that was found to the return. -/
def State.append (s : State μ) (max : Nat) (c : Call μ) (tmpWhich : Nat) : State μ :=
  let queue := s.queues tmpWhich
  if queue.length = max then
    { s with pusher := .outside, returns := s.returns ++ [.push c tmpWhich (-2)] }
  else
    let queue := queue ++ [c.inPack]
    { queues := Function.update s.queues tmpWhich queue
      pusher := .outside
      consumers := if queue.length = 1 then signal s.consumers tmpWhich else s.consumers
      returns := s.returns ++ [.push c tmpWhich 0] }

/-- `GetMessageFromRecvQueue` from the lock on, whether taken at first or on the way out of
`cv.Wait()`: to the return, or to the next `cv.Wait()`. -/
def State.take (s : State μ) (whichQueue : Nat) : State μ :=
  match s.queues whichQueue with
  | [] => { s with consumers := Function.update s.consumers whichQueue .waiting }
  | pack :: rest =>
    { s with
      queues := Function.update s.queues whichQueue rest
      consumers := Function.update s.consumers whichQueue .running
      returns := s.returns ++ [.get whichQueue pack] }

inductive Event (μ : Type*)
  /-- the main thread calls `PushMessageToRecvQueue`; `none` is a null pointer -/
  | call (inPack : Option μ)
  /-- the main thread goes on in its call -/
  | push
  /-- a consumer calls `GetMessageFromRecvQueue`, or goes on in its call -/
  | get (whichQueue : Nat)
  /-- a consumer wakes up without a signal -/
  | wake (whichQueue : Nat)

/-- One step of `n` queues with the bound `max`. -/
def step (n max : Nat) (s : State μ) : Event μ → Except Fault (State μ)
  | .call inPack =>
    match s.pusher with
    | .outside => .ok (s.begin inPack)
    | _ => .error .disabled
  | .push =>
    match s.pusher with
    | .outside => .error .disabled
    | .scan c i tmpMin tmpWhich =>
      if i < n then .ok (s.compare c i tmpMin tmpWhich) else .ok (s.append max c tmpWhich)
    | .assign c i => .ok { s with pusher := .scan c (i + 1) (s.queues i).length i }
  | .get whichQueue =>
    if whichQueue ≥ n then .ok { s with returns := s.returns ++ [.getInvalid whichQueue] }
    else if s.consumers whichQueue = .waiting then .error .disabled
    else .ok (s.take whichQueue)
  | .wake whichQueue =>
    if s.consumers whichQueue = .waiting then
      .ok { s with consumers := Function.update s.consumers whichQueue .woken }
    else .error .disabled

/-- What a step can do. -/
inductive Steps (n max : Nat) (s : State μ) : Event μ → State μ → Prop
  | call {inPack : Option μ} (hp : s.pusher = .outside) :
      Steps n max s (.call inPack) (s.begin inPack)
  | compare {c : Call μ} {i tmpMin tmpWhich : Nat} (hp : s.pusher = .scan c i tmpMin tmpWhich)
      (hi : i < n) : Steps n max s .push (s.compare c i tmpMin tmpWhich)
  | append {c : Call μ} {i tmpMin tmpWhich : Nat} (hp : s.pusher = .scan c i tmpMin tmpWhich)
      (hi : ¬ i < n) : Steps n max s .push (s.append max c tmpWhich)
  | assign {c : Call μ} {i : Nat} (hp : s.pusher = .assign c i) :
      Steps n max s .push { s with pusher := .scan c (i + 1) (s.queues i).length i }
  | getInvalid {q : Nat} (hq : q ≥ n) :
      Steps n max s (.get q) { s with returns := s.returns ++ [.getInvalid q] }
  | take {q : Nat} (hq : ¬ q ≥ n) (hup : s.consumers q ≠ .waiting) :
      Steps n max s (.get q) (s.take q)
  | wake {q : Nat} (hwait : s.consumers q = .waiting) :
      Steps n max s (.wake q) { s with consumers := Function.update s.consumers q .woken }

theorem steps_of_step {n max : Nat} {s u : State μ} {e : Event μ} (h : step n max s e = .ok u) :
    Steps n max s e u := by
  unfold step at h
  split at h
  · split at h
    · rename_i hp
      cases h
      exact .call hp
    · cases h
  · split at h
    · cases h
    · rename_i hp
      split at h
      · rename_i hi
        cases h
        exact .compare hp hi
      · rename_i hi
        cases h
        exact .append hp hi
    · rename_i hp
      cases h
      exact .assign hp
  · split at h
    · rename_i hq
      cases h
      exact .getInvalid hq
    · rename_i hq
      split at h
      · cases h
      · rename_i hup
        cases h
        exact .take hq hup
  · split at h
    · rename_i hwait
      cases h
      exact .wake hwait
    · cases h

/-! ## 3. What is put in and taken out -/

/-- What the returns say about the queues. -/
def history (returns : List (Return μ)) : List (Queues.Event Nat μ) :=
  returns.filterMap fun
    | .push c tmpWhich ret => if ret = 0 then some (.put tmpWhich c.inPack) else none
    | .get whichQueue pack => some (.take whichQueue (some pack))
    | .pushInvalid | .getInvalid _ => none

/-- The messages of the pushes to queue `q` that returned 0, in order. -/
def accepted (s : State μ) (q : Nat) : List μ := puts q (history s.returns)

/-- The messages that the consumer of queue `q` got, in order. -/
def delivered (s : State μ) (q : Nat) : List μ := takes q (history s.returns)

/-- The search of the call saw every queue full, and every queue was full when it began. -/
def Call.SawFull (n max : Nat) (c : Call μ) : Prop :=
  c.observed.length = n ∧ (∀ size ∈ c.observed, size = max) ∧ ∀ q < n, c.atCall q = max

/-- An event of the main thread. -/
def Event.OfPusher : Event μ → Prop
  | .call _ | .push => True
  | .get _ | .wake _ => False

end

/-! ## 4. The invariant -/

section

variable {μ : Type*} {n max : Nat}

/-- What a call knows while it searches: the queues have not grown since it began. -/
structure Searching (n max : Nat) (queues : Nat → List μ) (c : Call μ) (seen : Nat) : Prop where
  shrunk : ∀ q, (queues q).length ≤ c.atCall q
  bound : ∀ q, c.atCall q ≤ max
  length_eq : c.observed.length = seen
  seen_le : seen ≤ n
  observed_le : ∀ q size, c.observed[q]? = some size → size ≤ c.atCall q

/-- The queue that was found is at most as long as every size seen. -/
def PusherOk (n max : Nat) (queues : Nat → List μ) : Pusher μ → Prop
  | .outside => True
  | .scan c i tmpMin tmpWhich =>
    Searching n max queues c i ∧ tmpWhich < n ∧ (queues tmpWhich).length ≤ tmpMin ∧
      ∀ size ∈ c.observed, tmpMin ≤ size
  | .assign c i =>
    Searching n max queues c (i + 1) ∧ ∀ size ∈ c.observed, (queues i).length ≤ size

/-- What holds between two steps. -/
structure Inv (n max : Nat) (s : State μ) : Prop where
  bound : ∀ q, (s.queues q).length ≤ max
  trace : Trace (fun _ => []) (history s.returns) s.queues
  asleep : ∀ q, s.consumers q = .waiting → s.queues q = []
  pusher : PusherOk n max s.queues s.pusher
  returned : ∀ c tmpWhich ret, .push c tmpWhich ret ∈ s.returns →
    ret = 0 ∨ ret = -2 ∧ c.SawFull n max

theorem Searching.mono {queues queues' : Nat → List μ} {c : Call μ} {seen : Nat}
    (h : Searching n max queues c seen) (hle : ∀ q, (queues' q).length ≤ (queues q).length) :
    Searching n max queues' c seen :=
  { h with shrunk := fun q => (hle q).trans (h.shrunk q) }

/-- A consumer does not disturb the search. -/
theorem PusherOk.mono {queues queues' : Nat → List μ} {p : Pusher μ} (h : PusherOk n max queues p)
    (hle : ∀ q, (queues' q).length ≤ (queues q).length) : PusherOk n max queues' p := by
  cases p with
  | outside => trivial
  | scan c i tmpMin tmpWhich =>
    obtain ⟨hc, hwhich, hmin, hseen⟩ := h
    exact ⟨hc.mono hle, hwhich, (hle tmpWhich).trans hmin, hseen⟩
  | assign c i =>
    obtain ⟨hc, hseen⟩ := h
    exact ⟨hc.mono hle, fun size hs => (hle i).trans (hseen size hs)⟩

/-- One more size is seen. -/
theorem Searching.see {queues : Nat → List μ} {c : Call μ} {i : Nat}
    (h : Searching n max queues c i) (hi : i < n) :
    Searching n max queues { c with observed := c.observed ++ [(queues i).length] } (i + 1) where
  shrunk := h.shrunk
  bound := h.bound
  length_eq := by rw [List.length_append, h.length_eq, List.length_singleton]
  seen_le := hi
  observed_le := by
    intro q size hq
    rw [List.getElem?_append] at hq
    split at hq
    · exact h.observed_le q size hq
    · rename_i hle
      obtain ⟨hlt, hsize⟩ := List.getElem?_eq_some_iff.mp hq
      have hqi : q = i := by
        rw [h.length_eq] at hle hlt
        rw [List.length_singleton] at hlt
        omega
      subst hqi
      rw [List.getElem_singleton] at hsize
      exact hsize ▸ h.shrunk q

/-- **A call that finds its queue full has seen every queue full**, and every queue was full when it
began. -/
theorem PusherOk.sawFull {queues : Nat → List μ} {c : Call μ} {i tmpMin tmpWhich : Nat}
    (h : PusherOk n max queues (.scan c i tmpMin tmpWhich)) (hi : ¬ i < n)
    (hfull : (queues tmpWhich).length = max) : c.SawFull n max := by
  obtain ⟨hc, -, hmin, hseen⟩ := h
  have hlen : c.observed.length = n := by
    have := hc.length_eq
    have := hc.seen_le
    omega
  have hle : ∀ q size, c.observed[q]? = some size → max ≤ size ∧ size ≤ c.atCall q := by
    intro q size hq
    have := hseen size (List.mem_of_getElem? hq)
    exact ⟨by omega, hc.observed_le q size hq⟩
  refine ⟨hlen, fun size hsize => ?_, fun q hq => ?_⟩
  · obtain ⟨q, hq⟩ := List.mem_iff_getElem?.mp hsize
    have := hle q size hq
    have := hc.bound q
    omega
  · have hget := List.getElem?_eq_getElem (hlen ▸ hq : q < c.observed.length)
    have := hle q _ hget
    have := hc.bound q
    omega

variable {s : State μ}

theorem history_append (returns : List (Return μ)) (r : Return μ) :
    history (returns ++ [r]) = history returns ++ history [r] := List.filterMap_append

/-- A return without a message says nothing about the queues. -/
theorem Inv.trace_append (h : Inv n max s) {r : Return μ} (hr : history [r] = []) :
    Trace (fun _ => []) (history (s.returns ++ [r])) s.queues := by
  rw [history_append, hr, List.append_nil]
  exact h.trace

/-- Only the last return has to be looked at. -/
theorem Inv.returned_append (h : Inv n max s) {r : Return μ}
    (hr : ∀ c tmpWhich ret, .push c tmpWhich ret = r → ret = 0 ∨ ret = -2 ∧ c.SawFull n max) :
    ∀ c tmpWhich ret, .push c tmpWhich ret ∈ s.returns ++ [r] →
      ret = 0 ∨ ret = -2 ∧ c.SawFull n max := by
  intro c tmpWhich ret hmem
  rcases List.mem_append.mp hmem with hold | hnew
  · exact h.returned c tmpWhich ret hold
  · exact hr c tmpWhich ret (List.mem_singleton.mp hnew)

end

/-! ## 5. The steps keep it -/

section

variable {μ : Type*} {n max : Nat} {s : State μ}

theorem Inv.start : Inv n max ({} : State μ) where
  bound := fun _ => Nat.zero_le max
  trace := .nil
  asleep := by
    rintro q ⟨⟩
  pusher := trivial
  returned := by
    rintro c tmpWhich ret ⟨⟩

theorem Inv.begin (h : Inv n max s) (hn : 0 < n) (hint : max ≤ intMax) (inPack : Option μ) :
    Inv n max (s.begin inPack) := by
  cases inPack with
  | none =>
    refine ⟨h.bound, h.trace_append rfl, h.asleep, h.pusher, h.returned_append ?_⟩
    rintro c tmpWhich ret ⟨⟩
  | some inPack =>
    refine ⟨h.bound, h.trace, h.asleep, ⟨⟨fun q => le_rfl, h.bound, rfl, Nat.zero_le n, ?_⟩, hn,
      (h.bound 0).trans hint, ?_⟩, h.returned⟩
    · rintro q size ⟨⟩
    · rintro size ⟨⟩

theorem Inv.compare (h : Inv n max s) {c : Call μ} {i tmpMin tmpWhich : Nat}
    (hp : s.pusher = .scan c i tmpMin tmpWhich) (hi : i < n) :
    Inv n max (s.compare c i tmpMin tmpWhich) := by
  have hok := h.pusher
  rw [hp] at hok
  obtain ⟨hc, hwhich, hmin, hseen⟩ := hok
  unfold State.compare
  dsimp only
  split
  · -- the new size is less than all that were seen before
    rename_i hlt
    refine ⟨h.bound, h.trace, h.asleep, ⟨hc.see hi, fun size hsize => ?_⟩, h.returned⟩
    dsimp only at hsize ⊢
    rcases List.mem_append.mp hsize with hold | hnew
    · have := hseen size hold
      omega
    · exact (List.mem_singleton.mp hnew).ge
  · rename_i hge
    refine ⟨h.bound, h.trace, h.asleep, ⟨hc.see hi, hwhich, hmin, fun size hsize => ?_⟩, h.returned⟩
    dsimp only at hsize ⊢
    rcases List.mem_append.mp hsize with hold | hnew
    · exact hseen size hold
    · rw [List.mem_singleton.mp hnew]
      exact not_lt.mp hge

theorem Inv.assign (h : Inv n max s) {c : Call μ} {i : Nat} (hp : s.pusher = .assign c i) :
    Inv n max { s with pusher := .scan c (i + 1) (s.queues i).length i } := by
  have hok := h.pusher
  rw [hp] at hok
  obtain ⟨hc, hseen⟩ := hok
  exact ⟨h.bound, h.trace, h.asleep, ⟨hc, hc.seen_le, le_rfl, hseen⟩, h.returned⟩

/-- A signal leaves asleep only who was asleep, and not the consumer it is for. -/
theorem signal_waiting {consumers : Nat → Consumer} {q q' : Nat}
    (h : signal consumers q q' = .waiting) : q' ≠ q ∧ consumers q' = .waiting := by
  unfold signal at h
  split at h
  · by_cases hq : q' = q
    · subst hq
      rw [Function.update_self] at h
      cases h
    · rw [Function.update_of_ne hq] at h
      exact ⟨hq, h⟩
  · rename_i hne
    refine ⟨?_, h⟩
    rintro rfl
    exact hne h

theorem Inv.append (h : Inv n max s) {c : Call μ} {i tmpMin tmpWhich : Nat}
    (hp : s.pusher = .scan c i tmpMin tmpWhich) (hi : ¬ i < n) :
    Inv n max (s.append max c tmpWhich) := by
  unfold State.append
  dsimp only
  split
  · rename_i hfull
    have hok := h.pusher
    rw [hp] at hok
    refine ⟨h.bound, h.trace_append rfl, h.asleep, trivial, h.returned_append ?_⟩
    rintro c' tmpWhich' ret ⟨⟩
    exact Or.inr ⟨rfl, hok.sawFull hi hfull⟩
  · rename_i hroom
    refine ⟨fun q => ?_, ?_, fun q hq => ?_, trivial, h.returned_append ?_⟩
    · dsimp only
      by_cases hq : q = tmpWhich
      · subst hq
        have := h.bound q
        rw [Function.update_self, List.length_append, List.length_singleton]
        omega
      · rw [Function.update_of_ne hq]
        exact h.bound q
    · rw [history_append]
      exact h.trace.snoc (.put tmpWhich c.inPack)
    · -- a consumer that sleeps on after this sleeps at another queue
      dsimp only at hq
      have hold : s.consumers q = .waiting := by
        split at hq
        · exact (signal_waiting hq).2
        · exact hq
      have hne : q ≠ tmpWhich := by
        rintro rfl
        rw [h.asleep q hold, List.nil_append, if_pos List.length_singleton] at hq
        exact (signal_waiting hq).1 rfl
      dsimp only
      rw [Function.update_of_ne hne]
      exact h.asleep q hold
    · rintro c' tmpWhich' ret ⟨⟩
      exact Or.inl rfl

theorem Inv.take (h : Inv n max s) (q : Nat) : Inv n max (s.take q) := by
  unfold State.take
  split
  · rename_i hnil
    refine ⟨h.bound, h.trace, fun q' hq' => ?_, h.pusher, h.returned⟩
    by_cases heq : q' = q
    · rw [heq, hnil]
    · dsimp only at hq'
      rw [Function.update_of_ne heq] at hq'
      exact h.asleep q' hq'
  · rename_i pack rest hcons
    have hle : ∀ q', (Function.update s.queues q rest q').length ≤ (s.queues q').length := by
      intro q'
      by_cases heq : q' = q
      · subst heq
        rw [Function.update_self, hcons]
        exact Nat.le_succ _
      · rw [Function.update_of_ne heq]
    refine ⟨fun q' => (hle q').trans (h.bound q'), ?_, fun q' hq' => ?_, h.pusher.mono hle,
      h.returned_append ?_⟩
    · rw [history_append]
      exact h.trace.snoc (.takeSome hcons)
    · have heq : q' ≠ q := by
        rintro rfl
        dsimp only at hq'
        rw [Function.update_self] at hq'
        cases hq'
      dsimp only at hq' ⊢
      rw [Function.update_of_ne heq] at hq' ⊢
      exact h.asleep q' hq'
    · rintro c tmpWhich ret ⟨⟩

theorem Inv.getInvalid (h : Inv n max s) (q : Nat) :
    Inv n max { s with returns := s.returns ++ [.getInvalid q] } := by
  refine ⟨h.bound, h.trace_append rfl, h.asleep, h.pusher, h.returned_append ?_⟩
  rintro c tmpWhich ret ⟨⟩

theorem Inv.wake (h : Inv n max s) (q : Nat) :
    Inv n max { s with consumers := Function.update s.consumers q .woken } := by
  refine ⟨h.bound, h.trace, fun q' hq' => ?_, h.pusher, h.returned⟩
  dsimp only at hq'
  by_cases heq : q' = q
  · subst heq
    rw [Function.update_self] at hq'
    cases hq'
  · rw [Function.update_of_ne heq] at hq'
    exact h.asleep q' hq'

/-- **Every step keeps the invariant.** -/
theorem Inv.step (h : Inv n max s) (hn : 0 < n) (hint : max ≤ intMax) {e : Event μ} {u : State μ}
    (hu : step n max s e = .ok u) : Inv n max u := by
  cases steps_of_step hu with
  | call _ => exact h.begin hn hint _
  | compare hp hi => exact h.compare hp hi
  | append hp hi => exact h.append hp hi
  | assign hp => exact h.assign hp
  | getInvalid _ => exact h.getInvalid _
  | take _ _ => exact h.take _
  | wake _ => exact h.wake _

end

/-! ## 6. Runs -/

section

variable {μ : Type*} {n max : Nat} {s u : State μ} {e : Event μ}

/-- In a state of a run, a queue holds what was accepted and not yet delivered. -/
theorem Inv.fifo (h : Inv n max s) (q : Nat) : accepted s q = delivered s q ++ s.queues q := by
  have hfifo := h.trace.fifo q
  rw [List.nil_append] at hfifo
  exact hfifo

/-- **The main thread changes a queue only with the step that returns 0**, and then puts the message
at the back of that queue. -/
theorem push_step (he : e.OfPusher) (hu : step n max s e = .ok u) :
    u.queues = s.queues ∨ ∃ (c : Call μ) (tmpWhich : Nat),
      u.returns = s.returns ++ [Return.push c tmpWhich 0] ∧
      u.queues = Function.update s.queues tmpWhich (s.queues tmpWhich ++ [c.inPack]) := by
  cases steps_of_step hu with
  | @call inPack _ =>
    cases inPack with
    | none => exact Or.inl rfl
    | some m => exact Or.inl rfl
  | compare _ _ =>
    unfold State.compare
    dsimp only
    split
    · exact Or.inl rfl
    · exact Or.inl rfl
  | @append c i tmpMin tmpWhich _ _ =>
    unfold State.append
    dsimp only
    split
    · exact Or.inl rfl
    · exact Or.inr ⟨c, tmpWhich, rfl, rfl⟩
  | assign _ => exact Or.inl rfl
  | getInvalid _ => exact he.elim
  | take _ _ => exact he.elim
  | wake _ => exact he.elim

/-- Returns are not taken back. -/
theorem returns_isPrefix (hu : step n max s e = .ok u) : s.returns <+: u.returns := by
  cases steps_of_step hu with
  | @call inPack _ =>
    cases inPack with
    | none => exact List.prefix_append _ _
    | some m => exact List.prefix_rfl
  | compare _ _ =>
    unfold State.compare
    dsimp only
    split
    · exact List.prefix_rfl
    · exact List.prefix_rfl
  | append _ _ =>
    unfold State.append
    dsimp only
    split
    · exact List.prefix_append _ _
    · exact List.prefix_append _ _
  | assign _ => exact List.prefix_rfl
  | getInvalid _ => exact List.prefix_append _ _
  | take _ _ =>
    unfold State.take
    split
    · exact List.prefix_rfl
    · exact List.prefix_append _ _
  | wake _ => exact List.prefix_rfl

theorem accepted_isPrefix (q : Nat) (hu : step n max s e = .ok u) :
    accepted s q <+: accepted u q :=
  ((returns_isPrefix hu).filterMap _).filterMap _

theorem delivered_isPrefix (q : Nat) (hu : step n max s e = .ok u) :
    delivered s q <+: delivered u q :=
  ((returns_isPrefix hu).filterMap _).filterMap _

/-- **A consumer that goes on while its queue has messages gets the first one.** -/
theorem get_delivers {q : Nat} (hq : q < n) (hne : s.queues q ≠ [])
    (hu : step n max s (.get q) = .ok u) : ∃ pack, delivered u q = delivered s q ++ [pack] := by
  cases steps_of_step hu with
  | getInvalid hge => exact absurd hq (not_lt.mpr hge)
  | take _ _ =>
    obtain ⟨pack, rest, hcons⟩ := List.exists_cons_of_ne_nil hne
    refine ⟨pack, ?_⟩
    have htake : (s.take q).returns = s.returns ++ [Return.get q pack] := by
      rw [State.take, hcons]
    have hlast : takes q (history [Return.get q pack]) = [pack] := by
      simp [history, takes]
    rw [delivered, htake, history_append, takes, List.filterMap_append]
    exact congrArg (delivered s q ++ ·) hlast

/-- The consumer of queue `q` goes on, again and again, unless it is asleep. -/
def Fair (run : Nat → State μ) (events : Nat → Event μ) (q : Nat) : Prop :=
  ∀ i, ∃ j ≥ i, events j = .get q ∨ (run j).consumers q = .waiting

section

variable {run : Nat → State μ} {events : Nat → Event μ} {q : Nat}

/-- One message more is delivered, as long as there is one. -/
theorem delivers_more (hrun : Endless (step n max) run events) (hinv : ∀ i, Inv n max (run i))
    (hq : q < n) (hfair : Fair run events q) {i : Nat}
    (hmore : (delivered (run i) q).length < (accepted (run i) q).length) :
    ∃ j ≥ i, (delivered (run i) q).length < (delivered (run j) q).length := by
  obtain ⟨j, hij, hj⟩ := hfair i
  have hdel := (hrun.isPrefix (fun _ _ _ => delivered_isPrefix q) hij).length_le
  have hacc := (hrun.isPrefix (fun _ _ _ => accepted_isPrefix q) hij).length_le
  by_cases hmore' : (delivered (run i) q).length < (delivered (run j) q).length
  · exact ⟨j, hij, hmore'⟩
  -- nothing has come in between, so the queue still has a message
  have hne : (run j).queues q ≠ [] := by
    intro hnil
    have hfifo := (hinv j).fifo q
    rw [hnil, List.append_nil] at hfifo
    rw [hfifo] at hacc
    omega
  rcases hj with hget | hwait
  · have hstep := hrun j
    rw [hget] at hstep
    obtain ⟨pack, hpack⟩ := get_delivers hq hne hstep
    refine ⟨j + 1, by omega, ?_⟩
    rw [hpack, List.length_append, List.length_singleton]
    omega
  · exact absurd ((hinv j).asleep q hwait) hne

/-- **A consumer that goes on gets everything that is accepted**, each message at its place. -/
theorem eventually_delivered (hrun : Endless (step n max) run events)
    (hinv : ∀ i, Inv n max (run i)) (hq : q < n) (hfair : Fair run events q) {i k : Nat} {m : μ}
    (hk : (accepted (run i) q)[k]? = some m) : ∃ j, (delivered (run j) q)[k]? = some m := by
  -- by induction on what is missing
  have hreach : ∀ d, ∃ j ≥ i, min (k + 1) d ≤ (delivered (run j) q).length := by
    intro d
    induction d with
    | zero => exact ⟨i, le_rfl, by omega⟩
    | succ d ih =>
      obtain ⟨j, hij, hj⟩ := ih
      have hacc := (hrun.isPrefix (fun _ _ _ => accepted_isPrefix q) hij).length_le
      have hlt := (List.getElem?_eq_some_iff.mp hk).1
      by_cases hdone : k < (delivered (run j) q).length
      · exact ⟨j, hij, by omega⟩
      · obtain ⟨j', hjj', hj'⟩ := delivers_more hrun hinv hq hfair (i := j) (by omega)
        exact ⟨j', hij.trans hjj', by omega⟩
  obtain ⟨j, hij, hj⟩ := hreach (k + 1)
  rw [min_self] at hj
  refine ⟨j, ?_⟩
  obtain ⟨later, hlater⟩ := hrun.isPrefix (fun _ _ _ => accepted_isPrefix q) hij
  have hlt := (List.getElem?_eq_some_iff.mp hk).1
  calc (delivered (run j) q)[k]?
      = (accepted (run j) q)[k]? := by rw [(hinv j).fifo q, List.getElem?_append_left hj]
    _ = (accepted (run i) q)[k]? := by rw [← hlater, List.getElem?_append_left hlt]
    _ = some m := hk

end

/-- **The receive queues are right**, in every run.  No queue is longer than its bound; each queue
is first in, first out, and holds what was accepted and not yet delivered; a push returns 0, or -2
after it has seen every queue full; it changes a queue only by returning 0; and a consumer that goes
on gets every message that is accepted for it. -/
theorem recv_queues_correct (hn : 0 < n) (hint : max ≤ intMax) :
    (∀ (es : List (Event μ)) t, exec (step n max) {} es = .ok t →
      (∀ q, (t.queues q).length ≤ max) ∧
      (∀ q, accepted t q = delivered t q ++ t.queues q) ∧
      (∀ c tmpWhich ret, .push c tmpWhich ret ∈ t.returns →
        ret = 0 ∨ ret = -2 ∧ c.SawFull n max) ∧
      ∀ e u, e.OfPusher → step n max t e = .ok u →
        u.queues = t.queues ∨ ∃ (c : Call μ) (tmpWhich : Nat),
          u.returns = t.returns ++ [Return.push c tmpWhich 0] ∧
          u.queues = Function.update t.queues tmpWhich (t.queues tmpWhich ++ [c.inPack])) ∧
    ∀ (run : Nat → State μ) events, Endless (step n max) run events → run 0 = {} →
      ∀ q < n, Fair run events q → ∀ (i k : Nat) (m : μ), (accepted (run i) q)[k]? = some m →
        ∃ j, (delivered (run j) q)[k]? = some m := by
  constructor
  · intro es t hexec
    have halong : Along (step n max) (fun _ _ => True) {} es := along_of_forall fun _ _ _ => trivial
    have hinv : Inv n max t :=
      halong.invariant (fun t e u ht _ hu => ht.step hn hint hu) Inv.start hexec
    exact ⟨hinv.bound, hinv.fifo, hinv.returned, fun e u => push_step⟩
  · intro run events hrun hstart q hq hfair i k m hk
    have hinv : ∀ i, Inv n max (run i) :=
      hrun.invariant (hstart ▸ Inv.start) fun t e u ht hu => ht.step hn hint hu
    exact eventually_delivered hrun hinv hq hfair hk

end

/-! ## 7. Two queues of size 1 -/

/-- The consumer of queue 0 sleeps; the main thread puts in 7 and 8 and, with both queues full, 9 in
vain; the consumer of queue 0 wakes up, takes 7 and sleeps again. -/
def twoQueues : List (Event Nat) :=
  [.get 0,
    .call (some 7), .push, .push, .push, .push,
    .call (some 8), .push, .push, .push, .push, .push,
    .call (some 9), .push, .push, .push, .push,
    .get 0, .get 0]

/-- After that somebody asks for a queue that is not there, for ever. -/
def twoQueuesOn (i : Nat) : Event Nat := twoQueues.getD i (.get 2)

def twoQueuesRun : Nat → State Nat
  | 0 => {}
  | i + 1 =>
    match step 2 1 (twoQueuesRun i) (twoQueuesOn i) with
    | .ok u => u
    | .error _ => twoQueuesRun i

theorem twoQueues_endless : Endless (step 2 1) twoQueuesRun twoQueuesOn := by
  intro i
  rcases Nat.lt_or_ge i 19 with hlt | hge
  · interval_cases i <;> rfl
  · have hon : twoQueuesOn i = .get 2 := List.getD_eq_default _ _ hge
    rw [twoQueuesRun, hon]
    rfl

theorem twoQueues_fair : Fair twoQueuesRun twoQueuesOn 0 := by
  have hasleep : ∀ d, (twoQueuesRun (19 + d)).consumers 0 = .waiting := by
    intro d
    induction d with
    | zero => rfl
    | succ d ih =>
      have hon : twoQueuesOn (19 + d) = .get 2 := List.getD_eq_default _ _ (Nat.le_add_right _ _)
      rw [← Nat.add_assoc, twoQueuesRun, hon]
      exact ih
  intro i
  exact ⟨19 + i, by omega, Or.inr (hasleep i)⟩

/-- One message is delivered, one waits, and the third one found both queues full. -/
theorem twoQueues_correct :
    (∃ t, exec (step 2 1) {} twoQueues = .ok t ∧ (∀ q, (t.queues q).length ≤ 1) ∧
      (∀ q, accepted t q = delivered t q ++ t.queues q) ∧ delivered t 0 = [7] ∧
      accepted t 1 = [8]) ∧
    ∃ j, (delivered (twoQueuesRun j) 0)[0]? = some 7 := by
  obtain ⟨hruns, hendless⟩ := @recv_queues_correct Nat 2 1 (by decide) (by decide)
  constructor
  · obtain ⟨hbound, hfifo, -⟩ := hruns twoQueues _ rfl
    exact ⟨_, rfl, hbound, hfifo, rfl, rfl⟩
  · exact hendless twoQueuesRun twoQueuesOn twoQueues_endless rfl 0 (by decide)
      twoQueues_fair 19 0 7
      rfl

end Kknf.LibEvent.RecvQueues
