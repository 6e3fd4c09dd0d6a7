/-
# The hand-back of sockets and its deadlock

`InsertServerReuseSocket` sends the notification byte while it holds
`server_socket_reuse_list_mutex_`, and the local socket pair holds only so many bytes.  The epoll
thread, which alone reads them, takes the same mutex in `GetServerReuseSocketList` after its drain.
So when the pair is filled between the drain and the lock, a worker blocks in `send` with the mutex
held, and the epoll thread blocks on the mutex: neither ever goes on (`deadlocked_forever`).

This file looks at these two functions more closely than `Server.lean`, where each is one step: here
the lock, the push, the send and the unlock are steps of their own, `capacity` is what the pair
holds, and a step that would block is not possible in the state.  `no_deadlock_iff` says when the
deadlock comes about, and `deadlock_at_every_capacity` that no capacity is large enough.
-/
import Mathlib.Logic.Function.Basic
import Kknf.Lib.Run
import Kknf.AllSync.Server

namespace Kknf.AllSync.HandBack

open Kknf.Run

/-! ## 1. The two functions, statement by statement -/

/-- Where a worker is in `InsertServerReuseSocket`. -/
inductive WorkerPc
  | outside
  /-- at `pthread_mutex_lock` -/
  | locking (poolIndex : Nat) (sk : Ptr)
  /-- at `push_back`, with the mutex -/
  | pushing (poolIndex : Nat) (sk : Ptr)
  /-- at `send`, with the mutex -/
  | sending
  /-- at `pthread_mutex_unlock`, with the mutex -/
  | unlocking
  deriving DecidableEq

/-- Where the epoll thread is in the local socket branch of `EpollProcess`. -/
inductive EpollPc
  | outside
  /-- in the `recv` loop -/
  | draining
  /-- in `GetServerReuseSocketList`, at `pthread_mutex_lock` -/
  | locking
  /-- at the swap, with the mutex -/
  | swapping
  /-- at `pthread_mutex_unlock`, with the mutex -/
  | unlocking
  deriving DecidableEq

/-- Who holds `server_socket_reuse_list_mutex_`. -/
inductive Holder (W : Type)
  | worker (w : W)
  | epoll
  deriving DecidableEq

structure State (W : Type) where
  /-- the notification bytes in the local socket pair -/
  bytes : Nat
  mutex : Option (Holder W)
  reuseList : SkMap
  worker : W → WorkerPc
  epoll : EpollPc

/-- One step of one thread. -/
inductive Action (W : Type)
  /-- a worker calls `InsertServerReuseSocket` -/
  | call (w : W) (poolIndex : Nat) (sk : Ptr)
  | lock (w : W)
  | push (w : W)
  | send (w : W)
  | unlock (w : W)
  /-- the local socket triggers -/
  | trigger
  /-- `recv` returns this many bytes -/
  | recv (n : Nat)
  | epollLock
  | swap
  | epollUnlock

/-- Why a step is not taken. -/
inductive Fault
  /-- the thread is not there, or it would block -/
  | disabled
  deriving DecidableEq

variable {W : Type}

/-- A worker goes on to `pc`. -/
def goTo [DecidableEq W] (s : State W) (w : W) (pc : WorkerPc) : State W :=
  { s with worker := Function.update s.worker w pc }

/-- One step, when the local socket pair holds `capacity` bytes. -/
def step [DecidableEq W] (capacity : Nat) (s : State W) : Action W → Except Fault (State W)
  | .call w poolIndex sk =>
    match s.worker w with
    | .outside => .ok (goTo s w (.locking poolIndex sk))
    | _ => .error .disabled
  | .lock w =>
    match s.worker w, s.mutex with
    | .locking poolIndex sk, none =>
      .ok (goTo { s with mutex := some (.worker w) } w (.pushing poolIndex sk))
    | _, _ => .error .disabled
  | .push w =>
    match s.worker w with
    | .pushing poolIndex sk =>
      .ok (goTo { s with reuseList := s.reuseList.pushBack poolIndex sk } w .sending)
    | _ => .error .disabled
  | .send w =>
    match s.worker w with
    | .sending =>
      if s.bytes < capacity then .ok (goTo { s with bytes := s.bytes + 1 } w .unlocking)
      else .error .disabled
    | _ => .error .disabled
  | .unlock w =>
    match s.worker w with
    | .unlocking => .ok (goTo { s with mutex := none } w .outside)
    | _ => .error .disabled
  | .trigger =>
    match s.epoll with
    | .outside => if 0 < s.bytes then .ok { s with epoll := .draining } else .error .disabled
    | _ => .error .disabled
  | .recv n =>
    match s.epoll with
    | .draining =>
      if 0 < n ∧ n ≤ s.bytes ∧ n ≤ 1024 then
        .ok { s with bytes := s.bytes - n, epoll := if n = 1024 then .draining else .locking }
      else .error .disabled
    | _ => .error .disabled
  | .epollLock =>
    match s.epoll, s.mutex with
    | .locking, none => .ok { s with epoll := .swapping, mutex := some .epoll }
    | _, _ => .error .disabled
  | .swap =>
    match s.epoll with
    | .swapping => .ok { s with reuseList := StdMap.empty, epoll := .unlocking }
    | _ => .error .disabled
  | .epollUnlock =>
    match s.epoll with
    | .unlocking => .ok { s with mutex := none, epoll := .outside }
    | _ => .error .disabled

/-- What a step can be: each action with where it finds its thread, and the state after it. -/
inductive Steps [DecidableEq W] (capacity : Nat) (s : State W) : Action W → State W → Prop
  | call {w : W} {poolIndex : Nat} {sk : Ptr} (hw : s.worker w = .outside) :
      Steps capacity s (.call w poolIndex sk) (goTo s w (.locking poolIndex sk))
  | lock {w : W} {poolIndex : Nat} {sk : Ptr} (hw : s.worker w = .locking poolIndex sk)
      (hfree : s.mutex = none) : Steps capacity s (.lock w)
        (goTo { s with mutex := some (.worker w) } w (.pushing poolIndex sk))
  | push {w : W} {poolIndex : Nat} {sk : Ptr} (hw : s.worker w = .pushing poolIndex sk) :
      Steps capacity s (.push w)
        (goTo { s with reuseList := s.reuseList.pushBack poolIndex sk } w .sending)
  | send {w : W} (hw : s.worker w = .sending) (hlt : s.bytes < capacity) :
      Steps capacity s (.send w) (goTo { s with bytes := s.bytes + 1 } w .unlocking)
  | unlock {w : W} (hw : s.worker w = .unlocking) :
      Steps capacity s (.unlock w) (goTo { s with mutex := none } w .outside)
  | trigger (he : s.epoll = .outside) (hpos : 0 < s.bytes) :
      Steps capacity s .trigger { s with epoll := .draining }
  | recv {n : Nat} (he : s.epoll = .draining) (hn : 0 < n ∧ n ≤ s.bytes ∧ n ≤ 1024) :
      Steps capacity s (.recv n)
        { s with bytes := s.bytes - n, epoll := if n = 1024 then .draining else .locking }
  | epollLock (he : s.epoll = .locking) (hfree : s.mutex = none) :
      Steps capacity s .epollLock { s with epoll := .swapping, mutex := some .epoll }
  | swap (he : s.epoll = .swapping) :
      Steps capacity s .swap { s with reuseList := StdMap.empty, epoll := .unlocking }
  | epollUnlock (he : s.epoll = .unlocking) :
      Steps capacity s .epollUnlock { s with mutex := none, epoll := .outside }

/-- **Inversion of a step.** -/
theorem steps_of_step [DecidableEq W] {capacity : Nat} {s t : State W} {a : Action W}
    (hst : step capacity s a = .ok t) : Steps capacity s a t := by
  cases a with
  | call w poolIndex sk =>
    simp only [step] at hst
    split at hst <;> cases hst
    rename_i hw
    exact .call hw
  | lock w =>
    simp only [step] at hst
    split at hst <;> cases hst
    rename_i hw hfree
    exact .lock hw hfree
  | push w =>
    simp only [step] at hst
    split at hst <;> cases hst
    rename_i hw
    exact .push hw
  | send w =>
    simp only [step] at hst
    split at hst
    · rename_i hw
      split at hst <;> cases hst
      rename_i hlt
      exact .send hw hlt
    · cases hst
  | unlock w =>
    simp only [step] at hst
    split at hst <;> cases hst
    rename_i hw
    exact .unlock hw
  | trigger =>
    simp only [step] at hst
    split at hst
    · rename_i he
      split at hst <;> cases hst
      rename_i hpos
      exact .trigger he hpos
    · cases hst
  | recv n =>
    simp only [step] at hst
    split at hst
    · rename_i he
      split at hst <;> cases hst
      rename_i hn
      exact .recv he hn
    · cases hst
  | epollLock =>
    simp only [step] at hst
    split at hst <;> cases hst
    rename_i he hfree
    exact .epollLock he hfree
  | swap =>
    simp only [step] at hst
    split at hst <;> cases hst
    rename_i he
    exact .swap he
  | epollUnlock =>
    simp only [step] at hst
    split at hst <;> cases hst
    rename_i he
    exact .epollUnlock he

/-- Nobody is in either function. -/
def start (W : Type) : State W where
  bytes := 0
  mutex := none
  reuseList := StdMap.empty
  worker := fun _ => .outside
  epoll := .outside

/-! ## 2. The deadlock -/

/-- A worker is blocked in `send` with the mutex, and the epoll thread waits for the mutex. -/
def Deadlocked (capacity : Nat) (s : State W) : Prop :=
  ∃ w, s.worker w = .sending ∧ s.mutex = some (.worker w) ∧ capacity ≤ s.bytes ∧
    s.epoll = .locking

/-- No worker comes to its `send` while the pair is full and the epoll thread stands between its
drain and its lock. -/
def RoomAtSend (capacity : Nat) (s : State W) : Action W → Prop
  | .push _ => s.epoll = .locking → s.bytes < capacity
  | _ => True

instance (capacity : Nat) (s : State W) : ∀ a, Decidable (RoomAtSend capacity s a)
  | .push _ => inferInstanceAs (Decidable (s.epoll = .locking → s.bytes < capacity))
  | .call _ _ _ | .lock _ | .send _ | .unlock _ | .trigger | .recv _ | .epollLock | .swap
  | .epollUnlock => isTrue trivial

/-- The thread is between its lock and its unlock. -/
def Holds (s : State W) : Holder W → Prop
  | .worker w => (∃ poolIndex sk, s.worker w = .pushing poolIndex sk) ∨ s.worker w = .sending ∨
      s.worker w = .unlocking
  | .epoll => s.epoll = .swapping ∨ s.epoll = .unlocking

/-- The mutex excludes. -/
def Excluded (s : State W) : Prop := ∀ x, Holds s x → s.mutex = some x

section

variable {capacity : Nat} {s t : State W} {a : Action W} {x : Holder W}

theorem Excluded.kept (h : Excluded s) (hmutex : t.mutex = s.mutex)
    (hholds : ∀ y, Holds t y → Holds s y) : Excluded t := by
  intro y hy
  rw [hmutex]
  exact h y (hholds y hy)

theorem Excluded.acquired (h : Excluded s) (hfree : s.mutex = none) (hmutex : t.mutex = some x)
    (hholds : ∀ y, y ≠ x → Holds t y → Holds s y) : Excluded t := by
  intro y hy
  by_cases hyx : y = x
  · rw [hmutex, hyx]
  · have hheld := (h y (hholds y hyx hy)).symm.trans hfree
    cases hheld

/-- Nobody else was between lock and unlock. -/
theorem Excluded.released (h : Excluded s) (hx : Holds s x) (hgone : ¬ Holds t x)
    (hholds : ∀ y, Holds t y → Holds s y) : Excluded t := by
  intro y hy
  have hyx : y = x := by
    have hboth := (h y (hholds y hy)).symm.trans (h x hx)
    exact Option.some.inj hboth
  exact absurd (hyx ▸ hy) hgone

/-- A step that neither brings a worker to its `send`, nor fills the pair, nor brings the epoll
thread to its lock. -/
theorem free_of_kept (hfree : ¬ Deadlocked capacity s) (hmutex : t.mutex = s.mutex ∨ t.mutex = none)
    (hworker : ∀ w, t.worker w = .sending → s.worker w = .sending) (hbytes : t.bytes ≤ s.bytes)
    (hepoll : t.epoll = .locking → s.epoll = .locking) : ¬ Deadlocked capacity t := by
  rintro ⟨w, hw, hm, hfull, he⟩
  rcases hmutex with hmutex | hmutex
  · exact hfree ⟨w, hworker w hw, hmutex ▸ hm, hfull.trans hbytes, hepoll he⟩
  · cases hmutex.symm.trans hm

variable [DecidableEq W]

theorem worker_goTo (s : State W) (w v : W) (pc : WorkerPc) :
    (goTo s w pc).worker v = if v = w then pc else s.worker v := by
  by_cases hv : v = w
  · subst hv
    simp [goTo]
  · simp [goTo, hv]

/-- The other threads are where they were. -/
theorem holds_goTo_other {w : W} {pc : WorkerPc} {y : Holder W} (hy : y ≠ .worker w)
    (h : Holds (goTo s w pc) y) : Holds s y := by
  cases y with
  | epoll => exact h
  | worker v =>
    have hv : v ≠ w := fun e => hy (e ▸ rfl)
    simpa only [Holds, worker_goTo, if_neg hv] using h

/-- A worker goes from one place inside to another, or stays outside. -/
theorem holds_goTo {w : W} {pc : WorkerPc} {y : Holder W}
    (hw : Holds (goTo s w pc) (.worker w) → Holds s (.worker w)) (h : Holds (goTo s w pc) y) :
    Holds s y := by
  by_cases hy : y = .worker w
  · rw [hy] at h ⊢
    exact hw h
  · exact holds_goTo_other hy h

theorem step_excluded (h : Excluded s) (hst : step capacity s a = .ok t) : Excluded t := by
  cases steps_of_step hst with
  | call hw => exact h.kept rfl fun y => holds_goTo (by simp [Holds, goTo])
  | @lock w poolIndex sk hw hfree =>
    exact h.acquired hfree rfl fun y hy hholds =>
      holds_goTo_other (s := { s with mutex := some (.worker w) }) hy hholds
  | push hw =>
    exact h.kept rfl fun y hholds =>
      holds_goTo (s := { s with reuseList := _ }) (fun _ => .inl ⟨_, _, hw⟩) hholds
  | send hw hlt =>
    exact h.kept rfl fun y hholds =>
      holds_goTo (s := { s with bytes := _ }) (fun _ => .inr (.inl hw)) hholds
  | @unlock w hw =>
    refine h.released (x := .worker w) (.inr (.inr hw)) (by simp [Holds, goTo]) fun y hholds => ?_
    exact holds_goTo (s := { s with mutex := none }) (by simp [Holds, goTo]) hholds
  | trigger he hpos =>
    refine h.kept rfl fun y hy => ?_
    cases y with
    | worker v => exact hy
    | epoll => simp [Holds] at hy
  | recv he hn =>
    refine h.kept rfl fun y hy => ?_
    cases y with
    | worker v => exact hy
    | epoll =>
      simp only [Holds] at hy
      split at hy <;> simp at hy
  | epollLock he hfree =>
    refine h.acquired hfree rfl fun y hy hholds => ?_
    cases y with
    | worker v => exact hholds
    | epoll => exact absurd rfl hy
  | swap he =>
    refine h.kept rfl fun y hy => ?_
    cases y with
    | worker v => exact hy
    | epoll => exact .inl he
  | epollUnlock he =>
    refine h.released (x := .epoll) (.inr he) (by simp [Holds]) fun y hy => ?_
    cases y with
    | worker v => exact hy
    | epoll => exact .inr he

theorem sending_goTo {w v : W} {pc : WorkerPc} (hpc : pc ≠ .sending)
    (h : (goTo s w pc).worker v = .sending) : s.worker v = .sending := by
  rw [worker_goTo] at h
  split at h
  · exact absurd h hpc
  · exact h

/-- **One step does not deadlock**, if a worker that comes to its `send` finds room or the epoll
thread elsewhere. -/
theorem step_free (hex : Excluded s) (hbound : s.bytes ≤ capacity)
    (hfree : ¬ Deadlocked capacity s) (hroom : RoomAtSend capacity s a)
    (hst : step capacity s a = .ok t) : ¬ Deadlocked capacity t := by
  cases steps_of_step hst with
  | call hw => exact free_of_kept hfree (.inl rfl) (fun v => sending_goTo (by simp)) le_rfl id
  | @lock w poolIndex sk hw hnone =>
    -- only the worker that has the mutex now could be blocked, and it is not at its `send` yet
    rintro ⟨v, hv, hm, -⟩
    have hvw : w = v := by simpa [goTo] using hm
    rw [worker_goTo, if_pos hvw.symm] at hv
    cases hv
  | push hw =>
    rintro ⟨v, -, -, hfull, he⟩
    exact absurd (hroom he) (Nat.not_lt.mpr hfull)
  | @send w hw hlt =>
    -- a second worker at its `send` would have the mutex too
    rintro ⟨v, hv, -⟩
    have hold := sending_goTo (by simp) hv
    have hboth := (hex (.worker v) (.inr (.inl hold))).symm.trans
      (hex (.worker w) (.inr (.inl hw)))
    have hvw : v = w := by simpa using hboth
    rw [worker_goTo, if_pos hvw] at hv
    cases hv
  | unlock hw => exact free_of_kept hfree (.inr rfl) (fun v => sending_goTo (by simp)) le_rfl id
  | trigger he hpos => exact free_of_kept hfree (.inl rfl) (fun v => id) le_rfl (by simp)
  | @recv n he hn =>
    -- some bytes have just been read, so there is room
    rintro ⟨v, -, -, hfull, -⟩
    have hlt : s.bytes - n < capacity := by omega
    exact absurd hlt (Nat.not_lt.mpr hfull)
  | epollLock he hnone =>
    rintro ⟨v, -, -, -, he'⟩
    cases he'
  | swap he =>
    rintro ⟨v, -, -, -, he'⟩
    cases he'
  | epollUnlock he =>
    rintro ⟨v, -, -, -, he'⟩
    cases he'

theorem step_bounded (hbound : s.bytes ≤ capacity) (hst : step capacity s a = .ok t) :
    t.bytes ≤ capacity := by
  cases steps_of_step hst with
  | send hw hlt => exact hlt
  | recv he hn => exact (Nat.sub_le _ _).trans hbound
  | _ => exact hbound

/-- A worker that comes to its `send` with the pair full and the epoll thread before its lock is
deadlocked with it. -/
theorem step_deadlocks (hex : Excluded s) (hroom : ¬ RoomAtSend capacity s a)
    (hst : step capacity s a = .ok t) : Deadlocked capacity t := by
  cases steps_of_step hst with
  | @push w poolIndex sk hw =>
    simp only [RoomAtSend, Classical.not_imp, Nat.not_lt] at hroom
    obtain ⟨he, hfull⟩ := hroom
    refine ⟨w, ?_, hex (.worker w) (.inl ⟨_, _, hw⟩), hfull, he⟩
    rw [worker_goTo, if_pos rfl]
  | _ => exact absurd trivial hroom

/-- **The deadlock is for ever**: whatever the other workers do, the two go nowhere. -/
theorem deadlocked_forever (hex : Excluded s) (hdead : Deadlocked capacity s)
    (hst : step capacity s a = .ok t) : Deadlocked capacity t := by
  obtain ⟨w, hw, hm, hfull, he⟩ := hdead
  -- the mutex is taken, so another worker can only come to the lock
  have hother : ∀ v, Holds s (.worker v) → v = w := by
    intro v hv
    have hboth := (hex _ hv).symm.trans hm
    simpa using hboth
  cases steps_of_step hst with
  | @call v poolIndex sk hv =>
    have hne : w ≠ v := by
      rintro rfl
      cases hw.symm.trans hv
    refine ⟨w, ?_, hm, hfull, he⟩
    rw [worker_goTo, if_neg hne]
    exact hw
  | lock hv hnone => cases hm.symm.trans hnone
  | @push v poolIndex sk hv =>
    cases hother v (.inl ⟨_, _, hv⟩)
    cases hw.symm.trans hv
  | send hv hlt => exact absurd hlt (Nat.not_lt.mpr hfull)
  | @unlock v hv =>
    cases hother v (.inr (.inr hv))
    cases hw.symm.trans hv
  | trigger he' hpos => cases he.symm.trans he'
  | recv he' hn => cases he.symm.trans he'
  | epollLock he' hnone => cases hm.symm.trans hnone
  | swap he' => cases he.symm.trans he'
  | epollUnlock he' => cases he.symm.trans he'

end

/-! ## 3. Every run -/

/-- What holds while nobody is deadlocked. -/
structure Inv (capacity : Nat) (s : State W) : Prop where
  excluded : Excluded s
  bounded : s.bytes ≤ capacity
  free : ¬ Deadlocked capacity s

theorem start_inv (capacity : Nat) : Inv capacity (start W) where
  excluded := by
    intro x hx
    cases x <;> simp [Holds, start] at hx
  bounded := Nat.zero_le _
  free := by
    rintro ⟨w, hw, -⟩
    cases hw

/-- **When the hand-back does not deadlock.**  For every capacity, any workers and every
interleaving: no state of the run has a worker blocked in `send` with the mutex and the epoll thread
waiting for it, if and only if no worker comes to its `send` while the pair is full and the epoll
thread stands between its drain and its lock. -/
theorem no_deadlock_iff [DecidableEq W] (capacity : Nat) (acts : List (Action W)) (s : State W)
    (hrun : exec (step capacity) (start W) acts = .ok s) :
    (∀ t, Visits (step capacity) (start W) acts t → ¬ Deadlocked capacity t) ↔
      Along (step capacity) (RoomAtSend capacity) (start W) acts := by
  refine always_iff_along (I := Inv capacity) ?_ (fun t ht => ht.free) ?_ (start_inv capacity) hrun
  · intro t a u ht hroom hu
    exact ⟨step_excluded ht.excluded hu, step_bounded ht.bounded hu,
      step_free ht.excluded ht.bounded ht.free hroom hu⟩
  · intro t a u ht hroom hu hfree
    exact hfree (step_deadlocks ht.excluded hroom hu)

/-- A worker gives one socket back. -/
def giveBack (p : Ptr) : List (Action Unit) :=
  [.call () 0 p, .lock (), .push (), .send (), .unlock ()]

/-- The epoll thread reads a notification and swaps the list out before the next one is sent. -/
def giveBackTwice : List (Action Unit) :=
  giveBack 7 ++ [.trigger, .recv 1, .epollLock, .swap, .epollUnlock] ++ giveBack 8

theorem giveBackTwice_no_deadlock : ∃ s, exec (step 1) (start Unit) giveBackTwice = .ok s ∧
    s.bytes = 1 ∧ ∀ t, Visits (step 1) (start Unit) giveBackTwice t → ¬ Deadlocked 1 t := by
  have hends : (exec (step 1) (start Unit) giveBackTwice).map State.bytes = .ok 1 := by
    decide +kernel
  obtain ⟨s, hs, hbytes⟩ := map_eq_ok.mp hends
  exact ⟨s, hs, hbytes, (no_deadlock_iff 1 giveBackTwice s hs).mpr (by decide +kernel)⟩

/-- Where the one worker and the epoll thread are between two hand-backs. -/
structure Between (s : State Unit) (bytes : Nat) (epoll : EpollPc) : Prop where
  worker : s.worker () = .outside
  mutex : s.mutex = none
  bytes : s.bytes = bytes
  epoll : s.epoll = epoll

/-- A worker that finds room gives a socket back. -/
theorem Between.giveBack {capacity n : Nat} {pc : EpollPc} {s : State Unit} (h : Between s n pc)
    (hroom : n < capacity) (p : Ptr) :
    ∃ t, exec (step capacity) s (giveBack p) = .ok t ∧ Between t (n + 1) pc := by
  obtain ⟨hw, hm, hn, he⟩ := h
  subst hn
  simp only [HandBack.giveBack, exec, step, goTo, hw, hm, hroom, Function.update_self, if_true]
  exact ⟨_, rfl, by simp, rfl, rfl, he⟩

/-- It gives sockets back until the pair is full. -/
theorem Between.fill {capacity : Nat} {pc : EpollPc} (p : Ptr) :
    ∀ {k n : Nat} {s : State Unit}, Between s n pc → n + k ≤ capacity →
      ∃ t, exec (step capacity) s (List.replicate k (HandBack.giveBack p)).flatten = .ok t ∧
        Between t (n + k) pc := by
  intro k
  induction k with
  | zero =>
    intro n s h _
    exact ⟨s, rfl, h⟩
  | succ k ih =>
    intro n s h hle
    have hroom : n < capacity := by omega
    obtain ⟨t, ht, hbetween⟩ := h.giveBack hroom p
    obtain ⟨u, hu, hend⟩ := ih hbetween (by omega)
    refine ⟨u, ?_, ?_⟩
    · rw [List.replicate_succ, List.flatten_cons]
      exact exec_append_ok.mpr ⟨t, ht, hu⟩
    · rw [show n + (k + 1) = n + 1 + k by omega]
      exact hend

/-- **No capacity is large enough**: a worker fills the pair after the drain, and blocks. -/
theorem deadlock_at_every_capacity : ∀ capacity, 1 ≤ capacity →
    ∃ acts s, exec (step capacity) (start Unit) acts = .ok s ∧ Deadlocked capacity s := by
  intro capacity hcap
  have hstart : Between (start Unit) 0 .outside := ⟨rfl, rfl, rfl, rfl⟩
  obtain ⟨s₁, hs₁, h₁⟩ := hstart.giveBack (Nat.lt_of_lt_of_le Nat.zero_lt_one hcap) 7
  -- the epoll thread reads the one byte there is, and is on its way to the lock
  have hdrain : ∃ s₂, exec (step capacity) s₁ [.trigger, .recv 1] = .ok s₂ ∧
      Between s₂ 0 .locking := by
    obtain ⟨hw, hm, hn, he⟩ := h₁
    simp only [exec, step, he, hn]
    exact ⟨_, rfl, hw, hm, rfl, rfl⟩
  obtain ⟨s₂, hs₂, h₂⟩ := hdrain
  obtain ⟨s₃, hs₃, h₃⟩ := h₂.fill 8 (k := capacity) (Nat.zero_add capacity).le
  have hblock : ∃ s₄, exec (step capacity) s₃ [.call () 0 9, .lock (), .push ()] = .ok s₄ ∧
      Deadlocked capacity s₄ := by
    obtain ⟨hw, hm, hn, he⟩ := h₃
    simp only [exec, step, goTo, hw, hm, Function.update_self]
    exact ⟨_, rfl, (), by simp, rfl, by simp [hn], he⟩
  obtain ⟨s₄, hs₄, h₄⟩ := hblock
  refine ⟨giveBack 7 ++ ([.trigger, .recv 1] ++ ((List.replicate capacity (giveBack 8)).flatten ++
    [.call () 0 9, .lock (), .push ()])), s₄, ?_, h₄⟩
  exact exec_append_ok.mpr ⟨s₁, hs₁, exec_append_ok.mpr ⟨s₂, hs₂, exec_append_ok.mpr
    ⟨s₃, hs₃, hs₄⟩⟩⟩

/-- With room for one byte: the second socket fills the pair, and the third blocks. -/
def thirdBlocks : List (Action Unit) :=
  giveBack 7 ++ [.trigger, .recv 1] ++ giveBack 8 ++ [.call () 0 9, .lock (), .push ()]

theorem thirdBlocks_deadlock : ∃ s, exec (step 1) (start Unit) thirdBlocks = .ok s ∧
    Deadlocked 1 s := by
  have hends : (exec (step 1) (start Unit) thirdBlocks).map
      (fun s => (s.worker (), s.mutex, s.bytes, s.epoll))
        = .ok (.sending, some (.worker ()), 1, .locking) := by
    decide +kernel
  obtain ⟨s, hs, hend⟩ := map_eq_ok.mp hends
  simp only [Prod.mk.injEq] at hend
  obtain ⟨hw, hm, hfull, he⟩ := hend
  exact ⟨s, hs, (), hw, hm, hfull.ge, he⟩

end Kknf.AllSync.HandBack
