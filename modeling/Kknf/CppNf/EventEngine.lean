/-
# Timers of the `EventEngine`

The engine keeps its timers in a priority queue, the earliest `fire_time` on top.  `RunOnce` waits
for events until the first timer is due; when none came, it takes that timer out of the queue and
calls its `Handler`, which runs the callback if the time is up and sets the timer again if the
callback asks for it.

Two ways to lose a timer:

* `DeleteTimer(id)` takes out the first timer, whatever its id;
* `RunOnce` puts the timer back only when `Handler` returns 0.  When it returns -1, the time is not
  up, and the timer is deleted.

`timers_kept_iff` says that these are the only ways.  The first happens easily.  The second needs a
clock that advances less than the time that was waited: the timeout is cut to milliseconds and the
tolerance of `Handler` holds within one second only, but as long as the clock keeps up with the wait
the timer is in that second and due (`up_after_waiting`).

What a timer is set to is another matter: callbacks return milliseconds, and `SetTimer` adds them as
microseconds, so a timer that is set again is due 999 parts in 1000 too early (`not_rearmed`).

The readings of the text: `front` of the queue is `top`, `next_time_` is `fire_time_`, the callback
is called with its arguments, and `continue`, which is in no loop, ends `RunOnce`.  While a callback
runs it may call `AddTimer` and `DeleteTimer`, so the steps before and after it are two events.
-/
import Mathlib.Data.List.Count
import Kknf.Lib.Bytes
import Kknf.Lib.PriorityQueue
import Kknf.Lib.Run

namespace Kknf.CppNf.EventEngine

open Kknf.Run Kknf.PriorityQueue

/-! ## 1. Timers -/

/-- `struct timeval`. -/
structure TimeVal where
  tvSec : Nat
  tvUsec : Nat
  usec_lt : tvUsec < 1000000
  deriving DecidableEq

/-- The time as a number of microseconds. -/
def TimeVal.micros (t : TimeVal) : Nat := t.tvSec * 1000000 + t.tvUsec

structure Timer where
  id : Int
  fireTime : TimeVal
  deriving DecidableEq

/-- `TimerCompare`. -/
def timerCompare (t1 t2 : Timer) : Bool :=
  if t1.fireTime.tvSec > t2.fireTime.tvSec then true
  else if t1.fireTime.tvSec = t2.fireTime.tvSec then
    if t1.fireTime.tvUsec > t2.fireTime.tvUsec then true else false
  else false

/-- `SetTimer(msec)`, at the time `now`: what it adds are microseconds. -/
def setTimer (now : TimeVal) (msec : Nat) : TimeVal where
  tvSec := now.tvSec + (now.tvUsec + msec) / 1000000
  tvUsec := (now.tvUsec + msec) % 1000000
  usec_lt := Nat.mod_lt _ (by decide)

/-- The test that `Handler` begins with, at the time `now`: the time is not up. -/
def Timer.notUp (t : Timer) (now : TimeVal) : Bool :=
  t.fireTime.tvSec > now.tvSec ∨
    t.fireTime.tvSec = now.tvSec ∧ (t.fireTime.tvUsec - now.tvUsec : Int) > 10000

/-- The rest of `Handler`, when the callback has returned `msec`: the code it returns, and the
timer. -/
def Timer.handled (t : Timer) (msec : Int) (now : TimeVal) : Int × Timer :=
  if msec < 0 then (-2, t)
  else if msec = 0 then (1, t)
  else (0, { t with fireTime := setTimer now msec.toNat })

/-- The timeout of `epoll_wait`, in milliseconds. -/
def nextWake (first : Timer) (now : TimeVal) : Int :=
  let wake := int32 (((first.fireTime.tvSec : Int) - now.tvSec) * 1000)
  int32 (wake + ((first.fireTime.tvUsec : Int) - now.tvUsec).tdiv 1000)

/-! ## 2. The engine -/

/-- The timers of an engine, and what is told about them:

* `clock` is the last reading of the clock;
* `added`, `finished` and `deleted` are the ids of the timers that were added, whose callback
  returned 0 or less, and that `DeleteTimer` was called for while they were queued;
* `examined` are the timers `RunOnce` took out of the queue, each with the queue of that moment. -/
structure Engine where
  timerQueue : List Timer
  running : Option Timer
  clock : TimeVal
  added : List Int
  finished : List Int
  deleted : List Int
  examined : List (Timer × List Timer)

def ids (l : List Timer) : List Int := l.map (·.id)

inductive Event
  | addTimer (timer : Timer)
  /-- `DeleteTimer(id)`, with `front` on top of the queue -/
  | deleteTimer (id : Int) (front : Timer)
  /-- `RunOnce`, when `epoll_wait` returns anything but 0 -/
  | runOnce (front : Timer) (now : TimeVal)
  /-- `RunOnce`, when `epoll_wait` returns 0, up to the callback; `now` and `now'` are the readings
  before the wait and in `Handler` -/
  | timeOut (front : Timer) (now now' : TimeVal)
  /-- the callback returns `msec`, and `Handler` and `RunOnce` end -/
  | callback (msec : Int) (now : TimeVal)
  deriving DecidableEq

inductive Fault
  /-- an event that cannot happen in this state -/
  | disabled
  /-- the top of an empty queue -/
  | emptyQueue
  deriving DecidableEq

/-- A timer that is added has no id of a timer there is, the clock does not go back, `epoll_wait`
with a negative timeout does not return 0, and `RunOnce` is not called from a callback. -/
def step (s : Engine) : Event → Except Fault Engine
  | .addTimer timer =>
    if timer.id ∈ ids s.timerQueue ∨ timer.id ∈ ids s.running.toList then .error .disabled
    else .ok { s with timerQueue := timer :: s.timerQueue, added := timer.id :: s.added }
  | .deleteTimer id front =>
    if s.timerQueue = [] then .error .emptyQueue
    else if ¬ IsTop timerCompare s.timerQueue front then .error .disabled
    else
      .ok { s with
        timerQueue := s.timerQueue.erase front
        deleted := if id ∈ ids s.timerQueue then id :: s.deleted else s.deleted }
  | .runOnce front now =>
    if s.timerQueue = [] then .error .emptyQueue
    else if ¬ IsTop timerCompare s.timerQueue front ∨ s.running ≠ none ∨
        now.micros < s.clock.micros then .error .disabled
    else .ok { s with clock := now }
  | .timeOut front now now' =>
    if s.timerQueue = [] then .error .emptyQueue
    else if ¬ IsTop timerCompare s.timerQueue front ∨ s.running ≠ none ∨
        now.micros < s.clock.micros ∨ now'.micros < now.micros ∨ nextWake front now < 0 then
      .error .disabled
    else
      .ok { s with
        timerQueue := s.timerQueue.erase front
        -- a timer whose time is not up is deleted
        running := if front.notUp now' then none else some front
        clock := now'
        examined := (front, s.timerQueue) :: s.examined }
  | .callback msec now =>
    match s.running with
    | none => .error .disabled
    | some t =>
      if now.micros < s.clock.micros then .error .disabled
      else
        .ok { s with
          timerQueue :=
            if (t.handled msec now).1 = 0 then (t.handled msec now).2 :: s.timerQueue
            else s.timerQueue
          running := none
          clock := now
          finished := if msec ≤ 0 then t.id :: s.finished else s.finished }

/-- An engine without timers. -/
def Engine.new (clock : TimeVal) : Engine where
  timerQueue := []
  running := none
  clock := clock
  added := []
  finished := []
  deleted := []
  examined := []

/-! ## 3. The order of the timers -/

theorem byKey_timerCompare : ByKey timerCompare (·.fireTime.micros) := by
  intro t1 t2
  have h₁ := t1.fireTime.usec_lt
  have h₂ := t2.fireTime.usec_lt
  simp only [timerCompare, TimeVal.micros]
  split
  · simp only [true_iff]
    omega
  · split
    · split
      · simp only [true_iff]
        omega
      · simp only [Bool.false_eq_true, false_iff]
        omega
    · simp only [Bool.false_eq_true, false_iff]
      omega

/-- `RunOnce` finds a timer to wait for when there is one. -/
theorem runOnce_possible {s : Engine} (hq : s.timerQueue ≠ []) (hr : s.running = none) :
    ∃ front, step s (.runOnce front s.clock) = .ok s := by
  obtain ⟨front, htop⟩ := byKey_timerCompare.exists_isTop hq
  have hok : ¬ (¬ IsTop timerCompare s.timerQueue front ∨ s.running ≠ none ∨
      s.clock.micros < s.clock.micros) := by
    simp [htop, hr]
  exact ⟨front, (if_neg hq).trans (if_neg hok)⟩

/-- What dividing by 1000 towards zero leaves. -/
theorem tdiv_rest (d : Int) :
    (0 ≤ d → 0 ≤ d - d.tdiv 1000 * 1000 ∧ d - d.tdiv 1000 * 1000 < 1000) ∧
      (d < 0 → -1000 < d - d.tdiv 1000 * 1000 ∧ d - d.tdiv 1000 * 1000 ≤ 0) := by
  constructor
  · intro hd
    rw [Int.tdiv_eq_ediv_of_nonneg hd]
    omega
  · intro hd
    obtain ⟨e, rfl⟩ : ∃ e, d = -e := ⟨-d, (neg_neg d).symm⟩
    rw [Int.neg_tdiv, Int.tdiv_eq_ediv_of_nonneg (by omega : 0 ≤ e)]
    omega

/-- The timeout, when the second of the timer has not passed and the `int` does not overflow. -/
theorem nextWake_eq {t : Timer} {now : TimeVal} (hle : now.tvSec ≤ t.fireTime.tvSec)
    (hfits : ((t.fireTime.tvSec : Int) - now.tvSec) * 1000 + 1000 < 2 ^ 31) :
    nextWake t now = ((t.fireTime.tvSec : Int) - now.tvSec) * 1000 +
      ((t.fireTime.tvUsec : Int) - now.tvUsec).tdiv 1000 := by
  have h₁ := t.fireTime.usec_lt
  have h₂ := now.usec_lt
  have hwake : int32 (((t.fireTime.tvSec : Int) - now.tvSec) * 1000) =
      ((t.fireTime.tvSec : Int) - now.tvSec) * 1000 := int32_eq (by omega) (by omega)
  have hrest := tdiv_rest ((t.fireTime.tvUsec : Int) - now.tvUsec)
  have hlo : -1000 ≤ ((t.fireTime.tvUsec : Int) - now.tvUsec).tdiv 1000 := by omega
  have hhi : ((t.fireTime.tvUsec : Int) - now.tvUsec).tdiv 1000 ≤ 1000 := by omega
  unfold nextWake
  rw [hwake]
  exact int32_eq (by omega) (by omega)

/-- **As long as the clock keeps up with the wait, the time is up after it.**  What the timeout
leaves out is less than a millisecond, in the second in which the timer is due. -/
theorem up_after_waiting {t : Timer} {now now' : TimeVal}
    (hfits : ((t.fireTime.tvSec : Int) - now.tvSec) * 1000 + 1000 < 2 ^ 31)
    (hwake : 0 ≤ nextWake t now)
    (hwait : (now.micros : Int) + nextWake t now * 1000 ≤ now'.micros) : t.notUp now' = false := by
  have h₁ := t.fireTime.usec_lt
  have h₂ := now.usec_lt
  have h₃ := now'.usec_lt
  have hclock : (now.tvSec * 1000000 + now.tvUsec : Int) + nextWake t now * 1000 ≤
      now'.tvSec * 1000000 + now'.tvUsec := by
    simpa [TimeVal.micros] using hwait
  simp only [Timer.notUp, decide_eq_false_iff_not]
  rcases Nat.lt_or_ge t.fireTime.tvSec now.tvSec with hpast | hle
  · -- the second of the timer has passed already
    omega
  · rw [nextWake_eq hle hfits] at hclock
    have hrest := tdiv_rest ((t.fireTime.tvUsec : Int) - now.tvUsec)
    omega

/-! ## 4. When no timer is lost -/

/-- Every timer that was added is in the queue, or its callback is running, or the callback returned
0 or less, or `DeleteTimer` was called for it. -/
def Kept (s : Engine) : Prop :=
  ∀ id, s.added.count id = (ids s.timerQueue).count id + (ids s.running.toList).count id +
    s.finished.count id + s.deleted.count id

/-- The timers that were examined were the earliest ones in the queue. -/
def Earliest (s : Engine) : Prop :=
  ∀ p ∈ s.examined, p.1 ∈ p.2 ∧ ∀ u ∈ p.2, p.1.fireTime.micros ≤ u.fireTime.micros

/-- `DeleteTimer` finds its timer on top of the queue, and after a wait the time of the first timer
is up. -/
def NoneLost : Event → Prop
  | .deleteTimer id front => front.id = id
  | .timeOut front _ now' => front.notUp now' = false
  | _ => True

instance decidableNoneLost : ∀ e : Event, Decidable (NoneLost e)
  | .deleteTimer id front => inferInstanceAs (Decidable (front.id = id))
  | .timeOut front _ now' => inferInstanceAs (Decidable (front.notUp now' = false))
  | .addTimer _ => isTrue trivial
  | .runOnce _ _ => isTrue trivial
  | .callback _ _ => isTrue trivial

theorem kept_new (clock : TimeVal) : Kept (.new clock) := fun _ => rfl

/-- What leaves the queue with its top. -/
theorem count_erase_top {q : List Timer} {front : Timer} (h : front ∈ q) (id : Int) :
    (ids q).count id = (ids (q.erase front)).count id + if front.id = id then 1 else 0 := by
  have hperm : (ids q).Perm (front.id :: ids (q.erase front)) :=
    (List.perm_cons_erase h).map _
  rw [hperm.count_eq id, List.count_cons]
  simp only [beq_iff_eq]

/-- One step, as far as the queue is concerned. -/
inductive Steps (s t : Engine) : Event → Prop
  | addTimer (timer : Timer)
      (ht : t = { s with timerQueue := timer :: s.timerQueue, added := timer.id :: s.added }) :
      Steps s t (.addTimer timer)
  | deleteTimer (id : Int) (front : Timer) (htop : IsTop timerCompare s.timerQueue front)
      (ht : t = { s with
        timerQueue := s.timerQueue.erase front
        deleted := if id ∈ ids s.timerQueue then id :: s.deleted else s.deleted }) :
      Steps s t (.deleteTimer id front)
  | runOnce (front : Timer) (now : TimeVal) (ht : t = { s with clock := now }) :
      Steps s t (.runOnce front now)
  | timeOut (front : Timer) (now now' : TimeVal)
      (htop : IsTop timerCompare s.timerQueue front) (hrun : s.running = none)
      (ht : t = { s with
        timerQueue := s.timerQueue.erase front
        running := if front.notUp now' then none else some front
        clock := now'
        examined := (front, s.timerQueue) :: s.examined }) :
      Steps s t (.timeOut front now now')
  | callback (msec : Int) (now : TimeVal) (timer : Timer) (hrun : s.running = some timer)
      (ht : t = { s with
        timerQueue :=
          if (timer.handled msec now).1 = 0 then (timer.handled msec now).2 :: s.timerQueue
          else s.timerQueue
        running := none
        clock := now
        finished := if msec ≤ 0 then timer.id :: s.finished else s.finished }) :
      Steps s t (.callback msec now)

theorem steps_of_step {s t : Engine} {e : Event} (h : step s e = .ok t) : Steps s t e := by
  rcases e with ⟨timer⟩ | ⟨id, front⟩ | ⟨front, now⟩ | ⟨front, now, now'⟩ | ⟨msec, now⟩
  · simp only [step] at h
    split at h
    · contradiction
    · exact .addTimer timer (Except.ok.inj h).symm
  · simp only [step] at h
    split at h
    · contradiction
    · split at h
      · contradiction
      · rename_i htop
        exact .deleteTimer id front (not_not.mp htop) (Except.ok.inj h).symm
  · simp only [step] at h
    split at h
    · contradiction
    · split at h
      · contradiction
      · exact .runOnce front now (Except.ok.inj h).symm
  · simp only [step] at h
    split at h
    · contradiction
    · split at h
      · contradiction
      · rename_i hok
        push Not at hok
        exact .timeOut front now now' hok.1 hok.2.1 (Except.ok.inj h).symm
  · simp only [step] at h
    split at h
    · contradiction
    · rename_i timer hrun
      split at h
      · contradiction
      · exact .callback msec now timer hrun (Except.ok.inj h).symm

/-- The callback's result says where the timer goes. -/
theorem count_handled (t : Timer) (msec : Int) (now : TimeVal) (q : List Timer) (l : List Int)
    (id : Int) :
    (ids (if (t.handled msec now).1 = 0 then (t.handled msec now).2 :: q else q)).count id +
        (if msec ≤ 0 then t.id :: l else l).count id =
      (ids q).count id + l.count id + if t.id = id then 1 else 0 := by
  rcases lt_trichotomy msec 0 with hneg | rfl | hpos
  · simp [Timer.handled, hneg, hneg.le, List.count_cons, Nat.add_assoc]
  · simp [Timer.handled, List.count_cons, Nat.add_assoc]
  · simp only [Timer.handled, not_lt.mpr hpos.le, hpos.ne', not_le.mpr hpos, if_false, if_true, ids,
      List.map_cons, List.count_cons, beq_iff_eq]
    omega

/-- A step that loses no timer keeps the account. -/
theorem kept_step {s t : Engine} {e : Event} (hs : Kept s) (he : NoneLost e)
    (h : step s e = .ok t) : Kept t := by
  intro i
  have hi := hs i
  rcases steps_of_step h with ⟨timer, rfl⟩ | ⟨id, front, htop, rfl⟩ | ⟨front, now, rfl⟩ |
    ⟨front, now, now', htop, hrun, rfl⟩ | ⟨msec, now, timer, hrun, rfl⟩
  · simp only [ids, List.map_cons, List.count_cons] at hi ⊢
    omega
  · -- the timer on top is the one with this id
    have hid : front.id = id := he
    have hmem : id ∈ ids s.timerQueue := hid ▸ List.mem_map_of_mem htop.1
    have hcount := count_erase_top htop.1 i
    simp only [hmem, if_true, List.count_cons, beq_iff_eq, hid] at hcount ⊢
    omega
  · exact hi
  · have hup : front.notUp now' = false := he
    have hcount := count_erase_top htop.1 i
    have hone : (ids [front]).count i = if front.id = i then 1 else 0 := by
      simp [ids, List.count_singleton]
    simp only [hrun, Option.toList_none, hup, Bool.false_eq_true, if_false,
      Option.toList_some] at hi ⊢
    have hnil : (ids []).count i = 0 := rfl
    omega
  · have hcount := count_handled timer msec now s.timerQueue s.finished i
    have hone : (ids [timer]).count i = if timer.id = i then 1 else 0 := by
      simp [ids, List.count_singleton]
    have hnil : (ids []).count i = 0 := rfl
    simp only [hrun, Option.toList_none, Option.toList_some] at hi ⊢
    omega

/-- A step that loses a timer breaks the account: the timer that was on top is in no place. -/
theorem kept_break {s t : Engine} {e : Event} (hs : Kept s) (he : ¬ NoneLost e)
    (h : step s e = .ok t) : ¬ Kept t := by
  intro hkept
  rcases steps_of_step h with ⟨timer, rfl⟩ | ⟨id, front, htop, rfl⟩ | ⟨front, now, rfl⟩ |
    ⟨front, now, now', htop, hrun, rfl⟩ | ⟨msec, now, timer, hrun, rfl⟩
  · exact he trivial
  · have hne : id ≠ front.id := fun hid => he hid.symm
    have hbefore := hs front.id
    have hafter := hkept front.id
    have hcount := count_erase_top htop.1 front.id
    have hdeleted : (if id ∈ ids s.timerQueue then id :: s.deleted else s.deleted).count front.id =
        s.deleted.count front.id := by
      split
      · exact List.count_cons_of_ne hne
      · rfl
    simp only [if_true] at hcount
    simp only [hdeleted] at hafter
    omega
  · exact he trivial
  · have hnot : front.notUp now' = true := by
      simpa [NoneLost] using he
    have hbefore := hs front.id
    have hafter := hkept front.id
    have hcount := count_erase_top htop.1 front.id
    simp only [if_true] at hcount
    simp only [hnot, if_true] at hafter
    simp only [hrun] at hbefore
    omega
  · exact he trivial

theorem earliest_step {s t : Engine} {e : Event} (hs : Earliest s) (h : step s e = .ok t) :
    Earliest t := by
  rcases steps_of_step h with ⟨timer, rfl⟩ | ⟨id, front, htop, rfl⟩ | ⟨front, now, rfl⟩ |
    ⟨front, now, now', htop, hrun, rfl⟩ | ⟨msec, now, timer, hrun, rfl⟩
  · exact hs
  · exact hs
  · exact hs
  · intro p hp
    rcases List.mem_cons.mp hp with rfl | hp
    · exact byKey_timerCompare.isTop_iff.mp htop
    · exact hs p hp
  · exact hs

/-- **No timer is lost exactly when every `DeleteTimer` finds its timer on top and every wait is
long enough**; and the timer examined is always one of the earliest. -/
theorem timers_kept_iff (clock : TimeVal) (es : List Event) (s : Engine)
    (h : exec step (.new clock) es = .ok s) :
    IsStrictWeakOrder Timer (fun t1 t2 => timerCompare t1 t2 = true) ∧
    (∀ u, Visits step (.new clock) es u → Earliest u) ∧
    ((∀ u, Visits step (.new clock) es u → Kept u) ↔ ∀ e ∈ es, NoneLost e) := by
  refine ⟨byKey_timerCompare.isStrictWeakOrder, ?_, ?_⟩
  · intro u hu
    have hall : Along step (fun _ _ => True) (.new clock) es := along_of_forall fun _ _ _ => trivial
    refine hall.invariant_visits (fun _ _ _ hs _ => earliest_step hs) ?_ hu
    intro p hp
    simp [Engine.new] at hp
  · rw [← along_iff_forall h]
    exact always_iff_along (fun _ _ _ => kept_step) (fun _ h => h) (fun _ _ _ => kept_break)
      (kept_new clock) h

/-- The timer `id`, due at the second `sec`. -/
def dueAt (id : Int) (sec : Nat) : Timer where
  id := id
  fireTime := ⟨sec, 0, by decide⟩

/-- Two timers; the first is due, asks for another second, and is deleted. -/
def firedAndDeleted : List Event :=
  [.addTimer (dueAt 1 10), .addTimer (dueAt 2 20),
    .timeOut (dueAt 1 10) ⟨9, 0, by decide⟩ ⟨10, 0, by decide⟩,
    .callback 1000000 ⟨10, 5, by decide⟩,
    .deleteTimer 1 ⟨1, ⟨11, 5, by decide⟩⟩]

theorem firedAndDeleted_kept : ∃ s, exec step (.new ⟨9, 0, by decide⟩) firedAndDeleted = .ok s ∧
    ids s.timerQueue = [2] ∧
    ∀ u, Visits step (.new ⟨9, 0, by decide⟩) firedAndDeleted u → Kept u := by
  have hends : (exec step (.new ⟨9, 0, by decide⟩) firedAndDeleted).map
      (fun s => ids s.timerQueue) = .ok [2] := by
    decide +kernel
  obtain ⟨s, hs, hend⟩ := map_eq_ok.mp hends
  exact ⟨s, hs, hend, (timers_kept_iff _ _ _ hs).2.2.mpr (by decide +kernel)⟩

/-- `DeleteTimer(2)` deletes timer 1. -/
theorem other_timer_deleted : ∃ s, exec step (.new ⟨9, 0, by decide⟩)
      [.addTimer (dueAt 1 10), .addTimer (dueAt 2 20), .deleteTimer 2 (dueAt 1 10)] = .ok s ∧
    ids s.timerQueue = [2] ∧ s.finished = [] ∧ s.deleted = [2] ∧ ¬ Kept s := by
  have hends : (exec step (.new ⟨9, 0, by decide⟩)
      [.addTimer (dueAt 1 10), .addTimer (dueAt 2 20), .deleteTimer 2 (dueAt 1 10)]).map
      (fun s => (ids s.timerQueue, s.finished, s.deleted, s.added)) =
        .ok ([2], [], [2], [2, 1]) := by
    decide +kernel
  obtain ⟨s, hs, hend⟩ := map_eq_ok.mp hends
  simp only [Prod.mk.injEq] at hend
  obtain ⟨hqueue, hfinished, hdeleted, hadded⟩ := hend
  refine ⟨s, hs, hqueue, hfinished, hdeleted, ?_⟩
  intro hkept
  have hrun := hkept 2
  rw [hqueue, hfinished, hdeleted, hadded] at hrun
  simp at hrun

/-! ## 5. When a timer that is set again is due -/

/-- From `now` on, the timer `t` is up only in the last 10 milliseconds before `msec` milliseconds
have passed, and after that. -/
def NotEarly (t : Timer) (now : TimeVal) (msec : Nat) : Prop :=
  ∀ later : TimeVal, now.micros ≤ later.micros → t.notUp later = false →
    now.micros + msec * 1000 ≤ later.micros + 10000

/-- The timer `t` was set at the time `now` to be due in `msec` milliseconds. -/
structure Rearmed (t : Timer) (now : TimeVal) (msec : Nat) : Prop where
  fireTime : t.fireTime.micros = now.micros + msec * 1000
  normalised : t.fireTime.tvUsec < 1000000
  due : ∀ later : TimeVal, now.micros + msec * 1000 ≤ later.micros → t.notUp later = false
  notEarly : NotEarly t now msec
  /-- `RunOnce` does not wait less, but for the tolerance -/
  wake : (msec : Int) * 1000 ≤ nextWake t now * 1000 + 10000

theorem micros_setTimer (now : TimeVal) (msec : Nat) :
    (setTimer now msec).micros = now.micros + msec := by
  have hdiv := Nat.div_add_mod (now.tvUsec + msec) 1000000
  simp only [setTimer, TimeVal.micros]
  omega

/-- A callback that asks for more time gets its timer back. -/
theorem handled_pos (t : Timer) (now : TimeVal) {msec : Nat} (hpos : 0 < msec) :
    t.handled msec now = (0, { t with fireTime := setTimer now msec }) := by
  have hneg : ¬ (msec : Int) < 0 := by omega
  have hzero : ¬ (msec : Int) = 0 := by omega
  rw [Timer.handled, if_neg hneg, if_neg hzero, Int.toNat_natCast]

/-- At its own `fire_time` a timer is up. -/
theorem up_at_fireTime (t : Timer) : t.notUp t.fireTime = false := by
  simp [Timer.notUp]

/-- A timer that `SetTimer` has set is not too early up to 10 milliseconds, the tolerance. -/
theorem notEarly_setTimer_iff (t : Timer) (now : TimeVal) (msec : Nat) :
    NotEarly { t with fireTime := setTimer now msec } now msec ↔ msec ≤ 10 := by
  have hfire := micros_setTimer now msec
  constructor
  · intro hall
    have hself := hall (setTimer now msec) (by omega) (up_at_fireTime _)
    omega
  · intro hle later hnow _
    omega

/-- The `fire_time` is `msec` microseconds later, which is not `msec` milliseconds. -/
theorem not_rearmed_setTimer (t : Timer) (now : TimeVal) {msec : Nat} (hpos : 0 < msec) :
    ¬ Rearmed { t with fireTime := setTimer now msec } now msec := by
  intro hset
  have hmillis : (setTimer now msec).micros = now.micros + msec * 1000 := hset.fireTime
  have hmicros := micros_setTimer now msec
  omega

/-- **What `SetTimer` sets is never `msec` milliseconds later.**  Whenever a callback returns
`msec > 0`, the timer is set to `msec` microseconds later; it is not up too early only up to 10
milliseconds, which the tolerance covers. -/
theorem not_rearmed (t : Timer) (now : TimeVal) (msec : Nat) (hpos : 0 < msec) :
    (t.handled msec now).1 = 0 ∧
      (t.handled msec now).2.fireTime.micros = now.micros + msec ∧
      ¬ Rearmed (t.handled msec now).2 now msec ∧
      (NotEarly (t.handled msec now).2 now msec ↔ msec ≤ 10) := by
  rw [handled_pos t now hpos]
  exact ⟨rfl, micros_setTimer now msec, not_rearmed_setTimer t now hpos,
    notEarly_setTimer_iff t now msec⟩

/-- A callback that asks for 5 seconds at the second 10. -/
theorem not_rearmed_five_seconds :
    ((dueAt 1 10).handled (5000 : Nat) ⟨10, 0, by decide⟩).2.fireTime.micros = 10000000 + 5000 ∧
      ¬ Rearmed ((dueAt 1 10).handled (5000 : Nat) ⟨10, 0, by decide⟩).2
        ⟨10, 0, by decide⟩ 5000 := by
  have h := not_rearmed (dueAt 1 10) ⟨10, 0, by decide⟩ 5000 (by omega)
  exact ⟨h.2.1, h.2.2.1⟩

/-- Asked for 5 seconds, the timer is up after 5 milliseconds. -/
theorem up_too_early : ∃ t now later, t = ((dueAt 1 10).handled (5000 : Nat) now).2 ∧
    now.micros + 5000 = later.micros ∧ t.notUp later = false ∧ ¬ Rearmed t now 5000 := by
  have hagain := handled_pos (dueAt 1 10) ⟨10, 0, by decide⟩ (show 0 < 5000 by omega)
  refine ⟨_, ⟨10, 0, by decide⟩, setTimer ⟨10, 0, by decide⟩ 5000, rfl, ?_, ?_, ?_⟩
  · exact (micros_setTimer _ _).symm
  · rw [hagain]
    exact up_at_fireTime _
  · rw [hagain]
    exact not_rearmed_setTimer _ _ (by omega)

end Kknf.CppNf.EventEngine
