/-
# The timer of `EpollLoop`

`EpollLoop` has no timer of its own: it waits for events with a timeout, takes the time each turn
took off the timeout, and calls `TimerHandler` when nothing comes in or no more than 100 ms are
left.  The clock is read before the wait and after the events have been handled.

What is to be taken off is `seconds * 1000 + microseconds / 1000`.  The assignment writes
`timeout - seconds * 1000 + microseconds / 1000`: the second part is added.  `TCPWaitToRead` of the
client has it right.  The two come to the same when the microseconds of the two readings are less
than a millisecond apart, and `timer_on_time_iff` says that the timer is on time in a run exactly
when that is so in each of its turns, and the timeout does not leave the range of an `int`.

The time between the second reading of a turn and the first of the next, in which the loop does
nothing, is not looked at by either.
-/
import Kknf.Lib.Run
import Kknf.Lib.Bytes
import Kknf.CppNf.EventEngine

namespace Kknf.AllSync.Timer

open Run CppNf.EventEngine

/-! ## 1. The loop -/

/-- The two readings of the clock in a turn. -/
structure Readings where
  startTime : TimeVal
  endTime : TimeVal
  le : startTime.micros ≤ endTime.micros

namespace Readings

variable (r : Readings)

/-- `end_time.tv_sec - start_time.tv_sec` -/
def sec : Int := r.endTime.tvSec - r.startTime.tvSec

/-- `end_time.tv_usec - start_time.tv_usec` -/
def usec : Int := r.endTime.tvUsec - r.startTime.tvUsec

/-- How long the turn took, in microseconds. -/
def elapsed : Int := r.endTime.micros - r.startTime.micros

end Readings

/-- What the server is constructed with, an `int`. -/
structure Config where
  timerInterval : Int
  timerInterval_int : -2 ^ 31 ≤ timerInterval ∧ timerInterval < 2 ^ 31

/-- `TimerHandler`, which every server may override; this is the one it has. -/
def timerHandler (c : Config) : Int := c.timerInterval

/-- The loop between two turns: the variable `timeout`, and what nothing reads, the readings of the
turns since `TimerHandler` was last called, without those that ended in `EINTR`. -/
structure Loop where
  timeout : Int
  since : List Readings

/-- The loop when it starts, and after a call of `TimerHandler`. -/
def fired (c : Config) : Loop := ⟨timerHandler c, []⟩

/-- One turn, by what `epoll_wait` comes to. -/
inductive Turn
  /-- it returns 0 -/
  | timedOut
  /-- it fails with `EINTR` -/
  | interrupted
  /-- it fails otherwise -/
  | failed
  /-- it returns events, which are then handled -/
  | events (r : Readings)

/-- The loop has returned. -/
inductive Left
  | returned

/-- The timeout after a turn with events, a `long` that is made an `int`. -/
def recomputed (timeout : Int) (r : Readings) : Int :=
  int32 (timeout - r.sec * 1000 + r.usec.tdiv 1000)

/-- `timeout -= ..` of `TCPWaitToRead`, after a wait that was interrupted. -/
def waitAgain (timeout : Int) (r : Readings) : Int :=
  int32 (timeout - (r.sec * 1000 + r.usec.tdiv 1000))

/-- One turn of `EpollLoop`. -/
def step (c : Config) (s : Loop) : Turn → Except Left Loop
  | .timedOut => .ok (fired c)
  | .interrupted => .ok s
  | .failed => .error .returned
  | .events r =>
    if recomputed s.timeout r ≤ 100 then .ok (fired c)
    else .ok ⟨recomputed s.timeout r, s.since ++ [r]⟩

/-! ## 2. What the timer is for -/

/-- How long the turns took together. -/
def elapsedIn (rs : List Readings) : Int := (rs.map Readings.elapsed).sum

/-- A turn with events leaves the timer on time. -/
structure OnTime (c : Config) (s : Loop) (r : Readings) : Prop where
  /-- what the turn took is taken off, up to a millisecond -/
  takenOff : |1000 * (recomputed s.timeout r - s.timeout) + r.elapsed| ≤ 1000
  notMore : recomputed s.timeout r ≤ s.timeout
  /-- the call is made when the interval is up but for 100 ms, up to a millisecond for each turn -/
  called : 1000 * (c.timerInterval - 100) + 1000 * (s.since ++ [r]).length ≤
    elapsedIn (s.since ++ [r]) →
    step c s (.events r) = .ok (fired c)
  asClient : recomputed s.timeout r = waitAgain s.timeout r

/-- Every turn with events leaves the timer on time. -/
def TurnOnTime (c : Config) (s : Loop) (e : Turn) : Prop := ∀ r, e = .events r → OnTime c s r

/-- A turn in which the microseconds of the two readings are less than a millisecond apart, and
whose seconds can be taken off an `int`. -/
structure WholeSeconds (s : Loop) (r : Readings) : Prop where
  near : |r.usec| < 1000
  fits : -2 ^ 31 ≤ s.timeout - r.sec * 1000

/-- The timeout is an `int`, and at most the interval without what the turns since the last call
took, up to a millisecond for each. -/
structure Accounted (c : Config) (s : Loop) : Prop where
  int : -2 ^ 31 ≤ s.timeout ∧ s.timeout < 2 ^ 31
  left : elapsedIn s.since - 1000 * s.since.length ≤ 1000 * (c.timerInterval - s.timeout)

theorem fired_accounted (c : Config) : Accounted c (fired c) := by
  constructor
  · exact c.timerInterval_int
  · simp [fired, timerHandler, elapsedIn]

/-! ## 3. One turn -/

section

variable {c : Config} {s : Loop} {r : Readings}

theorem Readings.elapsed_eq (r : Readings) : r.elapsed = 1000000 * r.sec + r.usec := by
  unfold Readings.elapsed Readings.sec Readings.usec TimeVal.micros
  omega

theorem Readings.usec_lt (r : Readings) : -1000000 < r.usec ∧ r.usec < 1000000 := by
  have hstart := r.startTime.usec_lt
  have hend := r.endTime.usec_lt
  unfold Readings.usec
  omega

theorem Readings.elapsed_nonneg (r : Readings) : 0 ≤ 1000000 * r.sec + r.usec := by
  have hle := r.le
  rw [← r.elapsed_eq]
  unfold Readings.elapsed
  omega

theorem tdiv_eq_zero_iff {d : Int} : d.tdiv 1000 = 0 ↔ |d| < 1000 := by
  have hrest := tdiv_rest d
  rw [abs_lt]
  constructor
  · intro h
    rw [h] at hrest
    omega
  · rintro ⟨hlo, hhi⟩
    omega

/-- **What a turn comes to**: the seconds are taken off exactly when the readings are as they have
to be for the timeout to be right and the same as the client's. -/
theorem recomputed_eq (h : WholeSeconds s r) (hint : s.timeout < 2 ^ 31) :
    recomputed s.timeout r = s.timeout - r.sec * 1000 ∧ 0 ≤ r.sec := by
  have hnonneg := r.elapsed_nonneg
  have hnear := abs_lt.mp h.near
  have hfits := h.fits
  have hsec : 0 ≤ r.sec := by omega
  unfold recomputed
  rw [tdiv_eq_zero_iff.mpr h.near, add_zero]
  exact ⟨int32_eq hfits (by omega), hsec⟩

theorem WholeSeconds.takenOff (h : WholeSeconds s r) (hint : s.timeout < 2 ^ 31) :
    |1000 * (recomputed s.timeout r - s.timeout) + r.elapsed| ≤ 1000 := by
  obtain ⟨heq, -⟩ := recomputed_eq h hint
  have hnear := abs_lt.mp h.near
  rw [heq, r.elapsed_eq, abs_le]
  omega

theorem elapsedIn_append (rs : List Readings) :
    elapsedIn (rs ++ [r]) = elapsedIn rs + r.elapsed := by
  unfold elapsedIn
  rw [List.map_append, List.sum_append, List.map_singleton, List.sum_singleton]

/-- What is taken off leaves the account right. -/
theorem Accounted.append (hs : Accounted c s)
    (hoff : |1000 * (recomputed s.timeout r - s.timeout) + r.elapsed| ≤ 1000) :
    elapsedIn (s.since ++ [r]) - 1000 * (s.since ++ [r]).length ≤
      1000 * (c.timerInterval - recomputed s.timeout r) := by
  have hleft := hs.left
  obtain ⟨-, hhi⟩ := abs_le.mp hoff
  rw [elapsedIn_append, List.length_append, List.length_singleton]
  omega

theorem WholeSeconds.onTime (h : WholeSeconds s r) (hs : Accounted c s) : OnTime c s r := by
  obtain ⟨heq, hsec⟩ := recomputed_eq h hs.int.2
  have hoff := h.takenOff hs.int.2
  refine ⟨hoff, by omega, ?_, ?_⟩
  · intro hdue
    have hleft := hs.append hoff
    exact if_pos (by omega)
  · unfold recomputed waitAgain
    rw [tdiv_eq_zero_iff.mpr h.near, add_zero, add_zero]

/-- A conversion that stays near its argument has changed nothing. -/
theorem int32_of_near {x : Int} (hnear : |1000 * (int32 x - x)| < 2 ^ 32) : int32 x = x := by
  have hbmod : int32 x = x.bmod (2 ^ 32) := rfl
  have hcases := abs_lt.mp hnear
  rw [Int.bmod_def] at hbmod
  split at hbmod <;> omega

theorem OnTime.wholeSeconds (h : OnTime c s r) : WholeSeconds s r := by
  have hlt := r.usec_lt
  have hrest := tdiv_rest r.usec
  have hoff := h.takenOff
  have heq : recomputed s.timeout r = s.timeout - r.sec * 1000 + r.usec.tdiv 1000 := by
    unfold recomputed at hoff ⊢
    refine int32_of_near ?_
    rw [r.elapsed_eq, abs_le] at hoff
    rw [abs_lt]
    omega
  have hnear : |r.usec| < 1000 := by
    rw [heq, r.elapsed_eq, abs_le] at hoff
    rw [abs_lt]
    omega
  refine ⟨hnear, ?_⟩
  have hlo : -2 ^ 31 ≤ recomputed s.timeout r := Int.le_bmod (by decide)
  rw [heq, tdiv_eq_zero_iff.mpr hnear] at hlo
  omega

/-- A turn of whole seconds keeps the account. -/
theorem step_accounted {e : Turn} {t : Loop} (hs : Accounted c s)
    (hwhole : ∀ r, e = .events r → WholeSeconds s r) (h : step c s e = .ok t) : Accounted c t := by
  cases e with
  | timedOut =>
    cases h
    exact fired_accounted c
  | interrupted =>
    cases h
    exact hs
  | failed => cases h
  | events r =>
    have hr := hwhole r rfl
    simp only [step] at h
    split at h
    · cases h
      exact fired_accounted c
    · cases h
      have hlo : -2 ^ 31 ≤ recomputed s.timeout r := Int.le_bmod (by decide)
      have hhi : recomputed s.timeout r < 2 ^ 31 := Int.bmod_lt (by decide)
      exact ⟨⟨hlo, hhi⟩, hs.append (hr.takenOff hs.int.2)⟩

end

/-! ## 4. When the timer is on time -/

/-- **When the timer is on time**: in every run of the loop, each turn leaves it so exactly when in
each turn the microseconds of the two readings are less than a millisecond apart, and what is left
of the timeout is an `int`. -/
theorem timer_on_time_iff (c : Config) (turns : List Turn) :
    Along (step c) (TurnOnTime c) (fired c) turns ↔
      Along (step c) (fun s e => ∀ r, e = .events r → WholeSeconds s r) (fired c) turns := by
  refine along_congr (P := Accounted c) ?_ ?_ (fired_accounted c)
  · intro s e t hs hwhole h
    exact step_accounted hs hwhole h
  · intro s e hs
    constructor
    · intro honTime r hr
      exact (honTime r hr).wholeSeconds
    · intro hwhole r hr
      exact (hwhole r hr).onTime hs

/-- The clock starts at 0. -/
theorem start_micros_le (usec : Nat) (h : usec < 1000000) :
    (⟨0, 0, Nat.zero_lt_succ _⟩ : TimeVal).micros ≤ (⟨0, usec, h⟩ : TimeVal).micros := by
  simp [TimeVal.micros]

/-- Half a second, within one second of the clock. -/
def halfSecond : Readings :=
  ⟨⟨0, 0, Nat.zero_lt_succ _⟩, ⟨0, 500000, by decide⟩, start_micros_le _ _⟩

/-- An interval of one second and an event after half of it: one second and a half are left to
wait. -/
theorem half_second_is_added :
    step ⟨1000, by decide⟩ (fired ⟨1000, by decide⟩) (.events halfSecond) =
        .ok ⟨1500, [halfSecond]⟩ ∧
      waitAgain 1000 halfSecond = 500 ∧
      ¬ Along (step ⟨1000, by decide⟩) (TurnOnTime ⟨1000, by decide⟩) (fired ⟨1000, by decide⟩)
        [.events halfSecond] := by
  refine ⟨rfl, rfl, fun h => ?_⟩
  have hmore := (h.1 halfSecond rfl).notMore
  revert hmore
  decide

end Kknf.AllSync.Timer
