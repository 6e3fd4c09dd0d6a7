/-
# The drain of the local socket

A worker that hands a socket back sends one byte on the local socket pair.  When the epoll thread
sees the other end triggered, it reads the bytes in blocks of 1024 and goes on as long as a block is
full; then it takes the reuse list.  The pair is a blocking one: a `recv` on it waits when nothing
is there.

So the drain ends with the first block that is not full.  When the number of bytes is a multiple of
1024 there is none: the last full block leaves the socket empty, and the epoll thread, the only one,
waits in the next `recv` until some worker hands a socket back (`drain_ends_iff`).  Any number of
bytes that the buffer of the pair has room for can come together while the epoll thread is busy
elsewhere (`handBacks_pending`); the buffer has no bound here, and what a full one does is in
`HandBack.lean`.

`recv` on a stream socket gives what is there, up to the size of the buffer.  The workers may do
anything during the drain but send.
-/
import Mathlib.Data.Fintype.Basic
import Mathlib.Data.Fintype.Card
import Kknf.Lib.Run
import Kknf.AllSync.Server

namespace Kknf.AllSync

open Run

variable {W : Type}

/-! ## 1. A drain nobody adds to -/

/-- What the blocking `recv` of 1024 bytes returns; without any it waits. -/
def recvAnswer (pending : Nat) : Option Nat := if pending = 0 then none else some (min pending 1024)

/-- The steps taken during a drain: those of its loop, and those of the workers but for a
notification that is sent. -/
def InDrain (s : Server W) : Action W → Prop
  | .recv n => recvAnswer s.notifications = some n
  | .insertServerReuseSocket _ _ _ sendOk => sendOk = false
  | .getServerReadySocket _ _ | .getUDPPacket _ | .retest _ | .spurious _ | .closeDelete _ _
  | .stopServer => True
  | _ => False

def Action.isRecv : Action W → Bool
  | .recv _ => true
  | _ => false

/-- How often `recv` has returned. -/
def recvs (acts : List (Action W)) : Nat := acts.countP Action.isRecv

/-- A part of a drain that starts in `s`. -/
structure DrainRun [DecidableEq W] [Fintype W] (s : Server W) (acts : List (Action W))
    (t : Server W) : Prop where
  runs : exec step s acts = .ok t
  inDrain : Along step InDrain s acts

/-- The drain that starts in `s` ends as it should. -/
structure DrainEnds [DecidableEq W] [Fintype W] (s : Server W) (rest : List EpollEvent)
    (batch : SkMap) : Prop where
  /-- whenever `recv` is called, it returns -/
  goesOn : ∀ acts t, DrainRun s acts t → t.loop = .recvLocal rest batch →
    ∃ n u, recvAnswer t.notifications = some n ∧ step t (.recv n) = .ok u
  bounded : ∀ acts t, DrainRun s acts t → recvs acts ≤ s.notifications / 1024 + 1
  /-- when the loop has been left all bytes have been read, and the reuse list is taken -/
  consumed : ∀ acts t, DrainRun s acts t → t.loop ≠ .recvLocal rest batch →
    t.notifications = 0 ∧ ∃ u, step t .next = .ok u ∧
      u.loop = .readd t.reuseList.elems rest batch ∧ u.reuseList = StdMap.empty

/-! ## 2. How far a drain is -/

section

variable {s t : Server W} {rest : List EpollEvent} {batch : SkMap} {n k : Nat}

/-- After `k` calls of `recv`, with `n` bytes at the start: full blocks only, or the last one was
not. -/
inductive Draining (n k : Nat) (rest : List EpollEvent) (batch : SkMap) (s : Server W) : Prop
  | reading (loop : s.loop = .recvLocal rest batch) (left : s.notifications + 1024 * k = n)
  | done (loop : s.loop = .swapReuse rest batch) (left : s.notifications = 0)
      (calls : k = n / 1024 + 1)
      (part : ¬ 1024 ∣ n)

theorem Draining.same (h : Draining n k rest batch s)
    (hsame : t.loop = s.loop ∧ t.notifications = s.notifications) : Draining n k rest batch t := by
  rcases h with ⟨hloop, hleft⟩ | ⟨hloop, hleft, hcalls, hpart⟩
  · exact .reading (hsame.1.trans hloop) (by rw [hsame.2, hleft])
  · exact .done (hsame.1.trans hloop) (hsame.2.trans hleft) hcalls hpart

/-- One `recv` of the drain. -/
theorem Draining.recv {m : Nat} {rest' : List EpollEvent} {batch' : SkMap}
    (h : Draining n k rest batch s) (hloop : s.loop = .recvLocal rest' batch')
    (hm : recvAnswer s.notifications = some m) (ht : recvLocal s rest' batch' m = .ok t) :
    Draining n (k + 1) rest batch t := by
  rcases h with ⟨hreading, hleft⟩ | ⟨hdone, -, -, -⟩
  · cases hreading.symm.trans hloop
    unfold recvAnswer at hm
    split at hm
    · cases hm
    · rename_i hsome
      cases hm
      unfold recvLocal at ht
      rw [if_neg (by omega), if_pos (by omega)] at ht
      cases ht
      rcases Nat.lt_or_ge s.notifications 1024 with hlast | hfull
      · have hmin : min s.notifications 1024 = s.notifications := by omega
        refine .done ?_ ?_ (by omega) ?_
        · exact if_neg (by omega)
        · exact Nat.sub_eq_zero_of_le hmin.ge
        · rintro ⟨q, rfl⟩
          omega
      · refine .reading ?_ ?_
        · exact if_pos (by omega)
        · show s.notifications - min s.notifications 1024 + 1024 * (k + 1) = n
          omega
  · cases hdone.symm.trans hloop

variable [DecidableEq W]

theorem takeOrWait_loop (s : Server W) (w : W) (c : Cond) :
    (takeOrWait s w c).loop = s.loop ∧ (takeOrWait s w c).notifications = s.notifications := by
  cases c with
  | ready index =>
    simp only [takeOrWait]
    split <;> exact ⟨rfl, rfl⟩
  | udpRecv =>
    simp only [takeOrWait]
    split <;> exact ⟨rfl, rfl⟩

theorem getServerReadySocket_loop (s : Server W) (w : W) (index : Nat) :
    (getServerReadySocket s w index).loop = s.loop ∧
      (getServerReadySocket s w index).notifications = s.notifications := by
  unfold getServerReadySocket
  split
  · exact takeOrWait_loop s w _
  · exact ⟨rfl, rfl⟩

variable [Fintype W]

/-- **A step of a drain**: a `recv` is counted, and the workers leave the drain alone. -/
theorem step_draining {a : Action W} (h : Draining n k rest batch s) (ha : InDrain s a)
    (hstep : step s a = .ok t) : Draining n (k + recvs [a]) rest batch t := by
  cases steps_of_step hstep with
  | recv hl ht => exact h.recv hl ha ht
  | getServerReadySocket hw => exact h.same (getServerReadySocket_loop s _ _)
  | getUDPPacket hw => exact h.same (takeOrWait_loop s _ _)
  | retest hw => exact h.same (takeOrWait_loop s _ _)
  | spurious hw => exact h.same ⟨rfl, rfl⟩
  | insertServerReuseSocket hp =>
    obtain rfl : _ = false := ha
    exact h.same ⟨rfl, rfl⟩
  | closeDelete hp => exact h.same ⟨rfl, rfl⟩
  | stopServer => exact h.same ⟨rfl, rfl⟩
  | _ => exact ha.elim

theorem DrainRun.draining {acts : List (Action W)} (hrun : DrainRun s acts t)
    (h : Draining n k rest batch s) : Draining n (k + recvs acts) rest batch t := by
  obtain ⟨hruns, hin⟩ := hrun
  induction acts generalizing s k with
  | nil =>
    cases hruns
    exact h
  | cons a acts ih =>
    obtain ⟨u, hu, ht⟩ := exec_cons_ok.mp hruns
    have hnext := ih (step_draining h hin.1 hu) ht (hin.2 u hu)
    have hcount : recvs ([a] ++ acts) = recvs [a] + recvs acts := List.countP_append
    rw [List.singleton_append] at hcount
    rw [hcount, ← Nat.add_assoc]
    exact hnext

/-- `recv` returns when there is something to read. -/
theorem step_recv (hloop : s.loop = .recvLocal rest batch)
    (hn : recvAnswer s.notifications = some n) :
    step s (.recv n) = .ok { s with
      notifications := s.notifications - n
      loop := if n = 1024 then .recvLocal rest batch else .swapReuse rest batch } := by
  unfold recvAnswer at hn
  split at hn
  · cases hn
  · cases hn
    simp only [step, hloop, recvLocal]
    rw [if_neg (by omega), if_pos (by omega)]

/-- Full blocks only, and then nothing to read. -/
theorem exists_emptied (hloop : s.loop = .recvLocal rest batch)
    (hleft : s.notifications = 1024 * k) :
    ∃ acts t, DrainRun s acts t ∧ t.loop = .recvLocal rest batch ∧ t.notifications = 0 := by
  induction k generalizing s with
  | zero => exact ⟨[], s, ⟨rfl, trivial⟩, hloop, hleft⟩
  | succ k ih =>
    have hn : recvAnswer s.notifications = some 1024 := by
      unfold recvAnswer
      rw [if_neg (by omega), min_eq_right (by omega)]
    have hstep := step_recv hloop hn
    obtain ⟨acts, t, ⟨hruns, hin⟩, hend, hempty⟩ := ih (s := { s with
      notifications := s.notifications - 1024, loop := .recvLocal rest batch }) rfl
      (show s.notifications - 1024 = 1024 * k by omega)
    refine ⟨.recv 1024 :: acts, t, ⟨exec_cons_ok.mpr ⟨_, hstep, hruns⟩, hn, fun u hu => ?_⟩, hend,
      hempty⟩
    cases hstep.symm.trans hu
    exact hin

end

/-! ## 3. When the drain ends -/

/-- **When the drain ends**: from every state in which the local socket has triggered with some
bytes pending, and whatever the workers do but send, exactly when their number is no multiple of
1024. -/
theorem drain_ends_iff [DecidableEq W] [Fintype W] (s : Server W) (rest : List EpollEvent)
    (batch : SkMap) (hloop : s.loop = .recvLocal rest batch) :
    DrainEnds s rest batch ↔ ¬ 1024 ∣ s.notifications := by
  have hstart : Draining s.notifications 0 rest batch s := .reading hloop (by omega)
  constructor
  · rintro h ⟨k, hk⟩
    obtain ⟨acts, t, hrun, hend, hempty⟩ := exists_emptied hloop hk
    obtain ⟨n, u, hn, -⟩ := h.goesOn acts t hrun hend
    rw [hempty] at hn
    cases hn
  · intro hpart
    constructor
    · intro acts t hrun hend
      have hsome : t.notifications ≠ 0 := by
        rcases hrun.draining hstart with ⟨-, hleft⟩ | ⟨hdone, -, -, -⟩
        · intro hempty
          exact hpart ⟨0 + recvs acts, by omega⟩
        · cases hdone.symm.trans hend
      have hn : recvAnswer t.notifications = some (min t.notifications 1024) := if_neg hsome
      exact ⟨_, _, hn, step_recv hend hn⟩
    · intro acts t hrun
      rcases hrun.draining hstart with ⟨-, hleft⟩ | ⟨-, -, hcalls, -⟩ <;> omega
    · intro acts t hrun hend
      rcases hrun.draining hstart with ⟨hreading, -⟩ | ⟨hdone, hleft, -, -⟩
      · exact absurd hreading hend
      · refine ⟨hleft, getServerReuseSocketList t rest batch, ?_, rfl, rfl⟩
        simp only [step, nextStep, hdone]

/-! ## 4. How many bytes there can be -/

/-- One connection of the only listener comes in, is triggered, and handed to the only worker, who
hands it back. -/
def handBackOne (p : Ptr) : List (Action Unit) :=
  [.epollWait [(.listen 0, { epollIn := true })], .next, .accept (some { ptr := p, fd := p }),
    .accept none, .next, .epollWait [(.server p, { epollIn := true })], .next, .next, .next,
    .signal none, .next, .getServerReadySocket () 0, .insertServerReuseSocket () 0 p true]

/-- So many connections are handed back before the local socket is looked at. -/
def handBacks (n : Nat) : List (Action Unit) :=
  (List.range n).flatMap handBackOne ++
    [.epollWait [(.localSocket, { epollIn := true })], .next]

/-- At `epoll_wait`, with the addresses from `n` on free and `n` bytes pending. -/
structure HandedBack (s : Server Unit) (n : Nat) : Prop where
  loop : s.loop = .wait
  cancel : s.epollCancel = false
  epoll : s.epoll = [.listen 0, .localSocket]
  ready : s.readyList = [[]]
  free : ∀ p, n ≤ p → s.heap p = none
  pending : s.notifications = n
  worker : s.worker () = {}

theorem start_handedBack : HandedBack (start Unit 1 false) 0 :=
  ⟨rfl, rfl, rfl, rfl, fun _ _ => rfl, rfl, rfl⟩

/-- One connection more. -/
theorem handBackOne_handedBack {s : Server Unit} {n : Nat} (h : HandedBack s n) :
    ∃ t, exec step s (handBackOne n) = .ok t ∧ HandedBack t (n + 1) := by
  obtain ⟨hloop, hcancel, hepoll, hready, hfree, hpending, hworker⟩ := h
  have hn := hfree n le_rfl
  have hempty : (StdMap.empty : SkMap).entries = [] := rfl
  have hone : (StdMap.pushBack (StdMap.empty : SkMap) 0 n).entries = [(0, [n])] := rfl
  simp [handBackOne, exec, step, nextStep, epollProcess, acceptOne, epollDel,
    insertServerReadySocket, signalOne, getServerReadySocket, takeOrWait,
    insertServerReuseSocket, setWorker, hloop, hcancel, hepoll, hready, hpending, hworker, hn,
    hempty, hone]
  refine ⟨rfl, rfl, rfl, rfl, ?_, rfl, by simp⟩
  intro p hp
  have hne : p ≠ n := by omega
  simpa [hne] using hfree p (by omega)

/-- **Any number of bytes can be pending** when the local socket is looked at, if the buffer of the
pair is large enough for them. -/
theorem handBacks_pending (n : Nat) : ∃ s, exec step (start Unit 1 false) (handBacks n) = .ok s ∧
    s.loop = .recvLocal [] StdMap.empty ∧ s.notifications = n := by
  have hbacks : ∃ s, exec step (start Unit 1 false) ((List.range n).flatMap handBackOne) = .ok s ∧
      HandedBack s n := by
    induction n with
    | zero => exact ⟨_, rfl, start_handedBack⟩
    | succ n ih =>
      obtain ⟨s, hs, hback⟩ := ih
      obtain ⟨t, ht, hnext⟩ := handBackOne_handedBack hback
      refine ⟨t, ?_, hnext⟩
      rw [List.range_succ, List.flatMap_append]
      exact exec_append_ok.mpr ⟨s, hs, by simpa using ht⟩
  obtain ⟨s, hs, hback⟩ := hbacks
  refine ⟨{ s with loop := .recvLocal [] StdMap.empty }, exec_append_ok.mpr ⟨s, hs, ?_⟩, rfl,
    hback.pending⟩
  simp [exec, step, nextStep, epollProcess, hback.loop, hback.cancel, hback.epoll]

/-- Three sockets handed back: the drain ends. -/
theorem three_bytes_drained : ∃ s, exec step (start Unit 1 false) (handBacks 3) = .ok s ∧
    s.notifications = 3 ∧ DrainEnds s [] StdMap.empty := by
  obtain ⟨s, hs, hloop, hpending⟩ := handBacks_pending 3
  refine ⟨s, hs, hpending, (drain_ends_iff s [] StdMap.empty hloop).mpr ?_⟩
  rw [hpending]
  decide

/-- 1024 sockets handed back: after a full block the next `recv` waits for ever. -/
theorem full_block_blocks : ∃ s, exec step (start Unit 1 false) (handBacks 1024) = .ok s ∧
    s.notifications = 1024 ∧ ¬ DrainEnds s [] StdMap.empty ∧
      ∃ t, step s (.recv 1024) = .ok t ∧ t.loop = .recvLocal [] StdMap.empty ∧
        recvAnswer t.notifications = none := by
  obtain ⟨s, hs, hloop, hpending⟩ := handBacks_pending 1024
  have hn : recvAnswer s.notifications = some 1024 := by
    rw [hpending]
    rfl
  refine ⟨s, hs, hpending, ?_, _, step_recv hloop hn, rfl, ?_⟩
  · intro h
    obtain ⟨acts, t, hrun, hend, hempty⟩ := exists_emptied (k := 1) hloop hpending
    obtain ⟨m, u, hm, -⟩ := h.goesOn acts t hrun hend
    rw [hempty] at hm
    cases hm
  · show recvAnswer (s.notifications - 1024) = none
    rw [hpending]
    rfl

end Kknf.AllSync
