/-
# Every accepted socket is in exactly one place

A `Socket` accepted by the epoll thread is a raw pointer that is copied between an epoll
registration, two maps local to the epoll thread, the ready lists, the workers and the reuse
list.  Nothing in the types keeps two of these from holding the same pointer, or a pointer to a
deleted object.  This file proves that the hand-over protocol does:

* `Place` lists the six kinds of place, and `occ s l` is what place `l` holds in state `s`;
* `Owned` is the invariant: no socket is in two places or twice in one (`Exclusive`), the
  sockets that are somewhere are exactly the ones not deleted yet, and the events still to be
  looked at belong to registered sockets, each to a different one;
* `step_owned` proves it step by step.  Every step either leaves all places alone or is one of
  the three hand-overs of `Placement`: a move, an addition, a removal;
* `socket_in_exactly_one_place` is the result over whole runs of any number of workers.

The order of two statements carries the argument.  `EpollLoop` takes a triggered socket out of
epoll (`EPOLL_CTL_DEL`) before `InsertServerReadySocket` publishes the batch, and
`GetServerReuseSocketList` takes the whole reuse map at once, so that a socket put back into
epoll is no longer in the map a worker could reach.
-/
import Mathlib.Data.Fintype.Basic
import Mathlib.Data.List.GetD
import Kknf.AllSync.Server
import Kknf.Lib.Run
import Kknf.Lib.Placement

namespace Kknf.AllSync

open Kknf.Placement Kknf.Run

variable {W : Type}

/-! ## 1. Places -/

/-- Where an accepted socket can be. -/
inductive Place (W : Type)
  /-- registered in `epoll_fd_` -/
  | epoll
  /-- in `server_sk_map`, not published yet -/
  | batch
  /-- in `server_socket_ready_list_[index]` -/
  | ready (index : Nat)
  /-- returned to worker `w` and neither given back nor deleted by it -/
  | worker (w : W)
  /-- in `server_socket_reuse_list_` -/
  | reuse
  /-- in the swapped-out reuse list, not put back into epoll yet -/
  | swapped

/-- The accepted socket an epoll registration points to. -/
def EpollPtr.server? : EpollPtr → Option Ptr
  | .server p => some p
  | _ => none

namespace Loop

/-- The triggered events the epoll thread has not looked at yet. -/
def rest : Loop → List EpollEvent
  | .events rest _ | .accepting _ rest _ | .recvUDP _ rest _ | .insertUDP _ rest _
  | .signalUDP rest _ | .recvLocal rest _ | .swapReuse rest _ | .readd _ rest _ => rest
  | _ => []

/-- The part of `server_sk_map` that is not published yet. -/
def batch : Loop → List Ptr
  | .events _ b | .accepting _ _ b | .recvUDP _ _ b | .insertUDP _ _ b
  | .signalUDP _ b | .recvLocal _ b | .swapReuse _ b | .readd _ _ b => b.elems
  | .insertReady entries | .signalReady _ entries => entries.flatMap Prod.snd
  | _ => []

/-- The part of the swapped-out reuse list that is not in epoll again yet. -/
def swapped : Loop → List Ptr
  | .readd todo _ _ => todo
  | _ => []

end Loop

/-- The sockets each place holds. -/
def occ (s : Server W) : Place W → List Ptr
  | .epoll => s.epoll.filterMap EpollPtr.server?
  | .batch => s.loop.batch
  | .ready index => s.readyList.getD index []
  | .worker w => (s.worker w).held
  | .reuse => s.reuseList.elems
  | .swapped => s.loop.swapped

/-- The events still to be looked at are for different registered sockets. -/
def Triggered (s : Server W) : Prop :=
  (s.loop.rest.map Prod.fst).Nodup ∧ ∀ e ∈ s.loop.rest, e.1 ∈ s.epoll

/-- The ownership invariant. -/
structure Owned (s : Server W) : Prop where
  exclusive : Exclusive (occ s)
  alive : ∀ p, Placed (occ s) p ↔ (s.heap p).isSome
  triggered : Triggered s

/-! ## 2. The hand-overs keep the invariant -/

/-- A step that changes no place and deletes nothing. -/
theorem Owned.same {s t : Server W} (h : Owned s) (hocc : occ t = occ s)
    (hheap : t.heap = s.heap) (ht : Triggered t) : Owned t :=
  ⟨hocc ▸ h.exclusive, fun p => by rw [hocc, hheap]; exact h.alive p, ht⟩

/-- A step that moves sockets from one place to another. -/
theorem Owned.moved {s t : Server W} {i j : Place W} {l : List Ptr} (h : Owned s)
    (m : Moved (occ s) (occ t) i j l) (hheap : t.heap = s.heap) (ht : Triggered t) :
    Owned t :=
  ⟨h.exclusive.moved m, fun p => by rw [m.placed_iff, hheap]; exact h.alive p, ht⟩

/-- A step that creates a socket. -/
theorem Owned.added {s t : Server W} {i : Place W} {p : Ptr} {k : Socket} (h : Owned s)
    (hp : s.heap p = none) (htarget : (occ t i).Perm (occ s i ++ [p]))
    (hframe : ∀ j, j ≠ i → occ t j = occ s j)
    (hheap : t.heap = Function.update s.heap p (some k)) (ht : Triggered t) : Owned t := by
  have hfresh : ¬ Placed (occ s) p := by
    rw [h.alive, hp]
    simp
  have m : Added (occ s) (occ t) i p := ⟨hfresh, htarget, hframe⟩
  refine ⟨h.exclusive.added m, fun q => ?_, ht⟩
  rw [m.placed_iff, hheap, h.alive]
  by_cases hq : q = p
  · simp [hq]
  · simp [hq]

/-- A step that deletes a socket. -/
theorem Owned.dropped {s t : Server W} {i : Place W} {p : Ptr} (h : Owned s)
    (m : Dropped (occ s) (occ t) i p) (hheap : t.heap = Function.update s.heap p none)
    (ht : Triggered t) : Owned t := by
  refine ⟨h.exclusive.dropped m, fun q => ?_, ht⟩
  rw [m.placed_iff h.exclusive, hheap, h.alive]
  by_cases hq : q = p
  · simp [hq]
  · simp [hq]

/-! ## 3. Lists and registrations -/

theorem getD_set {α : Type} (l : List (List α)) {i : Nat} (x : List α) (h : i < l.length)
    (j : Nat) : (l.set i x).getD j [] = if j = i then x else l.getD j [] := by
  simp only [List.getD_eq_getElem?_getD]
  by_cases hj : j = i
  · subst hj
    simp [h]
  · rw [List.getElem?_set_ne (Ne.symm hj), if_neg hj]

/-- Taking a registered accepted socket out of epoll. -/
theorem server_erase_perm {l : List EpollPtr} {p : Ptr} (h : EpollPtr.server p ∈ l) :
    (l.filterMap EpollPtr.server?).Perm
      (p :: (l.erase (.server p)).filterMap EpollPtr.server?) := by
  have hcons : (EpollPtr.server p :: l.erase (.server p)).filterMap EpollPtr.server?
      = p :: (l.erase (.server p)).filterMap EpollPtr.server? := rfl
  exact hcons ▸ (List.perm_cons_erase h).filterMap EpollPtr.server?

/-- Taking another registration out of epoll leaves the accepted sockets alone. -/
theorem server_erase_other {l : List EpollPtr} {t : EpollPtr} (h : t.server? = none) :
    (l.erase t).filterMap EpollPtr.server? = l.filterMap EpollPtr.server? := by
  induction l with
  | nil => rfl
  | cons a l ih =>
    rw [List.erase_cons]
    split
    · rename_i hat
      have hat' : a = t := by simpa using hat
      rw [List.filterMap_cons_none (hat' ▸ h)]
    · simp only [List.filterMap_cons, ih]

theorem server_append (l : List EpollPtr) (p : Ptr) :
    (l ++ [EpollPtr.server p]).filterMap EpollPtr.server?
      = l.filterMap EpollPtr.server? ++ [p] := by
  rw [List.filterMap_append]
  rfl

/-- The remaining events stay registered when the head event's socket leaves epoll. -/
theorem triggered_erase {s t : Server W} {e : EpollEvent} {rest : List EpollEvent}
    (h : Triggered s) (hs : s.loop.rest = e :: rest) (ht : t.loop.rest = rest)
    (hep : t.epoll = s.epoll.erase e.1) : Triggered t := by
  obtain ⟨hnd, hmem⟩ := h
  rw [hs, List.map_cons, List.nodup_cons] at hnd
  refine ⟨ht ▸ hnd.2, fun e' he' => ?_⟩
  rw [ht] at he'
  have hne : e'.1 ≠ e.1 := fun heq => hnd.1 (heq ▸ List.mem_map_of_mem he')
  rw [hep, List.mem_erase_of_ne hne]
  exact hmem e' (hs ▸ List.mem_cons_of_mem e he')

/-- The remaining events stay registered when epoll only grows. -/
theorem triggered_mono {s t : Server W} (h : Triggered s)
    (hrest : t.loop.rest.Sublist s.loop.rest) (hep : ∀ x ∈ s.epoll, x ∈ t.epoll) :
    Triggered t :=
  ⟨(hrest.map Prod.fst).nodup h.1, fun e he => hep _ (h.2 e (hrest.subset he))⟩

/-! ## 4. The steps of the epoll thread -/

/-- A step of the epoll thread that only moves its program counter. -/
theorem Owned.setLoop {s : Server W} {l : Loop} (h : Owned s) (hb : l.batch = s.loop.batch)
    (hs : l.swapped = s.loop.swapped) (hrest : l.rest.Sublist s.loop.rest) :
    Owned { s with loop := l } := by
  refine h.same (funext fun k => ?_) rfl (triggered_mono h.triggered hrest fun _ hx => hx)
  cases k with
  | batch => exact hb
  | swapped => exact hs
  | _ => rfl

/-- Deleting a triggered accepted socket, or dropping another registration. -/
theorem destroyTriggered_owned {s : Server W} {e : EpollEvent} {rest : List EpollEvent}
    {b : SkMap} (h : Owned s) (hl : s.loop = .events (e :: rest) b) :
    Owned { destroyTriggered s e.1 with loop := .events rest b } := by
  have hrest : s.loop.rest = e :: rest := by rw [hl]; rfl
  have hreg : e.1 ∈ s.epoll := h.triggered.2 e (hrest ▸ List.mem_cons_self)
  cases hp : e.1 with
  | server p =>
    rw [hp] at hreg
    refine h.dropped (i := .epoll) (p := p) ⟨server_erase_perm hreg, fun k hk => ?_⟩ rfl
      (triggered_erase h.triggered hrest rfl ?_)
    · cases k <;> simp_all [occ, destroyTriggered, deleteSocket, epollDel, Loop.batch,
        Loop.swapped]
    · rw [hp]
      rfl
  | _ =>
    refine h.same (funext fun k => ?_) rfl (triggered_erase h.triggered hrest rfl ?_)
    · cases k with
      | epoll => exact server_erase_other rfl
      | _ => simp [occ, destroyTriggered, epollDel, hl, Loop.batch, Loop.swapped]
    · rw [hp]
      rfl

theorem epollProcess_owned {s t : Server W} {e : EpollEvent} {rest : List EpollEvent}
    {b : SkMap} (h : Owned s) (hl : s.loop = .events (e :: rest) b)
    (hstep : epollProcess s e rest b = .ok t) : Owned t := by
  have hrest : s.loop.rest = e :: rest := by rw [hl]; rfl
  have hsub : rest.Sublist s.loop.rest := hrest ▸ List.sublist_cons_self e rest
  have hsame : ∀ l : Loop, l.rest = rest → l.batch = b.elems → l.swapped = [] →
      Owned { s with loop := l } := fun l h1 h2 h3 =>
    h.setLoop (by rw [h2, hl]; rfl) (by rw [h3, hl]; rfl) (h1 ▸ hsub)
  unfold epollProcess at hstep
  split at hstep
  · cases hstep
    exact destroyTriggered_owned h hl
  split at hstep
  swap
  · cases hstep
    exact hsame _ rfl rfl rfl
  split at hstep
  · cases hstep
    exact hsame _ rfl rfl rfl
  · rename_i p hp
    split at hstep
    · cases hstep
    rename_i sk hsk
    split at hstep
    · cases hstep
      exact destroyTriggered_owned h hl
    -- the hand-over proper: out of epoll, into the batch map
    cases hstep
    have hreg : EpollPtr.server p ∈ s.epoll := hp ▸ h.triggered.2 e (hrest ▸ List.mem_cons_self)
    refine h.moved (i := .epoll) (j := .batch) (l := [p]) ⟨by simp, ?_, ?_, ?_⟩ rfl
      (triggered_erase h.triggered hrest rfl rfl)
    · rw [hp]
      exact server_erase_perm hreg
    · simpa [occ, hl, Loop.batch] using StdMap.elems_pushBack_perm b sk.id p
    · intro k hk hk'
      cases k <;> simp_all [occ, epollDel, Loop.swapped]
  · cases hstep
    exact hsame _ rfl rfl rfl
  · cases hstep
    exact hsame _ rfl rfl rfl

theorem acceptOne_owned {s t : Server W} {id : Nat} {rest : List EpollEvent} {b : SkMap}
    {r : Option Accepted} (h : Owned s) (hl : s.loop = .accepting id rest b)
    (hstep : acceptOne s id rest b r = .ok t) : Owned t := by
  cases r with
  | none =>
    cases hstep
    exact h.setLoop (by rw [hl]; rfl) (by rw [hl]; rfl) (hl ▸ List.Sublist.refl _)
  | some a =>
    simp only [acceptOne] at hstep
    split at hstep
    · cases hstep
    rename_i hfree
    split at hstep
    · cases hstep
      refine h.added (i := .epoll) (p := a.ptr) (k := ⟨a.fd, id⟩) (by simpa using hfree) ?_
        (fun k hk => ?_) rfl (triggered_mono h.triggered (List.Sublist.refl _) ?_)
      · simp only [occ, server_append]
        exact List.Perm.refl _
      · cases k <;> simp_all [occ]
      · intro x hx
        exact List.mem_append_left _ hx
    · cases hstep
      exact h

theorem insertServerReadySocket_owned {s t : Server W} {index : Nat} {l : List Ptr}
    {entries : List (Nat × List Ptr)} (h : Owned s)
    (hl : s.loop = .insertReady ((index, l) :: entries))
    (hstep : insertServerReadySocket s index l entries = .ok t) : Owned t := by
  unfold insertServerReadySocket at hstep
  split at hstep
  swap
  · cases hstep
  rename_i hi
  cases hstep
  refine h.moved (i := .batch) (j := .ready index) (l := l) ⟨by simp, ?_, ?_, ?_⟩ rfl
    ⟨List.nodup_nil, fun e he => absurd he List.not_mem_nil⟩
  · simp only [occ, hl, Loop.batch, List.flatMap_cons]
    exact List.Perm.refl _
  · simp only [occ]
    rw [getD_set _ _ hi, if_pos rfl]
  · intro k hk hk'
    cases k with
    | ready j =>
      have hji : j ≠ index := fun e => hk' (e ▸ rfl)
      simp only [occ]
      rw [getD_set _ _ hi, if_neg hji]
    | batch => exact absurd rfl hk
    | _ => simp [occ, hl, Loop.swapped]

theorem getServerReuseSocketList_owned {s : Server W} {rest : List EpollEvent} {b : SkMap}
    (h : Owned s) (hl : s.loop = .swapReuse rest b) :
    Owned (getServerReuseSocketList s rest b) := by
  refine h.moved (i := .reuse) (j := .swapped) (l := s.reuseList.elems) ⟨by simp, ?_, ?_, ?_⟩
    rfl (triggered_mono h.triggered ?_ fun _ hx => hx)
  · simp [occ, getServerReuseSocketList]
  · simp [occ, getServerReuseSocketList, hl, Loop.swapped]
  · intro k hk hk'
    cases k <;> simp_all [occ, getServerReuseSocketList, Loop.batch]
  · rw [hl]
    exact List.Sublist.refl _

theorem readdOne_owned {s : Server W} {p : Ptr} {todo : List Ptr} {rest : List EpollEvent}
    {b : SkMap} (ok : Bool) (h : Owned s) (hl : s.loop = .readd (p :: todo) rest b) :
    Owned (readdOne s p todo rest b ok) := by
  cases ok with
  | true =>
    refine h.moved (i := .swapped) (j := .epoll) (l := [p]) ⟨by simp, ?_, ?_, ?_⟩ rfl
      (triggered_mono h.triggered ?_ ?_)
    · simp [occ, readdOne, hl, Loop.swapped]
    · exact List.Perm.of_eq (server_append s.epoll p)
    · intro k hk hk'
      cases k <;> simp_all [occ, readdOne, Loop.batch]
    · rw [hl]
      exact List.Sublist.refl _
    · intro x hx
      exact List.mem_append_left _ hx
  | false =>
    refine h.dropped (i := .swapped) (p := p) ⟨?_, ?_⟩ rfl (triggered_mono h.triggered ?_ ?_)
    · simp [occ, readdOne, hl, Loop.swapped]
    · intro k hk
      cases k <;> simp_all [occ, readdOne, deleteSocket, Loop.batch]
    · rw [hl]
      exact List.Sublist.refl _
    · exact fun _ hx => hx

/-- One `recvfrom` is about the loop only. -/
theorem recvfromOne_owned {s : Server W} {pkts : List Packet} {rest : List EpollEvent} {b : SkMap}
    {r : Option Packet} (h : Owned s) (hl : s.loop = .recvUDP pkts rest b) :
    Owned (recvfromOne s pkts rest b r) := by
  cases r with
  | some pkt =>
    exact h.setLoop (by rw [hl]; rfl) (by rw [hl]; rfl) (hl ▸ List.Sublist.refl _)
  | none =>
    simp only [recvfromOne]
    split <;>
      exact h.setLoop (by rw [hl]; rfl) (by rw [hl]; rfl) (hl ▸ List.Sublist.refl _)

theorem recvLocal_owned {s t : Server W} {rest : List EpollEvent} {b : SkMap} {n : Nat}
    (h : Owned s) (hl : s.loop = .recvLocal rest b) (hrecv : recvLocal s rest b n = .ok t) :
    Owned t := by
  simp only [recvLocal] at hrecv
  split at hrecv
  · cases hrecv
  split at hrecv
  · cases hrecv
    have hsame : Owned { s with notifications := s.notifications - n } :=
      h.same rfl rfl (triggered_mono h.triggered (List.Sublist.refl _) fun _ hx => hx)
    split <;>
      exact hsame.setLoop (by simp only [hl, Loop.batch]) (by simp only [hl, Loop.swapped])
        (by simp only [hl]; exact List.Sublist.refl _)
  · cases hrecv

theorem nextStep_owned {s t : Server W} (h : Owned s) (hstep : nextStep s = .ok t) :
    Owned t := by
  unfold nextStep at hstep
  split at hstep
  · rename_i e rest b hl
    exact epollProcess_owned h hl hstep
  · rename_i b hl
    cases hstep
    split
    · rename_i hb
      exact h.setLoop (by simp [hl, Loop.batch, StdMap.elems, hb]) (by rw [hl]; rfl)
        (List.nil_sublist _)
    · exact h.setLoop (by rw [hl]; rfl) (by rw [hl]; rfl) (List.nil_sublist _)
  · rename_i pkts rest b hl
    cases hstep
    exact (h.setLoop (l := .signalUDP rest b) (by rw [hl]; rfl) (by rw [hl]; rfl)
      (hl ▸ List.Sublist.refl _)).same rfl rfl (triggered_mono h.triggered
        (hl ▸ List.Sublist.refl _) fun _ hx => hx)
  · rename_i rest b hl
    cases hstep
    exact getServerReuseSocketList_owned h hl
  · rename_i rest b hl
    cases hstep
    exact h.setLoop (by rw [hl]; rfl) (by rw [hl]; rfl) (hl ▸ List.Sublist.refl _)
  · rename_i index l entries hl
    exact insertServerReadySocket_owned h hl hstep
  · rename_i hl
    cases hstep
    exact h.setLoop (by rw [hl]; rfl) (by rw [hl]; rfl) (List.nil_sublist _)
  · cases hstep

/-- No socket has been accepted when the loop starts. -/
theorem start_owned (n : Nat) (hasUDP : Bool) : Owned (start W n hasUDP) := by
  have hlisten : ((List.range n).map EpollPtr.listen).filterMap EpollPtr.server? = [] := by
    rw [List.filterMap_map]
    exact List.filterMap_eq_nil_iff.mpr fun _ _ => rfl
  have hocc : ∀ k, occ (start W n hasUDP) k = [] := by
    intro k
    cases k with
    | epoll =>
      cases hasUDP <;>
        simp only [occ, start, List.filterMap_append, hlisten] <;> rfl
    | ready index =>
      by_cases hi : index < n
      · simp [occ, start, hi]
      · simp [occ, start, hi]
    | _ => rfl
  refine ⟨⟨fun k => ?_, fun k l p hk => ?_⟩, fun p => ?_, List.nodup_nil, ?_⟩
  · rw [hocc]
    exact List.nodup_nil
  · rw [hocc] at hk
    cases hk
  · constructor
    · rintro ⟨k, hk⟩
      rw [hocc] at hk
      cases hk
    · intro hp
      cases hp
  · intro e he
    cases he

/-! ## 5. The steps of the workers -/

variable [DecidableEq W]

/-- A step that only changes what a worker is doing. -/
theorem Owned.setStatus {s : Server W} (h : Owned s) (w : W) (x : Worker)
    (hx : x.held = (s.worker w).held) : Owned (setWorker s w x) := by
  refine h.same (funext fun k => ?_) rfl (triggered_mono h.triggered (List.Sublist.refl _)
    fun _ hx => hx)
  cases k with
  | worker v =>
    by_cases hv : v = w
    · subst hv
      simp [occ, setWorker, hx]
    · simp [occ, setWorker, hv]
  | _ => rfl

/-- A worker that finds a socket in its ready list becomes its owner. -/
theorem takeReady_owned {s : Server W} {w : W} {index : Nat} {p : Ptr} {l : List Ptr}
    {x : Worker} (h : Owned s) (hl : s.readyList.getD index [] = p :: l)
    (hx : x.held = (s.worker w).held ++ [p]) :
    Owned (setWorker { s with readyList := s.readyList.set index l } w x) := by
  have hi : index < s.readyList.length := by
    by_contra hge
    rw [List.getD_eq_default _ _ (Nat.le_of_not_lt hge)] at hl
    cases hl
  refine h.moved (i := .ready index) (j := .worker w) (l := [p]) ⟨by simp, ?_, ?_, ?_⟩ rfl
    (triggered_mono h.triggered (List.Sublist.refl _) fun _ hx => hx)
  · simp only [occ, setWorker]
    rw [getD_set _ _ hi, if_pos rfl, hl]
    exact List.Perm.refl _
  · simp [occ, setWorker, hx]
  · intro k hk hk'
    cases k with
    | ready j =>
      have hji : j ≠ index := fun e => hk (e ▸ rfl)
      simp only [occ, setWorker]
      rw [getD_set _ _ hi, if_neg hji]
    | worker v =>
      have hvw : v ≠ w := fun e => hk' (e ▸ rfl)
      simp [occ, setWorker, hvw]
    | _ => rfl

theorem takeOrWait_owned {s : Server W} (h : Owned s) (w : W) (c : Cond) :
    Owned (takeOrWait s w c) := by
  cases c with
  | ready index =>
    simp only [takeOrWait]
    split
    · exact h.setStatus w _ rfl
    · rename_i p l hl
      exact takeReady_owned h hl rfl
  | udpRecv =>
    simp only [takeOrWait]
    split
    · exact h.setStatus w _ rfl
    · rename_i pkt l hl
      have hsame : Owned { s with udpRecvList := l } :=
        h.same rfl rfl (triggered_mono h.triggered (List.Sublist.refl _) fun _ hx => hx)
      exact hsame.setStatus w _ rfl

/-- **Giving a socket back.**  It leaves the worker and enters the reuse map in one mutex-protected
region. -/
theorem insertServerReuseSocket_owned {s : Server W} {w : W} {p : Ptr} (h : Owned s)
    (hp : p ∈ (s.worker w).held) (poolIndex : Nat) (sendOk : Bool) :
    Owned (insertServerReuseSocket s w poolIndex p sendOk) := by
  refine h.moved (i := .worker w) (j := .reuse) (l := [p]) ⟨by simp, ?_, ?_, ?_⟩ rfl
    (triggered_mono h.triggered (List.Sublist.refl _) fun _ hx => hx)
  · simpa [occ, insertServerReuseSocket, setWorker] using List.perm_cons_erase hp
  · exact StdMap.elems_pushBack_perm s.reuseList poolIndex p
  · intro k hk hk'
    cases k with
    | worker v =>
      have hvw : v ≠ w := fun e => hk (e ▸ rfl)
      simp [occ, insertServerReuseSocket, setWorker, hvw]
    | reuse => exact absurd rfl hk'
    | _ => rfl

theorem closeDelete_owned {s : Server W} {w : W} {p : Ptr} (h : Owned s)
    (hp : p ∈ (s.worker w).held) :
    Owned (deleteSocket (setWorker s w
      { s.worker w with held := (s.worker w).held.erase p }) p) := by
  refine h.dropped (i := .worker w) ⟨?_, ?_⟩ rfl
    (triggered_mono h.triggered (List.Sublist.refl _) fun _ hx => hx)
  · simpa [occ, deleteSocket, setWorker] using List.perm_cons_erase hp
  · intro k hk
    cases k with
    | worker v =>
      have hvw : v ≠ w := fun e => hk (e ▸ rfl)
      simp [occ, deleteSocket, setWorker, hvw]
    | _ => rfl

theorem signalOne_owned [Fintype W] {s t : Server W} {c : Cond} {r : Option W} (h : Owned s)
    (hstep : signalOne s c r = .ok t) : Owned t := by
  cases r with
  | some w =>
    simp only [signalOne] at hstep
    split at hstep
    · cases hstep
      exact h.setStatus w _ rfl
    · cases hstep
  | none =>
    simp only [signalOne] at hstep
    split at hstep
    · cases hstep
    · cases hstep
      exact h

/-! ## 6. Whole runs -/

/-- **Every step keeps the ownership invariant.** -/
theorem step_owned [Fintype W] {s t : Server W} {a : Action W} (h : Owned s)
    (hstep : step s a = .ok t) : Owned t := by
  cases steps_of_step hstep with
  | epollWait hl hev =>
    refine h.same (funext fun k => ?_) rfl ⟨hev.2.1, hev.2.2⟩
    cases k <;> simp [occ, hl, Loop.batch, Loop.swapped]
  | epollRetry hl => exact h
  | epollFail hl => exact h.setLoop (by rw [hl]; rfl) (by rw [hl]; rfl) (List.nil_sublist _)
  | next hnext => exact nextStep_owned h hnext
  | accept hl haccept => exact acceptOne_owned h hl haccept
  | recvfrom hl => exact recvfromOne_owned h hl
  | recv hl hrecv => exact recvLocal_owned h hl hrecv
  | epollAdd hl => exact readdOne_owned _ h hl
  | @signalReady index entries w t hl hsignal =>
    exact signalOne_owned (h.setLoop (l := .insertReady entries) (by rw [hl]; rfl)
      (by rw [hl]; rfl) (List.nil_sublist _)) hsignal
  | @signalUDP rest batch w t hl hsignal =>
    exact signalOne_owned (h.setLoop (l := .events rest batch) (by rw [hl]; rfl)
      (by rw [hl]; rfl) (hl ▸ List.Sublist.refl _)) hsignal
  | getServerReadySocket hw =>
    unfold getServerReadySocket
    split
    · exact takeOrWait_owned h _ _
    · exact h
  | getUDPPacket hw => exact takeOrWait_owned h _ _
  | retest hw => exact takeOrWait_owned h _ _
  | spurious hw => exact h.setStatus _ _ rfl
  | insertServerReuseSocket hp => exact insertServerReuseSocket_owned h hp.1 _ _
  | closeDelete hp => exact closeDelete_owned h hp.1
  | stopServer =>
    exact h.same rfl rfl (triggered_mono h.triggered (List.Sublist.refl _) fun _ hx => hx)

/-- **Every accepted socket is in exactly one place.**  In every state reached by any
interleaving of the epoll thread with any number of workers: a socket that has not been deleted
is in one place, once, and in no other; what is in a place has not been deleted; and a socket
registered in epoll is in no ready list and held by no worker. -/
theorem socket_in_exactly_one_place [Fintype W] (n : Nat) (hasUDP : Bool)
    (acts : List (Action W)) (s : Server W)
    (hrun : exec step (start W n hasUDP) acts = .ok s) :
    (∀ p, (s.heap p).isSome → ∃ l, (occ s l).count p = 1 ∧ ∀ l', l' ≠ l → p ∉ occ s l') ∧
      (∀ p l, p ∈ occ s l → (s.heap p).isSome) ∧
      (∀ p, p ∈ occ s .epoll →
        (∀ index, p ∉ occ s (.ready index)) ∧ (∀ w, p ∉ occ s (.worker w))) := by
  have hrule : ∀ (t : Server W) (a : Action W) (u : Server W),
      Owned t → True → step t a = .ok u → Owned u := fun t a u h _ hu => step_owned h hu
  have hs : Owned s := Along.invariant (G := fun _ _ => True) hrule (start_owned n hasUDP)
    (along_of_forall fun _ _ _ => trivial) hrun
  refine ⟨fun p hp => hs.exclusive.exactly_one ((hs.alive p).mpr hp), fun p l hp =>
    (hs.alive p).mp ⟨l, hp⟩, fun p hp => ⟨fun index hr => ?_, fun w hw => ?_⟩⟩
  · cases hs.exclusive.unique _ _ p hp hr
  · cases hs.exclusive.unique _ _ p hp hw

/-- A connection goes once round the cycle between the epoll thread and the first of two
workers: accepted, triggered, published, taken, given back, swapped out. -/
def roundTrip : List (Action (Fin 2)) :=
  [.epollWait [(.listen 0, { epollIn := true })], .next, .accept (some { ptr := 100, fd := 7 }),
    .accept none, .next,
    .epollWait [(.server 100, { epollIn := true })], .next, .next, .next, .signal none, .next,
    .getServerReadySocket 0 0, .insertServerReuseSocket 0 0 100 true,
    .epollWait [(.localSocket, { epollIn := true })], .next, .recv 1, .next]

/-- The result at the end of `roundTrip`, where the socket at 100 is alive. -/
theorem roundTrip_one_place : ∃ s, exec step (start (Fin 2) 1 false) roundTrip = .ok s ∧
    (s.heap 100).isSome ∧
    ∃ l, (occ s l).count 100 = 1 ∧ ∀ l', l' ≠ l → 100 ∉ occ s l' :=
  ⟨_, rfl, rfl, (socket_in_exactly_one_place 1 false roundTrip _ rfl).1 100 rfl⟩

end Kknf.AllSync
