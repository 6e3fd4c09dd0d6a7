/-
# The listeners and their ready lists

A listener is known by a number that is used in three ways: its `id()`, which is the length of
`listen_socket_list_` when it is added; the number `AddListenSocket` returns, which is the length of
another vector; and the index of the ready list that the sockets accepted from it go to.  Nothing
ties the vectors together but that `AddListenSocket` changes all of them, and only when no system
call can fail any more (`addListenSockets_aligned`).

From there the number goes with a socket: it is copied in `accept`, it is the key of the batch map,
and it is the index in `InsertServerReadySocket`.  The reuse list, for which the workers choose the
keys, loses the key again: what comes back from it goes through epoll.  So a socket is in no ready
list but that of its listener, and the index is always there (`sockets_keep_to_their_pool`).

All calls of `AddListenSocket` come before `RunServer`; the vectors are read without a mutex
afterwards.  Numbers are not bounded: every listener has a descriptor, which is an `int`.
-/
import Kknf.AllSync.Ownership

namespace Kknf.AllSync

open Kknf.Placement Kknf.Run

/-! ## 1. Adding listeners -/

/-- A `Socket` with `type() == 1`. -/
structure ListenSocket where
  sk : Nat
  my : SocketAddr
  id : Nat

/-- The vectors that belong to the listeners. -/
structure Pools where
  listenSocketList : List ListenSocket := []
  readyListMutex : List Ptr := []
  readyListCond : List Ptr := []
  readyList : List (List Ptr) := []

/-- A call of `AddListenSocket`, with what the system calls answer: the descriptor of `socket`,
whether the others succeed, and the addresses of the new mutex and condition variable. -/
structure ListenCall where
  ip : String
  port : Nat
  socket : Option Nat
  inetAton : Bool := true
  bind : Bool := true
  listen : Bool := true
  newMutex : Ptr := 0
  newCond : Ptr := 0

/-- The part of `AddListenSocket` behind the system calls. -/
def Pools.push (s : Pools) (c : ListenCall) (fd : Nat) : Pools where
  listenSocketList := s.listenSocketList ++ [⟨fd, ⟨c.ip, c.port⟩, s.listenSocketList.length⟩]
  readyListMutex := s.readyListMutex ++ [c.newMutex]
  readyListCond := s.readyListCond ++ [c.newCond]
  readyList := s.readyList ++ [[]]

/-- `AddListenSocket`. -/
def addListenSocket (s : Pools) (c : ListenCall) : Pools × Int :=
  match c.socket with
  | none => (s, -1)
  | some fd =>
    if !c.inetAton then (s, -1)
    else if !c.bind then (s, -1)
    else if !c.listen then (s, -1)
    else (s.push c fd, ((s.push c fd).readyList.length : Int) - 1)

/-- The pools after these calls. -/
def addListenSockets (calls : List ListenCall) : Pools :=
  calls.foldl (fun s c => (addListenSocket s c).1) {}

/-- The server as `EpollLoop` finds it. -/
def Pools.server (s : Pools) (W : Type) (hasUDP : Bool) : Server W where
  heap := fun _ => none
  epoll := s.listenSocketList.map (fun l => .listen l.id) ++ (if hasUDP then [.udp] else []) ++
    [.localSocket]
  readyList := s.readyList
  reuseList := StdMap.empty
  udpRecvList := []
  notifications := 0
  epollCancel := false
  loop := .wait
  worker := fun _ => {}

/-- `RunServer` up to `EpollLoop`: the server, or the number it returns.  `adds` says for which
sockets `epoll_ctl` succeeds. -/
def runServer (W : Type) (s : Pools) (hasUDP : Bool) (adds : EpollPtr → Bool) :
    Except Int (Server W) :=
  if s.listenSocketList = [] ∧ hasUDP = false then .error (-1)
  else if (s.server W hasUDP).epoll.all adds then .ok (s.server W hasUDP)
  else .error (-2)

/-- The vectors fit together: equal lengths, every listener at the index that is its `id()`, and
nothing in the ready lists yet. -/
structure Aligned (s : Pools) : Prop where
  mutexes : s.readyListMutex.length = s.listenSocketList.length
  conds : s.readyListCond.length = s.listenSocketList.length
  lists : s.readyList = List.replicate s.listenSocketList.length []
  ids : s.listenSocketList.map ListenSocket.id = List.range s.listenSocketList.length

/-- A call fails and changes nothing, or it adds one listener and returns its `id()`. -/
def AddsOne (s : Pools) (c : ListenCall) : Prop :=
  addListenSocket s c = (s, -1) ∨
    ∃ l, (addListenSocket s c).1.listenSocketList = s.listenSocketList ++ [l] ∧
      (addListenSocket s c).2 = l.id

section

variable {s : Pools} {c : ListenCall}

/-- What a call comes to. -/
theorem addListenSocket_cases (s : Pools) (c : ListenCall) : addListenSocket s c = (s, -1) ∨
    ∃ fd, addListenSocket s c = (s.push c fd, (s.readyList.length : Int)) := by
  unfold addListenSocket
  split
  · exact .inl rfl
  · rename_i fd hfd
    split
    · exact .inl rfl
    split
    · exact .inl rfl
    split
    · exact .inl rfl
    · refine .inr ⟨fd, Prod.ext rfl ?_⟩
      simp [Pools.push]

theorem Aligned.add (h : Aligned s) : Aligned (addListenSocket s c).1 := by
  rcases addListenSocket_cases s c with hsame | ⟨fd, hadd⟩
  · rw [hsame]
    exact h
  · rw [hadd]
    refine ⟨?_, ?_, ?_, ?_⟩
    · simp [Pools.push, h.mutexes]
    · simp [Pools.push, h.conds]
    · simp [Pools.push, h.lists, List.replicate_succ']
    · simp [Pools.push, h.ids, List.range_succ]

theorem Aligned.addsOne (h : Aligned s) : AddsOne s c := by
  rcases addListenSocket_cases s c with hsame | ⟨fd, hadd⟩
  · exact .inl hsame
  · refine .inr ⟨_, congrArg (fun r : Pools × Int => r.1.listenSocketList) hadd, ?_⟩
    rw [hadd]
    simp [h.lists]

/-- **Adding listeners** keeps the vectors together, whichever calls fail. -/
theorem addListenSockets_aligned (calls : List ListenCall) : Aligned (addListenSockets calls) := by
  induction calls using List.reverseRecOn with
  | nil => exact ⟨rfl, rfl, rfl, rfl⟩
  | append_singleton calls c ih =>
    have hlast : addListenSockets (calls ++ [c]) =
        (addListenSocket (addListenSockets calls) c).1 := by
      simp [addListenSockets]
    rw [hlast]
    exact ih.add

/-- The server that is run is the one that starts with so many listeners. -/
theorem Aligned.server_eq (h : Aligned s) (W : Type) (hasUDP : Bool) :
    s.server W hasUDP = start W s.listenSocketList.length hasUDP := by
  have hlisten : s.listenSocketList.map (fun l => EpollPtr.listen l.id) =
      (List.range s.listenSocketList.length).map .listen := by
    rw [← h.ids, List.map_map]
    rfl
  unfold Pools.server start
  rw [hlisten, h.lists]

end

/-! ## 2. From which listener a socket comes -/

variable {W : Type}

/-- The socket a step accepts, and the listener it is accepted from. -/
def acceptedFrom (s : Server W) : Action W → Option (Ptr × Nat)
  | .accept (some a) =>
    match s.loop with
    | .accepting id _ _ => if a.inetNtoaOk && a.epollAddOk then some (a.ptr, id) else none
    | _ => none
  | _ => none

/-- For each socket the listener it was last accepted from. -/
abbrev Origins := Ptr → Option Nat

def Origins.record (o : Origins) : Option (Ptr × Nat) → Origins
  | some (p, id) => Function.update o p (some id)
  | none => o

/-- A step of the server, with the record kept. -/
def tracedStep [DecidableEq W] [Fintype W] (x : Server W × Origins) (a : Action W) :
    Except Fault (Server W × Origins) :=
  (step x.1 a).map fun t => (t, x.2.record (acceptedFrom x.1 a))

/-- The record is only kept. -/
theorem exec_tracedStep [DecidableEq W] [Fintype W] (s : Server W) (o : Origins)
    (acts : List (Action W)) : (exec tracedStep (s, o) acts).map Prod.fst = exec step s acts := by
  induction acts generalizing s o with
  | nil => rfl
  | cons a acts ih =>
    simp only [exec, tracedStep]
    cases step s a with
    | error f => rfl
    | ok t => exact ih t _

/-- With `n` ready lists, a ready list holds sockets of its own listener only. -/
structure KeptApart (n : Nat) (s : Server W) (o : Origins) : Prop where
  lists : s.readyList.length = n
  own : ∀ index p, p ∈ s.readyList.getD index [] → o p = some index

/-- The batch map as the loop has it, or what is left of it. -/
def Loop.entries : Loop → List (Nat × List Ptr)
  | .events _ b | .accepting _ _ b | .recvUDP _ _ b | .insertUDP _ _ b | .signalUDP _ b
  | .recvLocal _ b | .swapReuse _ b | .readd _ _ b => b.entries
  | .insertReady entries | .signalReady _ entries => entries
  | _ => []

theorem Loop.batch_eq (l : Loop) : l.batch = l.entries.flatMap Prod.snd := by
  cases l <;> rfl

/-- Wherever the number of a listener is, it is one, and the right one. -/
structure Routes (n : Nat) (s : Server W) (o : Origins) : Prop extends KeptApart n s o where
  listeners : ∀ id, .listen id ∈ s.epoll → id < n
  accepting : ∀ id rest batch, s.loop = .accepting id rest batch → id < n
  sockets : ∀ p sk, s.heap p = some sk → o p = some sk.id ∧ sk.id < n
  entries : ∀ e ∈ s.loop.entries, e.1 < n ∧ ∀ p ∈ e.2, o p = some e.1

/-! ## 3. The steps of the epoll thread -/

section

variable {n : Nat} {s t : Server W} {o : Origins}

/-- A step that leaves the ready lists alone and adds nothing elsewhere. -/
theorem Routes.less (h : Routes n s o) (hready : t.readyList = s.readyList)
    (hheap : ∀ p sk, t.heap p = some sk → s.heap p = some sk)
    (hepoll : ∀ id, EpollPtr.listen id ∈ t.epoll → EpollPtr.listen id ∈ s.epoll)
    (haccepting : ∀ id rest batch, t.loop = .accepting id rest batch → id < n)
    (hentries : ∀ e ∈ t.loop.entries, e ∈ s.loop.entries) : Routes n t o := by
  refine ⟨⟨hready ▸ h.lists, hready ▸ h.own⟩, ?_, haccepting, ?_, ?_⟩
  · intro id hid
    exact h.listeners id (hepoll id hid)
  · intro p sk hp
    exact h.sockets p sk (hheap p sk hp)
  · intro e he
    exact h.entries e (hentries e he)

/-- A step that only moves the program counter, and not to the `accept` loop. -/
theorem Routes.setLoop (h : Routes n s o) {l : Loop}
    (hentries : ∀ e ∈ l.entries, e ∈ s.loop.entries)
    (haccepting : ∀ id rest batch, l ≠ .accepting id rest batch) :
    Routes n { s with loop := l } o :=
  h.less rfl (fun _ _ hp => hp) (fun _ hid => hid)
    (fun id rest batch hl => absurd hl (haccepting id rest batch)) hentries

theorem deleteSocket_heap {p q : Ptr} {sk : Socket} (hq : (deleteSocket s p).heap q = some sk) :
    s.heap q = some sk := by
  by_cases hqp : q = p
  · simp [deleteSocket, hqp] at hq
  · simpa [deleteSocket, hqp] using hq

theorem destroyTriggered_routes (h : Routes n s o) (e : EpollPtr) {rest : List EpollEvent}
    {b : SkMap} (hentries : ∀ e ∈ b.entries, e ∈ s.loop.entries) :
    Routes n { destroyTriggered s e with loop := .events rest b } o := by
  cases e with
  | server p =>
    refine h.less rfl ?_ ?_ ?_ hentries
    · intro q sk hq
      exact deleteSocket_heap hq
    · intro id hid
      exact List.mem_of_mem_erase hid
    · rintro id rest' batch' ⟨⟩
  | _ =>
    refine h.less rfl (fun _ _ hp => hp) ?_ ?_ hentries
    · intro id hid
      exact List.mem_of_mem_erase hid
    · rintro id rest' batch' ⟨⟩

/-- What is in the map after a socket is put into it was there, or the socket is its last. -/
theorem mem_entries_pushBack {b : SkMap} {key : Nat} {p : Ptr} {e : Nat × List Ptr}
    (he : e ∈ (b.pushBack key p).entries) : e ∈ b.entries ∨
      e.1 = key ∧ ∀ q ∈ e.2, q = p ∨ ∃ l, (key, l) ∈ b.entries ∧ q ∈ l := by
  obtain ⟨k, l⟩ := e
  have hfind := (StdMap.mem_entries _).mp he
  unfold StdMap.pushBack at hfind
  rw [StdMap.find_set] at hfind
  split at hfind
  · rename_i hk
    cases hfind
    refine .inr ⟨hk, ?_⟩
    intro q hq
    rcases List.mem_append.mp hq with hold | hnew
    · unfold StdMap.listAt at hold
      cases hb : b.find key with
      | none =>
        rw [hb] at hold
        cases hold
      | some old =>
        rw [hb] at hold
        exact .inr ⟨old, (StdMap.mem_entries b).mpr hb, hold⟩
    · exact .inl (List.mem_singleton.mp hnew)
  · exact .inl ((StdMap.mem_entries b).mpr hfind)

/-- **Into the batch map**: the key is the listener of the socket. -/
theorem pushBack_routes (h : Routes n s o) {p : Ptr} {sk : Socket} (hsk : s.heap p = some sk)
    {rest : List EpollEvent} {b : SkMap} (hb : s.loop.entries = b.entries) :
    Routes n { epollDel s (.server p) with loop := .events rest (b.pushBack sk.id p) } o := by
  obtain ⟨horigin, hlt⟩ := h.sockets p sk hsk
  refine ⟨⟨h.lists, h.own⟩, ?_, ?_, h.sockets, ?_⟩
  · intro id hid
    exact h.listeners id (List.mem_of_mem_erase hid)
  · rintro id rest' batch' ⟨⟩
  · intro e he
    rcases mem_entries_pushBack he with hold | ⟨hkey, hl⟩
    · exact h.entries e (hb ▸ hold)
    · refine ⟨hkey ▸ hlt, ?_⟩
      intro q hq
      rw [hkey]
      rcases hl q hq with rfl | ⟨l, hmem, hql⟩
      · exact horigin
      · exact (h.entries _ (hb ▸ hmem)).2 q hql

theorem epollProcess_routes (h : Routes n s o) {e : EpollEvent} {rest : List EpollEvent} {b : SkMap}
    (hl : s.loop = .events (e :: rest) b) (hreg : e.1 ∈ s.epoll)
    (hstep : epollProcess s e rest b = .ok t) : Routes n t o := by
  have hb : s.loop.entries = b.entries := by rw [hl]; rfl
  have hin : ∀ e ∈ b.entries, e ∈ s.loop.entries := by
    intro e he
    exact hb ▸ he
  unfold epollProcess at hstep
  split at hstep
  · cases hstep
    exact destroyTriggered_routes h _ hin
  split at hstep
  swap
  · cases hstep
    exact h.setLoop hin (by simp)
  split at hstep
  · rename_i id hid
    cases hstep
    refine h.less rfl (fun _ _ hp => hp) (fun _ hid => hid) ?_ hin
    rintro id' rest' batch' ⟨⟩
    exact h.listeners id (hid ▸ hreg)
  · rename_i p hp
    split at hstep
    · cases hstep
    rename_i sk hsk
    split at hstep
    · cases hstep
      exact destroyTriggered_routes h _ hin
    · cases hstep
      rw [hp]
      exact pushBack_routes h hsk hb
  · cases hstep
    exact h.setLoop hin (by simp)
  · cases hstep
    exact h.setLoop hin (by simp)

/-- What is in the batch map or in a ready list is not a free address. -/
theorem Owned.heap_ne_none (howned : Owned s) {p : Ptr}
    (hp : (∃ e ∈ s.loop.entries, p ∈ e.2) ∨ ∃ index, p ∈ s.readyList.getD index []) :
    s.heap p ≠ none := by
  have hplaced : Placed (occ s) p := by
    rcases hp with ⟨e, he, hp⟩ | ⟨index, hp⟩
    · refine ⟨.batch, ?_⟩
      simp only [occ, Loop.batch_eq]
      exact List.mem_flatMap.mpr ⟨e, he, hp⟩
    · exact ⟨.ready index, hp⟩
  intro hnone
  have halive := (howned.alive p).mp hplaced
  rw [hnone] at halive
  cases halive

/-- **`accept`**: the new socket gets the number of the listener. -/
theorem acceptOne_routes (h : Routes n s o) (howned : Owned s) {id : Nat} {rest : List EpollEvent}
    {b : SkMap} {r : Option Accepted} (hl : s.loop = .accepting id rest b)
    (hstep : acceptOne s id rest b r = .ok t) :
    Routes n t (o.record (acceptedFrom s (.accept r))) := by
  cases r with
  | none =>
    cases hstep
    refine h.setLoop ?_ (by simp)
    intro e he
    rw [hl]
    exact he
  | some a =>
    simp only [acceptOne] at hstep
    split at hstep
    · cases hstep
    rename_i hfree
    have hnone : s.heap a.ptr = none := by simpa using hfree
    split at hstep
    · rename_i hok
      cases hstep
      have hrecord : o.record (acceptedFrom s (.accept (some a))) =
          Function.update o a.ptr (some id) := by
        simp [acceptedFrom, hl, hok, Origins.record]
      -- the record changes at an address that was free, so not for the sockets underway
      have hother : ∀ p, s.heap p ≠ none → Function.update o a.ptr (some id) p = o p := by
        intro p hp
        refine Function.update_of_ne ?_ _ _
        rintro rfl
        exact hp hnone
      rw [hrecord]
      refine ⟨⟨h.lists, ?_⟩, ?_, h.accepting, ?_, ?_⟩
      · intro index p hp
        rw [hother p (howned.heap_ne_none (.inr ⟨index, hp⟩))]
        exact h.own index p hp
      · intro id' hid'
        refine h.listeners id' ?_
        simpa using hid'
      · intro p sk hp
        dsimp only at hp
        by_cases hpa : p = a.ptr
        · subst hpa
          rw [Function.update_self] at hp ⊢
          cases hp
          exact ⟨rfl, h.accepting id rest b hl⟩
        · rw [Function.update_of_ne hpa] at hp ⊢
          exact h.sockets p sk hp
      · intro e he
        refine ⟨(h.entries e he).1, ?_⟩
        intro p hp
        rw [hother p (howned.heap_ne_none (.inl ⟨e, he, hp⟩))]
        exact (h.entries e he).2 p hp
    · rename_i hok
      cases hstep
      have hrecord : o.record (acceptedFrom s (.accept (some a))) = o := by
        simp [acceptedFrom, hl, hok, Origins.record]
      rw [hrecord]
      exact h

/-- **Into a ready list**: the key of the batch map is its index. -/
theorem insertServerReadySocket_routes (h : Routes n s o) {index : Nat} {l : List Ptr}
    {entries : List (Nat × List Ptr)} (hl : s.loop = .insertReady ((index, l) :: entries))
    (hstep : insertServerReadySocket s index l entries = .ok t) : Routes n t o := by
  have hentries : s.loop.entries = (index, l) :: entries := by rw [hl]; rfl
  unfold insertServerReadySocket at hstep
  split at hstep
  swap
  · cases hstep
  rename_i hi
  cases hstep
  refine ⟨⟨?_, ?_⟩, h.listeners, ?_, h.sockets, ?_⟩
  · rw [List.length_set]
    exact h.lists
  · intro index' p hp
    rw [getD_set _ _ hi] at hp
    split at hp
    · rename_i hsame
      rw [hsame]
      rcases List.mem_append.mp hp with hold | hnew
      · exact h.own index p hold
      · exact (h.entries (index, l) (hentries ▸ List.mem_cons_self)).2 p hnew
    · exact h.own index' p hp
  · rintro id rest batch ⟨⟩
  · intro e he
    exact h.entries e (hentries ▸ List.mem_cons_of_mem _ he)

theorem nextStep_routes (h : Routes n s o) (howned : Owned s) (hstep : nextStep s = .ok t) :
    Routes n t o := by
  unfold nextStep at hstep
  split at hstep
  · rename_i e rest b hl
    refine epollProcess_routes h hl (howned.triggered.2 e ?_) hstep
    rw [hl]
    exact List.mem_cons_self
  · rename_i b hl
    cases hstep
    split
    · exact h.setLoop (by simp [Loop.entries]) (by simp)
    · exact h.setLoop (by simp [Loop.entries, hl]) (by simp)
  · rename_i pkts rest b hl
    cases hstep
    exact h.less rfl (fun _ _ hp => hp) (fun _ hid => hid) (by simp) (by simp [Loop.entries, hl])
  · rename_i rest b hl
    cases hstep
    exact h.less rfl (fun _ _ hp => hp) (fun _ hid => hid) (by simp [getServerReuseSocketList])
      (by simp [Loop.entries, hl, getServerReuseSocketList])
  · rename_i rest b hl
    cases hstep
    exact h.setLoop (by simp [Loop.entries, hl]) (by simp)
  · rename_i index l entries hl
    exact insertServerReadySocket_routes h hl hstep
  · rename_i hl
    cases hstep
    exact h.setLoop (by simp [Loop.entries]) (by simp)
  · cases hstep

/-! ## 4. Every step -/

variable [DecidableEq W]

theorem Routes.worker (h : Routes n s o) (w : W) (x : Worker) : Routes n (setWorker s w x) o :=
  h.less rfl (fun _ _ hp => hp) (fun _ hid => hid) h.accepting fun _ he => he

/-- A worker takes a socket from a ready list, or something else, or waits. -/
theorem takeOrWait_routes (h : Routes n s o) (w : W) (c : Cond) :
    Routes n (takeOrWait s w c) o := by
  cases c with
  | ready index =>
    simp only [takeOrWait]
    split
    · exact h.worker w _
    · rename_i p l hl
      have hi : index < s.readyList.length := by
        by_contra hge
        rw [List.getD_eq_default _ _ (Nat.le_of_not_lt hge)] at hl
        cases hl
      have htaken : Routes n { s with readyList := s.readyList.set index l } o := by
        refine ⟨⟨?_, ?_⟩, h.listeners, h.accepting, h.sockets, h.entries⟩
        · rw [List.length_set]
          exact h.lists
        · intro index' q hq
          rw [getD_set _ _ hi] at hq
          split at hq
          · rename_i hsame
            rw [hsame]
            exact h.own index q (hl ▸ List.mem_cons_of_mem p hq)
          · exact h.own index' q hq
      exact htaken.worker w _
  | udpRecv =>
    simp only [takeOrWait]
    split
    · exact h.worker w _
    · rename_i pkt l hl
      have htaken : Routes n { s with udpRecvList := l } o :=
        h.less rfl (fun _ _ hp => hp) (fun _ hid => hid) h.accepting fun _ he => he
      exact htaken.worker w _

variable [Fintype W]

theorem signalOne_routes {c : Cond} {r : Option W} (h : Routes n s o)
    (hstep : signalOne s c r = .ok t) : Routes n t o := by
  cases r with
  | some w =>
    simp only [signalOne] at hstep
    split at hstep
    · cases hstep
      exact h.worker w _
    · cases hstep
  | none =>
    simp only [signalOne] at hstep
    split at hstep
    · cases hstep
    · cases hstep
      exact h

/-- **Every step keeps the numbers right.** -/
theorem step_routes {a : Action W} (h : Routes n s o) (howned : Owned s)
    (hstep : step s a = .ok t) :
    Routes n t (o.record (acceptedFrom s a)) := by
  cases steps_of_step hstep with
  | accept hl haccept => exact acceptOne_routes h howned hl haccept
  | epollWait hl hev =>
    exact h.setLoop (fun e he => absurd he List.not_mem_nil) (by simp)
  | epollRetry hl => exact h
  | epollFail hl => exact h.setLoop (by simp [Loop.entries]) (by simp)
  | next hnext => exact nextStep_routes h howned hnext
  | @recvfrom pkts rest batch r hl =>
    cases r with
    | some pkt => exact h.setLoop (by simp [Loop.entries, hl]) (by simp)
    | none =>
      simp only [recvfromOne]
      split
      · exact h.setLoop (by simp [Loop.entries, hl]) (by simp)
      · exact h.setLoop (by simp [Loop.entries, hl]) (by simp)
  | @recv rest batch k t hl hrecv =>
    simp only [recvLocal] at hrecv
    split at hrecv
    · cases hrecv
    split at hrecv
    · cases hrecv
      refine h.less rfl (fun _ _ hp => hp) (fun _ hid => hid) ?_ ?_
      · intro id rest' batch' hloop
        dsimp only at hloop
        split at hloop <;> cases hloop
      · intro e he
        rw [hl]
        dsimp only at he
        split at he <;> exact he
    · cases hrecv
  | @epollAdd p todo rest batch ok hl =>
    cases ok with
    | true =>
      refine h.less rfl (fun _ _ hp => hp) ?_ (by simp [readdOne])
        (by simp [Loop.entries, hl, readdOne])
      intro id hid
      simpa [readdOne] using hid
    | false =>
      refine h.less rfl ?_ (fun _ hid => hid) (by simp [readdOne])
        (by simp [Loop.entries, hl, readdOne])
      intro q sk hq
      exact deleteSocket_heap hq
  | signalReady hl hsignal =>
    exact signalOne_routes (h.setLoop (by simp [Loop.entries, hl]) (by simp)) hsignal
  | signalUDP hl hsignal =>
    exact signalOne_routes (h.setLoop (by simp [Loop.entries, hl]) (by simp)) hsignal
  | getServerReadySocket hw =>
    unfold getServerReadySocket
    split
    · exact takeOrWait_routes h _ _
    · exact h
  | getUDPPacket hw => exact takeOrWait_routes h _ _
  | retest hw => exact takeOrWait_routes h _ _
  | spurious hw => exact h.worker _ _
  | insertServerReuseSocket hp =>
    exact h.less rfl (fun _ _ hp => hp) (fun _ hid => hid) h.accepting fun _ he => he
  | closeDelete hp =>
    exact h.less rfl (fun _ _ hp => deleteSocket_heap (s := setWorker s _ _) hp) (fun _ hid => hid)
      h.accepting fun _ he => he
  | stopServer => exact h.less rfl (fun _ _ hp => hp) (fun _ hid => hid) h.accepting fun _ he => he

/-- Where the assertion fails: at an entry whose index has no ready list. -/
theorem step_assertIndex {a : Action W} (hstep : step s a = .error .assertIndex) :
    ∃ e ∈ s.loop.entries, s.readyList.length ≤ e.1 := by
  cases a with
  | next =>
    simp only [step, nextStep] at hstep
    split at hstep
    · unfold epollProcess at hstep
      split at hstep
      · cases hstep
      split at hstep
      · split at hstep
        · cases hstep
        · split at hstep
          · cases hstep
          · split at hstep <;> cases hstep
        · cases hstep
        · cases hstep
      · cases hstep
    · cases hstep
    · cases hstep
    · cases hstep
    · cases hstep
    · rename_i index l entries hl
      unfold insertServerReadySocket at hstep
      split at hstep
      · cases hstep
      · rename_i hi
        refine ⟨(index, l), ?_, Nat.le_of_not_lt hi⟩
        rw [hl]
        exact List.mem_cons_self
    · cases hstep
    · cases hstep
  | accept r =>
    simp only [step] at hstep
    split at hstep
    · cases r with
      | none => cases hstep
      | some a =>
        simp only [acceptOne] at hstep
        split at hstep
        · cases hstep
        · split at hstep <;> cases hstep
    · cases hstep
  | recv k =>
    simp only [step] at hstep
    split at hstep
    · unfold recvLocal at hstep
      split at hstep
      · cases hstep
      · split at hstep <;> cases hstep
    · cases hstep
  | signal r =>
    have hsignal : ∀ {u : Server W} {c : Cond}, signalOne u c r ≠ .error .assertIndex := by
      intro u c hu
      cases r with
      | some w =>
        simp only [signalOne] at hu
        split at hu <;> cases hu
      | none =>
        simp only [signalOne] at hu
        split at hu <;> cases hu
    simp only [step] at hstep
    split at hstep
    · exact absurd hstep hsignal
    · exact absurd hstep hsignal
    · cases hstep
  | stopServer => cases hstep
  | epollWait events =>
    simp only [step] at hstep
    split at hstep
    · split at hstep <;> cases hstep
    · cases hstep
  | _ =>
    simp only [step] at hstep
    split at hstep <;> cases hstep

/-- The assertion in `InsertServerReadySocket` does not fail. -/
theorem Routes.ne_assertIndex (h : Routes n s o) (a : Action W) :
    step s a ≠ .error .assertIndex := by
  intro hstep
  obtain ⟨e, he, hge⟩ := step_assertIndex hstep
  have hlt := (h.entries e he).1
  rw [h.lists] at hge
  omega

end

/-! ## 5. Whole runs -/

theorem start_routes (n : Nat) (hasUDP : Bool) : Routes n (start W n hasUDP) fun _ => none := by
  refine ⟨⟨List.length_replicate, ?_⟩, ?_, ?_, ?_, ?_⟩
  · intro index p hp
    have hnil : (start W n hasUDP).readyList.getD index [] = [] := by
      by_cases hi : index < n
      · simp [start, hi]
      · simp [start, hi]
    rw [hnil] at hp
    cases hp
  · intro id hid
    cases hasUDP <;> simpa [start] using hid
  · rintro id rest batch ⟨⟩
  · rintro p sk ⟨⟩
  · intro e he
    cases he

/-- The invariant of the run with its record. -/
theorem tracedStep_routes [DecidableEq W] [Fintype W] {n : Nat} {x y : Server W × Origins}
    {a : Action W} (h : Owned x.1 ∧ Routes n x.1 x.2) (hstep : tracedStep x a = .ok y) :
    Owned y.1 ∧ Routes n y.1 y.2 := by
  obtain ⟨t, ht, rfl⟩ := map_eq_ok.mp hstep
  exact ⟨step_owned h.1 ht, step_routes h.2 h.1 ht⟩

/-- **The numbers of the listeners**: after every sequence of `AddListenSocket` calls the vectors
fit together, and a further call adds a listener with the number it returns, or nothing.  In every
run of the server that is then started, a ready list holds sockets of its own listener only,
whatever keys the workers use when they hand sockets back, and no index is out of range. -/
theorem sockets_keep_to_their_pool [DecidableEq W] [Fintype W] (calls : List ListenCall) :
    Aligned (addListenSockets calls) ∧ (∀ c, AddsOne (addListenSockets calls) c) ∧
      ∀ (hasUDP : Bool) (adds : EpollPtr → Bool) (s : Server W),
        runServer W (addListenSockets calls) hasUDP adds = .ok s → ∀ acts : List (Action W),
          (∀ t o, exec tracedStep (s, fun _ => none) acts = .ok (t, o) →
            KeptApart (addListenSockets calls).listenSocketList.length t o) ∧
          exec step s acts ≠ .error .assertIndex := by
  have haligned := addListenSockets_aligned calls
  refine ⟨haligned, fun c => haligned.addsOne, ?_⟩
  intro hasUDP adds s hs acts
  have hstart : s = start W (addListenSockets calls).listenSocketList.length hasUDP := by
    unfold runServer at hs
    split at hs
    · cases hs
    split at hs
    · cases hs
      exact haligned.server_eq W hasUDP
    · cases hs
  subst hstart
  have hinit := And.intro
    (start_owned (W := W) (addListenSockets calls).listenSocketList.length hasUDP)
    (start_routes (W := W) (addListenSockets calls).listenSocketList.length hasUDP)
  constructor
  · intro t o hrun
    exact (Along.invariant (G := fun _ _ => True)
      (fun x a y hx _ hy => tracedStep_routes hx hy) hinit
      (along_of_forall fun _ _ _ => trivial) hrun).2.toKeptApart
  · intro hfault
    rw [← exec_tracedStep _ fun _ => none] at hfault
    refine Along.ne_error (G := fun _ _ => True)
      (fun x a y hx _ hy => tracedStep_routes hx hy) ?_ hinit
      (along_of_forall fun _ _ _ => trivial) (map_eq_error hfault)
    intro x a hx _ hxa
    exact hx.2.ne_assertIndex a (map_eq_error hxa)

/-- Two listeners, with a call between them that fails in `bind`. -/
def twoListeners : List ListenCall :=
  [⟨"127.0.0.1", 80, some 5, true, true, true, 1, 2⟩,
    ⟨"127.0.0.1", 80, some 6, true, false, true, 0, 0⟩,
    ⟨"127.0.0.1", 81, some 7, true, true, true, 3, 4⟩]

/-- A connection of the second listener is handed to the worker, who hands it back under another
number, and it is triggered again. -/
def handedBackElsewhere : List (Action (Fin 1)) :=
  [.epollWait [(.listen 1, { epollIn := true })], .next, .accept (some { ptr := 100, fd := 8 }),
    .accept none, .next,
    .epollWait [(.server 100, { epollIn := true })], .next, .next, .next, .signal none, .next,
    .getServerReadySocket 0 1, .insertServerReuseSocket 0 7 100 true,
    .epollWait [(.localSocket, { epollIn := true })], .next, .recv 1, .next,
      .epollAdd true, .next, .next,
    .epollWait [(.server 100, { epollIn := true })], .next, .next, .next]

theorem handedBackElsewhere_kept_apart : ∃ s t o,
    runServer (Fin 1) (addListenSockets twoListeners) false (fun _ => true) = .ok s ∧
      exec tracedStep (s, fun _ => none) handedBackElsewhere = .ok (t, o) ∧
      t.readyList = [[], [100]] ∧ KeptApart 2 t o :=
  ⟨_, _, _, rfl, rfl, rfl,
    ((sockets_keep_to_their_pool twoListeners).2.2 false (fun _ => true) _ rfl
    handedBackElsewhere).1 _ _ rfl⟩

end Kknf.AllSync
