/-
# The epoll thread and the workers of `all-sync/server.hpp`

`NF::Server` runs one epoll thread and any number of worker threads.  A connection accepted
from a client is a heap object (`Socket`, `type() == 2`) that travels round a cycle:

    epoll  ->  batch map  ->  ready list of its listener  ->  a worker  ->  reuse list  ->  epoll

and leaves the cycle when one of the threads closes and deletes it.  The ready lists are under
one mutex each, the reuse list under another, and the batch map and the swapped-out reuse list
are local to the epoll thread.

The model is a step function over the whole server.  One step is one mutex-protected region, one
`pthread_cond_signal`, or one iteration of a loop of the epoll thread; `Loop` is the epoll
thread's program counter together with its local variables.  What the operating system decides
(which descriptors trigger, what `accept`, `recv` and `epoll_ctl` return, which waiting thread a
signal wakes) is in the `Action`.  A step ends in a `Fault` when the process would die, when it
would touch a deleted `Socket`, or when the action is not possible in the state (`disabled`).

The addresses and ports a `Socket` carries are only logged, and are left out.  The loop tests
`epoll_cancel_` before it waits; here the test is made when `epoll_wait` returns with its events, so
that the one batch that comes to a wait which `StopServer` has overtaken is not followed.
-/
import Mathlib.Data.Fintype.Defs
import Kknf.Lib.StdMap

namespace Kknf.AllSync

/-! ## 1. Data -/

/-- Address of a `Socket` object on the heap. -/
abbrev Ptr := Nat

/-- A `Socket` accepted from a client: its descriptor `sk_` and the index `id_` of the listen
socket it was accepted by. -/
structure Socket where
  sk : Nat
  id : Nat
  deriving DecidableEq, Repr

/-- The `Socket*` stored in an `epoll_event`, by the `type()` of the object it points to. -/
inductive EpollPtr
  /-- `type() == 1`, the listen socket with this `id()` -/
  | listen (id : Nat)
  /-- `type() == 2`, an accepted socket -/
  | server (p : Ptr)
  /-- `type() == 3` -/
  | udp
  /-- `type() == 4`, the reading end of the local socket pair -/
  | localSocket
  deriving DecidableEq, Repr

/-- The bits of `epoll_event.events` the server looks at. -/
structure EpollEvents where
  epollErr : Bool := false
  epollIn : Bool := false
  epollRdhup : Bool := false
  deriving DecidableEq, Repr

/-- One entry of `all_epoll_events_`. -/
abbrev EpollEvent := EpollPtr × EpollEvents

/-- `std::map<uint32_t, std::list<Socket*> >`. -/
abbrev SkMap := StdMap Nat (List Ptr)

/-- An address, as `SocketAddr` holds it. -/
structure SocketAddr where
  ip : String
  port : Nat
  deriving DecidableEq, Repr

/-- A received datagram, with its source (`from_`) and destination (`to_`). -/
structure Packet where
  data : List UInt8
  src : SocketAddr
  dst : SocketAddr
  deriving DecidableEq, Repr

/-- The condition variables: one for each ready list, and one for the UDP list. -/
inductive Cond
  | ready (index : Nat)
  | udpRecv
  deriving DecidableEq, Repr

/-- What a worker thread is doing: running, blocked in `pthread_cond_wait`, or woken and about
to take the mutex again. -/
inductive Status
  | running
  | waiting (c : Cond)
  | woken (c : Cond)
  deriving DecidableEq, Repr

/-- A worker thread: the sockets and packets it has been given, and what it is doing. -/
structure Worker where
  held : List Ptr := []
  packets : List Packet := []
  status : Status := .running

/-- The epoll thread: where it is in `EpollLoop`/`EpollProcess`, with its local variables.
`rest` is the part of `all_epoll_events_` not looked at yet, `batch` is `server_sk_map`. -/
inductive Loop
  /-- at `epoll_wait` -/
  | wait
  /-- in the `for` over the triggered events -/
  | events (rest : List EpollEvent) (batch : SkMap)
  /-- in the `accept` loop of the listen socket `id` -/
  | accepting (id : Nat) (rest : List EpollEvent) (batch : SkMap)
  /-- in the `recvfrom` loop -/
  | recvUDP (pkts : List Packet) (rest : List EpollEvent) (batch : SkMap)
  /-- at `InsertUDPRecvPacket` -/
  | insertUDP (pkts : List Packet) (rest : List EpollEvent) (batch : SkMap)
  /-- past the mutex of `InsertUDPRecvPacket`, before its signal -/
  | signalUDP (rest : List EpollEvent) (batch : SkMap)
  /-- in the `recv` loop on the local socket -/
  | recvLocal (rest : List EpollEvent) (batch : SkMap)
  /-- at `GetServerReuseSocketList` -/
  | swapReuse (rest : List EpollEvent) (batch : SkMap)
  /-- putting the swapped-out sockets back into epoll; `todo` are those from the iterator on -/
  | readd (todo : List Ptr) (rest : List EpollEvent) (batch : SkMap)
  /-- in `InsertServerReadySocket`; `entries` are those from the iterator on -/
  | insertReady (entries : List (Nat × List Ptr))
  /-- past the mutex of ready list `index`, before its signal -/
  | signalReady (index : Nat) (entries : List (Nat × List Ptr))
  /-- `EpollLoop` has returned -/
  | stopped

/-- Why a step does not lead to a next state. -/
inductive Fault
  /-- the action is not possible in this state -/
  | disabled
  /-- `assert(false)` in `InsertServerReadySocket` -/
  | assertIndex
  /-- `exit(1)` after a failed `recv` on the local socket -/
  | exit
  /-- a deleted `Socket` would be used -/
  | deletedSocket
  deriving DecidableEq, Repr

/-- The server and its worker threads `W`. -/
structure Server (W : Type) where
  /-- the `Socket` objects of type 2 that have not been deleted -/
  heap : Ptr → Option Socket
  /-- what is registered in `epoll_fd_` -/
  epoll : List EpollPtr
  /-- `server_socket_ready_list_` -/
  readyList : List (List Ptr)
  /-- `server_socket_reuse_list_` -/
  reuseList : SkMap
  /-- `udp_recv_list_` -/
  udpRecvList : List Packet
  /-- bytes sent on `local_socket_pair_[0]` and not read from `local_socket_pair_[1]` -/
  notifications : Nat
  /-- `epoll_cancel_` -/
  epollCancel : Bool
  loop : Loop
  worker : W → Worker

/-- What `accept` and the calls after it give for one new connection: the address `new` returns,
the descriptor, and whether `inet_ntoa` and `epoll_ctl` succeed. -/
structure Accepted where
  ptr : Ptr
  fd : Nat
  inetNtoaOk : Bool := true
  epollAddOk : Bool := true
  deriving DecidableEq, Repr

/-- One step of one thread, with what the operating system answers. -/
inductive Action (W : Type)
  /-- `epoll_wait` returns these events -/
  | epollWait (events : List EpollEvent)
  /-- `epoll_wait` times out or is interrupted -/
  | epollRetry
  /-- `epoll_wait` fails -/
  | epollFail
  /-- the next step of the epoll thread, where it needs no answer -/
  | next
  /-- `accept` returns -1 (`none`) or a new connection -/
  | accept (r : Option Accepted)
  /-- `recvfrom` fails (`none`) or returns a datagram -/
  | recvfrom (r : Option Packet)
  /-- `recv` on the local socket returns this many bytes; 0 stands for every failure -/
  | recv (n : Nat)
  /-- `epoll_ctl(EPOLL_CTL_ADD)` for the next swapped-out socket -/
  | epollAdd (ok : Bool)
  /-- `pthread_cond_signal` wakes this worker; `none` when nobody waits -/
  | signal (w : Option W)
  /-- a worker enters `GetServerReadySocket(index)` -/
  | getServerReadySocket (w : W) (index : Nat)
  /-- a worker enters `GetUDPPacket()` -/
  | getUDPPacket (w : W)
  /-- a woken worker takes the mutex and tests its list again -/
  | retest (w : W)
  /-- a wait ends although nobody signalled -/
  | spurious (w : W)
  /-- a worker calls `InsertServerReuseSocket(pool_index, sk)` -/
  | insertServerReuseSocket (w : W) (poolIndex : Nat) (p : Ptr) (sendOk : Bool)
  /-- a worker calls `sk->Close(); delete sk;` -/
  | closeDelete (w : W) (p : Ptr)
  /-- `StopServer()` -/
  | stopServer

/-! ## 2. The epoll thread -/

variable {W : Type}

/-- `epoll_ctl(EPOLL_CTL_DEL)` on the triggered socket. -/
def epollDel (s : Server W) (t : EpollPtr) : Server W := { s with epoll := s.epoll.erase t }

/-- `Close(); delete` of the accepted socket at `p`. -/
def deleteSocket (s : Server W) (p : Ptr) : Server W :=
  { s with heap := Function.update s.heap p none }

/-- `EpollLoop` on a negative result of `EpollProcess`: the socket leaves epoll and is deleted. -/
def destroyTriggered (s : Server W) (t : EpollPtr) : Server W :=
  match t with
  | .server p => deleteSocket (epollDel s t) p
  | _ => epollDel s t

/-- `EpollProcess` on one event, up to the first call it has to wait for, and what `EpollLoop`
does with its result. -/
def epollProcess (s : Server W) (e : EpollEvent) (rest : List EpollEvent) (batch : SkMap) :
    Except Fault (Server W) :=
  if e.2.epollErr then
    .ok { destroyTriggered s e.1 with loop := .events rest batch }
  else if e.2.epollIn || e.2.epollRdhup then
    match e.1 with
    | .listen id => .ok { s with loop := .accepting id rest batch }
    | .server p =>
      match s.heap p with
      | none => .error .deletedSocket
      | some sk =>
        if e.2.epollRdhup then
          -- result -2, closed by the peer
          .ok { destroyTriggered s e.1 with loop := .events rest batch }
        else
          -- result 1: into the batch map, then out of epoll
          .ok { epollDel s e.1 with loop := .events rest (batch.pushBack sk.id p) }
    | .udp => .ok { s with loop := .recvUDP [] rest batch }
    | .localSocket => .ok { s with loop := .recvLocal rest batch }
  else
    .ok { s with loop := .events rest batch }

/-- One turn of the `accept` loop. -/
def acceptOne (s : Server W) (id : Nat) (rest : List EpollEvent) (batch : SkMap) :
    Option Accepted → Except Fault (Server W)
  | none => .ok { s with loop := .events rest batch }
  | some a =>
    if (s.heap a.ptr).isSome then .error .disabled
    else if a.inetNtoaOk && a.epollAddOk then
      .ok { s with heap := Function.update s.heap a.ptr (some ⟨a.fd, id⟩),
                   epoll := s.epoll ++ [.server a.ptr] }
    else
      -- the new object is deleted at once
      .ok s

/-- One iteration of `InsertServerReadySocket`, up to the signal. -/
def insertServerReadySocket (s : Server W) (index : Nat) (l : List Ptr)
    (entries : List (Nat × List Ptr)) : Except Fault (Server W) :=
  if index < s.readyList.length then
    .ok { s with readyList := s.readyList.set index (s.readyList.getD index [] ++ l),
                 loop := .signalReady index entries }
  else .error .assertIndex

/-- `GetServerReuseSocketList`: the whole map is swapped out. -/
def getServerReuseSocketList (s : Server W) (rest : List EpollEvent) (batch : SkMap) :
    Server W :=
  { s with reuseList := StdMap.empty, loop := .readd s.reuseList.elems rest batch }

/-- `epoll_ctl(EPOLL_CTL_ADD)` for the next swapped-out socket, deleted when that fails. -/
def readdOne (s : Server W) (p : Ptr) (todo : List Ptr) (rest : List EpollEvent)
    (batch : SkMap) (ok : Bool) : Server W :=
  if ok then { s with epoll := s.epoll ++ [.server p], loop := .readd todo rest batch }
  else { deleteSocket s p with loop := .readd todo rest batch }

/-- One turn of the drain loop: a full buffer means that there may be more to read. -/
def recvLocal (s : Server W) (rest : List EpollEvent) (batch : SkMap) (n : Nat) :
    Except Fault (Server W) :=
  if n = 0 then .error .exit
  else if n ≤ s.notifications ∧ n ≤ 1024 then
    .ok { s with notifications := s.notifications - n,
                 loop := if n = 1024 then .recvLocal rest batch else .swapReuse rest batch }
  else .error .disabled

/-- The `recvfrom` loop: a failure ends it, and the packets read so far are handed over. -/
def recvfromOne (s : Server W) (pkts : List Packet) (rest : List EpollEvent) (batch : SkMap) :
    Option Packet → Server W
  | some pkt => { s with loop := .recvUDP (pkts ++ [pkt]) rest batch }
  | none => { s with loop := if pkts = [] then .events rest batch
                             else .insertUDP pkts rest batch }

/-- The steps of the epoll thread that need no answer. -/
def nextStep (s : Server W) : Except Fault (Server W) :=
  match s.loop with
  | .events (e :: rest) batch => epollProcess s e rest batch
  | .events [] batch =>
    .ok { s with loop := if batch.entries = [] then .wait else .insertReady batch.entries }
  | .insertUDP pkts rest batch =>
    .ok { s with udpRecvList := s.udpRecvList ++ pkts, loop := .signalUDP rest batch }
  | .swapReuse rest batch => .ok (getServerReuseSocketList s rest batch)
  | .readd [] rest batch => .ok { s with loop := .events rest batch }
  | .insertReady ((index, l) :: entries) => insertServerReadySocket s index l entries
  | .insertReady [] => .ok { s with loop := .wait }
  | _ => .error .disabled

/-! ## 3. The workers -/

variable [DecidableEq W]

/-- Replace the state of one worker. -/
def setWorker (s : Server W) (w : W) (x : Worker) : Server W :=
  { s with worker := Function.update s.worker w x }

/-- Test the list of a condition under its mutex: take the front element, or wait. -/
def takeOrWait (s : Server W) (w : W) : Cond → Server W
  | .ready index =>
    match s.readyList.getD index [] with
    | [] => setWorker s w { s.worker w with status := .waiting (.ready index) }
    | p :: l =>
      setWorker { s with readyList := s.readyList.set index l } w
        { s.worker w with held := (s.worker w).held ++ [p], status := .running }
  | .udpRecv =>
    match s.udpRecvList with
    | [] => setWorker s w { s.worker w with status := .waiting .udpRecv }
    | pkt :: l =>
      setWorker { s with udpRecvList := l } w
        { s.worker w with packets := (s.worker w).packets ++ [pkt], status := .running }

/-- `GetServerReadySocket(index)`; an index without a list gives 0 at once. -/
def getServerReadySocket (s : Server W) (w : W) (index : Nat) : Server W :=
  if index < s.readyList.length then takeOrWait s w (.ready index) else s

/-- `InsertServerReuseSocket(pool_index, sk)`: the socket goes into the reuse map whether or not
the notification can be sent. -/
def insertServerReuseSocket (s : Server W) (w : W) (poolIndex : Nat) (p : Ptr) (sendOk : Bool) :
    Server W :=
  setWorker { s with reuseList := s.reuseList.pushBack poolIndex p,
                     notifications := if sendOk then s.notifications + 1 else s.notifications }
    w { s.worker w with held := (s.worker w).held.erase p }

/-- `pthread_cond_signal(c)`: one of the waiting workers is woken, if there is any. -/
def signalOne [Fintype W] (s : Server W) (c : Cond) : Option W → Except Fault (Server W)
  | some w =>
    if (s.worker w).status = .waiting c then
      .ok (setWorker s w { s.worker w with status := .woken c })
    else .error .disabled
  | none => if ∃ w, (s.worker w).status = .waiting c then .error .disabled else .ok s

/-! ## 4. The server as a whole -/

/-- One step of the server.  A batch is taken only while the server is not stopped. -/
def step [Fintype W] (s : Server W) : Action W → Except Fault (Server W)
  | .epollWait events =>
    match s.loop with
    | .wait =>
      if s.epollCancel = false ∧ (events.map Prod.fst).Nodup ∧
          ∀ e ∈ events, e.1 ∈ s.epoll then
        .ok { s with loop := .events events StdMap.empty }
      else .error .disabled
    | _ => .error .disabled
  | .epollRetry =>
    match s.loop with
    | .wait => .ok s
    | _ => .error .disabled
  | .epollFail =>
    match s.loop with
    | .wait => .ok { s with loop := .stopped }
    | _ => .error .disabled
  | .next => nextStep s
  | .accept r =>
    match s.loop with
    | .accepting id rest batch => acceptOne s id rest batch r
    | _ => .error .disabled
  | .recvfrom r =>
    match s.loop with
    | .recvUDP pkts rest batch => .ok (recvfromOne s pkts rest batch r)
    | _ => .error .disabled
  | .recv n =>
    match s.loop with
    | .recvLocal rest batch => recvLocal s rest batch n
    | _ => .error .disabled
  | .epollAdd ok =>
    match s.loop with
    | .readd (p :: todo) rest batch => .ok (readdOne s p todo rest batch ok)
    | _ => .error .disabled
  | .signal w =>
    match s.loop with
    | .signalReady index entries =>
      signalOne { s with loop := .insertReady entries } (.ready index) w
    | .signalUDP rest batch => signalOne { s with loop := .events rest batch } .udpRecv w
    | _ => .error .disabled
  | .getServerReadySocket w index =>
    if (s.worker w).status = .running then .ok (getServerReadySocket s w index)
    else .error .disabled
  | .getUDPPacket w =>
    if (s.worker w).status = .running then .ok (takeOrWait s w .udpRecv) else .error .disabled
  | .retest w =>
    match (s.worker w).status with
    | .woken c => .ok (takeOrWait s w c)
    | _ => .error .disabled
  | .spurious w =>
    match (s.worker w).status with
    | .waiting c => .ok (setWorker s w { s.worker w with status := .woken c })
    | _ => .error .disabled
  | .insertServerReuseSocket w poolIndex p sendOk =>
    if p ∈ (s.worker w).held ∧ (s.worker w).status = .running then
      .ok (insertServerReuseSocket s w poolIndex p sendOk)
    else .error .disabled
  | .closeDelete w p =>
    if p ∈ (s.worker w).held ∧ (s.worker w).status = .running then
      .ok (deleteSocket (setWorker s w
        { s.worker w with held := (s.worker w).held.erase p }) p)
    else .error .disabled
  | .stopServer => .ok { s with epollCancel := true }

/-- What a step can be: each action with what it finds, and the state after it. -/
inductive Steps [Fintype W] (s : Server W) : Action W → Server W → Prop
  | epollWait {events : List EpollEvent} (hl : s.loop = .wait)
      (hev : s.epollCancel = false ∧ (events.map Prod.fst).Nodup ∧ ∀ e ∈ events, e.1 ∈ s.epoll) :
      Steps s (.epollWait events) { s with loop := .events events StdMap.empty }
  | epollRetry (hl : s.loop = .wait) : Steps s .epollRetry s
  | epollFail (hl : s.loop = .wait) : Steps s .epollFail { s with loop := .stopped }
  | next {t : Server W} (h : nextStep s = .ok t) : Steps s .next t
  | accept {id : Nat} {rest : List EpollEvent} {batch : SkMap} {r : Option Accepted}
      {t : Server W} (hl : s.loop = .accepting id rest batch)
      (h : acceptOne s id rest batch r = .ok t) : Steps s (.accept r) t
  | recvfrom {pkts : List Packet} {rest : List EpollEvent} {batch : SkMap} {r : Option Packet}
      (hl : s.loop = .recvUDP pkts rest batch) :
      Steps s (.recvfrom r) (recvfromOne s pkts rest batch r)
  | recv {rest : List EpollEvent} {batch : SkMap} {n : Nat} {t : Server W}
      (hl : s.loop = .recvLocal rest batch) (h : recvLocal s rest batch n = .ok t) :
      Steps s (.recv n) t
  | epollAdd {p : Ptr} {todo : List Ptr} {rest : List EpollEvent} {batch : SkMap} {ok : Bool}
      (hl : s.loop = .readd (p :: todo) rest batch) :
      Steps s (.epollAdd ok) (readdOne s p todo rest batch ok)
  | signalReady {index : Nat} {entries : List (Nat × List Ptr)} {w : Option W} {t : Server W}
      (hl : s.loop = .signalReady index entries)
      (h : signalOne { s with loop := .insertReady entries } (.ready index) w = .ok t) :
      Steps s (.signal w) t
  | signalUDP {rest : List EpollEvent} {batch : SkMap} {w : Option W} {t : Server W}
      (hl : s.loop = .signalUDP rest batch)
      (h : signalOne { s with loop := .events rest batch } .udpRecv w = .ok t) :
      Steps s (.signal w) t
  | getServerReadySocket {w : W} {index : Nat} (hw : (s.worker w).status = .running) :
      Steps s (.getServerReadySocket w index) (getServerReadySocket s w index)
  | getUDPPacket {w : W} (hw : (s.worker w).status = .running) :
      Steps s (.getUDPPacket w) (takeOrWait s w .udpRecv)
  | retest {w : W} {c : Cond} (hw : (s.worker w).status = .woken c) :
      Steps s (.retest w) (takeOrWait s w c)
  | spurious {w : W} {c : Cond} (hw : (s.worker w).status = .waiting c) :
      Steps s (.spurious w) (setWorker s w { s.worker w with status := .woken c })
  | insertServerReuseSocket {w : W} {poolIndex : Nat} {p : Ptr} {sendOk : Bool}
      (hp : p ∈ (s.worker w).held ∧ (s.worker w).status = .running) :
      Steps s (.insertServerReuseSocket w poolIndex p sendOk)
        (insertServerReuseSocket s w poolIndex p sendOk)
  | closeDelete {w : W} {p : Ptr} (hp : p ∈ (s.worker w).held ∧ (s.worker w).status = .running) :
      Steps s (.closeDelete w p) (deleteSocket (setWorker s w
        { s.worker w with held := (s.worker w).held.erase p }) p)
  | stopServer : Steps s .stopServer { s with epollCancel := true }

/-- **Inversion of a step.** -/
theorem steps_of_step [Fintype W] {s t : Server W} {a : Action W} (h : step s a = .ok t) :
    Steps s a t := by
  cases a with
  | epollWait events =>
    simp only [step] at h
    split at h
    · rename_i hl
      split at h
      · rename_i hev
        cases h
        exact .epollWait hl hev
      · cases h
    · cases h
  | epollRetry =>
    simp only [step] at h
    split at h
    · rename_i hl
      cases h
      exact .epollRetry hl
    · cases h
  | epollFail =>
    simp only [step] at h
    split at h
    · rename_i hl
      cases h
      exact .epollFail hl
    · cases h
  | next => exact .next h
  | accept r =>
    simp only [step] at h
    split at h
    · rename_i hl
      exact .accept hl h
    · cases h
  | recvfrom r =>
    simp only [step] at h
    split at h
    · rename_i hl
      cases h
      exact .recvfrom hl
    · cases h
  | recv n =>
    simp only [step] at h
    split at h
    · rename_i hl
      exact .recv hl h
    · cases h
  | epollAdd ok =>
    simp only [step] at h
    split at h
    · rename_i hl
      cases h
      exact .epollAdd hl
    · cases h
  | signal w =>
    simp only [step] at h
    split at h
    · rename_i hl
      exact .signalReady hl h
    · rename_i hl
      exact .signalUDP hl h
    · cases h
  | getServerReadySocket w index =>
    simp only [step] at h
    split at h
    · rename_i hw
      cases h
      exact .getServerReadySocket hw
    · cases h
  | getUDPPacket w =>
    simp only [step] at h
    split at h
    · rename_i hw
      cases h
      exact .getUDPPacket hw
    · cases h
  | retest w =>
    simp only [step] at h
    split at h
    · rename_i hw
      cases h
      exact .retest hw
    · cases h
  | spurious w =>
    simp only [step] at h
    split at h
    · rename_i hw
      cases h
      exact .spurious hw
    · cases h
  | insertServerReuseSocket w poolIndex p sendOk =>
    simp only [step] at h
    split at h
    · rename_i hp
      cases h
      exact .insertServerReuseSocket hp
    · cases h
  | closeDelete w p =>
    simp only [step] at h
    split at h
    · rename_i hp
      cases h
      exact .closeDelete hp
    · cases h
  | stopServer =>
    cases h
    exact .stopServer

/-- The server when `EpollLoop` starts: `n` listen sockets, the local socket and, when there is
one, the UDP socket are registered, and every list is empty. -/
def start (W : Type) (n : Nat) (hasUDP : Bool) : Server W where
  heap := fun _ => none
  epoll := (List.range n).map .listen ++ (if hasUDP then [.udp] else []) ++ [.localSocket]
  readyList := List.replicate n []
  reuseList := StdMap.empty
  udpRecvList := []
  notifications := 0
  epollCancel := false
  loop := .wait
  worker := fun _ => {}

end Kknf.AllSync
