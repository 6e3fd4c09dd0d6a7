/-
# The gateway: `TestBFProcessor` and its backends

A worker of `test_bf.cc` that has received a `ReqBF` asks two backends, one for each of its numbers:
it takes an idle connection to the backend from the pool of the `Client`, or makes one, and sends
the number.  It waits for both responses, receives them, puts the two connections back into the pool
and replies with the sum.  Any number of workers share the pool.

Nothing in a response says which request it answers: `seq_` is not looked at.  What keeps the
responses apart is that a connection in the pool has nothing under way (`ConnState.clean`), and that
is a property of all the error paths together: a connection that was used and not answered must
never be inserted.

* `Inv` is the invariant: every `Socket` of a backend is idle in the pool, in the hands of one
  worker, or leaked, and its connection in the state its place says.
* Every step keeps it, whatever the calls return: `work_keeps` for the business logic, one helper
  for each function it calls, and `answer_keeps` for the backends.
* `testBFProcessor_sound`: a request that is answered is answered with the right sum.

`GatewayRuns.lean` has what follows for whole runs of the service.

A connection to a backend is modelled like one to a client, by its bytes.  The backend on the other
side takes a frame and answers with what it computes from the number, as the processors of
`test_bb1.cc` and `test_bb2.cc` do.  `TCPWaitToRead` is a step that comes when the function returns,
with whether it returned 0; what it waits for is another matter (`WaitToRead.lean`), and it may
never return: then the worker stays where it is, with the socket of its client.
-/
import Kknf.AllSync.Client
import Kknf.AllSync.Processors

namespace Kknf.AllSync.Gateway

open Kknf.Placement Kknf.Run
open Client (ClientSocket ConnResult IdleList queue)
open Serving (Outcome Logic Conn Service)

/-! ## 1. Data -/

def bbIp : String := "127.0.0.1"
def bb1Port : Nat := 30021
def bb2Port : Nat := 30022

/-- A connection to a backend: the bytes on the way to it, and those on the way back. -/
structure Backend where
  peer : SocketAddr
  toBackend : List Byte := []
  fromBackend : List Byte := []

/-- Where a worker is in the business logic of `TestBFProcessor`, with its local variables.  The
code for the two backends is the same up to the wait; `first` is `bb1_sk` in the part for BB2. -/
inductive Local
  /-- not in the business logic -/
  | out
  /-- at `GetClientSocket` -/
  | get (req : ReqBF) (first : Option ClientSocket)
  /-- at `MakeConnection` -/
  | make (req : ReqBF) (first : Option ClientSocket)
  /-- at `TCPSend` -/
  | send (req : ReqBF) (first : Option ClientSocket) (sk : ClientSocket)
  /-- at `TCPWaitToRead` -/
  | wait (req : ReqBF) (bb1 bb2 : ClientSocket)
  /-- at `TCPRecv(bb1_sk, buf)` -/
  | recvBB1 (req : ReqBF) (bb1 bb2 : ClientSocket)
  /-- at `TCPRecv(bb2_sk, buf)` -/
  | recvBB2 (req : ReqBF) (bb1 bb2 : ClientSocket) (recvA : Word)
  /-- at `InsertClientSocket(bb1_sk)` -/
  | insertBB1 (req : ReqBF) (bb1 bb2 : ClientSocket) (recvA recvB : Word)
  /-- at `InsertClientSocket(bb2_sk)` -/
  | insertBB2 (req : ReqBF) (bb2 : ClientSocket) (recvA recvB : Word)
  /-- closing and deleting `sks` after an error; `first` is `bb1_sk` when that is not among them -/
  | close (sks : List ClientSocket) (first : Option ClientSocket)

/-- What the workers share.  `leaked` are the `Socket`s that were in the hands of a worker when it
forgot them, and `leftOpen` the descriptors that a failed `MakeConnection` has not closed; both are
read by nothing. -/
structure Shared (W : Type) where
  idle : IdleList
  /-- the `Socket` objects of the client that have not been deleted -/
  backend : Ptr → Option Backend
  locals : W → Local
  leaked : List ClientSocket
  leftOpen : List Nat

/-- A step of a worker, with what the operating system answers. -/
inductive Work
  /-- a call that needs no answer -/
  | next
  | makeConnection (conn : ConnResult)
  | tcpSend (sends : List SendResult)
  /-- `TCPWaitToRead` returns, 0 or a negative number -/
  | tcpWaitToRead (ok : Bool)
  | tcpRecv (recvs : List RecvResult)
  deriving DecidableEq

/-- The backend of the connection `k` takes a request and answers it. -/
structure Answer where
  k : Ptr
  recvs : List RecvResult
  deriving DecidableEq

variable {W : Type} [DecidableEq W]

/-! ## 2. The business logic -/

def bb1Addr : SocketAddr := ⟨bbIp, bb1Port⟩

def bb2Addr : SocketAddr := ⟨bbIp, bb2Port⟩

/-- The backend to be asked next. -/
def addr (first : Option ClientSocket) : SocketAddr := if first.isNone then bb1Addr else bb2Addr

/-- The number it is asked about. -/
def number (req : ReqBF) (first : Option ClientSocket) : Word :=
  if first.isNone then req.a else req.b

def setLocal (x : Shared W) (w : W) (l : Local) : Shared W :=
  { x with locals := Function.update x.locals w l }

def setBackend (x : Shared W) (k : Ptr) (c : Option Backend) : Shared W :=
  { x with backend := Function.update x.backend k c }

/-- Where the worker goes with the request sent to one more backend. -/
def sent (req : ReqBF) (sk : ClientSocket) : Option ClientSocket → Local
  | none => .get req (some sk)
  | some bb1 => .wait req bb1 sk

/-- `GetClientSocket`: a connection from the pool, or none. -/
def getClientSocket (x : Shared W) (w : W) (req : ReqBF) (first : Option ClientSocket) :
    Except Serving.Fault (Shared W × Outcome) :=
  match Client.getClientSocket x.idle (addr first).ip (addr first).port with
  | .error _ => .error .pool
  | .ok (some sk, m) => .ok (setLocal { x with idle := m } w (.send req first sk), .going)
  | .ok (none, m) => .ok (setLocal { x with idle := m } w (.make req first), .going)

/-- `MakeConnection`.  When it fails there is no `Socket` to close, and the descriptor stays
open. -/
def makeConnection (x : Shared W) (w : W) (req : ReqBF) (first : Option ClientSocket)
    (conn : ConnResult) : Except Serving.Fault (Shared W × Outcome) :=
  match Client.makeConnection (addr first).ip (addr first).port conn with
  | none =>
    let x := { x with leftOpen := x.leftOpen ++ conn.leftOpen.toList }
    .ok (setLocal x w (.close [] first), .going)
  | some sk =>
    if (x.backend sk.ptr).isSome then .error .disabled
    else .ok (setLocal (setBackend x sk.ptr (some { peer := sk.peer })) w (.send req first sk),
      .going)

/-- `TCPSend` of the request.  When it fails its connection is closed, and only that. -/
def tcpSend (o : ByteOrder) (x : Shared W) (w : W) (req : ReqBF) (first : Option ClientSocket)
    (sk : ClientSocket) (sends : List SendResult) : Except Serving.Fault (Shared W × Outcome) :=
  match x.backend sk.ptr with
  | none => .error .deletedSocket
  | some c =>
    let packet := Numbered.bytes o ⟨12, req.seq, number req first⟩
    match AllSync.tcpSend (some (lvFrame o packet)) ⟨sends, c.toBackend⟩ with
    | none => .error .disabled
    | some (ret, e) =>
      let x := setBackend x sk.ptr (some { c with toBackend := e.wire })
      if ret < 0 then .ok (setLocal x w (.close [sk] first), .going)
      else .ok (setLocal x w (sent req sk first), .going)

/-- `TCPRecv` of a response from `sk`: on to `next` with the number in it, or to close `both`.  The
buffer to be filled is the one of the request, or an empty one: all of it is overwritten. -/
def tcpRecv (o : ByteOrder) (x : Shared W) (w : W) (sk : ClientSocket) (both : List ClientSocket)
    (next : Word → Local) (recvs : List RecvResult) : Except Serving.Fault (Shared W × Outcome) :=
  match x.backend sk.ptr with
  | none => .error .deletedSocket
  | some c =>
    match AllSync.tcpRecv o [] ⟨recvs, c.fromBackend⟩ with
    | none => .error .disabled
    | some (ret, buf, e) =>
      let x := setBackend x sk.ptr (some { c with fromBackend := e.stream })
      if ret < 0 then .ok (setLocal x w (.close both none), .going)
      else
        match Numbered.read o buf with
        | none => .error .outOfBounds
        | some rsp => .ok (setLocal x w (next rsp.num), .going)

/-- `InsertClientSocket`, and on with `l`. -/
def insertClientSocket (x : Shared W) (w : W) (sk : ClientSocket) (l : Local) (out : Outcome) :
    Except Serving.Fault (Shared W × Outcome) :=
  match Client.insertClientSocket x.idle sk with
  | .error _ => .error .pool
  | .ok m => .ok (setLocal { x with idle := m } w l, out)

/-- `sk->Close(); delete sk;` for the first of the connections to be closed. -/
def close (x : Shared W) (w : W) (sk : ClientSocket) (rest : List ClientSocket)
    (first : Option ClientSocket) : Except Serving.Fault (Shared W × Outcome) :=
  match x.backend sk.ptr with
  | none => .error .deletedSocket
  | some _ => .ok (setLocal (setBackend x sk.ptr none) w (.close rest first), .going)

/-- The `InsertServerReuseSocket` and `continue` of the error paths: whatever the worker still has
is out of scope. -/
def giveUp (x : Shared W) (w : W) (first : Option ClientSocket) : Shared W × Outcome :=
  ({ setLocal x w .out with leaked := x.leaked ++ first.toList }, .drop)

/-- One step of `TestBFProcessor::Process` between `TCPRecv` and `TCPSend` on the client's
socket. -/
def work (o : ByteOrder) (x : Shared W) (w : W) (e : Work) :
    Except Serving.Fault (Shared W × Outcome) :=
  match x.locals w, e with
  | .get req first, .next => getClientSocket x w req first
  | .make req first, .makeConnection conn => makeConnection x w req first conn
  | .send req first sk, .tcpSend sends => tcpSend o x w req first sk sends
  | .wait req bb1 bb2, .tcpWaitToRead ok =>
    if ok then .ok (setLocal x w (.recvBB1 req bb1 bb2), .going)
    else .ok (setLocal x w (.close [bb1, bb2] none), .going)
  | .recvBB1 req bb1 bb2, .tcpRecv recvs =>
      tcpRecv o x w bb1 [bb1, bb2] (.recvBB2 req bb1 bb2) recvs
  | .recvBB2 req bb1 bb2 recvA, .tcpRecv recvs =>
    tcpRecv o x w bb2 [bb1, bb2] (.insertBB1 req bb1 bb2 recvA) recvs
  | .insertBB1 req bb1 bb2 recvA recvB, .next =>
    insertClientSocket x w bb1 (.insertBB2 req bb2 recvA recvB) .going
  | .insertBB2 req bb2 recvA recvB, .next =>
    insertClientSocket x w bb2 .out (.reply (Numbered.bytes o ⟨12, req.seq, recvA + recvB⟩))
  | .close (sk :: rest) first, .next => close x w sk rest first
  | .close [] first, .next => .ok (giveUp x w first)
  | _, _ => .error .disabled

/-- What a worker does with a packet from a client. -/
def receive (o : ByteOrder) (x : Shared W) (w : W) (packet : List Byte) :
    Except Serving.Fault (Shared W × Outcome) :=
  match ReqBF.read o packet with
  | none => .error .outOfBounds
  | some req => .ok (setLocal x w (.get req none), .going)

/-- The backend of `a.k` takes a request off the connection and puts its response on it.  `compute`
is what the backend at an address makes of a number. -/
def answer (o : ByteOrder) (compute : SocketAddr → Word → Word) (x : Shared W) (a : Answer) :
    Except Serving.Fault (Shared W) :=
  match x.backend a.k with
  | none => .error .disabled
  | some c =>
    match AllSync.tcpRecv o [] ⟨a.recvs, c.toBackend⟩ with
    | none => .error .disabled
    | some (ret, buf, e) =>
      if ret < 0 then .error .disabled
      else
        match Numbered.read o buf with
        | none => .error .disabled
        | some req =>
          let rsp := Numbered.bytes o ⟨12, req.seq, compute c.peer req.num⟩
          .ok (setBackend x a.k (some { c with
            toBackend := e.stream, fromBackend := c.fromBackend ++ lvFrame o rsp }))

/-- `TestBFProcessor`, with the backends around it. -/
def testBFProcessor (W : Type) [DecidableEq W] (o : ByteOrder)
    (compute : SocketAddr → Word → Word) :
    Logic W (Shared W) Work Answer where
  receive := receive o
  work := work o
  outside := answer o compute
  closeOnSendError := true

/-- No connections yet. -/
def start (W : Type) : Shared W where
  idle := OrdMap.empty
  backend := fun _ => none
  locals := fun _ => .out
  leaked := []
  leftOpen := []

/-! ## 3. Places and states of the connections -/

/-- Where a `Socket` of a connection to a backend is. -/
inductive Place (W : Type)
  /-- in `client_socket_idle_list_`, under this address -/
  | idle (k : SocketAddr)
  | worker (w : W)
  | leaked
  deriving DecidableEq

/-- What is on a connection. -/
inductive ConnState
  /-- nothing, in either direction -/
  | clean
  /-- the request with this number, or the response to it -/
  | asked (num : Word)
  /-- nobody asks any more -/
  | lost
  deriving DecidableEq

/-- The connections a worker has. -/
def Local.conns : Local → List (ClientSocket × ConnState)
  | .out => []
  | .get req first | .make req first => first.toList.map fun bb1 => (bb1, .asked req.a)
  | .send req first sk => first.toList.map (fun bb1 => (bb1, .asked req.a)) ++ [(sk, .clean)]
  | .wait req bb1 bb2 | .recvBB1 req bb1 bb2 => [(bb1, .asked req.a), (bb2, .asked req.b)]
  | .recvBB2 req bb1 bb2 _ => [(bb1, .clean), (bb2, .asked req.b)]
  | .insertBB1 _ bb1 bb2 _ _ => [(bb1, .clean), (bb2, .clean)]
  | .insertBB2 _ bb2 _ _ => [(bb2, .clean)]
  | .close sks first => (first.toList ++ sks).map fun sk => (sk, .lost)

/-- The connections at each place. -/
def content (x : Shared W) : Place W → List (ClientSocket × ConnState)
  | .idle k => (queue x.idle k).map fun sk => (sk, .clean)
  | .worker w => (x.locals w).conns
  | .leaked => x.leaked.map fun sk => (sk, .lost)

/-- Their addresses on the heap. -/
def occ (x : Shared W) (pl : Place W) : List Ptr := (content x pl).map fun c => c.1.ptr

omit [DecidableEq W] in
@[simp] theorem occ_idle (x : Shared W) (k : SocketAddr) :
    occ x (.idle k) = (queue x.idle k).map ClientSocket.ptr := by
  simp [occ, content, Function.comp_def]

omit [DecidableEq W] in
@[simp] theorem occ_worker (x : Shared W) (w : W) :
    occ x (.worker w) = (x.locals w).conns.map fun c => c.1.ptr := rfl

omit [DecidableEq W] in
@[simp] theorem occ_leaked (x : Shared W) : occ x .leaked = x.leaked.map ClientSocket.ptr := by
  simp [occ, content, Function.comp_def]

variable {o : ByteOrder} {compute : SocketAddr → Word → Word}

/-- The bytes of the connection are those of its state. -/
def Backend.Is (o : ByteOrder) (compute : SocketAddr → Word → Word) (c : Backend) : ConnState → Prop
  | .clean => c.toBackend = [] ∧ c.fromBackend = []
  | .asked num => ∃ seq,
      (c.toBackend = lvFrame o (Numbered.bytes o ⟨12, seq, num⟩) ∧ c.fromBackend = []) ∨
      (c.toBackend = [] ∧
        c.fromBackend = lvFrame o (Numbered.bytes o ⟨12, seq, compute c.peer num⟩))
  | .lost => True

/-- The connection is open, leads where the socket says, and is in its state. -/
def ConnIs (o : ByteOrder) (compute : SocketAddr → Word → Word) (b : Ptr → Option Backend)
    (c : ClientSocket × ConnState) : Prop :=
  ∃ conn, b c.1.ptr = some conn ∧ conn.peer = c.1.peer ∧ conn.Is o compute c.2

/-- The reply to a request. -/
def reply (compute : SocketAddr → Word → Word) (req : ReqBF) : RspBF :=
  ⟨12, req.seq, compute bb1Addr req.a + compute bb2Addr req.b⟩

/-- The result for a packet, where there is one, is the reply to it. -/
def IsReply (o : ByteOrder) (compute : SocketAddr → Word → Word) (packet : List Byte)
    (r : Option (List Byte)) : Prop :=
  ∀ rsp, r = some rsp → ∃ req, ReqBF.read o packet = some req ∧ rsp = (reply compute req).bytes o

/-- The local variables of a worker are right for the packet it is busy with. -/
def Local.For (o : ByteOrder) (compute : SocketAddr → Word → Word) (packet : List Byte) :
    Local → Prop
  | .out => False
  | .get req first | .make req first =>
    ReqBF.read o packet = some req ∧ ∀ bb1, first = some bb1 → bb1.peer = bb1Addr
  | .send req first sk =>
    ReqBF.read o packet = some req ∧ (∀ bb1, first = some bb1 → bb1.peer = bb1Addr) ∧
      sk.peer = addr first
  | .wait req bb1 bb2 | .recvBB1 req bb1 bb2 =>
    ReqBF.read o packet = some req ∧ bb1.peer = bb1Addr ∧ bb2.peer = bb2Addr
  | .recvBB2 req _ bb2 recvA =>
    ReqBF.read o packet = some req ∧ bb2.peer = bb2Addr ∧ recvA = compute bb1Addr req.a
  | .insertBB1 req _ _ recvA recvB | .insertBB2 req _ recvA recvB =>
    ReqBF.read o packet = some req ∧ recvA = compute bb1Addr req.a ∧ recvB = compute bb2Addr req.b
  | .close _ _ => True

/-- The worker is in the business logic exactly when it has a packet. -/
def LocalFor (o : ByteOrder) (compute : SocketAddr → Word → Word) (l : Local) :
    Option (List Byte) → Prop
  | none => l = .out
  | some packet => l.For o compute packet

/-- The invariant of the gateway. -/
structure Inv (o : ByteOrder) (compute : SocketAddr → Word → Word) (x : Shared W)
    (q : W → Option (List Byte)) : Prop where
  pool : Client.Inv x.idle
  exclusive : Exclusive (occ x)
  alive : ∀ k, Placed (occ x) k ↔ (x.backend k).isSome
  conns : ∀ pl, ∀ c ∈ content x pl, ConnIs o compute x.backend c
  locals : ∀ w, LocalFor o compute (x.locals w) (q w)

variable {x y : Shared W} {q : W → Option (List Byte)}

/-! ## 4. One worker at its connections -/

omit [DecidableEq W] in
/-- A connection is in one place, once. -/
theorem Inv.same (h : Inv o compute x q) {pl pl' : Place W} {c c' : ClientSocket × ConnState}
    (hc : c ∈ content x pl) (hc' : c' ∈ content x pl') (heq : c'.1.ptr = c.1.ptr) :
    pl' = pl ∧ c' = c := by
  have hmem : c.1.ptr ∈ occ x pl := List.mem_map_of_mem hc
  have hmem' : c.1.ptr ∈ occ x pl' := heq ▸ List.mem_map_of_mem hc'
  have hpl : pl' = pl := h.exclusive.unique _ _ _ hmem' hmem
  subst hpl
  exact ⟨rfl, List.inj_on_of_nodup_map (h.exclusive.nodup pl') hc' hc heq⟩

theorem occ_setLocal_other (x : Shared W) (w : W) (l : Local) {pl : Place W}
    (hpl : pl ≠ .worker w) :
    content (setLocal x w l) pl = content x pl := by
  cases pl with
  | idle k => rfl
  | worker v =>
    have hv : v ≠ w := fun e => hpl (e ▸ rfl)
    simp [content, setLocal, hv]
  | leaked => rfl

theorem content_setLocal_self (x : Shared W) (w : W) (l : Local) :
    content (setLocal x w l) (.worker w) = l.conns := by
  simp [content, setLocal]

theorem locals_update (h : Inv o compute x q) {w : W} {l : Local} {r : Option (List Byte)}
    (hl : LocalFor o compute l r) (v : W) :
    LocalFor o compute (Function.update x.locals w l v) (Function.update q w r v) := by
  by_cases hv : v = w
  · subst hv
    simpa using hl
  · simpa [hv] using h.locals v

/-- **A worker acts on the connections it has** and keeps them: only their bytes change. -/
theorem Inv.here (h : Inv o compute x q) {w : W} {l : Local} {b : Ptr → Option Backend}
    {r : Option (List Byte)}
    (hptr : l.conns.map (fun c => c.1.ptr) = (x.locals w).conns.map fun c => c.1.ptr)
    (hframe : ∀ k, k ∉ occ x (.worker w) → b k = x.backend k)
    (hconns : ∀ c ∈ l.conns, ConnIs o compute b c) (hl : LocalFor o compute l r) :
    Inv o compute { setLocal x w l with backend := b } (Function.update q w r) := by
  have hocc : occ { setLocal x w l with backend := b } = occ x := by
    funext pl
    by_cases hpl : pl = .worker w
    · subst hpl
      show (content (setLocal x w l) (.worker w)).map _ = _
      rw [content_setLocal_self, hptr]
      rfl
    · show (content (setLocal x w l) pl).map _ = _
      rw [occ_setLocal_other x w l hpl]
      rfl
  refine ⟨h.pool, by rw [hocc]; exact h.exclusive, fun k => ?_, fun pl c hc => ?_,
    locals_update h hl⟩
  · rw [hocc, h.alive]
    show _ ↔ (b k).isSome
    by_cases hk : k ∈ occ x (.worker w)
    · -- it was open, and it is
      have hold : (x.backend k).isSome := (h.alive k).mp ⟨_, hk⟩
      have hk' : k ∈ l.conns.map fun c => c.1.ptr := by rwa [hptr]
      obtain ⟨c, hc, rfl⟩ := List.mem_map.mp hk'
      obtain ⟨conn, hconn, -⟩ := hconns c hc
      simp [hold, hconn]
    · rw [hframe k hk]
  · by_cases hpl : pl = .worker w
    · subst hpl
      refine hconns c ?_
      have hself := content_setLocal_self x w l
      exact hself ▸ hc
    · have hc' : c ∈ content x pl := by
        have hother := occ_setLocal_other x w l hpl
        exact hother ▸ hc
      have hnot : c.1.ptr ∉ occ x (.worker w) := fun hmem =>
        hpl (h.exclusive.unique _ _ _ (List.mem_map_of_mem hc') hmem)
      obtain ⟨conn, hconn, his⟩ := h.conns pl c hc'
      exact ⟨conn, (hframe _ hnot).trans hconn, his⟩

/-! ## 5. Connections that change hands -/

/-- The worker `w` goes on with `l`, and the pool and the lost connections are these. -/
def put (x : Shared W) (w : W) (l : Local) (m : IdleList) (lost : List ClientSocket) : Shared W :=
  { setLocal x w l with idle := m, leaked := lost }

@[simp] theorem put_idle (x : Shared W) (w : W) (l : Local) (m : IdleList)
    (lost : List ClientSocket) : (put x w l m lost).idle = m := rfl

@[simp] theorem put_leaked (x : Shared W) (w : W) (l : Local) (m : IdleList)
    (lost : List ClientSocket) : (put x w l m lost).leaked = lost := rfl

@[simp] theorem put_locals (x : Shared W) (w : W) (l : Local) (m : IdleList)
    (lost : List ClientSocket) : (put x w l m lost).locals = Function.update x.locals w l := rfl

theorem content_put (x : Shared W) (w : W) (l : Local) (m : IdleList) (lost : List ClientSocket)
    (pl : Place W) : content (put x w l m lost) pl = match pl with
      | .idle k => (queue m k).map fun sk => (sk, .clean)
      | .worker v => if v = w then l.conns else content x (.worker v)
      | .leaked => lost.map fun sk => (sk, .lost) := by
  cases pl with
  | idle k => rfl
  | worker v =>
    by_cases hv : v = w
    · subst hv
      simp [content, put, setLocal]
    · simp [content, put, setLocal, hv]
  | leaked => rfl

/-- The rule for a hand-over between two places: nothing is opened or closed, and what the two
places have afterwards is as they want it. -/
theorem Inv.moved (h : Inv o compute x q) {w : W} {l : Local} {m : IdleList}
    {lost : List ClientSocket}
    {r : Option (List Byte)} (i j : Place W) (ks : List Ptr) (hij : i ≠ j)
    (hsource : (occ x i).Perm (ks ++ occ (put x w l m lost) i))
    (htarget : (occ (put x w l m lost) j).Perm (occ x j ++ ks))
    (hframe : ∀ pl, pl ≠ i → pl ≠ j → content (put x w l m lost) pl = content x pl)
    (hi : ∀ c ∈ content (put x w l m lost) i, ConnIs o compute x.backend c)
    (hj : ∀ c ∈ content (put x w l m lost) j, ConnIs o compute x.backend c)
    (hm : Client.Inv m) (hl : LocalFor o compute l r) :
    Inv o compute (put x w l m lost) (Function.update q w r) := by
  have hmoved : Moved (occ x) (occ (put x w l m lost)) i j ks :=
    ⟨hij, hsource, htarget, fun pl hpl hpl' => by rw [occ, hframe pl hpl hpl', occ]⟩
  refine ⟨hm, h.exclusive.moved hmoved, fun k => ?_, fun pl c hc => ?_, locals_update h hl⟩
  · rw [hmoved.placed_iff]
    exact h.alive k
  · by_cases hpi : pl = i
    · subst hpi
      exact hi c hc
    · by_cases hpj : pl = j
      · subst hpj
        exact hj c hc
      · rw [hframe pl hpi hpj] at hc
        exact h.conns pl c hc

/-- **A worker takes an idle connection**, the front of the queue of its address. -/
theorem Inv.takeIdle (h : Inv o compute x q) {w : W} {l : Local} {k : SocketAddr} {m : IdleList}
    {sk : ClientSocket} {rest : List ClientSocket} {r : Option (List Byte)}
    (hqueue : queue x.idle k = sk :: rest) (hm : Client.Inv m)
    (hqueue' : queue m = Function.update (queue x.idle) k rest)
    (hconns : l.conns = (x.locals w).conns ++ [(sk, .clean)]) (hl : LocalFor o compute l r) :
    Inv o compute (put x w l m x.leaked) (Function.update q w r) := by
  have hidle : ∀ c ∈ (sk :: rest).map fun sk => (sk, ConnState.clean),
      ConnIs o compute x.backend c := by
    intro c hc
    refine h.conns (.idle k) c ?_
    simpa only [content, hqueue] using hc
  refine h.moved (.idle k) (.worker w) [sk.ptr] (by simp) ?_ ?_ ?_ ?_ ?_ hm hl
  · simp [hqueue, hqueue']
  · simp [hconns]
  · intro pl hpl hpl'
    rw [content_put]
    cases pl with
    | idle k' =>
      have hk : k' ≠ k := fun e => hpl (e ▸ rfl)
      simp [content, hqueue', hk]
    | worker v =>
      have hv : v ≠ w := fun e => hpl' (e ▸ rfl)
      exact if_neg hv
    | leaked => rfl
  · intro c hc
    rw [content_put] at hc
    simp only [hqueue', Function.update_self] at hc
    exact hidle c (by rw [List.map_cons]; exact List.mem_cons_of_mem _ hc)
  · intro c hc
    rw [content_put] at hc
    simp only [if_true, hconns] at hc
    rcases List.mem_append.mp hc with hold | hnew
    · exact h.conns (.worker w) c hold
    · rw [List.mem_singleton.mp hnew]
      exact hidle _ List.mem_cons_self

/-- **A worker puts a connection back**, to the end of the queue of its peer. -/
theorem Inv.giveBack (h : Inv o compute x q) {w : W} {l : Local} {m : IdleList} {sk : ClientSocket}
    {r : Option (List Byte)} (hm : Client.Inv m)
    (hqueue : queue m = Function.update (queue x.idle) sk.peer (queue x.idle sk.peer ++ [sk]))
    (hconns : (x.locals w).conns = (sk, .clean) :: l.conns) (hl : LocalFor o compute l r) :
    Inv o compute (put x w l m x.leaked) (Function.update q w r) := by
  have hheld : ∀ c ∈ (sk, ConnState.clean) :: l.conns, ConnIs o compute x.backend c := by
    intro c hc
    refine h.conns (.worker w) c ?_
    simpa only [content, hconns] using hc
  refine h.moved (.worker w) (.idle sk.peer) [sk.ptr] (by simp) ?_ ?_ ?_ ?_ ?_ hm hl
  · simp [hconns]
  · simp [hqueue]
  · intro pl hpl hpl'
    rw [content_put]
    cases pl with
    | idle k' =>
      have hk : k' ≠ sk.peer := fun e => hpl' (e ▸ rfl)
      simp [content, hqueue, hk]
    | worker v =>
      have hv : v ≠ w := fun e => hpl (e ▸ rfl)
      exact if_neg hv
    | leaked => rfl
  · intro c hc
    rw [content_put] at hc
    simp only [if_true] at hc
    exact hheld c (List.mem_cons_of_mem _ hc)
  · intro c hc
    rw [content_put] at hc
    simp only [hqueue, Function.update_self, List.map_append, List.map_singleton] at hc
    rcases List.mem_append.mp hc with hold | hnew
    · exact h.conns (.idle sk.peer) c hold
    · rw [List.mem_singleton.mp hnew]
      exact hheld _ List.mem_cons_self

/-- **A worker forgets the connection to the first backend**, if it has one. -/
theorem Inv.forget (h : Inv o compute x q) {w : W} {first : Option ClientSocket}
    (hl : x.locals w = .close [] first) :
    Inv o compute (put x w .out x.idle (x.leaked ++ first.toList)) (Function.update q w none) := by
  have hconns : (x.locals w).conns = first.toList.map fun sk => (sk, .lost) := by
    rw [hl, Local.conns, List.append_nil]
  have hnone : Local.out.conns = [] := rfl
  refine h.moved (.worker w) .leaked (first.toList.map ClientSocket.ptr) (by simp)
    ?_ ?_ ?_ ?_ ?_ h.pool rfl
  · rw [occ_worker, hconns]
    simp [hnone, Function.comp_def]
  · simp
  · intro pl hpl hpl'
    rw [content_put]
    cases pl with
    | idle k => rfl
    | worker v =>
      have hv : v ≠ w := fun e => hpl (e ▸ rfl)
      exact if_neg hv
    | leaked => exact absurd rfl hpl'
  · intro c hc
    rw [content_put] at hc
    simp [hnone] at hc
  · intro c hc
    rw [content_put] at hc
    simp only [List.map_append] at hc
    rcases List.mem_append.mp hc with hold | hnew
    · exact h.conns .leaked c hold
    · exact h.conns (.worker w) c (by simpa only [content, hconns] using hnew)

/-! ## 6. Connections that are opened and closed -/

/-- **A worker makes a connection**, at an address where nothing was. -/
theorem Inv.connect (h : Inv o compute x q) {w : W} {l : Local} {sk : ClientSocket}
    {r : Option (List Byte)} (hnew : x.backend sk.ptr = none)
    (hconns : l.conns = (x.locals w).conns ++ [(sk, .clean)]) (hl : LocalFor o compute l r) :
    Inv o compute (setLocal (setBackend x sk.ptr (some { peer := sk.peer })) w l)
      (Function.update q w r) := by
  obtain ⟨y, hy⟩ : ∃ y, y = setLocal (setBackend x sk.ptr (some { peer := sk.peer })) w l :=
    ⟨_, rfl⟩
  have hcontent : ∀ pl, content y pl =
      if pl = .worker w then (x.locals w).conns ++ [(sk, .clean)] else content x pl := by
    intro pl
    subst hy
    by_cases hpl : pl = .worker w
    · subst hpl
      rw [content_setLocal_self, hconns, if_pos rfl]
    · rw [occ_setLocal_other _ w l hpl, if_neg hpl]
      cases pl <;> rfl
  have hbackend : y.backend = Function.update x.backend sk.ptr (some { peer := sk.peer }) := by
    subst hy
    rfl
  have hself : (y.locals w).conns = l.conns := by
    subst hy
    simp [setLocal]
  have hadded : Added (occ x) (occ y) (.worker w) sk.ptr := by
    refine ⟨?_, ?_, fun pl hpl => ?_⟩
    · rw [h.alive, hnew]
      simp
    · simp [hself, hconns]
    · rw [occ, hcontent, if_neg hpl, occ]
  rw [← hy]
  have hlocals : ∀ v, LocalFor o compute (y.locals v) (Function.update q w r v) := by
    subst hy
    exact locals_update h hl
  refine ⟨by subst hy; exact h.pool, h.exclusive.added hadded, fun k => ?_,
    fun pl c hc => ?_, hlocals⟩
  · rw [hadded.placed_iff, h.alive, hbackend]
    by_cases hk : k = sk.ptr
    · simp [hk]
    · simp [hk]
  · have hold : ∀ pl', c ∈ content x pl' → ConnIs o compute y.backend c := by
      intro pl' hc'
      obtain ⟨conn, hconn, his⟩ := h.conns pl' c hc'
      have hne : c.1.ptr ≠ sk.ptr := by
        intro heq
        rw [heq, hnew] at hconn
        cases hconn
      exact ⟨conn, by rw [hbackend, Function.update_of_ne hne, hconn], his⟩
    rw [hcontent] at hc
    split at hc
    · rcases List.mem_append.mp hc with hc' | hc'
      · exact hold (.worker w) hc'
      · rw [List.mem_singleton.mp hc', hbackend]
        exact ⟨_, by rw [Function.update_self], rfl, rfl, rfl⟩
    · exact hold pl hc

/-- **A worker closes and deletes a connection.** -/
theorem Inv.closeOne (h : Inv o compute x q) {w : W} {l : Local} {sk : ClientSocket}
    (st : ConnState)
    {r : Option (List Byte)} (hconns : (x.locals w).conns.Perm ((sk, st) :: l.conns))
    (hl : LocalFor o compute l r) :
    Inv o compute (setLocal (setBackend x sk.ptr none) w l) (Function.update q w r) := by
  obtain ⟨y, hy⟩ : ∃ y, y = setLocal (setBackend x sk.ptr none) w l := ⟨_, rfl⟩
  have hcontent : ∀ pl, content y pl = if pl = .worker w then l.conns else content x pl := by
    intro pl
    subst hy
    by_cases hpl : pl = .worker w
    · subst hpl
      rw [content_setLocal_self, if_pos rfl]
    · rw [occ_setLocal_other _ w l hpl, if_neg hpl]
      cases pl <;> rfl
  have hbackend : y.backend = Function.update x.backend sk.ptr none := by
    subst hy
    rfl
  have hself : (y.locals w).conns = l.conns := by
    subst hy
    simp [setLocal]
  have hdropped : Dropped (occ x) (occ y) (.worker w) sk.ptr := by
    refine ⟨?_, fun pl hpl => ?_⟩
    · rw [occ_worker, occ_worker, hself]
      exact hconns.map fun c => c.1.ptr
    · rw [occ, hcontent, if_neg hpl, occ]
  have hlocals : ∀ v, LocalFor o compute (y.locals v) (Function.update q w r v) := by
    subst hy
    exact locals_update h hl
  rw [← hy]
  refine ⟨by subst hy; exact h.pool, h.exclusive.dropped hdropped, fun k => ?_, fun pl c hc => ?_,
    hlocals⟩
  · rw [hdropped.placed_iff h.exclusive, h.alive, hbackend]
    by_cases hk : k = sk.ptr
    · simp [hk]
    · simp [hk]
  · -- what is left is somewhere else on the heap
    have hmem : c ∈ content x pl := by
      rw [hcontent] at hc
      split at hc
      · rename_i hpl
        rw [hpl]
        exact hconns.mem_iff.mpr (List.mem_cons_of_mem _ hc)
      · exact hc
    have hne : c.1.ptr ≠ sk.ptr := by
      intro heq
      have hplaced : Placed (occ y) sk.ptr := ⟨pl, heq ▸ List.mem_map_of_mem hc⟩
      exact ((hdropped.placed_iff h.exclusive _).mp hplaced).2 rfl
    obtain ⟨conn, hconn, his⟩ := h.conns pl c hmem
    exact ⟨conn, by rw [hbackend, Function.update_of_ne hne, hconn], his⟩

/-! ## 7. The bytes of one connection -/

omit [DecidableEq W] in
/-- What a worker has is open, leads where it says, and is in its state. -/
theorem Inv.held (h : Inv o compute x q) {w : W} {sk : ClientSocket} {st : ConnState}
    (hmem : (sk, st) ∈ (x.locals w).conns) :
    ∃ conn, x.backend sk.ptr = some conn ∧ conn.peer = sk.peer ∧ conn.Is o compute st :=
  h.conns (.worker w) (sk, st) hmem

/-- **A worker transfers bytes on a connection it has.**  The connections it goes on with are the
ones it had; `sk` is in a new state, and the others are in theirs, or lost. -/
theorem Inv.bytes (h : Inv o compute x q) {w : W} {l : Local} {sk : ClientSocket} {st : ConnState}
    {conn conn' : Backend} {r : Option (List Byte)} (hmem : (sk, st) ∈ (x.locals w).conns)
    (hconn : x.backend sk.ptr = some conn) (hpeer : conn'.peer = conn.peer)
    (hptr : l.conns.map (fun c => c.1.ptr) = (x.locals w).conns.map fun c => c.1.ptr)
    (hconns : ∀ d ∈ l.conns, (d.1 = sk ∧ conn'.Is o compute d.2) ∨
      (d.1.ptr ≠ sk.ptr ∧ ∃ st', (d.1, st') ∈ (x.locals w).conns ∧ (d.2 = st' ∨ d.2 = .lost)))
    (hl : LocalFor o compute l r) :
    Inv o compute (setLocal (setBackend x sk.ptr (some conn')) w l) (Function.update q w r) := by
  refine h.here (b := Function.update x.backend sk.ptr (some conn')) hptr (fun k hk => ?_)
    (fun d hd => ?_) hl
  · have hne : k ≠ sk.ptr := fun heq => hk (heq ▸ List.mem_map_of_mem hmem)
    exact Function.update_of_ne hne _ _
  · obtain ⟨conn₀, hconn₀, hpeer₀, -⟩ := h.held hmem
    cases hconn.symm.trans hconn₀
    rcases hconns d hd with ⟨heq, his⟩ | ⟨hne, st', hold, hst⟩
    · exact ⟨conn', by rw [heq, Function.update_self], by rw [heq, hpeer, hpeer₀], his⟩
    · obtain ⟨other, hother, hpeer', his⟩ := h.held hold
      refine ⟨other, by rw [Function.update_of_ne hne]; exact hother, hpeer', ?_⟩
      rcases hst with heq | heq
      · rw [heq]
        exact his
      · rw [heq]
        trivial

/-- **A worker goes on without a transfer**, with the connections in their states, or lost. -/
theorem Inv.goOn (h : Inv o compute x q) {w : W} {l : Local} {r : Option (List Byte)}
    (hptr : l.conns.map (fun c => c.1.ptr) = (x.locals w).conns.map fun c => c.1.ptr)
    (hconns : ∀ d ∈ l.conns, ∃ st', (d.1, st') ∈ (x.locals w).conns ∧ (d.2 = st' ∨ d.2 = .lost))
    (hl : LocalFor o compute l r) : Inv o compute (setLocal x w l) (Function.update q w r) := by
  refine h.here (b := x.backend) hptr (fun _ _ => rfl) (fun d hd => ?_) hl
  obtain ⟨st', hold, hst⟩ := hconns d hd
  obtain ⟨conn, hconn, hpeer, his⟩ := h.held hold
  refine ⟨conn, hconn, hpeer, ?_⟩
  rcases hst with heq | heq
  · rw [heq]
    exact his
  · rw [heq]
    trivial

omit [DecidableEq W] in
/-- The descriptors that are left open are nobody's. -/
theorem Inv.leave (h : Inv o compute x q) (fds : List Nat) :
    Inv o compute { x with leftOpen := fds } q :=
  ⟨h.pool, h.exclusive, h.alive, h.conns, h.locals⟩

/-- A `TCPRecv` that does not fail has found something. -/
theorem recv_not_empty {recvs : List RecvResult} {ret : Int} {buf : List Byte} {e : RecvEnd}
    (hr : AllSync.tcpRecv o [] ⟨recvs, []⟩ = some (ret, buf, e)) : ret < 0 := by
  by_contra hret
  obtain ⟨hframe, -, -⟩ := tcpRecv_takes_frame hr hret
  exact absurd hframe.symm (lvFrame_append_ne_nil o buf e.stream)

/-- What it takes off a connection with one frame on it. -/
theorem recv_one_frame {packet : List Byte} {recvs : List RecvResult} {ret : Int} {buf : List Byte}
    {e : RecvEnd} (hsize : packet.length < 2 ^ 32)
    (hr : AllSync.tcpRecv o [] ⟨recvs, lvFrame o packet⟩ = some (ret, buf, e)) (hret : ¬ ret < 0) :
    buf = packet ∧ e.stream = [] := by
  obtain ⟨hframe, -, hle⟩ := tcpRecv_takes_frame hr hret
  have hbuf : buf.length < 2 ^ 32 := by
    unfold maxTcpPktSize at hle
    omega
  have hsame : lvFrame o buf ++ e.stream = lvFrame o packet ++ [] := by
    rw [List.append_nil]
    exact hframe.symm
  exact lvFrame_cancel hbuf hsize hsame

theorem Numbered.length_lt (x : Numbered) : (x.bytes o).length < 2 ^ 32 := by
  rw [Numbered.length_bytes]
  decide

/-- **The response on a connection is the one to the request that was sent on it.** -/
theorem Backend.Is.response {conn : Backend} {num : Word} {recvs : List RecvResult} {ret : Int}
    {buf : List Byte} {e : RecvEnd} (h : conn.Is o compute (.asked num))
    (hr : AllSync.tcpRecv o [] ⟨recvs, conn.fromBackend⟩ = some (ret, buf, e)) (hret : ¬ ret < 0) :
    (∃ rsp, Numbered.read o buf = some rsp ∧ rsp.num = compute conn.peer num) ∧
      Backend.Is o compute { conn with fromBackend := e.stream } .clean := by
  obtain ⟨seq, ⟨-, hnil⟩ | ⟨hto, hfrom⟩⟩ := h
  · rw [hnil] at hr
    exact absurd (recv_not_empty hr) hret
  · rw [hfrom] at hr
    obtain ⟨rfl, hrest⟩ := recv_one_frame (Numbered.length_lt _) hr hret
    exact ⟨⟨_, by simpa using Numbered.read_bytes o o _ [], rfl⟩, hto, hrest⟩

/-- **What a backend makes of a connection** leaves it in its state. -/
theorem Backend.Is.answered {conn : Backend} {st : ConnState} {recvs : List RecvResult} {ret : Int}
    {buf : List Byte} {e : RecvEnd} {req : Numbered} (h : conn.Is o compute st)
    (hr : AllSync.tcpRecv o [] ⟨recvs, conn.toBackend⟩ = some (ret, buf, e)) (hret : ¬ ret < 0)
    (hread : Numbered.read o buf = some req) :
    Backend.Is o compute { conn with
      toBackend := e.stream
      fromBackend := conn.fromBackend ++
        lvFrame o (Numbered.bytes o ⟨12, req.seq, compute conn.peer req.num⟩) } st := by
  cases st with
  | clean =>
    rw [h.1] at hr
    exact absurd (recv_not_empty hr) hret
  | asked num =>
    obtain ⟨seq, ⟨hto, hfrom⟩ | ⟨hnil, -⟩⟩ := h
    · rw [hto] at hr
      obtain ⟨rfl, hrest⟩ := recv_one_frame (Numbered.length_lt _) hr hret
      have hreq : Numbered.read o (Numbered.bytes o ⟨12, seq, num⟩) = some ⟨12, seq, num⟩ := by
        simpa using Numbered.read_bytes o o _ []
      cases hread.symm.trans hreq
      exact ⟨seq, Or.inr ⟨hrest, by rw [hfrom, List.nil_append]⟩⟩
    · rw [hnil] at hr
      exact absurd (recv_not_empty hr) hret
  | lost => trivial

/-! ## 8. The steps of the business logic -/

/-- What a step of a worker comes to while it is busy with `packet`: the invariant, and a result
that is the reply; the only fault is that the step is not possible. -/
def Keeps (o : ByteOrder) (compute : SocketAddr → Word → Word) (q : W → Option (List Byte)) (w : W)
    (packet : List Byte) : Except Serving.Fault (Shared W × Outcome) → Prop
  | .ok (y, out) => Inv o compute y (Function.update q w (out.pending packet)) ∧
      out.Fits (IsReply o compute) packet
  | .error f => f = .disabled

omit [DecidableEq W] in
/-- A worker has a packet, and its local variables are `l`. -/
theorem Inv.localFor (h : Inv o compute x q) {w : W} {l : Local} {packet : List Byte}
    (hl : x.locals w = l) (hq : q w = some packet) : l.For o compute packet := by
  have hfor := h.locals w
  rw [hl, hq] at hfor
  exact hfor

omit [DecidableEq W] in
/-- Two connections of a worker are two objects. -/
theorem Inv.distinct (h : Inv o compute x q) {w : W} {sk sk' : ClientSocket} {st st' : ConnState}
    (hconns : (x.locals w).conns = [(sk, st), (sk', st')]) : sk.ptr ≠ sk'.ptr := by
  have hnodup : (occ x (.worker w)).Nodup := h.exclusive.nodup (.worker w)
  rw [occ_worker, hconns] at hnodup
  simpa using hnodup

theorem getClientSocket_none {m m' : IdleList} {ip : String} {port : Nat}
    (h : Client.getClientSocket m ip port = .ok (none, m')) : m' = m := by
  unfold Client.getClientSocket at h
  dsimp only at h
  split at h
  · cases h
  · split at h <;> cases h
  · cases h
    rfl

/-- **`GetClientSocket`.** -/
theorem getClientSocket_keeps (h : Inv o compute x q) {w : W} {packet : List Byte} {req : ReqBF}
    {first : Option ClientSocket} (hl : x.locals w = .get req first) (hq : q w = some packet) :
    Keeps o compute q w packet (getClientSocket x w req first) := by
  obtain ⟨hread, hfirst⟩ := h.localFor hl hq
  obtain ⟨r, m, hget, hm, hstep, -, hpeer⟩ :=
    Client.getClientSocket_spec h.pool (addr first).ip (addr first).port
  unfold getClientSocket
  rw [hget]
  cases r with
  | none =>
    rw [getClientSocket_none hget]
    refine ⟨h.goOn ?_ (fun d hd => ?_) ⟨hread, hfirst⟩, trivial⟩
    · rw [hl]
      rfl
    · rw [hl]
      exact ⟨d.2, hd, Or.inl rfl⟩
  | some sk =>
    obtain ⟨rest, hqueue, hqueue'⟩ : ∃ rest, queue x.idle (addr first) = sk :: rest ∧
        queue m = Function.update (queue x.idle) (addr first) rest := by
      generalize hq' : queue m = qm at hstep
      cases hstep with
      | takeSome hfront => exact ⟨_, hfront, rfl⟩
    refine ⟨h.takeIdle (l := .send req first sk) hqueue hm hqueue' ?_ ⟨hread, hfirst, hpeer sk rfl⟩,
      trivial⟩
    rw [hl]
    rfl

/-- **`MakeConnection`.** -/
theorem makeConnection_keeps (h : Inv o compute x q) {w : W} {packet : List Byte} {req : ReqBF}
    {first : Option ClientSocket} {conn : ConnResult} (hl : x.locals w = .make req first)
    (hq : q w = some packet) : Keeps o compute q w packet (makeConnection x w req first conn) := by
  obtain ⟨hread, hfirst⟩ := h.localFor hl hq
  unfold makeConnection
  cases hmake : Client.makeConnection (addr first).ip (addr first).port conn with
  | none =>
    dsimp only
    refine ⟨(h.leave _).goOn ?_ (fun d hd => ?_) trivial, trivial⟩
    · rw [hl]
      simp [Local.conns, Function.comp_def]
    · obtain ⟨bb1, hbb1, rfl⟩ := List.mem_map.mp hd
      rw [List.append_nil] at hbb1
      rw [hl]
      exact ⟨.asked req.a, List.mem_map_of_mem hbb1, Or.inr rfl⟩
  | some sk =>
    have hpeer : sk.peer = addr first := by
      cases conn <;> cases hmake
      rfl
    dsimp only
    split
    · exact rfl
    · rename_i hnew
      rw [Option.not_isSome_iff_eq_none] at hnew
      refine ⟨h.connect (l := .send req first sk) hnew ?_ ⟨hread, hfirst, hpeer⟩, trivial⟩
      rw [hl]
      rfl

/-- **`TCPSend` to a backend.** -/
theorem tcpSend_keeps (h : Inv o compute x q) {w : W} {packet : List Byte} {req : ReqBF}
    {first : Option ClientSocket} {sk : ClientSocket} {sends : List SendResult}
    (hl : x.locals w = .send req first sk) (hq : q w = some packet) :
    Keeps o compute q w packet (tcpSend o x w req first sk sends) := by
  obtain ⟨hread, hfirst, hpeer⟩ := h.localFor hl hq
  have hmem : (sk, ConnState.clean) ∈ (x.locals w).conns := by
    rw [hl]
    exact List.mem_append_right _ (List.mem_singleton_self _)
  obtain ⟨conn, hconn, -, hto, hfrom⟩ := h.held hmem
  have hother : ∀ bb1, first = some bb1 → bb1.ptr ≠ sk.ptr := by
    rintro bb1 rfl
    exact h.distinct (by rw [hl]; rfl)
  unfold tcpSend
  rw [hconn]
  dsimp only
  cases hsend : AllSync.tcpSend
    (some (lvFrame o (Numbered.bytes o ⟨12, req.seq, number req first⟩)))
      ⟨sends, conn.toBackend⟩ with
  | none => exact rfl
  | some r =>
    obtain ⟨ret, e⟩ := r
    dsimp only
    split
    · -- the connection is closed, with whatever is on it
      refine ⟨h.bytes (l := .close [sk] first) hmem hconn rfl ?_ (fun d hd => ?_) trivial, trivial⟩
      · rw [hl]
        simp [Local.conns, Function.comp_def]
      · obtain ⟨sk', hsk', rfl⟩ := List.mem_map.mp hd
        rcases List.mem_append.mp hsk' with hbb1 | hsk
        · refine Or.inr ⟨hother sk' (Option.mem_toList.mp hbb1), .asked req.a, ?_, Or.inr rfl⟩
          rw [hl]
          exact List.mem_append_left _ (List.mem_map_of_mem hbb1)
        · exact Or.inl ⟨List.mem_singleton.mp hsk, trivial⟩
    · rename_i hret
      rcases tcpSend_cases hsend with ⟨-, hwire⟩ | ⟨rfl, -⟩
      · rw [hto, List.nil_append] at hwire
        have his : Backend.Is o compute { conn with toBackend := e.wire }
            (.asked (number req first)) := ⟨req.seq, Or.inl ⟨hwire, hfrom⟩⟩
        cases first with
        | none =>
          refine ⟨h.bytes (l := .get req (some sk)) hmem hconn rfl ?_ (fun d hd => ?_) ⟨hread, ?_⟩,
            trivial⟩
          · rw [hl]
            rfl
          · rw [List.mem_singleton.mp hd]
            exact Or.inl ⟨rfl, his⟩
          · rintro bb1 ⟨⟩
            exact hpeer
        | some bb1 =>
          refine ⟨h.bytes (l := .wait req bb1 sk) hmem hconn rfl ?_ (fun d hd => ?_)
            ⟨hread, hfirst bb1 rfl, hpeer⟩, trivial⟩
          · rw [hl]
            rfl
          · rcases List.mem_pair.mp hd with rfl | rfl
            · refine Or.inr ⟨hother bb1 rfl, .asked req.a, ?_, Or.inl rfl⟩
              rw [hl]
              exact List.mem_cons_self
            · exact Or.inl ⟨rfl, his⟩
      · exact absurd (by decide) hret

/-- **`TCPRecv` from a backend.**  The connection it is called on is one of those the worker has,
with `pre` before it and `post` after it. -/
theorem tcpRecv_keeps (h : Inv o compute x q) {w : W} {packet : List Byte} {sk : ClientSocket}
    {both : List ClientSocket} {next : Word → Local} {recvs : List RecvResult} (num : Word)
    (pre post : List (ClientSocket × ConnState))
    (hconns : (x.locals w).conns = pre ++ (sk, .asked num) :: post)
    (hboth : (x.locals w).conns.map Prod.fst = both)
    (hnext : ∀ v, (next v).conns = pre ++ (sk, .clean) :: post)
    (hfor : (next (compute sk.peer num)).For o compute packet) :
    Keeps o compute q w packet (tcpRecv o x w sk both next recvs) := by
  have hmem : (sk, ConnState.asked num) ∈ (x.locals w).conns := by
    rw [hconns]
    exact List.mem_append_right _ List.mem_cons_self
  obtain ⟨conn, hconn, hpeer, his⟩ := h.held hmem
  have hother : ∀ d ∈ pre ++ post, d.1.ptr ≠ sk.ptr := by
    intro d hd heq
    have hnodup : (occ x (.worker w)).Nodup := h.exclusive.nodup (.worker w)
    rw [occ_worker, hconns, List.map_append, List.map_cons, List.nodup_middle, List.nodup_cons,
      ← List.map_append] at hnodup
    exact hnodup.1 (heq ▸ List.mem_map_of_mem hd)
  unfold tcpRecv
  rw [hconn]
  dsimp only
  cases hrecv : AllSync.tcpRecv o [] ⟨recvs, conn.fromBackend⟩ with
  | none => exact rfl
  | some r =>
    obtain ⟨ret, buf, e⟩ := r
    dsimp only
    split
    · -- both are closed
      refine ⟨h.bytes (l := .close both none) hmem hconn rfl ?_ (fun d hd => ?_) trivial, trivial⟩
      · rw [← hboth]
        simp [Local.conns, Function.comp_def]
      · obtain ⟨sk', hsk', rfl⟩ := List.mem_map.mp hd
        rw [Option.toList_none, List.nil_append, ← hboth] at hsk'
        obtain ⟨d', hd', rfl⟩ := List.mem_map.mp hsk'
        by_cases heq : d'.1.ptr = sk.ptr
        · have hold : d' ∈ content x (.worker w) := hd'
          have hsame := (h.same (show _ ∈ content x (.worker w) from hmem) hold heq).2
          exact Or.inl ⟨congrArg Prod.fst hsame, trivial⟩
        · exact Or.inr ⟨heq, d'.2, hd', Or.inr rfl⟩
    · rename_i hret
      obtain ⟨⟨rsp, hrsp, hnum⟩, hclean⟩ := his.response hrecv hret
      have hval : rsp.num = compute sk.peer num := by rw [hnum, hpeer]
      rw [hrsp]
      dsimp only
      rw [hval]
      refine ⟨h.bytes (l := next (compute sk.peer num)) hmem hconn rfl ?_ (fun d hd => ?_) hfor,
        trivial⟩
      · rw [hnext, hconns]
        simp
      · rw [hnext] at hd
        by_cases heq : d.1.ptr = sk.ptr
        · rcases List.mem_append.mp hd with hd | hd
          · exact absurd heq (hother d (List.mem_append_left _ hd))
          · rcases List.mem_cons.mp hd with rfl | hd
            · exact Or.inl ⟨rfl, hclean⟩
            · exact absurd heq (hother d (List.mem_append_right _ hd))
        · refine Or.inr ⟨heq, d.2, ?_, Or.inl rfl⟩
          rw [hconns]
          rcases List.mem_append.mp hd with hd | hd
          · exact List.mem_append_left _ hd
          · rcases List.mem_cons.mp hd with rfl | hd
            · exact absurd rfl heq
            · exact List.mem_append_right _ (List.mem_cons_of_mem _ hd)

/-- **`InsertClientSocket`** of a connection that nothing is on. -/
theorem insertClientSocket_keeps (h : Inv o compute x q) {w : W} {packet : List Byte}
    {sk : ClientSocket} {l : Local} {out : Outcome}
    (hconns : (x.locals w).conns = (sk, .clean) :: l.conns)
    (hl : LocalFor o compute l (out.pending packet)) (hfit : out.Fits (IsReply o compute) packet) :
    Keeps o compute q w packet (insertClientSocket x w sk l out) := by
  obtain ⟨m, hinsert, hm, hqueue⟩ := Client.insertClientSocket_spec h.pool sk
  unfold insertClientSocket
  rw [hinsert]
  exact ⟨h.giveBack hm hqueue hconns hl, hfit⟩

/-- **`sk->Close(); delete sk;`** of a connection. -/
theorem close_keeps (h : Inv o compute x q) {w : W} {packet : List Byte} {sk : ClientSocket}
    {rest : List ClientSocket} {first : Option ClientSocket}
    (hl : x.locals w = .close (sk :: rest) first) :
    Keeps o compute q w packet (close x w sk rest first) := by
  have hmem : (sk, ConnState.lost) ∈ (x.locals w).conns := by
    rw [hl]
    refine List.mem_map_of_mem (List.mem_append_right _ List.mem_cons_self)
  obtain ⟨conn, hconn, -⟩ := h.held hmem
  unfold close
  rw [hconn]
  have hperm : (first.toList ++ sk :: rest).Perm (sk :: (first.toList ++ rest)) := List.perm_middle
  refine ⟨h.closeOne .lost (l := .close rest first) ?_ trivial, trivial⟩
  rw [hl]
  exact hperm.map fun sk => (sk, ConnState.lost)

/-- **Every step of the business logic** keeps the invariant and ends, if it ends, in the reply. -/
theorem work_keeps (h : Inv o compute x q) {w : W} {packet : List Byte} (e : Work)
    (hq : q w = some packet) : Keeps o compute q w packet (work o x w e) := by
  unfold work
  split
  · rename_i req first hl
    exact getClientSocket_keeps h hl hq
  · rename_i req first conn hl
    exact makeConnection_keeps h hl hq
  · rename_i req first sk sends hl
    exact tcpSend_keeps h hl hq
  · rename_i req bb1 bb2 ok hl
    have hfor := h.localFor hl hq
    split
    · refine ⟨h.goOn ?_ (fun d hd => ?_) hfor, trivial⟩
      · rw [hl]
        rfl
      · rw [hl]
        exact ⟨d.2, hd, Or.inl rfl⟩
    · refine ⟨h.goOn ?_ (fun d hd => ?_) trivial, trivial⟩
      · rw [hl]
        rfl
      · rw [hl]
        rcases List.mem_pair.mp hd with rfl | rfl
        · exact ⟨_, List.mem_cons_self, Or.inr rfl⟩
        · exact ⟨_, List.mem_cons_of_mem _ List.mem_cons_self, Or.inr rfl⟩
  · rename_i req bb1 bb2 recvs hl
    obtain ⟨hread, hbb1, hbb2⟩ := h.localFor hl hq
    refine tcpRecv_keeps h req.a [] [(bb2, .asked req.b)] ?_ ?_
      (fun v => rfl) ⟨hread, hbb2, by rw [hbb1]⟩
    · rw [hl]
      rfl
    · rw [hl]
      rfl
  · rename_i req bb1 bb2 recvA recvs hl
    obtain ⟨hread, hbb2, hrecvA⟩ := h.localFor hl hq
    refine tcpRecv_keeps h req.b [(bb1, .clean)] [] ?_ ?_
      (fun v => rfl) ⟨hread, hrecvA, by rw [hbb2]⟩
    · rw [hl]
      rfl
    · rw [hl]
      rfl
  · rename_i req bb1 bb2 recvA recvB hl
    have hfor := h.localFor hl hq
    refine insertClientSocket_keeps h (l := .insertBB2 req bb2 recvA recvB) ?_ hfor trivial
    rw [hl]
    rfl
  · rename_i req bb2 recvA recvB hl
    obtain ⟨hread, hrecvA, hrecvB⟩ := h.localFor hl hq
    refine insertClientSocket_keeps h (l := .out) ?_ rfl ?_
    · rw [hl]
      rfl
    · rintro rsp ⟨⟩
      exact ⟨req, hread, by rw [hrecvA, hrecvB, reply]⟩
  · rename_i sk rest first hl
    exact close_keeps h hl
  · rename_i first hl
    refine ⟨h.forget hl, ?_⟩
    rintro rsp ⟨⟩
  · exact rfl

/-- **A packet from a client.**  One that is shorter than the struct is read beyond its end. -/
theorem receive_keeps (h : Inv o compute x q) {w : W} (packet : List Byte) (hq : q w = none) :
    (packet.length < ReqBF.size ∧ receive o x w packet = .error .outOfBounds) ∨
      (ReqBF.size ≤ packet.length ∧ ∃ y, receive o x w packet = .ok (y, .going) ∧
        Inv o compute y (Function.update q w (some packet))) := by
  unfold receive
  by_cases hshort : packet.length < ReqBF.size
  · have hread : ReqBF.read o packet = none := if_pos hshort
    rw [hread]
    exact Or.inl ⟨hshort, rfl⟩
  · obtain ⟨req, hread⟩ : ∃ req, ReqBF.read o packet = some req := ⟨_, if_neg hshort⟩
    have hout : x.locals w = .out := by
      have hfor := h.locals w
      rw [hq] at hfor
      exact hfor
    rw [hread]
    refine Or.inr ⟨not_lt.mp hshort, _, rfl, h.goOn ?_ (fun d hd => ?_) ⟨hread, ?_⟩⟩
    · rw [hout]
      rfl
    · cases hd
    · rintro bb1 ⟨⟩

omit [DecidableEq W] in
/-- **A backend at work** disturbs nobody. -/
theorem answer_keeps (h : Inv o compute x q) {a : Answer} (hstep : answer o compute x a = .ok y) :
    Inv o compute y q := by
  unfold answer at hstep
  split at hstep
  · cases hstep
  · rename_i conn hconn
    split at hstep
    · cases hstep
    · rename_i ret buf e hrecv
      split at hstep
      · cases hstep
      · rename_i hret
        split at hstep
        · cases hstep
        · rename_i req hread
          cases hstep
          refine ⟨h.pool, h.exclusive, fun k => ?_, fun pl c hc => ?_, h.locals⟩
          · show Placed (occ x) k ↔ _
            rw [h.alive]
            by_cases hk : k = a.k
            · subst hk
              simp [setBackend, hconn]
            · simp [setBackend, hk]
          · obtain ⟨conn', hconn', hpeer, his⟩ := h.conns pl c hc
            by_cases hk : c.1.ptr = a.k
            · rw [hk] at hconn'
              cases hconn.symm.trans hconn'
              refine ⟨{ conn with toBackend := e.stream, fromBackend := conn.fromBackend ++ _ }, ?_,
                hpeer, his.answered hrecv hret hread⟩
              simp only [setBackend, hk, Function.update_self]
            · refine ⟨conn', ?_, hpeer, his⟩
              simp only [setBackend, Function.update_of_ne hk]
              exact hconn'

omit [DecidableEq W] in
theorem start_inv : Inv o compute (start W) fun _ => none where
  pool := Client.empty_inv
  exclusive := by
    refine ⟨fun pl => ?_, fun pl pl' k hk => ?_⟩
    · cases pl <;> exact List.nodup_nil
    · cases pl <;> cases hk
  alive := fun k => by
    refine ⟨fun ⟨pl, hk⟩ => ?_, fun hk => ?_⟩
    · cases pl <;> cases hk
    · cases hk
  conns := fun pl c hc => by
    cases pl <;> cases hc
  locals := fun _ => rfl

/-- The business logic keeps its invariant, and its results are right. -/
theorem testBFProcessor_sound :
    Serving.Sound (testBFProcessor W o compute) (IsReply o compute) (Inv o compute) where
  receive := by
    intro x y q w packet out h hq hstep
    rcases receive_keeps h packet hq with ⟨-, herror⟩ | ⟨-, y', hok, hinv⟩
    · cases herror.symm.trans hstep
    · cases hok.symm.trans hstep
      exact ⟨hinv, trivial⟩
  work := by
    intro x y q w packet e out h hq hstep
    have hkeeps := work_keeps h e hq
    have hstep' : work o x w e = .ok (y, out) := hstep
    rw [hstep'] at hkeeps
    exact hkeeps
  outside := fun h hstep => answer_keeps h hstep

end Kknf.AllSync.Gateway
