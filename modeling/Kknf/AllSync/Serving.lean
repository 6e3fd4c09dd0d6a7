/-
# A server and its processors

Every processor of the `all-sync` test programs runs the same loop: `GetServerReadySocket`,
`TCPRecv`, some business logic that ends with a reply or without one, `TCPSend`,
`InsertServerReuseSocket`; a failed `TCPRecv` closes and deletes the socket.  Any number of
processors run it side by side, on the sockets that one `Server` hands out, while the clients send
what they like.

This file is that loop on top of the model of the server.  A connection is the bytes the client has
sent and the bytes it has been sent; `TCPRecv` and `TCPSend` are the functions of `SocketIO.lean`,
run on these with whatever results the kernel gives.  What happens between the two is a parameter
(`Logic`).

* `Sound` says what a logic has to guarantee by itself, over its own state and for any number of
  workers: each finished request has a result that is `Right` for it.
* `step_inv` lifts that to the whole server, whatever the interleaving: the invariant `Inv`
  keeps, for every connection, the packets received and the results sent in step.
* `served_in_order` is the result over whole runs.

The argument is a lease: a socket is leased to a worker by `GetServerReadySocket`, and `Owned` (the
hand-over protocol of the server) says that nobody else has it until it is given back.
-/
import Mathlib.Data.List.ReduceOption
import Kknf.Lib.Lease
import Kknf.AllSync.Ownership
import Kknf.AllSync.Packets

namespace Kknf.AllSync.Serving

open Kknf.Lease Kknf.Placement Kknf.Run

/-! ## 1. Data -/

/-- A connection to a client: all the client has sent, the part not received yet, the packets
received, and the bytes sent to the client.  `input` and `received` are read by nothing. -/
structure Conn where
  input : List Byte := []
  stream : List Byte := []
  received : List (List Byte) := []
  wire : List Byte := []

/-- Why a step does not lead to a next state. -/
inductive Fault
  /-- the event is not possible in this state -/
  | disabled
  /-- a step of the server ends in a fault -/
  | server (f : AllSync.Fault)
  /-- a received buffer is read beyond its end -/
  | outOfBounds
  /-- an assertion of the client's connection pool fails -/
  | pool
  /-- a connection of the client that has been deleted would be used -/
  | deletedSocket
  deriving DecidableEq

/-- What the business logic comes to: it is not done yet, it has a reply to send, or it gives the
socket back without one. -/
inductive Outcome
  | going
  | reply (rsp : List Byte)
  | drop

/-- The business logic of the processors: `receive` is what a worker does with a packet it has
received, `work` a later step of the worker, `outside` a step of the world around it.  `σ` is the
state all workers share, their local variables included. -/
structure Logic (W σ ε δ : Type) where
  receive : σ → W → List Byte → Except Fault (σ × Outcome)
  work : σ → W → ε → Except Fault (σ × Outcome)
  outside : σ → δ → Except Fault σ
  /-- a failed `TCPSend` closes the socket; else it is given back -/
  closeOnSendError : Bool

/-- Where a worker is in its loop, with the socket it has. -/
inductive Pc
  /-- at `GetServerReadySocket` -/
  | top
  /-- at `TCPRecv` -/
  | recv (sk : Ptr)
  /-- in the business logic, for the packet `req` -/
  | work (sk : Ptr) (req : List Byte)
  /-- at `TCPSend` -/
  | send (sk : Ptr) (req rsp : List Byte)
  /-- at `InsertServerReuseSocket` -/
  | reuse (sk : Ptr)
  /-- at `sk->Close(); delete sk;` -/
  | close (sk : Ptr)
  deriving DecidableEq

def Pc.sk? : Pc → Option Ptr
  | .top => none
  | .recv p | .work p _ | .send p _ _ | .reuse p | .close p => some p

/-- The request the business logic of a worker is busy with. -/
def Pc.request? : Pc → Option (List Byte)
  | .work _ req => some req
  | _ => none

/-- Where a worker goes with an outcome. -/
def Outcome.next (p : Ptr) (req : List Byte) : Outcome → Pc
  | .going => .work p req
  | .reply rsp => .send p req rsp
  | .drop => .reuse p

/-- The server, its connections, its workers, and the state of their logic. -/
structure Service (W σ : Type) where
  server : Server W
  conn : Ptr → Conn
  pc : W → Pc
  shared : σ

inductive Event (W ε δ : Type)
  /-- a step of the epoll thread, or of the operating system -/
  | server (a : Action W)
  /-- the client of a connection sends -/
  | clientSend (p : Ptr) (bytes : List Byte)
  | getServerReadySocket (w : W)
  /-- a worker that has been woken in `GetServerReadySocket` -/
  | retest (w : W)
  | tcpRecv (w : W) (recvs : List RecvResult)
  | work (w : W) (e : ε)
  | outside (d : δ)
  | tcpSend (w : W) (sends : List SendResult)
  | insertServerReuseSocket (w : W) (sendOk : Bool)
  | close (w : W)

variable {W σ ε δ : Type} [DecidableEq W]

/-- The steps of the server that no worker takes by itself. -/
def background : Action W → Bool
  | .epollWait _ | .epollRetry | .epollFail | .next | .accept _ | .recvfrom _ | .recv _
  | .epollAdd _ | .signal _ | .spurious _ | .stopServer => true
  | .getServerReadySocket _ _ | .getUDPPacket _ | .retest _ | .insertServerReuseSocket _ _ _ _
  | .closeDelete _ _ => false

/-! ## 2. One step -/

def setConn (s : Service W σ) (p : Ptr) (c : Conn) : Service W σ :=
  { s with conn := Function.update s.conn p c }

def setPc (s : Service W σ) (w : W) (pc : Pc) : Service W σ :=
  { s with pc := Function.update s.pc w pc }

/-- The server takes a step; a socket that was not there before is a new connection. -/
def setServer (s : Service W σ) (t : Server W) : Service W σ :=
  { s with server := t
           conn := fun p => if (s.server.heap p).isNone && (t.heap p).isSome then {} else s.conn p }

/-- The worker `w` takes a step in the server and is where `pc` says after it. -/
def serverStep [Fintype W] (s : Service W σ) (w : W) (a : Action W) (pc : Server W → Pc) :
    Except Fault (Service W σ) :=
  match AllSync.step s.server a with
  | .ok t => .ok (setPc (setServer s t) w (pc t))
  | .error f => .error (.server f)

/-- `GetServerReadySocket` has given the worker a socket, or it has not. -/
def taken (w : W) (t : Server W) : Pc :=
  match (t.worker w).held with
  | [] => .top
  | p :: _ => .recv p

/-- The worker goes on with what its logic has come to. -/
def proceed (s : Service W σ) (w : W) (p : Ptr) (req : List Byte) :
    Except Fault (σ × Outcome) → Except Fault (Service W σ)
  | .ok (x, out) => .ok { setPc s w (out.next p req) with shared := x }
  | .error f => .error f

/-- After `TCPRecv` of the worker `w` on `p`. -/
def afterRecv (L : Logic W σ ε δ) (s : Service W σ) (w : W) (p : Ptr) :
    Option (Int × List Byte × RecvEnd) → Except Fault (Service W σ)
  | none => .error .disabled
  | some (ret, buf, e) =>
    if ret < 0 then
      .ok (setPc (setConn s p { s.conn p with stream := e.stream }) w (.close p))
    else
      let c := { s.conn p with stream := e.stream, received := (s.conn p).received ++ [buf] }
      proceed (setConn s p c) w p buf (L.receive s.shared w buf)

/-- After `TCPSend` of the worker `w` on `p`. -/
def afterSend (L : Logic W σ ε δ) (s : Service W σ) (w : W) (p : Ptr) :
    Option (Int × SendEnd) → Except Fault (Service W σ)
  | none => .error .disabled
  | some (ret, e) =>
    let s' := setConn s p { s.conn p with wire := e.wire }
    if ret < 0 && L.closeOnSendError then .ok (setPc s' w (.close p)) else
      .ok (setPc s' w (.reuse p))

/-- One step.  `poolIndex` is what each processor was constructed with. -/
def step [Fintype W] (o : ByteOrder) (L : Logic W σ ε δ) (poolIndex : W → Nat) (s : Service W σ) :
    Event W ε δ → Except Fault (Service W σ)
  | .server a =>
    if background a then
      match AllSync.step s.server a with
      | .ok t => .ok (setServer s t)
      | .error f => .error (.server f)
    else .error .disabled
  | .clientSend p bytes =>
    let c := s.conn p
    .ok (setConn s p { c with input := c.input ++ bytes, stream := c.stream ++ bytes })
  | .getServerReadySocket w =>
    match s.pc w with
    | .top => serverStep s w (.getServerReadySocket w (poolIndex w)) (taken w)
    | _ => .error .disabled
  | .retest w =>
    match s.pc w with
    | .top => serverStep s w (.retest w) (taken w)
    | _ => .error .disabled
  | .tcpRecv w recvs =>
    match s.pc w with
    | .recv p => afterRecv L s w p (tcpRecv o [] ⟨recvs, (s.conn p).stream⟩)
    | _ => .error .disabled
  | .work w e =>
    match s.pc w with
    | .work p req => proceed s w p req (L.work s.shared w e)
    | _ => .error .disabled
  | .outside d =>
    match L.outside s.shared d with
    | .ok x => .ok { s with shared := x }
    | .error f => .error f
  | .tcpSend w sends =>
    match s.pc w with
    | .send p _ rsp => afterSend L s w p (tcpSend (some (lvFrame o rsp)) ⟨sends, (s.conn p).wire⟩)
    | _ => .error .disabled
  | .insertServerReuseSocket w sendOk =>
    match s.pc w with
    | .reuse p => serverStep s w (.insertServerReuseSocket w (poolIndex w) p sendOk) fun _ => .top
    | _ => .error .disabled
  | .close w =>
    match s.pc w with
    | .close p => serverStep s w (.closeDelete w p) fun _ => .top
    | _ => .error .disabled

/-- The service when all its threads have been started. -/
def start (n : Nat) (hasUDP : Bool) (x : σ) : Service W σ where
  server := AllSync.start W n hasUDP
  conn := fun _ => {}
  pc := fun _ => .top
  shared := x

/-! ## 3. What a logic guarantees -/

/-- The result is right for the request; there is none yet while the logic is busy. -/
def Outcome.Fits (Right : List Byte → Option (List Byte) → Prop) (req : List Byte) : Outcome → Prop
  | .going => True
  | .reply rsp => Right req (some rsp)
  | .drop => Right req none

/-- The request that is pending after the outcome. -/
def Outcome.pending (req : List Byte) : Outcome → Option (List Byte)
  | .going => some req
  | _ => none

/-- `I` is an invariant of the logic over the requests its workers are busy with, under which every
outcome is right. -/
structure Sound (L : Logic W σ ε δ) (Right : List Byte → Option (List Byte) → Prop)
    (I : σ → (W → Option (List Byte)) → Prop) : Prop where
  receive : ∀ {x y : σ} {q : W → Option (List Byte)} {w : W} {req : List Byte} {out : Outcome},
    I x q → q w = none → L.receive x w req = .ok (y, out) →
      I y (Function.update q w (out.pending req)) ∧ out.Fits Right req
  work : ∀ {x y : σ} {q : W → Option (List Byte)} {w : W} {req : List Byte} {e : ε} {out : Outcome},
    I x q → q w = some req → L.work x w e = .ok (y, out) →
      I y (Function.update q w (out.pending req)) ∧ out.Fits Right req
  outside : ∀ {x y : σ} {q : W → Option (List Byte)} {d : δ},
    I x q → L.outside x d = .ok y → I y q

/-! ## 4. The invariant -/

/-- The bytes `wire` are the replies among results that are right for the packets, in order. -/
def Answered (o : ByteOrder) (Right : List Byte → Option (List Byte) → Prop)
    (packets : List (List Byte)) (wire : List Byte) : Prop :=
  ∃ results, List.Forall₂ Right packets results ∧ wire = lvStream o results.reduceOption

/-- The packets received are the frames at the beginning of what the client has sent. -/
structure Taken (o : ByteOrder) (input : List Byte) (received : List (List Byte))
    (rest : List Byte) : Prop where
  frames : input = lvStream o received ++ rest
  sizes : ∀ p ∈ received, (p.length : Int) ≤ maxTcpPktSize

/-- Everything the client has sent has been received in frames, or is still to be received. -/
abbrev Intact (o : ByteOrder) (c : Conn) : Prop := Taken o c.input c.received c.stream

/-- The connection while nobody works on it. -/
def Settled (o : ByteOrder) (Right : List Byte → Option (List Byte) → Prop) (c : Conn) : Prop :=
  Intact o c ∧ Answered o Right c.received c.wire

/-- The connection while its last packet, `req`, is being worked on. -/
def Pending (o : ByteOrder) (Right : List Byte → Option (List Byte) → Prop) (req : List Byte)
    (c : Conn) : Prop :=
  Intact o c ∧ ∃ before, c.received = before ++ [req] ∧ Answered o Right before c.wire

/-- What is true of the connection at each place of the loop. -/
def Stage (o : ByteOrder) (Right : List Byte → Option (List Byte) → Prop) (c : Conn) : Pc → Prop
  | .top => True
  | .recv _ | .reuse _ => Settled o Right c
  | .work _ req => Pending o Right req c
  | .send _ req rsp => Pending o Right req c ∧ Right req (some rsp)
  | .close _ => (∃ rest, Taken o c.input c.received rest) ∧
      ∃ full, Answered o Right c.received full ∧ c.wire <+: full

/-- The worker has the socket. -/
def Holds (s : Service W σ) (w : W) (p : Ptr) : Prop := (s.pc w).sk? = some p

/-- The requests the workers' logic is busy with. -/
def requests (s : Service W σ) (w : W) : Option (List Byte) := (s.pc w).request?

/-- The invariant of the service. -/
structure Inv (o : ByteOrder) (Right : List Byte → Option (List Byte) → Prop)
    (I : σ → (W → Option (List Byte)) → Prop) (s : Service W σ) : Prop where
  owned : Owned s.server
  held : ∀ w, (s.server.worker w).held = (s.pc w).sk?.toList
  conns : Leased (Holds s) (fun p => (s.server.heap p).isSome → Settled o Right (s.conn p))
    (fun w p => Stage o Right (s.conn p) (s.pc w))
  logic : I s.shared (requests s)

variable {o : ByteOrder} {L : Logic W σ ε δ} {Right : List Byte → Option (List Byte) → Prop}
  {I : σ → (W → Option (List Byte)) → Prop} {poolIndex : W → Nat} {s t : Service W σ}

/-! ## 5. Results and bytes -/

theorem answered_nil : Answered o Right [] [] := ⟨[], .nil, rfl⟩

/-- One more packet with a reply. -/
theorem Answered.reply {packets : List (List Byte)} {wire req rsp : List Byte}
    (h : Answered o Right packets wire) (hr : Right req (some rsp)) :
    Answered o Right (packets ++ [req]) (wire ++ lvFrame o rsp) := by
  obtain ⟨results, hall, rfl⟩ := h
  refine ⟨results ++ [some rsp], List.rel_append hall (.cons hr .nil), ?_⟩
  rw [List.reduceOption_append, lvStream_append]
  congr 1
  exact (lvStream_singleton o rsp).symm

/-- One more packet without a reply. -/
theorem Answered.drop {packets : List (List Byte)} {wire req : List Byte}
    (h : Answered o Right packets wire) (hr : Right req none) :
    Answered o Right (packets ++ [req]) wire := by
  obtain ⟨results, hall, rfl⟩ := h
  refine ⟨results ++ [none], List.rel_append hall (.cons hr .nil), ?_⟩
  rw [List.reduceOption_append]
  simp

theorem settled_empty : Settled o Right {} :=
  ⟨⟨rfl, fun _ h => absurd h List.not_mem_nil⟩, answered_nil⟩

/-- More bytes arrive. -/
theorem Taken.more {input rest : List Byte} {received : List (List Byte)}
    (h : Taken o input received rest) (bytes : List Byte) :
    Taken o (input ++ bytes) received (rest ++ bytes) where
  frames := by rw [h.frames, List.append_assoc]
  sizes := h.sizes

theorem Stage.more {c : Conn} {pc : Pc} (h : Stage o Right c pc) (bytes : List Byte) :
    Stage o Right { c with input := c.input ++ bytes, stream := c.stream ++ bytes } pc := by
  cases pc with
  | top => trivial
  | recv p => exact ⟨h.1.more bytes, h.2⟩
  | work p req => exact ⟨h.1.more bytes, h.2⟩
  | send p req rsp => exact ⟨⟨h.1.1.more bytes, h.1.2⟩, h.2⟩
  | reuse p => exact ⟨h.1.more bytes, h.2⟩
  | close p =>
    obtain ⟨⟨rest, hintact⟩, hans⟩ := h
    exact ⟨⟨rest ++ bytes, hintact.more bytes⟩, hans⟩

/-- A frame is taken off the stream. -/
theorem Taken.receive {input stream buf rest : List Byte} {received : List (List Byte)}
    (h : Taken o input received stream) (hs : stream = lvFrame o buf ++ rest)
    (hsize : (buf.length : Int) ≤ maxTcpPktSize) : Taken o input (received ++ [buf]) rest where
  frames := by rw [h.frames, hs, lvStream_append, lvStream_singleton, List.append_assoc]
  sizes := fun p hp => by
    rcases List.mem_append.mp hp with hp | hp
    · exact h.sizes p hp
    · rw [List.mem_singleton.mp hp]
      exact hsize

/-- What has been received are the first of the packets that were sent. -/
theorem Taken.packets {input rest : List Byte} {received packets : List (List Byte)}
    {snd : ByteOrder} (h : Taken o input received rest) (hsmall : ∀ p ∈ packets, p.length < 2 ^ 32)
    (hsent : input = lvStream snd packets) :
    received <+: packets ∧ (rest = [] → received = packets) := by
  have hsizes : ∀ p ∈ received, p.length < 2 ^ 32 := by
    intro p hp
    have hle := h.sizes p hp
    unfold maxTcpPktSize at hle
    omega
  have hstream : lvStream o packets = lvStream o received ++ rest := by
    rw [lvStream_host o snd, ← hsent]
    exact h.frames
  exact lvStream_prefix hsmall hsizes hstream

/-! ## 6. What the workers hold -/

omit [DecidableEq W] in
theorem destroyTriggered_worker (u : Server W) (x : EpollPtr) :
    (destroyTriggered u x).worker = u.worker := by
  cases x <;> rfl

omit [DecidableEq W] in
theorem epollProcess_worker {u v : Server W} {e : EpollEvent} {rest : List EpollEvent} {b : SkMap}
    (h : epollProcess u e rest b = .ok v) : v.worker = u.worker := by
  unfold epollProcess at h
  split at h
  · cases h
    exact destroyTriggered_worker u e.1
  · split at h
    · split at h
      · cases h
        rfl
      · split at h
        · cases h
        · split at h
          · cases h
            exact destroyTriggered_worker u e.1
          · cases h
            rfl
      · cases h
        rfl
      · cases h
        rfl
    · cases h
      rfl

omit [DecidableEq W] in
/-- The epoll thread changes no worker in a step that needs no answer. -/
theorem nextStep_worker {u v : Server W} (h : nextStep u = .ok v) : v.worker = u.worker := by
  unfold nextStep at h
  split at h
  · exact epollProcess_worker h
  · cases h
    rfl
  · cases h
    rfl
  · cases h
    rfl
  · cases h
    rfl
  · unfold AllSync.insertServerReadySocket at h
    split at h
    · cases h
      rfl
    · cases h
  · cases h
    rfl
  · cases h

/-- A signal changes what a worker is doing, not what it holds. -/
theorem signalOne_held [Fintype W] {u v : Server W} {c : Cond} {r : Option W}
    (h : signalOne u c r = .ok v) (w : W) : (v.worker w).held = (u.worker w).held := by
  cases r with
  | none =>
    simp only [signalOne] at h
    split at h
    · cases h
    · cases h
      rfl
  | some x =>
    simp only [signalOne] at h
    split at h
    · cases h
      by_cases hw : w = x
      · subst hw
        simp [setWorker]
      · simp [setWorker, hw]
    · cases h

/-- **The epoll thread and the operating system take nothing from a worker and give it nothing.** -/
theorem background_held [Fintype W] {u v : Server W} {a : Action W} (hb : background a = true)
    (h : AllSync.step u a = .ok v) (w : W) : (v.worker w).held = (u.worker w).held := by
  cases steps_of_step h with
  | epollWait hl hev => rfl
  | epollRetry hl => rfl
  | epollFail hl => rfl
  | next hnext => rw [nextStep_worker hnext]
  | @accept id rest batch r t hl haccept =>
    unfold acceptOne at haccept
    split at haccept
    · cases haccept
      rfl
    · split at haccept
      · cases haccept
      · split at haccept
        · cases haccept
          rfl
        · cases haccept
          rfl
  | @recvfrom pkts rest batch r hl => cases r <;> rfl
  | recv hl hrecv =>
    unfold recvLocal at hrecv
    split at hrecv
    · cases hrecv
    · split at hrecv
      · cases hrecv
        rfl
      · cases hrecv
  | @epollAdd p todo rest batch ok hl => cases ok <;> rfl
  | signalReady hl hsignal => exact signalOne_held hsignal w
  | signalUDP hl hsignal => exact signalOne_held hsignal w
  | @spurious x c hw =>
    by_cases hx : w = x
    · subst hx
      simp [setWorker]
    · simp [setWorker, hx]
  | stopServer => rfl
  | getServerReadySocket => cases hb
  | getUDPPacket => cases hb
  | retest => cases hb
  | insertServerReuseSocket => cases hb
  | closeDelete => cases hb

/-- **What a worker can come out of `GetServerReadySocket` with**: nothing, or one socket of a ready
list. -/
theorem takeOrWait_held (u : Server W) (w : W) (c : Cond) :
    (∀ v, ((takeOrWait u w c).worker v).held = (u.worker v).held) ∨
      ∃ p index, p ∈ occ u (.ready index) ∧
        ∀ v, ((takeOrWait u w c).worker v).held =
          if v = w then (u.worker w).held ++ [p] else (u.worker v).held := by
  have hset : ∀ (u' : Server W) (x : Worker) (v : W), u'.worker = u.worker →
      x.held = (u.worker w).held → ((setWorker u' w x).worker v).held = (u.worker v).held := by
    intro u' x v hu hx
    by_cases hv : v = w
    · subst hv
      simpa [setWorker] using hx
    · simp [setWorker, hv, hu]
  cases c with
  | ready index =>
    cases hl : u.readyList.getD index [] with
    | nil =>
      refine Or.inl fun v => ?_
      simp only [takeOrWait, hl]
      exact hset u _ v rfl rfl
    | cons p l =>
      refine Or.inr ⟨p, index, ?_, fun v => ?_⟩
      · show p ∈ u.readyList.getD index []
        rw [hl]
        exact List.mem_cons_self
      · simp only [takeOrWait, hl, setWorker]
        by_cases hv : v = w
        · subst hv
          simp
        · simp [hv]
  | udpRecv =>
    refine Or.inl fun v => ?_
    cases hl : u.udpRecvList with
    | nil =>
      simp only [takeOrWait, hl]
      exact hset u _ v rfl rfl
    | cons pkt l =>
      simp only [takeOrWait, hl]
      exact hset _ _ v rfl rfl

theorem takeOrWait_heap (u : Server W) (w : W) (c : Cond) : (takeOrWait u w c).heap = u.heap := by
  cases c with
  | ready index =>
    simp only [takeOrWait]
    split <;> rfl
  | udpRecv =>
    simp only [takeOrWait]
    split <;> rfl

/-! ## 7. The steps keep the invariant -/

omit [DecidableEq W] in
/-- What a worker holds is alive. -/
theorem Inv.alive (h : Inv o Right I s) {w : W} {p : Ptr} (hw : Holds s w p) :
    (s.server.heap p).isSome := by
  have hmem : p ∈ occ s.server (.worker w) := by
    show p ∈ (s.server.worker w).held
    rw [h.held w, hw]
    exact List.mem_singleton_self p
  exact (h.owned.alive p).mp ⟨_, hmem⟩

omit [DecidableEq W] in
/-- A socket on a ready list is held by no worker. -/
theorem Inv.ready_free (h : Inv o Right I s) {p : Ptr} {index : Nat}
    (hp : p ∈ occ s.server (.ready index)) (w : W) : ¬ Holds s w p := by
  intro hw
  have hmem : p ∈ occ s.server (.worker w) := by
    show p ∈ (s.server.worker w).held
    rw [h.held w, hw]
    exact List.mem_singleton_self p
  cases h.owned.exclusive.unique _ _ p hp hmem

theorem requests_setPc (s : Service W σ) (w : W) (pc : Pc) :
    requests (setPc s w pc) = Function.update (requests s) w pc.request? := by
  funext v
  by_cases hv : v = w
  · subst hv
    simp [requests, setPc]
  · simp [requests, setPc, hv]

/-- Nothing is pending for `w` before the step and after it. -/
theorem requests_setPc_none {w : W} {pc : Pc} (hs : requests s w = none)
    (hpc : pc.request? = none) :
    requests (setPc s w pc) = requests s := by
  rw [requests_setPc, hpc, ← hs, Function.update_eq_self]

theorem holds_setPc_self (s : Service W σ) (w : W) (pc : Pc) (p : Ptr) :
    Holds (setPc s w pc) w p ↔ pc.sk? = some p := by
  simp [Holds, setPc]

theorem holds_setPc_other (s : Service W σ) {w v : W} (hv : v ≠ w) (pc : Pc) (p : Ptr) :
    Holds (setPc s w pc) v p ↔ Holds s v p := by
  simp [Holds, setPc, hv]

omit [DecidableEq W] in
/-- The connection of a socket that was there before the step of the server. -/
theorem setServer_conn {u : Server W} {p : Ptr} (hp : (s.server.heap p).isSome) :
    (setServer s u).conn p = s.conn p := by
  obtain ⟨k, hk⟩ := Option.isSome_iff_exists.mp hp
  simp [setServer, hk]

/-- **The epoll thread and the operating system.** -/
theorem Inv.background [Fintype W] (h : Inv o Right I s) {a : Action W} {u : Server W}
    (hb : Serving.background a = true) (hstep : AllSync.step s.server a = .ok u) :
    Inv o Right I (setServer s u) where
  owned := step_owned h.owned hstep
  held := fun w => (background_held hb hstep w).trans (h.held w)
  conns := by
    refine h.conns.env (fun _ _ => Iff.rfl) (fun p _ hidle hp => ?_) fun w p hw hbusy => ?_
    · cases hold : s.server.heap p with
      | some k =>
        have halive : (s.server.heap p).isSome := by
          rw [hold]
          rfl
        rw [setServer_conn halive]
        exact hidle halive
      | none =>
        have hp' : (u.heap p).isSome = true := hp
        have hnew : (setServer s u).conn p = {} := by simp [setServer, hold, hp']
        rw [hnew]
        exact settled_empty
    · rw [setServer_conn (h.alive hw)]
      exact hbusy
  logic := h.logic

/-- **A step of a worker on the socket it has**, which touches no other connection. -/
theorem Inv.atSocket (h : Inv o Right I s) {w : W} {p : Ptr} {pc : Pc} {c : Conn} {x : σ}
    (hs : (s.pc w).sk? = some p) (hpc : pc.sk? = some p) (hstage : Stage o Right c pc)
    (hlogic : I x (Function.update (requests s) w pc.request?)) :
    Inv o Right I { setPc (setConn s p c) w pc with shared := x } where
  owned := h.owned
  held := fun v => by
    by_cases hv : v = w
    · subst hv
      simp only [setPc, Function.update_self, hpc]
      exact (h.held v).trans (by rw [hs])
    · simp only [setPc, Function.update_of_ne hv]
      exact h.held v
  conns := by
    have hconn : ∀ {q : Ptr}, q ≠ p → (setConn s p c).conn q = s.conn q := fun hq =>
      Function.update_of_ne hq _ _
    refine h.conns.step w (fun v hv q => holds_setPc_other (setConn s p c) hv pc q) (fun q hq => ?_)
      (fun q hq => ?_) (fun q hq hfree => ?_) fun v hv q hq hbusy => ?_
    · have hqp : some p = some q := hpc ▸ (holds_setPc_self (setConn s p c) w pc q).mp hq
      exact Or.inl (hs.trans hqp)
    · have hqp : some p = some q := hpc ▸ (holds_setPc_self (setConn s p c) w pc q).mp hq
      cases hqp
      show Stage o Right ((setConn s p c).conn p) ((setPc (setConn s p c) w pc).pc w)
      simpa [setConn, setPc] using hstage
    · have hne : q ≠ p := by
        rintro rfl
        exact hq ((holds_setPc_self (setConn s q c) w pc q).mpr hpc)
      intro halive
      show Settled o Right ((setConn s p c).conn q)
      rw [hconn hne]
      refine h.conns.idle q (fun v hv => ?_) halive
      by_cases hvw : v = w
      · subst hvw
        exact hne (Option.some.inj (hv.symm.trans hs))
      · exact hfree v hvw hv
    · have hne : q ≠ p := by
        rintro rfl
        exact hv (h.conns.exclusive hq hs)
      show Stage o Right ((setConn s p c).conn q) ((setPc (setConn s p c) w pc).pc v)
      rw [hconn hne]
      simpa [setPc, hv, setConn] using hbusy
  logic := by
    have hreq := requests_setPc (setConn s p c) w pc
    show I x (requests (setPc (setConn s p c) w pc))
    rw [hreq]
    exact hlogic

/-- **A worker gets rid of its socket**, which is deleted or in order. -/
theorem Inv.release (h : Inv o Right I s) {w : W} {p : Ptr} {u : Server W}
    (hs : (s.pc w).sk? = some p) (hreq : requests s w = none) (howned : Owned u)
    (hheld : ∀ v, (u.worker v).held = if v = w then [] else (s.server.worker v).held)
    (hheap : ∀ q, (u.heap q).isSome → (s.server.heap q).isSome)
    (hsettled : (u.heap p).isSome → Settled o Right (s.conn p)) :
    Inv o Right I (setPc (setServer s u) w .top) where
  owned := howned
  held := fun v => by
    show (u.worker v).held = _
    rw [hheld]
    by_cases hv : v = w
    · subst hv
      simp [setPc, Pc.sk?]
    · rw [if_neg hv, h.held v]
      simp [setPc, setServer, hv]
  conns := by
    refine h.conns.step w (fun v hv q => holds_setPc_other (setServer s u) hv .top q)
      (fun q hq => ?_)
      (fun q hq => ?_) (fun q hq hfree halive => ?_) fun v hv q hq hbusy => ?_
    · cases (holds_setPc_self (setServer s u) w .top q).mp hq
    · cases (holds_setPc_self (setServer s u) w .top q).mp hq
    · have halive' : (u.heap q).isSome := halive
      show Settled o Right ((setServer s u).conn q)
      rw [setServer_conn (hheap q halive')]
      by_cases hqp : q = p
      · subst hqp
        exact hsettled halive'
      · refine h.conns.idle q (fun v hv => ?_) (hheap q halive')
        by_cases hvw : v = w
        · subst hvw
          exact hqp (Option.some.inj (hv.symm.trans hs))
        · exact hfree v hvw hv
    · show Stage o Right ((setServer s u).conn q) ((setPc (setServer s u) w .top).pc v)
      rw [setServer_conn (h.alive hq)]
      simpa [setPc, setServer, hv] using hbusy
  logic := by
    rw [requests_setPc_none (s := setServer s u) hreq rfl]
    exact h.logic

/-- **A worker comes out of `GetServerReadySocket`**, or waits. -/
theorem Inv.take (h : Inv o Right I s) {w : W} (hs : s.pc w = .top) (c : Cond) :
    Inv o Right I (setPc (setServer s (takeOrWait s.server w c)) w
      (taken w (takeOrWait s.server w c))) := by
  obtain ⟨u, hu⟩ : ∃ u, u = takeOrWait s.server w c := ⟨_, rfl⟩
  have howned : Owned u := hu ▸ takeOrWait_owned h.owned w c
  have hheap : u.heap = s.server.heap := hu ▸ takeOrWait_heap s.server w c
  have hnil : (s.server.worker w).held = [] := by
    rw [h.held w, hs]
    rfl
  have hreq : requests s w = none := by
    unfold requests
    rw [hs]
    rfl
  have hconn : (setServer s u).conn = s.conn := by
    funext q
    cases hq : s.server.heap q <;> simp [setServer, hheap, hq]
  rw [← hu]
  rcases hu ▸ takeOrWait_held s.server w c with hsame | ⟨p, index, hp, hgot⟩
  · -- nothing taken
    have htaken : taken w u = .top := by
      unfold taken
      rw [hsame w, hnil]
    rw [htaken]
    refine ⟨howned, fun v => ?_, ?_, ?_⟩
    · show (u.worker v).held = _
      rw [hsame v, h.held v]
      by_cases hv : v = w
      · subst hv
        simp [setPc, hs]
      · simp [setPc, setServer, hv]
    · have hpc : (setPc (setServer s u) w .top).pc = s.pc := by
        show Function.update s.pc w .top = s.pc
        rw [← hs, Function.update_eq_self]
      refine h.conns.env (fun v q => ?_) (fun q _ hidle => ?_) fun v q _ hbusy => ?_
      · simp only [Holds, hpc]
      · show (u.heap q).isSome → Settled o Right ((setServer s u).conn q)
        rw [hheap, hconn]
        exact hidle
      · show Stage o Right ((setServer s u).conn q) ((setPc (setServer s u) w .top).pc v)
        rw [hconn, hpc]
        exact hbusy
    · rw [requests_setPc_none (s := setServer s u) hreq rfl]
      exact h.logic
  · -- the front of a ready list
    have htaken : taken w u = .recv p := by
      unfold taken
      rw [hgot w, if_pos rfl, hnil]
      rfl
    have hfree : ∀ v, ¬ Holds s v p := h.ready_free hp
    rw [htaken]
    refine ⟨howned, fun v => ?_, ?_, ?_⟩
    · show (u.worker v).held = _
      rw [hgot v]
      by_cases hv : v = w
      · subst hv
        simp [setPc, hnil, Pc.sk?]
      · rw [if_neg hv, h.held v]
        simp [setPc, setServer, hv]
    · refine h.conns.step w (fun v hv q => holds_setPc_other (setServer s u) hv (.recv p) q)
        (fun q hq => ?_) (fun q hq => ?_) (fun q hq hfree' => ?_) fun v hv q hq hbusy => ?_
      · cases (holds_setPc_self (setServer s u) w (.recv p) q).mp hq
        exact Or.inr hfree
      · cases (holds_setPc_self (setServer s u) w (.recv p) q).mp hq
        have halive : (s.server.heap p).isSome := (h.owned.alive p).mp ⟨_, hp⟩
        have hstage : Settled o Right (s.conn p) := h.conns.idle p hfree halive
        simpa [setPc, hconn, Stage] using hstage
      · show (u.heap q).isSome → Settled o Right ((setServer s u).conn q)
        rw [hheap, hconn]
        refine h.conns.idle q fun v hv => ?_
        by_cases hvw : v = w
        · subst hvw
          rw [Holds, hs] at hv
          cases hv
        · exact hfree' v hvw hv
      · show Stage o Right ((setServer s u).conn q) ((setPc (setServer s u) w (.recv p)).pc v)
        rw [hconn]
        simpa [setPc, setServer, hv] using hbusy
    · rw [requests_setPc_none (s := setServer s u) hreq rfl]
      exact h.logic

/-! ## 8. The loop of a worker -/

/-- Where an outcome leads, the connection is as the invariant wants it there. -/
theorem Pending.next {c : Conn} {req : List Byte} {out : Outcome} (h : Pending o Right req c)
    (hfit : out.Fits Right req) (p : Ptr) : Stage o Right c (out.next p req) := by
  cases out with
  | going => exact h
  | reply rsp => exact ⟨h, hfit⟩
  | drop =>
    obtain ⟨hintact, before, hbefore, hans⟩ := h
    exact ⟨hintact, hbefore ▸ hans.drop hfit⟩

theorem sk?_next (out : Outcome) (p : Ptr) (req : List Byte) : (out.next p req).sk? = some p := by
  cases out <;> rfl

theorem request?_next (out : Outcome) (p : Ptr) (req : List Byte) :
    (out.next p req).request? = out.pending req := by
  cases out <;> rfl

omit [DecidableEq W] in
theorem setConn_self (s : Service W σ) (p : Ptr) : setConn s p (s.conn p) = s := by
  unfold setConn
  rw [Function.update_eq_self]

omit [DecidableEq W] in
/-- What the invariant says at a place of the loop. -/
theorem Inv.stage (h : Inv o Right I s) {w : W} {p : Ptr} {pc : Pc} (hs : s.pc w = pc)
    (hp : pc.sk? = some p) :
    (s.pc w).sk? = some p ∧ Stage o Right (s.conn p) pc ∧ requests s w = pc.request? := by
  subst hs
  exact ⟨hp, h.conns.busy w p hp, rfl⟩

/-- A worker that is busy with no request leaves the logic alone. -/
theorem Inv.logic_idle (h : Inv o Right I s) {w : W} (hreq : requests s w = none) :
    I s.shared (Function.update (requests s) w none) := by
  rw [← hreq, Function.update_eq_self]
  exact h.logic

/-- **`TCPRecv` and the beginning of the business logic.** -/
theorem Inv.recv (h : Inv o Right I s) (hL : Sound L Right I) {w : W} {p : Ptr}
    {recvs : List RecvResult} (hs : s.pc w = .recv p)
    (hstep : afterRecv L s w p (tcpRecv o [] ⟨recvs, (s.conn p).stream⟩) = .ok t) :
    Inv o Right I t := by
  obtain ⟨hsk, hsettled, hreq⟩ := h.stage hs rfl
  cases hr : tcpRecv o [] ⟨recvs, (s.conn p).stream⟩ with
  | none =>
    rw [hr] at hstep
    cases hstep
  | some r =>
    obtain ⟨ret, buf, e⟩ := r
    rw [hr] at hstep
    unfold afterRecv at hstep
    dsimp only at hstep
    split at hstep
    · cases hstep
      refine h.atSocket hsk rfl ?_ ?_
      · exact ⟨⟨_, hsettled.1⟩, _, hsettled.2, List.prefix_rfl⟩
      · exact h.logic_idle hreq
    · rename_i hret
      obtain ⟨hframe, -, hsize⟩ := tcpRecv_takes_frame hr hret
      unfold proceed at hstep
      split at hstep
      · rename_i y out hout
        cases hstep
        obtain ⟨hI, hfit⟩ := hL.receive h.logic hreq hout
        have hpending : Pending o Right buf { s.conn p with
            stream := e.stream, received := (s.conn p).received ++ [buf] } :=
          ⟨hsettled.1.receive hframe hsize, _, rfl, hsettled.2⟩
        refine h.atSocket hsk (sk?_next out p buf) (hpending.next hfit p) ?_
        rw [request?_next]
        exact hI
      · cases hstep

/-- **A later step of the business logic.** -/
theorem Inv.work (h : Inv o Right I s) (hL : Sound L Right I) {w : W} {p : Ptr} {req : List Byte}
    {e : ε} (hs : s.pc w = .work p req)
    (hstep : proceed s w p req (L.work s.shared w e) = .ok t) : Inv o Right I t := by
  obtain ⟨hsk, hpending, hreq⟩ := h.stage hs rfl
  unfold proceed at hstep
  split at hstep
  · rename_i y out hout
    cases hstep
    obtain ⟨hI, hfit⟩ := hL.work h.logic hreq hout
    have hinv := h.atSocket (c := s.conn p) hsk (sk?_next out p req) (hpending.next hfit p)
      (by rw [request?_next]; exact hI)
    rwa [setConn_self] at hinv
  · cases hstep

/-- **`TCPSend`.**  One that fails halfway does no harm when the socket is closed. -/
theorem Inv.send (h : Inv o Right I s) {w : W} {p : Ptr} {req rsp : List Byte}
    {sends : List SendResult} (hs : s.pc w = .send p req rsp)
    (hkept : L.closeOnSendError = true ∨ ∀ ret e,
      tcpSend (some (lvFrame o rsp)) ⟨sends, (s.conn p).wire⟩ = some (ret, e) → ¬ ret < 0)
    (hstep : afterSend L s w p (tcpSend (some (lvFrame o rsp)) ⟨sends, (s.conn p).wire⟩) = .ok t) :
    Inv o Right I t := by
  obtain ⟨hsk, ⟨⟨hintact, before, hbefore, hans⟩, hright⟩, hreq⟩ := h.stage hs rfl
  have hall := hans.reply hright
  rw [← hbefore] at hall
  have hlogic := h.logic_idle hreq
  cases hr : tcpSend (some (lvFrame o rsp)) ⟨sends, (s.conn p).wire⟩ with
  | none =>
    rw [hr] at hstep
    cases hstep
  | some r =>
    obtain ⟨ret, e⟩ := r
    rw [hr] at hstep
    unfold afterSend at hstep
    dsimp only at hstep
    rcases tcpSend_cases hr with ⟨rfl, hwire⟩ | ⟨rfl, pre, hpre, -, hwire⟩
    · simp only [lt_irrefl, decide_false, Bool.false_and, Bool.false_eq_true, if_false] at hstep
      cases hstep
      refine h.atSocket hsk rfl ?_ hlogic
      refine ⟨hintact, ?_⟩
      rw [← hwire] at hall
      exact hall
    · rcases hkept with hclose | hkept
      · rw [hclose] at hstep
        cases hstep
        refine h.atSocket hsk rfl ?_ hlogic
        refine ⟨⟨_, hintact⟩, _, hall, ?_⟩
        show e.wire <+: _
        rw [hwire]
        exact (List.prefix_append_right_inj _).mpr hpre
      · exact absurd (by decide) (hkept _ _ hr)

/-- **`InsertServerReuseSocket`.** -/
theorem Inv.reuse [Fintype W] (h : Inv o Right I s) {w : W} {p : Ptr} {poolIndex : Nat}
    {sendOk : Bool} {u : Server W} (hs : s.pc w = .reuse p)
    (hstep : AllSync.step s.server (.insertServerReuseSocket w poolIndex p sendOk) = .ok u) :
    Inv o Right I (setPc (setServer s u) w .top) := by
  obtain ⟨hsk, hsettled, hreq⟩ := h.stage hs rfl
  have howned := step_owned h.owned hstep
  cases steps_of_step hstep with
  | insertServerReuseSocket hp =>
    refine h.release hsk hreq howned (fun v => ?_) (fun q hq => hq)
      fun _ => hsettled
    by_cases hv : v = w
    · subst hv
      simp [AllSync.insertServerReuseSocket, setWorker, h.held v, hs, Pc.sk?]
    · simp [AllSync.insertServerReuseSocket, setWorker, hv]

/-- **`sk->Close(); delete sk;`.** -/
theorem Inv.close [Fintype W] (h : Inv o Right I s) {w : W} {p : Ptr} {u : Server W}
    (hs : s.pc w = .close p) (hstep : AllSync.step s.server (.closeDelete w p) = .ok u) :
    Inv o Right I (setPc (setServer s u) w .top) := by
  obtain ⟨hsk, -, hreq⟩ := h.stage hs rfl
  have howned := step_owned h.owned hstep
  cases steps_of_step hstep with
  | closeDelete hp =>
    refine h.release hsk hreq howned (fun v => ?_) (fun q hq => ?_)
      fun hq => ?_
    · by_cases hv : v = w
      · subst hv
        simp [deleteSocket, setWorker, h.held v, hs, Pc.sk?]
      · simp [deleteSocket, setWorker, hv]
    · by_cases hqp : q = p
      · subst hqp
        simp [deleteSocket] at hq
      · simpa [deleteSocket, setWorker, hqp] using hq
    · simp [deleteSocket] at hq

omit [DecidableEq W] in
/-- **What a client has got**: replies to a beginning of its packets, and when nobody works on the
connection the replies to all of them. -/
theorem Inv.answered (h : Inv o Right I s) {p : Ptr} (halive : (s.server.heap p).isSome) :
    ((∃ rest, Taken o (s.conn p).input (s.conn p).received rest) ∧
        ∃ k full, Answered o Right ((s.conn p).received.take k) full ∧ (s.conn p).wire <+: full) ∧
      ((∀ w, ¬ Holds s w p) → Settled o Right (s.conn p)) := by
  have hidle : (∀ w, ¬ Holds s w p) → Settled o Right (s.conn p) := fun hfree =>
    h.conns.idle p hfree halive
  have hwhole : ∀ {full : List Byte}, Answered o Right (s.conn p).received full →
      (s.conn p).wire <+: full →
      ∃ k full, Answered o Right ((s.conn p).received.take k) full ∧ (s.conn p).wire <+: full :=
    fun ha hbegins => ⟨_, _, by rw [List.take_length]; exact ha, hbegins⟩
  have hpending : ∀ {req : List Byte}, Pending o Right req (s.conn p) →
      ∃ k full, Answered o Right ((s.conn p).received.take k) full ∧ (s.conn p).wire <+: full := by
    rintro req ⟨-, before, hbefore, ha⟩
    exact ⟨before.length, _, by rw [hbefore, List.take_left]; exact ha, List.prefix_rfl⟩
  refine ⟨?_, hidle⟩
  by_cases hfree : ∀ w, ¬ Holds s w p
  · exact ⟨⟨_, (hidle hfree).1⟩, hwhole (hidle hfree).2 List.prefix_rfl⟩
  · obtain ⟨w, hw⟩ := not_forall_not.mp hfree
    have hstage := h.conns.busy w p hw
    cases hpc : s.pc w with
    | top =>
      rw [Holds, hpc] at hw
      cases hw
    | recv q =>
      rw [hpc] at hstage
      exact ⟨⟨_, hstage.1⟩, hwhole hstage.2 List.prefix_rfl⟩
    | work q req =>
      rw [hpc] at hstage
      exact ⟨⟨_, hstage.1⟩, hpending hstage⟩
    | send q req rsp =>
      rw [hpc] at hstage
      exact ⟨⟨_, hstage.1.1⟩, hpending hstage.1⟩
    | reuse q =>
      rw [hpc] at hstage
      exact ⟨⟨_, hstage.1⟩, hwhole hstage.2 List.prefix_rfl⟩
    | close q =>
      rw [hpc] at hstage
      obtain ⟨hintact, full, ha, hbegins⟩ := hstage
      exact ⟨hintact, hwhole ha hbegins⟩

/-! ## 9. Whole runs -/

/-- The event is no `TCPSend` that fails with the socket being kept. -/
def Kept (o : ByteOrder) (L : Logic W σ ε δ) (s : Service W σ) : Event W ε δ → Prop
  | .tcpSend w sends => L.closeOnSendError = true ∨ ∀ p req rsp, s.pc w = .send p req rsp →
      ∀ ret e, tcpSend (some (lvFrame o rsp)) ⟨sends, (s.conn p).wire⟩ = some (ret, e) → ¬ ret < 0
  | _ => True

theorem serverStep_ok [Fintype W] {w : W} {a : Action W} {pc : Server W → Pc}
    (h : serverStep s w a pc = .ok t) :
    ∃ u, AllSync.step s.server a = .ok u ∧ t = setPc (setServer s u) w (pc u) := by
  unfold serverStep at h
  split at h
  · rename_i u hu
    cases h
    exact ⟨u, hu, rfl⟩
  · cases h

/-- **Every step keeps the invariant.** -/
theorem step_inv [Fintype W] (hL : Sound L Right I) {e : Event W ε δ} (h : Inv o Right I s)
    (hkept : Kept o L s e) (hstep : step o L poolIndex s e = .ok t) : Inv o Right I t := by
  cases e with
  | server a =>
    simp only [step] at hstep
    split at hstep
    · rename_i hb
      split at hstep
      · rename_i u hu
        cases hstep
        exact h.background hb hu
      · cases hstep
    · cases hstep
  | clientSend p bytes =>
    cases hstep
    refine ⟨h.owned, h.held, ?_, h.logic⟩
    refine h.conns.env (fun _ _ => Iff.rfl) (fun q _ hidle halive => ?_) fun w q _ hbusy => ?_
    · by_cases hq : q = p
      · subst hq
        simp only [setConn, Function.update_self]
        exact ⟨(hidle halive).1.more bytes, (hidle halive).2⟩
      · simp only [setConn, Function.update_of_ne hq]
        exact hidle halive
    · by_cases hq : q = p
      · subst hq
        simp only [setConn, Function.update_self]
        exact hbusy.more bytes
      · simp only [setConn, Function.update_of_ne hq]
        exact hbusy
  | getServerReadySocket w =>
    simp only [step] at hstep
    split at hstep
    · rename_i hs
      obtain ⟨u, hu, rfl⟩ := serverStep_ok hstep
      cases steps_of_step hu with
      | getServerReadySocket hw =>
        unfold AllSync.getServerReadySocket
        split
        · exact h.take hs _
        · -- no list of that index: the worker tries again
          have htaken : taken w s.server = .top := by
            unfold taken
            rw [h.held w, hs]
            rfl
          have hserver : setServer s s.server = s := by
            unfold setServer
            congr 1
            funext q
            cases hq : s.server.heap q <;> simp
          have hpc : setPc s w .top = s := by
            unfold setPc
            rw [← hs, Function.update_eq_self]
          rw [htaken, hserver, hpc]
          exact h
    · cases hstep
  | retest w =>
    simp only [step] at hstep
    split at hstep
    · rename_i hs
      obtain ⟨u, hu, rfl⟩ := serverStep_ok hstep
      cases steps_of_step hu with
      | retest hw => exact h.take hs _
    · cases hstep
  | tcpRecv w recvs =>
    simp only [step] at hstep
    split at hstep
    · rename_i p hs
      exact h.recv hL hs hstep
    · cases hstep
  | work w e =>
    simp only [step] at hstep
    split at hstep
    · rename_i p req hs
      exact h.work hL hs hstep
    · cases hstep
  | outside d =>
    simp only [step] at hstep
    split at hstep
    · rename_i x hx
      cases hstep
      exact ⟨h.owned, h.held, h.conns, hL.outside h.logic hx⟩
    · cases hstep
  | tcpSend w sends =>
    simp only [step] at hstep
    split at hstep
    · rename_i p req rsp hs
      exact h.send hs (hkept.imp_right fun hk => hk p req rsp hs) hstep
    · cases hstep
  | insertServerReuseSocket w sendOk =>
    simp only [step] at hstep
    split at hstep
    · rename_i p hs
      obtain ⟨u, hu, rfl⟩ := serverStep_ok hstep
      exact h.reuse hs hu
    · cases hstep
  | close w =>
    simp only [step] at hstep
    split at hstep
    · rename_i p hs
      obtain ⟨u, hu, rfl⟩ := serverStep_ok hstep
      exact h.close hs hu
    · cases hstep

omit [DecidableEq W] in
theorem start_inv (n : Nat) (hasUDP : Bool) {x : σ} (hx : I x fun _ => none) :
    Inv o Right I (start n hasUDP x : Service W σ) where
  owned := start_owned n hasUDP
  held := fun _ => rfl
  conns := ⟨fun h => (by cases h), fun _ _ _ => settled_empty, fun _ _ _ => trivial⟩
  logic := hx

/-- **A run keeps the invariant**, from the start of the threads on. -/
theorem run_inv [Fintype W] (hL : Sound L Right I) {n : Nat} {hasUDP : Bool} {x : σ}
    (hx : I x fun _ => none) {es : List (Event W ε δ)}
    (hkept : Along (step o L poolIndex) (Kept o L) (start n hasUDP x) es)
    (hrun : exec (step o L poolIndex) (start n hasUDP x) es = .ok s) : Inv o Right I s :=
  Along.invariant (fun _ _ _ h hk hs => step_inv hL h hk hs) (start_inv n hasUDP hx) hkept hrun

/-! ## 10. Runs that stay clear of some states -/

end Kknf.AllSync.Serving
