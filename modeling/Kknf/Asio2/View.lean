/-
# One socket's part of the state

The safety results about the skeleton are about one `SocketInfo` at a time: its flags, the
operations outstanding on it, where the maps hold it.  `view s j` collects these, without the
buffers and the times, and the lemmas below say how each elementary update of the state changes the
view of a socket: its own, and that of every other one.

The one update that reaches into another socket's view is the erase of a server entry, which goes by
the endpoint and not by the socket (`view_destroySocket_other`).
-/
import Kknf.Asio2.Skeleton

namespace Kknf.Asio2

/-! ## 1. Views -/

/-- A `SocketInfo` without its buffers, its times and its local endpoint. -/
structure Conn where
  type : SocketType
  remoteEndpoint : TCPEndpoint
  closed : Bool
  inUse : Bool
  isClient : Bool
  isConnected : Bool
  cb : Option CallBack

def SocketInfo.conn (k : SocketInfo) : Conn :=
  ⟨k.type, k.remoteEndpoint, k.closed, k.inUse, k.isClient, k.isConnected, k.cb⟩

/-- What the state holds about one socket. -/
structure View where
  conn : Conn
  /-- it has been created -/
  created : Prop
  /-- the acceptors it is waiting at for a connection -/
  accepting : TCPEndpoint → Bool
  /-- the operations outstanding on it -/
  ops : List Op
  /-- the handler that is waiting for the user's code, when it is one of this socket -/
  running : Option Running
  /-- how often the client map has it under an endpoint -/
  pooled : TCPEndpoint → Nat
  /-- whether the server map has it under an endpoint -/
  served : TCPEndpoint → Bool
  /-- the callbacks its frames were passed to -/
  calls : List (Option CallBack)
  /-- the callbacks asked for by the requests made on it -/
  issued : List (Option CallBack)

def view (s : Skeleton) (j : SockId) : View where
  conn := (s.heap j).conn
  created := j < s.next
  accepting := fun k => (s.tcpAcceptorMap.find k).any fun a => a.skInfo == j
  ops := s.pending.filter fun op => op.sock? == some j
  running := s.running.filter fun r => r.sock == j
  pooled := fun k => (s.tcpClientSocketMap.listAt k).count j
  served := fun k => s.tcpServerSocketMap.find k == some j
  calls := (s.calls.filter fun c => c.sock == j).map Call.cb
  issued := (s.issued.filter fun c => c.sock == j).map Issue.cb

namespace View

variable (v : View)

/-- The flags of the socket change. -/
@[simps] def withConn (c : Conn) : View := { v with conn := c }

/-- Operations are started on the socket. -/
@[simps] def addOps (ops : List Op) : View := { v with ops := v.ops ++ ops }

@[simp] theorem addOps_nil : v.addOps [] = v := by simp [addOps]

/-- An operation on the socket ends. -/
@[simps] def popOp (op : Op) : View := { v with ops := v.ops.erase op }

/-- A request is made on the socket. -/
@[simps] def addIssue (cb : Option CallBack) : View := { v with issued := v.issued ++ [cb] }

/-- The socket is put into the list of an endpoint. -/
@[simps] def addPooled (k : TCPEndpoint) : View :=
  { v with pooled := Function.update v.pooled k (v.pooled k + 1) }

/-- The socket is put into the server map. -/
@[simps] def addServed (k : TCPEndpoint) : View :=
  { v with served := Function.update v.served k true }

/-- The server entry of an endpoint is erased. -/
@[simps] def evicted (k : TCPEndpoint) : View :=
  { v with served := Function.update v.served k false }

/-- The socket is created. -/
@[simps] def createdAs (c : Conn) : View := { v with conn := c, created := True }

/-- An acceptor changes the socket it waits with: to this one, or to another. -/
@[simps] def setAccepting (k : TCPEndpoint) (b : Bool) : View :=
  { v with accepting := Function.update v.accepting k b }

/-- The user's code is called with the buffer of the socket. -/
@[simps] def called (r : Running) : View :=
  { v with running := some r, calls := v.calls ++ [v.conn.cb] }

/-- The user's code returns. -/
@[simps] def resumed : View := { v with running := none }

/-- The socket is closed. -/
@[simps!] def closed : View := v.withConn { v.conn with closed := true }

/-- The socket is accepted: connected to `rem`, in the server map, with a read outstanding. -/
def acceptedAs (key rem : TCPEndpoint) (type : SocketType) (op : Op) : View :=
  (((v.withConn { v.conn with
    isConnected := true, inUse := true, type := type, closed := false,
    remoteEndpoint := rem }).setAccepting key false).addServed rem).addOps [op]

/-- The socket is accepted, but has no endpoints any more. -/
def droppedAs (key : TCPEndpoint) (type : SocketType) : View :=
  (v.withConn { v.conn with
    isConnected := true, inUse := true, type := type, closed := true }).setAccepting key false

/-- The socket is closed by a sweep. -/
@[simps] def swept : View :=
  { v with conn := { v.conn with closed := true }, served := fun _ => false }

/-- The socket is destroyed. -/
@[simps] def destroyed : View :=
  { v with
    conn := { v.conn with closed := true }
    pooled := if v.conn.isClient then Function.update v.pooled v.conn.remoteEndpoint 0
      else v.pooled
    served := if v.conn.isClient then v.served
      else Function.update v.served v.conn.remoteEndpoint false }

end View

/-! ## 2. Elementary updates -/

variable (s : Skeleton) (i j : SockId)

theorem view_setSock_self (f : SocketInfo → SocketInfo) :
    view (setSock s i f) i = (view s i).withConn (f (s.heap i)).conn := by
  simp [view, setSock, View.withConn]

theorem view_setSock_other (f : SocketInfo → SocketInfo) (h : j ≠ i) :
    view (setSock s i f) j = view s j := by
  simp [view, setSock, h]

/-- Changing what a view does not hold leaves every view alone. -/
theorem view_setSock_conn (f : SocketInfo → SocketInfo) (hf : ∀ k, (f k).conn = k.conn) :
    view (setSock s i f) j = view s j := by
  by_cases h : j = i
  · subst h
    rw [view_setSock_self, hf]
    rfl
  · exact view_setSock_other s i j f h

@[simp] theorem view_touch : view (touch s i) j = view s j :=
  view_setSock_conn s i j _ fun _ => rfl

@[simp] theorem view_setRecvBuf (n : Nat) : view (setRecvBuf s i n) j = view s j :=
  view_setSock_conn s i j _ fun _ => rfl

@[simp] theorem view_setSendBuf (buf : List Byte) : view (setSendBuf s i buf) j = view s j :=
  view_setSock_conn s i j _ fun _ => rfl

theorem view_closeSk_self : view (closeSk s i) i = (view s i).closed :=
  view_setSock_self s i _

theorem view_closeSk_other (h : j ≠ i) : view (closeSk s i) j = view s j :=
  view_setSock_other s i j _ h

theorem view_storeRecv {t : Skeleton} {off : Nat} {data : List Byte}
    (h : storeRecv s i off data = .ok t) : view t j = view s j := by
  simp only [storeRecv] at h
  split at h
  · cases h
    exact view_setSock_conn s i j _ fun _ => rfl
  · cases h

theorem view_push (op : Op) : view (push s op) j =
    if op.sock? = some j then (view s j).addOps [op] else view s j := by
  by_cases h : op.sock? = some j
  · simp [view, push, h, View.addOps]
  · simp [view, push, h]

theorem view_push_own {op : Op} (h : op.sock? = some j) :
    view (push s op) j = (view s j).addOps [op] := by
  rw [view_push, if_pos h]

theorem view_push_other {op : Op} (h : op.sock? ≠ some j) : view (push s op) j = view s j := by
  rw [view_push, if_neg h]

theorem view_pop (op : Op) : view (pop s op) j = (view s j).popOp op := by
  simp [view, pop, View.popOp, List.erase_filter]

theorem view_pop_other {op : Op} (h : op.sock? ≠ some j) : view (pop s op) j = view s j := by
  have hop : op ∉ (view s j).ops := by simp [view, h]
  rw [view_pop, View.popOp, List.erase_of_not_mem hop]

theorem view_issue_self (cb : Option CallBack) :
    view (issue s i cb) i = (view s i).addIssue cb := by
  simp [view, issue, View.addIssue]

theorem view_issue_other (cb : Option CallBack) (h : j ≠ i) :
    view (issue s i cb) j = view s j := by
  simp [view, issue, h.symm]

theorem view_alloc_self (k : SocketInfo) :
    view (alloc s k) s.next = (view s s.next).createdAs k.conn := by
  simp [view, alloc, View.createdAs]

theorem view_alloc_other (k : SocketInfo) (h : j ≠ s.next) : view (alloc s k) j = view s j := by
  have hj : (j < s.next + 1) = (j < s.next) :=
    propext ⟨fun hlt => lt_of_le_of_ne (Nat.lt_succ_iff.mp hlt) h, Nat.lt_succ_of_lt⟩
  simp [view, alloc, h, hj]

theorem view_insertTCPClientSocket_self (key : TCPEndpoint) :
    view (insertTCPClientSocket s key i) i = (view s i).addPooled key := by
  have hp : (fun k => ((s.tcpClientSocketMap.pushBack key i).listAt k).count i) =
      Function.update (view s i).pooled key ((view s i).pooled key + 1) := by
    funext k
    rw [StdMap.listAt_pushBack, Function.update_apply]
    split <;> simp [view]
  simp only [view, insertTCPClientSocket, View.addPooled] at hp ⊢
  rw [hp]

theorem view_insertTCPClientSocket_other (key : TCPEndpoint) (h : j ≠ i) :
    view (insertTCPClientSocket s key i) j = view s j := by
  have hp : (fun k => ((s.tcpClientSocketMap.pushBack key i).listAt k).count j) =
      (view s j).pooled := by
    funext k
    rw [StdMap.listAt_pushBack]
    split
    · rename_i hk
      simp [view, hk, h.symm]
    · rfl
  simp only [view, insertTCPClientSocket] at hp ⊢
  rw [hp]

theorem view_insertTCPServerSocket_self {key : TCPEndpoint}
    (h : s.tcpServerSocketMap.find key = none) :
    view (insertTCPServerSocket s key i).1 i = (view s i).addServed key := by
  have hp : (fun k => (s.tcpServerSocketMap.set key i).find k == some i) =
      Function.update (view s i).served key true := by
    funext k
    rw [StdMap.find_set, Function.update_apply]
    split <;> simp [view]
  simp only [view, insertTCPServerSocket, h, View.addServed] at hp ⊢
  rw [hp]

theorem view_insertTCPServerSocket_other {key : TCPEndpoint}
    (h : s.tcpServerSocketMap.find key = none) (hj : j ≠ i) :
    view (insertTCPServerSocket s key i).1 j = view s j := by
  have hp : (fun k => (s.tcpServerSocketMap.set key i).find k == some j) =
      (view s j).served := by
    funext k
    rw [StdMap.find_set]
    split
    · rename_i hk
      simp [view, hk, h, hj.symm]
    · rfl
  simp only [view, insertTCPServerSocket, h] at hp ⊢
  rw [hp]

theorem view_setAcceptor (key : TCPEndpoint) (a : TCPAcceptorInfo) :
    view { s with tcpAcceptorMap := s.tcpAcceptorMap.set key a } j =
      (view s j).setAccepting key (a.skInfo == j) := by
  have hp : (fun k => ((s.tcpAcceptorMap.set key a).find k).any fun a => a.skInfo == j) =
      Function.update (view s j).accepting key (a.skInfo == j) := by
    funext k
    rw [StdMap.find_set, Function.update_apply]
    split <;> simp [view]
  simp only [view, View.setAccepting] at hp ⊢
  rw [hp]

theorem view_callProcess_self (r : Running) :
    view (callProcess s r) r.sock = (view s r.sock).called r := by
  simp [view, callProcess, SocketInfo.conn, View.called]

/-- While no handler waits, the user's code can be called for one socket only. -/
theorem view_callProcess_other (r : Running) (hr : s.running = none) (h : j ≠ r.sock) :
    view (callProcess s r) j = view s j := by
  simp [view, callProcess, h.symm, hr]

/-! ## 3. `DestroySocket` and `SweepServerSocket` -/

theorem view_eraseServer (key : TCPEndpoint) :
    view { s with tcpServerSocketMap := s.tcpServerSocketMap.erase key } j =
      (view s j).evicted key := by
  have hp : (fun k => (s.tcpServerSocketMap.erase key).find k == some j) =
      Function.update (view s j).served key false := by
    funext k
    rw [StdMap.find_erase, Function.update_apply]
    split <;> simp [view]
  simp only [view, View.evicted] at hp ⊢
  rw [hp]

theorem view_removeClient_self {key : TCPEndpoint} {l : List SockId} :
    view { s with tcpClientSocketMap := s.tcpClientSocketMap.set key (l.filter (· ≠ i)) } i =
      { view s i with pooled := Function.update (view s i).pooled key 0 } := by
  have hp : (fun k => ((s.tcpClientSocketMap.set key (l.filter (· ≠ i))).listAt k).count i) =
      Function.update (view s i).pooled key 0 := by
    funext k
    rw [StdMap.listAt, StdMap.find_set, Function.update_apply]
    split
    · simp [List.count_eq_zero]
    · rfl
  simp only [view] at hp ⊢
  rw [hp]

theorem view_removeClient_other {key : TCPEndpoint} {l : List SockId}
    (hl : s.tcpClientSocketMap.find key = some l) (h : j ≠ i) :
    view { s with tcpClientSocketMap := s.tcpClientSocketMap.set key (l.filter (· ≠ i)) } j =
      view s j := by
  have hp : (fun k => ((s.tcpClientSocketMap.set key (l.filter (· ≠ i))).listAt k).count j) =
      (view s j).pooled := by
    funext k
    rw [StdMap.listAt, StdMap.find_set]
    split
    · rename_i hk
      simp [view, StdMap.listAt, hk, hl, List.count_filter, h]
    · rfl
  simp only [view] at hp ⊢
  rw [hp]

theorem destroySocket_server (hc : (s.heap i).isClient = false) : (destroySocket s i).1 =
    { closeSk s i with
      tcpServerSocketMap := s.tcpServerSocketMap.erase (s.heap i).remoteEndpoint } := by
  simp [destroySocket, hc]

theorem destroySocket_unpooled (hc : (s.heap i).isClient = true)
    (hf : s.tcpClientSocketMap.find (s.heap i).remoteEndpoint = none) :
    (destroySocket s i).1 = closeSk s i := by
  simp [destroySocket, hc, hf]

theorem destroySocket_pooled {l : List SockId} (hc : (s.heap i).isClient = true)
    (hf : s.tcpClientSocketMap.find (s.heap i).remoteEndpoint = some l) :
    (destroySocket s i).1 = { closeSk s i with
      tcpClientSocketMap :=
        s.tcpClientSocketMap.set (s.heap i).remoteEndpoint (l.filter (· ≠ i)) } := by
  simp [destroySocket, hc, hf]

theorem view_destroySocket_self : view (destroySocket s i).1 i = (view s i).destroyed := by
  have hclose := view_closeSk_self s i
  cases hc : (s.heap i).isClient with
  | false =>
    rw [destroySocket_server s i hc]
    refine (view_eraseServer (closeSk s i) i _).trans ?_
    rw [hclose]
    simp [View.evicted, View.closed, View.withConn, View.destroyed, view, SocketInfo.conn, hc]
  | true =>
    cases hf : s.tcpClientSocketMap.find (s.heap i).remoteEndpoint with
    | none =>
      have hp : Function.update (view s i).pooled (s.heap i).remoteEndpoint 0 =
          (view s i).pooled := by
        refine Function.update_eq_self_iff.mpr ?_
        simp [view, StdMap.listAt, hf]
      rw [destroySocket_unpooled s i hc hf, hclose]
      simp only [view, SocketInfo.conn, View.destroyed, View.closed, View.withConn, hc,
        if_true] at hp ⊢
      rw [hp]
    | some l =>
      rw [destroySocket_pooled s i hc hf]
      refine (view_removeClient_self (closeSk s i) i).trans ?_
      rw [hclose]
      simp [View.destroyed, View.closed, View.withConn, view, SocketInfo.conn, hc]

/-- Destroying a client reaches no other socket. -/
theorem view_destroySocket_client (hc : (view s i).conn.isClient = true) (h : j ≠ i) :
    view (destroySocket s i).1 j = view s j := by
  replace hc : (s.heap i).isClient = true := hc
  cases hf : s.tcpClientSocketMap.find (s.heap i).remoteEndpoint with
  | none =>
    rw [destroySocket_unpooled s i hc hf]
    exact view_closeSk_other s i j h
  | some l =>
    rw [destroySocket_pooled s i hc hf]
    refine (view_removeClient_other (closeSk s i) i j hf h).trans ?_
    exact view_closeSk_other s i j h

/-- Destroying a server socket erases the entry of its endpoint, whoever is there. -/
theorem view_destroySocket_other (hc : (view s i).conn.isClient = false) (h : j ≠ i) :
    view (destroySocket s i).1 j = (view s j).evicted (view s i).conn.remoteEndpoint := by
  replace hc : (s.heap i).isClient = false := hc
  rw [destroySocket_server s i hc]
  refine (view_eraseServer (closeSk s i) j _).trans ?_
  rw [view_closeSk_other s i j h]
  rfl

theorem served_sweepServerSocket (milliseconds : Int) (k : TCPEndpoint) :
    (view (sweepServerSocket s milliseconds) j).served k =
      ((view s j).served k && !decide ((s.heap j).accessTime < s.clock - milliseconds)) := by
  simp only [view, sweepServerSocket, StdMap.find_filter]
  cases s.tcpServerSocketMap.find k with
  | none => rfl
  | some i =>
    by_cases hi : i = j
    · subst hi
      by_cases hexp : (s.heap i).accessTime < s.clock - milliseconds <;>
        simp [Option.filter, hexp]
    · by_cases hexp : (s.heap i).accessTime < s.clock - milliseconds <;>
        simp [Option.filter, hexp, hi]

/-- A sweep closes a socket and takes it out of the server map, or leaves it alone. -/
theorem view_sweepServerSocket (milliseconds : Int) :
    view (sweepServerSocket s milliseconds) j = view s j ∨
      (∃ k, (view s j).served k = true) ∧
        view (sweepServerSocket s milliseconds) j = (view s j).swept := by
  have hserved := served_sweepServerSocket s j milliseconds
  have hany : ((s.tcpServerSocketMap.entries.any fun e =>
      e.2 == j && decide ((s.heap j).accessTime < s.clock - milliseconds)) = true) ↔
      (∃ k, (view s j).served k = true) ∧ (s.heap j).accessTime < s.clock - milliseconds := by
    simp only [List.any_eq_true, Bool.and_eq_true, beq_iff_eq, decide_eq_true_eq, Prod.exists,
      StdMap.mem_entries, view]
    constructor
    · rintro ⟨k, i, hk, rfl, hexp⟩
      exact ⟨⟨k, hk⟩, hexp⟩
    · rintro ⟨⟨k, hk⟩, hexp⟩
      exact ⟨k, j, hk, rfl, hexp⟩
  by_cases h : (∃ k, (view s j).served k = true) ∧ (s.heap j).accessTime < s.clock - milliseconds
  · right
    refine ⟨h.1, ?_⟩
    have hs : (view (sweepServerSocket s milliseconds) j).served = fun _ => false := by
      funext k
      rw [hserved k, decide_eq_true h.2, Bool.not_true, Bool.and_false]
    have hc : (view (sweepServerSocket s milliseconds) j).conn =
        { (view s j).conn with closed := true } := by
      simp only [view, sweepServerSocket, hany.mpr h, if_true, SocketInfo.conn]
    rw [View.swept, ← hs, ← hc]
    rfl
  · left
    have hs : (view (sweepServerSocket s milliseconds) j).served = (view s j).served := by
      funext k
      rw [hserved k]
      cases hk : (view s j).served k with
      | false => rfl
      | true => rw [decide_eq_false fun hexp => h ⟨⟨k, hk⟩, hexp⟩, Bool.not_false, Bool.and_self]
    have hc : (view (sweepServerSocket s milliseconds) j).conn = (view s j).conn := by
      simp only [view, sweepServerSocket, if_neg (mt hany.mp h)]
    calc view (sweepServerSocket s milliseconds) j
        = { view s j with
            conn := (view (sweepServerSocket s milliseconds) j).conn
            served := (view (sweepServerSocket s milliseconds) j).served } := rfl
      _ = view s j := by rw [hc, hs]

end Kknf.Asio2
