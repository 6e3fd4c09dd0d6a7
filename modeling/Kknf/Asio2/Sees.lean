/-
# A step, seen from one socket

`step_sees` says, once, everything a step of the skeleton can do to one socket: one constructor of
`Sees` for each thing that can happen to it.  Every invariant of the sockets is a case analysis on
it, and none looks into a handler again.

A step works on one socket and leaves the views of the others alone, with one exception: destroying
a server socket erases the server entry of its endpoint, which can be another socket's
(`Sees.evicted`).
-/
import Kknf.Asio2.Handlers

namespace Kknf.Asio2

/-! ## 1. What can happen to a socket -/

/-- The request is one for a connection to a server behind: to `remote`, of the given type, with the
callback asked for. -/
inductive Request.Asks : Request → TCPEndpoint → SocketType → Option CallBack → Prop
  | plain (remote : TCPEndpoint) (type : SocketType) (buf : List Byte) :
      Asks (.toWriteThenRead remote type buf false) remote type none
  | callBack (remote : TCPEndpoint) (type : SocketType) (buf : List Byte) (iAmServer : Bool)
      (cb : Option CallBack) :
      Asks (.toWriteThenCallBack remote type buf iAmServer cb) remote type cb
  | connect (remote : TCPEndpoint) (type : SocketType) (buf : List Byte)
      (cb : Option CallBack) : Asks (.toConnectThenWrite remote type buf cb) remote type cb

/-- The flags of a socket that an acceptor has created. -/
def Conn.blank (type : SocketType) : Conn := ⟨type, default, false, false, false, false, none⟩

/-- The 100-continue answer that a head handler sends after the user's code has returned. -/
def Running.after (r : Running) : List Op :=
  if r.continueFieldFound then [.anythingThenNothing r.sock] else []

/-- What event `e` can do to socket `j` in state `s`. -/
inductive Sees (s : Skeleton) (e : Event) (j : SockId) : View → Prop
  /-- nothing -/
  | same : Sees s e j (view s j)
  /-- another server socket is destroyed -/
  | evicted {i : SockId} (hij : j ≠ i) (hc : (view s i).conn.isClient = false)
      (href : Referenced s i) : Sees s e j ((view s j).evicted (view s i).conn.remoteEndpoint)
  /-- a socket made by `ToWriteThenReadSync` is destroyed at once -/
  | syncEvicted {remote : TCPEndpoint} {type : SocketType} {buf : List Byte} {o : SyncOutcome}
      (he : e = .request (.toWriteThenReadSync remote type buf o)) :
      Sees s e j ((view s j).evicted remote)
  | swept {r : Completion} (he : e = .complete .timeout r) (h : ∃ k, (view s j).served k = true) :
      Sees s e j (view s j).swept
  /-- it is created to connect to a server behind -/
  | connecting {q : Request} {remote : TCPEndpoint} {type : SocketType} {cb : Option CallBack}
      {buf : List Byte} (he : e = .request q) (hq : q.Asks remote type cb) (hj : j = s.next) :
      Sees s e j (((((view s j).createdAs ⟨type, remote, false, false, true, false, cb⟩).addIssue
        cb).addPooled remote).addOps [.connectThenWrite j buf])
  /-- a plain request finds it idle -/
  | reusing {remote : TCPEndpoint} {type : SocketType} {buf : List Byte} {op : Op}
      (he : e = .request (.toWriteThenRead remote type buf false))
      (hi : findIdleTCPClientSocket s remote = some j)
      (hop : writeOp (view s j).conn.type j = some op) :
      Sees s e j ((((view s j).addIssue none).withConn { (view s j).conn with
        inUse := (view s j).conn.isClient || (view s j).conn.inUse }).addOps [op])
  /-- a request with a callback finds it idle -/
  | reusingFor {remote : TCPEndpoint} {type : SocketType} {buf : List Byte} {srv : Bool}
      {cb : Option CallBack} {op : Op}
      (he : e = .request (.toWriteThenCallBack remote type buf srv cb))
      (hi : findIdleTCPClientSocket s remote = some j)
      (hop : writeOp (view s j).conn.type j = some op) :
      Sees s e j ((((view s j).addIssue cb).withConn { (view s j).conn with
        cb := cb, inUse := (view s j).conn.isClient || (view s j).conn.inUse }).addOps [op])
  /-- a server writes to its client -/
  | answering {remote : TCPEndpoint} {type : SocketType} {buf : List Byte} {op : Op}
      (he : e = .request (.toWriteThenRead remote type buf true))
      (hi : s.tcpServerSocketMap.find remote = some j)
      (hidle : ((view s j).conn.isClient && (view s j).conn.inUse) = false)
      (hop : writeOp (view s j).conn.type j = some op) :
      Sees s e j ((((view s j).addIssue none).withConn { (view s j).conn with
        inUse := (view s j).conn.isClient || (view s j).conn.inUse }).addOps [op])
  /-- `ToWriteThenClose` finds it -/
  | closing {remote : TCPEndpoint} {buf : List Byte} {srv : Bool}
      (he : e = .request (.toWriteThenClose remote buf srv))
      (hi : (if srv then findTCPServerSocket s remote else findIdleTCPClientSocket s remote) =
        some j) : Sees s e j ((view s j).addOps [.writeThenClose j])
  /-- `ToWriteThenReadSync` creates it -/
  | synced {remote : TCPEndpoint} {type : SocketType} {buf : List Byte} {o : SyncOutcome}
      (he : e = .request (.toWriteThenReadSync remote type buf o)) (hj : j = s.next)
      (hok : type = .lv ∧ o.connectOk = true) :
      Sees s e j (((view s j).createdAs ⟨type, remote, false, true, false, true, none⟩).addPooled
        remote)
  /-- `ToWriteThenReadSync` creates it, fails and destroys it -/
  | syncedDestroyed {remote : TCPEndpoint} {type : SocketType} {buf : List Byte}
      {o : SyncOutcome} (he : e = .request (.toWriteThenReadSync remote type buf o))
      (hj : j = s.next) (hok : type = .lv ∧ o.connectOk = true) :
      Sees s e j (((view s j).createdAs ⟨type, remote, false, true, false, true, none⟩).addPooled
        remote).destroyed
  /-- it is destroyed by somebody who holds a pointer to it -/
  | destroyed (href : Referenced s j) : Sees s e j (view s j).destroyed
  /-- an acceptor gets it to wait with -/
  | accepting {key : TCPEndpoint} {type : SocketType} (hj : j = s.next)
      (htype : e = .request (.addTCPAcceptor key type) ∨
        ∃ a, s.tcpAcceptorMap.find key = some a ∧ a.type = type) :
      Sees s e j (((view s j).createdAs (Conn.blank type)).setAccepting key true)
  | accepted {key rem : TCPEndpoint} {a : TCPAcceptorInfo} {r : Completion} {op : Op}
      (he : e = .complete (.accept key) r) (ha : s.tcpAcceptorMap.find key = some a)
      (hj : a.skInfo = j) (hrem : r.remoteEndpoint = some rem)
      (hfree : s.tcpServerSocketMap.find rem = none) (hop : ReadOp j a.type op)
      (hloc : r.localEndpoint ≠ none) : Sees s e j ((view s j).acceptedAs key rem a.type op)
  /-- it is accepted, but has no endpoints any more -/
  | acceptDropped {key : TCPEndpoint} {a : TCPAcceptorInfo} {r : Completion}
      (he : e = .complete (.accept key) r) (ha : s.tcpAcceptorMap.find key = some a)
      (hj : a.skInfo = j) :
      Sees s e j ((view s j).droppedAs key a.type)
  | returnedDestroyed {r : Running} {ret : Int} {buf : List Byte} (he : e = .returned ret buf)
      (hr : s.running = some r) (hj : r.sock = j) (hret : ret < 0) :
      Sees s e j ((view s j).resumed.destroyed.addOps r.after)
  | returnedKept {r : Running} {ret : Int} {buf : List Byte} (he : e = .returned ret buf)
      (hr : s.running = some r) (hj : r.sock = j) (hret : ret = 0 ∨ ret = 2)
      (hc : (view s j).conn.isClient = false) : Sees s e j ((view s j).resumed.addOps r.after)
  | returnedIdle {r : Running} {ret : Int} {buf : List Byte} (he : e = .returned ret buf)
      (hr : s.running = some r) (hj : r.sock = j) (hret : ret = 1)
      (hc : (view s j).conn.isClient = true) :
      Sees s e j (((view s j).resumed.withConn { (view s j).conn with
        inUse := false }).addOps r.after)
  | returnedRead {r : Running} {ret : Int} {buf : List Byte} {op : Op}
      (he : e = .returned ret buf) (hr : s.running = some r) (hj : r.sock = j) (hret : ret = 3)
      (hc : (view s j).conn.isClient = false) (hop : ReadOp j r.type op) :
      Sees s e j (((view s j).resumed.addOps [op]).addOps r.after)
  | completedDestroyed {op : Op} {r : Completion} (he : e = .complete op r)
      (hp : op ∈ (view s j).ops) (hr : s.running = none) :
      Sees s e j ((view s j).popOp op).destroyed
  | completedNext {op : Op} {r : Completion} {ops : List Op} (he : e = .complete op r)
      (hp : op ∈ (view s j).ops) (hr : s.running = none) (hn : Next op ops) :
      Sees s e j (((view s j).popOp op).addOps ops)
  | completedCalled {op : Op} {r : Completion} {run : Running} (he : e = .complete op r)
      (hp : op ∈ (view s j).ops) (hr : s.running = none) (hc : Calls op run) :
      Sees s e j (((view s j).popOp op).called run)
  | connected {r : Completion} {buf : List Byte} {ep : TCPEndpoint} {op : Op}
      (he : e = .complete (.connectThenWrite j buf) r)
      (hp : .connectThenWrite j buf ∈ (view s j).ops) (hr : s.running = none)
      (herr : r.error = false) (hloc : r.localEndpoint = some ep)
      (huse : (view s j).conn.inUse = false)
      (hop : writeOp (view s j).conn.type j = some op) :
      Sees s e j (((((view s j).popOp (.connectThenWrite j buf)).withConn { (view s j).conn with
        isConnected := true, inUse := true }).addPooled (view s j).conn.remoteEndpoint).addOps [op])

/-! ## 2. Requests -/

/-- A step that works on socket `i` only, as `Sees` says for it. -/
theorem OnlyAt.sees {s t : Skeleton} {e : Event} {i : SockId} {v : View} (h : OnlyAt s t i v)
    (hs : Sees s e i v) (j : SockId) : Sees s e j (view t j) := by
  rcases eq_or_ne j i with rfl | hj
  · rw [h.own]
    exact hs
  · rw [h.other j hj]
    exact .same

theorem SameViews.sees {s t : Skeleton} {e : Event} (h : SameViews s t) (j : SockId) :
    Sees s e j (view t j) := by
  rw [h j]
  exact .same

/-- Destroying a socket, from a state in which only the view of that socket may have changed, as the
other sockets see it. -/
theorem destroySocket_sees_other {s t : Skeleton} {e : Event} {i j : SockId} {v : View}
    (h : OnlyAt s t i v) (hconn : v.conn = (view s i).conn) (href : Referenced s i)
    (hj : j ≠ i) : Sees s e j (view (destroySocket t i).1 j) := by
  have hti : (view t i).conn = (view s i).conn := by rw [h.own, hconn]
  cases hc : (view t i).conn.isClient with
  | true =>
    rw [view_destroySocket_client t i j hc hj, h.other j hj]
    exact .same
  | false =>
    rw [view_destroySocket_other t i j hc hj, h.other j hj, hti]
    exact .evicted hj (hti ▸ hc) href

theorem destroySocket_sees {s t : Skeleton} {e : Event} {i : SockId} {v : View}
    (h : OnlyAt s t i v) (hconn : v.conn = (view s i).conn) (href : Referenced s i)
    (hs : Sees s e i v.destroyed) (j : SockId) : Sees s e j (view (destroySocket t i).1 j) := by
  rcases eq_or_ne j i with rfl | hj
  · rw [view_destroySocket_self, h.own]
    exact hs
  · exact destroySocket_sees_other h hconn href hj

theorem findIdleTCPClientSocket_some {s : Skeleton} {key : TCPEndpoint} {i : SockId}
    (h : findIdleTCPClientSocket s key = some i) :
    i ∈ s.tcpClientSocketMap.listAt key ∧ (view s i).conn.inUse = false ∧
      (view s i).conn.isConnected = true := by
  have hmem := List.mem_of_find?_eq_some h
  have hidle := List.find?_some h
  simp only [Bool.not_eq_true', Bool.or_eq_false_iff, Bool.not_eq_false'] at hidle
  exact ⟨hmem, hidle.1, hidle.2⟩

theorem referenced_of_pooled {s : Skeleton} {key : TCPEndpoint} {i : SockId}
    (h : i ∈ s.tcpClientSocketMap.listAt key) : Referenced s i := by
  refine .inr (.inr (.inr ?_))
  unfold StdMap.listAt at h
  cases hf : s.tcpClientSocketMap.find key with
  | none => simp [hf] at h
  | some l =>
    rw [hf] at h
    exact ⟨(key, l), s.tcpClientSocketMap.mem_entries.mpr hf, h⟩

theorem referenced_of_op {s : Skeleton} {op : Op} {i : SockId} (hp : op ∈ s.pending)
    (hop : op.sock? = some i) : Referenced s i := .inl ⟨op, hp, hop⟩

/-- A write on a connection the plain way. -/
theorem toWriteThenReadOn_issued {s t : Skeleton} {i : SockId} {buf : List Byte}
    (h : toWriteThenReadOn (issue s i none) i buf = .ok t) :
    ((view s i).conn.isClient && (view s i).conn.inUse) = false ∧
      ∃ op, writeOp (view s i).conn.type i = some op ∧
        OnlyAt s t i ((((view s i).addIssue none).withConn { (view s i).conn with
          inUse := (view s i).conn.isClient || (view s i).conn.inUse }).addOps [op]) := by
  have hissue := ((SameViews.refl s).onlyAt i).issue none
  obtain ⟨hidle, op, hop, ht⟩ := toWriteThenReadOn_onlyAt h
  rw [hissue.own] at hidle hop ht
  exact ⟨hidle, op, hop, hissue.trans ht⟩

theorem toWriteThenRead_sees {s t : Skeleton} {remote : TCPEndpoint} {type : SocketType}
    {buf : List Byte} {iAmServer : Bool} {n : Int}
    (h : toWriteThenRead s remote type buf iAmServer = .ok (t, n)) (j : SockId) :
    Sees s (.request (.toWriteThenRead remote type buf iAmServer)) j (view t j) := by
  rcases toWriteThenRead_ok h with ⟨-, rfl⟩ | ⟨rfl, rfl⟩ | ⟨i, hi, hw⟩
  · exact .same
  · exact (toConnectThenWrite_onlyAt s remote type buf none).sees
      (.connecting rfl (.plain remote type buf) rfl) j
  · obtain ⟨hidle, op, hop, ht⟩ := toWriteThenReadOn_issued hw
    cases iAmServer with
    | true => exact ht.sees (.answering rfl hi hidle hop) j
    | false => exact ht.sees (.reusing rfl hi hop) j

theorem toWriteThenCallBack_sees {s t : Skeleton} {remote : TCPEndpoint} {type : SocketType}
    {buf : List Byte} {iAmServer : Bool} {cb : Option CallBack} {n : Int}
    (h : toWriteThenCallBack s remote type buf iAmServer cb = .ok (t, n)) (j : SockId) :
    Sees s (.request (.toWriteThenCallBack remote type buf iAmServer cb)) j (view t j) := by
  rcases toWriteThenCallBack_ok h with rfl | rfl | ⟨i, hi, hw⟩
  · exact .same
  · exact (toConnectThenWrite_onlyAt s remote type buf cb).sees
      (.connecting rfl (.callBack remote type buf iAmServer cb) rfl) j
  · have hset := (((SameViews.refl s).onlyAt i).issue cb).setSock
      (f := fun k => { k with cb := cb }) (fun c => { c with cb := cb }) fun _ => rfl
    obtain ⟨-, op, hop, ht⟩ := toWriteThenReadOn_onlyAt hw
    rw [hset.own] at hop ht
    exact (hset.trans ht).sees (.reusingFor rfl hi hop) j

theorem toWriteThenClose_sees {s t : Skeleton} {remote : TCPEndpoint} {buf : List Byte}
    {iAmServer : Bool} {n : Int} (h : toWriteThenClose s remote buf iAmServer = .ok (t, n))
    (j : SockId) : Sees s (.request (.toWriteThenClose remote buf iAmServer)) j (view t j) := by
  obtain ⟨i, hi, rfl⟩ := toWriteThenClose_ok h
  have hbuf : SameViews s (setSendBuf s i buf) := fun j => view_setSendBuf s i j buf
  exact ((hbuf.onlyAt i).push rfl).sees (.closing rfl hi) j

/-- `ToWriteThenReadSync` on a new connection that it destroys. -/
theorem syncedDestroyed_sees {s t : Skeleton} {remote : TCPEndpoint} {type : SocketType}
    {buf : List Byte} {o : SyncOutcome} (hok : type = .lv ∧ o.connectOk = true)
    (h : OnlyAt s t s.next
      (((view s s.next).createdAs ⟨type, remote, false, true, false, true, none⟩).addPooled remote))
    (j : SockId) :
    Sees s (.request (.toWriteThenReadSync remote type buf o)) j
      (view (destroySocket t s.next).1 j) := by
  rcases eq_or_ne j s.next with rfl | hj
  · rw [view_destroySocket_self, h.own]
    exact .syncedDestroyed rfl rfl hok
  · have hc : (view t s.next).conn.isClient = false := by rw [h.own]; rfl
    rw [view_destroySocket_other t s.next j hc hj, h.other j hj, h.own]
    exact .syncEvicted rfl

theorem toWriteThenReadSync_sees {cfg : Config} {s t : Skeleton} {remote : TCPEndpoint}
    {type : SocketType} {buf : List Byte} {o : SyncOutcome} {r : Int × List Byte}
    (h : toWriteThenReadSync cfg s remote type buf o = .ok (t, r)) (j : SockId) :
    Sees s (.request (.toWriteThenReadSync remote type buf o)) j (view t j) := by
  rcases toWriteThenReadSync_ok h with rfl | ⟨i, hi, hend⟩ | ⟨hok, hend⟩
  · exact .same
  · have href := referenced_of_pooled (findIdleTCPClientSocket_some hi).1
    have hbuf : SameViews s (setSendBuf s i buf) := fun j => view_setSendBuf s i j buf
    rcases hend with rfl | rfl
    · exact hbuf.sees j
    · exact destroySocket_sees (hbuf.onlyAt i) rfl href (.destroyed href) j
  · have hnew := (onlyAt_alloc s
      { type := type, accessTime := s.clock, remoteEndpoint := remote,
        isConnected := true, inUse := true, sendBuf := buf }).insertTCPClientSocket remote
    rcases hend with rfl | rfl
    · exact hnew.sees (.synced rfl rfl hok) j
    · exact syncedDestroyed_sees hok hnew j

theorem addTCPAcceptor_sees {s t : Skeleton} {endpoint : TCPEndpoint} {type : SocketType}
    {n : Int} (h : addTCPAcceptor s endpoint type = .ok (t, n)) (j : SockId) :
    Sees s (.request (.addTCPAcceptor endpoint type)) j (view t j) := by
  obtain ⟨hnone, rfl⟩ := addTCPAcceptor_ok h
  have hnew := onlyAt_alloc s { type := type, accessTime := s.clock }
  have hview := view_setAcceptor (alloc s { type := type, accessTime := s.clock }) j endpoint
    ⟨type, s.next⟩
  rw [view_push_other _ j (by simp [Op.sock?])]
  refine Eq.mpr (congrArg _ hview) ?_
  rcases eq_or_ne j s.next with rfl | hj
  · rw [hnew.own, beq_self_eq_true]
    exact .accepting rfl (.inl rfl)
  · have hsame : (view s j).setAccepting endpoint (s.next == j) = view s j := by
      have hp : Function.update (view s j).accepting endpoint (s.next == j) =
          (view s j).accepting := by
        refine Function.update_eq_self_iff.mpr ?_
        simp [view, hnone, hj.symm]
      rw [View.setAccepting, hp]
    rw [hnew.other j hj, hsame]
    exact .same

/-! ## 3. Accepting -/

/-- Every acceptor waits with a socket that has been created. -/
def AcceptorsCreated (s : Skeleton) : Prop :=
  ∀ key a, s.tcpAcceptorMap.find key = some a → a.skInfo < s.next

/-- The views after the first part of `HandleAccept`. -/
theorem view_takeAccepted {s : Skeleton} {key : TCPEndpoint} {a : TCPAcceptorInfo}
    (ha : s.tcpAcceptorMap.find key = some a) (hlt : a.skInfo < s.next) (j : SockId) :
    view (takeAccepted s key a) j =
      if j = a.skInfo then
        ((view s j).withConn { (view s j).conn with
          isConnected := true, inUse := true, type := a.type, closed := false }).setAccepting
            key false
      else if j = s.next then ((view s j).createdAs (Conn.blank a.type)).setAccepting key true
      else view s j := by
  have hset := ((SameViews.refl s).onlyAt a.skInfo).setSock
    (f := fun k => { k with isConnected := true, inUse := true, type := a.type, closed := false })
    (fun c => { c with isConnected := true, inUse := true, type := a.type, closed := false })
    fun _ => rfl
  have hacc := view_setAcceptor (setSock s a.skInfo fun k =>
    { k with isConnected := true, inUse := true, type := a.type, closed := false }) j key
    { a with skInfo := s.next }
  have halloc := onlyAt_alloc { (setSock s a.skInfo fun k =>
      { k with isConnected := true, inUse := true, type := a.type, closed := false }) with
    tcpAcceptorMap := s.tcpAcceptorMap.set key { a with skInfo := s.next } }
    { type := a.type, accessTime := s.clock }
  rcases eq_or_ne j s.next with rfl | hnext
  · have hne : s.next ≠ a.skInfo := hlt.ne'
    rw [if_neg hne, if_pos rfl]
    refine halloc.own.trans ?_
    refine (congrArg (View.createdAs · _) hacc).trans ?_
    rw [hset.other s.next hne, beq_self_eq_true]
    rfl
  · refine (halloc.other j hnext).trans (hacc.trans ?_)
    have hfalse : (s.next == j) = false := by simpa using hnext.symm
    rcases eq_or_ne j a.skInfo with rfl | hj
    · rw [if_pos rfl, hset.own]
      exact congrArg (View.setAccepting _ key) hfalse
    · rw [if_neg hj, if_neg hnext, hset.other j hj]
      have hp : Function.update (view s j).accepting key (s.next == j) =
          (view s j).accepting := by
        refine Function.update_eq_self_iff.mpr ?_
        simp [view, ha, hnext.symm, hj.symm]
      exact congrArg (fun p => { view s j with accepting := p }) hp

theorem sameViews_pop (s : Skeleton) {op : Op} (hop : op.sock? = none) : SameViews s (pop s op) :=
  fun j => view_pop_other s j (by rw [hop]; simp)

/-- What `HandleAccept` then does to the accepted socket. -/
theorem takeAccepted_sees {s u : Skeleton} {e : Event} {key : TCPEndpoint} {a : TCPAcceptorInfo}
    {v : View} (ha : s.tcpAcceptorMap.find key = some a) (hlt : a.skInfo < s.next)
    (h : OnlyAt (takeAccepted (pop s (.accept key)) key a) u a.skInfo v)
    (hs : Sees s e a.skInfo v) (j : SockId) : Sees s e j (view u j) := by
  rcases eq_or_ne j a.skInfo with rfl | hj
  · rw [h.own]
    exact hs
  have htake := view_takeAccepted (s := pop s (.accept key)) ha hlt j
  rw [if_neg hj, sameViews_pop s rfl j] at htake
  rw [h.other j hj, htake]
  split
  · rename_i hnext
    exact .accepting hnext (.inr ⟨a, ha, rfl⟩)
  · exact .same

theorem handleAccept_sees {cfg : Config} {s t : Skeleton} {key : TCPEndpoint} {r : Completion}
    (hcreated : AcceptorsCreated s)
    (h : handleAccept cfg (pop s (.accept key)) r.error key r.remoteEndpoint r.localEndpoint =
      .ok t) (j : SockId) : Sees s (.complete (.accept key) r) j (view t j) := by
  simp only [handleAccept] at h
  split at h
  · cases h
  split at h
  · cases h
  rename_i a hfind
  have ha : s.tcpAcceptorMap.find key = some a := hfind
  have hlt := hcreated key a ha
  have htake := view_takeAccepted (s := pop s (.accept key)) ha hlt a.skInfo
  rw [if_pos rfl, sameViews_pop s rfl] at htake
  have hown := (SameViews.refl (takeAccepted (pop s (.accept key)) key a)).onlyAt a.skInfo
  rw [htake] at hown
  split at h
  · rename_i rem loc hrem hloc
    split at h
    · cases h
    rename_i hret
    -- a failed insertion would have stopped the handler
    have hfree : s.tcpServerSocketMap.find rem = none := by
      cases hf : s.tcpServerSocketMap.find rem with
      | none => rfl
      | some i =>
        refine (hret ?_).elim
        simp [insertTCPServerSocket, setSock, takeAccepted, alloc, pop, hf]
    have hset := hown.setSock (f := fun k => { k with remoteEndpoint := rem, localEndpoint := loc })
      (fun c => { c with remoteEndpoint := rem }) fun _ => rfl
    have hins := (hset.insertTCPServerSocket hfree).sameViews
      (fun j => view_setRecvBuf _ a.skInfo j cfg.initRecvBufSize)
    split at h
    · rename_i htype
      cases h
      obtain ⟨l, hl⟩ := asyncReadHTTPHead_onlyAt cfg _ a.skInfo
      have hread := (hins.trans hl).sameViews (sameViews_push _ (.accept key) rfl)
      rw [hins.own] at hread
      exact takeAccepted_sees ha hlt hread
        (.accepted rfl ha rfl hrem hfree (by rw [htype]; exact .http l) (by simp [hloc])) j
    · rename_i htype
      cases h
      have hread := (hins.trans (toReadLThenReadV_onlyAt _ a.skInfo)).sameViews
        (sameViews_push _ (.accept key) rfl)
      rw [hins.own] at hread
      exact takeAccepted_sees ha hlt hread
        (.accepted rfl ha rfl hrem hfree (by rw [htype]; exact .lv) (by simp [hloc])) j
    · cases h
  · cases h
    have hclose := hown.setSock (f := fun k => { k with closed := true })
      (fun c => { c with closed := true }) fun _ => rfl
    exact takeAccepted_sees ha hlt hclose (.acceptDropped rfl ha rfl) j

/-! ## 4. Completions and returns -/

theorem onlyAt_pop (s : Skeleton) {op : Op} {i : SockId} (hop : op.sock? = some i) :
    OnlyAt s (pop s op) i ((view s i).popOp op) :=
  ⟨view_pop s i op, fun j hj =>
    view_pop_other s j fun he => hj (Option.some.inj (he.symm.trans hop))⟩

theorem handle_sees {cfg : Config} {s t : Skeleton} {op : Op} {r : Completion} {i : SockId}
    (hp : op ∈ s.pending) (hop : op.sock? = some i) (hr : s.running = none)
    (h : handle cfg (pop s op) op r = .ok t) (j : SockId) :
    Sees s (.complete op r) j (view t j) := by
  have hpop := onlyAt_pop s hop
  have hmem : op ∈ (view s i).ops := by simp [view, hp, hop]
  cases handle_outcome (s := pop s op) hop hr h with
  | destroyed hsame =>
    exact destroySocket_sees (hpop.sameViews hsame) rfl (referenced_of_op hp hop)
      (.completedDestroyed rfl hmem hr) j
  | next hn hat =>
    rw [hpop.own] at hat
    exact (hpop.trans hat).sees (.completedNext rfl hmem hr hn) j
  | called hc hat =>
    rw [hpop.own] at hat
    exact (hpop.trans hat).sees (.completedCalled rfl hmem hr hc) j
  | connected hopc herr hloc huse hw hat =>
    subst hopc
    rw [hpop.own] at huse hw hat
    exact (hpop.trans hat).sees (.connected rfl hmem hr herr hloc huse hw) j

/-- The state after a return, when the handler goes on to the 100-continue answer. -/
theorem onlyAt_after {s t : Skeleton} {r : Running} {v : View} (h : OnlyAt s t r.sock v) :
    OnlyAt s (if r.continueFieldFound then sendContinue t r.sock else t) r.sock
      (v.addOps r.after) := by
  unfold Running.after
  split
  · exact h.sendContinue
  · rw [View.addOps_nil]
    exact h

theorem returned_sees {cfg : Config} {s t : Skeleton} {r : Running} {ret : Int}
    {buf : List Byte} (hr : s.running = some r) (h : returned cfg s r ret buf = .ok t)
    (j : SockId) : Sees s (.returned ret buf) j (view t j) := by
  have hres := resumed_onlyAt hr buf
  simp only [returned] at h
  split at h
  · cases h
  rename_i s' hs'
  cases h
  cases afterProcess_after hs' with
  | destroyed hret =>
    have href : Referenced s r.sock := .inr (.inl ⟨r, hr, rfl⟩)
    have hafter := onlyAt_after ((SameViews.refl (destroySocket
      (setSock { s with running := none } r.sock fun k => { k with recvBuf := buf })
      r.sock).1).onlyAt r.sock)
    rcases eq_or_ne j r.sock with rfl | hj
    · rw [hafter.own, view_destroySocket_self, hres.own]
      exact .returnedDestroyed rfl hr rfl hret
    · rw [hafter.other j hj]
      exact destroySocket_sees_other hres rfl href hj
  | kept hret hc =>
    exact (onlyAt_after hres).sees
      (.returnedKept rfl hr rfl hret (by rw [hres.own] at hc; exact hc)) j
  | idle hret hc hat =>
    rw [hres.own] at hc hat
    exact (onlyAt_after (hres.trans hat)).sees (.returnedIdle rfl hr rfl hret hc) j
  | read hret hc hop hat =>
    rw [hres.own] at hc hat
    exact (onlyAt_after (hres.trans hat)).sees (.returnedRead rfl hr rfl hret hc hop) j

/-- **A step, seen from one socket.** -/
theorem step_sees {cfg : Config} {s t : Skeleton} {e : Event} (hcreated : AcceptorsCreated s)
    (h : step cfg s e = .ok t) (j : SockId) : Sees s e j (view t j) := by
  cases e with
  | request q =>
    cases q with
    | toWriteThenRead remote type buf iAmServer =>
      obtain ⟨⟨u, n⟩, hu, rfl⟩ := Run.map_eq_ok.mp h
      exact toWriteThenRead_sees hu j
    | toWriteThenCallBack remote type buf iAmServer cb =>
      obtain ⟨⟨u, n⟩, hu, rfl⟩ := Run.map_eq_ok.mp h
      exact toWriteThenCallBack_sees hu j
    | toWriteThenClose remote buf iAmServer =>
      obtain ⟨⟨u, n⟩, hu, rfl⟩ := Run.map_eq_ok.mp h
      exact toWriteThenClose_sees hu j
    | toConnectThenWrite remote type buf cb =>
      cases h
      exact (toConnectThenWrite_onlyAt s remote type buf cb).sees
        (.connecting rfl (.connect remote type buf cb) rfl) j
    | toWriteThenReadSync remote type buf o =>
      obtain ⟨⟨u, n⟩, hu, rfl⟩ := Run.map_eq_ok.mp h
      exact toWriteThenReadSync_sees hu j
    | addTCPAcceptor endpoint type =>
      obtain ⟨⟨u, n⟩, hu, rfl⟩ := Run.map_eq_ok.mp h
      exact addTCPAcceptor_sees hu j
  | returned ret buf =>
    simp only [step] at h
    split at h
    · cases h
    · rename_i r hr
      exact returned_sees hr h j
  | complete op r =>
    simp only [step] at h
    split at h
    · rename_i hen
      obtain ⟨-, hrun, hp, -⟩ := hen
      have hr : s.running = none := by simpa using hrun
      cases hop : op.sock? with
      | some i => exact handle_sees hp hop hr h j
      | none =>
        cases op with
        | accept key => exact handleAccept_sees hcreated h j
        | timeout =>
          cases h
          have hpop := sameViews_pop s (show Op.timeout.sock? = none from rfl)
          have hpush := sameViews_push
            (if r.error then pop s .timeout else sweepServerSocket (pop s .timeout)
              cfg.serverTimeout)
            .timeout rfl j
          rw [handleTimeout, hpush]
          split
          · exact hpop.sees j
          · rcases view_sweepServerSocket (pop s .timeout) j cfg.serverTimeout with hv | ⟨hk, hv⟩
            · rw [hv]
              exact hpop.sees j
            · rw [hpop j] at hk hv
              rw [hv]
              exact .swept rfl hk
        | _ => cases hop
    · cases h
  | destroySocket i =>
    simp only [step] at h
    split at h
    · rename_i href
      cases h
      exact destroySocket_sees ((SameViews.refl s).onlyAt i) rfl href (.destroyed href) j
    · cases h
  | setClock n =>
    cases h
    exact .same
  | run =>
    simp only [step] at h
    split at h
    · cases h
    · cases h
      have hrun : SameViews s (run s) := sameViews_push { s with started := true } .timeout rfl
      exact hrun.sees j

end Kknf.Asio2
