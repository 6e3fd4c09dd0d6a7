/-
# What the handlers do to their socket

A handler works on the socket of its operation and leaves the views of the others alone, but for
the server entry `DestroySocket` erases.  This file says what it does to the view of that socket:
`handle_outcome` for the completion handlers, `afterProcess_after` for the end of a handler that
has called the user's code.
-/
import Kknf.Lib.Run
import Kknf.Asio2.Requests
import Kknf.Asio2.View

namespace Kknf.Asio2

/-! ## 1. Updates of one socket -/

/-- All the views are the same. -/
def SameViews (s t : Skeleton) : Prop := ∀ j, view t j = view s j

/-- From `s` to `t` only the view of `i` may have changed, and it is now `v`. -/
structure OnlyAt (s t : Skeleton) (i : SockId) (v : View) : Prop where
  own : view t i = v
  other : ∀ j, j ≠ i → view t j = view s j

section

variable {s t u : Skeleton} {i : SockId} {v w : View}

theorem SameViews.trans (h : SameViews s t) (h' : SameViews t u) : SameViews s u :=
  fun j => (h' j).trans (h j)

theorem sameViews_setSock (s : Skeleton) (i : SockId) {f : SocketInfo → SocketInfo}
    (hf : ∀ k, (f k).conn = k.conn) : SameViews s (setSock s i f) :=
  fun j => view_setSock_conn s i j f hf

theorem SameViews.refl (s : Skeleton) : SameViews s s := fun _ => rfl

theorem SameViews.onlyAt (h : SameViews s t) (i : SockId) : OnlyAt s t i (view s i) :=
  ⟨h i, fun j _ => h j⟩

theorem OnlyAt.trans (h : OnlyAt s t i v) (h' : OnlyAt t u i w) : OnlyAt s u i w :=
  ⟨h'.own, fun j hj => (h'.other j hj).trans (h.other j hj)⟩

theorem OnlyAt.sameViews (h : OnlyAt s t i v) (h' : SameViews t u) : OnlyAt s u i v :=
  ⟨(h' i).trans h.own, fun j hj => (h' j).trans (h.other j hj)⟩

/-- A change of the fields that acts on the flags as `g`. -/
theorem OnlyAt.setSock {f : SocketInfo → SocketInfo} (h : OnlyAt s t i v) (g : Conn → Conn)
    (hg : ∀ k, (f k).conn = g k.conn) : OnlyAt s (setSock t i f) i (v.withConn (g v.conn)) := by
  refine ⟨?_, fun j hj => (view_setSock_other t i j f hj).trans (h.other j hj)⟩
  rw [view_setSock_self, hg, ← h.own]
  rfl

theorem onlyAt_alloc (s : Skeleton) (k : SocketInfo) :
    OnlyAt s (alloc s k) s.next ((view s s.next).createdAs k.conn) :=
  ⟨view_alloc_self s k, fun j hj => view_alloc_other s j k hj⟩

theorem OnlyAt.push {op : Op} (h : OnlyAt s t i v) (hop : op.sock? = some i) :
    OnlyAt s (push t op) i (v.addOps [op]) := by
  refine ⟨by rw [view_push_own t i hop, h.own], fun j hj => ?_⟩
  rw [view_push_other t j fun he => hj (Option.some.inj (he.symm.trans hop)), h.other j hj]

theorem OnlyAt.issue (h : OnlyAt s t i v) (cb : Option CallBack) :
    OnlyAt s (issue t i cb) i (v.addIssue cb) := by
  refine ⟨by rw [view_issue_self, h.own], fun j hj => ?_⟩
  rw [view_issue_other t i j cb hj, h.other j hj]

theorem OnlyAt.insertTCPClientSocket (h : OnlyAt s t i v) (key : TCPEndpoint) :
    OnlyAt s (insertTCPClientSocket t key i) i (v.addPooled key) := by
  refine ⟨by rw [view_insertTCPClientSocket_self, h.own], fun j hj => ?_⟩
  rw [view_insertTCPClientSocket_other t i j key hj, h.other j hj]

theorem OnlyAt.insertTCPServerSocket {key : TCPEndpoint} (h : OnlyAt s t i v)
    (hfree : t.tcpServerSocketMap.find key = none) :
    OnlyAt s (insertTCPServerSocket t key i).1 i (v.addServed key) := by
  refine ⟨by rw [view_insertTCPServerSocket_self t i hfree, h.own], fun j hj => ?_⟩
  rw [view_insertTCPServerSocket_other t i j hfree hj, h.other j hj]

theorem sameViews_push (s : Skeleton) (op : Op) (hop : op.sock? = none) :
    SameViews s (push s op) := fun j => view_push_other s j (by rw [hop]; simp)

theorem OnlyAt.callProcess {http cont : Bool} (h : OnlyAt s t i v) (hr : t.running = none) :
    OnlyAt s (callProcess t ⟨i, http, cont⟩) i (v.called ⟨i, http, cont⟩) := by
  refine ⟨by rw [← h.own]; exact view_callProcess_self t ⟨i, http, cont⟩, fun j hj => ?_⟩
  rw [view_callProcess_other t j ⟨i, http, cont⟩ hr hj, h.other j hj]

end

/-! ## 2. Starting operations -/

/-- The operation that writes a request on a socket, by its type. -/
def writeOp (type : SocketType) (i : SockId) : Option Op :=
  match type with
  | .lv => some (.writeThenReadL i)
  | .http => some (.writeThenReadHTTPHead i)
  | _ => none

theorem httpHeadReadCompletionCondition_sameViews (s : Skeleton) (error : Bool) (i : SockId)
    (byteNum : Nat) : SameViews s (httpHeadReadCompletionCondition s error i byteNum).1 := by
  intro j
  have h := view_setSock_conn s i j (fun k => { k with
    recvBufFilled := (s.heap i).recvBufFilled + byteNum }) fun _ => rfl
  simp only [httpHeadReadCompletionCondition]
  split
  · rfl
  · split
    · exact h
    · split <;> exact h

theorem httpHeadReadCompletionCondition_running (s : Skeleton) (error : Bool) (i : SockId)
    (byteNum : Nat) :
    (httpHeadReadCompletionCondition s error i byteNum).1.running = s.running := by
  simp only [httpHeadReadCompletionCondition]
  split
  · rfl
  · split
    · rfl
    · split <;> rfl

theorem asyncReadHTTPHead_onlyAt (cfg : Config) (s : Skeleton) (i : SockId) :
    ∃ limit, OnlyAt s (asyncReadHTTPHead cfg s i) i
      ((view s i).addOps [.readHTTPHead i 0 limit]) := by
  have h₁ : SameViews s (setRecvBuf s i cfg.initRecvBufSize) := fun j => view_setRecvBuf s i j _
  have h₂ := h₁.trans (httpHeadReadCompletionCondition_sameViews _ false i 0)
  exact ⟨_, (h₂.onlyAt i).push rfl⟩

theorem toReadLThenReadV_onlyAt (s : Skeleton) (i : SockId) :
    OnlyAt s (toReadLThenReadV s i) i ((view s i).addOps [.readLThenReadV i]) := by
  have h : SameViews s (setRecvBuf s i 4) := fun j => view_setRecvBuf s i j 4
  exact (h.onlyAt i).push rfl

/-- `ToWriteThenRead(skinfo, ..)`, when it does not fail. -/
theorem toWriteThenReadOn_onlyAt {s t : Skeleton} {i : SockId} {buf : List Byte}
    (h : toWriteThenReadOn s i buf = .ok t) :
    ((view s i).conn.isClient && (view s i).conn.inUse) = false ∧
      ∃ op, writeOp (view s i).conn.type i = some op ∧
        OnlyAt s t i (((view s i).withConn { (view s i).conn with
          inUse := (view s i).conn.isClient || (view s i).conn.inUse }).addOps [op]) := by
  have hset : OnlyAt s (setSock s i fun k =>
      { k with inUse := k.isClient || k.inUse, sendBuf := buf }) i
      ((view s i).withConn { (view s i).conn with
        inUse := (view s i).conn.isClient || (view s i).conn.inUse }) :=
    ((SameViews.refl s).onlyAt i).setSock
      (fun c => { c with inUse := c.isClient || c.inUse }) fun _ => rfl
  have htype : (view s i).conn.type = (s.heap i).type := rfl
  obtain ⟨hidle, op, hop, rfl⟩ := toWriteThenReadOn_ok h
  refine ⟨hidle, op, ?_⟩
  rcases hop with ⟨ht, rfl⟩ | ⟨ht, rfl⟩
  · exact ⟨by rw [htype, ht]; rfl, hset.push rfl⟩
  · exact ⟨by rw [htype, ht]; rfl, hset.push rfl⟩

/-- `ToConnectThenWrite` creates a client that is connecting. -/
theorem toConnectThenWrite_onlyAt (s : Skeleton) (remote : TCPEndpoint) (type : SocketType)
    (buf : List Byte) (cb : Option CallBack) :
    OnlyAt s (toConnectThenWrite s remote type buf cb) s.next
      (((((view s s.next).createdAs ⟨type, remote, false, false, true, false, cb⟩).addIssue
        cb).addPooled remote).addOps [.connectThenWrite s.next buf]) := by
  have h := onlyAt_alloc s { type := type, accessTime := s.clock, cb := cb, sendBuf := buf,
                             remoteEndpoint := remote, isClient := true }
  exact (((h.issue cb).insertTCPClientSocket remote).push rfl)

/-! ## 3. The handlers -/

/-- What a completed operation can be followed by on its socket, when its handler neither destroys
the socket nor calls the user's code. -/
inductive Next : Op → List Op → Prop
  | writeFailed (i : SockId) : Next (.writeThenReadL i) []
  | readL (i : SockId) : Next (.writeThenReadL i) [.readLThenReadV i]
  | readV (i : SockId) (len : Int) : Next (.readLThenReadV i) [.readVThenProcess i len]
  | readHead (i : SockId) (l : Nat) : Next (.writeThenReadHTTPHead i) [.readHTTPHead i 0 l]
  | readMore (i : SockId) (n l n' l' : Nat) :
      Next (.readHTTPHead i n l) [.readHTTPHead i n' l']
  | headDropped (i : SockId) (n l : Nat) : Next (.readHTTPHead i n l) []
  | readContent (i : SockId) (n l o c : Nat) :
      Next (.readHTTPHead i n l) [.readHTTPContent i o c]
  | readContentContinue (i : SockId) (n l o c : Nat) :
      Next (.readHTTPHead i n l) [.readHTTPContent i o c, .anythingThenNothing i]
  | contentFailed (i : SockId) (o c : Nat) : Next (.readHTTPContent i o c) []
  | nothing (i : SockId) : Next (.anythingThenNothing i) []

/-- The reads whose handlers call the user's code, and the `Running` they leave. -/
inductive Calls : Op → Running → Prop
  | lv (i : SockId) (len : Int) : Calls (.readVThenProcess i len) ⟨i, false, false⟩
  | head (i : SockId) (n l : Nat) (cont : Bool) : Calls (.readHTTPHead i n l) ⟨i, true, cont⟩
  | content (i : SockId) (o c : Nat) : Calls (.readHTTPContent i o c) ⟨i, true, false⟩

/-- What the handler of an operation on socket `i` can do, from the state without the operation. -/
inductive Outcome (s : Skeleton) (op : Op) (r : Completion) (i : SockId) : Skeleton → Prop
  | destroyed {t : Skeleton} (h : SameViews s t) : Outcome s op r i (destroySocket t i).1
  | next {t : Skeleton} {ops : List Op} (hn : Next op ops)
      (h : OnlyAt s t i ((view s i).addOps ops)) : Outcome s op r i t
  | called {t : Skeleton} {run : Running} (hc : Calls op run)
      (h : OnlyAt s t i ((view s i).called run)) : Outcome s op r i t
  | connected {t : Skeleton} {buf : List Byte} {ep : TCPEndpoint} {op' : Op}
      (hop : op = .connectThenWrite i buf) (herr : r.error = false)
      (hloc : r.localEndpoint = some ep) (huse : (view s i).conn.inUse = false)
      (hw : writeOp (view s i).conn.type i = some op')
      (h : OnlyAt s t i ((((view s i).withConn { (view s i).conn with
        isConnected := true, inUse := true }).addPooled
          (view s i).conn.remoteEndpoint).addOps [op'])) : Outcome s op r i t

theorem Outcome.of_sameViews {s s' t : Skeleton} {op : Op} {r : Completion} {i : SockId}
    (h : SameViews s s') (ho : Outcome s' op r i t) : Outcome s op r i t := by
  have hi := h i
  cases ho with
  | destroyed h' => exact .destroyed (h.trans h')
  | next hn h' => exact .next hn ⟨hi ▸ h'.own, fun j hj => (h'.other j hj).trans (h j)⟩
  | called hc h' => exact .called hc ⟨hi ▸ h'.own, fun j hj => (h'.other j hj).trans (h j)⟩
  | connected hop herr hloc huse hw h' =>
    exact .connected hop herr hloc (hi ▸ huse) (hi ▸ hw)
      ⟨hi ▸ h'.own, fun j hj => (h'.other j hj).trans (h j)⟩

/-- `HandleConnectThenWrite`, when the connection is up. -/
theorem handleConnectThenWrite_connected {s t : Skeleton} {i : SockId} {buf : List Byte}
    {ep : TCPEndpoint} (h : handleConnectThenWrite s false i buf (some ep) = .ok t) :
    (view s i).conn.inUse = false ∧ ∃ op, writeOp (view s i).conn.type i = some op ∧
      OnlyAt s t i ((((view s i).withConn { (view s i).conn with
        isConnected := true, inUse := true }).addPooled
          (view s i).conn.remoteEndpoint).addOps [op]) := by
  have htouch : SameViews s (touch s i) := view_touch s i
  have hset : OnlyAt s (setSock (touch s i) i fun k =>
      { k with localEndpoint := ep, isConnected := true, inUse := true, sendBuf := buf }) i
      ((view s i).withConn { (view s i).conn with isConnected := true, inUse := true }) :=
    (htouch.onlyAt i).setSock (fun c => { c with isConnected := true, inUse := true })
      fun _ => rfl
  have hins := hset.insertTCPClientSocket (s.heap i).remoteEndpoint
  have htype : (view s i).conn.type = (s.heap i).type := rfl
  simp only [handleConnectThenWrite, Bool.false_eq_true, if_false] at h
  split at h
  · cases h
  rename_i huse
  refine ⟨by simpa [view, SocketInfo.conn] using huse, ?_⟩
  split at h
  · rename_i ht
    cases h
    exact ⟨.writeThenReadL i, by rw [htype, ht]; rfl, hins.push rfl⟩
  · rename_i ht
    cases h
    exact ⟨.writeThenReadHTTPHead i, by rw [htype, ht]; rfl, hins.push rfl⟩
  · cases h

theorem handleConnectThenWrite_outcome {s t : Skeleton} {r : Completion} {i : SockId}
    {buf : List Byte} (h : handleConnectThenWrite s r.error i buf r.localEndpoint = .ok t) :
    Outcome s (.connectThenWrite i buf) r i t := by
  cases herr : r.error with
  | true =>
    rw [herr] at h
    cases h
    exact .destroyed (SameViews.refl s)
  | false =>
    cases hloc : r.localEndpoint with
    | none =>
      rw [herr, hloc] at h
      cases h
      exact .destroyed (view_touch s i)
    | some ep =>
      rw [herr, hloc] at h
      obtain ⟨huse, op, hw, hat⟩ := handleConnectThenWrite_connected h
      exact .connected rfl herr hloc huse hw hat

theorem onlyAt_addOps_nil {s t : Skeleton} (h : SameViews s t) (i : SockId) :
    OnlyAt s t i ((view s i).addOps []) := by
  rw [View.addOps_nil]
  exact h.onlyAt i

theorem handleWriteThenReadL_outcome (s : Skeleton) (r : Completion) (i : SockId) :
    Outcome s (.writeThenReadL i) r i (handleWriteThenReadL s r.error i) := by
  have htouch : SameViews s (touch s i) := view_touch s i
  unfold handleWriteThenReadL
  split
  · exact .next (.writeFailed i) (onlyAt_addOps_nil (SameViews.refl s) i)
  · refine .of_sameViews htouch (.next (.readL i) ?_)
    exact toReadLThenReadV_onlyAt (touch s i) i

theorem handleWriteThenReadHTTPHead_outcome (cfg : Config) (s : Skeleton) (r : Completion)
    (i : SockId) :
    Outcome s (.writeThenReadHTTPHead i) r i (handleWriteThenReadHTTPHead cfg s r.error i) := by
  have htouch : SameViews s (touch s i) := view_touch s i
  unfold handleWriteThenReadHTTPHead
  split
  · exact .destroyed (SameViews.refl s)
  · obtain ⟨l, hl⟩ := asyncReadHTTPHead_onlyAt cfg (touch s i) i
    exact .of_sameViews htouch (.next (.readHead i l) hl)

theorem handleAnythingThenNothing_outcome (s : Skeleton) (r : Completion) (i : SockId) :
    Outcome s (.anythingThenNothing i) r i (handleAnythingThenNothing s r.error i) := by
  unfold handleAnythingThenNothing
  split
  · exact .destroyed (SameViews.refl s)
  · exact .next (.nothing i) (onlyAt_addOps_nil (view_touch s i) i)

theorem setFrameBuf_sameViews (cfg : Config) (s : Skeleton) (i : SockId) (len : Int) :
    SameViews s (setFrameBuf cfg s i len) := by
  unfold setFrameBuf
  split
  · have hbuf : SameViews s (setRecvBuf s i len.toNat) := fun j => view_setRecvBuf s i j _
    exact hbuf.trans (sameViews_setSock _ i fun _ => rfl)
  · exact SameViews.refl s

theorem handleReadLThenReadV_outcome (cfg : Config) (s : Skeleton) (r : Completion)
    (i : SockId) :
    Outcome s (.readLThenReadV i) r i (handleReadLThenReadV cfg s r.error i) := by
  have htouch : SameViews s (touch s i) := view_touch s i
  simp only [handleReadLThenReadV]
  split
  · exact .destroyed (SameViews.refl s)
  split
  · exact .destroyed htouch
  · exact .next (.readV i _)
      (((htouch.trans (setFrameBuf_sameViews cfg _ i _)).onlyAt i).push rfl)

theorem handleReadVThenProcess_outcome {cfg : Config} {s t : Skeleton} {r : Completion}
    {i : SockId} {len : Int} {byteNum : Nat} (hr : s.running = none)
    (h : handleReadVThenProcess cfg s r.error i byteNum = .ok t) :
    Outcome s (.readVThenProcess i len) r i t := by
  have htouch : SameViews s (touch s i) := view_touch s i
  simp only [handleReadVThenProcess] at h
  split at h
  · cases h
    exact .destroyed (SameViews.refl s)
  split at h
  · cases h
  · cases h
    exact .called (.lv i len) ((htouch.onlyAt i).callProcess hr)

/-- `HandleReadHTTPContentThenProcess` without an error calls the user's code. -/
theorem handleReadHTTPContentThenProcess_onlyAt {s : Skeleton} (i : SockId) (cont : Bool)
    (hr : s.running = none) :
    OnlyAt s (handleReadHTTPContentThenProcess s false i cont) i
      ((view s i).called ⟨i, true, cont⟩) := by
  have hset : SameViews s (setSock s i fun k =>
      { k with recvBuf := resize 0 k.recvBuf k.recvBufFilled, recvBufFilled := 0 }) :=
    sameViews_setSock s i fun _ => rfl
  have htouch := hset.trans (view_touch _ i)
  exact (htouch.onlyAt i).callProcess hr

theorem growRecvBuf_sameViews (s : Skeleton) (i : SockId) (total : Int) :
    SameViews s (growRecvBuf s i total) := by
  unfold growRecvBuf
  split
  · exact sameViews_setSock s i fun _ => rfl
  · exact SameViews.refl s

theorem growRecvBuf_running (s : Skeleton) (i : SockId) (total : Int) :
    (growRecvBuf s i total).running = s.running := by
  unfold growRecvBuf
  split <;> rfl

theorem OnlyAt.sendContinue {s t : Skeleton} {i : SockId} {v : View} (h : OnlyAt s t i v) :
    OnlyAt s (sendContinue t i) i (v.addOps [.anythingThenNothing i]) :=
  (h.sameViews fun j => view_setSendBuf t i j continueHead).push rfl

theorem readHTTPRest_outcome {s : Skeleton} (r : Completion) (i : SockId) (n l byteNum : Nat)
    (total : Int) (cont : Bool) (hr : s.running = none) :
    Outcome s (.readHTTPHead i n l) r i (readHTTPRest s i byteNum total cont) := by
  simp only [readHTTPRest]
  split
  · exact .called (.head i n l cont) (handleReadHTTPContentThenProcess_onlyAt i cont hr)
  · have hread := ((SameViews.refl s).onlyAt i).push
      (show (Op.readHTTPContent i byteNum (sizeT (int32 (total - byteNum)))).sock? = some i
        from rfl)
    split
    · have hsend := hread.sendContinue
      simp only [View.addOps, List.append_assoc, List.singleton_append] at hsend
      exact .next (.readContentContinue i n l byteNum _) hsend
    · exact .next (.readContent i n l byteNum _) hread

theorem handleReadHTTPHead_outcome (cfg : Config) {s : Skeleton} (r : Completion) (i : SockId)
    (n l byteNum : Nat) (hr : s.running = none) :
    Outcome s (.readHTTPHead i n l) r i (handleReadHTTPHead cfg s r.error i byteNum) := by
  have htouch : SameViews s (touch s i) := view_touch s i
  simp only [handleReadHTTPHead]
  split
  · exact .destroyed (SameViews.refl s)
  split
  · exact .next (.headDropped i n l) (onlyAt_addOps_nil htouch i)
  split
  · exact .destroyed htouch
  split
  · exact .next (.headDropped i n l) (onlyAt_addOps_nil htouch i)
  split
  · exact .destroyed htouch
  · rename_i pos _ _ _ _ _ len _ _
    have hgrow := htouch.trans (growRecvBuf_sameViews _ i (int32 (len + (pos + 4))))
    exact .of_sameViews hgrow (readHTTPRest_outcome r i n l byteNum _ _
      ((growRecvBuf_running _ i _).trans hr))

theorem readHTTPSome_outcome (cfg : Config) {s : Skeleton} (r : Completion) (i : SockId)
    (n l count : Nat) (hr : s.running = none) :
    Outcome s (.readHTTPHead i n l) r i (readHTTPSome cfg s r.error i n count) := by
  have hcond := httpHeadReadCompletionCondition_sameViews s r.error i (n + count)
  have hrun := (httpHeadReadCompletionCondition_running s r.error i (n + count)).trans hr
  simp only [readHTTPSome]
  split
  · exact .of_sameViews hcond (handleReadHTTPHead_outcome cfg r i n l _ hrun)
  · exact .next (.readMore i n l _ _) ((hcond.onlyAt i).push rfl)

theorem storeRecv_ok {s t : Skeleton} {i : SockId} {off : Nat} {data : List Byte}
    (h : storeRecv s i off data = .ok t) :
    t = setSock s i fun k => { k with recvBuf := overwrite k.recvBuf off data } := by
  simp only [storeRecv] at h
  split at h <;> cases h
  rfl

theorem storeRecv_running {s t : Skeleton} {i : SockId} {off : Nat} {data : List Byte}
    (h : storeRecv s i off data = .ok t) : t.running = s.running := by
  simp only [storeRecv] at h
  split at h <;> cases h
  rfl

/-- **The handler of an operation on a socket does one of four things to it**, and nothing to the
others: destroy it, start the operations that follow, call the user's code, or bring up the
connection. -/
theorem handle_outcome {cfg : Config} {s t : Skeleton} {op : Op} {r : Completion} {i : SockId}
    (hop : op.sock? = some i) (hr : s.running = none) (h : handle cfg s op r = .ok t) :
    Outcome s op r i t := by
  cases op with
  | connectThenWrite k buf =>
    cases hop
    exact handleConnectThenWrite_outcome h
  | writeThenReadL k =>
    cases hop
    cases h
    exact handleWriteThenReadL_outcome s r i
  | writeThenReadHTTPHead k =>
    cases hop
    cases h
    exact handleWriteThenReadHTTPHead_outcome cfg s r i
  | writeThenClose k =>
    cases hop
    cases h
    exact .destroyed (SameViews.refl s)
  | anythingThenNothing k =>
    cases hop
    cases h
    exact handleAnythingThenNothing_outcome s r i
  | readLThenReadV k =>
    cases hop
    obtain ⟨s', hs', rfl⟩ := Run.map_eq_ok.mp h
    exact .of_sameViews (fun j => view_storeRecv s i j hs')
      (handleReadLThenReadV_outcome cfg s' r i)
  | readVThenProcess k len =>
    cases hop
    simp only [handle] at h
    split at h
    · cases h
    · rename_i s' hs'
      exact .of_sameViews (fun j => view_storeRecv s i j hs')
        (handleReadVThenProcess_outcome ((storeRecv_running hs').trans hr) h)
  | readHTTPHead k n l =>
    cases hop
    obtain ⟨s', hs', rfl⟩ := Run.map_eq_ok.mp h
    exact .of_sameViews (fun j => view_storeRecv s i j hs')
      (readHTTPSome_outcome cfg r i n l _ ((storeRecv_running hs').trans hr))
  | readHTTPContent k o c =>
    cases hop
    obtain ⟨s', hs', rfl⟩ := Run.map_eq_ok.mp h
    refine .of_sameViews (fun j => view_storeRecv s i j hs') ?_
    cases r.error with
    | true => exact .next (.contentFailed i o c) (onlyAt_addOps_nil (SameViews.refl s') i)
    | false =>
      exact .called (.content i o c)
        (handleReadHTTPContentThenProcess_onlyAt i false ((storeRecv_running hs').trans hr))
  | accept k => cases hop
  | timeout => cases hop

/-! ## 4. The user's code returns -/

/-- The read that waits for the next message on a socket. -/
inductive ReadOp (i : SockId) : SocketType → Op → Prop
  | lv : ReadOp i .lv (.readLThenReadV i)
  | http (l : Nat) : ReadOp i .http (.readHTTPHead i 0 l)

theorem ReadOp.sock {i : SockId} {type : SocketType} {op : Op} (h : ReadOp i type op) :
    op.sock? = some i := by
  cases h <;> rfl

/-- The type of socket a handler that waits for the user's code belongs to. -/
def Running.type (r : Running) : SocketType := if r.http then .http else .lv

/-- What the number returned by the user's code does to the socket. -/
inductive After (s : Skeleton) (i : SockId) (type : SocketType) (ret : Int) : Skeleton → Prop
  | destroyed (hret : ret < 0) : After s i type ret (destroySocket s i).1
  | kept (hret : ret = 0 ∨ ret = 2) (hc : (view s i).conn.isClient = false) : After s i type ret s
  | idle {t : Skeleton} (hret : ret = 1) (hc : (view s i).conn.isClient = true)
      (h : OnlyAt s t i ((view s i).withConn { (view s i).conn with inUse := false })) :
      After s i type ret t
  | read {t : Skeleton} {op : Op} (hret : ret = 3) (hc : (view s i).conn.isClient = false)
      (hop : ReadOp i type op) (h : OnlyAt s t i ((view s i).addOps [op])) : After s i type ret t

theorem afterProcess_after {cfg : Config} {s t : Skeleton} {r : Running} {ret : Int}
    (h : afterProcess cfg s r ret = .ok t) : After s r.sock r.type ret t := by
  have hclient : (view s r.sock).conn.isClient = (s.heap r.sock).isClient := rfl
  simp only [afterProcess] at h
  split at h
  · rename_i hret
    cases h
    exact .destroyed hret
  split at h
  · rename_i hret
    split at h
    · cases h
    · rename_i hc
      cases h
      exact .kept (.inl hret) (by simpa [hclient] using hc)
  split at h
  · rename_i hret
    split at h
    · cases h
    rename_i hc
    split at h
    · cases h
    cases h
    exact .idle hret (by simpa [hclient] using hc) (((SameViews.refl s).onlyAt r.sock).setSock
      (fun c => { c with inUse := false }) fun _ => rfl)
  split at h
  · rename_i hret
    split at h
    · cases h
    split at h
    · cases h
    rename_i hc
    cases h
    exact .kept (.inr hret) (by simpa [hclient] using hc)
  split at h
  · rename_i hret
    split at h
    · cases h
    rename_i hc
    have hserver : (view s r.sock).conn.isClient = false := by simpa [hclient] using hc
    split at h
    · rename_i hhttp
      cases h
      obtain ⟨l, hl⟩ := asyncReadHTTPHead_onlyAt cfg s r.sock
      exact .read hret hserver (by simp only [Running.type, hhttp, if_true]; exact .http l) hl
    · rename_i hhttp
      cases h
      exact .read hret hserver (by simp only [Running.type, hhttp]; exact .lv)
        (toReadLThenReadV_onlyAt s r.sock)
  · cases h

/-- The handler goes on from a state in which it no longer waits. -/
theorem resumed_onlyAt {s : Skeleton} {r : Running} (hr : s.running = some r) (buf : List Byte) :
    OnlyAt s (setSock { s with running := none } r.sock fun k => { k with recvBuf := buf }) r.sock
      (view s r.sock).resumed := by
  have h : OnlyAt s { s with running := none } r.sock (view s r.sock).resumed := by
    refine ⟨rfl, fun j hj => ?_⟩
    have hne : (r.sock == j) = false := by simpa using hj.symm
    simp only [view, hr, Option.filter, hne, Bool.false_eq_true, if_false]
  exact h.sameViews (sameViews_setSock _ r.sock fun _ => rfl)

end Kknf.Asio2
