/-
# The frames of one socket

The results about framing are about the bytes of one socket: its receive buffer, the reads of LV
frames outstanding on it, and the buffers that were passed to the user's code.  `tape s j` collects
these.  A handler of another socket leaves the tape of `j` alone, and so does everything that only
works on flags, maps and writes.
-/
import Kknf.Lib.Run
import Kknf.Asio2.Sees

namespace Kknf.Asio2

open Kknf.Run

/-! ## 1. Tapes -/

/-- The buffers of socket `i` that were passed to `ProcessData` or to a callback. -/
def delivered (s : Skeleton) (i : SockId) : List (List Byte) :=
  (s.calls.filter fun c => c.sock == i).map Call.data

/-- The two reads of an LV frame. -/
def Op.readsFrame : Op → Bool
  | .readLThenReadV _ | .readVThenProcess _ _ => true
  | _ => false

/-- The bytes of a socket. -/
structure Tape where
  recvBuf : List Byte
  /-- the reads of frames outstanding -/
  reads : List Op
  /-- a handler of the socket waits for the user's code -/
  busy : Bool
  /-- the buffers passed to the user's code -/
  delivered : List (List Byte)

/-- A new read of a frame is outstanding, into an empty buffer for its length. -/
def Tape.armed (τ : Tape) (i : SockId) : Tape :=
  ⟨List.replicate 4 0, τ.reads ++ [.readLThenReadV i], τ.busy, τ.delivered⟩

def tape (s : Skeleton) (j : SockId) : Tape where
  recvBuf := (s.heap j).recvBuf
  reads := s.pending.filter fun op => op.sock? == some j && op.readsFrame
  busy := s.running.any fun r => r.sock == j
  delivered := (s.calls.filter fun c => c.sock == j).map Call.data

/-! ## 2. Elementary updates -/

section

variable (s : Skeleton) (i j : SockId)

theorem tape_setSock_self (f : SocketInfo → SocketInfo) :
    tape (setSock s i f) i = { tape s i with recvBuf := (f (s.heap i)).recvBuf } := by
  simp [tape, setSock]

theorem tape_setSock_other (f : SocketInfo → SocketInfo) (h : j ≠ i) :
    tape (setSock s i f) j = tape s j := by
  simp [tape, setSock, h]

/-- Changing what a tape does not hold leaves every tape alone. -/
theorem tape_setSock_keep (f : SocketInfo → SocketInfo) (hf : ∀ k, (f k).recvBuf = k.recvBuf) :
    tape (setSock s i f) j = tape s j := by
  rcases eq_or_ne j i with rfl | h
  · rw [tape_setSock_self, hf]
    rfl
  · exact tape_setSock_other s i j f h

@[simp] theorem tape_touch : tape (touch s i) j = tape s j :=
  tape_setSock_keep s i j _ fun _ => rfl

@[simp] theorem tape_closeSk : tape (closeSk s i) j = tape s j :=
  tape_setSock_keep s i j _ fun _ => rfl

@[simp] theorem tape_setSendBuf (buf : List Byte) : tape (setSendBuf s i buf) j = tape s j :=
  tape_setSock_keep s i j _ fun _ => rfl

@[simp] theorem tape_issue (cb : Option CallBack) : tape (issue s i cb) j = tape s j := rfl

@[simp] theorem tape_insertTCPServerSocket (key : TCPEndpoint) :
    tape (insertTCPServerSocket s key i).1 j = tape s j := by
  simp only [insertTCPServerSocket]
  split <;> rfl

@[simp] theorem tape_destroySocket : tape (destroySocket s i).1 j = tape s j := by
  simp only [destroySocket]
  split
  · split
    · exact tape_closeSk s i j
    · exact tape_closeSk s i j
  · exact tape_closeSk s i j

@[simp] theorem tape_sweepServerSocket (milliseconds : Int) :
    tape (sweepServerSocket s milliseconds) j = tape s j := by
  have hbuf : ((sweepServerSocket s milliseconds).heap j).recvBuf = (s.heap j).recvBuf := by
    simp only [sweepServerSocket]
    split <;> rfl
  simp only [tape, hbuf]
  rfl

/-- An operation that does not read a frame of the socket is started. -/
theorem tape_push {op : Op} (h : op.sock? = some j → op.readsFrame = false) :
    tape (push s op) j = tape s j := by
  have hop : (op.sock? == some j && op.readsFrame) = false := by
    rcases eq_or_ne op.sock? (some j) with hs | hs
    · simp [h hs]
    · simp [hs]
  simp [tape, push, hop]

theorem tape_push_own {op : Op} (hop : op.sock? = some j) (hread : op.readsFrame = true) :
    tape (push s op) j = { tape s j with reads := (tape s j).reads ++ [op] } := by
  simp [tape, push, hop, hread]

theorem tape_pop (op : Op) :
    tape (pop s op) j = { tape s j with reads := (tape s j).reads.erase op } := by
  simp [tape, pop, List.erase_filter]

/-- An operation that does not read a frame of the socket ends. -/
theorem tape_pop_other {op : Op} (h : op.sock? = some j → op.readsFrame = false) :
    tape (pop s op) j = tape s j := by
  have hop : op ∉ (tape s j).reads := fun hmem => by
    have hp := (List.mem_filter.mp hmem).2
    simp only [Bool.and_eq_true, beq_iff_eq] at hp
    simp [h hp.1] at hp
  rw [tape_pop, List.erase_of_not_mem hop]

theorem tape_alloc_self (k : SocketInfo) :
    tape (alloc s k) s.next = { tape s s.next with recvBuf := k.recvBuf } := by
  simp [tape, alloc]

theorem tape_alloc_other (k : SocketInfo) (h : j ≠ s.next) : tape (alloc s k) j = tape s j := by
  simp [tape, alloc, h]

@[simp] theorem tape_setRecvBuf_self (n : Nat) :
    tape (setRecvBuf s i n) i = { tape s i with recvBuf := List.replicate n 0 } :=
  tape_setSock_self s i _

theorem tape_setRecvBuf_other (n : Nat) (h : j ≠ i) : tape (setRecvBuf s i n) j = tape s j :=
  tape_setSock_other s i j _ h

theorem tape_callProcess_self (r : Running) :
    tape (callProcess s r) r.sock = { tape s r.sock with
      busy := true
      delivered := (tape s r.sock).delivered ++ [(s.heap r.sock).recvBuf] } := by
  simp [tape, callProcess]

theorem tape_callProcess_other (r : Running) (hr : s.running = none) (h : j ≠ r.sock) :
    tape (callProcess s r) j = tape s j := by
  simp [tape, callProcess, hr, h.symm]

end

section

variable {s t : Skeleton} {i j : SockId}

theorem tape_storeRecv_other {off : Nat} {data : List Byte} (h : storeRecv s i off data = .ok t)
    (hj : j ≠ i) : tape t j = tape s j := by
  rw [storeRecv_ok h]
  exact tape_setSock_other s i j _ hj

/-! ## 3. What a handler does to the tapes of the others -/

theorem tape_toReadLThenReadV_other (hj : j ≠ i) : tape (toReadLThenReadV s i) j = tape s j := by
  have hop : (Op.readLThenReadV i).sock? = some j → (Op.readLThenReadV i).readsFrame = false :=
    fun h => absurd (Option.some.inj h).symm hj
  rw [toReadLThenReadV, tape_push _ _ hop, tape_setRecvBuf_other s i j 4 hj]

theorem tape_toReadLThenReadV_self : tape (toReadLThenReadV s i) i = (tape s i).armed i := by
  rw [toReadLThenReadV, tape_push_own _ _ rfl rfl, tape_setRecvBuf_self]
  rfl

theorem tape_httpHeadReadCompletionCondition (error : Bool) (byteNum : Nat) :
    tape (httpHeadReadCompletionCondition s error i byteNum).1 j = tape s j := by
  have h := tape_setSock_keep s i j (fun k => { k with
    recvBufFilled := (s.heap i).recvBufFilled + byteNum }) fun _ => rfl
  simp only [httpHeadReadCompletionCondition]
  split
  · rfl
  · split
    · exact h
    · split <;> exact h

theorem tape_asyncReadHTTPHead_other (cfg : Config) (hj : j ≠ i) :
    tape (asyncReadHTTPHead cfg s i) j = tape s j := by
  simp only [asyncReadHTTPHead]
  rw [tape_push _ _ fun _ => rfl, tape_httpHeadReadCompletionCondition,
    tape_setRecvBuf_other s i j _ hj]

@[simp] theorem tape_sendContinue : tape (sendContinue s i) j = tape s j := by
  rw [sendContinue, tape_push _ _ fun _ => rfl, tape_setSendBuf]

theorem tape_setFrameBuf_other (cfg : Config) (len : Int) (hj : j ≠ i) :
    tape (setFrameBuf cfg s i len) j = tape s j := by
  unfold setFrameBuf
  split
  · rw [tape_setSock_other _ i j _ hj, tape_setRecvBuf_other s i j _ hj]
  · rfl

theorem tape_growRecvBuf_other (total : Int) (hj : j ≠ i) :
    tape (growRecvBuf s i total) j = tape s j := by
  unfold growRecvBuf
  split
  · exact tape_setSock_other s i j _ hj
  · rfl

theorem tape_handleConnectThenWrite {error : Bool} {buf : List Byte}
    {localEndpoint : Option TCPEndpoint}
    (h : handleConnectThenWrite s error i buf localEndpoint = .ok t) (j : SockId) :
    tape t j = tape s j := by
  simp only [handleConnectThenWrite] at h
  split at h
  · cases h
    exact tape_destroySocket s i j
  split at h
  · cases h
    rw [tape_destroySocket, tape_touch]
  split at h
  · cases h
  rename_i ep _
  have hset := tape_setSock_keep (touch s i) i j (fun k =>
    { k with localEndpoint := ep, isConnected := true, inUse := true, sendBuf := buf }) fun _ => rfl
  rw [tape_touch] at hset
  split at h
  · cases h
    exact (tape_push _ _ fun _ => rfl).trans hset
  · cases h
    exact (tape_push _ _ fun _ => rfl).trans hset
  · cases h

theorem tape_handleReadHTTPContentThenProcess_other (error cont : Bool) (hr : s.running = none)
    (hj : j ≠ i) : tape (handleReadHTTPContentThenProcess s error i cont) j = tape s j := by
  unfold handleReadHTTPContentThenProcess
  split
  · rfl
  · exact (tape_callProcess_other (touch (setSock s i fun k =>
      { k with recvBuf := resize 0 k.recvBuf k.recvBufFilled, recvBufFilled := 0 }) i) j
      ⟨i, true, cont⟩ hr hj).trans ((tape_touch _ i j).trans (tape_setSock_other s i j _ hj))

theorem tape_readHTTPRest_other (byteNum : Nat) (total : Int) (cont : Bool)
    (hr : s.running = none) (hj : j ≠ i) :
    tape (readHTTPRest s i byteNum total cont) j = tape s j := by
  simp only [readHTTPRest]
  split
  · exact tape_handleReadHTTPContentThenProcess_other false cont hr hj
  · split
    · rw [tape_sendContinue, tape_push _ _ fun _ => rfl]
    · exact tape_push _ _ fun _ => rfl

theorem tape_handleReadHTTPHead_other (cfg : Config) (error : Bool) (byteNum : Nat)
    (hr : s.running = none) (hj : j ≠ i) :
    tape (handleReadHTTPHead cfg s error i byteNum) j = tape s j := by
  simp only [handleReadHTTPHead]
  split
  · exact tape_destroySocket s i j
  split
  · exact tape_touch s i j
  split
  · rw [tape_destroySocket, tape_touch]
  split
  · exact tape_touch s i j
  split
  · rw [tape_destroySocket, tape_touch]
  · rename_i pos _ _ _ _ _ len _ _
    have hr' := (growRecvBuf_running (touch s i) i (int32 (len + (pos + 4)))).trans hr
    rw [tape_readHTTPRest_other _ _ _ hr' hj, tape_growRecvBuf_other _ hj, tape_touch]

theorem tape_readHTTPSome_other (cfg : Config) (error : Bool) (total count : Nat)
    (hr : s.running = none) (hj : j ≠ i) :
    tape (readHTTPSome cfg s error i total count) j = tape s j := by
  have hcond := tape_httpHeadReadCompletionCondition (s := s) (i := i) (j := j) error
    (total + count)
  have hrun := (httpHeadReadCompletionCondition_running s error i (total + count)).trans hr
  simp only [readHTTPSome]
  split
  · exact (tape_handleReadHTTPHead_other cfg error _ hrun hj).trans hcond
  · exact (tape_push _ _ fun _ => rfl).trans hcond

/-- **The handler of an operation leaves the tapes of the other sockets alone.** -/
theorem tape_handle_other {cfg : Config} {op : Op} {r : Completion} (hop : op.sock? = some i)
    (hr : s.running = none) (h : handle cfg s op r = .ok t) (hj : j ≠ i) :
    tape t j = tape s j := by
  cases op with
  | connectThenWrite k buf => exact tape_handleConnectThenWrite h j
  | writeThenReadL k =>
    cases hop
    cases h
    unfold handleWriteThenReadL
    split
    · rfl
    · rw [tape_toReadLThenReadV_other hj, tape_touch]
  | writeThenReadHTTPHead k =>
    cases hop
    cases h
    unfold handleWriteThenReadHTTPHead
    split
    · exact tape_destroySocket s i j
    · rw [tape_asyncReadHTTPHead_other cfg hj, tape_touch]
  | writeThenClose k =>
    cases h
    exact tape_destroySocket s k j
  | anythingThenNothing k =>
    cases h
    unfold handleAnythingThenNothing
    split
    · exact tape_destroySocket s k j
    · exact tape_touch s k j
  | readLThenReadV k =>
    cases hop
    obtain ⟨s', hs', rfl⟩ := map_eq_ok.mp h
    rw [← tape_storeRecv_other hs' hj]
    simp only [handleReadLThenReadV]
    split
    · exact tape_destroySocket s' i j
    split
    · rw [tape_destroySocket, tape_touch]
    · rw [tape_push, tape_setFrameBuf_other cfg _ hj, tape_touch]
      exact fun h => absurd (Option.some.inj h).symm hj
  | readVThenProcess k len =>
    cases hop
    simp only [handle] at h
    split at h
    · cases h
    rename_i s' hs'
    have hr' := (storeRecv_running hs').trans hr
    rw [← tape_storeRecv_other hs' hj]
    simp only [handleReadVThenProcess] at h
    split at h
    · cases h
      exact tape_destroySocket s' i j
    split at h
    · cases h
    · cases h
      exact (tape_callProcess_other (touch s' i) j ⟨i, false, false⟩ hr' hj).trans
        (tape_touch s' i j)
  | readHTTPHead k n l =>
    cases hop
    obtain ⟨s', hs', rfl⟩ := map_eq_ok.mp h
    rw [← tape_storeRecv_other hs' hj]
    exact tape_readHTTPSome_other cfg _ _ _ ((storeRecv_running hs').trans hr) hj
  | readHTTPContent k o c =>
    cases hop
    obtain ⟨s', hs', rfl⟩ := map_eq_ok.mp h
    rw [← tape_storeRecv_other hs' hj]
    exact tape_handleReadHTTPContentThenProcess_other _ _ ((storeRecv_running hs').trans hr) hj
  | accept k => cases hop
  | timeout => cases hop

/-! ## 4. What a step does to the tape of a socket -/

/-- The tape of `j` is as before, or `j` has just been created. -/
def KeepsTape (s t : Skeleton) (j : SockId) : Prop :=
  tape t j = tape s j ∨ j = s.next ∧ ∃ b, tape t j = { tape s j with recvBuf := b }

theorem KeepsTape.refl (s : Skeleton) (j : SockId) : KeepsTape s s j := .inl rfl

theorem KeepsTape.trans_eq {u : Skeleton} (h : KeepsTape s t j) (hu : tape u j = tape t j) :
    KeepsTape s u j := by
  unfold KeepsTape
  rw [hu]
  exact h

theorem keepsTape_alloc (s : Skeleton) (j : SockId) (k : SocketInfo) :
    KeepsTape s (alloc s k) j := by
  rcases eq_or_ne j s.next with rfl | hj
  · exact .inr ⟨rfl, _, tape_alloc_self s k⟩
  · exact .inl (tape_alloc_other s j k hj)

theorem toConnectThenWrite_keepsTape (s : Skeleton) (j : SockId) (remote : TCPEndpoint)
    (type : SocketType) (buf : List Byte) (cb : Option CallBack) :
    KeepsTape s (toConnectThenWrite s remote type buf cb) j := by
  have h := keepsTape_alloc s j { type := type, accessTime := s.clock, cb := cb, sendBuf := buf,
                                  remoteEndpoint := remote, isClient := true }
  exact h.trans_eq (tape_push _ _ fun _ => rfl)

theorem tape_toWriteThenReadOn {buf : List Byte} (h : toWriteThenReadOn s i buf = .ok t)
    (j : SockId) : tape t j = tape s j := by
  have hset := tape_setSock_keep s i j (fun k =>
    { k with inUse := k.isClient || k.inUse, sendBuf := buf }) fun _ => rfl
  obtain ⟨-, op, hop, rfl⟩ := toWriteThenReadOn_ok h
  rcases hop with ⟨-, rfl⟩ | ⟨-, rfl⟩
  · rw [tape_push _ _ fun _ => rfl, hset]
  · rw [tape_push _ _ fun _ => rfl, hset]

/-- **A request touches the tape of no socket that exists.** -/
theorem request_keepsTape {cfg : Config} {q : Request} (h : request cfg s q = .ok t)
    (j : SockId) : KeepsTape s t j := by
  cases q with
  | toWriteThenRead remote type buf iAmServer =>
    obtain ⟨⟨u, n⟩, hu, rfl⟩ := map_eq_ok.mp h
    rcases toWriteThenRead_ok hu with ⟨-, rfl⟩ | ⟨-, rfl⟩ | ⟨i, -, hw⟩
    · exact .refl _ j
    · exact toConnectThenWrite_keepsTape s j _ _ _ _
    · exact .inl ((tape_toWriteThenReadOn hw j).trans (tape_issue s _ j none))
  | toWriteThenCallBack remote type buf iAmServer cb =>
    obtain ⟨⟨u, n⟩, hu, rfl⟩ := map_eq_ok.mp h
    rcases toWriteThenCallBack_ok hu with rfl | rfl | ⟨i, -, hw⟩
    · exact .refl _ j
    · exact toConnectThenWrite_keepsTape s j _ _ _ _
    · refine .inl ((tape_toWriteThenReadOn hw j).trans ?_)
      exact tape_setSock_keep _ _ j _ fun _ => rfl
  | toWriteThenClose remote buf iAmServer =>
    obtain ⟨⟨u, n⟩, hu, rfl⟩ := map_eq_ok.mp h
    obtain ⟨i, -, rfl⟩ := toWriteThenClose_ok hu
    exact .inl ((tape_push _ _ fun _ => rfl).trans (tape_setSendBuf s _ j buf))
  | toConnectThenWrite remote type buf cb =>
    cases h
    exact toConnectThenWrite_keepsTape s j _ _ _ _
  | toWriteThenReadSync remote type buf o =>
    obtain ⟨⟨u, n⟩, hu, rfl⟩ := map_eq_ok.mp h
    rcases toWriteThenReadSync_ok hu with rfl | ⟨i, -, hend⟩ | ⟨-, hend⟩
    · exact .refl _ j
    · rcases hend with rfl | rfl
      · exact .inl (tape_setSendBuf s _ j buf)
      · exact .inl ((tape_destroySocket _ _ j).trans (tape_setSendBuf s _ j buf))
    · have hnew := keepsTape_alloc s j
        { type := type, accessTime := s.clock, remoteEndpoint := remote,
          isConnected := true, inUse := true, sendBuf := buf }
      rcases hend with rfl | rfl
      · exact hnew
      · exact hnew.trans_eq (tape_destroySocket _ _ j)
  | addTCPAcceptor endpoint type =>
    obtain ⟨⟨u, n⟩, hu, rfl⟩ := map_eq_ok.mp h
    obtain ⟨-, rfl⟩ := addTCPAcceptor_ok hu
    have hnew := keepsTape_alloc s j { type := type, accessTime := s.clock }
    exact hnew.trans_eq (tape_push _ _ fun _ => rfl)

theorem takeAccepted_keepsTape (s : Skeleton) (key : TCPEndpoint) (a : TCPAcceptorInfo)
    (j : SockId) : KeepsTape s (takeAccepted s key a) j := by
  have hset := tape_setSock_keep s a.skInfo j (fun k =>
    { k with isConnected := true, inUse := true, type := a.type, closed := false }) fun _ => rfl
  have hnew := keepsTape_alloc { (setSock s a.skInfo fun k =>
    { k with isConnected := true, inUse := true, type := a.type, closed := false }) with
      tcpAcceptorMap := s.tcpAcceptorMap.set key { a with skInfo := s.next } } j
    { type := a.type, accessTime := s.clock }
  rcases hnew with h | ⟨hj, b, h⟩
  · exact .inl (h.trans hset)
  · refine .inr ⟨hj, b, h.trans ?_⟩
    exact congrArg (fun τ : Tape => { τ with recvBuf := b }) hset

theorem takeAccepted_type {key : TCPEndpoint} {a : TCPAcceptorInfo} (hlt : a.skInfo < s.next) :
    ((takeAccepted s key a).heap a.skInfo).type = a.type := by
  have hne : a.skInfo ≠ s.next := hlt.ne
  simp [takeAccepted, alloc, setSock, hne]

/-- Accepting a connection starts a read on its socket, of the acceptor's type, and touches the tape
of no other socket. -/
theorem handleAccept_tape {cfg : Config} {error : Bool} {key : TCPEndpoint}
    {remote loc : Option TCPEndpoint}
    (hcreated : ∀ a, s.tcpAcceptorMap.find key = some a → a.skInfo < s.next)
    (h : handleAccept cfg s error key remote loc = .ok t) (j : SockId) :
    KeepsTape s t j ∨ (j < t.next ∧ (t.heap j).type = .http) ∨ tape t j = (tape s j).armed j := by
  simp only [handleAccept] at h
  split at h
  · cases h
  split at h
  · cases h
  rename_i a ha
  have hlt := hcreated a ha
  have htake := takeAccepted_keepsTape s key a j
  split at h
  · rename_i rem l₀
    have hset := tape_setSock_other (takeAccepted s key a) a.skInfo j (fun k =>
      { k with remoteEndpoint := rem, localEndpoint := l₀ })
    split at h
    · cases h
    split at h
    · rename_i htype
      cases h
      rcases eq_or_ne j a.skInfo with rfl | hj
      · refine .inr (.inl ?_)
        obtain ⟨l, hread⟩ := asyncReadHTTPHead_onlyAt cfg (setRecvBuf (insertTCPServerSocket
          (setSock (takeAccepted s key a) a.skInfo fun k =>
            { k with remoteEndpoint := rem, localEndpoint := l₀ }) rem a.skInfo).1
          a.skInfo cfg.initRecvBufSize) a.skInfo
        have hconn := congrArg (fun v : View => v.conn.type) hread.own
        have hnext := congrArg View.created hread.own
        refine ⟨Eq.mpr hnext ?_, Eq.trans hconn ?_⟩
        · have hnew : (view (insertTCPServerSocket (setSock (takeAccepted s key a) a.skInfo fun k =>
              { k with remoteEndpoint := rem, localEndpoint := l₀ }) rem a.skInfo).1
              a.skInfo).created := by
            simp only [insertTCPServerSocket]
            split <;> exact Nat.lt_succ_of_lt hlt
          rw [View.addOps_created, view_setRecvBuf]
          exact hnew
        rw [View.addOps_conn, view_setRecvBuf]
        have hins : (view (insertTCPServerSocket (setSock (takeAccepted s key a) a.skInfo fun k =>
            { k with remoteEndpoint := rem, localEndpoint := l₀ }) rem a.skInfo).1
            a.skInfo).conn.type = ((takeAccepted s key a).heap a.skInfo).type := by
          simp only [insertTCPServerSocket]
          split <;> simp [view, SocketInfo.conn, setSock]
        rw [hins, takeAccepted_type hlt, htype]
      · refine .inl (htake.trans_eq ?_)
        rw [tape_push _ _ fun _ => rfl, toReadHTTPHeadThenReadHTTPContent,
          tape_asyncReadHTTPHead_other cfg hj, tape_setRecvBuf_other _ _ _ _ hj,
          tape_insertTCPServerSocket, hset hj]
    · cases h
      rcases eq_or_ne j a.skInfo with rfl | hj
      · refine .inr (.inr ?_)
        have hold : tape (takeAccepted s key a) a.skInfo = tape s a.skInfo :=
          htake.resolve_right fun hnew => absurd hnew.1 hlt.ne
        rw [tape_push _ _ fun _ => rfl, tape_toReadLThenReadV_self, tape_setRecvBuf_self,
          tape_insertTCPServerSocket, tape_setSock_self, hold]
        rfl
      · refine .inl (htake.trans_eq ?_)
        rw [tape_push _ _ fun _ => rfl, tape_toReadLThenReadV_other hj,
          tape_setRecvBuf_other _ _ _ _ hj, tape_insertTCPServerSocket, hset hj]
    · cases h
  · cases h
    exact .inl (htake.trans_eq (tape_closeSk _ _ j))

end

end Kknf.Asio2
