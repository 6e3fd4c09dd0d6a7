/-
# Why a step fails

Every fault of the skeleton, with the event it happens at and what the state is like then: the
counterpart of `Sees`, which says what a step that goes through does.  `step_faults` is the
inversion of `step` at a fault; the results about single assertions are case analyses of it.
-/
import Kknf.Lib.Run
import Kknf.Asio2.Sees

namespace Kknf.Asio2

open Kknf.Run

/-- The socket `ToWriteThenRead` and `ToWriteThenClose` find. -/
def foundFor (s : Skeleton) (remote : TCPEndpoint) (iAmServer : Bool) : Option SockId :=
  if iAmServer then findTCPServerSocket s remote else findIdleTCPClientSocket s remote

/-- The event ends in the fault, and why. -/
inductive Faults (s : Skeleton) : Event → Fault → Prop
  | disabled {e : Event} : Faults s e .disabled
  | acceptorTaken {key : TCPEndpoint} {type : SocketType} {a : TCPAcceptorInfo}
      (ha : s.tcpAcceptorMap.find key = some a) :
      Faults s (.request (.addTCPAcceptor key type)) .exit
  | acceptError {key : TCPEndpoint} {r : Completion} (herr : r.error = true) :
      Faults s (.complete (.accept key) r) .exit
  /-- an idle client is not in use, so only a server can find the socket -/
  | writeInUse {remote : TCPEndpoint} {type : SocketType} {buf : List Byte} {i : SockId}
      (hi : findTCPServerSocket s remote = some i) (hc : (s.heap i).isClient = true)
      (hu : (s.heap i).inUse = true) :
      Faults s (.request (.toWriteThenRead remote type buf true)) .assertNotInUseInWrite
  | writeType {remote : TCPEndpoint} {type : SocketType} {buf : List Byte} {srv : Bool} {i : SockId}
      (hi : foundFor s remote srv = some i) (hw : writeOp (s.heap i).type i = none) :
      Faults s (.request (.toWriteThenRead remote type buf srv)) .assertSocketType
  | callBackType {remote : TCPEndpoint} {type : SocketType} {buf : List Byte} {srv : Bool}
      {cb : Option CallBack} {i : SockId} (hi : findIdleTCPClientSocket s remote = some i)
      (hw : writeOp (s.heap i).type i = none) :
      Faults s (.request (.toWriteThenCallBack remote type buf srv cb)) .assertSocketType
  | closeNull {remote : TCPEndpoint} {buf : List Byte} {srv : Bool}
      (hi : foundFor s remote srv = none) :
      Faults s (.request (.toWriteThenClose remote buf srv)) .nullPointer
  | syncType {remote : TCPEndpoint} {type : SocketType} {buf : List Byte} {o : SyncOutcome}
      {i : SockId} (hi : findIdleTCPClientSocket s remote = some i) (hne : type ≠ (s.heap i).type) :
      Faults s (.request (.toWriteThenReadSync remote type buf o)) .assertSocketType
  | syncOverrun {remote : TCPEndpoint} {type : SocketType} {buf : List Byte} {o : SyncOutcome} :
      Faults s (.request (.toWriteThenReadSync remote type buf o)) .overrun
  | readOverrun {op : Op} {r : Completion} (hp : op ∈ s.pending) :
      Faults s (.complete op r) .overrun
  | connectInUse {i : SockId} {buf : List Byte} {r : Completion}
      (hp : .connectThenWrite i buf ∈ s.pending) (hu : (s.heap i).inUse = true) :
      Faults s (.complete (.connectThenWrite i buf) r) .assertNotInUseInConnect
  | connectType {i : SockId} {buf : List Byte} {r : Completion}
      (hp : .connectThenWrite i buf ∈ s.pending) (hw : writeOp (s.heap i).type i = none) :
      Faults s (.complete (.connectThenWrite i buf) r) .assertSocketType
  | byteNum {i : SockId} {len : Int} {r : Completion} (hp : .readVThenProcess i len ∈ s.pending) :
      Faults s (.complete (.readVThenProcess i len) r) .assertByteNum
  | insertServer {key rem : TCPEndpoint} {r : Completion} {i : SockId}
      (hrem : r.remoteEndpoint = some rem) (hloc : r.localEndpoint ≠ none)
      (hi : findTCPServerSocket s rem = some i) :
      Faults s (.complete (.accept key) r) .assertInsertServer
  | acceptType {key : TCPEndpoint} {a : TCPAcceptorInfo} {r : Completion}
      (ha : s.tcpAcceptorMap.find key = some a) (hhttp : a.type ≠ .http) (hlv : a.type ≠ .lv) :
      Faults s (.complete (.accept key) r) .assertSocketType
  | returnedInUse {r : Running} {ret : Int} {buf : List Byte} (hr : s.running = some r)
      (hu : (s.heap r.sock).inUse = false) : Faults s (.returned ret buf) .assertInUse
  | returnedIsClient {r : Running} {buf : List Byte} (hr : s.running = some r)
      (hc : (s.heap r.sock).isClient = false) : Faults s (.returned 1 buf) .assertIsClient
  | returnedNotClient {r : Running} {ret : Int} {buf : List Byte} (hr : s.running = some r)
      (hret : ret = 0 ∨ ret = 2 ∨ ret = 3) (hc : (s.heap r.sock).isClient = true) :
      Faults s (.returned ret buf) .assertNotClient
  | returnedUnknown {ret : Int} {buf : List Byte} (hret : 3 < ret) :
      Faults s (.returned ret buf) .assertReturn

section

variable {cfg : Config} {s : Skeleton} {f : Fault}

/-! ## 1. Requests -/

theorem toWriteThenReadOn_error {i : SockId} {buf : List Byte}
    (h : toWriteThenReadOn s i buf = .error f) :
    (f = .assertNotInUseInWrite ∧ (s.heap i).isClient = true ∧ (s.heap i).inUse = true) ∨
      (f = .assertSocketType ∧ writeOp (s.heap i).type i = none) := by
  simp only [toWriteThenReadOn] at h
  split at h
  · rename_i hboth
    cases h
    exact .inl ⟨rfl, Bool.and_eq_true_iff.mp hboth⟩
  · cases htype : (s.heap i).type <;> simp only [htype] at h <;> cases h
    all_goals exact .inr ⟨rfl, rfl⟩

theorem readSync_error {i : SockId} {o : SyncOutcome} (h : readSync cfg s i o = .error f) :
    f = .disabled ∨ f = .overrun := by
  simp only [readSync] at h
  split at h
  · cases h
  split at h
  · cases h
    exact .inl rfl
  split at h
  · cases h
  split at h
  · cases h
    exact .inr rfl
  split at h
  · cases h
  split at h
  · cases h
    exact .inl rfl
  split at h <;> cases h
  exact .inr rfl

theorem Faults.of_readSync {s' : Skeleton} {remote : TCPEndpoint} {type : SocketType}
    {buf : List Byte} {i : SockId} {o : SyncOutcome} (h : readSync cfg s' i o = .error f) :
    Faults s (.request (.toWriteThenReadSync remote type buf o)) f := by
  rcases readSync_error h with rfl | rfl
  · exact .disabled
  · exact .syncOverrun

theorem request_faults {q : Request} (h : request cfg s q = .error f) :
    Faults s (.request q) f := by
  cases q with
  | toWriteThenRead remote type buf iAmServer =>
    have hw := map_eq_error h
    simp only [toWriteThenRead] at hw
    split at hw
    · split at hw <;> cases hw
    rename_i i hi
    split at hw
    · cases hw
    rename_i hf
    cases hw
    rcases toWriteThenReadOn_error hf with ⟨rfl, hc, hu⟩ | ⟨rfl, htype⟩
    · cases iAmServer with
      | true => exact .writeInUse hi hc hu
      | false =>
        obtain ⟨-, hnu, -⟩ := findIdleTCPClientSocket_some hi
        exact absurd (hnu.symm.trans hu) (by simp)
    · exact .writeType hi htype
  | toWriteThenCallBack remote type buf iAmServer cb =>
    have hw := map_eq_error h
    simp only [toWriteThenCallBack] at hw
    split at hw
    · split at hw <;> cases hw
    rename_i i hi
    split at hw
    · cases hw
    rename_i hf
    cases hw
    have hsock : ((setSock (issue s i cb) i fun k => { k with cb := cb }).heap i) =
        { s.heap i with cb := cb } := by simp [setSock, issue]
    rcases toWriteThenReadOn_error hf with ⟨rfl, hc, hu⟩ | ⟨rfl, htype⟩
    · obtain ⟨-, hnu, -⟩ := findIdleTCPClientSocket_some hi
      rw [hsock] at hu
      exact absurd (hnu.symm.trans hu) (by simp)
    · rw [hsock] at htype
      exact .callBackType hi htype
  | toWriteThenClose remote buf iAmServer =>
    have hw := map_eq_error h
    simp only [toWriteThenClose] at hw
    split at hw <;> cases hw
    rename_i hi
    exact .closeNull hi
  | toConnectThenWrite remote type buf cb => cases h
  | toWriteThenReadSync remote type buf o =>
    have hw := map_eq_error h
    simp only [toWriteThenReadSync] at hw
    split at hw
    · rename_i i hi
      split at hw
      · rename_i hne
        cases hw
        exact .syncType hi hne
      split at hw
      · cases hw
      split at hw
      · exact .of_readSync hw
      · cases hw
    · split at hw
      · cases hw
      split at hw
      · cases hw
      split at hw
      · exact .of_readSync hw
      · cases hw
  | addTCPAcceptor key type =>
    have hw := map_eq_error h
    simp only [addTCPAcceptor] at hw
    cases ha : s.tcpAcceptorMap.find key with
    | none => simp [insertTCPAcceptor, alloc, ha] at hw
    | some a =>
      split at hw <;> cases hw
      exact .acceptorTaken ha

/-! ## 2. Handlers -/

theorem storeRecv_error {i : SockId} {off : Nat} {data : List Byte}
    (h : storeRecv s i off data = .error f) : f = .overrun := by
  simp only [storeRecv] at h
  split at h <;> cases h
  rfl

theorem handleAccept_faults {key : TCPEndpoint} {r : Completion}
    (h : handleAccept cfg (pop s (.accept key)) r.error key r.remoteEndpoint r.localEndpoint =
      .error f) : Faults s (.complete (.accept key) r) f := by
  simp only [handleAccept, pop] at h
  split at h
  · rename_i herr
    cases h
    exact .acceptError herr
  split at h
  · cases h
    exact .disabled
  rename_i a ha
  split at h
  · rename_i rem loc hrem hloc
    cases hf : s.tcpServerSocketMap.find rem with
    | some i =>
      simp only [insertTCPServerSocket, setSock, takeAccepted, alloc, hf] at h
      cases h
      exact .insertServer hrem (by simp [hloc]) hf
    | none =>
      simp only [insertTCPServerSocket, setSock, takeAccepted, alloc, hf] at h
      split at h
      · rename_i hlt
        exact absurd hlt (lt_irrefl 0)
      · split at h
        · cases h
        · cases h
        · rename_i hhttp hlv
          cases h
          exact .acceptType ha hhttp hlv
  · cases h

theorem handle_faults {op : Op} {r : Completion} (hp : op ∈ s.pending)
    (h : handle cfg (pop s op) op r = .error f) : Faults s (.complete op r) f := by
  have hstore : ∀ {i off data}, storeRecv (pop s op) i off data = .error f →
      Faults s (.complete op r) f := by
    intro i off data hf
    rw [storeRecv_error hf]
    exact .readOverrun hp
  cases op with
  | connectThenWrite i buf =>
    simp only [handle, handleConnectThenWrite] at h
    split at h
    · cases h
    split at h
    · cases h
    split at h
    · rename_i hu
      cases h
      exact .connectInUse hp hu
    · have htype : ((pop s (.connectThenWrite i buf)).heap i).type = (s.heap i).type := rfl
      rw [htype] at h
      cases hk : (s.heap i).type <;> simp only [hk] at h <;> cases h
      all_goals exact .connectType hp (by rw [hk]; rfl)
  | writeThenReadL i => cases h
  | writeThenReadHTTPHead i => cases h
  | writeThenClose i => cases h
  | anythingThenNothing i => cases h
  | readLThenReadV i => exact hstore (map_eq_error h)
  | readVThenProcess i len =>
    simp only [handle] at h
    split at h
    · rename_i hf
      cases h
      exact hstore hf
    · simp only [handleReadVThenProcess] at h
      split at h
      · cases h
      split at h <;> cases h
      exact .byteNum hp
  | readHTTPHead i n l => exact hstore (map_eq_error h)
  | readHTTPContent i o c => exact hstore (map_eq_error h)
  | accept key => exact handleAccept_faults h
  | timeout => cases h

/-! ## 3. The user's code returns -/

/-- What the assertions after the user's code say. -/
theorem afterProcess_error {r : Running} {ret : Int} (h : afterProcess cfg s r ret = .error f) :
    (f = .assertInUse ∧ (s.heap r.sock).inUse = false) ∨
      (f = .assertIsClient ∧ ret = 1 ∧ (s.heap r.sock).isClient = false) ∨
      (f = .assertNotClient ∧ (ret = 0 ∨ ret = 2 ∨ ret = 3) ∧
        (s.heap r.sock).isClient = true) ∨
      (f = .assertReturn ∧ 3 < ret) := by
  simp only [afterProcess] at h
  split at h
  · cases h
  split at h
  · rename_i hret
    split at h <;> cases h
    rename_i hc
    exact .inr (.inr (.inl ⟨rfl, .inl hret, hc⟩))
  split at h
  · rename_i hret
    split at h
    · rename_i hc
      cases h
      exact .inr (.inl ⟨rfl, hret, by simpa using hc⟩)
    split at h <;> cases h
    rename_i hu
    exact .inl ⟨rfl, by simpa using hu⟩
  split at h
  · rename_i hret
    split at h
    · rename_i hu
      cases h
      exact .inl ⟨rfl, by simpa using hu⟩
    split at h <;> cases h
    rename_i hc
    exact .inr (.inr (.inl ⟨rfl, .inr (.inl hret), hc⟩))
  split at h
  · rename_i hret
    split at h
    · rename_i hc
      cases h
      exact .inr (.inr (.inl ⟨rfl, .inr (.inr hret), hc⟩))
    split at h <;> cases h
  · cases h
    exact .inr (.inr (.inr ⟨rfl, by omega⟩))

theorem returned_faults {r : Running} {ret : Int} {buf : List Byte} (hr : s.running = some r)
    (h : returned cfg s r ret buf = .error f) : Faults s (.returned ret buf) f := by
  simp only [returned] at h
  split at h
  case h_2 => cases h
  rename_i hf
  cases h
  have hsock : ((setSock { s with running := none } r.sock fun k =>
      { k with recvBuf := buf }).heap r.sock) = { s.heap r.sock with recvBuf := buf } := by
    simp [setSock]
  have hcause := afterProcess_error hf
  rw [hsock] at hcause
  rcases hcause with ⟨rfl, hu⟩ | ⟨rfl, rfl, hc⟩ | ⟨rfl, hret, hc⟩ | ⟨rfl, hret⟩
  · exact .returnedInUse hr hu
  · exact .returnedIsClient hr hc
  · exact .returnedNotClient hr hret hc
  · exact .returnedUnknown hret

/-- **A step that does not go through fails for one of these reasons.** -/
theorem step_faults {e : Event} (h : step cfg s e = .error f) : Faults s e f := by
  cases e with
  | request q => exact request_faults h
  | returned ret buf =>
    simp only [step] at h
    split at h
    · cases h
      exact .disabled
    · rename_i r hr
      exact returned_faults hr h
  | complete op r =>
    simp only [step] at h
    split at h
    · rename_i hen
      exact handle_faults hen.2.2.1 h
    · cases h
      exact .disabled
  | destroySocket i =>
    simp only [step] at h
    split at h <;> cases h
    exact .disabled
  | setClock n => cases h
  | run =>
    simp only [step] at h
    split at h <;> cases h
    exact .disabled

end

end Kknf.Asio2
