/-
# `AANF::Skeleton` of `aanf/asio-based2`

The event-driven server and client of `include/skeleton.hpp`.  All its handlers run on one
strand, so a run is a sequence of handler calls and of requests made by the code around it; this
file gives the step function of that system.

* **Sockets.**  A `SocketInfo` is shared by pointers (`SocketInfoPtr`); here `SockId`s index a
  heap.  Every field of the class the code reads is kept, with `closed` for the state of `tcp_sk_`.
* **Asynchronous operations.**  An `async_*` call adds an `Op` to `pending`: what it does, for
  which socket, and which handler it is bound to.  `Event.complete` removes it and runs that
  handler with what the operating system answers (`Completion`).
* **Callbacks.**  `ProcessData` and the `PacketCallBack`s are the user's code: they may make any
  requests and then return a number.  The handler that calls one stops there (`running`), the
  requests are events of their own, and `Event.returned` continues the handler.  While a callback
  runs no other handler does.
* **Faults.**  A failed `BOOST_ASSERT`, an `exit`, a write outside a buffer and the use of a null
  pointer end the run.  `disabled` marks an event that cannot happen in the state.

Two lists record what the system does to the outside and are read by nothing: `calls` (every call
of a callback or of `ProcessData`, with the buffer passed) and `issued` (every request made on a
connection, with the callback the caller asked for).
-/
import Kknf.Lib.StdMap
import Kknf.Lib.Bytes
import Kknf.Lib.Buffer

namespace Kknf.Asio2

/-! ## 1. Data -/

/-- `boost::asio::ip::tcp::endpoint`. -/
structure TCPEndpoint where
  address : Nat
  port : Nat
  deriving DecidableEq, Repr, Inhabited

/-- Index of a `SocketInfo`. -/
abbrev SockId := Nat

/-- A non-empty `PacketCallBack`. -/
abbrev CallBack := Nat

/-- `SocketInfo::SocketType`. -/
inductive SocketType
  | line
  | lv
  | tlv
  | http
  | usr1
  | unknown
  deriving DecidableEq, Repr

/-- `SocketInfo`, with the initial values its constructor gives. -/
structure SocketInfo where
  type : SocketType
  accessTime : Int
  remoteEndpoint : TCPEndpoint := default
  localEndpoint : TCPEndpoint := default
  /-- `tcp_sk_` has been closed -/
  closed : Bool := false
  inUse : Bool := false
  isClient : Bool := false
  isConnected : Bool := false
  recvBuf : List Byte := []
  recvBufFilled : Nat := 0
  sendBuf : List Byte := []
  cb : Option CallBack := none

/-- `TCPAcceptorInfo`; the acceptor itself is known by its endpoint. -/
structure TCPAcceptorInfo where
  type : SocketType
  skInfo : SockId

/-- What the skeleton is configured with and runs on; the sizes are `int`s.  `lexicalCast` is
`boost::lexical_cast<int>`, `none` standing for `bad_lexical_cast`. -/
structure Config where
  initRecvBufSize : Nat := 1024
  maxRecvBufSize : Int := 2097152
  initRecvBufSize_int : initRecvBufSize < 2 ^ 31 := by decide
  maxRecvBufSize_int : maxRecvBufSize < 2 ^ 31 := by decide
  serverTimeout : Int := 10000
  host : ByteOrder := .little
  lexicalCast : List Byte → Option Int
  lexicalCast_int : ∀ t n, lexicalCast t = some n → -2 ^ 31 ≤ n ∧ n < 2 ^ 31

/-- An outstanding asynchronous operation, named after the handler it is bound to. -/
inductive Op
  /-- `async_connect`, with the copy of the buffer bound to the handler -/
  | connectThenWrite (i : SockId) (buf : List Byte)
  | writeThenReadL (i : SockId)
  | writeThenReadHTTPHead (i : SockId)
  | writeThenClose (i : SockId)
  | anythingThenNothing (i : SockId)
  /-- reads 4 bytes at offset 0 -/
  | readLThenReadV (i : SockId)
  /-- reads `len - 4` bytes at offset 4 -/
  | readVThenProcess (i : SockId) (len : Int)
  /-- reads while the completion condition says so; `total` bytes so far, at most `limit` next -/
  | readHTTPHead (i : SockId) (total limit : Nat)
  /-- reads `count` bytes at `offset` -/
  | readHTTPContent (i : SockId) (offset count : Nat)
  | accept (acceptor : TCPEndpoint)
  | timeout
  deriving DecidableEq, Repr

/-- The socket an operation works on. -/
def Op.sock? : Op → Option SockId
  | .connectThenWrite i _ | .writeThenReadL i | .writeThenReadHTTPHead i | .writeThenClose i
  | .anythingThenNothing i | .readLThenReadV i | .readVThenProcess i _ | .readHTTPHead i _ _
  | .readHTTPContent i _ _ => some i
  | .accept _ | .timeout => none

/-- What an operation completes with. -/
structure Completion where
  error : Bool := false
  /-- the bytes a read has transferred -/
  data : List Byte := []
  /-- the answer of `local_endpoint(e)` in the handler, `none` for an error -/
  localEndpoint : Option TCPEndpoint := none
  /-- the answer of `remote_endpoint(e)` in the handler, `none` for an error -/
  remoteEndpoint : Option TCPEndpoint := none

/-- A handler that is waiting for `ProcessData` or a callback to return: its socket, whether it is
`HandleReadHTTPContentThenProcess`, and whether it was called by the head handler with
`continue_field_found`. -/
structure Running where
  sock : SockId
  http : Bool
  continueFieldFound : Bool

/-- A call of `ProcessData` (`cb = none`) or of a callback. -/
structure Call where
  sock : SockId
  cb : Option CallBack
  data : List Byte
  deriving DecidableEq

/-- A request made on a connection, with the callback the caller asked for. -/
structure Issue where
  sock : SockId
  cb : Option CallBack
  deriving DecidableEq

/-- Why a step does not lead to a next state. -/
inductive Fault
  /-- the event cannot happen in this state -/
  | disabled
  /-- `exit(1)` -/
  | exit
  /-- `BOOST_ASSERT(!in_use())` in `ToWriteThenRead` -/
  | assertNotInUseInWrite
  /-- `BOOST_ASSERT(!in_use())` in `HandleConnectThenWrite` -/
  | assertNotInUseInConnect
  /-- `BOOST_ASSERT(in_use())` after `ProcessData` -/
  | assertInUse
  /-- `BOOST_ASSERT(is_client())` after `ProcessData` -/
  | assertIsClient
  /-- `BOOST_ASSERT(!is_client())` after `ProcessData` -/
  | assertNotClient
  /-- `BOOST_ASSERT(byte_num == len - 4)` in `HandleReadVThenProcess` -/
  | assertByteNum
  /-- `BOOST_ASSERT(false)` when `InsertTCPServerSocket` fails -/
  | assertInsertServer
  /-- `BOOST_ASSERT(false)` for a socket type that is not supported, or not the pooled one -/
  | assertSocketType
  /-- `BOOST_ASSERT(false)` for an unknown return value of `ProcessData` -/
  | assertReturn
  /-- bytes would be written outside a buffer -/
  | overrun
  /-- a null `SocketInfoPtr` is used -/
  | nullPointer
  deriving DecidableEq, Repr

/-- The skeleton and the asynchronous operations it has started. -/
structure Skeleton where
  heap : SockId → SocketInfo
  /-- the next `SocketInfo` to be created -/
  next : SockId
  tcpServerSocketMap : StdMap TCPEndpoint SockId
  tcpAcceptorMap : StdMap TCPEndpoint TCPAcceptorInfo
  tcpClientSocketMap : StdMap TCPEndpoint (List SockId)
  pending : List Op
  running : Option Running
  /-- `Run()` has been called -/
  started : Bool
  /-- what `microsec_clock::local_time()` returns, in milliseconds -/
  clock : Int
  calls : List Call
  issued : List Issue

/-- The skeleton after its constructor. -/
def init : Skeleton where
  heap := fun _ => { type := .unknown, accessTime := 0 }
  next := 0
  tcpServerSocketMap := StdMap.empty
  tcpAcceptorMap := StdMap.empty
  tcpClientSocketMap := StdMap.empty
  pending := []
  running := none
  started := false
  clock := 0
  calls := []
  issued := []

/-! ## 2. Elementary updates -/

/-- Change one `SocketInfo`. -/
def setSock (s : Skeleton) (i : SockId) (f : SocketInfo → SocketInfo) : Skeleton :=
  { s with heap := Function.update s.heap i (f (s.heap i)) }

/-- `new SocketInfo(..)`, with its fields set; the new socket is `s.next`. -/
def alloc (s : Skeleton) (k : SocketInfo) : Skeleton :=
  { s with heap := Function.update s.heap s.next k, next := s.next + 1 }

/-- Start an asynchronous operation. -/
def push (s : Skeleton) (op : Op) : Skeleton := { s with pending := s.pending ++ [op] }

/-- An asynchronous operation ends. -/
def pop (s : Skeleton) (op : Op) : Skeleton := { s with pending := s.pending.erase op }

/-- A request is made on a connection. -/
def issue (s : Skeleton) (i : SockId) (cb : Option CallBack) : Skeleton :=
  { s with issued := s.issued ++ [⟨i, cb⟩] }

/-- `SocketInfo::Touch`. -/
def touch (s : Skeleton) (i : SockId) : Skeleton :=
  setSock s i fun k => { k with accessTime := s.clock }

/-- `tcp_sk().close(e)`. -/
def closeSk (s : Skeleton) (i : SockId) : Skeleton :=
  setSock s i fun k => { k with closed := true }

/-- `SocketInfo::SetRecvBuf(byte_num)`. -/
def setRecvBuf (s : Skeleton) (i : SockId) (byteNum : Nat) : Skeleton :=
  setSock s i fun k => { k with recvBuf := List.replicate byteNum 0 }

/-- `SocketInfo::SetSendBuf`. -/
def setSendBuf (s : Skeleton) (i : SockId) (buf : List Byte) : Skeleton :=
  setSock s i fun k => { k with sendBuf := buf }

/-- A read puts its bytes into `recv_buf`. -/
def storeRecv (s : Skeleton) (i : SockId) (off : Nat) (data : List Byte) :
    Except Fault Skeleton :=
  if off + data.length ≤ (s.heap i).recvBuf.length then
    .ok (setSock s i fun k => { k with recvBuf := overwrite k.recvBuf off data })
  else .error .overrun

/-! ## 3. The socket maps -/

/-- `FindTCPServerSocket`. -/
def findTCPServerSocket (s : Skeleton) (key : TCPEndpoint) : Option SockId :=
  s.tcpServerSocketMap.find key

/-- `InsertTCPServerSocket`: -1 when the key is taken. -/
def insertTCPServerSocket (s : Skeleton) (key : TCPEndpoint) (i : SockId) : Skeleton × Int :=
  match s.tcpServerSocketMap.find key with
  | some _ => (s, -1)
  | none => ({ s with tcpServerSocketMap := s.tcpServerSocketMap.set key i }, 0)

/-- `InsertTCPAcceptor`: -1 when the key is taken. -/
def insertTCPAcceptor (s : Skeleton) (key : TCPEndpoint) (a : TCPAcceptorInfo) :
    Skeleton × Int :=
  match s.tcpAcceptorMap.find key with
  | some _ => (s, -1)
  | none => ({ s with tcpAcceptorMap := s.tcpAcceptorMap.set key a }, 0)

/-- `FindIdleTCPClientSocket`: the first socket of the list that is connected and not in use. -/
def findIdleTCPClientSocket (s : Skeleton) (key : TCPEndpoint) : Option SockId :=
  (s.tcpClientSocketMap.listAt key).find? fun i =>
    !((s.heap i).inUse || !(s.heap i).isConnected)

/-- `InsertTCPClientSocket`. -/
def insertTCPClientSocket (s : Skeleton) (key : TCPEndpoint) (i : SockId) : Skeleton :=
  { s with tcpClientSocketMap := s.tcpClientSocketMap.pushBack key i }

/-- `DestroySocket`: close, then remove a client from the list of its endpoint, or erase the
server entry of its endpoint. -/
def destroySocket (s : Skeleton) (i : SockId) : Skeleton × Int :=
  let s' := closeSk s i
  if (s.heap i).isClient then
    match s.tcpClientSocketMap.find (s.heap i).remoteEndpoint with
    | none => (s', -1)
    | some l => ({ s' with tcpClientSocketMap :=
        s.tcpClientSocketMap.set (s.heap i).remoteEndpoint (l.filter (· ≠ i)) }, 0)
  else
    ({ s' with tcpServerSocketMap :=
        s.tcpServerSocketMap.erase (s.heap i).remoteEndpoint }, 0)

/-- `SweepServerSocket`: every server socket not touched for `milliseconds` is closed and leaves
the map. -/
def sweepServerSocket (s : Skeleton) (milliseconds : Int) : Skeleton :=
  let expired := fun i => decide ((s.heap i).accessTime < s.clock - milliseconds)
  { s with
    tcpServerSocketMap := s.tcpServerSocketMap.filter fun _ i => !expired i
    heap := fun i =>
      if s.tcpServerSocketMap.entries.any (fun e => e.2 == i && expired i) then
        { s.heap i with closed := true }
      else s.heap i }

/-! ## 4. Starting reads -/

/-- `ToReadLThenReadV`. -/
def toReadLThenReadV (s : Skeleton) (i : SockId) : Skeleton :=
  push (setRecvBuf s i 4) (.readLThenReadV i)

/-- `"\r\n\r\n"` -/
def crlfCrlf : List Byte := [13, 10, 13, 10]

/-- `"Content-Length "` -/
def contentLengthKey : List Byte :=
  [67, 111, 110, 116, 101, 110, 116, 45, 76, 101, 110, 103, 116, 104, 32]

/-- `"100-continue"` -/
def continueKey : List Byte := [49, 48, 48, 45, 99, 111, 110, 116, 105, 110, 117, 101]

/-- `"HTTP/1.1 100\r\n\r\n"` -/
def continueHead : List Byte :=
  [72, 84, 84, 80, 47, 49, 46, 49, 32, 49, 48, 48, 13, 10, 13, 10]

/-- `HTTPHeadReadCompletionCondition`: 0 to stop, else how much may be read next.  The difference
of two `size_t`s wraps round. -/
def httpHeadReadCompletionCondition (s : Skeleton) (error : Bool) (i : SockId)
    (byteNum : Nat) : Skeleton × Nat :=
  if error then (s, 0)
  else
    let filled := (s.heap i).recvBufFilled + byteNum
    let s' := setSock s i fun k => { k with recvBufFilled := filled }
    if (search crlfCrlf (s.heap i).recvBuf).isSome then (s', 0)
    else if (s.heap i).recvBuf.length = filled then (s', 0)
    else (s', sizeT ((s.heap i).recvBuf.length - filled))

/-- The read of an HTTP head into a new buffer; `async_read` asks the completion condition once
before it reads. -/
def asyncReadHTTPHead (cfg : Config) (s : Skeleton) (i : SockId) : Skeleton :=
  let r := httpHeadReadCompletionCondition (setRecvBuf s i cfg.initRecvBufSize) false i 0
  push r.1 (.readHTTPHead i 0 r.2)

/-- `ToReadHTTPHeadThenReadHTTPContent`. -/
def toReadHTTPHeadThenReadHTTPContent (cfg : Config) (s : Skeleton) (i : SockId) : Skeleton :=
  asyncReadHTTPHead cfg s i

/-! ## 5. Requests -/

/-- `ToConnectThenWrite`. -/
def toConnectThenWrite (s : Skeleton) (remote : TCPEndpoint) (type : SocketType)
    (buf : List Byte) (cb : Option CallBack) : Skeleton :=
  let i := s.next
  let s' := alloc s { type := type, accessTime := s.clock, cb := cb, sendBuf := buf,
                      remoteEndpoint := remote, isClient := true }
  push (insertTCPClientSocket (issue s' i cb) remote i) (.connectThenWrite i buf)

/-- `ToWriteThenRead(skinfo, buf_to_send)`: the write of a request on a connection. -/
def toWriteThenReadOn (s : Skeleton) (i : SockId) (buf : List Byte) : Except Fault Skeleton :=
  if (s.heap i).isClient && (s.heap i).inUse then .error .assertNotInUseInWrite
  else
    let s' := setSock s i fun k => { k with inUse := k.isClient || k.inUse, sendBuf := buf }
    match (s.heap i).type with
    | .http => .ok (push s' (.writeThenReadHTTPHead i))
    | .lv => .ok (push s' (.writeThenReadL i))
    | _ => .error .assertSocketType

/-- `ToWriteThenCallBack`. -/
def toWriteThenCallBack (s : Skeleton) (remote : TCPEndpoint) (type : SocketType)
    (buf : List Byte) (iAmServer : Bool) (cb : Option CallBack) :
    Except Fault (Skeleton × Int) :=
  match findIdleTCPClientSocket s remote with
  | none =>
    if iAmServer then .ok (s, -1)
    else .ok (toConnectThenWrite s remote type buf cb, 0)
  | some i =>
    match toWriteThenReadOn (setSock (issue s i cb) i fun k => { k with cb := cb }) i buf with
    | .ok s' => .ok (s', 0)
    | .error f => .error f

/-- `ToWriteThenRead(remote_endpoint, ..)`: as `ToWriteThenCallBack` with no callback, but a
server looks for the socket of its client, and the callback stored on a socket is left alone. -/
def toWriteThenRead (s : Skeleton) (remote : TCPEndpoint) (type : SocketType)
    (buf : List Byte) (iAmServer : Bool) : Except Fault (Skeleton × Int) :=
  let skinfo := if iAmServer then findTCPServerSocket s remote
    else findIdleTCPClientSocket s remote
  match skinfo with
  | none =>
    if iAmServer then .ok (s, -1)
    else .ok (toConnectThenWrite s remote type buf none, 0)
  | some i =>
    match toWriteThenReadOn (issue s i none) i buf with
    | .ok s' => .ok (s', 0)
    | .error f => .error f

/-- `ToWriteThenClose`; the message for a socket that is not found uses the null pointer. -/
def toWriteThenClose (s : Skeleton) (remote : TCPEndpoint) (buf : List Byte)
    (iAmServer : Bool) : Except Fault (Skeleton × Int) :=
  let skinfo := if iAmServer then findTCPServerSocket s remote
    else findIdleTCPClientSocket s remote
  match skinfo with
  | none => .error .nullPointer
  | some i => .ok (push (setSendBuf s i buf) (.writeThenClose i), 0)

/-- What the blocking calls of `ToWriteThenReadSync` give. -/
structure SyncOutcome where
  connectOk : Bool := true
  writeOk : Bool := true
  /-- the 4 bytes of the length, `none` for an error -/
  header : Option (List Byte) := none
  /-- the rest of the frame, `none` for an error -/
  body : Option (List Byte) := none

/-- The length field at the front of a buffer, as the handlers read it into an `int`. -/
def lengthField (cfg : Config) (buf : List Byte) : Int :=
  int32 (networkToHostLong cfg.host (load32 cfg.host buf))

/-- The part of `ToWriteThenReadSync` after the write.  The body is read to `&len_field[4]`, which
is one past the end of `len_field`. -/
def readSync (cfg : Config) (s : Skeleton) (i : SockId) (o : SyncOutcome)
    (bufToFill : optParam (List Byte) []) : Except Fault (Skeleton × Int × List Byte) :=
  match o.header with
  | none => .ok ((destroySocket s i).1, -1, bufToFill)
  | some h =>
    if h.length ≠ 4 then .error .disabled
    else
      let len := lengthField cfg h
      if len < 0 ∨ cfg.maxRecvBufSize < len then .ok ((destroySocket s i).1, -2, bufToFill)
      else if len < 4 then .error .overrun
      else
        let filled := overwrite (resize 0 bufToFill len.toNat) 0 h
        match o.body with
        | none => .ok ((destroySocket s i).1, -3, filled)
        | some b =>
          if b.length ≠ len.toNat - 4 then .error .disabled
          else if 0 < b.length then .error .overrun
          else .ok (s, 0, filled)

/-- `ToWriteThenReadSync`: the new state, the result and `buf_to_fill`, which is empty before unless
the caller gives a buffer that is not. -/
def toWriteThenReadSync (cfg : Config) (s : Skeleton) (remote : TCPEndpoint)
    (type : SocketType) (buf : List Byte) (o : SyncOutcome) (bufToFill : optParam (List Byte) []) :
    Except Fault (Skeleton × Int × List Byte) :=
  match findIdleTCPClientSocket s remote with
  | some i =>
    if type ≠ (s.heap i).type then .error .assertSocketType
    else if type ≠ .lv then .ok (s, -1, bufToFill)
    else if o.writeOk then readSync cfg (setSendBuf s i buf) i o bufToFill
    else .ok ((destroySocket (setSendBuf s i buf) i).1, -1, bufToFill)
  | none =>
    if type ≠ .lv then .ok (s, -1, bufToFill)
    else if !o.connectOk then .ok (s, -1, bufToFill)
    else
      let i := s.next
      let s' := insertTCPClientSocket (alloc s
        { type := type, accessTime := s.clock, remoteEndpoint := remote,
          isConnected := true, inUse := true, sendBuf := buf }) remote i
      if o.writeOk then readSync cfg s' i o bufToFill
      else .ok ((destroySocket s' i).1, -1, bufToFill)

/-- `AddTCPAcceptor`. -/
def addTCPAcceptor (s : Skeleton) (endpoint : TCPEndpoint) (type : SocketType) :
    Except Fault (Skeleton × Int) :=
  let i := s.next
  let s' := alloc s { type := type, accessTime := s.clock }
  let r := insertTCPAcceptor s' endpoint ⟨type, i⟩
  if r.2 < 0 then .error .exit else .ok (push r.1 (.accept endpoint), 0)

/-- `Run`, up to `io_serv_.run()`. -/
def run (s : Skeleton) : Skeleton := push { s with started := true } .timeout

/-! ## 6. Handlers -/

/-- Both handlers that call the user's code: record the call and wait for it to return. -/
def callProcess (s : Skeleton) (r : Running) : Skeleton :=
  { s with running := some r,
           calls := s.calls ++ [⟨r.sock, (s.heap r.sock).cb, (s.heap r.sock).recvBuf⟩] }

/-- The answer to `Expect: 100-continue`. -/
def sendContinue (s : Skeleton) (i : SockId) : Skeleton :=
  push (setSendBuf s i continueHead) (.anythingThenNothing i)

/-- The end of `HandleReadVThenProcess` and of `HandleReadHTTPContentThenProcess`, by the number
the user's code returned. -/
def afterProcess (cfg : Config) (s : Skeleton) (r : Running) (ret : Int) :
    Except Fault Skeleton :=
  if ret < 0 then .ok (destroySocket s r.sock).1
  else if ret = 0 then
    if (s.heap r.sock).isClient then .error .assertNotClient else .ok s
  else if ret = 1 then
    if !(s.heap r.sock).isClient then .error .assertIsClient
    else if !(s.heap r.sock).inUse then .error .assertInUse
    else .ok (setSock s r.sock fun k => { k with inUse := false })
  else if ret = 2 then
    if !(s.heap r.sock).inUse then .error .assertInUse
    else if (s.heap r.sock).isClient then .error .assertNotClient
    else .ok s
  else if ret = 3 then
    if (s.heap r.sock).isClient then .error .assertNotClient
    else if r.http then .ok (toReadHTTPHeadThenReadHTTPContent cfg s r.sock)
    else .ok (toReadLThenReadV s r.sock)
  else .error .assertReturn

/-- The user's code returns `ret` and leaves `buf` in `recv_buf`, which it was given by
reference; a head handler that called it inline goes on to the 100-continue answer. -/
def returned (cfg : Config) (s : Skeleton) (r : Running) (ret : Int) (buf : List Byte) :
    Except Fault Skeleton :=
  let s₀ := setSock { s with running := none } r.sock fun k => { k with recvBuf := buf }
  match afterProcess cfg s₀ r ret with
  | .error f => .error f
  | .ok s' => .ok (if r.continueFieldFound then sendContinue s' r.sock else s')

/-- `HandleConnectThenWrite`. -/
def handleConnectThenWrite (s : Skeleton) (error : Bool) (i : SockId) (buf : List Byte)
    (localEndpoint : Option TCPEndpoint) : Except Fault Skeleton :=
  if error then .ok (destroySocket s i).1
  else
    match localEndpoint with
    | none => .ok (destroySocket (touch s i) i).1
    | some ep =>
      if (s.heap i).inUse then .error .assertNotInUseInConnect
      else
        let s' := insertTCPClientSocket (setSock (touch s i) i fun k =>
          { k with localEndpoint := ep, isConnected := true, inUse := true, sendBuf := buf })
          (s.heap i).remoteEndpoint i
        match (s.heap i).type with
        | .lv => .ok (push s' (.writeThenReadL i))
        | .http => .ok (push s' (.writeThenReadHTTPHead i))
        | _ => .error .assertSocketType

/-- `HandleWriteThenReadL`. -/
def handleWriteThenReadL (s : Skeleton) (error : Bool) (i : SockId) : Skeleton :=
  if error then s else toReadLThenReadV (touch s i) i

/-- `HandleWriteThenReadHTTPHead`. -/
def handleWriteThenReadHTTPHead (cfg : Config) (s : Skeleton) (error : Bool) (i : SockId) :
    Skeleton :=
  if error then (destroySocket s i).1 else asyncReadHTTPHead cfg (touch s i) i

/-- `HandleWriteThenClose`. -/
def handleWriteThenClose (s : Skeleton) (i : SockId) : Skeleton := (destroySocket s i).1

/-- `HandleAnythingThenNothing`. -/
def handleAnythingThenNothing (s : Skeleton) (error : Bool) (i : SockId) : Skeleton :=
  if error then (destroySocket s i).1 else touch s i

/-- The buffer for a frame of `len` bytes: a new one when the old one is too short, with the length
field written back to its front. -/
def setFrameBuf (cfg : Config) (s : Skeleton) (i : SockId) (len : Int) : Skeleton :=
  if ((s.heap i).recvBuf.length : Int) < len then
    setSock (setRecvBuf s i len.toNat) i fun k => { k with
      recvBuf := overwrite k.recvBuf 0
        (store32 cfg.host (networkToHostLong cfg.host len.toNat)) }
  else s

/-- `HandleReadLThenReadV`. -/
def handleReadLThenReadV (cfg : Config) (s : Skeleton) (error : Bool) (i : SockId) : Skeleton :=
  if error then (destroySocket s i).1
  else
    let len := lengthField cfg (s.heap i).recvBuf
    if cfg.maxRecvBufSize < len then (destroySocket (touch s i) i).1
    else push (setFrameBuf cfg (touch s i) i len) (.readVThenProcess i len)

/-- `HandleReadVThenProcess`, up to the call of the user's code. -/
def handleReadVThenProcess (cfg : Config) (s : Skeleton) (error : Bool) (i : SockId)
    (byteNum : Nat) : Except Fault Skeleton :=
  if error then .ok (destroySocket s i).1
  else if int32 byteNum ≠ int32 (lengthField cfg (s.heap i).recvBuf - 4) then
    .error .assertByteNum
  else .ok (callProcess (touch s i) ⟨i, false, false⟩)

/-- `HandleReadHTTPContentThenProcess`, up to the call of the user's code. -/
def handleReadHTTPContentThenProcess (s : Skeleton) (error : Bool) (i : SockId)
    (continueFieldFound : Bool) : Skeleton :=
  if error then s
  else
    callProcess (touch (setSock s i fun k =>
      { k with recvBuf := resize 0 k.recvBuf k.recvBufFilled, recvBufFilled := 0 }) i)
      ⟨i, true, continueFieldFound⟩

/-- The text of the `Content-Length` field found at `pos`: up to the next `'\r'`. -/
def contentLengthText (buf : List Byte) (pos : Nat) : List Byte :=
  (buf.drop (pos + 15)).takeWhile (· ≠ 13)

/-- The reallocation of `recv_buf` for a message of `total` bytes, with its contents copied. -/
def growRecvBuf (s : Skeleton) (i : SockId) (total : Int) : Skeleton :=
  if ((s.heap i).recvBuf.length : Int) < total then
    setSock s i fun k => { k with recvBuf := resize 0 k.recvBuf total.toNat }
  else s

/-- The end of the head handler: process the message when all `total` bytes are there, else read
what is missing, and answer `100-continue`. -/
def readHTTPRest (s : Skeleton) (i : SockId) (byteNum : Nat) (total : Int)
    (continueFieldFound : Bool) : Skeleton :=
  let left := int32 (total - byteNum)
  if left = 0 then handleReadHTTPContentThenProcess s false i continueFieldFound
  else
    let s' := push s (.readHTTPContent i byteNum (sizeT left))
    if continueFieldFound then sendContinue s' i else s'

/-- `HandleReadHTTPHeadThenReadHTTPContent`. -/
def handleReadHTTPHead (cfg : Config) (s : Skeleton) (error : Bool) (i : SockId)
    (byteNum : Nat) : Skeleton :=
  if error then (destroySocket s i).1
  else
    let buf := (s.heap i).recvBuf
    match search crlfCrlf buf with
    | none => touch s i
    | some pos =>
      let headLen : Int := pos + 4
      match search contentLengthKey buf with
      | none => (destroySocket (touch s i) i).1
      | some pos' =>
        match cfg.lexicalCast (contentLengthText buf pos') with
        | none => touch s i
        | some len =>
          let total := int32 (len + headLen)
          if cfg.maxRecvBufSize < total then (destroySocket (touch s i) i).1
          else readHTTPRest (growRecvBuf (touch s i) i total) i byteNum total
            (search continueKey buf).isSome

/-- One `read_some` of the composed head read has put its bytes into the buffer: ask the completion
condition, and read on or call the handler. -/
def readHTTPSome (cfg : Config) (s : Skeleton) (error : Bool) (i : SockId) (total : Nat)
    (count : Nat) : Skeleton :=
  let r := httpHeadReadCompletionCondition s error i (total + count)
  if error || count == 0 || r.2 == 0 || total + count == (s.heap i).recvBuf.length then
    handleReadHTTPHead cfg r.1 error i (total + count)
  else push r.1 (.readHTTPHead i (total + count) r.2)

/-- The first part of `HandleAccept`: the flags of the accepted socket, and `Reset()`, which gives
the acceptor a new one. -/
def takeAccepted (s : Skeleton) (acceptor : TCPEndpoint) (a : TCPAcceptorInfo) : Skeleton :=
  let s' := setSock s a.skInfo fun k =>
    { k with isConnected := true, inUse := true, type := a.type, closed := false }
  alloc { s' with tcpAcceptorMap := s'.tcpAcceptorMap.set acceptor { a with skInfo := s'.next } }
    { type := a.type, accessTime := s.clock }

/-- `HandleAccept`.  Without its endpoints the new connection is dropped, which closes it. -/
def handleAccept (cfg : Config) (s : Skeleton) (error : Bool) (acceptor : TCPEndpoint)
    (remote loc : Option TCPEndpoint) : Except Fault Skeleton :=
  if error then .error .exit
  else
    match s.tcpAcceptorMap.find acceptor with
    | none => .error .disabled
    | some a =>
      let i := a.skInfo
      let s' := takeAccepted s acceptor a
      match remote, loc with
      | some r, some l =>
        let ins := insertTCPServerSocket (setSock s' i fun k =>
          { k with remoteEndpoint := r, localEndpoint := l }) r i
        if ins.2 < 0 then .error .assertInsertServer
        else
          let s'' := setRecvBuf ins.1 i cfg.initRecvBufSize
          match a.type with
          | .http => .ok (push (toReadHTTPHeadThenReadHTTPContent cfg s'' i) (.accept acceptor))
          | .lv => .ok (push (toReadLThenReadV s'' i) (.accept acceptor))
          | _ => .error .assertSocketType
      | _, _ => .ok (closeSk s' i)

/-- `HandleTimeout`, with the handler `Run` registers.  Requests made by the user's own timer
handlers are events of their own. -/
def handleTimeout (cfg : Config) (s : Skeleton) (error : Bool) : Skeleton :=
  push (if error then s else sweepServerSocket s cfg.serverTimeout) .timeout

/-! ## 7. Events -/

/-- A request the user's code makes. -/
inductive Request
  | toWriteThenRead (remote : TCPEndpoint) (type : SocketType) (buf : List Byte)
      (iAmServer : Bool)
  | toWriteThenCallBack (remote : TCPEndpoint) (type : SocketType) (buf : List Byte)
      (iAmServer : Bool) (cb : Option CallBack)
  | toWriteThenClose (remote : TCPEndpoint) (buf : List Byte) (iAmServer : Bool)
  | toConnectThenWrite (remote : TCPEndpoint) (type : SocketType) (buf : List Byte)
      (cb : Option CallBack)
  | toWriteThenReadSync (remote : TCPEndpoint) (type : SocketType) (buf : List Byte)
      (o : SyncOutcome)
  | addTCPAcceptor (endpoint : TCPEndpoint) (type : SocketType)

/-- One event of a run. -/
inductive Event
  | request (r : Request)
  /-- `ProcessData` or a callback returns, having left `buf` in `recv_buf` -/
  | returned (ret : Int) (buf : List Byte)
  /-- an outstanding operation completes and its handler runs -/
  | complete (op : Op) (r : Completion)
  /-- `DestroySocket` -/
  | destroySocket (i : SockId)
  /-- the clock is read again -/
  | setClock (t : Int)
  /-- `Run()` -/
  | run

def request (cfg : Config) (s : Skeleton) : Request → Except Fault Skeleton
  | .toWriteThenRead remote type buf iAmServer =>
    (toWriteThenRead s remote type buf iAmServer).map Prod.fst
  | .toWriteThenCallBack remote type buf iAmServer cb =>
    (toWriteThenCallBack s remote type buf iAmServer cb).map Prod.fst
  | .toWriteThenClose remote buf iAmServer =>
    (toWriteThenClose s remote buf iAmServer).map Prod.fst
  | .toConnectThenWrite remote type buf cb => .ok (toConnectThenWrite s remote type buf cb)
  | .toWriteThenReadSync remote type buf o =>
    (toWriteThenReadSync cfg s remote type buf o).map Prod.fst
  | .addTCPAcceptor endpoint type => (addTCPAcceptor s endpoint type).map Prod.fst

/-- What asio promises about a completion: a `transfer_all` read without an error has transferred
all it asked for, a read never transfers more than it asked for and something unless it asked for
nothing, and a closed socket has no local endpoint. -/
def Fits (s : Skeleton) (op : Op) (r : Completion) : Prop :=
  match op with
  | .connectThenWrite i _ => (s.heap i).closed = true → r.localEndpoint = none
  | .readLThenReadV _ => r.data.length ≤ 4 ∧ (r.error = false → r.data.length = 4)
  | .readVThenProcess _ len => r.data.length ≤ sizeT (len - 4) ∧
      (r.error = false → r.data.length = sizeT (len - 4))
  | .readHTTPHead i total limit => r.data.length ≤ limit ∧
      total + r.data.length ≤ (s.heap i).recvBuf.length ∧
      (r.error = false → r.data = [] →
        limit = 0 ∨ total = (s.heap i).recvBuf.length)
  | .readHTTPContent _ _ count => r.data.length ≤ count ∧
      (r.error = false → r.data.length = count)
  | _ => True

instance (s : Skeleton) (op : Op) (r : Completion) : Decidable (Fits s op r) := by
  cases op <;> unfold Fits <;> infer_instance

/-- The handler an operation is bound to. -/
def handle (cfg : Config) (s : Skeleton) (op : Op) (r : Completion) : Except Fault Skeleton :=
  match op with
  | .connectThenWrite i buf => handleConnectThenWrite s r.error i buf r.localEndpoint
  | .writeThenReadL i => .ok (handleWriteThenReadL s r.error i)
  | .writeThenReadHTTPHead i => .ok (handleWriteThenReadHTTPHead cfg s r.error i)
  | .writeThenClose i => .ok (handleWriteThenClose s i)
  | .anythingThenNothing i => .ok (handleAnythingThenNothing s r.error i)
  | .readLThenReadV i =>
    (storeRecv s i 0 r.data).map fun s' => handleReadLThenReadV cfg s' r.error i
  | .readVThenProcess i _ =>
    match storeRecv s i 4 r.data with
    | .error f => .error f
    | .ok s' => handleReadVThenProcess cfg s' r.error i r.data.length
  | .readHTTPHead i total _ =>
    (storeRecv s i total r.data).map fun s' =>
      readHTTPSome cfg s' r.error i total r.data.length
  | .readHTTPContent i offset _ =>
    (storeRecv s i offset r.data).map fun s' =>
      handleReadHTTPContentThenProcess s' r.error i false
  | .accept acceptor => handleAccept cfg s r.error acceptor r.remoteEndpoint r.localEndpoint
  | .timeout => .ok (handleTimeout cfg s r.error)

/-- Somebody holds a pointer to the socket: an outstanding operation, the handler that is waiting
for the user's code, or a map. -/
def Referenced (s : Skeleton) (i : SockId) : Prop :=
  (∃ op ∈ s.pending, op.sock? = some i) ∨ (∃ r ∈ s.running, r.sock = i) ∨
    (∃ e ∈ s.tcpServerSocketMap.entries, e.2 = i) ∨
      ∃ e ∈ s.tcpClientSocketMap.entries, i ∈ e.2

instance (s : Skeleton) (i : SockId) : Decidable (Referenced s i) := by
  unfold Referenced
  infer_instance

/-- One step of the skeleton. -/
def step (cfg : Config) (s : Skeleton) : Event → Except Fault Skeleton
  | .request r => request cfg s r
  | .returned ret buf =>
    match s.running with
    | none => .error .disabled
    | some r => returned cfg s r ret buf
  | .complete op r =>
    if s.started ∧ s.running.isNone ∧ op ∈ s.pending ∧ Fits s op r then
      handle cfg (pop s op) op r
    else .error .disabled
  | .destroySocket i =>
    if Referenced s i then .ok (destroySocket s i).1 else .error .disabled
  | .setClock t => .ok { s with clock := t }
  | .run => if s.started then .error .disabled else .ok (run s)

end Kknf.Asio2
