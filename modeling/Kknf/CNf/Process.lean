/-
# Sending and receiving on a data socket: `c_nf/process.c`

`process_tcp_send` offers all buffers of a socket to one `writev` and then accounts for the bytes
that were written.  `process_recv_lv_format` receives the rest of a packet whose length is known, or
what there is of one whose length is not.

Neither of them works on any input that gets as far as its loop, or hardly any.

* The loop of `process_tcp_send` ends only when the list is empty.  A buffer that is written in part
  stays in front for ever, and once the last buffer is gone, its successor is read through a null
  pointer (`tcp_send_never`).
* The size that `process_recv_lv_format` asks `recv` for is not what is missing of the packet, and
  it grows with what has been received.  `recv_lv_iff` says on which sockets this does no harm:
  where the packet is too long, or the size comes out as 0, or as 1 with one byte missing.

The readings of the text: `uint23_t` is `uint32_t`, `S_IN_RECVEIVE_AND_PROCESS` is the state that
the assertion names, and `send_buf_num` is the length of the list.  One call of `recv` transfers at
most `0x7ffff000` bytes, so its result fits the `int` it is stored in.
-/
import Kknf.Lib.Bytes
import Kknf.Lib.Loop
import Kknf.Lib.Posix

namespace Kknf.CNf.Process

open Kknf.Loop

/-! ## 1. Data -/

/-- `enum socket_state`. -/
inductive SocketState
  | notInit
  | init
  | inConnect
  | connected
  | inAccept
  | inSend
  | inReceive
  | inProcess
  | inReceiveAndProcess
  deriving DecidableEq

/-- `enum socket_type`. -/
inductive SocketType
  | tcpListen
  | tcpServerLV
  | tcpClientLV
  | tcpServerHTTP
  | tcpClientHTTP
  | udp
  | tcpServerOther
  | tcpClientOther
  deriving DecidableEq

/-- A `send_buf`; its successor is the next one of the list it is in. -/
structure SendBuf where
  buf : List Byte
  bufLen : Nat
  bufSent : Nat
  deriving DecidableEq

/-- `buf_len - buf_sent`. -/
def SendBuf.unsent (b : SendBuf) : Nat := sub32 b.bufLen b.bufSent

/-- What the two functions use of a `socket_info`.  `recvBuf` are the bytes of `recv_buf` that are
in use, `recv_buf_used` of them. -/
structure SocketInfo where
  state : SocketState
  type : SocketType
  packetLen : Nat
  recvBuf : List Byte
  recvBufLen : Nat
  recvBufLenMax : Nat
  sendBuf : List SendBuf
  sendBufNum : Nat
  deriving DecidableEq

def SocketInfo.recvBufUsed (info : SocketInfo) : Nat := info.recvBuf.length

inductive Fault
  /-- an answer that `recv` cannot give -/
  | disabled
  /-- the assertion about `info->state` -/
  | assertState
  /-- the assertion about `info->type` -/
  | assertType
  /-- the successor of the last `send_buf` -/
  | nullDeref
  /-- bytes are stored behind the end of `recv_buf` -/
  | overflow
  deriving DecidableEq

/-! ## 2. Sending -/

/-- `struct iovec`. -/
structure IOVec where
  iovBase : List Byte
  iovLen : Nat

/-- The loop that fills `vecs`, for `n` buffers. -/
def fillVecs : Nat → List SendBuf → Except Fault (List IOVec)
  | 0, _ => .ok []
  | _ + 1, [] => .error .nullDeref
  | n + 1, iter :: rest =>
    match fillVecs n rest with
    | .error f => .error f
    | .ok vecs => .ok ({ iovBase := iter.buf.drop iter.bufSent, iovLen := iter.unsent } :: vecs)

/-- The variables of the loop that accounts for what was written, and the buffers it has freed. -/
structure Sending where
  sendBuf : List SendBuf
  sendBufNum : Nat
  left : Nat
  ret : Int
  freed : List SendBuf

/-- A turn of this loop. -/
def sendTurn (s : Sending) : Except Fault (Turn Sending Sending) :=
  match s.sendBuf with
  | [] => .ok (.done s)
  | tmp :: rest =>
    if s.left ≥ tmp.unsent then
      match rest with
      | [] => .error .nullDeref
      | next :: _ =>
        -- what is taken off `left` is the length of the next buffer
        .ok (.again {
          sendBuf := rest
          sendBufNum := sub32 s.sendBufNum 1
          left := sub32 s.left next.unsent
          ret := 0
          freed := s.freed ++ [tmp] })
    else
      .ok (.again { s with
        sendBuf := { tmp with bufSent := (tmp.bufSent + s.left) % 2 ^ 32 } :: rest
        left := 0
        ret := 1 })

/-- `process_tcp_send`, when `writev` returns `cnt`, within so many turns of its loop: the code it
returns, the buffers it frees, and the socket. -/
def processTcpSend (turns : Nat) (info : SocketInfo) (cnt : Int) (errno : Errno) :
    Option (Except Fault (Int × List SendBuf × SocketInfo)) :=
  if info.state ≠ .inProcess ∧ info.state ≠ .inSend ∧ info.state ≠ .inConnect then
    some (.error .assertState)
  else if info.type ≠ .tcpServerLV ∧ info.type ≠ .tcpClientLV then some (.error .assertType)
  -- `info->state == S_IN_RECEIVE;` changes nothing
  else if info.state = .inConnect then some (.ok (3, [], info))
  else
    match fillVecs info.sendBufNum info.sendBuf with
    | .error f => some (.error f)
    | .ok _ =>
      if cnt < 0 then
        if errno = EAGAIN then some (.ok (1, [], info)) else some (.ok (-1, [], info))
      else if cnt = 0 then some (.ok (-2, [], info))
      else
        (runFor sendTurn turns {
          sendBuf := info.sendBuf
          sendBufNum := info.sendBufNum
          left := (cnt % 2 ^ 32).toNat
          ret := 1
          freed := [] }).map fun x => x.map fun s =>
            (s.ret, s.freed, { info with sendBuf := s.sendBuf, sendBufNum := s.sendBufNum })

/-- How many bytes a list of buffers has to send. -/
def unsentOf (l : List SendBuf) : Nat := (l.map (·.unsent)).sum

/-- What `cnt` written bytes cover: the buffers that are sent to their ends, and what is left of the
others. -/
def charge : List SendBuf → Nat → List SendBuf × List SendBuf
  | [], _ => ([], [])
  | b :: l, cnt =>
    if b.unsent ≤ cnt then (b :: (charge l (cnt - b.unsent)).1, (charge l (cnt - b.unsent)).2)
    else ([], { b with bufSent := b.bufSent + cnt } :: l)

/-- The call ends, the buffers that are sent to their ends are freed, the others remain, and the
code is 0 if and only if none do. -/
def SendsRight (info : SocketInfo) (cnt : Int) (errno : Errno) : Prop :=
  ∃ turns ret freed info', processTcpSend turns info cnt errno = some (.ok (ret, freed, info')) ∧
    (freed, info'.sendBuf) = charge info.sendBuf cnt.toNat ∧
    info'.sendBufNum = info'.sendBuf.length ∧
    (ret = 0 ↔ info'.sendBuf = []) ∧ (ret = 0 ∨ ret = 1)

theorem sub32_pos {a b : Nat} (hlt : b < a) (ha : a < 2 ^ 32) : 0 < sub32 a b := by
  rw [sub32_eq hlt.le ha]
  exact Nat.sub_pos_of_lt hlt

/-- With nothing left to account for and something to send in front, the loop turns on the spot. -/
theorem sendTurn_stuck {tmp : SendBuf} {rest : List SendBuf} {num : Nat} {ret : Int}
    {freed : List SendBuf} (hpos : 0 < tmp.unsent) (hlt : tmp.bufSent < 2 ^ 32) :
    sendTurn ⟨tmp :: rest, num, 0, ret, freed⟩ =
      .ok (.again ⟨tmp :: rest, num, 0, 1, freed⟩) := by
  have hsame : (tmp.bufSent + 0) % 2 ^ 32 = tmp.bufSent := Nat.mod_eq_of_lt hlt
  have hnot : ¬ 0 ≥ tmp.unsent := Nat.not_le.mpr hpos
  simp only [sendTurn, hnot, if_false, hsame]

/-- A buffer that is sent in part stays in front. -/
theorem partial_diverges {tmp : SendBuf} {rest : List SendBuf} {num left : Nat} {ret : Int}
    {freed : List SendBuf} (hsent : tmp.bufSent < tmp.bufLen) (hlen : tmp.bufLen < 2 ^ 32)
    (hleft : left < tmp.unsent) : Diverges sendTurn ⟨tmp :: rest, num, left, ret, freed⟩ := by
  have hunsent : tmp.unsent = tmp.bufLen - tmp.bufSent := sub32_eq hsent.le hlen
  have hadd : (tmp.bufSent + left) % 2 ^ 32 = tmp.bufSent + left := Nat.mod_eq_of_lt (by omega)
  have hturn : sendTurn ⟨tmp :: rest, num, left, ret, freed⟩ =
      .ok (.again ⟨{ tmp with bufSent := tmp.bufSent + left } :: rest, num, 0, 1, freed⟩) := by
    have hnot : ¬ left ≥ tmp.unsent := Nat.not_le.mpr hleft
    simp only [sendTurn, hnot, if_false, hadd]
  refine Diverges.again hturn (diverges_of_invariant (I := fun s =>
    s = ⟨{ tmp with bufSent := tmp.bufSent + left } :: rest, num, 0, 1, freed⟩) ?_ rfl)
  rintro s rfl
  have hpos : 0 < SendBuf.unsent { tmp with bufSent := tmp.bufSent + left } :=
    sub32_pos (show tmp.bufSent + left < tmp.bufLen by omega) hlen
  exact ⟨_, sendTurn_stuck hpos (show tmp.bufSent + left < 2 ^ 32 by omega), rfl⟩

/-- The loop takes every buffer off the list, with what it takes off `left` on the way. -/
def drains : List SendBuf → Nat → Bool
  | [], _ => true
  | [b], left => b.unsent ≤ left
  | b :: next :: l, left => b.unsent ≤ left ∧ drains (next :: l) (sub32 left next.unsent)

/-- **The loop goes on for ever, or it reads through a null pointer**, whatever there is to account
for. -/
theorem sendLoop_fate {l : List SendBuf} (hne : l ≠ [])
    (hl : ∀ b ∈ l, b.bufSent < b.bufLen ∧ b.bufLen < 2 ^ 32) :
    ∀ (num left : Nat) (ret : Int) (freed : List SendBuf),
      (drains l left = true → Ends sendTurn ⟨l, num, left, ret, freed⟩ (.error .nullDeref)) ∧
        (drains l left = false → Diverges sendTurn ⟨l, num, left, ret, freed⟩) := by
  induction l with
  | nil => exact absurd rfl hne
  | cons tmp rest ih =>
    intro num left ret freed
    obtain ⟨hsent, hlen⟩ := hl tmp List.mem_cons_self
    by_cases hfull : tmp.unsent ≤ left
    · rcases rest with _ | ⟨next, rest⟩
      · constructor
        · intro _
          exact Ends.fault (by simp only [sendTurn, ge_iff_le, hfull, if_true])
        · intro hnot
          simp [drains, hfull] at hnot
      · have hturn : sendTurn ⟨tmp :: next :: rest, num, left, ret, freed⟩ = .ok (.again
            ⟨next :: rest, sub32 num 1, sub32 left next.unsent, 0, freed ++ [tmp]⟩) := by
          simp only [sendTurn, ge_iff_le, hfull, if_true]
        have hrest := ih (by simp) (fun b hb => hl b (List.mem_cons_of_mem tmp hb))
          (sub32 num 1) (sub32 left next.unsent) 0 (freed ++ [tmp])
        constructor
        · intro hdrains
          have hnext : drains (next :: rest) (sub32 left next.unsent) = true := by
            simpa [drains, hfull] using hdrains
          exact Ends.again hturn (hrest.1 hnext)
        · intro hnot
          have hnext : drains (next :: rest) (sub32 left next.unsent) = false := by
            simpa [drains, hfull] using hnot
          exact Diverges.again hturn (hrest.2 hnext)
    · constructor
      · intro hdrains
        rcases rest with _ | ⟨next, rest⟩
        · simp [drains, hfull] at hdrains
        · simp [drains, hfull] at hdrains
      · intro _
        exact partial_diverges hsent hlen (Nat.lt_of_not_le hfull)

/-- There are as many buffers as `send_buf_num` says. -/
theorem fillVecs_length (l : List SendBuf) : ∃ vecs, fillVecs l.length l = .ok vecs := by
  induction l with
  | nil => exact ⟨[], rfl⟩
  | cons b l ih =>
    obtain ⟨vecs, hvecs⟩ := ih
    refine ⟨{ iovBase := b.buf.drop b.bufSent, iovLen := b.unsent } :: vecs, ?_⟩
    simp only [List.length_cons, fillVecs, hvecs]

/-- A call in which something is written comes to what its loop comes to. -/
theorem processTcpSend_eq {info : SocketInfo} {cnt : Int} (errno : Errno)
    (hstate : info.state = .inProcess ∨ info.state = .inSend)
    (htype : info.type = .tcpServerLV ∨ info.type = .tcpClientLV)
    (hnum : info.sendBufNum = info.sendBuf.length) (hpos : 1 ≤ cnt) (turns : Nat) :
    processTcpSend turns info cnt errno =
      (runFor sendTurn turns ⟨info.sendBuf, info.sendBufNum, (cnt % 2 ^ 32).toNat, 1, []⟩).map
        fun x => x.map fun s =>
          (s.ret, s.freed, { info with sendBuf := s.sendBuf, sendBufNum := s.sendBufNum }) := by
  obtain ⟨vecs, hvecs⟩ := fillVecs_length info.sendBuf
  have h₁ : ¬ (info.state ≠ .inProcess ∧ info.state ≠ .inSend ∧ info.state ≠ .inConnect) := by
    rintro ⟨hp, hs, -⟩
    exact hstate.elim hp hs
  have h₂ : ¬ (info.type ≠ .tcpServerLV ∧ info.type ≠ .tcpClientLV) :=
    or_iff_not_and_not.mp htype
  have h₃ : info.state ≠ .inConnect := by
    rcases hstate with h | h
    · rw [h]; decide
    · rw [h]; decide
  have hnn : ¬ cnt < 0 := by omega
  have hnz : ¬ cnt = 0 := by omega
  rw [processTcpSend, if_neg h₁, if_neg h₂, if_neg h₃, hnum, hvecs]
  simp only [hnn, hnz, if_false]

section Never

variable {info : SocketInfo} {cnt : Int} (errno : Errno)
  (hstate : info.state = .inProcess ∨ info.state = .inSend)
  (htype : info.type = .tcpServerLV ∨ info.type = .tcpClientLV)
  (hnum : info.sendBufNum = info.sendBuf.length)
  (hbufs : ∀ b ∈ info.sendBuf, b.bufSent < b.bufLen ∧ b.bufLen < 2 ^ 32)
  (hne : info.sendBuf ≠ []) (hpos : 1 ≤ cnt)

include hstate htype hnum hbufs hne hpos

/-- The two ends that a call can come to. -/
theorem processTcpSend_fate :
    (drains info.sendBuf (cnt % 2 ^ 32).toNat = true →
        ∃ turns, processTcpSend turns info cnt errno = some (.error .nullDeref)) ∧
      (drains info.sendBuf (cnt % 2 ^ 32).toNat = false →
        ∀ turns, processTcpSend turns info cnt errno = none) := by
  have hcall := processTcpSend_eq errno hstate htype hnum hpos
  have hfate := sendLoop_fate hne hbufs info.sendBufNum (cnt % 2 ^ 32).toNat 1 []
  constructor
  · intro hdrains
    obtain ⟨turns, hend⟩ := hfate.1 hdrains
    refine ⟨turns, ?_⟩
    rw [hcall, hend]
    rfl
  · intro hnot turns
    rw [hcall, hfate.2 hnot turns]
    rfl

/-- Neither of them is a return. -/
theorem not_sendsRight : ¬ SendsRight info cnt errno := by
  rintro ⟨turns, ret, freed, info', hok, -⟩
  have hfate := processTcpSend_fate errno hstate htype hnum hbufs hne hpos
  cases hdrains : drains info.sendBuf (cnt % 2 ^ 32).toNat with
  | false =>
    rw [hfate.2 hdrains turns] at hok
    cases hok
  | true =>
    rw [processTcpSend_eq errno hstate htype hnum hpos] at hok
    obtain ⟨x, hx, hmap⟩ := Option.map_eq_some_iff.mp hok
    have hends : Ends sendTurn _ x := ⟨turns, hx⟩
    obtain rfl := hends.unique ((sendLoop_fate hne hbufs _ _ _ _).1 hdrains)
    cases hmap

end Never

/-- **`process_tcp_send` never accounts for what was written.**  Whatever part of the buffers is
written, the call reads through a null pointer or goes on for ever. -/
theorem tcp_send_never (info : SocketInfo) (cnt : Int) (errno : Errno)
    (hstate : info.state = .inProcess ∨ info.state = .inSend)
    (htype : info.type = .tcpServerLV ∨ info.type = .tcpClientLV)
    (hnum : info.sendBufNum = info.sendBuf.length)
    (hbufs : ∀ b ∈ info.sendBuf, b.bufSent < b.bufLen ∧ b.bufLen < 2 ^ 32)
    (hpos : 1 ≤ cnt) (hcnt : cnt ≤ unsentOf info.sendBuf) :
    ¬ SendsRight info cnt errno ∧
      (drains info.sendBuf (cnt % 2 ^ 32).toNat = true →
        ∃ turns, processTcpSend turns info cnt errno = some (.error .nullDeref)) ∧
      (drains info.sendBuf (cnt % 2 ^ 32).toNat = false →
        ∀ turns, processTcpSend turns info cnt errno = none) := by
  have hne : info.sendBuf ≠ [] := by
    intro hnil
    rw [hnil] at hcnt
    simp only [unsentOf, List.map_nil, List.sum_nil] at hcnt
    omega
  exact ⟨not_sendsRight errno hstate htype hnum hbufs hne hpos,
    processTcpSend_fate errno hstate htype hnum hbufs hne hpos⟩

/-- A server socket with one buffer of four bytes to send. -/
def fourBytesSocket : SocketInfo where
  state := .inSend
  type := .tcpServerLV
  packetLen := 0
  recvBuf := []
  recvBufLen := 16
  recvBufLenMax := 64
  sendBuf := [{ buf := [1, 2, 3, 4], bufLen := 4, bufSent := 0 }]
  sendBufNum := 1

theorem fourBytes_never : ¬ SendsRight fourBytesSocket 2 0 ∧
    ∀ turns, processTcpSend turns fourBytesSocket 2 0 = none := by
  have h := tcp_send_never fourBytesSocket 2 0 (by decide) (by decide) rfl (by decide) (by decide)
    (by decide)
  exact ⟨h.1, h.2.2 (by decide)⟩

/-- All four bytes are written, and the buffer behind the last one is read. -/
theorem fourBytes_null_deref :
    processTcpSend 1 fourBytesSocket 4 0 = some (.error .nullDeref) ∧
      ¬ SendsRight fourBytesSocket 4 0 :=
  ⟨rfl, not_sendsRight 0 (by decide) (by decide) rfl (by decide) (by decide) (by decide)⟩

/-! ## 3. Receiving -/

/-- How the calls of `recv` end. -/
inductive Stop
  | again
  | error
  | closed
  deriving DecidableEq

/-- The most bytes that one call of `recv` transfers. -/
def maxTransfer : Nat := 0x7ffff000

/-- The loop, when `recv` hands out the bytes of `recvs`, call by call: the bytes that are stored,
and whether the loop was left by its `break`.  `used` and `len` are `recv_buf_used` and
`recv_buf_len`. -/
def recvLoop (used len bufLen : Nat) : List (List Byte) → Nat → Nat →
    Except Fault (List Byte × Bool)
  | [], _, _ => .ok ([], false)
  | data :: recvs, cur, bytesRead =>
    if data = [] ∨ data.length > sub32 bufLen bytesRead ∨ data.length > maxTransfer then
      .error .disabled
    else if used + cur + data.length > len then .error .overflow
    else
      let cur := (cur + data.length) % 2 ^ 32
      if cur = bufLen then .ok (data, true)
      else
        match recvLoop used len bufLen recvs cur (sub32 bytesRead data.length) with
        | .error f => .error f
        | .ok (more, broke) => .ok (data ++ more, broke)

/-- The length of the packet, which `is_message_callback` is asked for when it is not known. -/
def SocketInfo.askLen (info : SocketInfo) (isMessageCallback : List Byte → Int) : SocketInfo :=
  if info.packetLen = 0 then
    { info with packetLen := (isMessageCallback info.recvBuf % 2 ^ 32).toNat }
  else info

/-- The buffer, which is exchanged for the largest one when the packet does not fit in it. -/
def SocketInfo.enlarge (info : SocketInfo) : SocketInfo :=
  if info.packetLen > info.recvBufLen then { info with recvBufLen := info.recvBufLenMax } else info

/-- `buf_len`. -/
def SocketInfo.bufLen (info : SocketInfo) : Nat :=
  sub32 info.packetLen (sub32 info.recvBufLen info.recvBufUsed + 1)

/-- What comes after the loop. -/
def afterRecv (info : SocketInfo) (stop : Stop) (data : List Byte) (broke : Bool) :
    Int × SocketInfo :=
  let info := { info with recvBuf := info.recvBuf ++ data }
  if broke then (0, info)
  else
    match stop with
    | .again =>
      if info.packetLen ≠ 0 ∧ info.packetLen = info.recvBufUsed then (0, info) else (1, info)
    | .error => (-2, info)
    | .closed => (-3, info)

/-- `process_recv_lv_format`: the code it returns, and the socket. -/
def processRecvLvFormat (isMessageCallback : List Byte → Int) (info : SocketInfo)
    (recvs : List (List Byte)) (stop : Stop) : Except Fault (Int × SocketInfo) :=
  if info.state ≠ .inReceive ∧ info.state ≠ .inReceiveAndProcess then .error .assertState
  else if info.type ≠ .tcpServerLV ∧ info.type ≠ .tcpClientLV then .error .assertType
  else
    let info := info.askLen isMessageCallback
    if info.packetLen > info.recvBufLenMax then .ok (-1, info)
    else
      let info := info.enlarge
      match recvLoop info.recvBufUsed info.recvBufLen info.bufLen recvs 0 0 with
      | .error f => .error f
      | .ok (data, broke) => .ok (afterRecv info stop data broke)

/-- Nothing is stored outside the buffer or taken beyond the packet, and the code is 0 if and only
if the packet is complete. -/
def ReceivesRight (isMessageCallback : List Byte → Int) (info : SocketInfo)
    (recvs : List (List Byte)) (stop : Stop) : Prop :=
  ∃ ret info', processRecvLvFormat isMessageCallback info recvs stop = .ok (ret, info') ∧
    info'.recvBufUsed ≤ info'.recvBufLen ∧
    (info'.packetLen ≠ 0 → info'.recvBufUsed ≤ max info.recvBufUsed info'.packetLen) ∧
    (ret = 0 ↔ info'.packetLen ≠ 0 ∧ info'.recvBufUsed = info'.packetLen)

/-- The packet is too long; or the size that `recv` is asked for comes out as 0, with something
missing or nothing known; or it comes out as 1, and one byte is missing. -/
def Harmless (info : SocketInfo) : Prop :=
  info.packetLen > info.recvBufLenMax ∨
    (info.packetLen + info.recvBufUsed) % 2 ^ 32 = (info.enlarge.recvBufLen + 1) % 2 ^ 32 ∧
      (info.packetLen = 0 ∨ info.packetLen ≠ info.recvBufUsed) ∨
    info.packetLen = info.recvBufUsed + 1 ∧
      2 * info.recvBufUsed % 2 ^ 32 = (info.enlarge.recvBufLen + 1) % 2 ^ 32

/-! ## 4. Feeding the loop -/

/-- The loop is at the position `cur`. -/
def loopAt (used len bufLen cur : Nat) (recvs : List (List Byte)) :
    Except Fault (List Byte × Bool) :=
  recvLoop used len bufLen recvs cur (sub32 0 cur)

/-- Some answers of `recv` take the loop from the position `cur` to the position `pos`. -/
def Feeds (used len bufLen cur pos : Nat) : Prop :=
  ∃ recvs data, cur + data.length = pos ∧ ∀ more, loopAt used len bufLen cur (recvs ++ more) =
    (loopAt used len bufLen pos more).map fun r => (data ++ r.1, r.2)

/-- An answer of `n` bytes is possible at the position `cur`. -/
def Possible (bufLen cur n : Nat) : Prop :=
  1 ≤ n ∧ n ≤ (bufLen + cur) % 2 ^ 32 ∧ n ≤ maxTransfer

theorem request_eq {bufLen cur : Nat} (hb : bufLen < 2 ^ 32) :
    sub32 bufLen (sub32 0 cur) = (bufLen + cur) % 2 ^ 32 := by
  unfold sub32
  omega

theorem bytesRead_eq (cur n : Nat) : sub32 (sub32 0 cur) n = sub32 0 (cur + n) := by
  unfold sub32
  omega

variable {used len bufLen cur n : Nat}

/-- One call of `recv`. -/
theorem loopAt_cons (hb : bufLen < 2 ^ 32) (hlen : len < 2 ^ 32) (hn : Possible bufLen cur n)
    {data : List Byte} (hdata : data.length = n) (more : List (List Byte)) :
    loopAt used len bufLen cur (data :: more) =
      if used + cur + n > len then .error .overflow
      else if cur + n = bufLen then .ok (data, true)
      else (loopAt used len bufLen (cur + n) more).map fun r => (data ++ r.1, r.2) := by
  obtain ⟨hpos, hreq, hmax⟩ := hn
  have hok : ¬ (data = [] ∨ data.length > sub32 bufLen (sub32 0 cur) ∨
      data.length > maxTransfer) := by
    rw [request_eq hb, hdata]
    rintro (hnil | hgt | hgt)
    · rw [hnil] at hdata
      simp only [List.length_nil] at hdata
      omega
    · omega
    · omega
  rw [loopAt, recvLoop, if_neg hok, hdata]
  split
  · rfl
  · have hmod : (cur + n) % 2 ^ 32 = cur + n := Nat.mod_eq_of_lt (by omega)
    simp only [hmod, bytesRead_eq]
    split
    · rfl
    · rw [loopAt]
      cases recvLoop used len bufLen more (cur + n) (sub32 0 (cur + n)) with
      | error f => rfl
      | ok r => rfl

theorem Feeds.refl (used len bufLen cur : Nat) : Feeds used len bufLen cur cur := by
  refine ⟨[], [], rfl, fun more => ?_⟩
  rw [List.nil_append]
  cases loopAt used len bufLen cur more with
  | error f => rfl
  | ok r => rfl

/-- One more answer. -/
theorem Feeds.step {start : Nat} (h : Feeds used len bufLen start cur) (hb : bufLen < 2 ^ 32)
    (hlen : len < 2 ^ 32) (hn : Possible bufLen cur n) (hroom : used + cur + n ≤ len)
    (hne : cur + n ≠ bufLen) : Feeds used len bufLen start (cur + n) := by
  obtain ⟨recvs, data, hpos, hloop⟩ := h
  refine ⟨recvs ++ [List.replicate n 0], data ++ List.replicate n 0, ?_, fun more => ?_⟩
  · rw [List.length_append, List.length_replicate]
    omega
  · rw [List.append_assoc, hloop, List.singleton_append,
      loopAt_cons hb hlen hn List.length_replicate, if_neg (by omega), if_neg hne]
    cases loopAt used len bufLen (cur + n) more with
    | error f => rfl
    | ok r =>
      simp only [Except.map, List.append_assoc]

/-! ## 5. What no answers may lead to -/

/-- The loop, fed in any way, neither stores outside the buffer nor takes more than the packet nor
leaves it complete without a `break`; and a `break` leaves it complete. -/
structure Tame (used len packetLen bufLen : Nat) : Prop where
  room : ∀ cur n, Feeds used len bufLen 0 cur → Possible bufLen cur n → used + cur + n ≤ len
  known : ∀ cur, Feeds used len bufLen 0 cur → packetLen ≠ 0 →
    used + cur ≤ max used packetLen ∧ used + cur ≠ packetLen
  broke : ∀ cur n, Feeds used len bufLen 0 cur → Possible bufLen cur n → cur + n = bufLen →
    packetLen ≠ 0 ∧ used + bufLen = packetLen

variable {packetLen : Nat}

theorem Tame.move (h : Tame used len packetLen bufLen) (hb : bufLen < 2 ^ 32) (hlen : len < 2 ^ 32)
    (hcur : Feeds used len bufLen 0 cur) (hn : Possible bufLen cur n) {target : Nat}
    (htarget : cur + n = target) (hne : target ≠ bufLen) : Feeds used len bufLen 0 target := by
  subst htarget
  exact hcur.step hb hlen hn (h.room cur n hcur hn) hne

/-- Byte by byte, on one side of the position at which nothing is asked for. -/
theorem Tame.climb (h : Tame used len packetLen bufLen) (hb : bufLen < 2 ^ 32) (hlen : len < 2 ^ 32)
    (hcur : Feeds used len bufLen 0 cur) {target : Nat} (hle : cur ≤ target)
    (hlt : target < bufLen) (hside : bufLen + target ≤ 2 ^ 32 ∨ 2 ^ 32 < bufLen + cur) :
    Feeds used len bufLen 0 target := by
  induction target, hle using Nat.le_induction with
  | base => exact hcur
  | succ pos hle ih =>
    have hbefore := ih (by omega) (by omega)
    have hone : Possible bufLen pos 1 := ⟨Nat.le_refl 1, by omega, by decide⟩
    exact h.move hb hlen hbefore hone rfl hlt.ne

/-- **Every position in the buffer is reached.** -/
theorem Tame.reach (h : Tame used len packetLen bufLen) (hb : bufLen < 2 ^ 32) (hlen : len < 2 ^ 32)
    {target : Nat} (hlt : target < bufLen) : Feeds used len bufLen 0 target := by
  have hstart := Feeds.refl used len bufLen 0
  by_cases hle : bufLen + target ≤ 2 ^ 32
  · exact h.climb hb hlen hstart (Nat.zero_le target) hlt (Or.inl hle)
  · -- at the position `2 ^ 32 - bufLen` nothing is asked for; two bytes lead past it
    obtain ⟨gap, hgap⟩ : ∃ gap, bufLen + (gap + 1) = 2 ^ 32 := ⟨2 ^ 32 - bufLen - 1, by omega⟩
    have hbefore := h.climb hb hlen hstart (Nat.zero_le gap) (by omega) (Or.inl (by omega))
    have htwo : Possible bufLen gap 2 := ⟨by decide, by omega, by decide⟩
    have hpast := h.move hb hlen hbefore htwo rfl (by omega)
    exact h.climb hb hlen hpast (by omega) hlt (Or.inr (by omega))

/-- Nothing is known of the packet: the loop comes to a `break` or to the end of the buffer. -/
theorem Tame.bufLen_of_unknown (h : Tame used len 0 bufLen)
    (hbuf : bufLen = sub32 0 (sub32 len used + 1)) (hused : used ≤ len) (hlen : len < 2 ^ 32) :
    bufLen = 0 := by
  by_contra hne
  have hb : bufLen < 2 ^ 32 := by rw [hbuf]; unfold sub32; omega
  have hval : bufLen + (len - used) + 1 = 2 ^ 32 := by
    rw [hbuf] at hne ⊢
    unfold sub32 at hne ⊢
    omega
  rcases Nat.le_total bufLen (len - used + 1) with hle | hle
  · have hend := h.reach hb hlen (Nat.sub_one_lt hne)
    have hone : Possible bufLen (bufLen - 1) 1 := ⟨Nat.le_refl 1, by omega, by decide⟩
    exact (h.broke _ 1 hend hone (Nat.sub_one_add_one hne)).1 rfl
  · have hend := h.reach hb hlen (show len - used < bufLen by omega)
    have hone : Possible bufLen (len - used) 1 := ⟨Nat.le_refl 1, by omega, by decide⟩
    have hroom := h.room _ 1 hend hone
    omega

/-- More is known to be there already than the packet is long. -/
theorem Tame.bufLen_of_behind (h : Tame used len packetLen bufLen) (hpos : packetLen ≠ 0)
    (hlt : packetLen < used) (hb : bufLen < 2 ^ 32) (hlen : len < 2 ^ 32) : bufLen = 0 := by
  by_contra hne
  have hstart := Feeds.refl used len bufLen 0
  have hone : Possible bufLen 0 1 := ⟨Nat.le_refl 1, by omega, by decide⟩
  by_cases hbuf : 0 + 1 = bufLen
  · have hbroke := (h.broke 0 1 hstart hone hbuf).2
    omega
  · have hknown := (h.known _ (h.move hb hlen hstart hone rfl hbuf) hpos).1
    omega

/-- Something is missing of the packet, and the size does not come out negative. -/
theorem Tame.bufLen_of_missing (h : Tame used len packetLen bufLen) (hmiss : used < packetLen)
    (hfits : packetLen ≤ len) (hlen : len < 2 ^ 32)
    (hbuf : bufLen + (len - used) + 1 = packetLen) :
    bufLen = 0 ∨ bufLen = 1 ∧ packetLen = used + 1 := by
  by_contra hnot
  have hb : bufLen < 2 ^ 32 := by omega
  have hpos : packetLen ≠ 0 := by omega
  rcases Nat.lt_trichotomy (packetLen - used) bufLen with hlt | heq | hgt
  · -- to the end of the packet
    exact (h.known _ (h.reach hb hlen hlt) hpos).2 (by omega)
  · -- all but one byte, and then two
    have hend := h.reach hb hlen (show bufLen - 1 < bufLen by omega)
    have htwo : Possible bufLen (bufLen - 1) 2 := ⟨by decide, by omega, by decide⟩
    have hknown := (h.known _ (h.move hb hlen hend htwo rfl (by omega)) hpos).1
    omega
  · -- to the `break`
    have hend := h.reach hb hlen (show bufLen - 1 < bufLen by omega)
    have hone : Possible bufLen (bufLen - 1) 1 := ⟨Nat.le_refl 1, by omega, by decide⟩
    have hbroke := (h.broke _ 1 hend hone (by omega)).2
    omega

/-- Something is missing of the packet, and the size comes out negative. -/
theorem Tame.bufLen_of_wrapped (h : Tame used len packetLen bufLen) (hmiss : used < packetLen)
    (hlen : len < 2 ^ 32) (hwrap : packetLen ≤ len - used)
    (hbuf : bufLen + (len - used) + 1 = packetLen + 2 ^ 32) :
    bufLen = 0 ∨ bufLen = 1 ∧ packetLen = used + 1 := by
  by_contra hnot
  have hb : bufLen < 2 ^ 32 := by omega
  have hpos : packetLen ≠ 0 := by omega
  rcases Nat.lt_or_ge (packetLen - used) bufLen with hlt | hge
  · -- to the end of the packet
    exact (h.known _ (h.reach hb hlen hlt) hpos).2 (by omega)
  · -- the whole of the largest buffer there can be: past the end of the packet
    obtain ⟨rfl, rfl⟩ : bufLen = packetLen ∧ used = 0 := by omega
    have hpast : Feeds 0 len bufLen 0 (bufLen + 1) := by
      by_cases hhalf : bufLen = 2 ^ 31 + 1
      · -- one byte before the end of the packet, one byte is asked for
        have hend := h.reach hb hlen (show bufLen - 3 < bufLen by omega)
        have hfour : Possible bufLen (bufLen - 3) 4 := ⟨by decide, by omega, by decide⟩
        exact h.move hb hlen hend hfour (by omega) (by omega)
      · have hend := h.reach hb hlen (show bufLen - 1 < bufLen by omega)
        have htwo : Possible bufLen (bufLen - 1) 2 := ⟨by decide, by omega, by decide⟩
        exact h.move hb hlen hend htwo (by omega) (by omega)
    have hknown := (h.known _ hpast hpos).1
    omega

/-- **A tame loop has nothing to ask for, or one byte that is the last of the packet.** -/
theorem Tame.cases (h : Tame used len packetLen bufLen)
    (hbuf : bufLen = sub32 packetLen (sub32 len used + 1)) (hused : used ≤ len)
    (hlen : len < 2 ^ 32) (hfits : packetLen ≤ len) :
    bufLen = 0 ∧ (packetLen = 0 ∨ packetLen ≠ used) ∨ bufLen = 1 ∧ packetLen = used + 1 := by
  have hb : bufLen < 2 ^ 32 := by rw [hbuf]; unfold sub32; omega
  rcases Nat.eq_zero_or_pos packetLen with rfl | hpos
  · exact Or.inl ⟨h.bufLen_of_unknown hbuf hused hlen, Or.inl rfl⟩
  · rcases Nat.lt_trichotomy packetLen used with hlt | heq | hgt
    · exact Or.inl ⟨h.bufLen_of_behind hpos.ne' hlt hb hlen, Or.inr hlt.ne⟩
    · exact absurd heq.symm (h.known 0 (Feeds.refl _ _ _ 0) hpos.ne').2
    · have hcases : bufLen = 0 ∨ bufLen = 1 ∧ packetLen = used + 1 := by
        by_cases hwrap : packetLen ≤ len - used
        · refine h.bufLen_of_wrapped hgt hlen hwrap ?_
          rw [hbuf]
          unfold sub32
          omega
        · refine h.bufLen_of_missing hgt hfits hlen ?_
          rw [hbuf]
          unfold sub32
          omega
      rcases hcases with hzero | hone
      · exact Or.inl ⟨hzero, Or.inr hgt.ne'⟩
      · exact Or.inr hone

/-! ## 6. The function around the loop -/

@[simp] theorem askLen_recvBuf (info : SocketInfo) (f : List Byte → Int) :
    (info.askLen f).recvBuf = info.recvBuf := by
  unfold SocketInfo.askLen
  split <;> rfl

@[simp] theorem askLen_recvBufLen (info : SocketInfo) (f : List Byte → Int) :
    (info.askLen f).recvBufLen = info.recvBufLen := by
  unfold SocketInfo.askLen
  split <;> rfl

@[simp] theorem askLen_recvBufLenMax (info : SocketInfo) (f : List Byte → Int) :
    (info.askLen f).recvBufLenMax = info.recvBufLenMax := by
  unfold SocketInfo.askLen
  split <;> rfl

@[simp] theorem enlarge_recvBuf (info : SocketInfo) : info.enlarge.recvBuf = info.recvBuf := by
  unfold SocketInfo.enlarge
  split <;> rfl

@[simp] theorem enlarge_packetLen (info : SocketInfo) :
    info.enlarge.packetLen = info.packetLen := by
  unfold SocketInfo.enlarge
  split <;> rfl

@[simp] theorem askLen_recvBufUsed (info : SocketInfo) (f : List Byte → Int) :
    (info.askLen f).recvBufUsed = info.recvBufUsed :=
  congrArg List.length (askLen_recvBuf info f)

@[simp] theorem enlarge_recvBufUsed (info : SocketInfo) :
    info.enlarge.recvBufUsed = info.recvBufUsed :=
  congrArg List.length (enlarge_recvBuf info)

/-- The size that `recv` is asked for. -/
theorem askLen_bufLen (info : SocketInfo) (f : List Byte → Int) :
    (info.askLen f).enlarge.bufLen = sub32 (info.askLen f).packetLen
      (sub32 (info.askLen f).enlarge.recvBufLen info.recvBufUsed + 1) := by
  rw [SocketInfo.bufLen, enlarge_packetLen, enlarge_recvBufUsed, askLen_recvBufUsed]

/-- The buffer has room for the packet, and does not get shorter. -/
theorem enlarge_fits {info : SocketInfo} {f : List Byte → Int}
    (hlen : info.recvBufLen ≤ info.recvBufLenMax)
    (hfits : ¬ (info.askLen f).packetLen > info.recvBufLenMax) :
    (info.askLen f).packetLen ≤ (info.askLen f).enlarge.recvBufLen ∧
      info.recvBufLen ≤ (info.askLen f).enlarge.recvBufLen ∧
      (info.askLen f).enlarge.recvBufLen ≤ info.recvBufLenMax := by
  rw [← askLen_recvBufLen info f, ← askLen_recvBufLenMax info f] at *
  unfold SocketInfo.enlarge
  split
  · exact ⟨Nat.le_of_not_gt hfits, hlen, Nat.le_refl _⟩
  · next hle => exact ⟨Nat.le_of_not_gt hle, Nat.le_refl _, hlen⟩

theorem afterRecv_snd (info : SocketInfo) (stop : Stop) (data : List Byte) (broke : Bool) :
    (afterRecv info stop data broke).2 = { info with recvBuf := info.recvBuf ++ data } := by
  unfold afterRecv
  dsimp only
  split
  · rfl
  · split
    · split <;> rfl
    · rfl
    · rfl

/-- Without a `break` the code is 0 only when there is nothing more to receive and the packet is
complete. -/
theorem afterRecv_fst {info : SocketInfo} {stop : Stop} {data : List Byte}
    (hnot : info.packetLen = 0 ∨ info.packetLen ≠ info.recvBufUsed + data.length) :
    (afterRecv info stop data false).1 ≠ 0 := by
  unfold afterRecv
  dsimp only
  rw [if_neg Bool.false_ne_true]
  rcases stop with _ | _ | _
  · have hincomplete : ¬ (info.packetLen ≠ 0 ∧ info.packetLen =
        SocketInfo.recvBufUsed { info with recvBuf := info.recvBuf ++ data }) := by
      rintro ⟨hpos, heq⟩
      rw [SocketInfo.recvBufUsed, List.length_append] at heq
      exact hnot.elim hpos fun hne => hne heq
    rw [if_neg hincomplete]
    exact (by decide : (1 : Int) ≠ 0)
  · exact (by decide : (-2 : Int) ≠ 0)
  · exact (by decide : (-3 : Int) ≠ 0)

section Receive

variable {f : List Byte → Int} {info : SocketInfo}
  (hstate : info.state = .inReceive ∨ info.state = .inReceiveAndProcess)
  (htype : info.type = .tcpServerLV ∨ info.type = .tcpClientLV)

include hstate htype

/-- A packet that is too long is refused. -/
theorem processRecv_tooLong (hlong : (info.askLen f).packetLen > info.recvBufLenMax)
    (recvs : List (List Byte)) (stop : Stop) :
    processRecvLvFormat f info recvs stop = .ok (-1, info.askLen f) := by
  rw [processRecvLvFormat, if_neg (or_iff_not_and_not.mp hstate),
    if_neg (or_iff_not_and_not.mp htype)]
  dsimp only
  rw [askLen_recvBufLenMax, if_pos hlong]

/-- Any other comes to what the loop comes to. -/
theorem processRecv_eq (hfits : ¬ (info.askLen f).packetLen > info.recvBufLenMax)
    (recvs : List (List Byte)) (stop : Stop) :
    processRecvLvFormat f info recvs stop =
      (loopAt info.recvBufUsed (info.askLen f).enlarge.recvBufLen (info.askLen f).enlarge.bufLen 0
        recvs).map fun r => afterRecv (info.askLen f).enlarge stop r.1 r.2 := by
  rw [processRecvLvFormat, if_neg (or_iff_not_and_not.mp hstate),
    if_neg (or_iff_not_and_not.mp htype)]
  dsimp only
  rw [askLen_recvBufLenMax, if_neg hfits, enlarge_recvBufUsed, askLen_recvBufUsed, loopAt,
    show sub32 0 0 = 0 from rfl]
  cases recvLoop info.recvBufUsed (info.askLen f).enlarge.recvBufLen
      (info.askLen f).enlarge.bufLen recvs 0 0 with
  | error e => rfl
  | ok r => rfl

omit hstate htype in
/-- What a call has to come to, once its loop has stored `data`. -/
theorem receivesRight_iff {recvs : List (List Byte)} {stop : Stop} {data : List Byte} {broke : Bool}
    (hcall : processRecvLvFormat f info recvs stop =
      .ok (afterRecv (info.askLen f).enlarge stop data broke)) :
    ReceivesRight f info recvs stop ↔
      info.recvBufUsed + data.length ≤ (info.askLen f).enlarge.recvBufLen ∧
      ((info.askLen f).packetLen ≠ 0 → info.recvBufUsed + data.length ≤
        max info.recvBufUsed (info.askLen f).packetLen) ∧
      ((afterRecv (info.askLen f).enlarge stop data broke).1 = 0 ↔
        (info.askLen f).packetLen ≠ 0 ∧
          info.recvBufUsed + data.length = (info.askLen f).packetLen) := by
  have hused : (afterRecv (info.askLen f).enlarge stop data broke).2.recvBufUsed =
      info.recvBufUsed + data.length := by
    rw [afterRecv_snd]
    simp [SocketInfo.recvBufUsed]
  have hlen : (afterRecv (info.askLen f).enlarge stop data broke).2.recvBufLen =
      (info.askLen f).enlarge.recvBufLen := by
    rw [afterRecv_snd]
  have hpacket : (afterRecv (info.askLen f).enlarge stop data broke).2.packetLen =
      (info.askLen f).packetLen := by
    rw [afterRecv_snd]
    exact enlarge_packetLen _
  rw [← hused, ← hlen, ← hpacket]
  constructor
  · rintro ⟨ret, info', hok, hright⟩
    have hpair := Except.ok.inj (hcall.symm.trans hok)
    rw [hpair]
    exact hright
  · intro hright
    exact ⟨_, _, hcall, hright⟩

/-- A socket that comes out right whatever `recv` answers has a tame loop. -/
theorem tame_of_right (hfits : ¬ (info.askLen f).packetLen > info.recvBufLenMax)
    (hlen : (info.askLen f).enlarge.recvBufLen < 2 ^ 32)
    (hall : ∀ recvs stop, processRecvLvFormat f info recvs stop ≠ .error .disabled →
      ReceivesRight f info recvs stop) :
    Tame info.recvBufUsed (info.askLen f).enlarge.recvBufLen (info.askLen f).packetLen
      (info.askLen f).enlarge.bufLen := by
  have hb : (info.askLen f).enlarge.bufLen < 2 ^ 32 := by
    unfold SocketInfo.bufLen sub32
    omega
  -- the answers that lead to `cur`, and one of `n` bytes
  have hfeed : ∀ {cur n : Nat}, Feeds info.recvBufUsed (info.askLen f).enlarge.recvBufLen
      (info.askLen f).enlarge.bufLen 0 cur → Possible (info.askLen f).enlarge.bufLen cur n →
      ∃ recvs data, data.length = cur + n ∧ ∀ stop, processRecvLvFormat f info recvs stop =
        if info.recvBufUsed + cur + n > (info.askLen f).enlarge.recvBufLen then .error .overflow
        else .ok (afterRecv (info.askLen f).enlarge stop data
          (cur + n = (info.askLen f).enlarge.bufLen)) := by
    rintro cur n ⟨recvs, data, hpos, hloop⟩ hn
    refine ⟨recvs ++ [List.replicate n 0], data ++ List.replicate n 0, ?_, fun stop => ?_⟩
    · rw [List.length_append, List.length_replicate]
      omega
    · rw [processRecv_eq hstate htype hfits, hloop, loopAt_cons hb hlen hn List.length_replicate]
      split
      · rfl
      · split
        · next heq => simp only [Except.map, heq, decide_true]
        · next hne => simp only [Except.map, loopAt, recvLoop, hne, decide_false, List.append_nil]
  refine ⟨?_, ?_, ?_⟩
  · intro cur n hcur hn
    obtain ⟨recvs, data, -, hcall⟩ := hfeed hcur hn
    by_contra hover
    have hfault := (hcall .again).trans (if_pos (Nat.lt_of_not_le hover))
    obtain ⟨ret, info', hok, -⟩ := hall recvs .again (by rw [hfault]; decide)
    cases hfault.symm.trans hok
  · rintro cur ⟨recvs, data, hpos, hloop⟩ hknown
    have hend : processRecvLvFormat f info recvs .error =
        .ok (afterRecv (info.askLen f).enlarge .error data false) := by
      have hnil := hloop []
      rw [List.append_nil] at hnil
      rw [processRecv_eq hstate htype hfits, hnil]
      simp only [Except.map, loopAt, recvLoop, List.append_nil]
    obtain ⟨-, hle, hiff⟩ := (receivesRight_iff hend).mp (hall recvs .error (by rw [hend]; nofun))
    refine ⟨?_, fun heq => ?_⟩
    · have hmax := hle hknown
      omega
    · have hzero := hiff.mpr ⟨hknown, by omega⟩
      cases hzero
  · intro cur n hcur hn heq
    obtain ⟨recvs, data, hdata, hcall⟩ := hfeed hcur hn
    by_cases hover : info.recvBufUsed + cur + n > (info.askLen f).enlarge.recvBufLen
    · have hfault := (hcall .again).trans (if_pos hover)
      obtain ⟨ret, info', hok, -⟩ := hall recvs .again (by rw [hfault]; decide)
      cases hfault.symm.trans hok
    · have hend := (hcall .again).trans (if_neg hover)
      rw [decide_eq_true heq] at hend
      have hright := (receivesRight_iff hend).mp (hall recvs .again (by rw [hend]; nofun))
      have hcomplete := hright.2.2.mp rfl
      exact ⟨hcomplete.1, by omega⟩

/-- With no byte asked for there is nothing to go wrong, unless the packet is complete. -/
theorem right_of_nothing (hfits : ¬ (info.askLen f).packetLen > info.recvBufLenMax)
    (hroom : info.recvBufUsed ≤ (info.askLen f).enlarge.recvBufLen)
    (hincomplete : (info.askLen f).packetLen = 0 ∨ (info.askLen f).packetLen ≠ info.recvBufUsed)
    (stop : Stop) : ReceivesRight f info [] stop := by
  have hcall : processRecvLvFormat f info [] stop =
      .ok (afterRecv (info.askLen f).enlarge stop [] false) := by
    rw [processRecv_eq hstate htype hfits]
    rfl
  refine (receivesRight_iff hcall).mpr ⟨hroom, fun _ => Nat.le_max_left _ _, ?_⟩
  refine iff_of_false (afterRecv_fst ?_) ?_
  · simpa [SocketInfo.recvBufUsed] using hincomplete
  · rintro ⟨hpos, heq⟩
    exact hincomplete.elim hpos fun hne => hne heq.symm

/-- **A harmless socket comes out right**, whatever `recv` answers. -/
theorem right_of_harmless (hused : info.recvBufUsed ≤ info.recvBufLen)
    (hlen : info.recvBufLen ≤ info.recvBufLenMax) (hmax : info.recvBufLenMax < 2 ^ 32)
    (hharmless : Harmless (info.askLen f)) {recvs : List (List Byte)} {stop : Stop}
    (hable : processRecvLvFormat f info recvs stop ≠ .error .disabled) :
    ReceivesRight f info recvs stop := by
  simp only [Harmless, askLen_recvBufLenMax, askLen_recvBufUsed] at hharmless
  by_cases hlong : (info.askLen f).packetLen > info.recvBufLenMax
  · -- the packet is refused
    have hcall := processRecv_tooLong hstate htype hlong recvs stop
    refine ⟨_, _, hcall, ?_, ?_, ?_⟩
    · rw [askLen_recvBufUsed, askLen_recvBufLen]
      exact hused
    · intro _
      rw [askLen_recvBufUsed]
      exact Nat.le_max_left _ _
    · rw [askLen_recvBufUsed]
      refine iff_of_false (by decide) ?_
      rintro ⟨-, heq⟩
      omega
  · obtain ⟨hfit, hgrow, hle⟩ := enlarge_fits hlen hlong
    have hbuf := askLen_bufLen info f
    have hincomplete : (info.askLen f).packetLen = 0 ∨
        (info.askLen f).packetLen ≠ info.recvBufUsed := by
      omega
    rcases recvs with _ | ⟨data, recvs⟩
    · exact right_of_nothing hstate htype hlong (by omega) hincomplete stop
    · -- the one byte that is asked for
      have hone : (info.askLen f).enlarge.bufLen = 0 ∨ (info.askLen f).enlarge.bufLen = 1 ∧
          (info.askLen f).packetLen = info.recvBufUsed + 1 := by
        rw [hbuf]
        unfold sub32
        omega
      have hcall := processRecv_eq hstate htype hlong (data :: recvs) stop
      by_cases hdis : data = [] ∨
          data.length > sub32 (info.askLen f).enlarge.bufLen (sub32 0 0) ∨ data.length > maxTransfer
      · refine absurd ?_ hable
        rw [hcall, loopAt, recvLoop, if_pos hdis]
        rfl
      · push Not at hdis
        have hpos : 0 < data.length := List.length_pos_iff.mpr hdis.1
        have hsmall := hdis.2.1
        rw [request_eq (by omega)] at hsmall
        have hlength : data.length = 1 ∧ (info.askLen f).enlarge.bufLen = 1 ∧
            (info.askLen f).packetLen = info.recvBufUsed + 1 := by omega
        have hpossible : Possible (info.askLen f).enlarge.bufLen 0 1 :=
          ⟨Nat.le_refl 1, by omega, by decide⟩
        rw [loopAt_cons (by omega) (by omega) hpossible hlength.1, if_neg (by omega),
          if_pos (by omega)] at hcall
        have hdone : processRecvLvFormat f info (data :: recvs) stop =
            .ok (afterRecv (info.askLen f).enlarge stop data true) := hcall
        refine (receivesRight_iff hdone).mpr ⟨by omega, fun _ => by omega, ?_⟩
        exact iff_of_true rfl ⟨by omega, by omega⟩

end Receive

/-- **`process_recv_lv_format` is right, whatever `recv` answers, exactly on the sockets on which
its arithmetic does no harm.** -/
theorem recv_lv_iff (f : List Byte → Int) (info : SocketInfo)
    (hstate : info.state = .inReceive ∨ info.state = .inReceiveAndProcess)
    (htype : info.type = .tcpServerLV ∨ info.type = .tcpClientLV)
    (hused : info.recvBufUsed ≤ info.recvBufLen) (hlen : info.recvBufLen ≤ info.recvBufLenMax)
    (hmax : info.recvBufLenMax < 2 ^ 32) :
    (∀ recvs stop, processRecvLvFormat f info recvs stop ≠ .error .disabled →
        ReceivesRight f info recvs stop) ↔ Harmless (info.askLen f) := by
  constructor
  · intro hall
    by_cases hlong : (info.askLen f).packetLen > info.recvBufLenMax
    · exact Or.inl (by rwa [askLen_recvBufLenMax])
    · obtain ⟨hfit, hgrow, hle⟩ := enlarge_fits hlen hlong
      have hbuf := askLen_bufLen info f
      have htame := tame_of_right hstate htype hlong (by omega) hall
      have hcases := htame.cases hbuf (by omega) (by omega) hfit
      rw [hbuf] at hcases
      right
      rw [askLen_recvBufUsed]
      unfold sub32 at hcases
      omega
  · intro hharmless recvs stop hable
    exact right_of_harmless hstate htype hused hlen hmax hharmless hable

/-- A server socket with `used` bytes of a packet of `packetLen` bytes, in a buffer of 16. -/
def halfReceived (used packetLen : Nat) : SocketInfo where
  state := .inReceive
  type := .tcpServerLV
  packetLen := packetLen
  recvBuf := List.replicate used 0
  recvBufLen := 16
  recvBufLenMax := 64
  sendBuf := []
  sendBufNum := 0

/-- Five bytes of a packet of twelve are there, and `12 + 5 = 16 + 1`: nothing is asked for. -/
theorem halfReceived_right : Harmless ((halfReceived 5 12).askLen fun _ => 0) ∧
    ∀ recvs stop,
      processRecvLvFormat (fun _ => 0) (halfReceived 5 12) recvs stop ≠ .error .disabled →
        ReceivesRight (fun _ => 0) (halfReceived 5 12) recvs stop := by
  have hharmless : Harmless ((halfReceived 5 12).askLen fun _ => 0) := by
    unfold Harmless
    decide
  refine ⟨hharmless, ?_⟩
  exact (recv_lv_iff (fun _ => 0) (halfReceived 5 12) (by decide) (by decide) (by decide)
    (by decide) (by decide)).mpr hharmless

/-- Four bytes of a packet of eight are there.  Far more than the missing four are asked for; when
13 come at once, the last one is stored behind the buffer, and when six come, two are taken from the
next packet. -/
theorem halfReceived_wrong :
    processRecvLvFormat (fun _ => 0) (halfReceived 4 8) [List.replicate 13 0] .again =
        .error .overflow ∧
      (processRecvLvFormat (fun _ => 0) (halfReceived 4 8) [List.replicate 6 0] .again).map
        (fun r => (r.1, r.2.recvBufUsed)) = .ok (1, 10) ∧
      ¬ ∀ recvs stop, processRecvLvFormat (fun _ => 0) (halfReceived 4 8) recvs stop ≠
        .error .disabled → ReceivesRight (fun _ => 0) (halfReceived 4 8) recvs stop := by
  have hover : processRecvLvFormat (fun _ => 0) (halfReceived 4 8) [List.replicate 13 0] .again =
      .error .overflow := by
    decide +kernel
  refine ⟨hover, by decide +kernel, fun hall => ?_⟩
  obtain ⟨ret, info', hok, -⟩ := hall [List.replicate 13 0] .again (by rw [hover]; decide)
  cases hover.symm.trans hok

end Kknf.CNf.Process
