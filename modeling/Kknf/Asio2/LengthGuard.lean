/-
# The length of an LV frame, as it is checked

The length field of a frame is a signed 32-bit integer that the peer chooses.  The decoder exists
four times in `aanf/asio-based2`, and none of the copies checks all it needs:

* `Skeleton::HandleReadLThenReadV` has no lower bound.  With a length below 4 the number of bytes of
  the read, `len - 4`, is converted to an unsigned integer near `2^64`.
* `Skeleton::ToWriteThenReadSync` and the `Client::ToWriteThenReadSync` that connects refuse only
  the negative lengths, and they read the body to `&len_field[4]`, which is one past the end of
  `len_field`.
* The `Client::ToWriteThenReadSync` for a connection that exists has the target right, but for the
  lengths 0 to 3 it copies the header into a buffer that is too short.

`length_guard_iff` says for each of the copies which lengths it handles without touching memory that
is not its own.

The `Client` of `include/sync_client.hpp` is modelled here.  Its sockets are the `SocketInfo`s of
the skeleton, and its `init_recv_buf_size_` and `max_recv_buf_size_` are those of `Config`.
-/
import Kknf.Asio2.Listening

namespace Kknf.Asio2

open Run

/-! ## 1. The client -/

/-- `Client`. -/
structure Client where
  heap : SockId → SocketInfo
  /-- the next `SocketInfo` to be created -/
  next : SockId
  tcpClientSocketMap : StdMap TCPEndpoint (List SockId)
  clock : Int

/-- What the blocking calls of the client give. -/
structure SyncAnswers where
  connectOk : Bool := true
  writeOk : Bool := true
  /-- the 4 bytes of the length, `none` for an error -/
  header : Option (List Byte) := none
  /-- the read of the body ends without an error -/
  bodyOk : Bool := true
  /-- what it has transferred -/
  body : List Byte := []

/-- Why a call does not return. -/
inductive SyncFault
  /-- the answers are not possible ones -/
  | disabled
  /-- bytes would be written outside a buffer -/
  | overrun
  /-- `BOOST_ASSERT(false)` in `DestroySocket`, for a socket without `is_client` -/
  | assertIsClient
  deriving DecidableEq

namespace Client

/-- Change one `SocketInfo`. -/
def setSock (c : Client) (i : SockId) (f : SocketInfo → SocketInfo) : Client :=
  { c with heap := Function.update c.heap i (f (c.heap i)) }

/-- `InsertTCPClientSocket`. -/
def insertTCPClientSocket (c : Client) (key : TCPEndpoint) (i : SockId) : Client :=
  { c with tcpClientSocketMap := c.tcpClientSocketMap.pushBack key i }

/-- `DestroySocket`. -/
def destroySocket (c : Client) (i : SockId) : Except SyncFault (Client × Int) :=
  let c' := c.setSock i fun k => { k with closed := true }
  if (c.heap i).isClient then
    match c.tcpClientSocketMap.find (c.heap i).remoteEndpoint with
    | none => .ok (c', -1)
    | some l =>
      let l' := l.filter (· ≠ i)
      .ok ({ c' with tcpClientSocketMap :=
        if l'.isEmpty then c.tcpClientSocketMap.erase (c.heap i).remoteEndpoint
        else c.tcpClientSocketMap.set (c.heap i).remoteEndpoint l' }, 0)
  else .error .assertIsClient

/-- Bytes are written to `target[off]` and behind it. -/
def store (target : List Byte) (off : Nat) (data : List Byte) : Except SyncFault (List Byte) :=
  if off + data.length ≤ target.length then .ok (overwrite target off data) else .error .overrun

/-- `read(.., buffer(&target[off], count), transfer_all(), e)`. -/
def read (target : List Byte) (off count : Nat) (a : SyncAnswers) : Except SyncFault (List Byte) :=
  if a.body.length ≤ count ∧ (a.bodyOk = true → a.body.length = count) then store target off a.body
  else .error .disabled

/-- `ToWriteThenReadSync(remote_endpoint, ..)`, which connects: the client, the result and
`buf_to_fill`.  The bytes of the body are written behind the 4 bytes of `len_field`. -/
def toConnectThenReadSync (cfg : Config) (c : Client) (remote : TCPEndpoint)
    (buf bufToFill : List Byte) (a : SyncAnswers) : Except SyncFault (Client × Int × List Byte) :=
  if !a.connectOk then .ok (c, -1, bufToFill)
  else
    let i := c.next
    let c' : Client := { c with
      next := c.next + 1
      heap := Function.update c.heap i {
        type := .lv, accessTime := c.clock, remoteEndpoint := remote, isConnected := true,
        sendBuf := buf } }
    if !a.writeOk then .ok (c', -1, bufToFill)
    else
      match a.header with
      | none => .ok (c', -1, bufToFill)
      | some lenField =>
        if lenField.length ≠ 4 then .error .disabled
        else
          let len := lengthField cfg lenField
          if len < 0 ∨ cfg.maxRecvBufSize < len then .ok (c', -2, bufToFill)
          else
            match store (resize 0 bufToFill len.toNat) 0 lenField with
            | .error f => .error f
            | .ok filled =>
              match read lenField 4 (sizeT (len - 4)) a with
              | .error f => .error f
              | .ok _ =>
                if !a.bodyOk then .ok (c', -3, filled)
                else .ok (insertTCPClientSocket c' remote i, 0, filled)

/-- A failure of `ToWriteThenReadSync(skinfo, ..)`: the socket is destroyed. -/
def failed (c : Client) (i : SockId) (ret : Int) (bufToFill : List Byte) :
    Except SyncFault (Client × Int × List Byte) :=
  (destroySocket c i).map fun r => (r.1, ret, bufToFill)

/-- `ToWriteThenReadSync(skinfo, ..)`, on a connection that exists. -/
def toWriteThenReadSync (cfg : Config) (c : Client) (i : SockId) (buf bufToFill : List Byte)
    (a : SyncAnswers) : Except SyncFault (Client × Int × List Byte) :=
  let c' := c.setSock i fun k => { k with sendBuf := buf }
  if !a.writeOk then failed c' i (-1) bufToFill
  else
    match a.header with
    | none => failed c' i (-1) bufToFill
    | some lenField =>
      if lenField.length ≠ 4 then .error .disabled
      else
        let len := lengthField cfg lenField
        if len < 0 ∨ cfg.maxRecvBufSize < len then failed c' i (-2) bufToFill
        else
          match store (resize 0 bufToFill len.toNat) 0 lenField with
          | .error f => .error f
          | .ok filled =>
            match read filled 4 (sizeT (len - 4)) a with
            | .error f => .error f
            | .ok filled' =>
              if !a.bodyOk then failed c' i (-3) filled'
              else .ok (c', 0, filled')

end Client

/-! ## 2. The asynchronous copy -/

/-- What `HandleReadLThenReadV` may do: destroy the socket, or start a read of the `len - 4` bytes
that follow the header to `[4, len)` of `recv_buf`. -/
def Guarded (cfg : Config) (s : Skeleton) (error : Bool) (i : SockId) : Prop :=
  let s' := handleReadLThenReadV cfg s error i
  let len := lengthField cfg (s.heap i).recvBuf
  (s'.pending = s.pending ∧ (s'.heap i).closed = true) ∨
    (s'.pending = s.pending ++ [.readVThenProcess i len] ∧ 4 ≤ len ∧
      (sizeT (len - 4) : Int) = len - 4 ∧ 4 + sizeT (len - 4) ≤ (s'.heap i).recvBuf.length)

theorem pending_destroySocket (s : Skeleton) (i : SockId) :
    (destroySocket s i).1.pending = s.pending := by
  unfold destroySocket
  split
  · split <;> rfl
  · rfl

theorem closed_destroySocket (s : Skeleton) (i : SockId) :
    ((destroySocket s i).1.heap i).closed = true := by
  have hclose : ((closeSk s i).heap i).closed = true := by simp [closeSk, setSock]
  unfold destroySocket
  split
  · split <;> exact hclose
  · exact hclose

theorem heap_push (s : Skeleton) (op : Op) : (push s op).heap = s.heap := rfl

theorem length_store32 (cfg : Config) (n : Nat) :
    (store32 cfg.host (networkToHostLong cfg.host n)).length = 4 := by
  rw [store32_networkToHostLong, length_toBytesBE]

/-- The buffer is long enough for the frame. -/
theorem le_length_setFrameBuf (cfg : Config) (s : Skeleton) (i : SockId) {len : Int} (h : 4 ≤ len) :
    len ≤ (((setFrameBuf cfg s i len).heap i).recvBuf.length : Int) := by
  unfold setFrameBuf
  split
  · have hroom : 0 + (store32 cfg.host (networkToHostLong cfg.host len.toNat)).length ≤
        (List.replicate len.toNat (0 : Byte)).length := by
      rw [length_store32, List.length_replicate]
      omega
    simp only [setRecvBuf, setSock, Function.update_self]
    rw [length_overwrite hroom, List.length_replicate]
    omega
  · omega

theorem pending_setFrameBuf (cfg : Config) (s : Skeleton) (i : SockId) (len : Int) :
    (setFrameBuf cfg s i len).pending = s.pending := by
  unfold setFrameBuf
  split <;> rfl

/-- The three ways through `HandleReadLThenReadV`. -/
theorem handleReadLThenReadV_cases (cfg : Config) (s : Skeleton) (error : Bool) (i : SockId) :
    (error = true ∧ handleReadLThenReadV cfg s error i = (destroySocket s i).1) ∨
    (error = false ∧ cfg.maxRecvBufSize < lengthField cfg (s.heap i).recvBuf ∧
      handleReadLThenReadV cfg s error i = (destroySocket (touch s i) i).1) ∨
    (error = false ∧ ¬ cfg.maxRecvBufSize < lengthField cfg (s.heap i).recvBuf ∧
      handleReadLThenReadV cfg s error i =
        push (setFrameBuf cfg (touch s i) i (lengthField cfg (s.heap i).recvBuf))
          (.readVThenProcess i (lengthField cfg (s.heap i).recvBuf))) := by
  unfold handleReadLThenReadV
  rcases error with _ | _
  · rw [if_neg Bool.false_ne_true]
    by_cases hmax : cfg.maxRecvBufSize < lengthField cfg (s.heap i).recvBuf
    · simp only [if_pos hmax]
      exact .inr (.inl ⟨trivial, hmax, trivial⟩)
    · simp only [if_neg hmax]
      exact .inr (.inr ⟨trivial, hmax, trivial⟩)
  · rw [if_pos rfl]
    exact .inl ⟨rfl, rfl⟩

/-- The number of bytes that are asked for is the right one from the length 4 on. -/
theorem sizeT_sub_four {len : Int} (hlen : 4 ≤ len) (hmax : len < 2 ^ 31) :
    sizeT (len - 4) = (len - 4).toNat := sizeT_eq (by omega) (by omega)

/-- The asynchronous copy is right for a failed read, the lengths above the maximum and those from 4
on. -/
theorem guarded_iff (cfg : Config) (s : Skeleton) (error : Bool) (i : SockId) :
    Guarded cfg s error i ↔ error = true ∨
      cfg.maxRecvBufSize < lengthField cfg (s.heap i).recvBuf ∨
      4 ≤ lengthField cfg (s.heap i).recvBuf := by
  unfold Guarded
  rcases handleReadLThenReadV_cases cfg s error i with
    ⟨herr, heq⟩ | ⟨-, hmax, heq⟩ | ⟨herr, hmax, heq⟩
  · rw [heq]
    exact iff_of_true (.inl ⟨pending_destroySocket s i, closed_destroySocket s i⟩) (.inl herr)
  · rw [heq]
    exact iff_of_true (.inl ⟨pending_destroySocket _ i, closed_destroySocket _ i⟩)
      (.inr (.inl hmax))
  · rw [heq, or_iff_right (Bool.eq_false_iff.mp herr), or_iff_right hmax]
    generalize lengthField cfg (s.heap i).recvBuf = len at *
    have hpending : (push (setFrameBuf cfg (touch s i) i len) (.readVThenProcess i len)).pending =
        s.pending ++ [.readVThenProcess i len] := by
      simp only [push, pending_setFrameBuf, touch, setSock]
    constructor
    · rintro (⟨hsame, -⟩ | ⟨-, hlen, -⟩)
      · rw [hpending] at hsame
        exact absurd hsame (by simp)
      · exact hlen
    · intro hlen
      have hcount := sizeT_sub_four hlen
        (Int.lt_of_le_of_lt (Int.not_lt.mp hmax) cfg.maxRecvBufSize_int)
      have hroom := le_length_setFrameBuf cfg (touch s i) i hlen
      refine .inr ⟨hpending, hlen, ?_, ?_⟩
      · rw [hcount]
        omega
      · rw [hcount]
        rw [heap_push]
        omega

/-! ## 3. The blocking copies -/

/-- A length the blocking copies refuse. -/
def Refused (cfg : Config) (lenField : List Byte) : Prop :=
  lengthField cfg lenField < 0 ∨ cfg.maxRecvBufSize < lengthField cfg lenField

/-- `Skeleton::ToWriteThenReadSync` gets to the read of the length: the socket type is the supported
one, and there is a connection on which the write succeeds. -/
def SyncReady (s : Skeleton) (remote : TCPEndpoint) (type : SocketType) (o : SyncOutcome) : Prop :=
  type = .lv ∧ o.writeOk = true ∧
    match findIdleTCPClientSocket s remote with
    | some i => (s.heap i).type = .lv
    | none => o.connectOk = true

theorem not_exists_header_iff {header : Option (List Byte)} {Fails Works : List Byte → Prop} :
    (¬ ∃ h, header = some h ∧ h.length = 4 ∧ ¬ Fails h ∧ ¬ Works h) ↔
      ∀ h, header = some h → h.length = 4 → Fails h ∨ Works h := by
  constructor
  · intro hnone h hheader hfour
    by_contra hno
    rw [not_or] at hno
    exact hnone ⟨h, hheader, hfour, hno⟩
  · rintro hall ⟨h, hheader, hfour, hfails, hworks⟩
    rcases hall h hheader hfour with hf | hw
    · exact hfails hf
    · exact hworks hw

/-- After the write, some answer to the read of the body makes the function write outside its
buffers exactly for the lengths that it lets through, except for 4. -/
theorem readSync_overrun_iff {cfg : Config} {s : Skeleton} {i : SockId} {o : SyncOutcome} :
    (∃ body, readSync cfg s i { o with body := body } = .error .overrun) ↔
      ∃ lenField, o.header = some lenField ∧ lenField.length = 4 ∧
        ¬ Refused cfg lenField ∧ lengthField cfg lenField ≠ 4 := by
  constructor
  · rintro ⟨body, hover⟩
    unfold readSync at hover
    split at hover
    · contradiction
    · rename_i h hheader
      split at hover
      · exact absurd (Except.error.inj hover) (by decide)
      · rename_i hfour
        dsimp only at hover
        split at hover
        · contradiction
        · rename_i hlet
          refine ⟨h, hheader, not_not.mp hfour, hlet, fun hlen => ?_⟩
          -- nothing is read behind the header
          rw [hlen] at hover
          rcases body with _ | _ | _ <;> simp at hover
  · rintro ⟨h, hheader, hfour, hlet, hlen⟩
    refine ⟨some (List.replicate ((lengthField cfg h).toNat - 4) 0), ?_⟩
    unfold readSync
    simp only [hheader, hfour, ne_eq, not_true_eq_false, if_false]
    simp only [Refused] at hlet
    rw [if_neg hlet]
    by_cases hlow : lengthField cfg h < 4
    · rw [if_pos hlow]
    · rw [if_neg hlow, if_neg (by simp), if_pos (by rw [List.length_replicate]; omega)]

/-- Either the function reads a length, or it returns or stops before. -/
theorem toWriteThenReadSync_cases (cfg : Config) (s : Skeleton) (remote : TCPEndpoint)
    (type : SocketType) (buf : List Byte) (o : SyncOutcome) :
    (SyncReady s remote type o ∧ ∃ s' i, ∀ body,
      toWriteThenReadSync cfg s remote type buf { o with body := body } =
        readSync cfg s' i { o with body := body }) ∨
    (¬ SyncReady s remote type o ∧ ∀ body,
      toWriteThenReadSync cfg s remote type buf { o with body := body } ≠ .error .overrun) := by
  unfold SyncReady toWriteThenReadSync
  cases hfind : findIdleTCPClientSocket s remote with
  | some i =>
    by_cases hsame : type = (s.heap i).type
    · by_cases hlv : type = .lv
      · by_cases hwrite : o.writeOk = true
        · refine .inl ⟨⟨hlv, hwrite, hsame.symm.trans hlv⟩, setSendBuf s i buf, i, fun body => ?_⟩
          simp only [← hsame, hlv, hwrite, ne_eq, not_true_eq_false, if_false, if_true]
        · refine .inr ⟨fun h => hwrite h.2.1, fun body => ?_⟩
          simp [← hsame, hlv, hwrite]
      · refine .inr ⟨fun h => hlv h.1, fun body => ?_⟩
        simp [← hsame, hlv]
    · refine .inr ⟨fun h => hsame (h.1.trans h.2.2.symm), fun body => ?_⟩
      simp [hsame]
  | none =>
    by_cases hlv : type = .lv
    · by_cases hconnect : o.connectOk = true
      · by_cases hwrite : o.writeOk = true
        · refine .inl ⟨⟨hlv, hwrite, hconnect⟩, insertTCPClientSocket (alloc s
            { type := type, accessTime := s.clock, remoteEndpoint := remote, isConnected := true,
              inUse := true, sendBuf := buf }) remote s.next, s.next, fun body => ?_⟩
          simp only [hlv, hwrite, hconnect, ne_eq, not_true_eq_false, if_false, if_true,
            Bool.not_true, Bool.false_eq_true]
        · refine .inr ⟨fun h => hwrite h.2.1, fun body => ?_⟩
          simp [hlv, hconnect, hwrite]
      · refine .inr ⟨fun h => hconnect h.2.2, fun body => ?_⟩
        simp [hlv, hconnect]
    · refine .inr ⟨fun h => hlv h.1, fun body => ?_⟩
      simp [hlv]

/-- The copy of the skeleton. -/
theorem sync_safe_iff (cfg : Config) (s : Skeleton) (remote : TCPEndpoint) (type : SocketType)
    (buf : List Byte) (o : SyncOutcome) :
    (∀ body, toWriteThenReadSync cfg s remote type buf { o with body := body } ≠ .error .overrun) ↔
      (SyncReady s remote type o → ∀ lenField, o.header = some lenField → lenField.length = 4 →
        Refused cfg lenField ∨ lengthField cfg lenField = 4) := by
  rcases toWriteThenReadSync_cases cfg s remote type buf o with
    ⟨hready, s', i, heq⟩ | ⟨hready, hne⟩
  · simp only [heq, hready, true_implies]
    rw [← not_exists_header_iff, ← readSync_overrun_iff, not_exists]
  · exact iff_of_true hne fun h => absurd h hready

namespace Client

/-- Some answer to the read goes past the end of the target exactly when the whole of it would. -/
theorem read_overrun_iff {target : List Byte} {off count : Nat} {a : SyncAnswers} :
    (∃ ok body, read target off count { a with bodyOk := ok, body := body } = .error .overrun) ↔
      target.length < off + count := by
  constructor
  · rintro ⟨ok, body, hover⟩
    unfold read at hover
    split at hover
    · rename_i hfits
      by_contra hroom
      have hle := Nat.add_le_add_left hfits.1 off
      rw [store, if_pos (Nat.le_trans hle (Nat.not_lt.mp hroom))] at hover
      contradiction
    · exact absurd (Except.error.inj hover) (by decide)
  · intro hlong
    refine ⟨true, List.replicate count 0, ?_⟩
    have hlen : (List.replicate count (0 : Byte)).length = count := List.length_replicate
    unfold read store
    rw [if_pos ⟨Nat.le_of_eq hlen, fun _ => hlen⟩, if_neg]
    simp only [hlen]
    omega

/-- The header is copied into a buffer of the frame's length. -/
theorem store_header {bufToFill lenField : List Byte} {len : Int} (hfour : lenField.length = 4) :
    store (resize 0 bufToFill len.toNat) 0 lenField =
      if len < 4 then .error .overrun else
        .ok (overwrite (resize 0 bufToFill len.toNat) 0 lenField) := by
  unfold store
  rw [length_resize, hfour]
  by_cases hlow : len < 4
  · rw [if_pos hlow, if_neg]
    omega
  · rw [if_neg hlow, if_pos]
    omega

theorem length_filled (bufToFill : List Byte) {lenField : List Byte} {len : Int}
    (hfour : lenField.length = 4) (hlow : ¬ len < 4) :
    (overwrite (resize 0 bufToFill len.toNat) 0 lenField).length = len.toNat := by
  rw [length_overwrite, length_resize]
  rw [length_resize, hfour]
  omega

theorem lt_of_not_refused {cfg : Config} {lenField : List Byte} (h : ¬ Refused cfg lenField) :
    0 ≤ lengthField cfg lenField ∧ lengthField cfg lenField < 2 ^ 31 := by
  obtain ⟨hneg, hmax⟩ := not_or.mp h
  exact ⟨Int.not_lt.mp hneg, Int.lt_of_le_of_lt (Int.not_lt.mp hmax) cfg.maxRecvBufSize_int⟩

theorem failed_ne_overrun (c : Client) (i : SockId) (ret : Int) (buf : List Byte) :
    failed c i ret buf ≠ .error .overrun := by
  intro h
  unfold failed destroySocket at h
  dsimp only at h
  split at h
  · split at h
    · contradiction
    · contradiction
  · exact absurd (Except.error.inj h) (by decide)

section

variable {cfg : Config} {c : Client} {remote : TCPEndpoint} {i : SockId} {buf bufToFill : List Byte}
  {a : SyncAnswers}

/-- The header and the body of a frame whose length is let through are stored one after the
other. -/
theorem frame_overrun_iff {α : Type} {lenField : List Byte} {len : Int}
    (hfour : lenField.length = 4)
    (target : List Byte → List Byte) {finish : List Byte → List Byte → Except SyncFault α}
    (hfinish : ∀ filled filled', finish filled filled' ≠ .error .overrun) :
    (match store (resize 0 bufToFill len.toNat) 0 lenField with
      | .error f => Except.error f
      | .ok filled =>
        match read (target filled) 4 (sizeT (len - 4)) a with
        | .error f => Except.error f
        | .ok filled' => finish filled filled') = .error .overrun ↔
      len < 4 ∨ ¬ len < 4 ∧
        read (target (overwrite (resize 0 bufToFill len.toNat) 0 lenField)) 4 (sizeT (len - 4)) a =
          .error .overrun := by
  rw [store_header hfour]
  by_cases hlow : len < 4
  · simp [hlow]
  · simp only [hlow, if_false, false_or, not_false_eq_true, true_and]
    split
    · rename_i f hf
      rw [hf]
      simp
    · rename_i hok
      rw [hok]
      exact iff_of_false (hfinish _ _) (fun h => nomatch h)

/-- The connecting copy writes outside its buffers only for a length it lets through. -/
theorem connect_overrun_iff_read :
    toConnectThenReadSync cfg c remote buf bufToFill a = .error .overrun ↔
      (a.connectOk = true ∧ a.writeOk = true) ∧ ∃ h, a.header = some h ∧ h.length = 4 ∧
        ¬ Refused cfg h ∧ (lengthField cfg h < 4 ∨ ¬ lengthField cfg h < 4 ∧
          read h 4 (sizeT (lengthField cfg h - 4)) a = .error .overrun) := by
  unfold toConnectThenReadSync
  by_cases hconnect : a.connectOk = true
  · by_cases hwrite : a.writeOk = true
    · simp only [hconnect, hwrite, Bool.not_true, Bool.false_eq_true, if_false, true_and]
      rcases a.header with _ | h
      · simp
      · simp only [Option.some.injEq, exists_eq_left', ne_eq, ite_not]
        by_cases hfour : h.length = 4
        · rw [if_pos hfour]
          by_cases hlet : lengthField cfg h < 0 ∨ cfg.maxRecvBufSize < lengthField cfg h
          · rw [if_pos hlet]
            exact iff_of_false (fun h => nomatch h) fun h => h.2.1 hlet
          · rw [if_neg hlet, frame_overrun_iff hfour fun _ => h]
            · have hlet' : ¬ Refused cfg h := hlet
              simp only [hfour, hlet', not_false_eq_true, true_and]
            · intro filled filled'
              split <;> exact fun h => nomatch h
        · simp [hfour]
    · simp [hconnect, hwrite]
  · simp [hconnect]

/-- And so does the copy for an existing connection. -/
theorem write_overrun_iff_read :
    toWriteThenReadSync cfg c i buf bufToFill a = .error .overrun ↔
      a.writeOk = true ∧ ∃ h, a.header = some h ∧ h.length = 4 ∧
        ¬ Refused cfg h ∧ (lengthField cfg h < 4 ∨ ¬ lengthField cfg h < 4 ∧
          read (overwrite (resize 0 bufToFill (lengthField cfg h).toNat) 0 h) 4
            (sizeT (lengthField cfg h - 4)) a = .error .overrun) := by
  unfold toWriteThenReadSync
  by_cases hwrite : a.writeOk = true
  · simp only [hwrite, Bool.not_true, Bool.false_eq_true, if_false, true_and]
    rcases a.header with _ | h
    · simp [failed_ne_overrun]
    · simp only [Option.some.injEq, exists_eq_left', ne_eq, ite_not]
      by_cases hfour : h.length = 4
      · rw [if_pos hfour]
        by_cases hlet : lengthField cfg h < 0 ∨ cfg.maxRecvBufSize < lengthField cfg h
        · rw [if_pos hlet]
          exact iff_of_false (failed_ne_overrun _ _ _ _) fun h => h.2.1 hlet
        · rw [if_neg hlet, frame_overrun_iff hfour fun filled => filled]
          · have hlet' : ¬ Refused cfg h := hlet
            simp only [hfour, hlet', not_false_eq_true, true_and]
          · intro filled filled'
            split
            · exact failed_ne_overrun _ _ _ _
            · exact fun h => nomatch h
      · simp [hfour]
  · simp [hwrite, failed_ne_overrun]

end

/-- A body of `len - 4` bytes behind a header of 4 that ends where its target ends, or goes past
it. -/
theorem overrun_read_iff {target : List Byte} {len : Int} {n : Nat} {a : SyncAnswers}
    (hlen : 0 ≤ len ∧ len < 2 ^ 31) (htarget : ¬ len < 4 → target.length = n) :
    (∃ ok body, len < 4 ∨ ¬ len < 4 ∧
      read target 4 (sizeT (len - 4)) { a with bodyOk := ok, body := body } = .error .overrun) ↔
      len < 4 ∨ n < len := by
  by_cases hlow : len < 4
  · simp [hlow]
  · simp only [hlow, false_or, not_false_eq_true, true_and]
    rw [read_overrun_iff, htarget hlow, sizeT_sub_four (Int.not_lt.mp hlow) hlen.2]
    omega

/-- A copy is safe exactly for the lengths it refuses and for those whose frame has room where the
body goes. -/
theorem safe_iff {cfg : Config} {a : SyncAnswers} {α : Type}
    {call : Bool → List Byte → Except SyncFault α} (Ready : Prop) (target : List Byte → List Byte)
    (room : List Byte → Nat)
    (hcall : ∀ ok body, call ok body = .error .overrun ↔
      Ready ∧ ∃ h, a.header = some h ∧ h.length = 4 ∧ ¬ Refused cfg h ∧
        (lengthField cfg h < 4 ∨ ¬ lengthField cfg h < 4 ∧
          read (target h) 4 (sizeT (lengthField cfg h - 4)) { a with bodyOk := ok, body := body } =
            .error .overrun))
    (hroom : ∀ h, h.length = 4 → ¬ lengthField cfg h < 4 → (target h).length = room h) :
    (∀ ok body, call ok body ≠ .error .overrun) ↔
      (Ready → ∀ h, a.header = some h → h.length = 4 →
        Refused cfg h ∨ 4 ≤ lengthField cfg h ∧ lengthField cfg h ≤ room h) := by
  constructor
  · intro hsafe hready h hheader hfour
    by_contra hno
    obtain ⟨hlet, hlen⟩ := not_or.mp hno
    have hread := overrun_read_iff (a := a) (lt_of_not_refused hlet) (hroom h hfour)
    obtain ⟨ok, body, hover⟩ := hread.mpr (by omega)
    exact hsafe ok body ((hcall ok body).mpr ⟨hready, h, hheader, hfour, hlet, hover⟩)
  · intro hgood ok body hover
    obtain ⟨hready, h, hheader, hfour, hlet, hread⟩ := (hcall ok body).mp hover
    have hlong := (overrun_read_iff (lt_of_not_refused hlet) (hroom h hfour)).mp ⟨ok, body, hread⟩
    rcases hgood hready h hheader hfour with hrefused | hlen
    · exact hlet hrefused
    · omega

/-- The copy of the client that connects: the body goes behind the 4 bytes of `len_field`. -/
theorem connect_safe_iff (cfg : Config) (c : Client) (remote : TCPEndpoint)
    (buf bufToFill : List Byte) (a : SyncAnswers) :
    (∀ ok body, toConnectThenReadSync cfg c remote buf bufToFill
        { a with bodyOk := ok, body := body } ≠ .error .overrun) ↔
      (a.connectOk = true ∧ a.writeOk = true → ∀ h, a.header = some h → h.length = 4 →
        Refused cfg h ∨ lengthField cfg h = 4) := by
  rw [safe_iff (a.connectOk = true ∧ a.writeOk = true) (fun h => h) (fun _ => 4)
    (fun _ _ => connect_overrun_iff_read) fun _ hfour _ => hfour]
  have hlen : ∀ h, (4 ≤ lengthField cfg h ∧ lengthField cfg h ≤ ((4 : Nat) : Int)) ↔
      lengthField cfg h = 4 := fun h => by omega
  simp only [hlen]

/-- The copy of the client for an existing connection: the body goes into the buffer of the
frame. -/
theorem write_safe_iff (cfg : Config) (c : Client) (i : SockId) (buf bufToFill : List Byte)
    (a : SyncAnswers) :
    (∀ ok body, toWriteThenReadSync cfg c i buf bufToFill
        { a with bodyOk := ok, body := body } ≠ .error .overrun) ↔
      (a.writeOk = true → ∀ h, a.header = some h → h.length = 4 →
        Refused cfg h ∨ 4 ≤ lengthField cfg h) := by
  rw [safe_iff (a.writeOk = true)
    (fun h => overwrite (resize 0 bufToFill (lengthField cfg h).toNat) 0 h)
    (fun h => (lengthField cfg h).toNat) (fun _ _ => write_overrun_iff_read)
    fun _ hfour => length_filled bufToFill hfour]
  have hlen : ∀ h, (4 ≤ lengthField cfg h ∧ lengthField cfg h ≤ ((lengthField cfg h).toNat : Int)) ↔
      4 ≤ lengthField cfg h := fun h => by omega
  simp only [hlen]

end Client

/-! ## 4. The lengths that are safe -/

/-- For each of the copies, the lengths that it handles without writing outside its buffers: the
asynchronous one, that of `Skeleton::ToWriteThenReadSync`, and the two of `Client`. -/
theorem length_guard_iff (cfg : Config) :
    (∀ s error i, Guarded cfg s error i ↔ error = true ∨
      cfg.maxRecvBufSize < lengthField cfg (s.heap i).recvBuf ∨
      4 ≤ lengthField cfg (s.heap i).recvBuf) ∧
    (∀ s remote type buf (o : SyncOutcome),
      (∀ body, toWriteThenReadSync cfg s remote type buf { o with body := body } ≠
        .error .overrun) ↔
        (SyncReady s remote type o → ∀ h, o.header = some h → h.length = 4 →
          Refused cfg h ∨ lengthField cfg h = 4)) ∧
    (∀ (c : Client) remote buf bufToFill (a : SyncAnswers),
      (∀ ok body, c.toConnectThenReadSync cfg remote buf bufToFill
          { a with bodyOk := ok, body := body } ≠ .error .overrun) ↔
        (a.connectOk = true ∧ a.writeOk = true → ∀ h, a.header = some h → h.length = 4 →
          Refused cfg h ∨ lengthField cfg h = 4)) ∧
    (∀ (c : Client) i buf bufToFill (a : SyncAnswers),
      (∀ ok body, c.toWriteThenReadSync cfg i buf bufToFill
          { a with bodyOk := ok, body := body } ≠ .error .overrun) ↔
        (a.writeOk = true → ∀ h, a.header = some h → h.length = 4 →
          Refused cfg h ∨ 4 ≤ lengthField cfg h)) :=
  ⟨guarded_iff cfg, sync_safe_iff cfg, Client.connect_safe_iff cfg, Client.write_safe_iff cfg⟩

/-- The client before its first request. -/
def Client.init : Client where
  heap := fun _ => { type := .unknown, accessTime := 0 }
  next := 0
  tcpClientSocketMap := StdMap.empty
  clock := 0

/-- A server that gets a header with the length 3 starts a read of `2^64 - 1` bytes into its buffer
of 4, and the copies that connect write the body of a frame of 5 bytes behind `len_field`. -/
theorem short_header_unguarded :
    (∃ s t, exec (step Config.lv) init acceptOnce = .ok s ∧ .readLThenReadV 0 ∈ s.pending ∧
      storeRecv (pop s (.readLThenReadV 0)) 0 0 [0, 0, 0, 3] = .ok t ∧
      (handleReadLThenReadV Config.lv t false 0).pending = t.pending ++ [.readVThenProcess 0 3] ∧
      ¬ Guarded Config.lv t false 0) ∧
    sizeT (3 - 4) = 2 ^ 64 - 1 ∧
    toWriteThenReadSync Config.lv init ⟨2, 80⟩ .lv []
      { header := some [0, 0, 0, 5], body := some [1] } = .error .overrun ∧
    Client.init.toConnectThenReadSync Config.lv ⟨2, 80⟩ [] []
      { header := some [0, 0, 0, 5], body := [1] } = .error .overrun ∧
    Client.init.toWriteThenReadSync Config.lv 0 [] []
      { header := some [0, 0, 0, 3] } = .error .overrun := by
  refine ⟨?_, by decide +kernel, ?_, ?_, ?_⟩
  · have hends : (exec (step Config.lv) init acceptOnce).map
        (fun s => (decide (.readLThenReadV 0 ∈ s.pending), (s.heap 0).recvBuf)) =
        .ok (true, [0, 0, 0, 0]) := by decide +kernel
    obtain ⟨s, hs, hend⟩ := map_eq_ok.mp hends
    obtain ⟨hpending, hbuf⟩ := Prod.mk.inj hend
    obtain ⟨t, ht⟩ : ∃ t, t = setSock (pop s (.readLThenReadV 0)) 0 fun k =>
      { k with recvBuf := overwrite k.recvBuf 0 [0, 0, 0, 3] } := ⟨_, rfl⟩
    have hstore : storeRecv (pop s (.readLThenReadV 0)) 0 0 [0, 0, 0, 3] = .ok t := by
      have hroom : 0 + [0, 0, 0, 3].length ≤
          ((pop s (.readLThenReadV 0)).heap 0).recvBuf.length := by
        have hbuf' : ((pop s (.readLThenReadV 0)).heap 0).recvBuf = [0, 0, 0, 0] := hbuf
        rw [hbuf']
        decide
      rw [ht]
      exact if_pos hroom
    have hlen : lengthField Config.lv (t.heap 0).recvBuf = 3 := by
      have hnew : (t.heap 0).recvBuf = overwrite (s.heap 0).recvBuf 0 [0, 0, 0, 3] := by
        rw [ht]
        simp [setSock, pop]
      rw [hnew, hbuf]
      decide +kernel
    refine ⟨s, t, hs, of_decide_eq_true hpending, hstore, ?_, ?_⟩
    · rcases handleReadLThenReadV_cases Config.lv t false 0 with ⟨herr, -⟩
        | ⟨-, hmax, -⟩ | ⟨-, -, heq⟩
      · exact absurd herr Bool.false_ne_true
      · rw [hlen] at hmax
        exact absurd hmax (by decide)
      · rw [heq, hlen]
        simp only [push, pending_setFrameBuf, touch, setSock]
    · rw [guarded_iff, hlen]
      decide
  · exact map_eq_error (f := fun _ => ()) (by decide +kernel)
  · exact map_eq_error (f := fun _ => ()) (by decide +kernel)
  · exact map_eq_error (f := fun _ => ()) (by decide +kernel)

end Kknf.Asio2
