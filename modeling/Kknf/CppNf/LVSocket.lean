/-
# Receiving with an `LVSocket`

`OnReadable` reads into the buffer of the message that is being received, a small block that is
exchanged for a large one when the message turns out to be longer; `MessageSize` takes the length
from the first four bytes, and `GetMessage` hands the buffer out when it holds that much.

All of this goes by `tail`, and nothing ever moves `tail`: `OnReadable` reads bytes to where it
points and leaves it there.  So the four bytes of a length are never seen, the size stays 0, and as
the buffer, taken by its `head` and `tail`, is empty too, `GetMessage` hands out an empty message
after every read and the bytes that were read are gone (`messages_empty`).  The path is right only
as long as nothing is read (`received_iff`).

The readings of the text: `ExtractMessageSize` is `MessageSize`, `tail()`, `length()` and `start()`
are the fields, and `msg_in_recv_` and `msg_in_recv_size_`, which nothing initialises, start as 0.
The blocks come from outside: the pool as it stands has no small one (`memPool_unsound`).
-/
import Kknf.CppNf.AsyncTcpSocket
import Kknf.Lib.Buffer
import Kknf.Lib.Posix

namespace Kknf.CppNf.LVSocket

open Kknf.Run Kknf.CppNf.AsyncTcpSocket

/-! ## 1. The functions -/

/-- What receiving uses of an `LVSocket`. -/
structure Socket where
  msgInRecv : Option Block
  msgInRecvSize : Int
  state : State

inductive Fault
  /-- `msg_in_recv_`, or a block that the pool did not have, is null -/
  | nullDeref
  /-- `assert(msg_in_recv_size_ == 0)` -/
  | assertSize
  /-- a write behind the end of a block -/
  | overrun
  deriving DecidableEq

/-- The bytes of a block are written over from `off` on; `head` and `tail` stay. -/
def store (b : Block) (off : Nat) (data : List Byte) : Except Fault Block :=
  if h : off + data.length ≤ b.length then
    .ok { b with
      bytes := overwrite b.bytes off data
      length_eq := by
        rw [length_overwrite (by rw [b.length_eq]; exact h)]
        exact b.length_eq }
  else .error .overrun

/-- `MessageSize`: the size it returns, and the socket. -/
def messageSize (o : ByteOrder) (sk : Socket) : Int × Socket :=
  match sk.msgInRecv with
  | none => (0, sk)
  | some b =>
    if b.tail - b.head ≥ 4 then
      let size := int32 (networkToHostLong o (load32 o (b.bytes.drop b.head)))
      (size, { sk with msgInRecvSize := size })
    else (0, sk)

/-- A call of `OnReadable`: how it finds the connection, `errno`, and the blocks that the pool
gives, if it is asked for them. -/
structure Call where
  ready : Ready
  errno : Errno
  smallBlock : Option Block
  largeBlock : Option Block

/-- What is in the block goes to the start of a large one, which takes its place. -/
def grow (b : Block) (largeBlock : Option Block) : Except Fault Block :=
  match largeBlock with
  | none => .error .nullDeref
  | some newbuf =>
    match store newbuf 0 b.pending with
    | .error f => .error f
    | .ok newbuf =>
      if h : newbuf.head ≤ b.tail - b.head ∧ b.tail - b.head ≤ newbuf.length then
        .ok { newbuf with tail := b.tail - b.head, head_le := h.1, tail_le := h.2 }
      else .error .overrun

/-- The `read`, and what follows it.  `errno != EAGAIN || errno != EINTR` always holds
(`errno_test`), so the loop around it is never continued. -/
def readBlock (sk : Socket) (b : Block) (c : Call) (stream : List Byte) :
    Except Fault (Int × Socket × List Byte) :=
  match readSome stream (b.length - b.tail) c.ready c.errno with
  | (num, data, stream, _) =>
    if num < 0 then .ok (-2, { sk with msgInRecv := some b }, stream)
    else if num = 0 then .ok (-3, { sk with msgInRecv := some b }, stream)
    else
      match store b b.tail data with
      | .error f => .error f
      | .ok b =>
        let code :=
          if sk.msgInRecvSize = b.tail - b.head then
            if sk.state = .toClose ∨ sk.state = .toCloseAfterSendAllData then 2 else 0
          else 1
        .ok (code, { sk with msgInRecv := some b }, stream)

theorem errno_test (errno : Errno) : errno ≠ EAGAIN ∨ errno ≠ EINTR := by
  by_cases h : errno = EAGAIN
  · subst h
    exact Or.inr (by decide)
  · exact Or.inl h

/-- The loop, with the message that is being received in `b`. -/
def readMessage (c : Config) (sk : Socket) (b : Block) (call : Call) (stream : List Byte) :
    Except Fault (Int × Socket × List Byte) :=
  let filled := b.tail
  let left := b.length - b.tail
  if sk.msgInRecvSize > 0 ∧ (left + filled : Int) < sk.msgInRecvSize then
    if sk.msgInRecvSize > c.largeBlockSize then .ok (-1, sk, stream)
    else
      match grow b call.largeBlock with
      | .error f => .error f
      | .ok newbuf => readBlock sk newbuf call stream
  else readBlock sk b call stream

/-- `OnReadable`: the code it returns, the socket, and what is still to come on the connection. -/
def onReadable (o : ByteOrder) (c : Config) (sk : Socket) (call : Call) (stream : List Byte) :
    Except Fault (Int × Socket × List Byte) :=
  match sk.msgInRecv with
  | none =>
    if sk.msgInRecvSize ≠ 0 then .error .assertSize
    else
      match call.smallBlock with
      | none => .error .nullDeref
      | some b =>
        let sk := (messageSize o { sk with msgInRecv := some b }).2
        readMessage c sk b call stream
  | some b => readMessage c (messageSize o sk).2 b call stream

/-- `GetMessage`: the message it returns, or null, and the socket. -/
def getMessage (sk : Socket) : Except Fault (Option Block × Socket) :=
  match sk.msgInRecv with
  | none => .error .nullDeref
  | some b =>
    if (b.tail - b.head : Int) = sk.msgInRecvSize then
      .ok (some b, { sk with msgInRecv := none, msgInRecvSize := 0 })
    else .ok (none, sk)

/-! ## 2. Runs -/

/-- A socket and its connection, with the messages that have been taken out of it, each the bytes
from its `head` to its `tail`. -/
structure Receiving where
  sk : Socket
  stream : List Byte
  messages : List (List Byte)

inductive Event
  | onReadable (call : Call)
  | getMessage

def step (o : ByteOrder) (c : Config) (s : Receiving) : Event → Except Fault Receiving
  | .onReadable call =>
    match onReadable o c s.sk call s.stream with
    | .error f => .error f
    | .ok (_, sk, stream) => .ok { s with sk := sk, stream := stream }
  | .getMessage =>
    match getMessage s.sk with
    | .error f => .error f
    | .ok (msg, sk) =>
      .ok { s with sk := sk, messages := s.messages ++ (msg.map (·.pending)).toList }

/-- A new socket, on which `frames` are to arrive. -/
def Receiving.start (frames : List (List Byte)) (state : State) : Receiving where
  sk := { msgInRecv := none, msgInRecvSize := 0, state := state }
  stream := frames.flatten
  messages := []

/-- What has arrived of the message that is being received. -/
def Socket.buffered (sk : Socket) : List Byte :=
  match sk.msgInRecv with
  | none => []
  | some b => b.pending

/-- The messages taken are the first frames, no byte is lost or there twice, what is buffered is of
the next frame, and when it is all of that frame `GetMessage` hands it out. -/
structure Received (frames : List (List Byte)) (s : Receiving) : Prop where
  messages : s.messages = frames.take s.messages.length
  bytes : s.messages.flatten ++ s.sk.buffered ++ s.stream = frames.flatten
  current : s.sk.buffered.length ≤ (frames.getD s.messages.length []).length
  complete : s.sk.buffered ≠ [] → s.sk.buffered = frames.getD s.messages.length [] →
    ∃ b sk, getMessage s.sk = .ok (some b, sk)

/-- The block of a size, as it comes from the pool. -/
def Fresh (c : Config) (k : Kind) (b : Option Block) : Prop :=
  ∃ a, b.map (·.toBuffer) = some (Buffer.new a (c.size k))

/-- A call of `OnReadable` reads something, with blocks to be had; `GetMessage` is called when there
is a message in the making. -/
def Possible (c : Config) (s : Receiving) : Event → Prop
  | .onReadable call => s.stream ≠ [] ∧ (∃ k, 0 < k ∧ call.ready = .arrived k) ∧
      Fresh c .small call.smallBlock ∧ Fresh c .large call.largeBlock
  | .getMessage => s.sk.msgInRecv ≠ none

/-! ## 3. The buffer stays empty -/

/-- The buffer of the message that is being received is empty, its size is 0, and so is every
message that has been taken. -/
structure Stuck (s : Receiving) : Prop where
  empty : ∀ b, s.sk.msgInRecv = some b → b.tail = b.head
  size : s.sk.msgInRecvSize = 0
  messages : ∀ m ∈ s.messages, m = []

theorem stuck_start (frames : List (List Byte)) (state : State) :
    Stuck (.start frames state) where
  empty b hb := by cases hb
  size := rfl
  messages m hm := by cases hm

/-- `read` leaves `head` and `tail` as they are. -/
theorem store_ends {b b' : Block} {off : Nat} {data : List Byte} (h : store b off data = .ok b') :
    b'.head = b.head ∧ b'.tail = b.tail := by
  unfold store at h
  split at h
  · cases h
    exact ⟨rfl, rfl⟩
  · cases h

theorem readBlock_ok {sk sk' : Socket} {b : Block} {call : Call} {stream stream' : List Byte}
    {code : Int} (h : readBlock sk b call stream = .ok (code, sk', stream')) :
    ∃ b', sk' = { sk with msgInRecv := some b' } ∧ b'.head = b.head ∧ b'.tail = b.tail ∧
      stream' = (readSome stream (b.length - b.tail) call.ready call.errno).2.2.1 := by
  unfold readBlock at h
  split at h
  rename_i num data rest errno hread
  rw [hread]
  split at h
  · cases h
    exact ⟨b, rfl, rfl, rfl, rfl⟩
  · split at h
    · cases h
      exact ⟨b, rfl, rfl, rfl, rfl⟩
    · split at h
      · cases h
      · rename_i b' hstore
        cases h
        obtain ⟨hhead, htail⟩ := store_ends hstore
        exact ⟨b', rfl, hhead, htail, rfl⟩

/-- With an empty buffer there is no size to extract, and nothing to grow for. -/
theorem readMessage_empty {o : ByteOrder} {c : Config} {sk : Socket} {b : Block} {call : Call}
    {stream : List Byte} (hb : b.tail = b.head) (hsize : sk.msgInRecvSize = 0)
    (hmsg : sk.msgInRecv = some b) :
    readMessage c (messageSize o sk).2 b call stream = readBlock sk b call stream := by
  have hlen : ¬ b.tail - b.head ≥ 4 := by omega
  have hsame : (messageSize o sk).2 = sk := by
    simp only [messageSize, hmsg, hlen, if_false]
  simp [hsame, readMessage, hsize]

theorem Fresh.small {c : Config} {k : Kind} {b : Option Block} (h : Fresh c k b) :
    ∃ b', b = some b' ∧ b'.head = 0 ∧ b'.tail = 0 ∧ b'.length = c.size k := by
  obtain ⟨a, ha⟩ := h
  rcases b with _ | b'
  · cases ha
  · have hbuf : b'.toBuffer = Buffer.new a (c.size k) := Option.some.inj ha
    exact ⟨b', rfl, congrArg Buffer.head hbuf, congrArg Buffer.tail hbuf,
      congrArg Buffer.length hbuf⟩

/-- What a call of `OnReadable` comes to: a `read` into an empty block, which stays empty. -/
theorem onReadable_stuck {o : ByteOrder} {c : Config} {s : Receiving} {call : Call} {code : Int}
    {sk' : Socket} {stream' : List Byte} (hs : Stuck s)
    (hfresh : Fresh c .small call.smallBlock)
    (h : onReadable o c s.sk call s.stream = .ok (code, sk', stream')) :
    ∃ b b', (s.sk.msgInRecv = some b ∨ b.tail = 0 ∧ b.length = c.smallBlockSize) ∧
      sk' = { s.sk with msgInRecv := some b' } ∧ b'.tail = b'.head ∧
      stream' = (readSome s.stream (b.length - b.tail) call.ready call.errno).2.2.1 := by
  unfold onReadable at h
  rcases hmsg : s.sk.msgInRecv with _ | b
  · obtain ⟨b, hsmall, hhead, htail, hlen⟩ := hfresh.small
    simp only [hmsg, hs.size, ne_eq, not_true_eq_false, if_false, hsmall] at h
    rw [readMessage_empty (htail.trans hhead.symm) rfl rfl] at h
    obtain ⟨b', hsk, hhead', htail', hstream⟩ := readBlock_ok h
    refine ⟨b, b', Or.inr ⟨htail, hlen⟩, ?_, ?_, hstream⟩
    · simp [hsk, hs.size]
    · rw [htail', hhead', htail, hhead]
  · simp only [hmsg] at h
    have hempty := hs.empty b hmsg
    rw [readMessage_empty hempty hs.size hmsg] at h
    obtain ⟨b', hsk, hhead', htail', hstream⟩ := readBlock_ok h
    refine ⟨b, b', Or.inl rfl, hsk, ?_, hstream⟩
    rw [htail', hhead', hempty]

theorem step_stuck {o : ByteOrder} {c : Config} {s t : Receiving} {e : Event} (hs : Stuck s)
    (he : Possible c s e) (h : step o c s e = .ok t) : Stuck t := by
  rcases e with ⟨call⟩ | _
  · simp only [step] at h
    split at h
    · cases h
    · rename_i code sk stream hcall
      cases h
      obtain ⟨b, b', -, rfl, hb', -⟩ := onReadable_stuck hs he.2.2.1 hcall
      refine ⟨fun b hb => ?_, hs.size, hs.messages⟩
      cases hb
      exact hb'
  · simp only [step] at h
    rcases hmsg : s.sk.msgInRecv with _ | b
    · simp only [getMessage, hmsg] at h
      cases h
    · have hempty := hs.empty b hmsg
      simp only [getMessage, hmsg, hempty, hs.size, Int.sub_self, if_true] at h
      cases h
      refine ⟨(fun _ hb => nomatch hb), rfl, fun m hm => ?_⟩
      rcases List.mem_append.mp hm with hm | hm
      · exact hs.messages m hm
      · have hpend : b.pending = [] := by
          refine List.eq_nil_of_length_eq_zero ?_
          rw [Block.length_pending, hempty, Nat.sub_self]
        simpa [hpend] using hm

/-- **Every message that is handed out is empty**, whatever has been read. -/
theorem messages_empty {o : ByteOrder} {c : Config} {frames : List (List Byte)} {state : State}
    {es : List Event} {s : Receiving} (hes : Along (step o c) (Possible c) (.start frames state) es)
    (h : exec (step o c) (.start frames state) es = .ok s) : ∀ m ∈ s.messages, m = [] :=
  (hes.invariant (fun _ _ _ => step_stuck) (stuck_start frames state) h).messages

/-! ## 4. When the path is right -/

/-- The bytes of the first `read` are lost. -/
theorem first_read_lost {o : ByteOrder} {c : Config} {frames : List (List Byte)} {state : State}
    {e : Event} {t : Receiving} (he : Possible c (.start frames state) e)
    (h : step o c (.start frames state) e = .ok t) : ¬ Received frames t := by
  rcases e with ⟨call⟩ | _
  · have hstuck := step_stuck (stuck_start frames state) he h
    simp only [step] at h
    split at h
    · cases h
    · rename_i code sk stream hcall
      obtain ⟨hne, ⟨k, hk, hready⟩, hsmall, -⟩ := he
      obtain ⟨b, b', hb, rfl, hb', rfl⟩ := onReadable_stuck (stuck_start frames state) hsmall hcall
      cases h
      rcases hb with hb | ⟨htail, hlen⟩
      · cases hb
      · intro hrec
        have hpos : 0 < c.smallBlockSize := c.smallSize_pos
        have hpend : b'.pending = [] := by
          refine List.eq_nil_of_length_eq_zero ?_
          rw [Block.length_pending, hb', Nat.sub_self]
        have hbytes := congrArg List.length hrec.bytes
        have hframes : 0 < frames.flatten.length := List.length_pos_iff.mpr hne
        have hn : b.length - b.tail ≠ 0 := by omega
        have hk0 : k ≠ 0 := by omega
        have hstream : frames.flatten ≠ [] := hne
        simp only [Receiving.start, Socket.buffered, hpend, readSome, hn, hready, hstream, hk0,
          if_false, or_self, List.flatten_nil, List.nil_append, List.length_drop,
          List.length_take] at hbytes
        omega
  · exact absurd rfl he

/-- **The receive path is right only as long as nothing is read**, whatever the frames are. -/
theorem received_iff (o : ByteOrder) (c : Config) (frames : List (List Byte)) (state : State)
    (es : List Event) (hes : Along (step o c) (Possible c) (.start frames state) es) :
    ((∃ t, exec (step o c) (.start frames state) es = .ok t) ∧
      ∀ s, Visits (step o c) (.start frames state) es s → Received frames s) ↔ es = [] := by
  constructor
  · rintro ⟨⟨t, ht⟩, hall⟩
    rcases es with _ | ⟨e, es⟩
    · rfl
    · obtain ⟨u, hu, -⟩ := exec_cons_ok.mp ht
      exact absurd (hall u (Visits.cons hu (Visits.start _ _ _))) (first_read_lost hes.1 hu)
  · rintro rfl
    refine ⟨⟨_, rfl⟩, forall_visits_nil ⟨rfl, rfl, Nat.zero_le _, fun h => absurd rfl h⟩⟩

/-- A block of these bytes, as it comes from the pool. -/
def freshBlock (a : Addr) (bytes : List Byte) : Block where
  toBuffer := Buffer.new a bytes.length
  bytes := bytes
  length_eq := rfl
  head_le := Nat.le_refl 0
  tail_le := Nat.zero_le _

/-- Small blocks of 4 bytes and large ones of 8. -/
def fourAndEight : Config where
  largeBlockSize := 8
  largeBlockNum := 1
  smallBlockSize := 4
  smallBlockNum := 1
  largeSize_pos := by decide
  smallSize_pos := by decide
  largeNum_pos := Nat.one_pos
  smallNum_pos := Nat.one_pos
  sizes_ne := by decide

/-- A frame of 5 bytes, of which the first `read` gets 4; then the message is asked for. -/
def fiveBytes : List Event :=
  [.onReadable {
    ready := .arrived 5
    errno := 0
    smallBlock := some (freshBlock ⟨.small, 0⟩ [0, 0, 0, 0])
    largeBlock := some (freshBlock ⟨.large, 0⟩ [0, 0, 0, 0, 0, 0, 0, 0]) },
  .getMessage]

theorem fiveBytes_possible : Along (step .little fourAndEight) (Possible fourAndEight)
    (.start [[0, 0, 0, 5, 9]] .ok) fiveBytes := by
  refine ⟨⟨by decide, ⟨5, by decide, rfl⟩, ⟨_, rfl⟩, ⟨_, rfl⟩⟩,
    fun t ht => ⟨?_, fun _ _ => trivial⟩⟩
  cases ht
  rintro ⟨⟩

theorem fiveBytes_not_received :
    ¬ ((∃ t, exec (step .little fourAndEight) (.start [[0, 0, 0, 5, 9]] .ok) fiveBytes = .ok t) ∧
      ∀ s, Visits (step .little fourAndEight) (.start [[0, 0, 0, 5, 9]] .ok) fiveBytes s →
        Received [[0, 0, 0, 5, 9]] s) :=
  mt (received_iff .little fourAndEight [[0, 0, 0, 5, 9]] .ok fiveBytes fiveBytes_possible).mp
    (List.cons_ne_nil _ _)

/-- The message is handed out empty, and four of the bytes of its frame are gone. -/
theorem first_message_empty :
    ∃ s, exec (step .little fourAndEight) (.start [[0, 0, 0, 5, 9]] .ok) fiveBytes = .ok s ∧
      s.messages = [[]] ∧ s.stream = [9] ∧ ¬ Received [[0, 0, 0, 5, 9]] s := by
  refine ⟨_, rfl, rfl, rfl, fun h => ?_⟩
  exact absurd h.messages (by decide)

end Kknf.CppNf.LVSocket
