/-
# The binary decoder: `BinTcpSocket::ReadHandler`

A binary message begins with its total length, four bytes in network order.  `ReadHandler` first
reads these four bytes, over as many calls as it takes, then gets a block of that length and reads
the rest into it.  A return of 1 says that the block is complete; `SocketCallback` then takes it
away.

Two things are missing.  `len_field_read_` is not set back to 0 when a message is complete, so the
next call skips the length and uses `recv_mb_`, which is null by then.  And a message of length 4
has no rest: the `read` of its 0 bytes returns 0, which the code takes for a failure.  So the
decoder is right for the first message, if that is longer than 4, and no call comes after it; and
`decodes_iff` says that it is right for nothing else.

`len_field_read_` and `recv_mb_` are never initialised and are read as 0, and so is `used_` of a new
block (the pool sets a `curpos_`, which a `MemBlock` does not have).  `GetMemBlock(real_len)` is
read as giving the block, or null.
-/
import Kknf.Lib.Buffer
import Kknf.Lib.Posix
import Kknf.Lib.Run

namespace Kknf.LibEvent

open Kknf.Run

/-! ## 1. The function -/

/-- A block that is being filled: the `len_` bytes from `start_` on, and `used_`. -/
structure RecvBlock where
  buf : List Byte
  used : Nat
  deriving DecidableEq

structure BinTcpSocket where
  lenField : List Byte := [0, 0, 0, 0]
  lenFieldRead : Nat := 0
  recvMb : Option RecvBlock := none
  deriving DecidableEq

inductive BinFault
  /-- the socket has been destroyed -/
  | disabled
  /-- `recv_mb_` is null -/
  | nullDeref
  /-- a write behind the end of the block -/
  | overrun
  /-- `assert(len_field_read_ == sizeof(uint32_t))` -/
  | assertLenFieldRead
  /-- `assert(recv_mb_ == 0)` -/
  | assertRecvMb
  /-- `assert(len <= recv_mb_->len_)` -/
  | assertLen
  deriving DecidableEq

/-- What a call finds: `errno`, the connection at the `read` of the length field and at the `read`
of the data, and the memory that `GetMemBlock` gives. -/
structure Call where
  errno : Errno
  lenReady : Ready
  dataReady : Ready
  getMemBlock : Int → Option (List Byte)

/-- The code returned after a `read` that got nothing. -/
def noData (errno : Errno) : Int :=
  if errno = EAGAIN ∨ errno = EWOULDBLOCK ∨ errno = 0 then 0 else -2

/-- The second half of `ReadHandler`: the data.  `len - recv_mb_->used_` is unsigned. -/
def BinTcpSocket.readData (o : ByteOrder) (sk : BinTcpSocket) (ready : Ready) (errno : Errno)
    (stream : List Byte) : Except BinFault (Int × BinTcpSocket × List Byte) :=
  match sk.recvMb with
  | none => .error .nullDeref
  | some mb =>
    let len := networkToHostLong o (load32 o mb.buf)
    if len > mb.buf.length then .error .assertLen
    else
      match readSome stream (sub32 len mb.used) ready errno with
      | (readNum, data, stream, errno) =>
        if readNum ≤ 0 then .ok (noData errno, sk, stream)
        else if mb.used + data.length > mb.buf.length then .error .overrun
        else
          let used := mb.used + data.length
          .ok (if used = len then 1 else 0,
            { sk with recvMb := some ⟨overwrite mb.buf mb.used data, used⟩ }, stream)

/-- `ReadHandler`: the code it returns, the socket, and what is still to come on the connection. -/
def BinTcpSocket.readHandler (o : ByteOrder) (sk : BinTcpSocket) (c : Call) (stream : List Byte) :
    Except BinFault (Int × BinTcpSocket × List Byte) :=
  if sk.lenFieldRead < 4 then
    match readSome stream (4 - sk.lenFieldRead) c.lenReady c.errno with
    | (readNum, data, stream, errno) =>
      if readNum ≤ 0 then .ok (noData errno, sk, stream)
      else
        let lenField := overwrite sk.lenField sk.lenFieldRead data
        let lenFieldRead := sk.lenFieldRead + data.length
        if lenFieldRead < 4 then .ok (0, { sk with lenField, lenFieldRead }, stream)
        else if lenFieldRead ≠ 4 then .error .assertLenFieldRead
        else if sk.recvMb.isSome then .error .assertRecvMb
        else
          match c.getMemBlock (int32 (networkToHostLong o (load32 o lenField))) with
          | none => .error .nullDeref
          | some buf =>
            if buf.length < 4 then .error .overrun
            else
              BinTcpSocket.readData o ⟨lenField, lenFieldRead, some ⟨overwrite buf 0 lenField, 4⟩⟩
                c.dataReady errno stream
  else sk.readData o c.dataReady c.errno stream

/-! ## 2. Runs -/

/-- A socket and its connection, with what has come of it so far. -/
structure Reading where
  sk : BinTcpSocket := {}
  /-- the bytes still to come -/
  stream : List Byte
  destroyed : Bool := false
  /-- what `ReadHandler` has returned, call by call -/
  rets : List Int := []
  /-- the blocks `SocketCallback` has taken, as the bytes in use -/
  taken : List (List Byte) := []
  deriving DecidableEq

/-- The read part of `SocketCallback`. -/
def readStep (o : ByteOrder) (s : Reading) (c : Call) : Except BinFault Reading :=
  if s.destroyed then .error .disabled
  else
    match s.sk.readHandler o c s.stream with
    | .error f => .error f
    | .ok (ret, sk, stream) =>
      let rets := s.rets ++ [ret]
      if ret < 0 then .ok { s with sk, stream, rets, destroyed := true }
      else if ret = 1 then
        .ok { s with
          stream, rets
          sk := { sk with recvMb := none }
          taken := s.taken ++ [sk.recvMb.elim [] fun mb => mb.buf.take mb.used] }
      else .ok { s with sk, stream, rets }

/-- A message: its first four bytes are its length. -/
structure BinFrame (f : List Byte) : Prop where
  four_le : 4 ≤ f.length
  lt : f.length < 2 ^ 31
  length_eq : ofBytesBE (f.take 4) = f.length

/-- `GetMemBlock` has a block for each of the messages. -/
def Call.Supplies (fs : List (List Byte)) (c : Call) : Prop :=
  ∀ f ∈ fs, ∃ buf, c.getMemBlock f.length = some buf ∧ f.length ≤ buf.length

/-- The messages that have been read completely have been taken, each once, and every other call has
returned 0. -/
structure Decoded (fs : List (List Byte)) (s : Reading) : Prop where
  taken : ∃ todo part, fs = s.taken ++ todo ∧ part ++ s.stream = todo.flatten ∧
    ∀ f rest, todo = f :: rest → part.length < f.length
  rets : ∀ r ∈ s.rets, r = 0 ∨ r = 1
  once : s.rets.count 1 = s.taken.length

/-- No message has been taken yet, and the call does not complete the length field of a message of
length 4. -/
def FirstFrame (s : Reading) (c : Call) : Prop :=
  ¬ (s.sk.lenFieldRead = 4 ∧ s.sk.recvMb = none) ∧
    (s.sk.lenFieldRead < 4 →
      let data := (readSome s.stream (4 - s.sk.lenFieldRead) c.lenReady c.errno).2.1
      s.sk.lenFieldRead + data.length = 4 →
        ofBytesBE (overwrite s.sk.lenField s.sk.lenFieldRead data) ≠ 4)

instance (s : Reading) (c : Call) : Decidable (FirstFrame s c) :=
  inferInstanceAs (Decidable (_ ∧ _))

/-! ## 3. Reading the data -/

/-- The first `u` bytes of the message `f` are in the block. -/
structure Filling (f : List Byte) (u : Nat) (buf : List Byte) : Prop where
  four_le : 4 ≤ u
  le : u ≤ f.length
  room : f.length ≤ buf.length
  take_eq : buf.take u = f.take u

/-- The length is read off the block. -/
theorem Filling.len_eq {f buf : List Byte} {u : Nat} (h : Filling f u buf) (hf : BinFrame f)
    (o : ByteOrder) : networkToHostLong o (load32 o buf) = f.length := by
  have hfour : buf.take 4 = f.take 4 := by
    have htake := congrArg (List.take 4) h.take_eq
    rwa [List.take_take, List.take_take, Nat.min_eq_left h.four_le] at htake
  rw [networkToHostLong_load32 o (hf.four_le.trans h.room), hfour, hf.length_eq]

/-- What is asked for is what is missing. -/
theorem Filling.missing {f buf : List Byte} {u : Nat} (h : Filling f u buf) (hf : BinFrame f) :
    sub32 f.length u = f.length - u :=
  sub32_eq h.le (hf.lt.trans (by decide))

/-- More of the message goes into the block. -/
theorem Filling.more {f buf data t : List Byte} {u : Nat} (h : Filling f u buf)
    (ht : f.drop u = data ++ t) : Filling f (u + data.length) (overwrite buf u data) := by
  have hlen : f.length - u = data.length + t.length := by
    rw [← List.length_drop, ht, List.length_append]
  have hle := h.le
  have hroom := h.room
  refine ⟨h.four_le.trans (Nat.le_add_right _ _), by omega, ?_, ?_⟩
  · rw [length_overwrite (by omega)]
    exact hroom
  · rw [take_overwrite data (hle.trans hroom), h.take_eq, List.take_add, ht, List.take_left]

/-- **The second half** puts the next bytes of the message into the block, and returns 1 when that
completes it. -/
theorem readData_spec (o : ByteOrder) {f buf : List Byte} {u : Nat} (more : List Byte)
    (h : Filling f u buf) (hf : BinFrame f) (hlt : u < f.length) (lenField : List Byte)
    (ready : Ready) (errno : Errno) :
    ∃ u' buf', Filling f u' buf' ∧
      BinTcpSocket.readData o ⟨lenField, 4, some ⟨buf, u⟩⟩ ready errno (f.drop u ++ more)
        = .ok (if u' = f.length then 1 else 0, ⟨lenField, 4, some ⟨buf', u'⟩⟩,
          f.drop u' ++ more) := by
  have hroom : ¬ f.length > buf.length := Nat.not_lt.mpr h.room
  simp only [BinTcpSocket.readData, h.len_eq hf, if_neg hroom, h.missing hf]
  rcases readSome_cases (f.drop u ++ more) (Nat.sub_pos_of_lt hlt) ready errno with
    hnone | ⟨data, rest, hsplit, hpos, hlen, hread⟩
  · refine ⟨u, buf, h, ?_⟩
    have hzero : noData EAGAIN = 0 := by decide
    rw [hnone, if_neg (Nat.ne_of_lt hlt)]
    simp only [Int.reduceNeg, Int.reduceLE, if_true, hzero]
  · have hle : data.length ≤ (f.drop u).length := by rwa [List.length_drop]
    obtain ⟨t, ht, hrest⟩ : ∃ t, f.drop u = data ++ t ∧ rest = t ++ more := by
      rcases List.append_eq_append_iff.mp hsplit with ⟨t, hdata, hmore⟩ | ⟨t, hdrop, hrest⟩
      · have hnil : t = [] := by
          rw [hdata, List.length_append] at hle
          exact List.length_eq_zero_iff.mp (by omega)
        subst hnil
        exact ⟨[], by simpa using hdata.symm, by simpa using hmore.symm⟩
      · exact ⟨t, hdrop, hrest⟩
    have hfill := h.more ht
    have hfits : ¬ u + data.length > buf.length := Nat.not_lt.mpr (hfill.le.trans h.room)
    have hgot : ¬ (data.length : Int) ≤ 0 := by omega
    refine ⟨u + data.length, overwrite buf u data, hfill, ?_⟩
    have hdrop : f.drop (u + data.length) = t := by
      rw [← List.drop_drop, ht, List.drop_left]
    rw [hread]
    simp only [if_neg hgot, if_neg hfits, hdrop, hrest]

/-- With nothing left to read, the second half takes the message for a failure. -/
theorem readData_nothing (o : ByteOrder) {f buf : List Byte} (more : List Byte)
    (h : Filling f f.length buf) (hf : BinFrame f) (lenField : List Byte) (ready : Ready)
    (errno : Errno) :
    BinTcpSocket.readData o ⟨lenField, 4, some ⟨buf, f.length⟩⟩ ready errno more
      = .ok (noData errno, ⟨lenField, 4, some ⟨buf, f.length⟩⟩, more) := by
  have hroom : ¬ f.length > buf.length := Nat.not_lt.mpr h.room
  simp only [BinTcpSocket.readData, h.len_eq hf, if_neg hroom, h.missing hf, Nat.sub_self,
    readSome_zero, le_refl, if_true]

/-! ## 4. Reading the length field -/

/-- Where the decoder is in the stream: the first message is all it can read. -/
inductive Phase (fs : List (List Byte)) : BinTcpSocket → List Byte → List (List Byte) → Prop
  /-- `j` bytes of the length field are there -/
  | length {lenField stream : List Byte} {j : Nat} (hlen : lenField.length = 4) (hj : j < 4)
      (hstream : lenField.take j ++ stream = fs.flatten) : Phase fs ⟨lenField, j, none⟩ stream []
  /-- the block is being filled -/
  | data {lenField f buf : List Byte} {rest : List (List Byte)} {u : Nat} (hfs : fs = f :: rest)
      (hfill : Filling f u buf) (hu : u < f.length) :
      Phase fs ⟨lenField, 4, some ⟨buf, u⟩⟩ (f.drop u ++ rest.flatten) []
  /-- the message has been taken -/
  | done {lenField f : List Byte} {rest : List (List Byte)} (hfs : fs = f :: rest) :
      Phase fs ⟨lenField, 4, none⟩ rest.flatten [f]

/-- What a call does as long as all is well: it returns 0 and goes on, or it returns 1 with the
message. -/
def Progress (fs : List (List Byte)) (ret : Int) (sk : BinTcpSocket) (stream : List Byte) : Prop :=
  (ret = 0 ∧ Phase fs sk stream []) ∨
    ret = 1 ∧ ∃ lenField f rest buf, fs = f :: rest ∧ buf.take f.length = f ∧
      sk = ⟨lenField, 4, some ⟨buf, f.length⟩⟩ ∧ stream = rest.flatten

theorem readData_progress (o : ByteOrder) {fs rest : List (List Byte)} {f buf : List Byte} {u : Nat}
    (hfs : fs = f :: rest) (hf : BinFrame f) (h : Filling f u buf) (hlt : u < f.length)
    (lenField : List Byte) (ready : Ready) (errno : Errno) : ∃ ret sk stream,
      BinTcpSocket.readData o ⟨lenField, 4, some ⟨buf, u⟩⟩ ready errno (f.drop u ++ rest.flatten)
        = .ok (ret, sk, stream) ∧ Progress fs ret sk stream := by
  obtain ⟨u', buf', hfill, hread⟩ :=
    readData_spec o rest.flatten h hf hlt lenField ready errno
  refine ⟨_, _, _, hread, ?_⟩
  by_cases hdone : u' = f.length
  · subst hdone
    refine Or.inr ⟨by simp, lenField, f, rest, buf', hfs, ?_, rfl, by simp⟩
    rw [hfill.take_eq, List.take_length]
  · refine Or.inl ⟨by simp [hdone], Phase.data hfs hfill ?_⟩
    exact Nat.lt_of_le_of_ne hfill.le hdone

/-- The length field is complete: the message is the next one, and its first four bytes go into a
block. -/
theorem readHandler_completes (o : ByteOrder) {fs : List (List Byte)} (hfs : ∀ f ∈ fs, BinFrame f)
    {c : Call} (hc : c.Supplies fs) {lenField stream data rest : List Byte} {j : Nat}
    (hlen : lenField.length = 4) (hj : j < 4) (hstream : lenField.take j ++ stream = fs.flatten)
    (hsplit : stream = data ++ rest) (hfull : j + data.length = 4)
    (hread : readSome stream (4 - j) c.lenReady c.errno
      = ((data.length : Int), data, rest, c.errno)) :
    ∃ f more buf, fs = f :: more ∧ overwrite lenField j data = f.take 4 ∧ Filling f 4 buf ∧
      rest = f.drop 4 ++ more.flatten ∧
      BinTcpSocket.readHandler o ⟨lenField, j, none⟩ c stream
        = BinTcpSocket.readData o ⟨overwrite lenField j data, 4, some ⟨buf, 4⟩⟩ c.dataReady c.errno
            rest := by
  have htake : (lenField.take j).length = j := by
    rw [List.length_take, hlen]
    omega
  have hfield : overwrite lenField j data = lenField.take j ++ data := by
    have hdrop : lenField.drop (j + data.length) = [] := List.drop_eq_nil_iff.mpr (by omega)
    rw [overwrite, hdrop, List.append_nil]
  have hfield4 : (overwrite lenField j data).length = 4 := by
    rw [hfield, List.length_append, htake, hfull]
  -- so the stream goes on with a message
  have hflat : overwrite lenField j data ++ rest = fs.flatten := by
    rw [hfield, List.append_assoc, ← hsplit, hstream]
  rcases fs with - | ⟨f, more⟩
  · have hlen0 := congrArg List.length hflat
    rw [List.length_append, hfield4] at hlen0
    simp at hlen0
  have hf := hfs f List.mem_cons_self
  rw [List.flatten_cons] at hflat
  have hfirst : overwrite lenField j data = f.take 4 := by
    have htake4 := congrArg (List.take 4) hflat
    rwa [List.take_append_of_le_length (Nat.le_of_eq hfield4.symm), List.take_of_length_le
      (Nat.le_of_eq hfield4), List.take_append_of_le_length hf.four_le] at htake4
  have hrest : rest = f.drop 4 ++ more.flatten := by
    have hdrop4 := congrArg (List.drop 4) hflat
    rwa [← hfield4, List.drop_left, hfield4, List.drop_append_of_le_length hf.four_le] at hdrop4
  obtain ⟨buf, hblock, hroom⟩ := hc f List.mem_cons_self
  have hlenEq : int32 (networkToHostLong o (load32 o (overwrite lenField j data))) = f.length := by
    rw [networkToHostLong_load32 o (Nat.le_of_eq hfield4.symm), hfirst, List.take_take,
      Nat.min_self, hf.length_eq]
    exact int32_eq (by omega) (by have := hf.lt; omega)
  have hfour : ¬ buf.length < 4 := Nat.not_lt.mpr (hf.four_le.trans hroom)
  refine ⟨f, more, overwrite buf 0 (overwrite lenField j data), rfl, hfirst, ?_, hrest, ?_⟩
  · have hbuf := take_overwrite (overwrite lenField j data) (Nat.zero_le buf.length)
    rw [hfield4, Nat.zero_add, List.take_zero, List.nil_append] at hbuf
    refine ⟨le_rfl, hf.four_le, ?_, hbuf.trans hfirst⟩
    rw [length_overwrite (by omega)]
    exact hroom
  · have hgot : ¬ (data.length : Int) ≤ 0 := by omega
    simp only [BinTcpSocket.readHandler, if_pos hj, hread, if_neg hgot, hfull, lt_irrefl, if_false,
      ne_eq, not_true_eq_false, Option.isSome_none, Bool.false_eq_true, hlenEq,
        hblock, if_neg hfour]

/-- **One call of `ReadHandler`** before the first message is taken. -/
theorem readHandler_progress (o : ByteOrder) {fs : List (List Byte)} (hfs : ∀ f ∈ fs, BinFrame f)
    {c : Call} (hc : c.Supplies fs) {s : Reading} (h : Phase fs s.sk s.stream s.taken)
    (hfirst : FirstFrame s c) : s.taken = [] ∧ ∃ ret sk stream,
      s.sk.readHandler o c s.stream = .ok (ret, sk, stream) ∧ Progress fs ret sk stream := by
  obtain ⟨sk, stream, destroyed, rets, taken⟩ := s
  obtain ⟨hnext, hfour⟩ := hfirst
  dsimp only at h hnext hfour ⊢
  rcases h with ⟨hlen, hj, hstream⟩ | ⟨hcons, hfill, hu⟩ | ⟨hcons⟩
  · rename_i lenField j
    refine ⟨rfl, ?_⟩
    rcases readSome_cases stream (Nat.sub_pos_of_lt hj) c.lenReady c.errno with
      hnone | ⟨data, rest, hsplit, hpos, hle, hread⟩
    · refine ⟨0, ⟨lenField, j, none⟩, stream, ?_, Or.inl ⟨rfl, Phase.length hlen hj hstream⟩⟩
      have hzero : noData EAGAIN = 0 := by decide
      simp only [BinTcpSocket.readHandler, if_pos hj, hnone, Int.reduceNeg, Int.reduceLE, if_true,
        hzero]
    · by_cases hfull : j + data.length = 4
      · -- the length is there, and it is not 4
        obtain ⟨f, more, buf, rfl, hfield, hfill, hrest, hhandler⟩ :=
          readHandler_completes o hfs hc hlen hj hstream hsplit hfull hread
        have hf := hfs f List.mem_cons_self
        have hne : f.length ≠ 4 := by
          have hne4 := hfour hj
          simp only [hread] at hne4
          rw [← hf.length_eq, ← hfield]
          exact hne4 hfull
        rw [hhandler, hrest]
        exact readData_progress o rfl hf hfill (Nat.lt_of_le_of_ne hf.four_le hne.symm) _ _ _
      · have hlt : j + data.length < 4 := by omega
        refine ⟨0, ⟨overwrite lenField j data, j + data.length, none⟩, rest, ?_,
          Or.inl ⟨rfl, Phase.length ?_ hlt ?_⟩⟩
        · have hgot : ¬ (data.length : Int) ≤ 0 := by omega
          simp only [BinTcpSocket.readHandler, if_pos hj, hread, if_neg hgot, if_pos hlt]
        · rw [length_overwrite (by omega), hlen]
        · rw [take_overwrite data (by omega), List.append_assoc, ← hsplit, hstream]
  · rename_i lenField f buf rest u
    refine ⟨rfl, ?_⟩
    have hf := hfs f (hcons ▸ List.mem_cons_self)
    simp only [BinTcpSocket.readHandler, lt_irrefl, if_false]
    exact readData_progress o hcons hf hfill hu _ _ _
  · exact absurd ⟨rfl, rfl⟩ hnext

/-! ## 5. The stream -/

/-- The invariant of the runs that stay with the first message. -/
structure DecodeInv (fs : List (List Byte)) (s : Reading) : Prop where
  alive : s.destroyed = false
  phase : Phase fs s.sk s.stream s.taken
  rets : ∀ r ∈ s.rets, r = 0 ∨ r = 1
  once : s.rets.count 1 = s.taken.length

theorem DecodeInv.decoded {fs : List (List Byte)} (hfs : ∀ f ∈ fs, BinFrame f) {s : Reading}
    (h : DecodeInv fs s) : Decoded fs s := by
  refine ⟨?_, h.rets, h.once⟩
  have hpos : ∀ f ∈ fs, 4 ≤ f.length := fun f hf => (hfs f hf).four_le
  obtain ⟨sk, stream, destroyed, rets, taken⟩ := s
  rcases h.phase with ⟨hlen, hj, hstream⟩ | ⟨rfl, hfill, hu⟩ | ⟨rfl⟩
  · rename_i lenField j
    refine ⟨fs, lenField.take j, rfl, hstream, ?_⟩
    rintro f rest rfl
    have hf := hpos f List.mem_cons_self
    rw [List.length_take]
    omega
  · rename_i lenField f buf rest u
    refine ⟨f :: rest, f.take u, rfl, ?_, ?_⟩
    · change f.take u ++ (f.drop u ++ rest.flatten) = f ++ rest.flatten
      rw [← List.append_assoc, List.take_append_drop]
    · rintro f' rest' heq
      cases heq
      rw [List.length_take]
      omega
  · rename_i lenField f rest
    refine ⟨rest, [], rfl, rfl, ?_⟩
    rintro f' rest' rfl
    have hf' := hpos f' (by simp)
    rw [List.length_nil]
    omega

/-- **A call before the first message is taken** succeeds and keeps the invariant. -/
theorem readStep_inv (o : ByteOrder) {fs : List (List Byte)} (hfs : ∀ f ∈ fs, BinFrame f)
    {s : Reading} {c : Call} (hc : c.Supplies fs) (h : DecodeInv fs s) (hfirst : FirstFrame s c) :
    ∃ t, readStep o s c = .ok t ∧ DecodeInv fs t := by
  obtain ⟨htaken, ret, sk, stream, hread, hprogress⟩ := readHandler_progress o hfs hc h.phase hfirst
  have honce := h.once
  rw [htaken] at honce
  rcases hprogress with ⟨rfl, hphase⟩ | ⟨rfl, lenField, f, rest, buf, hcons, hbuf, rfl, rfl⟩
  · refine ⟨{ s with sk, stream, rets := s.rets ++ [0] }, ?_, h.alive, ?_, ?_, ?_⟩
    · simp [readStep, h.alive, hread]
    · rw [htaken]
      exact hphase
    · intro r hr
      rcases List.mem_append.mp hr with hr | hr
      · exact h.rets r hr
      · exact Or.inl (List.mem_singleton.mp hr)
    · rw [htaken]
      simpa using honce
  · refine ⟨{ s with
      sk := ⟨lenField, 4, none⟩, stream := rest.flatten, rets := s.rets ++ [1], taken := [f] },
      ?_, h.alive, Phase.done hcons, ?_, ?_⟩
    · simp [readStep, h.alive, hread, htaken, hbuf]
    · intro r hr
      rcases List.mem_append.mp hr with hr | hr
      · exact h.rets r hr
      · exact Or.inr (List.mem_singleton.mp hr)
    · simpa using honce

/-- A message of which every byte has been read has to have been taken. -/
theorem not_decoded {fs rest : List (List Byte)} {f : List Byte} {s : Reading}
    (hfs : fs = f :: rest)
    (htaken : s.taken = []) (hstream : s.stream = rest.flatten) : ¬ Decoded fs s := by
  rintro ⟨⟨todo, part, hsplit, hpart, hlt⟩, -, -⟩
  rw [htaken, List.nil_append, hfs] at hsplit
  subst hsplit
  have hlen := hlt f rest rfl
  have heq := congrArg List.length hpart
  rw [hstream, List.flatten_cons, List.length_append, List.length_append] at heq
  omega

/-- **Any other call** faults, or passes over a message of length 4. -/
theorem readStep_not_decoded (o : ByteOrder) {fs : List (List Byte)} (hfs : ∀ f ∈ fs, BinFrame f)
    {s t : Reading} {c : Call} (hc : c.Supplies fs) (h : DecodeInv fs s) (hfirst : ¬ FirstFrame s c)
    (ht : readStep o s c = .ok t) : ¬ Decoded fs t := by
  obtain ⟨sk, stream, destroyed, rets, taken⟩ := s
  have halive : destroyed = false := h.alive
  subst halive
  rcases h.phase with ⟨hlen, hj, hstream⟩ | ⟨hcons, hfill, hu⟩ | ⟨hcons⟩
  · rename_i lenField j
    have hnext : ¬ (j = 4 ∧ (none : Option RecvBlock) = none) := fun h4 => Nat.ne_of_lt hj h4.1
    rcases readSome_cases stream (Nat.sub_pos_of_lt hj) c.lenReady c.errno with
      hnone | ⟨data, rest, hsplit, hpos, hle, hread⟩
    · refine absurd ⟨hnext, fun _ hfull => ?_⟩ hfirst
      simp only [hnone, List.length_nil] at hfull
      omega
    · obtain ⟨hfull, hfour⟩ :
          j + data.length = 4 ∧ ofBytesBE (overwrite lenField j data) = 4 := by
        by_contra hok
        refine hfirst ⟨hnext, fun _ => ?_⟩
        simp only [hread]
        exact fun hfull hfour => hok ⟨hfull, hfour⟩
      obtain ⟨f, more, buf, hcons, hfield, hfill, hrest, hhandler⟩ :=
        readHandler_completes o hfs hc hlen hj hstream hsplit hfull hread
      have hf := hfs f (hcons ▸ List.mem_cons_self)
      have hlen4 : f.length = 4 := by rw [← hf.length_eq, ← hfield, hfour]
      rw [← hlen4] at hfill
      have hnothing := readData_nothing o rest hfill hf (overwrite lenField j data) c.dataReady
        c.errno
      rw [hlen4] at hnothing
      have hrest' : rest = more.flatten := by
        rw [hrest, List.drop_of_length_le (Nat.le_of_eq hlen4), List.nil_append]
      have hone : noData c.errno ≠ 1 := by
        unfold noData
        split <;> decide
      simp only [readStep, Bool.false_eq_true, if_false, hhandler, hnothing, if_neg hone] at ht
      split at ht
      · cases ht
        exact not_decoded hcons rfl hrest'
      · cases ht
        exact not_decoded hcons rfl hrest'
  · exact absurd ⟨by simp, by simp⟩ hfirst
  · -- the block is gone
    simp [readStep, BinTcpSocket.readHandler, BinTcpSocket.readData] at ht

/-- **The decoder is right exactly as long as it stays with the first message**, and that one is
longer than its length field. -/
theorem decodes_iff (o : ByteOrder) (fs : List (List Byte)) (hfs : ∀ f ∈ fs, BinFrame f)
    (cs : List Call) (hcs : ∀ c ∈ cs, c.Supplies fs) :
    ((∃ t, exec (readStep o) { stream := fs.flatten } cs = .ok t) ∧
      ∀ s, Visits (readStep o) { stream := fs.flatten } cs s → Decoded fs s) ↔
    Along (readStep o) FirstFrame { stream := fs.flatten } cs := by
  have hkeep : ∀ s c, Call.Supplies fs c → DecodeInv fs s → FirstFrame s c →
      ∃ t, readStep o s c = .ok t ∧ DecodeInv fs t := fun _ _ hc h hfirst =>
    readStep_inv o hfs hc h hfirst
  have hbreak : ∀ s c t, Call.Supplies fs c → DecodeInv fs s → ¬ FirstFrame s c →
      readStep o s c = .ok t → ¬ Decoded fs t := fun _ _ _ hc h hfirst ht =>
    readStep_not_decoded o hfs hc h hfirst ht
  have hstart : DecodeInv fs { stream := fs.flatten } :=
    ⟨rfl, Phase.length rfl (by decide) rfl, by simp, rfl⟩
  exact runs_iff_along hkeep (fun _ h => h.decoded hfs) hbreak
    (along_of_forall fun c hc _ => hcs c hc) hstart

/-- A call that finds this much at each of its two reads, with blocks of 16 bytes to be had. -/
def callWith (len data : Nat) : Call where
  errno := 0
  lenReady := .arrived len
  dataReady := .arrived data
  getMemBlock := fun _ => some (List.replicate 16 0)

/-- A message in four calls, the second of which finds nothing. -/
theorem sixBytes_decoded : ∃ s,
    exec (readStep .little) { stream := [0, 0, 0, 6, 7, 8] }
      [callWith 2 0, callWith 0 0, callWith 3 1, callWith 0 9] = .ok s ∧
      Decoded [[0, 0, 0, 6, 7, 8]] s ∧ s.taken = [[0, 0, 0, 6, 7, 8]] ∧ s.rets = [0, 0, 0, 1] := by
  have hends : (exec (readStep .little) { stream := [0, 0, 0, 6, 7, 8] }
      [callWith 2 0, callWith 0 0, callWith 3 1, callWith 0 9]).map (fun s => (s.taken, s.rets))
        = .ok ([[0, 0, 0, 6, 7, 8]], [0, 0, 0, 1]) := by
    decide +kernel
  obtain ⟨s, hs, hend⟩ := map_eq_ok.mp hends
  rw [Prod.mk.injEq] at hend
  have hall := (decodes_iff .little [[0, 0, 0, 6, 7, 8]] ?_
    [callWith 2 0, callWith 0 0, callWith 3 1, callWith 0 9] ?_).mpr (by decide +kernel)
  · exact ⟨s, hs, hall.2 s ⟨_, List.prefix_rfl, hs⟩, hend.1, hend.2⟩
  · intro f hf
    rw [List.mem_singleton.mp hf]
    exact ⟨by decide, by decide, by decide⟩
  · intro c hc f hf
    rw [List.mem_singleton.mp hf]
    refine ⟨List.replicate 16 0, ?_, by simp⟩
    simp only [List.mem_cons, List.not_mem_nil, or_false] at hc
    rcases hc with rfl | rfl | rfl | rfl <;> rfl

/-- Two messages: the call after the first one uses the block that is gone. -/
theorem second_message_faults :
    (∀ f ∈ [[0, 0, 0, 5, 9], [0, 0, 0, 5, 8]], BinFrame f) ∧
      (callWith 4 1).Supplies [[0, 0, 0, 5, 9], [0, 0, 0, 5, 8]] ∧
      exec (readStep .little) { stream := [0, 0, 0, 5, 9, 0, 0, 0, 5, 8] }
        [callWith 4 1, callWith 4 1] = .error .nullDeref := by
  refine ⟨?_, ?_, by decide +kernel⟩
  · intro f hf
    simp only [List.mem_cons, List.not_mem_nil, or_false] at hf
    rcases hf with rfl | rfl
    · exact ⟨by decide, by decide, by decide⟩
    · exact ⟨by decide, by decide, by decide⟩
  · intro f hf
    refine ⟨List.replicate 16 0, rfl, ?_⟩
    simp only [List.mem_cons, List.not_mem_nil, or_false] at hf
    rcases hf with rfl | rfl
    · decide
    · decide

end Kknf.LibEvent
