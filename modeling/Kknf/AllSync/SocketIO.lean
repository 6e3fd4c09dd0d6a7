/-
# `SocketIO`: sending and receiving a whole packet

`TCPSend` calls `send` until the whole buffer is gone, and the `TCPRecv` of the simple server calls
`recv` until it has the four bytes of the length and then the bytes of the packet.  Each call may
transfer less than it is asked to.  What the kernel does is a list of results, one for each call; a
function that would wait for a further result does not return (`none`).  The connection in between
is a list of bytes: `send` adds at its end and `recv` takes from its front, and how the two sides
overlap in time does not matter to either.

`lv_round_trip` puts the two ends together: however the bytes are cut up on the way in and on the
way out, every packet arrives as it was sent.
-/
import Kknf.Lib.Posix
import Kknf.Lib.Buffer

namespace Kknf.AllSync

/-! ## 1. The system calls -/

/-- What the kernel does with one `send`. -/
inductive SendResult
  /-- it takes the bytes there is room for -/
  | sent (room : Nat)
  /-- `-1`, with this `errno` -/
  | error (errno : Errno)
  deriving DecidableEq

/-- What the kernel does with one `recv`. -/
inductive RecvResult
  /-- it hands out the bytes that have arrived, of which there are this many -/
  | got (arrived : Nat)
  /-- `0`, the peer has closed -/
  | closed
  /-- `-1`, with this `errno` -/
  | error (errno : Errno)
  deriving DecidableEq

/-- The call transfers something. -/
def SendResult.Positive (r : SendResult) : Prop := ∃ room, 0 < room ∧ r = .sent room

def RecvResult.Positive (r : RecvResult) : Prop := ∃ arrived, 0 < arrived ∧ r = .got arrived

/-- The sending end: the results of the calls to come, and the bytes transmitted so far. -/
structure SendEnd where
  sends : List SendResult
  wire : List Byte
  deriving DecidableEq

/-- The receiving end: the results of the calls to come, and the bytes to be received. -/
structure RecvEnd where
  recvs : List RecvResult
  stream : List Byte
  deriving DecidableEq

/-! ## 2. `TCPSend` -/

/-- The loop of `TCPSend`.  One call transfers less than `2^31` bytes, so `ret` is the number. -/
def tcpSendLoop (buf : List Byte) (sends : List SendResult) (cur sizeLeft : Nat)
    (wire : List Byte) : Option (Int × SendEnd) :=
  if sizeLeft = 0 then some (0, ⟨sends, wire⟩)
  else match sends with
    | [] => none
    | .error errno :: sends =>
      if errno ≠ EWOULDBLOCK ∨ errno ≠ EAGAIN then some (-2, ⟨sends, wire⟩)
      else tcpSendLoop buf sends cur sizeLeft wire
    | .sent room :: sends =>
      let ret := min room sizeLeft
      tcpSendLoop buf sends (cur + ret) (sizeLeft - ret) (wire ++ (buf.drop cur).take ret)

/-- `TCPSend`.  The buffer is the `buf_to_send_size` bytes from `buf_to_send` on, or null. -/
def tcpSend (bufToSend : Option (List Byte)) (s : SendEnd) : Option (Int × SendEnd) :=
  match bufToSend with
  | none => some (-1, s)
  | some buf => tcpSendLoop buf s.sends 0 buf.length s.wire

/-! ## 3. `TCPRecv` -/

def maxTcpPktSize : Int := 2 * 1024 * 1024

/-- How a receive loop ends: the code the function returns with if it returns from inside the loop,
the memory behind `mark`, and the connection. -/
structure RecvLoopEnd where
  ret : Option Int
  buf : List Byte
  conn : RecvEnd

/-- The receive loop: fill `buf` from `byteNum` on until `size` bytes are there.  `fail` is what the
function returns on an error or when the peer has closed. -/
def recvLoop (fail : Int) (size : Nat) (recvs : List RecvResult) (buf : List Byte) (byteNum : Nat)
    (stream : List Byte) : Option RecvLoopEnd :=
  if size ≤ byteNum then some ⟨none, buf, ⟨recvs, stream⟩⟩
  else match recvs with
    | [] => none
    | .error errno :: recvs =>
      if errno ≠ EINTR ∨ errno ≠ EAGAIN ∨ errno ≠ EWOULDBLOCK then
        some ⟨some fail, buf, ⟨recvs, stream⟩⟩
      else recvLoop fail size recvs buf byteNum stream
    | .closed :: recvs => some ⟨some fail, buf, ⟨recvs, stream⟩⟩
    | .got arrived :: recvs =>
      let data := stream.take (min arrived (size - byteNum))
      -- with nothing to hand out `recv` waits
      if data = [] then none
      else recvLoop fail size recvs (overwrite buf byteNum data) (byteNum + data.length)
        (stream.drop data.length)

/-- `TestSimpleServer::TCPRecv`: the code it returns, `buf_to_fill` and the connection. -/
def tcpRecv (o : ByteOrder) (bufToFill : List Byte) (s : RecvEnd) :
    Option (Int × List Byte × RecvEnd) :=
  match recvLoop (-1) 4 s.recvs [0, 0, 0, 0] 0 s.stream with
  | none => none
  | some ⟨some ret, _, s⟩ => some (ret, bufToFill, s)
  | some ⟨none, lenField, s⟩ =>
    let len := int32 (networkToHostLong o (load32 o lenField))
    if len ≤ 0 ∨ len > maxTcpPktSize then some (-2, bufToFill, s)
    else
      match recvLoop (-2) len.toNat s.recvs (resize 0 bufToFill len.toNat) 0 s.stream with
      | none => none
      | some ⟨some ret, buf, s⟩ => some (ret, buf, s)
      | some ⟨none, buf, s⟩ => some (0, buf, s)

/-! ## 4. Many packets, one after the other -/

/-- A packet as it is sent: its length in network order, and its bytes. -/
def lvFrame (o : ByteOrder) (p : List Byte) : List Byte :=
  store32 o (networkToHostLong o p.length) ++ p

/-- The bytes of several packets on the wire. -/
def lvStream (o : ByteOrder) (ps : List (List Byte)) : List Byte := (ps.map (lvFrame o)).flatten

/-- `TCPSend` of several buffers, with the codes it returns. -/
def sendAll : List (List Byte) → SendEnd → Option (List Int × SendEnd)
  | [], s => some ([], s)
  | b :: bs, s =>
    match tcpSend (some b) s with
    | none => none
    | some (ret, s) =>
      match sendAll bs s with
      | none => none
      | some (rets, s) => some (ret :: rets, s)

/-- That many calls of `TCPRecv` with the same `buf_to_fill`: the code and the buffer of each. -/
def recvAll (o : ByteOrder) : Nat → List Byte → RecvEnd → Option (List (Int × List Byte) × RecvEnd)
  | 0, _, s => some ([], s)
  | n + 1, buf, s =>
    match tcpRecv o buf s with
    | none => none
    | some (ret, buf, s) =>
      match recvAll o n buf s with
      | none => none
      | some (outs, s) => some ((ret, buf) :: outs, s)

/-! ## 5. The sending end -/

/-- The loop has transmitted a beginning of what was left, whatever the results were. -/
theorem tcpSendLoop_prefix {buf : List Byte} {r : Int} {s : SendEnd} :
    ∀ {sends : List SendResult} {cur sizeLeft : Nat} {wire : List Byte},
      tcpSendLoop buf sends cur sizeLeft wire = some (r, s) →
        ∃ pre, pre <+: buf.drop cur ∧ s.wire = wire ++ pre := by
  intro sends
  induction sends with
  | nil =>
    intro cur sizeLeft wire h
    unfold tcpSendLoop at h
    split at h
    · cases h
      exact ⟨[], List.nil_prefix, (List.append_nil wire).symm⟩
    · cases h
  | cons res sends ih =>
    intro cur sizeLeft wire h
    unfold tcpSendLoop at h
    split at h
    · cases h
      exact ⟨[], List.nil_prefix, (List.append_nil wire).symm⟩
    · cases res with
      | error errno =>
        dsimp only at h
        split at h
        · cases h
          exact ⟨[], List.nil_prefix, (List.append_nil wire).symm⟩
        · exact ih h
      | sent room =>
        obtain ⟨pre, hpre, hs⟩ := ih h
        rw [← List.drop_drop] at hpre
        refine ⟨(buf.drop cur).take (min room sizeLeft) ++ pre, ?_, ?_⟩
        · obtain ⟨rest, hrest⟩ := hpre
          exact ⟨rest, by rw [List.append_assoc, hrest, List.take_append_drop]⟩
        · rw [hs, List.append_assoc]

/-- **With calls that transfer something the loop sends all that is left**, as soon as there are as
many of them as bytes. -/
theorem tcpSendLoop_sends (buf : List Byte) : ∀ {sends : List SendResult} {cur sizeLeft : Nat}
    (wire : List Byte), (∀ r ∈ sends, r.Positive) → sizeLeft = (buf.drop cur).length →
      (tcpSendLoop buf sends cur sizeLeft wire = none ∧ sends.length < sizeLeft) ∨
        ∃ sends', sends' <:+ sends ∧ sends.length ≤ sends'.length + sizeLeft ∧
          tcpSendLoop buf sends cur sizeLeft wire = some (0, ⟨sends', wire ++ buf.drop cur⟩) := by
  intro sends
  induction sends with
  | nil =>
    intro cur sizeLeft wire _ hleft
    unfold tcpSendLoop
    split
    · rename_i hzero
      rw [hzero, eq_comm, List.length_eq_zero_iff] at hleft
      exact Or.inr ⟨[], List.suffix_rfl, by simp, by simp [hleft]⟩
    · rename_i hzero
      exact Or.inl ⟨rfl, Nat.pos_of_ne_zero hzero⟩
  | cons res sends ih =>
    intro cur sizeLeft wire hpos hleft
    unfold tcpSendLoop
    split
    · rename_i hzero
      rw [hzero, eq_comm, List.length_eq_zero_iff] at hleft
      exact Or.inr ⟨res :: sends, List.suffix_rfl, by simp, by simp [hleft]⟩
    · rename_i hne
      obtain ⟨room, hroom, rfl⟩ := hpos res List.mem_cons_self
      have hpos' : ∀ r ∈ sends, r.Positive := fun r hr => hpos r (List.mem_cons_of_mem _ hr)
      dsimp only
      -- the call takes `ret` bytes, at least one
      generalize hret : min room sizeLeft = ret
      have hret1 : 1 ≤ ret ∧ ret ≤ sizeLeft := by omega
      have hleft' : sizeLeft - ret = (buf.drop (cur + ret)).length := by
        rw [← List.drop_drop, List.length_drop, ← hleft]
      have hwire : wire ++ (buf.drop cur).take ret ++ buf.drop (cur + ret)
          = wire ++ buf.drop cur := by
        rw [List.append_assoc, ← List.drop_drop, List.take_append_drop]
      rcases ih _ hpos' hleft' with ⟨hnone, hlt⟩ | ⟨sends', hsuf, hlen, heq⟩
      · refine Or.inl ⟨hnone, ?_⟩
        rw [List.length_cons]
        omega
      · refine Or.inr ⟨sends', hsuf.trans (List.suffix_cons _ _), ?_, ?_⟩
        · rw [List.length_cons]
          omega
        · rw [heq, hwire]

/-- `TCPSend` of a buffer, over calls that transfer something. -/
theorem tcpSend_sends (buf : List Byte) {s : SendEnd} (hpos : ∀ r ∈ s.sends, r.Positive) :
    (tcpSend (some buf) s = none ∧ s.sends.length < buf.length) ∨
      ∃ sends', sends' <:+ s.sends ∧ s.sends.length ≤ sends'.length + buf.length ∧
        tcpSend (some buf) s = some (0, ⟨sends', s.wire ++ buf⟩) := by
  have hleft : buf.length = (buf.drop 0).length := rfl
  have h := tcpSendLoop_sends buf s.wire hpos hleft
  simpa [tcpSend] using h

/-- **A send that fails has transmitted a beginning of its buffer.** -/
theorem tcpSend_prefix {buf : List Byte} {s t : SendEnd} {r : Int}
    (h : tcpSend (some buf) s = some (r, t)) : ∃ pre, pre <+: buf ∧ t.wire = s.wire ++ pre := by
  obtain ⟨pre, hpre, ht⟩ := tcpSendLoop_prefix h
  exact ⟨pre, by simpa using hpre, ht⟩

theorem sendAll_sends : ∀ (bs : List (List Byte)) {s : SendEnd}, (∀ r ∈ s.sends, r.Positive) →
    (sendAll bs s = none ∧ s.sends.length < bs.flatten.length) ∨
      ∃ sends', sendAll bs s = some (bs.map (fun _ => 0), ⟨sends', s.wire ++ bs.flatten⟩) := by
  intro bs
  induction bs with
  | nil =>
    intro s _
    exact Or.inr ⟨s.sends, by simp [sendAll]⟩
  | cons b bs ih =>
    intro s hpos
    simp only [sendAll, List.flatten_cons, List.length_append]
    rcases tcpSend_sends b hpos with ⟨hnone, hlt⟩ | ⟨sends', hsuf, hlen, heq⟩
    · rw [hnone]
      exact Or.inl ⟨rfl, by omega⟩
    · rw [heq]
      dsimp only
      have hpos' : ∀ r ∈ sends', r.Positive := fun r hr => hpos r (hsuf.subset hr)
      rcases ih (s := ⟨sends', s.wire ++ b⟩) hpos' with ⟨hnone, hlt⟩ | ⟨sends'', heq'⟩
      · rw [hnone]
        dsimp only at hlt
        exact Or.inl ⟨rfl, by omega⟩
      · rw [heq']
        exact Or.inr ⟨sends'', by simp⟩

/-! ## 6. The receiving end -/

/-- Once `size` bytes are there the loop is left, whatever calls are to come. -/
theorem recvLoop_done {fail : Int} {size : Nat} {recvs : List RecvResult}
    {filled room data rest : List Byte} (hsize : filled.length + data.length = size)
    (hroom : room.length = data.length) (hle : size ≤ filled.length) :
    recvLoop fail size recvs (filled ++ room) filled.length (data ++ rest) =
      some ⟨none, filled ++ data, ⟨recvs, rest⟩⟩ := by
  have hdata : data = [] := List.length_eq_zero_iff.mp (by omega)
  subst hdata
  have hroom' : room = [] := List.length_eq_zero_iff.mp hroom
  unfold recvLoop
  rw [if_pos hle, hroom', List.nil_append]

/-- One call hands out the first `ret` bytes of `data`, at least one, and the loop goes on with the
rest. -/
theorem recvLoop_got (fail : Int) {size arrived : Nat} (recvs : List RecvResult)
    {filled room data : List Byte} (rest : List Byte) (harrived : 0 < arrived)
    (hsize : filled.length + data.length = size) (hroom : room.length = data.length)
    (hle : ¬ size ≤ filled.length) :
    ∃ ret, 1 ≤ ret ∧ ret ≤ data.length ∧
    (filled ++ data.take ret).length + (data.drop ret).length = size ∧
      (room.drop ret).length = (data.drop ret).length ∧
      recvLoop fail size (.got arrived :: recvs) (filled ++ room) filled.length (data ++ rest) =
        recvLoop fail size recvs ((filled ++ data.take ret) ++ room.drop ret)
          (filled ++ data.take ret).length (data.drop ret ++ rest) := by
  obtain ⟨ret, hret⟩ : ∃ ret, ret = min arrived (size - filled.length) := ⟨_, rfl⟩
  have hret1 : 1 ≤ ret ∧ ret ≤ data.length := by omega
  have htake : (data ++ rest).take ret = data.take ret :=
    List.take_append_of_le_length hret1.2
  have hlen : (data.take ret).length = ret := by
    rw [List.length_take]
    omega
  have hne : data.take ret ≠ [] := by
    intro hnil
    rw [hnil, List.length_nil] at hlen
    omega
  have hdrop : (data ++ rest).drop ret = data.drop ret ++ rest :=
    List.drop_append_of_le_length hret1.2
  have hlen' : (filled ++ data.take ret).length = filled.length + ret := by
    rw [List.length_append, hlen]
  refine ⟨ret, hret1.1, hret1.2, ?_, ?_, ?_⟩
  · rw [hlen', List.length_drop]
    omega
  · rw [List.length_drop, List.length_drop, hroom]
  · conv_lhs => unfold recvLoop
    simp only [← hret, htake, hlen, hlen', hdrop, if_neg hle, if_neg hne, overwrite_append]

/-- **With calls that transfer something the loop fills the buffer** with the next bytes of the
stream, as soon as there are as many calls as bytes. -/
theorem recvLoop_fills (fail : Int) {size : Nat} (rest : List Byte) :
    ∀ {recvs : List RecvResult} (filled : List Byte) {room data : List Byte},
      (∀ r ∈ recvs, r.Positive) →
      filled.length + data.length = size → room.length = data.length →
      (recvLoop fail size recvs (filled ++ room) filled.length (data ++ rest) = none ∧
          recvs.length < data.length) ∨
        ∃ recvs', recvs' <:+ recvs ∧ recvs.length ≤ recvs'.length + data.length ∧
          recvLoop fail size recvs (filled ++ room) filled.length (data ++ rest)
            = some ⟨none, filled ++ data, ⟨recvs', rest⟩⟩ := by
  intro recvs
  induction recvs with
  | nil =>
    intro filled room data _ hsize hroom
    by_cases hle : size ≤ filled.length
    · exact Or.inr ⟨[], List.suffix_rfl, by simp, recvLoop_done hsize hroom hle⟩
    · refine Or.inl ⟨?_, by simp only [List.length_nil]; omega⟩
      unfold recvLoop
      rw [if_neg hle]
  | cons res recvs ih =>
    intro filled room data hpos hsize hroom
    by_cases hle : size ≤ filled.length
    · exact Or.inr ⟨res :: recvs, List.suffix_rfl, by simp, recvLoop_done hsize hroom hle⟩
    · obtain ⟨arrived, harrived, rfl⟩ := hpos res List.mem_cons_self
      have hpos' : ∀ r ∈ recvs, r.Positive := fun r hr => hpos r (List.mem_cons_of_mem _ hr)
      obtain ⟨ret, hret, hdata, hsize', hroom', hstep⟩ :=
        recvLoop_got fail recvs rest harrived hsize hroom hle
      have hall : filled ++ data.take ret ++ data.drop ret = filled ++ data := by
        rw [List.append_assoc, List.take_append_drop]
      have hdlen : (data.drop ret).length = data.length - ret := List.length_drop
      rw [hstep]
      rcases ih _ hpos' hsize' hroom' with ⟨hnone, hlt⟩ | ⟨recvs', hsuf, hleft, heq⟩
      · refine Or.inl ⟨hnone, ?_⟩
        rw [List.length_cons]
        omega
      · refine Or.inr ⟨recvs', hsuf.trans (List.suffix_cons _ _), ?_, ?_⟩
        · rw [List.length_cons]
          omega
        · rw [heq, hall]

/-- The length field of a frame, as the receiver reads it. -/
theorem int32_load_header (o : ByteOrder) {n : Nat} (hn : n < 2 ^ 31) :
    int32 (networkToHostLong o (load32 o (toBytesBE 4 n))) = n := by
  rw [networkToHostLong_load32 o (by simp)]
  have hlt : n < 256 ^ 4 := by omega
  rw [List.take_of_length_le (by simp), ofBytesBE_toBytesBE hlt]
  exact int32_eq (by omega) (by omega)

/-- **One packet**: over calls that transfer something, `TCPRecv` takes exactly one frame off the
stream, and `buf_to_fill` is then the packet, whatever it was before. -/
theorem tcpRecv_frame (snd rcv : ByteOrder) {p : List Byte} (hp : 1 ≤ p.length)
    (hmax : (p.length : Int) ≤ maxTcpPktSize) {recvs : List RecvResult}
    (hpos : ∀ r ∈ recvs, r.Positive) (buf rest : List Byte) :
    (tcpRecv rcv buf ⟨recvs, lvFrame snd p ++ rest⟩ = none ∧
        recvs.length < (lvFrame snd p).length) ∨
      ∃ recvs', recvs' <:+ recvs ∧ recvs.length ≤ recvs'.length + (lvFrame snd p).length ∧
        tcpRecv rcv buf ⟨recvs, lvFrame snd p ++ rest⟩ = some (0, p, ⟨recvs', rest⟩) := by
  have hframe : lvFrame snd p = toBytesBE 4 p.length ++ p := by
    rw [lvFrame, store32_networkToHostLong]
  have hlt : p.length < 2 ^ 31 := by
    unfold maxTcpPktSize at hmax
    omega
  have hheader := int32_load_header rcv hlt
  have hlen : (lvFrame snd p).length = 4 + p.length := by
    rw [hframe, List.length_append, length_toBytesBE]
  unfold tcpRecv
  simp only [hframe, List.append_assoc]
  have hroom : ([0, 0, 0, 0] : List Byte).length = (toBytesBE 4 p.length).length := by simp
  have hrecv4 := recvLoop_fills (-1) (p ++ rest) [] hpos (Nat.zero_add _) hroom
  simp only [List.nil_append, List.length_nil, length_toBytesBE] at hrecv4
  rw [← hframe, hlen]
  rcases hrecv4 with ⟨hnone, hlt4⟩ | ⟨recvs₁, hsuf₁, hlen₁, heq₁⟩
  · rw [hnone]
    exact Or.inl ⟨rfl, by omega⟩
  rw [heq₁]
  simp only [hheader]
  rw [if_neg (by omega), Int.toNat_natCast]
  have hpos₁ : ∀ r ∈ recvs₁, r.Positive := fun r hr => hpos r (hsuf₁.subset hr)
  have hrecv := recvLoop_fills (-2) rest [] hpos₁ (Nat.zero_add _) (length_resize 0 buf p.length)
  simp only [List.nil_append, List.length_nil] at hrecv
  rcases hrecv with ⟨hnone, hltp⟩ | ⟨recvs₂, hsuf₂, hlen₂, heq₂⟩
  · rw [hnone]
    exact Or.inl ⟨rfl, by omega⟩
  · rw [heq₂]
    exact Or.inr ⟨recvs₂, hsuf₂.trans hsuf₁, by omega, rfl⟩

theorem recvAll_frames (snd rcv : ByteOrder) (rest : List Byte) :
    ∀ {ps : List (List Byte)} {recvs : List RecvResult} (buf : List Byte),
      (∀ p ∈ ps, 1 ≤ p.length ∧ (p.length : Int) ≤ maxTcpPktSize) →
      (∀ r ∈ recvs, r.Positive) →
      (recvAll rcv ps.length buf ⟨recvs, lvStream snd ps ++ rest⟩ = none ∧
          recvs.length < (lvStream snd ps).length) ∨
        ∃ recvs', recvAll rcv ps.length buf ⟨recvs, lvStream snd ps ++ rest⟩
          = some (ps.map (fun p => (0, p)), ⟨recvs', rest⟩) := by
  intro ps
  induction ps with
  | nil =>
    intro recvs buf _ _
    exact Or.inr ⟨recvs, rfl⟩
  | cons p ps ih =>
    intro recvs buf hps hpos
    obtain ⟨hp, hmax⟩ := hps p List.mem_cons_self
    have hps' := fun q hq => hps q (List.mem_cons_of_mem p hq)
    have hstream : lvStream snd (p :: ps) = lvFrame snd p ++ lvStream snd ps := rfl
    simp only [recvAll, List.length_cons, hstream, List.append_assoc, List.length_append]
    rcases tcpRecv_frame snd rcv hp hmax hpos buf (lvStream snd ps ++ rest) with
      ⟨hnone, hlt⟩ | ⟨recvs₁, hsuf, hlen, heq⟩
    · rw [hnone]
      exact Or.inl ⟨rfl, by omega⟩
    · rw [heq]
      dsimp only
      have hpos₁ : ∀ r ∈ recvs₁, r.Positive := fun r hr => hpos r (hsuf.subset hr)
      rcases ih p hps' hpos₁ with ⟨hnone, hlt⟩ | ⟨recvs₂, heq₂⟩
      · rw [hnone]
        exact Or.inl ⟨rfl, by omega⟩
      · rw [heq₂]
        exact Or.inr ⟨recvs₂, rfl⟩

/-! ## 7. The round trip -/

/-- **The LV round trip.**  Packets of any number and of any permitted length are sent by `TCPSend`,
one frame each, and received by as many calls of `TCPRecv`; every `send` and every `recv` transfers
something, and how much is up to the kernel.  Each side is done after at most as many calls as there
are bytes: all sends have returned `0` and the frames are on the wire, and all receives have
returned `0`, have given the packets in order and have taken exactly the frames off the stream.  A
`TCPSend` that returns `-2`, whatever the kernel did, has transmitted a beginning of its buffer. -/
theorem lv_round_trip (snd rcv : ByteOrder) (ps : List (List Byte))
    (hps : ∀ p ∈ ps, 1 ≤ p.length ∧ (p.length : Int) ≤ maxTcpPktSize)
    (sends : List SendResult) (hsends : ∀ r ∈ sends, r.Positive)
    (recvs : List RecvResult) (hrecvs : ∀ r ∈ recvs, r.Positive) (buf rest : List Byte) :
    ((sendAll (ps.map (lvFrame snd)) ⟨sends, []⟩ = none ∧
        sends.length < (lvStream snd ps).length) ∨
      ∃ sends', sendAll (ps.map (lvFrame snd)) ⟨sends, []⟩
        = some (List.replicate ps.length 0, ⟨sends', lvStream snd ps⟩)) ∧
    ((recvAll rcv ps.length buf ⟨recvs, lvStream snd ps ++ rest⟩ = none ∧
        recvs.length < (lvStream snd ps).length) ∨
      ∃ recvs', recvAll rcv ps.length buf ⟨recvs, lvStream snd ps ++ rest⟩
        = some (ps.map (fun p => (0, p)), ⟨recvs', rest⟩)) ∧
    ∀ (b : List Byte) (s t : SendEnd), tcpSend (some b) s = some (-2, t) →
      ∃ pre, pre <+: b ∧ t.wire = s.wire ++ pre := by
  refine ⟨?_, recvAll_frames snd rcv rest buf hps hrecvs, fun b s t h => tcpSend_prefix h⟩
  have h := sendAll_sends (ps.map (lvFrame snd)) (s := ⟨sends, []⟩) hsends
  rw [List.map_const', List.length_map, List.nil_append] at h
  exact h

/-- Two packets, sent eleven bytes at a time at most and received one byte at a time. -/
theorem lv_round_trip_two : ∃ recvs', recvAll .little 2 [7, 7, 7]
    ⟨List.replicate 11 (.got 1), lvStream .big [[1, 2], [3]]⟩
      = some ([(0, [1, 2]), (0, [3])], ⟨recvs', []⟩) := by
  have h := lv_round_trip .big .little [[1, 2], [3]] (by decide) (List.replicate 11 (.sent 11))
    (fun r hr => ⟨11, by decide, List.eq_of_mem_replicate hr⟩) (List.replicate 11 (.got 1))
    (fun r hr => ⟨1, by decide, List.eq_of_mem_replicate hr⟩) [7, 7, 7] []
  rw [List.append_nil] at h
  exact h.2.1.resolve_left fun hshort => absurd hshort.2 (by decide)

end Kknf.AllSync
