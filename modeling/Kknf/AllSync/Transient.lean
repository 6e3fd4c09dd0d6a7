/-
# Transient errors in `TCPSend` and `TCPRecv`

`EINTR`, `EAGAIN` and `EWOULDBLOCK` say that a call has done nothing and should be made again, and
the loops test for them.  The tests are disjunctions of inequalities:
`errno != EINTR || errno != EAGAIN` is true of every number.  On Linux `EAGAIN` and `EWOULDBLOCK`
are one number, so `TCPSend`, which tests for these two, does make the call again; an `EINTR` ends
it, and `TCPRecv` is ended by all three.

A schedule of results is compared with the same schedule with such failures inserted (`Entry`).  An
inserted failure that ends the call does no harm when it comes after the end of the call, or when
the call would have failed there anyway, before another byte was transferred.
`transient_errors_iff` says that there is nothing else that helps.
-/
import Kknf.AllSync.SocketIO

namespace Kknf.AllSync

/-! ## 1. Inserted failures -/

inductive Transient
  | eintr
  | eagain
  | ewouldblock
  deriving DecidableEq

def Transient.errno : Transient → Errno
  | .eintr => EINTR
  | .eagain => EAGAIN
  | .ewouldblock => EWOULDBLOCK

/-- A result of the schedule, or a failure that is inserted. -/
inductive Entry (ρ : Type)
  | own (r : ρ)
  | extra (e : Transient)

/-- The schedule without what is inserted. -/
def original {ρ : Type} : List (Entry ρ) → List ρ
  | [] => []
  | .own r :: es => r :: original es
  | .extra _ :: es => original es

/-- The schedule with what is inserted, where `error` is a result of `-1`. -/
def disturbed {ρ : Type} (error : Errno → ρ) : List (Entry ρ) → List ρ
  | [] => []
  | .own r :: es => r :: disturbed error es
  | .extra e :: es => error e.errno :: disturbed error es

/-- What `TCPSend` returns, and what is on the wire. -/
def sendView (r : Option (Int × SendEnd)) : Option (Int × List Byte) :=
  r.map fun p => (p.1, p.2.wire)

/-- What `TCPRecv` returns, `buf_to_fill`, and what is left to receive. -/
def recvView (r : Option (Int × List Byte × RecvEnd)) : Option (Int × List Byte × List Byte) :=
  r.map fun p => (p.1, p.2.1, p.2.2.stream)

/-- What is inserted does not show in `TCPSend`. -/
def SendInvisible (bufToSend : Option (List Byte)) (wire : List Byte)
    (es : List (Entry SendResult)) : Prop :=
  sendView (tcpSend bufToSend ⟨disturbed .error es, wire⟩) =
    sendView (tcpSend bufToSend ⟨original es, wire⟩)

/-- Nor in `TCPRecv`. -/
def RecvInvisible (o : ByteOrder) (bufToFill stream : List Byte) (es : List (Entry RecvResult)) :
    Prop :=
  recvView (tcpRecv o bufToFill ⟨disturbed .error es, stream⟩) =
    recvView (tcpRecv o bufToFill ⟨original es, stream⟩)

/-! ## 2. When they do no harm -/

/-- The results end a send before a byte is taken. -/
def FailsAtOnce : List SendResult → Prop
  | [] => False
  | .error errno :: rs => errno ≠ EAGAIN ∨ FailsAtOnce rs
  | .sent room :: rs => room = 0 ∧ FailsAtOnce rs

/-- With `n` bytes left to send: no `EINTR` is inserted while bytes are left, unless the send fails
next before a byte is taken. -/
def SendHarmless : List (Entry SendResult) → Nat → Prop
  | [], _ => True
  | .own (.error errno) :: es, n => n = 0 ∨ errno ≠ EAGAIN ∨ SendHarmless es n
  | .own (.sent room) :: es, n => n = 0 ∨ SendHarmless es (n - room)
  | .extra .eintr :: es, n => n = 0 ∨ FailsAtOnce (original es)
  | .extra _ :: es, n => n = 0 ∨ SendHarmless es n

/-- The next result ends a receive. -/
def FailsNext : List RecvResult → Prop
  | .error _ :: _ | .closed :: _ => True
  | _ => False

/-- With `n` bytes left to read in a loop, and `avail` bytes to be received: nothing is inserted
before the end of the loop, unless the receive fails next, and then `after` holds of what is
left. -/
def LoopHarmless (after : List (Entry RecvResult) → Nat → Prop) :
    List (Entry RecvResult) → Nat → Nat → Prop
  | es, 0, avail => after es avail
  | [], _ + 1, _ => True
  | .own (.got arrived) :: es, n + 1, avail =>
    let count := min (min arrived (n + 1)) avail
    -- with nothing to hand out the receive waits for ever
    count = 0 ∨ LoopHarmless after es (n + 1 - count) (avail - count)
  | .own _ :: _, _ + 1, _ => True
  | .extra _ :: es, _ + 1, _ => FailsNext (original es)

/-- The length in the first four bytes. -/
def lenOf (o : ByteOrder) (stream : List Byte) : Int :=
  int32 (networkToHostLong o (load32 o (stream.take 4)))

/-- Nothing is inserted while `TCPRecv` reads the length, nor, if it is a good one, while it reads
the packet, unless it fails next. -/
def RecvHarmless (o : ByteOrder) (stream : List Byte) (es : List (Entry RecvResult)) : Prop :=
  LoopHarmless (fun es avail => lenOf o stream ≤ 0 ∨ lenOf o stream > maxTcpPktSize ∨
    LoopHarmless (fun _ _ => True) es (lenOf o stream).toNat avail) es 4 stream.length

/-! ## 3. `TCPSend` -/

section

variable {buf wire : List Byte} {cur n : Nat}

theorem again_iff {errno : Errno} : ¬ (errno ≠ EWOULDBLOCK ∨ errno ≠ EAGAIN) ↔ errno = EAGAIN := by
  have hsame : EWOULDBLOCK = EAGAIN := rfl
  rw [hsame, or_self, not_not]

/-- A loop with nothing left to send is over. -/
theorem sendView_done (sends : List SendResult) :
    sendView (tcpSendLoop buf sends cur 0 wire) = some (0, wire) := by
  unfold tcpSendLoop
  rfl

/-- A loop with something left to send looks at the next result. -/
theorem tcpSendLoop_error {errno : Errno} {sends : List SendResult} (hn : n ≠ 0) :
    tcpSendLoop buf (.error errno :: sends) cur n wire =
      if errno = EAGAIN then tcpSendLoop buf sends cur n wire else some (-2, ⟨sends, wire⟩) := by
  conv_lhs => unfold tcpSendLoop
  rw [if_neg hn]
  by_cases h : errno = EAGAIN
  · rw [if_pos h]
    exact if_neg (again_iff.mpr h)
  · rw [if_neg h]
    exact if_pos (not_not.mp fun hagain => h (again_iff.mp hagain))

theorem tcpSendLoop_sent {room : Nat} {sends : List SendResult} (hn : n ≠ 0) :
    tcpSendLoop buf (.sent room :: sends) cur n wire =
      tcpSendLoop buf sends (cur + min room n) (n - min room n)
        (wire ++ (buf.drop cur).take (min room n)) := by
  conv_lhs => unfold tcpSendLoop
  exact if_neg hn

theorem sendView_nil (hn : n ≠ 0) : sendView (tcpSendLoop buf [] cur n wire) = none := by
  unfold tcpSendLoop
  rw [if_neg hn]
  rfl

/-- A send that fails with nothing more on the wire has failed at once. -/
theorem sendView_failed_iff {rs : List SendResult} (hn : n ≠ 0) (hbuf : n ≤ (buf.drop cur).length) :
    sendView (tcpSendLoop buf rs cur n wire) = some (-2, wire) ↔ FailsAtOnce rs := by
  induction rs with
  | nil =>
    rw [sendView_nil hn]
    simp [FailsAtOnce]
  | cons r rs ih =>
    cases r with
    | error errno =>
      rw [tcpSendLoop_error hn]
      by_cases hagain : errno = EAGAIN
      · rw [if_pos hagain, ih]
        simp [FailsAtOnce, hagain]
      · rw [if_neg hagain]
        simp [FailsAtOnce, hagain, sendView]
    | sent room =>
      rw [tcpSendLoop_sent hn]
      by_cases hroom : room = 0
      · subst hroom
        simpa [FailsAtOnce] using ih
      · refine iff_of_false ?_ fun h => hroom h.1
        intro hview
        obtain ⟨⟨r, s⟩, hs, heq⟩ := Option.map_eq_some_iff.mp hview
        obtain ⟨pre, -, hwire⟩ := tcpSendLoop_prefix hs
        have hlen := congrArg List.length ((Prod.mk.inj heq).2.symm.trans hwire)
        simp only [List.length_append, List.length_take] at hlen
        omega

/-- **The loop of `TCPSend`** shows an insertion exactly when it does harm. -/
theorem send_loop_iff {es : List (Entry SendResult)} (hbuf : n ≤ (buf.drop cur).length) :
    sendView (tcpSendLoop buf (disturbed .error es) cur n wire) =
        sendView (tcpSendLoop buf (original es) cur n wire) ↔ SendHarmless es n := by
  induction es generalizing cur n wire with
  | nil => exact iff_of_true rfl trivial
  | cons e es ih =>
    rcases Nat.eq_zero_or_pos n with rfl | hpos
    · rw [sendView_done, sendView_done]
      refine iff_of_true rfl ?_
      rcases e with (errno | room) | e
      · exact .inl rfl
      · exact .inl rfl
      · cases e <;> exact .inl rfl
    have hn : n ≠ 0 := Nat.ne_of_gt hpos
    cases e with
    | own r =>
      cases r with
      | error errno =>
        simp only [disturbed, original, SendHarmless]
        rw [tcpSendLoop_error hn, tcpSendLoop_error hn]
        by_cases hagain : errno = EAGAIN
        · rw [if_pos hagain, if_pos hagain, ih hbuf]
          simp [hn, hagain]
        · rw [if_neg hagain, if_neg hagain]
          simp [hagain, sendView]
      | sent room =>
        have hleft : n - room = n - min room n := by omega
        have hbuf' : n - min room n ≤ (buf.drop (cur + min room n)).length := by
          rw [← List.drop_drop, List.length_drop]
          omega
        simp only [disturbed, original, SendHarmless]
        rw [tcpSendLoop_sent hn, tcpSendLoop_sent hn, ih hbuf', hleft]
        simp [hn]
    | extra e =>
      simp only [disturbed, original]
      rw [tcpSendLoop_error hn]
      cases e with
      | eintr =>
        rw [if_neg (by decide)]
        simp only [SendHarmless, hn, false_or]
        exact eq_comm.trans (sendView_failed_iff hn hbuf)
      | eagain =>
        rw [if_pos (by decide), ih hbuf]
        simp [SendHarmless, hn]
      | ewouldblock =>
        rw [if_pos (by decide), ih hbuf]
        simp [SendHarmless, hn]

end

/-! ## 4. A receive loop -/

/-- What `TCPRecv` makes of the end of a loop: it returns, or goes on with `next`. -/
def afterLoop (bufOf : List Byte → List Byte)
    (next : List Byte → RecvEnd → Option (Int × List Byte × RecvEnd)) :
    Option RecvLoopEnd → Option (Int × List Byte × RecvEnd)
  | none => none
  | some ⟨some ret, buf, s⟩ => some (ret, bufOf buf, s)
  | some ⟨none, buf, s⟩ => next buf s

section

variable {fail : Int} {size byteNum : Nat} {buf stream : List Byte}

theorem recvLoop_ended (recvs : List RecvResult) (h : size ≤ byteNum) :
    recvLoop fail size recvs buf byteNum stream = some ⟨none, buf, ⟨recvs, stream⟩⟩ := by
  unfold recvLoop
  exact if_pos h

theorem recvLoop_nil (h : ¬ size ≤ byteNum) : recvLoop fail size [] buf byteNum stream = none := by
  unfold recvLoop
  exact if_neg h

/-- Every `errno` ends the loop. -/
theorem recvLoop_error (errno : Errno) (recvs : List RecvResult) (h : ¬ size ≤ byteNum) :
    recvLoop fail size (.error errno :: recvs) buf byteNum stream =
      some ⟨some fail, buf, ⟨recvs, stream⟩⟩ := by
  have hall : errno ≠ EINTR ∨ errno ≠ EAGAIN ∨ errno ≠ EWOULDBLOCK := by
    rcases eq_or_ne errno EINTR with rfl | hne
    · exact .inr (.inl (by decide))
    · exact .inl hne
  unfold recvLoop
  rw [if_neg h]
  exact if_pos hall

theorem recvLoop_closed (recvs : List RecvResult) (h : ¬ size ≤ byteNum) :
    recvLoop fail size (.closed :: recvs) buf byteNum stream =
      some ⟨some fail, buf, ⟨recvs, stream⟩⟩ := by
  unfold recvLoop
  exact if_neg h

/-- A result with bytes: the loop waits for ever when there are none, and else goes on. -/
theorem recvLoop_step (arrived : Nat) (recvs : List RecvResult) (h : ¬ size ≤ byteNum) :
    recvLoop fail size (.got arrived :: recvs) buf byteNum stream =
      if stream.take (min arrived (size - byteNum)) = [] then none
      else recvLoop fail size recvs
        (overwrite buf byteNum (stream.take (min arrived (size - byteNum))))
        (byteNum + (stream.take (min arrived (size - byteNum))).length)
        (stream.drop (stream.take (min arrived (size - byteNum))).length) := by
  conv_lhs => unfold recvLoop
  exact if_neg h

/-- A loop only takes from the stream. -/
theorem recvLoop_stream {recvs : List RecvResult} {r : RecvLoopEnd}
    (h : recvLoop fail size recvs buf byteNum stream = some r) :
    r.conn.stream.length ≤ stream.length := by
  induction recvs generalizing buf byteNum stream with
  | nil =>
    unfold recvLoop at h
    split at h <;> cases h
    exact le_rfl
  | cons res recvs ih =>
    by_cases hended : size ≤ byteNum
    · rw [recvLoop_ended _ hended] at h
      cases h
      exact le_rfl
    cases res with
    | error errno =>
      rw [recvLoop_error _ _ hended] at h
      cases h
      exact le_rfl
    | closed =>
      rw [recvLoop_closed _ hended] at h
      cases h
      exact le_rfl
    | got arrived =>
      rw [recvLoop_step _ _ hended] at h
      split at h
      · cases h
      · have hrest := ih h
        rw [List.length_drop] at hrest
        omega

variable {bufOf : List Byte → List Byte}
  {next : List Byte → RecvEnd → Option (Int × List Byte × RecvEnd)}

theorem afterLoop_stream {recvs : List RecvResult} {r : Int × List Byte × List Byte}
    (hnext : ∀ buf s r, recvView (next buf s) = some r → r.2.2.length ≤ s.stream.length)
    (h : recvView (afterLoop bufOf next (recvLoop fail size recvs buf byteNum stream)) = some r) :
    r.2.2.length ≤ stream.length := by
  cases hloop : recvLoop fail size recvs buf byteNum stream with
  | none =>
    rw [hloop] at h
    cases h
  | some e =>
    have htaken := recvLoop_stream hloop
    rw [hloop] at h
    obtain ⟨ret, buf', s⟩ := e
    cases ret with
    | some ret =>
      cases h
      exact htaken
    | none => exact (hnext buf' s r h).trans htaken

/-- A receive that fails with nothing more taken from the stream has failed next. -/
theorem recvView_failed_iff {recvs : List RecvResult} (hended : ¬ size ≤ byteNum)
    (hnext : ∀ buf s r, recvView (next buf s) = some r → r.2.2.length ≤ s.stream.length) :
    recvView (afterLoop bufOf next (recvLoop fail size recvs buf byteNum stream)) =
      some (fail, bufOf buf, stream) ↔ FailsNext recvs := by
  cases recvs with
  | nil =>
    rw [recvLoop_nil hended]
    simp [FailsNext, afterLoop, recvView]
  | cons res recvs =>
    cases res with
    | error errno =>
      rw [recvLoop_error _ _ hended]
      exact iff_of_true rfl trivial
    | closed =>
      rw [recvLoop_closed _ hended]
      exact iff_of_true rfl trivial
    | got arrived =>
      refine iff_of_false ?_ id
      rw [recvLoop_step _ _ hended]
      split
      · rintro ⟨⟩
      · rename_i hdata
        intro hview
        have hrest := afterLoop_stream hnext hview
        have hpos := List.length_pos_iff.mpr hdata
        rw [List.length_drop] at hrest
        simp only [List.length_take] at hrest hpos
        omega

/-- **A receive loop** shows an insertion exactly when it does harm there or in what comes after it.
`whole` are the bytes in the buffer and those to come. -/
theorem recv_loop_iff {whole : List Byte} {after : List (Entry RecvResult) → Nat → Prop}
    (hafter : ∀ es buf stream, buf.length = size → buf ++ stream = whole →
      (recvView (next buf ⟨disturbed .error es, stream⟩) =
        recvView (next buf ⟨original es, stream⟩) ↔
        after es stream.length))
    (hnext : ∀ buf s r, recvView (next buf s) = some r → r.2.2.length ≤ s.stream.length)
    {es : List (Entry RecvResult)} (hbuf : buf.length = size) (hle : byteNum ≤ size)
    (hwhole : buf.take byteNum ++ stream = whole) :
    recvView (afterLoop bufOf next (recvLoop fail size (disturbed .error es) buf byteNum stream)) =
        recvView (afterLoop bufOf next (recvLoop fail size (original es) buf byteNum stream)) ↔
      LoopHarmless after es (size - byteNum) stream.length := by
  induction es generalizing buf byteNum stream with
  | nil =>
    rcases Nat.eq_zero_or_pos (size - byteNum) with hzero | hpos
    · have hended : size ≤ byteNum := by omega
      rw [hzero, recvLoop_ended _ hended, recvLoop_ended _ hended]
      rw [List.take_of_length_le (hbuf.trans_le hended)] at hwhole
      exact hafter [] buf stream hbuf hwhole
    · obtain ⟨m, hm⟩ : ∃ m, size - byteNum = m + 1 := ⟨size - byteNum - 1, by omega⟩
      rw [hm]
      exact iff_of_true rfl trivial
  | cons e es ih =>
    rcases Nat.eq_zero_or_pos (size - byteNum) with hzero | hpos
    · have hended : size ≤ byteNum := by omega
      rw [hzero, recvLoop_ended _ hended, recvLoop_ended _ hended]
      rw [List.take_of_length_le (hbuf.trans_le hended)] at hwhole
      simp only [LoopHarmless]
      exact hafter (e :: es) buf stream hbuf hwhole
    have hended : ¬ size ≤ byteNum := by omega
    obtain ⟨m, hm⟩ : ∃ m, size - byteNum = m + 1 := ⟨size - byteNum - 1, by omega⟩
    rw [hm]
    cases e with
    | extra e =>
      simp only [disturbed, original, LoopHarmless]
      rw [recvLoop_error _ _ hended]
      exact eq_comm.trans (recvView_failed_iff hended hnext)
    | own r =>
      simp only [disturbed, original]
      cases r with
      | error errno =>
        rw [recvLoop_error _ _ hended, recvLoop_error _ _ hended]
        exact iff_of_true rfl trivial
      | closed =>
        rw [recvLoop_closed _ hended, recvLoop_closed _ hended]
        exact iff_of_true rfl trivial
      | got arrived =>
        rw [recvLoop_step _ _ hended, recvLoop_step _ _ hended]
        simp only [LoopHarmless]
        generalize hdata : stream.take (min arrived (size - byteNum)) = data
        have hcount : data.length = min (min arrived (m + 1)) stream.length := by
          rw [← hdata, List.length_take, hm]
        rw [← hcount]
        by_cases hnil : data = []
        · rw [if_pos hnil, if_pos hnil]
          exact iff_of_true rfl (.inl (by rw [hnil]; rfl))
        · have hfits : byteNum + data.length ≤ buf.length := by omega
          have hsplit : data ++ stream.drop data.length = stream :=
            List.prefix_iff_eq_append.mp (hdata ▸ List.take_prefix _ stream)
          rw [if_neg hnil, if_neg hnil, ih ((length_overwrite hfits).trans hbuf) (by omega) ?_]
          · have hleft : size - (byteNum + data.length) = m + 1 - data.length := by omega
            rw [hleft, List.length_drop]
            simp [hnil]
          · rw [take_overwrite data (by omega), List.append_assoc, hsplit]
            exact hwhole

end

/-! ## 5. The whole calls -/

/-- The second loop of `TCPRecv`, which nothing comes after. -/
def recvPacket (bufToFill : List Byte) (len : Nat) (s : RecvEnd) :
    Option (Int × List Byte × RecvEnd) :=
  afterLoop id (fun buf s => some (0, buf, s))
    (recvLoop (-2) len s.recvs (resize 0 bufToFill len) 0 s.stream)

/-- What `TCPRecv` does when it has the length. -/
def recvRest (o : ByteOrder) (bufToFill lenField : List Byte) (s : RecvEnd) :
    Option (Int × List Byte × RecvEnd) :=
  let len := int32 (networkToHostLong o (load32 o lenField))
  if len ≤ 0 ∨ len > maxTcpPktSize then some (-2, bufToFill, s) else
    recvPacket bufToFill len.toNat s

theorem afterLoop_done (bufOf : List Byte → List Byte)
    (next : List Byte → RecvEnd → Option (Int × List Byte × RecvEnd)) (buf : List Byte)
    (s : RecvEnd) :
    afterLoop bufOf next (some ⟨none, buf, s⟩) = next buf s := rfl

/-- `TCPRecv` as its two loops. -/
theorem tcpRecv_eq (o : ByteOrder) (bufToFill : List Byte) (s : RecvEnd) :
    tcpRecv o bufToFill s = afterLoop (fun _ => bufToFill) (recvRest o bufToFill)
      (recvLoop (-1) 4 s.recvs [0, 0, 0, 0] 0 s.stream) := by
  unfold tcpRecv
  split
  · rename_i hloop
    rw [hloop]
    rfl
  · rename_i hloop
    rw [hloop]
    rfl
  · rename_i lenField t hloop
    rw [hloop, afterLoop_done]
    unfold recvRest
    by_cases hbad : int32 (networkToHostLong o (load32 o lenField)) ≤ 0 ∨
        int32 (networkToHostLong o (load32 o lenField)) > maxTcpPktSize
    · rw [if_pos hbad, if_pos hbad]
    · rw [if_neg hbad, if_neg hbad]
      unfold recvPacket
      split
      · rename_i hpacket
        rw [hpacket]
        rfl
      · rename_i hpacket
        rw [hpacket]
        rfl
      · rename_i hpacket
        rw [hpacket]
        rfl

theorem recvPacket_stream {bufToFill : List Byte} {len : Nat} {s : RecvEnd}
    {r : Int × List Byte × List Byte} (h : recvView (recvPacket bufToFill len s) = some r) :
    r.2.2.length ≤ s.stream.length := by
  refine afterLoop_stream ?_ h
  rintro buf t r ⟨⟩
  exact le_rfl

theorem recvRest_stream (o : ByteOrder) (bufToFill lenField : List Byte) (s : RecvEnd)
    (r : Int × List Byte × List Byte) (h : recvView (recvRest o bufToFill lenField s) = some r) :
    r.2.2.length ≤ s.stream.length := by
  unfold recvRest at h
  dsimp only at h
  split at h
  · cases h
    exact le_rfl
  · exact recvPacket_stream h

/-- The second loop. -/
theorem recvPacket_iff (bufToFill stream : List Byte) (len : Nat) (es : List (Entry RecvResult)) :
    recvView (recvPacket bufToFill len ⟨disturbed .error es, stream⟩) =
        recvView (recvPacket bufToFill len ⟨original es, stream⟩) ↔
      LoopHarmless (fun _ _ => True) es len stream.length := by
  refine recv_loop_iff ?_ ?_ (length_resize 0 bufToFill len) (Nat.zero_le _)
    (List.nil_append stream)
  · intro es buf stream _ _
    exact iff_of_true rfl trivial
  · rintro buf s r ⟨⟩
    exact le_rfl

/-- What comes after the first loop, in which the first four bytes of the stream were read. -/
theorem recvRest_iff (o : ByteOrder) (bufToFill lenField stream rest : List Byte)
    (es : List (Entry RecvResult)) (hlen : lenField.length = 4)
    (hstream : lenField ++ rest = stream) :
    recvView (recvRest o bufToFill lenField ⟨disturbed .error es, rest⟩) =
        recvView (recvRest o bufToFill lenField ⟨original es, rest⟩) ↔
      lenOf o stream ≤ 0 ∨ lenOf o stream > maxTcpPktSize ∨
        LoopHarmless (fun _ _ => True) es (lenOf o stream).toNat rest.length := by
  have hfield : int32 (networkToHostLong o (load32 o lenField)) = lenOf o stream := by
    unfold lenOf
    rw [← hstream, ← hlen, List.take_left]
  unfold recvRest
  dsimp only
  rw [hfield, ← or_assoc]
  by_cases hbad : lenOf o stream ≤ 0 ∨ lenOf o stream > maxTcpPktSize
  · rw [if_pos hbad, if_pos hbad]
    exact iff_of_true rfl (.inl hbad)
  · rw [if_neg hbad, if_neg hbad, recvPacket_iff]
    exact (or_iff_right hbad).symm

/-- **When transient errors are invisible**: for every buffer, stream and schedule and every
insertion into it, what `TCPSend` and `TCPRecv` return and transfer is unchanged exactly when the
insertion does no harm. -/
theorem transient_errors_iff (bufToSend : Option (List Byte)) (wire : List Byte)
    (sends : List (Entry SendResult)) (o : ByteOrder) (bufToFill stream : List Byte)
    (recvs : List (Entry RecvResult)) :
    (SendInvisible bufToSend wire sends ↔ ∀ buf ∈ bufToSend, SendHarmless sends buf.length) ∧
      (RecvInvisible o bufToFill stream recvs ↔ RecvHarmless o stream recvs) := by
  constructor
  · cases bufToSend with
    | none => exact iff_of_true rfl (by simp)
    | some buf =>
      have hloop := @send_loop_iff buf wire 0 _ sends (le_refl (buf.drop 0).length)
      simpa [SendInvisible, tcpSend] using hloop
  · unfold RecvInvisible RecvHarmless
    rw [tcpRecv_eq, tcpRecv_eq]
    refine recv_loop_iff ?_ (recvRest_stream o bufToFill) rfl (Nat.zero_le 4)
      (List.nil_append stream)
    intro es lenField rest hlen hstream
    exact recvRest_iff o bufToFill lenField stream rest es hlen hstream

/-- An `EINTR` before the only `send`, and an `EAGAIN` between the length and the packet of one
byte. -/
theorem transient_errors_visible :
    (sendView (tcpSend (some [1]) ⟨original [.extra .eintr, .own (.sent 1)], []⟩) = some (0, [1]) ∧
      sendView (tcpSend (some [1]) ⟨disturbed .error [.extra .eintr, .own (.sent 1)], []⟩) =
        some (-2, []) ∧
      ¬ SendInvisible (some [1]) [] [.extra .eintr, .own (.sent 1)]) ∧
    (recvView (tcpRecv .little [] ⟨original [.own (.got 4), .extra .eagain, .own (.got 1)],
        [0, 0, 0, 1, 7]⟩) = some (0, [7], []) ∧
      recvView (tcpRecv .little [] ⟨disturbed .error [.own (.got 4), .extra .eagain, .own (.got 1)],
        [0, 0, 0, 1, 7]⟩) = some (-2, [0], [7]) ∧
      ¬ RecvInvisible .little [] [0, 0, 0, 1, 7]
        [.own (.got 4), .extra .eagain, .own (.got 1)]) := by
  refine ⟨⟨by decide +kernel, by decide +kernel, ?_⟩, by decide +kernel, by decide +kernel, ?_⟩
  · unfold SendInvisible
    decide +kernel
  · unfold RecvInvisible
    decide +kernel

end Kknf.AllSync
