/-
# HTTP framing

A message is a head that ends in the first `\r\n\r\n` and names the length of its body, and the
body.  The skeleton reads the head with `async_read` and a completion condition, which is asked
after every `read_some` with the number of bytes transferred so far; once the head is there it reads
what is missing of the body, cuts the buffer back to `recv_buf_filled` and passes it on.

`recv_buf_filled` is wrong: the completion condition ADDS the number of bytes so far at each call,
and the bytes of the body that are read later are never added.  So what is passed on has the right
length only when the sum of the running totals happens to be the length of the message; and a sum
that happens to be the size of the buffer ends the read too early.  `message_delivered_iff` says
that there is nothing else: for every way the transport splits the message, it is passed on as it is
exactly when these sums are right.  In particular a head and a body that come in one read are fine,
and a head that comes first is not (`filledAfter_first`).
-/
import Mathlib.Data.List.TakeWhile
import Kknf.Asio2.Listening
import Kknf.Asio2.Tape

namespace Kknf.Asio2

open Kknf.Run

/-! ## 1. Messages -/

/-- A head that ends in its first `\r\n\r\n`, is not longer than the first buffer, and names the
length of the body; with the body it is not too long. -/
structure Message (cfg : Config) (head body : List Byte) : Prop where
  ends : search crlfCrlf head = some (head.length - 4)
  small : head.length ≤ cfg.initRecvBufSize
  named : ∃ pos, search contentLengthKey head = some pos ∧
    cfg.lexicalCast (contentLengthText head pos) = some (body.length : Int)
  fits : (head.length : Int) + body.length ≤ cfg.maxRecvBufSize

section

variable {cfg : Config} {head body : List Byte}

theorem Message.four (h : Message cfg head body) : 4 ≤ head.length := by
  have hend := search_add_length_le h.ends
  have hlen : crlfCrlf.length = 4 := rfl
  omega

/-- The end of the head is there once all of it has come. -/
theorem Message.search_complete (h : Message cfg head body) {n m : Nat} (hn : head.length ≤ n) :
    search crlfCrlf ((head ++ body).take n ++ List.replicate m 0) = some (head.length - 4) := by
  rw [List.take_append, List.take_of_length_le hn, List.append_assoc]
  exact search_append h.ends _

/-- Before that, it is not. -/
theorem Message.search_partial (h : Message cfg head body) {n m : Nat} (hn : n < head.length) :
    search crlfCrlf ((head ++ body).take n ++ List.replicate m 0) = none := by
  have hfour := h.four
  have hlen : crlfCrlf.length = 4 := rfl
  refine search_append_replicate (by decide) (by decide) m ?_
  exact search_take_none (search_append h.ends body) (by omega)

/-- The text of the `Content-Length` field ends inside the head. -/
theorem Message.text_append (h : Message cfg head body) {pos : Nat}
    (hpos : search contentLengthKey head = some pos) (t : List Byte) :
    contentLengthText (head ++ t) pos = contentLengthText head pos := by
  have hfour := h.four
  have hend := search_add_length_le hpos
  have hkey : contentLengthKey.length = 15 := rfl
  obtain ⟨-, hpre, -⟩ := search_eq_some.mp hpos
  obtain ⟨-, hcrlf, -⟩ := search_eq_some.mp h.ends
  have hlast : head.drop (head.length - 4) = crlfCrlf := by
    refine (hcrlf.eq_of_length ?_).symm
    rw [List.length_drop]
    change 4 = head.length - (head.length - 4)
    omega
  -- the key ends in a blank, so it does not reach into the end of the head
  have hbefore : pos + 15 ≤ head.length - 4 := by
    by_contra hlt
    have hblank : head[pos + 14]? = some 32 := by
      obtain ⟨u, hu⟩ := hpre
      rw [← List.getElem?_drop, ← hu]
      rfl
    have hin : head[pos + 14]? = crlfCrlf[pos + 14 - (head.length - 4)]? := by
      rw [← hlast, List.getElem?_drop]
      congr 1
      omega
    rw [hblank] at hin
    have hmem : (32 : Byte) ∈ crlfCrlf := List.mem_of_getElem? hin.symm
    revert hmem
    decide
  have hmem : (13 : Byte) ∈ head.drop (pos + 15) := by
    have hsub : head.drop (head.length - 4) <:+ head.drop (pos + 15) :=
      List.drop_suffix_drop_left head hbefore
    rw [hlast] at hsub
    exact hsub.mem (by decide)
  unfold contentLengthText
  rw [List.drop_append_of_le_length (by omega), List.takeWhile_append, if_neg]
  intro hall
  have heq := List.takeWhile_eq_self_iff.mp
    ((List.takeWhile_prefix (p := fun b : Byte => decide (b ≠ 13))).eq_of_length hall) 13 hmem
  simp at heq

end

/-! ## 2. The wire of a socket -/

/-- The two reads of an HTTP message. -/
def Op.readsMessage : Op → Bool
  | .readHTTPHead _ _ _ | .readHTTPContent _ _ _ => true
  | _ => false

/-- The reads of a message outstanding on a socket. -/
def messageReads (s : Skeleton) (i : SockId) : List Op :=
  s.pending.filter fun op => op.sock? == some i && op.readsMessage

/-- What the reading of a message depends on, and what it gives. -/
structure Wire where
  recvBuf : List Byte
  filled : Nat
  reads : List Op
  started : Bool
  busy : Bool
  passed : List (List Byte)

def wire (s : Skeleton) (i : SockId) : Wire where
  recvBuf := (s.heap i).recvBuf
  filled := (s.heap i).recvBufFilled
  reads := messageReads s i
  started := s.started
  busy := s.running.isSome
  passed := delivered s i

section

variable (s : Skeleton) (i : SockId)

theorem wire_setSock (f : SocketInfo → SocketInfo) : wire (setSock s i f) i =
    { wire s i with
      recvBuf := (f (s.heap i)).recvBuf, filled := (f (s.heap i)).recvBufFilled } := by
  simp [wire, setSock, messageReads, delivered]

@[simp] theorem wire_touch : wire (touch s i) i = wire s i := wire_setSock s i _

theorem wire_push (op : Op) (hop : op.sock? = some i) (hread : op.readsMessage = true) :
    wire (push s op) i = { wire s i with reads := (wire s i).reads ++ [op] } := by
  simp [wire, push, messageReads, delivered, hop, hread]

theorem wire_push_other {op : Op} (hread : op.readsMessage = false) :
    wire (push s op) i = wire s i := by
  simp [wire, push, messageReads, delivered, hread]

theorem wire_pop (op : Op) :
    wire (pop s op) i = { wire s i with reads := (wire s i).reads.erase op } := by
  simp [wire, pop, messageReads, delivered, List.erase_filter]

@[simp] theorem wire_sendContinue : wire (sendContinue s i) i = wire s i :=
  (wire_push_other _ i rfl).trans (wire_setSock s i _)

theorem wire_callProcess (r : Running) (h : r.sock = i) : wire (callProcess s r) i =
    { wire s i with busy := true, passed := (wire s i).passed ++ [(wire s i).recvBuf] } := by
  subst h
  simp [wire, callProcess, messageReads, delivered]

/-- What the completion condition answers: how much may be read next. -/
def headLimit (buf : List Byte) (filled : Nat) : Nat :=
  if (search crlfCrlf buf).isSome then 0
  else if buf.length = filled then 0
  else sizeT (buf.length - filled)

theorem httpHeadReadCompletionCondition_wire (n : Nat) :
    wire (httpHeadReadCompletionCondition s false i n).1 i =
        { wire s i with filled := (wire s i).filled + n } ∧
      (httpHeadReadCompletionCondition s false i n).2 =
        headLimit (wire s i).recvBuf ((wire s i).filled + n) := by
  have hset : wire (setSock s i fun k => { k with
      recvBufFilled := (s.heap i).recvBufFilled + n }) i =
      { wire s i with filled := (wire s i).filled + n } := wire_setSock s i _
  have hbuf : (wire s i).recvBuf = (s.heap i).recvBuf := rfl
  have hfill : (wire s i).filled = (s.heap i).recvBufFilled := rfl
  simp only [httpHeadReadCompletionCondition, Bool.false_eq_true, if_false, headLimit]
  rw [hbuf, hfill]
  split
  · exact ⟨hset, rfl⟩
  · split
    · exact ⟨hset, rfl⟩
    · exact ⟨hset, rfl⟩

/-- `HandleReadHTTPContentThenProcess` passes on the buffer, cut to `recv_buf_filled`. -/
theorem handleReadHTTPContentThenProcess_wire (cont : Bool) :
    wire (handleReadHTTPContentThenProcess s false i cont) i =
      { wire s i with
        recvBuf := resize 0 (wire s i).recvBuf (wire s i).filled
        filled := 0
        busy := true
        passed := (wire s i).passed ++ [resize 0 (wire s i).recvBuf (wire s i).filled] } := by
  simp only [handleReadHTTPContentThenProcess, Bool.false_eq_true, if_false]
  rw [wire_callProcess _ i _ rfl, wire_touch, wire_setSock]
  rfl

end

/-! ## 3. The head has come -/

section

variable {cfg : Config} {head body : List Byte} {s : Skeleton} {i : SockId} {n F : Nat}
  {D : List (List Byte)}

/-- The message, or the part of it that has come, in a buffer of `size` bytes. -/
def padded (msg : List Byte) (n size : Nat) : List Byte :=
  msg.take n ++ List.replicate (size - n) 0

theorem length_padded {msg : List Byte} {size : Nat} (hn : n ≤ msg.length) (hs : n ≤ size) :
    (padded msg n size).length = size := by
  simp only [padded, List.length_append, List.length_take, List.length_replicate]
  omega

/-- The size of the buffer once it holds the whole message. -/
def grown (cfg : Config) (msg : List Byte) : Nat := max cfg.initRecvBufSize msg.length

/-- The rest of the message is being read; `n` bytes of it have come, and `recv_buf_filled` is
`F`. -/
structure ReadsContent (cfg : Config) (msg : List Byte) (i : SockId) (D : List (List Byte))
    (n F : Nat) (w : Wire) : Prop where
  reads : w.reads = [.readHTTPContent i n (msg.length - n)]
  recvBuf : w.recvBuf = padded msg n (grown cfg msg)
  filled : w.filled = F
  started : w.started = true
  idle : w.busy = false
  passed : w.passed = D
  missing : n < msg.length

/-- The buffer was passed on, cut to `F` bytes. -/
structure PassedOn (cfg : Config) (msg : List Byte) (D : List (List Byte)) (F : Nat) (w : Wire) :
    Prop where
  reads : w.reads = []
  passed : w.passed = D ++ [resize 0 (padded msg msg.length (grown cfg msg)) F]

theorem growRecvBuf_wire {msg : List Byte} (hbuf : (wire s i).recvBuf =
      padded msg n cfg.initRecvBufSize) (hn : n ≤ msg.length) (hs : n ≤ cfg.initRecvBufSize) :
    wire (growRecvBuf s i msg.length) i =
      { wire s i with recvBuf := padded msg n (grown cfg msg) } := by
  have hold : (s.heap i).recvBuf = padded msg n cfg.initRecvBufSize := hbuf
  have hlen := length_padded hn hs
  unfold growRecvBuf
  rw [hold, hlen]
  split
  · rename_i hlt
    have hmax : grown cfg msg = msg.length := max_eq_right (by omega)
    have hresize : resize 0 (padded msg n cfg.initRecvBufSize) msg.length =
        padded msg n (grown cfg msg) := by
      have hsum : cfg.initRecvBufSize - n + (msg.length - cfg.initRecvBufSize) =
          msg.length - n := by omega
      unfold resize
      rw [hlen, List.take_of_length_le (by rw [hlen]; omega), hmax, padded, padded,
        List.append_assoc, List.replicate_append_replicate, hsum]
    rw [wire_setSock]
    simp only [Int.toNat_natCast]
    rw [hold, hresize]
    rfl
  · rename_i hlt
    have hmax : grown cfg msg = cfg.initRecvBufSize := max_eq_left (by omega)
    rw [hmax, ← hold]
    rfl

/-- The head handler, when the head has not come. -/
theorem handleReadHTTPHead_wire_none (hnone : search crlfCrlf (wire s i).recvBuf = none) :
    wire (handleReadHTTPHead cfg s false i n) i = wire s i := by
  have hbuf : search crlfCrlf (s.heap i).recvBuf = none := hnone
  simp only [handleReadHTTPHead, Bool.false_eq_true, if_false, hbuf, wire_touch]

/-- **The head handler, when the head has come**: it passes on the message when all of it has come,
and reads the rest otherwise. -/
theorem handleReadHTTPHead_wire (h : Message cfg head body)
    (hbuf : (wire s i).recvBuf = padded (head ++ body) n cfg.initRecvBufSize)
    (hfilled : (wire s i).filled = F) (hreads : (wire s i).reads = [])
    (hstart : (wire s i).started = true) (hidle : (wire s i).busy = false)
    (hpassed : (wire s i).passed = D) (hhead : head.length ≤ n) (hn : n ≤ (head ++ body).length)
    (hs : n ≤ cfg.initRecvBufSize) :
    (n < (head ++ body).length ∧ ReadsContent cfg (head ++ body) i D n F
        (wire (handleReadHTTPHead cfg s false i n) i)) ∨
      (n = (head ++ body).length ∧ PassedOn cfg (head ++ body) D F
        (wire (handleReadHTTPHead cfg s false i n) i)) := by
  obtain ⟨pos, hpos, hcast⟩ := h.named
  have hfour := h.four
  have hfits := h.fits
  have hmax := cfg.maxRecvBufSize_int
  have hold : (s.heap i).recvBuf = padded (head ++ body) n cfg.initRecvBufSize := hbuf
  have hlen : (head ++ body).length = head.length + body.length := List.length_append
  have hend : search crlfCrlf (s.heap i).recvBuf = some (head.length - 4) := by
    rw [hold]
    exact h.search_complete hhead
  have hsplit : ∃ t, (s.heap i).recvBuf = head ++ t := by
    rw [hold, padded, List.take_append, List.take_of_length_le hhead, List.append_assoc]
    exact ⟨_, rfl⟩
  obtain ⟨t, ht⟩ := hsplit
  have hkey : search contentLengthKey (s.heap i).recvBuf = some pos := by
    rw [ht]
    exact search_append hpos t
  have htext : cfg.lexicalCast (contentLengthText (s.heap i).recvBuf pos) =
      some (body.length : Int) := by
    rw [ht, h.text_append hpos, hcast]
  have htotal : int32 ((body.length : Int) + ((head.length - 4 : Nat) + 4)) =
      (head ++ body).length := by
    rw [int32_eq (by omega) (by omega)]
    omega
  have hroom : ¬ cfg.maxRecvBufSize < ((head ++ body).length : Int) := by omega
  have hleft : int32 (((head ++ body).length : Int) - n) = ((head ++ body).length : Int) - n :=
    int32_eq (by omega) (by omega)
  -- the handler goes through to the reading of the rest
  have hrest : handleReadHTTPHead cfg s false i n =
      readHTTPRest (growRecvBuf (touch s i) i (head ++ body).length) i n (head ++ body).length
        (search continueKey (s.heap i).recvBuf).isSome := by
    simp only [handleReadHTTPHead, Bool.false_eq_true, if_false, hend, hkey, htext, htotal,
      if_neg hroom]
  have hgrown : wire (growRecvBuf (touch s i) i (head ++ body).length) i =
      { wire s i with recvBuf := padded (head ++ body) n (grown cfg (head ++ body)) } := by
    rw [growRecvBuf_wire (by rw [wire_touch]; exact hbuf) hn hs, wire_touch]
  rw [hrest]
  simp only [readHTTPRest, hleft]
  split
  · rename_i hzero
    have hall : n = (head ++ body).length := by omega
    refine .inr ⟨hall, ?_⟩
    have hdone := handleReadHTTPContentThenProcess_wire
      (growRecvBuf (touch s i) i (head ++ body).length) i
      (search continueKey (s.heap i).recvBuf).isSome
    rw [hgrown] at hdone
    rw [hdone]
    refine ⟨hreads, ?_⟩
    simp only [hpassed, hfilled]
    rw [← hall]
  · rename_i hne
    have hmissing : n < (head ++ body).length := by omega
    have hsize : sizeT (((head ++ body).length : Int) - n) = (head ++ body).length - n := by
      rw [sizeT_eq (by omega) (by omega)]
      omega
    have hpush := wire_push (growRecvBuf (touch s i) i (head ++ body).length) i
      (.readHTTPContent i n (sizeT (((head ++ body).length : Int) - n))) rfl rfl
    rw [hgrown, hsize] at hpush
    refine .inl ⟨hmissing, ?_⟩
    have hwire : wire (if (search continueKey (s.heap i).recvBuf).isSome then
        sendContinue (push (growRecvBuf (touch s i) i (head ++ body).length)
          (.readHTTPContent i n (sizeT (((head ++ body).length : Int) - n)))) i
        else push (growRecvBuf (touch s i) i (head ++ body).length)
          (.readHTTPContent i n (sizeT (((head ++ body).length : Int) - n)))) i =
        wire (push (growRecvBuf (touch s i) i (head ++ body).length)
          (.readHTTPContent i n (sizeT (((head ++ body).length : Int) - n)))) i := by
      split
      · exact wire_sendContinue _ i
      · rfl
    rw [hwire, hsize, hpush]
    exact ⟨by simp [hreads], rfl, hfilled, hstart, hidle, hpassed, hmissing⟩

end

/-! ## 4. One read -/

section

variable {cfg : Config} {head body : List Byte} {s t : Skeleton} {i : SockId} {n F l : Nat}
  {d : List Byte} {D : List (List Byte)}

/-- The head is being read; `n` bytes of the message have come, and `recv_buf_filled` is `F`.  Only
a read that starts with a full `recv_buf_filled` is asked for nothing. -/
structure ReadsHead (cfg : Config) (head msg : List Byte) (i : SockId) (D : List (List Byte))
    (n F : Nat) (w : Wire) : Prop where
  reads : ∃ l, w.reads = [.readHTTPHead i n l] ∧
    (l = 0 → n = 0 ∧ F % 2 ^ 64 = cfg.initRecvBufSize)
  recvBuf : w.recvBuf = padded msg n cfg.initRecvBufSize
  filled : w.filled = F
  started : w.started = true
  idle : w.busy = false
  passed : w.passed = D
  missing : n < head.length

/-- Nothing is being read any more, and nothing was passed on. -/
structure Dropped (D : List (List Byte)) (w : Wire) : Prop where
  reads : w.reads = []
  passed : w.passed = D

theorem overwrite_padded {msg rest : List Byte} (size : Nat) (hn : n ≤ msg.length)
    (hd : d ++ rest = msg.drop n) :
    overwrite (padded msg n size) n d = padded msg (n + d.length) size := by
  have htake : (msg.take n).length = n := by
    rw [List.length_take]
    omega
  have hdata : (msg.drop n).take d.length = d := by
    rw [← hd, List.take_left]
  have hover := overwrite_append (msg.take n) (List.replicate (size - n) (0 : Byte)) d
  have hrest : size - n - d.length = size - (n + d.length) := by omega
  rw [htake] at hover
  rw [padded, padded, hover, List.take_add, hdata, List.drop_replicate, hrest]

/-- Before the head has come, the completion condition stops the read only when `recv_buf_filled` is
the size of the buffer. -/
theorem Message.headLimit_eq_zero (h : Message cfg head body) (hn : n < head.length) :
    headLimit (padded (head ++ body) n cfg.initRecvBufSize) F = 0 ↔
      F % 2 ^ 64 = cfg.initRecvBufSize := by
  have hsmall := h.small
  have hint := cfg.initRecvBufSize_int
  have hlen : (padded (head ++ body) n cfg.initRecvBufSize).length = cfg.initRecvBufSize :=
    length_padded (by rw [List.length_append]; omega) (by omega)
  have hnone : search crlfCrlf (padded (head ++ body) n cfg.initRecvBufSize) = none :=
    h.search_partial hn
  unfold headLimit
  rw [hnone, hlen]
  simp only [Option.isSome_none, Bool.false_eq_true, if_false, sizeT]
  split <;> omega

/-- What a completed read of the head or the content does first: its bytes go into the buffer. -/
theorem complete_store {op : Op} (off : Nat)
    (hstep : step cfg s (.complete op { data := d }) = .ok t)
    {f : Skeleton → Skeleton}
    (hop : handle cfg (pop s op) op { data := d } = (storeRecv (pop s op) i off d).map f) :
    Fits s op { data := d } ∧ ∃ s', t = f s' ∧ wire s' i =
      { wire s i with
        recvBuf := overwrite (wire s i).recvBuf off d, reads := (wire s i).reads.erase op } := by
  simp only [step] at hstep
  split at hstep
  · rename_i hen
    obtain ⟨-, -, -, hfits⟩ := hen
    rw [hop] at hstep
    obtain ⟨s', hs', rfl⟩ := map_eq_ok.mp hstep
    refine ⟨hfits, s', rfl, ?_⟩
    rw [storeRecv_ok hs', wire_setSock, wire_pop]
    rfl
  · cases hstep

/-- **One read of the head.**  The head has come; or it has not, and the completion condition reads
on, or gives up because `recv_buf_filled` is the size of the buffer. -/
theorem ReadsHead.complete (h : Message cfg head body)
    (hw : ReadsHead cfg head (head ++ body) i D n F (wire s i))
    (hl : (wire s i).reads = [.readHTTPHead i n l]) {rest : List Byte}
    (hd : d ++ rest = (head ++ body).drop n)
    (hstep : step cfg s (.complete (.readHTTPHead i n l) { data := d }) = .ok t) :
    (head.length ≤ n + d.length ∧
      (ReadsContent cfg (head ++ body) i D (n + d.length) (F + (n + d.length)) (wire t i) ∨
        PassedOn cfg (head ++ body) D (F + (n + d.length)) (wire t i))) ∨
    (n + d.length < head.length ∧ (F + (n + d.length)) % 2 ^ 64 = cfg.initRecvBufSize ∧
      Dropped D (wire t i)) ∨
    (n + d.length < head.length ∧ (F + (n + d.length)) % 2 ^ 64 ≠ cfg.initRecvBufSize ∧
      ReadsHead cfg head (head ++ body) i D (n + d.length) (F + (n + d.length)) (wire t i)) := by
  have hmissing := hw.missing
  have hsmall := h.small
  have hmsg : (head ++ body).length = head.length + body.length := List.length_append
  have hcome : n + d.length ≤ (head ++ body).length := by
    have hlen := congrArg List.length hd
    rw [List.length_append, List.length_drop] at hlen
    omega
  obtain ⟨hfits, s', rfl, hs'⟩ := complete_store n hstep
    (f := fun s' => readHTTPSome cfg s' false i n d.length) rfl
  obtain ⟨hlimit, hroom, hempty⟩ := hfits
  rw [hl, List.erase_cons_head, hw.recvBuf, overwrite_padded _ (by omega) hd] at hs'
  obtain ⟨l', hl', hzero⟩ := hw.reads
  cases hl.symm.trans hl'
  have hsize : (s.heap i).recvBuf.length = cfg.initRecvBufSize := by
    change (wire s i).recvBuf.length = _
    rw [hw.recvBuf]
    exact length_padded (by omega) (by omega)
  rw [hsize] at hroom hempty
  have hsize' : (s'.heap i).recvBuf.length = cfg.initRecvBufSize := by
    change (wire s' i).recvBuf.length = _
    rw [hs']
    exact length_padded hcome hroom
  obtain ⟨hcond, hanswer⟩ := httpHeadReadCompletionCondition_wire s' i (n + d.length)
  rw [hs'] at hcond hanswer
  simp only [hw.filled] at hcond hanswer
  simp only [readHTTPSome, Bool.false_or, hsize']
  rcases Nat.lt_or_ge (n + d.length) head.length with hlt | hge
  · refine .inr ?_
    have hiff := h.headLimit_eq_zero (F := F + (n + d.length)) hlt
    by_cases hfull : (F + (n + d.length)) % 2 ^ 64 = cfg.initRecvBufSize
    · refine .inl ⟨hlt, hfull, ?_⟩
      have hstop := hiff.mpr hfull
      rw [← hanswer] at hstop
      rw [hstop]
      simp only [BEq.rfl, Bool.or_true, Bool.true_or, if_true]
      rw [handleReadHTTPHead_wire_none, hcond]
      · exact ⟨rfl, hw.passed⟩
      · rw [hcond]
        exact h.search_partial hlt
    · refine .inr ⟨hlt, hfull, ?_⟩
      have hgo : headLimit (padded (head ++ body) (n + d.length) cfg.initRecvBufSize)
          (F + (n + d.length)) ≠ 0 := fun hstop => hfull (hiff.mp hstop)
      rw [← hanswer] at hgo
      have hsome : d.length ≠ 0 := by
        intro hnil
        rcases hempty rfl (List.length_eq_zero_iff.mp hnil) with hl0 | hend
        · obtain ⟨hn0, hF⟩ := hzero hl0
          exact hfull (by rw [hn0, hnil]; exact hF)
        · omega
      have hnotEnd : n + d.length ≠ cfg.initRecvBufSize := by omega
      simp only [beq_eq_false_iff_ne.mpr hgo, beq_eq_false_iff_ne.mpr hsome,
        beq_eq_false_iff_ne.mpr hnotEnd, Bool.or_false, Bool.false_eq_true, if_false]
      rw [wire_push _ _ _ rfl rfl, hcond]
      exact ⟨⟨_, rfl, fun hz => absurd hz hgo⟩, rfl, rfl, hw.started, hw.idle, hw.passed, hlt⟩
  · refine .inl ⟨hge, ?_⟩
    have hstop : headLimit (padded (head ++ body) (n + d.length) cfg.initRecvBufSize)
        (F + (n + d.length)) = 0 := by
      have hfound := h.search_complete (m := cfg.initRecvBufSize - (n + d.length)) hge
      unfold headLimit padded
      rw [hfound]
      rfl
    rw [← hanswer] at hstop
    rw [hstop]
    simp only [BEq.rfl, Bool.or_true, Bool.true_or, if_true]
    rcases handleReadHTTPHead_wire (D := D) (F := F + (n + d.length)) h (by rw [hcond])
      (by rw [hcond]) (by rw [hcond]) (by rw [hcond]; exact hw.started)
      (by rw [hcond]; exact hw.idle) (by rw [hcond]; exact hw.passed) hge hcome hroom
      with ⟨-, hcontent⟩ | ⟨-, hdone⟩
    · exact .inl hcontent
    · exact .inr hdone

/-- **The read of the rest**: the buffer, with the whole message in it, is passed on. -/
theorem ReadsContent.complete {msg : List Byte} (hw : ReadsContent cfg msg i D n F (wire s i))
    (hd : d = msg.drop n)
    (hstep : step cfg s (.complete (.readHTTPContent i n (msg.length - n)) { data := d }) = .ok t) :
    PassedOn cfg msg D F (wire t i) := by
  have hmissing := hw.missing
  obtain ⟨-, s', rfl, hs'⟩ := complete_store n hstep
    (f := fun s' => handleReadHTTPContentThenProcess s' false i false) rfl
  have hall : n + d.length = msg.length := by
    rw [hd, List.length_drop]
    omega
  have hover := overwrite_padded (grown cfg msg) hmissing.le
    ((List.append_nil d).trans hd)
  rw [hw.reads, List.erase_cons_head, hw.recvBuf, hover, hall] at hs'
  rw [handleReadHTTPContentThenProcess_wire, hs']
  refine ⟨rfl, ?_⟩
  simp only [hw.passed, hw.filled]

end

/-! ## 5. Every split of a message -/

/-- A read of a head has just been started. -/
structure HeadReadStarted (cfg : Config) (s : Skeleton) (i : SockId) : Prop where
  reads : messageReads s i = [.readHTTPHead i 0
    (headLimit (List.replicate cfg.initRecvBufSize 0) (s.heap i).recvBufFilled)]
  recvBuf : (s.heap i).recvBuf = List.replicate cfg.initRecvBufSize 0
  started : s.started = true
  idle : s.running = none

/-- The transport gives the bytes `ds`, one list for each `read_some`: a read of a head completes
with each of them, and the read of the rest, which is a `transfer_all`, with all that are left. -/
def feed (cfg : Config) (i : SockId) : List (List Byte) → Skeleton → Except Fault Skeleton
  | [], s => .ok s
  | d :: ds, s =>
    match messageReads s i with
    | .readHTTPHead j n l :: _ =>
      match step cfg s (.complete (.readHTTPHead j n l) { data := d }) with
      | .ok t => feed cfg i ds t
      | .error f => .error f
    | .readHTTPContent j n c :: _ =>
      step cfg s (.complete (.readHTTPContent j n c) { data := (d :: ds).flatten })
    | _ => .ok s

/-- `recv_buf_filled` when the head of `headLen` bytes has come, after the reads `ds` into a buffer
of `size` bytes: each read adds the number of bytes so far.  `none` when it never comes so far,
because the sum is the size of the buffer before. -/
def filledAfter (size headLen : Nat) : Nat → Nat → List (List Byte) → Option Nat
  | _, _, [] => none
  | filled, total, d :: ds =>
    if headLen ≤ total + d.length then some (filled + (total + d.length))
    else if (filled + (total + d.length)) % 2 ^ 64 = size then none
    else filledAfter size headLen (filled + (total + d.length)) (total + d.length) ds

section

variable {cfg : Config} {head body : List Byte} {s t : Skeleton} {i : SockId} {n F : Nat}
  {D ds : List (List Byte)}

/-- All reads of heads start so. -/
theorem asyncReadHTTPHead_started (hreads : messageReads s i = []) (hstart : s.started = true)
    (hidle : s.running = none) : HeadReadStarted cfg (asyncReadHTTPHead cfg s i) i := by
  obtain ⟨hcond, hanswer⟩ := httpHeadReadCompletionCondition_wire
    (setRecvBuf s i cfg.initRecvBufSize) i 0
  have hset : wire (setRecvBuf s i cfg.initRecvBufSize) i =
      { wire s i with recvBuf := List.replicate cfg.initRecvBufSize 0 } := wire_setSock s i _
  rw [hset] at hcond hanswer
  have hwire : wire (asyncReadHTTPHead cfg s i) i =
      { wire s i with
        recvBuf := List.replicate cfg.initRecvBufSize 0
        reads := [.readHTTPHead i 0
          (headLimit (List.replicate cfg.initRecvBufSize 0) (wire s i).filled)] } := by
    have hempty : (wire s i).reads = [] := hreads
    simp only [asyncReadHTTPHead]
    rw [wire_push _ _ _ rfl rfl, hcond, hanswer, hempty]
    rfl
  have hfilled : ((asyncReadHTTPHead cfg s i).heap i).recvBufFilled = (wire s i).filled :=
    congrArg Wire.filled hwire
  have hbusy : (asyncReadHTTPHead cfg s i).running.isSome = s.running.isSome :=
    congrArg Wire.busy hwire
  refine ⟨?_, congrArg Wire.recvBuf hwire, (congrArg Wire.started hwire).trans hstart, ?_⟩
  · rw [hfilled]
    exact congrArg Wire.reads hwire
  · simpa [hidle] using hbusy

theorem HeadReadStarted.readsHead (h : Message cfg head body) (hs : HeadReadStarted cfg s i) :
    ReadsHead cfg head (head ++ body) i (delivered s i) 0 (s.heap i).recvBufFilled (wire s i) := by
  have hfour := h.four
  have hbuf : List.replicate cfg.initRecvBufSize 0 =
      padded (head ++ body) 0 cfg.initRecvBufSize := rfl
  have hlimit := h.headLimit_eq_zero (n := 0) (F := (s.heap i).recvBufFilled) (by omega)
  rw [← hbuf] at hlimit
  refine ⟨⟨_, hs.reads, fun hzero => ⟨rfl, hlimit.mp hzero⟩⟩, hs.recvBuf, rfl, hs.started, ?_, rfl,
    by omega⟩
  change s.running.isSome = false
  rw [hs.idle]
  rfl

/-- Nothing more is passed on once no read is outstanding. -/
theorem feed_of_no_reads (hreads : (wire s i).reads = []) (ds : List (List Byte)) :
    feed cfg i ds s = .ok s := by
  have hnone : messageReads s i = [] := hreads
  cases ds with
  | nil => rfl
  | cons d ds => simp only [feed, hnone]

theorem feed_content {msg : List Byte} (hw : ReadsContent cfg msg i D n F (wire s i))
    (hds : ds.flatten = msg.drop n) (hrun : feed cfg i ds s = .ok t) :
    PassedOn cfg msg D F (wire t i) := by
  have hmissing := hw.missing
  have hreads : messageReads s i = [.readHTTPContent i n (msg.length - n)] := hw.reads
  cases ds with
  | nil =>
    have hlen := congrArg List.length hds
    rw [List.length_drop, List.flatten_nil, List.length_nil] at hlen
    omega
  | cons d ds =>
    simp only [feed, hreads] at hrun
    exact hw.complete hds hrun

/-- **What is passed on**, for every split of what is left of the message: the buffer cut to
`filledAfter`, and nothing when there is none. -/
theorem feed_head (h : Message cfg head body) (ds : List (List Byte)) :
    ∀ {s : Skeleton} {n F : Nat}, ReadsHead cfg head (head ++ body) i D n F (wire s i) →
      ds.flatten = (head ++ body).drop n → feed cfg i ds s = .ok t →
      match filledAfter cfg.initRecvBufSize head.length F n ds with
      | some F' => PassedOn cfg (head ++ body) D F' (wire t i)
      | none => Dropped D (wire t i) := by
  induction ds with
  | nil =>
    intro s n F hw hds hrun
    have hmissing := hw.missing
    have hlen := congrArg List.length hds
    rw [List.length_drop, List.length_append, List.flatten_nil, List.length_nil] at hlen
    omega
  | cons d ds ih =>
    intro s n F hw hds hrun
    obtain ⟨l, hl, -⟩ := hw.reads
    have hreads : messageReads s i = [.readHTTPHead i n l] := hl
    have hd : d ++ ds.flatten = (head ++ body).drop n := by rw [← hds, List.flatten_cons]
    have hrest : ds.flatten = (head ++ body).drop (n + d.length) := by
      rw [← List.drop_drop, ← hd, List.drop_left]
    simp only [feed, hreads] at hrun
    split at hrun
    · rename_i s' hstep
      rw [filledAfter]
      rcases hw.complete h hl hd hstep with ⟨hcome, hend⟩ | ⟨hlt, hfull, hdrop⟩ | ⟨hlt, hgo, hnext⟩
      · rw [if_pos hcome]
        rcases hend with hcontent | hdone
        · exact feed_content hcontent hrest hrun
        · rw [feed_of_no_reads hdone.reads] at hrun
          cases hrun
          exact hdone
      · rw [if_neg (by omega), if_pos hfull]
        rw [feed_of_no_reads hdrop.reads] at hrun
        cases hrun
        exact hdrop
      · rw [if_neg (by omega), if_neg hgo]
        exact ih hnext hrest hrun
    · cases hrun

/-- The buffer that holds the message is cut to the message exactly when it is cut to its length. -/
theorem resize_padded_eq_iff {msg : List Byte} {size : Nat} :
    resize 0 (padded msg msg.length size) F = msg ↔ F = msg.length := by
  constructor
  · intro heq
    have hlen := congrArg List.length heq
    rwa [length_resize] at hlen
  · intro hF
    rw [hF, padded, List.take_length, resize_append]

/-- When the first read has the head in it, it must have the body in it too. -/
theorem filledAfter_first {size headLen len : Nat} {d : List Byte} (hd : headLen ≤ d.length) :
    filledAfter size headLen 0 0 (d :: ds) = some len ↔ d.length = len := by
  simp [filledAfter, hd]

end

/-- **When a message is passed on as it is**: for every split of it into reads, exactly when the
running totals up to the read that completes the head add up to the length of the message, and not
to the size of the buffer before. -/
theorem message_delivered_iff (cfg : Config) (s t : Skeleton) (i : SockId) (head body : List Byte)
    (ds : List (List Byte)) (h : Message cfg head body) (hs : HeadReadStarted cfg s i)
    (hds : ds.flatten = head ++ body) (hrun : feed cfg i ds s = .ok t) :
    delivered t i = delivered s i ++ [head ++ body] ↔
      filledAfter cfg.initRecvBufSize head.length (s.heap i).recvBufFilled 0 ds =
        some (head ++ body).length := by
  have hend := feed_head h ds (hs.readsHead h) hds hrun
  have hpassed : (wire t i).passed = delivered t i := rfl
  split at hend
  · rename_i F' hF'
    have hcut := hend.passed
    rw [hpassed] at hcut
    rw [hcut, hF', List.append_cancel_left_eq, List.singleton_inj, resize_padded_eq_iff,
      Option.some.injEq]
  · rename_i hF'
    have hnone := hend.passed
    rw [hpassed] at hnone
    rw [hnone, hF']
    simp

/-- `boost::lexical_cast<int>` of a text of digits. -/
def decimal (text : List Byte) : Option Int :=
  let n : Nat := text.foldl (fun n b => 10 * n + (b.toNat - 48)) 0
  let digits := text.all fun b => 48 ≤ b.toNat && b.toNat ≤ 57
  if !text.isEmpty && digits && n < 2 ^ 31 then some n else none

theorem decimal_int (text : List Byte) (n : Int) (h : decimal text = some n) :
    -2 ^ 31 ≤ n ∧ n < 2 ^ 31 := by
  simp only [decimal, Option.ite_none_right_eq_some, Option.some.injEq, Bool.and_eq_true,
    decide_eq_true_eq] at h
  obtain ⟨⟨-, hlt⟩, rfl⟩ := h
  omega

def Config.http : Config :=
  { Config.lv with lexicalCast := decimal, lexicalCast_int := decimal_int }

/-- `"POST /xxx HTTP/1.1\r\nContent-Length 2\r\n\r\n"` -/
def postHead : List Byte :=
  [80, 79, 83, 84, 32, 47, 120, 120, 120, 32, 72, 84, 84, 80, 47, 49, 46, 49, 13, 10] ++
    contentLengthKey ++ [50] ++ crlfCrlf

theorem postHead_message : Message Config.http postHead [104, 105] where
  ends := by decide +kernel
  small := by decide +kernel
  named := ⟨20, by decide +kernel, by decide +kernel⟩
  fits := by decide +kernel

/-- A server accepts a connection and starts to read. -/
def acceptHTTP : List Event :=
  [.request (.addTCPAcceptor ⟨1, 80⟩ .http), .run,
    .complete (.accept ⟨1, 80⟩) { remoteEndpoint := some ⟨2, 5000⟩, localEndpoint := some ⟨1, 80⟩ }]

theorem acceptHTTP_started : ∃ s, exec (step Config.http) init acceptHTTP = .ok s ∧
    HeadReadStarted Config.http s 0 ∧ (s.heap 0).recvBufFilled = 0 ∧ delivered s 0 = [] := by
  refine ⟨_, rfl, ⟨?_, ?_, ?_, ?_⟩, ?_, ?_⟩
  all_goals decide +kernel

/-- The message in one read. -/
theorem postHead_in_one_read : ∃ s t, exec (step Config.http) init acceptHTTP = .ok s ∧
    feed Config.http 0 [postHead ++ [104, 105]] s = .ok t ∧
      delivered t 0 = [postHead ++ [104, 105]] := by
  obtain ⟨s, hs, hstarted, hfilled, hnone⟩ := acceptHTTP_started
  have hrun : ((exec (step Config.http) init acceptHTTP).bind
      (feed Config.http 0 [postHead ++ [104, 105]])).map Skeleton.started = .ok true := by
    decide +kernel
  rw [hs] at hrun
  obtain ⟨t, ht, -⟩ := map_eq_ok.mp hrun
  have hiff := message_delivered_iff Config.http s t 0 postHead [104, 105] _ postHead_message
    hstarted (List.flatten_singleton) ht
  rw [hnone, hfilled, filledAfter_first (by decide)] at hiff
  exact ⟨s, t, hs, ht, hiff.mpr rfl⟩

/-- The head in one read and the body in the next: the body is cut off. -/
theorem postHead_body_cut_off : ∃ s t, exec (step Config.http) init acceptHTTP = .ok s ∧
    Message Config.http postHead [104, 105] ∧ HeadReadStarted Config.http s 0 ∧
      feed Config.http 0 [postHead, [104, 105]] s = .ok t ∧
        delivered t 0 = delivered s 0 ++ [postHead] ∧
          delivered t 0 ≠ delivered s 0 ++ [postHead ++ [104, 105]] := by
  obtain ⟨s, hs, hstarted, hfilled, hnone⟩ := acceptHTTP_started
  have hrun : ((exec (step Config.http) init acceptHTTP).bind
      (feed Config.http 0 [postHead, [104, 105]])).map (delivered · 0) = .ok [postHead] := by
    decide +kernel
  rw [hs] at hrun
  obtain ⟨t, ht, hcut⟩ := map_eq_ok.mp hrun
  refine ⟨s, t, hs, postHead_message, hstarted, ht, ?_, ?_⟩
  · rw [hnone]
    exact hcut
  · rw [hnone, hcut]
    decide

end Kknf.Asio2
