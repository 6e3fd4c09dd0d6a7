/-
# The read of an HTTP body, as it is bounded

`HandleReadHTTPHeadThenReadHTTPContent` takes the length of the body from the head.  It adds the
length of the head, refuses a sum above `max_recv_buf_size_`, makes `recv_buf` long enough for the
sum, and reads what is missing, `len + head_len - byte_num` bytes.  Nothing is checked from below:

* a sum that does not fit into an `int` wraps round to a negative one, which is let through;
* a negative `Content-Length`, and a read that brought bytes of the next message along, make the
  number of missing bytes negative, and it is converted to an unsigned number near `2^64`.

`body_read_iff` says that these are all: the handler does one of the three things it is for exactly
when the sum fits, and is too large or at least what has been read.
-/
import Kknf.Asio2.LengthGuard
import Kknf.Asio2.HTTPFraming

namespace Kknf.Asio2

open Run

/-! ## 1. What the handler is for -/

/-- A head in a buffer that can be used: it ends after `headLen` bytes, and its `Content-Length` is
the number `len`. -/
structure NamedHead (cfg : Config) (buf : List Byte) (headLen : Nat) (len : Int) : Prop where
  ends : ∃ pos, search crlfCrlf buf = some pos ∧ headLen = pos + 4
  named : ∃ pos, search contentLengthKey buf = some pos ∧
    cfg.lexicalCast (contentLengthText buf pos) = some len

/-- The handler destroys the socket, passes the message on, or starts a read of some bytes that end
inside `recv_buf`; with the read it may send the 100-continue answer. -/
inductive BodyRead (s t : Skeleton) (i : SockId) (byteNum : Nat) : Prop
  | destroyed (pending : t.pending = s.pending) (closed : (t.heap i).closed = true)
  | processed (pending : t.pending = s.pending)
      (waits : ∃ r ∈ t.running, r.sock = i ∧ r.http = true)
      (call : ∃ c, t.calls = s.calls ++ [c] ∧ c.sock = i)
  | reads (count : Nat) (some_left : 0 < count) (answer : List Op)
      (pending : t.pending = s.pending ++ .readHTTPContent i byteNum count :: answer)
      (only : ∀ op ∈ answer, op = .anythingThenNothing i)
      (inside : byteNum + count ≤ (t.heap i).recvBuf.length)

/-- A head of `headLen` bytes that names a body of `len` is handled well: the sum of the two is an
`int`, and the handler does what it is for. -/
structure BodyReadOk (cfg : Config) (s : Skeleton) (i : SockId) (byteNum headLen : Nat)
    (len : Int) : Prop where
  sum : -2 ^ 31 ≤ len + headLen ∧ len + headLen < 2 ^ 31
  read : BodyRead s (handleReadHTTPHead cfg s false i byteNum) i byteNum

/-! ## 2. The parts of the handler -/

section

variable (s : Skeleton) (i : SockId)

theorem pending_growRecvBuf (total : Int) : (growRecvBuf s i total).pending = s.pending := by
  unfold growRecvBuf
  split <;> rfl

theorem calls_growRecvBuf (total : Int) : (growRecvBuf s i total).calls = s.calls := by
  unfold growRecvBuf
  split <;> rfl

/-- The buffer is long enough for the message, and not made longer than that. -/
theorem length_growRecvBuf (total : Int) :
    (((growRecvBuf s i total).heap i).recvBuf.length : Int) =
      max ((s.heap i).recvBuf.length : Int) total := by
  unfold growRecvBuf
  split
  · simp only [setSock, Function.update_self, length_resize]
    omega
  · omega

/-- The operations of the answer to `Expect: 100-continue`. -/
def continueOps (continueFieldFound : Bool) : List Op :=
  if continueFieldFound then [.anythingThenNothing i] else []

/-- A difference that is not 0 asks for some bytes, however it is converted. -/
theorem sizeT_int32_pos {x : Int} (h : int32 x ≠ 0) : 0 < sizeT (int32 x) := by
  have hlo : -2 ^ 31 ≤ int32 x := Int.le_bmod (by decide)
  have hhi : int32 x < 2 ^ 31 := Int.bmod_lt (by decide)
  unfold sizeT
  omega

/-- The end of the handler when bytes are missing: a read of them is started. -/
theorem readHTTPRest_missing {byteNum : Nat} {total : Int} (cont : Bool)
    (hleft : int32 (total - byteNum) ≠ 0) :
    (readHTTPRest s i byteNum total cont).pending = s.pending ++
        .readHTTPContent i byteNum (sizeT (int32 (total - byteNum))) :: continueOps i cont ∧
      ((readHTTPRest s i byteNum total cont).heap i).recvBuf = (s.heap i).recvBuf := by
  unfold readHTTPRest
  simp only [if_neg hleft]
  cases cont with
  | false => exact ⟨rfl, rfl⟩
  | true =>
    refine ⟨?_, ?_⟩
    · simp [sendContinue, setSendBuf, push, setSock, continueOps]
    · simp [sendContinue, setSendBuf, push, setSock]

/-- The end of the handler when nothing is missing: the message is passed on. -/
theorem readHTTPRest_complete {byteNum : Nat} {total : Int} (cont : Bool)
    (hleft : int32 (total - byteNum) = 0) :
    BodyRead s (readHTTPRest s i byteNum total cont) i byteNum := by
  unfold readHTTPRest
  simp only [if_pos hleft]
  refine .processed rfl ⟨⟨i, true, cont⟩, rfl, rfl, rfl⟩ ⟨_, rfl, rfl⟩

/-- What is to be read, when something is missing, is a piece of the buffer exactly when the message
ends behind what has been read. -/
theorem missing_inside_iff {byteNum size : Nat} {total : Int} (hread : byteNum ≤ size)
    (hsize : size < 2 ^ 31) (hlo : -2 ^ 31 ≤ total) (hhi : total < 2 ^ 31) :
    ((byteNum + sizeT (int32 (total - byteNum)) : Nat) : Int) ≤ max (size : Int) total ↔
      (byteNum : Int) ≤ total := by
  constructor
  · intro hinside
    by_contra hlt
    -- the difference is negative; it stays so, or it wraps round to more than there is room for
    rcases Int.lt_or_le (total - byteNum) (-2 ^ 31) with hwrap | hneg
    · have hpos : int32 (total - byteNum) = total - byteNum + 2 ^ 32 := by
        unfold int32
        rw [Int.bmod_def]
        split <;> omega
      rw [hpos, sizeT_eq (by omega) (by omega)] at hinside
      omega
    · rw [int32_eq hneg (by omega)] at hinside
      unfold sizeT at hinside
      omega
  · intro hle
    rw [int32_eq (by omega) (by omega), sizeT_eq (by omega) (by omega)]
    omega

end

/-! ## 3. When the read is bounded -/

section

variable {cfg : Config} {s : Skeleton} {i : SockId} {byteNum headLen : Nat} {len : Int}

/-- The way of a head that can be used. -/
theorem NamedHead.handle (h : NamedHead cfg (s.heap i).recvBuf headLen len) :
    handleReadHTTPHead cfg s false i byteNum =
      if cfg.maxRecvBufSize < int32 (len + headLen) then (destroySocket (touch s i) i).1
      else readHTTPRest (growRecvBuf (touch s i) i (int32 (len + headLen))) i byteNum
        (int32 (len + headLen)) (search continueKey (s.heap i).recvBuf).isSome := by
  obtain ⟨pos, hend, rfl⟩ := h.ends
  obtain ⟨pos', hkey, hcast⟩ := h.named
  simp only [handleReadHTTPHead, Bool.false_eq_true, if_false, hend, hkey, hcast, Nat.cast_add,
    Nat.cast_ofNat]

/-- A sum that is let through: the read is in its bounds exactly when the message ends behind what
has been read. -/
theorem body_read_let_through {total : Int} (cont : Bool)
    (hread : byteNum ≤ (s.heap i).recvBuf.length)
    (hsize : (s.heap i).recvBuf.length < 2 ^ 31) (hlo : -2 ^ 31 ≤ total) (hhi : total < 2 ^ 31) :
    BodyRead s (readHTTPRest (growRecvBuf (touch s i) i total) i byteNum total cont) i byteNum ↔
      (byteNum : Int) ≤ total := by
  have hpending : (growRecvBuf (touch s i) i total).pending = s.pending :=
    pending_growRecvBuf _ i total
  have hcalls : (growRecvBuf (touch s i) i total).calls = s.calls := calls_growRecvBuf _ i total
  have htouch : ((touch s i).heap i).recvBuf = (s.heap i).recvBuf := by simp [touch, setSock]
  have hlength := length_growRecvBuf (touch s i) i total
  rw [htouch] at hlength
  by_cases hleft : int32 (total - byteNum) = 0
  · have heq : (byteNum : Int) = total := by
      unfold int32 at hleft
      rw [Int.bmod_def] at hleft
      split at hleft <;> omega
    refine iff_of_true ?_ heq.le
    rcases readHTTPRest_complete (growRecvBuf (touch s i) i total) i cont hleft with
      ⟨hp, hclosed⟩ | ⟨hp, hwaits, c, hc, hsock⟩ | ⟨count, hpos, answer, hp, honly, hin⟩
    · exact .destroyed (hp.trans hpending) hclosed
    · exact .processed (hp.trans hpending) hwaits ⟨c, by rw [hc, hcalls], hsock⟩
    · exact .reads count hpos answer (by rw [hp, hpending]) honly hin
  · obtain ⟨hp, hbuf⟩ := readHTTPRest_missing (growRecvBuf (touch s i) i total) i cont hleft
    have hiff := missing_inside_iff hread hsize hlo hhi
    rw [← hlength, ← hbuf, Int.ofNat_le] at hiff
    rw [hpending] at hp
    rw [← hiff]
    constructor
    · rintro (⟨hsame, -⟩ | ⟨hsame, -, -⟩ | ⟨count, -, answer, hsome, -, hin⟩)
      · rw [hp] at hsame
        simp at hsame
      · rw [hp] at hsame
        simp at hsame
      · rw [hp, List.append_cancel_left_eq, List.cons.injEq] at hsome
        obtain ⟨-, -, rfl⟩ := Op.readHTTPContent.inj hsome.1
        exact hin
    · intro hin
      refine .reads _ (sizeT_int32_pos hleft) _ hp ?_ hin
      · intro op hop
        unfold continueOps at hop
        split at hop
        · exact List.mem_singleton.mp hop
        · cases hop

end

/-- **When the read of a body is bounded**: for every head and every number of bytes that came with
it, the sum of the lengths of head and body has to fit into an `int`, and to be too large, so that
the socket is destroyed, or at least what has been read.  `recv_buf` is as long as the read of the
head was started with, which is an `int`. -/
theorem body_read_iff (cfg : Config) (s : Skeleton) (i : SockId) (byteNum headLen : Nat) (len : Int)
    (h : NamedHead cfg (s.heap i).recvBuf headLen len)
    (hread : byteNum ≤ (s.heap i).recvBuf.length) (hsize : (s.heap i).recvBuf.length < 2 ^ 31) :
    BodyReadOk cfg s i byteNum headLen len ↔
      len + headLen < 2 ^ 31 ∧
      (cfg.maxRecvBufSize < len + headLen ∨ (byteNum : Int) ≤ len + headLen) := by
  have hlo : -2 ^ 31 ≤ len := by
    obtain ⟨pos, -, hcast⟩ := h.named
    exact (cfg.lexicalCast_int _ _ hcast).1
  have hway : handleReadHTTPHead cfg s false i byteNum = _ := h.handle
  constructor
  · rintro ⟨⟨-, hfits⟩, hok⟩
    rw [int32_eq (by omega) hfits] at hway
    refine ⟨hfits, or_iff_not_imp_left.mpr fun hmax => ?_⟩
    rw [hway, if_neg hmax] at hok
    exact (body_read_let_through _ hread hsize (by omega) hfits).mp hok
  · rintro ⟨hfits, hcases⟩
    rw [int32_eq (by omega) hfits] at hway
    refine ⟨⟨by omega, hfits⟩, ?_⟩
    rw [hway]
    by_cases hmax : cfg.maxRecvBufSize < len + headLen
    · rw [if_pos hmax]
      exact .destroyed (pending_destroySocket _ i) (closed_destroySocket _ i)
    · rw [if_neg hmax]
      exact (body_read_let_through _ hread hsize (by omega) hfits).mpr
        (hcases.resolve_left hmax)

/-- A server that has accepted a connection gets these bytes in one read of the head. -/
theorem acceptHTTP_read {data : List Byte} (hdata : data.length ≤ 1024) :
    ∃ s t, exec (step Config.http) init acceptHTTP = .ok s ∧
      storeRecv (pop s (.readHTTPHead 0 0 1024)) 0 0 data = .ok t ∧
      (t.heap 0).recvBuf = data ++ List.replicate (1024 - data.length) 0 := by
  obtain ⟨s, hs, hstarted, -, -⟩ := acceptHTTP_started
  have hbuf : ((pop s (.readHTTPHead 0 0 1024)).heap 0).recvBuf = List.replicate 1024 0 :=
    hstarted.recvBuf
  refine ⟨s, _, hs, if_pos ?_, ?_⟩
  · rw [hbuf, List.length_replicate]
    omega
  · simp only [setSock, Function.update_self, hbuf, overwrite, List.take_zero, List.nil_append,
      Nat.zero_add, List.drop_replicate]

theorem length_read {data : List Byte} (hdata : data.length ≤ 1024) :
    (data ++ List.replicate (1024 - data.length) 0).length = 1024 := by
  rw [List.length_append, List.length_replicate]
  omega

/-- The head of `postHead`, whatever follows. -/
theorem postHead_named (rest : List Byte) : NamedHead Config.http (postHead ++ rest) 40 2 := by
  obtain ⟨pos, hpos, hcast⟩ := postHead_message.named
  refine ⟨⟨36, search_append postHead_message.ends rest, rfl⟩, pos, search_append hpos rest, ?_⟩
  rw [postHead_message.text_append hpos, hcast]
  rfl

/-- The message in one read, with nothing behind it: it is passed on. -/
theorem postHead_read_in_bounds : ∃ s t, exec (step Config.http) init acceptHTTP = .ok s ∧
    storeRecv (pop s (.readHTTPHead 0 0 1024)) 0 0 (postHead ++ [104, 105]) = .ok t ∧
      BodyReadOk Config.http t 0 42 40 2 := by
  have hdata : (postHead ++ [104, 105]).length ≤ 1024 := by decide
  obtain ⟨s, t, hs, ht, hbuf⟩ := acceptHTTP_read hdata
  have hlen := length_read hdata
  rw [← hbuf] at hlen
  have hnamed : NamedHead Config.http (t.heap 0).recvBuf 40 2 := by
    rw [hbuf, List.append_assoc]
    exact postHead_named _
  exact ⟨s, t, hs, ht, (body_read_iff Config.http t 0 42 40 2 hnamed (by omega) (by omega)).mpr
    (by decide)⟩

/-- One more byte in the read, the first of the next message: a read of `2^64 - 1` bytes is
started. -/
theorem pipelined_read_out_of_bounds : ∃ s t, exec (step Config.http) init acceptHTTP = .ok s ∧
    storeRecv (pop s (.readHTTPHead 0 0 1024)) 0 0 (postHead ++ [104, 105, 80]) = .ok t ∧
      NamedHead Config.http (t.heap 0).recvBuf 40 2 ∧ (t.heap 0).recvBuf.length = 1024 ∧
      (handleReadHTTPHead Config.http t false 0 43).pending =
        t.pending ++ [.readHTTPContent 0 43 (2 ^ 64 - 1)] ∧
      ¬ BodyReadOk Config.http t 0 43 40 2 := by
  have hdata : (postHead ++ [104, 105, 80]).length ≤ 1024 := by decide
  obtain ⟨s, t, hs, ht, hbuf⟩ := acceptHTTP_read hdata
  have hlen := length_read hdata
  rw [← hbuf] at hlen
  have hnamed : NamedHead Config.http (t.heap 0).recvBuf 40 2 := by
    rw [hbuf, List.append_assoc]
    exact postHead_named _
  refine ⟨s, t, hs, ht, hnamed, hlen, ?_, fun hok => ?_⟩
  · have hcont : (search continueKey (t.heap 0).recvBuf).isSome = false := by
      rw [hbuf]
      decide +kernel
    rw [hnamed.handle, if_neg (by decide +kernel), hcont,
      (readHTTPRest_missing _ 0 false (by decide +kernel)).1, pending_growRecvBuf]
    rfl
  · have hiff := body_read_iff Config.http t 0 43 40 2 hnamed (by omega) (by omega)
    exact absurd (hiff.mp hok) (by decide)

end Kknf.Asio2
