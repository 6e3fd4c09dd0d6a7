/-
# The line protocol of the multi-pool server

`TestSimpleProcessor2` of `test_multi_pool_server.cc` answers lines.  A worker that has been given a
socket calls `TCPRecv_Line`, which is one `recv` of at most 1024 bytes, looks for the first newline
in what came, and sends back what is before it.  A socket with no newline in what came is closed.
What is behind the first newline is forgotten, and so is what is behind a zero byte, since the line
is copied as a C string.  A failed `TCPSend` only prints a message.

A connection is served by one worker at a time (`Kknf.AllSync.Serving`), so here it is one round of
the loop after the other, by whichever worker.  `lines_echoed_iff` says how much of a protocol this
is: a client gets back all its lines exactly when every `recv` happened to return one line, and no
line has a zero byte.
-/
import Mathlib.Algebra.BigOperators.Ring.List
import Kknf.Lib.LineStream
import Kknf.Lib.Run
import Kknf.AllSync.Packets

namespace Kknf.AllSync.Lines

open Kknf.Run Kknf.LineStream

/-! ## 1. One round -/

def newline : Byte := 10

/-- `"You sent: "` -/
def youSent : List Byte := [89, 111, 117, 32, 115, 101, 110, 116, 58, 32]

/-- `TestSimpleServer::TCPRecv_Line`: the code it returns, `buf_to_fill`, and what is still to be
received. -/
def tcpRecvLine (stream : List Byte) : RecvResult → Option (Int × List Byte × List Byte)
  | .error errno =>
    let buf := List.replicate 1024 0
    if errno ≠ EINTR ∨ errno ≠ EAGAIN ∨ errno ≠ EWOULDBLOCK then some (-1, buf, stream)
    else some (-2, buf, stream)
  | .closed => some (0, [], stream)
  | .got arrived =>
    let data := stream.take (min arrived 1024)
    -- with nothing to hand out `recv` waits
    if data = [] then none else some (0, data, stream.drop data.length)

/-- What a C string begins with. -/
def cString (buf : List Byte) : List Byte := buf.takeWhile (· ≠ 0)

/-- The business logic: `rspline`, or nothing when `buf` has no newline. -/
def rspLine (buf : List Byte) : Option (List Byte) :=
  let i := buf.findIdx (· = newline)
  if i = buf.length then none
  else
    let cmdline := cString (buf.set i 0)
    some (youSent ++ cmdline ++ [newline])

/-- A connection: all the client has sent, the part not received yet, what it has been sent, whether
it has been closed, and what `recv` has returned, call by call.  `input` and `chunks` are read by
nothing. -/
structure Conn where
  input : List Byte := []
  stream : List Byte := []
  wire : List Byte := []
  closed : Bool := false
  chunks : List (List Byte) := []

/-- A chunk is recorded, unless it is empty. -/
def addChunk (chunks : List (List Byte)) (buf : List Byte) : List (List Byte) :=
  if buf = [] then chunks else chunks ++ [buf]

inductive Event
  | clientSend (bytes : List Byte)
  /-- a worker has been given the socket, and goes once round the loop of `Process` -/
  | process (recv : RecvResult) (sends : List SendResult)

inductive Fault
  /-- the event is not possible in this state -/
  | disabled
  deriving DecidableEq

/-- The worker sends the reply, and gives the socket back whatever comes of it. -/
def answer (s : Conn) (rsp : List Byte) (sends : List SendResult) : Except Fault Conn :=
  match tcpSend (some rsp) ⟨sends, s.wire⟩ with
  | none => .error .disabled
  | some (_, e) => .ok { s with wire := e.wire }

def step (s : Conn) : Event → Except Fault Conn
  | .clientSend bytes => .ok { s with input := s.input ++ bytes, stream := s.stream ++ bytes }
  | .process recv sends =>
    if s.closed then .error .disabled
    else
      match tcpRecvLine s.stream recv with
      | none => .error .disabled
      | some (ret, buf, stream) =>
        if ret < 0 then .ok { s with closed := true }
        else
          let s := { s with stream, chunks := addChunk s.chunks buf }
          match rspLine buf with
          | none => .ok { s with closed := true }
          | some rsp => answer s rsp sends

/-! ## 2. The reply to a line -/

/-- What a line should be answered with. -/
def echo (line : List Byte) : List Byte := youSent ++ line ++ [newline]

/-- What is sent for a chunk. -/
def replyTo (buf : List Byte) : List Byte := (rspLine buf).getD []

theorem findIdx_line {l t : List Byte} (h : newline ∉ l) :
    (l ++ newline :: t).findIdx (· = newline) = l.length := by
  induction l with
  | nil => simp [List.findIdx_cons]
  | cons x l ih =>
    have hx : ¬ x = newline := fun heq => h (heq ▸ List.mem_cons_self)
    have hl : newline ∉ l := fun hmem => h (List.mem_cons_of_mem x hmem)
    simp [List.findIdx_cons, hx, ih hl]

theorem cString_zero (l t : List Byte) : cString (l ++ 0 :: t) = cString l := by
  induction l with
  | nil => simp [cString]
  | cons x l ih =>
    simp only [cString, List.cons_append, List.takeWhile_cons] at ih ⊢
    rw [ih]

/-- A C string ends at the first zero byte. -/
theorem cString_eq_iff (l : List Byte) : cString l = l ↔ 0 ∉ l := by
  induction l with
  | nil => simp [cString]
  | cons x l ih =>
    by_cases hx : x = 0
    · simp [cString, hx]
    · simpa [cString, hx, Ne.symm hx] using ih

/-- **The first line is answered**, as far as it is a C string, and the rest is forgotten. -/
theorem rspLine_line {l : List Byte} (h : newline ∉ l) (t : List Byte) :
    rspLine (l ++ newline :: t) = some (youSent ++ cString l ++ [newline]) := by
  have hlt : ¬ l.length = (l ++ newline :: t).length := by simp
  have hset : (l ++ newline :: t).set l.length 0 = l ++ 0 :: t := by simp
  simp only [rspLine, findIdx_line h, if_neg hlt, hset, cString_zero]

theorem rspLine_none {buf : List Byte} (h : newline ∉ buf) : rspLine buf = none := by
  have hidx : buf.findIdx (· = newline) = buf.length := by
    rw [List.findIdx_eq_length]
    intro x hx
    simpa using fun heq : x = newline => h (heq ▸ hx)
  simp only [rspLine, hidx, if_true]

/-- One line that is a C string gets its echo. -/
theorem replyTo_line {l : List Byte} (h : newline ∉ l) (h0 : 0 ∉ l) :
    replyTo (l ++ [newline]) = echo l := by
  rw [replyTo, rspLine_line h, (cString_eq_iff l).mpr h0]
  rfl

/-- **A chunk gets no longer reply than its lines would**, and as long a one only if it is one
line. -/
theorem length_replyTo {buf : List Byte} (hne : buf ≠ []) :
    (replyTo buf).length ≤ buf.length + 10 * buf.count newline ∧
      ((replyTo buf).length = buf.length + 10 * buf.count newline →
        ∃ l, buf = l ++ [newline] ∧ newline ∉ l ∧ 0 ∉ l) := by
  by_cases hmem : newline ∈ buf
  · obtain ⟨l, t, rfl, hl⟩ := List.eq_append_cons_of_mem hmem
    have hpre : cString l <+: l := List.takeWhile_prefix _
    have hle := hpre.length_le
    have hlen : (replyTo (l ++ newline :: t)).length = (cString l).length + 11 := by
      rw [replyTo, rspLine_line hl]
      simp [youSent]
    have hcount : (l ++ newline :: t).count newline = t.count newline + 1 := by
      rw [List.count_append, List.count_cons_self, List.count_eq_zero_of_not_mem hl, Nat.zero_add]
    rw [hlen, hcount, List.length_append, List.length_cons]
    refine ⟨by omega, fun heq => ?_⟩
    have ht : t = [] := List.length_eq_zero_iff.mp (by omega)
    subst ht
    have hall : (cString l).length = l.length := by omega
    exact ⟨l, rfl, hl, (cString_eq_iff l).mp (hpre.eq_of_length hall)⟩
  · have hnil : replyTo buf = [] := by rw [replyTo, rspLine_none hmem]; rfl
    rw [hnil, List.count_eq_zero_of_not_mem hmem]
    refine ⟨Nat.zero_le _, fun heq => absurd (List.length_eq_zero_iff.mp ?_) hne⟩
    simpa using heq.symm

theorem length_echoes (lines : List (List Byte)) :
    ((lines.map echo).flatten).length = (lines.map List.length).sum + 11 * lines.length := by
  induction lines with
  | nil => rfl
  | cons l ls ih =>
    have hecho : (echo l).length = l.length + 11 := by simp [echo, youSent]
    simp only [List.map_cons, List.flatten_cons, List.length_append, ih, hecho, List.sum_cons,
      List.length_cons]
    omega

/-- Chunks that are lines. -/
theorem lines_of_chunks {chunks : List (List Byte)}
    (h : ∀ c ∈ chunks, ∃ l, c = l ++ [newline] ∧ newline ∉ l ∧ 0 ∉ l) :
    ∃ lines : List (List Byte), chunks = lines.map (· ++ [newline]) ∧ (∀ l ∈ lines, newline ∉ l) ∧
      ∀ l ∈ lines, 0 ∉ l := by
  induction chunks with
  | nil => exact ⟨[], rfl, by rintro l ⟨⟩, by rintro l ⟨⟩⟩
  | cons c chunks ih =>
    obtain ⟨lines, rfl, hlines, hzero⟩ := ih fun c' hc' => h c' (List.mem_cons_of_mem c hc')
    obtain ⟨l, rfl, hl, h0⟩ := h c List.mem_cons_self
    exact ⟨l :: lines, rfl, List.forall_mem_cons.mpr ⟨hl, hlines⟩,
      List.forall_mem_cons.mpr ⟨h0, hzero⟩⟩

/-- **The echoes of the lines come back exactly when each chunk is a line**, however the stream of
lines was cut into chunks. -/
theorem echoes_iff {chunks lines : List (List Byte)} (hne : ∀ c ∈ chunks, c ≠ [])
    (hlines : ∀ l ∈ lines, newline ∉ l) (hcut : chunks.flatten = lineStream newline lines) :
    (chunks.map replyTo).flatten = (lines.map echo).flatten ↔
      chunks = lines.map (· ++ [newline]) ∧ ∀ l ∈ lines, 0 ∉ l := by
  constructor
  · intro hall
    -- count the bytes that are sent, and those that should be
    have hbytes : (chunks.map List.length).sum = (lines.map List.length).sum + lines.length := by
      rw [← List.length_flatten, hcut, length_lineStream]
    have hnewlines : (chunks.map (List.count newline)).sum = lines.length := by
      rw [← List.count_flatten, hcut, count_lineStream hlines]
    have hsum : (chunks.map fun c => (replyTo c).length).sum =
        (chunks.map fun c => c.length + 10 * c.count newline).sum := by
      have hsent := congrArg List.length hall
      rw [length_echoes, List.length_flatten, List.map_map] at hsent
      have hadd : (chunks.map fun c => c.length + 10 * c.count newline).sum =
          (chunks.map List.length).sum + 10 * (chunks.map (List.count newline)).sum := by
        rw [List.sum_map_add, List.sum_map_mul_left]
      rw [hadd, hbytes, hnewlines]
      exact hsent.trans (by omega)
    have heach := eq_of_sum_eq (fun c hc => (length_replyTo (hne c hc)).1) hsum
    have hline : ∀ c ∈ chunks, ∃ l, c = l ++ [newline] ∧ newline ∉ l ∧ 0 ∉ l := fun c hc =>
      (length_replyTo (hne c hc)).2 (heach c hc)
    obtain ⟨lines', rfl, hlines', hzero⟩ := lines_of_chunks hline
    obtain rfl : lines' = lines := lineStream_injective hlines' hlines hcut
    exact ⟨rfl, hzero⟩
  · rintro ⟨rfl, hzero⟩
    rw [List.map_map]
    congr 1
    exact List.map_congr_left fun l hl => replyTo_line (hlines l hl) (hzero l hl)

/-! ## 3. Runs -/

/-- What has been received and what is still to be received is what the client has sent, and it has
been sent the replies to the chunks. -/
structure Inv (s : Conn) : Prop where
  cut : s.chunks.flatten ++ s.stream = s.input
  nonempty : ∀ c ∈ s.chunks, c ≠ []
  wire : s.wire = (s.chunks.map replyTo).flatten

/-- What `TCPSend` returns, if it is called. -/
def sendCode (s : Conn) : Event → Option Int
  | .clientSend _ => none
  | .process recv sends =>
    (tcpRecvLine s.stream recv).bind fun x => (rspLine x.2.1).bind fun rsp =>
      (tcpSend (some rsp) ⟨sends, s.wire⟩).map Prod.fst

/-- No `TCPSend` fails. -/
def SendSucceeds (s : Conn) (e : Event) : Prop := ∀ ret ∈ sendCode s e, ¬ ret < 0

instance (s : Conn) (e : Event) : Decidable (SendSucceeds s e) :=
  inferInstanceAs (Decidable (∀ ret ∈ sendCode s e, ¬ ret < 0))

/-- What one `recv` comes to: it fails, or it takes a chunk off the stream. -/
theorem tcpRecvLine_cases {stream buf rest : List Byte} {recv : RecvResult} {ret : Int}
    (h : tcpRecvLine stream recv = some (ret, buf, rest)) :
    (ret < 0 ∧ rest = stream) ∨ (ret = 0 ∧ buf ++ rest = stream) := by
  cases recv with
  | error errno =>
    simp only [tcpRecvLine] at h
    split at h <;> cases h <;> exact Or.inl ⟨by decide, rfl⟩
  | closed =>
    cases h
    exact Or.inr ⟨rfl, rfl⟩
  | got arrived =>
    simp only [tcpRecvLine] at h
    split at h
    · cases h
    · cases h
      refine Or.inr ⟨rfl, ?_⟩
      conv_rhs => rw [← List.take_append_drop (min arrived 1024) stream]
      congr 1
      rw [List.length_take]
      rcases Nat.le_total (min arrived 1024) stream.length with hle | hle
      · rw [Nat.min_eq_left hle]
      · rw [Nat.min_eq_right hle, List.drop_length, List.drop_eq_nil_of_le hle]

theorem addChunk_flatten (chunks : List (List Byte)) (buf : List Byte) :
    (addChunk chunks buf).flatten = chunks.flatten ++ buf := by
  unfold addChunk
  split
  · rename_i hnil
    rw [hnil, List.append_nil]
  · rw [List.flatten_append, List.flatten_singleton]

theorem addChunk_nonempty {chunks : List (List Byte)} (h : ∀ c ∈ chunks, c ≠ []) (buf : List Byte) :
    ∀ c ∈ addChunk chunks buf, c ≠ [] := by
  intro c hc
  unfold addChunk at hc
  split at hc
  · exact h c hc
  · rename_i hne
    rcases List.mem_append.mp hc with hc | hc
    · exact h c hc
    · rwa [List.mem_singleton.mp hc]

/-- The chunk adds its reply. -/
theorem addChunk_replies (chunks : List (List Byte)) (buf : List Byte) :
    ((addChunk chunks buf).map replyTo).flatten = (chunks.map replyTo).flatten ++ replyTo buf := by
  unfold addChunk
  split
  · rename_i hnil
    have hreply : replyTo [] = [] := rfl
    rw [hnil, hreply, List.append_nil]
  · rw [List.map_append, List.flatten_append, List.map_singleton, List.flatten_singleton]

/-- **One event** keeps it, if its `TCPSend` does not fail. -/
theorem step_inv {s t : Conn} {e : Event} (h : Inv s) (hsend : SendSucceeds s e)
    (hstep : step s e = .ok t) :
    Inv t := by
  cases e with
  | clientSend bytes =>
    cases hstep
    refine ⟨?_, h.nonempty, h.wire⟩
    change s.chunks.flatten ++ (s.stream ++ bytes) = s.input ++ bytes
    rw [← List.append_assoc, h.cut]
  | process recv sends =>
    simp only [step] at hstep
    split at hstep
    · cases hstep
    split at hstep
    · cases hstep
    rename_i ret buf rest hrecv
    rcases tcpRecvLine_cases hrecv with ⟨hret, -⟩ | ⟨rfl, hsplit⟩
    · rw [if_pos hret] at hstep
      cases hstep
      exact ⟨h.cut, h.nonempty, h.wire⟩
    · have hcut : (addChunk s.chunks buf).flatten ++ rest = s.input := by
        rw [addChunk_flatten, List.append_assoc, hsplit, h.cut]
      rw [if_neg (lt_irrefl 0)] at hstep
      split at hstep
      · -- no newline: the socket is closed
        rename_i hnone
        cases hstep
        refine ⟨hcut, addChunk_nonempty h.nonempty buf, ?_⟩
        change s.wire = _
        rw [addChunk_replies, replyTo, hnone, h.wire]
        exact (List.append_nil _).symm
      · rename_i rsp hrsp
        unfold answer at hstep
        split at hstep
        · cases hstep
        rename_i ret' x hx
        cases hstep
        refine ⟨hcut, addChunk_nonempty h.nonempty buf, ?_⟩
        rcases tcpSend_cases hx with ⟨-, hwire⟩ | ⟨rfl, -⟩
        · change x.wire = _
          rw [addChunk_replies, replyTo, hrsp, hwire, h.wire]
          rfl
        · have hcode : sendCode s (.process recv sends) = some (-2) := by
            simp [sendCode, hrecv, hrsp, hx]
          exact absurd (by decide) (hsend (-2) hcode)

/-- **A client gets its lines back exactly when `recv` respects them.**  In any run in which no
`TCPSend` fails, once all that a client has sent has been received, and it has sent these lines: it
has been sent the echoes of all of them, in order and nothing else, if and only if every `recv`
returned one whole line, and none of them has a zero byte. -/
theorem lines_echoed_iff {es : List Event} {s : Conn} (hrun : exec step {} es = .ok s)
    (hsends : Along step SendSucceeds {} es) {lines : List (List Byte)}
    (hlines : ∀ l ∈ lines, newline ∉ l)
    (hinput : s.input = lineStream newline lines) (hall : s.stream = []) :
    s.wire = (lines.map echo).flatten ↔
      s.chunks = lines.map (· ++ [newline]) ∧ ∀ l ∈ lines, 0 ∉ l := by
  have hinv : Inv s :=
    hsends.invariant (P := Inv) (fun _ _ _ h hsend hstep => step_inv h hsend hstep)
    ⟨rfl, by rintro c ⟨⟩, rfl⟩ hrun
  have hcut : s.chunks.flatten = lineStream newline lines := by
    rw [← hinput, ← hinv.cut, hall, List.append_nil]
  rw [hinv.wire]
  exact echoes_iff hinv.nonempty hlines hcut

/-- Two lines, each in a packet of its own; the first echo goes out in two pieces. -/
def twoLines : List Event :=
  [.clientSend [104, 105, 10], .process (.got 3) [.sent 5, .sent 100], .clientSend [121, 111, 10],
    .process (.got 9) [.sent 100]]

theorem twoLines_echoed : ∃ s, exec step {} twoLines = .ok s ∧
    (s.wire = ([[104, 105], [121, 111]].map echo).flatten ↔
      s.chunks = [[104, 105, 10], [121, 111, 10]] ∧
        ∀ l ∈ ([[104, 105], [121, 111]] : List (List Byte)), 0 ∉ l) ∧
    s.wire = ([[104, 105], [121, 111]].map echo).flatten := by
  have hends : (exec step {} twoLines).map (fun s => (s.input, s.stream, s.wire)) =
      .ok (lineStream newline [[104, 105], [121, 111]], [],
        ([[104, 105], [121, 111]].map echo).flatten) := by
    decide +kernel
  obtain ⟨s, hs, hend⟩ := map_eq_ok.mp hends
  rw [Prod.mk.injEq, Prod.mk.injEq] at hend
  have hsends : Along step SendSucceeds {} twoLines := by decide +kernel
  exact ⟨s, hs, lines_echoed_iff hs hsends (by decide) hend.1 hend.2.1, hend.2.2⟩

/-- Two lines in one packet: the second one is forgotten. -/
example : (exec step {} [.clientSend [104, 105, 10, 121, 111, 10],
    .process (.got 6) [.sent 100]]).map
    (fun s => (s.stream, s.wire)) = .ok ([], echo [104, 105]) := by decide

end Kknf.AllSync.Lines
