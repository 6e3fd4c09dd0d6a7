/-
# The line decoder: `LineTcpSocket::ReadHandler`

The bytes of a line connection gather in `non_packetized_buf_`.  After each `read` the function
looks for the last newline among the new bytes, from the end backwards; if there is one, everything
up to it is handed out and the rest is moved to the front of the buffer.

All three boundaries are off by one.  The search begins at the byte BEHIND the new ones and ends
before the first of them, and what is moved and counted as the rest, `endpos - pos2` bytes from
`pos2 + 1` on, is one byte more than there is.  So a newline that is found leaves a byte in the
buffer that was never received, one that is the first of the new bytes is overlooked, and one that
happens to be behind them is taken for real.  `lines_iff` says that nothing is left: the decoder is
right exactly as long as no newline arrives and none is behind what arrives.

`len` in the call of `read` is declared nowhere and is read as the `len_` of the buffer.  The memory
of the buffer begins with whatever was there before.
-/
import Kknf.LibEvent.BinTcpSocket

namespace Kknf.LibEvent

open Kknf.Run

/-! ## 1. The function -/

def nonPacketizedBufferSize : Nat := 1048576

def newline : Byte := 10

/-- The memory of `non_packetized_buf_`, its `used_`, and the block in `recv_mb_`. -/
structure LineTcpSocket where
  mem : Nat → Byte
  used : Nat := 0
  recvMb : Option (List Byte) := none

/-- The first `used_` bytes of the buffer. -/
def LineTcpSocket.retained (sk : LineTcpSocket) : List Byte := loadFirst sk.mem sk.used

inductive LineFault
  /-- the socket has been destroyed, or `read` cannot give this result -/
  | disabled
  /-- `recv_mb_` is null -/
  | nullDeref
  /-- `assert(recv_mb_ == 0)` -/
  | assertRecvMb
  deriving DecidableEq

/-- What `read` gives: these bytes, or nothing with this `errno`. -/
inductive LineRead
  | got (data : List Byte)
  | failed (errno : Errno)
  deriving DecidableEq

def LineRead.data : LineRead → List Byte
  | .got data => data
  | .failed _ => []

/-- What a call finds: the result of `read`, the byte that lies behind the buffer, and whether
`GetMemBlock` has a block. -/
structure LineCall where
  read : LineRead
  behind : Byte
  hasBlock : Bool

/-- The byte at an offset, in the buffer or behind it. -/
def byteAt (mem : Nat → Byte) (behind : Byte) (i : Nat) : Byte :=
  if i < nonPacketizedBufferSize then mem i else behind

/-- The search: `pos2` goes down from `pos1 + k` until it is at a newline or at `pos1`. -/
def scanBack (byte : Nat → Byte) (pos1 : Nat) : Nat → Nat
  | 0 => pos1
  | k + 1 => if byte (pos1 + (k + 1)) = newline then pos1 + (k + 1) else scanBack byte pos1 k

/-- `ReadHandler`: the code it returns, and the socket. -/
def LineTcpSocket.readHandler (sk : LineTcpSocket) (c : LineCall) :
    Except LineFault (Int × LineTcpSocket) :=
  match c.read with
  | .failed errno => .ok (noData errno, sk)
  | .got data =>
    if data = [] ∨ sk.used + data.length > nonPacketizedBufferSize then .error .disabled
    else
      let mem := storeAt sk.mem sk.used data
      let byte := byteAt mem c.behind
      let pos1 := sk.used
      let endpos := sk.used + data.length
      let pos2 := scanBack byte pos1 data.length
      if pos2 = pos1 then .ok (0, { sk with mem, used := endpos })
      else if sk.recvMb.isSome then .error .assertRecvMb
      else if !c.hasBlock then .error .nullDeref
      else
        -- `memmove`
        let moved := fun i => if i < endpos - pos2 then byte (pos2 + 1 + i) else mem i
        .ok (1, ⟨moved, endpos - pos2, some (loadFirst byte (pos2 + 1))⟩)

/-! ## 2. Runs -/

/-- A socket, with what has gone in and out so far. -/
structure LineReading where
  sk : LineTcpSocket
  destroyed : Bool := false
  received : List Byte := []
  /-- the blocks `SocketCallback` has taken -/
  emitted : List (List Byte) := []

/-- The read part of `SocketCallback`. -/
def lineStep (s : LineReading) (c : LineCall) : Except LineFault LineReading :=
  if s.destroyed then .error .disabled
  else
    match s.sk.readHandler c with
    | .error f => .error f
    | .ok (ret, sk) =>
      let received := s.received ++ c.read.data
      if ret < 0 then .ok { s with sk, received, destroyed := true }
      else if ret = 1 then
        .ok { s with
          received
          sk := { sk with recvMb := none }
          emitted := s.emitted ++ sk.recvMb.toList }
      else .ok { s with sk, received }

/-- The socket is there, and the bytes that arrive fit into the buffer. -/
def Fits (s : LineReading) (c : LineCall) : Prop :=
  s.destroyed = false ∧ ∀ data, c.read = .got data →
    data ≠ [] ∧ s.sk.used + data.length ≤ nonPacketizedBufferSize

instance (s : LineReading) (c : LineCall) : Decidable (Fits s c) :=
  match h : c.read with
  | .got data =>
    decidable_of_iff (s.destroyed = false ∧ data ≠ [] ∧
      s.sk.used + data.length ≤ nonPacketizedBufferSize) (by simp [Fits, h])
  | .failed _ => decidable_of_iff (s.destroyed = false) (by simp [Fits, h])

/-- What has been received is what has been handed out, in pieces that end in a newline, and the
bytes in the buffer, among which there is none. -/
structure Lines (s : LineReading) : Prop where
  split : s.emitted.flatten ++ s.sk.retained = s.received
  ends : ∀ l ∈ s.emitted, l.getLast? = some newline
  rest : newline ∉ s.sk.retained

/-- No newline arrives, and there is none behind what arrives. -/
def NoNewline (s : LineReading) (c : LineCall) : Prop :=
  ∀ data, c.read = .got data →
    newline ∉ data ∧ byteAt s.sk.mem c.behind (s.sk.used + data.length) ≠ newline

instance (s : LineReading) (c : LineCall) : Decidable (NoNewline s c) :=
  match h : c.read with
  | .got data =>
    decidable_of_iff (newline ∉ data ∧
      byteAt s.sk.mem c.behind (s.sk.used + data.length) ≠ newline) (by simp [NoNewline, h])
  | .failed _ => isTrue (by simp [NoNewline, h])

/-! ## 3. The search -/

/-- The search comes down to `pos1` when there is no newline in its range, which begins one byte
late and ends one byte late. -/
theorem scanBack_eq_start {byte : Nat → Byte} {pos1 : Nat} : ∀ {k : Nat},
    scanBack byte pos1 k = pos1 ↔ ∀ i, 0 < i → i ≤ k → byte (pos1 + i) ≠ newline := by
  intro k
  induction k with
  | zero =>
    simp only [scanBack, true_iff]
    intro i hpos hle
    omega
  | succ k ih =>
    simp only [scanBack]
    split
    · rename_i hfound
      constructor
      · intro heq
        omega
      · intro hnone
        exact absurd hfound (hnone (k + 1) (Nat.succ_pos k) le_rfl)
    · rename_i hnot
      rw [ih]
      constructor
      · intro hnone i hpos hle
        rcases Nat.lt_or_ge i (k + 1) with hlt | hge
        · exact hnone i hpos (Nat.le_of_lt_succ hlt)
        · have hi : i = k + 1 := Nat.le_antisymm hle hge
          rw [hi]
          exact hnot
      · intro hnone i hpos hle
        exact hnone i hpos (Nat.le_succ_of_le hle)

theorem scanBack_le (byte : Nat → Byte) (pos1 : Nat) : ∀ k, scanBack byte pos1 k ≤ pos1 + k := by
  intro k
  induction k with
  | zero => exact le_rfl
  | succ k ih =>
    simp only [scanBack]
    split
    · exact le_rfl
    · exact ih.trans (Nat.le_succ _)

/-! ## 4. One call -/

section

variable {s : LineReading} {c : LineCall} {data : List Byte}

/-- The buffer after a `read`, with all the new bytes counted. -/
def LineTcpSocket.afterRead (sk : LineTcpSocket) (data : List Byte) : LineTcpSocket :=
  { sk with mem := storeAt sk.mem sk.used data, used := sk.used + data.length }

theorem retained_afterRead (sk : LineTcpSocket) (data : List Byte) :
    (sk.afterRead data).retained = sk.retained ++ data :=
  loadFirst_storeAt sk.mem sk.used data

/-- The byte where the search begins is not one of the new ones. -/
theorem byteAt_end (sk : LineTcpSocket) (data : List Byte) (behind : Byte) :
    byteAt (storeAt sk.mem sk.used data) behind (sk.used + data.length)
      = byteAt sk.mem behind (sk.used + data.length) := by
  unfold byteAt
  rw [storeAt_behind]

/-- Without a newline the search finds nothing. -/
theorem scan_nothing (hfits : s.sk.used + data.length ≤ nonPacketizedBufferSize)
    (hrest : newline ∉ s.sk.retained) (hdata : newline ∉ data)
    (hend : byteAt s.sk.mem c.behind (s.sk.used + data.length) ≠ newline) :
    scanBack (byteAt (storeAt s.sk.mem s.sk.used data) c.behind) s.sk.used data.length
      = s.sk.used := by
  refine scanBack_eq_start.mpr fun i hpos hle => ?_
  rcases Nat.lt_or_ge i data.length with hlt | hge
  · -- one of the new bytes
    have hin : s.sk.used + i < nonPacketizedBufferSize := by omega
    have hnone : newline ∉ (s.sk.afterRead data).retained := by
      rw [retained_afterRead, List.mem_append, not_or]
      exact ⟨hrest, hdata⟩
    rw [byteAt, if_pos hin]
    intro hbyte
    exact hnone (mem_loadFirst.mpr ⟨s.sk.used + i, Nat.add_lt_add_left hlt _, hbyte⟩)
  · have hi : i = data.length := Nat.le_antisymm hle hge
    rw [hi, byteAt_end]
    exact hend

/-- A call whose search finds nothing. -/
theorem lineStep_nothing (hread : c.read = .got data) (hfits : Fits s c)
    (hscan : scanBack (byteAt (storeAt s.sk.mem s.sk.used data) c.behind) s.sk.used data.length
      = s.sk.used) :
    lineStep s c = .ok { s with sk := s.sk.afterRead data, received := s.received ++ data } := by
  obtain ⟨halive, hfit⟩ := hfits
  obtain ⟨hne, hle⟩ := hfit data hread
  have hok : ¬ (data = [] ∨ s.sk.used + data.length > nonPacketizedBufferSize) :=
    not_or.mpr ⟨hne, Nat.not_lt.mpr hle⟩
  have hhandler : s.sk.readHandler c = .ok (0, s.sk.afterRead data) := by
    simp only [LineTcpSocket.readHandler, hread, if_neg hok, if_pos hscan]
    rfl
  simp [lineStep, halive, hhandler, hread, LineRead.data]

/-- A call whose search finds something hands out a block, if there is one, and leaves one byte too
many. -/
theorem lineStep_found {t : LineReading} (hread : c.read = .got data) (hfits : Fits s c)
    (hscan : scanBack (byteAt (storeAt s.sk.mem s.sk.used data) c.behind) s.sk.used data.length
      ≠ s.sk.used) (ht : lineStep s c = .ok t) :
    ∃ line, t.emitted = s.emitted ++ [line] ∧ t.received = s.received ++ data ∧
      line.length + t.sk.used = s.sk.used + data.length + 1 := by
  obtain ⟨halive, hfit⟩ := hfits
  obtain ⟨hne, hle⟩ := hfit data hread
  have hok : ¬ (data = [] ∨ s.sk.used + data.length > nonPacketizedBufferSize) :=
    not_or.mpr ⟨hne, Nat.not_lt.mpr hle⟩
  have hpos2 := scanBack_le (byteAt (storeAt s.sk.mem s.sk.used data) c.behind)
    s.sk.used data.length
  simp only [lineStep, halive, Bool.false_eq_true, if_false, LineTcpSocket.readHandler, hread,
    if_neg hok, if_neg hscan] at ht
  split at ht
  · cases ht
  · rename_i ret sk hhandler
    split at hhandler
    · cases hhandler
    · split at hhandler
      · cases hhandler
      · cases hhandler
        simp only [Int.reduceLT, if_false, if_true, LineRead.data] at ht
        cases ht
        refine ⟨_, rfl, rfl, ?_⟩
        rw [length_loadFirst]
        dsimp only
        omega

/-- A `read` that fails changes nothing but that the socket may go. -/
theorem lineStep_failed {errno : Errno} (hread : c.read = .failed errno) (hfits : Fits s c) :
    ∃ destroyed, lineStep s c = .ok { s with destroyed } := by
  have hhandler : s.sk.readHandler c = .ok (noData errno, s.sk) := by
    simp only [LineTcpSocket.readHandler, hread]
  have hone : noData errno ≠ 1 := by
    unfold noData
    split <;> decide
  simp only [lineStep, hfits.1, Bool.false_eq_true, if_false, hhandler, if_neg hone, hread,
    LineRead.data, List.append_nil]
  split
  · exact ⟨true, rfl⟩
  · exact ⟨s.destroyed, by rw [hfits.1]⟩

/-! ## 5. Runs -/

/-- **A call without a newline** keeps the bytes. -/
theorem lines_step (h : Lines s) (hfits : Fits s c) (hnone : NoNewline s c) :
    ∃ t, lineStep s c = .ok t ∧ Lines t := by
  rcases hread : c.read with data | errno
  · obtain ⟨hdata, hend⟩ := hnone data hread
    have hscan := scan_nothing (hfits.2 data hread).2 h.rest hdata hend
    refine ⟨_, lineStep_nothing hread hfits hscan, ?_, h.ends, ?_⟩
    · rw [retained_afterRead, ← List.append_assoc, h.split]
    · rw [retained_afterRead, List.mem_append, not_or]
      exact ⟨h.rest, hdata⟩
  · obtain ⟨destroyed, hstep⟩ := lineStep_failed hread hfits
    exact ⟨_, hstep, h.split, h.ends, h.rest⟩

/-- **A call with one** does not: it leaves a byte too many, or the newline in the buffer. -/
theorem not_lines_step {t : LineReading} (h : Lines s) (hfits : Fits s c) (hnone : ¬ NoNewline s c)
    (ht : lineStep s c = .ok t) : ¬ Lines t := by
  intro ht'
  simp only [NoNewline, not_forall] at hnone
  obtain ⟨data, hread, hsome⟩ := hnone
  by_cases hscan :
    scanBack (byteAt (storeAt s.sk.mem s.sk.used data) c.behind) s.sk.used data.length
      = s.sk.used
  · -- the byte at the end is no newline, so there is one among the new ones
    have hend := scanBack_eq_start.mp hscan data.length
      (List.length_pos_iff.mpr (hfits.2 data hread).1) le_rfl
    rw [byteAt_end] at hend
    have hdata : newline ∈ data := by
      by_contra hdata
      exact hsome ⟨hdata, hend⟩
    rw [lineStep_nothing hread hfits hscan] at ht
    cases ht
    refine ht'.rest ?_
    rw [retained_afterRead]
    exact List.mem_append_right _ hdata
  · -- the lengths do not add up
    obtain ⟨line, hemitted, hreceived, hlen⟩ := lineStep_found hread hfits hscan ht
    have hbefore := congrArg List.length h.split
    have hafter := congrArg List.length ht'.split
    rw [hemitted, hreceived, List.flatten_append, List.flatten_singleton] at hafter
    simp only [List.length_append, LineTcpSocket.retained, length_loadFirst] at hbefore hafter
    omega

end

/-- **The decoder is right exactly as long as there is nothing to decode**: no newline arrives, and
none is behind what arrives. -/
theorem lines_iff (mem : Nat → Byte) (cs : List LineCall)
    (hcs : Along lineStep Fits { sk := { mem } } cs) :
    ((∃ t, exec lineStep { sk := { mem } } cs = .ok t) ∧
      ∀ s, Visits lineStep { sk := { mem } } cs s → Lines s) ↔
    Along lineStep NoNewline { sk := { mem } } cs := by
  have hkeep : ∀ s c, Fits s c → Lines s → NoNewline s c → ∃ t, lineStep s c = .ok t ∧ Lines t :=
    fun _ _ hfits h hnone => lines_step h hfits hnone
  have hbreak : ∀ s c t, Fits s c → Lines s → ¬ NoNewline s c → lineStep s c = .ok t → ¬ Lines t :=
    fun _ _ _ hfits h hnone ht => not_lines_step h hfits hnone ht
  have hstart : Lines { sk := { mem } } :=
    ⟨rfl, by simp, by simp [LineTcpSocket.retained, loadFirst]⟩
  exact runs_iff_along hkeep (fun _ h => h) hbreak hcs hstart

/-- Two reads without a newline, into a buffer of zeros. -/
def hello : List LineCall := [⟨.got [72, 105], 0, true⟩, ⟨.got [33], 0, true⟩]

theorem hello_retained :
    ∃ s, exec lineStep { sk := { mem := fun _ => 0 } } hello = .ok s ∧ Lines s ∧
    s.sk.retained = [72, 105, 33] := by
  have hends : (exec lineStep { sk := { mem := fun _ => 0 } } hello).map (fun s => s.sk.retained)
      = .ok [72, 105, 33] := by
    decide +kernel
  obtain ⟨s, hs, hend⟩ := map_eq_ok.mp hends
  have hall := (lines_iff (fun _ => 0) hello (by decide +kernel)).mpr (by decide +kernel)
  exact ⟨s, hs, hall.2 s ⟨_, List.prefix_rfl, hs⟩, hend⟩

/-- A line and the beginning of another: a byte that was never received stays in the buffer. -/
theorem line_leaves_extra_byte : ∃ s,
    exec lineStep { sk := { mem := fun _ => 0 } } [⟨.got [65, 10, 66], 0, true⟩] = .ok s ∧
      s.emitted = [[65, 10]] ∧ s.sk.retained = [66, 0] ∧ ¬ Lines s := by
  have hends : (exec lineStep { sk := { mem := fun _ => 0 } } [⟨.got [65, 10, 66], 0, true⟩]).map
      (fun s => (s.emitted, s.sk.retained, s.received))
        = .ok ([[65, 10]], [66, 0], [65, 10, 66]) := by
    decide +kernel
  obtain ⟨s, hs, hend⟩ := map_eq_ok.mp hends
  simp only [Prod.mk.injEq] at hend
  obtain ⟨hemitted, hretained, hreceived⟩ := hend
  refine ⟨s, hs, hemitted, hretained, fun h => ?_⟩
  have hsplit := h.split
  rw [hemitted, hretained, hreceived] at hsplit
  exact absurd hsplit (by decide)

end Kknf.LibEvent
