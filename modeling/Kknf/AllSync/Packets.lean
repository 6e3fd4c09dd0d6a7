/-
# The packets of the `all-sync` test programs

The processors of `test_bf.cc`, `test_bb1.cc`, `test_bb2.cc` and `test_multi_pool_server.cc`
exchange packed structs of `int`s in network order, each behind four bytes of length.  A received
buffer is cast to the struct that is expected; nothing compares its size with `sizeof`, so that a
packet shorter than the struct is read beyond its end (`none`).

`TCPRecv` and `TCPSend` decide by themselves how much of a connection they consume and produce.
What each leaves behind is settled here once, for every schedule of results: a `TCPRecv` that does
not fail has taken exactly one frame off the connection (`tcpRecv_takes_frame`), and a `TCPSend` has
put its whole buffer on it, or has failed with less than that (`tcpSend_cases`).
-/
import Kknf.AllSync.Transient
import Kknf.Lib.Words

namespace Kknf.AllSync

open Kknf.Words

/-! ## 1. The structs -/

/-- A struct of `l_`, `seq_` and one number. -/
structure Numbered where
  l : Word
  seq : Word
  num : Word
  deriving DecidableEq, Repr

/-- The number is `a2_`. -/
abbrev RspBB1 := Numbered

/-- The number is `b_`. -/
abbrev ReqBB2 := Numbered

/-- The number is `b2_`. -/
abbrev RspBB2 := Numbered

/-- The number is `sum_`. -/
abbrev RspBF := Numbered

/-- The number is `num_`. -/
abbrev ReqFormat1 := Numbered

/-- The number is `num2_`. -/
abbrev RspFormat := Numbered

structure ReqBF where
  l : Word
  seq : Word
  a : Word
  b : Word
  deriving DecidableEq, Repr

/-- `sizeof(ReqBB1)`, and of every other struct of three `int`s. -/
def Numbered.size : Nat := 12

/-- `sizeof(ReqBF)` -/
def ReqBF.size : Nat := 16

/-- The bytes of the struct after `htonl` on every field. -/
def Numbered.bytes (o : ByteOrder) (x : Numbered) : List Byte :=
  structBytes o ([x.l, x.seq, x.num].map (htonl o))

/-- The cast of a received buffer, with `ntohl` on every field; `none` when a field lies outside the
buffer. -/
def Numbered.read (o : ByteOrder) (buf : List Byte) : Option Numbered :=
  if buf.length < Numbered.size then none
  else some ⟨ntohl o (field o 0 buf), ntohl o (field o 1 buf), ntohl o (field o 2 buf)⟩

def ReqBF.bytes (o : ByteOrder) (x : ReqBF) : List Byte :=
  structBytes o ([x.l, x.seq, x.a, x.b].map (htonl o))

def ReqBF.read (o : ByteOrder) (buf : List Byte) : Option ReqBF :=
  if buf.length < ReqBF.size then none
  else some ⟨ntohl o (field o 0 buf), ntohl o (field o 1 buf), ntohl o (field o 2 buf),
    ntohl o (field o 3 buf)⟩

@[simp] theorem Numbered.length_bytes (o : ByteOrder) (x : Numbered) :
    (x.bytes o).length = Numbered.size := by
  simp [Numbered.bytes, Numbered.size]

@[simp] theorem ReqBF.length_bytes (o : ByteOrder) (x : ReqBF) :
    (x.bytes o).length = ReqBF.size := by
  simp [ReqBF.bytes, ReqBF.size]

/-- **A struct is read as it was sent**, between any two hosts and whatever follows it. -/
theorem Numbered.read_bytes (snd rcv : ByteOrder) (x : Numbered) (t : List Byte) :
    Numbered.read rcv (x.bytes snd ++ t) = some x := by
  have hlen : ¬ (x.bytes snd ++ t).length < Numbered.size := by simp
  have hfield : ∀ {i : Nat} {y : Word}, [x.l, x.seq, x.num][i]? = some y →
      ntohl rcv (field rcv i (x.bytes snd ++ t)) = y := ntohl_field_htonl snd rcv t
  rw [Numbered.read, if_neg hlen, hfield (y := x.l) rfl, hfield (y := x.seq) rfl,
    hfield (y := x.num) rfl]

theorem ReqBF.read_bytes (snd rcv : ByteOrder) (x : ReqBF) (t : List Byte) :
    ReqBF.read rcv (x.bytes snd ++ t) = some x := by
  have hlen : ¬ (x.bytes snd ++ t).length < ReqBF.size := by simp
  have hfield : ∀ {i : Nat} {y : Word}, [x.l, x.seq, x.a, x.b][i]? = some y →
      ntohl rcv (field rcv i (x.bytes snd ++ t)) = y := ntohl_field_htonl snd rcv t
  rw [ReqBF.read, if_neg hlen, hfield (y := x.l) rfl, hfield (y := x.seq) rfl,
    hfield (y := x.a) rfl, hfield (y := x.b) rfl]

/-! ## 2. What `TCPSend` leaves on the connection -/

/-- The loop ends with everything sent, or with `-2` and less than that. -/
theorem tcpSendLoop_cases {buf : List Byte} {r : Int} {t : SendEnd} :
    ∀ {sends : List SendResult} {cur sizeLeft : Nat} {wire : List Byte},
      sizeLeft = (buf.drop cur).length →
      tcpSendLoop buf sends cur sizeLeft wire = some (r, t) →
        (r = 0 ∧ t.wire = wire ++ buf.drop cur) ∨
          (r = -2 ∧ ∃ pre, pre <+: buf.drop cur ∧ pre ≠ buf.drop cur ∧ t.wire = wire ++ pre) := by
  intro sends
  induction sends with
  | nil =>
    intro cur sizeLeft wire hleft h
    unfold tcpSendLoop at h
    split at h
    · rename_i hzero
      cases h
      have hnil : buf.drop cur = [] := List.length_eq_zero_iff.mp (hleft ▸ hzero)
      exact Or.inl ⟨rfl, by rw [hnil, List.append_nil]⟩
    · cases h
  | cons res sends ih =>
    intro cur sizeLeft wire hleft h
    unfold tcpSendLoop at h
    split at h
    · rename_i hzero
      cases h
      have hnil : buf.drop cur = [] := List.length_eq_zero_iff.mp (hleft ▸ hzero)
      exact Or.inl ⟨rfl, by rw [hnil, List.append_nil]⟩
    · rename_i hne
      cases res with
      | error errno =>
        dsimp only at h
        split at h
        · cases h
          refine Or.inr ⟨rfl, [], List.nil_prefix, ?_, (List.append_nil wire).symm⟩
          intro hnil
          exact hne (by rw [hleft, ← hnil, List.length_nil])
        · exact ih hleft h
      | sent room =>
        dsimp only at h
        obtain ⟨ret, hret⟩ : ∃ ret, ret = min room sizeLeft := ⟨_, rfl⟩
        rw [← hret] at h
        have hleft' : sizeLeft - ret = (buf.drop (cur + ret)).length := by
          rw [← List.drop_drop, List.length_drop, ← hleft]
        have hsplit : (buf.drop cur).take ret ++ buf.drop (cur + ret) = buf.drop cur := by
          rw [← List.drop_drop, List.take_append_drop]
        rcases ih hleft' h with ⟨hr, ht⟩ | ⟨hr, pre, hpre, hne', ht⟩
        · exact Or.inl ⟨hr, by rw [ht, List.append_assoc, hsplit]⟩
        · refine Or.inr ⟨hr, (buf.drop cur).take ret ++ pre, ?_, ?_, ?_⟩
          · have hpre' := (List.prefix_append_right_inj ((buf.drop cur).take ret)).mpr hpre
            rwa [hsplit] at hpre'
          · intro heq
            exact hne' (List.append_cancel_left (heq.trans hsplit.symm))
          · rw [ht, List.append_assoc]

/-- **`TCPSend` transmits its whole buffer, or it fails with less.** -/
theorem tcpSend_cases {buf : List Byte} {s t : SendEnd} {r : Int}
    (h : tcpSend (some buf) s = some (r, t)) :
    (r = 0 ∧ t.wire = s.wire ++ buf) ∨
      (r = -2 ∧ ∃ pre, pre <+: buf ∧ pre ≠ buf ∧ t.wire = s.wire ++ pre) := by
  have hleft : buf.length = (buf.drop 0).length := rfl
  simpa using tcpSendLoop_cases hleft h

/-! ## 3. What `TCPRecv` takes off the connection -/

/-- A loop that is not left through an error has filled the buffer with the next bytes. -/
theorem recvLoop_cases {fail : Int} {size : Nat} {e : RecvLoopEnd} :
    ∀ {recvs : List RecvResult} {filled room stream : List Byte},
      filled.length + room.length = size →
      recvLoop fail size recvs (filled ++ room) filled.length stream = some e →
        e.ret = some fail ∨ (e.ret = none ∧ ∃ data, e.buf = filled ++ data ∧
          data.length = room.length ∧ stream = data ++ e.conn.stream) := by
  intro recvs
  induction recvs with
  | nil =>
    intro filled room stream hsize h
    unfold recvLoop at h
    split at h
    · rename_i hle
      cases h
      have hroom : room = [] := List.length_eq_zero_iff.mp (by omega)
      exact Or.inr ⟨rfl, [], by rw [hroom], by rw [hroom], rfl⟩
    · cases h
  | cons res recvs ih =>
    intro filled room stream hsize h
    by_cases hle : size ≤ filled.length
    · rw [recvLoop_ended _ hle] at h
      cases h
      have hroom : room = [] := List.length_eq_zero_iff.mp (by omega)
      exact Or.inr ⟨rfl, [], by rw [hroom], by rw [hroom], rfl⟩
    cases res with
    | error errno =>
      rw [recvLoop_error _ _ hle] at h
      cases h
      exact Or.inl rfl
    | closed =>
      rw [recvLoop_closed _ hle] at h
      cases h
      exact Or.inl rfl
    | got arrived =>
      rw [recvLoop_step _ _ hle] at h
      split at h
      · cases h
      · rename_i hne
        obtain ⟨got, hgot⟩ : ∃ got, got = stream.take (min arrived (size - filled.length)) :=
          ⟨_, rfl⟩
        rw [← hgot] at h
        have hlen : got.length ≤ room.length := by
          rw [hgot, List.length_take]
          omega
        have hstream : stream = got ++ stream.drop got.length := by
          have htake : stream.take got.length = got := by
            rw [hgot, List.length_take, List.take_eq_take_iff]
            omega
          conv_lhs => rw [← List.take_append_drop got.length stream, htake]
        have hbuf : overwrite (filled ++ room) filled.length got =
            (filled ++ got) ++ room.drop got.length := by
          rw [overwrite_append]
        have hidx : filled.length + got.length = (filled ++ got).length := List.length_append.symm
        rw [hbuf, hidx] at h
        have hsize' : (filled ++ got).length + (room.drop got.length).length = size := by
          rw [List.length_append, List.length_drop]
          omega
        rcases ih hsize' h with hfail | ⟨hret, data, hdata, hlen', hstream'⟩
        · exact Or.inl hfail
        · refine Or.inr ⟨hret, got ++ data, by rw [hdata, List.append_assoc], ?_, ?_⟩
          · rw [List.length_append, hlen', List.length_drop]
            omega
          · rw [hstream, hstream', List.append_assoc]

/-- The same from an empty buffer on. -/
theorem recvLoop_whole {fail : Int} {size : Nat} {recvs : List RecvResult} {room stream : List Byte}
    {e : RecvLoopEnd} (hsize : room.length = size)
    (h : recvLoop fail size recvs room 0 stream = some e) :
    e.ret = some fail ∨
      (e.ret = none ∧ e.buf.length = size ∧ stream = e.buf ++ e.conn.stream) := by
  have hsize' : ([] : List Byte).length + room.length = size := by simpa using hsize
  rcases recvLoop_cases hsize' h with hfail | ⟨hnone, data, hbuf, hlen, hstream⟩
  · exact Or.inl hfail
  · rw [List.nil_append] at hbuf
    subst hbuf
    exact Or.inr ⟨hnone, hlen.trans hsize, hstream⟩

/-- The header of a frame is what the sender makes of the length. -/
theorem lvFrame_eq {o : ByteOrder} {hdr buf : List Byte} (hhdr : hdr.length = 4)
    (hpos : 0 < int32 (networkToHostLong o (load32 o hdr)))
    (hlen : buf.length = (int32 (networkToHostLong o (load32 o hdr))).toNat) :
    lvFrame o buf = hdr ++ buf := by
  have htake : hdr.take 4 = hdr := List.take_of_length_le hhdr.le
  have hbe : networkToHostLong o (load32 o hdr) = ofBytesBE hdr := by
    rw [networkToHostLong_load32 o hhdr.ge, htake]
  have hlt : ofBytesBE hdr < 2 ^ 32 := by
    have h256 := ofBytesLE_lt hdr.reverse
    rw [List.length_reverse, hhdr] at h256
    simpa [ofBytesBE] using h256
  rw [hbe] at hpos hlen
  -- a positive `int` is the number itself
  have hnum : buf.length = ofBytesBE hdr := by
    rw [hlen]
    unfold int32 at hpos ⊢
    rw [Int.bmod_def] at hpos ⊢
    split at hpos <;> omega
  rw [lvFrame, store32_networkToHostLong, hnum, toBytesBE_ofBytesBE hhdr]

/-- **A `TCPRecv` that does not fail takes one frame off the connection**, and the packet in it has
a length that the function allows. -/
theorem tcpRecv_takes_frame {o : ByteOrder} {bufToFill buf : List Byte} {s t : RecvEnd} {r : Int}
    (h : tcpRecv o bufToFill s = some (r, buf, t)) (hr : ¬ r < 0) :
    s.stream = lvFrame o buf ++ t.stream ∧ 0 < buf.length ∧ (buf.length : Int) ≤ maxTcpPktSize := by
  have hfour : ([0, 0, 0, 0] : List Byte).length = 4 := rfl
  unfold tcpRecv at h
  split at h
  · cases h
  · rename_i ret lenField s' hloop
    cases h
    -- the first loop fails with -1 only
    rcases recvLoop_whole hfour hloop with hfail | ⟨hnone, -⟩
    · cases hfail
      exact absurd (by decide) hr
    · cases hnone
  · rename_i lenField s' hloop
    dsimp only at h
    rcases recvLoop_whole hfour hloop with hfail | ⟨-, hhdr, hstream⟩
    · cases hfail
    dsimp only at hhdr hstream
    split at h
    · cases h
      exact absurd (by decide) hr
    · rename_i hok
      rw [not_or, not_le, not_lt] at hok
      obtain ⟨len, hlen⟩ : ∃ len, len = (int32 (networkToHostLong o (load32 o lenField))).toNat :=
        ⟨_, rfl⟩
      have hroom : (resize 0 bufToFill len).length = len := by
        simp [resize]
        omega
      rw [← hlen] at h
      split at h
      · cases h
      · rename_i hloop'
        cases h
        rcases recvLoop_whole hroom hloop' with hfail | ⟨hnone, -⟩
        · cases hfail
          exact absurd (by decide) hr
        · cases hnone
      · rename_i hloop'
        cases h
        rcases recvLoop_whole hroom hloop' with hfail | ⟨-, hbuf, hstream'⟩
        · cases hfail
        dsimp only at hbuf hstream'
        refine ⟨?_, by omega, by omega⟩
        rw [lvFrame_eq hhdr hok.1 (hbuf.trans hlen), hstream, hstream', List.append_assoc]

/-! ## 4. Frames on the wire -/

/-- A frame is the same on every host. -/
theorem lvFrame_host (o o' : ByteOrder) (p : List Byte) : lvFrame o p = lvFrame o' p := by
  simp only [lvFrame, store32_networkToHostLong]

theorem lvStream_host (o o' : ByteOrder) (ps : List (List Byte)) :
    lvStream o ps = lvStream o' ps := by
  have hframe : lvFrame o = lvFrame o' := funext (lvFrame_host o o')
  rw [lvStream, hframe, lvStream]

theorem lvStream_append (o : ByteOrder) (xs ys : List (List Byte)) :
    lvStream o (xs ++ ys) = lvStream o xs ++ lvStream o ys := by
  simp [lvStream]

theorem lvStream_singleton (o : ByteOrder) (x : List Byte) : lvStream o [x] = lvFrame o x := by
  simp [lvStream]

theorem lvStream_cons (o : ByteOrder) (x : List Byte) (xs : List (List Byte)) :
    lvStream o (x :: xs) = lvFrame o x ++ lvStream o xs := by
  simp [lvStream]

/-- Where one frame ends is in the frame. -/
theorem lvFrame_cancel {o : ByteOrder} {p q t u : List Byte} (hp : p.length < 2 ^ 32)
    (hq : q.length < 2 ^ 32) (h : lvFrame o p ++ t = lvFrame o q ++ u) : p = q ∧ t = u := by
  simp only [lvFrame, store32_networkToHostLong, List.append_assoc] at h
  have hheader := List.append_inj h (by simp only [length_toBytesBE])
  have hlen : p.length = q.length := by
    have hdecode := congrArg ofBytesBE hheader.1
    rwa [ofBytesBE_toBytesBE (by simpa using hp),
      ofBytesBE_toBytesBE (by simpa using hq)] at hdecode
  exact List.append_inj hheader.2 hlen

/-- A frame has at least its header. -/
theorem lvFrame_append_ne_nil (o : ByteOrder) (p t : List Byte) : lvFrame o p ++ t ≠ [] := by
  intro hnil
  have hlen := congrArg List.length hnil
  simp only [lvFrame, store32_networkToHostLong, List.length_append, length_toBytesBE,
    List.length_nil] at hlen
  omega

/-- **The packets of a stream are determined**: what has been taken off a stream of frames is a
beginning of what was put on it, and all of it when nothing is left. -/
theorem lvStream_prefix {o : ByteOrder} {ps : List (List Byte)} :
    ∀ {qs : List (List Byte)} {t : List Byte}, (∀ p ∈ ps, p.length < 2 ^ 32) →
      (∀ q ∈ qs, q.length < 2 ^ 32) → lvStream o ps = lvStream o qs ++ t →
        qs <+: ps ∧ (t = [] → qs = ps) := by
  induction ps with
  | nil =>
    intro qs t _ _ h
    cases qs with
    | nil => exact ⟨List.prefix_rfl, fun _ => rfl⟩
    | cons q qs =>
      rw [lvStream_cons, List.append_assoc] at h
      exact absurd h.symm (lvFrame_append_ne_nil o q _)
  | cons p ps ih =>
    intro qs t hps hqs h
    cases qs with
    | nil =>
      refine ⟨List.nil_prefix, fun ht => ?_⟩
      rw [ht, lvStream_cons] at h
      exact absurd h (lvFrame_append_ne_nil o p _)
    | cons q qs =>
      rw [lvStream_cons, lvStream_cons, List.append_assoc] at h
      obtain ⟨rfl, hrest⟩ := lvFrame_cancel (hps p List.mem_cons_self) (hqs q List.mem_cons_self) h
      obtain ⟨hbegins, hall⟩ := ih (fun x hx => hps x (List.mem_cons_of_mem p hx))
        (fun x hx => hqs x (List.mem_cons_of_mem p hx)) hrest
      exact ⟨(List.prefix_cons_inj p).mpr hbegins, fun ht => by rw [hall ht]⟩

end Kknf.AllSync
