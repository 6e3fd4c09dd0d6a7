/-
# LV framing

An LV frame starts with its own length, four bytes in network order.  The skeleton reads it in two
steps: `ToReadLThenReadV` reads the four bytes, `HandleReadLThenReadV` makes room for the whole
frame, writes the length back and reads the rest behind it, and `HandleReadVThenProcess` passes the
buffer on.  The chain is started again by the user's code (which returns 3) or by the write of an
answer.

`frames_delivered` follows one socket through any run of the skeleton: whatever the other sockets
do, and whatever was in its buffer before, the buffers passed to the user's code are the frames of
the stream, in order and whole.  The invariant (`Framing`) has three cases: no read is outstanding,
the length is being read, or the rest of frame `k` is.
-/
import Kknf.Asio2.Kinds
import Kknf.Asio2.Listening
import Kknf.Asio2.Tape

namespace Kknf.Asio2

open Kknf.Run

/-! ## 1. Operations fit the type of their socket -/

/-- The type of socket an operation is for, where it is for one. -/
def Op.type? : Op → Option SocketType
  | .writeThenReadL _ | .readLThenReadV _ | .readVThenProcess _ _ => some .lv
  | .writeThenReadHTTPHead _ | .readHTTPHead _ _ _ | .readHTTPContent _ _ _ => some .http
  | _ => none

/-- What goes on on the socket is for its type. -/
structure View.Typed (v : View) : Prop where
  ops : ∀ op ∈ v.ops, ∀ type, op.type? = some type → v.conn.type = type
  running : ∀ r, v.running = some r → v.conn.type = r.type

section

variable {v : View}

theorem View.Quiet.typed (h : v.Quiet) : v.Typed where
  ops := fun op hop => by simp [h.ops] at hop
  running := fun r hr => by simp [h.running] at hr

theorem View.Typed.popOp (h : v.Typed) (op : Op) : (v.popOp op).Typed where
  ops := fun o ho => h.ops o (List.mem_of_mem_erase ho)
  running := h.running

theorem View.Typed.addOps (h : v.Typed) {ops : List Op}
    (hops : ∀ op ∈ ops, ∀ type, op.type? = some type → v.conn.type = type) :
    (v.addOps ops).Typed where
  ops := fun o ho => by
    rcases List.mem_append.mp ho with ho | ho
    · exact h.ops o ho
    · exact hops o ho
  running := h.running

/-- Changes that leave the type, the operations and the handler alone. -/
theorem View.Typed.congr (h : v.Typed) {w : View} (htype : w.conn.type = v.conn.type)
    (hops : w.ops = v.ops) (hrun : w.running = v.running) : w.Typed where
  ops := by
    rw [hops, htype]
    exact h.ops
  running := by
    rw [hrun, htype]
    exact h.running

theorem View.Typed.resumed (h : v.Typed) : v.resumed.Typed where
  ops := h.ops
  running := fun r hr => by cases hr

/-- The handler that waits for the user's code on an LV socket is `HandleReadVThenProcess`. -/
theorem View.Typed.lv_of_running (h : v.Typed) (hlv : v.conn.type = .lv) {r : Running}
    (hr : v.running = some r) : r.http = false := by
  have htype := h.running r hr
  cases hhttp : r.http with
  | false => rfl
  | true => simp [hlv, Running.type, hhttp] at htype

/-- A socket that something goes on on has been created. -/
theorem Kind.created_of_busy (hk : Kind v) (h : v.ops ≠ [] ∨ v.running ≠ none) : v.created := by
  cases hk with
  | fresh hf => exact absurd h (by simp [hf.quiet.ops, hf.quiet.running])
  | waiting hw => exact hw.created
  | client hc => exact hc.created
  | server hv => exact hv.created
  | synced hy => exact hy.created

theorem writeOp_type {type : SocketType} {i : SockId} {op : Op} (h : writeOp type i = some op) :
    op.type? = some type := by
  cases type <;> cases h <;> rfl

theorem ReadOp.type {i : SockId} {type : SocketType} {op : Op} (h : ReadOp i type op) :
    op.type? = some type := by
  cases h <;> rfl

theorem Next.type {op : Op} {ops : List Op} (h : Next op ops) {op' : Op} (hop : op' ∈ ops)
    {type : SocketType} (htype : op'.type? = some type) : op.type? = some type := by
  cases h <;> simp at hop <;> rcases hop with rfl | rfl <;> first | exact htype | cases htype

theorem Calls.type {op : Op} {r : Running} (h : Calls op r) : op.type? = some r.type := by
  cases h <;> rfl

end

section

variable {s : Skeleton} {e : Event} {j : SockId} {v : View}

theorem View.Typed.sees (hk : Kind (view s j)) (h : (view s j).Typed) (hs : Sees s e j v) :
    v.Typed := by
  have hafter : ∀ {w : View} (r : Running), w.Typed → (w.addOps r.after).Typed := by
    intro w r hw
    refine hw.addOps fun op hop type htype => ?_
    unfold Running.after at hop
    split at hop
    · cases List.mem_singleton.mp hop
      cases htype
    · cases hop
  have hwrite : ∀ {w : View} {type : SocketType} {op : Op}, w.Typed → w.conn.type = type →
      writeOp type j = some op → (w.addOps [op]).Typed := by
    intro w type op hw htype hop
    refine hw.addOps fun o ho ty hty => ?_
    cases List.mem_singleton.mp ho
    cases (writeOp_type hop).symm.trans hty
    exact htype
  have hread : ∀ {w : View} {type : SocketType} {op : Op}, w.Typed → w.conn.type = type →
      ReadOp j type op → (w.addOps [op]).Typed := by
    intro w type op hw htype hop
    refine hw.addOps fun o ho ty hty => ?_
    cases List.mem_singleton.mp ho
    cases hop.type.symm.trans hty
    exact htype
  cases hs with
  | same => exact h
  | evicted hij hc href => exact h.congr rfl rfl rfl
  | syncEvicted hev => exact h.congr rfl rfl rfl
  | swept hev hserved => exact h.congr rfl rfl rfl
  | @connecting q remote type cb buf hev hq hj =>
    have hfresh := hk.fresh_of_next hj
    have hquiet : ((((view s j).createdAs ⟨type, remote, false, false, true, false, cb⟩).addIssue
      cb).addPooled remote).Quiet := ⟨hfresh.quiet.ops, hfresh.quiet.running⟩
    refine hquiet.typed.addOps fun op hop ty hty => ?_
    cases List.mem_singleton.mp hop
    cases hty
  | reusing hev hi hop => exact hwrite (h.congr rfl rfl rfl) rfl hop
  | reusingFor hev hi hop => exact hwrite (h.congr rfl rfl rfl) rfl hop
  | answering hev hi hidle hop => exact hwrite (h.congr rfl rfl rfl) rfl hop
  | closing hev hi =>
    refine h.addOps fun op hop ty hty => ?_
    cases List.mem_singleton.mp hop
    cases hty
  | synced hev hj hok =>
    have hfresh := hk.fresh_of_next hj
    exact View.Quiet.typed ⟨hfresh.quiet.ops, hfresh.quiet.running⟩
  | syncedDestroyed hev hj hok =>
    have hfresh := hk.fresh_of_next hj
    exact View.Quiet.typed ⟨hfresh.quiet.ops, hfresh.quiet.running⟩
  | destroyed href => exact h.congr rfl rfl rfl
  | accepting hj htype =>
    have hfresh := hk.fresh_of_next hj
    exact View.Quiet.typed ⟨hfresh.quiet.ops, hfresh.quiet.running⟩
  | @accepted key rem a r op hev ha hj hrem hfree hop hloc =>
    have hwait := hk.waiting_of_accepting ha hj
    have hquiet : (((view s j).withConn { (view s j).conn with
      isConnected := true, inUse := true, type := a.type, closed := false,
      remoteEndpoint := rem }).setAccepting key false |>.addServed rem).Quiet :=
      ⟨hwait.quiet.ops, hwait.quiet.running⟩
    exact hread hquiet.typed rfl hop
  | acceptDropped hev ha hj =>
    have hwait := hk.waiting_of_accepting ha hj
    exact View.Quiet.typed ⟨hwait.quiet.ops, hwait.quiet.running⟩
  | @returnedDestroyed r ret buf hev hr hj hret => exact hafter r (h.resumed.congr rfl rfl rfl)
  | @returnedKept r ret buf hev hr hj hret hc => exact hafter r h.resumed
  | @returnedIdle r ret buf hev hr hj hret hc => exact hafter r (h.resumed.congr rfl rfl rfl)
  | @returnedRead r ret buf op hev hr hj hret hc hop =>
    exact hafter r (hread h.resumed (h.running r (running_of_eq hr hj)) hop)
  | @completedDestroyed op r hev hp hr => exact (h.popOp op).congr rfl rfl rfl
  | @completedNext op r ops hev hp hr hn =>
    exact (h.popOp op).addOps fun o ho type htype => h.ops op hp type (hn.type ho htype)
  | @completedCalled op r run hev hp hr hc =>
    refine ⟨(h.popOp op).ops, fun r' hr' => ?_⟩
    cases hr'
    exact h.ops op hp run.type hc.type
  | @connected r buf ep op hev hp hr herr hloc huse hop =>
    exact hwrite ((h.popOp (.connectThenWrite j buf)).congr rfl rfl rfl) rfl hop

end

/-- **In every run, what goes on on a socket is for its type.** -/
theorem exec_typed {cfg : Config} {es : List Event} {s : Skeleton}
    (h : exec (step cfg) init es = .ok s) (j : SockId) : (view s j).Typed := by
  have hinv : Kinds s ∧ ∀ j, (view s j).Typed :=
    Along.invariant (G := fun _ _ => True) (P := fun t => Kinds t ∧ ∀ j, (view t j).Typed)
      (fun _ _ _ ht _ hu => ⟨step_kinds ht.1 hu, fun j =>
        View.Typed.sees (ht.1 j) (ht.2 j) (step_sees ht.1.acceptorsCreated hu j)⟩)
      ⟨init_kinds, fun j => (init_fresh j).quiet.typed⟩ (along_of_forall fun _ _ _ => trivial) h
  exact hinv.2 j

/-! ## 2. A step, seen from the tape of an LV socket -/

/-- The bytes that an event puts into the buffer of socket `i` as part of a frame. -/
def Event.frameBytes (i : SockId) : Event → List Byte
  | .complete op r => if op.sock? == some i && op.readsFrame then r.data else []
  | _ => []

/-- The event is not the completion of a read of a frame of socket `i`. -/
def Event.NoFrameRead (i : SockId) : Event → Prop
  | .complete op _ => op.sock? = some i → op.readsFrame = false
  | _ => True

/-- What a step that completes no read of a frame of socket `i` can do to its tape. -/
inductive Rolls (i : SockId) (τ : Tape) : Tape → Prop
  | still : Rolls i τ τ
  /-- the socket is created -/
  | blank (b : List Byte) (h : τ.reads = []) : Rolls i τ { τ with recvBuf := b }
  /-- the user's code returns -/
  | resumed (b : List Byte) (h : τ.busy = true) : Rolls i τ { τ with recvBuf := b, busy := false }
  /-- the read of a frame is started -/
  | armed : Rolls i τ { τ.armed i with busy := false }

section

variable {cfg : Config} {s t : Skeleton} {e : Event} {i : SockId}

theorem busy_of_running_none (h : s.running = none) (i : SockId) : (tape s i).busy = false := by
  simp [tape, h]

/-- A read of a frame is started while no handler waits. -/
theorem Rolls.armed_of_none (hr : s.running = none)
    (h : tape t i = (tape s i).armed i) : Rolls i (tape s i) (tape t i) := by
  have hbusy : ((tape s i).armed i).busy = false := busy_of_running_none hr i
  have harmed : tape t i = { (tape s i).armed i with busy := false } := by rw [h, ← hbusy]
  rw [harmed]
  exact .armed

theorem Rolls.of_eq (h : tape t i = tape s i) : Rolls i (tape s i) (tape t i) := by
  rw [h]
  exact .still

theorem KeepsTape.rolls (hk : Kinds s) (h : KeepsTape s t i) : Rolls i (tape s i) (tape t i) := by
  rcases h with h | ⟨hi, b, h⟩
  · exact .of_eq h
  · have hops := ((hk i).fresh_of_next hi).quiet.ops
    have hreads : (tape s i).reads = [] := by
      refine List.filter_eq_nil_iff.mpr fun op hp hop => ?_
      have hmem : op ∈ (view s i).ops := List.mem_filter.mpr ⟨hp, (Bool.and_eq_true_iff.mp hop).1⟩
      simp [hops] at hmem
    rw [h]
    exact .blank b hreads

/-- What follows the return of the user's code, on the tapes of all the sockets but the one it was
called for. -/
theorem tape_afterProcess_other {r : Running} {ret : Int} {j : SockId}
    (h : afterProcess cfg s r ret = .ok t) (hj : j ≠ r.sock) : tape t j = tape s j := by
  simp only [afterProcess] at h
  split at h
  · cases h
    exact tape_destroySocket s r.sock j
  split at h
  · split at h <;> cases h
    rfl
  split at h
  · split at h
    · cases h
    split at h <;> cases h
    exact tape_setSock_keep s r.sock j _ fun _ => rfl
  split at h
  · split at h
    · cases h
    split at h <;> cases h
    rfl
  split at h
  · split at h
    · cases h
    split at h <;> cases h
    · exact tape_asyncReadHTTPHead_other cfg hj
    · exact tape_toReadLThenReadV_other hj
  · cases h

theorem tape_afterProcess_self {r : Running} {ret : Int} (hlv : r.http = false)
    (h : afterProcess cfg s r ret = .ok t) : tape t r.sock = tape s r.sock ∨
      tape t r.sock = (tape s r.sock).armed r.sock := by
  simp only [afterProcess] at h
  split at h
  · cases h
    exact .inl (tape_destroySocket s r.sock r.sock)
  split at h
  · split at h <;> cases h
    exact .inl rfl
  split at h
  · split at h
    · cases h
    split at h <;> cases h
    exact .inl (tape_setSock_keep s r.sock r.sock _ fun _ => rfl)
  split at h
  · split at h
    · cases h
    split at h <;> cases h
    exact .inl rfl
  split at h
  · split at h
    · cases h
    rw [if_neg (by simp [hlv])] at h
    cases h
    exact .inr tape_toReadLThenReadV_self
  · cases h

theorem returned_rolls {r : Running} {ret : Int} {buf : List Byte} (hr : s.running = some r)
    (hlv : r.sock = i → r.http = false) (h : returned cfg s r ret buf = .ok t) :
    Rolls i (tape s i) (tape t i) := by
  simp only [returned] at h
  split at h
  · cases h
  rename_i s' hs'
  cases h
  have hafter : ∀ j, tape (if r.continueFieldFound then sendContinue s' r.sock else s') j =
      tape s' j := by
    intro j
    split
    · exact tape_sendContinue
    · rfl
  rw [hafter]
  rcases eq_or_ne i r.sock with rfl | hi
  · have hbusy : (tape s r.sock).busy = true := by simp [tape, hr]
    have hset : tape (setSock { s with running := none } r.sock fun k =>
        { k with recvBuf := buf }) r.sock =
        { tape s r.sock with recvBuf := buf, busy := false } := tape_setSock_self _ _ _
    rcases tape_afterProcess_self (hlv rfl) hs' with hsame | harmed
    · rw [hsame, hset]
      exact .resumed buf hbusy
    · rw [harmed, hset]
      exact .armed
  · have hbusy : (tape s i).busy = false := by simp [tape, hr, hi.symm]
    have hset : tape (setSock { s with running := none } r.sock fun k =>
        { k with recvBuf := buf }) i = { tape s i with busy := false } :=
      tape_setSock_other _ _ _ _ hi
    rw [tape_afterProcess_other hs' hi, hset, ← hbusy]
    exact .still

/-- The completion of an operation of the socket itself that reads no frame. -/
theorem handle_rolls {op : Op} {r : Completion} (hop : op.sock? = some i)
    (hread : op.readsFrame = false) (hlv : op.type? ≠ some .http) (hr : s.running = none)
    (h : handle cfg s op r = .ok t) : Rolls i (tape s i) (tape t i) := by
  cases op with
  | connectThenWrite k buf => exact .of_eq (tape_handleConnectThenWrite h i)
  | writeThenReadL k =>
    cases hop
    cases h
    unfold handleWriteThenReadL
    split
    · exact .still
    · refine Rolls.armed_of_none hr ?_
      rw [tape_toReadLThenReadV_self, tape_touch]
  | writeThenClose k =>
    cases h
    exact .of_eq (tape_destroySocket s k i)
  | anythingThenNothing k =>
    cases h
    unfold handleAnythingThenNothing
    split
    · exact .of_eq (tape_destroySocket s k i)
    · exact .of_eq (tape_touch s k i)
  | readLThenReadV k => cases hread
  | readVThenProcess k len => cases hread
  | writeThenReadHTTPHead k => exact absurd rfl hlv
  | readHTTPHead k n l => exact absurd rfl hlv
  | readHTTPContent k o c => exact absurd rfl hlv
  | accept k => cases hop
  | timeout => cases hop

/-- **A step, seen from the tape of an LV socket**, when it completes no read of a frame of it. -/
theorem step_rolls (hk : Kinds s) (htyped : (view s i).Typed)
    (hs : i < s.next → (s.heap i).type = .lv) (ht : i < t.next → (t.heap i).type = .lv)
    (hst : step cfg s e = .ok t) (he : e.NoFrameRead i) : Rolls i (tape s i) (tape t i) := by
  have hcreated : (view s i).ops ≠ [] ∨ (view s i).running ≠ none → i < s.next :=
    (hk i).created_of_busy
  cases e with
  | request q => exact (request_keepsTape hst i).rolls hk
  | returned ret buf =>
    simp only [step] at hst
    split at hst
    · cases hst
    rename_i r hr
    refine returned_rolls hr (fun hi => ?_) hst
    have hrun := running_of_eq hr hi
    exact htyped.lv_of_running (hs (hcreated (.inr (by simp [hrun])))) hrun
  | complete op r =>
    simp only [step] at hst
    split at hst
    case isFalse => cases hst
    rename_i hen
    obtain ⟨-, hrunning, hp, -⟩ := hen
    have hr : s.running = none := Option.isNone_iff_eq_none.mp hrunning
    have hpop : tape (pop s op) i = tape s i := tape_pop_other s i he
    rw [← hpop]
    cases hop : op.sock? with
    | some k =>
      rcases eq_or_ne i k with rfl | hik
      · refine handle_rolls hop (he hop) (fun htype => ?_) hr hst
        have hmem : op ∈ (view s i).ops := by simp [view, hp, hop]
        have hlv : (view s i).conn.type = .lv :=
          hs (hcreated (.inl (List.ne_nil_of_mem hmem)))
        have hhttp := htyped.ops op hmem .http htype
        simp [hlv] at hhttp
      · exact .of_eq (tape_handle_other hop hr hst hik)
    | none =>
      cases op with
      | accept key =>
        have hlt : ∀ a, s.tcpAcceptorMap.find key = some a → a.skInfo < s.next :=
          fun a ha => hk.acceptorsCreated key a ha
        have hkpop : Kinds (pop s (.accept key)) := fun j => by
          rw [sameViews_pop s rfl j]
          exact hk j
        rcases handleAccept_tape (s := pop s (.accept key)) hlt hst i with h | h | h
        · exact h.rolls hkpop
        · have hlv := ht h.1
          cases hlv.symm.trans h.2
        · exact Rolls.armed_of_none (s := pop s (.accept key)) hr h
      | timeout =>
        cases hst
        refine .of_eq ?_
        unfold handleTimeout
        rw [tape_push _ _ fun _ => rfl]
        split
        · rfl
        · exact tape_sweepServerSocket _ i _
      | _ => cases hop
  | destroySocket k =>
    simp only [step] at hst
    split at hst <;> cases hst
    exact .of_eq (tape_destroySocket s k i)
  | setClock n =>
    cases hst
    exact .still
  | run =>
    simp only [step] at hst
    split at hst <;> cases hst
    exact .of_eq (tape_push _ _ fun _ => rfl)

end

/-! ## 3. Frames -/

/-- A frame: it starts with its own length, four bytes in network order, and is not too long. -/
structure Frame (cfg : Config) (f : List Byte) : Prop where
  header : 4 ≤ f.length
  fits : (f.length : Int) ≤ cfg.maxRecvBufSize
  length : ofBytesBE (f.take 4) = f.length

section

variable {cfg : Config} {s : Skeleton} {i : SockId} {f : List Byte} {r : Completion}

theorem Frame.length_take (h : Frame cfg f) : (f.take 4).length = 4 := by
  rw [List.length_take]
  exact min_eq_left h.header

/-- The handlers read the length of a frame from any buffer that starts with its header. -/
theorem Frame.lengthField (h : Frame cfg f) {buf : List Byte} (hlen : 4 ≤ buf.length)
    (hbuf : buf.take 4 = f.take 4) : lengthField cfg buf = f.length := by
  have hfits := h.fits
  have hmax := cfg.maxRecvBufSize_int
  unfold Asio2.lengthField
  rw [networkToHostLong_load32 cfg.host hlen, hbuf, h.length]
  exact int32_eq (by omega) (by omega)

/-- What `HandleReadLThenReadV` writes back is the header. -/
theorem Frame.store32 (h : Frame cfg f) :
    store32 cfg.host (networkToHostLong cfg.host f.length) = f.take 4 := by
  rw [store32_networkToHostLong, ← h.length]
  exact toBytesBE_ofBytesBE h.length_take

/-- The buffer for a frame: its header, and room for the rest. -/
def frameBuf (f : List Byte) : List Byte := f.take 4 ++ List.replicate (f.length - 4) 0

theorem tape_setFrameBuf (h : Frame cfg f) (hbuf : (s.heap i).recvBuf = f.take 4) :
    tape (setFrameBuf cfg s i f.length) i = { tape s i with recvBuf := frameBuf f } := by
  have hheader := h.header
  unfold setFrameBuf
  rw [hbuf, h.length_take]
  split
  · rw [tape_setSock_self, tape_setRecvBuf_self]
    have hnew : overwrite (List.replicate f.length (0 : Byte)) 0 (f.take 4) = frameBuf f := by
      unfold overwrite frameBuf
      rw [h.length_take]
      simp
    simp [setRecvBuf, setSock, Frame.store32 h, hnew]
  · rename_i hlt
    have hfour : f.length = 4 := by omega
    have hsame : frameBuf f = (s.heap i).recvBuf := by simp [frameBuf, hfour, hbuf]
    rw [hsame]
    rfl

/-- **The header of a frame is read**: the read of the rest is started, for a buffer of the frame's
length with the header in it. -/
theorem handle_header (h : Frame cfg f) (hbuf : (tape s i).recvBuf.length = 4)
    (herr : r.error = false) (hdata : r.data = f.take 4) :
    ∃ t, handle cfg s (.readLThenReadV i) r = .ok t ∧ tape t i =
      ⟨frameBuf f, (tape s i).reads ++ [.readVThenProcess i f.length], (tape s i).busy,
        (tape s i).delivered⟩ := by
  have hlen : r.data.length = 4 := by rw [hdata, h.length_take]
  have hroom : 0 + r.data.length ≤ (s.heap i).recvBuf.length := by
    have hbuf' : (s.heap i).recvBuf.length = 4 := hbuf
    omega
  obtain ⟨s', hs'⟩ : ∃ s', s' = setSock s i fun k =>
    { k with recvBuf := overwrite k.recvBuf 0 r.data } := ⟨_, rfl⟩
  have hbuf' : (s'.heap i).recvBuf = f.take 4 := by
    have hall : overwrite (s.heap i).recvBuf 0 r.data = r.data :=
      overwrite_all (hlen.trans hbuf.symm)
    have hnew : (s'.heap i).recvBuf = overwrite (s.heap i).recvBuf 0 r.data := by
      rw [hs']
      simp [setSock]
    rw [hnew, hall, hdata]
  have hfield : lengthField cfg (s'.heap i).recvBuf = f.length :=
    h.lengthField (by rw [hbuf', h.length_take]) (by rw [hbuf', List.take_take, min_self])
  have hmax : ¬ cfg.maxRecvBufSize < (f.length : Int) := not_lt.mpr h.fits
  refine ⟨push (setFrameBuf cfg (touch s' i) i f.length) (.readVThenProcess i f.length), ?_, ?_⟩
  · simp only [handle, storeRecv, if_pos hroom, Except.map, handleReadLThenReadV, herr,
      Bool.false_eq_true, if_false]
    rw [← hs', hfield, if_neg hmax]
  · have htouch : ((touch s' i).heap i).recvBuf = f.take 4 := by
      rw [← hbuf']
      simp [touch, setSock]
    rw [tape_push_own _ _ rfl rfl, tape_setFrameBuf h htouch, tape_touch, hs', tape_setSock_self]

/-- **The rest of a frame is read**: the frame is passed to the user's code, whole. -/
theorem handle_body (h : Frame cfg f) (len : Int) (hbuf : (tape s i).recvBuf = frameBuf f)
    (herr : r.error = false) (hdata : r.data = f.drop 4) :
    ∃ t, handle cfg s (.readVThenProcess i len) r = .ok t ∧ tape t i =
      ⟨f, (tape s i).reads, true, (tape s i).delivered ++ [f]⟩ := by
  have hheader := h.header
  have hold : (s.heap i).recvBuf = frameBuf f := hbuf
  have hlen : r.data.length = f.length - 4 := by rw [hdata, List.length_drop]
  have hroom : 4 + r.data.length ≤ (s.heap i).recvBuf.length := by
    rw [hold, frameBuf, List.length_append, List.length_replicate, h.length_take]
    omega
  obtain ⟨s', hs'⟩ : ∃ s', s' = setSock s i fun k =>
    { k with recvBuf := overwrite k.recvBuf 4 r.data } := ⟨_, rfl⟩
  have hbuf' : (s'.heap i).recvBuf = f := by
    have hwrite : overwrite (frameBuf f) 4 r.data = f := by
      have happend := overwrite_append (f.take 4) (List.replicate (f.length - 4) 0) r.data
      rw [h.length_take] at happend
      rw [frameBuf, happend, hlen, hdata, List.take_append_drop]
      simp
    rw [hs', ← hwrite, ← hold]
    simp [setSock]
  have hfield : lengthField cfg (s'.heap i).recvBuf = f.length :=
    h.lengthField (by rw [hbuf']; exact h.header) (by rw [hbuf'])
  have hnum : (r.data.length : Int) = f.length - 4 := by omega
  refine ⟨callProcess (touch s' i) ⟨i, false, false⟩, ?_, ?_⟩
  · simp only [handle, storeRecv, if_pos hroom]
    rw [← hs', handleReadVThenProcess, herr, hfield, hnum]
    simp
  · have hcall := tape_callProcess_self (touch s' i) ⟨i, false, false⟩
    have htouch : ((touch s' i).heap i).recvBuf = f := by
      rw [← hbuf']
      simp [touch, setSock]
    have hstored : tape s' i = { tape s i with recvBuf := f } := by
      rw [← hbuf', hs', tape_setSock_self]
      simp [setSock]
    simp only [tape_touch, htouch, hstored] at hcall
    exact hcall

end

/-! ## 4. The invariant -/

/-- How far the reading of the stream `fs` has got, when the bytes `rec` of it have been read.  `k`
frames have been passed on; no read is outstanding, or that of the next header, or that of the rest
of frame `k`. -/
inductive Framing (fs : List (List Byte)) (i : SockId) (rec : List Byte) (τ : Tape) : Prop
  | between (k : Nat) (hreads : τ.reads = []) (hdel : τ.delivered = fs.take k)
      (hrec : rec = (fs.take k).flatten)
  | header (k : Nat) (hreads : τ.reads = [.readLThenReadV i]) (hbusy : τ.busy = false)
      (hbuf : τ.recvBuf.length = 4) (hdel : τ.delivered = fs.take k)
      (hrec : rec = (fs.take k).flatten)
  | body (k : Nat) (f : List Byte) (hf : fs[k]? = some f)
      (hreads : τ.reads = [.readVThenProcess i f.length]) (hbusy : τ.busy = false)
      (hbuf : τ.recvBuf = frameBuf f) (hdel : τ.delivered = fs.take k)
      (hrec : rec = (fs.take k).flatten ++ f.take 4)

section

variable {cfg : Config} {fs : List (List Byte)} {s t : Skeleton} {i : SockId} {rec : List Byte}

/-- A step that completes no read of a frame. -/
theorem Framing.rolls {τ τ' : Tape} (h : Framing fs i rec τ) (hr : Rolls i τ τ')
    (hone : τ'.reads.length ≤ 1) : Framing fs i rec τ' := by
  cases hr with
  | still => exact h
  | blank b hnone =>
    cases h with
    | between k hreads hdel hrec => exact .between k hreads hdel hrec
    | header k hreads => simp [hreads] at hnone
    | body k f hf hreads => simp [hreads] at hnone
  | resumed b hbusy =>
    cases h with
    | between k hreads hdel hrec => exact .between k hreads hdel hrec
    | header k hreads hidle => simp [hidle] at hbusy
    | body k f hf hreads hidle => simp [hidle] at hbusy
  | armed =>
    simp only [Tape.armed, List.length_append, List.length_singleton] at hone
    have hnil : τ.reads = [] := List.length_eq_zero_iff.mp (by omega)
    cases h with
    | between k hreads hdel hrec =>
      exact .header k (by simp [Tape.armed, hreads]) rfl (by simp [Tape.armed]) hdel hrec
    | header k hreads => simp [hreads] at hnil
    | body k f hf hreads => simp [hreads] at hnil

/-- **The completion of a read of a frame**: it goes through, and the reading goes on with the
stream. -/
theorem Framing.complete {op : Op} {r : Completion} (hfs : ∀ f ∈ fs, Frame cfg f)
    (h : Framing fs i rec (tape s i)) (hp : op ∈ s.pending) (hop : op.sock? = some i)
    (hread : op.readsFrame = true) (hfits : Fits s op r) (herr : r.error = false)
    (hstream : rec ++ r.data <+: fs.flatten) :
    ∃ t, handle cfg (pop s op) op r = .ok t ∧ Framing fs i (rec ++ r.data) (tape t i) := by
  have hmem : op ∈ (tape s i).reads := List.mem_filter.mpr ⟨hp, by simp [hop, hread]⟩
  have hpop := tape_pop s i op
  cases h with
  | between k hreads => simp [hreads] at hmem
  | header k hreads hbusy hbuf hdel hrec =>
    rw [hreads, List.mem_singleton] at hmem
    subst hmem
    have hdata : r.data.length = 4 := hfits.2 herr
    rw [hrec] at hstream
    obtain ⟨f, hf, hd⟩ := next_block hstream hdata (by decide) fun f hf => (hfs f hf).header
    have hframe := hfs f (List.mem_of_getElem? hf)
    obtain ⟨t, ht, htape⟩ := handle_header (s := pop s (.readLThenReadV i)) hframe
      (by rw [hpop]; exact hbuf) herr hd
    rw [hpop, hreads] at htape
    refine ⟨t, ht, .body k f hf ?_ ?_ ?_ ?_ ?_⟩
    · simp [htape]
    · rw [htape]
      exact hbusy
    · rw [htape]
    · rw [htape]
      exact hdel
    · rw [hrec, hd]
  | body k f hf hreads hbusy hbuf hdel hrec =>
    rw [hreads, List.mem_singleton] at hmem
    subst hmem
    have hframe := hfs f (List.mem_of_getElem? hf)
    have hheader := hframe.header
    have hfit := hframe.fits
    have hmax := cfg.maxRecvBufSize_int
    have hsize : sizeT ((f.length : Int) - 4) = f.length - 4 := by
      rw [sizeT_eq (by omega) (by omega)]
      omega
    have hdata : r.data.length = f.length - 4 := (hfits.2 herr).trans hsize
    rw [hrec] at hstream
    have hd := rest_of_block hf hstream hheader hdata
    obtain ⟨t, ht, htape⟩ := handle_body (s := pop s (.readVThenProcess i f.length)) hframe
      f.length (by rw [hpop]; exact hbuf) herr hd
    rw [hpop, hreads] at htape
    refine ⟨t, ht, .between (k + 1) ?_ ?_ ?_⟩
    · simp [htape]
    · rw [htape, List.take_add_one, hf]
      simp [hdel]
    · rw [hrec, hd, List.append_assoc, List.take_append_drop, flatten_take_succ hf]

end

/-! ## 5. Every run -/

/-- The bytes of frames that were read on socket `i`. -/
def received (i : SockId) (es : List Event) : List Byte := es.flatMap (Event.frameBytes i)

/-- The reads of frames outstanding on socket `i`. -/
def frameReads (s : Skeleton) (i : SockId) : List Op :=
  s.pending.filter fun op => op.sock? == some i && op.readsFrame

/-- A read of a frame of socket `i` does not fail. -/
def Event.NoReadError (i : SockId) : Event → Prop
  | .complete op r => op.sock? = some i → op.readsFrame = true → r.error = false
  | _ => True

/-- What is assumed about a run in which the stream `fs` comes in on socket `i`: the socket is an LV
socket, its reads are those of one chain (there are never two at a time), they do not fail, and they
give the bytes of the stream. -/
structure Streams (cfg : Config) (fs : List (List Byte)) (i : SockId) (es : List Event) : Prop where
  lv : ∀ t, Visits (step cfg) init es t → i < t.next → (t.heap i).type = .lv
  one : ∀ t, Visits (step cfg) init es t → (frameReads t i).length ≤ 1
  noError : ∀ e ∈ es, e.NoReadError i
  stream : received i es <+: fs.flatten

section

variable {cfg : Config} {fs : List (List Byte)} {i : SockId} {es : List Event} {s t : Skeleton}

theorem received_append (i : SockId) (es₁ es₂ : List Event) :
    received i (es₁ ++ es₂) = received i es₁ ++ received i es₂ := List.flatMap_append

theorem frameBytes_of_noFrameRead {e : Event} (h : e.NoFrameRead i) : e.frameBytes i = [] := by
  cases e with
  | complete op r =>
    simp only [Event.frameBytes, Bool.and_eq_true, beq_iff_eq, ite_eq_right_iff]
    rintro ⟨hop, hread⟩
    simp [h hop] at hread
  | _ => rfl

theorem exec_framing (hfs : ∀ f ∈ fs, Frame cfg f) (h : Streams cfg fs i es)
    (hrun : exec (step cfg) init es = .ok s) : Framing fs i (received i es) (tape s i) := by
  refine exec_induction (P := fun pre t => Framing fs i (received i pre) (tape t i))
    (.between 0 rfl rfl rfl) ?_ hrun
  intro pre e t u hpre ht hframing hu
  have hvt : Visits (step cfg) init es t := ⟨pre, (List.prefix_append pre [e]).trans hpre, ht⟩
  have hexec : exec (step cfg) init (pre ++ [e]) = .ok u :=
    exec_append_ok.mpr ⟨t, ht, exec_cons_ok.mpr ⟨u, hu, rfl⟩⟩
  have hvu : Visits (step cfg) init es u := ⟨pre ++ [e], hpre, hexec⟩
  have hbytes : received i (pre ++ [e]) = received i pre ++ e.frameBytes i := by
    rw [received_append]
    simp [received]
  rw [hbytes]
  by_cases he : e.NoFrameRead i
  · have hrolls := step_rolls (exec_kinds ht) (exec_typed ht i) (h.lv t hvt) (h.lv u hvu) hu he
    rw [frameBytes_of_noFrameRead he, List.append_nil]
    exact hframing.rolls hrolls (h.one u hvu)
  · cases e with
    | complete op r =>
      simp only [Event.NoFrameRead, Classical.not_imp, Bool.not_eq_false] at he
      obtain ⟨hop, hread⟩ := he
      have hmem : Event.complete op r ∈ es := hpre.subset (by simp)
      have herr : r.error = false := h.noError _ hmem hop hread
      have hdata : (Event.complete op r).frameBytes i = r.data := by
        simp [Event.frameBytes, hop, hread]
      have hstream : received i pre ++ r.data <+: fs.flatten := by
        rw [← hdata, ← hbytes]
        have hwhole := h.stream
        obtain ⟨post, rfl⟩ := hpre
        rw [received_append] at hwhole
        exact (List.prefix_append _ _).trans hwhole
      rw [hdata]
      simp only [step] at hu
      split at hu
      case isFalse => cases hu
      rename_i hen
      obtain ⟨-, -, hp, hfits⟩ := hen
      obtain ⟨u', hu', hend⟩ := hframing.complete hfs hp hop hread hfits herr hstream
      cases hu'.symm.trans hu
      exact hend
    | _ => exact absurd trivial he

/-- The frames of a stream are determined by how many bytes of it there are. -/
theorem take_eq_of_flatten (hfs : ∀ f ∈ fs, Frame cfg f) {k : Nat}
    (h : fs.flatten = (fs.take k).flatten) : fs.take k = fs := by
  have hrest : (fs.drop k).flatten = [] := by
    have hsplit : fs.flatten = (fs.take k).flatten ++ (fs.drop k).flatten := by
      rw [← List.flatten_append, List.take_append_drop]
    rw [h] at hsplit
    exact List.self_eq_append_right.mp hsplit
  have hnil : fs.drop k = [] := by
    refine List.eq_nil_iff_forall_not_mem.mpr fun f hf => ?_
    have hempty := List.flatten_eq_nil_iff.mp hrest f hf
    have hheader := (hfs f (List.mem_of_mem_drop hf)).header
    simp [hempty] at hheader
  have happend := List.take_append_drop k fs
  rw [hnil, List.append_nil] at happend
  exact happend

end

section

variable {cfg : Config} {fs : List (List Byte)} {i : SockId} {es : List Event} {s : Skeleton}

/-- In such a run `HandleReadVThenProcess` is the one that calls the user's code for the socket. -/
theorem running_lv (h : Streams cfg fs i es) (hrun : exec (step cfg) init es = .ok s)
    {r : Running} (hr : s.running = some r) (hi : r.sock = i) : r.http = false := by
  have hview : (view s i).running = some r := running_of_eq hr hi
  have hcreated : i < s.next := (exec_kinds hrun i).created_of_busy (.inr (by simp [hview]))
  have hlv : (s.heap i).type = .lv := h.lv s ⟨es, List.prefix_rfl, hrun⟩ hcreated
  exact (exec_typed hrun i).lv_of_running hlv hview

/-- **`ProcessData` returning 3** starts the next read of a frame. -/
theorem returned_rearms (cfg : Config) {r : Running} (buf : List Byte) (hr : s.running = some r)
    (hlv : r.http = false) (hserver : (s.heap r.sock).isClient = false) :
    ∃ t, step cfg s (.returned 3 buf) = .ok t ∧ .readLThenReadV r.sock ∈ t.pending := by
  let s₀ := setSock { s with running := none } r.sock fun k => { k with recvBuf := buf }
  have hserver₀ : (s₀.heap r.sock).isClient = false := by simp [s₀, setSock, hserver]
  have hafter : afterProcess cfg s₀ r 3 = .ok (toReadLThenReadV s₀ r.sock) := by
    simp [afterProcess, hserver₀, hlv]
  simp only [step, hr, returned]
  rw [hafter]
  refine ⟨_, rfl, ?_⟩
  split <;> simp [sendContinue, setSendBuf, setSock, toReadLThenReadV, push]

/-- **`HandleWriteThenReadL`** starts the next read of a frame. -/
theorem writeThenReadL_rearms (cfg : Config) {r : Completion} (hstart : s.started = true)
    (hidle : s.running = none) (hp : .writeThenReadL i ∈ s.pending) (herr : r.error = false) :
    ∃ t, step cfg s (.complete (.writeThenReadL i) r) = .ok t ∧ .readLThenReadV i ∈ t.pending := by
  have hfits : Fits s (.writeThenReadL i) r := trivial
  refine ⟨handleWriteThenReadL (pop s (.writeThenReadL i)) r.error i, ?_, ?_⟩
  · simp only [step]
    rw [if_pos ⟨hstart, by simp [hidle], hp, hfits⟩, handle]
  · simp [handleWriteThenReadL, herr, toReadLThenReadV, push]

end

/-- **The frames of the stream are passed on, in order and whole.**  In any run in which a stream of
frames comes in on an LV socket: what was passed to the user's code is the first `k` frames, and the
bytes read are those of these frames, or those and the header of the next, whose rest is being read;
once the whole stream has been read and no rest of a frame is outstanding, all the frames have been
passed on; and the next read of the stream that completes goes through, so that neither the
assertion about its length fails nor the buffer is overrun.  The chain goes on: when the user's code
returns 3 for the socket, and when the write of an answer to it completes, the read of the next
header is started. -/
theorem frames_delivered (cfg : Config) (fs : List (List Byte)) (i : SockId) (es : List Event)
    (s : Skeleton) (hfs : ∀ f ∈ fs, Frame cfg f) (hes : Streams cfg fs i es)
    (hrun : exec (step cfg) init es = .ok s) :
    (∃ k, delivered s i = fs.take k ∧ (received i es = (fs.take k).flatten ∨
      ∃ f, fs[k]? = some f ∧ received i es = (fs.take k).flatten ++ f.take 4 ∧
        .readVThenProcess i f.length ∈ s.pending)) ∧
    (received i es = fs.flatten → (∀ len, .readVThenProcess i len ∉ s.pending) →
      delivered s i = fs) ∧
    (∀ op r, op.sock? = some i → op.readsFrame = true → r.error = false →
      received i es ++ r.data <+: fs.flatten →
      s.started = true → s.running = none → op ∈ s.pending → Fits s op r →
      ∃ t, step cfg s (.complete op r) = .ok t) ∧
    (∀ r buf, s.running = some r → r.sock = i → (s.heap i).isClient = false →
      ∃ t, step cfg s (.returned 3 buf) = .ok t ∧ .readLThenReadV i ∈ t.pending) ∧
    ∀ r, r.error = false → s.started = true → s.running = none → .writeThenReadL i ∈ s.pending →
      ∃ t, step cfg s (.complete (.writeThenReadL i) r) = .ok t ∧
        .readLThenReadV i ∈ t.pending := by
  have hframing := exec_framing hfs hes hrun
  have hmem : ∀ len, .readVThenProcess i len ∈ (tape s i).reads →
      .readVThenProcess i len ∈ s.pending := fun len h => (List.mem_filter.mp h).1
  refine ⟨?_, fun hall hnone => ?_, fun op r hop hread herr hstream hstart hidle hp hfits => ?_,
    fun r buf hr hi hserver => ?_, fun r herr hstart hidle hp => ?_⟩
  · cases hframing with
    | between k hreads hdel hrec => exact ⟨k, hdel, .inl hrec⟩
    | header k hreads hbusy hbuf hdel hrec => exact ⟨k, hdel, .inl hrec⟩
    | body k f hf hreads hbusy hbuf hdel hrec =>
      exact ⟨k, hdel, .inr ⟨f, hf, hrec, hmem _ (by simp [hreads])⟩⟩
  · cases hframing with
    | between k hreads hdel hrec =>
      exact hdel.trans (take_eq_of_flatten hfs (hall.symm.trans hrec))
    | header k hreads hbusy hbuf hdel hrec =>
      exact hdel.trans (take_eq_of_flatten hfs (hall.symm.trans hrec))
    | body k f hf hreads hbusy hbuf hdel hrec =>
      exact absurd (hmem _ (by simp [hreads])) (hnone f.length)
  · obtain ⟨t, ht, -⟩ := hframing.complete hfs hp hop hread hfits herr hstream
    refine ⟨t, ?_⟩
    simp only [step]
    rw [if_pos ⟨hstart, by simp [hidle], hp, hfits⟩]
    exact ht
  · have hlv := running_lv hes hrun hr hi
    subst hi
    exact returned_rearms cfg buf hr hlv hserver
  · exact writeThenReadL_rearms cfg hstart hidle hp herr

/-- A server reads a frame and reads on; it answers the second frame, and goes on when the answer
has been written. -/
def answering : List Event :=
  [.request (.addTCPAcceptor ⟨1, 80⟩ .lv), .run,
    .complete (.accept ⟨1, 80⟩) { remoteEndpoint := some ⟨2, 5000⟩, localEndpoint := some ⟨1, 80⟩ },
    .complete (.readLThenReadV 0) { data := [0, 0, 0, 6] },
    .complete (.readVThenProcess 0 6) { data := [65, 66] }, .returned 3 [7],
    .complete (.readLThenReadV 0) { data := [0, 0, 0, 4] }, .complete (.readVThenProcess 0 4) {},
    .request (.toWriteThenRead ⟨2, 5000⟩ .lv [0, 0, 0, 4] true), .returned 2 [7]]

/-- The answer is written, and a third frame comes, with nothing behind its header. -/
def threeFrames : List Event :=
  answering ++ [.complete (.writeThenReadL 0) {},
    .complete (.readLThenReadV 0) { data := [0, 0, 0, 5] },
    .complete (.readVThenProcess 0 5) { data := [67] }]

theorem threeFrames_frames : ∀ f ∈ [[0, 0, 0, 6, 65, 66], [0, 0, 0, 4], [0, 0, 0, 5, 67]],
    Frame Config.lv f := by
  simp only [List.forall_mem_cons]
  exact ⟨⟨by decide, by decide, by decide⟩, ⟨by decide, by decide, by decide⟩,
    ⟨by decide, by decide, by decide⟩, by simp⟩

theorem threeFrames_streams : Streams Config.lv
    [[0, 0, 0, 6, 65, 66], [0, 0, 0, 4], [0, 0, 0, 5, 67]] 0 threeFrames := by
  have hstates : ∀ t ∈ states (step Config.lv) init threeFrames,
      (0 < t.next → (t.heap 0).type = .lv) ∧ (frameReads t 0).length ≤ 1 := by
    decide +kernel
  refine ⟨fun t ht => (hstates t (mem_states_of_visits ht)).1,
    fun t ht => (hstates t (mem_states_of_visits ht)).2, ?_, ?_⟩
  · simp [threeFrames, answering, Event.NoReadError, Op.sock?]
  · decide

/-- The assumptions about a run are about its beginnings. -/
theorem Streams.of_prefix {cfg : Config} {fs : List (List Byte)} {i : SockId} {pre es : List Event}
    (h : Streams cfg fs i es) (hpre : pre <+: es) : Streams cfg fs i pre where
  lv := fun t ⟨pre', hpre', ht⟩ => h.lv t ⟨pre', hpre'.trans hpre, ht⟩
  one := fun t ⟨pre', hpre', ht⟩ => h.one t ⟨pre', hpre'.trans hpre, ht⟩
  noError := fun e he => h.noError e (hpre.subset he)
  stream := by
    obtain ⟨post, rfl⟩ := hpre
    have hstream := h.stream
    rw [received_append] at hstream
    exact (List.prefix_append _ _).trans hstream

theorem threeFrames_delivered :
    (∃ s, exec (step Config.lv) init threeFrames = .ok s ∧
      delivered s 0 = [[0, 0, 0, 6, 65, 66], [0, 0, 0, 4], [0, 0, 0, 5, 67]]) ∧
    ∃ s, exec (step Config.lv) init answering = .ok s ∧ .readLThenReadV 0 ∉ s.pending ∧
      ∃ t, step Config.lv s (.complete (.writeThenReadL 0) {}) = .ok t ∧
        .readLThenReadV 0 ∈ t.pending := by
  have hpending : (exec (step Config.lv) init threeFrames).map Skeleton.pending =
      .ok [.timeout, .accept ⟨1, 80⟩] := by decide +kernel
  have hanswering : (exec (step Config.lv) init answering).map
      (fun s => (s.started, s.running.isNone, s.pending)) =
      .ok (true, true, [.timeout, .accept ⟨1, 80⟩, .writeThenReadL 0]) := by decide +kernel
  obtain ⟨s, hs, hp⟩ := map_eq_ok.mp hpending
  obtain ⟨u, hu, hend⟩ := map_eq_ok.mp hanswering
  simp only [Prod.mk.injEq, Option.isNone_iff_eq_none] at hend
  obtain ⟨hstart, hidle, hwrite⟩ := hend
  have h := frames_delivered Config.lv _ 0 threeFrames s threeFrames_frames threeFrames_streams hs
  have hbefore := frames_delivered Config.lv _ 0 answering u threeFrames_frames
    (threeFrames_streams.of_prefix (List.prefix_append _ _)) hu
  refine ⟨⟨s, hs, h.2.1 (by decide) fun len => by simp [hp]⟩, u, hu, by simp [hwrite], ?_⟩
  exact hbefore.2.2.2.2 {} rfl hstart hidle (by simp [hwrite])

end Kknf.Asio2
