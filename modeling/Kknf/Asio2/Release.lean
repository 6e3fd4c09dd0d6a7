/-
# Failed connections are released

A handler that is called with an error, or with an HTTP head it cannot use, should call
`DestroySocket`, so that the connection is closed and in no map.  Most do.  Five branches do not:
`HandleWriteThenReadL` and `HandleReadHTTPContentThenProcess` just return on an error; the head
handler just returns on a head without an end and on a `Content-Length` that is not a number; and a
`Content-Length` so large that its sum with the length of the head overflows an `int` passes the
check for its size.

`released_iff` says that these are all: from every reachable state, a failed completion leaves the
connection released exactly when it goes through another branch, or the connection was released
already.
-/
import Kknf.Asio2.Kinds
import Kknf.Asio2.Listening

namespace Kknf.Asio2

open Kknf.Run

/-! ## 1. Failures -/

/-- The connection is closed, and in neither map. -/
structure Released (s : Skeleton) (i : SockId) : Prop where
  closed : (s.heap i).closed = true
  unpooled : ∀ key, i ∉ s.tcpClientSocketMap.listAt key
  unserved : ∀ key, findTCPServerSocket s key ≠ some i

/-- The connection is left in a map, in use, and nothing is outstanding on it. -/
def Leaked (s : Skeleton) (i : SockId) : Prop :=
  ((∃ key, i ∈ s.tcpClientSocketMap.listAt key) ∨ ∃ key, findTCPServerSocket s key = some i) ∧
    (s.heap i).inUse = true ∧ ∀ op ∈ s.pending, op.sock? ≠ some i

/-- A head that is to be rejected: it has no end, no `Content-Length`, one that is not a number, or
one that is too large. -/
inductive Rejects (cfg : Config) (buf : List Byte) : Prop
  | noEnd (hend : search crlfCrlf buf = none)
  | noLength {pos : Nat} (hend : search crlfCrlf buf = some pos)
      (hkey : search contentLengthKey buf = none)
  | notNumber {pos pos' : Nat} (hend : search crlfCrlf buf = some pos)
      (hkey : search contentLengthKey buf = some pos')
      (hcast : cfg.lexicalCast (contentLengthText buf pos') = none)
  | tooLarge {pos pos' : Nat} {len : Int} (hend : search crlfCrlf buf = some pos)
      (hkey : search contentLengthKey buf = some pos')
      (hcast : cfg.lexicalCast (contentLengthText buf pos') = some len)
      (hlen : cfg.maxRecvBufSize < len + (pos + 4))

/-- The buffer of a socket after a read has put its bytes at an offset. -/
def readBuf (s : Skeleton) (i : SockId) (off : Nat) (data : List Byte) : List Byte :=
  overwrite (s.heap i).recvBuf off data

/-- The read of a head is over, and its handler is called: nothing was read, the completion
condition says so, or the buffer is full. -/
def HeadEnds (s : Skeleton) (i : SockId) (total : Nat) (data : List Byte) : Prop :=
  data = [] ∨ (httpHeadReadCompletionCondition
    (setSock s i fun k => { k with recvBuf := overwrite k.recvBuf total data }) false i
      (total + data.length)).2 = 0 ∨ total + data.length = (readBuf s i total data).length

/-- The completion is a failure: an error, or a head that is to be rejected. -/
def Fails (cfg : Config) (s : Skeleton) : Op → Completion → Prop
  | .connectThenWrite _ _, r => r.error = true ∨ r.localEndpoint = none
  | .readHTTPHead i total _, r => r.error = true ∨
      HeadEnds s i total r.data ∧ Rejects cfg (readBuf s i total r.data)
  | _, r => r.error = true

/-- The head has an end, and its `Content-Length`, if it has one, is a number whose sum with the
length of the head, as an `int`, is too large. -/
def ReleasesHead (cfg : Config) (buf : List Byte) : Prop :=
  ∃ pos, search crlfCrlf buf = some pos ∧ ∀ pos', search contentLengthKey buf = some pos' →
    ∃ len, cfg.lexicalCast (contentLengthText buf pos') = some len ∧
      cfg.maxRecvBufSize < int32 (len + (pos + 4))

/-- The failure goes through a branch that calls `DestroySocket`. -/
def Releases (cfg : Config) (s : Skeleton) : Op → Completion → Prop
  | .writeThenReadL _, _ => False
  | .readHTTPContent _ _ _, _ => False
  | .readHTTPHead i total _, r => r.error = true ∨ ReleasesHead cfg (readBuf s i total r.data)
  | _, _ => True

/-! ## 2. Released, as a view -/

section

variable {s t u : Skeleton} {i : SockId}

theorem released_iff_view :
    Released s i ↔ (view s i).conn.closed = true ∧ (view s i).Unpooled ∧ (view s i).Unserved := by
  have hpool : (∀ key, i ∉ s.tcpClientSocketMap.listAt key) ↔ (view s i).Unpooled :=
    forall_congr' fun key => List.count_eq_zero.symm
  have hserve : (∀ key, findTCPServerSocket s key ≠ some i) ↔ (view s i).Unserved := by
    refine forall_congr' fun key => ?_
    rw [← Bool.not_eq_true, served_iff]
    rfl
  rw [← hpool, ← hserve]
  exact ⟨fun h => ⟨h.closed, h.unpooled, h.unserved⟩, fun h => ⟨h.1, h.2.1, h.2.2⟩⟩

theorem Released.not_leaked (h : Released s i) : ¬ Leaked s i := by
  rintro ⟨⟨key, hkey⟩ | ⟨key, hkey⟩, -⟩
  · exact h.unpooled key hkey
  · exact h.unserved key hkey

/-- The flags of the socket, and its places in the maps, are as before. -/
structure KeepsPlace (s t : Skeleton) (i : SockId) : Prop where
  conn : (view t i).conn = (view s i).conn
  pooled : (view t i).pooled = (view s i).pooled
  served : (view t i).served = (view s i).served

theorem KeepsPlace.released_congr (h : KeepsPlace s t i) : Released t i ↔ Released s i := by
  simp only [released_iff_view, View.Unpooled, View.Unserved, h.conn, h.pooled, h.served]

theorem SameViews.keepsPlace (h : SameViews s t) (i : SockId) : KeepsPlace s t i := by
  rw [SameViews] at h
  exact ⟨by rw [h], by rw [h], by rw [h]⟩

theorem KeepsPlace.trans (h : KeepsPlace s t i) (h' : KeepsPlace t u i) : KeepsPlace s u i :=
  ⟨h'.conn.trans h.conn, h'.pooled.trans h.pooled, h'.served.trans h.served⟩

theorem keepsPlace_pop (s : Skeleton) (op : Op) (i : SockId) : KeepsPlace s (pop s op) i := by
  have h := view_pop s i op
  exact ⟨by rw [h]; rfl, by rw [h]; rfl, by rw [h]; rfl⟩

/-- A socket with an operation outstanding is released when it is destroyed: it is a client, and
then pooled under its own endpoint only, or a server socket, and then in the server map under its
own endpoint only. -/
theorem destroySocket_released {op : Op} (hk : Kind (view s i)) (hp : op ∈ (view s i).ops)
    (h : KeepsPlace s t i) : Released (destroySocket t i).1 i := by
  rw [released_iff_view, view_destroySocket_self]
  have hclient : (view t i).conn.isClient = (view s i).conn.isClient := by rw [h.conn]
  have hremote : (view t i).conn.remoteEndpoint = (view s i).conn.remoteEndpoint := by rw [h.conn]
  refine ⟨rfl, fun key => ?_, fun key => ?_⟩
  · rw [View.destroyed_pooled, hclient, hremote, h.pooled]
    cases hk with
    | fresh hf => simp [hf.quiet.ops] at hp
    | waiting hw => simp [hw.quiet.ops] at hp
    | synced hy => simp [hy.quiet.ops] at hp
    | server hv =>
      rw [if_neg (by simp [hv.isClient])]
      exact hv.unpooled key
    | client hc =>
      rw [if_pos hc.isClient, Function.update_apply]
      split
      · rfl
      · rename_i hne
        by_contra hpooled
        exact hne (hc.pooledOwn key hpooled)
  · rw [View.destroyed_served, hclient, hremote, h.served]
    cases hk with
    | fresh hf => simp [hf.quiet.ops] at hp
    | waiting hw => simp [hw.quiet.ops] at hp
    | synced hy => simp [hy.quiet.ops] at hp
    | client hc =>
      rw [if_pos hc.isClient]
      exact hc.unserved key
    | server hv =>
      rw [if_neg (by simp [hv.isClient]), Function.update_apply]
      split
      · rfl
      · rename_i hne
        by_contra hserved
        exact hne (hv.servedOwn key (by simpa using hserved))

/-! ## 3. The head handler -/

theorem readHTTPRest_keepsPlace {s : Skeleton} (i : SockId) (byteNum : Nat) (total : Int)
    (cont : Bool) (hr : s.running = none) :
    KeepsPlace s (readHTTPRest s i byteNum total cont) i := by
  simp only [readHTTPRest]
  split
  · have h := (handleReadHTTPContentThenProcess_onlyAt i cont hr).own
    exact ⟨by rw [h]; rfl, by rw [h]; rfl, by rw [h]; rfl⟩
  · have hread := ((SameViews.refl s).onlyAt i).push
      (show (Op.readHTTPContent i byteNum (sizeT (int32 (total - byteNum)))).sock? = some i
        from rfl)
    split
    · have h := hread.sendContinue.own
      exact ⟨by rw [h]; rfl, by rw [h]; rfl, by rw [h]; rfl⟩
    · have h := hread.own
      exact ⟨by rw [h]; rfl, by rw [h]; rfl, by rw [h]; rfl⟩

/-- **A rejected head**: the handler destroys the socket, or leaves it where it is. -/
theorem handleReadHTTPHead_rejects {cfg : Config} {s : Skeleton} {i : SockId} {buf : List Byte}
    (byteNum : Nat) (hr : s.running = none) (hbuf : (s.heap i).recvBuf = buf)
    (hrej : Rejects cfg buf) :
    ReleasesHead cfg buf ∧ handleReadHTTPHead cfg s false i byteNum =
        (destroySocket (touch s i) i).1 ∨
      ¬ ReleasesHead cfg buf ∧ KeepsPlace s (handleReadHTTPHead cfg s false i byteNum) i := by
  have htouch : SameViews s (touch s i) := view_touch s i
  have hkeep := htouch.keepsPlace i
  cases hrej with
  | noEnd hend =>
    refine .inr ⟨?_, ?_⟩
    · rintro ⟨pos, hpos, -⟩
      cases hend.symm.trans hpos
    · simpa only [handleReadHTTPHead, hbuf, hend, Bool.false_eq_true, if_false] using hkeep
  | @noLength pos hend hkey =>
    refine .inl ⟨⟨pos, hend, fun pos' hpos' => ?_⟩, ?_⟩
    · cases hkey.symm.trans hpos'
    · simp only [handleReadHTTPHead, hbuf, hend, hkey, Bool.false_eq_true, if_false]
  | @notNumber pos pos' hend hkey hcast =>
    refine .inr ⟨?_, ?_⟩
    · rintro ⟨p, -, hlen⟩
      obtain ⟨len, hlen, -⟩ := hlen pos' hkey
      cases hcast.symm.trans hlen
    · simpa only [handleReadHTTPHead, hbuf, hend, hkey, hcast, Bool.false_eq_true, if_false]
        using hkeep
  | @tooLarge pos pos' len hend hkey hcast hlen =>
    by_cases hint : cfg.maxRecvBufSize < int32 (len + (pos + 4))
    · refine .inl ⟨⟨pos, hend, fun p hp => ?_⟩, ?_⟩
      · cases hkey.symm.trans hp
        exact ⟨len, hcast, hint⟩
      · simp only [handleReadHTTPHead, hbuf, hend, hkey, hcast, Bool.false_eq_true, if_false,
          if_pos hint]
    · refine .inr ⟨?_, ?_⟩
      · rintro ⟨p, hp, hlen'⟩
        cases hend.symm.trans hp
        obtain ⟨len', hlen', hlt⟩ := hlen' pos' hkey
        cases hcast.symm.trans hlen'
        exact hint hlt
      · simp only [handleReadHTTPHead, hbuf, hend, hkey, hcast, Bool.false_eq_true, if_false,
          if_neg hint]
        have hgrow := growRecvBuf_sameViews (touch s i) i (int32 (len + (pos + 4)))
        refine (hkeep.trans (hgrow.keepsPlace i)).trans (readHTTPRest_keepsPlace i _ _ _ ?_)
        exact (growRecvBuf_running _ i _).trans hr

/-- The completion condition leaves the buffers alone. -/
theorem httpHeadReadCompletionCondition_recvBuf (s : Skeleton) (error : Bool) (i : SockId)
    (byteNum : Nat) :
    ((httpHeadReadCompletionCondition s error i byteNum).1.heap i).recvBuf =
      (s.heap i).recvBuf := by
  simp only [httpHeadReadCompletionCondition]
  split
  · rfl
  · split
    · simp [setSock]
    · split <;> simp [setSock]

/-- The last `read_some` of a head, when it ends in a rejection. -/
theorem readHTTPSome_fails {cfg : Config} {s : Skeleton} {i : SockId} {total : Nat}
    {r : Completion} (hr : s.running = none)
    (hfail : r.error = true ∨ HeadEnds s i total r.data ∧ Rejects cfg (readBuf s i total r.data)) :
    let s' := setSock s i fun k => { k with recvBuf := overwrite k.recvBuf total r.data }
    (r.error = true ∨ ReleasesHead cfg (readBuf s i total r.data)) ∧
        (∃ u, SameViews s u ∧ readHTTPSome cfg s' r.error i total r.data.length =
          (destroySocket u i).1) ∨
      ¬ (r.error = true ∨ ReleasesHead cfg (readBuf s i total r.data)) ∧
        KeepsPlace s (readHTTPSome cfg s' r.error i total r.data.length) i := by
  intro s'
  have hstore : SameViews s s' := sameViews_setSock s i fun _ => rfl
  have hbuf : (s'.heap i).recvBuf = readBuf s i total r.data := by simp [s', setSock, readBuf]
  cases herr : r.error with
  | true =>
    refine .inl ⟨.inl rfl, s', hstore, ?_⟩
    simp [readHTTPSome, httpHeadReadCompletionCondition, handleReadHTTPHead]
  | false =>
    rw [herr] at hfail
    obtain ⟨hends, hrej⟩ := hfail.resolve_left (by simp)
    have hcond := hstore.trans (httpHeadReadCompletionCondition_sameViews s' false i
      (total + r.data.length))
    have hhead : readHTTPSome cfg s' false i total r.data.length = handleReadHTTPHead cfg
        (httpHeadReadCompletionCondition s' false i (total + r.data.length)).1 false i
        (total + r.data.length) := by
      have hstop : (false || r.data.length == 0 ||
          (httpHeadReadCompletionCondition s' false i (total + r.data.length)).2 == 0 ||
          total + r.data.length == (s'.heap i).recvBuf.length) = true := by
        rcases hends with h | h | h
        · simp [h]
        · simp [s', h]
        · rw [hbuf]
          simp [h]
      simp only [readHTTPSome]
      rw [if_pos hstop]
    rw [hhead]
    rcases handleReadHTTPHead_rejects (total + r.data.length)
      ((httpHeadReadCompletionCondition_running s' false i _).trans hr)
      ((httpHeadReadCompletionCondition_recvBuf s' false i _).trans hbuf) hrej with
      ⟨hrel, heq⟩ | ⟨hrel, hkeep⟩
    · exact .inl ⟨.inr hrel, _, hcond.trans (view_touch _ i), heq⟩
    · exact .inr ⟨by simpa using hrel, (hcond.keepsPlace i).trans hkeep⟩

/-! ## 4. Every handler -/

/-- How much the completion condition lets be read depends on the socket only. -/
theorem httpHeadReadCompletionCondition_snd (hst : s.heap = t.heap) (error : Bool) (byteNum : Nat) :
    (httpHeadReadCompletionCondition s error i byteNum).2 =
      (httpHeadReadCompletionCondition t error i byteNum).2 := by
  simp only [httpHeadReadCompletionCondition, hst]
  split
  · rfl
  · split
    · rfl
    · split <;> rfl

theorem fails_pop {cfg : Config} {op : Op} {r : Completion} (h : Fails cfg s op r) :
    Fails cfg (pop s op) op r := by
  cases op with
  | readHTTPHead k total limit =>
    refine h.imp id fun hhead => ⟨hhead.1.imp id fun hend => hend.imp (fun hc => ?_) id, hhead.2⟩
    refine Eq.trans ?_ hc
    refine httpHeadReadCompletionCondition_snd ?_ false _
    rfl
  | _ => exact h

theorem releases_pop {cfg : Config} {op : Op} {r : Completion} :
    Releases cfg (pop s op) op r ↔ Releases cfg s op r := by
  cases op <;> exact Iff.rfl


/-- A handler that fails destroys its socket, or leaves it where it is. -/
theorem handle_fails {cfg : Config} {op : Op} {r : Completion} (hi : op.sock? = some i)
    (hr : s.running = none) (hfail : Fails cfg s op r) (h : handle cfg s op r = .ok t) :
    Releases cfg s op r ∧ (∃ u, SameViews s u ∧ t = (destroySocket u i).1) ∨
      ¬ Releases cfg s op r ∧ KeepsPlace s t i := by
  cases op with
  | connectThenWrite k buf =>
    cases hi
    refine .inl ⟨trivial, ?_⟩
    simp only [handle, handleConnectThenWrite] at h
    split at h
    · cases h
      exact ⟨s, SameViews.refl s, rfl⟩
    rename_i herr
    have hnone := hfail.resolve_left herr
    rw [hnone] at h
    cases h
    exact ⟨_, view_touch s i, rfl⟩
  | writeThenReadL k =>
    cases hi
    have herr : r.error = true := hfail
    cases h
    refine .inr ⟨id, ?_⟩
    rw [handleWriteThenReadL, if_pos herr]
    exact (SameViews.refl s).keepsPlace i
  | writeThenReadHTTPHead k =>
    cases hi
    have herr : r.error = true := hfail
    cases h
    refine .inl ⟨trivial, s, SameViews.refl s, ?_⟩
    rw [handleWriteThenReadHTTPHead, if_pos herr]
  | writeThenClose k =>
    cases hi
    cases h
    exact .inl ⟨trivial, s, SameViews.refl s, rfl⟩
  | anythingThenNothing k =>
    cases hi
    have herr : r.error = true := hfail
    cases h
    refine .inl ⟨trivial, s, SameViews.refl s, ?_⟩
    rw [handleAnythingThenNothing, if_pos herr]
  | readLThenReadV k =>
    cases hi
    have herr : r.error = true := hfail
    obtain ⟨s', hs', rfl⟩ := map_eq_ok.mp h
    refine .inl ⟨trivial, s', fun j => view_storeRecv s i j hs', ?_⟩
    rw [handleReadLThenReadV, if_pos herr]
  | readVThenProcess k len =>
    cases hi
    have herr : r.error = true := hfail
    simp only [handle] at h
    split at h
    · cases h
    rename_i s' hs'
    rw [handleReadVThenProcess, if_pos herr] at h
    cases h
    exact .inl ⟨trivial, s', fun j => view_storeRecv s i j hs', rfl⟩
  | readHTTPHead k total limit =>
    cases hi
    obtain ⟨s', hs', rfl⟩ := map_eq_ok.mp h
    obtain rfl := storeRecv_ok hs'
    exact readHTTPSome_fails hr hfail
  | readHTTPContent k o c =>
    cases hi
    have herr : r.error = true := hfail
    obtain ⟨s', hs', rfl⟩ := map_eq_ok.mp h
    refine .inr ⟨id, ?_⟩
    rw [handleReadHTTPContentThenProcess, if_pos herr]
    have hstore : SameViews s s' := fun j => view_storeRecv s i j hs'
    exact hstore.keepsPlace i
  | accept k => cases hi
  | timeout => cases hi

end

/-- **A failed completion releases its connection exactly when its branch does.**  From every
reachable state, after a handler that was called with an error or with a head to be rejected, the
connection is closed, in no map and not leaked, if and only if it was so before or the branch taken
calls `DestroySocket`. -/
theorem released_iff (cfg : Config) (es : List Event) (s t : Skeleton) (op : Op) (r : Completion)
    (i : SockId) (hrun : exec (step cfg) init es = .ok s)
    (hst : step cfg s (.complete op r) = .ok t) (hi : op.sock? = some i)
    (hfail : Fails cfg s op r) :
    Released t i ∧ ¬ Leaked t i ↔ Released s i ∨ Releases cfg s op r := by
  have hleak : Released t i ∧ ¬ Leaked t i ↔ Released t i :=
    and_iff_left_of_imp Released.not_leaked
  rw [hleak]
  simp only [step] at hst
  split at hst
  case isFalse => cases hst
  rename_i hen
  obtain ⟨-, hrunning, hp, -⟩ := hen
  have hpop := keepsPlace_pop s op i
  have hmem : op ∈ (view s i).ops := by simp [view, hp, hi]
  have hrunning : (pop s op).running = none := by
    rw [Option.isNone_iff_eq_none] at hrunning
    exact hrunning
  rcases handle_fails hi hrunning (fails_pop hfail) hst with
    ⟨hyes, u, hu, rfl⟩ | ⟨hno, hkeep⟩
  · have hreleased : Released (destroySocket u i).1 i :=
      destroySocket_released (exec_kinds hrun i) hmem (hpop.trans (hu.keepsPlace i))
    exact ⟨fun _ => .inr (releases_pop.mp hyes), fun _ => hreleased⟩
  · rw [(hpop.trans hkeep).released_congr]
    exact ⟨.inl, fun h => h.resolve_right fun hyes => hno (releases_pop.mpr hyes)⟩

/-- A request brings up connection 0. -/
def connectOnce : List Event :=
  [.request (.toWriteThenRead ⟨9, 90⟩ .lv [0, 0, 0, 4] false), .run,
    .complete (.connectThenWrite 0 [0, 0, 0, 4]) { localEndpoint := some ⟨1, 5000⟩ }]

/-- The request is written, and the read of its response fails. -/
theorem read_error_releases :
    ∃ s t, exec (step Config.lv) init (connectOnce ++ [.complete (.writeThenReadL 0) {}]) = .ok s ∧
      step Config.lv s (.complete (.readLThenReadV 0) { error := true }) = .ok t ∧
      Released t 0 := by
  obtain ⟨s, hs⟩ : ∃ s, exec (step Config.lv) init
      (connectOnce ++ [.complete (.writeThenReadL 0) {}]) = .ok s := ⟨_, rfl⟩
  obtain ⟨t, ht⟩ : ∃ t, step Config.lv s (.complete (.readLThenReadV 0) { error := true }) =
      .ok t := by
    cases hs
    exact ⟨_, rfl⟩
  have h := released_iff Config.lv _ s t (.readLThenReadV 0) { error := true } 0 hs ht rfl rfl
  exact ⟨s, t, hs, ht, (h.mpr (.inr trivial)).1⟩

/-- The write of the request fails: the connection stays open, in the pool and in use, and nothing
will ever happen on it. -/
theorem write_error_leaks :
    ∃ s t, exec (step Config.lv) init connectOnce = .ok s ∧
      step Config.lv s (.complete (.writeThenReadL 0) { error := true }) = .ok t ∧
      (t.heap 0).closed = false ∧ Leaked t 0 ∧ ¬ Released t 0 := by
  refine ⟨_, _, rfl, rfl, rfl, ⟨.inl ⟨⟨9, 90⟩, ?_⟩, rfl, by decide⟩, fun h => ?_⟩
  · exact List.mem_cons_self
  · cases h.closed

end Kknf.Asio2
