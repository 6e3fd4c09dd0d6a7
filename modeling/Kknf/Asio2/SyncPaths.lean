/-
# The three blocking request paths

A blocking request writes, reads the four bytes of the length, makes `buf_to_fill` as long as the
frame, copies the four bytes to its front and reads the rest of the frame.  `aanf/asio-based2` has
this decoder three times: in `Skeleton::ToWriteThenReadSync` and in the two
`Client::ToWriteThenReadSync`.

The copies differ in where the rest goes.  The one for an existing connection reads it to
`&buf_to_fill[4]`, and hands out every frame as it came.  The other two read it to `&len_field[4]`,
behind the four bytes of the length: a frame that has a rest is written outside, and never gets to
`buf_to_fill`.  So the three agree exactly on the frames without a rest (`sync_paths_iff`).
-/
import Kknf.Asio2.LengthGuard
import Kknf.Asio2.LVFraming

namespace Kknf.Asio2

open Run

/-! ## 1. A stream that starts with a frame -/

/-- What the two reads take off a stream: four bytes, and as many as their number says less four. -/
def syncReads (cfg : Config) (stream : List Byte) : List Byte × List Byte :=
  (stream.take 4, (stream.drop 4).take (sizeT (lengthField cfg (stream.take 4) - 4)))

/-- The calls of the client when nothing fails and `stream` comes in. -/
def streamAnswers (cfg : Config) (stream : List Byte) : SyncAnswers where
  header := some (syncReads cfg stream).1
  body := (syncReads cfg stream).2

/-- And those of the skeleton. -/
def streamOutcome (cfg : Config) (stream : List Byte) : SyncOutcome where
  header := some (syncReads cfg stream).1
  body := some (syncReads cfg stream).2

/-- A call returns 0 and hands out the frame; it has written nowhere else. -/
def Delivers {σ φ : Type} (r : Except φ (σ × Int × List Byte)) (f : List Byte) : Prop :=
  ∃ s, r = .ok (s, 0, f)

/-- The three paths hand out the frame at the front of the stream, and take nothing but it. -/
structure SyncPathsAgree (cfg : Config) (c : Client) (s : Skeleton) (i : SockId)
    (remote : TCPEndpoint)
    (buf bufToFill f rest : List Byte) : Prop where
  taken : (syncReads cfg (f ++ rest)).1 ++ (syncReads cfg (f ++ rest)).2 = f
  connecting : Delivers
    (c.toConnectThenReadSync cfg remote buf bufToFill (streamAnswers cfg (f ++ rest))) f
  connected : Delivers (c.toWriteThenReadSync cfg i buf bufToFill (streamAnswers cfg (f ++ rest))) f
  skeleton : Delivers
    (toWriteThenReadSync cfg s remote .lv buf (streamOutcome cfg (f ++ rest)) bufToFill) f

section

variable {cfg : Config} {f : List Byte}

theorem Delivers.not_error {σ φ : Type} {e : φ} :
    ¬ Delivers (.error e : Except φ (σ × Int × List Byte)) f := by
  rintro ⟨s, hs⟩
  cases hs

/-- The length that is read is that of the frame. -/
theorem Frame.lengthField_take (hf : Frame cfg f) : Asio2.lengthField cfg (f.take 4) = f.length :=
  hf.lengthField hf.length_take.ge (by rw [List.take_take, min_self])

theorem Frame.not_refused (hf : Frame cfg f) : ¬ Refused cfg (f.take 4) := by
  have hfits := hf.fits
  unfold Refused
  rw [hf.lengthField_take]
  omega

theorem Frame.sizeT_rest (hf : Frame cfg f) : sizeT ((f.length : Int) - 4) = f.length - 4 := by
  have hfour := hf.header
  have hfits := hf.fits
  have hmax := cfg.maxRecvBufSize_int
  rw [sizeT_eq (by omega) (by omega)]
  omega

/-- The two reads take exactly the frame. -/
theorem Frame.reads (hf : Frame cfg f) (rest : List Byte) :
    syncReads cfg (f ++ rest) = (f.take 4, f.drop 4) := by
  have htake : (f ++ rest).take 4 = f.take 4 := List.take_append_of_le_length hf.header
  have hdrop : (f ++ rest).drop 4 = f.drop 4 ++ rest := List.drop_append_of_le_length hf.header
  have hlen : (f.drop 4).length = f.length - 4 := List.length_drop
  unfold syncReads
  rw [htake, hdrop, hf.lengthField_take, hf.sizeT_rest, ← hlen, List.take_left]

/-- The header at the front of `buf_to_fill`, and behind it the frame's rest. -/
theorem Frame.filled (hf : Frame cfg f) (bufToFill : List Byte) :
    overwrite (overwrite (resize 0 bufToFill f.length) 0 (f.take 4)) 4 (f.drop 4) = f := by
  have hfour := hf.header
  have hlen : (resize 0 bufToFill f.length).length = f.length := length_resize 0 bufToFill f.length
  have hfront : overwrite (resize 0 bufToFill f.length) 0 (f.take 4) =
      f.take 4 ++ (resize 0 bufToFill f.length).drop 4 := by
    simp [overwrite, hf.length_take]
  have hover := overwrite_append (f.take 4) ((resize 0 bufToFill f.length).drop 4) (f.drop 4)
  rw [hf.length_take] at hover
  have hnone : ((resize 0 bufToFill f.length).drop 4).drop (f.drop 4).length = [] := by
    refine List.drop_eq_nil_of_le ?_
    rw [List.length_drop, List.length_drop, hlen]
  rw [hfront, hover, hnone, List.append_nil, List.take_append_drop]

end

/-! ## 2. The three paths -/

section

variable {cfg : Config} {f : List Byte}

theorem Frame.streamAnswers (hf : Frame cfg f) (rest : List Byte) :
    Asio2.streamAnswers cfg (f ++ rest) = { header := some (f.take 4), body := f.drop 4 } := by
  unfold Asio2.streamAnswers
  rw [hf.reads]

theorem Frame.streamOutcome (hf : Frame cfg f) (rest : List Byte) :
    Asio2.streamOutcome cfg (f ++ rest) =
      { header := some (f.take 4), body := some (f.drop 4) } := by
  unfold Asio2.streamOutcome
  rw [hf.reads]

/-- The header goes to the front of `buf_to_fill`. -/
theorem Frame.store_header (hf : Frame cfg f) (bufToFill : List Byte) :
    Client.store (resize 0 bufToFill f.length) 0 (f.take 4) =
      .ok (overwrite (resize 0 bufToFill f.length) 0 (f.take 4)) := by
  have hfour := hf.header
  refine if_pos ?_
  rw [length_resize, hf.length_take]
  omega

/-- The read of the rest succeeds where there is room for it. -/
theorem Frame.read_rest (hf : Frame cfg f) (target : List Byte) :
    Client.read target 4 (sizeT ((f.length : Int) - 4))
        { header := some (f.take 4), body := f.drop 4 } =
      if f.length ≤ target.length then .ok (overwrite target 4 (f.drop 4)) else
        .error .overrun := by
  have hfour := hf.header
  have hlen : (f.drop 4).length = f.length - 4 := List.length_drop
  have hend : 4 + (f.length - 4) = f.length := by omega
  unfold Client.read Client.store
  rw [hf.sizeT_rest]
  simp only [hlen, le_refl, implies_true, and_self, if_true, hend]

/-- A frame without a rest is all in the header. -/
theorem Frame.filled_header (hf : Frame cfg f) (hfour : f.length = 4) (bufToFill : List Byte) :
    overwrite (resize 0 bufToFill f.length) 0 (f.take 4) = f := by
  have hnone : f.drop 4 = [] := List.drop_eq_nil_of_le hfour.le
  have hfilled := hf.filled bufToFill
  rw [hnone] at hfilled
  simpa [overwrite] using hfilled

/-- **On an existing connection** every frame is handed out. -/
theorem Frame.delivers_connected (hf : Frame cfg f) (rest : List Byte) (c : Client) (i : SockId)
    (buf bufToFill : List Byte) :
    Delivers
      (c.toWriteThenReadSync cfg i buf bufToFill (Asio2.streamAnswers cfg (f ++ rest))) f := by
  have hlet := hf.not_refused
  unfold Refused at hlet
  rw [hf.lengthField_take] at hlet
  have hlen : (overwrite (resize 0 bufToFill f.length) 0 (f.take 4)).length = f.length := by
    rw [length_overwrite, length_resize]
    have hfour := hf.header
    rw [length_resize, hf.length_take]
    omega
  have hread := hf.read_rest (overwrite (resize 0 bufToFill f.length) 0 (f.take 4))
  rw [if_pos hlen.ge, hf.filled] at hread
  refine ⟨c.setSock i fun k => { k with sendBuf := buf }, ?_⟩
  rw [hf.streamAnswers]
  unfold Client.toWriteThenReadSync
  dsimp only
  rw [if_neg (by decide), if_neg (by rw [hf.length_take]; decide), hf.lengthField_take, if_neg hlet,
    Int.toNat_natCast, hf.store_header]
  dsimp only
  rw [hread]
  rfl

/-- **On a new connection of the client** only a frame without a rest is. -/
theorem Frame.delivers_connecting_iff (hf : Frame cfg f) (rest : List Byte) (c : Client)
    (remote : TCPEndpoint) (buf bufToFill : List Byte) :
    Delivers (c.toConnectThenReadSync cfg remote buf bufToFill
      (Asio2.streamAnswers cfg (f ++ rest))) f ↔ f.length = 4 := by
  have hheader := hf.header
  have hlet := hf.not_refused
  unfold Refused at hlet
  rw [hf.lengthField_take] at hlet
  have hread := hf.read_rest (f.take 4)
  rw [hf.length_take] at hread
  rw [hf.streamAnswers]
  unfold Client.toConnectThenReadSync
  dsimp only
  rw [if_neg (by decide), if_neg (by decide), if_neg (by rw [hf.length_take]; decide),
    hf.lengthField_take, if_neg hlet, Int.toNat_natCast, hf.store_header]
  dsimp only
  rw [hread]
  constructor
  · intro hdelivers
    by_contra hlong
    rw [if_neg (by omega)] at hdelivers
    exact hdelivers.not_error
  · intro hfour
    rw [if_pos hfour.le, hf.filled_header hfour]
    exact ⟨_, rfl⟩

/-- **And so it is in the skeleton.** -/
theorem Frame.delivers_skeleton_iff (hf : Frame cfg f) (rest : List Byte) (s : Skeleton)
    (remote : TCPEndpoint) (buf bufToFill : List Byte)
    (hready : SyncReady s remote .lv (Asio2.streamOutcome cfg (f ++ rest))) :
    Delivers (toWriteThenReadSync cfg s remote .lv buf (Asio2.streamOutcome cfg (f ++ rest))
      bufToFill) f ↔
      f.length = 4 := by
  have hheader := hf.header
  have hlet := hf.not_refused
  unfold Refused at hlet
  rw [hf.lengthField_take] at hlet
  have hlen : (f.drop 4).length = f.length - 4 := List.length_drop
  have hread : ∀ t i,
      Delivers (readSync cfg t i (Asio2.streamOutcome cfg (f ++ rest)) bufToFill) f ↔
      f.length = 4 := by
    intro t i
    rw [hf.streamOutcome]
    unfold readSync
    dsimp only
    rw [if_neg (by rw [hf.length_take]; decide), hf.lengthField_take, if_neg hlet,
      if_neg (by omega), Int.toNat_natCast, if_neg (by rw [hlen]; simp), hlen]
    constructor
    · intro hdelivers
      by_contra hlong
      rw [if_pos (by omega)] at hdelivers
      exact hdelivers.not_error
    · intro hfour
      rw [if_neg (by omega), hf.filled_header hfour]
      exact ⟨t, rfl⟩
  obtain ⟨-, hwrite, hfound⟩ := hready
  unfold toWriteThenReadSync
  cases hidle : findIdleTCPClientSocket s remote with
  | some i =>
    rw [hidle] at hfound
    dsimp only
    rw [if_neg (by rw [hfound]; decide), if_neg (by decide), if_pos hwrite]
    exact hread _ i
  | none =>
    rw [hidle] at hfound
    dsimp only at hfound ⊢
    rw [if_neg (by decide), hfound, if_neg (by decide), if_pos hwrite]
    exact hread _ s.next

end

/-! ## 3. When the three agree -/

/-- **When the three paths agree**: for every stream that starts with a frame, and whatever is in
`buf_to_fill` before, the three hand it out exactly when it has nothing behind its length.  The path
for an existing connection hands out every frame. -/
theorem sync_paths_iff (cfg : Config) (c : Client) (s : Skeleton) (i : SockId)
    (remote : TCPEndpoint) (buf bufToFill f rest : List Byte) (hf : Frame cfg f)
    (hready : SyncReady s remote .lv (streamOutcome cfg (f ++ rest))) :
    (SyncPathsAgree cfg c s i remote buf bufToFill f rest ↔ f.length = 4) ∧
      Delivers (c.toWriteThenReadSync cfg i buf bufToFill (streamAnswers cfg (f ++ rest))) f := by
  have hconnected := hf.delivers_connected rest c i buf bufToFill
  refine ⟨?_, hconnected⟩
  constructor
  · intro h
    exact (hf.delivers_connecting_iff rest c remote buf bufToFill).mp h.connecting
  · intro hfour
    refine ⟨?_, ?_, hconnected, ?_⟩
    · rw [hf.reads]
      exact List.take_append_drop 4 f
    · exact (hf.delivers_connecting_iff rest c remote buf bufToFill).mpr hfour
    · exact (hf.delivers_skeleton_iff rest s remote buf bufToFill hready).mpr hfour

/-- An empty frame, and bytes of the next one behind it. -/
theorem empty_frame_agrees :
    SyncPathsAgree Config.lv Client.init init 0 ⟨2, 80⟩ [] [7] [0, 0, 0, 4] [0, 0] ∧
      Delivers (Client.init.toWriteThenReadSync Config.lv 0 [] [7]
        (streamAnswers Config.lv ([0, 0, 0, 4] ++ [0, 0]))) [0, 0, 0, 4] := by
  have hf : Frame Config.lv [0, 0, 0, 4] := ⟨by decide, by decide, by decide +kernel⟩
  have h := sync_paths_iff Config.lv Client.init init 0 ⟨2, 80⟩ [] [7] [0, 0, 0, 4] [0, 0] hf
    ⟨rfl, rfl, rfl⟩
  exact ⟨h.1.mpr rfl, h.2⟩

/-- A frame of one byte: two of the paths write it outside their buffers. -/
theorem one_byte_frame_written_outside :
    Frame Config.lv [0, 0, 0, 5, 9] ∧
      SyncReady init ⟨2, 80⟩ .lv (streamOutcome Config.lv [0, 0, 0, 5, 9]) ∧
      Client.init.toConnectThenReadSync Config.lv ⟨2, 80⟩ [] []
        (streamAnswers Config.lv [0, 0, 0, 5, 9]) = .error .overrun ∧
      toWriteThenReadSync Config.lv init ⟨2, 80⟩ .lv [] (streamOutcome Config.lv [0, 0, 0, 5, 9]) =
        .error .overrun ∧
      ¬ SyncPathsAgree Config.lv Client.init init 0 ⟨2, 80⟩ [] [] [0, 0, 0, 5, 9] [] := by
  have hconnecting : Client.init.toConnectThenReadSync Config.lv ⟨2, 80⟩ [] []
      (streamAnswers Config.lv [0, 0, 0, 5, 9]) = .error .overrun :=
    map_eq_error (f := fun _ => ()) (by decide +kernel)
  refine ⟨⟨by decide, by decide, by decide +kernel⟩, ⟨rfl, rfl, rfl⟩, hconnecting, ?_, fun h => ?_⟩
  · exact map_eq_error (f := fun _ => ()) (by decide +kernel)
  · obtain ⟨t, ht⟩ := h.connecting
    rw [List.append_nil, hconnecting] at ht
    cases ht

end Kknf.Asio2
