/-
# Growing the memory pool

`GetMemBlock` returns `-2` when the last chunk has no room for the request, and the header says what
to do then: call `EnlargeMemPool` first.  But `EnlargeMemPool` asserts that NO byte is left, and the
last chunk may well have some left, only too few for the request.  Nothing but another, smaller
request can use them up, so the advice works exactly when there are none (`growth_protocol_iff`).

As the source stands, with chunks that are only reserved, there are always bytes left: no block is
ever cut off a chunk of size 0 (`Reserved`), so that the assertion fails after every `-2`.
-/
import Kknf.LibEvent.Carving

namespace Kknf.LibEvent

open Kknf.Run

/-! ## 1. Chunks of size 0 -/

/-- Where a pool stands whose chunks have size 0: it has at most one chunk, all of it is left, and
there are no blocks. -/
structure Reserved (s : System) : Prop where
  chunks : s.pool.memPool = [] ∧ s.pool.unorganizedByteNum = 0 ∨
    ∃ n, s.pool.memPool = [n] ∧ 0 < s.pool.unorganizedByteNum
  pos : s.pool.freeItemPos = 0
  start : s.pool.freeStartPos = 0
  lists : ∀ l ∈ s.pool.recycledBlockLists, l = []
  held : s.held = []

/-- `GetMemBlock` on such a pool gives nothing. -/
theorem Reserved.get {c : Config} (hc : c.chunkSize = .reserved) {s : System} (h : Reserved s)
    {size r : Int} {mb : Option MemBlock} {mp : MemPool}
    (hget : getMemBlock c s.pool size = .ok (r, mb, mp)) : mb = none ∧ r ≠ 0 ∧
      (r = -2 → 0 < s.pool.unorganizedByteNum) ∧ mp = s.pool.counted mp.blockGetNum := by
  unfold getMemBlock at hget
  split at hget
  · cases hget
    exact ⟨rfl, by decide, fun h => absurd h (by decide), rfl⟩
  rename_i hsize
  have hreal : 0 < roundedSize c size.toNat := roundedSize_pos c (by omega)
  split at hget
  · cases hget
  rename_i realSize hround
  obtain ⟨-, rfl⟩ := roundUp_eq_ok.mp hround
  dsimp only at hget
  split at hget
  swap
  · cases hget
  rename_i num l hnum hlist
  have hnil : l = [] := h.lists l (List.mem_of_getElem? hlist)
  subst hnil
  dsimp only [newMemBlock] at hget
  rcases h.chunks with ⟨hchunks, -⟩ | ⟨n, hchunks, hleft⟩
  · simp only [hchunks, List.getElem?_nil] at hget
    cases hget
  · have hzero : c.size n = 0 := by simp [Config.size, hc]
    have hint : int32 ((0 : Nat) - (0 : Nat)) = 0 := int32_eq (by decide) (by decide)
    have hlt : (0 : Int) < roundedSize c size.toNat := by omega
    simp only [hchunks, h.pos, h.start, List.getElem?_cons_zero, hzero, hint, if_pos hlt,
      List.length_singleton, Nat.sub_self, if_true] at hget
    cases hget
    refine ⟨rfl, by decide, fun _ => hleft, ?_⟩
    simp only [MemPool.counted, hchunks, h.pos, h.start]

theorem step_reserved {c : Config} (hc : c.chunkSize = .reserved) {s t : System} {e : Event}
    (h : Reserved s) (ht : step c s e = .ok t) : Reserved t := by
  cases e with
  | getMemBlock size =>
    obtain ⟨r, mb, mp, hget, rfl⟩ := step_getMemBlock ht
    obtain ⟨rfl, -, -, hmp⟩ := h.get hc hget
    rw [hmp]
    exact ⟨h.chunks, h.pos, h.start, h.lists, by simpa using h.held⟩
  | returnMemBlock mb => simp [step, h.held] at ht
  | enlargeMemPool n =>
    obtain ⟨r, mp, henlarge, rfl⟩ := step_enlargeMemPool ht
    by_cases hr : r = 0
    swap
    · rw [enlargeMemPool_ne_zero henlarge hr]
      exact h
    subst hr
    obtain ⟨hzero, hn, -, rfl⟩ := enlargeMemPool_eq_zero.mp henlarge
    have hpos := roundedSize_pos c (Int.pos_iff_toNat_pos.mp hn)
    rcases h.chunks with ⟨hchunks, -⟩ | ⟨m, -, hleft⟩
    · refine ⟨Or.inr ⟨roundedSize c n.toNat, ?_, ?_⟩, h.pos, h.start, h.lists, h.held⟩
      · simp [MemPool.enlarged, hchunks]
      · simp only [MemPool.enlarged]
        omega
    · omega

/-! ## 2. Chunks with their sizes -/

theorem step_shape {c : Config} (hc : c.chunkSize = .sized) {s t : System} {e : Event}
    (h : Shape s.pool) (ht : step c s e = .ok t) : Shape t.pool := by
  cases e with
  | getMemBlock size =>
    obtain ⟨r, mb, mp, hget, rfl⟩ := step_getMemBlock ht
    exact getMemBlock_shape hc h hget
  | returnMemBlock mb =>
    obtain ⟨l, -, -, -, rfl⟩ := step_returnMemBlock ht
    exact h.lists _
  | enlargeMemPool n =>
    obtain ⟨r, mp, henlarge, rfl⟩ := step_enlargeMemPool ht
    exact enlargeMemPool_shape h henlarge

/-- A pool with a fresh chunk behind a used up one, and a request that fits into it. -/
theorem getMemBlock_fresh {c : Config} (hc : c.chunkSize = .sized) {mp : MemPool} (h : Shape mp)
    {size : Int} (hsize : 0 < size ∧ size ≤ c.maxBlockSize)
    (hsum : size.toNat + c.blockSizeStep < 2 ^ 31)
    (hlist : mp.recycledBlockLists[roundedSize c size.toNat / c.blockSizeStep]? = some [])
    (hclass : roundedSize c size.toNat / c.blockSizeStep < mp.blockGetNum.length)
    (hpos : mp.freeItemPos + 2 = mp.memPool.length)
    (hfull : mp.freeStartPos = mp.chunk mp.freeItemPos) :
    (∃ mb mp', getMemBlock c mp size = .ok (0, some mb, mp')) ↔
      mp.blockGetNum.length * c.blockSizeStep < 2 ^ 31 := by
  have hreal : 0 < roundedSize c size.toNat := roundedSize_pos c (by omega)
  have hvalid : ¬ (size ≤ 0 ∨ size > c.maxBlockSize) := by omega
  have hnum := List.getElem?_eq_getElem hclass
  obtain ⟨nums, hlen, hget⟩ : ∃ nums, nums.length = mp.blockGetNum.length ∧
      getMemBlock c mp size = newMemBlock c (mp.counted nums)
        (roundedSize c size.toNat / c.blockSizeStep) (roundedSize c size.toNat) := by
    simp only [getMemBlock, if_neg hvalid, roundUp_eq_ok.mpr ⟨hsum, rfl⟩, hnum, hlist]
    exact ⟨_, List.length_set, rfl⟩
  rw [hget, newMemBlock_full hc (h.counted nums) hlist hreal hpos hfull rfl]
  simp only [MemPool.counted, hlen]
  by_cases hunit : 2 ^ 31 ≤ mp.blockGetNum.length * c.blockSizeStep
  · rw [if_pos hunit]
    simp only [reduceCtorEq, exists_false, false_iff]
    omega
  · rw [if_neg hunit]
    exact ⟨fun _ => by omega, fun _ => ⟨_, _, rfl⟩⟩

/-! ## 3. When the pool can be grown -/

/-- What the header promises after a `-2`: no memory has been lost (only the counters have changed),
`EnlargeMemPool` adds a chunk, and then the request is served. -/
def Grows (c : Config) (mp mp₁ : MemPool) (size n : Int) : Prop :=
  mp₁ = mp.counted mp₁.blockGetNum ∧ ∃ mp₂, enlargeMemPool c mp₁ n = .ok (0, mp₂) ∧
    ∃ mb mp₃, getMemBlock c mp₂ size = .ok (0, some mb, mp₃)

/-- After a `-2` with nothing left, the new chunk serves the request. -/
theorem served_after_enlarge {c : Config} (hc : c.chunkSize = .sized) {mp : MemPool} (h : Shape mp)
    {size n : Int} {nums : List Nat} (hlen : nums.length = mp.blockGetNum.length)
    (hsize : Permitted c size (roundedSize c size.toNat)) (hn : size ≤ n)
    (hlist : mp.recycledBlockLists[roundedSize c size.toNat / c.blockSizeStep]? = some [])
    (hclass : roundedSize c size.toNat / c.blockSizeStep < nums.length)
    (hlast : mp.freeItemPos + 1 = mp.memPool.length) (hzero : mp.unorganizedByteNum = 0)
    (hsum : n.toNat + c.blockSizeStep < 2 ^ 31) :
    (∃ mb mp₃, getMemBlock c ((mp.counted nums).enlarged (roundedSize c n.toNat)) size
        = .ok (0, some mb, mp₃)) ↔
      (mp.blockGetNum.length + 1) * c.blockSizeStep < 2 ^ 31 := by
  have hpos : 0 < n := lt_of_lt_of_le hsize.pos hn
  have hshape : Shape ((mp.counted nums).enlarged (roundedSize c n.toNat)) :=
    (h.counted nums).enlarged hzero (roundedSize_pos c (Int.pos_iff_toNat_pos.mp hpos))
      ((roundedSize_spec c n.toNat).2.2.trans hsum)
  have hfull : mp.freeStartPos = ((mp.counted nums).enlarged (roundedSize c n.toNat)).chunk
      mp.freeItemPos := by
    simp only [MemPool.chunk, MemPool.enlarged, MemPool.counted]
    rw [List.getD_append _ _ _ _ (by omega)]
    rcases h.frontier with ⟨hchunks, -, -, -⟩ | ⟨-, hleft⟩ | ⟨hpos', -, -⟩
    · simp [hchunks] at hlast
    · unfold MemPool.chunk at hleft
      omega
    · omega
  have hfresh := getMemBlock_fresh hc hshape ⟨hsize.pos, hsize.le⟩ (by omega) hlist
    (by simp only [MemPool.enlarged, MemPool.counted, List.length_append]; omega)
    (by simp only [MemPool.enlarged, MemPool.counted, List.length_append, List.length_singleton]
        omega) hfull
  rw [hfresh]
  simp only [MemPool.enlarged, MemPool.counted, List.length_append, List.length_singleton, hlen]

theorem grows_iff_sized {c : Config} (hc : c.chunkSize = .sized) {mp mp₁ : MemPool} (h : Shape mp)
    {size n : Int} (hn : size ≤ n) (hget : getMemBlock c mp size = .ok (-2, none, mp₁)) :
    Grows c mp mp₁ size n ↔ mp.unorganizedByteNum = 0 ∧ n + c.blockSizeStep < 2 ^ 31 ∧
      (mp.blockGetNum.length + 1) * c.blockSizeStep < 2 ^ 31 := by
  obtain ⟨nums, hlen, hgot⟩ := getMemBlock_got hc h hget
  cases hgot with
  | exhausted hsize hlist hclass hlast hroom =>
    have hpos : 0 < n := lt_of_lt_of_le hsize.pos hn
    constructor
    · rintro ⟨-, mp₂, henlarge, hserved⟩
      obtain ⟨hzero, -, hsum, rfl⟩ := enlargeMemPool_eq_zero.mp henlarge
      have hunit := (served_after_enlarge hc h hlen hsize hn hlist hclass hlast hzero hsum).mp
        hserved
      exact ⟨hzero, by omega, hunit⟩
    · rintro ⟨hzero, hsum, hunit⟩
      have hsum' : n.toNat + c.blockSizeStep < 2 ^ 31 := by omega
      have hserved := (served_after_enlarge hc h hlen hsize hn hlist hclass hlast hzero hsum').mpr
        hunit
      exact ⟨rfl, _, enlargeMemPool_eq_zero.mpr ⟨hzero, hpos, hsum', rfl⟩, hserved⟩

/-- In every state of a run, the pool has one of the two shapes. -/
theorem reachable_shape {c : Config} {init r : Int} {mp : MemPool}
    (hcreate : createMemPool c none init = .ok (r, mp)) {es : List Event} {s : System}
    (hrun : exec (step c) ⟨mp, []⟩ es = .ok s) :
    (c.chunkSize = .sized → Shape s.pool) ∧ (c.chunkSize = .reserved → Reserved s) := by
  have hstart : step c ⟨MemPool.new c, []⟩ (.enlargeMemPool init) = .ok ⟨mp, []⟩ := by
    unfold createMemPool at hcreate
    simp only [step, hcreate]
  constructor
  · intro hc
    have hmp : Shape mp := step_shape hc (s := ⟨MemPool.new c, []⟩)
      ⟨.none rfl rfl rfl rfl, by simp [MemPool.new], Nat.two_pow_pos 31⟩ hstart
    exact exec_induction (P := fun _ t => Shape t.pool) hmp
      (fun _ _ _ _ _ _ ht hu => step_shape hc ht hu) hrun
  · intro hc
    have hnew : Reserved ⟨MemPool.new c, []⟩ :=
      ⟨Or.inl ⟨rfl, rfl⟩, rfl, rfl, fun l hl => List.eq_of_mem_replicate hl, rfl⟩
    exact exec_induction (P := fun _ t => Reserved t) (step_reserved hc hnew hstart)
      (fun _ _ _ _ _ _ ht hu => step_reserved hc ht hu) hrun

/-- **The advice of the header is good exactly when no byte is left in the pool** (and the sums stay
`int`s).  This is for both readings of the size of a chunk; as the source stands there is always
something left after a `-2`, so that it is never good. -/
theorem growth_protocol_iff (c : Config) (init r : Int) (mp : MemPool)
    (hcreate : createMemPool c none init = .ok (r, mp)) (es : List Event) (s : System)
    (hrun : exec (step c) ⟨mp, []⟩ es = .ok s) (size : Int) (mp₁ : MemPool)
    (hget : getMemBlock c s.pool size = .ok (-2, none, mp₁)) (n : Int) (hn : size ≤ n) :
    (Grows c s.pool mp₁ size n ↔ s.pool.unorganizedByteNum = 0 ∧ n + c.blockSizeStep < 2 ^ 31 ∧
      (s.pool.blockGetNum.length + 1) * c.blockSizeStep < 2 ^ 31) ∧
    (c.chunkSize = .reserved → ¬ Grows c s.pool mp₁ size n) := by
  obtain ⟨hsized, hreserved⟩ := reachable_shape hcreate hrun
  have hnever : c.chunkSize = .reserved →
      0 < s.pool.unorganizedByteNum ∧ ¬ Grows c s.pool mp₁ size n := by
    intro hc
    obtain ⟨-, -, hleft, -⟩ := (hreserved hc).get hc hget
    refine ⟨hleft rfl, ?_⟩
    rintro ⟨hsame, mp₂, henlarge, -⟩
    have hzero := (enlargeMemPool_eq_zero.mp henlarge).1
    rw [hsame] at hzero
    exact absurd hzero (hleft rfl).ne'
  refine ⟨?_, fun hc => (hnever hc).2⟩
  cases hc : c.chunkSize with
  | sized => exact grows_iff_sized hc (hsized hc) hn hget
  | reserved =>
    obtain ⟨hleft, hnot⟩ := hnever hc
    exact iff_of_false hnot fun h => absurd h.1 hleft.ne'

/-- The one chunk of 10 bytes is used up; a request for 20 is refused, and is served after the pool
has been enlarged. -/
theorem growth_of_used_up_pool : ∃ mp s mp₁, createMemPool tens none 10 = .ok (0, mp) ∧
    exec (step tens) ⟨mp, []⟩ [.getMemBlock 10] = .ok s ∧
      getMemBlock tens s.pool 20 = .ok (-2, none, mp₁) ∧ Grows tens s.pool mp₁ 20 20 := by
  obtain ⟨mp, hmp⟩ : ∃ mp, mp = (MemPool.new tens).enlarged 10 := ⟨_, rfl⟩
  have hcreate : createMemPool tens none 10 = .ok (0, mp) := by
    rw [hmp]
    decide +kernel
  have hends : (exec (step tens) ⟨mp, []⟩ [.getMemBlock 10]).map (fun s =>
      ((getMemBlock tens s.pool 20).map (fun q => (q.1, q.2.1)), s.pool.unorganizedByteNum,
        s.pool.blockGetNum.length)) = .ok (.ok (-2, none), 0, 12) := by
    rw [hmp]
    decide +kernel
  obtain ⟨s, hs, hend⟩ := map_eq_ok.mp hends
  simp only [Prod.mk.injEq] at hend
  obtain ⟨hget, hleft, hnums⟩ := hend
  obtain ⟨⟨r', mb, mp₁⟩, hget', hret⟩ := map_eq_ok.mp hget
  simp only [Prod.mk.injEq] at hret
  obtain ⟨rfl, rfl⟩ := hret
  have hgrows := growth_protocol_iff tens 10 0 mp hcreate _ s hs 20 mp₁ hget' 20 (by decide)
  refine ⟨mp, s, mp₁, hcreate, hs, hget', hgrows.1.mpr ⟨hleft, by decide, ?_⟩⟩
  rw [hnums]
  decide

/-- A request for 20 of a fresh pool of 10 bytes is refused, and so is `EnlargeMemPool` then, by its
assertion: the 10 bytes are still there.  As the source stands this already happens to a request
for 10. -/
theorem enlarge_asserts_after_refusal : ∃ mp mp₁ mp' mp₁',
    createMemPool tens none 10 = .ok (0, mp) ∧
      getMemBlock tens mp 20 = .ok (-2, none, mp₁) ∧ ¬ Grows tens mp mp₁ 20 20 ∧
    createMemPool { tens with chunkSize := .reserved } none 10 = .ok (0, mp') ∧
      getMemBlock { tens with chunkSize := .reserved } mp' 10 = .ok (-2, none, mp₁') ∧
      ¬ Grows { tens with chunkSize := .reserved } mp' mp₁' 10 10 := by
  have hstuck : ∀ {c : Config} {mp mp₁ : MemPool} {size n : Int},
      mp₁.unorganizedByteNum = 10 → ¬ Grows c mp mp₁ size n := by
    rintro c mp mp₁ size n hleft ⟨-, mp₂, henlarge, -⟩
    have hzero := (enlargeMemPool_eq_zero.mp henlarge).1
    omega
  have hends : ∀ (c : Config) (size : Int), (createMemPool c none 10).map (fun p => (p.1,
      (getMemBlock c p.2 size).map fun q => (q.1, q.2.1, q.2.2.unorganizedByteNum)))
      = .ok (0, .ok (-2, none, 10)) → ∃ mp mp₁, createMemPool c none 10 = .ok (0, mp) ∧
        getMemBlock c mp size = .ok (-2, none, mp₁) ∧ mp₁.unorganizedByteNum = 10 := by
    intro c size h
    obtain ⟨⟨r, mp⟩, hcreate, hout⟩ := map_eq_ok.mp h
    rw [Prod.mk.injEq] at hout
    obtain ⟨rfl, hout⟩ := hout
    obtain ⟨⟨r', mb, mp₁⟩, hget, hret⟩ := map_eq_ok.mp hout
    simp only [Prod.mk.injEq] at hret
    obtain ⟨rfl, rfl, hleft⟩ := hret
    exact ⟨mp, mp₁, hcreate, hget, hleft⟩
  obtain ⟨mp, mp₁, hcreate, hget, hleft⟩ := hends tens 20 (by decide +kernel)
  obtain ⟨mp', mp₁', hcreate', hget', hleft'⟩ :=
    hends { tens with chunkSize := .reserved } 10 (by decide +kernel)
  exact ⟨mp, mp₁, mp', mp₁', hcreate, hget, hstuck hleft, hcreate', hget', hstuck hleft'⟩

end Kknf.LibEvent
