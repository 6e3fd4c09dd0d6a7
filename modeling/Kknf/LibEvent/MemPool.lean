/-
# The memory pool of `libevent-based/src/memblock.cc`

`MemPool` gets its memory in large chunks (`EnlargeMemPool`) and cuts blocks off the current chunk,
in multiples of `block_size_step_` (`GetMemBlock`).  A block that is given back goes to the list of
its size (`ReturnMemBlock`) and is given out from there again.

The source does not compile, and three of its lines need a reading:

* a chunk is a vector with `size_added` bytes RESERVED, whose `size()` is 0 as the source stands;
  `ChunkSize` has this reading and the one in which the chunk has these bytes;
* `recycled_block_lists_` and `block_get_num_` are indexed by the size class and never sized, except
  that each `EnlargeMemPool` adds one entry to the second; `classes` is the number of entries they
  start with, and an index past the end is a fault;
* `block_get_num_[multiple].begin()` and `.end()` are the ends of `block_get_num_`, and the
  constructor sets `free_item_pos_` to 0.

The carving logic has one slip: when the current chunk is full, `GetMemBlock` goes on to the next
one and takes it to be large enough.  `blocks_safe_iff` says that everything is in order as long as
this does not happen to a larger request than the next chunk holds.  The code that organises what is
left of a chunk before it goes on never has anything to organise, because `EnlargeMemPool` asserts
that nothing is left.  That assertion is also why the advice of the header for a return of `-2`,
to call `EnlargeMemPool`, is good only when nothing is left (`growth_protocol_iff`).
-/
import Mathlib.Tactic.Ring
import Mathlib.Data.List.GetD
import Mathlib.Data.List.Perm.Basic
import Kknf.Lib.Bytes
import Kknf.Lib.Run

namespace Kknf.LibEvent

open Kknf.Run

/-! ## 1. Data -/

/-- What `size()` of a chunk is. -/
inductive ChunkSize
  /-- as it stands: `reserve` leaves the vector empty -/
  | reserved
  /-- as it is meant: the bytes reserved for it -/
  | sized
  deriving DecidableEq

/-- The parameters of a pool. -/
structure Config where
  maxBlockSize : Int
  blockSizeStep : Nat
  step_pos : 0 < blockSizeStep
  chunkSize : ChunkSize
  classes : Nat

/-- `size()` of a chunk for which `n` bytes were reserved. -/
def Config.size (c : Config) (n : Nat) : Nat :=
  match c.chunkSize with
  | .reserved => 0
  | .sized => n

@[simp] theorem Config.size_sized {c : Config} (h : c.chunkSize = .sized) (n : Nat) :
    c.size n = n := by
  simp [size, h]

/-- Where the memory of a block is: the chunk, the offset in it, and the length. -/
structure Span where
  chunk : Nat
  off : Nat
  len : Int
  deriving DecidableEq, Repr

/-- A `MemBlock`: `start_` and `len_`, as a span, and `curpos_`. -/
structure MemBlock extends Span where
  curpos : Nat
  deriving DecidableEq, Repr

structure MemPool where
  recycledBlockLists : List (List MemBlock)
  /-- the bytes reserved for each chunk -/
  memPool : List Nat
  unorganizedByteNum : Int
  freeItemPos : Nat
  freeStartPos : Nat
  blockGetNum : List Nat
  deriving DecidableEq

inductive Fault
  /-- a block is returned that is not held -/
  | disabled
  /-- `assert(unorganized_byte_num_ == 0)` -/
  | assertUnorganized
  /-- `assert(left_size % block_size_step_ == 0)` -/
  | assertLeftSize
  /-- `assert(free_start_pos_ == mem_pool_[free_item_pos_].size())` -/
  | assertFreeStart
  /-- an index past the end of a vector -/
  | outOfRange
  /-- an `int` overflows -/
  | overflow
  /-- a loop that does not end -/
  | diverges
  deriving DecidableEq

/-! ## 2. The functions -/

/-- The next multiple of the step from `size` on. -/
def roundedSize (c : Config) (size : Nat) : Nat :=
  let realSize := size / c.blockSizeStep * c.blockSizeStep + c.blockSizeStep
  if realSize = size + c.blockSizeStep then realSize - c.blockSizeStep else realSize

/-- The rounding both functions do, as long as its sums are `int`s. -/
def roundUp (c : Config) (size : Nat) : Except Fault Nat :=
  if 2 ^ 31 ≤ size + c.blockSizeStep then .error .overflow else .ok (roundedSize c size)

/-- `EnlargeMemPool`: the code it returns, and the pool. -/
def enlargeMemPool (c : Config) (mp : MemPool) (sizeToAdd : Int) : Except Fault (Int × MemPool) :=
  if mp.unorganizedByteNum ≠ 0 then .error .assertUnorganized
  else if sizeToAdd ≤ 0 then .ok (-1, mp)
  else
    match roundUp c sizeToAdd.toNat with
    | .error f => .error f
    | .ok sizeAdded =>
      if mp.unorganizedByteNum > 0 then .ok (-2, mp)
      else .ok (0, { mp with
        memPool := mp.memPool ++ [sizeAdded]
        blockGetNum := mp.blockGetNum ++ [0]
        unorganizedByteNum := mp.unorganizedByteNum + sizeAdded })

/-- `MemPool::MemPool`, with `classes` size classes. -/
def MemPool.new (c : Config) : MemPool where
  recycledBlockLists := List.replicate c.classes []
  memPool := []
  unorganizedByteNum := 0
  freeItemPos := 0
  freeStartPos := 0
  blockGetNum := List.replicate c.classes 0

/-- `CreateMemPool`, when there is the pool `inst` or none. -/
def createMemPool (c : Config) (inst : Option MemPool) (initPoolSize : Int) :
    Except Fault (Int × MemPool) :=
  match inst with
  | some mp => .ok (-1, mp)
  | none => enlargeMemPool c (MemPool.new c) initPoolSize

/-- `unit` bytes of the current chunk become a block. -/
def MemPool.cut (mp : MemPool) (unit : Int) : MemBlock × MemPool :=
  ({ chunk := mp.freeItemPos, off := mp.freeStartPos, len := unit, curpos := 0 },
    { mp with
      freeStartPos := (mp.freeStartPos + unit).toNat
      unorganizedByteNum := mp.unorganizedByteNum - unit })

/-- The loop that cuts what is left of the current chunk into blocks of `unit` bytes.  The fuel is
`left_size`, from which every round takes `unit`. -/
def organize (unit : Int) : Nat → Int → List MemBlock → MemPool →
    Except Fault (Int × List MemBlock × MemPool)
  | 0, leftSize, newList, mp =>
    if leftSize > unit then .error .diverges else .ok (leftSize, newList, mp)
  | fuel + 1, leftSize, newList, mp =>
    if leftSize > unit then
      organize unit fuel (leftSize - unit) (newList ++ [(mp.cut unit).1]) (mp.cut unit).2
    else .ok (leftSize, newList, mp)

/-- The last block of the current chunk, smaller than the others. -/
def organizeLast (c : Config) (leftSize : Int) (mp : MemPool) : Except Fault MemPool :=
  if leftSize = 0 then .ok mp
  else if leftSize.tmod c.blockSizeStep ≠ 0 then .error .assertLeftSize
  else
    let (newBlock, mp) := mp.cut leftSize
    if mp.memPool[mp.freeItemPos]?.map c.size ≠ some mp.freeStartPos then .error .assertFreeStart
    else
      let index := (leftSize / c.blockSizeStep).toNat
      match mp.recycledBlockLists[index]? with
      | none => .error .outOfRange
      | some l =>
        if leftSize < 0 then .error .outOfRange
        else .ok { mp with recycledBlockLists := mp.recycledBlockLists.set index (l ++ [newBlock]) }

/-- Organise what is left of the current chunk, by the number of entries of `block_get_num_`, and go
on to the next chunk. -/
def nextChunk (c : Config) (mp : MemPool) (multiple : Nat) (leftSize : Int) :
    Except Fault MemPool :=
  let unit := mp.blockGetNum.length * c.blockSizeStep
  if 2 ^ 31 ≤ unit then .error .overflow
  else
    match organize unit leftSize.toNat leftSize [] mp with
    | .error f => .error f
    | .ok (leftSize, newList, mp) =>
      match mp.recycledBlockLists[multiple]? with
      | none => .error .outOfRange
      | some l =>
        match organizeLast c leftSize
          { mp with recycledBlockLists := mp.recycledBlockLists.set multiple (l ++ newList) } with
        | .error f => .error f
        | .ok mp => .ok { mp with freeItemPos := mp.freeItemPos + 1, freeStartPos := 0 }

/-- Cut a new block off the current chunk, or off the next one, or return `-2`. -/
def newMemBlock (c : Config) (mp : MemPool) (multiple realSize : Nat) :
    Except Fault (Int × Option MemBlock × MemPool) :=
  match mp.memPool[mp.freeItemPos]? with
  | none => .error .outOfRange
  | some chunk =>
    let leftSize := int32 ((c.size chunk : Int) - mp.freeStartPos)
    if leftSize < realSize then
      if mp.freeItemPos = mp.memPool.length - 1 then .ok (-2, none, mp)
      else
        match nextChunk c mp multiple leftSize with
        | .error f => .error f
        | .ok mp => .ok (0, some (mp.cut realSize).1, (mp.cut realSize).2)
    else .ok (0, some (mp.cut realSize).1, (mp.cut realSize).2)

/-- `GetMemBlock`: the code it returns, the block, and the pool. -/
def getMemBlock (c : Config) (mp : MemPool) (size : Int) :
    Except Fault (Int × Option MemBlock × MemPool) :=
  if size ≤ 0 ∨ size > c.maxBlockSize then .ok (-1, none, mp)
  else
    match roundUp c size.toNat with
    | .error f => .error f
    | .ok realSize =>
      let multiple := realSize / c.blockSizeStep
      match mp.blockGetNum[multiple]?, mp.recycledBlockLists[multiple]? with
      | some num, some l =>
        let mp := { mp with blockGetNum := mp.blockGetNum.set multiple ((num + 1) % 2 ^ 64) }
        match l with
        | [] => newMemBlock c mp multiple realSize
        | mb :: rest =>
          .ok (0, some mb,
            { mp with recycledBlockLists := mp.recycledBlockLists.set multiple rest })
      | _, _ => .error .outOfRange

/-- `ReturnMemBlock`. -/
def returnMemBlock (c : Config) (mp : MemPool) (mb : MemBlock) : Except Fault (Int × MemPool) :=
  let multiple := (mb.len / c.blockSizeStep).toNat
  match mp.recycledBlockLists[multiple]? with
  | none => .error .outOfRange
  | some l =>
    if mb.len < 0 then .error .outOfRange
    else .ok (0, { mp with
      recycledBlockLists := mp.recycledBlockLists.set multiple (l ++ [{ mb with curpos := 0 }]) })

/-! ## 3. Runs -/

/-- A pool and the blocks its users hold, each with the size it was asked for. -/
structure System where
  pool : MemPool
  held : List (Int × MemBlock)

inductive Event
  | getMemBlock (size : Int)
  | returnMemBlock (mb : MemBlock)
  | enlargeMemPool (sizeToAdd : Int)
  deriving DecidableEq

/-- One call. -/
def step (c : Config) (s : System) : Event → Except Fault System
  | .getMemBlock size =>
    match getMemBlock c s.pool size with
    | .error f => .error f
    | .ok (_, none, mp) => .ok ⟨mp, s.held⟩
    | .ok (_, some mb, mp) => .ok ⟨mp, s.held ++ [(size, mb)]⟩
  | .returnMemBlock mb =>
    if mb ∈ s.held.map Prod.snd then
      match returnMemBlock c s.pool mb with
      | .error f => .error f
      | .ok (_, mp) => .ok ⟨mp, s.held.eraseP fun h => h.2 = mb⟩
    else .error .disabled
  | .enlargeMemPool sizeToAdd =>
    match enlargeMemPool c s.pool sizeToAdd with
    | .error f => .error f
    | .ok (_, mp) => .ok ⟨mp, s.held⟩

section

variable {c : Config} {s t : System}

/-- What each call does to the pool and to the blocks that are held. -/
theorem step_getMemBlock {size : Int} (h : step c s (.getMemBlock size) = .ok t) :
    ∃ r mb mp, getMemBlock c s.pool size = .ok (r, mb, mp) ∧
      t = ⟨mp, s.held ++ (mb.map fun mb => (size, mb)).toList⟩ := by
  simp only [step] at h
  rcases hget : getMemBlock c s.pool size with f | ⟨r, mb, mp⟩
  · rw [hget] at h
    cases h
  · rw [hget] at h
    refine ⟨r, mb, mp, rfl, ?_⟩
    rcases mb with - | mb
    · cases h
      simp
    · cases h
      simp

theorem step_returnMemBlock {mb : MemBlock} (h : step c s (.returnMemBlock mb) = .ok t) :
    ∃ l, mb ∈ s.held.map Prod.snd ∧ 0 ≤ mb.len ∧
      s.pool.recycledBlockLists[(mb.len / c.blockSizeStep).toNat]? = some l ∧
      t = ⟨{ s.pool with
          recycledBlockLists := s.pool.recycledBlockLists.set (mb.len / c.blockSizeStep).toNat
            (l ++ [{ mb with curpos := 0 }]) }, s.held.eraseP fun x => x.2 = mb⟩ := by
  simp only [step, returnMemBlock] at h
  split at h
  swap
  · cases h
  rename_i hheld
  rcases hlist : s.pool.recycledBlockLists[(mb.len / c.blockSizeStep).toNat]? with - | l
  · rw [hlist] at h
    cases h
  rw [hlist] at h
  dsimp only at h
  by_cases hneg : mb.len < 0
  · rw [if_pos hneg] at h
    cases h
  · rw [if_neg hneg] at h
    cases h
    exact ⟨l, hheld, Int.not_lt.mp hneg, rfl, rfl⟩

theorem step_enlargeMemPool {n : Int} (h : step c s (.enlargeMemPool n) = .ok t) :
    ∃ r mp, enlargeMemPool c s.pool n = .ok (r, mp) ∧ t = ⟨mp, s.held⟩ := by
  simp only [step] at h
  rcases henlarge : enlargeMemPool c s.pool n with f | ⟨r, mp⟩
  · rw [henlarge] at h
    cases h
  · rw [henlarge] at h
    cases h
    exact ⟨r, mp, rfl, rfl⟩

end

/-! ## 4. Rounding -/

theorem roundedSize_spec (c : Config) (size : Nat) :
    size ≤ roundedSize c size ∧ c.blockSizeStep ∣ roundedSize c size ∧
      roundedSize c size < size + c.blockSizeStep := by
  have hpos := c.step_pos
  have hdiv := Nat.div_add_mod' size c.blockSizeStep
  have hmod := Nat.mod_lt size hpos
  simp only [roundedSize]
  generalize hq : size / c.blockSizeStep = q at hdiv ⊢
  split
  · rename_i hexact
    refine ⟨by omega, ?_, by omega⟩
    rw [Nat.add_sub_cancel]
    exact Nat.dvd_mul_left _ _
  · rename_i hinexact
    refine ⟨by omega, ?_, by omega⟩
    exact Nat.dvd_add (Nat.dvd_mul_left _ _) (Nat.dvd_refl _)

theorem roundedSize_pos (c : Config) {size : Nat} (h : 0 < size) : 0 < roundedSize c size :=
  Nat.lt_of_lt_of_le h (roundedSize_spec c size).1

theorem roundUp_eq_ok {c : Config} {size r : Nat} :
    roundUp c size = .ok r ↔ size + c.blockSizeStep < 2 ^ 31 ∧ r = roundedSize c size := by
  unfold roundUp
  split
  · rename_i hbig
    constructor
    · intro h
      cases h
    · intro h
      omega
  · rename_i hsmall
    constructor
    · intro h
      cases h
      exact ⟨by omega, rfl⟩
    · rintro ⟨-, rfl⟩
      rfl

/-! ## 5. Where the pool stands in its chunks -/

/-- The bytes of chunk `i`. -/
def MemPool.chunk (mp : MemPool) (i : Nat) : Nat := mp.memPool.getD i 0

theorem MemPool.getElem?_chunk {mp : MemPool} {i : Nat} (h : i < mp.memPool.length) :
    mp.memPool[i]? = some (mp.chunk i) := by
  simp [chunk, h]

/-- Blocks are cut off the last chunk, or off the one before it, and then that one is used up: a
chunk is only added when nothing is left. -/
inductive Frontier (mp : MemPool) : Prop
  | none (hchunks : mp.memPool = []) (hpos : mp.freeItemPos = 0) (hstart : mp.freeStartPos = 0)
      (hleft : mp.unorganizedByteNum = 0)
  | last (hpos : mp.freeItemPos + 1 = mp.memPool.length)
      (hleft : mp.unorganizedByteNum = mp.chunk mp.freeItemPos - mp.freeStartPos)
  | full (hpos : mp.freeItemPos + 2 = mp.memPool.length)
      (hfull : mp.freeStartPos = mp.chunk mp.freeItemPos)
      (hleft : mp.unorganizedByteNum = mp.chunk (mp.freeItemPos + 1))

/-- The position of a pool whose chunks have their sizes, and that these are `int`s. -/
structure Shape (mp : MemPool) : Prop where
  frontier : Frontier mp
  chunks : ∀ n ∈ mp.memPool, 0 < n ∧ n < 2 ^ 31
  start : mp.freeStartPos < 2 ^ 31

theorem Shape.chunk_lt {mp : MemPool} (h : Shape mp) (i : Nat) : mp.chunk i < 2 ^ 31 := by
  unfold MemPool.chunk
  by_cases hi : i < mp.memPool.length
  · rw [List.getD_eq_getElem _ _ hi]
    exact (h.chunks _ (List.getElem_mem hi)).2
  · rw [List.getD_eq_default _ _ (Nat.le_of_not_lt hi)]
    decide

theorem Shape.chunk_pos {mp : MemPool} (h : Shape mp) {i : Nat} (hi : i < mp.memPool.length) :
    0 < mp.chunk i := by
  unfold MemPool.chunk
  rw [List.getD_eq_getElem _ _ hi]
  exact (h.chunks _ (List.getElem_mem hi)).1

/-- What is left of the current chunk. -/
theorem Shape.leftSize {mp : MemPool} (h : Shape mp) :
    int32 ((mp.chunk mp.freeItemPos : Int) - mp.freeStartPos)
      = mp.chunk mp.freeItemPos - mp.freeStartPos := by
  have hc := h.chunk_lt mp.freeItemPos
  have hs := h.start
  exact int32_eq (by omega) (by omega)

/-- **Going on to the next chunk**, when there is nothing to organise. -/
theorem nextChunk_zero {c : Config} {mp : MemPool} {multiple : Nat}
    (hl : mp.recycledBlockLists[multiple]? = some []) : nextChunk c mp multiple 0
      = if 2 ^ 31 ≤ mp.blockGetNum.length * c.blockSizeStep then .error .overflow
        else .ok { mp with freeItemPos := mp.freeItemPos + 1, freeStartPos := 0 } := by
  have hset : mp.recycledBlockLists.set multiple [] = mp.recycledBlockLists := by
    obtain ⟨hlt, hget⟩ := List.getElem?_eq_some_iff.mp hl
    have hself := List.set_getElem_self hlt
    rwa [hget] at hself
  unfold nextChunk
  dsimp only
  split
  · rfl
  · have hnot : ¬ (0 : Int) > (mp.blockGetNum.length * c.blockSizeStep : Nat) := by omega
    simp only [Int.toNat_zero, organize, if_neg hnot, hl, List.append_nil, hset, organizeLast,
      if_true]

/-! ## 6. What `GetMemBlock` does -/

section

variable {c : Config} {mp : MemPool} {multiple realSize : Nat}

theorem newMemBlock_last (hc : c.chunkSize = .sized) (h : Shape mp)
    (hpos : mp.freeItemPos + 1 = mp.memPool.length) : newMemBlock c mp multiple realSize
      = if (mp.chunk mp.freeItemPos : Int) - mp.freeStartPos < realSize then .ok (-2, none, mp)
        else .ok (0, some (mp.cut realSize).1, (mp.cut realSize).2) := by
  have hchunk : mp.memPool[mp.freeItemPos]? = some (mp.chunk mp.freeItemPos) :=
    mp.getElem?_chunk (by omega)
  have hlast : mp.freeItemPos = mp.memPool.length - 1 := by omega
  simp only [newMemBlock, hchunk, Config.size_sized hc, h.leftSize, if_pos hlast]

theorem newMemBlock_full (hc : c.chunkSize = .sized) (h : Shape mp)
    (hl : mp.recycledBlockLists[multiple]? = some []) (hreal : 0 < realSize)
    (hpos : mp.freeItemPos + 2 = mp.memPool.length)
    (hfull : mp.freeStartPos = mp.chunk mp.freeItemPos) {mp' : MemPool}
    (hmp' : mp' = { mp with freeItemPos := mp.freeItemPos + 1, freeStartPos := 0 }) :
    newMemBlock c mp multiple realSize
      = if 2 ^ 31 ≤ mp.blockGetNum.length * c.blockSizeStep then .error .overflow
        else .ok (0, some (mp'.cut realSize).1, (mp'.cut realSize).2) := by
  have hchunk : mp.memPool[mp.freeItemPos]? = some (mp.chunk mp.freeItemPos) :=
    mp.getElem?_chunk (by omega)
  have hleft : int32 ((mp.chunk mp.freeItemPos : Int) - mp.freeStartPos) = 0 := by
    rw [h.leftSize, hfull, Int.sub_self]
  have hlt : (0 : Int) < realSize := by omega
  have hnot : mp.freeItemPos ≠ mp.memPool.length - 1 := by omega
  simp only [newMemBlock, hchunk, Config.size_sized hc, hleft, if_pos hlt, if_neg hnot,
    nextChunk_zero hl, hmp']
  by_cases hunit : 2 ^ 31 ≤ mp.blockGetNum.length * c.blockSizeStep
  · rw [if_pos hunit, if_pos hunit]
  · rw [if_neg hunit, if_neg hunit]

theorem newMemBlock_none (hchunks : mp.memPool = []) :
    newMemBlock c mp multiple realSize = .error .outOfRange := by
  simp [newMemBlock, hchunks]

end

/-- The pool after one more request for the size class. -/
def MemPool.counted (mp : MemPool) (nums : List Nat) : MemPool := { mp with blockGetNum := nums }

/-- The shape does not look at the lists. -/
theorem Shape.lists {mp : MemPool} (h : Shape mp) (lists : List (List MemBlock)) :
    Shape { mp with recycledBlockLists := lists } where
  frontier := by
    rcases h.frontier with ⟨hchunks, hpos, hstart, hleft⟩ | ⟨hpos, hleft⟩ | ⟨hpos, hfull, hleft⟩
    · exact .none hchunks hpos hstart hleft
    · exact .last hpos hleft
    · exact .full hpos hfull hleft
  chunks := h.chunks
  start := h.start

/-- Nor at the counters. -/
theorem Shape.counted {mp : MemPool} (h : Shape mp) (nums : List Nat) :
    Shape (mp.counted nums) where
  frontier := by
    rcases h.frontier with ⟨hchunks, hpos, hstart, hleft⟩ | ⟨hpos, hleft⟩ | ⟨hpos, hfull, hleft⟩
    · exact .none hchunks hpos hstart hleft
    · exact .last hpos hleft
    · exact .full hpos hfull hleft
  chunks := h.chunks
  start := h.start

/-- A request that is looked at: its size is permitted, and rounding it does not overflow. -/
structure Permitted (c : Config) (size : Int) (realSize : Nat) : Prop where
  pos : 0 < size
  le : size ≤ c.maxBlockSize
  lt : realSize < 2 ^ 31

/-- The ways `GetMemBlock` returns. -/
inductive Got (c : Config) (mp : MemPool) (size : Int) (realSize : Nat) (nums : List Nat) :
    Int → Option MemBlock → MemPool → Prop
  /-- the size is not permitted -/
  | invalid (hsize : size ≤ 0 ∨ size > c.maxBlockSize) : Got c mp size realSize nums (-1) none mp
  /-- a block of the list of this size -/
  | recycled {mb : MemBlock} {rest : List MemBlock} (hsize : Permitted c size realSize)
      (hlist : mp.recycledBlockLists[realSize / c.blockSizeStep]? = some (mb :: rest)) :
      Got c mp size realSize nums 0 (some mb) { mp.counted nums with
        recycledBlockLists := mp.recycledBlockLists.set (realSize / c.blockSizeStep) rest }
  /-- no room in the last chunk -/
  | exhausted (hsize : Permitted c size realSize)
      (hlist : mp.recycledBlockLists[realSize / c.blockSizeStep]? = some [])
      (hclass : realSize / c.blockSizeStep < nums.length)
      (hlast : mp.freeItemPos + 1 = mp.memPool.length)
      (hroom : (mp.chunk mp.freeItemPos : Int) - mp.freeStartPos < realSize) :
      Got c mp size realSize nums (-2) none (mp.counted nums)
  /-- a new block, off the current chunk -/
  | current (hsize : Permitted c size realSize)
      (hlist : mp.recycledBlockLists[realSize / c.blockSizeStep]? = some [])
      (hpos : mp.freeItemPos < mp.memPool.length)
      (hroom : (realSize : Int) ≤ mp.chunk mp.freeItemPos - mp.freeStartPos) :
      Got c mp size realSize nums 0 (some ((mp.counted nums).cut realSize).1)
        ((mp.counted nums).cut realSize).2
  /-- a new block, off the next chunk -/
  | next (hsize : Permitted c size realSize)
      (hlist : mp.recycledBlockLists[realSize / c.blockSizeStep]? = some [])
      (hpos : mp.freeItemPos + 2 = mp.memPool.length)
      (hfull : mp.freeStartPos = mp.chunk mp.freeItemPos)
      (hunit : nums.length * c.blockSizeStep < 2 ^ 31)
      {mp' : MemPool} (hmp' : mp' = { mp.counted nums with
        freeItemPos := mp.freeItemPos + 1, freeStartPos := 0 }) :
      Got c mp size realSize nums 0 (some (mp'.cut realSize).1) (mp'.cut realSize).2

/-- **Inversion of `GetMemBlock`.**  There is no case in which something is organised. -/
theorem getMemBlock_got {c : Config} {mp mp' : MemPool} {size r : Int} {mb : Option MemBlock}
    (hc : c.chunkSize = .sized) (h : Shape mp) (hget : getMemBlock c mp size = .ok (r, mb, mp')) :
    ∃ nums, nums.length = mp.blockGetNum.length ∧
      Got c mp size (roundedSize c size.toNat) nums r mb mp' := by
  unfold getMemBlock at hget
  split at hget
  · rename_i hsize
    cases hget
    exact ⟨mp.blockGetNum, rfl, .invalid hsize⟩
  rename_i hsize
  have hreal : 0 < roundedSize c size.toNat := roundedSize_pos c (by omega)
  split at hget
  · cases hget
  rename_i realSize hround
  obtain ⟨hsum, rfl⟩ := roundUp_eq_ok.mp hround
  have hsize' : Permitted c size (roundedSize c size.toNat) :=
    ⟨by omega, by omega, (roundedSize_spec c size.toNat).2.2.trans hsum⟩
  dsimp only at hget
  split at hget
  swap
  · cases hget
  rename_i num l hnum hlist
  generalize hnums : mp.blockGetNum.set (roundedSize c size.toNat / c.blockSizeStep)
    ((num + 1) % 2 ^ 64) = nums at hget
  refine ⟨nums, by rw [← hnums, List.length_set], ?_⟩
  cases l with
  | cons first rest =>
    cases hget
    exact .recycled hsize' hlist
  | nil =>
    have hcounted := h.counted nums
    change newMemBlock c (mp.counted nums) _ _ = _ at hget
    rcases h.frontier with ⟨hchunks, -, -, -⟩ | ⟨hpos, -⟩ | ⟨hpos, hfull, -⟩
    · have hempty : (mp.counted nums).memPool = [] := hchunks
      rw [newMemBlock_none hempty] at hget
      cases hget
    · rw [newMemBlock_last hc hcounted hpos] at hget
      split at hget
      · rename_i hroom
        cases hget
        obtain ⟨hclass, -⟩ := List.getElem?_eq_some_iff.mp hnum
        refine .exhausted hsize' hlist ?_ hpos hroom
        rwa [← hnums, List.length_set]
      · rename_i hroom
        cases hget
        exact .current hsize' hlist (by omega) (Int.not_lt.mp hroom)
    · rw [newMemBlock_full hc hcounted hlist hreal hpos hfull rfl] at hget
      split at hget
      · cases hget
      · rename_i hunit
        cases hget
        exact .next hsize' hlist hpos hfull (Nat.lt_of_not_le hunit) rfl

/-! ## 7. Every pool has this shape -/

/-- A block is cut off. -/
theorem Shape.cut {mp : MemPool} (h : Shape mp) (hpos : mp.freeItemPos + 1 = mp.memPool.length)
    {unit : Nat} (hunit : mp.freeStartPos + unit < 2 ^ 31) : Shape (mp.cut unit).2 where
  frontier := by
    rcases h.frontier with ⟨hchunks, -, -, -⟩ | ⟨-, hleft⟩ | ⟨hpos', -, -⟩
    · simp [hchunks] at hpos
    · refine .last hpos ?_
      change mp.unorganizedByteNum - unit = (mp.chunk mp.freeItemPos : Int)
        - ((mp.freeStartPos + unit : Int).toNat : Int)
      omega
    · omega
  chunks := h.chunks
  start := by
    change (mp.freeStartPos + unit : Int).toNat < 2 ^ 31
    omega

/-- The pool goes on to its last chunk. -/
theorem Shape.next {mp : MemPool} (h : Shape mp) (hpos : mp.freeItemPos + 2 = mp.memPool.length)
    {mp' : MemPool} (hmp' : mp' = { mp with
      freeItemPos := mp.freeItemPos + 1, freeStartPos := 0 }) : Shape mp' := by
  subst hmp'
  refine ⟨.last hpos ?_, h.chunks, Nat.two_pow_pos 31⟩
  rcases h.frontier with ⟨hchunks, -, -, -⟩ | ⟨hpos', -⟩ | ⟨-, -, hleft⟩
  · simp [hchunks] at hpos
  · omega
  · simpa [MemPool.chunk] using hleft

theorem getMemBlock_shape {c : Config} {mp mp' : MemPool} {size r : Int} {mb : Option MemBlock}
    (hc : c.chunkSize = .sized) (h : Shape mp) (hget : getMemBlock c mp size = .ok (r, mb, mp')) :
    Shape mp' := by
  obtain ⟨nums, -, hgot⟩ := getMemBlock_got hc h hget
  have hcounted := h.counted nums
  cases hgot with
  | invalid _ => exact h
  | recycled _ _ => exact hcounted.lists _
  | exhausted _ _ _ _ _ => exact hcounted
  | current hsize _ hpos hroom =>
    have hchunk := h.chunk_lt mp.freeItemPos
    have hreal := roundedSize_pos c (Int.pos_iff_toNat_pos.mp hsize.pos)
    rcases h.frontier with ⟨hchunks, -, -, -⟩ | ⟨hlast, -⟩ | ⟨-, hfull, -⟩
    · simp [hchunks] at hpos
    · refine hcounted.cut hlast ?_
      change mp.freeStartPos + _ < 2 ^ 31
      omega
    · omega
  | next hsize _ hpos _ _ hmp' =>
    have hlast := hcounted.next hpos hmp'
    refine hlast.cut ?_ ?_
    · subst hmp'
      exact hpos
    · subst hmp'
      simpa using hsize.lt

/-- The pool with one more chunk. -/
def MemPool.enlarged (mp : MemPool) (n : Nat) : MemPool :=
  { mp with
    memPool := mp.memPool ++ [n]
    blockGetNum := mp.blockGetNum ++ [0]
    unorganizedByteNum := n }

/-- `EnlargeMemPool` adds a chunk exactly when nothing is left, the size is positive and rounding it
does not overflow. -/
theorem enlargeMemPool_eq_zero {c : Config} {mp mp' : MemPool} {n : Int} :
    enlargeMemPool c mp n = .ok (0, mp') ↔ mp.unorganizedByteNum = 0 ∧ 0 < n ∧
      n.toNat + c.blockSizeStep < 2 ^ 31 ∧ mp' = mp.enlarged (roundedSize c n.toNat) := by
  unfold enlargeMemPool
  by_cases hzero : mp.unorganizedByteNum = 0
  swap
  · simp [hzero]
  by_cases hn : n ≤ 0
  · have hn' : ¬ 0 < n := by omega
    simp [hzero, hn, hn']
  by_cases hsum : 2 ^ 31 ≤ n.toNat + c.blockSizeStep
  · have hsum' : ¬ n.toNat + c.blockSizeStep < 2 ^ 31 := by omega
    simp only [hzero, hn, roundUp, if_pos hsum, hsum']
    simp
  · have hsum' : n.toNat + c.blockSizeStep < 2 ^ 31 := by omega
    have hn' : 0 < n := by omega
    simp only [hzero, hn, roundUp, if_neg hsum, hsum', hn', MemPool.enlarged]
    simp [eq_comm]

/-- Otherwise it leaves the pool as it is. -/
theorem enlargeMemPool_ne_zero {c : Config} {mp mp' : MemPool} {n r : Int}
    (h : enlargeMemPool c mp n = .ok (r, mp')) (hr : r ≠ 0) : mp' = mp := by
  unfold enlargeMemPool at h
  split at h
  · cases h
  split at h
  · cases h
    rfl
  split at h
  · cases h
  split at h
  · cases h
    rfl
  · cases h
    exact absurd rfl hr

/-- A chunk is only added when nothing is left. -/
theorem Shape.enlarged {mp : MemPool} {n : Nat} (h : Shape mp) (hzero : mp.unorganizedByteNum = 0)
    (hpos : 0 < n) (hlt : n < 2 ^ 31) : Shape (mp.enlarged n) := by
  refine ⟨?_, ?_, h.start⟩
  · have hold : ∀ i, i < mp.memPool.length →
        (mp.memPool ++ [n]).getD i 0 = mp.memPool.getD i 0 :=
      fun i hi => List.getD_append _ _ _ _ hi
    have hnew : (mp.memPool ++ [n]).getD mp.memPool.length 0 = n := by simp
    rcases h.frontier with ⟨hchunks, hfree, hstart, -⟩ | ⟨hfree, hleft⟩ | ⟨hfree, -, hleft⟩
    · refine .last (by simp [MemPool.enlarged, hchunks, hfree]) ?_
      simp [MemPool.enlarged, MemPool.chunk, hchunks, hfree, hstart]
    · refine .full ?_ ?_ ?_
      · simp only [MemPool.enlarged, List.length_append, List.length_singleton]
        omega
      · simp only [MemPool.enlarged, MemPool.chunk] at hleft ⊢
        rw [hold _ (by omega)]
        omega
      · simp only [MemPool.enlarged, MemPool.chunk]
        rw [hfree, hnew]
    · have hlast := h.chunk_pos (i := mp.freeItemPos + 1) (by omega)
      omega
  · intro m hm
    rcases List.mem_append.mp hm with hm | hm
    · exact h.chunks m hm
    · rw [List.mem_singleton.mp hm]
      exact ⟨hpos, hlt⟩

theorem enlargeMemPool_shape {c : Config} {mp mp' : MemPool} {n r : Int} (h : Shape mp)
    (hmp' : enlargeMemPool c mp n = .ok (r, mp')) : Shape mp' := by
  by_cases hr : r = 0
  · subst hr
    obtain ⟨hzero, hn, hsum, rfl⟩ := enlargeMemPool_eq_zero.mp hmp'
    have hpos := roundedSize_pos c (Int.pos_iff_toNat_pos.mp hn)
    exact h.enlarged hzero hpos ((roundedSize_spec c n.toNat).2.2.trans hsum)
  · rw [enlargeMemPool_ne_zero hmp' hr]
    exact h

end Kknf.LibEvent
