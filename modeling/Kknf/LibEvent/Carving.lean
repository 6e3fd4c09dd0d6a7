/-
# The blocks of the memory pool

What the pool promises of its blocks: each lies inside one chunk and is as long as it was asked to
be, no two overlap, the recycled ones are in the list of their size, and `unorganized_byte_num_` is
what has not been given out yet (`Safe`).

The ledger of the pool is the list of the spans of all blocks, held or recycled.  Recycling and
reuse only permute it, and cutting a block adds one span at the frontier, behind all the others.
The one step that can go wrong is the one that goes on to the next chunk: it does not ask whether
the block fits there.
-/
import Mathlib.Algebra.BigOperators.Group.List.Basic
import Kknf.LibEvent.MemPool

namespace Kknf.LibEvent

open Kknf.Run

/-! ## 1. The promise -/

/-- Two spans have no byte in common. -/
def NoOverlap (a b : Span) : Prop :=
  a.chunk ≠ b.chunk ∨ a.off + a.len ≤ b.off ∨ b.off + b.len ≤ a.off

theorem NoOverlap.symm {a b : Span} (h : NoOverlap a b) : NoOverlap b a := by
  rcases h with h | h | h
  · exact Or.inl (Ne.symm h)
  · exact Or.inr (Or.inr h)
  · exact Or.inr (Or.inl h)

/-- The span lies inside a chunk. -/
def Inside (mp : MemPool) (b : Span) : Prop :=
  b.chunk < mp.memPool.length ∧ b.off + b.len ≤ mp.chunk b.chunk

/-- The spans of all blocks, held and recycled. -/
def spans (s : System) : List Span :=
  s.held.map (fun h => h.2.toSpan) ++ s.pool.recycledBlockLists.flatten.map (·.toSpan)

structure Safe (c : Config) (s : System) : Prop where
  held : ∀ h ∈ s.held, h.1 ≤ h.2.len ∧ (c.blockSizeStep : Int) ∣ h.2.len
  inside : ∀ b ∈ spans s, Inside s.pool b
  disjoint : (spans s).Pairwise NoOverlap
  classes : ∀ m l, s.pool.recycledBlockLists[m]? = some l →
    ∀ b ∈ l, b.len = ((m * c.blockSizeStep : Nat) : Int)
  uncarved : s.pool.unorganizedByteNum
    = (s.pool.memPool.sum : Int) - ((spans s).map Span.len).sum

/-- The request goes on to the next chunk: its size is permitted, no block of it is recycled, the
current chunk has no room for it, and there is a further chunk. -/
def GoesOn (c : Config) (mp : MemPool) (size : Int) : Prop :=
  (0 < size ∧ size ≤ c.maxBlockSize) ∧
    mp.recycledBlockLists[roundedSize c size.toNat / c.blockSizeStep]? = some [] ∧
    (mp.chunk mp.freeItemPos : Int) - mp.freeStartPos < roundedSize c size.toNat ∧
    mp.freeItemPos + 1 < mp.memPool.length

instance (c : Config) (mp : MemPool) (size : Int) : Decidable (GoesOn c mp size) :=
  inferInstanceAs (Decidable (_ ∧ _))

/-- When a request goes on to the next chunk, that chunk is large enough for it. -/
def FitsNext (c : Config) (s : System) : Event → Prop
  | .getMemBlock size =>
    GoesOn c s.pool size → roundedSize c size.toNat ≤ s.pool.chunk (s.pool.freeItemPos + 1)
  | _ => True

instance (c : Config) (s : System) : (e : Event) → Decidable (FitsNext c s e)
  | .getMemBlock size => inferInstanceAs (Decidable (GoesOn c s.pool size → _))
  | .returnMemBlock _ | .enlargeMemPool _ => isTrue trivial

/-! ## 2. Lists of lists -/

/-- Replacing one of the lists. -/
theorem flatten_set_perm {α : Type*} {x y : List α} : ∀ {l : List (List α)} {i : Nat},
    l[i]? = some x → ((l.set i y).flatten ++ x).Perm (l.flatten ++ y)
  | a :: t, 0, h => by
    cases h
    simp only [List.set_cons_zero, List.flatten_cons]
    have hswap : (x ++ (y ++ t.flatten)).Perm (x ++ (t.flatten ++ y)) :=
      (List.perm_append_comm).append_left x
    rw [List.append_assoc x]
    exact (List.perm_append_comm).trans hswap
  | a :: t, i + 1, h => by
    have ih := flatten_set_perm (y := y) (List.getElem?_cons_succ ▸ h)
    simp only [List.set_cons_succ, List.flatten_cons, List.append_assoc]
    exact ih.append_left a

/-- The list of a size gives a block to the users. -/
theorem spans_reuse {s : System} {i : Nat} {mb : MemBlock} {rest : List MemBlock} {mp : MemPool}
    (size : Int) (hlist : s.pool.recycledBlockLists[i]? = some (mb :: rest))
    (hmp : mp.recycledBlockLists = s.pool.recycledBlockLists.set i rest) :
    (spans ⟨mp, s.held ++ [(size, mb)]⟩).Perm (spans s) := by
  have hset := flatten_set_perm (y := rest) hlist
  have hcons : (s.pool.recycledBlockLists.set i rest).flatten ++ (mb :: rest)
      = (s.pool.recycledBlockLists.set i rest).flatten ++ [mb] ++ rest := by simp
  rw [hcons, List.perm_append_right_iff] at hset
  have hflat := (List.perm_append_comm.trans hset).map MemBlock.toSpan
  simp only [spans, hmp, List.map_append, List.append_assoc]
  refine List.Perm.append_left _ ?_
  simpa using hflat

/-- A user gives a block to the list of its size. -/
theorem spans_return {s : System} {i : Nat} {mb : MemBlock} {l : List MemBlock} {mp : MemPool}
    (hheld : mb ∈ s.held.map Prod.snd) (hlist : s.pool.recycledBlockLists[i]? = some l)
    (hmp : mp.recycledBlockLists
      = s.pool.recycledBlockLists.set i (l ++ [{ mb with curpos := 0 }])) :
    (spans ⟨mp, s.held.eraseP fun h => h.2 = mb⟩).Perm (spans s) := by
  have hset := flatten_set_perm (y := l ++ [{ mb with curpos := 0 }]) hlist
  have hmove : (s.pool.recycledBlockLists.flatten ++ (l ++ [{ mb with curpos := 0 }])).Perm
      (s.pool.recycledBlockLists.flatten ++ [{ mb with curpos := 0 }] ++ l) := by
    rw [List.append_assoc]
    exact (List.perm_append_comm).append_left _
  have hflat := ((List.perm_append_right_iff l).mp (hset.trans hmove)).map MemBlock.toSpan
  obtain ⟨⟨size, b⟩, hmem, rfl⟩ := List.mem_map.mp hheld
  obtain ⟨⟨size', b'⟩, l₁, l₂, -, hb', hsplit, herase⟩ :=
    List.exists_of_eraseP (p := fun h => decide (h.2 = b)) hmem (by simp)
  cases of_decide_eq_true hb'
  simp only [spans, hmp]
  rw [herase, hsplit]
  simp only [List.map_append, List.map_cons, List.append_assoc, List.cons_append]
  refine List.Perm.append_left _ ?_
  refine ((hflat.append_left _).trans ?_)
  simp only [List.map_append, List.map_cons, List.map_nil]
  rw [← List.append_assoc]
  exact List.perm_append_singleton _ _

/-! ## 3. The ledger -/

/-- The span is behind the frontier, and inside its chunk. -/
structure Below (mp : MemPool) (b : Span) : Prop where
  inside : Inside mp b
  chunk : b.chunk ≤ mp.freeItemPos
  current : b.chunk = mp.freeItemPos → b.off + b.len ≤ mp.freeStartPos

/-- The spans `sp` account for all that has been cut off the chunks. -/
structure Ledger (mp : MemPool) (sp : List Span) : Prop where
  below : ∀ b ∈ sp, Below mp b
  disjoint : sp.Pairwise NoOverlap
  uncarved : mp.unorganizedByteNum = (mp.memPool.sum : Int) - (sp.map Span.len).sum

theorem Ledger.perm {mp : MemPool} {sp sp' : List Span} (h : Ledger mp sp) (hp : sp'.Perm sp) :
    Ledger mp sp' where
  below := fun b hb => h.below b (hp.mem_iff.mp hb)
  disjoint := (hp.pairwise_iff NoOverlap.symm).mpr h.disjoint
  uncarved := by rw [h.uncarved, (hp.map Span.len).sum_eq]

/-- The ledger does not look at the lists and the counters. -/
theorem Ledger.congr {mp mp' : MemPool} {sp : List Span} (h : Ledger mp sp)
    (hchunks : mp'.memPool = mp.memPool) (hpos : mp'.freeItemPos = mp.freeItemPos)
    (hstart : mp'.freeStartPos = mp.freeStartPos)
    (hleft : mp'.unorganizedByteNum = mp.unorganizedByteNum) : Ledger mp' sp := by
  obtain ⟨lists, chunks, left, pos, start, nums⟩ := mp
  obtain ⟨lists', chunks', left', pos', start', nums'⟩ := mp'
  dsimp only at hchunks hpos hstart hleft
  subst hchunks hpos hstart hleft
  exact ⟨fun b hb => ⟨(h.below b hb).inside, (h.below b hb).chunk, (h.below b hb).current⟩,
    h.disjoint, h.uncarved⟩

/-- **A block is cut off the current chunk**, which has room for it. -/
theorem Ledger.cut {mp : MemPool} {sp : List Span} (h : Ledger mp sp) {unit : Nat}
    (hpos : mp.freeItemPos < mp.memPool.length)
    (hroom : (unit : Int) ≤ mp.chunk mp.freeItemPos - mp.freeStartPos) :
    Ledger (mp.cut unit).2 ((mp.cut unit).1.toSpan :: sp) where
  below := by
    intro b hb
    rcases List.mem_cons.mp hb with rfl | hb
    · refine ⟨⟨hpos, ?_⟩, le_rfl, fun _ => ?_⟩
      · change (mp.freeStartPos : Int) + unit ≤ mp.chunk mp.freeItemPos
        omega
      · change (mp.freeStartPos : Int) + unit ≤ ((mp.freeStartPos + unit : Int).toNat : Int)
        omega
    · obtain ⟨hinside, hchunk, hcurrent⟩ := h.below b hb
      refine ⟨hinside, hchunk, fun heq => ?_⟩
      change b.off + b.len ≤ ((mp.freeStartPos + unit : Int).toNat : Int)
      have hold := hcurrent heq
      omega
  disjoint := by
    refine List.pairwise_cons.mpr ⟨fun b hb => ?_, h.disjoint⟩
    by_cases heq : b.chunk = mp.freeItemPos
    · exact Or.inr (Or.inr ((h.below b hb).current heq))
    · exact Or.inl (Ne.symm heq)
  uncarved := by
    change mp.unorganizedByteNum - unit
      = (mp.memPool.sum : Int) - ((unit : Int) + (sp.map Span.len).sum)
    rw [h.uncarved]
    ring

/-- The pool goes on to the next chunk. -/
theorem Ledger.next {mp : MemPool} {sp : List Span} (h : Ledger mp sp) {mp' : MemPool}
    (hmp' : mp' = { mp with freeItemPos := mp.freeItemPos + 1, freeStartPos := 0 }) :
    Ledger mp' sp := by
  subst hmp'
  refine ⟨fun b hb => ?_, h.disjoint, h.uncarved⟩
  obtain ⟨hinside, hchunk, -⟩ := h.below b hb
  refine ⟨hinside, Nat.le_succ_of_le hchunk, fun heq => ?_⟩
  dsimp only at heq
  omega

/-- A chunk is added. -/
theorem Ledger.enlarge {mp : MemPool} {sp : List Span} (h : Ledger mp sp) {n : Nat}
    {mp' : MemPool} (hchunks : mp'.memPool = mp.memPool ++ [n])
    (hpos : mp'.freeItemPos = mp.freeItemPos) (hstart : mp'.freeStartPos = mp.freeStartPos)
    (hleft : mp'.unorganizedByteNum = mp.unorganizedByteNum + n) : Ledger mp' sp where
  below := by
    intro b hb
    obtain ⟨⟨hlt, hfits⟩, hchunk, hcurrent⟩ := h.below b hb
    refine ⟨⟨?_, ?_⟩, hpos ▸ hchunk, by rwa [hpos, hstart]⟩
    · rw [hchunks, List.length_append]
      omega
    · unfold MemPool.chunk
      rw [hchunks, List.getD_append _ _ _ _ hlt]
      exact hfits
  disjoint := h.disjoint
  uncarved := by
    rw [hleft, h.uncarved, hchunks, List.sum_append, List.sum_singleton]
    push_cast
    ring

/-! ## 4. The invariant -/

structure Inv (c : Config) (s : System) : Prop where
  shape : Shape s.pool
  room : s.pool.freeStartPos ≤ s.pool.chunk s.pool.freeItemPos
  ledger : Ledger s.pool (spans s)
  classes : ∀ m l, s.pool.recycledBlockLists[m]? = some l →
    ∀ b ∈ l, b.len = ((m * c.blockSizeStep : Nat) : Int)
  held : ∀ h ∈ s.held, h.1 ≤ h.2.len ∧ (c.blockSizeStep : Int) ∣ h.2.len

theorem Inv.safe {c : Config} {s : System} (h : Inv c s) : Safe c s where
  held := h.held
  inside := fun b hb => (h.ledger.below b hb).inside
  disjoint := h.ledger.disjoint
  classes := h.classes
  uncarved := h.ledger.uncarved

/-- The blocks of a class have the size of the class. -/
theorem classes_set {c : Config} {lists : List (List MemBlock)} {i : Nat} {l : List MemBlock}
    (h : ∀ m l, lists[m]? = some l → ∀ b ∈ l, b.len = ((m * c.blockSizeStep : Nat) : Int))
    (hl : ∀ b ∈ l, b.len = ((i * c.blockSizeStep : Nat) : Int)) :
    ∀ m l', (lists.set i l)[m]? = some l' →
      ∀ b ∈ l', b.len = ((m * c.blockSizeStep : Nat) : Int) := by
  intro m l' hm
  rw [List.getElem?_set] at hm
  split at hm
  · rename_i heq
    subst heq
    split at hm
    · cases hm
      exact hl
    · cases hm
  · exact h m l' hm

/-- A block of its rounded size serves the request. -/
theorem serves (c : Config) (size : Int) : size ≤ (roundedSize c size.toNat : Int) ∧
    (c.blockSizeStep : Int) ∣ (roundedSize c size.toNat : Int) := by
  obtain ⟨hle, hdvd, -⟩ := roundedSize_spec c size.toNat
  exact ⟨by omega, Int.natCast_dvd_natCast.mpr hdvd⟩

theorem mul_roundedSize_div (c : Config) (size : Nat) :
    roundedSize c size / c.blockSizeStep * c.blockSizeStep = roundedSize c size :=
  Nat.div_mul_cancel (roundedSize_spec c size).2.1

/-- A user is given a new block. -/
theorem held_snoc {c : Config} {held : List (Int × MemBlock)} {size : Int} {mb : MemBlock}
    (h : ∀ x ∈ held, x.1 ≤ x.2.len ∧ (c.blockSizeStep : Int) ∣ x.2.len)
    (hmb : mb.len = (roundedSize c size.toNat : Int)) : ∀ x ∈ held ++ [(size, mb)],
      x.1 ≤ x.2.len ∧ (c.blockSizeStep : Int) ∣ x.2.len := by
  intro x hx
  rcases List.mem_append.mp hx with hx | hx
  · exact h x hx
  · rw [List.mem_singleton.mp hx, hmb]
    exact serves c size

/-- The spans after a block has been cut off and given out. -/
theorem spans_cut {s : System} {size : Int} {mb : MemBlock} {mp : MemPool}
    (hmp : mp.recycledBlockLists = s.pool.recycledBlockLists) :
    (spans ⟨mp, s.held ++ [(size, mb)]⟩).Perm (mb.toSpan :: spans s) := by
  simp only [spans, hmp, List.map_append, List.map_cons, List.map_nil, List.append_assoc,
    List.singleton_append]
  exact List.perm_middle

/-- **A call of `GetMemBlock` keeps the pool in order**, when it fits. -/
theorem getMemBlock_inv {c : Config} (hc : c.chunkSize = .sized) {s t : System} {size : Int}
    (h : Inv c s) (hfits : FitsNext c s (.getMemBlock size))
    (ht : step c s (.getMemBlock size) = .ok t) : Inv c t := by
  obtain ⟨r, mb, mp, hget, rfl⟩ := step_getMemBlock ht
  have hshape := getMemBlock_shape hc h.shape hget
  obtain ⟨nums, -, hgot⟩ := getMemBlock_got hc h.shape hget
  have hcounted : Ledger (s.pool.counted nums) (spans s) := h.ledger.congr rfl rfl rfl rfl
  cases hgot with
  | invalid _ => simpa using h
  | recycled hsize hlist =>
    rename_i first rest
    have hlen : first.len = (roundedSize c size.toNat : Int) := by
      rw [h.classes _ _ hlist first List.mem_cons_self, mul_roundedSize_div]
    refine ⟨hshape, h.room, ?_, ?_, held_snoc h.held hlen⟩
    · exact (h.ledger.perm (spans_reuse size hlist rfl)).congr rfl rfl rfl rfl
    · exact classes_set h.classes fun b hb =>
        h.classes _ _ hlist b (List.mem_cons_of_mem first hb)
  | exhausted _ _ _ _ _ =>
    have hheld : s.held ++ (Option.map (fun mb => (size, mb)) none).toList = s.held := by simp
    rw [hheld]
    exact ⟨hshape, h.room, hcounted, h.classes, h.held⟩
  | current hsize hlist hpos hroom =>
    refine ⟨hshape, ?_, ?_, h.classes, held_snoc h.held rfl⟩
    · change (s.pool.freeStartPos + roundedSize c size.toNat : Int).toNat
        ≤ s.pool.chunk s.pool.freeItemPos
      omega
    · exact (hcounted.cut hpos hroom).perm (spans_cut rfl)
  | @next hsize hlist hpos hfull hunit mp' hmp' =>
    have hreal := roundedSize_pos c (Int.pos_iff_toNat_pos.mp hsize.pos)
    have hnext : roundedSize c size.toNat ≤ s.pool.chunk (s.pool.freeItemPos + 1) :=
      hfits ⟨⟨hsize.pos, hsize.le⟩, hlist, by omega, by omega⟩
    have hledger := hcounted.next hmp'
    subst hmp'
    refine ⟨hshape, ?_, ?_, h.classes, held_snoc h.held rfl⟩
    · change (0 + roundedSize c size.toNat : Int).toNat ≤ s.pool.chunk (s.pool.freeItemPos + 1)
      omega
    · refine (hledger.cut ?_ ?_).perm (spans_cut rfl)
      · change s.pool.freeItemPos + 1 < s.pool.memPool.length
        omega
      · change (roundedSize c size.toNat : Int) ≤ s.pool.chunk (s.pool.freeItemPos + 1) - 0
        omega

theorem returnMemBlock_inv {c : Config} {s t : System} {mb : MemBlock} (h : Inv c s)
    (ht : step c s (.returnMemBlock mb) = .ok t) : Inv c t := by
  obtain ⟨l, hheld, hnonneg, hlist, rfl⟩ := step_returnMemBlock ht
  have hlen : mb.len = (((mb.len / c.blockSizeStep).toNat * c.blockSizeStep : Nat) : Int) := by
    obtain ⟨x, hx, hmb⟩ := List.mem_map.mp hheld
    have hdvd := (h.held x hx).2
    rw [hmb] at hdvd
    have hdiv := Int.ediv_nonneg hnonneg (Int.natCast_nonneg c.blockSizeStep)
    rw [Int.natCast_mul, Int.toNat_of_nonneg hdiv, Int.ediv_mul_cancel hdvd]
  refine ⟨h.shape.lists _, h.room, ?_, ?_, fun x hx => h.held x (List.mem_of_mem_eraseP hx)⟩
  · exact (h.ledger.perm (spans_return hheld hlist rfl)).congr rfl rfl rfl rfl
  · refine classes_set h.classes fun b hb => ?_
    rcases List.mem_append.mp hb with hb | hb
    · exact h.classes _ _ hlist b hb
    · rw [List.mem_singleton.mp hb]
      exact hlen

theorem enlargeMemPool_inv {c : Config} {s t : System} {n : Int} (h : Inv c s)
    (ht : step c s (.enlargeMemPool n) = .ok t) : Inv c t := by
  obtain ⟨r, mp, henlarge, rfl⟩ := step_enlargeMemPool ht
  by_cases hr : r = 0
  swap
  · rw [enlargeMemPool_ne_zero henlarge hr]
    exact h
  subst hr
  have hshape := enlargeMemPool_shape h.shape henlarge
  obtain ⟨hzero, -, -, rfl⟩ := enlargeMemPool_eq_zero.mp henlarge
  have hleft : ∀ k : Nat, (k : Int) = s.pool.unorganizedByteNum + k := by
    intro k
    rw [hzero, Int.zero_add]
  refine ⟨hshape, ?_, h.ledger.enlarge rfl rfl rfl (hleft _), h.classes, h.held⟩
  have hroom := h.room
  change s.pool.freeStartPos ≤ (s.pool.memPool ++ [_]).getD s.pool.freeItemPos 0
  unfold MemPool.chunk at hroom
  by_cases hlt : s.pool.freeItemPos < s.pool.memPool.length
  · rw [List.getD_append _ _ _ _ hlt]
    exact hroom
  · rw [List.getD_eq_default _ _ (Nat.le_of_not_lt hlt)] at hroom
    omega

theorem step_inv {c : Config} (hc : c.chunkSize = .sized) {s t : System} {e : Event}
    (h : Inv c s) (hfits : FitsNext c s e) (ht : step c s e = .ok t) : Inv c t := by
  cases e with
  | getMemBlock size => exact getMemBlock_inv hc h hfits ht
  | returnMemBlock mb => exact returnMemBlock_inv h ht
  | enlargeMemPool n => exact enlargeMemPool_inv h ht

/-! ## 5. When the blocks are in order -/

/-- **A block that does not fit into the next chunk is given out all the same**, and ends behind the
end of that chunk. -/
theorem overrun {c : Config} (hc : c.chunkSize = .sized) {s t : System} {e : Event}
    (h : Inv c s) (hfits : ¬ FitsNext c s e) (ht : step c s e = .ok t) : ¬ Safe c t := by
  cases e with
  | returnMemBlock mb => exact absurd trivial hfits
  | enlargeMemPool n => exact absurd trivial hfits
  | getMemBlock size =>
    simp only [FitsNext, Classical.not_imp] at hfits
    obtain ⟨⟨⟨hpos, hle⟩, hlist, hroom, hmore⟩, hbig⟩ := hfits
    obtain ⟨r, mb, mp, hget, rfl⟩ := step_getMemBlock ht
    obtain ⟨nums, -, hgot⟩ := getMemBlock_got hc h.shape hget
    cases hgot with
    | invalid hsize => omega
    | recycled _ hlist' =>
      rw [hlist] at hlist'
      cases hlist'
    | exhausted _ _ _ hlast _ => omega
    | current _ _ _ hroom' => omega
    | @next _ _ _ _ _ mp' hmp' =>
      intro hsafe
      have hmem : (mp'.cut (roundedSize c size.toNat)).1.toSpan
          ∈ spans ⟨(mp'.cut (roundedSize c size.toNat)).2,
            s.held ++ [(size, (mp'.cut (roundedSize c size.toNat)).1)]⟩ := by
        simp [spans]
      have hinside := (hsafe.inside _ hmem).2
      subst hmp'
      change (0 : Int) + roundedSize c size.toNat
        ≤ s.pool.chunk (s.pool.freeItemPos + 1) at hinside
      omega

/-- The pool as it is created. -/
theorem createMemPool_inv {c : Config} {init r : Int} {mp : MemPool}
    (h : createMemPool c none init = .ok (r, mp)) : Inv c ⟨mp, []⟩ := by
  have hempty : Inv c ⟨MemPool.new c, []⟩ := by
    have hlists : (List.replicate c.classes ([] : List MemBlock)).flatten = [] := by simp
    refine ⟨⟨.none rfl rfl rfl rfl, by simp [MemPool.new], Nat.two_pow_pos 31⟩, Nat.zero_le _, ?_,
      ?_, by simp⟩
    · simp only [spans, MemPool.new, hlists]
      exact ⟨by simp, List.Pairwise.nil, rfl⟩
    · intro m l hl b hb
      rw [List.eq_of_mem_replicate (List.mem_of_getElem? hl)] at hb
      cases hb
  refine enlargeMemPool_inv (n := init) hempty ?_
  unfold createMemPool at h
  simp only [step, h]

/-- **The blocks of the pool are in order exactly as long as no request goes on to a chunk that is
too small for it.** -/
theorem blocks_safe_iff (c : Config) (hc : c.chunkSize = .sized) (init r : Int) (mp : MemPool)
    (hcreate : createMemPool c none init = .ok (r, mp)) (es : List Event) (s : System)
    (hrun : exec (step c) ⟨mp, []⟩ es = .ok s) :
    (∀ t, Visits (step c) ⟨mp, []⟩ es t → Safe c t) ↔ Along (step c) (FitsNext c) ⟨mp, []⟩ es :=
  always_iff_along (fun _ _ _ h hfits ht => step_inv hc h hfits ht) (fun _ h => h.safe)
    (fun _ _ _ h hfits ht => overrun hc h hfits ht) (createMemPool_inv hcreate) hrun

/-- A pool of blocks of up to 100 bytes, in steps of 10. -/
def tens : Config := ⟨100, 10, by decide, .sized, 11⟩

/-- A pool of one chunk of 10 bytes, which is used up; the next chunk has 20, and is large enough
for a block of 15. -/
theorem blocks_safe_tens : ∃ mp s, createMemPool tens none 10 = .ok (0, mp) ∧
    exec (step tens) ⟨mp, []⟩ [.getMemBlock 10, .enlargeMemPool 20, .getMemBlock 15] = .ok s ∧
      Safe tens s := by
  have hends : (createMemPool tens none 10).map (fun p => (p.1, (exec (step tens) ⟨p.2, []⟩
      [.getMemBlock 10, .enlargeMemPool 20, .getMemBlock 15]).map (fun s => spans s), decide
        (Along (step tens) (FitsNext tens) ⟨p.2, []⟩
          [.getMemBlock 10, .enlargeMemPool 20, .getMemBlock 15])))
      = .ok (0, .ok [⟨0, 0, 10⟩, ⟨1, 0, 20⟩], true) := by
    decide +kernel
  obtain ⟨⟨r, mp⟩, hcreate, hout⟩ := map_eq_ok.mp hends
  simp only [Prod.mk.injEq, decide_eq_true_eq] at hout
  obtain ⟨rfl, hspans, hfits⟩ := hout
  obtain ⟨s, hs, -⟩ := map_eq_ok.mp hspans
  have hsafe := (blocks_safe_iff tens rfl 10 0 mp hcreate _ s hs).mpr hfits
  exact ⟨mp, s, hcreate, hs, hsafe s ⟨_, List.prefix_rfl, hs⟩⟩

/-- The second chunk has 10 bytes, and a block of 20 is given out in it. -/
theorem block_overruns_chunk : ∃ mp s, createMemPool tens none 10 = .ok (0, mp) ∧
    exec (step tens) ⟨mp, []⟩ [.getMemBlock 10, .enlargeMemPool 10, .getMemBlock 20] = .ok s ∧
      ¬ Safe tens s := by
  have hends : (createMemPool tens none 10).map (fun p => (p.1, (exec (step tens) ⟨p.2, []⟩
      [.getMemBlock 10, .enlargeMemPool 10, .getMemBlock 20]).map
        (fun s => (s.pool.memPool, spans s))))
      = .ok (0, .ok ([10, 10], [⟨0, 0, 10⟩, ⟨1, 0, 20⟩])) := by
    decide +kernel
  obtain ⟨⟨r, mp⟩, hcreate, hout⟩ := map_eq_ok.mp hends
  rw [Prod.mk.injEq] at hout
  obtain ⟨rfl, hout⟩ := hout
  obtain ⟨s, hs, hend⟩ := map_eq_ok.mp hout
  rw [Prod.mk.injEq] at hend
  refine ⟨mp, s, hcreate, hs, fun hsafe => ?_⟩
  have hinside := (hsafe.inside ⟨1, 0, 20⟩ (by simp [hend.2])).2
  simp [MemPool.chunk, hend.1] at hinside

end Kknf.LibEvent
