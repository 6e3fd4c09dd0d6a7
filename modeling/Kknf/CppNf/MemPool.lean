/-
# The two-size block pool of `cppnf/buffer.hpp`

`MemPool` allocates one region of large blocks and one of small blocks and keeps a list of the idle
blocks of each size.  `GetSmallBlock` and `GetLargeBlock` take the first block of a list, and
`PutBlock` puts a block back in front of the list that its length says.  The copies in `nf` and
`zxbnf` differ in names only.

The functions are right: from ANY two idle lists, what is held and what is idle of a size is always
what that list started with (`accounted_along`), so a pool does what it is for exactly when it is
started with each block once in the list of its size (`sound_iff_start`).  The constructor is not:
its second loop is a copy of the first, so every large block is in its list twice and no small block
is in any list (`memPool_unsound`).

Two things about the text of the source: `PutBlock` calls `length()` and `start()`, which are fields
in `cppnf` and are read as these fields, and `malloc` is taken to return regions of the sizes asked
for.
-/
import Mathlib.Data.List.Perm.Subperm
import Mathlib.Data.List.Nodup
import Kknf.Lib.Run

namespace Kknf.CppNf

open Kknf.Run

/-! ## 1. Data -/

/-- The two sizes of block, and the two regions. -/
inductive Kind
  | large
  | small
  deriving DecidableEq, Repr

/-- The arguments of the constructor. -/
structure Config where
  largeBlockSize : Nat
  largeBlockNum : Nat
  smallBlockSize : Nat
  smallBlockNum : Nat
  largeSize_pos : 0 < largeBlockSize
  smallSize_pos : 0 < smallBlockSize
  largeNum_pos : 0 < largeBlockNum
  smallNum_pos : 0 < smallBlockNum
  sizes_ne : largeBlockSize ≠ smallBlockSize

def Config.size (c : Config) : Kind → Nat
  | .large => c.largeBlockSize
  | .small => c.smallBlockSize

def Config.num (c : Config) : Kind → Nat
  | .large => c.largeBlockNum
  | .small => c.smallBlockNum

theorem Config.size_pos (c : Config) : ∀ k, 0 < c.size k
  | .large => c.largeSize_pos
  | .small => c.smallSize_pos

theorem Config.num_pos (c : Config) : ∀ k, 0 < c.num k
  | .large => c.largeNum_pos
  | .small => c.smallNum_pos

theorem Config.size_inj (c : Config) : ∀ {k l : Kind}, c.size k = c.size l → k = l
  | .large, .large, _ => rfl
  | .small, .small, _ => rfl
  | .large, .small, h => absurd h c.sizes_ne
  | .small, .large, h => absurd h.symm c.sizes_ne

/-- `large_pool_ + off` or `small_pool_ + off`. -/
structure Addr where
  pool : Kind
  off : Nat
  deriving DecidableEq, Repr

structure Buffer where
  start : Addr
  head : Nat
  tail : Nat
  length : Nat
  deriving DecidableEq, Repr

/-- `Buffer::Buffer`. -/
def Buffer.new (s : Addr) (l : Nat) : Buffer where
  start := s
  head := 0
  tail := 0
  length := l

structure MemPool where
  idleLargeBlocks : List Addr
  idleSmallBlocks : List Addr
  deriving DecidableEq, Repr

inductive Fault
  /-- a block is put back that is not held -/
  | disabled
  /-- `assert((buf->start() - pool) % block_size == 0)` -/
  | assertStart
  /-- `assert(false)`: a block of neither length -/
  | assertLength
  deriving DecidableEq, Repr

/-! ## 2. The functions -/

/-- The addresses `pool + i * size` for `i < num`, in order. -/
def Config.addrs (c : Config) (k : Kind) : List Addr :=
  (List.range (c.num k)).map fun i => ⟨k, i * c.size k⟩

/-- `MemPool::MemPool`: both loops fill the list of the large blocks. -/
def MemPool.new (c : Config) : MemPool where
  idleLargeBlocks := c.addrs .large ++ c.addrs .large
  idleSmallBlocks := []

def getSmallBlock (c : Config) (mp : MemPool) : Option Buffer × MemPool :=
  match mp.idleSmallBlocks with
  | [] => (none, mp)
  | a :: rest => (some (Buffer.new a c.smallBlockSize), { mp with idleSmallBlocks := rest })

def getLargeBlock (c : Config) (mp : MemPool) : Option Buffer × MemPool :=
  match mp.idleLargeBlocks with
  | [] => (none, mp)
  | a :: rest => (some (Buffer.new a c.largeBlockSize), { mp with idleLargeBlocks := rest })

def putBlock (c : Config) (mp : MemPool) (buf : Buffer) : Except Fault MemPool :=
  if buf.length = c.largeBlockSize then
    if buf.start.pool ≠ .large ∨ buf.start.off % c.largeBlockSize ≠ 0 then .error .assertStart
    else .ok { mp with idleLargeBlocks := buf.start :: mp.idleLargeBlocks }
  else if buf.length = c.smallBlockSize then
    if buf.start.pool ≠ .small ∨ buf.start.off % c.smallBlockSize ≠ 0 then .error .assertStart
    else .ok { mp with idleSmallBlocks := buf.start :: mp.idleSmallBlocks }
  else .error .assertLength

/-! The two sizes are treated alike, so the proofs go by the kind. -/

/-- The idle list of a size. -/
def MemPool.idle (mp : MemPool) : Kind → List Addr
  | .large => mp.idleLargeBlocks
  | .small => mp.idleSmallBlocks

def getBlock (c : Config) : Kind → MemPool → Option Buffer × MemPool
  | .large => getLargeBlock c
  | .small => getSmallBlock c

theorem getBlock_nil {c : Config} {mp : MemPool} {k : Kind} (h : mp.idle k = []) :
    getBlock c k mp = (none, mp) := by
  rcases k with _ | _ <;> simp_all [getBlock, getLargeBlock, getSmallBlock, MemPool.idle]

/-- What `Get` does when the list is not empty. -/
theorem getBlock_cons {c : Config} {mp : MemPool} {k : Kind} {a : Addr} {rest : List Addr}
    (h : mp.idle k = a :: rest) : ∃ mp', getBlock c k mp = (some (Buffer.new a (c.size k)), mp') ∧
      mp'.idle k = rest ∧ ∀ l, l ≠ k → mp'.idle l = mp.idle l := by
  rcases k with _ | _
  · refine ⟨{ mp with idleLargeBlocks := rest }, ?_, rfl, ?_⟩
    · simp_all [getBlock, getLargeBlock, MemPool.idle, Config.size]
    · rintro (_ | _) hl
      · exact absurd rfl hl
      · rfl
  · refine ⟨{ mp with idleSmallBlocks := rest }, ?_, rfl, ?_⟩
    · simp_all [getBlock, getSmallBlock, MemPool.idle, Config.size]
    · rintro (_ | _) hl
      · rfl
      · exact absurd rfl hl

/-- `Get` returns 0 when the list is empty, and only then. -/
theorem getBlock_eq_none_iff {c : Config} {mp : MemPool} {k : Kind} :
    (getBlock c k mp).1 = none ↔ mp.idle k = [] := by
  rcases h : mp.idle k with _ | ⟨a, rest⟩
  · simp [getBlock_nil h]
  · obtain ⟨mp', hget, -⟩ := getBlock_cons (c := c) h
    simp [hget]

/-- What `PutBlock` does with a block of size `k` that starts where such a block starts. -/
theorem putBlock_own {c : Config} (mp : MemPool) {k : Kind} {buf : Buffer}
    (hlen : buf.length = c.size k) (hpool : buf.start.pool = k)
    (hoff : buf.start.off % c.size k = 0) : ∃ mp', putBlock c mp buf = .ok mp' ∧
      mp'.idle k = buf.start :: mp.idle k ∧ ∀ l, l ≠ k → mp'.idle l = mp.idle l := by
  rcases k with _ | _
  · refine ⟨{ mp with idleLargeBlocks := buf.start :: mp.idleLargeBlocks }, ?_, rfl, ?_⟩
    · simp_all [putBlock, Config.size]
    · rintro (_ | _) hl
      · exact absurd rfl hl
      · rfl
  · refine ⟨{ mp with idleSmallBlocks := buf.start :: mp.idleSmallBlocks }, ?_, rfl, ?_⟩
    · have hne : ¬ c.smallBlockSize = c.largeBlockSize := fun h => c.sizes_ne h.symm
      simp_all [putBlock, Config.size]
    · rintro (_ | _) hl
      · rfl
      · exact absurd rfl hl

/-! ## 3. Runs -/

/-- A pool and the blocks its users hold. -/
structure System where
  pool : MemPool
  held : List Buffer
  deriving DecidableEq, Repr

inductive Event
  | getLargeBlock
  | getSmallBlock
  | putBlock (buf : Buffer)
  deriving DecidableEq, Repr

/-- The user holds what `Get` returned. -/
def System.take (s : System) (r : Option Buffer × MemPool) : System where
  pool := r.2
  held := r.1.toList ++ s.held

def step (c : Config) (s : System) : Event → Except Fault System
  | .getLargeBlock => .ok (s.take (getLargeBlock c s.pool))
  | .getSmallBlock => .ok (s.take (getSmallBlock c s.pool))
  | .putBlock buf =>
    if buf ∉ s.held then .error .disabled
    else
      match putBlock c s.pool buf with
      | .error f => .error f
      | .ok mp => .ok { pool := mp, held := s.held.erase buf }

/-- A pool that nobody holds a block of. -/
def System.start (mp : MemPool) : System where
  pool := mp
  held := []

/-- The addresses in a list of blocks that are of one size. -/
def ofKind (c : Config) (k : Kind) (bufs : List Buffer) : List Addr :=
  (bufs.filter (·.length = c.size k)).map (·.start)

/-- The addresses of the held blocks of a size. -/
def System.heldOf (s : System) (c : Config) (k : Kind) : List Addr := ofKind c k s.held

theorem ofKind_perm {c : Config} {k : Kind} {bufs bufs' : List Buffer} (h : bufs.Perm bufs') :
    (ofKind c k bufs).Perm (ofKind c k bufs') :=
  (h.filter _).map _

theorem ofKind_cons_self {c : Config} {k : Kind} {b : Buffer} {bufs : List Buffer}
    (h : b.length = c.size k) : ofKind c k (b :: bufs) = b.start :: ofKind c k bufs := by
  simp [ofKind, h]

theorem ofKind_cons_ne {c : Config} {k l : Kind} {b : Buffer} {bufs : List Buffer}
    (h : b.length = c.size k) (hl : l ≠ k) : ofKind c l (b :: bufs) = ofKind c l bufs := by
  have hne : ¬ c.size k = c.size l := fun hkl => hl (c.size_inj hkl).symm
  simp [ofKind, h, hne]

/-- A block that is held is one of the held blocks of its size. -/
theorem mem_ofKind {c : Config} {k : Kind} {b : Buffer} {bufs : List Buffer} (hb : b ∈ bufs)
    (h : b.length = c.size k) : b.start ∈ ofKind c k bufs :=
  List.mem_map_of_mem (List.mem_filter.mpr ⟨hb, by simpa using h⟩)

/-! ## 4. What is held and what is idle -/

/-- Every address that the pool is started with is that of a block of its list's size. -/
def OwnStart (c : Config) (mp : MemPool) : Prop :=
  ∀ k, mp.idle k ⊆ c.addrs k

/-- What is held and what is idle of a size is what the pool `init` had idle. -/
structure Accounted (c : Config) (init : MemPool) (s : System) : Prop where
  perm : ∀ k, (s.heldOf c k ++ s.pool.idle k).Perm (init.idle k)
  sized : ∀ b ∈ s.held, ∃ k, b.length = c.size k

theorem accounted_start (c : Config) (mp : MemPool) : Accounted c mp (.start mp) where
  perm _ := List.Perm.refl _
  sized _ hb := absurd hb List.not_mem_nil

theorem mem_addrs {c : Config} {k : Kind} {a : Addr} (h : a ∈ c.addrs k) :
    a.pool = k ∧ a.off % c.size k = 0 := by
  obtain ⟨i, -, rfl⟩ := List.mem_map.mp h
  exact ⟨rfl, Nat.mul_mod_left i _⟩

theorem nodup_addrs (c : Config) (k : Kind) : (c.addrs k).Nodup := by
  refine (List.nodup_range).map fun i j hij => ?_
  have hoff : i * c.size k = j * c.size k := congrArg Addr.off hij
  exact Nat.eq_of_mul_eq_mul_right (c.size_pos k) hoff

@[simp] theorem length_addrs (c : Config) (k : Kind) : (c.addrs k).length = c.num k := by
  simp [Config.addrs]

/-- `Get` moves the first idle block to the held ones. -/
theorem accounted_take {c : Config} {init : MemPool} {s : System} (hs : Accounted c init s)
    (k : Kind) : Accounted c init (s.take (getBlock c k s.pool)) := by
  rcases hidle : s.pool.idle k with _ | ⟨a, rest⟩
  · rw [getBlock_nil hidle]
    exact hs
  · obtain ⟨mp', hget, hk, hl⟩ := getBlock_cons (c := c) hidle
    rw [hget]
    constructor
    · intro l
      by_cases hlk : l = k
      · subst hlk
        have hheld : (s.take (some (Buffer.new a (c.size l)), mp')).heldOf c l =
            a :: s.heldOf c l := ofKind_cons_self rfl
        have hmid : (a :: s.heldOf c l ++ rest).Perm (s.heldOf c l ++ a :: rest) :=
          List.perm_middle.symm
        rw [hheld]
        change (a :: s.heldOf c l ++ mp'.idle l).Perm (init.idle l)
        rw [hk]
        exact hmid.trans (hidle ▸ hs.perm l)
      · have hheld : (s.take (some (Buffer.new a (c.size k)), mp')).heldOf c l =
            s.heldOf c l := ofKind_cons_ne rfl hlk
        rw [hheld]
        change (s.heldOf c l ++ mp'.idle l).Perm (init.idle l)
        rw [hl l hlk]
        exact hs.perm l
    · intro b hb
      rcases List.mem_cons.mp hb with rfl | hb
      · exact ⟨k, rfl⟩
      · exact hs.sized b hb

/-- Every held or idle address of a size is one that the pool was started with. -/
theorem Accounted.mem_start {c : Config} {init : MemPool} {s : System} (hs : Accounted c init s)
    {k : Kind} {a : Addr} (h : a ∈ s.heldOf c k ∨ a ∈ s.pool.idle k) : a ∈ init.idle k :=
  (hs.perm k).mem_iff.mp (List.mem_append.mpr h)

/-- `PutBlock` of a held block succeeds and moves it to the idle ones. -/
theorem accounted_put {c : Config} {init : MemPool} (hown : OwnStart c init) {s : System}
    (hs : Accounted c init s) {buf : Buffer} (hbuf : buf ∈ s.held) :
    ∃ mp', putBlock c s.pool buf = .ok mp' ∧
      Accounted c init { pool := mp', held := s.held.erase buf } := by
  obtain ⟨k, hlen⟩ := hs.sized buf hbuf
  have hstart : buf.start ∈ c.addrs k := hown k (hs.mem_start (Or.inl (mem_ofKind hbuf hlen)))
  obtain ⟨mp', hput, hk, hl⟩ :=
    putBlock_own s.pool hlen (mem_addrs hstart).1 (mem_addrs hstart).2
  have herase : s.held.Perm (buf :: s.held.erase buf) := List.perm_cons_erase hbuf
  refine ⟨mp', hput, ⟨fun l => ?_, fun b hb => hs.sized b (List.mem_of_mem_erase hb)⟩⟩
  have hheld := ofKind_perm (c := c) (k := l) herase
  by_cases hlk : l = k
  · subst hlk
    rw [ofKind_cons_self hlen] at hheld
    change (ofKind c l (s.held.erase buf) ++ mp'.idle l).Perm (init.idle l)
    rw [hk]
    refine (List.perm_middle.trans ?_).trans (hs.perm l)
    exact (hheld.symm.append_right (s.pool.idle l))
  · rw [ofKind_cons_ne hlen hlk] at hheld
    change (ofKind c l (s.held.erase buf) ++ mp'.idle l).Perm (init.idle l)
    rw [hl l hlk]
    exact (hheld.symm.append_right (s.pool.idle l)).trans (hs.perm l)

/-- A step fails only by putting back what is not held, and keeps the account. -/
theorem step_cases {c : Config} {init : MemPool} (hown : OwnStart c init) {s : System}
    (hs : Accounted c init s) (e : Event) :
    step c s e = .error .disabled ∨ ∃ t, step c s e = .ok t ∧ Accounted c init t := by
  rcases e with _ | _ | ⟨buf⟩
  · exact Or.inr ⟨_, rfl, accounted_take hs .large⟩
  · exact Or.inr ⟨_, rfl, accounted_take hs .small⟩
  · by_cases hbuf : buf ∈ s.held
    · obtain ⟨mp', hput, hacc⟩ := accounted_put hown hs hbuf
      exact Or.inr ⟨_, by simp [step, hbuf, hput], hacc⟩
    · exact Or.inl (by simp [step, hbuf])

/-- **The account is kept along every run**, and no assertion fails. -/
theorem accounted_along {c : Config} {init : MemPool} (hown : OwnStart c init) (es : List Event)
    {s : System} (hs : Accounted c init s) :
    exec (step c) s es = .error .disabled ∨
      ∃ t, exec (step c) s es = .ok t ∧ Accounted c init t :=
  exec_error_or_ok (fun _ e ht => step_cases hown ht e) hs

theorem accounted_of_exec {c : Config} {init : MemPool} (hown : OwnStart c init)
    {es : List Event} {s : System} (h : exec (step c) (.start init) es = .ok s) :
    Accounted c init s := by
  rcases accounted_along hown es (accounted_start c init) with hdis | ⟨t, ht, hacc⟩
  · cases hdis.symm.trans h
  · cases ht.symm.trans h
    exact hacc

/-! ## 5. What the pool is for -/

/-- A state of the pool is in order. -/
structure Sound (c : Config) (s : System) : Prop where
  /-- no two held blocks share an address -/
  exclusive : (s.held.map (·.start)).Nodup
  /-- each block is held once or idle once, in the list of its size -/
  once : ∀ k, ∀ a ∈ c.addrs k, (s.heldOf c k).count a + (s.pool.idle k).count a = 1
  own : ∀ k a, a ∈ s.heldOf c k ∨ a ∈ s.pool.idle k → a ∈ c.addrs k
  /-- `Get` returns 0 when all blocks of the size are held, and only then -/
  get_none : ∀ k, (getBlock c k s.pool).1 = none ↔ ∀ a ∈ c.addrs k, a ∈ s.heldOf c k

/-- In some run from the pool `mp`, `n` blocks of size `k` are held at the same time. -/
def CanHold (c : Config) (mp : MemPool) (k : Kind) (n : Nat) : Prop :=
  ∃ es s, exec (step c) (.start mp) es = .ok s ∧ (s.heldOf c k).length = n

/-- What is held is what is held of the one size and what is held of the other. -/
theorem starts_perm {c : Config} {bufs : List Buffer}
    (h : ∀ b ∈ bufs, ∃ k, b.length = c.size k) :
    (bufs.map (·.start)).Perm (ofKind c .large bufs ++ ofKind c .small bufs) := by
  have hsmall : bufs.filter (fun b => !decide (b.length = c.size .large)) =
      bufs.filter (·.length = c.size .small) := by
    refine List.filter_congr fun b hb => ?_
    obtain ⟨k, hk⟩ := h b hb
    rcases k with _ | _
    · have hne : c.size .large ≠ c.size .small := c.sizes_ne
      simp [hk, hne]
    · have hne : c.size .small ≠ c.size .large := fun e => c.sizes_ne e.symm
      simp [hk, hne]
  have hsplit :=
    List.filter_append_perm (fun b : Buffer => decide (b.length = c.size .large)) bufs
  rw [hsmall] at hsplit
  simpa [ofKind] using (hsplit.map (·.start)).symm

/-- **A pool started with each block once, in the list of its size, is always in order.** -/
theorem Accounted.sound {c : Config} {init : MemPool} {s : System} (hs : Accounted c init s)
    (hinit : ∀ k, (init.idle k).Perm (c.addrs k)) : Sound c s := by
  have hperm : ∀ k, (s.heldOf c k ++ s.pool.idle k).Perm (c.addrs k) :=
    fun k => (hs.perm k).trans (hinit k)
  have hmem : ∀ k a, a ∈ s.heldOf c k ∨ a ∈ s.pool.idle k ↔ a ∈ c.addrs k := fun k a => by
    rw [← List.mem_append]
    exact (hperm k).mem_iff
  have hnodup : ∀ k, (s.heldOf c k ++ s.pool.idle k).Nodup :=
    fun k => (hperm k).nodup_iff.mpr (nodup_addrs c k)
  refine ⟨?_, fun k a ha => ?_, fun k a => (hmem k a).mp, fun k => ?_⟩
  · refine (starts_perm hs.sized).nodup_iff.mpr ?_
    refine List.nodup_append'.mpr ⟨(hnodup .large).of_append_left,
      (hnodup .small).of_append_left, fun a hal has => ?_⟩
    -- an address is in one region only
    have hl := (mem_addrs ((hmem .large a).mp (Or.inl hal))).1
    have hsm := (mem_addrs ((hmem .small a).mp (Or.inl has))).1
    cases hl.symm.trans hsm
  · rw [← List.count_append, (hperm k).count_eq a]
    exact List.count_eq_one_of_mem (nodup_addrs c k) ha
  · rw [getBlock_eq_none_iff]
    constructor
    · intro hnil a ha
      rcases (hmem k a).mpr ha with hheld | hidle
      · exact hheld
      · simp [hnil] at hidle
    · intro hall
      refine List.eq_nil_iff_forall_not_mem.mpr fun a ha => ?_
      have hheld := hall a ((hmem k a).mp (Or.inr ha))
      exact List.disjoint_of_nodup_append (hnodup k) hheld ha

/-- A state in order shows how the pool was started. -/
theorem Accounted.start_of_sound {c : Config} {init : MemPool} {s : System}
    (hs : Accounted c init s) (hsound : Sound c s) (k : Kind) :
    (init.idle k).Perm (c.addrs k) := by
  refine List.perm_iff_count.mpr fun a => ?_
  rw [← (hs.perm k).count_eq a, List.count_append]
  by_cases ha : a ∈ c.addrs k
  · rw [hsound.once k a ha, List.count_eq_one_of_mem (nodup_addrs c k) ha]
  · have hheld : a ∉ s.heldOf c k := fun h => ha (hsound.own k a (Or.inl h))
    have hidle : a ∉ s.pool.idle k := fun h => ha (hsound.own k a (Or.inr h))
    simp [List.count_eq_zero_of_not_mem, ha, hheld, hidle]

/-- **`GetBlock` and `PutBlock` are right**: in every state of every run the pool is in order
exactly when it was started with each block once, in the list of its size. -/
theorem sound_iff_start {c : Config} {init : MemPool} (hown : OwnStart c init)
    {es : List Event} {s : System} (h : exec (step c) (.start init) es = .ok s) :
    Sound c s ↔ ∀ k, (init.idle k).Perm (c.addrs k) :=
  ⟨fun hsound k => (accounted_of_exec hown h).start_of_sound hsound k,
    fun hinit => (accounted_of_exec hown h).sound hinit⟩

/-! ## 6. How many blocks can be held -/

/-- The call of `Get` for a size. -/
def Event.get : Kind → Event
  | .large => .getLargeBlock
  | .small => .getSmallBlock

theorem step_get (c : Config) (s : System) (k : Kind) :
    step c s (.get k) = .ok (s.take (getBlock c k s.pool)) := by
  rcases k with _ | _ <;> rfl

theorem exec_gets {c : Config} {k : Kind} : ∀ {n : Nat} {s : System},
    n ≤ (s.pool.idle k).length → ∃ t, exec (step c) s (List.replicate n (.get k)) = .ok t ∧
      (t.heldOf c k).length = (s.heldOf c k).length + n
  | 0, s, _ => ⟨s, rfl, rfl⟩
  | n + 1, s, hn => by
    rcases hidle : s.pool.idle k with _ | ⟨a, rest⟩
    · simp [hidle] at hn
    · obtain ⟨mp', hget, hk, -⟩ := getBlock_cons (c := c) hidle
      have hlen : n ≤ ((s.take (getBlock c k s.pool)).pool.idle k).length := by
        rw [hget]
        change n ≤ (mp'.idle k).length
        rw [hk]
        simpa [hidle] using hn
      obtain ⟨t, ht, hheld⟩ := exec_gets (c := c) hlen
      have htake : (s.take (getBlock c k s.pool)).heldOf c k = a :: s.heldOf c k := by
        rw [hget]
        exact ofKind_cons_self rfl
      refine ⟨t, exec_cons_ok.mpr ⟨_, step_get c s k, ht⟩, ?_⟩
      rw [hheld, htake, List.length_cons]
      omega

/-- As many blocks of a size can be held at the same time as the pool started with. -/
theorem canHold_iff {c : Config} {init : MemPool} (hown : OwnStart c init) (k : Kind) (n : Nat) :
    CanHold c init k n ↔ n ≤ (init.idle k).length := by
  constructor
  · rintro ⟨es, s, h, rfl⟩
    have hlen := ((accounted_of_exec hown h).perm k).length_eq
    rw [List.length_append] at hlen
    omega
  · intro hn
    obtain ⟨t, ht, hheld⟩ := exec_gets (s := .start init) (c := c) hn
    exact ⟨_, t, ht, by simpa [System.start, System.heldOf, ofKind] using hheld⟩

/-! ## 7. The constructor -/

theorem ownStart_new (c : Config) : OwnStart c (.new c)
  | .large, a, ha => by simpa [MemPool.new, MemPool.idle] using ha
  | .small, a, ha => by simp [MemPool.new, MemPool.idle] at ha

/-- **The pool is never in order**: after whatever calls, no state of it is `Sound`; two held blocks
may share an address; twice as many large blocks can be held as there are, and no small block. -/
theorem memPool_unsound (c : Config) :
    (∀ es s, exec (step c) (.start (.new c)) es = .ok s → ¬ Sound c s) ∧
    (∃ es s, exec (step c) (.start (.new c)) es = .ok s ∧ ¬ (s.held.map (·.start)).Nodup) ∧
    (∀ n, CanHold c (.new c) .large n ↔ n ≤ 2 * c.largeBlockNum) ∧
    (∀ n, CanHold c (.new c) .small n ↔ n = 0) := by
  have hlarge : ∀ n, CanHold c (.new c) .large n ↔ n ≤ 2 * c.largeBlockNum := fun n => by
    rw [canHold_iff (ownStart_new c)]
    have hlen : ((MemPool.new c).idle .large).length = 2 * c.largeBlockNum := by
      change (c.addrs .large ++ c.addrs .large).length = 2 * c.largeBlockNum
      rw [List.length_append, length_addrs]
      exact (Nat.two_mul _).symm
    rw [hlen]
  refine ⟨fun es s h hsound => ?_, ?_, hlarge, fun n => ?_⟩
  · have hperm := (sound_iff_start (ownStart_new c) h).mp hsound .small
    have hlen : 0 = c.num .small := by
      simpa [MemPool.new, MemPool.idle] using hperm.length_eq
    exact absurd hlen.symm (c.num_pos .small).ne'
  · -- one block more is held than there are addresses
    have hpos := c.largeNum_pos
    obtain ⟨es, s, h, hheld⟩ := (hlarge (c.largeBlockNum + 1)).mpr (by omega)
    refine ⟨es, s, h, fun hnodup => ?_⟩
    have hsub : (s.heldOf c .large).Sublist (s.held.map (·.start)) :=
      List.filter_sublist.map _
    have hown : s.heldOf c .large ⊆ c.addrs .large := fun a ha =>
      ownStart_new c .large ((accounted_of_exec (ownStart_new c) h).mem_start (Or.inl ha))
    have hle := ((hnodup.sublist hsub).subperm hown).length_le
    rw [hheld, length_addrs] at hle
    exact absurd hle (Nat.not_succ_le_self _)
  · rw [canHold_iff (ownStart_new c)]
    simp [MemPool.new, MemPool.idle]

/-- One block of each size. -/
def oneOfEach : Config where
  largeBlockSize := 2
  largeBlockNum := 1
  smallBlockSize := 1
  smallBlockNum := 1
  largeSize_pos := by decide
  smallSize_pos := by decide
  largeNum_pos := by decide
  smallNum_pos := by decide
  sizes_ne := by decide

/-- The only large block is given out twice, and then no small block is given out. -/
theorem one_block_held_twice :
    ∃ s, exec (step oneOfEach) (.start (.new oneOfEach))
        [.getLargeBlock, .getLargeBlock, .getSmallBlock] = .ok s ∧
      s.held.map (·.start) = [⟨.large, 0⟩, ⟨.large, 0⟩] ∧ ¬ Sound oneOfEach s := by
  refine ⟨_, rfl, rfl, fun h => ?_⟩
  exact absurd h.exclusive (by decide)

end Kknf.CppNf
