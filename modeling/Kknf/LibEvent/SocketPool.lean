/-
# Erasing while iterating: `SocketPool::SweepIdleSocket` and `SocketPool::DestroySocket`

`socket_map_` keeps the sockets in lists, one list for each key.  Two loops erase what an iterator
points to, and both move the iterator on before they erase:

* `SweepIdleSocket` deletes the idle sockets of each list, with `erase(list_it++)`, which is right.
  When the list has become empty it goes on with `socket_map_.erase(++map_it)`.  That erases the
  *next* entry, with sockets that were not looked at; the empty list stays, and `map_it` is left
  without an entry to point to.
* `DestroySocket` does the same to the list: `erase(++list_it)` erases the socket *after* the one
  to destroy.  That one stays in the list, and is then deleted.

`pool_iff`: a sweep is right exactly when every key keeps a socket, and `DestroySocket` exactly when
the socket is not in the map, so that there is nothing to erase.

The file is not C++ as it stands.  The names that have no declaration are read by the only thing
they can stand for: `map_it->erase(it++)` as `map_it->second.erase(list_it++)`,
`map_it->erase(++list_it)` with `second` likewise, `delted_num` as `deleted_num`, and
`map<Socket, ..>` as the type of `socket_map_`.  `SocketKey` has no `operator<`; the order of the
keys is a parameter here.  Seconds are integers.  `FindSocket` takes a socket out of a list by
`pop`, which no list has; it is left out.
-/
import Mathlib.Data.Prod.Lex
import Mathlib.Data.String.Basic
import Mathlib.Logic.Function.Basic
import Mathlib.Order.RelIso.Basic
import Kknf.Lib.OrdMap
import Kknf.LibEvent.NetFrame

namespace Kknf.LibEvent.SocketPool

open NetFrame (SocketType)
open OrdMap (lookup insertEntry)

/-! ## 1. Data -/

structure SocketKey where
  ip : String
  port : UInt16
  type : SocketType
  deriving DecidableEq

/-- What the pool reads of a `Socket`. -/
structure Sock where
  type : SocketType
  myIpstr : String
  myPort : UInt16
  peerIpstr : String
  peerPort : UInt16
  /-- `last_use_.tv_sec` -/
  lastUse : Int

/-- An entry of the map; a socket is given by its address. -/
abbrev Entry := SocketKey × List Nat

/-- `socket_map_`, in the order of the keys, and the `Socket` objects. -/
structure Pool where
  socketMap : List Entry
  heap : Nat → Option Sock

/-- A step without a meaning in C++, with the map it leaves behind. -/
inductive Fault
  /-- a pointer to a socket that was deleted -/
  | wildDeref
  /-- `erase` of `end()` -/
  | eraseEnd (socketMap : List Entry)
  /-- an iterator to something that was erased -/
  | erasedIterator (socketMap : List Entry)
  deriving DecidableEq

/-- The key that the type of a socket gives it. -/
def derivedKey (sk : Sock) : Option SocketKey :=
  match sk.type with
  | .tcpClient | .tcpServer => some ⟨sk.peerIpstr, sk.peerPort, sk.type⟩
  | .tcpListen => some ⟨sk.myIpstr, sk.myPort, sk.type⟩
  | .udpClient | .udpServer => none

/-- `SocketKey key;` and the assignments to it.  For the other types the port and the type of the
key are what `uninit` says. -/
def keyOf (uninit : UInt16 × SocketType) (sk : Sock) : SocketKey :=
  (derivedKey sk).getD ⟨"", uninit.1, uninit.2⟩

theorem keyOf_eq {sk : Sock} {k : SocketKey} (h : derivedKey sk = some k)
    (uninit : UInt16 × SocketType) : keyOf uninit sk = k := by
  rw [keyOf, h, Option.getD_some]

/-! ## 2. The functions -/

/-- The loop of `SweepIdleSocket` over a list, from `list_it` on. -/
def sweepList (now maxIdleSec : Int) : List Nat → (Nat → Option Sock) → Nat →
    Except Fault (List Nat × (Nat → Option Sock) × Nat)
  | [], heap, deletedNum => .ok ([], heap, deletedNum)
  | a :: t, heap, deletedNum =>
    match heap a with
    | none => .error .wildDeref
    | some sk =>
      if now - sk.lastUse > maxIdleSec then
        sweepList now maxIdleSec t (Function.update heap a none) (deletedNum + 1)
      else
        match sweepList now maxIdleSec t heap deletedNum with
        | .error f => .error f
        | .ok (t', r) => .ok (a :: t', r)

/-- The loop of `SweepIdleSocket` over the map: the entries before `map_it`, and those from it
on. -/
def sweepMap (now maxIdleSec : Int) : List Entry → List Entry → (Nat → Option Sock) → Nat →
    Except Fault (Pool × Nat)
  | before, [], heap, deletedNum => .ok (⟨before, heap⟩, deletedNum)
  | before, (k, l) :: after, heap, deletedNum =>
    match sweepList now maxIdleSec l heap deletedNum with
    | .error f => .error f
    | .ok ([], _, _) =>
      -- `erase(++map_it)`: the next entry goes, and `map_it` is compared with `map_endit` after
      -- that
      match after with
      | [] => .error (.eraseEnd (before ++ [(k, [])]))
      | _ :: after' => .error (.erasedIterator (before ++ (k, []) :: after'))
    | .ok (l', heap', deletedNum') =>
      sweepMap now maxIdleSec (before ++ [(k, l')]) after heap' deletedNum'

/-- `SweepIdleSocket`, when `gettimeofday` says `now`. -/
def sweepIdleSocket (p : Pool) (now maxIdleSec : Int) : Except Fault (Pool × Nat) :=
  sweepMap now maxIdleSec [] p.socketMap p.heap 0

/-- The map with another list at `k`. -/
def setList (m : List Entry) (k : SocketKey) (l : List Nat) : List Entry :=
  m.map fun e => if e.1 = k then (k, l) else e

section

variable (lt : SocketKey → SocketKey → Prop) [DecidableRel lt]

/-- `AddSocket` of the socket at `a`. -/
def addSocket (p : Pool) (uninit : UInt16 × SocketType) (a : Nat) : Except Fault (Pool × Int) :=
  match p.heap a with
  | none => .error .wildDeref
  | some sk =>
    match lookup lt p.socketMap (keyOf uninit sk) with
    | some l => .ok ({ p with socketMap := setList p.socketMap (keyOf uninit sk) (l ++ [a]) }, 1)
    | none => .ok ({ p with socketMap := insertEntry lt p.socketMap (keyOf uninit sk) [a] }, 0)

/-- The loop of `DestroySocket`: the sockets before `list_it`, and those from it on.  `put` writes
the list back to the map. -/
def destroyList (a : Nat) (put : List Nat → List Entry) : List Nat → List Nat →
    Except Fault (List Nat)
  | before, [] => .ok before
  | before, b :: after =>
    if a = b then
      -- `erase(++list_it)`
      match after with
      | [] => .error (.eraseEnd (put (before ++ [b])))
      | _ :: after' => .error (.erasedIterator (put (before ++ b :: after')))
    else destroyList a put (before ++ [b]) after

/-- `DestroySocket` of the socket at `a`. -/
def destroySocket (p : Pool) (uninit : UInt16 × SocketType) (a : Nat) : Except Fault (Pool × Int) :=
  match p.heap a with
  | none => .error .wildDeref
  | some sk =>
    match lookup lt p.socketMap (keyOf uninit sk) with
    | none => .ok (p, -2)
    | some l =>
      match destroyList a (setList p.socketMap (keyOf uninit sk)) [] l with
      | .error f => .error f
      | .ok l' =>
        .ok ({ socketMap := setList p.socketMap (keyOf uninit sk) l'
               heap := Function.update p.heap a none }, 0)

end

/-! ## 3. Pools in order -/

/-- The sockets in the lists of a map. -/
def socks (m : List Entry) : List Nat := m.flatMap Prod.snd

theorem mem_socks {m : List Entry} {a : Nat} : a ∈ socks m ↔ ∃ e ∈ m, a ∈ e.2 := List.mem_flatMap

/-- No list is empty, and each socket is there once, under the key of its type. -/
structure WellFormed (lt : SocketKey → SocketKey → Prop) (p : Pool) : Prop where
  sorted : p.socketMap.Pairwise fun a b => lt a.1 b.1
  nonempty : ∀ e ∈ p.socketMap, e.2 ≠ []
  keyed : ∀ e ∈ p.socketMap, ∀ a ∈ e.2, ∃ sk, p.heap a = some sk ∧ derivedKey sk = some e.1
  once : (socks p.socketMap).Nodup

/-- There is a socket at `a`, and it is idle for more than `maxIdleSec` seconds. -/
def idle (now maxIdleSec : Int) (heap : Nat → Option Sock) (a : Nat) : Bool :=
  (heap a).any fun sk => decide (now - sk.lastUse > maxIdleSec)

/-- A list without its idle sockets. -/
def busy (now maxIdleSec : Int) (heap : Nat → Option Sock) (l : List Nat) : List Nat :=
  l.filter fun a => !idle now maxIdleSec heap a

/-- The idle sockets of the map are deleted, and no others; their number is returned.  The rest is
where it was, and the keys without a rest are dropped. -/
def SweepRight (p : Pool) (now maxIdleSec : Int) (r : Except Fault (Pool × Nat)) : Prop :=
  ∃ p' n, r = .ok (p', n) ∧
    p'.socketMap = (p.socketMap.map fun e => (e.1, busy now maxIdleSec p.heap e.2)).filter
      (fun e => e.2 ≠ []) ∧
    (∀ a, p'.heap a = if a ∈ socks p.socketMap ∧ idle now maxIdleSec p.heap a then none
      else p.heap a) ∧
    n = (socks p.socketMap).countP (idle now maxIdleSec p.heap)

/-- The sockets under a key. -/
def under (lt : SocketKey → SocketKey → Prop) [DecidableRel lt] (m : List Entry) (k : SocketKey) :
    List Nat := (lookup lt m k).getD []

/-- The socket at `a` is deleted and in no list any more, and the others are as they were. -/
def DestroyRight (lt : SocketKey → SocketKey → Prop) [DecidableRel lt] (p : Pool) (a : Nat)
    (r : Except Fault (Pool × Int)) : Prop :=
  ∃ p' ret, r = .ok (p', ret) ∧ (∀ k, under lt p'.socketMap k = (under lt p.socketMap k).erase a) ∧
    p'.heap = Function.update p.heap a none

/-! ## 4. The sweep -/

section

variable {now maxIdleSec : Int}

/-- The sockets of `l` that are idle are deleted. -/
def freed (now maxIdleSec : Int) (heap : Nat → Option Sock) (l : List Nat) : Nat → Option Sock :=
  fun a => if a ∈ l ∧ idle now maxIdleSec heap a then none else heap a

theorem idle_of_mem {heap : Nat → Option Sock} {a : Nat} {sk : Sock} (h : heap a = some sk) :
    idle now maxIdleSec heap a = decide (now - sk.lastUse > maxIdleSec) := by
  rw [idle, h, Option.any_some]

/-- Whether a socket is idle depends on that socket only. -/
theorem idle_congr {heap heap' : Nat → Option Sock} {a : Nat} (h : heap a = heap' a) :
    idle now maxIdleSec heap a = idle now maxIdleSec heap' a := by
  rw [idle, idle, h]

theorem busy_congr {heap heap' : Nat → Option Sock} {l : List Nat}
    (h : ∀ a ∈ l, heap a = heap' a) : busy now maxIdleSec heap l = busy now maxIdleSec heap' l :=
  List.filter_congr fun a ha => by rw [idle_congr (h a ha)]

theorem countP_idle_congr {heap heap' : Nat → Option Sock} {l : List Nat}
    (h : ∀ a ∈ l, heap a = heap' a) :
    l.countP (idle now maxIdleSec heap) = l.countP (idle now maxIdleSec heap') :=
  List.countP_congr fun a ha => by rw [idle_congr (h a ha)]

theorem freed_of_not_mem {heap : Nat → Option Sock} {l : List Nat} {a : Nat} (h : a ∉ l) :
    freed now maxIdleSec heap l a = heap a :=
  if_neg fun hm => h hm.1

/-- Deleting the idle sockets of two lists without a common socket, one after the other. -/
theorem freed_append {heap : Nat → Option Sock} {l₁ l₂ : List Nat} (hdisj : List.Disjoint l₁ l₂) :
    freed now maxIdleSec (freed now maxIdleSec heap l₁) l₂ =
      freed now maxIdleSec heap (l₁ ++ l₂) := by
  funext a
  by_cases h₂ : a ∈ l₂
  · have h₁ : a ∉ l₁ := fun h => hdisj h h₂
    have hheap : freed now maxIdleSec heap l₁ a = heap a := freed_of_not_mem h₁
    simp only [freed, idle_congr hheap, h₂, List.mem_append, or_true, true_and]
    simp [h₁]
  · rw [freed_of_not_mem h₂]
    simp [freed, h₂]

/-- **The loop over a list takes the idle sockets out, and deletes and counts these.** -/
theorem sweepList_eq {l : List Nat} {heap : Nat → Option Sock} {deletedNum : Nat} (hl : l.Nodup)
    (halive : ∀ a ∈ l, heap a ≠ none) :
    sweepList now maxIdleSec l heap deletedNum = .ok (busy now maxIdleSec heap l,
      freed now maxIdleSec heap l, deletedNum + l.countP (idle now maxIdleSec heap)) := by
  induction l generalizing heap deletedNum with
  | nil =>
    have hfreed : freed now maxIdleSec heap [] = heap := funext fun a => freed_of_not_mem (by simp)
    simp [sweepList, busy, hfreed]
  | cons a t ih =>
    obtain ⟨hat, ht⟩ := List.nodup_cons.mp hl
    obtain ⟨sk, hsk⟩ := Option.ne_none_iff_exists'.mp (halive a List.mem_cons_self)
    have hidle : idle now maxIdleSec heap a = _ := idle_of_mem hsk
    rw [sweepList, hsk]
    by_cases hdelta : now - sk.lastUse > maxIdleSec
    · -- the socket is deleted; the rest of the list does not see that
      have hsame : ∀ b ∈ t, Function.update heap a none b = heap b := by
        intro b hb
        have hba : b ≠ a := by
          rintro rfl
          exact hat hb
        exact Function.update_of_ne hba _ _
      have hfreed : freed now maxIdleSec (Function.update heap a none) t =
          freed now maxIdleSec heap (a :: t) := by
        funext b
        by_cases hba : b = a
        · subst hba
          simp [freed, hat, hidle, hdelta]
        · have hb : Function.update heap a none b = heap b := Function.update_of_ne hba _ _
          simp [freed, idle_congr hb, hba]
      rw [decide_eq_true hdelta] at hidle
      dsimp only
      rw [if_pos hdelta, ih ht fun b hb => hsame b hb ▸ halive b (List.mem_cons_of_mem _ hb),
        busy_congr hsame, countP_idle_congr hsame, hfreed]
      simp only [busy, List.filter_cons, List.countP_cons, hidle]
      simp [Nat.add_assoc, Nat.add_comm]
    · rw [decide_eq_false hdelta] at hidle
      have hfreed : freed now maxIdleSec heap t = freed now maxIdleSec heap (a :: t) := by
        funext b
        by_cases hba : b = a
        · subst hba
          simp [freed, hat, hidle]
        · simp [freed, hba]
      dsimp only
      rw [if_neg hdelta, ih ht fun b hb => halive b (List.mem_cons_of_mem _ hb), hfreed]
      simp [busy, hidle]

/-- A list of the map that keeps a socket: the loop goes on with the next one. -/
theorem sweepMap_cons {before after : List Entry} {k : SocketKey} {l : List Nat}
    {heap : Nat → Option Sock} {deletedNum : Nat} (hl : l.Nodup) (halive : ∀ a ∈ l, heap a ≠ none)
    (hkeep : busy now maxIdleSec heap l ≠ []) :
    sweepMap now maxIdleSec before ((k, l) :: after) heap deletedNum =
      sweepMap now maxIdleSec (before ++ [(k, busy now maxIdleSec heap l)]) after
        (freed now maxIdleSec heap l) (deletedNum + l.countP (idle now maxIdleSec heap)) := by
  rw [sweepMap.eq_def]
  dsimp only
  rw [sweepList_eq hl halive]
  cases hbusy : busy now maxIdleSec heap l with
  | nil => exact absurd hbusy hkeep
  | cons b t => rfl

/-- An entry after the sweep. -/
def sweptEntry (now maxIdleSec : Int) (heap : Nat → Option Sock) (e : Entry) : Entry :=
  (e.1, busy now maxIdleSec heap e.2)

/-- **As long as every list keeps a socket, the loop over the map does to each what the loop over a
list does.** -/
theorem sweepMap_append {pre before after : List Entry} {heap : Nat → Option Sock}
    {deletedNum : Nat} (hnodup : (socks pre).Nodup) (halive : ∀ a ∈ socks pre, heap a ≠ none)
    (hkeep : ∀ e ∈ pre, busy now maxIdleSec heap e.2 ≠ []) :
    sweepMap now maxIdleSec before (pre ++ after) heap deletedNum =
      sweepMap now maxIdleSec (before ++ pre.map (sweptEntry now maxIdleSec heap)) after
        (freed now maxIdleSec heap (socks pre))
        (deletedNum + (socks pre).countP (idle now maxIdleSec heap)) := by
  induction pre generalizing before heap deletedNum with
  | nil =>
    have hfreed : freed now maxIdleSec heap [] = heap := funext fun a => freed_of_not_mem (by simp)
    simp [socks, hfreed]
  | cons e t ih =>
    obtain ⟨k, l⟩ := e
    have hsocks : socks ((k, l) :: t) = l ++ socks t := List.flatMap_cons
    rw [hsocks] at hnodup halive
    obtain ⟨hl, ht, hdisj⟩ := List.nodup_append'.mp hnodup
    -- the sockets of the lists to come are as they were
    have hsame : ∀ a ∈ socks t, freed now maxIdleSec heap l a = heap a := fun a ha =>
      freed_of_not_mem fun h => hdisj h ha
    have hlist : ∀ e ∈ t, ∀ a ∈ e.2, freed now maxIdleSec heap l a = heap a := fun e he a ha =>
      hsame a (mem_socks.mpr ⟨e, he, ha⟩)
    have hmap : t.map (sweptEntry now maxIdleSec (freed now maxIdleSec heap l)) =
        t.map (sweptEntry now maxIdleSec heap) :=
      List.map_congr_left fun e he => by rw [sweptEntry, sweptEntry, busy_congr (hlist e he)]
    rw [List.cons_append, sweepMap_cons hl (fun a ha => halive a (List.mem_append_left _ ha))
      (hkeep (k, l) List.mem_cons_self), ih ht]
    · rw [hmap, freed_append hdisj, countP_idle_congr hsame, hsocks, List.countP_append,
        List.map_cons, List.append_assoc, List.singleton_append, Nat.add_assoc]
      rfl
    · intro a ha
      rw [hsame a ha]
      exact halive a (List.mem_append_right _ ha)
    · intro e he
      rw [busy_congr (hlist e he)]
      exact hkeep e (List.mem_cons_of_mem _ he)

/-- **The first list that becomes empty ends the sweep.**  It stays in the map; the entry after it
is erased with its sockets, or else `end()` is. -/
theorem sweepMap_fault {pre post : List Entry} {k : SocketKey} {l : List Nat}
    {heap : Nat → Option Sock} (hnodup : (socks (pre ++ (k, l) :: post)).Nodup)
    (halive : ∀ a ∈ socks (pre ++ (k, l) :: post), heap a ≠ none)
    (hkeep : ∀ e ∈ pre, busy now maxIdleSec heap e.2 ≠ [])
    (hempty : busy now maxIdleSec heap l = []) :
    sweepMap now maxIdleSec [] (pre ++ (k, l) :: post) heap 0 =
      match post with
      | [] => .error (.eraseEnd (pre.map (sweptEntry now maxIdleSec heap) ++ [(k, [])]))
      | _ :: post' =>
        .error (.erasedIterator
          (pre.map (sweptEntry now maxIdleSec heap) ++ (k, []) :: post')) := by
  have hsocks : socks (pre ++ (k, l) :: post) = socks pre ++ (l ++ socks post) := by
    rw [socks, List.flatMap_append, List.flatMap_cons]
    rfl
  rw [hsocks] at hnodup halive
  obtain ⟨hpre, hrest, hdisj⟩ := List.nodup_append'.mp hnodup
  have hsame : ∀ a ∈ l, freed now maxIdleSec heap (socks pre) a = heap a := fun a ha =>
    freed_of_not_mem fun h => hdisj h (List.mem_append_left _ ha)
  rw [sweepMap_append hpre (fun a ha => halive a (List.mem_append_left _ ha)) hkeep,
    sweepMap.eq_def]
  dsimp only
  rw [sweepList_eq (List.nodup_append'.mp hrest).1, busy_congr hsame, hempty, List.nil_append]
  · cases post with
    | nil => rfl
    | cons e post' => rfl
  · intro a ha
    rw [hsame a ha]
    exact halive a (List.mem_append_right _ (List.mem_append_left _ ha))

end

section

variable {lt : SocketKey → SocketKey → Prop} {p : Pool} {now maxIdleSec : Int}

theorem WellFormed.alive (hp : WellFormed lt p) : ∀ a ∈ socks p.socketMap, p.heap a ≠ none := by
  intro a ha
  obtain ⟨e, he, hae⟩ := mem_socks.mp ha
  obtain ⟨sk, hsk, -⟩ := hp.keyed e he a hae
  rw [hsk]
  exact Option.some_ne_none sk

/-- A sweep after which every key has a socket. -/
theorem sweepIdleSocket_eq (hp : WellFormed lt p)
    (hkeep : ∀ e ∈ p.socketMap, busy now maxIdleSec p.heap e.2 ≠ []) :
    sweepIdleSocket p now maxIdleSec =
      .ok (⟨p.socketMap.map (sweptEntry now maxIdleSec p.heap),
        freed now maxIdleSec p.heap (socks p.socketMap)⟩,
        (socks p.socketMap).countP (idle now maxIdleSec p.heap)) := by
  have happ : sweepMap now maxIdleSec [] (p.socketMap ++ []) p.heap 0 = _ :=
    sweepMap_append hp.once hp.alive hkeep
  rw [List.append_nil, List.nil_append, Nat.zero_add] at happ
  rw [sweepIdleSocket, happ]
  rfl

/-- A sweep that empties a list does not come to its end. -/
theorem sweepIdleSocket_error (hp : WellFormed lt p)
    (hempty : ∃ e ∈ p.socketMap, busy now maxIdleSec p.heap e.2 = []) :
    ∃ f, sweepIdleSocket p now maxIdleSec = .error f := by
  -- the first list that becomes empty
  obtain ⟨⟨k, l⟩, hfind⟩ : ∃ e, p.socketMap.find?
      (fun e => decide (busy now maxIdleSec p.heap e.2 = [])) = some e := by
    obtain ⟨e, he, hbusy⟩ := hempty
    exact Option.isSome_iff_exists.mp (List.find?_isSome.mpr ⟨e, he, decide_eq_true hbusy⟩)
  obtain ⟨hl, pre, post, hsplit, hpre⟩ := List.find?_eq_some_iff_append.mp hfind
  have honce := hp.once
  have halive := hp.alive
  rw [hsplit] at honce halive
  rw [sweepIdleSocket, hsplit, sweepMap_fault honce halive (fun e he => by simpa using hpre e he)
    (of_decide_eq_true hl)]
  cases post with
  | nil => exact ⟨_, rfl⟩
  | cons e post' => exact ⟨_, rfl⟩

/-- The destructor sweeps with -1, so it does not get past the first key. -/
theorem destructor_error (hp : WellFormed lt p) (hne : p.socketMap ≠ [])
    (hpast : ∀ a sk, p.heap a = some sk → sk.lastUse ≤ now) :
    ∃ f, sweepIdleSocket p now (-1) = .error f := by
  obtain ⟨e, he⟩ := List.exists_mem_of_ne_nil _ hne
  refine sweepIdleSocket_error hp ⟨e, he, List.filter_eq_nil_iff.mpr fun a ha => ?_⟩
  obtain ⟨sk, hsk, -⟩ := hp.keyed e he a ha
  have hlast := hpast a sk hsk
  rw [idle_of_mem hsk, decide_eq_true (by omega)]
  simp

/-- **A sweep does what it should exactly when every key keeps a socket.** -/
theorem sweepRight_iff (hp : WellFormed lt p) :
    SweepRight p now maxIdleSec (sweepIdleSocket p now maxIdleSec) ↔
      ∀ e ∈ p.socketMap, ∃ a ∈ e.2, idle now maxIdleSec p.heap a = false := by
  have hbusy : ∀ e : Entry, busy now maxIdleSec p.heap e.2 ≠ [] ↔
      ∃ a ∈ e.2, idle now maxIdleSec p.heap a = false := by
    intro e
    simp [busy, List.filter_eq_nil_iff]
  simp only [← hbusy]
  constructor
  · rintro ⟨p', n, hr, -⟩ e he hempty
    obtain ⟨f, hf⟩ := sweepIdleSocket_error hp ⟨e, he, hempty⟩
    rw [hf] at hr
    cases hr
  · intro hkeep
    refine ⟨_, _, sweepIdleSocket_eq hp hkeep, ?_, fun a => rfl, rfl⟩
    refine (List.filter_eq_self.mpr ?_).symm
    intro e he
    obtain ⟨e', he', rfl⟩ := List.mem_map.mp he
    exact decide_eq_true (hkeep e' he')

end

/-! ## 5. `AddSocket` and `DestroySocket` -/

/-- A map with one socket more is in order again. -/
theorem WellFormed.of_perm {lt : SocketKey → SocketKey → Prop} {p : Pool} {a : Nat}
    {k : SocketKey} (hp : WellFormed lt p) {sk : Sock} {m : List Entry}
    (hsk : p.heap a = some sk) (hkey : derivedKey sk = some k) (hnot : a ∉ socks p.socketMap)
    (hm : m.Pairwise fun a b => lt a.1 b.1)
    (hmem : ∀ e ∈ m, e ∈ p.socketMap ∨ e = (k, [a]) ∨ ∃ l, (k, l) ∈ p.socketMap ∧ e = (k, l ++ [a]))
    (hperm : (socks m).Perm (a :: socks p.socketMap)) :
    WellFormed lt { p with socketMap := m } where
  sorted := hm
  nonempty := by
    intro e he
    rcases hmem e he with hold | rfl | ⟨l, -, rfl⟩
    · exact hp.nonempty e hold
    · exact List.cons_ne_nil _ _
    · exact List.append_ne_nil_of_right_ne_nil _ (List.cons_ne_nil _ _)
  keyed := by
    intro e he b hb
    rcases hmem e he with hold | rfl | ⟨l, hl, rfl⟩
    · exact hp.keyed e hold b hb
    · cases List.mem_singleton.mp hb
      exact ⟨sk, hsk, hkey⟩
    · rcases List.mem_append.mp hb with hb | hb
      · exact hp.keyed (k, l) hl b hb
      · cases List.mem_singleton.mp hb
        exact ⟨sk, hsk, hkey⟩
  once := hperm.nodup_iff.mpr (List.nodup_cons.mpr ⟨hnot, hp.once⟩)

section

variable {lt : SocketKey → SocketKey → Prop} [DecidableRel lt] [IsStrictTotalOrder SocketKey lt]
  {p : Pool} {a : Nat} {k : SocketKey} {l : List Nat}

omit [DecidableRel lt] in
/-- Another list at a key is put where the old one was. -/
theorem setList_split {m : List Entry} (hm : m.Pairwise fun a b => lt a.1 b.1) (h : (k, l) ∈ m) :
    ∃ pre post, m = pre ++ (k, l) :: post ∧ ∀ l', setList m k l' = pre ++ (k, l') :: post := by
  obtain ⟨pre, post, rfl⟩ := List.append_of_mem h
  obtain ⟨-, hpost, hpre⟩ := List.pairwise_append.mp hm
  refine ⟨pre, post, rfl, fun l' => ?_⟩
  have hkeep : ∀ es : List Entry, (∀ e ∈ es, e.1 ≠ k) →
      es.map (fun e => if e.1 = k then (k, l') else e) = es := by
    intro es hne
    calc es.map (fun e => if e.1 = k then (k, l') else e)
        = es.map id := List.map_congr_left fun e he => if_neg (hne e he)
      _ = es := List.map_id es
  rw [setList, List.map_append, List.map_cons, if_pos rfl, hkeep pre, hkeep post]
  · rintro e he rfl
    exact irrefl_of lt e.1 ((List.pairwise_cons.mp hpost).1 e he)
  · rintro e he rfl
    exact irrefl_of lt e.1 (hpre e he (e.1, l) List.mem_cons_self)

theorem socks_split (pre post : List Entry) :
    socks (pre ++ (k, l) :: post) = socks pre ++ (l ++ socks post) := by
  rw [socks, List.flatMap_append, List.flatMap_cons]
  rfl

/-- **`AddSocket` of a socket that is not in the map and has a key keeps the pool in order.** -/
theorem addSocket_wellFormed (hp : WellFormed lt p) {sk : Sock} (hsk : p.heap a = some sk)
    (hkey : derivedKey sk = some k) (hnot : a ∉ socks p.socketMap) (uninit : UInt16 × SocketType) :
    ∃ m ret, addSocket lt p uninit a = .ok ({ p with socketMap := m }, ret) ∧
      WellFormed lt { p with socketMap := m } ∧ (socks m).Perm (a :: socks p.socketMap) := by
  rw [addSocket, hsk]
  dsimp only
  rw [keyOf_eq hkey]
  cases hfind : lookup lt p.socketMap k with
  | none =>
    have hperm := OrdMap.insertEntry_perm [a] hfind
    have hsocks : (socks (insertEntry lt p.socketMap k [a])).Perm (a :: socks p.socketMap) :=
      hperm.flatMap_right Prod.snd
    refine ⟨_, 0, rfl,
      hp.of_perm hsk hkey hnot (OrdMap.insertEntry_sorted k [a] hp.sorted) ?_ hsocks,
      hsocks⟩
    intro e he
    rcases OrdMap.mem_of_mem_insertEntry he with rfl | hold
    · exact Or.inr (Or.inl rfl)
    · exact Or.inl hold
  | some l =>
    have hmem := (OrdMap.mem_iff_lookup hp.sorted).mpr hfind
    obtain ⟨pre, post, hsplit, hset⟩ := setList_split hp.sorted hmem
    have hsocks : (socks (setList p.socketMap k (l ++ [a]))).Perm (a :: socks p.socketMap) := by
      rw [hset, hsplit, socks_split, socks_split, List.append_assoc, List.singleton_append,
        ← List.append_assoc, ← List.append_assoc]
      exact List.perm_middle
    refine ⟨_, 1, rfl, hp.of_perm hsk hkey hnot ?_ ?_ hsocks, hsocks⟩
    · have hsorted := hp.sorted
      rw [hset]
      rw [hsplit] at hsorted
      simpa [List.pairwise_append, List.pairwise_cons] using hsorted
    · intro e he
      rw [hset] at he
      rcases List.mem_append.mp he with he | he
      · exact Or.inl (hsplit ▸ List.mem_append_left _ he)
      rcases List.mem_cons.mp he with rfl | he
      · exact Or.inr (Or.inr ⟨l, hmem, rfl⟩)
      · exact Or.inl (hsplit ▸ List.mem_append_right _ (List.mem_cons_of_mem _ he))

end

section

variable {a : Nat} {put : List Nat → List Entry} {before : List Nat}

/-- The loop runs through a list without the socket. -/
theorem destroyList_of_not_mem {after : List Nat}
    (h : a ∉ after) : destroyList a put before after = .ok (before ++ after) := by
  induction after generalizing before with
  | nil => rw [destroyList, List.append_nil]
  | cons b t ih =>
    obtain ⟨hab, ht⟩ := not_or.mp (List.mem_cons.not.mp h)
    rw [destroyList.eq_def]
    dsimp only
    rw [if_neg hab, ih ht, List.append_assoc, List.singleton_append]

/-- **The socket to destroy ends the loop.**  It stays in the list; the one after it is erased. -/
theorem destroyList_of_mem {pre post : List Nat} (h : a ∉ pre) :
    destroyList a put before (pre ++ a :: post) =
      match post with
      | [] => .error (.eraseEnd (put (before ++ pre ++ [a])))
      | _ :: post' => .error (.erasedIterator (put (before ++ pre ++ a :: post'))) := by
  induction pre generalizing before with
  | nil =>
    rw [List.nil_append, destroyList.eq_def]
    dsimp only
    rw [if_pos rfl, List.append_nil]
  | cons b t ih =>
    obtain ⟨hab, ht⟩ := not_or.mp (List.mem_cons.not.mp h)
    have hb : before ++ [b] ++ t = before ++ b :: t := List.append_assoc _ _ _
    rw [List.cons_append, destroyList.eq_def]
    dsimp only
    rw [if_neg hab, ih ht, hb]

end

section

variable {lt : SocketKey → SocketKey → Prop} [DecidableRel lt] [IsStrictTotalOrder SocketKey lt]
  {p : Pool} {a : Nat} {sk : Sock}

omit [IsStrictTotalOrder SocketKey lt] in
/-- A socket whose key is in the map: it is sought in the list. -/
theorem destroySocket_of_find (hsk : p.heap a = some sk) {uninit : UInt16 × SocketType}
    {l : List Nat} (hfind : lookup lt p.socketMap (keyOf uninit sk) = some l) :
    destroySocket lt p uninit a =
      match destroyList a (setList p.socketMap (keyOf uninit sk)) [] l with
      | .error f => .error f
      | .ok l' =>
        .ok (⟨setList p.socketMap (keyOf uninit sk) l', Function.update p.heap a none⟩, 0) := by
  rw [destroySocket, hsk]
  dsimp only
  rw [hfind]

/-- A socket of the map is not destroyed: the loop does not get past it. -/
theorem destroySocket_error (hp : WellFormed lt p) (hsk : p.heap a = some sk)
    (hmem : a ∈ socks p.socketMap) (uninit : UInt16 × SocketType) :
    ∃ f, destroySocket lt p uninit a = .error f := by
  obtain ⟨⟨k, l⟩, he, hal⟩ := mem_socks.mp hmem
  obtain ⟨sk', hsk', hkey⟩ := hp.keyed (k, l) he a hal
  have hfind := (OrdMap.mem_iff_lookup hp.sorted).mp he
  obtain ⟨pre, post, rfl, hpre⟩ := List.eq_append_cons_of_mem hal
  rw [hsk] at hsk'
  cases hsk'
  have hkeyOf : keyOf uninit sk = k := keyOf_eq hkey uninit
  rw [← hkeyOf] at hfind
  rw [destroySocket_of_find hsk hfind, destroyList_of_mem hpre]
  cases post with
  | nil => exact ⟨_, rfl⟩
  | cons b post' => exact ⟨_, rfl⟩

/-- A socket that is not in the map, though others with its key are. -/
theorem destroySocket_eq (hp : WellFormed lt p) (hsk : p.heap a = some sk)
    (hnot : a ∉ socks p.socketMap) {uninit : UInt16 × SocketType} {l : List Nat}
    (hfind : lookup lt p.socketMap (keyOf uninit sk) = some l) :
    destroySocket lt p uninit a = .ok ({ p with heap := Function.update p.heap a none }, 0) := by
  have hmem := (OrdMap.mem_iff_lookup hp.sorted).mpr hfind
  have hal : a ∉ l := fun h => hnot (mem_socks.mpr ⟨_, hmem, h⟩)
  obtain ⟨pre, post, hsplit, hset⟩ := setList_split hp.sorted hmem
  rw [destroySocket_of_find hsk hfind, destroyList_of_not_mem hal, List.nil_append]
  dsimp only
  rw [hset, ← hsplit]

/-- **`DestroySocket` does what it should exactly when there is nothing to take out of the map, but
the key of the socket is there.** -/
theorem destroyRight_iff (hp : WellFormed lt p) (hsk : p.heap a = some sk)
    (uninit : UInt16 × SocketType) :
    DestroyRight lt p a (destroySocket lt p uninit a) ↔
      a ∉ socks p.socketMap ∧ lookup lt p.socketMap (keyOf uninit sk) ≠ none := by
  constructor
  · rintro ⟨p', ret, hr, -, hheap⟩
    refine ⟨fun hmem => ?_, fun hnone => ?_⟩
    · obtain ⟨f, hf⟩ := destroySocket_error hp hsk hmem uninit
      rw [hf] at hr
      cases hr
    · -- -2 is returned, and the socket is not deleted
      rw [destroySocket, hsk] at hr
      dsimp only at hr
      rw [hnone] at hr
      cases hr
      have ha := congrFun hheap a
      rw [hsk, Function.update_self] at ha
      cases ha
  · rintro ⟨hnot, hfind⟩
    obtain ⟨l, hl⟩ := Option.ne_none_iff_exists'.mp hfind
    refine ⟨_, _, destroySocket_eq hp hsk hnot hl, fun k => ?_, rfl⟩
    refine (List.erase_of_not_mem fun ha => hnot ?_).symm
    unfold under at ha
    cases hk : lookup lt p.socketMap k with
    | none =>
      rw [hk] at ha
      cases ha
    | some l' =>
      rw [hk, Option.getD_some] at ha
      exact mem_socks.mpr ⟨(k, l'), (OrdMap.mem_iff_lookup hp.sorted).mpr hk, ha⟩

/-- **What the pool does right**: a sweep after which every key has a socket, and the destruction of
a socket that the map does not have. -/
theorem pool_iff (hp : WellFormed lt p) (now maxIdleSec : Int) (uninit : UInt16 × SocketType) :
    (SweepRight p now maxIdleSec (sweepIdleSocket p now maxIdleSec) ↔
      ∀ e ∈ p.socketMap, ∃ a ∈ e.2, idle now maxIdleSec p.heap a = false) ∧
    ∀ a sk, p.heap a = some sk → (DestroyRight lt p a (destroySocket lt p uninit a) ↔
      a ∉ socks p.socketMap ∧ lookup lt p.socketMap (keyOf uninit sk) ≠ none) :=
  ⟨sweepRight_iff hp, fun _ _ hsk => destroyRight_iff hp hsk uninit⟩

end

/-! ## 6. A pool with two sockets -/

/-- A key as a tuple: port, address and type. -/
def keyTuple : SocketKey ↪ Nat ×ₗ String ×ₗ Nat where
  toFun k := toLex (k.port.toNat, toLex (k.ip, k.type.ctorIdx))
  inj' := by
    rintro ⟨ip, port, type⟩ ⟨ip', port', type'⟩ h
    simp only [EmbeddingLike.apply_eq_iff_eq, Prod.mk.injEq, UInt16.toNat_inj] at h
    obtain ⟨rfl, rfl, htype⟩ := h
    cases type <;> cases type' <;> first | rfl | cases htype

/-- Keys by port, then address, then type. -/
def keyLt (k k' : SocketKey) : Prop := keyTuple k < keyTuple k'

instance : DecidableRel keyLt := fun k k' => inferInstanceAs (Decidable (keyTuple k < keyTuple k'))

instance : IsStrictTotalOrder SocketKey keyLt :=
  (RelEmbedding.preimage keyTuple (· < ·)).isStrictTotalOrder

/-- A client socket to a port of one server. -/
def client (port : UInt16) (lastUse : Int) : Sock where
  type := .tcpClient
  myIpstr := "10.0.0.2"
  myPort := 4000
  peerIpstr := "10.0.0.1"
  peerPort := port
  lastUse := lastUse

/-- Clients to the ports 80 and 81; the one at 3 is not in the map. -/
def clients : Nat → Option Sock
  | 1 => some (client 80 0)
  | 2 => some (client 81 100)
  | 3 => some (client 81 100)
  | _ => none

def clientKey (port : UInt16) : SocketKey := ⟨"10.0.0.1", port, .tcpClient⟩

def twoClients : Pool := ⟨[(clientKey 80, [1]), (clientKey 81, [2])], clients⟩

theorem keyLt_of_port {port port' : UInt16} (h : port.toNat < port'.toNat) :
    keyLt (clientKey port) (clientKey port') :=
  Prod.Lex.toLex_lt_toLex.mpr (Or.inl h)

/-- The key of the second client is found behind that of the first one. -/
theorem lookup_second (l : List Nat) (es : List Entry) :
    lookup keyLt ((clientKey 80, l) :: es) (clientKey 81) = lookup keyLt es (clientKey 81) := by
  rw [lookup, if_pos (keyLt_of_port (by decide))]

/-- The pool is what two calls of `AddSocket` make of an empty one. -/
theorem twoClients_added (uninit : UInt16 × SocketType) :
    addSocket keyLt ⟨[], clients⟩ uninit 1 = .ok (⟨[(clientKey 80, [1])], clients⟩, 0) ∧
      addSocket keyLt ⟨[(clientKey 80, [1])], clients⟩ uninit 2 = .ok (twoClients, 0) := by
  constructor
  · rfl
  · have hfind : lookup keyLt [(clientKey 80, [1])] (keyOf uninit (client 81 100)) = none :=
      lookup_second [1] []
    have hinsert : insertEntry keyLt [(clientKey 80, [1])] (keyOf uninit (client 81 100)) [2] =
        twoClients.socketMap :=
      if_pos (keyLt_of_port (by decide))
    have hsk : clients 2 = some (client 81 100) := rfl
    simp only [addSocket, hsk, hfind, hinsert]
    rfl

theorem lookup_client81 : lookup keyLt twoClients.socketMap (clientKey 81) = some [2] := by
  have hirrefl : ¬ keyLt (clientKey 81) (clientKey 81) := irrefl_of keyLt _
  rw [twoClients, lookup_second, lookup, if_neg hirrefl, if_neg hirrefl]

theorem twoClients_wellFormed : WellFormed keyLt twoClients where
  sorted := List.pairwise_pair.mpr (keyLt_of_port (by decide))
  nonempty := by simp [twoClients]
  keyed := by simp [twoClients, clients, client, clientKey, derivedKey]
  once := by decide

/-- When nobody is idle a sweep is right, and so is the destruction of the client at 3, which is not
in the map; the destruction of the client at 2 is not. -/
theorem twoClients_right :
    SweepRight twoClients 100 1000 (sweepIdleSocket twoClients 100 1000) ∧
      DestroyRight keyLt twoClients 3 (destroySocket keyLt twoClients (0, .tcpClient) 3) ∧
      ¬ DestroyRight keyLt twoClients 2 (destroySocket keyLt twoClients (0, .tcpClient) 2) := by
  obtain ⟨hsweep, hdestroy⟩ := pool_iff twoClients_wellFormed 100 1000 (0, .tcpClient)
  refine ⟨hsweep.mpr (by decide), (hdestroy 3 _ rfl).mpr ⟨by decide, ?_⟩, fun h => ?_⟩
  · rw [keyOf_eq (k := clientKey 81) rfl, lookup_client81]
    exact Option.some_ne_none _
  · exact ((hdestroy 2 _ rfl).mp h).1 (by decide)

/-- The client to port 80 is idle for more than 10 seconds: the sweep erases the key of the other
one, which is not.  `DestroySocket` of the client to port 81 erases `end()`. -/
theorem twoClients_wrong :
    WellFormed keyLt twoClients ∧
      sweepIdleSocket twoClients 100 10 = .error (.erasedIterator [(clientKey 80, [])]) ∧
      ¬ SweepRight twoClients 100 10 (sweepIdleSocket twoClients 100 10) ∧
      destroySocket keyLt twoClients (0, .tcpClient) 2 = .error (.eraseEnd twoClients.socketMap) ∧
      ¬ DestroyRight keyLt twoClients 2 (destroySocket keyLt twoClients (0, .tcpClient) 2) := by
  have hsweep : sweepIdleSocket twoClients 100 10 = .error (.erasedIterator [(clientKey 80, [])]) :=
    rfl
  have hdestroy : destroySocket keyLt twoClients (0, .tcpClient) 2 =
      .error (.eraseEnd twoClients.socketMap) := by
    have hsk : twoClients.heap 2 = some (client 81 100) := rfl
    have hfind : lookup keyLt twoClients.socketMap (keyOf (0, .tcpClient) (client 81 100)) =
        some [2] := lookup_client81
    rw [destroySocket_of_find hsk hfind]
    rfl
  refine ⟨twoClients_wellFormed, hsweep, ?_, hdestroy, ?_⟩
  · rintro ⟨p', n, hr, -⟩
    rw [hsweep] at hr
    cases hr
  · rintro ⟨p', n, hr, -⟩
    rw [hdestroy] at hr
    cases hr

end Kknf.LibEvent.SocketPool
