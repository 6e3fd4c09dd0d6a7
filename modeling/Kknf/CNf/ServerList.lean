/-
# The list of server sockets: `c_nf/io_service.c`

Server sockets are kept in a doubly linked list, the one used last in front, so that the idle ones
are at its end.  `mark_server_socket_info` moves a socket to the front, and
`destroy_idle_server_socket_info` walks from the tail and destroys what has been idle too long.

* `mark_server_socket_info` sets no link back to the socket it moves, and leaves the one back from
  its successor, so the links that the other function follows are wrong.
* `destroy_idle_server_socket_info` has a second loop, which begins at the socket destroyed last and
  destroys it once more.  When none was destroyed, this loop begins at whatever the local variable
  `old` holds, which nothing has set.

`server_list_iff` says that the list stays right only where there is nothing to do: the socket that
is marked is in front already, no socket is idle, and `old` happens to be null.

C leaves open what can be read of a `socket_info` after its `free`, and what is in `old`.  Here a
`socket_info` keeps its contents and `old` is any pointer, which is the most that a program could
hope for; only a second `free` is a fault.
-/
import Mathlib.Data.List.Nodup
import Kknf.Lib.Bytes
import Kknf.Lib.Linked

namespace Kknf.CNf.ServerList

open Kknf.Linked

/-! ## 1. Data -/

/-- `struct timeval`. -/
structure TimeVal where
  tvSec : Nat
  tvUsec : Nat
  deriving DecidableEq

def TimeVal.micros (t : TimeVal) : Nat := t.tvSec * 1000000 + t.tvUsec

/-- What is read of a `socket_info`.  A link is null or an address. -/
structure SocketInfo where
  atimeSec : Nat
  atimeUsec : Nat
  prev : Option Nat
  next : Option Nat
  deriving DecidableEq

/-- When the socket was used last, in microseconds. -/
def SocketInfo.atime (info : SocketInfo) : Nat := info.atimeSec * 1000000 + info.atimeUsec

/-- The list of an `io_service`, the `socket_info`s in memory, and those that were destroyed. -/
structure IoService where
  serverListHead : Option Nat
  serverListTail : Option Nat
  idleTimeout : Nat
  heap : Nat → Option SocketInfo
  destroyed : List Nat

inductive Fault
  /-- a link leads to no `socket_info` -/
  | wildDeref
  /-- `assert(io->server_list_head == info)` -/
  | assertHead
  /-- a `socket_info` is freed again -/
  | doubleFree
  /-- a loop that goes on for longer than the fuel lasts -/
  | endless
  deriving DecidableEq

/-! ## 2. The functions -/

/-- `mark_server_socket_info` of the socket at `a`, at the time `now`. -/
def markServerSocketInfo (io : IoService) (a : Nat) (now : TimeVal) : Except Fault IoService :=
  match io.heap a with
  | none => .error .wildDeref
  | some old =>
    let info := { old with atimeSec := now.tvSec, atimeUsec := now.tvUsec }
    let heap := Function.update io.heap a (some info)
    match info.prev with
    | none =>
      if io.serverListHead = some a then .ok { io with heap := heap } else .error .assertHead
    | some p =>
      match heap p with
      | none => .error .wildDeref
      | some prevInfo =>
        .ok { io with
          serverListTail := if io.serverListTail = some a then info.prev else io.serverListTail
          heap :=
            Function.update (Function.update heap p (some { prevInfo with next := info.next })) a
              (some { info with prev := none, next := io.serverListHead })
          serverListHead := some a }

/-- `destroy_socket_info`. -/
def destroySocketInfo (io : IoService) (a : Nat) : Except Fault IoService :=
  match io.heap a with
  | none => .error .wildDeref
  | some _ =>
    if a ∈ io.destroyed then .error .doubleFree
    else .ok { io with destroyed := a :: io.destroyed }

/-- The test of the first loop, in `uint64_t`: the socket has not been idle long enough. -/
def SocketInfo.inUse (info : SocketInfo) (now : TimeVal) (idleTimeout : Nat) : Bool :=
  sizeT (((now.tvSec : Int) - info.atimeSec) * 1000000 + now.tvUsec - info.atimeUsec) < idleTimeout

/-- The first loop, with `iter`, `old` and `ret`. -/
def idleLoop (now : TimeVal) : Nat → IoService → Option Nat → Option Nat → Nat →
    Except Fault (IoService × Option Nat × Option Nat × Nat)
  | 0, _, _, _, _ => .error .endless
  | _ + 1, io, none, old, ret => .ok (io, none, old, ret)
  | fuel + 1, io, some iter, old, ret =>
    match io.heap iter with
    | none => .error .wildDeref
    | some info =>
      if info.inUse now io.idleTimeout then .ok (io, some iter, old, ret)
      else
        match destroySocketInfo io iter with
        | .error f => .error f
        | .ok io => idleLoop now fuel io info.prev (some iter) (ret + 1)

/-- The second loop. -/
def restLoop : Nat → IoService → Option Nat → Except Fault IoService
  | 0, _, _ => .error .endless
  | _ + 1, io, none => .ok io
  | fuel + 1, io, some old =>
    match io.heap old with
    | none => .error .wildDeref
    | some info =>
      match destroySocketInfo io old with
      | .error f => .error f
      | .ok io => restLoop fuel io info.next

/-- `destroy_idle_server_socket_info`, at the time `now`, with `old` as the stack has left it. -/
def destroyIdleServerSocketInfo (fuel : Nat) (io : IoService) (now : TimeVal) (old : Option Nat) :
    Except Fault (Nat × IoService) :=
  match idleLoop now fuel io io.serverListTail old 0 with
  | .error f => .error f
  | .ok (io, iter, old, ret) =>
    let io :=
      match iter with
      | some _ => { io with serverListTail := iter }
      | none => { io with serverListHead := none, serverListTail := none }
    match restLoop fuel io old with
    | .error f => .error f
    | .ok io => .ok (ret, io)

/-! ## 3. What the functions are for -/

def IoService.atime (io : IoService) (a : Nat) : Nat := ((io.heap a).map (·.atime)).getD 0

/-- The list of server sockets is `l`: linked both ways, the one used last in front, none of them
destroyed. -/
structure WellFormed (io : IoService) (l : List Nat) : Prop where
  head : io.serverListHead = l.head?
  tail : io.serverListTail = l.getLast?
  dlist : DList SocketInfo.next SocketInfo.prev io.heap l
  nodup : l.Nodup
  sorted : l.Pairwise fun a b => io.atime b ≤ io.atime a
  alive : ∀ a ∈ l, a ∉ io.destroyed

/-- The socket has been idle for at least `idle_timeout` microseconds. -/
def IoService.idle (io : IoService) (now : TimeVal) (a : Nat) : Bool :=
  io.atime a + io.idleTimeout ≤ now.micros

/-- Marking moves the socket to the front and leaves the others as they are. -/
def MarksRight (io : IoService) (l : List Nat) (a : Nat) (now : TimeVal) : Prop :=
  ∃ io', markServerSocketInfo io a now = .ok io' ∧ WellFormed io' (a :: l.erase a) ∧
    io'.atime a = now.micros ∧ (∀ b ∈ l, b ≠ a → io'.atime b = io.atime b) ∧
    io'.destroyed = io.destroyed

/-- Every idle socket is destroyed once and counted, and the others remain. -/
def DestroysRight (io : IoService) (l : List Nat) (now : TimeVal) (old : Option Nat) : Prop :=
  ∃ fuel ret io', destroyIdleServerSocketInfo fuel io now old = .ok (ret, io') ∧
    (∃ gone, io'.destroyed = gone ++ io.destroyed ∧ gone.Perm (l.filter (io.idle now))) ∧
    ret = (l.filter (io.idle now)).length ∧ WellFormed io' (l.filter fun a => !io.idle now a)

/-! ## 4. Marking -/

/-- A socket keeps its links, and another one its `prev` and its `atime`, whatever is marked. -/
theorem mark_cases {io io' : IoService} {a : Nat} {now : TimeVal}
    (h : markServerSocketInfo io a now = .ok io') :
    ∃ info, io.heap a = some info ∧
      ((info.prev = none ∧ io' = { io with
          heap := Function.update io.heap a
            (some { info with atimeSec := now.tvSec, atimeUsec := now.tvUsec }) }) ∨
        ∃ p, info.prev = some p ∧ ∀ b ≠ a,
          (io'.heap b).map (·.prev) = (io.heap b).map (·.prev)) := by
  simp only [markServerSocketInfo] at h
  split at h
  · cases h
  · next info hinfo =>
    refine ⟨info, hinfo, ?_⟩
    split at h
    · next hprev =>
      split at h
      · cases h
        exact Or.inl ⟨hprev, rfl⟩
      · cases h
    · next p hprev =>
      split at h
      · cases h
      · next prevInfo hp =>
        cases h
        refine Or.inr ⟨p, hprev, ?_⟩
        intro b hb
        dsimp only
        rw [Function.update_of_ne hb]
        rcases eq_or_ne b p with rfl | hbp
        · rw [Function.update_of_ne hb] at hp
          rw [Function.update_self, hp]
          rfl
        · rw [Function.update_of_ne hbp, Function.update_of_ne hb]

theorem WellFormed.exists_heap {io : IoService} {l : List Nat} (h : WellFormed io l) {a : Nat}
    (ha : a ∈ l) : ∃ info, io.heap a = some info ∧ (info.prev = none ↔ l.head? = some a) := by
  obtain ⟨info, hinfo, ⟨hhead, hprev⟩ | ⟨b, hb, hprev⟩⟩ := h.dlist.prev_of_mem ha
  · exact ⟨info, hinfo, fun _ => hhead, fun _ => hprev⟩
  · refine ⟨info, hinfo, fun hnone => ?_, fun hhead => ?_⟩
    · rw [hnone] at hprev
      cases hprev
    · -- the first one links back to nothing
      have hlist := h.dlist
      rcases l with _ | ⟨c, l⟩
      · cases hhead
      · obtain rfl := Option.some.inj hhead
        obtain ⟨⟨info', hinfo', hnone, -⟩, -⟩ := hlist
        obtain rfl := Option.some.inj (hinfo.symm.trans hinfo')
        exact hnone

/-- Marking the socket in front: its links stay, and it has been used last. -/
theorem marksRight_of_head {io : IoService} {l : List Nat} {a : Nat} {now : TimeVal}
    (hwf : WellFormed io l) (hclock : ∀ b ∈ l, io.atime b ≤ now.micros)
    (hhead : l.head? = some a) : MarksRight io l a now := by
  rcases l with _ | ⟨c, l⟩
  · cases hhead
  · obtain rfl := Option.some.inj hhead
    obtain ⟨info, hinfo, hiff⟩ := hwf.exists_heap List.mem_cons_self
    have hprev : info.prev = none := hiff.mpr rfl
    have hlist : io.serverListHead = some c := hwf.head
    have hmark : markServerSocketInfo io c now = .ok { io with
        heap := Function.update io.heap c
          (some { info with atimeSec := now.tvSec, atimeUsec := now.tvUsec }) } := by
      simp only [markServerSocketInfo, hinfo, hprev, hlist, if_true]
    have hself : ((Function.update io.heap c
        (some { info with atimeSec := now.tvSec, atimeUsec := now.tvUsec }) c).map
          (·.atime)).getD 0 = now.micros := by
      rw [Function.update_self]
      rfl
    have hother : ∀ b ∈ l, Function.update io.heap c
        (some { info with atimeSec := now.tvSec, atimeUsec := now.tvUsec }) b = io.heap b := by
      intro b hb
      refine Function.update_of_ne ?_ _ _
      rintro rfl
      exact (List.nodup_cons.mp hwf.nodup).1 hb
    refine ⟨_, hmark, ⟨?_, ?_, ?_, ?_, ?_, ?_⟩, hself, ?_, rfl⟩
    · exact hlist
    · rw [List.erase_cons_head]
      exact hwf.tail
    · rw [List.erase_cons_head]
      refine hwf.dlist.congr_links ?_
      intro b hb n hn
      rcases List.mem_cons.mp hb with rfl | hb
      · obtain rfl := Option.some.inj (hinfo.symm.trans hn)
        exact ⟨_, Function.update_self _ _ _, rfl, rfl⟩
      · exact ⟨n, (hother b hb).trans hn, rfl, rfl⟩
    · rw [List.erase_cons_head]
      exact hwf.nodup
    · rw [List.erase_cons_head]
      have hsorted := List.pairwise_cons.mp hwf.sorted
      refine List.pairwise_cons.mpr ⟨?_, hsorted.2.imp_of_mem ?_⟩
      · intro b hb
        simp only [IoService.atime, hself, hother b hb]
        exact hclock b (List.mem_cons_of_mem c hb)
      · intro x y hx hy hle
        simp only [IoService.atime, hother x hx, hother y hy]
        exact hle
    · rw [List.erase_cons_head]
      exact hwf.alive
    · intro b hb hne
      have hmem : b ∈ l := (List.mem_cons.mp hb).resolve_left hne
      simp only [IoService.atime, hother b hmem]

/-- Marking another one leaves the socket that was in front without a link back. -/
theorem head_of_marksRight {io : IoService} {l : List Nat} {a : Nat} {now : TimeVal}
    (hwf : WellFormed io l) (ha : a ∈ l) (h : MarksRight io l a now) : l.head? = some a := by
  by_contra hne
  obtain ⟨io', hmark, hwf', -⟩ := h
  rcases l with _ | ⟨c, l⟩
  · cases ha
  · have hca : c ≠ a := fun hca => hne (congrArg some hca)
    obtain ⟨info, hinfo, hcases⟩ := mark_cases hmark
    obtain ⟨info', hinfo', hiff⟩ := hwf.exists_heap ha
    obtain rfl := Option.some.inj (hinfo.symm.trans hinfo')
    rcases hcases with ⟨hnone, -⟩ | ⟨p, -, hkeep⟩
    · exact hne (hiff.mp hnone)
    · obtain ⟨first, hfirst, hfirstIff⟩ := hwf.exists_heap List.mem_cons_self
      have hnone : first.prev = none := hfirstIff.mpr rfl
      have hlist := hwf'.dlist
      rw [List.erase_cons_tail (by simpa using hca)] at hlist
      obtain ⟨-, ⟨n, hn, hback, -⟩, -⟩ := hlist
      have hsame := hkeep c hca
      rw [hn, hfirst] at hsame
      simp only [Option.map_some, hback, hnone] at hsame
      cases hsame

/-! ## 5. Destroying -/

theorem destroySocketInfo_ok {io io' : IoService} {a : Nat}
    (h : destroySocketInfo io a = .ok io') :
    a ∉ io.destroyed ∧ io' = { io with destroyed := a :: io.destroyed } := by
  simp only [destroySocketInfo] at h
  split at h
  · cases h
  · split at h
    · cases h
    · next hnot =>
      cases h
      exact ⟨hnot, rfl⟩

/-- The first loop stops at once, or the last socket it destroyed is in `old`. -/
theorem idleLoop_cases {now : TimeVal} {fuel : Nat} :
    ∀ {io io' : IoService} {iter iter' old old' : Option Nat} {ret ret' : Nat},
      idleLoop now fuel io iter old ret = .ok (io', iter', old', ret') →
      (io' = io ∧ iter' = iter ∧ old' = old ∧ ret' = ret) ∨
        ∃ a, old' = some a ∧ a ∈ io'.destroyed := by
  induction fuel with
  | zero =>
    intro io io' iter iter' old old' ret ret' h
    cases h
  | succ fuel ih =>
    intro io io' iter iter' old old' ret ret' h
    rcases iter with _ | a
    · cases h
      exact Or.inl ⟨rfl, rfl, rfl, rfl⟩
    · simp only [idleLoop] at h
      split at h
      · cases h
      · split at h
        · cases h
          exact Or.inl ⟨rfl, rfl, rfl, rfl⟩
        · split at h
          · cases h
          · next io₁ hdestroy =>
            obtain ⟨-, rfl⟩ := destroySocketInfo_ok hdestroy
            rcases ih h with ⟨rfl, rfl, rfl, rfl⟩ | hlast
            · exact Or.inr ⟨a, rfl, List.mem_cons_self⟩
            · exact Or.inr hlast

/-- What has been destroyed stays destroyed. -/
theorem restLoop_mono {fuel : Nat} : ∀ {io io' : IoService} {old : Option Nat},
    restLoop fuel io old = .ok io' → ∀ a ∈ io.destroyed, a ∈ io'.destroyed := by
  induction fuel with
  | zero =>
    intro io io' old h
    cases h
  | succ fuel ih =>
    intro io io' old h a ha
    rcases old with _ | b
    · cases h
      exact ha
    · simp only [restLoop] at h
      split at h
      · cases h
      · split at h
        · cases h
        · next io₁ hdestroy =>
          obtain ⟨-, rfl⟩ := destroySocketInfo_ok hdestroy
          exact ih h a (List.mem_cons_of_mem b ha)

/-- The second loop destroys the socket that it begins at. -/
theorem restLoop_some {fuel : Nat} {io io' : IoService} {a : Nat}
    (h : restLoop fuel io (some a) = .ok io') : a ∉ io.destroyed ∧ a ∈ io'.destroyed := by
  rcases fuel with _ | fuel
  · cases h
  · simp only [restLoop] at h
    split at h
    · cases h
    · split at h
      · cases h
      · next io₁ hdestroy =>
        obtain ⟨hnot, rfl⟩ := destroySocketInfo_ok hdestroy
        exact ⟨hnot, restLoop_mono h a List.mem_cons_self⟩

/-- A call that returns has destroyed nothing in the first loop, and returns 0; if `old` was not
null, the second loop has destroyed something. -/
theorem destroyIdle_ok {fuel ret : Nat} {io io' : IoService} {now : TimeVal} {old : Option Nat}
    (h : destroyIdleServerSocketInfo fuel io now old = .ok (ret, io')) :
    ret = 0 ∧ ∀ a, old = some a → a ∉ io.destroyed ∧ a ∈ io'.destroyed := by
  simp only [destroyIdleServerSocketInfo] at h
  split at h
  · cases h
  · next io₁ iter old₁ ret₁ hfirst =>
    split at h
    · cases h
    · next io₂ hrest =>
      cases h
      -- the loops see the same sockets, whatever becomes of the ends of the list
      have hsame : ∀ {b : Nat}, old₁ = some b → b ∉ io₁.destroyed ∧ b ∈ io'.destroyed := by
        rintro b rfl
        have hsome := restLoop_some hrest
        rcases iter with _ | i
        · exact hsome
        · exact hsome
      rcases idleLoop_cases hfirst with ⟨rfl, rfl, rfl, rfl⟩ | ⟨a, ha, hmem⟩
      · exact ⟨rfl, fun a ha => hsame ha⟩
      · exact absurd hmem (hsame ha).1

/-- The test of the loop lets no socket pass that is not idle. -/
theorem inUse_of_lt {info : SocketInfo} {now : TimeVal} {idleTimeout : Nat}
    (hclock : info.atime ≤ now.micros) (h : now.micros < info.atime + idleTimeout) :
    info.inUse now idleTimeout = true := by
  simp only [SocketInfo.atime, TimeVal.micros] at hclock h
  refine decide_eq_true ?_
  unfold sizeT
  omega

/-- With no socket idle and `old` null the call has nothing to do. -/
theorem destroysRight_of_none {io : IoService} {l : List Nat} {now : TimeVal}
    (hwf : WellFormed io l) (hclock : ∀ b ∈ l, io.atime b ≤ now.micros)
    (hidle : ∀ a ∈ l, io.idle now a = false) : DestroysRight io l now none := by
  have hgone : l.filter (io.idle now) = [] :=
    List.filter_eq_nil_iff.mpr fun a ha => by simp [hidle a ha]
  have hkept : l.filter (fun a => !io.idle now a) = l :=
    List.filter_eq_self.mpr fun a ha => by simp [hidle a ha]
  have hcall : destroyIdleServerSocketInfo 1 io now none = .ok (0, io) := by
    rcases hl : l.getLast? with _ | a
    · have htail : io.serverListTail = none := hwf.tail.trans hl
      have hnil : l = [] := List.getLast?_eq_none_iff.mp hl
      have hhead : io.serverListHead = none := by rw [hwf.head, hnil]; rfl
      obtain ⟨head, tail, timeout, heap, gone⟩ := io
      cases htail
      cases hhead
      rfl
    · have ha : a ∈ l := List.mem_of_getLast? hl
      have htail : io.serverListTail = some a := hwf.tail.trans hl
      obtain ⟨info, hinfo, -⟩ := hwf.exists_heap ha
      have hatime : io.atime a = info.atime := by simp [IoService.atime, hinfo]
      have hlt : now.micros < info.atime + io.idleTimeout := by
        have hnot := hidle a ha
        simp only [IoService.idle, hatime, decide_eq_false_iff_not] at hnot
        omega
      have huse := inUse_of_lt (hatime ▸ hclock a ha) hlt
      have hloop : idleLoop now 1 io (some a) none 0 = .ok (io, some a, none, 0) := by
        simp only [idleLoop, hinfo, huse, if_true]
      obtain ⟨head, tail, timeout, heap, gone⟩ := io
      cases htail
      simp only [destroyIdleServerSocketInfo, hloop]
      rfl
  refine ⟨1, 0, io, hcall, ⟨[], rfl, ?_⟩, ?_, ?_⟩
  · rw [hgone]
  · rw [hgone]
    rfl
  · rw [hkept]
    exact hwf

/-- **The second loop spoils every call that has something to do.** -/
theorem none_of_destroysRight {io : IoService} {l : List Nat} {now : TimeVal} {old : Option Nat}
    (h : DestroysRight io l now old) : (∀ a ∈ l, io.idle now a = false) ∧ old = none := by
  obtain ⟨fuel, ret, io', hcall, ⟨gone, hgone, hperm⟩, hret, -⟩ := h
  obtain ⟨hzero, hold⟩ := destroyIdle_ok hcall
  have hnil : l.filter (io.idle now) = [] := List.eq_nil_of_length_eq_zero (hret.symm.trans hzero)
  have hnone : gone = [] := (hnil ▸ hperm).eq_nil
  constructor
  · intro a ha
    have hnot := List.filter_eq_nil_iff.mp hnil a ha
    simpa using hnot
  · rcases old with _ | a
    · rfl
    · obtain ⟨hnot, hmem⟩ := hold a rfl
      rw [hgone, hnone] at hmem
      exact absurd hmem hnot

/-! ## 6. When the list stays right -/

/-- **The list stays right exactly where there is nothing to do**: a socket that is marked is in
front, no socket is idle, and `old`, which nothing sets, is null. -/
theorem server_list_iff (io : IoService) (l : List Nat) (now : TimeVal) (hwf : WellFormed io l)
    (hclock : ∀ a ∈ l, io.atime a ≤ now.micros) :
    (∀ a ∈ l, MarksRight io l a now ↔ l.head? = some a) ∧
      ∀ old, DestroysRight io l now old ↔ (∀ a ∈ l, io.idle now a = false) ∧ old = none := by
  refine ⟨fun a ha => ⟨?_, ?_⟩, fun old => ⟨?_, ?_⟩⟩
  · exact head_of_marksRight hwf ha
  · exact marksRight_of_head hwf hclock
  · exact none_of_destroysRight
  · rintro ⟨hidle, rfl⟩
    exact destroysRight_of_none hwf hclock hidle

/-- Two sockets, the first used at the second 2 and the other at the second 1. -/
def twoSockets : IoService where
  serverListHead := some 0
  serverListTail := some 1
  idleTimeout := 5000000
  heap
    | 0 => some { atimeSec := 2, atimeUsec := 0, prev := none, next := some 1 }
    | 1 => some { atimeSec := 1, atimeUsec := 0, prev := some 0, next := none }
    | _ => none
  destroyed := []

theorem twoSockets_wellFormed : WellFormed twoSockets [0, 1] where
  head := rfl
  tail := rfl
  dlist := ⟨⟨_, rfl, rfl, rfl⟩, ⟨_, rfl, rfl, rfl⟩, trivial⟩
  nodup := by decide
  sorted := by decide
  alive := by decide

/-- At the second 3 the first socket is marked, and no socket is idle. -/
theorem twoSockets_right : MarksRight twoSockets [0, 1] 0 ⟨3, 0⟩ ∧
    DestroysRight twoSockets [0, 1] ⟨3, 0⟩ none := by
  have h := server_list_iff twoSockets [0, 1] ⟨3, 0⟩ twoSockets_wellFormed (by decide)
  exact ⟨(h.1 0 (by decide)).mpr rfl, (h.2 none).mpr ⟨by decide, rfl⟩⟩

/-- At the second 3 the other socket is marked, and the first one is left without a link back; at
the second 6 the other one is idle, and it is destroyed twice. -/
theorem twoSockets_wrong : WellFormed twoSockets [0, 1] ∧
    ¬ MarksRight twoSockets [0, 1] 1 ⟨3, 0⟩ ∧
    destroyIdleServerSocketInfo 3 twoSockets ⟨6, 0⟩ none = .error .doubleFree ∧
    ¬ DestroysRight twoSockets [0, 1] ⟨6, 0⟩ none := by
  refine ⟨twoSockets_wellFormed, ?_, rfl, ?_⟩
  · intro h
    have hhead := head_of_marksRight twoSockets_wellFormed (by decide) h
    cases hhead
  · intro h
    have hidle := (none_of_destroysRight h).1 1 (by decide)
    revert hidle
    decide

end Kknf.CNf.ServerList
