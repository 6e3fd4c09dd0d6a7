/-
# The connection pool of `all-sync/client.hpp`

`Client` keeps its idle connections in `client_socket_idle_list_`, a map from the address of the
peer to a list of sockets.  `InsertClientSocket` adds at the back of the list of its peer and makes
the list when there is none; `GetClientSocket` takes from the front and erases the list when it has
taken the last; `GetIdleClientSocket` asks the pool first and makes a connection when it has
nothing.  Each takes one mutex for all it does with the map, so a run is a sequence of calls.

The pool is a map of first-in first-out queues (`Lib/Queues.lean`), one for each address: every call
is a step of the queues (`call_step`), and `client_pool_refines_queues` follows whole runs.  A list
in the map is never empty, which is what the assertions of the two functions ask for.
-/
import Mathlib.Data.String.Basic
import Kknf.Lib.Run
import Kknf.Lib.OrdMap
import Kknf.Lib.Queues
import Kknf.AllSync.Server

namespace Kknf.AllSync

/-! ## 1. The order of addresses -/

/-- `SocketAddr::operator<`. -/
def SocketAddr.less (a o : SocketAddr) : Bool :=
  if a.ip < o.ip then true
  else if a.ip > o.ip then false
  else if a.port < o.port then true
  else false

theorem SocketAddr.less_iff (a o : SocketAddr) :
    a.less o ↔ a.ip < o.ip ∨ a.ip = o.ip ∧ a.port < o.port := by
  unfold less
  rcases lt_trichotomy a.ip o.ip with hlt | heq | hgt
  · simp [hlt]
  · simp [heq]
  · simp [hgt, hgt.not_gt, hgt.ne']

/-- **`operator<` is a strict total order of the addresses.** -/
instance SocketAddr.less_strictTotalOrder :
    IsStrictTotalOrder SocketAddr (fun a o => a.less o) where
  irrefl a := by simp [less_iff]
  trans a b c := by
    simp only [less_iff]
    rintro (hab | ⟨hab, hab'⟩) (hbc | ⟨hbc, hbc'⟩)
    · exact Or.inl (hab.trans hbc)
    · exact Or.inl (hbc ▸ hab)
    · exact Or.inl (hab ▸ hbc)
    · exact Or.inr ⟨hab.trans hbc, hab'.trans hbc'⟩
  trichotomous a b := by
    simp only [less_iff, not_or, not_and]
    rintro ⟨hab, hab'⟩ ⟨hba, hba'⟩
    have hip : a.ip = b.ip := le_antisymm (not_lt.mp hba) (not_lt.mp hab)
    have hport : a.port = b.port :=
      le_antisymm (not_lt.mp (hba' hip.symm)) (not_lt.mp (hab' hip))
    cases a
    cases b
    simp_all

namespace Client

open Kknf.Run

/-! ## 2. The functions -/

/-- A `Socket` of a client, with its address on the heap. -/
structure ClientSocket where
  ptr : Ptr
  sk : Nat
  myIpstr : String
  myPort : Nat
  peerIpstr : String
  peerPort : Nat
  id : Nat
  type : Nat
  deriving DecidableEq, Repr

/-- The address of the peer. -/
def ClientSocket.peer (sk : ClientSocket) : SocketAddr := ⟨sk.peerIpstr, sk.peerPort⟩

/-- What the system calls of `MakeConnection` do, with the descriptor `fd` that `socket()` gave. -/
inductive ConnResult
  | socketFails
  | inetAtonFails (fd : Nat)
  | connectFails (fd : Nat)
  | getsocknameFails (fd : Nat)
  /-- the new object, the descriptor, and the local address -/
  | connected (ptr : Ptr) (fd : Nat) (myIp : String) (myPort : Nat)
  deriving DecidableEq

/-- The descriptor that `MakeConnection` leaves open when it returns 0: only a failed `socket()`
leaves none. -/
def ConnResult.leftOpen : ConnResult → Option Nat
  | .inetAtonFails fd | .connectFails fd | .getsocknameFails fd => some fd
  | .socketFails | .connected _ _ _ _ => none

/-- `SocketIO::MakeConnection`. -/
def makeConnection (ip : String) (port : Nat) : ConnResult → Option ClientSocket
  | .socketFails | .inetAtonFails _ | .connectFails _ | .getsocknameFails _ => none
  | .connected ptr fd myIp myPort =>
    some { ptr, sk := fd, myIpstr := myIp, myPort, peerIpstr := ip, peerPort := port,
           id := 0xFFFFFFFF, type := 5 }

/-- `client_socket_idle_list_`. -/
abbrev IdleList := OrdMap (fun a o : SocketAddr => a.less o) (List ClientSocket)

inductive Fault
  /-- `assert(it->second.size() != 0)` -/
  | assertSize
  deriving DecidableEq

/-- `GetClientSocket`. -/
def getClientSocket (m : IdleList) (ip : String) (port : Nat) :
    Except Fault (Option ClientSocket × IdleList) :=
  let addr : SocketAddr := ⟨ip, port⟩
  match m.find addr with
  | some [] => .error .assertSize
  | some (sk :: rest) =>
    let m := m.setAt addr rest
    if rest.length = 0 then .ok (some sk, m.erase addr) else .ok (some sk, m)
  | none => .ok (none, m)

/-- `InsertClientSocket`. -/
def insertClientSocket (m : IdleList) (sk : ClientSocket) : Except Fault IdleList :=
  let addr : SocketAddr := ⟨sk.peerIpstr, sk.peerPort⟩
  match m.find addr with
  | some [] => .error .assertSize
  | some (first :: rest) => .ok (m.setAt addr (first :: rest ++ [sk]))
  | none => .ok (m.insert addr [sk])

/-- `GetIdleClientSocket`. -/
def getIdleClientSocket (m : IdleList) (toIp : String) (toPort : Nat) (conn : ConnResult) :
    Except Fault (Option ClientSocket × IdleList) :=
  match getClientSocket m toIp toPort with
  | .error f => .error f
  | .ok (some sk, m) => .ok (some sk, m)
  | .ok (none, m) => .ok (makeConnection toIp toPort conn, m)

/-! ## 3. Runs -/

/-- A call, with what the system does during it. -/
inductive Call
  | insertClientSocket (sk : ClientSocket)
  | getClientSocket (ip : String) (port : Nat)
  | getIdleClientSocket (toIp : String) (toPort : Nat) (conn : ConnResult)
  deriving DecidableEq

/-- The pool, and what has been put into it and asked of it so far. -/
structure Pool where
  idle : IdleList
  log : List (Queues.Event SocketAddr ClientSocket)

def start : Pool := ⟨OrdMap.empty, []⟩

/-- One call.  The log has what was put into the pool, and what the two functions returned out of
it: `GetIdleClientSocket` has made its socket itself when none to the address was idle. -/
def step (s : Pool) : Call → Except Fault Pool
  | .insertClientSocket sk =>
    match insertClientSocket s.idle sk with
    | .error f => .error f
    | .ok m => .ok ⟨m, s.log ++ [.put sk.peer sk]⟩
  | .getClientSocket ip port =>
    match getClientSocket s.idle ip port with
    | .error f => .error f
    | .ok (r, m) => .ok ⟨m, s.log ++ [.take ⟨ip, port⟩ r]⟩
  | .getIdleClientSocket ip port conn =>
    match getIdleClientSocket s.idle ip port conn with
    | .error f => .error f
    | .ok (r, m) =>
      let idle := (s.idle.find ⟨ip, port⟩).isSome
      .ok ⟨m, s.log ++ [.take ⟨ip, port⟩ (if idle then r else none)]⟩

/-! ## 4. The lists of the map -/

/-- The idle sockets to an address, as the map has them. -/
def queue (m : IdleList) (k : SocketAddr) : List ClientSocket := (m.find k).getD []

/-- The lists in the map are not empty, and the sockets in them are to the address of the list. -/
structure Inv (m : IdleList) : Prop where
  nonempty : ∀ k l, m.find k = some l → l ≠ []
  filed : ∀ k l, m.find k = some l → ∀ sk ∈ l, sk.peer = k

theorem empty_inv : Inv OrdMap.empty where
  nonempty := fun k l h => by cases h
  filed := fun k l h => by cases h

/-- The address has no list exactly when no socket to it is idle. -/
theorem Inv.find_eq_none {m : IdleList} (h : Inv m) (k : SocketAddr) :
    m.find k = none ↔ ∀ e ∈ m.entries, ∀ sk ∈ e.2, sk.peer ≠ k := by
  constructor
  · rintro hnone ⟨k', l⟩ he sk hsk rfl
    have hfind := m.mem_entries.mp he
    rw [h.filed k' l hfind sk hsk, hfind] at hnone
    cases hnone
  · intro hall
    by_contra hne
    obtain ⟨l, hl⟩ := Option.ne_none_iff_exists'.mp hne
    obtain ⟨sk, hsk⟩ := List.exists_mem_of_ne_nil l (h.nonempty k l hl)
    exact hall (k, l) (m.mem_entries.mpr hl) sk hsk (h.filed k l hl sk hsk)

/-- A map that has a new list for one address, whose sockets are to it, or none. -/
theorem Inv.update {m m' : IdleList} (h : Inv m) {k : SocketAddr} {l : Option (List ClientSocket)}
    (hfind : ∀ k', m'.find k' = if k' = k then l else m.find k') (hne : l ≠ some [])
    (hfiled : ∀ t, l = some t → ∀ sk ∈ t, sk.peer = k) :
    Inv m' ∧ queue m' = Function.update (queue m) k (l.getD []) := by
  refine ⟨⟨?_, ?_⟩, ?_⟩
  · intro k' t ht hnil
    rw [hfind] at ht
    split at ht
    · exact hne (hnil ▸ ht)
    · exact h.nonempty k' t ht hnil
  · intro k' t ht
    rw [hfind] at ht
    split at ht
    · rename_i heq
      exact heq ▸ hfiled t ht
    · exact h.filed k' t ht
  · funext k'
    unfold queue
    rw [hfind, Function.update_apply]
    split <;> rfl

/-! ## 5. What each function does -/

/-- **`InsertClientSocket`** puts the socket at the back of the queue of its peer. -/
theorem insertClientSocket_spec {m : IdleList} (h : Inv m) (sk : ClientSocket) :
    ∃ m', insertClientSocket m sk = .ok m' ∧ Inv m' ∧
      queue m' = Function.update (queue m) sk.peer (queue m sk.peer ++ [sk]) := by
  have hq : queue m sk.peer = (m.find ⟨sk.peerIpstr, sk.peerPort⟩).getD [] := rfl
  cases hfind : m.find ⟨sk.peerIpstr, sk.peerPort⟩ with
  | none =>
    simp only [insertClientSocket, hfind]
    refine ⟨_, rfl, ?_⟩
    rw [hq, hfind]
    refine h.update (l := some [sk]) (m.find_insert [sk] hfind) (by simp) ?_
    rintro t ⟨⟩ sk' hsk'
    rw [List.mem_singleton.mp hsk', ClientSocket.peer]
  | some l =>
    cases l with
    | nil => exact absurd rfl (h.nonempty _ _ hfind)
    | cons first rest =>
      simp only [insertClientSocket, hfind]
      refine ⟨_, rfl, ?_⟩
      rw [hq, hfind]
      refine h.update (l := some (first :: rest ++ [sk])) (m.find_setAt _ hfind) (by simp) ?_
      rintro t ⟨⟩ sk' hsk'
      rcases List.mem_append.mp hsk' with hold | hnew
      · exact h.filed _ _ hfind sk' hold
      · rw [List.mem_singleton.mp hnew, ClientSocket.peer]

/-- **`GetClientSocket`** takes the front of the queue of the address: a step of the queues. -/
theorem getClientSocket_spec {m : IdleList} (h : Inv m) (ip : String) (port : Nat) :
    ∃ r m', getClientSocket m ip port = .ok (r, m') ∧ Inv m' ∧
      Queues.Step (queue m) (.take ⟨ip, port⟩ r) (queue m') ∧
      (r = none ↔ m.find ⟨ip, port⟩ = none) ∧ ∀ sk, r = some sk → sk.peer = ⟨ip, port⟩ := by
  have hq : queue m ⟨ip, port⟩ = (m.find ⟨ip, port⟩).getD [] := rfl
  cases hfind : m.find ⟨ip, port⟩ with
  | none =>
    rw [hfind] at hq
    simp only [getClientSocket, hfind]
    exact ⟨none, m, rfl, h, .takeNone hq, by simp, by simp⟩
  | some l =>
    cases l with
    | nil => exact absurd rfl (h.nonempty _ _ hfind)
    | cons sk rest =>
      have hfiled := h.filed _ _ hfind
      have hpeer : sk.peer = ⟨ip, port⟩ := hfiled sk List.mem_cons_self
      have hrest : ∀ sk' ∈ rest, sk'.peer = ⟨ip, port⟩ :=
        fun sk' hsk' => hfiled sk' (List.mem_cons_of_mem _ hsk')
      rw [hfind] at hq
      simp only [getClientSocket, hfind]
      by_cases hnil : rest.length = 0
      · rw [if_pos hnil]
        have herase : ∀ k', ((m.setAt ⟨ip, port⟩ rest).erase ⟨ip, port⟩).find k'
            = if k' = ⟨ip, port⟩ then none else m.find k' := by
          intro k'
          rw [OrdMap.find_erase, OrdMap.find_setAt rest hfind]
          split
          · rfl
          · rfl
        obtain ⟨hinv, hqueue⟩ := h.update herase (by simp) (by simp)
        have hstep := Queues.Step.takeSome hq
        rw [List.length_eq_zero_iff.mp hnil] at hstep
        refine ⟨some sk, _, rfl, hinv, ?_, by simp, ?_⟩
        · rw [hqueue]
          exact hstep
        · rintro _ ⟨⟩
          exact hpeer
      · rw [if_neg hnil]
        have hne : some rest ≠ some [] := by
          rintro ⟨⟩
          exact hnil rfl
        obtain ⟨hinv, hqueue⟩ := h.update (OrdMap.find_setAt rest hfind) hne (by
          rintro t ⟨⟩
          exact hrest)
        refine ⟨some sk, _, rfl, hinv, ?_, by simp, ?_⟩
        · rw [hqueue]
          exact Queues.Step.takeSome hq
        · rintro _ ⟨⟩
          exact hpeer

/-- **`GetIdleClientSocket`** takes from the map what `GetClientSocket` takes from it and returns
that; only when there is nothing it returns what `MakeConnection` makes, and always nothing or a
socket to the address. -/
theorem getIdleClientSocket_spec {m : IdleList} (h : Inv m) (ip : String) (port : Nat)
    (conn : ConnResult) : ∃ found r m', getClientSocket m ip port = .ok (found, m') ∧
      getIdleClientSocket m ip port conn = .ok (r, m') ∧
      (∀ sk, found = some sk → r = some sk) ∧
      (found = none → r = makeConnection ip port conn) ∧
      ∀ sk, r = some sk → sk.peer = ⟨ip, port⟩ := by
  obtain ⟨found, m', hget, -, -, -, hpeer⟩ := getClientSocket_spec h ip port
  refine ⟨found, ?_⟩
  unfold getIdleClientSocket
  rw [hget]
  cases found with
  | some sk => exact ⟨some sk, m', rfl, rfl, fun _ hsk => hsk, by rintro ⟨⟩, hpeer⟩
  | none =>
    refine ⟨makeConnection ip port conn, m', rfl, rfl, by rintro _ ⟨⟩, fun _ => rfl, ?_⟩
    intro sk hsk
    cases conn with
    | connected ptr fd myIp myPort =>
      cases hsk
      rfl
    | _ => cases hsk

/-! ## 6. The pool is a map of queues -/

/-- The event a call is to the queues has happened, and the log has it. -/
theorem call_step {s : Pool} (h : Inv s.idle) (c : Call) : ∃ t e, step s c = .ok t ∧ Inv t.idle ∧
    t.log = s.log ++ [e] ∧ Queues.Step (queue s.idle) e (queue t.idle) := by
  cases c with
  | insertClientSocket sk =>
    obtain ⟨m, hm, hinv, hqueue⟩ := insertClientSocket_spec h sk
    refine ⟨⟨m, _⟩, .put sk.peer sk, by simp only [step, hm], hinv, rfl, ?_⟩
    rw [hqueue]
    exact .put sk.peer sk
  | getClientSocket ip port =>
    obtain ⟨r, m, hm, hinv, hstep, -⟩ := getClientSocket_spec h ip port
    exact ⟨⟨m, _⟩, .take ⟨ip, port⟩ r, by simp only [step, hm], hinv, rfl, hstep⟩
  | getIdleClientSocket ip port conn =>
    obtain ⟨found, r, m, hget, hm, hsome, -⟩ := getIdleClientSocket_spec h ip port conn
    obtain ⟨found', m', hget', hinv, hstep, hnone, -⟩ := getClientSocket_spec h ip port
    cases hget.symm.trans hget'
    have hpooled : (if (s.idle.find ⟨ip, port⟩).isSome then r else none) = found := by
      cases found with
      | none => rw [hnone.mp rfl]; rfl
      | some sk =>
        have hidle : s.idle.find ⟨ip, port⟩ ≠ none := fun hnil => by cases hnone.mpr hnil
        rw [if_pos (Option.isSome_iff_ne_none.mpr hidle), hsome sk rfl]
    refine ⟨⟨m, _⟩, .take ⟨ip, port⟩ found, ?_, hinv, rfl, hstep⟩
    simp only [step, hm, hpooled]

/-- No call fails, and the log of a run is a history of the queues. -/
theorem run_traces (calls : List Call) : ∃ s, exec step start calls = .ok s ∧ Inv s.idle ∧
    Queues.Trace (fun _ => []) s.log (queue s.idle) := by
  induction calls using List.reverseRecOn with
  | nil => exact ⟨start, rfl, empty_inv, .nil⟩
  | append_singleton calls c ih =>
    obtain ⟨s, hs, hinv, htrace⟩ := ih
    obtain ⟨t, e, ht, hinv', hlog, hstep⟩ := call_step hinv c
    refine ⟨t, exec_append_ok.mpr ⟨s, hs, exec_cons_ok.mpr ⟨t, ht, rfl⟩⟩, hinv', ?_⟩
    rw [hlog]
    exact htrace.snoc hstep

/-- **The connection pool refines a map of queues.**  Every sequence of calls runs to its end: the
size assertions hold, and no list of the map is empty.  The log is a history of the queues, and for
each address the sockets inserted are, in order, those that have been given out and those that are
still idle.  In the state reached, `GetClientSocket` returns 0 exactly when no socket to the address
is anywhere in the map, and `GetIdleClientSocket`, which leaves the map as that function does,
returns the socket that function takes out, or if there is none the new one of `MakeConnection`: 0
or a socket to the address.  All of it rests on `operator<` being a strict total order. -/
theorem client_pool_refines_queues (calls : List Call) :
    IsStrictTotalOrder SocketAddr (fun a o => a.less o) ∧
    ∃ s, exec step start calls = .ok s ∧
      (∀ e ∈ s.idle.entries, e.2 ≠ []) ∧
      Queues.Trace (fun _ => []) s.log (queue s.idle) ∧
      (∀ k, Queues.puts k s.log = Queues.takes k s.log ++ queue s.idle k) ∧
      (∀ ip port, ∃ r m, getClientSocket s.idle ip port = .ok (r, m) ∧
        (r = none ↔ ∀ e ∈ s.idle.entries, ∀ sk ∈ e.2, sk.peer ≠ ⟨ip, port⟩)) ∧
      ∀ ip port conn, ∃ found r m, getClientSocket s.idle ip port = .ok (found, m) ∧
        getIdleClientSocket s.idle ip port conn = .ok (r, m) ∧
        (∀ sk, found = some sk → r = some sk) ∧
        (found = none → r = makeConnection ip port conn) ∧
        ∀ sk, r = some sk → sk.peer = ⟨ip, port⟩ := by
  obtain ⟨s, hs, hinv, htrace⟩ := run_traces calls
  refine ⟨inferInstance, s, hs, ?_, htrace, ?_, ?_, getIdleClientSocket_spec hinv⟩
  · rintro ⟨k, l⟩ he
    exact hinv.nonempty k l (s.idle.mem_entries.mp he)
  · intro k
    simpa using htrace.fifo k
  · intro ip port
    obtain ⟨r, m, hm, -, -, hnone, -⟩ := getClientSocket_spec hinv ip port
    exact ⟨r, m, hm, hnone.trans (hinv.find_eq_none _)⟩

end Client

end Kknf.AllSync
