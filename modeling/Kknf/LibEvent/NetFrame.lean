/-
# Who owns a block: `NetFrame::SendQueuesHandler`

A block of the memory pool goes from hand to hand.  A user gets it from the pool and hands it over
to `AsyncSend`, which puts a `Message` around it; `SendQueuesHandler` takes the messages off the
send queues and gives each block to a socket, an existing one or a new one; the socket gives it back
to the pool when it has been written or when the socket is destroyed.

The destructors take part in this: `~Message` gives the block of the message back, and `~Socket` the
blocks of the socket.  The exits of `SendQueuesHandler` that give up on a message do it once more by
hand, after `delete pkt` and, on six of the seven, after `DestroySocket`.  So a block that is given
up is returned two or three times.  `single_owner_iff`: every block has one owner exactly as long as
no message is given up.

A `Message` whose block has been given to a socket is never deleted.  Nothing points to it any more,
and it does not count as an owner.  `recv_mb_->Return()` and `(*it)->Return()` in `~Socket` are read
as `ReturnMemBlock` of the block, if there is one.  Of `DestroySocket` only `~Socket` is followed
here: what it does to the map of the sockets, and the -2 it returns for one that is not there, are
the matter of `SocketPool.lean`, and on the exits that give up they change nothing about the blocks.
-/
import Mathlib.Logic.Function.Basic
import Kknf.Lib.Placement
import Kknf.LibEvent.TcpSocket

namespace Kknf.LibEvent.NetFrame

open Kknf.Run Kknf.Placement

/-! ## 1. Data -/

inductive SocketType
  | tcpListen
  | tcpClient
  | tcpServer
  | udpClient
  | udpServer
  deriving DecidableEq, Repr

inductive DataFormat
  | bin
  | http
  | line
  | usr1
  | usr2
  | usr3
  deriving DecidableEq, Repr

/-- A `Message` of a send queue. -/
structure Message where
  peerIpstr : String
  peerPort : Nat
  skType : SocketType
  dataFormat : DataFormat
  data : SendBlock
  deriving DecidableEq

/-- A `Socket`, as far as it holds blocks. -/
structure Sock where
  recvMb : Option Nat := none
  tcp : TcpSocket := {}

/-- The pool, the users, the send queues and the sockets.  Blocks are told apart by their number. -/
structure Net where
  /-- the `Socket` objects, by their address -/
  sockets : Nat → Option Sock := fun _ => none
  sendQueues : Nat → List Message := fun _ => []
  /-- the blocks that users hold -/
  users : List Nat := []
  /-- the recycled lists of the pool, as one -/
  recycled : List Nat := []
  /-- the blocks given out by `GetMemBlock` so far, one entry for each call -/
  got : List Nat := []
  /-- the blocks given to `ReturnMemBlock` so far, one entry for each call -/
  given : List Nat := []

/-- What the calls on the way to a new connection return. -/
structure CallResults where
  socket : Bool := true
  getfl : Bool := true
  setfl : Bool := true
  inetAton : Bool := true
  /-- `errno` when `connect` returns -1 -/
  connect : Option Errno := none
  addSocketToMonitor : Bool := true
  deriving DecidableEq

def EINPROGRESS : Errno := 115

/-- What `FindSocket` gives for a message. -/
inductive Lookup
  | found (p : Nat)
  /-- no socket; `p` is the address of the one that is made, and `r` what its calls return -/
  | missing (p : Nat) (r : CallResults)
  deriving DecidableEq

inductive Event
  /-- a user gets a block -/
  | getMemBlock (id : Nat)
  /-- a user returns a block, by hand or with the `Message` around it -/
  | release (id : Nat)
  | asyncSend (pkt : Message) (whichQueue : Nat)
  /-- one round of the `while` of `SendQueuesHandler` -/
  | handle (i : Nat) (lookup : Lookup)
  /-- a socket comes about in some other way -/
  | openSocket (p : Nat)
  | writeHandler (p : Nat) (r : WritevResult)
  /-- a `ReadHandler` gets a block for `recv_mb_` -/
  | readBlock (p id : Nat)
  /-- `SocketCallback` makes a message of `recv_mb_` for a user -/
  | deliver (p : Nat)
  | destroySocket (p : Nat)
  deriving DecidableEq

inductive Fault
  /-- the event is not possible in this state -/
  | disabled
  /-- a null pointer is used, or `front()` of an empty list -/
  | crash
  deriving DecidableEq

/-! ## 2. The functions -/

def Net.setSocket (s : Net) (p : Nat) (sk : Option Sock) : Net :=
  { s with sockets := Function.update s.sockets p sk }

/-- `ReturnMemBlock`, of one block after the other. -/
def Net.returnMemBlocks (s : Net) (ids : List Nat) : Net :=
  { s with recycled := s.recycled ++ ids, given := s.given ++ ids }

/-- `GetMemBlock`: a recycled block, or one that has never been given out. -/
def Net.getMemBlock (s : Net) (id : Nat) : Except Fault Net :=
  if id ∈ s.recycled then .ok { s with recycled := s.recycled.erase id, got := s.got ++ [id] }
  else if id ∈ s.got then .error .disabled
  else .ok { s with got := s.got ++ [id] }

/-- `~Socket`. -/
def Net.deleteSocket (s : Net) (p : Nat) (sk : Sock) : Net :=
  ((s.returnMemBlocks sk.recvMb.toList).returnMemBlocks
    (sk.tcp.sendMbList.map SendBlock.id)).setSocket p none

/-- `AsyncSend`. -/
def Net.asyncSend (s : Net) (pkt : Message) (whichQueue : Nat) : Net :=
  if pkt.peerIpstr.isEmpty ∨ pkt.peerPort = 0 ∨
      (pkt.skType ≠ .tcpClient ∧ pkt.skType ≠ .udpClient) then s
  else
    { s with
      users := s.users.erase pkt.data.id
      sendQueues := Function.update s.sendQueues whichQueue (s.sendQueues whichQueue ++ [pkt]) }

/-- `CreateClientSocket`, for a TCP client. -/
def createClientSocket : DataFormat → Option Sock
  | .bin | .line | .http => some {}
  | .usr1 | .usr2 | .usr3 => none

/-- `delete pkt` and then `ReturnMemBlock(tmp)`. -/
def Net.giveUp (s : Net) (pkt : Message) : Net :=
  (s.returnMemBlocks [pkt.data.id]).returnMemBlocks [pkt.data.id]

/-- The calls that make the connection, with the exit of each. -/
def Net.connectSocket (s : Net) (pkt : Message) (p : Nat) (sk : Sock) (r : CallResults) : Net :=
  let exit := (s.deleteSocket p sk).giveUp pkt
  if !r.socket then exit
  else if !r.getfl then exit
  else if !r.setfl then exit
  else if !r.inetAton then exit
  else if r.connect.any (· ≠ EINPROGRESS) then exit
  else if !r.addSocketToMonitor then exit
  else s

/-- One round of the loop of `SendQueuesHandler`. -/
def Net.handle (s : Net) (i : Nat) (lookup : Lookup) : Except Fault Net :=
  match s.sendQueues i with
  | [] => .error .disabled
  | pkt :: rest =>
    let s := { s with sendQueues := Function.update s.sendQueues i rest }
    match lookup with
    | .found p =>
      match s.sockets p with
      | none => .error .disabled
      | some sk => .ok (s.setSocket p (some { sk with tcp := sk.tcp.pushDataToSend pkt.data }))
    | .missing p r =>
      if pkt.skType ≠ .tcpClient then .ok (s.giveUp pkt)
      else if (s.sockets p).isSome then .error .disabled
      else
        match createClientSocket pkt.dataFormat with
        | none => .error .crash
        | some sk =>
          let sk := { sk with tcp := sk.tcp.pushDataToSend pkt.data }
          .ok ((s.setSocket p (some sk)).connectSocket pkt p sk r)

/-- One event. -/
def step (s : Net) : Event → Except Fault Net
  | .getMemBlock id =>
    match s.getMemBlock id with
    | .error f => .error f
    | .ok s => .ok { s with users := s.users ++ [id] }
  | .release id =>
    if id ∈ s.users then .ok ({ s with users := s.users.erase id }.returnMemBlocks [id])
    else .error .disabled
  | .asyncSend pkt whichQueue =>
    if pkt.data.id ∈ s.users then .ok (s.asyncSend pkt whichQueue) else .error .disabled
  | .handle i lookup => s.handle i lookup
  | .openSocket p =>
    if (s.sockets p).isSome then .error .disabled else .ok (s.setSocket p (some {}))
  | .writeHandler p r =>
    match s.sockets p with
    | none => .error .disabled
    | some sk =>
      match sk.tcp.writeHandler r with
      | .error _ => .error .crash
      | .ok (_, tcp, returned) =>
        .ok ((s.setSocket p (some { sk with tcp })).returnMemBlocks (returned.map SendBlock.id))
  | .readBlock p id =>
    match s.sockets p with
    | some { recvMb := none, tcp } =>
      match s.getMemBlock id with
      | .error f => .error f
      | .ok s => .ok (s.setSocket p (some { recvMb := some id, tcp }))
    | _ => .error .disabled
  | .deliver p =>
    match s.sockets p with
    | some { recvMb := some id, tcp } =>
      .ok { s.setSocket p (some { recvMb := none, tcp }) with users := s.users ++ [id] }
    | _ => .error .disabled
  | .destroySocket p =>
    match s.sockets p with
    | none => .error .disabled
    | some sk => .ok (s.deleteSocket p sk)

/-! ## 3. Owners -/

/-- Where a block can be. -/
inductive Place
  | users
  /-- in a message of send queue `i` -/
  | queue (i : Nat)
  /-- the `recv_mb_` of a socket -/
  | recv (p : Nat)
  /-- the `send_mb_list_` of a socket -/
  | send (p : Nat)
  | recycled
  deriving DecidableEq

/-- The blocks in each place. -/
def occ (s : Net) : Place → List Nat
  | .users => s.users
  | .queue i => (s.sendQueues i).map fun pkt => pkt.data.id
  | .recv p => (s.sockets p).elim [] fun sk => sk.recvMb.toList
  | .send p => (s.sockets p).elim [] fun sk => sk.tcp.sendMbList.map SendBlock.id
  | .recycled => s.recycled

/-- Every block that was ever given out is in one place, and `ReturnMemBlock` has been called at
most once for each `GetMemBlock` of it. -/
structure SingleOwner (s : Net) : Prop where
  exclusive : Exclusive (occ s)
  placed : ∀ id, id ∈ s.got ↔ Placed (occ s) id
  once : ∀ id, s.given.count id ≤ s.got.count id

/-- All the calls on the way to the new connection succeed; `connect` may still be in progress. -/
def CallResults.succeed (r : CallResults) : Bool :=
  r.socket && r.getfl && r.setfl && r.inetAton && !r.connect.any (· ≠ EINPROGRESS) &&
    r.addSocketToMonitor

/-- The message at hand is not given up: there is a socket for it, or it is for a TCP client and all
the calls succeed. -/
def NotGivenUp (s : Net) : Event → Prop
  | .handle i (.missing _ r) =>
    match s.sendQueues i with
    | [] => True
    | pkt :: _ => pkt.skType = .tcpClient ∧ r.succeed
  | _ => True

instance (s : Net) : (e : Event) → Decidable (NotGivenUp s e)
  | .handle i (.missing _ r) =>
    match h : s.sendQueues i with
    | [] => isTrue (by simp [NotGivenUp, h])
    | pkt :: _ => decidable_of_iff (pkt.skType = .tcpClient ∧ r.succeed)
        (by simp only [NotGivenUp, h])
  | .handle _ (.found _) | .getMemBlock _ | .release _ | .asyncSend _ _ | .openSocket _
  | .writeHandler _ _ | .readBlock _ _ | .deliver _ | .destroySocket _ => isTrue trivial

/-! ## 4. Blocks on the move -/

/-- The invariant: where the blocks are, and that a block which is not recycled has been given out
once more than it has been returned. -/
structure Owned (occ : Place → List Nat) (got given : List Nat) : Prop where
  exclusive : Exclusive occ
  placed : ∀ id, id ∈ got ↔ Placed occ id
  balance : ∀ id, got.count id
    = given.count id + if id ∈ occ .recycled then 0 else if id ∈ got then 1 else 0

theorem Owned.singleOwner {s : Net} (h : Owned (occ s) s.got s.given) : SingleOwner s where
  exclusive := h.exclusive
  placed := h.placed
  once := fun id => by rw [h.balance id]; exact Nat.le_add_right _ _

section

variable {o o' : Place → List Nat} {got given : List Nat} {i j : Place} {xs : List Nat}

/-- A block passes from one owner to another. -/
theorem Owned.pass (h : Owned o got given) (m : Moved o o' i j xs) (hi : i ≠ .recycled)
    (hj : j ≠ .recycled) : Owned o' got given where
  exclusive := h.exclusive.moved m
  placed := fun id => (h.placed id).trans (m.placed_iff id).symm
  balance := by
    rw [m.frame .recycled (Ne.symm hi) (Ne.symm hj)]
    exact h.balance

/-- Blocks are returned to the pool, by their owner. -/
theorem Owned.back (h : Owned o got given) (m : Moved o o' i .recycled xs) :
    Owned o' got (given ++ xs) where
  exclusive := h.exclusive.moved m
  placed := fun id => (h.placed id).trans (m.placed_iff id).symm
  balance := by
    intro id
    have hbal := h.balance id
    have hmem : id ∈ o' .recycled ↔ id ∈ o .recycled ∨ id ∈ xs := by
      rw [m.target.mem_iff, List.mem_append]
    have hnodup : xs.Nodup := (m.source.nodup_iff.mp (h.exclusive.nodup i)).of_append_left
    rw [List.count_append]
    by_cases hxs : id ∈ xs
    · -- it was with its owner, so it had been given out once more than returned
      have hi : id ∈ o i := m.source.mem_iff.mpr (List.mem_append_left _ hxs)
      have hnot : id ∉ o .recycled := fun hr => m.ne (h.exclusive.unique i .recycled id hi hr)
      have hgot : id ∈ got := (h.placed id).mpr ⟨i, hi⟩
      rw [if_neg hnot, if_pos hgot] at hbal
      rw [if_pos (hmem.mpr (Or.inr hxs)), List.count_eq_one_of_mem hnodup hxs]
      exact hbal
    · have hiff : id ∈ o' .recycled ↔ id ∈ o .recycled := by simp [hmem, hxs]
      simp only [hiff, List.count_eq_zero_of_not_mem hxs]
      exact hbal

/-- The pool gives out a recycled block. -/
theorem Owned.reuse {id : Nat} (h : Owned o got given) (m : Moved o o' .recycled j [id]) :
    Owned o' (got ++ [id]) given where
  exclusive := h.exclusive.moved m
  placed := by
    intro a
    have hid : id ∈ o .recycled := m.source.mem_iff.mpr (by simp)
    rw [m.placed_iff a, ← h.placed a, List.mem_append, List.mem_singleton]
    constructor
    · rintro (ha | rfl)
      · exact ha
      · exact (h.placed a).mpr ⟨.recycled, hid⟩
    · exact Or.inl
  balance := by
    intro a
    have hbal := h.balance a
    have hnodup := m.source.nodup_iff.mp (h.exclusive.nodup .recycled)
    have hmem : a ∈ o .recycled ↔ a = id ∨ a ∈ o' .recycled := by
      rw [m.source.mem_iff]
      simp
    rw [List.count_append]
    by_cases ha : a = id
    · subst ha
      have hnot : a ∉ o' .recycled := (List.nodup_cons.mp hnodup).1
      rw [if_pos (hmem.mpr (Or.inl rfl))] at hbal
      rw [if_neg hnot, if_pos (by simp), List.count_singleton_self, hbal]
    · have hiff : a ∈ o .recycled ↔ a ∈ o' .recycled := by simp [hmem, ha]
      simp only [hiff] at hbal
      simp only [List.mem_append, List.mem_singleton, ha, or_false]
      have hzero : [id].count a = 0 := List.count_eq_zero_of_not_mem (by simpa using ha)
      rw [hbal, hzero, Nat.add_zero]

/-- The pool gives out a new block. -/
theorem Owned.fresh {id : Nat} (h : Owned o got given) (m : Added o o' j id)
    (hj : j ≠ .recycled) : Owned o' (got ++ [id]) given where
  exclusive := h.exclusive.added m
  placed := by
    intro a
    rw [m.placed_iff a, ← h.placed a, List.mem_append, List.mem_singleton]
  balance := by
    intro a
    have hbal := h.balance a
    rw [m.frame .recycled (Ne.symm hj), List.count_append]
    by_cases ha : a = id
    · subst ha
      have hgot : a ∉ got := fun hg => m.fresh ((h.placed a).mp hg)
      have hrec : a ∉ o .recycled := fun hr => m.fresh ⟨.recycled, hr⟩
      rw [if_neg hrec, if_neg hgot] at hbal
      rw [if_neg hrec, if_pos (by simp), List.count_singleton_self, hbal]
    · simp only [List.mem_append, List.mem_singleton, ha, or_false]
      have hzero : [id].count a = 0 := List.count_eq_zero_of_not_mem (by simpa using ha)
      rw [hbal, hzero, Nat.add_zero]

end

/-! ## 5. What a step moves -/

/-- The blocks of a socket. -/
def recvIds (sk : Option Sock) : List Nat := sk.elim [] fun sk => sk.recvMb.toList

def sendIds (sk : Option Sock) : List Nat := sk.elim [] fun sk => sk.tcp.sendMbList.map SendBlock.id

theorem occ_setSocket_recv (s : Net) (p q : Nat) (sk : Option Sock) :
    occ (s.setSocket p sk) (.recv q) = if q = p then recvIds sk else occ s (.recv q) := by
  simp only [occ, Net.setSocket, Function.update_apply]
  split <;> rfl

theorem occ_setSocket_send (s : Net) (p q : Nat) (sk : Option Sock) :
    occ (s.setSocket p sk) (.send q) = if q = p then sendIds sk else occ s (.send q) := by
  simp only [occ, Net.setSocket, Function.update_apply]
  split <;> rfl

/-- A socket changes, but not its `recv_mb_`: only its list is different. -/
theorem occ_setSocket_of_recv {s : Net} {p : Nat} {sk : Option Sock}
    (hrecv : recvIds sk = occ s (.recv p)) {k : Place} (hk : k ≠ .send p) :
    occ (s.setSocket p sk) k = occ s k := by
  rcases k with - | i | q | q | -
  · rfl
  · rfl
  · rw [occ_setSocket_recv]
    split
    · rename_i hq
      rw [hq, hrecv]
    · rfl
  · have hq : q ≠ p := by simpa using hk
    rw [occ_setSocket_send, if_neg hq]
  · rfl

/-- A socket changes, but not its list: only its `recv_mb_` is different. -/
theorem occ_setSocket_of_send {s : Net} {p : Nat} {sk : Option Sock}
    (hsend : sendIds sk = occ s (.send p)) {k : Place} (hk : k ≠ .recv p) :
    occ (s.setSocket p sk) k = occ s k := by
  rcases k with - | i | q | q | -
  · rfl
  · rfl
  · have hq : q ≠ p := by simpa using hk
    rw [occ_setSocket_recv, if_neg hq]
  · rw [occ_setSocket_send]
    split
    · rename_i hq
      rw [hq, hsend]
    · rfl
  · rfl

/-- A new socket with nothing in it changes nothing. -/
theorem occ_setSocket_same {s : Net} {p : Nat} {sk : Option Sock}
    (hrecv : recvIds sk = occ s (.recv p)) (hsend : sendIds sk = occ s (.send p)) :
    occ (s.setSocket p sk) = occ s := by
  funext k
  by_cases hk : k = .send p
  · rw [hk, occ_setSocket_send, if_pos rfl, hsend]
  · exact occ_setSocket_of_recv hrecv hk

/-- `ReturnMemBlock` is about the recycled lists. -/
theorem occ_returnMemBlocks {s : Net} {ids : List Nat} {k : Place} (hk : k ≠ .recycled) :
    occ (s.returnMemBlocks ids) k = occ s k := by
  rcases k with - | i | q | q | -
  · rfl
  · rfl
  · rfl
  · rfl
  · exact absurd rfl hk

/-- What the users hold is about the users. -/
theorem occ_users {s : Net} {ids : List Nat} {k : Place} (hk : k ≠ .users) :
    occ { s with users := ids } k = occ s k := by
  rcases k with - | i | q | q | -
  · exact absurd rfl hk
  · rfl
  · rfl
  · rfl
  · rfl

section

variable {s : Net}

theorem getMemBlock_frame {id : Nat} {u : Net} (hu : s.getMemBlock id = .ok u) :
    u.users = s.users ∧ u.sockets = s.sockets ∧ u.sendQueues = s.sendQueues := by
  unfold Net.getMemBlock at hu
  split at hu
  · cases hu
    exact ⟨rfl, rfl, rfl⟩
  · split at hu
    · cases hu
    · cases hu
      exact ⟨rfl, rfl, rfl⟩

/-- `GetMemBlock` takes a block from the recycled lists at most. -/
theorem getMemBlock_occ {id : Nat} {u : Net} (hu : s.getMemBlock id = .ok u) {k : Place}
    (hk : k ≠ .recycled) : occ u k = occ s k := by
  obtain ⟨husers, hsockets, hqueues⟩ := getMemBlock_frame hu
  rcases k with - | i | q | q | -
  · exact husers
  · simp [occ, hqueues]
  · simp [occ, hsockets]
  · simp [occ, hsockets]
  · exact absurd rfl hk

/-- `GetMemBlock` for a place that is not the pool: `t` is the state in which the block has arrived
there. -/
theorem getMemBlock_owned (h : Owned (occ s) s.got s.given) {id : Nat} {u t : Net}
    (hu : s.getMemBlock id = .ok u) {j : Place} (hj : j ≠ .recycled)
    (hgot : t.got = u.got) (hgiven : t.given = u.given) (hrec : t.recycled = u.recycled)
    (htarget : (occ t j).Perm (occ s j ++ [id]))
    (hframe : ∀ k, k ≠ j → k ≠ .recycled → occ t k = occ s k) : Owned (occ t) t.got t.given := by
  unfold Net.getMemBlock at hu
  split at hu
  · rename_i hid
    cases hu
    have m : Moved (occ s) (occ t) .recycled j [id] := by
      refine ⟨Ne.symm hj, ?_, htarget, fun k hk hkj => hframe k hkj hk⟩
      simp only [occ, hrec]
      exact List.perm_cons_erase hid
    rw [hgot, hgiven]
    exact h.reuse m
  · rename_i hid
    split at hu
    · cases hu
    · rename_i hnew
      cases hu
      have m : Added (occ s) (occ t) j id := by
        refine ⟨fun hp => hnew ((h.placed id).mpr hp), htarget, fun k hk => ?_⟩
        by_cases hkr : k = .recycled
        · subst hkr
          simp only [occ, hrec]
        · exact hframe k hk hkr
      rw [hgot, hgiven]
      exact h.fresh m hj

/-- A block goes into the list of a socket. -/
theorem push_moved {i p : Nat} {pkt : Message} {rest : List Message} (sk : Sock) {t : Net}
    (hqueue : s.sendQueues i = pkt :: rest)
    (ht : t = ({ s with sendQueues := Function.update s.sendQueues i rest } : Net).setSocket p
      (some { sk with tcp := sk.tcp.pushDataToSend pkt.data }))
    (hrecv : recvIds (some sk) = occ s (.recv p)) (hsend : sendIds (some sk) = occ s (.send p)) :
    Moved (occ s) (occ t) (.queue i) (.send p) [pkt.data.id] := by
  subst ht
  refine ⟨by simp, ?_, ?_, ?_⟩
  · simp [occ, Net.setSocket, hqueue]
  · rw [occ_setSocket_send, if_pos rfl, ← hsend]
    simp [sendIds, TcpSocket.pushDataToSend]
  · intro k hi hp
    rw [occ_setSocket_of_recv (by exact hrecv) hp]
    rcases k with - | i' | q | q | -
    · rfl
    · have hne : i' ≠ i := by simpa using hi
      simp [occ, hne]
    · rfl
    · rfl
    · rfl

/-- `~Socket` returns the blocks of the socket, each once. -/
theorem deleteSocket_owned (h : Owned (occ s) s.got s.given) {p : Nat} {sk : Sock}
    (hsk : s.sockets p = some sk) : Owned (occ (s.deleteSocket p sk)) s.got
      (s.deleteSocket p sk).given := by
  -- `recv_mb_` first
  obtain ⟨u, hu⟩ : ∃ u, u = (s.returnMemBlocks sk.recvMb.toList).setSocket p
      (some { sk with recvMb := none }) := ⟨_, rfl⟩
  have hrecv : occ s (.recv p) = sk.recvMb.toList := by simp [occ, hsk]
  have hsend : occ s (.send p) = sk.tcp.sendMbList.map SendBlock.id := by simp [occ, hsk]
  have m₁ : Moved (occ s) (occ u) (.recv p) .recycled sk.recvMb.toList := by
    subst hu
    refine ⟨by simp, ?_, List.Perm.refl _, ?_⟩
    · rw [occ_setSocket_recv, if_pos rfl, hrecv]
      simp [recvIds]
    · intro k hk hr
      rw [occ_setSocket_of_send (by exact hsend.symm) hk, occ_returnMemBlocks hr]
  -- and then the list
  have hdelete : s.deleteSocket p sk
      = (u.returnMemBlocks (sk.tcp.sendMbList.map SendBlock.id)).setSocket p none := by
    subst hu
    simp [Net.deleteSocket, Net.setSocket, Net.returnMemBlocks]
  have hsend' : occ u (.send p) = sk.tcp.sendMbList.map SendBlock.id := by
    subst hu
    rw [occ_setSocket_send, if_pos rfl]
    rfl
  have hrecv' : occ u (.recv p) = [] := by
    subst hu
    rw [occ_setSocket_recv, if_pos rfl]
    rfl
  have m₂ : Moved (occ u) (occ (s.deleteSocket p sk)) (.send p) .recycled
      (sk.tcp.sendMbList.map SendBlock.id) := by
    rw [hdelete]
    refine ⟨by simp, ?_, List.Perm.refl _, ?_⟩
    · rw [occ_setSocket_send, if_pos rfl, hsend']
      simp [sendIds]
    · intro k hk hr
      rw [occ_setSocket_of_recv (by exact hrecv'.symm) hk, occ_returnMemBlocks hr]
  have hgiven : (s.deleteSocket p sk).given
      = s.given ++ sk.recvMb.toList ++ sk.tcp.sendMbList.map SendBlock.id := rfl
  rw [hgiven]
  exact (h.back m₁).back m₂

/-- `WriteHandler` returns the blocks it takes off the list. -/
theorem writeHandler_owned (h : Owned (occ s) s.got s.given) {p : Nat} {sk : Sock} {tcp : TcpSocket}
    {returned : List SendBlock} (hsk : s.sockets p = some sk)
    (hsplit : sk.tcp.sendMbList = returned ++ tcp.sendMbList) :
    Owned (occ ((s.setSocket p (some { sk with tcp })).returnMemBlocks
      (returned.map SendBlock.id))) s.got (s.given ++ returned.map SendBlock.id) := by
  refine h.back (i := .send p) ⟨by simp, ?_, List.Perm.refl _, ?_⟩
  · rw [occ_returnMemBlocks (by simp), occ_setSocket_send, if_pos rfl]
    simp [occ, hsk, sendIds, hsplit]
  · intro k hk hr
    rw [occ_returnMemBlocks hr, occ_setSocket_of_recv (by simp [occ, hsk, recvIds]) hk]

/-- The `recv_mb_` of a socket goes to a user. -/
theorem deliver_moved {p id : Nat} {tcp : TcpSocket}
    (hsk : s.sockets p = some { recvMb := some id, tcp }) :
    Moved (occ s) (occ
      { s.setSocket p (some { recvMb := none, tcp }) with users := s.users ++ [id] })
      (.recv p) .users [id] := by
  refine ⟨by simp, ?_, List.Perm.refl _, ?_⟩
  · change (occ s (.recv p)).Perm
      ([id] ++ occ (s.setSocket p (some { recvMb := none, tcp })) (.recv p))
    rw [occ_setSocket_recv, if_pos rfl]
    simp [occ, hsk, recvIds]
  · intro k hk hu
    rw [occ_users hu, occ_setSocket_of_send (by simp [occ, hsk, sendIds]) hk]

/-- A `ReadHandler` gets a block. -/
theorem readBlock_owned (h : Owned (occ s) s.got s.given) {p id : Nat} {tcp : TcpSocket}
    (hsk : s.sockets p = some { recvMb := none, tcp }) {u : Net}
    (hu : s.getMemBlock id = .ok u) :
    Owned (occ (u.setSocket p (some { recvMb := some id, tcp }))) u.got u.given := by
  obtain ⟨-, hsockets, -⟩ := getMemBlock_frame hu
  refine getMemBlock_owned h hu (j := .recv p) (by simp) rfl rfl rfl ?_ ?_
  · rw [occ_setSocket_recv, if_pos rfl]
    simp [occ, hsk, recvIds]
  · intro k hk hr
    rw [occ_setSocket_of_send (by simp [occ, hsockets, hsk, sendIds]) hk]
    exact getMemBlock_occ hu hr

/-- A user gets a block. -/
theorem userBlock_owned (h : Owned (occ s) s.got s.given) {id : Nat} {u : Net}
    (hu : s.getMemBlock id = .ok u) :
    Owned (occ { u with users := u.users ++ [id] }) u.got u.given := by
  refine getMemBlock_owned h hu (j := .users) (by simp) rfl rfl rfl ?_ ?_
  · simp [occ, (getMemBlock_frame hu).1]
  · intro k hk hr
    rw [occ_users hk, getMemBlock_occ hu hr]

/-- A user returns a block. -/
theorem release_moved {id : Nat} (hid : id ∈ s.users) :
    Moved (occ s) (occ ({ s with users := s.users.erase id }.returnMemBlocks [id])) .users .recycled
      [id] := by
  refine ⟨by simp, List.perm_cons_erase hid, List.Perm.refl _, ?_⟩
  intro k hk hr
  rw [occ_returnMemBlocks hr, occ_users hk]

/-- `AsyncSend` puts a message into a queue. -/
theorem asyncSend_moved {pkt : Message} {i : Nat} (hid : pkt.data.id ∈ s.users) :
    Moved (occ s) (occ { s with
      users := s.users.erase pkt.data.id
      sendQueues := Function.update s.sendQueues i (s.sendQueues i ++ [pkt]) })
      .users (.queue i) [pkt.data.id] := by
  refine ⟨by simp, List.perm_cons_erase hid, by simp [occ], ?_⟩
  rintro (- | k | q | q | -) hu hk
  · exact absurd rfl hu
  · have hne : k ≠ i := by simpa using hk
    simp [occ, hne]
  · rfl
  · rfl
  · rfl

/-- The calls change nothing when they all succeed; otherwise the message is given up. -/
theorem connectSocket_eq (s : Net) (pkt : Message) (p : Nat) (sk : Sock) (r : CallResults) :
    s.connectSocket pkt p sk r = if r.succeed then s else (s.deleteSocket p sk).giveUp pkt := by
  split
  · rename_i hall
    simp only [CallResults.succeed, Bool.and_eq_true] at hall
    obtain ⟨⟨⟨⟨⟨hsocket, hgetfl⟩, hsetfl⟩, haton⟩, hconnect⟩, hadd⟩ := hall
    have hconnect' : r.connect.any (· ≠ EINPROGRESS) = false := by simpa using hconnect
    simp only [Net.connectSocket, hsocket, hgetfl, hsetfl, haton, hconnect', hadd, Bool.not_true,
      Bool.false_eq_true, if_false]
  · rename_i hsome
    simp only [Net.connectSocket]
    -- every exit is the same one
    repeat' split
    any_goals rfl
    simp_all [CallResults.succeed]

/-- **A message that is given up** puts its block into the recycled lists twice. -/
theorem giveUp_not_single (s : Net) (pkt : Message) : ¬ SingleOwner (s.giveUp pkt) := by
  intro h
  have hnodup := h.exclusive.nodup .recycled
  simp only [occ, Net.giveUp, Net.returnMemBlocks, List.append_assoc,
    List.singleton_append] at hnodup
  exact absurd hnodup.of_append_right (by simp)

end

/-! ## 6. Runs -/

section

variable {s t : Net}

/-- A message that is not given up goes to a socket. -/
theorem handle_owned (h : Owned (occ s) s.got s.given) {i : Nat} {lookup : Lookup}
    (hkeep : NotGivenUp s (.handle i lookup)) (ht : s.handle i lookup = .ok t) :
    Owned (occ t) t.got t.given := by
  unfold Net.handle at ht
  rcases hqueue : s.sendQueues i with - | ⟨pkt, rest⟩
  · simp [hqueue] at ht
  · rcases lookup with p | ⟨p, r⟩
    · simp only [hqueue] at ht
      split at ht
      · cases ht
      · rename_i sk hsk
        have m := push_moved sk hqueue (Except.ok.inj ht).symm
          (by simp [recvIds, occ, hsk]) (by simp [sendIds, occ, hsk])
        cases ht
        exact h.pass m (by simp) (by simp)
    · simp only [NotGivenUp, hqueue] at hkeep
      simp only [hqueue, hkeep.1, ne_eq, not_true_eq_false, if_false, connectSocket_eq, hkeep.2,
        if_true] at ht
      split at ht
      · cases ht
      · rename_i hnone
        split at ht
        · cases ht
        · rename_i sk hcreate
          have hsk : sk = {} := by
            unfold createClientSocket at hcreate
            split at hcreate <;> simp_all
          have hp : s.sockets p = none := by simpa using hnone
          have m := push_moved sk hqueue (Except.ok.inj ht).symm
            (by simp [recvIds, occ, hsk, hp]) (by simp [sendIds, occ, hsk, hp])
          cases ht
          exact h.pass m (by simp) (by simp)

/-- **One step** that gives no message up. -/
theorem step_owned (h : Owned (occ s) s.got s.given) {e : Event} (hkeep : NotGivenUp s e)
    (ht : step s e = .ok t) : Owned (occ t) t.got t.given := by
  rcases e with id | id | ⟨pkt, i⟩ | ⟨i, lookup⟩ | p | ⟨p, r⟩ | ⟨p, id⟩ | p | p
  · simp only [step] at ht
    split at ht
    · cases ht
    · rename_i u hu
      cases ht
      exact userBlock_owned h hu
  · simp only [step] at ht
    split at ht
    · rename_i hid
      cases ht
      exact h.back (release_moved hid)
    · cases ht
  · simp only [step, Net.asyncSend] at ht
    split at ht
    · rename_i hid
      split at ht
      · cases ht
        exact h
      · cases ht
        exact h.pass (asyncSend_moved hid) (by simp) (by simp)
    · cases ht
  · exact handle_owned h hkeep ht
  · simp only [step] at ht
    split at ht
    · cases ht
    · rename_i hnone
      have hp : s.sockets p = none := by simpa using hnone
      cases ht
      rw [occ_setSocket_same (by simp [recvIds, occ, hp]) (by simp [sendIds, occ, hp])]
      exact h
  · simp only [step] at ht
    split at ht
    · cases ht
    · rename_i sk hsk
      split at ht
      · cases ht
      · rename_i tcp returned hwrite
        cases ht
        exact writeHandler_owned h hsk (writeHandler_split hwrite)
  · simp only [step] at ht
    split at ht
    · rename_i tcp hsk
      split at ht
      · cases ht
      · rename_i u hu
        cases ht
        exact readBlock_owned h hsk hu
    · cases ht
  · simp only [step] at ht
    split at ht
    · rename_i id tcp hsk
      cases ht
      exact h.pass (deliver_moved hsk) (by simp) (by simp)
    · cases ht
  · simp only [step] at ht
    split at ht
    · cases ht
    · rename_i sk hsk
      cases ht
      exact deleteSocket_owned h hsk

/-- A step that gives a message up leaves its block with more than one owner. -/
theorem step_not_single {e : Event} (hgive : ¬ NotGivenUp s e) (ht : step s e = .ok t) :
    ¬ SingleOwner t := by
  rcases e with id | id | ⟨pkt, i⟩ | ⟨i, p | ⟨p, r⟩⟩ | p | ⟨p, r⟩ | ⟨p, id⟩ | p | p
  case handle.missing =>
    rcases hqueue : s.sendQueues i with - | ⟨pkt, rest⟩
    · simp [NotGivenUp, hqueue] at hgive
    · simp only [NotGivenUp, hqueue] at hgive
      simp only [step, Net.handle, hqueue] at ht
      split at ht
      · cases ht
        exact giveUp_not_single _ pkt
      · rename_i hclient
        have hfails : ¬ r.succeed := fun hr => hgive ⟨by simpa using hclient, hr⟩
        simp only [connectSocket_eq, if_neg hfails] at ht
        split at ht
        · cases ht
        · split at ht
          · cases ht
          · cases ht
            exact giveUp_not_single _ pkt
  all_goals exact absurd trivial hgive

theorem start_owned : Owned (occ {}) [] [] := by
  have hempty : ∀ k, occ {} k = [] := by
    rintro (- | i | q | q | -)
    all_goals rfl
  refine ⟨⟨?_, ?_⟩, ?_, ?_⟩
  · intro k
    rw [hempty]
    exact List.nodup_nil
  · intro k l id hk
    simp [hempty] at hk
  · simp [Placed, hempty]
  · simp

/-- **Every block has one owner throughout a run exactly when no message is given up.** -/
theorem single_owner_iff (es : List Event) (h : exec step {} es = .ok t) :
    (∀ s, Visits step {} es s → SingleOwner s) ↔ Along step NotGivenUp {} es :=
  always_iff_along (fun _ _ _ h hkeep => step_owned h hkeep) (fun _ h => h.singleOwner)
    (fun _ _ _ _ hgive => step_not_single hgive) start_owned h

end

/-- A message for a TCP client, with block `id`. -/
def toClient (id : Nat) : Message := ⟨"10.0.0.1", 80, .tcpClient, .bin, ⟨id, [1, 2]⟩⟩

/-- Two messages to the same peer: the first makes the socket, the second finds it. -/
def sendTwo : List Event :=
  [.getMemBlock 0, .getMemBlock 1, .asyncSend (toClient 0) 0, .asyncSend (toClient 1) 0,
    .handle 0 (.missing 7 { connect := some EINPROGRESS }), .handle 0 (.found 7),
    .writeHandler 7 (.wrote 4 1), .getMemBlock 1]

theorem sendTwo_single_owner : ∃ s, exec step {} sendTwo = .ok s ∧ SingleOwner s ∧
    s.users = [1] ∧ s.recycled = [0] := by
  have hends : (exec step {} sendTwo).map (fun s => (s.users, s.recycled)) = .ok ([1], [0]) := by
    decide +kernel
  obtain ⟨s, hs, hend⟩ := map_eq_ok.mp hends
  rw [Prod.mk.injEq] at hend
  have hall := (single_owner_iff sendTwo hs).mpr (by decide +kernel)
  exact ⟨s, hs, hall s ⟨_, List.prefix_rfl, hs⟩, hend.1, hend.2⟩

/-- A message for a UDP client that has no socket: the block is recycled twice, and the next two
users share it. -/
theorem given_up_block_is_shared : ∃ s,
    exec step {} [.getMemBlock 0, .asyncSend ⟨"10.0.0.1", 80, .udpClient, .bin, ⟨0, [1]⟩⟩ 0,
      .handle 0 (.missing 7 {}), .getMemBlock 0, .getMemBlock 0] = .ok s ∧
      s.users = [0, 0] ∧ ¬ SingleOwner s := by
  have hends : (exec step {} [.getMemBlock 0,
      .asyncSend ⟨"10.0.0.1", 80, .udpClient, .bin, ⟨0, [1]⟩⟩ 0, .handle 0 (.missing 7 {}),
      .getMemBlock 0, .getMemBlock 0]).map (fun s => s.users) = .ok [0, 0] := by
    decide +kernel
  obtain ⟨s, hs, husers⟩ := map_eq_ok.mp hends
  refine ⟨s, hs, husers, fun h => ?_⟩
  have hnodup := h.exclusive.nodup .users
  change s.users.Nodup at hnodup
  rw [husers] at hnodup
  exact absurd hnodup (by decide)

end Kknf.LibEvent.NetFrame
