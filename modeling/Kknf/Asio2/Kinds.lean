/-
# The kinds of sockets

Every `SocketInfo` is of one kind, and keeps it: a client made by `ToConnectThenWrite`, a server
socket that was accepted, or one made by `ToWriteThenReadSync`, after it was not yet created or was
waiting at an acceptor.  The kind says which map can hold the socket and under which endpoint.

This holds in every run, whatever the requests are: it is what the invariants of the single results
start from.
-/
import Kknf.Lib.Run
import Kknf.Asio2.Sees

namespace Kknf.Asio2

open Kknf.Run

/-! ## 1. Kinds -/

namespace View

variable (v : View)

/-- No acceptor waits with the socket. -/
def NotAccepting : Prop := ∀ k, v.accepting k = false

/-- The client map does not have the socket. -/
def Unpooled : Prop := ∀ k, v.pooled k = 0

/-- The server map does not have the socket. -/
def Unserved : Prop := ∀ k, v.served k = false

/-- The client map has the socket under its own endpoint only. -/
def PooledOwn : Prop := ∀ k, v.pooled k ≠ 0 → k = v.conn.remoteEndpoint

/-- The server map has the socket under its own endpoint only. -/
def ServedOwn : Prop := ∀ k, v.served k = true → k = v.conn.remoteEndpoint

/-- Nothing goes on on the socket. -/
structure Quiet : Prop where
  ops : v.ops = []
  running : v.running = none

/-- Not created yet. -/
structure Fresh : Prop where
  created : ¬ v.created
  notAccepting : v.NotAccepting
  unpooled : v.Unpooled
  unserved : v.Unserved
  quiet : v.Quiet
  calls : v.calls = []
  issued : v.issued = []

/-- An acceptor waits with it for a connection. -/
structure Waiting : Prop where
  created : v.created
  one : ∃ key, v.accepting key = true ∧ ∀ k, k ≠ key → v.accepting k = false
  unpooled : v.Unpooled
  unserved : v.Unserved
  quiet : v.Quiet
  isClient : v.conn.isClient = false
  isConnected : v.conn.isConnected = false

/-- Made by `ToConnectThenWrite`. -/
structure Client : Prop where
  created : v.created
  notAccepting : v.NotAccepting
  isClient : v.conn.isClient = true
  pooledOwn : v.PooledOwn
  unserved : v.Unserved

/-- Accepted. -/
structure Server : Prop where
  created : v.created
  notAccepting : v.NotAccepting
  isClient : v.conn.isClient = false
  isConnected : v.conn.isConnected = true
  inUse : v.conn.inUse = true
  unpooled : v.Unpooled
  servedOwn : v.ServedOwn

/-- Made by `ToWriteThenReadSync`: in the client map, but not marked as a client. -/
structure Synced : Prop where
  created : v.created
  notAccepting : v.NotAccepting
  isClient : v.conn.isClient = false
  isConnected : v.conn.isConnected = true
  inUse : v.conn.inUse = true
  pooledOwn : v.PooledOwn
  unserved : v.Unserved
  quiet : v.Quiet

end View

/-- The kind of a socket. -/
inductive Kind (v : View) : Prop
  | fresh (h : v.Fresh)
  | waiting (h : v.Waiting)
  | client (h : v.Client)
  | server (h : v.Server)
  | synced (h : v.Synced)

/-- Every socket is of some kind. -/
def Kinds (s : Skeleton) : Prop := ∀ j, Kind (view s j)

theorem init_fresh (j : SockId) : (view init j).Fresh :=
  ⟨by simp [view, init], fun _ => rfl, fun _ => rfl, fun _ => rfl, ⟨rfl, rfl⟩, rfl, rfl⟩

theorem Kind.created_of_accepting {v : View} (h : Kind v) {k : TCPEndpoint}
    (hk : v.accepting k = true) : v.created := by
  cases h with
  | fresh h => exact absurd hk (by simp [h.notAccepting k])
  | waiting h => exact h.created
  | client h => exact h.created
  | server h => exact h.created
  | synced h => exact h.created

theorem Kinds.acceptorsCreated {s : Skeleton} (h : Kinds s) : AcceptorsCreated s := by
  intro key a ha
  exact (h a.skInfo).created_of_accepting (k := key) (by simp [view, ha])

/-! ## 2. What a kind excludes -/

section

variable {s : Skeleton} {j : SockId}

theorem served_iff {k : TCPEndpoint} :
    (view s j).served k = true ↔ s.tcpServerSocketMap.find k = some j := by
  simp [view]

theorem accepting_of_find {key : TCPEndpoint} {a : TCPAcceptorInfo}
    (ha : s.tcpAcceptorMap.find key = some a) (hj : a.skInfo = j) :
    (view s j).accepting key = true := by
  simp [view, ha, hj]

theorem pooled_of_findIdle {key : TCPEndpoint} (h : findIdleTCPClientSocket s key = some j) :
    (view s j).pooled key ≠ 0 := by
  have hmem := (findIdleTCPClientSocket_some h).1
  exact (List.count_pos_iff.mpr hmem).ne'

theorem running_of_eq {r : Running} (hr : s.running = some r) (hj : r.sock = j) :
    (view s j).running = some r := by
  simp [view, hr, hj, Option.filter]

/-- Somebody can find the socket in a map. -/
theorem found_cases {remote : TCPEndpoint} {srv : Bool}
    (h : (if srv then findTCPServerSocket s remote else findIdleTCPClientSocket s remote) =
      some j) : (view s j).served remote = true ∨ (view s j).pooled remote ≠ 0 := by
  cases srv with
  | true => exact .inl (served_iff.mpr h)
  | false => exact .inr (pooled_of_findIdle h)

theorem not_created_next : ¬ (view s s.next).created := lt_irrefl s.next

/-- The next socket is not created yet. -/
theorem Kind.fresh_of_next (h : Kind (view s j)) (hj : j = s.next) : (view s j).Fresh := by
  subst hj
  cases h with
  | fresh h => exact h
  | waiting h => exact absurd h.created not_created_next
  | client h => exact absurd h.created not_created_next
  | server h => exact absurd h.created not_created_next
  | synced h => exact absurd h.created not_created_next

/-- What `FindIdleTCPClientSocket` returns is a client: the sockets of `ToWriteThenReadSync` stay in
use. -/
theorem Kind.client_of_idle (h : Kind (view s j)) {key : TCPEndpoint}
    (hi : findIdleTCPClientSocket s key = some j) : (view s j).Client := by
  have hpooled := pooled_of_findIdle hi
  have huse := (findIdleTCPClientSocket_some hi).2.1
  cases h with
  | fresh h => exact absurd (h.unpooled key) hpooled
  | waiting h => exact absurd (h.unpooled key) hpooled
  | client h => exact h
  | server h => exact absurd (h.unpooled key) hpooled
  | synced h => simp [h.inUse] at huse

/-- What has an operation outstanding and is not in use is a client: server sockets are always in
use. -/
theorem Kind.client_of_connecting {v : View} (h : Kind v) {op : Op} (hp : op ∈ v.ops)
    (huse : v.conn.inUse = false) : v.Client := by
  cases h with
  | fresh h => simp [h.quiet.ops] at hp
  | waiting h => simp [h.quiet.ops] at hp
  | client h => exact h
  | server h => simp [h.inUse] at huse
  | synced h => simp [h.quiet.ops] at hp

/-- What the server map has was accepted. -/
theorem Kind.server_of_served (h : Kind (view s j)) {key : TCPEndpoint}
    (hk : (view s j).served key = true) : (view s j).Server := by
  cases h with
  | fresh h => simp [h.unserved key] at hk
  | waiting h => simp [h.unserved key] at hk
  | client h => simp [h.unserved key] at hk
  | server h => exact h
  | synced h => simp [h.unserved key] at hk

/-- What an acceptor waits with is waiting. -/
theorem Kind.waiting_of_accepting (h : Kind (view s j)) {key : TCPEndpoint} {a : TCPAcceptorInfo}
    (ha : s.tcpAcceptorMap.find key = some a) (hj : a.skInfo = j) : (view s j).Waiting := by
  have hk := accepting_of_find ha hj
  cases h with
  | fresh h => simp [h.notAccepting key] at hk
  | waiting h => exact h
  | client h => simp [h.notAccepting key] at hk
  | server h => simp [h.notAccepting key] at hk
  | synced h => simp [h.notAccepting key] at hk

end

/-! ## 3. The maps' part of a view under updates -/

namespace View

variable {v : View}

theorem Unserved.evicted (h : v.Unserved) (k : TCPEndpoint) : (v.evicted k).Unserved := by
  intro k'
  rw [evicted_served, Function.update_apply]
  split
  · rfl
  · exact h k'

theorem ServedOwn.evicted (h : v.ServedOwn) (k : TCPEndpoint) : (v.evicted k).ServedOwn := by
  intro k' hk'
  rw [evicted_served, Function.update_apply] at hk'
  split at hk'
  · cases hk'
  · exact h k' hk'

theorem PooledOwn.addPooled (h : v.PooledOwn) :
    (v.addPooled v.conn.remoteEndpoint).PooledOwn := by
  intro k hk
  rw [addPooled_pooled, Function.update_apply] at hk
  split at hk
  · assumption
  · exact h k hk

theorem PooledOwn.destroyed (h : v.PooledOwn) : v.destroyed.PooledOwn := by
  intro k hk
  refine h k fun h0 => hk ?_
  rw [destroyed_pooled]
  split
  · rw [Function.update_apply]
    split
    · rfl
    · exact h0
  · exact h0

theorem Unserved.destroyed (h : v.Unserved) : v.destroyed.Unserved := by
  intro k
  rw [destroyed_served]
  split
  · exact h k
  · exact h.evicted v.conn.remoteEndpoint k

theorem ServedOwn.destroyed (h : v.ServedOwn) : v.destroyed.ServedOwn := by
  intro k hk
  rw [destroyed_served] at hk
  split at hk
  · exact h k hk
  · exact h.evicted v.conn.remoteEndpoint k hk

theorem Unpooled.destroyed (h : v.Unpooled) : v.destroyed.Unpooled := by
  intro k
  rw [destroyed_pooled]
  split
  · rw [Function.update_apply]
    split
    · rfl
    · exact h k
  · exact h k

/-- A socket at no endpoint, put at one. -/
theorem Unpooled.addPooled_own (h : v.Unpooled) {k : TCPEndpoint} (hk : k = v.conn.remoteEndpoint) :
    (v.addPooled k).PooledOwn := by
  subst hk
  exact PooledOwn.addPooled fun k hk => absurd (h k) hk

end View

/-! ## 4. A step keeps every kind -/

section

variable {s : Skeleton} {e : Event} {j : SockId} {v : View}

theorem View.Client.sees (h : (view s j).Client) (hs : Sees s e j v) : v.Client := by
  have hserved : ∀ k, (view s j).served k ≠ true := fun k hk => by simp [h.unserved k] at hk
  have hcreated : j ≠ s.next := by
    rintro rfl
    exact not_created_next h.created
  have hclient : (view s j).conn.isClient ≠ false := by simp [h.isClient]
  cases hs with
  | evicted hij hc href =>
    exact ⟨h.created, h.notAccepting, h.isClient, h.pooledOwn, h.unserved.evicted _⟩
  | syncEvicted he =>
    exact ⟨h.created, h.notAccepting, h.isClient, h.pooledOwn, h.unserved.evicted _⟩
  | swept he hk =>
    obtain ⟨k, hk⟩ := hk
    exact absurd hk (hserved k)
  | connecting he hq hj => exact absurd hj hcreated
  | answering he hi hidle hop => exact absurd (served_iff.mpr hi) (hserved _)
  | synced he hj hok => exact absurd hj hcreated
  | syncedDestroyed he hj hok => exact absurd hj hcreated
  | accepting hj htype => exact absurd hj hcreated
  | accepted he ha hj hrem hfree hop =>
    exact absurd (accepting_of_find ha hj) (by simp [h.notAccepting _])
  | acceptDropped he ha hj =>
    exact absurd (accepting_of_find ha hj) (by simp [h.notAccepting _])
  | returnedKept he hr hj hret hc => exact absurd hc hclient
  | returnedRead he hr hj hret hc hop => exact absurd hc hclient
  | destroyed href =>
    exact ⟨h.created, h.notAccepting, h.isClient, h.pooledOwn.destroyed, h.unserved.destroyed⟩
  | returnedDestroyed he hr hj hret =>
    exact ⟨h.created, h.notAccepting, h.isClient,
      View.PooledOwn.destroyed (v := (view s j).resumed) h.pooledOwn,
      View.Unserved.destroyed (v := (view s j).resumed) h.unserved⟩
  | completedDestroyed he hp hr =>
    exact ⟨h.created, h.notAccepting, h.isClient,
      View.PooledOwn.destroyed (v := (view s j).popOp _) h.pooledOwn,
      View.Unserved.destroyed (v := (view s j).popOp _) h.unserved⟩
  | connected he hp hr herr hloc huse hop =>
    exact ⟨h.created, h.notAccepting, h.isClient, h.pooledOwn.addPooled, h.unserved⟩
  | _ => exact ⟨h.created, h.notAccepting, h.isClient, h.pooledOwn, h.unserved⟩

theorem View.Server.sees (h : (view s j).Server) (hs : Sees s e j v) : v.Server := by
  have hpooled : ∀ k, ¬ (view s j).pooled k ≠ 0 := fun k hk => hk (h.unpooled k)
  have hcreated : j ≠ s.next := by
    rintro rfl
    exact not_created_next h.created
  have hclient : (view s j).conn.isClient ≠ true := by simp [h.isClient]
  have huse : ((view s j).conn.isClient || (view s j).conn.inUse) = true := by simp [h.inUse]
  cases hs with
  | evicted hij hc href =>
    exact ⟨h.created, h.notAccepting, h.isClient, h.isConnected, h.inUse, h.unpooled,
      h.servedOwn.evicted _⟩
  | syncEvicted he =>
    exact ⟨h.created, h.notAccepting, h.isClient, h.isConnected, h.inUse, h.unpooled,
      h.servedOwn.evicted _⟩
  | swept he hk =>
    exact ⟨h.created, h.notAccepting, h.isClient, h.isConnected, h.inUse, h.unpooled,
      fun k hk => by cases hk⟩
  | connecting he hq hj => exact absurd hj hcreated
  | synced he hj hok => exact absurd hj hcreated
  | syncedDestroyed he hj hok => exact absurd hj hcreated
  | accepting hj htype => exact absurd hj hcreated
  | accepted he ha hj hrem hfree hop =>
    exact absurd (accepting_of_find ha hj) (by simp [h.notAccepting _])
  | acceptDropped he ha hj =>
    exact absurd (accepting_of_find ha hj) (by simp [h.notAccepting _])
  | reusing he hi hop => exact absurd (pooled_of_findIdle hi) (hpooled _)
  | reusingFor he hi hop => exact absurd (pooled_of_findIdle hi) (hpooled _)
  | answering he hi hidle hop =>
    exact ⟨h.created, h.notAccepting, h.isClient, h.isConnected, huse, h.unpooled, h.servedOwn⟩
  | returnedIdle he hr hj hret hc => exact absurd hc hclient
  | destroyed href =>
    exact ⟨h.created, h.notAccepting, h.isClient, h.isConnected, h.inUse, h.unpooled.destroyed,
      h.servedOwn.destroyed⟩
  | returnedDestroyed he hr hj hret =>
    exact ⟨h.created, h.notAccepting, h.isClient, h.isConnected, h.inUse,
      View.Unpooled.destroyed (v := (view s j).resumed) h.unpooled,
      View.ServedOwn.destroyed (v := (view s j).resumed) h.servedOwn⟩
  | completedDestroyed he hp hr =>
    exact ⟨h.created, h.notAccepting, h.isClient, h.isConnected, h.inUse,
      View.Unpooled.destroyed (v := (view s j).popOp _) h.unpooled,
      View.ServedOwn.destroyed (v := (view s j).popOp _) h.servedOwn⟩
  | connected he hp hr herr hloc hnotUse hop => simp [h.inUse] at hnotUse
  | _ => exact ⟨h.created, h.notAccepting, h.isClient, h.isConnected, h.inUse, h.unpooled,
      h.servedOwn⟩

/-- What can happen to a created socket on which nothing goes on and which nobody can find. -/
theorem Sees.of_quiet (hs : Sees s e j v) (hcreated : j ≠ s.next) (hquiet : (view s j).Quiet)
    (hpooled : ∀ k, (view s j).pooled k ≠ 0 → ¬ (view s j).conn.inUse = false)
    (hunserved : (view s j).Unserved) :
    v = view s j ∨ (∃ k, v = (view s j).evicted k) ∨ v = (view s j).destroyed ∨
      ∃ key a, s.tcpAcceptorMap.find key = some a ∧ a.skInfo = j ∧
        (v = (view s j).droppedAs key a.type ∨
          ∃ rem op, ReadOp j a.type op ∧ v = (view s j).acceptedAs key rem a.type op) := by
  have hserved : ∀ k, (view s j).served k ≠ true := fun k hk => by simp [hunserved k] at hk
  have hidle : ∀ key, findIdleTCPClientSocket s key ≠ some j := fun key hi =>
    hpooled key (pooled_of_findIdle hi) (findIdleTCPClientSocket_some hi).2.1
  have hnotRunning : ∀ r, s.running = some r → r.sock ≠ j := fun r hr hj => by
    have := running_of_eq hr hj
    rw [hquiet.running] at this
    cases this
  have hnoOp : ∀ op, op ∉ (view s j).ops := fun op => by simp [hquiet.ops]
  cases hs with
  | same => exact .inl rfl
  | evicted hij hc href => exact .inr (.inl ⟨_, rfl⟩)
  | syncEvicted he => exact .inr (.inl ⟨_, rfl⟩)
  | destroyed href => exact .inr (.inr (.inl rfl))
  | accepted he ha hj hrem hfree hop =>
    exact .inr (.inr (.inr ⟨_, _, ha, hj, .inr ⟨_, _, hop, rfl⟩⟩))
  | acceptDropped he ha hj => exact .inr (.inr (.inr ⟨_, _, ha, hj, .inl rfl⟩))
  | swept he hk =>
    obtain ⟨k, hk⟩ := hk
    exact absurd hk (hserved k)
  | connecting he hq hj => exact absurd hj hcreated
  | synced he hj hok => exact absurd hj hcreated
  | syncedDestroyed he hj hok => exact absurd hj hcreated
  | accepting hj htype => exact absurd hj hcreated
  | reusing he hi hop => exact absurd hi (hidle _)
  | reusingFor he hi hop => exact absurd hi (hidle _)
  | answering he hi _ hop => exact absurd (served_iff.mpr hi) (hserved _)
  | @closing remote buf srv he hi =>
    cases srv with
    | true => exact absurd (served_iff.mpr hi) (hserved _)
    | false => exact absurd hi (hidle _)
  | returnedDestroyed he hr hj hret => exact absurd hj (hnotRunning _ hr)
  | returnedKept he hr hj hret hc => exact absurd hj (hnotRunning _ hr)
  | returnedIdle he hr hj hret hc => exact absurd hj (hnotRunning _ hr)
  | returnedRead he hr hj hret hc hop => exact absurd hj (hnotRunning _ hr)
  | completedDestroyed he hp hr => exact absurd hp (hnoOp _)
  | completedNext he hp hr hn => exact absurd hp (hnoOp _)
  | completedCalled he hp hr hc => exact absurd hp (hnoOp _)
  | connected he hp hr herr hloc huse hop => exact absurd hp (hnoOp _)

theorem View.Synced.sees (h : (view s j).Synced) (hs : Sees s e j v) : v.Synced := by
  have hcreated : j ≠ s.next := by
    rintro rfl
    exact not_created_next h.created
  have hnotAccepting : ∀ key a, s.tcpAcceptorMap.find key = some a → a.skInfo ≠ j :=
    fun key a ha hj => by
      have := accepting_of_find ha hj
      rw [h.notAccepting] at this
      cases this
  rcases hs.of_quiet hcreated h.quiet (fun _ _ => by simp [h.inUse]) h.unserved with
    rfl | ⟨k, rfl⟩ | rfl | ⟨key, a, ha, hj, -⟩
  · exact h
  · exact ⟨h.created, h.notAccepting, h.isClient, h.isConnected, h.inUse, h.pooledOwn,
      h.unserved.evicted k, h.quiet.ops, h.quiet.running⟩
  · exact ⟨h.created, h.notAccepting, h.isClient, h.isConnected, h.inUse, h.pooledOwn.destroyed,
      h.unserved.destroyed, h.quiet.ops, h.quiet.running⟩
  · exact absurd hj (hnotAccepting key a ha)

theorem View.Waiting.sees (h : (view s j).Waiting) (hs : Sees s e j v) :
    v.Waiting ∨ v.Server := by
  have hcreated : j ≠ s.next := by
    rintro rfl
    exact not_created_next h.created
  obtain ⟨key₀, hkey₀, hother⟩ := h.one
  have hkey : ∀ key a, s.tcpAcceptorMap.find key = some a → a.skInfo = j → key = key₀ :=
    fun key a ha hj => by
      by_contra hne
      have := accepting_of_find ha hj
      rw [hother key hne] at this
      cases this
  have hnone : ∀ key a, s.tcpAcceptorMap.find key = some a → a.skInfo = j →
      ∀ k, Function.update (view s j).accepting key false k = false := fun key a ha hj k => by
    rw [Function.update_apply]
    split
    · rfl
    · rename_i hk
      exact hother k (hkey key a ha hj ▸ hk)
  rcases hs.of_quiet hcreated h.quiet (fun k hk => absurd (h.unpooled k) hk) h.unserved with
    rfl | ⟨k, rfl⟩ | rfl | ⟨key, a, ha, hj, rfl | ⟨rem, op, -, rfl⟩⟩
  · exact .inl h
  · exact .inl ⟨h.created, h.one, h.unpooled, h.unserved.evicted k, ⟨h.quiet.ops, h.quiet.running⟩,
      h.isClient, h.isConnected⟩
  · exact .inl ⟨h.created, h.one, h.unpooled.destroyed, h.unserved.destroyed,
      ⟨h.quiet.ops, h.quiet.running⟩, h.isClient, h.isConnected⟩
  · exact .inr ⟨h.created, hnone key a ha hj, h.isClient, rfl, rfl, h.unpooled,
      fun k hk => absurd hk (by simpa [View.droppedAs] using h.unserved k)⟩
  · refine .inr ⟨h.created, hnone key a ha hj, h.isClient, rfl, rfl, h.unpooled, ?_⟩
    intro k hk
    have hupd : Function.update (view s j).served rem true k = true := hk
    rw [Function.update_apply, h.unserved k] at hupd
    split at hupd
    · assumption
    · cases hupd

/-- A socket that has not been created stays so, or is created as a client, by a synchronous
request, or for an acceptor. -/
theorem View.Fresh.sees (h : (view s j).Fresh) (hs : Sees s e j v) : Kind v := by
  have hserved : ∀ k, (view s j).served k ≠ true := fun k hk => by simp [h.unserved k] at hk
  have hpooled : ∀ k, ¬ (view s j).pooled k ≠ 0 := fun k hk => hk (h.unpooled k)
  have hnotAccepting : ∀ key a, s.tcpAcceptorMap.find key = some a → a.skInfo ≠ j :=
    fun key a ha hj => by
      have := accepting_of_find ha hj
      rw [h.notAccepting] at this
      cases this
  have hnotRunning : ∀ r, s.running = some r → r.sock ≠ j := fun r hr hj => by
    have := running_of_eq hr hj
    rw [h.quiet.running] at this
    cases this
  have hnoOp : ∀ op, op ∉ (view s j).ops := fun op => by simp [h.quiet.ops]
  cases hs with
  | same => exact .fresh h
  | evicted hij hc href =>
    exact .fresh ⟨h.created, h.notAccepting, h.unpooled, h.unserved.evicted _,
      ⟨h.quiet.ops, h.quiet.running⟩, h.calls, h.issued⟩
  | syncEvicted he =>
    exact .fresh ⟨h.created, h.notAccepting, h.unpooled, h.unserved.evicted _,
      ⟨h.quiet.ops, h.quiet.running⟩, h.calls, h.issued⟩
  | destroyed href =>
    exact .fresh ⟨h.created, h.notAccepting, h.unpooled.destroyed, h.unserved.destroyed,
      ⟨h.quiet.ops, h.quiet.running⟩, h.calls, h.issued⟩
  | @connecting q remote type cb buf he hq hj =>
    exact .client ⟨trivial, h.notAccepting, rfl,
      View.Unpooled.addPooled_own (v := (view s j).createdAs _) h.unpooled rfl, h.unserved⟩
  | synced he hj hok =>
    exact .synced ⟨trivial, h.notAccepting, rfl, rfl, rfl,
      View.Unpooled.addPooled_own (v := (view s j).createdAs _) h.unpooled rfl, h.unserved,
      ⟨h.quiet.ops, h.quiet.running⟩⟩
  | @syncedDestroyed remote type buf o he hj hok =>
    have hown := View.Unpooled.addPooled_own (v := (view s j).createdAs
      ⟨type, remote, false, true, false, true, none⟩) h.unpooled (k := remote) rfl
    exact .synced ⟨trivial, h.notAccepting, rfl, rfl, rfl, hown.destroyed,
      View.Unserved.destroyed (v := ((view s j).createdAs _).addPooled remote) h.unserved,
      ⟨h.quiet.ops, h.quiet.running⟩⟩
  | @accepting key type hj htype =>
    refine .waiting ⟨trivial, ⟨key, ?_, fun k hk => ?_⟩, h.unpooled, h.unserved,
      ⟨h.quiet.ops, h.quiet.running⟩, rfl, rfl⟩
    · simp
    · simp [hk, h.notAccepting k]
  | swept he hk =>
    obtain ⟨k, hk⟩ := hk
    exact absurd hk (hserved k)
  | reusing he hi hop => exact absurd (pooled_of_findIdle hi) (hpooled _)
  | reusingFor he hi hop => exact absurd (pooled_of_findIdle hi) (hpooled _)
  | answering he hi _ hop => exact absurd (served_iff.mpr hi) (hserved _)
  | closing he hi =>
    rcases found_cases hi with hk | hk
    · exact absurd hk (hserved _)
    · exact absurd hk (hpooled _)
  | accepted he ha hj hrem hfree hop => exact absurd hj (hnotAccepting _ _ ha)
  | acceptDropped he ha hj => exact absurd hj (hnotAccepting _ _ ha)
  | returnedDestroyed he hr hj hret => exact absurd hj (hnotRunning _ hr)
  | returnedKept he hr hj hret hc => exact absurd hj (hnotRunning _ hr)
  | returnedIdle he hr hj hret hc => exact absurd hj (hnotRunning _ hr)
  | returnedRead he hr hj hret hc hop => exact absurd hj (hnotRunning _ hr)
  | completedDestroyed he hp hr => exact absurd hp (hnoOp _)
  | completedNext he hp hr hn => exact absurd hp (hnoOp _)
  | completedCalled he hp hr hc => exact absurd hp (hnoOp _)
  | connected he hp hr herr hloc huse hop => exact absurd hp (hnoOp _)

theorem Kind.sees (h : Kind (view s j)) (hs : Sees s e j v) : Kind v := by
  cases h with
  | fresh h => exact h.sees hs
  | waiting h => exact (h.sees hs).elim .waiting .server
  | client h => exact .client (h.sees hs)
  | server h => exact .server (h.sees hs)
  | synced h => exact .synced (h.sees hs)

end

/-! ## 5. Every run -/

theorem init_kinds : Kinds init := fun j => .fresh (init_fresh j)

theorem step_kinds {cfg : Config} {s t : Skeleton} {e : Event} (h : Kinds s)
    (hst : step cfg s e = .ok t) : Kinds t :=
  fun j => (h j).sees (step_sees h.acceptorsCreated hst j)

/-- **Every socket of every run is of one of the kinds.** -/
theorem exec_kinds {cfg : Config} {es : List Event} {s : Skeleton}
    (h : exec (step cfg) init es = .ok s) : Kinds s :=
  Along.invariant (G := fun _ _ => True) (fun _ _ _ ht _ hu => step_kinds ht hu) init_kinds
    (along_of_forall fun _ _ _ => trivial) h

end Kknf.Asio2
