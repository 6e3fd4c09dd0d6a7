/-
# The pool of client sockets

`tcp_client_socket_map_` should hold clients only, each once and under its own endpoint, and
`DestroySocket` should take a socket out of it for good.  Two functions break this.
`HandleConnectThenWrite` puts a socket that `ToConnectThenWrite` has already put into the map there
a second time; and `ToWriteThenReadSync` never calls `set_is_client(true)`, so what it puts into the
map is destroyed as a server socket, and stays.

`pool_kept_iff` says that there is no third way, and that each of the two breaks it at once: the
pool is as it should be throughout a run exactly when no connection comes up in either of them.
-/
import Kknf.Asio2.Kinds
import Kknf.Asio2.Listening

namespace Kknf.Asio2

open Kknf.Run

/-! ## 1. What the pool should be -/

/-- The pool holds clients only, under their own endpoint and once. -/
structure PoolOk (s : Skeleton) : Prop where
  clients : ∀ key, ∀ i ∈ s.tcpClientSocketMap.listAt key, (s.heap i).isClient = true
  own : ∀ key, ∀ i ∈ s.tcpClientSocketMap.listAt key, (s.heap i).remoteEndpoint = key
  once : ∀ key, (s.tcpClientSocketMap.listAt key).Nodup

/-- The socket is in no map, and is not found idle. -/
def Gone (s : Skeleton) (i : SockId) : Prop :=
  ∀ key, i ∉ s.tcpClientSocketMap.listAt key ∧ s.tcpServerSocketMap.find key ≠ some i ∧
    findIdleTCPClientSocket s key ≠ some i

/-- The step from `s` to `t` calls `DestroySocket` on the socket: the event is that call, or a
handler or a request has made it. -/
def Destroys (s : Skeleton) (e : Event) (t : Skeleton) (i : SockId) : Prop :=
  e = .destroySocket i ∨ (s.heap i).closed = false ∧ (t.heap i).closed = true

/-- A pooled socket that a step of the run destroys is gone in every state from there on. -/
def GoneForGood (cfg : Config) (es : List Event) : Prop :=
  ∀ pre e post s t i, es = pre ++ e :: post → exec (step cfg) init pre = .ok s →
    step cfg s e = .ok t → (∃ key, i ∈ s.tcpClientSocketMap.listAt key) → Destroys s e t i →
      ∀ u, Visits (step cfg) t post u → Gone u i

/-- No connection to a server behind comes up in this event: neither in a connect handler nor in
`ToWriteThenReadSync`. -/
def NoneComesUp : Event → Prop
  | .complete (.connectThenWrite _ _) r => ¬ (r.error = false ∧ r.localEndpoint ≠ none)
  | .request (.toWriteThenReadSync _ type _ o) => ¬ (type = .lv ∧ o.connectOk = true)
  | _ => True

/-! ## 2. While no connection comes up -/

/-- A client that is not connected: in the pool once until it is destroyed, and then no more. -/
structure View.Unconnected (v : View) : Prop where
  client_of_pooled : ∀ k, v.pooled k ≠ 0 → v.conn.isClient = true
  not_connected : v.conn.isClient = true → v.conn.isConnected = false
  once : v.conn.isClient = true → v.conn.closed = false → v.pooled v.conn.remoteEndpoint = 1
  gone : v.conn.isClient = true → v.conn.closed = true → v.Unpooled

theorem View.Unconnected.of_unpooled {v : View} (hc : v.conn.isClient = false)
    (hp : v.Unpooled) : v.Unconnected where
  client_of_pooled := fun k hk => absurd (hp k) hk
  not_connected := fun h => by simp [hc] at h
  once := fun h => by simp [hc] at h
  gone := fun _ _ => hp

theorem View.Unconnected.destroyed {v : View} (h : v.Unconnected) (hown : v.PooledOwn) :
    v.destroyed.Unconnected := by
  cases hc : v.conn.isClient with
  | false =>
    refine .of_unpooled hc fun k => ?_
    by_contra hk
    refine absurd (h.client_of_pooled k fun h0 => hk ?_) (by simp [hc])
    simp [hc, h0]
  | true =>
    have hnone : v.destroyed.Unpooled := by
      intro k
      rw [View.destroyed_pooled, if_pos hc, Function.update_apply]
      split
      · rfl
      · rename_i hne
        by_contra hk
        exact hne (hown k hk)
    exact ⟨fun k hk => absurd (hnone k) hk, h.not_connected, fun _ hclosed => by simp at hclosed,
      fun _ _ => hnone⟩

theorem Kind.pooledOwn {v : View} (h : Kind v) : v.PooledOwn := by
  cases h with
  | fresh h => exact fun k hk => absurd (h.unpooled k) hk
  | waiting h => exact fun k hk => absurd (h.unpooled k) hk
  | client h => exact h.pooledOwn
  | server h => exact fun k hk => absurd (h.unpooled k) hk
  | synced h => exact h.pooledOwn

section

variable {s : Skeleton} {e : Event} {j : SockId} {v : View}

theorem View.Unconnected.sees (h : (view s j).Unconnected) (hk : Kind (view s j))
    (he : NoneComesUp e) (hs : Sees s e j v) : v.Unconnected := by
  have hidle : ∀ key, findIdleTCPClientSocket s key ≠ some j := fun key hi => by
    have hclient := hk.client_of_idle hi
    obtain ⟨-, -, hconn⟩ := findIdleTCPClientSocket_some hi
    simp [h.not_connected hclient.isClient] at hconn
  cases hs with
  | swept hev hserved =>
    obtain ⟨k, hserved⟩ := hserved
    have hserver := hk.server_of_served hserved
    exact .of_unpooled hserver.isClient hserver.unpooled
  | @connecting q remote type cb buf hev hq hj =>
    have hfresh := hk.fresh_of_next hj
    refine ⟨fun _ _ => rfl, fun _ => rfl, fun _ _ => ?_, fun _ hclosed => by simp at hclosed⟩
    simp [hfresh.unpooled remote]
  | reusing hev hi hop => exact absurd hi (hidle _)
  | reusingFor hev hi hop => exact absurd hi (hidle _)
  | synced hev hj hok =>
    subst hev
    exact absurd hok he
  | syncedDestroyed hev hj hok =>
    subst hev
    exact absurd hok he
  | destroyed href => exact h.destroyed hk.pooledOwn
  | accepting hj htype =>
    have hfresh := hk.fresh_of_next hj
    exact .of_unpooled rfl hfresh.unpooled
  | accepted hev ha hj hrem hfree hop =>
    have hwait := hk.waiting_of_accepting ha hj
    exact .of_unpooled hwait.isClient hwait.unpooled
  | acceptDropped hev ha hj =>
    have hwait := hk.waiting_of_accepting ha hj
    exact .of_unpooled hwait.isClient hwait.unpooled
  | returnedDestroyed hev hr hj hret =>
    have hd := View.Unconnected.destroyed (v := (view s j).resumed)
      ⟨h.client_of_pooled, h.not_connected, h.once, h.gone⟩ hk.pooledOwn
    exact ⟨hd.client_of_pooled, hd.not_connected, hd.once, hd.gone⟩
  | @completedDestroyed op r hev hp hr =>
    exact View.Unconnected.destroyed (v := (view s j).popOp op)
      ⟨h.client_of_pooled, h.not_connected, h.once, h.gone⟩ hk.pooledOwn
  | connected hev hp hr herr hloc huse hop =>
    subst hev
    exact absurd ⟨herr, by simp [hloc]⟩ he
  | _ => exact ⟨h.client_of_pooled, h.not_connected, h.once, h.gone⟩

end

/-- The states of a run in which no connection comes up. -/
structure NoneUp (s : Skeleton) : Prop where
  kinds : Kinds s
  sockets : ∀ j, (view s j).Unconnected

theorem init_noneUp : NoneUp init :=
  ⟨init_kinds, fun j => .of_unpooled rfl (init_fresh j).unpooled⟩

theorem step_noneUp {cfg : Config} {s t : Skeleton} {e : Event} (h : NoneUp s)
    (he : NoneComesUp e) (hst : step cfg s e = .ok t) : NoneUp t :=
  ⟨step_kinds h.kinds hst, fun j =>
    (h.sockets j).sees (h.kinds j) he (step_sees h.kinds.acceptorsCreated hst j)⟩

theorem mem_listAt {s : Skeleton} {key : TCPEndpoint} {i : SockId} :
    i ∈ s.tcpClientSocketMap.listAt key ↔ (view s i).pooled key ≠ 0 := by
  rw [← List.count_pos_iff, Nat.pos_iff_ne_zero]
  rfl

theorem NoneUp.poolOk {s : Skeleton} (h : NoneUp s) : PoolOk s where
  clients := fun key i hi => (h.sockets i).client_of_pooled key (mem_listAt.mp hi)
  own := fun key i hi => ((h.kinds i).pooledOwn key (mem_listAt.mp hi)).symm
  once := fun key => by
    refine List.nodup_iff_count_le_one.mpr fun i => ?_
    have hu := h.sockets i
    have hcount : (s.tcpClientSocketMap.listAt key).count i = (view s i).pooled key := rfl
    by_contra hgt
    have hne : (view s i).pooled key ≠ 0 := by omega
    have hclient := hu.client_of_pooled key hne
    have hkey := (h.kinds i).pooledOwn key hne
    cases hclosed : (view s i).conn.closed with
    | false =>
      have hone := hu.once hclient hclosed
      rw [← hkey] at hone
      omega
    | true => exact hne (hu.gone hclient hclosed key)

/-! ## 3. Destroyed clients -/

/-- A client that was closed stays closed. -/
theorem View.Client.closed_sees {s : Skeleton} {e : Event} {j : SockId} {v : View}
    (h : (view s j).Client) (hclosed : (view s j).conn.closed = true) (hs : Sees s e j v) :
    v.conn.closed = true := by
  have hcreated : j ≠ s.next := by
    rintro rfl
    exact not_created_next h.created
  cases hs with
  | connecting hev hq hj => exact absurd hj hcreated
  | synced hev hj hok => exact absurd hj hcreated
  | accepting hj htype => exact absurd hj hcreated
  | accepted hev ha hj hrem hfree hop =>
    exact absurd (accepting_of_find ha hj) (by simp [h.notAccepting _])
  | syncedDestroyed hev hj hok => rfl
  | acceptDropped hev ha hj => rfl
  | swept hev hserved => rfl
  | destroyed href => rfl
  | returnedDestroyed hev hr hj hret => rfl
  | completedDestroyed hev hp hr => rfl
  | _ => exact hclosed

/-- A destroyed client, in a run in which no connection comes up. -/
structure GoneClient (i : SockId) (s : Skeleton) : Prop where
  noneUp : NoneUp s
  client : (view s i).Client
  closed : (view s i).conn.closed = true

theorem GoneClient.gone {i : SockId} {s : Skeleton} (h : GoneClient i s) : Gone s i := by
  intro key
  have hunpooled := (h.noneUp.sockets i).gone h.client.isClient h.closed key
  refine ⟨fun hi => mem_listAt.mp hi hunpooled, fun hf => ?_, fun hidle => ?_⟩
  · have hserved := served_iff.mpr hf
    simp [h.client.unserved key] at hserved
  · exact pooled_of_findIdle hidle hunpooled

theorem step_goneClient {cfg : Config} {s t : Skeleton} {e : Event} {i : SockId}
    (h : GoneClient i s) (he : NoneComesUp e) (hst : step cfg s e = .ok t) : GoneClient i t := by
  have hsees := step_sees h.noneUp.kinds.acceptorsCreated hst i
  exact ⟨step_noneUp h.noneUp he hst, h.client.sees hsees, h.client.closed_sees h.closed hsees⟩

/-- What is pooled is a client, while no connection comes up. -/
theorem NoneUp.client_of_pooled {s : Skeleton} (h : NoneUp s) {i : SockId} {key : TCPEndpoint}
    (hi : i ∈ s.tcpClientSocketMap.listAt key) : (view s i).Client := by
  have hpooled := mem_listAt.mp hi
  have hclient := (h.sockets i).client_of_pooled key hpooled
  cases h.kinds i with
  | fresh hk => exact absurd (hk.unpooled key) hpooled
  | waiting hk => exact absurd (hk.unpooled key) hpooled
  | client hk => exact hk
  | server hk => exact absurd (hk.unpooled key) hpooled
  | synced hk => simp [hk.isClient] at hclient

theorem Destroys.closed {cfg : Config} {s t : Skeleton} {e : Event} {i : SockId}
    (h : Destroys s e t i) (hst : step cfg s e = .ok t) : (view t i).conn.closed = true := by
  rcases h with rfl | ⟨-, h⟩
  · simp only [step] at hst
    split at hst
    · cases hst
      rw [view_destroySocket_self]
      rfl
    · cases hst
  · exact h

theorem goneForGood {cfg : Config} {es : List Event} (h : ∀ e ∈ es, NoneComesUp e) :
    GoneForGood cfg es := by
  rintro pre e post s t i rfl hs hst ⟨key, hi⟩ hd u hu
  obtain ⟨hpre, he, hpost⟩ : (∀ e' ∈ pre, NoneComesUp e') ∧ NoneComesUp e ∧
      ∀ e' ∈ post, NoneComesUp e' := by
    simpa [or_imp, forall_and] using h
  have hup : NoneUp s := Along.invariant (G := fun _ e' => NoneComesUp e')
    (fun _ _ _ hn he' hu' => step_noneUp hn he' hu') init_noneUp
    (along_of_forall fun e' he' _ => hpre e' he') hs
  have hclient := (hup.client_of_pooled hi).sees (step_sees hup.kinds.acceptorsCreated hst i)
  have hgone : GoneClient i t := ⟨step_noneUp hup he hst, hclient, hd.closed hst⟩
  have hend : GoneClient i u := Along.invariant_visits (G := fun _ e' => NoneComesUp e')
    (fun _ _ _ hn he' hu' => step_goneClient hn he' hu') hgone
    (along_of_forall fun e' he' _ => hpost e' he') hu
  exact hend.gone

/-! ## 4. When a connection comes up -/

/-- The connect handler puts the socket into the pool a second time. -/
theorem connected_not_poolOk {cfg : Config} {s t : Skeleton} {i : SockId} {buf : List Byte}
    {r : Completion} {ep : TCPEndpoint} (h : NoneUp s)
    (hst : step cfg s (.complete (.connectThenWrite i buf) r) = .ok t) (herr : r.error = false)
    (hloc : r.localEndpoint = some ep) : ¬ PoolOk t := by
  intro hok
  simp only [step] at hst
  split at hst
  case isFalse => cases hst
  rename_i hen
  obtain ⟨-, -, hp, hfits⟩ := hen
  simp only [handle, herr, hloc] at hst
  obtain ⟨huse, op, -, hat⟩ := handleConnectThenWrite_connected hst
  rw [view_pop] at huse hat
  have hmem : .connectThenWrite i buf ∈ (view s i).ops := by simp [view, hp, Op.sock?]
  have hclient := (h.kinds i).client_of_connecting hmem huse
  have hopen : (view s i).conn.closed = false := by
    cases hc : (view s i).conn.closed with
    | false => rfl
    | true =>
      have hnone := hfits hc
      rw [hloc] at hnone
      cases hnone
  have hone := (h.sockets i).once hclient.isClient hopen
  have htwo : (view t i).pooled (view s i).conn.remoteEndpoint = 2 := by
    rw [hat.own]
    simp [hone]
  have hle : (view t i).pooled (view s i).conn.remoteEndpoint ≤ 1 :=
    List.nodup_iff_count_le_one.mp (hok.once (view s i).conn.remoteEndpoint) i
  omega

/-- What `ToWriteThenReadSync` has put into the pool stays there, whether it destroys it or not. -/
theorem toWriteThenReadSync_pooled {cfg : Config} {s t : Skeleton} {remote : TCPEndpoint}
    {buf : List Byte} {o : SyncOutcome} {r : Int × List Byte}
    (h : toWriteThenReadSync cfg s remote .lv buf o = .ok (t, r))
    (hidle : findIdleTCPClientSocket s remote = none) (hok : o.connectOk = true) :
    (view t s.next).pooled remote ≠ 0 ∧ (view t s.next).conn.isClient = false := by
  have hnew := (onlyAt_alloc s
    { type := .lv, accessTime := s.clock, remoteEndpoint := remote,
      isConnected := true, inUse := true, sendBuf := buf }).insertTCPClientSocket remote
  have hcases : t = insertTCPClientSocket (alloc s
      { type := .lv, accessTime := s.clock, remoteEndpoint := remote,
        isConnected := true, inUse := true, sendBuf := buf }) remote s.next ∨
      t = (destroySocket (insertTCPClientSocket (alloc s
        { type := .lv, accessTime := s.clock, remoteEndpoint := remote,
          isConnected := true, inUse := true, sendBuf := buf }) remote s.next) s.next).1 := by
    simp only [toWriteThenReadSync, hidle, hok, ne_eq, not_true_eq_false, if_false,
      Bool.not_true, Bool.false_eq_true] at h
    split at h
    · exact readSync_cases h
    · cases h
      exact .inr rfl
  rcases hcases with rfl | rfl
  · rw [hnew.own]
    simp [SocketInfo.conn]
  · rw [view_destroySocket_self, hnew.own]
    simp [SocketInfo.conn]

theorem synced_not_poolOk {cfg : Config} {s t : Skeleton} {remote : TCPEndpoint}
    {buf : List Byte} {o : SyncOutcome} (h : NoneUp s)
    (hst : step cfg s (.request (.toWriteThenReadSync remote .lv buf o)) = .ok t)
    (hok : o.connectOk = true) : ¬ PoolOk t := by
  intro hpool
  obtain ⟨⟨t', r⟩, ht, rfl⟩ := map_eq_ok.mp hst
  have hidle : findIdleTCPClientSocket s remote = none := by
    cases hi : findIdleTCPClientSocket s remote with
    | none => rfl
    | some i =>
      have hclient := (h.kinds i).client_of_idle hi
      have hconn := (findIdleTCPClientSocket_some hi).2.2
      simp [(h.sockets i).not_connected hclient.isClient] at hconn
  obtain ⟨hpooled, hc⟩ := toWriteThenReadSync_pooled ht hidle hok
  have hclient : (view t' s.next).conn.isClient = true :=
    hpool.clients remote s.next (mem_listAt.mpr hpooled)
  simp [hc] at hclient

theorem step_not_poolOk {cfg : Config} {s t : Skeleton} {e : Event} (h : NoneUp s)
    (he : ¬ NoneComesUp e) (hst : step cfg s e = .ok t) : ¬ PoolOk t := by
  unfold NoneComesUp at he
  split at he
  · rename_i i buf r
    obtain ⟨herr, hloc⟩ := not_not.mp he
    obtain ⟨ep, hep⟩ := Option.ne_none_iff_exists'.mp hloc
    exact connected_not_poolOk h hst herr hep
  · obtain ⟨rfl, hok⟩ := not_not.mp he
    exact synced_not_poolOk h hst hok
  · exact absurd trivial he

/-! ## 5. Every run -/

/-- **The pool is kept exactly while no connection comes up.**  In a run that executes, the pool
holds clients only, each once and under its own endpoint, in every state, and what is destroyed is
gone for good, if and only if no connect handler and no `ToWriteThenReadSync` brings up a
connection. -/
theorem pool_kept_iff (cfg : Config) (es : List Event) (s : Skeleton)
    (hrun : exec (step cfg) init es = .ok s) :
    ((∀ t, Visits (step cfg) init es t → PoolOk t) ∧ GoneForGood cfg es) ↔
      ∀ e ∈ es, NoneComesUp e := by
  have hpool : (∀ t, Visits (step cfg) init es t → PoolOk t) ↔ ∀ e ∈ es, NoneComesUp e := by
    rw [← along_iff_forall hrun]
    exact always_iff_along (fun _ _ _ ht hg hu => step_noneUp ht hg hu) (fun _ => NoneUp.poolOk)
      (fun _ _ _ ht hg hu => step_not_poolOk ht hg hu) init_noneUp hrun
  exact ⟨fun h => hpool.mp h.1, fun h => ⟨hpool.mpr h, goneForGood h⟩⟩

/-- Two requests to a server that cannot be reached: the first connect fails, and its socket is
destroyed. -/
def connectFails : List Event :=
  [.request (.toWriteThenRead ⟨9, 90⟩ .lv [0, 0, 0, 4] false), .run,
    .request (.toWriteThenCallBack ⟨9, 90⟩ .lv [0, 0, 0, 4] false (some 1)),
    .complete (.connectThenWrite 0 [0, 0, 0, 4]) { error := true }]

theorem connectFails_pool_kept : ∃ s, exec (step Config.lv) init connectFails = .ok s ∧
    s.tcpClientSocketMap.listAt ⟨9, 90⟩ = [1] ∧ PoolOk s ∧ GoneForGood Config.lv connectFails := by
  have h := (pool_kept_iff Config.lv connectFails _ rfl).mpr (by simp [connectFails, NoneComesUp])
  exact ⟨_, rfl, rfl, h.1 _ ⟨_, List.prefix_rfl, rfl⟩, h.2⟩

/-- One connect that succeeds: the socket is in its list twice.  And one `ToWriteThenReadSync` whose
read fails: the socket it has destroyed is in the pool and not marked as a client. -/
theorem connected_socket_pooled_twice :
    (∃ s, exec (step Config.lv) init
        [.request (.toWriteThenRead ⟨9, 90⟩ .lv [0, 0, 0, 4] false), .run,
          .complete (.connectThenWrite 0 [0, 0, 0, 4]) { localEndpoint := some ⟨1, 5000⟩ }] =
        .ok s ∧ s.tcpClientSocketMap.listAt ⟨9, 90⟩ = [0, 0] ∧ ¬ PoolOk s) ∧
      ∃ s, exec (step Config.lv) init
        [.request (.toWriteThenReadSync ⟨9, 90⟩ .lv [0, 0, 0, 4] {})] = .ok s ∧
        s.tcpClientSocketMap.listAt ⟨9, 90⟩ = [0] ∧ (s.heap 0).closed = true ∧
          (s.heap 0).isClient = false ∧ ¬ PoolOk s := by
  refine ⟨⟨_, rfl, rfl, fun h => ?_⟩, ⟨_, rfl, rfl, rfl, rfl, fun h => ?_⟩⟩
  · have honce := h.once ⟨9, 90⟩
    revert honce
    decide
  · have hclient := h.clients ⟨9, 90⟩ 0
    revert hclient
    decide

end Kknf.Asio2
