/-
# The map of server sockets

`tcp_server_socket_map_` has one entry for each remote endpoint, and `DestroySocket` erases the
entry of the endpoint without looking which socket it holds.  So the map is right as long as no two
sockets that somebody still holds a pointer to have the same remote endpoint.  The code does not see
to that: a client may open connections to two listening ports from one endpoint, and a socket that
the sweep has closed and taken out of the map still has an operation outstanding, whose completion
destroys it, when the same client connects again.

`server_map_kept_iff` says that this is all: in a run without `ToWriteThenReadSync`, the map is
right throughout exactly when every accepted connection comes from an endpoint that no known socket
has.
-/
import Kknf.Asio2.Faults
import Kknf.Asio2.Kinds
import Kknf.Asio2.Listening

namespace Kknf.Asio2

open Kknf.Run

/-! ## 1. What the map should be -/

/-- An accepted connection that nobody has closed. -/
def Live (s : Skeleton) (i : SockId) : Prop :=
  (s.heap i).isClient = false ∧ (s.heap i).isConnected = true ∧ (s.heap i).closed = false

/-- The map has every live connection, and whoever destroys a server socket takes away no entry of
another socket. -/
structure ServerMapOk (s : Skeleton) : Prop where
  mapped : ∀ i, Live s i → findTCPServerSocket s (s.heap i).remoteEndpoint = some i
  destroys_own : ∀ i, Referenced s i → (s.heap i).isClient = false → ∀ key j, j ≠ i →
    findTCPServerSocket s key = some j → findTCPServerSocket (destroySocket s i).1 key = some j

/-- A server socket that is in the map or has an operation outstanding. -/
def Known (s : Skeleton) (j : SockId) : Prop :=
  (s.heap j).isClient = false ∧
    ((∃ key, findTCPServerSocket s key = some j) ∨ ∃ op ∈ s.pending, op.sock? = some j)

/-- A connection that is accepted now comes from an endpoint that no known socket has. -/
def EndpointFree (s : Skeleton) : Event → Prop
  | .complete (.accept _) r => ∀ rem, r.remoteEndpoint = some rem → r.localEndpoint ≠ none →
      ∀ j, Known s j → (s.heap j).remoteEndpoint ≠ rem
  | _ => True

/-- The event is not `ToWriteThenReadSync`. -/
def Event.Async : Event → Prop
  | .request (.toWriteThenReadSync _ _ _ _) => False
  | _ => True

/-! ## 2. Sockets that are held -/

/-- Somebody holds a pointer to the server socket. -/
def View.Held (v : View) : Prop :=
  v.ops ≠ [] ∨ v.running ≠ none ∨ ∃ k, v.served k = true

theorem View.held_of_served {v : View} {k : TCPEndpoint} (h : v.served k = true) : v.Held :=
  .inr (.inr ⟨k, h⟩)

theorem View.held_of_op {v : View} (op : Op) (h : op ∈ v.ops) : v.Held :=
  .inl (List.ne_nil_of_mem h)

theorem View.Quiet.not_held {v : View} (hq : v.Quiet) (hu : v.Unserved) : ¬ v.Held := by
  rintro (h | h | ⟨k, h⟩)
  · exact h hq.ops
  · exact h hq.running
  · simp [hu k] at h

/-- Of a held socket only the entries of the map can have been taken away. -/
theorem View.Held.of_subset {v w : View} (h : v.Held) (hops : v.ops = w.ops)
    (hrunning : v.running = w.running) (hserved : ∀ k, v.served k = true → w.served k = true) :
    w.Held := by
  rcases h with h | h | ⟨k, h⟩
  · exact .inl (hops ▸ h)
  · exact .inr (.inl (hrunning ▸ h))
  · exact .inr (.inr ⟨k, hserved k h⟩)

theorem served_of_evicted {v : View} {key k : TCPEndpoint} (h : (v.evicted key).served k = true) :
    v.served k = true := by
  rw [View.evicted_served, Function.update_apply] at h
  split at h
  · cases h
  · exact h

theorem served_of_destroyed {v : View} {k : TCPEndpoint} (h : v.destroyed.served k = true) :
    v.served k = true := by
  rw [View.destroyed_served] at h
  split at h
  · exact h
  · exact served_of_evicted h

section

variable {s : Skeleton} {e : Event} {j : SockId} {v : View}

/-- A handler waits for the user's code of the socket. -/
theorem held_of_running {r : Running} (hr : s.running = some r) (hj : r.sock = j) :
    (view s j).Held := by
  refine .inr (.inl ?_)
  rw [running_of_eq hr hj]
  exact Option.some_ne_none r

/-- **A server socket is held only if it was before, or has just been accepted.** -/
theorem Sees.held (hs : Sees s e j v) (hk : Kind (view s j)) (he : e.Async)
    (hc : v.conn.isClient = false) (hv : v.Held) :
    ((view s j).Held ∧ (view s j).conn.isClient = false ∧
      v.conn.remoteEndpoint = (view s j).conn.remoteEndpoint) ∨
    ∃ key a r, e = .complete (.accept key) r ∧ s.tcpAcceptorMap.find key = some a ∧
      a.skInfo = j ∧ r.remoteEndpoint = some v.conn.remoteEndpoint ∧ r.localEndpoint ≠ none := by
  have hidle : ∀ key, findIdleTCPClientSocket s key = some j →
      (view s j).conn.isClient = false → False := fun key hi hno => by
    have hclient := hk.client_of_idle hi
    simp [hclient.isClient] at hno
  cases hs with
  | same => exact .inl ⟨hv, hc, rfl⟩
  | evicted hij hci href =>
    exact .inl ⟨hv.of_subset rfl rfl fun k => served_of_evicted, hc, rfl⟩
  | syncEvicted hev =>
    subst hev
    exact he.elim
  | swept hev hserved =>
    obtain ⟨k, hserved⟩ := hserved
    exact .inl ⟨View.held_of_served hserved, hc, rfl⟩
  | connecting hev hq hj => cases hc
  | reusing hev hi hop => exact (hidle _ hi hc).elim
  | reusingFor hev hi hop => exact (hidle _ hi hc).elim
  | answering hev hi _ hop => exact .inl ⟨View.held_of_served (served_iff.mpr hi), hc, rfl⟩
  | @closing remote buf srv hev hi =>
    cases srv with
    | true => exact .inl ⟨View.held_of_served (served_iff.mpr hi), hc, rfl⟩
    | false => exact (hidle remote hi hc).elim
  | synced hev hj hok =>
    subst hev
    exact he.elim
  | syncedDestroyed hev hj hok =>
    subst hev
    exact he.elim
  | destroyed href =>
    exact .inl ⟨hv.of_subset rfl rfl fun k => served_of_destroyed, hc, rfl⟩
  | accepting hj htype =>
    have hfresh := hk.fresh_of_next hj
    have hheld : (view s j).Held := hv.of_subset rfl rfl fun k hkey => hkey
    exact absurd hheld (hfresh.quiet.not_held hfresh.unserved)
  | accepted hev ha hj hrem hfree hop hloc =>
    exact .inr ⟨_, _, _, hev, ha, hj, hrem, hloc⟩
  | acceptDropped hev ha hj =>
    have hwait := hk.waiting_of_accepting ha hj
    have hheld : (view s j).Held := hv.of_subset rfl rfl fun k hkey => hkey
    exact absurd hheld (hwait.quiet.not_held hwait.unserved)
  | returnedDestroyed hev hr hj hret => exact .inl ⟨held_of_running hr hj, hc, rfl⟩
  | returnedKept hev hr hj hret hno => exact .inl ⟨held_of_running hr hj, hc, rfl⟩
  | returnedIdle hev hr hj hret hyes => exact .inl ⟨held_of_running hr hj, hc, rfl⟩
  | returnedRead hev hr hj hret hno hop => exact .inl ⟨held_of_running hr hj, hc, rfl⟩
  | completedDestroyed hev hp hr => exact .inl ⟨View.held_of_op _ hp, hc, rfl⟩
  | completedNext hev hp hr hn => exact .inl ⟨View.held_of_op _ hp, hc, rfl⟩
  | completedCalled hev hp hr hcall => exact .inl ⟨View.held_of_op _ hp, hc, rfl⟩
  | connected hev hp hr herr hloc huse hop => exact .inl ⟨View.held_of_op _ hp, hc, rfl⟩

end

/-! ## 3. The invariant -/

/-- Held server sockets have different endpoints, and every live connection is mapped. -/
structure Apart (s : Skeleton) : Prop where
  kinds : Kinds s
  unpooled : ∀ j, (view s j).conn.isClient = false → (view s j).Unpooled
  apart : ∀ i j, i ≠ j → (view s i).conn.isClient = false → (view s j).conn.isClient = false →
    (view s i).Held → (view s j).Held →
      (view s i).conn.remoteEndpoint ≠ (view s j).conn.remoteEndpoint
  mapped : ∀ i, (view s i).conn.isClient = false → (view s i).conn.isConnected = true →
    (view s i).conn.closed = false → (view s i).served (view s i).conn.remoteEndpoint = true

theorem init_apart : Apart init where
  kinds := init_kinds
  unpooled := fun j _ => (init_fresh j).unpooled
  apart := fun i _ _ _ _ hi _ =>
    absurd hi ((init_fresh i).quiet.not_held (init_fresh i).unserved)
  mapped := fun i _ hconn _ => by cases hconn

section

variable {s t : Skeleton} {e : Event}

/-- What somebody holds a pointer to, if it is no client. -/
theorem Apart.held_of_referenced (h : Apart s) {i : SockId} (href : Referenced s i)
    (hc : (view s i).conn.isClient = false) : (view s i).Held := by
  rcases href with ⟨op, hp, hop⟩ | ⟨r, hr, hi⟩ | ⟨⟨key, j⟩, hmem, rfl⟩ | ⟨⟨key, l⟩, hmem, hi⟩
  · exact View.held_of_op op (by simp [view, hp, hop])
  · exact held_of_running hr hi
  · exact View.held_of_served (served_iff.mpr (s.tcpServerSocketMap.mem_entries.mp hmem))
  · have hfind : s.tcpClientSocketMap.find key = some l :=
      s.tcpClientSocketMap.mem_entries.mp hmem
    have hpooled : (view s i).pooled key ≠ 0 := by
      have hcount : 0 < l.count i := List.count_pos_iff.mpr hi
      simpa [view, StdMap.listAt, hfind] using hcount.ne'
    exact absurd (h.unpooled i hc key) hpooled

theorem Known.held (s : Skeleton) {j : SockId} (h : Known s j) : (view s j).Held := by
  rcases h.2 with ⟨key, hj⟩ | ⟨op, hp, hop⟩
  · exact View.held_of_served (served_iff.mpr hj)
  · exact View.held_of_op op (by simp [view, hp, hop])

/-- While no handler waits, the held server sockets are the known ones. -/
theorem known_of_held {j : SockId} (hrun : s.running = none)
    (hc : (view s j).conn.isClient = false) (h : (view s j).Held) : Known s j := by
  refine ⟨hc, ?_⟩
  rcases h with h | h | ⟨k, h⟩
  · obtain ⟨op, hop⟩ := List.exists_mem_of_ne_nil _ h
    simp only [view, List.mem_filter, beq_iff_eq] at hop
    exact .inr ⟨op, hop.1, hop.2⟩
  · simp [view, hrun] at h
  · exact .inl ⟨k, served_iff.mp h⟩

theorem running_of_complete {cfg : Config} {op : Op} {r : Completion}
    (h : step cfg s (.complete op r) = .ok t) : s.running = none := by
  simp only [step] at h
  split at h
  · rename_i hen
    simpa using hen.2.1
  · cases h

theorem Apart.unpooled_sees (h : Apart s) (he : e.Async) {j : SockId} {v : View}
    (hs : Sees s e j v) (hc : v.conn.isClient = false) : v.Unpooled := by
  have hk := h.kinds j
  cases hs with
  | syncEvicted hev =>
    subst hev
    exact he.elim
  | synced hev hj hok =>
    subst hev
    exact he.elim
  | syncedDestroyed hev hj hok =>
    subst hev
    exact he.elim
  | connecting hev hq hj => cases hc
  | destroyed href => exact (h.unpooled j hc).destroyed
  | accepting hj htype => exact (hk.fresh_of_next hj).unpooled
  | returnedDestroyed hev hr hj hret =>
    exact View.Unpooled.destroyed (v := (view s j).resumed) (h.unpooled j hc)
  | completedDestroyed hev hp hr =>
    exact View.Unpooled.destroyed (v := (view s j).popOp _) (h.unpooled j hc)
  | connected hev hp hr herr hloc huse hop =>
    have hclient := hk.client_of_connecting hp huse
    exact absurd hclient.isClient (by simpa using hc)
  | _ => exact h.unpooled j hc

theorem Apart.mapped_sees (h : Apart s) (he : e.Async) {j : SockId} {v : View}
    (hs : Sees s e j v) (hc : v.conn.isClient = false) (hconn : v.conn.isConnected = true)
    (hopen : v.conn.closed = false) : v.served v.conn.remoteEndpoint = true := by
  have hk := h.kinds j
  cases hs with
  | @evicted i hij hci href =>
    -- the socket destroyed is held, and so is this one
    have hown := h.mapped j hc hconn hopen
    have hne := h.apart j i hij hc hci (View.held_of_served hown) (h.held_of_referenced href hci)
    rw [View.evicted_served, View.evicted_conn, Function.update_of_ne hne]
    exact hown
  | syncEvicted hev =>
    subst hev
    exact he.elim
  | synced hev hj hok =>
    subst hev
    exact he.elim
  | syncedDestroyed hev hj hok => cases hopen
  | swept hev hserved => cases hopen
  | connecting hev hq hj => cases hc
  | destroyed href => cases hopen
  | accepting hj htype => cases hconn
  | accepted hev ha hj hrem hfree hop => simp [View.acceptedAs]
  | acceptDropped hev ha hj => cases hopen
  | returnedDestroyed hev hr hj hret => cases hopen
  | completedDestroyed hev hp hr => cases hopen
  | connected hev hp hr herr hloc huse hop =>
    have hclient := hk.client_of_connecting hp huse
    exact absurd hclient.isClient (by simpa using hc)
  | _ => exact h.mapped j hc hconn hopen

/-- **A step at whose accept the endpoint is free keeps the held sockets apart.** -/
theorem step_apart {cfg : Config} (he : e.Async) (h : Apart s) (hfree : EndpointFree s e)
    (hst : step cfg s e = .ok t) : Apart t := by
  have hsees := step_sees h.kinds.acceptorsCreated hst
  -- a socket accepted now, and one that was held before
  have hnew : ∀ {key r a i j}, e = .complete (.accept key) r →
      s.tcpAcceptorMap.find key = some a → a.skInfo = i →
      r.remoteEndpoint = some (view t i).conn.remoteEndpoint → r.localEndpoint ≠ none →
      (view s j).Held → (view s j).conn.isClient = false →
      (view s j).conn.remoteEndpoint ≠ (view t i).conn.remoteEndpoint := by
    rintro key r a i j rfl - - hrem hloc hj hcj
    exact hfree _ hrem hloc j (known_of_held (running_of_complete hst) hcj hj)
  refine ⟨step_kinds h.kinds hst, fun j => h.unpooled_sees he (hsees j), ?_,
    fun j => h.mapped_sees he (hsees j)⟩
  intro i j hij hci hcj hi hj
  rcases (hsees i).held (h.kinds i) he hci hi with
    ⟨hi', hci', hremi⟩ | ⟨key, a, r, hev, ha, hai, hrem, hloc⟩ <;>
  rcases (hsees j).held (h.kinds j) he hcj hj with
    ⟨hj', hcj', hremj⟩ | ⟨key', a', r', hev', ha', haj, hrem', hloc'⟩
  · rw [hremi, hremj]
    exact h.apart i j hij hci' hcj' hi' hj'
  · rw [hremi]
    exact hnew hev' ha' haj hrem' hloc' hi' hci'
  · rw [hremj]
    exact (hnew hev ha hai hrem hloc hj' hcj').symm
  · subst hev
    cases hev'
    cases ha.symm.trans ha'
    exact absurd (hai.symm.trans haj) hij

theorem destroySocket_find {j : SockId} (hc : (view s j).conn.isClient = false)
    (key : TCPEndpoint) :
    findTCPServerSocket (destroySocket s j).1 key =
      if key = (view s j).conn.remoteEndpoint then none else findTCPServerSocket s key := by
  rw [destroySocket_server s j hc]
  exact StdMap.find_erase _ _ _

theorem Apart.serverMapOk (h : Apart s) : ServerMapOk s where
  mapped := fun i hi => served_iff.mp (h.mapped i hi.1 hi.2.1 hi.2.2)
  destroys_own := fun i href hc key j hji hj => by
    have hserved := served_iff.mpr hj
    have hserver := (h.kinds j).server_of_served hserved
    have hne := h.apart i j hji.symm hc hserver.isClient (h.held_of_referenced href hc)
      (View.held_of_served hserved)
    rw [destroySocket_find hc, if_neg]
    · exact hj
    · rw [hserver.servedOwn key hserved]
      exact hne.symm

/-! ## 4. When the endpoint is taken -/

theorem asyncReadHTTPHead_find (cfg : Config) (s : Skeleton) (i : SockId) (key : TCPEndpoint) :
    findTCPServerSocket (asyncReadHTTPHead cfg s i) key = findTCPServerSocket s key := by
  simp only [asyncReadHTTPHead, httpHeadReadCompletionCondition, Bool.false_eq_true, if_false]
  split
  · rfl
  · split <;> rfl

/-- What `HandleAccept` does to the map of server sockets. -/
theorem handleAccept_serverMap {cfg : Config} {error : Bool} {key rem loc : TCPEndpoint}
    (h : handleAccept cfg s error key (some rem) (some loc) = .ok t) :
    ∃ a, s.tcpAcceptorMap.find key = some a ∧ s.tcpServerSocketMap.find rem = none ∧
      findTCPServerSocket t rem = some a.skInfo := by
  simp only [handleAccept] at h
  split at h
  · cases h
  split at h
  · cases h
  rename_i a ha
  cases hf : s.tcpServerSocketMap.find rem with
  | some i =>
    simp [insertTCPServerSocket, setSock, takeAccepted, alloc, hf] at h
  | none =>
    refine ⟨a, ha, rfl, ?_⟩
    simp only [insertTCPServerSocket, setSock, takeAccepted, alloc, hf] at h
    split at h
    · cases h
    split at h
    · cases h
      refine (asyncReadHTTPHead_find cfg _ a.skInfo rem).trans ?_
      exact StdMap.find_set_self _ _ _
    · cases h
      exact StdMap.find_set_self _ _ _
    · cases h

/-- Accepting does nothing to a socket that is held. -/
theorem Sees.bystander {key : TCPEndpoint} {r : Completion} {j : SockId} {v : View}
    (hs : Sees s (.complete (.accept key) r) j v) (hk : Kind (view s j))
    (hheld : (view s j).Held) :
    v.ops = (view s j).ops ∧ v.conn.isClient = (view s j).conn.isClient ∧
      v.conn.remoteEndpoint = (view s j).conn.remoteEndpoint := by
  have hop : ∀ op r', Event.complete (.accept key) r = .complete op r' →
      op ∉ (view s j).ops := by
    rintro op r' hev hp
    cases hev
    simp [view, Op.sock?] at hp
  cases hs with
  | same => exact ⟨rfl, rfl, rfl⟩
  | evicted hij hci href => exact ⟨rfl, rfl, rfl⟩
  | syncEvicted hev => exact ⟨rfl, rfl, rfl⟩
  | swept hev hserved => exact ⟨rfl, rfl, rfl⟩
  | destroyed href => exact ⟨rfl, rfl, rfl⟩
  | accepting hj htype =>
    have hfresh := hk.fresh_of_next hj
    exact absurd hheld (hfresh.quiet.not_held hfresh.unserved)
  | accepted hev ha hj hrem hfree hop hloc =>
    have hwait := hk.waiting_of_accepting ha hj
    exact absurd hheld (hwait.quiet.not_held hwait.unserved)
  | acceptDropped hev ha hj =>
    have hwait := hk.waiting_of_accepting ha hj
    exact absurd hheld (hwait.quiet.not_held hwait.unserved)
  | completedDestroyed hev hp hr => exact absurd hp (hop _ _ hev)
  | completedNext hev hp hr hn => exact absurd hp (hop _ _ hev)
  | completedCalled hev hp hr hcall => exact absurd hp (hop _ _ hev)
  | connected hev hp hr herr hloc huse hw => cases hev
  | connecting hev hq hj => cases hev
  | reusing hev hi hw => cases hev
  | reusingFor hev hi hw => cases hev
  | answering hev hi _ hw => cases hev
  | closing hev hi => cases hev
  | synced hev hj hok => cases hev
  | syncedDestroyed hev hj hok => cases hev
  | returnedDestroyed hev hr hj hret => cases hev
  | returnedKept hev hr hj hret hno => cases hev
  | returnedIdle hev hr hj hret hyes => cases hev
  | returnedRead hev hr hj hret hno hw => cases hev

/-- After a connection from an endpoint that a known socket has is accepted, destroying that socket
takes away the entry of the new one. -/
theorem accept_not_serverMapOk {cfg : Config} {key rem : TCPEndpoint} {r : Completion}
    {j : SockId} (h : Apart s) (hst : step cfg s (.complete (.accept key) r) = .ok t)
    (hrem : r.remoteEndpoint = some rem) (hloc : r.localEndpoint ≠ none) (hj : Known s j)
    (hsame : (s.heap j).remoteEndpoint = rem) : ¬ ServerMapOk t := by
  intro hok
  obtain ⟨loc, hloc⟩ := Option.ne_none_iff_exists'.mp hloc
  have hheld := hj.held
  have hk := h.kinds j
  obtain ⟨hops, hclient, hremote⟩ :=
    (step_sees h.kinds.acceptorsCreated hst j).bystander hk hheld
  have hrunning := running_of_complete hst
  simp only [step] at hst
  split at hst
  case isFalse => cases hst
  simp only [handle, hrem, hloc] at hst
  obtain ⟨a, ha, hnone, hnew⟩ := handleAccept_serverMap hst
  have hne : a.skInfo ≠ j := by
    rintro rfl
    have hwait := hk.waiting_of_accepting ha rfl
    exact hwait.quiet.not_held hwait.unserved hheld
  -- the entry of the endpoint was free, so it is an operation that holds the socket
  have hpending : ∃ op ∈ s.pending, op.sock? = some j := by
    rcases hj.2 with ⟨k, hserved⟩ | hop
    · have hserved := served_iff.mpr hserved
      have hown := (hk.server_of_served hserved).servedOwn k hserved
      have hfind := served_iff.mp hserved
      rw [hown] at hfind
      replace hfind : s.tcpServerSocketMap.find rem = some j := hsame ▸ hfind
      cases hnone.symm.trans hfind
    · exact hop
  obtain ⟨op, hp, hop⟩ := hpending
  have hmem : op ∈ (view t j).ops := by
    rw [hops]
    simp [view, hp, hop]
  have href : Referenced t j := .inl ⟨op, (List.mem_filter.mp hmem).1, hop⟩
  have hc : (view t j).conn.isClient = false := hclient.trans hj.1
  have hgone := hok.destroys_own j href hc rem a.skInfo hne hnew
  rw [destroySocket_find hc, if_pos (hsame.symm.trans hremote.symm)] at hgone
  cases hgone

theorem step_not_serverMapOk {cfg : Config} (h : Apart s) (hfree : ¬ EndpointFree s e)
    (hst : step cfg s e = .ok t) : ¬ ServerMapOk t := by
  unfold EndpointFree at hfree
  split at hfree
  · push Not at hfree
    obtain ⟨rem, hrem, hloc, j, hj, hsame⟩ := hfree
    exact accept_not_serverMapOk h hst hrem hloc hj hsame
  · exact absurd trivial hfree

/-! ## 5. The assertion of `HandleAccept` -/

/-- The assertion fails only when the endpoint of the accepted connection is in the map. -/
theorem step_assertInsertServer {cfg : Config} (h : Apart s)
    (hst : step cfg s e = .error .assertInsertServer) : ¬ EndpointFree s e := by
  intro hfree
  cases step_faults hst with
  | @insertServer key rem r i hrem hloc hi =>
    have hserved : (view s i).served rem = true := served_iff.mpr hi
    have hserver := (h.kinds i).server_of_served hserved
    have hknown : Known s i := ⟨hserver.isClient, .inl ⟨rem, hi⟩⟩
    exact hfree rem hrem hloc i hknown (hserver.servedOwn rem hserved).symm

end

/-! ## 6. Every run -/

/-- **The map of server sockets is kept exactly while every accepted endpoint is free.**  In a run
without `ToWriteThenReadSync`, which goes through or ends in the assertion of `HandleAccept`: the
assertion does not fail, and the map has every live connection and loses no entry of another socket
to `DestroySocket`, in every state, if and only if every connection is accepted from an endpoint
that no known socket has. -/
theorem server_map_kept_iff (cfg : Config) (es : List Event) (hes : ∀ e ∈ es, e.Async)
    (hrun : (∃ s, exec (step cfg) init es = .ok s) ∨
      exec (step cfg) init es = .error .assertInsertServer) :
    ((∀ t, Visits (step cfg) init es t → ServerMapOk t) ∧
      exec (step cfg) init es ≠ .error .assertInsertServer) ↔
      Along (step cfg) EndpointFree init es :=
  safe_iff_along (fun _ _ _ he ht hg hu => step_apart he ht hg hu) (fun _ => Apart.serverMapOk)
    (fun _ _ _ _ ht hg hu => step_not_serverMapOk ht hg hu)
    (fun _ _ _ ht hu => step_assertInsertServer ht hu) hes init_apart hrun

/-- Nothing is known of a server socket, so every endpoint is free. -/
theorem endpointFree_of_none {s : Skeleton} (e : Event) (hmap : s.tcpServerSocketMap.entries = [])
    (hops : ∀ op ∈ s.pending, op.sock? = none) : EndpointFree s e := by
  have hnone : ∀ j, ¬ Known s j := by
    rintro j ⟨-, ⟨key, hj⟩ | ⟨op, hp, hop⟩⟩
    · have hmem := s.tcpServerSocketMap.mem_entries.mpr hj
      simp [hmap] at hmem
    · simp [hops op hp] at hop
  unfold EndpointFree
  split
  · exact fun _ _ _ j hj => absurd hj (hnone j)
  · trivial

/-- A client connects, is swept away, its read ends with an error, and it connects again. -/
def sweptAndBack : List Event :=
  [.request (.addTCPAcceptor ⟨1, 80⟩ .lv), .run,
    .complete (.accept ⟨1, 80⟩) { remoteEndpoint := some ⟨2, 5000⟩, localEndpoint := some ⟨1, 80⟩ },
    .setClock 20000, .complete .timeout {}, .complete (.readLThenReadV 0) { error := true },
    .complete (.accept ⟨1, 80⟩) { remoteEndpoint := some ⟨2, 5000⟩, localEndpoint := some ⟨1, 80⟩ }]

theorem sweptAndBack_server_map_kept : ∃ s, exec (step Config.lv) init sweptAndBack = .ok s ∧
    findTCPServerSocket s ⟨2, 5000⟩ = some 1 ∧ ServerMapOk s := by
  have hfree : Along (step Config.lv) EndpointFree init sweptAndBack := by
    refine ⟨trivial, fun _ h₁ => ?_⟩
    cases h₁
    refine ⟨trivial, fun _ h₂ => ?_⟩
    cases h₂
    refine ⟨endpointFree_of_none _ rfl (by decide), fun _ h₃ => ?_⟩
    cases h₃
    refine ⟨trivial, fun _ h₄ => ?_⟩
    cases h₄
    refine ⟨trivial, fun _ h₅ => ?_⟩
    cases h₅
    refine ⟨trivial, fun _ h₆ => ?_⟩
    cases h₆
    exact ⟨endpointFree_of_none _ rfl (by decide), fun _ _ => trivial⟩
  have h := (server_map_kept_iff Config.lv sweptAndBack (by simp [sweptAndBack, Event.Async])
    (.inl ⟨_, rfl⟩)).mpr hfree
  exact ⟨_, rfl, rfl, h.1 _ ⟨_, List.prefix_rfl, rfl⟩⟩

/-- One client endpoint connects to two listening ports: the assertion of `HandleAccept` fails.  And
a client is swept away and connects again before its read has ended: the error of that read takes
away the entry of the new connection. -/
theorem same_client_twice_breaks_map :
    exec (step Config.lv) init
        [.request (.addTCPAcceptor ⟨1, 80⟩ .lv), .request (.addTCPAcceptor ⟨1, 81⟩ .lv), .run,
          .complete (.accept ⟨1, 80⟩)
            { remoteEndpoint := some ⟨2, 5000⟩, localEndpoint := some ⟨1, 80⟩ },
          .complete (.accept ⟨1, 81⟩)
            { remoteEndpoint := some ⟨2, 5000⟩, localEndpoint := some ⟨1, 81⟩ }] =
        .error .assertInsertServer ∧
      ∃ s t, exec (step Config.lv) init
        [.request (.addTCPAcceptor ⟨1, 80⟩ .lv), .run,
          .complete (.accept ⟨1, 80⟩)
            { remoteEndpoint := some ⟨2, 5000⟩, localEndpoint := some ⟨1, 80⟩ },
          .setClock 20000, .complete .timeout {},
          .complete (.accept ⟨1, 80⟩)
            { remoteEndpoint := some ⟨2, 5000⟩, localEndpoint := some ⟨1, 80⟩ }] = .ok s ∧
        step Config.lv s (.complete (.readLThenReadV 0) { error := true }) = .ok t ∧
        findTCPServerSocket s ⟨2, 5000⟩ = some 1 ∧ findTCPServerSocket t ⟨2, 5000⟩ = none ∧
          Live t 1 ∧ ¬ ServerMapOk t := by
  refine ⟨rfl, _, _, rfl, rfl, rfl, rfl, ⟨rfl, rfl, rfl⟩, fun h => ?_⟩
  have hmapped := h.mapped 1 ⟨rfl, rfl, rfl⟩
  cases hmapped

end Kknf.Asio2
