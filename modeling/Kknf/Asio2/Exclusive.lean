/-
# Exclusive use of the connections to the servers behind

A connection to a server behind is used by one request at a time: `in_use` is set when a request is
written and cleared when the callback has seen the answer, and `FindIdleTCPClientSocket` hands out
only connections that are up and not in use.  The flag is set and cleared in different handlers, a
socket is in the pool before it is connected, and callbacks make new requests from inside a handler;
`backend_connections_exclusive` says that no order of these leads to a second operation on a
connection, or to one of the assertions about `in_use`.

The runs are those of `T_TCP_LV` sockets.  (An HTTP handler may have a 100-continue answer
outstanding beside its read.)
-/
import Kknf.Asio2.Faults
import Kknf.Asio2.Kinds
import Kknf.Asio2.Listening

namespace Kknf.Asio2

open Kknf.Run

/-! ## 1. Runs of LV sockets -/

/-- A request for an LV socket, made asynchronously and not for a last write. -/
def Request.LV : Request → Prop
  | .toWriteThenRead _ type _ _ => type = .lv
  | .toWriteThenCallBack _ type _ _ _ => type = .lv
  | .toConnectThenWrite _ type _ _ => type = .lv
  | .addTCPAcceptor _ type => type = .lv
  | .toWriteThenClose _ _ _ => False
  | .toWriteThenReadSync _ _ _ _ => False

/-- The events of a run of LV sockets.  The user's code may return anything. -/
def Event.LV : Event → Prop
  | .request q => q.LV
  | _ => True

/-- The operations of LV sockets. -/
def Op.LV : Op → Prop
  | .connectThenWrite _ _ | .writeThenReadL _ | .readLThenReadV _ | .readVThenProcess _ _ => True
  | _ => False

/-- The operation brings up a connection. -/
def Op.Connects : Op → Prop
  | .connectThenWrite _ _ => True
  | _ => False

/-- What follows an LV operation is one LV operation at most, and it is not a connect. -/
theorem Next.lv {op : Op} {ops : List Op} (h : Next op ops) (hop : op.LV) :
    ¬ op.Connects ∧ ops.length ≤ 1 ∧ ∀ o ∈ ops, o.LV ∧ ¬ o.Connects := by
  cases h <;> first | exact hop.elim | simp [Op.LV, Op.Connects]

theorem Calls.lv_of {op : Op} {r : Running} (h : Calls op r) (hop : op.LV) :
    ¬ op.Connects ∧ r.http = false ∧ r.continueFieldFound = false := by
  cases h <;> first | exact hop.elim | simp [Op.Connects]

theorem writeOp_lv {i : SockId} {op : Op} (h : writeOp .lv i = some op) :
    op.LV ∧ ¬ op.Connects := by
  cases h
  simp [Op.LV, Op.Connects]

theorem ReadOp.lv_of {i : SockId} {op : Op} (h : ReadOp i .lv op) : op.LV ∧ ¬ op.Connects := by
  cases h
  simp [Op.LV, Op.Connects]

theorem Running.after_nil {r : Running} (h : r.continueFieldFound = false) : r.after = [] := by
  simp [Running.after, h]

/-! ## 2. The invariant of a socket -/

/-- In a run of LV sockets: while a connect is outstanding the socket is neither connected nor in
use, while anything else goes on on it it is both, and on a client one thing goes on at a time. -/
structure View.LVSocket (v : View) : Prop where
  type_lv : v.created → v.conn.type = .lv
  ops_lv : ∀ op ∈ v.ops, op.LV
  connecting : ∀ op ∈ v.ops, op.Connects →
    v.conn.isClient = true ∧ v.conn.isConnected = false ∧ v.conn.inUse = false
  busy : ∀ op ∈ v.ops, ¬ op.Connects → v.conn.isConnected = true ∧ v.conn.inUse = true
  running : ∀ r, v.running = some r → v.conn.isConnected = true ∧ v.conn.inUse = true ∧
    r.http = false ∧ r.continueFieldFound = false
  one : v.conn.isClient = true → v.ops.length + v.running.toList.length ≤ 1

namespace View.LVSocket

variable {v : View}

/-- Nothing goes on on a socket that is connected and not in use. -/
theorem quiet_of_idle (h : v.LVSocket) (hc : v.conn.isConnected = true)
    (hu : v.conn.inUse = false) : v.Quiet := by
  constructor
  · refine List.eq_nil_iff_forall_not_mem.mpr fun op hop => ?_
    by_cases hcon : op.Connects
    · obtain ⟨-, hnc, -⟩ := h.connecting op hop hcon
      simp [hc] at hnc
    · obtain ⟨-, hiu⟩ := h.busy op hop hcon
      simp [hu] at hiu
  · cases hr : v.running with
    | none => rfl
    | some r =>
      obtain ⟨-, hiu, -⟩ := h.running r hr
      simp [hu] at hiu

/-- A socket on which nothing goes on. -/
theorem of_quiet (htype : v.created → v.conn.type = .lv) (hq : v.Quiet) : v.LVSocket where
  type_lv := htype
  ops_lv := by simp [hq.ops]
  connecting := by simp [hq.ops]
  busy := by simp [hq.ops]
  running := by simp [hq.running]
  one := by simp [hq.ops, hq.running]

/-- An operation ends. -/
theorem popOp (h : v.LVSocket) (op : Op) : (v.popOp op).LVSocket where
  type_lv := h.type_lv
  ops_lv := fun o ho => h.ops_lv o (List.mem_of_mem_erase ho)
  connecting := fun o ho => h.connecting o (List.mem_of_mem_erase ho)
  busy := fun o ho => h.busy o (List.mem_of_mem_erase ho)
  running := h.running
  one := fun hc => by
    have hle : (v.ops.erase op).length ≤ v.ops.length := List.length_erase_le
    have := h.one hc
    simp only [View.popOp_ops, View.popOp_running]
    omega

/-- The user's code returns. -/
theorem resumed (h : v.LVSocket) : v.resumed.LVSocket where
  type_lv := h.type_lv
  ops_lv := h.ops_lv
  connecting := h.connecting
  busy := h.busy
  running := fun r hr => by cases hr
  one := fun hc => by
    have := h.one hc
    simp only [View.resumed_ops, View.resumed_running, Option.toList_none, List.length_nil]
    omega

/-- Operations that are no connects are started on a socket that is connected and in use; on a
client, where nothing goes on. -/
theorem addOps (h : v.LVSocket) (ops : List Op) (hops : ∀ o ∈ ops, o.LV ∧ ¬ o.Connects)
    (hup : ops ≠ [] → v.conn.isConnected = true ∧ v.conn.inUse = true)
    (hone : v.conn.isClient = true →
      v.ops.length + v.running.toList.length + ops.length ≤ 1) : (v.addOps ops).LVSocket where
  type_lv := h.type_lv
  ops_lv := fun o ho => by
    rcases List.mem_append.mp ho with ho | ho
    · exact h.ops_lv o ho
    · exact (hops o ho).1
  connecting := fun o ho hc => by
    rcases List.mem_append.mp ho with ho | ho
    · exact h.connecting o ho hc
    · exact absurd hc (hops o ho).2
  busy := fun o ho hc => by
    rcases List.mem_append.mp ho with ho | ho
    · exact h.busy o ho hc
    · exact hup (List.ne_nil_of_mem ho)
  running := h.running
  one := fun hc => by
    have := hone hc
    simp only [View.addOps_ops, View.addOps_running, List.length_append]
    omega

/-- Changes that leave the flags alone. -/
theorem same (h : v.LVSocket) {w : View} (hcreated : w.created → v.created)
    (htype : w.conn.type = v.conn.type)
    (hclient : w.conn.isClient = v.conn.isClient)
    (hconn : w.conn.isConnected = v.conn.isConnected) (huse : w.conn.inUse = v.conn.inUse)
    (hops : w.ops = v.ops) (hrun : w.running = v.running) : w.LVSocket where
  type_lv := fun hc => htype.trans (h.type_lv (hcreated hc))
  ops_lv := hops ▸ h.ops_lv
  connecting := by
    rw [hops, hclient, hconn, huse]
    exact h.connecting
  busy := by
    rw [hops, hconn, huse]
    exact h.busy
  running := by
    rw [hrun, hconn, huse]
    exact h.running
  one := by
    rw [hops, hrun, hclient]
    exact h.one

theorem destroyed (h : v.LVSocket) : v.destroyed.LVSocket :=
  h.same (fun hc => hc) rfl rfl rfl rfl rfl rfl

/-- An operation of a client is all that goes on there. -/
theorem only (h : v.LVSocket) (hc : v.conn.isClient = true) {op : Op} (hp : op ∈ v.ops) :
    v.ops.erase op = [] ∧ v.running = none := by
  have hone := h.one hc
  have hdec := List.length_erase_of_mem hp
  have hpos := List.length_pos_of_mem hp
  constructor
  · exact List.length_eq_zero_iff.mp (by omega)
  · have hrun : v.running.toList.length = 0 := by omega
    simpa using hrun

end View.LVSocket

/-! ## 3. A step keeps it -/

/-- Every acceptor is one for LV connections. -/
def AcceptorsLV (s : Skeleton) : Prop := ∀ key a, s.tcpAcceptorMap.find key = some a → a.type = .lv

theorem step_acceptorsLV {cfg : Config} {s t : Skeleton} {e : Event} (h : AcceptorsLV s)
    (he : e.LV) (hst : step cfg s e = .ok t) : AcceptorsLV t := by
  have hset : ∀ (key : TCPEndpoint) (b : TCPAcceptorInfo),
      t.tcpAcceptorMap = s.tcpAcceptorMap.set key b → b.type = .lv → AcceptorsLV t := by
    intro key b hm hb k a ha
    rw [hm, StdMap.find_set] at ha
    split at ha
    · cases ha
      exact hb
    · exact h k a ha
  have hh := step_hears hst
  generalize ht : ears t = w at hh
  have hm : t.tcpAcceptorMap = w.acceptors := congrArg Ears.acceptors ht
  cases hh with
  | added hnone => exact hset _ _ hm he
  | @accepted key a _ hp ha hrem hloc => exact hset _ _ hm (h key a ha)
  | @dropped key a _ hp ha hend => exact hset _ _ hm (h key a ha)
  | _ =>
    intro key a ha
    rw [hm] at ha
    exact h key a ha

section

variable {s : Skeleton} {e : Event} {j : SockId} {v : View}

/-- The write of a request on a client that is connected and not in use. -/
theorem View.LVSocket.reuse {w : View} {op : Op} (h : v.LVSocket) (hc : v.conn.isConnected = true)
    (hu : v.conn.inUse = false) (hop : op.LV ∧ ¬ op.Connects) (hcreated : w.created → v.created)
    (htype : w.conn.type = v.conn.type) (hcw : w.conn.isConnected = true)
    (huw : w.conn.inUse = true) (hops : w.ops = v.ops ++ [op]) (hrun : w.running = v.running) :
    w.LVSocket := by
  have hq := h.quiet_of_idle hc hu
  rw [hq.ops, List.nil_append] at hops
  rw [hq.running] at hrun
  refine ⟨fun hw => htype.trans (h.type_lv (hcreated hw)), ?_, ?_, ?_, by simp [hrun],
    by simp [hops, hrun]⟩
  · simpa [hops] using hop.1
  · simp [hops, hop.2]
  · simp [hcw, huw]

theorem View.LVSocket.sees (h : (view s j).LVSocket) (hk : Kind (view s j))
    (hacc : AcceptorsLV s) (he : e.LV) (hs : Sees s e j v) : v.LVSocket := by
  cases hs with
  | same => exact h
  | evicted hij hc href => exact h.same (fun hc => hc) rfl rfl rfl rfl rfl rfl
  | syncEvicted hev =>
    subst hev
    exact he.elim
  | swept hev hk => exact h.same (fun hc => hc) rfl rfl rfl rfl rfl rfl
  | @connecting q remote type cb buf hev hq hj =>
    have hfresh := hk.fresh_of_next hj
    have htype : type = .lv := by
      subst hev
      cases hq <;> exact he
    have hops : (view s j).ops ++ [.connectThenWrite j buf] = [.connectThenWrite j buf] := by
      rw [hfresh.quiet.ops, List.nil_append]
    refine ⟨fun _ => htype, ?_, ?_, ?_, ?_, ?_⟩
    · simp [hops, Op.LV]
    · simp
    · simp [hops, Op.Connects]
    · simp [hfresh.quiet.running]
    · simp [hops, hfresh.quiet.running]
  | reusing hev hi hop =>
    have hclient := hk.client_of_idle hi
    obtain ⟨-, hu, hc⟩ := findIdleTCPClientSocket_some hi
    rw [h.type_lv hclient.created] at hop
    exact h.reuse hc hu (writeOp_lv hop) (fun hc => hc) rfl hc (by simp [hclient.isClient]) rfl rfl
  | reusingFor hev hi hop =>
    have hclient := hk.client_of_idle hi
    obtain ⟨-, hu, hc⟩ := findIdleTCPClientSocket_some hi
    rw [h.type_lv hclient.created] at hop
    exact h.reuse hc hu (writeOp_lv hop) (fun hc => hc) rfl hc (by simp [hclient.isClient]) rfl rfl
  | @answering remote type buf op hev hi hidle hop =>
    have hserver := hk.server_of_served (served_iff.mpr hi)
    rw [h.type_lv hserver.created] at hop
    have hset : (((view s j).addIssue none).withConn { (view s j).conn with
        inUse := (view s j).conn.isClient || (view s j).conn.inUse }).LVSocket :=
      h.same (fun hc => hc) rfl rfl rfl (by simp [hserver.isClient]) rfl rfl
    refine hset.addOps [op] ?_ (fun _ => ⟨hserver.isConnected, ?_⟩) fun hc => ?_
    · simpa using writeOp_lv hop
    · simp [hserver.inUse]
    · simp [hserver.isClient] at hc
  | closing hev hi =>
    subst hev
    exact he.elim
  | synced hev hj hok =>
    subst hev
    exact he.elim
  | syncedDestroyed hev hj hok =>
    subst hev
    exact he.elim
  | destroyed href => exact h.destroyed
  | @accepting key type hj htype =>
    have hfresh := hk.fresh_of_next hj
    have htype : type = .lv := by
      rcases htype with rfl | ⟨a, ha, rfl⟩
      · exact he
      · exact hacc _ a ha
    exact .of_quiet (fun _ => htype) ⟨hfresh.quiet.ops, hfresh.quiet.running⟩
  | @accepted key rem a r op hev ha hj hrem hfree hop =>
    have hwait := hk.waiting_of_accepting ha hj
    have htype := hacc key a ha
    rw [htype] at hop
    have hq : ((view s j).acceptedAs key rem a.type op).ops = [op] := by
      simp [View.acceptedAs, hwait.quiet.ops]
    refine ⟨fun _ => htype, ?_, ?_, fun _ _ _ => ⟨rfl, rfl⟩, ?_, fun hc => ?_⟩
    · simpa [hq] using hop.lv_of.1
    · simp [hq, hop.lv_of.2]
    · simp [View.acceptedAs, hwait.quiet.running]
    · exact absurd hwait.isClient (by simpa [View.acceptedAs] using hc)
  | @acceptDropped key a r hev ha hj =>
    have hwait := hk.waiting_of_accepting ha hj
    exact .of_quiet (fun _ => hacc key a ha) ⟨hwait.quiet.ops, hwait.quiet.running⟩
  | @returnedDestroyed r ret buf hev hr hj hret =>
    obtain ⟨-, -, -, hcont⟩ := h.running r (running_of_eq hr hj)
    rw [Running.after_nil hcont, View.addOps_nil]
    exact h.resumed.destroyed
  | @returnedKept r ret buf hev hr hj hret hc =>
    obtain ⟨-, -, -, hcont⟩ := h.running r (running_of_eq hr hj)
    rw [Running.after_nil hcont, View.addOps_nil]
    exact h.resumed
  | @returnedIdle r ret buf hev hr hj hret hc =>
    have hrun := running_of_eq hr hj
    obtain ⟨-, -, -, hcont⟩ := h.running r hrun
    have hone := h.one hc
    rw [hrun, Option.toList_some, List.length_singleton] at hone
    have hnil : (view s j).ops = [] := List.length_eq_zero_iff.mp (by omega)
    rw [Running.after_nil hcont, View.addOps_nil]
    exact .of_quiet h.type_lv ⟨hnil, rfl⟩
  | @returnedRead r ret buf op hev hr hj hret hc hop =>
    obtain ⟨hconn, huse, hhttp, hcont⟩ := h.running r (running_of_eq hr hj)
    have htype : r.type = .lv := by simp [Running.type, hhttp]
    rw [htype] at hop
    rw [Running.after_nil hcont, View.addOps_nil]
    refine h.resumed.addOps [op] ?_ (fun _ => ⟨hconn, huse⟩) fun hclient => ?_
    · simpa using hop.lv_of
    · exact absurd hc (by simpa using hclient)
  | completedDestroyed hev hp hr => exact (h.popOp _).destroyed
  | @completedNext op r ops hev hp hr hn =>
    obtain ⟨hncon, hlen, hops⟩ := hn.lv (h.ops_lv op hp)
    have hup := h.busy op hp hncon
    refine (h.popOp op).addOps ops hops (fun _ => hup) fun hc => ?_
    obtain ⟨hnil, hrun⟩ := h.only hc hp
    simp only [View.popOp_ops, View.popOp_running, hnil, hrun, List.length_nil, Option.toList_none]
    omega
  | @completedCalled op r run hev hp hr hc =>
    obtain ⟨hncon, hhttp, hcont⟩ := hc.lv_of (h.ops_lv op hp)
    have hup := h.busy op hp hncon
    have hpop := h.popOp op
    refine ⟨h.type_lv, hpop.ops_lv, hpop.connecting, hpop.busy, ?_, fun hclient => ?_⟩
    · rintro r' hr'
      cases hr'
      exact ⟨hup.1, hup.2, hhttp, hcont⟩
    · obtain ⟨hnil, -⟩ := h.only hclient hp
      simp [hnil]
  | @connected r buf ep op hev hp hr herr hloc huse hop =>
    obtain ⟨hclient, -, -⟩ := h.connecting _ hp trivial
    obtain ⟨hnil, hrun⟩ := h.only hclient hp
    have htype : (view s j).created → (view s j).conn.type = .lv := h.type_lv
    have hquiet : (((view s j).popOp (.connectThenWrite j buf)).withConn { (view s j).conn with
        isConnected := true, inUse := true }).LVSocket := .of_quiet htype ⟨hnil, hrun⟩
    have hpooled : ((((view s j).popOp (.connectThenWrite j buf)).withConn { (view s j).conn with
        isConnected := true, inUse := true }).addPooled (view s j).conn.remoteEndpoint).LVSocket :=
      hquiet.same (fun hc => hc) rfl rfl rfl rfl rfl rfl
    have hcreated : (view s j).created := by
      cases hk with
      | fresh hf => exact absurd hp (by simp [hf.quiet.ops])
      | waiting hw => exact hw.created
      | client hc => exact hc.created
      | server hv => exact hv.created
      | synced hy => exact hy.created
    rw [htype hcreated] at hop
    refine hpooled.addOps [op] ?_ (fun _ => ⟨rfl, rfl⟩) fun _ => ?_
    · simpa using writeOp_lv hop
    · simp [hnil, hrun]

end

/-! ## 4. The assertions about `in_use` -/

/-- One of the assertions `!in_use()` in `ToWriteThenRead` and `HandleConnectThenWrite`, or
`in_use()` in `HandleReadVThenProcess`, fails. -/
def Fault.AboutInUse : Fault → Prop
  | .assertNotInUseInWrite | .assertNotInUseInConnect | .assertInUse => True
  | _ => False

/-- All the sockets of the state are as in a run of LV sockets. -/
structure LVRun (s : Skeleton) : Prop where
  kinds : Kinds s
  acceptors : AcceptorsLV s
  sockets : ∀ j, (view s j).LVSocket

theorem init_lvRun : LVRun init where
  kinds := init_kinds
  acceptors := fun key a ha => by cases ha
  sockets := fun j => .of_quiet (fun hc => absurd hc (init_fresh j).created) (init_fresh j).quiet

theorem step_lvRun {cfg : Config} {s t : Skeleton} {e : Event} (h : LVRun s) (he : e.LV)
    (hst : step cfg s e = .ok t) : LVRun t where
  kinds := step_kinds h.kinds hst
  acceptors := step_acceptorsLV h.acceptors he hst
  sockets := fun j =>
    (h.sockets j).sees (h.kinds j) h.acceptors he (step_sees h.kinds.acceptorsCreated hst j)

/-- **No assertion about `in_use` fails.** -/
theorem LVRun.step_fault {cfg : Config} {s : Skeleton} {e : Event} {f : Fault} (h : LVRun s)
    (hst : step cfg s e = .error f) : ¬ f.AboutInUse := by
  intro hf
  cases step_faults hst with
  | writeInUse hi hc hu =>
    have hserver := (h.kinds _).server_of_served (served_iff.mpr hi)
    exact absurd (hserver.isClient.symm.trans hc) (by simp)
  | @connectInUse i buf r hp hu =>
    have hmem : .connectThenWrite i buf ∈ (view s i).ops := by simp [view, hp, Op.sock?]
    obtain ⟨-, -, hnu⟩ := (h.sockets i).connecting _ hmem trivial
    exact absurd (hnu.symm.trans hu) (by simp)
  | returnedInUse hr hu =>
    obtain ⟨-, hiu, -⟩ := (h.sockets _).running _ (running_of_eq hr rfl)
    exact absurd (hiu.symm.trans hu) (by simp)
  | _ => exact hf.elim

/-! ## 5. Every run of LV sockets -/

theorem exec_lvRun {cfg : Config} {es : List Event} {s : Skeleton} (hlv : ∀ e ∈ es, e.LV)
    (h : exec (step cfg) init es = .ok s) : LVRun s :=
  Along.invariant (G := fun _ e => e.LV) (fun _ _ _ ht he hu => step_lvRun ht he hu) init_lvRun
    (along_of_forall fun e he _ => hlv e he) h

/-- The operations outstanding on a socket. -/
def opsOn (s : Skeleton) (i : SockId) : List Op :=
  s.pending.filter fun op => op.sock? == some i

/-- **A connection to a server behind is used by one request at a time.**  In every state of every
run of LV sockets, a client has at most one operation outstanding, a socket that is connected and
not in use has none, an idle socket that is found has none, and whatever happens next no assertion
about `in_use` fails. -/
theorem backend_connections_exclusive (cfg : Config) (es : List Event) (s : Skeleton)
    (hlv : ∀ e ∈ es, e.LV) (hrun : exec (step cfg) init es = .ok s) :
    (∀ i, (s.heap i).isClient = true → (opsOn s i).length ≤ 1) ∧
      (∀ i, (s.heap i).isConnected = true → (s.heap i).inUse = false → opsOn s i = []) ∧
      (∀ remote i, findIdleTCPClientSocket s remote = some i → opsOn s i = []) ∧
      ∀ e f, e.LV → step cfg s e = .error f → f ≠ .assertNotInUseInWrite ∧
        f ≠ .assertNotInUseInConnect ∧ f ≠ .assertInUse := by
  have h := exec_lvRun hlv hrun
  have hquiet : ∀ i, (s.heap i).isConnected = true → (s.heap i).inUse = false →
      opsOn s i = [] := fun i hc hu => ((h.sockets i).quiet_of_idle hc hu).ops
  refine ⟨fun i hc => ?_, hquiet, fun remote i hi => ?_, fun e f _ hst => ?_⟩
  · have hone := (h.sockets i).one hc
    exact le_trans (Nat.le_add_right _ _) hone
  · obtain ⟨-, hu, hc⟩ := findIdleTCPClientSocket_some hi
    exact hquiet i hc hu
  · have hno := h.step_fault hst
    refine ⟨?_, ?_, ?_⟩ <;> rintro rfl <;> exact hno trivial

/-- A request to a server behind is sent, answered with an empty frame, and its connection is used
for a second request. -/
def requestTwice : List Event :=
  [.request (.toWriteThenRead ⟨9, 90⟩ .lv [1] false), .run,
    .complete (.connectThenWrite 0 [1]) { localEndpoint := some ⟨1, 4000⟩ },
    .complete (.writeThenReadL 0) {}, .complete (.readLThenReadV 0) { data := [0, 0, 0, 4] },
    .complete (.readVThenProcess 0 4) {}, .returned 1 [],
    .request (.toWriteThenRead ⟨9, 90⟩ .lv [2] false)]

theorem requestTwice_exclusive : ∃ s, exec (step Config.lv) init requestTwice = .ok s ∧
    opsOn s 0 = [.writeThenReadL 0] ∧ (s.heap 0).isClient = true ∧ (opsOn s 0).length ≤ 1 :=
  ⟨_, rfl, rfl, rfl, (backend_connections_exclusive Config.lv requestTwice _
    (by simp [requestTwice, Event.LV, Request.LV]) rfl).1 0 rfl⟩

end Kknf.Asio2
