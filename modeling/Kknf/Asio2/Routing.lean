/-
# Where the responses go

`ToWriteThenCallBack` stores the caller's callback on the connection, and the handler that has read
the response calls what is stored there, or `ProcessData` when nothing is.  A connection goes
through five phases: connecting, waiting for a response, processing it, at rest, and failed; only in
the second is a request unanswered, and its callback is the one that is stored.

Plain `ToWriteThenRead` does not touch the stored callback.  On a connection that it takes out of
the idle pool an earlier `ToWriteThenCallBack` may have left one, and then the response goes there.
`responses_routed_iff` says that this is the only way a response is misled.
-/
import Kknf.Asio2.Kinds
import Kknf.Asio2.Listening

namespace Kknf.Asio2

open Kknf.Run

/-! ## 1. What routing should be -/

/-- The callbacks the responses read on a connection were passed to, `none` for `ProcessData`. -/
def responsesOn (s : Skeleton) (i : SockId) : List (Option CallBack) :=
  (s.calls.filter fun c => c.sock == i).map Call.cb

/-- The callbacks asked for by the requests made on a connection, `none` for `ProcessData`. -/
def requestsOn (s : Skeleton) (i : SockId) : List (Option CallBack) :=
  (s.issued.filter fun c => c.sock == i).map Issue.cb

/-- The operation is one of those that lead from a request to its response. -/
def Op.chain : Op → Bool
  | .writeThenClose _ | .anythingThenNothing _ => false
  | _ => true

/-- On each connection to a server behind, the responses read were passed on in the order of the
requests, each once and to what its request asked for; the response that is being processed is the
one to the last request; and a response still to come will go where its request asked. -/
structure Routed (s : Skeleton) : Prop where
  delivered : ∀ i, (s.heap i).isClient = true → responsesOn s i <+: requestsOn s i
  answered : ∀ i, (s.heap i).isClient = true → ∀ r, s.running = some r → r.sock = i →
    responsesOn s i = requestsOn s i
  awaited : ∀ i, (s.heap i).isClient = true → ∀ op ∈ s.pending, op.sock? = some i →
    op.chain = true → requestsOn s i = responsesOn s i ++ [(s.heap i).cb]

/-- A plain request does not find an idle connection on which a callback is stored. -/
def NoStaleCallBack (s : Skeleton) : Event → Prop
  | .request (.toWriteThenRead remote _ _ false) =>
    ∀ i, findIdleTCPClientSocket s remote = some i → (s.heap i).cb = none
  | _ => True

/-! ## 2. The phases of a connection -/

/-- The operations outstanding on the socket that lead to a response. -/
def View.chain (v : View) : List Op := v.ops.filter Op.chain

/-- The phase of a client. -/
inductive Phase (v : View) : Prop
  | connecting (i : SockId) (buf : List Byte) (hchain : v.chain = [.connectThenWrite i buf])
      (hrun : v.running = none) (hcon : v.conn.isConnected = false)
      (hiss : v.issued = v.calls ++ [v.conn.cb])
  | waiting (op : Op) (hchain : v.chain = [op]) (hop : ∀ i buf, op ≠ .connectThenWrite i buf)
      (hrun : v.running = none) (huse : v.conn.inUse = true)
      (hiss : v.issued = v.calls ++ [v.conn.cb])
  | processing (r : Running) (hchain : v.chain = []) (hrun : v.running = some r)
      (huse : v.conn.inUse = true) (hiss : v.issued = v.calls)
  | rest (hchain : v.chain = []) (hrun : v.running = none) (hiss : v.issued = v.calls)
  | failed (cb : Option CallBack) (hchain : v.chain = []) (hrun : v.running = none)
      (hbusy : v.conn.inUse = true ∨ v.conn.isConnected = false)
      (hiss : v.issued = v.calls ++ [cb])

section

variable {v w : View}

/-- The phase depends on the operations of the chain, the flags and the calls only. -/
theorem Phase.congr (h : Phase v) (hchain : w.chain = v.chain) (hrun : w.running = v.running)
    (huse : w.conn.inUse = v.conn.inUse) (hcon : w.conn.isConnected = v.conn.isConnected)
    (hcb : w.conn.cb = v.conn.cb) (hcalls : w.calls = v.calls) (hiss : w.issued = v.issued) :
    Phase w := by
  cases h with
  | connecting i buf h₁ h₂ h₃ h₄ =>
    exact .connecting i buf (hchain.trans h₁) (hrun.trans h₂) (hcon.trans h₃)
      (by rw [hiss, hcalls, hcb, h₄])
  | waiting op h₁ h₂ h₃ h₄ h₅ =>
    exact .waiting op (hchain.trans h₁) h₂ (hrun.trans h₃) (huse.trans h₄)
      (by rw [hiss, hcalls, hcb, h₅])
  | processing r h₁ h₂ h₃ h₄ =>
    exact .processing r (hchain.trans h₁) (hrun.trans h₂) (huse.trans h₃) (by rw [hiss, hcalls, h₄])
  | rest h₁ h₂ h₃ => exact .rest (hchain.trans h₁) (hrun.trans h₂) (by rw [hiss, hcalls, h₃])
  | failed cb h₁ h₂ h₃ h₄ =>
    exact .failed cb (hchain.trans h₁) (hrun.trans h₂) (by rwa [huse, hcon])
      (by rw [hiss, hcalls, h₄])

/-- On a connection with a request under way, which has been made but not answered. -/
theorem Phase.of_chain (h : Phase v) {op : Op} (hp : op ∈ v.chain) :
    v.chain = [op] ∧ v.running = none ∧ v.issued = v.calls ++ [v.conn.cb] ∧
      ((∃ i buf, op = .connectThenWrite i buf) ∧ v.conn.isConnected = false ∨
        (∀ i buf, op ≠ .connectThenWrite i buf) ∧ v.conn.inUse = true) := by
  cases h with
  | connecting i buf hchain hrun hcon hiss =>
    rw [hchain, List.mem_singleton] at hp
    subst hp
    exact ⟨hchain, hrun, hiss, .inl ⟨⟨i, buf, rfl⟩, hcon⟩⟩
  | waiting op' hchain hop hrun huse hiss =>
    rw [hchain, List.mem_singleton] at hp
    subst hp
    exact ⟨hchain, hrun, hiss, .inr ⟨hop, huse⟩⟩
  | processing r hchain => simp [hchain] at hp
  | rest hchain => simp [hchain] at hp
  | failed cb hchain => simp [hchain] at hp

/-- A connection that can be found idle is at rest. -/
theorem Phase.of_idle (h : Phase v) (huse : v.conn.inUse = false)
    (hcon : v.conn.isConnected = true) :
    v.chain = [] ∧ v.running = none ∧ v.issued = v.calls := by
  cases h with
  | connecting i buf hchain hrun hnot => simp [hcon] at hnot
  | waiting op hchain hop hrun hinUse => simp [huse] at hinUse
  | processing r hchain hrun hinUse => simp [huse] at hinUse
  | rest hchain hrun hiss => exact ⟨hchain, hrun, hiss⟩
  | failed cb hchain hrun hbusy => simp [huse, hcon] at hbusy

/-- A connection whose response is being processed. -/
theorem Phase.of_running (h : Phase v) {r : Running} (hr : v.running = some r) :
    v.chain = [] ∧ v.issued = v.calls := by
  cases h with
  | processing r' hchain hrun huse hiss => exact ⟨hchain, hiss⟩
  | connecting i buf hchain hrun => cases hrun.symm.trans hr
  | waiting op hchain hop hrun => cases hrun.symm.trans hr
  | rest hchain hrun => cases hrun.symm.trans hr
  | failed cb hchain hrun => cases hrun.symm.trans hr

theorem mem_chain {op : Op} : op ∈ v.chain ↔ op ∈ v.ops ∧ op.chain = true := List.mem_filter

@[simp] theorem chain_addOps (ops : List Op) :
    (v.addOps ops).chain = v.chain ++ ops.filter Op.chain := by
  simp [View.chain, View.addOps]

@[simp] theorem chain_popOp (op : Op) : (v.popOp op).chain = v.chain.erase op := by
  simp [View.chain, View.popOp, List.erase_filter]

theorem chain_popOp_of_not {op : Op} (h : op.chain = false) : (v.popOp op).chain = v.chain := by
  rw [chain_popOp]
  exact List.erase_of_not_mem fun hp => by simp [(mem_chain.mp hp).2] at h

/-- The operation of the chain ends, and nothing follows it. -/
theorem Phase.popOp_failed (h : Phase v) {op : Op} (hp : op ∈ v.chain) : Phase (v.popOp op) := by
  obtain ⟨hchain, hrun, hiss, hbusy⟩ := h.of_chain hp
  refine .failed v.conn.cb ?_ hrun ?_ hiss
  · rw [chain_popOp, hchain, List.erase_cons_head]
  · exact hbusy.elim (fun hc => .inr hc.2) fun hu => .inl hu.2

/-- An operation that does not belong to the chain ends. -/
theorem Phase.popOp_other (h : Phase v) {op : Op} (hop : op.chain = false) : Phase (v.popOp op) :=
  h.congr (chain_popOp_of_not hop) rfl rfl rfl rfl rfl rfl

theorem Phase.popOp (h : Phase v) {op : Op} (hp : op ∈ v.ops) : Phase (v.popOp op) := by
  cases hop : op.chain with
  | true => exact h.popOp_failed (mem_chain.mpr ⟨hp, hop⟩)
  | false => exact h.popOp_other hop

/-- Operations that do not belong to the chain are started. -/
theorem Phase.addOps_other (h : Phase v) {ops : List Op} (hops : ops.filter Op.chain = []) :
    Phase (v.addOps ops) :=
  h.congr (by rw [chain_addOps, hops, List.append_nil]) rfl rfl rfl rfl rfl rfl

theorem filter_after (r : Running) : r.after.filter Op.chain = [] := by
  unfold Running.after
  split <;> rfl

/-- A handler of the chain starts at most one operation of the chain, and does not connect. -/
theorem Next.chain {op : Op} {ops : List Op} (h : Next op ops) :
    op.chain = false ∧ ops = [] ∨ op.chain = true ∧ (∀ i buf, op ≠ .connectThenWrite i buf) ∧
      (ops.filter Op.chain = [] ∨ ∃ op', ops.filter Op.chain = [op'] ∧
        ∀ i buf, op' ≠ .connectThenWrite i buf) := by
  cases h with
  | nothing i => exact .inl ⟨rfl, rfl⟩
  | writeFailed i => exact .inr ⟨rfl, by simp, .inl rfl⟩
  | headDropped i n l => exact .inr ⟨rfl, by simp, .inl rfl⟩
  | contentFailed i o c => exact .inr ⟨rfl, by simp, .inl rfl⟩
  | readL i => exact .inr ⟨rfl, by simp, .inr ⟨_, rfl, by simp⟩⟩
  | readV i len => exact .inr ⟨rfl, by simp, .inr ⟨_, rfl, by simp⟩⟩
  | readHead i l => exact .inr ⟨rfl, by simp, .inr ⟨_, rfl, by simp⟩⟩
  | readMore i n l n' l' => exact .inr ⟨rfl, by simp, .inr ⟨_, rfl, by simp⟩⟩
  | readContent i n l o c => exact .inr ⟨rfl, by simp, .inr ⟨_, rfl, by simp⟩⟩
  | readContentContinue i n l o c => exact .inr ⟨rfl, by simp, .inr ⟨_, rfl, by simp⟩⟩

theorem Calls.chain {op : Op} {run : Running} (h : Calls op run) :
    op.chain = true ∧ ∀ i buf, op ≠ .connectThenWrite i buf := by
  cases h with
  | lv i len => exact ⟨rfl, by simp⟩
  | head i n l cont => exact ⟨rfl, by simp⟩
  | content i o c => exact ⟨rfl, by simp⟩

theorem writeOp_chain {type : SocketType} {i : SockId} {op : Op} (h : writeOp type i = some op) :
    op.chain = true ∧ ∀ j buf, op ≠ .connectThenWrite j buf := by
  cases type <;> cases h
  · exact ⟨rfl, by simp⟩
  · exact ⟨rfl, by simp⟩

/-- A request is written on a connection at rest. -/
theorem Phase.write {op : Op} (hchain : v.chain = []) (hrun : v.running = none)
    (huse : v.conn.inUse = true) (hiss : v.issued = v.calls ++ [v.conn.cb])
    (hop : op.chain = true ∧ ∀ i buf, op ≠ .connectThenWrite i buf) : Phase (v.addOps [op]) := by
  refine .waiting op ?_ hop.2 hrun huse hiss
  rw [chain_addOps, hchain]
  simp [hop.1]

end

/-! ## 3. A step keeps the phases -/

section

variable {s t : Skeleton} {e : Event} {j : SockId} {v : View}

/-- **Without a stale callback, a step takes a client from one phase to another.** -/
theorem Phase.sees (hk : Kind (view s j)) (h : (view s j).conn.isClient = true → Phase (view s j))
    (hstale : NoStaleCallBack s e) (hs : Sees s e j v) (hc : v.conn.isClient = true) :
    Phase v := by
  have hserved : ∀ k, (view s j).served k = true → (view s j).conn.isClient = false :=
    fun k hserved => (hk.server_of_served hserved).isClient
  have hwaiting : ∀ {key a}, s.tcpAcceptorMap.find key = some a → a.skInfo = j →
      (view s j).conn.isClient = false := fun ha hj => (hk.waiting_of_accepting ha hj).isClient
  cases hs with
  | same => exact h hc
  | evicted hij hci href => exact (h hc).congr rfl rfl rfl rfl rfl rfl rfl
  | syncEvicted hev => exact (h hc).congr rfl rfl rfl rfl rfl rfl rfl
  | swept hev hser => exact (h hc).congr rfl rfl rfl rfl rfl rfl rfl
  | destroyed href => exact (h hc).congr rfl rfl rfl rfl rfl rfl rfl
  | @connecting q remote type cb buf hev hq hj =>
    have hfresh := hk.fresh_of_next hj
    refine .connecting j buf ?_ hfresh.quiet.running rfl ?_
    · rw [chain_addOps]
      have hnil : (view s j).chain = [] := by rw [View.chain, hfresh.quiet.ops]; rfl
      exact congrArg (· ++ [Op.connectThenWrite j buf]) hnil
    · simp [hfresh.calls, hfresh.issued]
  | reusing hev hi hop =>
    subst hev
    obtain ⟨-, huse, hcon⟩ := findIdleTCPClientSocket_some hi
    obtain ⟨hchain, hrun, hiss⟩ := (h hc).of_idle huse hcon
    have hcb : (view s j).conn.cb = none := hstale j hi
    refine Phase.write hchain hrun ?_ ?_ (writeOp_chain hop)
    · exact Bool.or_eq_true_iff.mpr (.inl hc)
    · simp [hiss, hcb]
  | reusingFor hev hi hop =>
    obtain ⟨-, huse, hcon⟩ := findIdleTCPClientSocket_some hi
    obtain ⟨hchain, hrun, hiss⟩ := (h hc).of_idle huse hcon
    refine Phase.write hchain hrun ?_ ?_ (writeOp_chain hop)
    · exact Bool.or_eq_true_iff.mpr (.inl hc)
    · simp [hiss]
  | answering hev hi _ hop =>
    cases (hserved _ (served_iff.mpr hi)).symm.trans hc
  | closing hev hi => exact (h hc).addOps_other rfl
  | synced hev hj hok => cases hc
  | syncedDestroyed hev hj hok => cases hc
  | accepting hj htype => cases hc
  | accepted hev ha hj hrem hfree hop => cases (hwaiting ha hj).symm.trans hc
  | acceptDropped hev ha hj => cases (hwaiting ha hj).symm.trans hc
  | @returnedDestroyed r ret buf hev hr hj hret =>
    obtain ⟨hchain, hiss⟩ := (h hc).of_running (running_of_eq hr hj)
    have hrest : Phase (view s j).resumed.destroyed := .rest hchain rfl hiss
    exact hrest.addOps_other (filter_after r)
  | returnedKept hev hr hj hret hno => cases hno.symm.trans hc
  | @returnedIdle r ret buf hev hr hj hret hyes =>
    obtain ⟨hchain, hiss⟩ := (h hc).of_running (running_of_eq hr hj)
    have hrest : Phase ((view s j).resumed.withConn { (view s j).conn with inUse := false }) :=
      .rest hchain rfl hiss
    exact hrest.addOps_other (filter_after r)
  | returnedRead hev hr hj hret hno hop => cases hno.symm.trans hc
  | completedDestroyed hev hp hr =>
    exact ((h hc).popOp hp).congr rfl rfl rfl rfl rfl rfl rfl
  | @completedNext op r ops hev hp hr hn =>
    rcases hn.chain with ⟨hop, rfl⟩ | ⟨hop, hncon, hnil | ⟨op', hone, hncon'⟩⟩
    · exact ((h hc).popOp_other hop).addOps_other rfl
    · exact ((h hc).popOp hp).addOps_other hnil
    · obtain ⟨hchain, hrun, hiss, hbusy⟩ := (h hc).of_chain (mem_chain.mpr ⟨hp, hop⟩)
      rcases hbusy with ⟨⟨i, buf, hcon⟩, -⟩ | ⟨-, huse⟩
      · exact absurd hcon (hncon i buf)
      · refine .waiting op' ?_ hncon' hrun huse hiss
        rw [chain_addOps, chain_popOp, hchain, hone, List.erase_cons_head, List.nil_append]
  | @completedCalled op r run hev hp hr hcall =>
    obtain ⟨hop, hncon⟩ := hcall.chain
    obtain ⟨hchain, hrun, hiss, hbusy⟩ := (h hc).of_chain (mem_chain.mpr ⟨hp, hop⟩)
    rcases hbusy with ⟨⟨i, buf, hcon⟩, -⟩ | ⟨-, huse⟩
    · exact absurd hcon (hncon i buf)
    · refine .processing run ?_ rfl huse hiss
      have hpop := chain_popOp (v := view s j) op
      rw [hchain, List.erase_cons_head] at hpop
      exact hpop
  | @connected r buf ep op hev hp hr herr hloc huse hop =>
    obtain ⟨hchain, hrun, hiss, -⟩ := (h hc).of_chain (mem_chain.mpr ⟨hp, rfl⟩)
    refine Phase.write ?_ hrun rfl hiss (writeOp_chain hop)
    have hpop := chain_popOp (v := view s j) (.connectThenWrite j buf)
    rw [hchain, List.erase_cons_head] at hpop
    exact hpop

end

/-- Every client is in some phase. -/
structure Phases (s : Skeleton) : Prop where
  kinds : Kinds s
  clients : ∀ j, (view s j).conn.isClient = true → Phase (view s j)

theorem init_phases : Phases init where
  kinds := init_kinds
  clients := fun j hc => by cases hc

theorem step_phases {cfg : Config} {s t : Skeleton} {e : Event} (h : Phases s)
    (hstale : NoStaleCallBack s e) (hst : step cfg s e = .ok t) : Phases t where
  kinds := step_kinds h.kinds hst
  clients := fun j => Phase.sees (h.kinds j) (h.clients j) hstale
    (step_sees h.kinds.acceptorsCreated hst j)

theorem Phase.delivered {v : View} (h : Phase v) : v.calls <+: v.issued := by
  cases h with
  | connecting i buf hchain hrun hcon hiss => exact hiss ▸ List.prefix_append _ _
  | waiting op hchain hop hrun huse hiss => exact hiss ▸ List.prefix_append _ _
  | processing r hchain hrun huse hiss => exact hiss ▸ List.prefix_rfl
  | rest hchain hrun hiss => exact hiss ▸ List.prefix_rfl
  | failed cb hchain hrun hbusy hiss => exact hiss ▸ List.prefix_append _ _

theorem Phases.routed {s : Skeleton} (h : Phases s) : Routed s where
  delivered := fun i hc => (h.clients i hc).delivered
  answered := fun i hc r hr hi => ((h.clients i hc).of_running (running_of_eq hr hi)).2.symm
  awaited := fun i hc op hp hop hchain => by
    have hmem : op ∈ (view s i).chain := mem_chain.mpr ⟨by simp [view, hp, hop], hchain⟩
    exact ((h.clients i hc).of_chain hmem).2.2.1

/-! ## 4. A stale callback -/

/-- A plain request on a connection with a stored callback will have its response go there. -/
theorem reuse_not_routed {cfg : Config} {s t : Skeleton} {remote : TCPEndpoint}
    {type : SocketType} {buf : List Byte} {i : SockId} (h : Phases s)
    (hst : step cfg s (.request (.toWriteThenRead remote type buf false)) = .ok t)
    (hi : findIdleTCPClientSocket s remote = some i) (hcb : (s.heap i).cb ≠ none) :
    ¬ Routed t := by
  intro hok
  obtain ⟨⟨t', n⟩, ht, rfl⟩ := map_eq_ok.mp hst
  simp only [toWriteThenRead, Bool.false_eq_true, if_false, hi] at ht
  split at ht
  case h_2 => cases ht
  rename_i s' hs'
  cases ht
  obtain ⟨-, op, hop, hat⟩ := toWriteThenReadOn_issued hs'
  have hclient : (view t' i).conn.isClient = true := by
    rw [hat.own]
    exact ((h.kinds i).client_of_idle hi).isClient
  have hmem : op ∈ (view t' i).ops := by
    rw [hat.own]
    simp
  obtain ⟨hp, hsock⟩ := List.mem_filter.mp hmem
  have hawaited : (view t' i).issued = (view t' i).calls ++ [(view t' i).conn.cb] :=
    hok.awaited i hclient op hp (by simpa using hsock) (writeOp_chain hop).1
  rw [hat.own] at hawaited
  have hlast := (List.append_inj' hawaited rfl).2
  simp only [View.addOps_conn, View.withConn_conn, List.cons.injEq, and_true] at hlast
  exact hcb hlast.symm

theorem step_not_routed {cfg : Config} {s t : Skeleton} {e : Event} (h : Phases s)
    (hstale : ¬ NoStaleCallBack s e) (hst : step cfg s e = .ok t) : ¬ Routed t := by
  unfold NoStaleCallBack at hstale
  split at hstale
  · push Not at hstale
    obtain ⟨i, hi, hcb⟩ := hstale
    exact reuse_not_routed h hst hi hcb
  · exact absurd trivial hstale

/-! ## 5. Every run -/

/-- **The responses go where they should exactly while no stale callback is met.**  In a run that
executes, on every connection to a server behind the responses are passed to what their requests
asked for, in every state, if and only if no plain request takes an idle connection on which an
earlier callback is stored. -/
theorem responses_routed_iff (cfg : Config) (es : List Event) (s : Skeleton)
    (hrun : exec (step cfg) init es = .ok s) :
    (∀ t, Visits (step cfg) init es t → Routed t) ↔ Along (step cfg) NoStaleCallBack init es :=
  always_iff_along (fun _ _ _ ht hg hu => step_phases ht hg hu) (fun _ => Phases.routed)
    (fun _ _ _ ht hg hu => step_not_routed ht hg hu) init_phases hrun

/-- The response to a request on connection 0: an empty frame, after which the connection is
idle. -/
def emptyResponse : List Event :=
  [.complete (.writeThenReadL 0) {}, .complete (.readLThenReadV 0) { data := [0, 0, 0, 4] },
    .complete (.readVThenProcess 0 4) {}, .returned 1 [0, 0, 0, 4]]

/-- A request with a callback that brings up connection 0, and its response. -/
def callBackOnce : List Event :=
  [.request (.toWriteThenCallBack ⟨9, 90⟩ .lv [0, 0, 0, 4] false (some 1)), .run,
    .complete (.connectThenWrite 0 [0, 0, 0, 4]) { localEndpoint := some ⟨1, 5000⟩ }] ++
      emptyResponse

theorem callBackOnce_routed : ∃ s, exec (step Config.lv) init callBackOnce = .ok s ∧
    responsesOn s 0 = [some 1] ∧ Routed s :=
  ⟨_, rfl, rfl, (responses_routed_iff Config.lv callBackOnce _ rfl).mpr
    (along_of_forall (by simp [callBackOnce, emptyResponse, NoStaleCallBack])) _
    ⟨_, List.prefix_rfl, rfl⟩⟩

/-- A plain request after one with a callback, on the same connection: its response goes to the
callback of the first. -/
theorem plain_response_goes_to_callback :
    ∃ s, exec (step Config.lv) init (callBackOnce ++
        (.request (.toWriteThenRead ⟨9, 90⟩ .lv [0, 0, 0, 4] false) :: emptyResponse)) = .ok s ∧
      requestsOn s 0 = [some 1, none] ∧ responsesOn s 0 = [some 1, some 1] ∧ ¬ Routed s := by
  refine ⟨_, rfl, rfl, rfl, fun h => ?_⟩
  have hdelivered := h.delivered 0 rfl
  revert hdelivered
  decide

end Kknf.Asio2
