/-
# Listening and the timer

A connection is accepted only while an `async_accept` is outstanding on its acceptor, and idle
server sockets are swept only while the timer is waited for.  Both are started again by the handler
that ends them, and by nothing else: a handler that returns without doing so stops them for good.

`HandleTimeout` always reaches the end.  `HandleAccept` does not when the new connection has lost
its endpoints (the peer is gone already): `listening_iff` says that this is exactly when listening
stops.
-/
import Kknf.Lib.Run
import Kknf.Asio2.Requests

namespace Kknf.Asio2

open Kknf.Run

/-! ## 1. The part of the state that listens -/

/-- The acceptors, whether `Run()` has been called, and the operations that are on no socket. -/
structure Ears where
  acceptors : StdMap TCPEndpoint TCPAcceptorInfo
  started : Bool
  ops : List Op

def ears (s : Skeleton) : Ears :=
  ⟨s.tcpAcceptorMap, s.started, s.pending.filter fun op => op.sock?.isNone⟩

section

variable (s : Skeleton) (i : SockId)

@[simp] theorem ears_setSock (f : SocketInfo → SocketInfo) : ears (setSock s i f) = ears s := rfl
@[simp] theorem ears_touch : ears (touch s i) = ears s := rfl
@[simp] theorem ears_closeSk : ears (closeSk s i) = ears s := rfl
@[simp] theorem ears_setRecvBuf (n : Nat) : ears (setRecvBuf s i n) = ears s := rfl
@[simp] theorem ears_setSendBuf (buf : List Byte) : ears (setSendBuf s i buf) = ears s := rfl
@[simp] theorem ears_alloc (k : SocketInfo) : ears (alloc s k) = ears s := rfl
@[simp] theorem ears_issue (cb : Option CallBack) : ears (issue s i cb) = ears s := rfl
@[simp] theorem ears_callProcess (r : Running) : ears (callProcess s r) = ears s := rfl
@[simp] theorem ears_insertTCPClientSocket (key : TCPEndpoint) :
    ears (insertTCPClientSocket s key i) = ears s := rfl

@[simp] theorem ears_insertTCPServerSocket (key : TCPEndpoint) :
    ears (insertTCPServerSocket s key i).1 = ears s := by
  unfold insertTCPServerSocket
  split <;> rfl

@[simp] theorem ears_sweepServerSocket (n : Int) : ears (sweepServerSocket s n) = ears s := rfl

@[simp] theorem ears_destroySocket : ears (destroySocket s i).1 = ears s := by
  simp only [destroySocket]
  split
  · split <;> rfl
  · rfl

/-- Operations on sockets do not matter here. -/
theorem ears_push {op : Op} (h : op.sock?.isNone = false) :
    ears (push s op) = ears s := by
  simp [ears, push, h]

theorem ears_pop {op : Op} (h : op.sock?.isNone = false) : ears (pop s op) = ears s := by
  have hop : op ∉ s.pending.filter fun op => op.sock?.isNone := by simp [h]
  simp only [ears, pop, ← List.erase_filter, List.erase_of_not_mem hop]

theorem ears_push_own {op : Op} (h : op.sock?.isNone = true) :
    ears (push s op) = { ears s with ops := (ears s).ops ++ [op] } := by
  simp [ears, push, h]

theorem ears_pop_own (op : Op) :
    ears (pop s op) = { ears s with ops := (ears s).ops.erase op } := by
  simp only [ears, pop, List.erase_filter]

end

/-! ## 2. What a step does to it -/

section

variable {cfg : Config} {s t : Skeleton}

theorem ears_storeRecv {i : SockId} {off : Nat} {data : List Byte}
    (h : storeRecv s i off data = .ok t) : ears t = ears s := by
  simp only [storeRecv] at h
  split at h <;> cases h
  rfl

@[simp] theorem ears_toReadLThenReadV (i : SockId) : ears (toReadLThenReadV s i) = ears s :=
  ears_push _ rfl

@[simp] theorem ears_httpHeadReadCompletionCondition (error : Bool) (i : SockId) (n : Nat) :
    ears (httpHeadReadCompletionCondition s error i n).1 = ears s := by
  simp only [httpHeadReadCompletionCondition]
  split
  · rfl
  · split
    · rfl
    · split <;> rfl

@[simp] theorem ears_asyncReadHTTPHead (i : SockId) :
    ears (asyncReadHTTPHead cfg s i) = ears s :=
  (ears_push _ rfl).trans (ears_httpHeadReadCompletionCondition false i 0)

@[simp] theorem ears_sendContinue (i : SockId) : ears (sendContinue s i) = ears s :=
  ears_push _ rfl

@[simp] theorem ears_toConnectThenWrite (remote : TCPEndpoint) (type : SocketType)
    (buf : List Byte) (cb : Option CallBack) :
    ears (toConnectThenWrite s remote type buf cb) = ears s :=
  ears_push _ rfl

theorem ears_toWriteThenReadOn {i : SockId} {buf : List Byte}
    (h : toWriteThenReadOn s i buf = .ok t) : ears t = ears s := by
  obtain ⟨-, op, hop, rfl⟩ := toWriteThenReadOn_ok h
  rcases hop with ⟨-, rfl⟩ | ⟨-, rfl⟩
  · exact ears_push _ rfl
  · exact ears_push _ rfl

theorem ears_afterProcess {r : Running} {ret : Int} (h : afterProcess cfg s r ret = .ok t) :
    ears t = ears s := by
  simp only [afterProcess, toReadHTTPHeadThenReadHTTPContent] at h
  repeat' split at h
  all_goals cases h
  all_goals simp

theorem ears_handleReadHTTPContentThenProcess (error : Bool) (i : SockId) (cont : Bool) :
    ears (handleReadHTTPContentThenProcess s error i cont) = ears s := by
  unfold handleReadHTTPContentThenProcess
  split <;> simp

theorem ears_readHTTPRest (i : SockId) (n : Nat) (total : Int) (cont : Bool) :
    ears (readHTTPRest s i n total cont) = ears s := by
  simp only [readHTTPRest]
  split
  · exact ears_handleReadHTTPContentThenProcess false i cont
  · have hread := ears_push s (show (Op.readHTTPContent i n
      (sizeT (int32 (total - n)))).sock?.isNone = false from rfl)
    split
    · rw [ears_sendContinue, hread]
    · exact hread

theorem ears_handleReadHTTPHead (error : Bool) (i : SockId) (n : Nat) :
    ears (handleReadHTTPHead cfg s error i n) = ears s := by
  have hgrow : ∀ u total, ears (growRecvBuf u i total) = ears u := fun u total => by
    unfold growRecvBuf
    split <;> rfl
  simp only [handleReadHTTPHead]
  split
  · simp
  split
  · simp
  split
  · simp
  split
  · simp
  split
  · simp
  · rw [ears_readHTTPRest, hgrow, ears_touch]

/-- The handler of an operation on a socket. -/
theorem ears_handle {op : Op} {r : Completion} (hop : op.sock?.isNone = false)
    (h : handle cfg s op r = .ok t) : ears t = ears s := by
  cases op with
  | connectThenWrite i buf =>
    simp only [handle, handleConnectThenWrite] at h
    split at h
    · cases h
      simp
    split at h
    · cases h
      simp
    split at h
    · cases h
    split at h <;> cases h <;> exact ears_push _ rfl
  | writeThenReadL i =>
    cases h
    unfold handleWriteThenReadL
    split <;> simp
  | writeThenReadHTTPHead i =>
    cases h
    unfold handleWriteThenReadHTTPHead
    split <;> simp
  | writeThenClose i =>
    cases h
    exact ears_destroySocket s i
  | anythingThenNothing i =>
    cases h
    unfold handleAnythingThenNothing
    split <;> simp
  | readLThenReadV i =>
    obtain ⟨s', hs', rfl⟩ := map_eq_ok.mp h
    rw [← ears_storeRecv hs']
    simp only [handleReadLThenReadV]
    split
    · simp
    split
    · simp
    · refine (ears_push _ rfl).trans ?_
      unfold setFrameBuf
      split <;> rfl
  | readVThenProcess i len =>
    simp only [handle] at h
    split at h
    · cases h
    rename_i s' hs'
    rw [← ears_storeRecv hs']
    simp only [handleReadVThenProcess] at h
    split at h
    · cases h
      simp
    split at h <;> cases h
    simp
  | readHTTPHead i n l =>
    obtain ⟨s', hs', rfl⟩ := map_eq_ok.mp h
    rw [← ears_storeRecv hs']
    simp only [readHTTPSome]
    split
    · rw [ears_handleReadHTTPHead, ears_httpHeadReadCompletionCondition]
    · rw [ears_push _ rfl, ears_httpHeadReadCompletionCondition]
  | readHTTPContent i o c =>
    obtain ⟨s', hs', rfl⟩ := map_eq_ok.mp h
    rw [← ears_storeRecv hs']
    exact ears_handleReadHTTPContentThenProcess r.error i false
  | accept key => cases hop
  | timeout => cases hop

/-- The first part of `HandleAccept` changes the socket the acceptor waits with. -/
theorem ears_takeAccepted (s : Skeleton) (key : TCPEndpoint) (a : TCPAcceptorInfo) :
    ears (takeAccepted s key a) =
      { ears s with acceptors := s.tcpAcceptorMap.set key { a with skInfo := s.next } } := rfl

end

/-- What a step can do to the acceptors, the timer and their operations. -/
inductive Hears (s : Skeleton) : Event → Ears → Prop
  | same (e : Event) : Hears s e (ears s)
  | run (h : s.started = false) :
      Hears s .run { ears s with started := true, ops := (ears s).ops ++ [.timeout] }
  | added {key : TCPEndpoint} {type : SocketType} (h : s.tcpAcceptorMap.find key = none) :
      Hears s (.request (.addTCPAcceptor key type)) { ears s with
        acceptors := s.tcpAcceptorMap.set key ⟨type, s.next⟩
        ops := (ears s).ops ++ [.accept key] }
  | accepted {key : TCPEndpoint} {a : TCPAcceptorInfo} {r : Completion}
      (hp : .accept key ∈ (ears s).ops) (ha : s.tcpAcceptorMap.find key = some a)
      (hrem : r.remoteEndpoint ≠ none) (hloc : r.localEndpoint ≠ none) :
      Hears s (.complete (.accept key) r) { ears s with
        acceptors := s.tcpAcceptorMap.set key { a with skInfo := s.next }
        ops := (ears s).ops.erase (.accept key) ++ [.accept key] }
  | dropped {key : TCPEndpoint} {a : TCPAcceptorInfo} {r : Completion}
      (hp : .accept key ∈ (ears s).ops) (ha : s.tcpAcceptorMap.find key = some a)
      (hend : r.remoteEndpoint = none ∨ r.localEndpoint = none) :
      Hears s (.complete (.accept key) r) { ears s with
        acceptors := s.tcpAcceptorMap.set key { a with skInfo := s.next }
        ops := (ears s).ops.erase (.accept key) }
  | timeout {r : Completion} (hp : .timeout ∈ (ears s).ops) :
      Hears s (.complete .timeout r) { ears s with
        ops := (ears s).ops.erase .timeout ++ [.timeout] }

theorem handleAccept_hears {cfg : Config} {s t : Skeleton} {key : TCPEndpoint} {r : Completion}
    (hp : .accept key ∈ (ears s).ops)
    (h : handleAccept cfg (pop s (.accept key)) r.error key r.remoteEndpoint r.localEndpoint =
      .ok t) : Hears s (.complete (.accept key) r) (ears t) := by
  have hpop := ears_pop_own s (.accept key)
  simp only [handleAccept] at h
  split at h
  · cases h
  split at h
  · cases h
  rename_i a ha
  have htake : ears (takeAccepted (pop s (.accept key)) key a) = { ears s with
      acceptors := s.tcpAcceptorMap.set key { a with skInfo := s.next }
      ops := (ears s).ops.erase (.accept key) } := by
    rw [ears_takeAccepted, hpop]
    rfl
  split at h
  · rename_i rem loc hrem hloc
    split at h
    · cases h
    have hacc : ∀ u, ears u = ears (takeAccepted (pop s (.accept key)) key a) →
        Hears s (.complete (.accept key) r) (ears (push u (.accept key))) := by
      intro u hu
      rw [ears_push_own u rfl, hu, htake]
      exact .accepted hp ha (by simp [hrem]) (by simp [hloc])
    split at h
    · cases h
      exact hacc _ (by simp [toReadHTTPHeadThenReadHTTPContent])
    · cases h
      exact hacc _ (by simp)
    · cases h
  · rename_i hnone
    cases h
    rw [ears_closeSk, htake]
    refine .dropped hp ha ?_
    cases hrem : r.remoteEndpoint with
    | none => exact .inl rfl
    | some rem =>
      cases hloc : r.localEndpoint with
      | none => exact .inr rfl
      | some loc => exact (hnone rem loc hrem hloc).elim

theorem request_hears {cfg : Config} {s t : Skeleton} {q : Request}
    (h : request cfg s q = .ok t) : Hears s (.request q) (ears t) := by
  cases q with
  | toWriteThenRead remote type buf iAmServer =>
    obtain ⟨⟨u, n⟩, hu, rfl⟩ := map_eq_ok.mp h
    rcases toWriteThenRead_ok hu with ⟨-, rfl⟩ | ⟨-, rfl⟩ | ⟨i, -, hw⟩
    · exact .same _
    · rw [ears_toConnectThenWrite]
      exact .same _
    · have hsame : ears u = ears s := (ears_toWriteThenReadOn hw).trans rfl
      rw [hsame]
      exact .same _
  | toWriteThenCallBack remote type buf iAmServer cb =>
    obtain ⟨⟨u, n⟩, hu, rfl⟩ := map_eq_ok.mp h
    rcases toWriteThenCallBack_ok hu with rfl | rfl | ⟨i, -, hw⟩
    · exact .same _
    · rw [ears_toConnectThenWrite]
      exact .same _
    · have hsame : ears u = ears s := (ears_toWriteThenReadOn hw).trans rfl
      rw [hsame]
      exact .same _
  | toWriteThenClose remote buf iAmServer =>
    obtain ⟨⟨u, n⟩, hu, rfl⟩ := map_eq_ok.mp h
    obtain ⟨i, -, rfl⟩ := toWriteThenClose_ok hu
    have hsame : ears (push (setSendBuf s i buf) (.writeThenClose i)) = ears s := ears_push _ rfl
    rw [hsame]
    exact .same _
  | toConnectThenWrite remote type buf cb =>
    cases h
    rw [ears_toConnectThenWrite]
    exact .same _
  | toWriteThenReadSync remote type buf o =>
    obtain ⟨⟨u, n⟩, hu, rfl⟩ := map_eq_ok.mp h
    have hsame : ears u = ears s := by
      rcases toWriteThenReadSync_ok hu with rfl | ⟨i, -, hend⟩ | ⟨-, hend⟩
      · rfl
      · rcases hend with rfl | rfl
        · rfl
        · exact (ears_destroySocket _ _).trans rfl
      · rcases hend with rfl | rfl
        · rfl
        · exact (ears_destroySocket _ _).trans rfl
    rw [hsame]
    exact .same _
  | addTCPAcceptor key type =>
    obtain ⟨⟨u, n⟩, hu, rfl⟩ := map_eq_ok.mp h
    obtain ⟨hfree, rfl⟩ := addTCPAcceptor_ok hu
    rw [ears_push_own _ rfl]
    exact .added hfree

/-- **A step, as the acceptors and the timer hear it.** -/
theorem step_hears {cfg : Config} {s t : Skeleton} {e : Event} (h : step cfg s e = .ok t) :
    Hears s e (ears t) := by
  cases e with
  | request q => exact request_hears h
  | returned ret buf =>
    simp only [step] at h
    split at h
    · cases h
    simp only [returned] at h
    split at h
    · cases h
    rename_i s' hs'
    cases h
    have hsame : ears s' = ears s := (ears_afterProcess hs').trans rfl
    split
    · rw [ears_sendContinue, hsame]
      exact .same _
    · rw [hsame]
      exact .same _
  | complete op r =>
    simp only [step] at h
    split at h
    · rename_i hen
      obtain ⟨-, -, hp, -⟩ := hen
      cases hop : op.sock?.isNone with
      | false =>
        rw [ears_handle hop h, ears_pop s hop]
        exact .same _
      | true =>
        have hmem : op ∈ (ears s).ops := List.mem_filter.mpr ⟨hp, hop⟩
        cases op with
        | accept key => exact handleAccept_hears hmem h
        | timeout =>
          cases h
          have hsweep : ears (if r.error then pop s .timeout
              else sweepServerSocket (pop s .timeout) cfg.serverTimeout) =
              ears (pop s .timeout) := by
            split <;> rfl
          rw [handleTimeout, ears_push_own _ rfl, hsweep, ears_pop_own]
          exact .timeout hmem
        | _ => cases hop
    · cases h
  | destroySocket i =>
    simp only [step] at h
    split at h
    · cases h
      rw [ears_destroySocket]
      exact .same _
    · cases h
  | setClock n =>
    cases h
    exact .same _
  | run =>
    simp only [step] at h
    split at h
    · cases h
    · rename_i hst
      cases h
      have hrun : ears (run s) = { ears s with
          started := true, ops := (ears s).ops ++ [.timeout] } := ears_push_own _ rfl
      rw [hrun]
      exact .run (by simpa using hst)

/-! ## 3. Every acceptor and the timer are waited for -/

/-- Between two handlers of a skeleton that runs, every acceptor has one `async_accept` outstanding
and the timer one `async_wait`. -/
def Listening (s : Skeleton) : Prop :=
  s.started = true → s.running = none →
    (∀ key a, s.tcpAcceptorMap.find key = some a → s.pending.count (.accept key) = 1) ∧
      s.pending.count .timeout = 1

/-- The event is not the completion of an accept whose connection has lost an endpoint. -/
def Rearms : Event → Prop
  | .complete (.accept _) r => r.remoteEndpoint ≠ none ∧ r.localEndpoint ≠ none
  | _ => True

/-- One accept for each acceptor, one wait for a timer that has been started. -/
structure Armed (s : Skeleton) : Prop where
  accepts : ∀ key, (ears s).ops.count (.accept key) =
    if (s.tcpAcceptorMap.find key).isSome then 1 else 0
  timeouts : (ears s).ops.count .timeout = if s.started then 1 else 0

theorem count_ears (s : Skeleton) {op : Op} (h : op.sock?.isNone = true) :
    (ears s).ops.count op = s.pending.count op := List.count_filter h

theorem init_armed : Armed init := ⟨fun _ => rfl, rfl⟩

theorem Armed.listening {s : Skeleton} (h : Armed s) : Listening s := by
  intro hstarted _
  refine ⟨fun key a ha => ?_, ?_⟩
  · rw [← count_ears s rfl, h.accepts, ha]
    rfl
  · rw [← count_ears s rfl, h.timeouts, hstarted]
    rfl

/-- The sockets acceptors wait with do not matter: only which acceptors there are. -/
theorem Armed.of_ears {s t : Skeleton} (h : Armed s) {m : StdMap TCPEndpoint TCPAcceptorInfo}
    {ops : List Op} (ht : ears t = { ears s with acceptors := m, ops := ops })
    (hm : ∀ key, (m.find key).isSome = (s.tcpAcceptorMap.find key).isSome)
    (hops : ops.Perm (ears s).ops) : Armed t := by
  have hm' : t.tcpAcceptorMap = m := congrArg Ears.acceptors ht
  have hs' : t.started = s.started := congrArg Ears.started ht
  have hops' : (ears t).ops = ops := congrArg Ears.ops ht
  refine ⟨fun key => ?_, ?_⟩
  · rw [hops', hops.count_eq, hm', hm key]
    exact h.accepts key
  · rw [hops', hops.count_eq, hs']
    exact h.timeouts

theorem step_armed {cfg : Config} {s t : Skeleton} {e : Event} (h : Armed s) (hg : Rearms e)
    (hst : step cfg s e = .ok t) : Armed t := by
  have hh := step_hears hst
  generalize ht : ears t = w at hh
  cases hh with
  | same => exact h.of_ears ht (fun _ => rfl) (List.Perm.refl _)
  | run hns =>
    have hm : t.tcpAcceptorMap = s.tcpAcceptorMap := congrArg Ears.acceptors ht
    have hs' : t.started = true := congrArg Ears.started ht
    have hops : (ears t).ops = (ears s).ops ++ [.timeout] := congrArg Ears.ops ht
    refine ⟨fun key => ?_, ?_⟩
    · rw [hops, hm, List.count_append, h.accepts key]
      simp
    · have hnone := h.timeouts
      rw [hns] at hnone
      rw [hops, hs', List.count_append, hnone]
      simp
  | @added key type hnone =>
    have hm : t.tcpAcceptorMap = s.tcpAcceptorMap.set key ⟨type, s.next⟩ :=
      congrArg Ears.acceptors ht
    have hs' : t.started = s.started := congrArg Ears.started ht
    have hops : (ears t).ops = (ears s).ops ++ [.accept key] := congrArg Ears.ops ht
    refine ⟨fun k => ?_, ?_⟩
    · rw [hops, hm, List.count_append, h.accepts k, StdMap.find_set]
      by_cases hk : k = key
      · subst hk
        simp [hnone]
      · simp [hk, Ne.symm hk]
    · rw [hops, hs', List.count_append, h.timeouts]
      simp
  | @accepted key a r hp ha hrem hloc =>
    refine h.of_ears ht (fun k => ?_) ?_
    · rw [StdMap.find_set]
      split
      · rename_i hk
        rw [hk, ha]
        rfl
      · rfl
    · exact (List.perm_append_singleton _ _).trans (List.perm_cons_erase hp).symm
  | dropped hp ha hend =>
    rcases hend with hnone | hnone
    · exact absurd hnone hg.1
    · exact absurd hnone hg.2
  | timeout hp =>
    exact h.of_ears ht (fun _ => rfl)
      ((List.perm_append_singleton _ _).trans (List.perm_cons_erase hp).symm)

/-- `HandleAccept` for a connection that has lost an endpoint. -/
theorem handleAccept_dropped {cfg : Config} {s t : Skeleton} {key : TCPEndpoint}
    {r : Completion} (hend : ¬ (r.remoteEndpoint ≠ none ∧ r.localEndpoint ≠ none))
    (h : handleAccept cfg s r.error key r.remoteEndpoint r.localEndpoint = .ok t) :
    ∃ a, s.tcpAcceptorMap.find key = some a ∧ t = closeSk (takeAccepted s key a) a.skInfo := by
  simp only [handleAccept] at h
  split at h
  · cases h
  split at h
  · cases h
  rename_i a ha
  split at h
  · rename_i hrem hloc
    exact (hend ⟨by simp [hrem], by simp [hloc]⟩).elim
  · cases h
    exact ⟨a, ha, rfl⟩

/-- An accept whose connection has lost an endpoint is the last one of its acceptor. -/
theorem step_not_listening {cfg : Config} {s t : Skeleton} {e : Event} (h : Armed s)
    (hg : ¬ Rearms e) (hst : step cfg s e = .ok t) : ¬ Listening t := by
  unfold Rearms at hg
  split at hg
  swap
  · exact (hg trivial).elim
  rename_i key r
  simp only [step] at hst
  split at hst
  swap
  · cases hst
  rename_i hen
  obtain ⟨hstarted, hrun, -, -⟩ := hen
  obtain ⟨a, ha, rfl⟩ := handleAccept_dropped hg hst
  intro hl
  have hrunning : s.running = none := Option.isNone_iff_eq_none.mp hrun
  have hcount := (hl hstarted hrunning).1 key { a with skInfo := s.next } (by
    simp [closeSk, setSock, takeAccepted, alloc, pop])
  have hbefore := h.accepts key
  have ha' : s.tcpAcceptorMap.find key = some a := ha
  rw [ha', Option.isSome_some, if_pos rfl, count_ears s rfl] at hbefore
  have hafter : (pop s (.accept key)).pending.count (.accept key) = 0 := by
    simp [pop, List.count_erase_self, hbefore]
  have hsame : (s.pending.erase (.accept key)).count (.accept key) = 1 := hcount
  rw [show s.pending.erase (.accept key) = (pop s (.accept key)).pending from rfl, hafter] at hsame
  cases hsame

/-- **Listening and the timer go on exactly while no accepted connection has lost its endpoints.**
In a run that executes, every acceptor and the timer are waited for in every state between two
handlers if and only if every accept completes with both endpoints. -/
theorem listening_iff (cfg : Config) (es : List Event) (s : Skeleton)
    (hrun : exec (step cfg) init es = .ok s) :
    (∀ t, Visits (step cfg) init es t → Listening t) ↔ ∀ e ∈ es, Rearms e := by
  rw [← along_iff_forall hrun]
  exact always_iff_along (fun _ _ _ ht hg hu => step_armed ht hg hu) (fun _ => Armed.listening)
    (fun _ _ _ ht hg hu => step_not_listening ht hg hu) init_armed hrun

/-- A configuration for runs that read no HTTP head. -/
def Config.lv : Config := { lexicalCast := fun _ => none, lexicalCast_int := by simp }

/-- A skeleton that listens at one endpoint accepts a connection, and its timer fires. -/
def acceptOnce : List Event :=
  [.request (.addTCPAcceptor ⟨1, 80⟩ .lv), .run,
    .complete (.accept ⟨1, 80⟩) { remoteEndpoint := some ⟨2, 5000⟩, localEndpoint := some ⟨1, 80⟩ },
    .complete .timeout { error := true }]

theorem acceptOnce_listening : ∃ s, exec (step Config.lv) init acceptOnce = .ok s ∧
    s.started = true ∧ (s.tcpAcceptorMap.find ⟨1, 80⟩).isSome ∧ Listening s :=
  ⟨_, rfl, rfl, rfl, (listening_iff Config.lv acceptOnce _ rfl).mpr
    (by simp [acceptOnce, Rearms]) _ ⟨_, List.prefix_rfl, rfl⟩⟩

/-- The peer has gone before `HandleAccept` asks for its endpoint: the acceptor stays in the map,
and no accept is outstanding on it any more. -/
theorem accept_without_endpoint_stops_listening :
    ∃ s, exec (step Config.lv) init
        [.request (.addTCPAcceptor ⟨1, 80⟩ .lv), .run, .complete (.accept ⟨1, 80⟩) {}] = .ok s ∧
      (s.tcpAcceptorMap.find ⟨1, 80⟩).isSome ∧ s.pending.count (.accept ⟨1, 80⟩) = 0 ∧
      ¬ Listening s := by
  refine ⟨_, rfl, rfl, rfl, fun h => ?_⟩
  obtain ⟨haccepts, -⟩ := h rfl rfl
  have hone := haccepts ⟨1, 80⟩ ⟨.lv, 1⟩ rfl
  revert hone
  decide

end Kknf.Asio2
