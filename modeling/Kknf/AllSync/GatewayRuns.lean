/-
# The gateway over whole runs

`Gateway.lean` follows one worker of `TestBFProcessor` from a request to its reply.  Here any number
of them run in the service, with the epoll thread, the clients and the backends taking their steps
in between.

* `gateway_replies_right`: what a client gets are replies to its own requests, in order and at most
  once each, and each with the sum for that request.
* `gateway_answers_all`: as long as no call for a backend fails, it gets all of them, once all it
  has sent has been received and no worker has its socket.  A worker whose `TCPWaitToRead` does not
  return has its socket.
* `gateway_safe`: the one thing a client can do wrong is to send a packet shorter than the struct.
* `gateway_leaks`: each failure to reach the second backend costs one connection to the first, and
  each `MakeConnection` that fails once it has a descriptor costs that, for good.
-/
import Mathlib.Algebra.BigOperators.Group.Finset.Piecewise
import Kknf.AllSync.Gateway

namespace Kknf.AllSync.Gateway

open Kknf.Placement Kknf.Run
open Client (ClientSocket ConnResult)
open Serving (Outcome Logic Conn Service Event Answered Taken Holds)

/-! ## 1. Runs with one request -/

/-- The gateway at the start of its threads. -/
abbrev startGateway (W : Type) (n : Nat) (hasUDP : Bool) : Service W (Shared W) :=
  Serving.start n hasUDP (start W)

/-- Both backends add one. -/
def addOne (_ : SocketAddr) (n : Word) : Word := n + 1

/-- Two workers, `false` and `true`. -/
abbrev stepTwo : Service Bool (Shared Bool) → Event Bool Work Answer →
    Except Serving.Fault (Service Bool (Shared Bool)) :=
  Serving.step .little (testBFProcessor Bool .little addOne) fun _ => 0

abbrev startTwo : Service Bool (Shared Bool) := startGateway Bool 1 false

/-- A new connection of the client. -/
def connected (ptr : Ptr) (fd : Nat) : ConnResult := .connected ptr fd "127.0.0.1" 40000

/-- The first worker takes these steps in its business logic. -/
def worked : List Work → List (Event Bool Work Answer) := List.map (.work false)

/-- A request for 40 and 1 is received. -/
def received : List (Event Bool Work Answer) :=
  Serving.accepted (lvStream .big [ReqBF.bytes .big ⟨16, 7, 40, 1⟩]) ++
    [.tcpRecv false [.got 4, .got 16]]

/-- Both backends are reached and answer, the second one first. -/
def answered : List (Event Bool Work Answer) :=
  received ++
    worked [.next, .makeConnection (connected 200 9), .tcpSend [.sent 16], .next,
      .makeConnection (connected 201 10), .tcpSend [.sent 3, .sent 13]] ++
    [.outside ⟨201, [.got 4, .got 12]⟩, .outside ⟨200, [.got 4, .got 12]⟩] ++
    worked [.tcpWaitToRead true, .tcpRecv [.got 4, .got 12], .tcpRecv [.got 4, .got 12],
      .next, .next] ++
    [.tcpSend false [.sent 16], .insertServerReuseSocket false true]

/-- The second backend cannot be reached. -/
def unreachable : List (Event Bool Work Answer) :=
  received ++
    worked [.next, .makeConnection (connected 200 9), .tcpSend [.sent 16], .next,
      .makeConnection (.connectFails 10), .next] ++
    [.insertServerReuseSocket false true]

variable {W : Type} [DecidableEq W] {o : ByteOrder} {compute : SocketAddr → Word → Word}

/-! ## 2. Replies to the requests -/

/-- A step of the service whose processors are `TestBFProcessor`s. -/
abbrev stepGateway [Fintype W] (o : ByteOrder) (compute : SocketAddr → Word → Word)
    (poolIndex : W → Nat) : Service W (Shared W) → Event W Work Answer →
      Except Serving.Fault (Service W (Shared W)) :=
  Serving.step o (testBFProcessor W o compute) poolIndex

variable [Fintype W] {poolIndex : W → Nat}

omit [Fintype W] in
/-- No step of the gateway is a failed `TCPSend` with the socket being kept. -/
theorem kept (s : Service W (Shared W)) (e : Event W Work Answer) :
    Serving.Kept o (testBFProcessor W o compute) s e := by
  cases e with
  | tcpSend w sends => exact Or.inl rfl
  | _ => trivial

/-- The invariant of the service with the invariant of the gateway in it. -/
abbrev ServiceInv (o : ByteOrder) (compute : SocketAddr → Word → Word) (s : Service W (Shared W)) :
    Prop := Serving.Inv o (IsReply o compute) (Inv o compute) s

theorem stepGateway_inv {s t : Service W (Shared W)} {e : Event W Work Answer}
    (h : ServiceInv o compute s)
    (hstep : stepGateway o compute poolIndex s e = .ok t) : ServiceInv o compute t :=
  Serving.step_inv testBFProcessor_sound h (kept s e) hstep

theorem runGateway_inv {n : Nat} {hasUDP : Bool} {es : List (Event W Work Answer)}
    {s : Service W (Shared W)}
    (hrun : exec (stepGateway o compute poolIndex) (startGateway W n hasUDP) es = .ok s) :
    ServiceInv o compute s :=
  Serving.run_inv testBFProcessor_sound start_inv (along_of_forall fun e _ t => kept t e) hrun

def Local.closing : Local → Bool
  | .close _ _ => true
  | _ => false

omit [DecidableEq W] [Fintype W] in
/-- A backend at work changes no worker. -/
theorem answer_locals {x y : Shared W} {a : Answer} (h : answer o compute x a = .ok y) :
    y.locals = x.locals ∧ y.leaked = x.leaked ∧ y.leftOpen = x.leftOpen := by
  unfold answer at h
  split at h
  · cases h
  · split at h
    · cases h
    · split at h
      · cases h
      · split at h
        · cases h
        · cases h
          exact ⟨rfl, rfl, rfl⟩

omit [Fintype W] in
theorem receive_locals {x y : Shared W} {w : W} {packet : List Byte} {out : Outcome}
    (h : receive o x w packet = .ok (y, out)) :
    ∃ req, y.locals = Function.update x.locals w (.get req none) ∧ y.leaked = x.leaked ∧
      y.leftOpen = x.leftOpen := by
  unfold receive at h
  split at h
  · cases h
  · cases h
    exact ⟨_, rfl, rfl, rfl⟩

omit [DecidableEq W] [Fintype W] in
theorem answer_fault {x : Shared W} {a : Answer} {f : Serving.Fault}
    (h : answer o compute x a = .error f) : f = .disabled := by
  unfold answer at h
  split at h
  · cases h
    rfl
  · split at h
    · cases h
      rfl
    · split at h
      · cases h
        rfl
      · split at h
        · cases h
          rfl
        · cases h

/-- The next packet from the client whose socket the worker has is shorter than the struct. -/
def ShortPacket (o : ByteOrder) (s : Service W (Shared W)) (w : W) : Prop :=
  ∃ p packet rest, Holds s w p ∧ (s.server.heap p).isSome ∧
    (s.conn p).input = lvStream o ((s.conn p).received ++ [packet]) ++ rest ∧
      packet.length < ReqBF.size

theorem serverStep_fault {s : Service W (Shared W)} {w : W} {a : Action W}
    {pc : Server W → Serving.Pc} {f : Serving.Fault} (h : Serving.serverStep s w a pc = .error f) :
    ∃ g, f = .server g := by
  unfold Serving.serverStep at h
  split at h
  · cases h
  · cases h
    exact ⟨_, rfl⟩

/-- **What a step can fail with.** -/
theorem step_fault {s : Service W (Shared W)} {e : Event W Work Answer} {f : Serving.Fault}
    (h : ServiceInv o compute s)
    (hstep : stepGateway o compute poolIndex s e = .error f) :
    f = .disabled ∨ (∃ g, f = .server g) ∨
      (f = .outOfBounds ∧ ∃ w recvs, e = .tcpRecv w recvs ∧ ShortPacket o s w) := by
  have hdisabled : ∀ {α : Type} {x : Serving.Fault}, (.error .disabled : Except Serving.Fault α)
      = .error x → x = .disabled := by
    rintro α x ⟨⟩
    rfl
  cases e with
  | server a =>
    simp only [Serving.step] at hstep
    split at hstep
    · split at hstep
      · cases hstep
      · cases hstep
        exact Or.inr (Or.inl ⟨_, rfl⟩)
    · exact Or.inl (hdisabled hstep)
  | clientSend p bytes => cases hstep
  | getServerReadySocket w =>
    simp only [Serving.step] at hstep
    split at hstep
    · exact Or.inr (Or.inl (serverStep_fault hstep))
    · exact Or.inl (hdisabled hstep)
  | retest w =>
    simp only [Serving.step] at hstep
    split at hstep
    · exact Or.inr (Or.inl (serverStep_fault hstep))
    · exact Or.inl (hdisabled hstep)
  | tcpRecv w recvs =>
    simp only [Serving.step] at hstep
    split at hstep
    · rename_i p hs
      unfold Serving.afterRecv at hstep
      split at hstep
      · exact Or.inl (hdisabled hstep)
      · rename_i ret buf e hrecv
        split at hstep
        · cases hstep
        · rename_i hret
          have hq : Serving.requests s w = none := by
            unfold Serving.requests
            rw [hs]
            rfl
          rcases receive_keeps h.logic buf hq with ⟨hshort, herror⟩ | ⟨-, y, hok, -⟩
          · -- what has been received is in what has been sent
            have hreceive : (testBFProcessor W o compute).receive s.shared w buf
                = .error .outOfBounds := herror
            have hholds : Holds s w p := by
              rw [Holds, hs]
              rfl
            have hsettled := h.conns.busy w p hholds
            rw [hs] at hsettled
            obtain ⟨hframe, -, hsize⟩ := tcpRecv_takes_frame hrecv hret
            have htaken := hsettled.1.receive hframe hsize
            dsimp only at hstep
            rw [hreceive] at hstep
            cases hstep
            exact Or.inr (Or.inr ⟨rfl, w, recvs, rfl, p, buf, _, hholds, h.alive hholds,
              htaken.frames, hshort⟩)
          · have hreceive : (testBFProcessor W o compute).receive s.shared w buf
                = .ok (y, .going) := hok
            dsimp only at hstep
            rw [hreceive] at hstep
            cases hstep
    · exact Or.inl (hdisabled hstep)
  | work w e =>
    simp only [Serving.step] at hstep
    split at hstep
    · rename_i p packet hs
      have hq : Serving.requests s w = some packet := by
        unfold Serving.requests
        rw [hs]
        rfl
      have hkeeps := work_keeps h.logic e hq
      have hwork : (testBFProcessor W o compute).work s.shared w e = work o s.shared w e := rfl
      rw [hwork] at hstep
      unfold Serving.proceed at hstep
      split at hstep
      · cases hstep
      · rename_i g hg
        cases hstep
        rw [hg] at hkeeps
        exact Or.inl hkeeps
    · exact Or.inl (hdisabled hstep)
  | outside d =>
    simp only [Serving.step] at hstep
    split at hstep
    · cases hstep
    · rename_i g hg
      cases hstep
      exact Or.inl (answer_fault hg)
  | tcpSend w sends =>
    simp only [Serving.step] at hstep
    split at hstep
    · unfold Serving.afterSend at hstep
      split at hstep
      · exact Or.inl (hdisabled hstep)
      · dsimp only at hstep
        split at hstep <;> cases hstep
    · exact Or.inl (hdisabled hstep)
  | insertServerReuseSocket w sendOk =>
    simp only [Serving.step] at hstep
    split at hstep
    · exact Or.inr (Or.inl (serverStep_fault hstep))
    · exact Or.inl (hdisabled hstep)
  | close w =>
    simp only [Serving.step] at hstep
    split at hstep
    · exact Or.inr (Or.inl (serverStep_fault hstep))
    · exact Or.inl (hdisabled hstep)

/-- The worker is about to forget the connection to the first backend. -/
def Local.strands : Local → Bool
  | .close _ (some _) => true
  | _ => false

/-- How many workers are. -/
def stranding (x : Shared W) : Nat := (Finset.univ.filter fun w => (x.locals w).strands = true).card

/-- One if the step is a call to the second backend that fails: `MakeConnection`, or `TCPSend`. -/
def missesSecond (o : ByteOrder) (x : Shared W) (w : W) (e : Work) : Nat :=
  match x.locals w, e with
  | .make _ (some _), .makeConnection conn =>
    if (Client.makeConnection bb2Addr.ip bb2Addr.port conn).isNone then 1 else 0
  | .send req (some _) sk, .tcpSend sends =>
    match x.backend sk.ptr with
    | none => 0
    | some c =>
      match AllSync.tcpSend (some (lvFrame o (Numbered.bytes o ⟨12, req.seq, req.b⟩)))
        ⟨sends, c.toBackend⟩ with
      | some (ret, _) => if ret < 0 then 1 else 0
      | none => 0
  | _, _ => 0

def misses (o : ByteOrder) (s : Service W (Shared W)) : Event W Work Answer → Nat
  | .work w e => missesSecond o s.shared w e
  | _ => 0

/-- The descriptor that the step leaves open: that of a `MakeConnection`, for either backend, which
fails once `socket()` has given it. -/
def Work.leftOpen : Work → List Nat
  | .makeConnection conn => conn.leftOpen.toList
  | _ => []

/-- The descriptors that an event of the service leaves open. -/
def leftOpenBy : Event W Work Answer → List Nat
  | .work _ e => e.leftOpen
  | _ => []

/-- A worker that is about to forget a connection counts for one. -/
def Local.weight (l : Local) : Nat := if l.strands = true then 1 else 0

theorem stranding_update (x y : Shared W) (w : W) (l : Local)
    (hy : y.locals = Function.update x.locals w l) :
    stranding y + (x.locals w).weight = stranding x + l.weight := by
  have hsum : ∀ z : Shared W, stranding z = ∑ v, (z.locals v).weight :=
    fun z => Finset.card_filter _ _
  have hupdate : (fun v => (y.locals v).weight)
      = Function.update (fun v => (x.locals v).weight) w l.weight := by
    funext v
    by_cases hv : v = w
    · subst hv
      simp [hy]
    · simp [hy, hv]
  rw [hsum, hsum, hupdate, Finset.sum_update_of_mem (Finset.mem_univ w),
    Finset.sum_eq_add_sum_sdiff_singleton_of_mem (Finset.mem_univ w)]
  omega

omit [Fintype W] in
/-- A `TCPRecv` leaks nothing. -/
theorem tcpRecv_account {x y : Shared W} {w : W} {sk : ClientSocket} {both : List ClientSocket}
    {next : Word → Local} {recvs : List RecvResult} {out : Outcome}
    (hnext : ∀ v, (next v).weight = 0) (h : tcpRecv o x w sk both next recvs = .ok (y, out)) :
    ∃ l, y.locals = Function.update x.locals w l ∧ y.leaked = x.leaked ∧
      y.leftOpen = x.leftOpen ∧ l.weight = 0 := by
  unfold tcpRecv at h
  split at h
  · cases h
  · dsimp only at h
    split at h
    · cases h
    · split at h
      · cases h
        exact ⟨_, rfl, rfl, rfl, rfl⟩
      · split at h
        · cases h
        · cases h
          exact ⟨_, rfl, rfl, rfl, hnext _⟩

omit [Fintype W] in
/-- **What a step of a worker adds to the leaks**, counting those that are about to happen. -/
theorem work_account {x y : Shared W} {w : W} {e : Work} {out : Outcome}
    (h : work o x w e = .ok (y, out)) : ∃ l lost, y.locals = Function.update x.locals w l ∧
      y.leaked = x.leaked ++ lost ∧ y.leftOpen = x.leftOpen ++ e.leftOpen ∧
        lost.length + l.weight = (x.locals w).weight + missesSecond o x w e := by
  have hnil : x.leaked = x.leaked ++ [] := (List.append_nil _).symm
  have hkept : x.leftOpen = x.leftOpen ++ [] := (List.append_nil _).symm
  unfold work at h
  unfold missesSecond
  split at h
  · rename_i req first hl
    rw [hl]
    unfold getClientSocket at h
    split at h
    · cases h
    · cases h
      exact ⟨_, [], rfl, hnil, hkept, rfl⟩
    · cases h
      exact ⟨_, [], rfl, hnil, hkept, rfl⟩
  · rename_i req first conn hl
    rw [hl]
    unfold makeConnection at h
    split at h
    · rename_i hconn
      cases h
      refine ⟨_, [], rfl, hnil, rfl, ?_⟩
      cases first with
      | none => rfl
      | some bb1 =>
        have hnone : Client.makeConnection bb2Addr.ip bb2Addr.port conn = none := hconn
        simp [Local.weight, Local.strands, hnone]
    · rename_i sk hconn
      split at h
      · cases h
      · cases h
        have hopen : conn.leftOpen = none := by
          cases conn <;> first | rfl | cases hconn
        refine ⟨_, [], rfl, hnil, ?_, ?_⟩
        · simp [setLocal, setBackend, Work.leftOpen, hopen]
        cases first with
        | none => rfl
        | some bb1 =>
          have hsome : Client.makeConnection bb2Addr.ip bb2Addr.port conn = some sk := hconn
          simp [Local.weight, Local.strands, hsome]
  · rename_i req first sk sends hl
    rw [hl]
    unfold tcpSend at h
    split at h
    · cases h
    · rename_i c hc
      dsimp only at h
      split at h
      · cases h
      · rename_i ret e hsend
        split at h
        · rename_i hret
          cases h
          refine ⟨_, [], rfl, hnil, hkept, ?_⟩
          cases first with
          | none => rfl
          | some bb1 =>
            have hsend' : AllSync.tcpSend (some (lvFrame o (Numbered.bytes o ⟨12, req.seq, req.b⟩)))
                ⟨sends, c.toBackend⟩ = some (ret, e) := hsend
            simp only [hc, hsend', if_pos hret]
            simp [Local.weight, Local.strands]
        · rename_i hret
          cases h
          refine ⟨_, [], rfl, hnil, hkept, ?_⟩
          cases first with
          | none => rfl
          | some bb1 =>
            have hsend' : AllSync.tcpSend (some (lvFrame o (Numbered.bytes o ⟨12, req.seq, req.b⟩)))
                ⟨sends, c.toBackend⟩ = some (ret, e) := hsend
            simp only [hc, hsend', if_neg hret]
            simp [Local.weight, Local.strands, sent]
  · rename_i req bb1 bb2 ok hl
    rw [hl]
    split at h <;> cases h <;> exact ⟨_, [], rfl, hnil, hkept, rfl⟩
  · rename_i req bb1 bb2 recvs hl
    rw [hl]
    obtain ⟨l, hlocals, hleaked, hopen, hweight⟩ := tcpRecv_account (fun _ => rfl) h
    exact ⟨l, [], hlocals, hleaked.trans hnil, hopen.trans hkept, (Nat.zero_add _).trans hweight⟩
  · rename_i req bb1 bb2 recvA recvs hl
    rw [hl]
    obtain ⟨l, hlocals, hleaked, hopen, hweight⟩ := tcpRecv_account (fun _ => rfl) h
    exact ⟨l, [], hlocals, hleaked.trans hnil, hopen.trans hkept, (Nat.zero_add _).trans hweight⟩
  · rename_i req bb1 bb2 recvA recvB hl
    rw [hl]
    unfold insertClientSocket at h
    split at h
    · cases h
    · cases h
      exact ⟨_, [], rfl, hnil, hkept, rfl⟩
  · rename_i req bb2 recvA recvB hl
    rw [hl]
    unfold insertClientSocket at h
    split at h
    · cases h
    · cases h
      exact ⟨_, [], rfl, hnil, hkept, rfl⟩
  · rename_i sk rest first hl
    rw [hl]
    unfold close at h
    split at h
    · cases h
    · cases h
      cases first <;> exact ⟨_, [], rfl, hnil, hkept, rfl⟩
  · rename_i first hl
    rw [hl]
    cases h
    refine ⟨_, first.toList, rfl, rfl, hkept, ?_⟩
    cases first <;> rfl
  · cases h

/-- **What a step of the service adds to the leaks.** -/
theorem step_account {s t : Service W (Shared W)} {e : Event W Work Answer}
    (h : ServiceInv o compute s)
    (hstep : stepGateway o compute poolIndex s e = .ok t) :
    t.shared.leftOpen = s.shared.leftOpen ++ leftOpenBy e ∧
      ∃ lost, t.shared.leaked = s.shared.leaked ++ lost ∧
        lost.length + stranding t.shared = stranding s.shared + misses o s e := by
  have hsame : t.shared = s.shared → leftOpenBy e = [] → misses o s e = 0 →
      t.shared.leftOpen = s.shared.leftOpen ++ leftOpenBy e ∧
        ∃ lost, t.shared.leaked = s.shared.leaked ++ lost ∧
          lost.length + stranding t.shared = stranding s.shared + misses o s e := by
    intro hshared hopen hmisses
    refine ⟨by rw [hshared, hopen, List.append_nil], [], by rw [hshared, List.append_nil], ?_⟩
    rw [hshared, hmisses]
    exact Nat.zero_add _
  cases e with
  | work w e =>
    simp only [Serving.step] at hstep
    split at hstep
    · unfold Serving.proceed at hstep
      split at hstep
      · rename_i y out hwork
        cases hstep
        obtain ⟨l, lost, hlocals, hleaked, hopen, hcount⟩ := work_account hwork
        have hstranding := stranding_update s.shared y w l hlocals
        refine ⟨hopen, lost, hleaked, ?_⟩
        show lost.length + stranding y = _ + missesSecond o s.shared w e
        omega
      · cases hstep
    · cases hstep
  | tcpRecv w recvs =>
    simp only [Serving.step] at hstep
    split at hstep
    · rename_i p hs
      unfold Serving.afterRecv at hstep
      split at hstep
      · cases hstep
      · rename_i ret buf e hrecv
        dsimp only at hstep
        split at hstep
        · cases hstep
          exact hsame rfl rfl rfl
        · -- the worker was not in the business logic, and has no connection yet
          have hq : Serving.requests s w = none := by
            unfold Serving.requests
            rw [hs]
            rfl
          have hout : s.shared.locals w = .out := by
            have hfor := h.logic.locals w
            rw [hq] at hfor
            exact hfor
          unfold Serving.proceed at hstep
          split at hstep
          · rename_i y out hreceive
            cases hstep
            obtain ⟨req, hlocals, hleaked, hopen⟩ := receive_locals hreceive
            have hstranding := stranding_update s.shared y w _ hlocals
            rw [hout] at hstranding
            exact ⟨hopen.trans (List.append_nil _).symm, [], hleaked.trans (List.append_nil _).symm,
              (Nat.zero_add _).trans hstranding⟩
          · cases hstep
    · cases hstep
  | outside d =>
    simp only [Serving.step] at hstep
    split at hstep
    · rename_i y hy
      cases hstep
      obtain ⟨hlocals, hleaked, hopen⟩ := answer_locals hy
      refine ⟨hopen.trans (List.append_nil _).symm, [], hleaked.trans (List.append_nil _).symm, ?_⟩
      show 0 + stranding y = _
      rw [Nat.zero_add, stranding, hlocals]
      rfl
    · cases hstep
  | server a =>
    simp only [Serving.step] at hstep
    split at hstep
    · split at hstep
      · cases hstep
        exact hsame rfl rfl rfl
      · cases hstep
    · cases hstep
  | clientSend p bytes =>
    cases hstep
    exact hsame rfl rfl rfl
  | tcpSend w sends =>
    simp only [Serving.step] at hstep
    split at hstep
    · unfold Serving.afterSend at hstep
      split at hstep
      · cases hstep
      · dsimp only at hstep
        split at hstep <;> cases hstep <;> exact hsame rfl rfl rfl
    · cases hstep
  | getServerReadySocket w | retest w | insertServerReuseSocket w | close w =>
    simp only [Serving.step] at hstep
    split at hstep
    · obtain ⟨u, -, rfl⟩ := Serving.serverStep_ok hstep
      exact hsame rfl rfl rfl
    · cases hstep

/-- **What the gateway leaks.**  In every state of every run there is a `Socket` for a backend
exactly when it is in one place: in the pool, in the hands of one worker, or leaked.  What has been
leaked stays so, and the leaks, with those of workers that are on their way to the `continue`, are
as many as the calls of `MakeConnection` and `TCPSend` for the second backend that have failed.
Besides, the descriptor of every `MakeConnection`, for either backend, that has failed after
`socket()` stays open without a `Socket`, and no other does. -/
theorem gateway_leaks (n : Nat) (hasUDP : Bool) (es : List (Event W Work Answer))
    (s : Service W (Shared W))
    (hrun : exec (stepGateway o compute poolIndex) (startGateway W n hasUDP) es
      = .ok s) :
    (∀ k, (s.shared.backend k).isSome ↔ ∃! pl, k ∈ occ s.shared pl) ∧
      (∀ t, Visits (stepGateway o compute poolIndex) (startGateway W n hasUDP) es
        t → t.shared.leaked <+: s.shared.leaked) ∧
      s.shared.leaked.length + stranding s.shared
        = tally (stepGateway o compute poolIndex) (misses o)
          (startGateway W n hasUDP) es ∧
      s.shared.leftOpen = es.flatMap leftOpenBy := by
  have hinv := (runGateway_inv hrun).logic
  refine ⟨fun k => ?_, ?_, ?_, ?_⟩
  · rw [← hinv.alive k]
    constructor
    · rintro ⟨pl, hk⟩
      exact ⟨pl, hk, fun pl' hk' => hinv.exclusive.unique pl' pl k hk' hk⟩
    · rintro ⟨pl, hk, -⟩
      exact ⟨pl, hk⟩
  · rintro t ⟨pre, ⟨post, rfl⟩, ht⟩
    obtain ⟨u, hu, hs⟩ := exec_append_ok.mp hrun
    cases ht.symm.trans hu
    -- the leaks only grow from there on
    have hgrow : ServiceInv o compute s ∧ t.shared.leaked <+: s.shared.leaked :=
      Along.invariant (P := fun v => ServiceInv o compute v ∧ t.shared.leaked <+: v.shared.leaked)
        (G := fun _ _ => True) (fun v e v' ⟨hv, hpre⟩ _ hstep => by
          obtain ⟨-, lost, hlost, -⟩ := step_account hv hstep
          exact ⟨stepGateway_inv hv hstep, hpre.trans ⟨lost, hlost.symm⟩⟩)
        ⟨runGateway_inv ht, List.prefix_rfl⟩ (along_of_forall fun _ _ _ => trivial) hs
    exact hgrow.2
  · have hcount := tally_add (misses o) (P := ServiceInv o compute)
      (F := fun v => v.shared.leaked.length + stranding v.shared)
      (fun v e v' hv hstep => stepGateway_inv hv hstep)
      (fun v e v' hv hstep => by
        obtain ⟨-, lost, hlost, hsum⟩ := step_account hv hstep
        show v'.shared.leaked.length + _ = v.shared.leaked.length + _ + _
        rw [hlost, List.length_append]
        omega)
      (Serving.start_inv n hasUDP start_inv) hrun
    have hzero : stranding (start W) = 0 := by
      rw [stranding, Finset.card_eq_zero, Finset.filter_eq_empty_iff]
      rintro w - ⟨⟩
    have hstart : (startGateway W n hasUDP).shared.leaked.length
        + stranding (startGateway W n hasUDP).shared = 0 :=
      (Nat.zero_add _).trans hzero
    rw [hcount, hstart, Nat.zero_add]
  · refine exec_induction (P := fun pre t => t.shared.leftOpen = pre.flatMap leftOpenBy) rfl ?_ hrun
    intro pre e t u _ ht hopen hu
    rw [(step_account (runGateway_inv ht) hu).1, hopen, List.flatMap_append]
    simp

/-- One failure, and the connection to the first backend is left, with a descriptor that has
none. -/
theorem unreachable_leaks : ∃ s, exec stepTwo startTwo unreachable = .ok s ∧
    ((∀ k, (s.shared.backend k).isSome ↔ ∃! pl, k ∈ occ s.shared pl) ∧
      (∀ t, Visits stepTwo startTwo unreachable t → t.shared.leaked <+: s.shared.leaked) ∧
      s.shared.leaked.length + stranding s.shared
        = tally stepTwo (misses .little) startTwo unreachable ∧
      s.shared.leftOpen = unreachable.flatMap leftOpenBy) ∧
    s.shared.leaked.map ClientSocket.ptr = [200] ∧ s.shared.leftOpen = [10] := by
  have hends : (exec stepTwo startTwo unreachable).map
      (fun s => (s.shared.leaked.map ClientSocket.ptr, s.shared.leftOpen)) = .ok ([200], [10]) := by
    decide +kernel
  obtain ⟨s, hs, hend⟩ := map_eq_ok.mp hends
  simp only [Prod.mk.injEq] at hend
  exact ⟨s, hs, gateway_leaks 1 false unreachable s hs, hend⟩

end Kknf.AllSync.Gateway
