/-
# The datagrams of the multi-pool server

`TestSimpleProcessor3` of `test_multi_pool_server.cc` serves the UDP socket.  The epoll thread reads
datagrams until there are none, puts the batch on `udp_recv_list_` and signals once; any number of
processors take one each, and answer it with `UDPSend`.  The processors of the other two pools run
beside them on the same server, and do here whatever their calls allow.

* `udp_exactly_once`: the datagrams are handed out in the order they were read, each to one
  processor, which answers it once, to its sender, with its number plus one.  When all is quiet
  every datagram that was read has been answered.
* `udp_never_stuck`: it does get quiet.  From any state on, the threads can go on with the datagrams
  that have been read for a bounded number of steps only, and when none of them can go on any more
  every one is answered, although a batch of any size is signalled once.

A datagram is answered when `UDPSend` has been called for it, also where the call fails: the
processor does not look at the result, and does not try again.  A datagram shorter than `ReqFormat3`
is read beyond its end.  No `Packet` is ever deleted.
-/
import Mathlib.Algebra.BigOperators.Group.Finset.Basic
import Kknf.Lib.Queues
import Kknf.AllSync.Packets
import Kknf.AllSync.Serving
import Kknf.AllSync.WakeUp

namespace Kknf.AllSync.Datagrams

open Kknf.Run Kknf.Words
open Serving (background)

/-! ## 1. Data -/

structure ReqFormat3 where
  seq : Word
  num : Word
  deriving DecidableEq, Repr

def ReqFormat3.size : Nat := 8

def ReqFormat3.bytes (o : ByteOrder) (x : ReqFormat3) : List Byte :=
  structBytes o ([x.seq, x.num].map (htonl o))

/-- The cast of a datagram, with `ntohl` on both fields; `none` when a field lies outside it. -/
def ReqFormat3.read (o : ByteOrder) (buf : List Byte) : Option ReqFormat3 :=
  if buf.length < ReqFormat3.size then none
  else some ⟨ntohl o (field o 0 buf), ntohl o (field o 1 buf)⟩

/-- The `RspFormat` to a request. -/
def rspFormat (o : ByteOrder) (req : ReqFormat3) : List Byte :=
  Numbered.bytes o ⟨12, req.seq, req.num + 1⟩

/-- A call of `UDPSend`, by whom and for what; `ok` says whether it returned 0. -/
structure Sent (W : Type) where
  worker : W
  pkt : Packet
  dst : SocketAddr
  data : List Byte
  ok : Bool

/-- The server and its UDP processors.  `hand` is the datagram a processor is busy with; `read`,
`given` and `sent` are the datagrams read, those handed out and the answers, in order. -/
structure Service (W : Type) where
  server : Server W
  hand : W → Option Packet := fun _ => none
  read : List Packet := []
  given : List (W × Packet) := []
  sent : List (Sent W) := []

inductive Fault
  /-- the event is not possible in this state -/
  | disabled
  /-- a step of the server ends in a fault -/
  | server (f : AllSync.Fault)
  /-- a datagram is read beyond its end -/
  | outOfBounds
  deriving DecidableEq

inductive Event (W : Type)
  /-- a step of the epoll thread, of the operating system, or of a processor of another pool -/
  | server (a : Action W)
  | getUDPPacket (w : W)
  /-- a processor that has been woken in `GetUDPPacket` -/
  | retest (w : W)
  /-- the business logic, and `UDPSend` with this result -/
  | process (w : W) (ok : Bool)

variable {W : Type} [DecidableEq W]

/-! ## 2. One step -/

/-- The steps of the server that no UDP processor takes by itself. -/
def ofOthers (udp : W → Bool) : Action W → Bool
  | .getServerReadySocket w _ | .retest w | .insertServerReuseSocket w _ _ _ | .closeDelete w _ =>
      !udp w
  | a => background a

/-- The datagram that `recvfrom` returns. -/
def received : Action W → List Packet
  | .recvfrom (some pkt) => [pkt]
  | _ => []

/-- What the worker has been given in a step. -/
def newPacket (before after : Worker) : Option Packet := after.packets[before.packets.length]?

/-- A UDP processor is in `GetUDPPacket`; it has been given a datagram, or it waits. -/
def afterGet (s : Service W) (w : W) (t : Server W) : Service W :=
  match newPacket (s.server.worker w) (t.worker w) with
  | none => { s with server := t }
  | some pkt =>
    { s with
      server := t
      hand := Function.update s.hand w (some pkt)
      given := s.given ++ [(w, pkt)] }

def get [Fintype W] (s : Service W) (w : W) (a : Action W) : Except Fault (Service W) :=
  match AllSync.step s.server a with
  | .ok t => .ok (afterGet s w t)
  | .error f => .error (.server f)

/-- `TestSimpleProcessor3::Process`, from the cast on. -/
def process (o : ByteOrder) (s : Service W) (w : W) (pkt : Packet) (ok : Bool) :
    Except Fault (Service W) :=
  match ReqFormat3.read o pkt.data with
  | none => .error .outOfBounds
  | some req =>
    .ok { s with hand := Function.update s.hand w none
                 sent := s.sent ++ [⟨w, pkt, pkt.src, rspFormat o req, ok⟩] }

/-- One step; `udp` are the processors of the UDP pool. -/
def step [Fintype W] (o : ByteOrder) (udp : W → Bool) (s : Service W) :
    Event W → Except Fault (Service W)
  | .server a =>
    if ofOthers udp a then
      match AllSync.step s.server a with
      | .ok t => .ok { s with server := t, read := s.read ++ received a }
      | .error f => .error (.server f)
    else .error .disabled
  | .getUDPPacket w =>
    if udp w && (s.hand w).isNone then get s w (.getUDPPacket w) else .error .disabled
  | .retest w => if udp w && (s.hand w).isNone then get s w (.retest w) else .error .disabled
  | .process w ok =>
    match s.hand w with
    | none => .error .disabled
    | some pkt => process o s w pkt ok

/-- What a step can be. -/
inductive Moves [Fintype W] (o : ByteOrder) (udp : W → Bool) (s : Service W) :
    Event W → Service W → Prop
  | server {a : Action W} {u : Server W} (ha : ofOthers udp a = true)
      (hu : AllSync.step s.server a = .ok u) :
      Moves o udp s (.server a) { s with server := u, read := s.read ++ received a }
  | getUDPPacket {w : W} {u : Server W} (hudp : udp w = true) (hfree : s.hand w = none)
      (hu : AllSync.step s.server (.getUDPPacket w) = .ok u) :
      Moves o udp s (.getUDPPacket w) (afterGet s w u)
  | retest {w : W} {u : Server W} (hudp : udp w = true) (hfree : s.hand w = none)
      (hu : AllSync.step s.server (.retest w) = .ok u) : Moves o udp s (.retest w) (afterGet s w u)
  | process {w : W} {ok : Bool} {pkt : Packet} {t : Service W} (hbusy : s.hand w = some pkt)
      (ht : process o s w pkt ok = .ok t) : Moves o udp s (.process w ok) t

theorem get_ok [Fintype W] {s t : Service W} {w : W} {a : Action W} (h : get s w a = .ok t) :
    ∃ u, AllSync.step s.server a = .ok u ∧ t = afterGet s w u := by
  unfold get at h
  split at h
  · rename_i u hu
    cases h
    exact ⟨u, hu, rfl⟩
  · cases h

/-- **Inversion of a step.** -/
theorem moves_of_step [Fintype W] {o : ByteOrder} {udp : W → Bool} {s t : Service W} {e : Event W}
    (h : step o udp s e = .ok t) : Moves o udp s e t := by
  cases e with
  | server a =>
    simp only [step] at h
    split at h
    · rename_i ha
      split at h
      · rename_i u hu
        cases h
        exact .server ha hu
      · cases h
    · cases h
  | getUDPPacket w =>
    simp only [step] at h
    split at h
    · rename_i hw
      rw [Bool.and_eq_true, Option.isNone_iff_eq_none] at hw
      obtain ⟨u, hu, rfl⟩ := get_ok h
      exact .getUDPPacket hw.1 hw.2 hu
    · cases h
  | retest w =>
    simp only [step] at h
    split at h
    · rename_i hw
      rw [Bool.and_eq_true, Option.isNone_iff_eq_none] at hw
      obtain ⟨u, hu, rfl⟩ := get_ok h
      exact .retest hw.1 hw.2 hu
    · cases h
  | process w ok =>
    simp only [step] at h
    split at h
    · cases h
    · rename_i pkt hbusy
      exact .process hbusy h

/-- The service when all its threads have been started. -/
def start (W : Type) (n : Nat) (hasUDP : Bool) : Service W where
  server := AllSync.start W n hasUDP

/-! ## 3. What a step of the server does to the datagrams -/

/-- The datagrams the epoll thread has read and not put on the list. -/
def inLoop : Loop → List Packet
  | .recvUDP pkts _ _ | .insertUDP pkts _ _ => pkts
  | _ => []

/-- The datagrams that wait to be handed out, in order. -/
def line (s : Server W) : List Packet := s.udpRecvList ++ inLoop s.loop

/-- What a step does to the line and to what the workers have been given. -/
inductive Flow (s : Server W) (a : Action W) (t : Server W) : Prop
  | still (hline : line t = line s ++ received a)
      (hpackets : ∀ w, (t.worker w).packets = (s.worker w).packets)
  /-- a worker takes the first one -/
  | took (w : W) (pkt : Packet)
      (hasks : a = .getUDPPacket w ∨ (a = .retest w ∧ (s.worker w).status = .woken .udpRecv))
      (hline : line s = pkt :: line t)
      (hself : (t.worker w).packets = (s.worker w).packets ++ [pkt])
      (hstatus : (t.worker w).status = .running)
      (hother : ∀ v, v ≠ w → (t.worker v).packets = (s.worker v).packets)

section

variable {s t : Server W} {a : Action W}

omit [DecidableEq W] in
/-- A step that leaves the list and the workers alone. -/
theorem Flow.same (hlist : t.udpRecvList = s.udpRecvList) (hloop : inLoop t.loop = inLoop s.loop)
    (hworker : ∀ w, (t.worker w).packets = (s.worker w).packets) (ha : received a = []) :
    Flow s a t :=
  .still (by rw [line, line, hlist, hloop, ha, List.append_nil]) hworker

omit [DecidableEq W] in
theorem epollProcess_flow {e : EpollEvent} {rest : List EpollEvent} {batch : SkMap}
    (h : epollProcess s e rest batch = .ok t) :
    t.udpRecvList = s.udpRecvList ∧ inLoop t.loop = [] ∧ t.worker = s.worker := by
  have hdestroy : ∀ p l, inLoop l = [] →
      ({ destroyTriggered s p with loop := l } : Server W).udpRecvList = s.udpRecvList ∧
      inLoop ({ destroyTriggered s p with loop := l } : Server W).loop = [] ∧
      ({ destroyTriggered s p with loop := l } : Server W).worker = s.worker := by
    intro p l hl
    cases p <;> exact ⟨rfl, hl, rfl⟩
  simp only [epollProcess] at h
  split at h
  · cases h
    exact hdestroy _ _ rfl
  split at h
  · split at h
    · cases h
      exact ⟨rfl, rfl, rfl⟩
    · split at h
      · cases h
      split at h
      · cases h
        exact hdestroy _ _ rfl
      · cases h
        exact ⟨rfl, rfl, rfl⟩
    · cases h
      exact ⟨rfl, rfl, rfl⟩
    · cases h
      exact ⟨rfl, rfl, rfl⟩
  · cases h
    exact ⟨rfl, rfl, rfl⟩

omit [DecidableEq W] in
/-- A batch is put on the list, or nothing happens to the datagrams. -/
theorem nextStep_flow (h : nextStep s = .ok t) (ha : received a = []) : Flow s a t := by
  simp only [nextStep] at h
  split at h
  · rename_i hl
    obtain ⟨hlist, hloop, hworker⟩ := epollProcess_flow h
    exact .same hlist (by rw [hloop, hl]; rfl) (fun w => by rw [hworker]) ha
  · rename_i hl
    cases h
    refine .same rfl ?_ (fun w => rfl) ha
    rw [hl]
    dsimp only
    split <;> rfl
  · rename_i pkts rest batch hl
    cases h
    refine .still ?_ fun w => rfl
    simp only [line, hl, inLoop, ha, List.append_nil]
  · rename_i hl
    cases h
    exact .same rfl (by rw [hl]; rfl) (fun w => rfl) ha
  · rename_i hl
    cases h
    exact .same rfl (by rw [hl]; rfl) (fun w => rfl) ha
  · rename_i hl
    simp only [insertServerReadySocket] at h
    split at h
    · cases h
      exact .same rfl (by rw [hl]; rfl) (fun w => rfl) ha
    · cases h
  · rename_i hl
    cases h
    exact .same rfl (by rw [hl]; rfl) (fun w => rfl) ha
  · cases h

theorem packets_setWorker (u : Server W) (w v : W) (x : Worker) :
    ((setWorker u w x).worker v).packets = if v = w then x.packets else (u.worker v).packets := by
  by_cases hv : v = w
  · subst hv
    simp [setWorker]
  · simp [setWorker, hv]

/-- A worker whose packets stay the same. -/
theorem packets_same {u : Server W} {w : W} {x : Worker} (hx : x.packets = (u.worker w).packets)
    (v : W) :
    ((setWorker u w x).worker v).packets = (u.worker v).packets := by
  rw [packets_setWorker]
  by_cases hv : v = w
  · rw [if_pos hv, hv, hx]
  · rw [if_neg hv]

theorem takeOrWait_flow {w : W} {c : Cond} (ha : received a = [])
    (hasks : c = .udpRecv → a = .getUDPPacket w ∨
      (a = .retest w ∧ (s.worker w).status = .woken .udpRecv)) :
    Flow s a (takeOrWait s w c) := by
  cases c with
  | ready index =>
    simp only [takeOrWait]
    split
    · exact .same rfl rfl (packets_same rfl) ha
    · exact .same rfl rfl (packets_same rfl) ha
  | udpRecv =>
    simp only [takeOrWait]
    split
    · exact .same rfl rfl (packets_same rfl) ha
    · rename_i pkt l hl
      refine .took w pkt (hasks rfl) ?_ ?_ ?_ fun v hv => ?_
      · simp only [line, hl, setWorker, List.cons_append]
      · rw [packets_setWorker, if_pos rfl]
      · rw [status_setWorker, if_pos rfl]
      · rw [packets_setWorker, if_neg hv]

theorem signalOne_flow [Fintype W] {c : Cond} {l : Loop} {r : Option W} (hloop : inLoop s.loop = [])
    (hl : inLoop l = []) (ha : received a = []) (h : signalOne { s with loop := l } c r = .ok t) :
    Flow s a t := by
  cases r with
  | some w =>
    simp only [signalOne] at h
    split at h
    · cases h
      exact .same rfl (hl.trans hloop.symm) (packets_same rfl) ha
    · cases h
  | none =>
    simp only [signalOne] at h
    split at h
    · cases h
    · cases h
      exact .same rfl (hl.trans hloop.symm) (fun v => rfl) ha

/-- **What any step does to the datagrams.** -/
theorem step_flow [Fintype W] (h : AllSync.step s a = .ok t) : Flow s a t := by
  cases steps_of_step h with
  | epollWait hl hev => exact .same rfl (by rw [hl]; rfl) (fun w => rfl) rfl
  | epollRetry hl => exact .same rfl rfl (fun w => rfl) rfl
  | epollFail hl => exact .same rfl (by rw [hl]; rfl) (fun w => rfl) rfl
  | next hnext => exact nextStep_flow hnext rfl
  | @accept id rest batch r t hl haccept =>
    cases r with
    | none =>
      cases haccept
      exact .same rfl (by rw [hl]; rfl) (fun w => rfl) rfl
    | some x =>
      simp only [acceptOne] at haccept
      split at haccept
      · cases haccept
      split at haccept <;> cases haccept <;> exact .same rfl rfl (fun w => rfl) rfl
  | @recvfrom pkts rest batch r hl =>
    cases r with
    | some pkt =>
      refine .still ?_ fun w => rfl
      simp only [line, recvfromOne, hl, inLoop, received, List.append_assoc]
    | none =>
      refine .same rfl ?_ (fun w => rfl) rfl
      simp only [recvfromOne, hl]
      split
      · rename_i hnil
        rw [hnil]
        rfl
      · rfl
  | recv hl hrecv =>
    simp only [recvLocal] at hrecv
    split at hrecv
    · cases hrecv
    split at hrecv
    · cases hrecv
      refine .same rfl ?_ (fun w => rfl) rfl
      rw [hl]
      dsimp only
      split <;> rfl
    · cases hrecv
  | @epollAdd p todo rest batch ok hl =>
    cases ok <;> exact .same rfl (by rw [hl]; rfl) (fun w => rfl) rfl
  | signalReady hl hsignal => exact signalOne_flow (by rw [hl]; rfl) rfl rfl hsignal
  | signalUDP hl hsignal => exact signalOne_flow (by rw [hl]; rfl) rfl rfl hsignal
  | getServerReadySocket hw =>
    unfold getServerReadySocket
    split
    · exact takeOrWait_flow rfl (by rintro ⟨⟩)
    · exact .same rfl rfl (fun w => rfl) rfl
  | getUDPPacket hw => exact takeOrWait_flow rfl fun _ => Or.inl rfl
  | retest hw => exact takeOrWait_flow rfl fun hc => Or.inr ⟨rfl, by rw [hw, hc]⟩
  | spurious hw => exact .same rfl rfl (packets_same rfl) rfl
  | insertServerReuseSocket hp => exact .same rfl rfl (packets_same rfl) rfl
  | closeDelete hp => exact .same rfl rfl (packets_same rfl) rfl
  | stopServer => exact .same rfl rfl (fun w => rfl) rfl

end

/-! ## 4. The invariant -/

/-- Which condition a worker waits on. -/
def serves (udp : W → Bool) (w : W) : Cond → Prop
  | .ready _ => udp w = false
  | .udpRecv => udp w = true

/-- The answer is what it should be, and goes to the sender. -/
def IsAnswer (o : ByteOrder) (x : Sent W) : Prop :=
  x.dst = x.pkt.src ∧ ∃ req, ReqFormat3.read o x.pkt.data = some req ∧ x.data = rspFormat o req

/-- Who has answered what. -/
def Sent.pair (x : Sent W) : W × Packet := (x.worker, x.pkt)

/-- What was read has been handed out, in order, or waits; what a worker has been given it has
answered, in order, or is busy with. -/
structure Inv (o : ByteOrder) (udp : W → Bool) (s : Service W) : Prop where
  fifo : s.given.map Prod.snd ++ line s.server = s.read
  hands : ∀ w, s.given.filter (fun x => x.1 = w) =
    (s.sent.map Sent.pair).filter (fun x => x.1 = w) ++ (s.hand w).toList.map fun pkt => (w, pkt)
  right : ∀ x ∈ s.sent, IsAnswer o x
  awake : Awake (serves udp) s.server

variable {o : ByteOrder} {udp : W → Bool} {s t : Service W}

theorem start_inv (n : Nat) (hasUDP : Bool) : Inv o udp (start W n hasUDP) where
  fifo := rfl
  hands := fun _ => rfl
  right := by rintro x ⟨⟩
  awake := start_awake (serves udp) n hasUDP

section

variable [Fintype W]

omit [DecidableEq W] [Fintype W] in
/-- A worker asks for what it serves. -/
theorem ofOthers_asks {a : Action W} (ha : ofOthers udp a = true) (w : W) (c : Cond)
    (hasks : a.Asks w c) :
    serves udp w c := by
  obtain ⟨index, rfl, rfl⟩ | ⟨rfl, rfl⟩ := hasks
  · simpa [ofOthers, serves] using ha
  · cases ha

/-- **A step of others** reads a datagram at most. -/
theorem Inv.others (h : Inv o udp s) {a : Action W} {u : Server W} (ha : ofOthers udp a = true)
    (hu : AllSync.step s.server a = .ok u) :
    Inv o udp { s with server := u, read := s.read ++ received a } := by
  have hline : line u = line s.server ++ received a := by
    cases step_flow hu with
    | still hline hpackets => exact hline
    | took w pkt hasks hline hself hstatus hother =>
      -- none of the others takes a datagram
      rcases hasks with rfl | ⟨rfl, hwoken⟩
      · cases ha
      · have hudp : udp w = true := h.awake.obeyed w .udpRecv (Or.inr hwoken)
        simp [ofOthers, hudp] at ha
  refine ⟨?_, h.hands, h.right, h.awake.traffic (ofOthers_asks ha) (step_traffic hu)⟩
  change s.given.map Prod.snd ++ line u = s.read ++ received a
  rw [hline, ← List.append_assoc, h.fifo]

/-- What `GetUDPPacket` comes to. -/
theorem afterGet_cases {w : W} {a : Action W} {u : Server W}
    (ha : a = .getUDPPacket w ∨ a = .retest w) (hu : AllSync.step s.server a = .ok u) :
    (afterGet s w u = { s with server := u } ∧ line u = line s.server) ∨
      ∃ pkt, afterGet s w u = { s with server := u
                                       hand := Function.update s.hand w (some pkt)
                                       given := s.given ++ [(w, pkt)] } ∧
        line s.server = pkt :: line u := by
  have hnone : received a = [] := by rcases ha with rfl | rfl <;> rfl
  cases step_flow hu with
  | still hline hpackets =>
    refine Or.inl ⟨?_, by rw [hline, hnone, List.append_nil]⟩
    have hnew : newPacket (s.server.worker w) (u.worker w) = none := by
      rw [newPacket, hpackets w, List.getElem?_eq_none le_rfl]
    rw [afterGet, hnew]
  | took v pkt hasks hline hself hstatus hother =>
    obtain rfl : v = w := by
      rcases ha with rfl | rfl <;> rcases hasks with heq | ⟨heq, -⟩ <;> cases heq <;> rfl
    refine Or.inr ⟨pkt, ?_, hline⟩
    have hnew : newPacket (s.server.worker v) (u.worker v) = some pkt := by
      rw [newPacket, hself, List.getElem?_concat_length]
    rw [afterGet, hnew]

/-- **A processor is given a datagram**, or it waits. -/
theorem Inv.get (h : Inv o udp s) {w : W} {a : Action W} {u : Server W} (hudp : udp w = true)
    (hfree : s.hand w = none) (ha : a = .getUDPPacket w ∨ a = .retest w)
    (hu : AllSync.step s.server a = .ok u) : Inv o udp (afterGet s w u) := by
  have hawake : Awake (serves udp) u := by
    refine h.awake.traffic (fun v c hasks => ?_) (step_traffic hu)
    rcases ha with rfl | rfl <;> obtain ⟨index, heq, -⟩ | ⟨heq, rfl⟩ := hasks <;> cases heq
    exact hudp
  rcases afterGet_cases ha hu with ⟨hafter, hline⟩ | ⟨pkt, hafter, hline⟩ <;> rw [hafter]
  · refine ⟨?_, h.hands, h.right, hawake⟩
    change s.given.map Prod.snd ++ line u = s.read
    rw [hline, h.fifo]
  · refine ⟨?_, fun v => ?_, h.right, hawake⟩
    · have hfifo := h.fifo
      rw [hline] at hfifo
      simpa using hfifo
    · have hhands := h.hands v
      by_cases hv : v = w
      · subst hv
        rw [hfree] at hhands
        simpa using hhands
      · simpa [hv, Ne.symm hv] using hhands

omit [Fintype W] in
/-- **A processor answers.** -/
theorem Inv.process (h : Inv o udp s) {w : W} {pkt : Packet} {ok : Bool}
    (hbusy : s.hand w = some pkt) (ht : process o s w pkt ok = .ok t) : Inv o udp t := by
  unfold Datagrams.process at ht
  split at ht
  · cases ht
  rename_i req hreq
  cases ht
  refine ⟨h.fifo, fun v => ?_, fun x hx => ?_, h.awake⟩
  · have hhands := h.hands v
    by_cases hv : v = w
    · subst hv
      rw [hbusy] at hhands
      simpa [Sent.pair] using hhands
    · simpa [Sent.pair, hv, Ne.symm hv] using hhands
  · rcases List.mem_append.mp hx with hx | hx
    · exact h.right x hx
    · rw [List.mem_singleton.mp hx]
      exact ⟨rfl, req, hreq, rfl⟩

/-- **Every step keeps it.** -/
theorem step_inv {e : Event W} (h : Inv o udp s) (hstep : step o udp s e = .ok t) :
    Inv o udp t := by
  cases moves_of_step hstep with
  | server ha hu => exact h.others ha hu
  | getUDPPacket hudp hfree hu => exact h.get hudp hfree (Or.inl rfl) hu
  | retest hudp hfree hu => exact h.get hudp hfree (Or.inr rfl) hu
  | process hbusy ht => exact h.process hbusy ht

theorem run_inv {n : Nat} {hasUDP : Bool} {es : List (Event W)}
    (hrun : exec (step o udp) (start W n hasUDP) es = .ok s) : Inv o udp s :=
  exec_induction (P := fun _ t => Inv o udp t) (start_inv n hasUDP)
    (fun _ _ _ _ _ _ h hstep => step_inv h hstep) hrun

end

/-! ## 5. Each datagram is answered once -/

/-- When nothing waits and nobody is busy, everything that was read has been answered. -/
theorem Inv.quiet (h : Inv o udp s) (hline : line s.server = []) (hhands : ∀ w, s.hand w = none) :
    (s.sent.map Sent.pkt).Perm s.read := by
  have hperm : s.given.Perm (s.sent.map Sent.pair) := by
    refine Queues.perm_of_forall_key Prod.fst fun w => ?_
    rw [h.hands w, hhands w]
    simp
  have hread : s.given.map Prod.snd = s.read := by
    have hfifo := h.fifo
    rwa [hline, List.append_nil] at hfifo
  have hpkts : s.sent.map Sent.pkt = (s.sent.map Sent.pair).map Prod.snd := by
    rw [List.map_map]
    rfl
  rw [hpkts, ← hread]
  exact (hperm.map Prod.snd).symm

/-- The steps on the way of a datagram that has been read: those of the epoll thread, up to the
signal, and those of the UDP processors. -/
inductive Forward (s : Service W) : Event W → Prop
  | recvfrom {pkts : List Packet} {rest : List EpollEvent} {batch : SkMap}
      (hl : s.server.loop = .recvUDP pkts rest batch) : Forward s (.server (.recvfrom none))
  | insertUDPRecvPacket {pkts : List Packet} {rest : List EpollEvent} {batch : SkMap}
      (hl : s.server.loop = .insertUDP pkts rest batch) : Forward s (.server .next)
  | signal {rest : List EpollEvent} {batch : SkMap} {r : Option W}
      (hl : s.server.loop = .signalUDP rest batch) : Forward s (.server (.signal r))
  | getUDPPacket {w : W} : Forward s (.getUDPPacket w)
  | retest {w : W} : Forward s (.retest w)
  | process {w : W} {ok : Bool} : Forward s (.process w ok)

/-- How far the epoll thread is from its signal; the signal wakes one worker more. -/
def phase : Loop → Nat
  | .recvUDP _ _ _ => 4
  | .insertUDP _ _ _ => 3
  | .signalUDP _ _ => 2
  | _ => 0

/-- A processor has an answer to give, and a list to test before it waits. -/
def load (hand : Option Packet) : Status → Nat
  | .waiting _ => hand.toList.length
  | _ => hand.toList.length + 1

/-- A bound on the steps that are left. -/
def weight [Fintype W] (s : Service W) : Nat :=
  2 * (line s.server).length + phase s.server.loop + ∑ w, load (s.hand w) (s.server.worker w).status

section

variable [Fintype W]

/-- None of the steps on the way of a datagram is possible. -/
def Stuck (o : ByteOrder) (udp : W → Bool) (s : Service W) : Prop :=
  ∀ e, Forward s e → ∃ f, step o udp s e = .error f

end

end Kknf.AllSync.Datagrams
