/-
# The UDP send queue of `aanf/asio-based2`

`UDPToWrite` appends a datagram to the list of the socket and, when no send is under way, hands
the front of the list to `async_send_to`; `HandleUDPWrite` runs when that send has ended and hands
over the front of the list again.  `DeleteSendBufListFront` exists but is called by neither, so the
front never changes: the first completion already sends the first datagram a second time.

`queue_fifo_iff` is the exact extent of that: the queue does what it is for in every state of a run
if and only if the run contains no completion at all.
-/
import Kknf.Lib.Run
import Kknf.Lib.Bytes

namespace Kknf.Asio2.UDP

open Kknf.Run

/-! ## 1. The socket and its two functions -/

/-- `boost::asio::ip::udp::endpoint`. -/
structure UDPEndpoint where
  address : Nat
  port : Nat
  deriving DecidableEq, Repr

/-- An item of `send_buf_list_`.  `seq` numbers the accepted datagrams and is read by nothing: it
tells two datagrams with the same contents apart. -/
structure Datagram where
  endpoint : UDPEndpoint
  buf : List Byte
  seq : Nat
  deriving DecidableEq, Repr

/-- The send side of `UDPSocketInfo`. -/
structure UDPSocketInfo where
  maxLengthOfSendBufList : Nat := 100
  inUse : Bool := false
  sendBufList : List Datagram := []

/-- The socket, the sends under way, and what has happened so far: the datagrams accepted by
`UDPToWrite` and the ones handed to `async_send_to`, in order, and how many sends have ended. -/
structure Sender where
  socket : UDPSocketInfo
  outstanding : List Datagram := []
  accepted : List Datagram := []
  handed : List Datagram := []
  completed : Nat := 0

/-- `AddSendBuf`: -1 when the list is full. -/
def addSendBuf (k : UDPSocketInfo) (d : Datagram) : UDPSocketInfo × Int :=
  if k.sendBufList.length = k.maxLengthOfSendBufList then (k, -1)
  else ({ k with sendBufList := k.sendBufList ++ [d] }, 0)

/-- `DeleteSendBufListFront`. -/
def deleteSendBufListFront (k : UDPSocketInfo) : UDPSocketInfo :=
  { k with sendBufList := k.sendBufList.tail }

/-- `async_send_to`. -/
def asyncSendTo (s : Sender) (d : Datagram) : Sender :=
  { s with outstanding := s.outstanding ++ [d], handed := s.handed ++ [d] }

/-- `UDPToWrite`. -/
def udpToWrite (s : Sender) (endpoint : UDPEndpoint) (buf : List Byte) : Sender × Int :=
  let d : Datagram := ⟨endpoint, buf, s.accepted.length⟩
  let r := addSendBuf s.socket d
  if r.2 < 0 then (s, -1)
  else
    let s' := { s with socket := r.1, accepted := s.accepted ++ [d] }
    if r.1.inUse then (s', 0)
    else
      match r.1.sendBufList with
      | [] => (s', 0)
      | front :: _ => ({ asyncSendTo s' front with socket := { r.1 with inUse := true } }, 0)

/-- Why a step does not lead to a next state. -/
inductive Fault
  /-- no send is under way -/
  | disabled
  /-- `BOOST_ASSERT(udp_socket_->in_use())` -/
  | assertInUse
  deriving DecidableEq, Repr

/-- `HandleUDPWrite`; neither the error nor the number of bytes is looked at. -/
def handleUDPWrite (s : Sender) : Except Fault Sender :=
  match s.socket.sendBufList with
  | front :: _ => .ok (asyncSendTo s front)
  | [] =>
    if s.socket.inUse then .ok { s with socket := { s.socket with inUse := false } }
    else .error .assertInUse

/-- One event of a run. -/
inductive Event
  | udpToWrite (endpoint : UDPEndpoint) (buf : List Byte)
  /-- the send handed over first ends, with or without an error -/
  | sent (error : Bool) (byteNum : Nat)
  deriving DecidableEq, Repr

def step (s : Sender) : Event → Except Fault Sender
  | .udpToWrite endpoint buf => .ok (udpToWrite s endpoint buf).1
  | .sent _ _ =>
    match s.outstanding with
    | [] => .error .disabled
    | _ :: rest =>
      handleUDPWrite { s with outstanding := rest, completed := s.completed + 1 }

/-- A socket with an empty list of at most `max` datagrams. -/
def start (max : Nat) : Sender := { socket := { maxLengthOfSendBufList := max } }

/-! ## 2. What the queue is for -/

/-- The datagrams handed over are the accepted ones, in order and each once, and all of them when no
send is under way; at most one send is under way, and `in_use` says whether one is; a datagram is
refused only when as many accepted ones as the list may hold have not been sent yet. -/
structure FIFO (s : Sender) : Prop where
  handed_in_order : s.handed <+: s.accepted
  all_handed : s.outstanding = [] → s.handed = s.accepted
  one_outstanding : s.outstanding.length ≤ 1
  inUse_iff : s.socket.inUse = true ↔ s.outstanding ≠ []
  refused_when_full : ∀ endpoint buf, (udpToWrite s endpoint buf).2 = -1 →
    s.socket.maxLengthOfSendBufList ≤ s.accepted.length - s.completed

/-- The event is no completion of a send. -/
def NoCompletion : Event → Prop
  | .udpToWrite _ _ => True
  | .sent _ _ => False

instance (e : Event) : Decidable (NoCompletion e) := by
  cases e <;> unfold NoCompletion <;> infer_instance

/-! ## 3. Before the first completion -/

/-- Before the first completion the list holds everything that was accepted, numbered in order, and
its front is the one datagram handed over. -/
structure Fresh (s : Sender) : Prop where
  list_eq : s.socket.sendBufList = s.accepted
  numbered : s.accepted.map Datagram.seq = List.range s.accepted.length
  handed_eq : s.handed = s.accepted.take 1
  outstanding_eq : s.outstanding = s.accepted.take 1
  inUse_eq : s.socket.inUse = !s.accepted.isEmpty
  completed_eq : s.completed = 0

theorem start_fresh (max : Nat) : Fresh (start max) := ⟨rfl, rfl, rfl, rfl, rfl, rfl⟩

/-- A full list: the datagram is refused. -/
theorem udpToWrite_full {s : Sender} (endpoint : UDPEndpoint) (buf : List Byte)
    (h : s.socket.sendBufList.length = s.socket.maxLengthOfSendBufList) :
    udpToWrite s endpoint buf = (s, -1) := by
  simp [udpToWrite, addSendBuf, h]

/-- A send is under way: the datagram waits. -/
theorem udpToWrite_busy {s : Sender} (endpoint : UDPEndpoint) (buf : List Byte)
    (h : s.socket.sendBufList.length ≠ s.socket.maxLengthOfSendBufList)
    (hu : s.socket.inUse = true) :
    let d : Datagram := ⟨endpoint, buf, s.accepted.length⟩
    udpToWrite s endpoint buf =
      ({ s with socket := { s.socket with sendBufList := s.socket.sendBufList ++ [d] },
                accepted := s.accepted ++ [d] }, 0) := by
  simp [udpToWrite, addSendBuf, h, hu]

/-- No send is under way and the list is empty: the datagram is handed over. -/
theorem udpToWrite_idle {s : Sender} (endpoint : UDPEndpoint) (buf : List Byte)
    (h : s.socket.sendBufList.length ≠ s.socket.maxLengthOfSendBufList)
    (hu : s.socket.inUse = false) (hl : s.socket.sendBufList = []) :
    let d : Datagram := ⟨endpoint, buf, s.accepted.length⟩
    udpToWrite s endpoint buf =
      ({ asyncSendTo { s with accepted := s.accepted ++ [d] } d with
          socket := { s.socket with inUse := true, sendBufList := [d] } }, 0) := by
  have hroom : ¬ 0 = s.socket.maxLengthOfSendBufList := by simpa [hl] using h
  simp [udpToWrite, addSendBuf, hl, hroom, hu, asyncSendTo]

theorem Fresh.fifo {s : Sender} (h : Fresh s) : FIFO s where
  handed_in_order := by
    rw [h.handed_eq]
    exact List.take_prefix 1 s.accepted
  all_handed := fun ho => by rw [h.handed_eq, ← h.outstanding_eq, ho, eq_comm,
    ← List.take_eq_nil_iff.mp (h.outstanding_eq ▸ ho) |>.resolve_left one_ne_zero]
  one_outstanding := by
    rw [h.outstanding_eq]
    exact List.length_take_le 1 s.accepted
  inUse_iff := by
    rw [h.inUse_eq, h.outstanding_eq]
    simp
  refused_when_full := fun endpoint buf hr => by
    by_contra hlt
    have hroom : s.socket.sendBufList.length ≠ s.socket.maxLengthOfSendBufList := by
      rw [h.list_eq]
      rw [h.completed_eq] at hlt
      omega
    cases hu : s.socket.inUse with
    | true =>
      rw [udpToWrite_busy endpoint buf hroom hu] at hr
      cases hr
    | false =>
      have hnil : s.socket.sendBufList = [] := by
        rw [h.list_eq]
        simpa [hu] using h.inUse_eq
      rw [udpToWrite_idle endpoint buf hroom hu hnil] at hr
      cases hr

theorem udpToWrite_fresh {s : Sender} (h : Fresh s) (endpoint : UDPEndpoint) (buf : List Byte) :
    Fresh (udpToWrite s endpoint buf).1 := by
  have hnum : (s.accepted ++ [(⟨endpoint, buf, s.accepted.length⟩ : Datagram)]).map Datagram.seq =
      List.range (s.accepted ++ [(⟨endpoint, buf, s.accepted.length⟩ : Datagram)]).length := by
    rw [List.map_append, h.numbered, List.length_append, List.length_singleton, List.range_succ]
    rfl
  by_cases hfull : s.socket.sendBufList.length = s.socket.maxLengthOfSendBufList
  · rw [udpToWrite_full endpoint buf hfull]
    exact h
  have huse := h.inUse_eq
  cases hacc : s.accepted with
  | nil =>
    rw [hacc] at huse
    rw [udpToWrite_idle endpoint buf hfull huse (h.list_eq.trans hacc)]
    refine ⟨by simp [asyncSendTo, hacc], hnum, ?_, ?_, by simp [asyncSendTo], h.completed_eq⟩
    · simp [asyncSendTo, h.handed_eq, hacc]
    · simp [asyncSendTo, h.outstanding_eq, hacc]
  | cons d rest =>
    rw [hacc] at huse
    rw [udpToWrite_busy endpoint buf hfull huse]
    refine ⟨by simp [h.list_eq], hnum, ?_, ?_, by simp [huse], h.completed_eq⟩
    · simp [h.handed_eq, hacc]
    · simp [h.outstanding_eq, hacc]

/-- **The first completion hands the first datagram over again.** -/
theorem sent_not_fifo {s t : Sender} {error : Bool} {byteNum : Nat} (h : Fresh s)
    (hst : step s (.sent error byteNum) = .ok t) : ¬ FIFO t := by
  intro hf
  cases hacc : s.accepted with
  | nil =>
    simp [step, h.outstanding_eq, hacc] at hst
  | cons d rest =>
    have hseq := h.numbered
    simp only [step, h.outstanding_eq, hacc, List.take_succ_cons, List.take_zero,
      handleUDPWrite, h.list_eq, Except.ok.injEq] at hst
    subst hst
    have hpre := hf.handed_in_order
    simp only [asyncSendTo, h.handed_eq, hacc, List.take_succ_cons, List.take_zero,
      List.singleton_append] at hpre
    cases rest with
    | nil => simp at hpre
    | cons d' rest =>
      obtain ⟨-, htail⟩ := List.cons_prefix_cons.mp hpre
      obtain ⟨hdd, -⟩ := List.cons_prefix_cons.mp htail
      rw [hacc, hdd] at hseq
      have hne := List.nodup_range (n := (d' :: d' :: rest).length)
      rw [← hseq] at hne
      simp at hne

/-! ## 4. The queue over whole runs -/

/-- **The send queue keeps its promise exactly until the first completion.**  In a run that
executes, every state passed through is as `FIFO` says if and only if no send ever ends. -/
theorem queue_fifo_iff (max : Nat) (es : List Event) (s : Sender)
    (hrun : exec step (start max) es = .ok s) :
    (∀ t, Visits step (start max) es t → FIFO t) ↔ ∀ e ∈ es, NoCompletion e := by
  rw [← along_iff_forall hrun]
  refine always_iff_along ?_ (fun _ => Fresh.fifo) ?_ (start_fresh max) hrun
  · rintro t (⟨endpoint, buf⟩ | ⟨error, byteNum⟩) u ht hg hu
    · cases hu
      exact udpToWrite_fresh ht endpoint buf
    · exact hg.elim
  · rintro t (⟨endpoint, buf⟩ | ⟨error, byteNum⟩) u ht hg hu
    · exact (hg trivial).elim
    · exact sent_not_fifo ht hu

/-- Two datagrams wait and nothing has ended yet. -/
theorem queue_fifo_two_waiting :
    ∃ s, exec step (start 100) [.udpToWrite ⟨1, 7⟩ [1], .udpToWrite ⟨1, 8⟩ [2]] = .ok s ∧
      s.accepted.length = 2 ∧ FIFO s :=
  ⟨_, rfl, rfl, (queue_fifo_iff 100 [.udpToWrite ⟨1, 7⟩ [1], .udpToWrite ⟨1, 8⟩ [2]] _ rfl).mpr
    (by decide) _ ⟨_, List.prefix_rfl, rfl⟩⟩

/-- Two datagrams are accepted and the first send ends: the first one is handed over again, and the
second one not at all. -/
theorem first_datagram_handed_twice :
    ∃ s, exec step (start 100)
        [.udpToWrite ⟨1, 7⟩ [1], .udpToWrite ⟨1, 8⟩ [2], .sent false 1] = .ok s ∧
      s.accepted = [⟨⟨1, 7⟩, [1], 0⟩, ⟨⟨1, 8⟩, [2], 1⟩] ∧
      s.handed = [⟨⟨1, 7⟩, [1], 0⟩, ⟨⟨1, 7⟩, [1], 0⟩] ∧ ¬ FIFO s := by
  refine ⟨_, rfl, rfl, rfl, fun h => ?_⟩
  have hpre := h.handed_in_order
  revert hpre
  decide

end Kknf.Asio2.UDP
