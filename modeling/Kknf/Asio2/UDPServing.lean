/-
# The UDP programs of `asio-based2`

`udp_bf.cc`, `udp_bb1.cc` and `udp_bb2.cc` put the `ProcessData` of the gateway and of the backends
on the UDP side of the `Skeleton`.  `InitUDPSocket` starts a read; `HandleUDPRead` gives what has
come to `ProcessData` and looks at what it returns.  Only a 3 starts the next read, and a 0 or a 2
is an assertion that fails.  What `ProcessData` sends goes through the queue of `UDP.lean`.

* `read_on_after_three`: whatever the program, and wherever it sends from, a packet is read only
  when `ProcessData` has returned 3 to the one before, and every datagram that is sent is the first
  one that was ever accepted.
* `udp_gateway_asks_bb1_only` and `udp_backend_repeats`: none of the programs returns a 3.  So each
  processes one packet at most.  The gateway never sends anything but the first half of its first
  request, to the first backend, and no client is ever answered.

`ndebug` says whether assertions are compiled out.  The read buffer has `udp_recv_buf_size_` bytes,
which none of the programs sets, and is given to `ProcessData` as a whole; neither the error nor the
number of bytes is looked at, and a read that has failed has read nothing.

Two readings.  `InitUDPSocket` binds a socket that it has not opened, where `bind` fails; what
follows is proved for a `bind` that succeeds, too (`bound`), as it would on an open socket.  And
`async_send_to` is handed the buffer of a local copy of the front of the list, which is gone when
the send begins; here it sends what was in the copy.
-/
import Kknf.Asio2.UDP
import Kknf.Asio2.TestGatewayRuns

namespace Kknf.Asio2.UDPServing

open Kknf.Run Kknf.Words
open UDP (UDPEndpoint Sender Datagram udpToWrite)
open TestGateway (Deployment LD BB Done)

/-! ## 1. The UDP side of the `Skeleton` -/

/-- What a call of `ProcessData` comes to: the value it returns, the state of the program, and its
calls of `UDPToWrite`. -/
structure Processed (σ : Type*) where
  ret : Int
  logic : σ
  out : List (UDPEndpoint × List Byte)

/-- `ProcessData`; the `Word` is what the surroundings choose. -/
abbrev ProcessData (σ φ : Type*) := σ → List Byte → UDPEndpoint → Word → Except φ (Processed σ)

/-- A call of `ProcessData`: the buffer, the sender, and what it returned. -/
structure Record where
  recvBuf : List Byte
  src : UDPEndpoint
  ret : Int
  deriving DecidableEq

/-- A program and its socket; `reading` says whether an `async_receive_from` is under way. -/
structure Node (σ : Type*) where
  logic : σ
  sender : Sender
  reading : Bool
  records : List Record := []

inductive Fault (φ : Type*)
  /-- the event is not possible in this state -/
  | disabled
  /-- `BOOST_ASSERT(false)` in `HandleUDPRead` -/
  | assertFalse
  | processData (f : φ)
  | sender (f : UDP.Fault)
  deriving DecidableEq

inductive Event
  /-- the read ends, with this datagram; a read that fails has no bytes -/
  | received (data : List Byte) (src : UDPEndpoint) (choice : Word)
  /-- a send ends -/
  | sent (error : Bool) (byteNum : Nat)

section

variable {σ φ : Type*}

/-- `InitUDPSocket`; `bound` is what `bind` comes to, on a socket that has not been opened.  The
programs do not look at what it returns. -/
def initUDPSocket (logic : σ) (bound : Bool) : Node σ × Int :=
  let socket : Sender := UDP.start 100
  if bound then (⟨logic, socket, true, []⟩, 0) else (⟨logic, socket, false, []⟩, -1)

/-- `UDPToRead` -/
def udpToRead (s : Node σ) : Node σ := { s with reading := true }

/-- The calls of `UDPToWrite`, one after the other; nobody looks at what they return. -/
def writeAll (s : Sender) (out : List (UDPEndpoint × List Byte)) : Sender :=
  out.foldl (fun s x => (udpToWrite s x.1 x.2).1) s

/-- `recv_buf()` after a read of at most `size` bytes. -/
def recvBuf (size : Nat) (data : List Byte) : List Byte :=
  data.take size ++ List.replicate (size - data.length) 0

def boostAssertFalse (ndebug : Bool) (s : Node σ) : Except (Fault φ) (Node σ) :=
  if ndebug then .ok s else .error .assertFalse

/-- `HandleUDPRead` -/
def handleUDPRead (ndebug : Bool) (processData : ProcessData σ φ) (s : Node σ) (buf : List Byte)
    (src : UDPEndpoint) (choice : Word) : Except (Fault φ) (Node σ) :=
  match processData s.logic buf src choice with
  | .error f => .error (.processData f)
  | .ok p =>
    let t : Node σ := ⟨p.logic, writeAll s.sender p.out, false, s.records ++ [⟨buf, src, p.ret⟩]⟩
    if p.ret < 0 then .ok t
    else if p.ret = 0 then boostAssertFalse ndebug t
    else if p.ret = 1 then .ok t
    else if p.ret = 2 then boostAssertFalse ndebug t
    else if p.ret = 3 then .ok (udpToRead t)
    else boostAssertFalse ndebug t

/-- One event, with a read buffer of `size` bytes. -/
def step (ndebug : Bool) (processData : ProcessData σ φ) (size : Nat) (s : Node σ) :
    Event → Except (Fault φ) (Node σ)
  | .received data src choice =>
    if s.reading then handleUDPRead ndebug processData s (recvBuf size data) src choice
    else .error .disabled
  | .sent error byteNum =>
    match UDP.step s.sender (.sent error byteNum) with
    | .error f => .error (.sender f)
    | .ok sender => .ok { s with sender }

/-- What happens to a program that also has code outside `ProcessData`, such as the handler of a
timer. -/
inductive Action (σ : Type*)
  | event (e : Event)
  /-- that code runs: it leaves the program in this state, and makes these calls of `UDPToWrite` -/
  | program (logic : σ) (out : List (UDPEndpoint × List Byte))

def act (ndebug : Bool) (processData : ProcessData σ φ) (size : Nat) (s : Node σ) :
    Action σ → Except (Fault φ) (Node σ)
  | .event e => step ndebug processData size s e
  | .program logic out => .ok { s with logic, sender := writeAll s.sender out }

/-! ## 2. The send queue -/

/-- The list holds everything that was accepted, and nothing but its front was ever handed over. -/
structure Clogged (s : Sender) : Prop where
  list_eq : s.socket.sendBufList = s.accepted
  handed : ∀ d ∈ s.handed, s.accepted.head? = some d

theorem start_clogged (max : Nat) : Clogged (UDP.start max) := ⟨rfl, by rintro d ⟨⟩⟩

/-- What was handed over is still the front when more has been accepted. -/
theorem head?_append_of {l : List Datagram} {d x : Datagram} (h : l.head? = some d) :
    (l ++ [x]).head? = some d := by
  cases l with
  | nil => cases h
  | cons y l => exact h

/-- **What `UDPToWrite` does**: it refuses the datagram, or the datagram goes to the end of the
list, and when no send is under way the front is handed over. -/
theorem udpToWrite_cases (s : Sender) (endpoint : UDPEndpoint) (buf : List Byte) :
    (udpToWrite s endpoint buf).1 = s ∨
      ∃ t d, (udpToWrite s endpoint buf).1 = t ∧ d.endpoint = endpoint ∧ d.buf = buf ∧
        t.socket.sendBufList = s.socket.sendBufList ++ [d] ∧ t.accepted = s.accepted ++ [d] ∧
        (t.handed = s.handed ∨
          ∃ front, t.socket.sendBufList.head? = some front ∧ t.handed = s.handed ++ [front]) := by
  by_cases hfull : s.socket.sendBufList.length = s.socket.maxLengthOfSendBufList
  · rw [UDP.udpToWrite_full endpoint buf hfull]
    exact Or.inl rfl
  cases hu : s.socket.inUse with
  | true =>
    rw [UDP.udpToWrite_busy endpoint buf hfull hu]
    exact Or.inr ⟨_, ⟨endpoint, buf, s.accepted.length⟩, rfl, rfl, rfl, rfl, rfl, Or.inl rfl⟩
  | false =>
    refine Or.inr ⟨_, ⟨endpoint, buf, s.accepted.length⟩, rfl, rfl, rfl, ?_⟩
    cases hlist : s.socket.sendBufList with
    | nil =>
      rw [UDP.udpToWrite_idle endpoint buf hfull hu hlist]
      exact ⟨rfl, rfl, Or.inr ⟨_, rfl, rfl⟩⟩
    | cons front rest =>
      have hroom : ¬ rest.length + 1 = s.socket.maxLengthOfSendBufList := by
        simpa [hlist] using hfull
      simp [udpToWrite, UDP.addSendBuf, hlist, hroom, hu, UDP.asyncSendTo]

theorem udpToWrite_clogged {s : Sender} (h : Clogged s) (endpoint : UDPEndpoint) (buf : List Byte) :
    Clogged (udpToWrite s endpoint buf).1 := by
  rcases udpToWrite_cases s endpoint buf with heq | ⟨t, x, heq, -, -, hlist, hacc, hhanded⟩ <;>
    rw [heq]
  · exact h
  have hlist' : t.socket.sendBufList = t.accepted := by rw [hlist, hacc, h.list_eq]
  refine ⟨hlist', fun d hd => ?_⟩
  rcases hhanded with hhanded | ⟨front, hfront, hhanded⟩ <;> rw [hhanded] at hd
  · rw [hacc]
    exact head?_append_of (h.handed d hd)
  · rcases List.mem_append.mp hd with hd | hd
    · rw [hacc]
      exact head?_append_of (h.handed d hd)
    · rw [List.mem_singleton.mp hd, ← hlist', hfront]

theorem writeAll_clogged {out : List (UDPEndpoint × List Byte)} {s : Sender} (h : Clogged s) :
    Clogged (writeAll s out) := by
  induction out generalizing s with
  | nil => exact h
  | cons x out ih => exact ih (udpToWrite_clogged h x.1 x.2)

/-- **A completion** hands the front over again. -/
theorem sent_clogged {s t : Sender} {error : Bool} {byteNum : Nat} (h : Clogged s)
    (ht : UDP.step s (.sent error byteNum) = .ok t) : Clogged t ∧ t.accepted = s.accepted := by
  simp only [UDP.step] at ht
  split at ht
  · cases ht
  rename_i d rest hout
  unfold UDP.handleUDPWrite at ht
  split at ht
  · rename_i front l hlist
    cases ht
    have hacc : s.accepted = front :: l := h.list_eq.symm.trans hlist
    refine ⟨⟨h.list_eq, fun x hx => ?_⟩, rfl⟩
    rcases List.mem_append.mp hx with hx | hx
    · exact h.handed x hx
    · rw [List.mem_singleton.mp hx]
      change s.accepted.head? = some front
      rw [hacc]
      rfl
  · split at ht
    · cases ht
      exact ⟨⟨h.list_eq, h.handed⟩, rfl⟩
    · cases ht

/-- The front of what was accepted never changes. -/
theorem writeAll_head {out : List (UDPEndpoint × List Byte)} {s : Sender} {d : Datagram}
    (h : s.accepted.head? = some d) : (writeAll s out).accepted.head? = some d := by
  induction out generalizing s with
  | nil => exact h
  | cons x out ih =>
    refine ih (s := (udpToWrite s x.1 x.2).1) ?_
    rcases udpToWrite_cases s x.1 x.2 with heq | ⟨t, y, heq, -, -, -, hacc, -⟩ <;> rw [heq]
    · exact h
    · rw [hacc]
      exact head?_append_of h

/-- With a new socket, the first datagram is the front. -/
theorem writeAll_start (out : List (UDPEndpoint × List Byte)) :
    (writeAll (UDP.start 100) out).accepted.head? = out.head?.map fun x => ⟨x.1, x.2, 0⟩ := by
  cases out with
  | nil => rfl
  | cons x out => exact writeAll_head (s := (udpToWrite (UDP.start 100) x.1 x.2).1) rfl

/-! ## 3. Whatever the program -/

/-- What holds between two events: 3 has been returned to every packet but the last, and to that one
too if a read is under way. -/
structure Inv (ndebug bound : Bool) (size : Nat) (s : Node σ) : Prop where
  clogged : Clogged s.sender
  three : ∀ x ∈ s.records.dropLast, x.ret = 3
  reading_iff : s.reading = true ↔ bound = true ∧ ∀ x ∈ s.records, x.ret = 3
  whole : ∀ x ∈ s.records, x.recvBuf.length = size
  asserted : ndebug = false → ∀ x ∈ s.records, x.ret < 0 ∨ x.ret = 1 ∨ x.ret = 3

theorem initUDPSocket_inv (logic : σ) (ndebug bound : Bool) (size : Nat) :
    Inv ndebug bound size (initUDPSocket logic bound).1 := by
  have hrecords : (initUDPSocket logic bound).1.records = [] := by cases bound <;> rfl
  have hsender : (initUDPSocket logic bound).1.sender = UDP.start 100 := by cases bound <;> rfl
  have hreading : (initUDPSocket logic bound).1.reading = bound := by cases bound <;> rfl
  refine ⟨by rw [hsender]; exact start_clogged 100, ?_, ?_, ?_, ?_⟩ <;> simp [hrecords, hreading]

theorem recvBuf_length (size : Nat) (data : List Byte) : (recvBuf size data).length = size := by
  simp only [recvBuf, List.length_append, List.length_take, List.length_replicate]
  omega

variable {ndebug bound : Bool} {processData : ProcessData σ φ} {size : Nat} {s t : Node σ}

/-- **What `HandleUDPRead` comes to**, when no assertion fails. -/
theorem handleUDPRead_ok {buf : List Byte} {src : UDPEndpoint} {choice : Word}
    (ht : handleUDPRead ndebug processData s buf src choice = .ok t) :
    ∃ p, processData s.logic buf src choice = .ok p ∧
      t = ⟨p.logic, writeAll s.sender p.out, decide (p.ret = 3), s.records ++ [⟨buf, src, p.ret⟩]⟩ ∧
      (ndebug = false → p.ret < 0 ∨ p.ret = 1 ∨ p.ret = 3) := by
  unfold handleUDPRead at ht
  cases hp : processData s.logic buf src choice with
  | error f =>
    rw [hp] at ht
    cases ht
  | ok p =>
    refine ⟨p, rfl, ?_⟩
    simp only [hp, boostAssertFalse] at ht
    by_cases hthree : p.ret = 3
    · simp only [hthree] at ht
      cases ht
      simp [udpToRead, hthree]
    · cases ndebug <;> grind

/-- A property of all packets, when it holds of the new one too. -/
theorem forall_mem_concat {P : Record → Prop} {l : List Record} {x : Record} (hl : ∀ y ∈ l, P y)
    (hx : P x) :
    ∀ y ∈ l ++ [x], P y := by
  intro y hy
  rcases List.mem_append.mp hy with hy | hy
  · exact hl y hy
  · rw [List.mem_singleton.mp hy]
    exact hx

theorem handleUDPRead_inv {buf : List Byte} {src : UDPEndpoint} {choice : Word}
    (h : Inv ndebug bound size s) (hreading : s.reading = true) (hbuf : buf.length = size)
    (ht : handleUDPRead ndebug processData s buf src choice = .ok t) : Inv ndebug bound size t := by
  obtain ⟨p, -, rfl, hasserted⟩ := handleUDPRead_ok ht
  obtain ⟨hbound, hthree⟩ := h.reading_iff.mp hreading
  refine ⟨writeAll_clogged h.clogged, ?_, ?_, forall_mem_concat h.whole hbuf,
    fun hdebug => forall_mem_concat (h.asserted hdebug) (hasserted hdebug)⟩
  · rw [List.dropLast_concat]
    exact hthree
  · simp only [decide_eq_true_eq, hbound, true_and]
    constructor
    · exact fun hp => forall_mem_concat hthree hp
    · intro hall
      exact hall ⟨buf, src, p.ret⟩ (by simp)

/-- **Every event keeps it.** -/
theorem step_inv {e : Event} (h : Inv ndebug bound size s)
    (ht : step ndebug processData size s e = .ok t) :
    Inv ndebug bound size t := by
  cases e with
  | received data src choice =>
    simp only [step] at ht
    split at ht
    · rename_i hreading
      exact handleUDPRead_inv h hreading (recvBuf_length size data) ht
    · cases ht
  | sent error byteNum =>
    simp only [step] at ht
    split at ht
    · cases ht
    · rename_i sender hsent
      cases ht
      exact ⟨(sent_clogged h.clogged hsent).1, h.three, h.reading_iff, h.whole, h.asserted⟩

theorem act_inv {a : Action σ} (h : Inv ndebug bound size s)
    (ht : act ndebug processData size s a = .ok t) : Inv ndebug bound size t := by
  cases a with
  | event e => exact step_inv h ht
  | program logic out =>
    cases ht
    exact ⟨writeAll_clogged h.clogged, h.three, h.reading_iff, h.whole, h.asserted⟩

/-- **A packet is read only after a 3**, and nothing but the first datagram is ever sent: in every
run of any program on the UDP side of the `Skeleton`, wherever it calls `UDPToWrite`, `ProcessData`
has returned 3 to every packet but the last, a read is under way exactly when it has returned 3 to
that one too, it is always given the whole buffer, it has returned no 0 and no 2 unless assertions
are compiled out, and every datagram handed to `async_send_to` is the first one that `UDPToWrite`
accepted. -/
theorem read_on_after_three {logic : σ} {as : List (Action σ)}
    (hrun : exec (act ndebug processData size) (initUDPSocket logic bound).1 as = .ok s) :
    (∀ x ∈ s.records.dropLast, x.ret = 3) ∧
      (s.reading = true ↔ bound = true ∧ ∀ x ∈ s.records, x.ret = 3) ∧
      (∀ x ∈ s.records, x.recvBuf.length = size) ∧
      (ndebug = false → ∀ x ∈ s.records, x.ret < 0 ∨ x.ret = 1 ∨ x.ret = 3) ∧
      ∀ d ∈ s.sender.handed, s.sender.accepted.head? = some d := by
  have hinv : Inv ndebug bound size s := by
    refine exec_induction (P := fun _ t => Inv ndebug bound size t)
      (initUDPSocket_inv logic ndebug bound size) ?_ hrun
    intro _ _ _ _ _ _ h hstep
    exact act_inv h hstep
  exact ⟨hinv.three, hinv.reading_iff, hinv.whole, hinv.asserted, hinv.clogged.handed⟩

/-- A program that sends each packet back, and returns 3. -/
def echo : ProcessData Unit Unit := fun _ buf src _ => .ok ⟨3, (), [(src, buf)]⟩

/-- The program sends a datagram of its own, and then reads two packets. -/
def helloThenEcho : List (Action Unit) :=
  [.program () [(⟨1, 5⟩, [9])], .event (.received [1] ⟨1, 7⟩ 0),
    .event (.received [2, 2, 2] ⟨1, 8⟩ 0),
    .event (.sent false 1)]

/-- Both are sent back, but when the send ends it is the program's own datagram that is sent once
more. -/
theorem echo_repeats_first : ∃ s,
    exec (act false echo 2) (initUDPSocket () true).1 helloThenEcho = .ok s ∧
      s.records = [⟨[1, 0], ⟨1, 7⟩, 3⟩, ⟨[2, 2], ⟨1, 8⟩, 3⟩] ∧
      s.sender.handed.map (fun g => g.endpoint) = [⟨1, 5⟩, ⟨1, 5⟩] ∧
      s.reading = true ∧
      ∀ g ∈ s.sender.handed, s.sender.accepted.head? = some g := by
  have hends : (exec (act false echo 2) (initUDPSocket () true).1 helloThenEcho).map
      (fun s => (s.records, s.sender.handed.map fun g => g.endpoint)) =
        .ok ([⟨[1, 0], ⟨1, 7⟩, 3⟩, ⟨[2, 2], ⟨1, 8⟩, 3⟩], [⟨1, 5⟩, ⟨1, 5⟩]) := by decide +kernel
  obtain ⟨s, hs, hend⟩ := map_eq_ok.mp hends
  obtain ⟨hrecords, hhanded⟩ := Prod.mk.inj hend
  obtain ⟨-, hreading, -, -, hfirst⟩ := read_on_after_three hs
  have hthree : ∀ x ∈ s.records, x.ret = 3 := by simp [hrecords]
  exact ⟨s, hs, hrecords, hhanded, hreading.mpr ⟨rfl, hthree⟩, hfirst⟩

/-! ## 4. Programs that never return 3 -/

/-- The one packet that such a program processes, and what comes of it. -/
structure OnePacket (processData : ProcessData σ φ) (logic : σ) (size : Nat)
    (s : Node σ) : Prop where
  reading : s.reading = false
  clogged : Clogged s.sender
  processed : ∃ buf src choice p, buf.length = size ∧ processData logic buf src choice = .ok p ∧
    s.records = [⟨buf, src, p.ret⟩] ∧
    s.sender.accepted.head? = p.out.head?.map fun x => ⟨x.1, x.2, 0⟩

/-- Nothing has come, or one packet has. -/
inductive AtMostOne (processData : ProcessData σ φ) (logic : σ) (bound : Bool) (size : Nat)
    (s : Node σ) : Prop
  | none (hstart : s = (initUDPSocket logic bound).1)
  | one (h : OnePacket processData logic size s)

theorem atMostOne_step {logic : σ} {e : Event} (h : AtMostOne processData logic bound size s)
    (hnever : ∀ u buf src choice p, processData u buf src choice = .ok p → p.ret ≠ 3)
    (ht : step ndebug processData size s e = .ok t) : AtMostOne processData logic bound size t := by
  cases h with
  | none hstart =>
    have hsender : s.sender = UDP.start 100 := by rw [hstart]; cases bound <;> rfl
    have hlogic : s.logic = logic := by rw [hstart]; cases bound <;> rfl
    have hrecords : s.records = [] := by rw [hstart]; cases bound <;> rfl
    cases e with
    | received data src choice =>
      simp only [step] at ht
      split at ht
      · obtain ⟨p, hp, rfl, -⟩ := handleUDPRead_ok ht
        rw [hlogic] at hp
        have hthree : p.ret ≠ 3 := hnever _ _ _ _ _ hp
        refine .one ⟨by simp [hthree], ?_, recvBuf size data, src, choice, p,
          recvBuf_length size data,
          hp, ?_, ?_⟩
        · rw [hsender]
          exact writeAll_clogged (start_clogged 100)
        · rw [hrecords]
          rfl
        · rw [hsender]
          exact writeAll_start p.out
      · cases ht
    | sent error byteNum =>
      -- no send is under way yet
      simp only [step, hsender, UDP.step, UDP.start] at ht
      cases ht
  | one h =>
    cases e with
    | received data src choice =>
      simp only [step, h.reading] at ht
      cases ht
    | sent error byteNum =>
      simp only [step] at ht
      split at ht
      · cases ht
      · rename_i sender hsent
        cases ht
        obtain ⟨hclogged, hacc⟩ := sent_clogged h.clogged hsent
        refine .one ⟨h.reading, hclogged, ?_⟩
        obtain ⟨buf, src, choice, p, hlength, hp, hrecords, hhead⟩ := h.processed
        exact ⟨buf, src, choice, p, hlength, hp, hrecords, by rw [hacc, hhead]⟩

/-- **A program that never returns 3** processes one packet at most, and all that it ever sends is
the first datagram of that one call. -/
theorem run_atMostOne {logic : σ} {es : List Event}
    (hnever : ∀ u buf src choice p, processData u buf src choice = .ok p → p.ret ≠ 3)
    (hrun : exec (step ndebug processData size) (initUDPSocket logic bound).1 es = .ok s) :
    AtMostOne processData logic bound size s := by
  refine exec_induction (P := fun _ t => AtMostOne processData logic bound size t)
    (.none rfl) ?_ hrun
  intro _ _ _ _ _ _ h hstep
  exact atMostOne_step h hnever hstep

theorem AtMostOne.records_le {logic : σ} (h : AtMostOne processData logic bound size s) :
    s.records.length ≤ 1 := by
  cases h with
  | none hstart =>
    rw [hstart]
    cases bound <;> exact Nat.zero_le 1
  | one h =>
    obtain ⟨buf, src, choice, p, -, -, hrecords, -⟩ := h.processed
    rw [hrecords]
    rfl

/-- What is sent is the first datagram of the one call. -/
theorem AtMostOne.handed {logic : σ} (h : AtMostOne processData logic bound size s) {d : Datagram}
    (hd : d ∈ s.sender.handed) : ∃ buf src choice p, processData logic buf src choice = .ok p ∧
      s.records = [⟨buf, src, p.ret⟩] ∧ p.out.head? = some (d.endpoint, d.buf) := by
  cases h with
  | none hstart =>
    rw [hstart] at hd
    cases bound <;> cases hd
  | one h =>
    obtain ⟨buf, src, choice, p, -, hp, hrecords, hhead⟩ := h.processed
    refine ⟨buf, src, choice, p, hp, hrecords, ?_⟩
    have hfront := h.clogged.handed d hd
    rw [hhead] at hfront
    obtain ⟨x, hx, rfl⟩ := Option.map_eq_some_iff.mp hfront
    exact hx

end

/-! ## 5. The gateway and the backends

They call `UDPToWrite` in `ProcessData` only, so their runs are those of `step`. -/

def udpEndpoint (e : TCPEndpoint) : UDPEndpoint := ⟨e.address, e.port⟩

def ofDone (r : Done) : Processed LD := ⟨r.ret, r.ld, r.out.map fun x => (udpEndpoint x.1, x.2)⟩

/-- `TestBF::ProcessData` of `udp_bf.cc`. -/
def testBF (d : Deployment) : ProcessData LD TestGateway.Fault := fun ld buf src uninit =>
  (TestGateway.processData d ld buf ⟨src.address, src.port⟩ uninit).map ofDone

/-- `TestBB1::ProcessData` of `udp_bb1.cc` and `TestBB2::ProcessData` of `udp_bb2.cc`. -/
def testBB (o : ByteOrder) (k : BB) : ProcessData LD TestGateway.Fault := fun ld buf src die =>
  (TestGateway.testBB o k ld buf ⟨src.address, src.port⟩ die).map ofDone

section

variable {d : Deployment} {ndebug bound : Bool} {size : Nat} {s : Node LD}

theorem receiveRsp_ret (ld : LD) (j : BB) (rsp : TestGateway.OneNumber) :
    (TestGateway.receiveRsp d ld j rsp).ret ≠ 3 := by
  unfold TestGateway.receiveRsp TestGateway.replyToClient
  split
  · simp
  · split
    · simp
    · split <;> simp

theorem testBF_ret (ld : LD) (buf : List Byte) (src : UDPEndpoint) (u : Word) (p : Processed LD)
    (hp : testBF d ld buf src u = .ok p) : p.ret ≠ 3 := by
  obtain ⟨r, hr, rfl⟩ := map_eq_ok.mp hp
  change r.ret ≠ 3
  rcases TestGateway.processData_cases (d := d) ld buf ⟨src.address, src.port⟩
    u with ⟨req, -, heq⟩ |
    ⟨j, rsp, -, heq⟩ | ⟨-, heq⟩ | ⟨-, heq⟩ <;> rw [heq] at hr <;> cases hr
  · unfold TestGateway.newRequest
    split <;> simp
  · exact receiveRsp_ret ld j rsp
  · simp

/-- With an empty table, all that can be sent are the two halves of a request. -/
theorem testBF_out {buf : List Byte} {src : UDPEndpoint} {u : Word} {p : Processed LD}
    {x : UDPEndpoint × List Byte} (hp : testBF d (fun _ => none) buf src u = .ok p)
    (hx : p.out.head? = some x) : x.1 = udpEndpoint d.bb1 ∧
      ∃ seq a b, TestGateway.view d.o buf = .reqToBF seq a b ∧
        TestGateway.view d.o x.2 = .reqToBB .bb1 seq a := by
  obtain ⟨r, hr, rfl⟩ := map_eq_ok.mp hp
  rcases TestGateway.processData_cases (d := d) (fun _ => none) buf ⟨src.address, src.port⟩ u with
    ⟨req, hview, heq⟩ | ⟨j, rsp, -, heq⟩ | ⟨-, heq⟩ | ⟨-, heq⟩ <;> rw [heq] at hr <;> cases hr
  · cases hx
    exact ⟨rfl, req.seq, req.num1, req.num2, hview, TestGateway.view_reqToBB d.o .bb1 _ _ _⟩
  · cases hx
  · cases hx

/-- **The UDP gateway asks the first backend, over and over, and nothing else**: in every run it
processes one packet at most, and every datagram it ever sends is the first half of the request in
that packet, to the first backend. -/
theorem udp_gateway_asks_bb1_only {es : List Event}
    (hrun : exec (step ndebug (testBF d) size) (initUDPSocket (fun _ => none) bound).1 es = .ok s) :
    s.records.length ≤ 1 ∧
      ∀ g ∈ s.sender.handed, g.endpoint = udpEndpoint d.bb1 ∧
        ∃ x ∈ s.records, ∃ seq a b, TestGateway.view d.o x.recvBuf = .reqToBF seq a b ∧
          TestGateway.view d.o g.buf = .reqToBB .bb1 seq a := by
  have hone := run_atMostOne testBF_ret hrun
  refine ⟨hone.records_le, fun g hg => ?_⟩
  obtain ⟨buf, src, u, p, hp, hrecords, hhead⟩ := hone.handed hg
  obtain ⟨hto, seq, a, b, hview, hhalf⟩ := testBF_out hp hhead
  exact ⟨hto, _, by rw [hrecords]; exact List.mem_singleton.mpr rfl, seq, a, b, hview, hhalf⟩

end

/-- The gateway is asked once, and two of its sends end: the second half of the request never
leaves. -/
def askedOnce : List Event :=
  [.received TestGateway.request7.data ⟨0, 9⟩ 100, .sent false 16, .sent true 0]

theorem askedOnce_stalls : ∃ s,
    exec (step true (testBF TestGateway.home) 24)
    (initUDPSocket (fun _ => none) true).1 askedOnce = .ok s ∧
      s.sender.handed.map (fun g => g.endpoint.port) = [2, 2, 2] ∧
      s.sender.accepted.map (fun g => g.endpoint.port) = [2, 3] ∧ s.records.length ≤ 1 ∧
      ∀ g ∈ s.sender.handed, g.endpoint = ⟨0, 2⟩ ∧ ∃ x ∈ s.records, ∃ seq a b,
        TestGateway.view .little x.recvBuf = .reqToBF seq a b ∧
          TestGateway.view .little g.buf = .reqToBB .bb1 seq a := by
  have hends : (exec (step true (testBF TestGateway.home) 24) (initUDPSocket (fun _ => none) true).1
      askedOnce).map (fun s => (s.sender.handed.map fun g => g.endpoint.port,
        s.sender.accepted.map fun g => g.endpoint.port)) = .ok ([2, 2, 2], [2, 3]) := by
    decide +kernel
  obtain ⟨s, hs, hend⟩ := map_eq_ok.mp hends
  obtain ⟨hhanded, haccepted⟩ := Prod.mk.inj hend
  exact ⟨s, hs, hhanded, haccepted, udp_gateway_asks_bb1_only hs⟩

section

variable {o : ByteOrder} {k : BB} {ndebug bound : Bool} {size : Nat} {ld : LD} {s : Node LD}

/-- **A UDP backend answers one packet at most**, and repeats that answer. -/
theorem udp_backend_repeats {es : List Event}
    (hrun : exec (step ndebug (testBB o k) size) (initUDPSocket ld bound).1 es = .ok s) :
    s.records.length ≤ 1 ∧
      ∀ g ∈ s.sender.handed, ∃ x ∈ s.records, g.endpoint = x.src ∧
        ∃ seq num die, TestGateway.view o x.recvBuf = .reqToBB k seq num ∧
          TestGateway.view o g.buf = .rspFromBB k seq (num + die) := by
  have hret : ∀ u buf src choice p, testBB o k u buf src choice = .ok p → p.ret ≠ 3 := by
    intro u buf src choice p hp
    obtain ⟨r, hr, rfl⟩ := map_eq_ok.mp hp
    change r.ret ≠ 3
    rcases TestGateway.testBB_cases o k u buf ⟨src.address, src.port⟩ choice with ⟨req, -, heq⟩ |
      ⟨-, heq⟩ | ⟨-, heq⟩ <;> rw [heq] at hr <;> cases hr <;> simp
  have hone := run_atMostOne hret hrun
  refine ⟨hone.records_le, fun g hg => ?_⟩
  obtain ⟨buf, src, die, p, hp, hrecords, hhead⟩ := hone.handed hg
  refine ⟨_, by rw [hrecords]; exact List.mem_singleton.mpr rfl, ?_⟩
  obtain ⟨r, hr, rfl⟩ := map_eq_ok.mp hp
  rcases TestGateway.testBB_cases o k ld buf ⟨src.address, src.port⟩ die with ⟨req, hview, heq⟩ |
    ⟨-, heq⟩ | ⟨-, heq⟩ <;> rw [heq] at hr <;> cases hr
  · obtain ⟨hto, hdata⟩ := Prod.mk.inj (Option.some.inj hhead)
    refine ⟨hto.symm, req.seq, req.num, die, hview, ?_⟩
    rw [← hdata]
    exact TestGateway.view_rspFromBB o k _ _ _
  · cases hhead

end

end Kknf.Asio2.UDPServing
