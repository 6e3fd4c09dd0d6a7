/-
# The gateway of the `asio-based2` test programs

`TestBF` keeps a table `ld_` with one entry for each sequence number it has seen.  A request from a
client makes an entry and goes on to the two backends; a response from a backend is added to the sum
in the entry, and as soon as both have arrived the reply in the entry is sent to the client.
Entries are never removed.  (`udp_bf.cc` has the same `ProcessData`, but the UDP side of the
`Skeleton` does not read on after a packet.)

The parties are put on a network that loses, duplicates and reorders (`Kknf.Lib.Network`).  The
`Skeleton` and its connections are part of it: what it drops when it closes a socket is lost, and
the address of a party stands for the party, whatever port its connection has.  The history of a
number is four lists: the requests for it that arrive, the requests that go on, the responses, and
the replies.  `Inv` says how they hang together, and `runs_inv` that they do so in every run.

`rsp_.sum_` is not initialised; what is in the memory of a new entry is a choice of the
surroundings, like the number that a backend draws.  The log of what has arrived has the choice that
went with each packet, and `Inv` says which of them are in a sum.
-/
import Mathlib.Logic.Function.Basic
import Mathlib.Data.List.Infix
import Kknf.Lib.Network
import Kknf.Asio2.Skeleton
import Kknf.Asio2.TestPackets

namespace Kknf.Asio2.TestGateway

open Kknf.Words Kknf.Run
open Network (Handler State Admits NoDuplicate)

/-! ## 1. Data -/

/-- `ReqLocalData`; `client` is `client_ip_` and `client_port_`. -/
structure ReqLocalData where
  bb1RspArrived : Bool := false
  bb2RspArrived : Bool := false
  rsp : TwoNumbers
  client : TCPEndpoint
  deriving DecidableEq

/-- `ld_` -/
abbrev LD := Word → Option ReqLocalData

/-- The return value of `ProcessData`, the table after it, and what it has sent, to whom. -/
structure Done where
  ret : Int
  ld : LD
  out : List (TCPEndpoint × List Byte) := []

/-- A field of the packet is read outside the buffer. -/
inductive Fault
  | outOfBounds
  deriving DecidableEq

/-- The parties, all on hosts of one byte order. -/
structure Deployment where
  o : ByteOrder
  bf : TCPEndpoint
  bb1 : TCPEndpoint
  bb2 : TCPEndpoint
  bf_ne_bb1 : bf ≠ bb1
  bf_ne_bb2 : bf ≠ bb2
  bb1_ne_bb2 : bb1 ≠ bb2

def Deployment.bb (d : Deployment) : BB → TCPEndpoint
  | .bb1 => d.bb1
  | .bb2 => d.bb2

/-! ## 2. `ProcessData` -/

/-- The branch for `T_REQ_TO_BF`. -/
def newRequest (d : Deployment) (ld : LD) (src : TCPEndpoint) (uninit : Word) (req : TwoNumbers) :
    Done :=
  match ld req.seq with
  | some _ => ⟨-1, ld, []⟩
  | none =>
    let rsp : TwoNumbers :=
      ⟨htonl d.o 20, PacketType.rspFromBF.word, req.seq, uninit, 0⟩
    let req1 : OneNumber := ⟨htonl d.o 16, (PacketType.reqToBB .bb1).word, req.seq, req.num1⟩
    let req2 : OneNumber := ⟨htonl d.o 16, (PacketType.reqToBB .bb2).word, req.seq, req.num2⟩
    ⟨0, Function.update ld req.seq (some { rsp, client := src }),
      [(d.bb1, req1.bytes d.o), (d.bb2, req2.bytes d.o)]⟩

/-- `it->second.rsp_.sum_ += ...; it->second.bb1_rsp_arrived_ = true;` -/
def addRsp (k : BB) (num : Word) (e : ReqLocalData) : ReqLocalData :=
  let rsp := { e.rsp with num1 := e.rsp.num1 + num }
  match k with
  | .bb1 => { e with rsp, bb1RspArrived := true }
  | .bb2 => { e with rsp, bb2RspArrived := true }

/-- The end of `ProcessData`: the reply, if both responses have arrived. -/
def replyToClient (d : Deployment) (ld : LD) (seq : Word) : Done :=
  match ld seq with
  | none => ⟨-1, ld, []⟩
  | some e =>
    if e.bb1RspArrived && e.bb2RspArrived then ⟨1, ld, [(e.client, e.rsp.bytes d.o)]⟩
    else ⟨1, ld, []⟩

/-- The branch for `T_RSP_FROM_BB1` or `T_RSP_FROM_BB2`, and the end. -/
def receiveRsp (d : Deployment) (ld : LD) (k : BB) (rsp : OneNumber) : Done :=
  match ld rsp.seq with
  | none => ⟨-1, ld, []⟩
  | some e => replyToClient d (Function.update ld rsp.seq (some (addRsp k rsp.num e))) rsp.seq

/-- `f` of the struct that the buffer is cast to. -/
def castTwo (o : ByteOrder) (buf : List Byte) (f : TwoNumbers → Done) : Except Fault Done :=
  match TwoNumbers.read o buf with
  | none => .error .outOfBounds
  | some x => .ok (f x)

def castOne (o : ByteOrder) (buf : List Byte) (f : OneNumber → Done) : Except Fault Done :=
  match OneNumber.read o buf with
  | none => .error .outOfBounds
  | some x => .ok (f x)

/-- `TestBF::ProcessData` of `lv_bf.cc`. -/
def processData (d : Deployment) (ld : LD) (inputData : List Byte) (src : TCPEndpoint)
    (uninit : Word) : Except Fault Done :=
  match typeOf d.o inputData with
  | none => .error .outOfBounds
  | some type =>
    if type = PacketType.reqToBF.word then castTwo d.o inputData (newRequest d ld src uninit)
    else if type = (PacketType.rspFromBB .bb1).word then
      castOne d.o inputData (receiveRsp d ld .bb1)
    else if type = (PacketType.rspFromBB .bb2).word then
      castOne d.o inputData (receiveRsp d ld .bb2)
    else .ok ⟨-1, ld, []⟩

/-- `TestBF::ProcessData` of `cb_lv_bf.cc`, where responses go to the callbacks. -/
def processDataCallBack (d : Deployment) (ld : LD) (inputData : List Byte) (src : TCPEndpoint)
    (uninit : Word) : Except Fault Done :=
  match typeOf d.o inputData with
  | none => .error .outOfBounds
  | some type =>
    if type = PacketType.reqToBF.word then castTwo d.o inputData (newRequest d ld src uninit)
    else .ok ⟨-1, ld, []⟩

/-- `TestBF::ReceiveRspFromBB1CallBack` -/
def receiveRspFromBB1CallBack (d : Deployment) (ld : LD) (inputData : List Byte) :
    Except Fault Done :=
  match typeOf d.o inputData with
  | none => .error .outOfBounds
  | some type =>
    if type = (PacketType.rspFromBB .bb1).word then castOne d.o inputData (receiveRsp d ld .bb1)
    else .ok ⟨-1, ld, []⟩

/-- `TestBF::ReceiveRspFromBB2CallBack`; the `if` on the type has no `else`. -/
def receiveRspFromBB2CallBack (d : Deployment) (ld : LD) (inputData : List Byte) :
    Except Fault Done :=
  match typeOf d.o inputData with
  | none => .error .outOfBounds
  | some type =>
    if type = (PacketType.rspFromBB .bb2).word then castOne d.o inputData (receiveRsp d ld .bb2)
    else
      match seqOf d.o inputData with
      | none => .error .outOfBounds
      | some seq => .ok (replyToClient d ld seq)

/-- `TestBB1::ProcessData` and `TestBB2::ProcessData`; `die` is the number drawn. -/
def testBB (o : ByteOrder) (k : BB) (ld : LD) (inputData : List Byte) (src : TCPEndpoint)
    (die : Word) : Except Fault Done :=
  match typeOf o inputData with
  | none => .error .outOfBounds
  | some type =>
    if type ≠ (PacketType.reqToBB k).word then .ok ⟨-1, ld, []⟩
    else castOne o inputData fun req =>
      let rsp : OneNumber := ⟨htonl o 16, (PacketType.rspFromBB k).word, req.seq, req.num + die⟩
      ⟨2, ld, [(src, rsp.bytes o)]⟩

/-! ## 3. The network -/

/-- A packet on its way. -/
structure Envelope where
  src : TCPEndpoint
  dst : TCPEndpoint
  data : List Byte
  deriving DecidableEq

/-- What `self` has sent. -/
def Done.envelopes (self : TCPEndpoint) (r : Done) : LD × List Envelope :=
  (r.ld, r.out.map fun x => ⟨self, x.1, x.2⟩)

/-- A packet arrives at the gateway, at a backend, or at a client.  Only the gateway has a state. -/
def handle (d : Deployment) : Handler LD Envelope Word Fault := fun ld m r =>
  if m.dst = d.bf then (processData d ld m.data m.src r).map (Done.envelopes d.bf)
  else if m.dst = d.bb1 then (testBB d.o .bb1 ld m.data m.src r).map (Done.envelopes d.bb1)
  else if m.dst = d.bb2 then (testBB d.o .bb2 ld m.data m.src r).map (Done.envelopes d.bb2)
  else .ok (ld, [])

/-- The gateway of `cb_lv_bf.cc`: what comes on the connection to a backend goes to its callback. -/
def handleCallBack (d : Deployment) : Handler LD Envelope Word Fault := fun ld m r =>
  if m.dst = d.bf then
    if m.src = d.bb1 then (receiveRspFromBB1CallBack d ld m.data).map (Done.envelopes d.bf)
    else if m.src = d.bb2 then (receiveRspFromBB2CallBack d ld m.data).map (Done.envelopes d.bf)
    else (processDataCallBack d ld m.data m.src r).map (Done.envelopes d.bf)
  else handle d ld m r

/-- `ld_` is empty, and no packet has been sent. -/
def start : State LD Envelope Word := Network.start fun _ => none

/-- What clients send: anything that does not look like a response of a backend, from an address of
their own. -/
def FromClient (d : Deployment) (m : Envelope) : Prop :=
  m.src ≠ d.bf ∧ (∀ k, m.src ≠ d.bb k) ∧
    (m.dst = d.bf → ∀ k, typeOf d.o m.data ≠ some (PacketType.rspFromBB k).word)

/-! ## 4. The history of a sequence number -/

variable {d : Deployment}

/-- A request for `q` to the gateway: from whom, and the numbers. -/
def requested (d : Deployment) (q : Word) (m : Envelope) : Option (TCPEndpoint × Word × Word) :=
  match view d.o m.data with
  | .reqToBF seq a b => if m.dst = d.bf ∧ seq = q then some (m.src, a, b) else none
  | _ => none

/-- A response for `q` to the gateway. -/
def arrival (d : Deployment) (q : Word) (m : Envelope) : Option (BB × Word) :=
  match view d.o m.data with
  | .rspFromBB k seq num => if m.dst = d.bf ∧ seq = q then some (k, num) else none
  | _ => none

/-- A request for `q` that the gateway sends to a backend. -/
def forward (d : Deployment) (q : Word) (m : Envelope) : Option (BB × Word) :=
  match view d.o m.data with
  | .reqToBB k seq num => if m.src = d.bf ∧ m.dst = d.bb k ∧ seq = q then some (k, num) else none
  | _ => none

/-- A reply for `q` that the gateway sends: to whom, and the sum. -/
def replied (d : Deployment) (q : Word) (m : Envelope) : Option (TCPEndpoint × Word) :=
  match view d.o m.data with
  | .rspFromBF seq sum _ => if m.src = d.bf ∧ seq = q then some (m.dst, sum) else none
  | _ => none

/-- The requests for `q` to the gateway, in order. -/
def requests (d : Deployment) (q : Word) (l : List Envelope) : List (TCPEndpoint × Word × Word) :=
  l.filterMap (requested d q)

/-- The responses for `q`. -/
def arrivals (d : Deployment) (q : Word) (l : List Envelope) : List (BB × Word) :=
  l.filterMap (arrival d q)

/-- The requests for `q` to the backends. -/
def forwards (d : Deployment) (q : Word) (l : List Envelope) : List (BB × Word) :=
  l.filterMap (forward d q)

/-- The replies for `q`. -/
def replies (d : Deployment) (q : Word) (l : List Envelope) : List (TCPEndpoint × Word) :=
  l.filterMap (replied d q)

/-- What `f` picks out of a log, each with the choice that went with it. -/
def drawn {α : Type} (f : Envelope → Option α) (log : List (Envelope × Word)) : List (α × Word) :=
  log.filterMap fun x => (f x.1).map fun y => (y, x.2)

/-- The requests for `q` to the gateway, each with what was in the memory. -/
def requestsDrawn (d : Deployment) (q : Word) (log : List (Envelope × Word)) :
    List ((TCPEndpoint × Word × Word) × Word) :=
  drawn (requested d q) log

/-- The requests for `q` at the backends, each with the number that was drawn. -/
def forwardsDrawn (d : Deployment) (q : Word) (log : List (Envelope × Word)) :
    List ((BB × Word) × Word) :=
  drawn (forward d q) log

/-- The response to a request, with the number that was drawn for it. -/
def answerTo (x : (BB × Word) × Word) : BB × Word := (x.1.1, x.1.2 + x.2)

/-- Both backends have responded. -/
def complete (l : List (BB × Word)) : Bool := l.any (·.1 = .bb1) && l.any (·.1 = .bb2)

/-- The beginnings of a list of responses that have one of each. -/
def completions (l : List (BB × Word)) : List (List (BB × Word)) := l.inits.filter complete

/-- The sum of the responses, on top of what was in the memory. -/
def sumFrom (g : Word) (l : List (BB × Word)) : Word := l.foldl (fun acc x => acc + x.2) g

/-- Without the choices it is what `f` picks out of what has arrived. -/
theorem drawn_fst {α : Type} (f : Envelope → Option α) (log : List (Envelope × Word)) :
    (drawn f log).map Prod.fst = (log.map Prod.fst).filterMap f := by
  rw [drawn, List.map_filterMap, List.filterMap_map]
  congr 1
  funext x
  simp [Function.comp_def]

theorem drawn_append {α : Type} (f : Envelope → Option α) (log ls : List (Envelope × Word)) :
    drawn f (log ++ ls) = drawn f log ++ drawn f ls := List.filterMap_append

theorem drawn_eq_nil {α : Type} {f : Envelope → Option α} {log : List (Envelope × Word)}
    (h : (log.map Prod.fst).filterMap f = []) : drawn f log = [] := by
  rw [← drawn_fst] at h
  exact List.map_eq_nil_iff.mp h

theorem forwardsDrawn_fst (q : Word) (log : List (Envelope × Word)) :
    (forwardsDrawn d q log).map Prod.fst = forwards d q (log.map Prod.fst) := drawn_fst ..

/-- One more response is one more beginning. -/
theorem completions_append (l : List (BB × Word)) (x : BB × Word) :
    completions (l ++ [x]) = completions l ++ if complete (l ++ [x]) then [l ++ [x]] else [] := by
  unfold completions
  rw [List.inits_append, List.filter_append]
  congr 1
  have htail : ([x] : List (BB × Word)).inits.tail.map (fun t => l ++ t) = [l ++ [x]] := rfl
  rw [htail]
  by_cases hcomplete : complete (l ++ [x]) = true
  · simp [hcomplete]
  · simp [hcomplete]

theorem sumFrom_append (g : Word) (l : List (BB × Word)) (x : BB × Word) :
    sumFrom g (l ++ [x]) = sumFrom g l + x.2 := by
  simp [sumFrom]

/-! ## 5. What the parties do -/

/-- What a cast comes to, and what it sees. -/
theorem castTwo_cases (o : ByteOrder) (buf : List Byte) (F : TwoNumbers → Done)
    (f : Word → Word → Word → View) :
    (castTwo o buf F = .error .outOfBounds ∧ viewTwo o buf f = .short) ∨
      ∃ x, castTwo o buf F = .ok (F x) ∧ viewTwo o buf f = f x.seq x.num1 x.num2 := by
  unfold castTwo viewTwo
  cases TwoNumbers.read o buf with
  | none => exact Or.inl ⟨rfl, rfl⟩
  | some x => exact Or.inr ⟨x, rfl, rfl⟩

theorem castOne_cases (o : ByteOrder) (buf : List Byte) (F : OneNumber → Done)
    (f : Word → Word → View) :
    (castOne o buf F = .error .outOfBounds ∧ viewOne o buf f = .short) ∨
      ∃ x, castOne o buf F = .ok (F x) ∧ viewOne o buf f = f x.seq x.num := by
  unfold castOne viewOne
  cases OneNumber.read o buf with
  | none => exact Or.inl ⟨rfl, rfl⟩
  | some x => exact Or.inr ⟨x, rfl, rfl⟩

/-- A packet that is no request to the gateway and no response. -/
def Foreign (v : View) : Prop :=
  (∀ seq a b, v ≠ .reqToBF seq a b) ∧ ∀ k seq num, v ≠ .rspFromBB k seq num

/-- **What the gateway does with a packet**, by what it sees in it. -/
theorem processData_cases (ld : LD) (buf : List Byte) (src : TCPEndpoint) (u : Word) :
    (∃ req, view d.o buf = .reqToBF req.seq req.num1 req.num2 ∧
        processData d ld buf src u = .ok (newRequest d ld src u req)) ∨
      (∃ k rsp, view d.o buf = .rspFromBB k rsp.seq rsp.num ∧
        processData d ld buf src u = .ok (receiveRsp d ld k rsp)) ∨
      (view d.o buf = .short ∧ processData d ld buf src u = .error .outOfBounds) ∨
      (Foreign (view d.o buf) ∧ processData d ld buf src u = .ok ⟨-1, ld, []⟩) := by
  cases htype : typeOf d.o buf with
  | none =>
    refine Or.inr (Or.inr (Or.inl ⟨?_, ?_⟩))
    · simp only [view, htype]
    · simp only [processData, htype]
  | some type =>
    by_cases h0 : type = PacketType.reqToBF.word
    · subst h0
      have hprocess : processData d ld buf src u = castTwo d.o buf (newRequest d ld src u) := by
        simp only [processData, htype, if_true]
      rw [hprocess, view_of_type htype]
      rcases castTwo_cases d.o buf (newRequest d ld src u) .reqToBF with ⟨hcast, hview⟩ |
        ⟨x, hcast, hview⟩
      · exact Or.inr (Or.inr (Or.inl ⟨hview, hcast⟩))
      · exact Or.inl ⟨x, hview, hcast⟩
    by_cases h1 : ∃ k, type = (PacketType.rspFromBB k).word
    · obtain ⟨k, rfl⟩ := h1
      have hprocess : processData d ld buf src u = castOne d.o buf (receiveRsp d ld k) := by
        cases k <;> simp [processData, htype, PacketType.word]
      rw [hprocess, view_of_type htype]
      rcases castOne_cases d.o buf (receiveRsp d ld k) (.rspFromBB k) with ⟨hcast, hview⟩ |
        ⟨x, hcast, hview⟩
      · exact Or.inr (Or.inr (Or.inl ⟨hview, hcast⟩))
      · exact Or.inr (Or.inl ⟨k, x, hview, hcast⟩)
    · refine Or.inr (Or.inr (Or.inr ⟨⟨fun seq a b hv => ?_, fun k seq num hv => ?_⟩, ?_⟩))
      · exact h0 (Option.some.inj (htype.symm.trans (typeOf_of_view (by rw [hv]; rfl))))
      · exact h1 ⟨k, Option.some.inj (htype.symm.trans (typeOf_of_view (by rw [hv]; rfl)))⟩
      · have hne := not_exists.mp h1
        simp only [processData, htype, if_neg h0, if_neg (hne .bb1), if_neg (hne .bb2)]

/-- **What a backend does with a packet.** -/
theorem testBB_cases (o : ByteOrder) (k : BB) (ld : LD) (buf : List Byte) (src : TCPEndpoint)
    (die : Word) :
    (∃ req : OneNumber, view o buf = .reqToBB k req.seq req.num ∧
        testBB o k ld buf src die = .ok ⟨2, ld, [(src, OneNumber.bytes o
          ⟨htonl o 16, (PacketType.rspFromBB k).word, req.seq, req.num + die⟩)]⟩) ∨
      (view o buf = .short ∧ testBB o k ld buf src die = .error .outOfBounds) ∨
      ((∀ seq num, view o buf ≠ .reqToBB k seq num) ∧
        testBB o k ld buf src die = .ok ⟨-1, ld, []⟩) := by
  cases htype : typeOf o buf with
  | none =>
    refine Or.inr (Or.inl ⟨?_, ?_⟩)
    · simp only [view, htype]
    · simp only [testBB, htype]
  | some type =>
    by_cases h : type = (PacketType.reqToBB k).word
    · subst h
      simp only [testBB, htype, ne_eq, not_true_eq_false, if_false]
      rw [view_of_type htype]
      rcases castOne_cases o buf _ (.reqToBB k) with ⟨hcast, hview⟩ | ⟨x, hcast, hview⟩
      · exact Or.inr (Or.inl ⟨hview, hcast⟩)
      · exact Or.inl ⟨x, hview, hcast⟩
    · refine Or.inr (Or.inr ⟨fun seq num hv => ?_, ?_⟩)
      · exact h (Option.some.inj (htype.symm.trans (typeOf_of_view (by rw [hv]; rfl))))
      · simp only [testBB, htype, ne_eq, if_pos h]

/-! ## 6. The invariant -/

/-- The entry of `q` when these responses have arrived, and `g` was in the memory. -/
def entry (d : Deployment) (q : Word) (client : TCPEndpoint) (g : Word) (l : List (BB × Word)) :
    ReqLocalData where
  bb1RspArrived := l.any (·.1 = .bb1)
  bb2RspArrived := l.any (·.1 = .bb2)
  rsp := ⟨htonl d.o 20, PacketType.rspFromBF.word, q, sumFrom g l, 0⟩
  client := client

theorem addRsp_entry (q : Word) (client : TCPEndpoint) (g : Word) (l : List (BB × Word)) (k : BB)
    (num : Word) : addRsp k num (entry d q client g l) = entry d q client g (l ++ [(k, num)]) := by
  cases k <;> simp [addRsp, entry, sumFrom_append]

/-- The history of `q` while it has no entry. -/
structure Unseen (d : Deployment) (q : Word) (arrived sent : List Envelope) : Prop where
  requests : requests d q arrived = []
  arrivals : arrivals d q arrived = []
  forwards : forwards d q sent = []
  replies : replies d q sent = []

/-- The history of `q` once it has one.  The entry belongs to the first request for `q`, whose
numbers went on to the backends, and has what was in the memory then; the replies are one for each
response that found the list complete. -/
def Seen (d : Deployment) (q : Word) (e : ReqLocalData) (log : List (Envelope × Word))
    (sent : List Envelope) : Prop :=
  ∃ a b g rest, requestsDrawn d q log = ((e.client, a, b), g) :: rest ∧
    forwards d q sent = [(.bb1, a), (.bb2, b)] ∧
    e = entry d q e.client g (arrivals d q (log.map Prod.fst)) ∧
    replies d q sent =
      (completions (arrivals d q (log.map Prod.fst))).map fun l => (e.client, sumFrom g l)

def Tracked (d : Deployment) (q : Word) (e? : Option ReqLocalData) (log : List (Envelope × Word))
    (sent : List Envelope) : Prop :=
  match e? with
  | none => Unseen d q (log.map Prod.fst) sent
  | some e => Seen d q e log sent

/-- The backends have answered the requests of the gateway that have arrived, in order, each with
the number that was drawn for it. -/
structure Inv (d : Deployment) (ld : LD) (log : List (Envelope × Word)) (sent : List Envelope) :
    Prop where
  table : ∀ q, Tracked d q (ld q) log sent
  answered : ∀ q, arrivals d q sent = (forwardsDrawn d q log).map answerTo

theorem start_inv : Inv d (fun _ => none) [] [] where
  table := fun _ => ⟨rfl, rfl, rfl, rfl⟩
  answered := fun _ => rfl

/-- The gateway has asked for what arrives, and a backend has answered. -/
theorem Inv.mem_forwards {ld : LD} {log : List (Envelope × Word)} {sent : List Envelope}
    (h : Inv d ld log sent) (hcarried : ∀ m ∈ log.map Prod.fst, m ∈ sent) {q : Word}
    {rsp : BB × Word} (hrsp : rsp ∈ arrivals d q sent) :
    ∃ x ∈ forwardsDrawn d q log, x.1 ∈ forwards d q sent ∧ rsp = answerTo x := by
  rw [h.answered] at hrsp
  obtain ⟨x, hx, rfl⟩ := List.mem_map.mp hrsp
  have hfst : x.1 ∈ forwards d q (log.map Prod.fst) := by
    rw [← forwardsDrawn_fst]
    exact List.mem_map_of_mem hx
  obtain ⟨m, hm, hforward⟩ := List.mem_filterMap.mp hfst
  exact ⟨x, hx, List.mem_filterMap.mpr ⟨m, hcarried m hm, hforward⟩, rfl⟩

/-! ## 7. The steps keep it -/

theorem requests_append (q : Word) (l l' : List Envelope) :
    requests d q (l ++ l') = requests d q l ++ requests d q l' := List.filterMap_append

theorem arrivals_append (q : Word) (l l' : List Envelope) :
    arrivals d q (l ++ l') = arrivals d q l ++ arrivals d q l' := List.filterMap_append

theorem forwards_append (q : Word) (l l' : List Envelope) :
    forwards d q (l ++ l') = forwards d q l ++ forwards d q l' := List.filterMap_append

theorem replies_append (q : Word) (l l' : List Envelope) :
    replies d q (l ++ l') = replies d q l ++ replies d q l' := List.filterMap_append

/-- Nothing that is part of the history of `q` has arrived in this step, and nothing has been
sent. -/
structure Quiet (d : Deployment) (q : Word) (ms out : List Envelope) : Prop where
  requests : requests d q ms = []
  arrivals : arrivals d q ms = []
  forwards : forwards d q out = []
  replies : replies d q out = []

/-- The answers that are sent in this step are to the requests that have arrived in it. -/
def Paired (d : Deployment) (ls : List (Envelope × Word)) (out : List Envelope) : Prop :=
  ∀ q, arrivals d q out = (forwardsDrawn d q ls).map answerTo

section

variable {ld : LD} {log ls : List (Envelope × Word)} {sent out : List Envelope}

theorem Tracked.quiet {q : Word} {e? : Option ReqLocalData} (h : Tracked d q e? log sent)
    (hquiet : Quiet d q (ls.map Prod.fst) out) : Tracked d q e? (log ++ ls) (sent ++ out) := by
  have ha : arrivals d q ((log ++ ls).map Prod.fst) = arrivals d q (log.map Prod.fst) := by
    rw [List.map_append, arrivals_append, hquiet.arrivals, List.append_nil]
  have hf : forwards d q (sent ++ out) = forwards d q sent := by
    rw [forwards_append, hquiet.forwards, List.append_nil]
  have hr : replies d q (sent ++ out) = replies d q sent := by
    rw [replies_append, hquiet.replies, List.append_nil]
  cases e? with
  | none =>
    have hq : requests d q ((log ++ ls).map Prod.fst) = requests d q (log.map Prod.fst) := by
      rw [List.map_append, requests_append, hquiet.requests, List.append_nil]
    exact ⟨hq.trans h.requests, ha.trans h.arrivals, hf.trans h.forwards, hr.trans h.replies⟩
  | some e =>
    obtain ⟨a, b, g, rest, hreq, hfwd, he, hrep⟩ := h
    have hq : requestsDrawn d q (log ++ ls) = requestsDrawn d q log := by
      rw [requestsDrawn, drawn_append, drawn_eq_nil hquiet.requests, List.append_nil]
      rfl
    refine ⟨a, b, g, rest, hq.trans hreq, hf.trans hfwd, ?_, ?_⟩
    · rw [ha]
      exact he
    · rw [hr, ha]
      exact hrep

theorem Inv.pair (h : Inv d ld log sent) (hpaired : Paired d ls out) (q : Word) :
    arrivals d q (sent ++ out) = (forwardsDrawn d q (log ++ ls)).map answerTo := by
  rw [arrivals_append, h.answered, hpaired, ← List.map_append]
  exact congrArg _ (drawn_append ..).symm

/-- **The rule for a step that does not touch the table.** -/
theorem Inv.same (h : Inv d ld log sent) (hquiet : ∀ q, Quiet d q (ls.map Prod.fst) out)
    (hpaired : Paired d ls out) : Inv d ld (log ++ ls) (sent ++ out) :=
  ⟨fun q => (h.table q).quiet (hquiet q), h.pair hpaired⟩

/-- **The rule for a step that concerns one entry.** -/
theorem Inv.update (h : Inv d ld log sent) {q : Word} {e : ReqLocalData}
    (hself : Seen d q e (log ++ ls) (sent ++ out))
    (hquiet : ∀ q', q' ≠ q → Quiet d q' (ls.map Prod.fst) out) (hpaired : Paired d ls out) :
    Inv d (Function.update ld q (some e)) (log ++ ls) (sent ++ out) where
  table := fun q' => by
    by_cases hq : q' = q
    · subst hq
      rw [Function.update_self]
      exact hself
    · rw [Function.update_of_ne hq]
      exact (h.table q').quiet (hquiet q' hq)
  answered := h.pair hpaired

end

/-! ## 8. Each kind of step -/

/-- Only what is addressed to the gateway is a request or a response to it. -/
theorem requests_eq_nil {q : Word} {l : List Envelope} (h : ∀ m ∈ l, m.dst ≠ d.bf) :
    requests d q l = [] := by
  refine List.filterMap_eq_nil_iff.mpr fun m hm => ?_
  unfold requested
  split
  · exact if_neg fun hand => h m hm hand.1
  · rfl

theorem arrivals_eq_nil {q : Word} {l : List Envelope}
    (h : ∀ m ∈ l, m.dst = d.bf → ∀ k num, view d.o m.data ≠ .rspFromBB k q num) :
    arrivals d q l = [] := by
  refine List.filterMap_eq_nil_iff.mpr fun m hm => ?_
  unfold arrival
  split
  · rename_i k seq num hview
    refine if_neg ?_
    rintro ⟨hdst, rfl⟩
    exact h m hm hdst k num hview
  · rfl

/-- Only the gateway sends requests to a backend that count. -/
theorem forwards_eq_nil {q : Word} {l : List Envelope}
    (h : ∀ m ∈ l, m.src = d.bf → ∀ k num, m.dst = d.bb k → view d.o m.data ≠ .reqToBB k q num) :
    forwards d q l = [] := by
  refine List.filterMap_eq_nil_iff.mpr fun m hm => ?_
  unfold forward
  split
  · rename_i k seq num hview
    refine if_neg ?_
    rintro ⟨hsrc, hdst, rfl⟩
    exact h m hm hsrc k num hdst hview
  · rfl

theorem replies_eq_nil {q : Word} {l : List Envelope} (h : ∀ m ∈ l, m.src ≠ d.bf) :
    replies d q l = [] := by
  refine List.filterMap_eq_nil_iff.mpr fun m hm => ?_
  unfold replied
  split
  · exact if_neg fun hand => h m hm hand.1
  · rfl

theorem Deployment.bb_ne_bf (d : Deployment) (k : BB) : d.bb k ≠ d.bf := by
  cases k with
  | bb1 => exact d.bf_ne_bb1.symm
  | bb2 => exact d.bf_ne_bb2.symm

theorem Deployment.bb_injective (d : Deployment) : Function.Injective d.bb := by
  intro k k' h
  cases k <;> cases k'
  · rfl
  · exact absurd h d.bb1_ne_bb2
  · exact absurd h.symm d.bb1_ne_bb2
  · rfl

/-- What arrives at the gateway is no request to a backend. -/
theorem forwards_of_dst {q : Word} {m : Envelope} (hdst : m.dst = d.bf) :
    forwards d q [m] = [] := by
  refine forwards_eq_nil fun m' hm' _ k _ hbb => ?_
  rw [List.mem_singleton.mp hm', hdst] at hbb
  exact absurd hbb.symm (d.bb_ne_bf k)

section

variable {ld : LD} {log : List (Envelope × Word)} {sent : List Envelope}

/-- A packet that is no request of the gateway at a backend needs no answer. -/
theorem forwardsDrawn_eq_nil {q : Word} {m : Envelope} (r : Word) (h : forwards d q [m] = []) :
    forwardsDrawn d q [(m, r)] = [] := drawn_eq_nil h

/-- **A client sends.** -/
theorem Inv.send (h : Inv d ld log sent) {m : Envelope} (hm : FromClient d m) :
    Inv d ld log (sent ++ [m]) := by
  obtain ⟨hsrc, -, htype⟩ := hm
  have hout : ∀ m' ∈ [m], m'.src ≠ d.bf := by
    intro m' hm'
    rw [List.mem_singleton.mp hm']
    exact hsrc
  have harrivals : ∀ q, arrivals d q [m] = [] := by
    intro q
    refine arrivals_eq_nil fun m' hm' hdst k num hview => ?_
    rw [List.mem_singleton.mp hm'] at hdst hview
    exact htype hdst k (typeOf_of_view (by rw [hview]; rfl))
  have hsame : Inv d ld (log ++ []) (sent ++ [m]) := by
    refine h.same (fun q => ⟨rfl, rfl, ?_, replies_eq_nil hout⟩) harrivals
    exact forwards_eq_nil fun m' hm' hbf => absurd hbf (hout m' hm')
  rwa [List.append_nil] at hsame

/-- **A packet without an effect.** -/
theorem Inv.ignore (h : Inv d ld log sent) {m : Envelope} (r : Word)
    (hrequests : ∀ q, requests d q [m] = []) (harrivals : ∀ q, arrivals d q [m] = [])
    (hforwards : ∀ q, forwards d q [m] = []) : Inv d ld (log ++ [(m, r)]) (sent ++ []) :=
  h.same (fun q => ⟨hrequests q, harrivals q, rfl, rfl⟩) fun q => by
    rw [forwardsDrawn_eq_nil r (hforwards q)]
    rfl

/-- What a backend answers. -/
def answerEnvelope (d : Deployment) (k : BB) (dst : TCPEndpoint) (req : OneNumber) (die : Word) :
    Envelope :=
  ⟨d.bb k, dst, OneNumber.bytes d.o
    ⟨htonl d.o 16, (PacketType.rspFromBB k).word, req.seq, req.num + die⟩⟩

/-- **A request at a backend.** -/
theorem Inv.answer (h : Inv d ld log sent) {m : Envelope} {k : BB} {req : OneNumber} {die : Word}
    (hdst : m.dst = d.bb k) (hview : view d.o m.data = .reqToBB k req.seq req.num) :
    Inv d ld (log ++ [(m, die)]) (sent ++ [answerEnvelope d k m.src req die]) := by
  have hm : ∀ m' ∈ [m], m'.dst ≠ d.bf := by
    intro m' hm'
    rw [List.mem_singleton.mp hm', hdst]
    exact d.bb_ne_bf k
  have hout : ∀ m' ∈ [answerEnvelope d k m.src req die], m'.src ≠ d.bf := by
    intro m' hm'
    rw [List.mem_singleton.mp hm']
    exact d.bb_ne_bf k
  refine h.same (fun q => ⟨requests_eq_nil hm,
    arrivals_eq_nil fun m' hm' hbf => absurd hbf (hm m' hm'),
    forwards_eq_nil fun m' hm' hbf => absurd hbf (hout m' hm'), replies_eq_nil hout⟩) fun q => ?_
  have harrival : arrival d q (answerEnvelope d k m.src req die) =
      if m.src = d.bf ∧ req.seq = q then some (k, req.num + die) else none := by
    simp only [arrival, answerEnvelope, view_rspFromBB]
    rfl
  have hforward : forward d q m =
      if m.src = d.bf ∧ req.seq = q then some (k, req.num) else none := by
    simp only [forward, hview, hdst, true_and]
  by_cases hq : m.src = d.bf ∧ req.seq = q
  · rw [if_pos hq] at harrival hforward
    simp [arrivals, forwardsDrawn, drawn, harrival, hforward, answerTo]
  · rw [if_neg hq] at harrival hforward
    simp [arrivals, forwardsDrawn, drawn, harrival, hforward]

end

/-- The requests to the two backends. -/
def toBackends (d : Deployment) (req : TwoNumbers) : List Envelope :=
  [⟨d.bf, d.bb1, OneNumber.bytes d.o
      ⟨htonl d.o 16, (PacketType.reqToBB .bb1).word, req.seq, req.num1⟩⟩,
    ⟨d.bf, d.bb2, OneNumber.bytes d.o
      ⟨htonl d.o 16, (PacketType.reqToBB .bb2).word, req.seq, req.num2⟩⟩]

theorem arrivals_toBackends (q : Word) (req : TwoNumbers) :
    arrivals d q (toBackends d req) = [] := by
  simp [toBackends, arrivals, arrival, view_reqToBB]

theorem forwards_toBackends (q : Word) (req : TwoNumbers) :
    forwards d q (toBackends d req) = if req.seq = q then
      [(.bb1, req.num1), (.bb2, req.num2)] else [] := by
  by_cases hq : req.seq = q
  · simp [toBackends, forwards, forward, view_reqToBB, Deployment.bb, hq]
  · simp [toBackends, forwards, forward, view_reqToBB, hq]

theorem replies_toBackends (q : Word) (req : TwoNumbers) : replies d q (toBackends d req) = [] := by
  simp [toBackends, replies, replied, view_reqToBB]

theorem newRequest_of_none {ld : LD} {req : TwoNumbers} (src : TCPEndpoint) (u : Word)
    (h : ld req.seq = none) : (newRequest d ld src u req).envelopes d.bf =
      (Function.update ld req.seq (some (entry d req.seq src u [])), toBackends d req) := by
  simp [newRequest, h, entry, sumFrom, Done.envelopes, toBackends]

theorem newRequest_of_some {ld : LD} {req : TwoNumbers} {e : ReqLocalData} (src : TCPEndpoint)
    (u : Word)
    (h : ld req.seq = some e) : (newRequest d ld src u req).envelopes d.bf = (ld, []) := by
  simp [newRequest, h, Done.envelopes]

/-- The one history a request to the gateway is part of. -/
theorem requests_of_view {q : Word} {m : Envelope} {req : TwoNumbers} (hdst : m.dst = d.bf)
    (hview : view d.o m.data = .reqToBF req.seq req.num1 req.num2) :
    requests d q [m] = if req.seq = q then [(m.src, req.num1, req.num2)] else [] := by
  by_cases hq : req.seq = q
  · simp [requests, requested, hview, hdst, hq]
  · simp [requests, requested, hview, hq]

theorem arrivals_of_request {q : Word} {m : Envelope} {req : TwoNumbers}
    (hview : view d.o m.data = .reqToBF req.seq req.num1 req.num2) : arrivals d q [m] = [] := by
  refine arrivals_eq_nil fun m' hm' _ k num hv => ?_
  rw [List.mem_singleton.mp hm', hview] at hv
  cases hv

/-- The log of the requests for its number has one more, with what is in the memory. -/
theorem requestsDrawn_of_view {m : Envelope} {req : TwoNumbers} (u : Word) (hdst : m.dst = d.bf)
    (hview : view d.o m.data = .reqToBF req.seq req.num1 req.num2) :
    requestsDrawn d req.seq [(m, u)] = [((m.src, req.num1, req.num2), u)] := by
  simp [requestsDrawn, drawn, requested, hview, hdst]

section

variable {ld : LD} {log : List (Envelope × Word)} {sent : List Envelope}

theorem arrivals_log_append {q : Word} {m : Envelope} (r : Word) :
    arrivals d q ((log ++ [(m, r)]).map Prod.fst) =
      arrivals d q (log.map Prod.fst) ++ arrivals d q [m] := by
  rw [List.map_append, arrivals_append]
  rfl

/-- **A request for a new number** makes an entry, and the numbers go on to the backends. -/
theorem Inv.fresh (h : Inv d ld log sent) {m : Envelope} {req : TwoNumbers} (u : Word)
    (hdst : m.dst = d.bf) (hview : view d.o m.data = .reqToBF req.seq req.num1 req.num2)
    (hnew : ld req.seq = none) :
    Inv d (Function.update ld req.seq (some (entry d req.seq m.src u []))) (log ++ [(m, u)])
      (sent ++ toBackends d req) := by
  have hunseen : Unseen d req.seq (log.map Prod.fst) sent := by
    have htable := h.table req.seq
    rwa [hnew] at htable
  have hfirst : requestsDrawn d req.seq log = [] := drawn_eq_nil hunseen.requests
  refine h.update ⟨req.num1, req.num2, u, [], ?_, ?_, ?_, ?_⟩
    (fun q hq => ⟨?_, arrivals_of_request hview, ?_, replies_toBackends q req⟩) fun q => ?_
  · rw [requestsDrawn, drawn_append]
    exact congrArg₂ _ hfirst (requestsDrawn_of_view u hdst hview)
  · rw [forwards_append, hunseen.forwards, forwards_toBackends, if_pos rfl, List.nil_append]
  · rw [arrivals_log_append, hunseen.arrivals, arrivals_of_request hview]
    rfl
  · rw [replies_append, hunseen.replies, replies_toBackends, arrivals_log_append, hunseen.arrivals,
      arrivals_of_request hview]
    rfl
  · exact (requests_of_view hdst hview).trans (if_neg fun heq => hq heq.symm)
  · rw [forwards_toBackends, if_neg fun heq => hq heq.symm]
  · rw [arrivals_toBackends, forwardsDrawn_eq_nil u (forwards_of_dst hdst)]
    rfl

/-- **A request for a number that is taken** changes nothing. -/
theorem Inv.taken (h : Inv d ld log sent) {m : Envelope} {req : TwoNumbers} {e : ReqLocalData}
    (u : Word) (hdst : m.dst = d.bf) (hview : view d.o m.data = .reqToBF req.seq req.num1 req.num2)
    (htaken : ld req.seq = some e) : Inv d ld (log ++ [(m, u)]) (sent ++ []) := by
  obtain ⟨a, b, g, rest, hreq, hfwd, he, hrep⟩ : Seen d req.seq e log sent := by
    have htable := h.table req.seq
    rwa [htaken] at htable
  have hself : Seen d req.seq e (log ++ [(m, u)]) (sent ++ []) := by
    rw [List.append_nil]
    refine ⟨a, b, g, rest ++ [((m.src, req.num1, req.num2), u)], ?_, hfwd, ?_, ?_⟩
    · rw [requestsDrawn, drawn_append]
      exact congrArg₂ _ hreq (requestsDrawn_of_view u hdst hview)
    · rwa [arrivals_log_append, arrivals_of_request hview, List.append_nil]
    · rwa [arrivals_log_append, arrivals_of_request hview, List.append_nil]
  have hupdate : Inv d (Function.update ld req.seq (some e)) (log ++ [(m, u)]) (sent ++ []) := by
    refine h.update hself (fun q hq => ⟨?_, arrivals_of_request hview, rfl, rfl⟩) fun q => ?_
    · exact (requests_of_view hdst hview).trans (if_neg fun heq => hq heq.symm)
    · rw [forwardsDrawn_eq_nil u (forwards_of_dst hdst)]
      rfl
  rwa [Function.update_eq_self_iff.mpr htaken.symm] at hupdate

end

/-- The reply that goes out with the last of these responses, if it does. -/
def replyEnvelopes (d : Deployment) (q : Word) (client : TCPEndpoint) (g : Word)
    (l : List (BB × Word)) :
    List Envelope :=
  if complete l then
    [⟨d.bf, client, TwoNumbers.bytes d.o
      ⟨htonl d.o 20, PacketType.rspFromBF.word, q, sumFrom g l, 0⟩⟩]
  else []

theorem arrivals_replyEnvelopes (q q' : Word) (client : TCPEndpoint) (g : Word)
    (l : List (BB × Word)) :
    arrivals d q (replyEnvelopes d q' client g l) = [] := by
  unfold replyEnvelopes
  split
  · simp [arrivals, arrival, view_rspFromBF]
  · rfl

theorem forwards_replyEnvelopes (q q' : Word) (client : TCPEndpoint) (g : Word)
    (l : List (BB × Word)) :
    forwards d q (replyEnvelopes d q' client g l) = [] := by
  unfold replyEnvelopes
  split
  · simp [forwards, forward, view_rspFromBF]
  · rfl

theorem replies_replyEnvelopes (q q' : Word) (client : TCPEndpoint) (g : Word)
    (l : List (BB × Word)) :
    replies d q (replyEnvelopes d q' client g l) =
      if q' = q then (if complete l then [(client, sumFrom g l)] else []) else [] := by
  unfold replyEnvelopes
  by_cases hcomplete : complete l = true <;> by_cases hq : q' = q <;>
    simp [hcomplete, hq, replies, replied, view_rspFromBF]

/-- The end of `ProcessData`, for an entry with these responses. -/
theorem replyToClient_of_entry {ld : LD} {q : Word} {client : TCPEndpoint} {g : Word}
    {l : List (BB × Word)} (h : ld q = some (entry d q client g l)) :
    (replyToClient d ld q).envelopes d.bf = (ld, replyEnvelopes d q client g l) := by
  simp only [replyToClient, h]
  by_cases hcomplete : complete l = true
  · have hboth : ((entry d q client g l).bb1RspArrived &&
        (entry d q client g l).bb2RspArrived) = true := hcomplete
    rw [if_pos hboth, replyEnvelopes, if_pos hcomplete]
    rfl
  · have hboth : ¬ ((entry d q client g l).bb1RspArrived &&
        (entry d q client g l).bb2RspArrived) = true := hcomplete
    rw [if_neg hboth, replyEnvelopes, if_neg hcomplete]
    rfl

theorem receiveRsp_of_entry {ld : LD} {k : BB} {rsp : OneNumber} {client : TCPEndpoint} {g : Word}
    {l : List (BB × Word)} (h : ld rsp.seq = some (entry d rsp.seq client g l)) :
    (receiveRsp d ld k rsp).envelopes d.bf =
      (Function.update ld rsp.seq (some (entry d rsp.seq client g (l ++ [(k, rsp.num)]))),
        replyEnvelopes d rsp.seq client g (l ++ [(k, rsp.num)])) := by
  simp only [receiveRsp, h, addRsp_entry]
  exact replyToClient_of_entry (Function.update_self ..)

section

variable {ld : LD} {log : List (Envelope × Word)} {sent : List Envelope}

/-- **A response** is added to the entry, and when both are there a reply goes out. -/
theorem Inv.response (h : Inv d ld log sent) (hcarried : ∀ m ∈ log.map Prod.fst, m ∈ sent)
    {m : Envelope} {k : BB} {rsp : OneNumber} (r : Word) (hm : m ∈ sent) (hdst : m.dst = d.bf)
    (hview : view d.o m.data = .rspFromBB k rsp.seq rsp.num) :
    Inv d ((receiveRsp d ld k rsp).envelopes d.bf).1 (log ++ [(m, r)])
      (sent ++ ((receiveRsp d ld k rsp).envelopes d.bf).2) := by
  have harrival : ∀ q, arrival d q m = if rsp.seq = q then some (k, rsp.num) else none := by
    intro q
    simp only [arrival, hview, hdst, true_and]
  have hself : arrivals d rsp.seq [m] = [(k, rsp.num)] := by
    have hone := harrival rsp.seq
    rw [if_pos rfl] at hone
    rw [arrivals, List.filterMap_cons_some hone, List.filterMap_nil]
  have hothers : ∀ q, q ≠ rsp.seq → arrivals d q [m] = [] := by
    intro q hq
    have hnone := harrival q
    rw [if_neg fun heq => hq heq.symm] at hnone
    rw [arrivals, List.filterMap_cons_none hnone, List.filterMap_nil]
  have hrequests : ∀ q, requests d q [m] = [] := by
    intro q
    simp [requests, requested, hview]
  -- the gateway has asked for it, so that there is an entry
  obtain ⟨e, hentry, a, b, g, rest, hreq, hfwd, he, hrep⟩ : ∃ e, ld rsp.seq = some e ∧
      Seen d rsp.seq e log sent := by
    have hsent : (k, rsp.num) ∈ arrivals d rsp.seq sent :=
      List.mem_filterMap.mpr ⟨m, hm, (harrival rsp.seq).trans (if_pos rfl)⟩
    obtain ⟨req, -, hforward, -⟩ := h.mem_forwards hcarried hsent
    have htable := h.table rsp.seq
    cases hq : ld rsp.seq with
    | none =>
      rw [hq] at htable
      rw [htable.forwards] at hforward
      cases hforward
    | some e =>
      rw [hq] at htable
      exact ⟨e, rfl, htable⟩
  rw [receiveRsp_of_entry (hentry.trans (congrArg some he))]
  refine h.update ⟨a, b, g, rest, ?_, ?_, ?_, ?_⟩
    (fun q hq => ⟨hrequests q, hothers q hq, forwards_replyEnvelopes .., ?_⟩) fun q => ?_
  · have hnone : drawn (requested d rsp.seq) [(m, r)] = [] := drawn_eq_nil (hrequests rsp.seq)
    rw [requestsDrawn, drawn_append, hnone, List.append_nil]
    exact hreq
  · rw [forwards_append, forwards_replyEnvelopes, List.append_nil, hfwd]
  · rw [arrivals_log_append, hself]
    rfl
  · rw [replies_append, replies_replyEnvelopes, if_pos rfl, arrivals_log_append, hself,
      completions_append, List.map_append, hrep]
    congr 1
    split <;> rfl
  · rw [replies_replyEnvelopes, if_neg fun heq => hq heq.symm]
  · rw [arrivals_replyEnvelopes, forwardsDrawn_eq_nil r (forwards_of_dst hdst)]
    rfl

/-! ## 9. Every step -/

/-- **What the gateway does keeps the invariant.** -/
theorem Inv.processData (h : Inv d ld log sent) (hcarried : ∀ m ∈ log.map Prod.fst, m ∈ sent)
    {m : Envelope} {u : Word} {r : Done} (hm : m ∈ sent) (hdst : m.dst = d.bf)
    (hprocess : processData d ld m.data m.src u = .ok r) :
    Inv d (r.envelopes d.bf).1 (log ++ [(m, u)]) (sent ++ (r.envelopes d.bf).2) := by
  rcases processData_cases ld m.data m.src u with ⟨req, hview, hcase⟩ | ⟨k, rsp, hview, hcase⟩ |
    ⟨-, hcase⟩ | ⟨⟨hnoreq, hnorsp⟩, hcase⟩ <;> rw [hcase] at hprocess
  · obtain rfl := Except.ok.inj hprocess
    cases hentry : ld req.seq with
    | none =>
      rw [newRequest_of_none m.src u hentry]
      exact h.fresh u hdst hview hentry
    | some e =>
      rw [newRequest_of_some m.src u hentry]
      exact h.taken u hdst hview hentry
  · obtain rfl := Except.ok.inj hprocess
    exact h.response hcarried u hm hdst hview
  · cases hprocess
  · obtain rfl := Except.ok.inj hprocess
    refine h.ignore u (fun q => ?_) (fun q => arrivals_eq_nil fun m' hm' _ k num hv => ?_)
      fun q => forwards_of_dst hdst
    · refine List.filterMap_eq_nil_iff.mpr fun m' hm' => ?_
      rw [List.mem_singleton.mp hm']
      unfold requested
      split
      · rename_i seq a b hv
        exact absurd hv (hnoreq seq a b)
      · rfl
    · rw [List.mem_singleton.mp hm'] at hv
      exact hnorsp k q num hv

/-- **What a backend does keeps it.** -/
theorem Inv.testBB (h : Inv d ld log sent) {m : Envelope} {k : BB} {die : Word} {r : Done}
    (hdst : m.dst = d.bb k) (hprocess : testBB d.o k ld m.data m.src die = .ok r) :
    Inv d (r.envelopes (d.bb k)).1 (log ++ [(m, die)]) (sent ++ (r.envelopes (d.bb k)).2) := by
  rcases testBB_cases d.o k ld m.data m.src die with ⟨req, hview, hcase⟩ | ⟨-, hcase⟩ |
    ⟨hnoreq, hcase⟩ <;> rw [hcase] at hprocess
  · obtain rfl := Except.ok.inj hprocess
    exact h.answer hdst hview
  · cases hprocess
  · obtain rfl := Except.ok.inj hprocess
    have hm : ∀ m' ∈ [m], m'.dst ≠ d.bf := by
      intro m' hm'
      rw [List.mem_singleton.mp hm', hdst]
      exact d.bb_ne_bf k
    refine h.ignore die (fun q => requests_eq_nil hm)
      (fun q => arrivals_eq_nil fun m' hm' hbf => absurd hbf (hm m' hm'))
      fun q => forwards_eq_nil fun m' hm' _ k' num hbb hv => ?_
    rw [List.mem_singleton.mp hm'] at hbb hv
    obtain rfl := d.bb_injective (hdst.symm.trans hbb)
    exact hnoreq q num hv

theorem Inv.handle (h : Inv d ld log sent) (hcarried : ∀ m ∈ log.map Prod.fst, m ∈ sent)
    {m : Envelope} {r : Word} {out : LD × List Envelope} (hm : m ∈ sent)
    (hhandle : handle d ld m r = .ok out) : Inv d out.1 (log ++ [(m, r)]) (sent ++ out.2) := by
  unfold TestGateway.handle at hhandle
  split at hhandle
  · rename_i hdst
    obtain ⟨r', hprocess, rfl⟩ := map_eq_ok.mp hhandle
    exact h.processData hcarried hm hdst hprocess
  split at hhandle
  · rename_i hdst
    obtain ⟨r', hprocess, rfl⟩ := map_eq_ok.mp hhandle
    exact h.testBB (k := .bb1) hdst hprocess
  split at hhandle
  · rename_i hdst
    obtain ⟨r', hprocess, rfl⟩ := map_eq_ok.mp hhandle
    exact h.testBB (k := .bb2) hdst hprocess
  · rename_i hbf hbb1 hbb2
    obtain rfl := Except.ok.inj hhandle
    have hclient : ∀ m' ∈ [m], m'.dst ≠ d.bf := by
      intro m' hm'
      rwa [List.mem_singleton.mp hm']
    refine h.ignore r (fun q => requests_eq_nil hclient)
      (fun q => arrivals_eq_nil fun m' hm' hdst => absurd hdst (hclient m' hm'))
      fun q => forwards_eq_nil fun m' hm' _ k num hbb => ?_
    rw [List.mem_singleton.mp hm'] at hbb
    cases k with
    | bb1 => exact absurd hbb hbb1
    | bb2 => exact absurd hbb hbb2

end

/-- **Every run keeps the invariant.** -/
theorem runs_inv {es : List (Network.Event Envelope Word)}
    (hclients : Along (Network.step (handle d)) (Admits (FromClient d)) start es)
    {s : State LD Envelope Word} (hrun : exec (Network.step (handle d)) start es = .ok s) :
    Inv d s.parties s.log s.sent ∧ ∀ m ∈ s.arrived, m ∈ s.sent :=
  Network.history_inv (fun hm h => h.send hm)
    (fun h hcarried hm hhandle => h.handle hcarried hm hhandle)
    start_inv hclients hrun

end Kknf.Asio2.TestGateway
