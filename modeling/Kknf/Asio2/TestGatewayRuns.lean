/-
# What the clients of the `asio-based2` gateway are sent

Over every run of the parties of `Kknf.Asio2.TestGateway`, from an empty table.  Clients have
addresses of their own, and send nothing that looks like a response of a backend (`FromClient`).

* `gateway_replies_exact` says what a client is sent, whatever the network does: a reply for every
  response that arrives once both are there, each with the sum of all responses up to then.
* `gateway_replies_once`: without duplicates this is one reply for one request.
* `no_read_outside`: as long as the clients send whole packets the parties do, too, and no field is
  read outside a buffer.
* `callbacks_agree`: the gateway of `cb_lv_bf.cc`, which has a callback for the responses of each
  backend, has the same runs.  One of its callbacks takes a packet of any type for a response
  (`receiveRspFromBB2CallBack_other`); no backend sends such a packet.
-/
import Kknf.Asio2.TestGateway

namespace Kknf.Asio2.TestGateway

open Kknf.Words Kknf.Run
open Network (Handler State Admits NoDuplicate)

variable {d : Deployment}

/-! ## 1. The replies -/

/-- A number that arrives is one of the two that went on, with what the backend has drawn for it. -/
theorem Inv.num_of_arrival {ld : LD} {log : List (Envelope × Word)} {sent : List Envelope}
    (h : Inv d ld log sent) (hcarried : ∀ m ∈ log.map Prod.fst, m ∈ sent) {q a b : Word}
    (hfwd : forwards d q sent = [(.bb1, a), (.bb2, b)]) {rsp : BB × Word}
    (hrsp : rsp ∈ arrivals d q (log.map Prod.fst)) :
    ∃ die, (rsp = (.bb1, a + die) ∧ ((.bb1, a), die) ∈ forwardsDrawn d q log) ∨
      (rsp = (.bb2, b + die) ∧ ((.bb2, b), die) ∈ forwardsDrawn d q log) := by
  obtain ⟨m, hm, harrival⟩ := List.mem_filterMap.mp hrsp
  obtain ⟨⟨req, die⟩, hdrawn, hmem, rfl⟩ :=
    h.mem_forwards hcarried (List.mem_filterMap.mpr ⟨m, hcarried m hm, harrival⟩)
  rw [hfwd] at hmem
  rcases List.mem_pair.mp hmem with rfl | rfl
  · exact ⟨die, Or.inl ⟨rfl, hdrawn⟩⟩
  · exact ⟨die, Or.inr ⟨rfl, hdrawn⟩⟩

/-- **The replies, whatever the network does.**  In every run a number that was not requested has no
history; else the first request that arrives is the one that is served.  Its numbers go to the
backends once, every response that arrives is one of them with what that backend has drawn for it,
and the client is sent a reply for each response that arrives when both backends have responded,
with the sum of all responses up to it and of what was in the memory when that request arrived.  The
entry stays, so that the number is taken for ever. -/
theorem gateway_replies_exact {es : List (Network.Event Envelope Word)}
    (hclients : Along (Network.step (handle d)) (Admits (FromClient d)) start es)
    {s : State LD Envelope Word} (hrun : exec (Network.step (handle d)) start es = .ok s)
    (q : Word) :
    (s.parties q = none ∧ requests d q s.arrived = [] ∧ arrivals d q s.arrived = [] ∧
        forwards d q s.sent = [] ∧ replies d q s.sent = []) ∨
      ((s.parties q).isSome ∧ ∃ client a b g rest,
        requestsDrawn d q s.log = ((client, a, b), g) :: rest ∧
        forwards d q s.sent = [(.bb1, a), (.bb2, b)] ∧
        (∀ rsp ∈ arrivals d q s.arrived, ∃ die,
          (rsp = (.bb1, a + die) ∧ ((.bb1, a), die) ∈ forwardsDrawn d q s.log) ∨
            (rsp = (.bb2, b + die) ∧ ((.bb2, b), die) ∈ forwardsDrawn d q s.log)) ∧
        replies d q s.sent =
          (completions (arrivals d q s.arrived)).map fun l => (client, sumFrom g l)) := by
  obtain ⟨hinv, hcarried⟩ := runs_inv hclients hrun
  have htable := hinv.table q
  cases hentry : s.parties q with
  | none =>
    rw [hentry] at htable
    exact Or.inl ⟨rfl, htable.requests, htable.arrivals, htable.forwards, htable.replies⟩
  | some e =>
    rw [hentry] at htable
    obtain ⟨a, b, g, rest, hreq, hfwd, -, hrep⟩ := htable
    exact Or.inr ⟨rfl, e.client, a, b, g, rest, hreq, hfwd,
      fun _ hrsp => hinv.num_of_arrival hcarried hfwd hrsp, hrep⟩

/-- Parties of which the gateway is at port 1. -/
def home : Deployment where
  o := .little
  bf := ⟨0, 1⟩
  bb1 := ⟨0, 2⟩
  bb2 := ⟨0, 3⟩
  bf_ne_bb1 := by decide
  bf_ne_bb2 := by decide
  bb1_ne_bb2 := by decide

/-- The request number 7, for 1 and 2, of the client at port 9. -/
def request7 : Envelope := ⟨⟨0, 9⟩, ⟨0, 1⟩, TwoNumbers.bytes .little ⟨0, 1, 7, 1, 2⟩⟩

theorem request7_fromClient : FromClient home request7 :=
  ⟨by decide, by rintro (_ | _) <;> decide, by rintro - (_ | _) <;> decide⟩

/-- The backends add 10 and 20; the response of the first is duplicated on its way. -/
def duplicatedResponse : List (Network.Event Envelope Word) :=
  [.send request7, .arrive 0 100, .arrive 0 10, .arrive 0 20, .duplicate 0, .arrive 0 0,
    .arrive 0 0, .arrive 0 0]

theorem duplicatedResponse_fromClient :
    Along (Network.step (handle home)) (Admits (FromClient home)) start duplicatedResponse := by
  refine Network.along_admits fun m hm => ?_
  have hrequest : m = request7 := by simpa [duplicatedResponse] using hm
  exact hrequest ▸ request7_fromClient

/-- The client is sent two replies, with different sums. -/
theorem duplicatedResponse_replies :
    ∃ s, exec (Network.step (handle home)) start duplicatedResponse = .ok s ∧
    replies home 7 s.sent = [(⟨0, 9⟩, 133), (⟨0, 9⟩, 144)] ∧
    ((s.parties 7 = none ∧ requests home 7 s.arrived = [] ∧ arrivals home 7 s.arrived = [] ∧
        forwards home 7 s.sent = [] ∧ replies home 7 s.sent = []) ∨
      ((s.parties 7).isSome ∧ ∃ client a b g rest,
        requestsDrawn home 7 s.log = ((client, a, b), g) :: rest ∧
        forwards home 7 s.sent = [(.bb1, a), (.bb2, b)] ∧
        (∀ rsp ∈ arrivals home 7 s.arrived, ∃ die,
          (rsp = (.bb1, a + die) ∧ ((.bb1, a), die) ∈ forwardsDrawn home 7 s.log) ∨
            (rsp = (.bb2, b + die) ∧ ((.bb2, b), die) ∈ forwardsDrawn home 7 s.log)) ∧
        replies home 7 s.sent =
          (completions (arrivals home 7 s.arrived)).map fun l => (client, sumFrom g l))) := by
  have hends : (exec (Network.step (handle home)) start duplicatedResponse).map
      (fun s => replies home 7 s.sent) = .ok [(⟨0, 9⟩, 133), (⟨0, 9⟩, 144)] := by decide +kernel
  obtain ⟨s, hrun, hreplies⟩ := map_eq_ok.mp hends
  exact ⟨s, hrun, hreplies, gateway_replies_exact duplicatedResponse_fromClient hrun 7⟩

/-! ## 2. Without duplicates -/

/-- More responses do not make a list incomplete. -/
theorem complete_of_isPrefix {l l' : List (BB × Word)} (hbegins : l' <+: l)
    (h : complete l' = true) :
    complete l = true := by
  simp only [complete, Bool.and_eq_true, List.any_eq_true] at h ⊢
  obtain ⟨⟨x, hx, hx'⟩, y, hy, hy'⟩ := h
  exact ⟨⟨x, hbegins.subset hx, hx'⟩, y, hbegins.subset hy, hy'⟩

theorem completions_eq_nil {l : List (BB × Word)} (h : complete l = false) :
    completions l = [] := by
  refine List.filter_eq_nil_iff.mpr fun l' hl' hcomplete => ?_
  have hwhole := complete_of_isPrefix ((List.mem_inits ..).mp hl') hcomplete
  rw [h] at hwhole
  cases hwhole

/-- A complete list with one response of each backend at most. -/
theorem two_of_complete {l : List (BB × Word)} (hnodup : (l.map Prod.fst).Nodup)
    (h : complete l = true) :
    ∃ x y, l = [(.bb1, x), (.bb2, y)] ∨ l = [(.bb2, y), (.bb1, x)] := by
  match l with
  | [] => cases h
  | [(k, x)] => cases k <;> cases h
  | [(.bb1, x), (.bb2, y)] => exact ⟨x, y, Or.inl rfl⟩
  | [(.bb2, y), (.bb1, x)] => exact ⟨x, y, Or.inr rfl⟩
  | [(.bb1, x), (.bb1, y)] => simp at hnodup
  | [(.bb2, x), (.bb2, y)] => simp at hnodup
  | (k₁, x) :: (k₂, y) :: (k₃, z) :: l => cases k₁ <;> cases k₂ <;> cases k₃ <;> simp at hnodup

/-- Both orders of the two responses come to one reply, of one sum. -/
theorem sums_of_two {l : List (BB × Word)} {x y : Word}
    (h : l = [(.bb1, x), (.bb2, y)] ∨ l = [(.bb2, y), (.bb1, x)]) (client : TCPEndpoint)
    (g : Word) :
    (completions l).map (fun l' => (client, sumFrom g l')) = [(client, g + x + y)] := by
  rcases h with rfl | rfl
  · rfl
  · have hswap : sumFrom g [(.bb2, y), (.bb1, x)] = g + x + y := by
      simp only [sumFrom, List.foldl_cons, List.foldl_nil]
      ac_rfl
    rw [← hswap]
    rfl

/-- The backends are those of the requests they answer. -/
theorem Inv.keys_of_answered {ld : LD} {log : List (Envelope × Word)} {sent : List Envelope}
    (h : Inv d ld log sent) (q : Word) : (arrivals d q sent).map Prod.fst =
      (forwards d q (log.map Prod.fst)).map Prod.fst := by
  rw [h.answered, ← forwardsDrawn_fst, List.map_map, List.map_map]
  rfl

/-- **Without duplicates each backend is heard once**: it is asked once, and it answers once. -/
theorem arrivals_nodup {es : List (Network.Event Envelope Word)}
    (hclients : Along (Network.step (handle d)) (Admits (FromClient d)) start es)
    (hno : Along (Network.step (handle d)) NoDuplicate start es) {s : State LD Envelope Word}
    (hrun : exec (Network.step (handle d)) start es = .ok s) (q : Word) :
    ((arrivals d q s.arrived).map Prod.fst).Nodup := by
  obtain ⟨hinv, -⟩ := runs_inv hclients hrun
  have hsub : s.arrived.Subperm s.sent := Network.arrived_subperm_sent hno hrun
  have hkeys : ∀ f : Envelope → Option (BB × Word),
      ((s.arrived.filterMap f).map Prod.fst).Subperm ((s.sent.filterMap f).map Prod.fst) := by
    intro f
    rw [List.map_filterMap, List.map_filterMap]
    exact Network.subperm_filterMap _ hsub
  have harrivals : ((arrivals d q s.arrived).map Prod.fst).Subperm
      ((forwards d q s.arrived).map Prod.fst) := by
    rw [State.arrived, ← hinv.keys_of_answered q]
    exact hkeys _
  have hasked : ((forwards d q s.sent).map Prod.fst).Nodup := by
    have htable := hinv.table q
    cases hentry : s.parties q with
    | none =>
      rw [hentry] at htable
      rw [htable.forwards]
      exact List.nodup_nil
    | some e =>
      rw [hentry] at htable
      obtain ⟨a, b, g, rest, -, hfwd, -⟩ := htable
      rw [hfwd]
      simp
  obtain ⟨l, hperm, hl⟩ := harrivals.trans (hkeys (forward d q))
  exact hperm.nodup_iff.mp (hl.nodup hasked)

/-- A list of requests, each with its choice, that are these two. -/
theorem drawn_pair {l : List ((BB × Word) × Word)} {a b : Word} (hlength : 2 ≤ l.length)
    (hsub : (l.map Prod.fst).Subperm [(.bb1, a), (.bb2, b)]) :
    ∃ die₁ die₂, l.Perm [((.bb1, a), die₁), ((.bb2, b), die₂)] := by
  have hperm : (l.map Prod.fst).Perm [(.bb1, a), (.bb2, b)] :=
    hsub.perm_of_length_le (by simpa using hlength)
  have hdrawn : ∀ x ∈ [(BB.bb1, a), (BB.bb2, b)], ∃ die, (x, die) ∈ l := by
    intro x hx
    obtain ⟨⟨x', die⟩, hmem, rfl⟩ := List.mem_map.mp (hperm.mem_iff.mpr hx)
    exact ⟨die, hmem⟩
  obtain ⟨die₁, hbb1⟩ := hdrawn (.bb1, a) (by simp)
  obtain ⟨die₂, hbb2⟩ := hdrawn (.bb2, b) (by simp)
  refine ⟨die₁, die₂, List.Perm.symm ?_⟩
  have hboth : [((BB.bb1, a), die₁), ((BB.bb2, b), die₂)].Subperm l :=
    List.subperm_of_subset (by simp) (by simp [hbb1, hbb2])
  have hshort : l.length = 2 := by simpa using hperm.length_eq
  exact hboth.perm_of_length_le (by simp [hshort])

/-- **Without duplicates**: a client is sent no reply until both responses have arrived, and one
when they have.  Its sum is that of the two numbers of the first request, of what the two backends
drew when they were asked, and of what was in the memory when that request arrived. -/
theorem gateway_replies_once {es : List (Network.Event Envelope Word)}
    (hclients : Along (Network.step (handle d)) (Admits (FromClient d)) start es)
    (hno : Along (Network.step (handle d)) NoDuplicate start es) {s : State LD Envelope Word}
    (hrun : exec (Network.step (handle d)) start es = .ok s) (q : Word) :
    (complete (arrivals d q s.arrived) = false ∧ replies d q s.sent = []) ∨
      ∃ client a b g rest die₁ die₂, requestsDrawn d q s.log = ((client, a, b), g) :: rest ∧
        (forwardsDrawn d q s.log).Perm [((.bb1, a), die₁), ((.bb2, b), die₂)] ∧
        (arrivals d q s.arrived).Perm [(.bb1, a + die₁), (.bb2, b + die₂)] ∧
        replies d q s.sent = [(client, g + (a + die₁) + (b + die₂))] := by
  obtain ⟨hinv, hcarried⟩ := runs_inv hclients hrun
  have hnodup := arrivals_nodup hclients hno hrun q
  have hsub : s.arrived.Subperm s.sent := Network.arrived_subperm_sent hno hrun
  have htable := hinv.table q
  cases hentry : s.parties q with
  | none =>
    rw [hentry] at htable
    exact Or.inl ⟨by rw [State.arrived, htable.arrivals]; rfl, htable.replies⟩
  | some e =>
    rw [hentry] at htable
    obtain ⟨a, b, g, rest, hreq, hfwd, -, hrep⟩ := htable
    cases hcomplete : complete (arrivals d q s.arrived) with
    | false =>
      refine Or.inl ⟨rfl, hrep.trans ?_⟩
      rw [← State.arrived, completions_eq_nil hcomplete, List.map_nil]
    | true =>
      obtain ⟨x, y, hlist⟩ := two_of_complete hnodup hcomplete
      have htwo : (arrivals d q s.arrived).length = 2 := by
        rcases hlist with hlist | hlist <;> simp [hlist]
      -- what has arrived is all that the backends have answered
      have hheard : (arrivals d q s.arrived).Subperm ((forwardsDrawn d q s.log).map answerTo) := by
        rw [← hinv.answered]
        exact Network.subperm_filterMap _ hsub
      have hasked : ((forwardsDrawn d q s.log).map Prod.fst).Subperm [(.bb1, a), (.bb2, b)] := by
        rw [forwardsDrawn_fst, ← hfwd]
        exact Network.subperm_filterMap _ hsub
      have hmany : 2 ≤ (forwardsDrawn d q s.log).length := by
        have hlength := hheard.length_le
        rwa [htwo, List.length_map] at hlength
      obtain ⟨die₁, die₂, hdrawn⟩ := drawn_pair hmany hasked
      have harrived : (arrivals d q s.arrived).Perm [(.bb1, a + die₁), (.bb2, b + die₂)] := by
        have hanswers := hdrawn.map answerTo
        have hlength : ((forwardsDrawn d q s.log).map answerTo).length
            ≤ (arrivals d q s.arrived).length := by
          rw [hanswers.length_eq, htwo]
          exact Nat.le_refl 2
        exact (hheard.perm_of_length_le hlength).trans hanswers
      have hx : x = a + die₁ := by
        have hmem : (BB.bb1, x) ∈ [(BB.bb1, a + die₁), (BB.bb2, b + die₂)] :=
          harrived.mem_iff.mp (by rcases hlist with hlist | hlist <;> simp [hlist])
        simpa using hmem
      have hy : y = b + die₂ := by
        have hmem : (BB.bb2, y) ∈ [(BB.bb1, a + die₁), (BB.bb2, b + die₂)] :=
          harrived.mem_iff.mp (by rcases hlist with hlist | hlist <;> simp [hlist])
        simpa using hmem
      subst hx hy
      exact Or.inr ⟨e.client, a, b, g, rest, die₁, die₂, hreq, hdrawn, harrived,
        hrep.trans (sums_of_two hlist ..)⟩

/-- The response of the second backend is the first to arrive. -/
def overtakingResponse : List (Network.Event Envelope Word) :=
  [.send request7, .arrive 0 100, .arrive 0 10, .arrive 0 20, .arrive 1 0, .arrive 0 0]

theorem overtakingResponse_fromClient :
    Along (Network.step (handle home)) (Admits (FromClient home)) start overtakingResponse := by
  refine Network.along_admits fun m hm => ?_
  have hrequest : m = request7 := by simpa [overtakingResponse] using hm
  exact hrequest ▸ request7_fromClient

theorem overtakingResponse_noDuplicate :
    Along (Network.step (handle home)) NoDuplicate start overtakingResponse := by
  refine along_of_forall fun e he t => ?_
  simp only [overtakingResponse, List.mem_cons, List.not_mem_nil, or_false] at he
  rcases he with rfl | rfl | rfl | rfl | rfl | rfl <;> exact trivial

/-- The reply has 133: 100 were in the memory, the request is for 1 and 2, and 10 and 20 were
drawn. -/
theorem overtakingResponse_reply :
    ∃ s, exec (Network.step (handle home)) start overtakingResponse = .ok s ∧
    replies home 7 s.sent = [(⟨0, 9⟩, 133)] ∧
    ((complete (arrivals home 7 s.arrived) = false ∧ replies home 7 s.sent = []) ∨
      ∃ client a b g rest die₁ die₂, requestsDrawn home 7 s.log = ((client, a, b), g) :: rest ∧
        (forwardsDrawn home 7 s.log).Perm [((.bb1, a), die₁), ((.bb2, b), die₂)] ∧
        (arrivals home 7 s.arrived).Perm [(.bb1, a + die₁), (.bb2, b + die₂)] ∧
        replies home 7 s.sent = [(client, g + (a + die₁) + (b + die₂))]) := by
  have hends : (exec (Network.step (handle home)) start overtakingResponse).map
      (fun s => replies home 7 s.sent) = .ok [(⟨0, 9⟩, 133)] := by decide +kernel
  obtain ⟨s, hrun, hreplies⟩ := map_eq_ok.mp hends
  exact ⟨s, hrun, hreplies,
    gateway_replies_once overtakingResponse_fromClient overtakingResponse_noDuplicate hrun 7⟩

/-! ## 3. What is sent by the parties -/

/-- A packet of the gateway: a request to a backend, or a reply. -/
def OfGateway (d : Deployment) (m : Envelope) : Prop :=
  m.src = d.bf ∧ ((∃ k seq num, view d.o m.data = .reqToBB k seq num) ∨
    ∃ seq sum error, view d.o m.data = .rspFromBF seq sum error)

/-- A packet of a backend: a response of its own. -/
def OfBackend (d : Deployment) (m : Envelope) : Prop :=
  ∃ k seq num, m.src = d.bb k ∧ view d.o m.data = .rspFromBB k seq num

/-- An entry holds a reply. -/
def Prepared (ld : LD) : Prop := ∀ q e, ld q = some e → e.rsp.type = PacketType.rspFromBF.word

theorem prepared_update {ld : LD} (h : Prepared ld) (q : Word) {e : ReqLocalData}
    (he : e.rsp.type = PacketType.rspFromBF.word) : Prepared (Function.update ld q (some e)) := by
  intro q' e' hentry
  by_cases hq : q' = q
  · subst hq
    rw [Function.update_self] at hentry
    obtain rfl := Option.some.inj hentry
    exact he
  · rw [Function.update_of_ne hq] at hentry
    exact h q' e' hentry

theorem addRsp_type (k : BB) (num : Word) (e : ReqLocalData) :
    (addRsp k num e).rsp.type = e.rsp.type := by
  cases k <;> rfl

theorem newRequest_ofGateway {ld : LD} (h : Prepared ld) (src : TCPEndpoint) (u : Word)
    (req : TwoNumbers) :
    Prepared ((newRequest d ld src u req).envelopes d.bf).1 ∧
      ∀ m ∈ ((newRequest d ld src u req).envelopes d.bf).2, OfGateway d m := by
  cases hentry : ld req.seq with
  | none =>
    rw [newRequest_of_none src u hentry]
    refine ⟨prepared_update h req.seq rfl, fun m hm => ?_⟩
    simp only [toBackends, List.mem_cons, List.not_mem_nil, or_false] at hm
    rcases hm with rfl | rfl
    · exact ⟨rfl, Or.inl ⟨.bb1, req.seq, req.num1, view_reqToBB ..⟩⟩
    · exact ⟨rfl, Or.inl ⟨.bb2, req.seq, req.num2, view_reqToBB ..⟩⟩
  | some e =>
    rw [newRequest_of_some src u hentry]
    exact ⟨h, by rintro m ⟨⟩⟩

theorem replyToClient_ofGateway {ld : LD} (h : Prepared ld) (q : Word) :
    ((replyToClient d ld q).envelopes d.bf).1 = ld ∧
      ∀ m ∈ ((replyToClient d ld q).envelopes d.bf).2, OfGateway d m := by
  unfold replyToClient
  cases hentry : ld q with
  | none => exact ⟨rfl, by rintro m ⟨⟩⟩
  | some e =>
    dsimp only
    split
    · refine ⟨rfl, fun m hm => ?_⟩
      obtain rfl := List.mem_singleton.mp hm
      have hview := view_rspFromBF d.o e.rsp.len e.rsp.seq e.rsp.num1 e.rsp.num2
      rw [← h q e hentry] at hview
      exact ⟨rfl, Or.inr ⟨_, _, _, hview⟩⟩
    · exact ⟨rfl, by rintro m ⟨⟩⟩

theorem receiveRsp_ofGateway {ld : LD} (h : Prepared ld) (k : BB) (rsp : OneNumber) :
    Prepared ((receiveRsp d ld k rsp).envelopes d.bf).1 ∧
      ∀ m ∈ ((receiveRsp d ld k rsp).envelopes d.bf).2, OfGateway d m := by
  unfold receiveRsp
  cases hentry : ld rsp.seq with
  | none => exact ⟨h, by rintro m ⟨⟩⟩
  | some e =>
    have hprepared : Prepared (Function.update ld rsp.seq (some (addRsp k rsp.num e))) :=
      prepared_update h rsp.seq ((addRsp_type ..).trans (h rsp.seq e hentry))
    obtain ⟨hsame, hout⟩ := replyToClient_ofGateway (d := d) hprepared rsp.seq
    exact ⟨by rw [hsame]; exact hprepared, hout⟩

/-- **Every packet sent by a party is whole, and of a type of its own.** -/
theorem handle_sends {ld : LD} (h : Prepared ld) {m : Envelope} {r : Word}
    {out : LD × List Envelope} (hhandle : handle d ld m r = .ok out) :
    Prepared out.1 ∧ ∀ m' ∈ out.2, OfGateway d m' ∨ OfBackend d m' := by
  have hbackend : ∀ k r', testBB d.o k ld m.data m.src r = .ok r' →
      Prepared (r'.envelopes (d.bb k)).1 ∧ ∀ m' ∈ (r'.envelopes (d.bb k)).2, OfGateway d m' ∨
        OfBackend d m' := by
    intro k r' hprocess
    rcases testBB_cases d.o k ld m.data m.src r with ⟨req, -, hcase⟩ | ⟨-, hcase⟩ | ⟨-, hcase⟩ <;>
      rw [hcase] at hprocess
    · obtain rfl := Except.ok.inj hprocess
      refine ⟨h, fun m' hm' => ?_⟩
      rw [List.mem_singleton.mp hm']
      exact Or.inr ⟨k, req.seq, req.num + r, rfl, view_rspFromBB ..⟩
    · cases hprocess
    · obtain rfl := Except.ok.inj hprocess
      exact ⟨h, by rintro m ⟨⟩⟩
  unfold handle at hhandle
  split at hhandle
  · obtain ⟨r', hprocess, rfl⟩ := map_eq_ok.mp hhandle
    rcases processData_cases ld m.data m.src r with ⟨req, -, hcase⟩ | ⟨k, rsp, -, hcase⟩ |
      ⟨-, hcase⟩ | ⟨-, hcase⟩ <;> rw [hcase] at hprocess
    · obtain rfl := Except.ok.inj hprocess
      obtain ⟨hprepared, hout⟩ := newRequest_ofGateway (d := d) h m.src r req
      exact ⟨hprepared, fun m' hm' => Or.inl (hout m' hm')⟩
    · obtain rfl := Except.ok.inj hprocess
      obtain ⟨hprepared, hout⟩ := receiveRsp_ofGateway (d := d) h k rsp
      exact ⟨hprepared, fun m' hm' => Or.inl (hout m' hm')⟩
    · cases hprocess
    · obtain rfl := Except.ok.inj hprocess
      exact ⟨h, by rintro m ⟨⟩⟩
  split at hhandle
  · obtain ⟨r', hprocess, rfl⟩ := map_eq_ok.mp hhandle
    exact hbackend .bb1 r' hprocess
  split at hhandle
  · obtain ⟨r', hprocess, rfl⟩ := map_eq_ok.mp hhandle
    exact hbackend .bb2 r' hprocess
  · obtain rfl := Except.ok.inj hhandle
    exact ⟨h, by rintro m ⟨⟩⟩

theorem OfGateway.typeOf {m : Envelope} (h : OfGateway d m) :
    ∃ t, typeOf d.o m.data = some (PacketType.word t) ∧ ∀ k, t ≠ .rspFromBB k := by
  obtain ⟨-, ⟨k, seq, num, hview⟩ | ⟨seq, sum, error, hview⟩⟩ := h
  · exact ⟨.reqToBB k, typeOf_of_view (by rw [hview]; rfl), by simp⟩
  · exact ⟨.rspFromBF, typeOf_of_view (by rw [hview]; rfl), by simp⟩

/-! ## 4. No field is read outside a buffer -/

theorem handle_ne_error {ld : LD} {m : Envelope} {r : Word} (hview : view d.o m.data ≠ .short) :
    handle d ld m r ≠ .error .outOfBounds := by
  intro herror
  unfold handle at herror
  split at herror
  · have hprocess := map_eq_error herror
    rcases processData_cases ld m.data m.src r with ⟨req, -, hcase⟩ | ⟨k, rsp, -, hcase⟩ |
      ⟨hshort, -⟩ | ⟨-, hcase⟩
    · rw [hcase] at hprocess
      cases hprocess
    · rw [hcase] at hprocess
      cases hprocess
    · exact hview hshort
    · rw [hcase] at hprocess
      cases hprocess
  have hbackend : ∀ k, testBB d.o k ld m.data m.src r ≠ .error .outOfBounds := by
    intro k hprocess
    rcases testBB_cases d.o k ld m.data m.src r with ⟨req, -, hcase⟩ | ⟨hshort, -⟩ | ⟨-, hcase⟩
    · rw [hcase] at hprocess
      cases hprocess
    · exact hview hshort
    · rw [hcase] at hprocess
      cases hprocess
  split at herror
  · exact hbackend .bb1 (map_eq_error herror)
  split at herror
  · exact hbackend .bb2 (map_eq_error herror)
  · cases herror

/-- What the parties send is whole. -/
theorem handle_sends_whole {ld : LD} (h : Prepared ld) {m : Envelope} {r : Word}
    {out : LD × List Envelope} (hhandle : handle d ld m r = .ok out) :
    Prepared out.1 ∧ ∀ m' ∈ out.2, view d.o m'.data ≠ .short := by
  obtain ⟨hkept, hout⟩ := handle_sends h hhandle
  refine ⟨hkept, fun m' hm' hshort => ?_⟩
  rcases hout m' hm' with ⟨-, ⟨k, seq, num, hview⟩ | ⟨seq, sum, error, hview⟩⟩ |
    ⟨k, seq, num, -, hview⟩ <;> rw [hview] at hshort <;> cases hshort

/-- **The parties read no field outside a buffer.**  What they send, to each other and to the
clients, is whole: if the clients send no packet that is shorter than the struct of its type, none
is sent that is, and none is handled, in any run. -/
theorem no_read_outside {es : List (Network.Event Envelope Word)}
    (hclients : Along (Network.step (handle d))
      (Admits fun m => view d.o m.data ≠ .short) start es) :
    exec (Network.step (handle d)) start es ≠ .error (.handler .outOfBounds) ∧
      ∀ s, exec (Network.step (handle d)) start es = .ok s →
      ∀ m ∈ s.sent, view d.o m.data ≠ .short := by
  have hempty : Prepared fun _ => none := by rintro q e ⟨⟩
  constructor
  · exact Network.handler_safe (I := Prepared) (P := fun m => view d.o m.data ≠ .short)
      (fun m hm => hm)
      (fun hprepared _ hhandle => handle_sends_whole hprepared hhandle)
      (fun _ hview => handle_ne_error hview) hempty hclients
  · intro s hrun
    have hinv := Network.history_inv
      (I := fun ld _ sent => Prepared ld ∧ ∀ m ∈ sent, view d.o m.data ≠ .short)
      (fun hm ⟨hprepared, hsent⟩ => ⟨hprepared, by simpa [or_imp, forall_and] using ⟨hsent, hm⟩⟩)
      (fun ⟨hprepared, hsent⟩ _ _ hhandle => by
        obtain ⟨hkept, hout⟩ := handle_sends_whole hprepared hhandle
        exact ⟨hkept, fun m' hm' => (List.mem_append.mp hm').elim (hsent m') (hout m')⟩)
      ⟨hempty, by rintro m ⟨⟩⟩ hclients hrun
    exact hinv.1.2

/-- The run with the duplicate, where the client sends a whole packet, and so do the parties. -/
theorem duplicatedResponse_whole :
    (∃ s, exec (Network.step (handle home)) start duplicatedResponse = .ok s ∧
      s.arrived.length = 6 ∧
        s.sent.length = 7 ∧ ∀ m ∈ s.sent, view home.o m.data ≠ .short) ∧
      exec (Network.step (handle home)) start duplicatedResponse ≠
        .error (.handler .outOfBounds) := by
  have hends : (exec (Network.step (handle home)) start duplicatedResponse).map
      (fun s => (s.arrived.length, s.sent.length)) = .ok (6, 7) := by decide +kernel
  obtain ⟨s, hs, hend⟩ := map_eq_ok.mp hends
  simp only [Prod.mk.injEq] at hend
  have hclients : Along (Network.step (handle home)) (Admits fun m => view home.o m.data ≠ .short)
      start duplicatedResponse := by
    refine Network.along_admits fun m hm => ?_
    have hrequest : m = request7 := by simpa [duplicatedResponse] using hm
    rw [hrequest]
    decide
  obtain ⟨hsafe, hwhole⟩ := no_read_outside hclients
  exact ⟨⟨s, hs, hend.1, hend.2, hwhole s hs⟩, hsafe⟩

/-! ## 5. The callbacks -/

/-- **What the missing `else` comes to.**  A packet that is no response is refused by the callback
for the first backend; the one for the second takes it for its sequence number, and sends the reply
that is in the entry, if it is complete, once more. -/
theorem receiveRspFromBB2CallBack_other {ld : LD} {buf : List Byte} {type seq : Word}
    (htype : typeOf d.o buf = some type) (hseq : seqOf d.o buf = some seq)
    (hother : ∀ k, type ≠ (PacketType.rspFromBB k).word) :
    receiveRspFromBB1CallBack d ld buf = .ok ⟨-1, ld, []⟩ ∧
      receiveRspFromBB2CallBack d ld buf = .ok (replyToClient d ld seq) := by
  constructor
  · simp only [receiveRspFromBB1CallBack, htype, if_neg (hother .bb1)]
  · simp only [receiveRspFromBB2CallBack, htype, if_neg (hother .bb2), hseq]

/-- A packet that comes from a backend is a response of it, and no other is one. -/
def Sorted (d : Deployment) (m : Envelope) : Prop :=
  (∀ k, m.src = d.bb k → typeOf d.o m.data = some (PacketType.rspFromBB k).word) ∧
    (m.dst = d.bf → ∀ k, typeOf d.o m.data = some (PacketType.rspFromBB k).word → m.src = d.bb k)

/-- On such packets the callbacks do what `ProcessData` does. -/
theorem handle_eq_handleCallBack {ld : LD} {m : Envelope} {r : Word} (h : Sorted d m) :
    handle d ld m r = handleCallBack d ld m r := by
  obtain ⟨hbackend, hresponse⟩ := h
  unfold handleCallBack
  by_cases hdst : m.dst = d.bf
  · rw [if_pos hdst]
    have hhandle : handle d ld m r =
        (processData d ld m.data m.src r).map (Done.envelopes d.bf) := by
      rw [handle, if_pos hdst]
    rw [hhandle]
    by_cases hbb1 : m.src = d.bb1
    · have htype := hbackend .bb1 hbb1
      rw [if_pos hbb1, processData, receiveRspFromBB1CallBack, htype]
      rfl
    by_cases hbb2 : m.src = d.bb2
    · have htype := hbackend .bb2 hbb2
      rw [if_neg hbb1, if_pos hbb2, processData, receiveRspFromBB2CallBack, htype]
      rfl
    · rw [if_neg hbb1, if_neg hbb2, processData, processDataCallBack]
      cases htype : typeOf d.o m.data with
      | none => rfl
      | some type =>
        have h1 : type ≠ (PacketType.rspFromBB .bb1).word := by
          rintro rfl
          exact hbb1 (hresponse hdst .bb1 htype)
        have h2 : type ≠ (PacketType.rspFromBB .bb2).word := by
          rintro rfl
          exact hbb2 (hresponse hdst .bb2 htype)
        simp only [if_neg h1, if_neg h2]
  · rw [if_neg hdst]

/-- **The callbacks make no difference**: the two gateways have the same runs. -/
theorem callbacks_agree {es : List (Network.Event Envelope Word)}
    (hclients : Along (Network.step (handle d)) (Admits (FromClient d)) start es) :
    exec (Network.step (handleCallBack d)) start es = exec (Network.step (handle d)) start es := by
  have hempty : Prepared fun _ => none := by rintro q e ⟨⟩
  refine Network.exec_congr (I := Prepared) (P := Sorted d) ?_ ?_
    (fun _ h => handle_eq_handleCallBack h)
    ⟨hempty, by rintro m ⟨⟩⟩ hclients
  · rintro m ⟨-, hbb, htype⟩
    exact ⟨fun k hk => absurd hk (hbb k), fun hdst k hk => absurd hk (htype hdst k)⟩
  · intro ld m r out hprepared _ hhandle
    obtain ⟨hkept, hout⟩ := handle_sends hprepared hhandle
    refine ⟨hkept, fun m' hm' => ?_⟩
    rcases hout m' hm' with hgateway | ⟨k, seq, num, hsrc, hview⟩
    · obtain ⟨t, htype, hother⟩ := hgateway.typeOf
      refine ⟨fun k hk => absurd (hk.symm.trans hgateway.1) (d.bb_ne_bf k), fun _ k hk => ?_⟩
      exact absurd (PacketType.word_injective (Option.some.inj (htype.symm.trans hk))) (hother k)
    · have htype : typeOf d.o m'.data = some (PacketType.rspFromBB k).word :=
        typeOf_of_view (by rw [hview]; rfl)
      refine ⟨fun k' hk' => ?_, fun _ k' hk' => ?_⟩
      · rwa [← d.bb_injective (hsrc.symm.trans hk')]
      · have hkind := PacketType.word_injective (Option.some.inj (htype.symm.trans hk'))
        cases hkind
        exact hsrc

/-- With the duplicate, too, the second callback sends what `ProcessData` does. -/
theorem duplicatedResponse_callbacks :
    (exec (Network.step (handleCallBack home)) start duplicatedResponse).map
      (fun s => replies home 7 s.sent) =
        .ok [(⟨0, 9⟩, 133), (⟨0, 9⟩, 144)] ∧
      exec (Network.step (handleCallBack home)) start duplicatedResponse =
        exec (Network.step (handle home)) start duplicatedResponse :=
  ⟨by decide +kernel, callbacks_agree duplicatedResponse_fromClient⟩

end Kknf.Asio2.TestGateway
