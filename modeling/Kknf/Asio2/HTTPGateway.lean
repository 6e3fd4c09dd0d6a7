/-
# The gateway behind HTTP

`http_bf.cc` is `lv_bf.cc` for clients that talk HTTP: what comes in at a port it listens at is a
head and a content, and the content is what `lv_bf.cc` would have received; the reply goes out
behind a head.  The backends are talked to as before.

* `http_gateway_simulates`: the runs of this gateway are the runs of the other one, once the heads
  are taken off, so that what `Kknf.Asio2.TestGatewayRuns` says of those is true of these.
* `http_request_served` puts it behind the `Skeleton`, whose `recv_buf_filled` is wrong when a
  message comes in parts: `ProcessData` sees the request exactly when the running totals reach its
  end, and reads behind the end of the buffer otherwise.  A total that is too large does no harm
  here.
* `http_reply_read` is about the reply, and the client of `http_c.cc`.
-/
import Kknf.Asio2.HTTPFraming
import Kknf.Asio2.TestGatewayRuns

namespace Kknf.Asio2.TestGateway

open Kknf.Words Kknf.Run
open Network (Handler State Admits)

/-! ## 1. The programs -/

/-- `boost::lexical_cast<string>(boost::numeric_cast<int>(n))` -/
def lexicalCastString (n : Nat) : List Byte := (Nat.toDigits 10 n).map fun c => UInt8.ofNat c.toNat

/-- `http_rsp_header`: `"HTTP/1.1 200\r\nContent-Length 20\r\nServer: Nginx\r\n\r\n"` -/
def httpRspHeader : List Byte :=
  [72, 84, 84, 80, 47, 49, 46, 49, 32, 50, 48, 48, 13, 10] ++ contentLengthKey ++
    lexicalCastString TwoNumbers.size ++
    [13, 10, 83, 101, 114, 118, 101, 114, 58, 32, 78, 103, 105, 110, 120, 13, 10, 13, 10]

/-- `http_req_header` of `http_c.cc`:
`"POST /xxx HTTP/1.1\r\nContent-Length 20\r\nUser-Agent IE\r\n\r\n"` -/
def httpReqHeader : List Byte :=
  [80, 79, 83, 84, 32, 47, 120, 120, 120, 32, 72, 84, 84, 80, 47, 49, 46, 49, 13, 10] ++
    contentLengthKey ++ lexicalCastString TwoNumbers.size ++
    [13, 10, 85, 115, 101, 114, 45, 65, 103, 101, 110, 116, 32, 73, 69, 13, 10, 13, 10]

/-- What is behind the first `\r\n\r\n`. -/
def content (inputData : List Byte) : Option (List Byte) :=
  (search crlfCrlf inputData).map fun pos => inputData.drop (pos + 4)

/-- The gateway listens at the ports from `port_low_` to `port_high_` of `local_ip_`; `ownEnd` is
its own end of a connection, by the address of the other end.  Those to the backends are from other
ports. -/
structure HTTPDeployment extends Deployment where
  localIp : Nat
  portLow : Nat
  portHigh : Nat
  ownEnd : TCPEndpoint → TCPEndpoint
  listens_ownEnd : ∀ e, ((ownEnd e).address = localIp ∧ portLow ≤ (ownEnd e).port ∧
    (ownEnd e).port ≤ portHigh) ↔ ∀ k, e ≠ toDeployment.bb k

/-- The reply is sent behind a head. -/
def Done.withHeader (r : Done) : Done :=
  { r with out := r.out.map fun x => (x.1, httpRspHeader ++ x.2) }

/-- `baseptr`: the content of a request, or all of a packet of a backend. -/
def HTTPDeployment.base (h : HTTPDeployment) (inputData : List Byte) (dst : TCPEndpoint) :
    Option (List Byte) :=
  if dst.address = h.localIp ∧ h.portLow ≤ dst.port ∧ dst.port ≤ h.portHigh then content inputData
  else some inputData

/-- `TestBF::ProcessData` of `http_bf.cc`. -/
def processDataHTTP (h : HTTPDeployment) (ld : LD) (inputData : List Byte) (src dst : TCPEndpoint)
    (uninit : Word) : Except Fault Done :=
  match h.base inputData dst with
  | none => .ok ⟨-1, ld, []⟩
  | some base =>
    match typeOf h.o base with
    | none => .error .outOfBounds
    | some type =>
      if type = PacketType.reqToBF.word then
        castTwo h.o base (newRequest h.toDeployment ld src uninit)
      else if type = (PacketType.rspFromBB .bb1).word then
        castOne h.o base fun rsp => (receiveRsp h.toDeployment ld .bb1 rsp).withHeader
      else if type = (PacketType.rspFromBB .bb2).word then
        castOne h.o base fun rsp => (receiveRsp h.toDeployment ld .bb2 rsp).withHeader
      else .ok ⟨-1, ld, []⟩

/-- The network of `Kknf.Asio2.TestGateway`, with this gateway. -/
def handleHTTP (h : HTTPDeployment) : Handler LD Envelope Word Fault := fun ld m r =>
  if m.dst = h.bf then
    (processDataHTTP h ld m.data m.src (h.ownEnd m.src) r).map (Done.envelopes h.bf)
  else handle h.toDeployment ld m r

/-- `TestClient::ProcessData` of `http_c.cc`: what it returns, and the `RspFromBF` that it
prints. -/
def testClient (o : ByteOrder) (inputData : List Byte) : Except Fault (Int × Option TwoNumbers) :=
  match content inputData with
  | none => .ok (-1, none)
  | some base =>
    match TwoNumbers.read o base with
    | none => .error .outOfBounds
    | some rsp => .ok (1, some rsp)

/-! ## 2. The heads are taken off -/

instance BB.decidableForall {p : BB → Prop} [∀ k, Decidable (p k)] : Decidable (∀ k, p k) :=
  decidable_of_iff (p .bb1 ∧ p .bb2) ⟨fun hp k => by cases k <;> simp only [hp],
    fun hp => ⟨hp _, hp _⟩⟩

/-- What stands in the other network for a client's packet that has no `\r\n\r\n`: this gateway
refuses such a packet, and the other one takes no notice of these bytes. -/
def noContent : List Byte := List.replicate 8 0

/-- A packet between the gateway and a client, without its head. -/
def HTTPDeployment.unwrap (h : HTTPDeployment) (m : Envelope) : Envelope :=
  if (m.dst = h.bf ∧ ∀ k, m.src ≠ h.bb k) ∨ (m.src = h.bf ∧ ∀ k, m.dst ≠ h.bb k) then
    { m with data := (content m.data).getD noContent }
  else m

/-- Nobody but a client is sent a reply. -/
def Clients (d : Deployment) (ld : LD) : Prop := ∀ q e, ld q = some e → ∀ k, e.client ≠ d.bb k

/-- The backends send no requests to the gateway. -/
def NoBackend (d : Deployment) (m : Envelope) : Prop :=
  ∀ k, m.src = d.bb k → ∀ seq a b, view d.o m.data ≠ .reqToBF seq a b

variable {h : HTTPDeployment} {d : Deployment}

theorem content_append {head : List Byte} (hend : search crlfCrlf head = some (head.length - 4))
    (t : List Byte) : content (head ++ t) = some t := by
  have hle : head.length - 4 + 4 = head.length := by
    have hfour := search_add_length_le hend
    have hlen : crlfCrlf.length = 4 := rfl
    omega
  rw [content, search_append hend, Option.map_some, hle, List.drop_left]

theorem httpRspHeader_ends : search crlfCrlf httpRspHeader = some (httpRspHeader.length - 4) := by
  decide +kernel

theorem httpReqHeader_ends : search crlfCrlf httpReqHeader = some (httpReqHeader.length - 4) := by
  decide +kernel

/-- What the gateway looks at, by who has sent it. -/
theorem base_of_client {m : Envelope} (hsrc : ∀ k, m.src ≠ h.bb k) :
    h.base m.data (h.ownEnd m.src) = content m.data :=
  if_pos ((h.listens_ownEnd m.src).mpr hsrc)

theorem base_of_backend {m : Envelope} {k : BB} (hsrc : m.src = h.bb k) :
    h.base m.data (h.ownEnd m.src) = some m.data :=
  if_neg fun hlistens => (h.listens_ownEnd m.src).mp hlistens k hsrc

/-- A packet that is not between the gateway and a client stays as it is. -/
theorem unwrap_of_backend {m : Envelope} {k : BB} (hm : m.src = h.bb k ∨ m.dst = h.bb k) :
    h.unwrap m = m := by
  refine if_neg ?_
  rintro (⟨hdst, hsrc⟩ | ⟨hsrc, hdst⟩)
  · rcases hm with hm | hm
    · exact hsrc k hm
    · exact h.bb_ne_bf k (hm.symm.trans hdst)
  · rcases hm with hm | hm
    · exact h.bb_ne_bf k (hm.symm.trans hsrc)
    · exact hdst k hm

@[simp] theorem unwrap_src (m : Envelope) : (h.unwrap m).src = m.src := by
  unfold HTTPDeployment.unwrap
  split <;> rfl

@[simp] theorem unwrap_dst (m : Envelope) : (h.unwrap m).dst = m.dst := by
  unfold HTTPDeployment.unwrap
  split <;> rfl

/-- What a client sends to the gateway is handed on without its head. -/
theorem unwrap_request {m : Envelope} (hdst : m.dst = h.bf) (hsrc : ∀ k, m.src ≠ h.bb k) :
    (h.unwrap m).data = (content m.data).getD noContent := by
  unfold HTTPDeployment.unwrap
  rw [if_pos (Or.inl ⟨hdst, hsrc⟩)]

/-- **The head of a reply is taken off.** -/
theorem unwrap_reply {client : TCPEndpoint} (hclient : ∀ k, client ≠ h.bb k) (data : List Byte) :
    h.unwrap ⟨h.bf, client, httpRspHeader ++ data⟩ = ⟨h.bf, client, data⟩ := by
  unfold HTTPDeployment.unwrap
  rw [if_pos (Or.inr ⟨rfl, hclient⟩), content_append httpRspHeader_ends]
  rfl

/-! ## 3. The same runs -/

/-- A reply has a head, and nothing else that the gateway sends has one. -/
def Done.headed (r : Done) : View → Done
  | .rspFromBB _ _ _ => r.withHeader
  | _ => r

/-- **The gateway does what the other one does** with what it looks at. -/
theorem processDataHTTP_of_base {ld : LD} {inputData base : List Byte} {src dst : TCPEndpoint}
    {u : Word}
    (hbase : h.base inputData dst = some base) : processDataHTTP h ld inputData src dst u =
      (processData h.toDeployment ld base src u).map fun r => r.headed (view h.o base) := by
  cases htype : typeOf h.o base with
  | none =>
    simp only [processDataHTTP, processData, hbase, htype]
    rfl
  | some type =>
    simp only [processDataHTTP, processData, hbase, htype]
    by_cases h0 : type = PacketType.reqToBF.word
    · subst h0
      rw [if_pos rfl, if_pos rfl, view_of_type htype, viewAs, castTwo, viewTwo]
      cases TwoNumbers.read h.o base <;> rfl
    have hresponse : ∀ k, type = (PacketType.rspFromBB k).word →
        (castOne h.o base fun rsp => (receiveRsp h.toDeployment ld k rsp).withHeader) =
          (castOne h.o base (receiveRsp h.toDeployment ld k)).map fun r =>
            r.headed (view h.o base) := by
      rintro k rfl
      rw [view_of_type htype, viewAs, castOne, castOne, viewOne]
      cases OneNumber.read h.o base <;> rfl
    rw [if_neg h0, if_neg h0]
    split
    · exact hresponse .bb1 ‹_›
    split
    · exact hresponse .bb2 ‹_›
    · cases hview : view h.o base <;> rfl

theorem clients_update {ld : LD} (hc : Clients d ld) (q : Word) {e : ReqLocalData}
    (he : ∀ k, e.client ≠ d.bb k) : Clients d (Function.update ld q (some e)) := by
  intro q' e' hentry
  by_cases hq : q' = q
  · subst hq
    rw [Function.update_self] at hentry
    obtain rfl := Option.some.inj hentry
    exact he
  · rw [Function.update_of_ne hq] at hentry
    exact hc q' e' hentry

theorem addRsp_client (k : BB) (num : Word) (e : ReqLocalData) :
    (addRsp k num e).client = e.client := by
  cases k <;> rfl

theorem replyToClient_clients {ld : LD} (hc : Clients d ld) (q : Word) :
    (replyToClient d ld q).ld = ld ∧ ∀ x ∈ (replyToClient d ld q).out, ∀ k, x.1 ≠ d.bb k := by
  unfold replyToClient
  cases hentry : ld q with
  | none => exact ⟨rfl, by rintro x ⟨⟩⟩
  | some e =>
    dsimp only
    split
    · refine ⟨rfl, fun x hx => ?_⟩
      rw [List.mem_singleton.mp hx]
      exact hc q e hentry
    · exact ⟨rfl, by rintro x ⟨⟩⟩

/-- **A response is answered to clients only.** -/
theorem receiveRsp_clients {ld : LD} (hc : Clients d ld) (k : BB) (rsp : OneNumber) :
    Clients d (receiveRsp d ld k rsp).ld ∧
    ∀ x ∈ (receiveRsp d ld k rsp).out, ∀ k, x.1 ≠ d.bb k := by
  unfold receiveRsp
  cases hentry : ld rsp.seq with
  | none => exact ⟨hc, by rintro x ⟨⟩⟩
  | some e =>
    have hupdate : Clients d (Function.update ld rsp.seq (some (addRsp k rsp.num e))) := by
      refine clients_update hc rsp.seq ?_
      rw [addRsp_client]
      exact hc rsp.seq e hentry
    obtain ⟨hsame, hout⟩ := replyToClient_clients hupdate rsp.seq
    exact ⟨by rw [hsame]; exact hupdate, hout⟩

/-- The heads of what goes to clients are taken off. -/
theorem envelopes_withHeader {r : Done} (hr : ∀ x ∈ r.out, ∀ k, x.1 ≠ h.bb k) :
    (r.withHeader.envelopes h.bf).2.map h.unwrap = (r.envelopes h.bf).2 := by
  simp only [Done.envelopes, Done.withHeader, List.map_map]
  exact List.map_congr_left fun x hx => unwrap_reply (hr x hx) x.2

theorem newRequest_unwrap {ld : LD} (src : TCPEndpoint) (u : Word) (req : TwoNumbers) :
    ((newRequest h.toDeployment ld src u req).envelopes h.bf).2.map h.unwrap =
      ((newRequest h.toDeployment ld src u req).envelopes h.bf).2 := by
  cases hentry : ld req.seq with
  | none =>
    rw [newRequest_of_none src u hentry, toBackends, List.map_cons, List.map_cons, List.map_nil,
      unwrap_of_backend (k := .bb1) (Or.inr rfl), unwrap_of_backend (k := .bb2) (Or.inr rfl)]
  | some e =>
    rw [newRequest_of_some src u hentry]
    rfl

/-- **What the gateway sends**, without its heads, is what the other one sends. -/
theorem headed_unwrap {ld : LD} (hc : Clients h.toDeployment ld) {base : List Byte}
    {src : TCPEndpoint}
    {u : Word} {r : Done} (hprocess : processData h.toDeployment ld base src u = .ok r) :
    ((r.headed (view h.o base)).envelopes h.bf).2.map h.unwrap = (r.envelopes h.bf).2 := by
  rcases processData_cases ld base src u with ⟨req, hview, hcase⟩ | ⟨k, rsp, hview, hcase⟩ |
    ⟨-, hcase⟩ | ⟨-, hcase⟩ <;> rw [hcase] at hprocess
  · obtain rfl := Except.ok.inj hprocess
    rw [hview]
    exact newRequest_unwrap src u req
  · obtain rfl := Except.ok.inj hprocess
    rw [hview]
    exact envelopes_withHeader (receiveRsp_clients hc k rsp).2
  · cases hprocess
  · obtain rfl := Except.ok.inj hprocess
    cases view h.o base <;> rfl

theorem headed_ld (r : Done) (v : View) : (r.headed v).ld = r.ld := by
  cases v <;> rfl

theorem handle_of_bb {ld : LD} {m : Envelope} {r : Word} {k : BB} (hdst : m.dst = d.bb k) :
    handle d ld m r = (testBB d.o k ld m.data m.src r).map (Done.envelopes (d.bb k)) := by
  have hbf : m.dst ≠ d.bf := fun heq => d.bb_ne_bf k (hdst.symm.trans heq)
  cases k with
  | bb1 =>
    have hbb1 : m.dst = d.bb1 := hdst
    rw [handle, if_neg hbf, if_pos hbb1, Deployment.bb]
  | bb2 =>
    have hbb2 : m.dst = d.bb2 := hdst
    have hbb1 : m.dst ≠ d.bb1 := fun heq => d.bb1_ne_bb2 (heq.symm.trans hbb2)
    rw [handle, if_neg hbf, if_neg hbb1, if_pos hbb2, Deployment.bb]

theorem handle_of_client {ld : LD} {m : Envelope} {r : Word} (hbf : m.dst ≠ d.bf)
    (hbb : ∀ k, m.dst ≠ d.bb k) : handle d ld m r = .ok (ld, []) := by
  have hbb1 : m.dst ≠ d.bb1 := hbb .bb1
  have hbb2 : m.dst ≠ d.bb2 := hbb .bb2
  rw [handle, if_neg hbf, if_neg hbb1, if_neg hbb2]

/-- What the gateway looks at is what it is handed without the head. -/
theorem unwrap_data {m : Envelope} {base : List Byte} (hdst : m.dst = h.bf)
    (hbase : h.base m.data (h.ownEnd m.src) = some base) : (h.unwrap m).data = base := by
  by_cases hsrc : ∀ k, m.src ≠ h.bb k
  · rw [base_of_client hsrc] at hbase
    rw [unwrap_request hdst hsrc, hbase]
    rfl
  · obtain ⟨k, hk⟩ := not_forall.mp hsrc
    have hsrc' : m.src = h.bb k := not_not.mp hk
    rw [base_of_backend hsrc'] at hbase
    rw [unwrap_of_backend (Or.inl hsrc')]
    exact Option.some.inj hbase

theorem unwrap_noContent {m : Envelope} (hdst : m.dst = h.bf)
    (hbase : h.base m.data (h.ownEnd m.src) = none) : (h.unwrap m).data = noContent := by
  have hsrc : ∀ k, m.src ≠ h.bb k := by
    intro k hk
    rw [base_of_backend hk] at hbase
    cases hbase
  rw [base_of_client hsrc] at hbase
  rw [unwrap_request hdst hsrc, hbase]
  rfl

theorem processData_noContent (ld : LD) (src : TCPEndpoint) (u : Word) :
    processData d ld noContent src u = .ok ⟨-1, ld, []⟩ := by
  have htype : typeOf d.o noContent = some 0 := by
    cases d.o <;> decide
  simp [processData, htype, PacketType.word]

/-- **What is handled is the same**, without the heads. -/
theorem handleHTTP_sim {ld : LD} (hc : Clients h.toDeployment ld) (m : Envelope) (r : Word) :
    handle h.toDeployment ld (h.unwrap m) r =
      (handleHTTP h ld m r).map fun out => (out.1, out.2.map h.unwrap) := by
  by_cases hdst : m.dst = h.bf
  · have hplain : handle h.toDeployment ld (h.unwrap m) r =
        (processData h.toDeployment ld (h.unwrap m).data m.src r).map (Done.envelopes h.bf) := by
      rw [handle, if_pos ((unwrap_dst m).trans hdst), unwrap_src]
    rw [hplain, handleHTTP, if_pos hdst]
    cases hbase : h.base m.data (h.ownEnd m.src) with
    | none =>
      have hhttp : processDataHTTP h ld m.data m.src (h.ownEnd m.src) r = .ok ⟨-1, ld, []⟩ := by
        simp only [processDataHTTP, hbase]
      rw [unwrap_noContent hdst hbase, processData_noContent, hhttp]
      rfl
    | some base =>
      rw [unwrap_data hdst hbase, processDataHTTP_of_base hbase]
      cases hprocess : processData h.toDeployment ld base m.src r with
      | error f => rfl
      | ok r' =>
        exact congrArg Except.ok
          (Prod.ext (headed_ld r' _).symm (headed_unwrap hc hprocess).symm)
  · rw [handleHTTP, if_neg hdst]
    by_cases hbb : ∀ k, m.dst ≠ h.bb k
    · rw [handle_of_client hdst hbb, handle_of_client (by rwa [unwrap_dst]) (by rwa [unwrap_dst])]
      rfl
    · obtain ⟨k, hk⟩ := not_forall.mp hbb
      have hdst' : m.dst = h.bb k := not_not.mp hk
      rw [unwrap_of_backend (Or.inr hdst'), handle_of_bb hdst']
      cases testBB h.o k ld m.data m.src r with
      | error f => rfl
      | ok r' =>
        have hout : ((r'.envelopes (h.bb k)).2.map h.unwrap) = (r'.envelopes (h.bb k)).2 := by
          simp only [Done.envelopes, List.map_map]
          exact List.map_congr_left fun x _ => unwrap_of_backend (Or.inl rfl)
        exact congrArg Except.ok (Prod.ext rfl hout.symm)

theorem newRequest_clients {ld : LD} (hc : Clients d ld) {src : TCPEndpoint}
    (hsrc : ∀ k, src ≠ d.bb k)
    (u : Word) (req : TwoNumbers) : Clients d (newRequest d ld src u req).ld := by
  unfold newRequest
  split
  · exact hc
  · exact clients_update hc req.seq hsrc

theorem processDataHTTP_clients {ld : LD} (hc : Clients h.toDeployment ld) {m : Envelope} {u : Word}
    (hm : NoBackend h.toDeployment m) {r : Done}
    (hprocess : processDataHTTP h ld m.data m.src (h.ownEnd m.src) u = .ok r) :
    Clients h.toDeployment r.ld := by
  cases hbase : h.base m.data (h.ownEnd m.src) with
  | none =>
    simp only [processDataHTTP, hbase] at hprocess
    obtain rfl := Except.ok.inj hprocess
    exact hc
  | some base =>
    rw [processDataHTTP_of_base hbase] at hprocess
    obtain ⟨r', hplain, rfl⟩ := map_eq_ok.mp hprocess
    rw [headed_ld]
    rcases processData_cases ld base m.src u with ⟨req, hview, hcase⟩ | ⟨k, rsp, -, hcase⟩ |
      ⟨-, hcase⟩ | ⟨-, hcase⟩ <;> rw [hcase] at hplain
    · obtain rfl := Except.ok.inj hplain
      -- a request is not from a backend, whose packets are looked at as they are
      refine newRequest_clients hc (fun k hk => ?_) u req
      rw [base_of_backend hk] at hbase
      obtain rfl := Option.some.inj hbase
      exact hm k hk _ _ _ hview
    · obtain rfl := Except.ok.inj hplain
      exact (receiveRsp_clients hc k rsp).1
    · cases hplain
    · obtain rfl := Except.ok.inj hplain
      exact hc

/-- **Clients stay clients**, and no backend sends a request to the gateway. -/
theorem handleHTTP_keeps {ld : LD} (hc : Clients h.toDeployment ld) {m : Envelope} {r : Word}
    (hm : NoBackend h.toDeployment m) {out : LD × List Envelope}
    (hhandle : handleHTTP h ld m r = .ok out) :
    Clients h.toDeployment out.1 ∧ ∀ m' ∈ out.2, NoBackend h.toDeployment m' := by
  unfold handleHTTP at hhandle
  split at hhandle
  · obtain ⟨r', hprocess, rfl⟩ := map_eq_ok.mp hhandle
    refine ⟨processDataHTTP_clients hc hm hprocess, fun m' hm' k hk => ?_⟩
    obtain ⟨x, -, rfl⟩ := List.mem_map.mp hm'
    exact absurd hk.symm (h.bb_ne_bf k)
  · rename_i hdst
    by_cases hbb : ∀ k, m.dst ≠ h.bb k
    · rw [handle_of_client hdst hbb] at hhandle
      obtain rfl := Except.ok.inj hhandle
      exact ⟨hc, by rintro m' ⟨⟩⟩
    · obtain ⟨k, hk⟩ := not_forall.mp hbb
      rw [handle_of_bb (not_not.mp hk)] at hhandle
      obtain ⟨r', hprocess, rfl⟩ := map_eq_ok.mp hhandle
      rcases testBB_cases h.o k ld m.data m.src r with ⟨req, -, hcase⟩ | ⟨-, hcase⟩ | ⟨-, hcase⟩ <;>
        rw [hcase] at hprocess
      · obtain rfl := Except.ok.inj hprocess
        refine ⟨hc, fun m' hm' k' _ seq a b hview => ?_⟩
        rw [List.mem_singleton.mp hm', view_rspFromBB] at hview
        cases hview
      · cases hprocess
      · obtain rfl := Except.ok.inj hprocess
        exact ⟨hc, by rintro m' ⟨⟩⟩

/-! ## 4. Every run -/

/-- **The gateway behind HTTP has the runs of the other one.**  As long as its clients have
addresses of their own, whatever they send and whatever the network does: take the heads off the
packets between it and the clients, and what happens is what happens in the network of `lv_bf.cc`,
step by step, also when a field is read outside a buffer. -/
theorem http_gateway_simulates {es : List (Network.Event Envelope Word)}
    (hclients : Along (Network.step (handleHTTP h))
      (Admits fun m => ∀ k, m.src ≠ h.bb k) start es) :
    exec (Network.step (handle h.toDeployment)) start (es.map (Network.Event.map h.unwrap)) =
      (exec (Network.step (handleHTTP h)) start es).map (State.map h.unwrap) := by
  have hempty : Clients h.toDeployment fun _ => none := by rintro q e ⟨⟩
  refine Network.exec_map (I := Clients h.toDeployment) (P := NoBackend h.toDeployment) h.unwrap ?_
    (fun hc hm hhandle => handleHTTP_keeps hc hm hhandle) (fun hc _ => handleHTTP_sim hc _ _)
    ⟨hempty, by rintro m ⟨⟩⟩ hclients
  -- nobody from outside is a backend
  exact fun m hm k hk => absurd hk (hm k)

/-- Parties of which the gateway listens at port 1, and talks to the backends from port 4000. -/
def homeHTTP : HTTPDeployment where
  toDeployment := home
  localIp := 0
  portLow := 1
  portHigh := 1
  ownEnd := fun e => if ∀ k, e ≠ home.bb k then ⟨0, 1⟩ else ⟨0, 4000⟩
  listens_ownEnd := fun e => by
    split
    · simp [*]
    · simp [*]

/-- The request number 7, for 1 and 2. -/
def req7 : TwoNumbers := ⟨htonl .little 20, PacketType.reqToBF.word, 7, 1, 2⟩

/-- As `http_c.cc` sends it. -/
def post7 : Envelope := ⟨⟨0, 9⟩, ⟨0, 1⟩, httpReqHeader ++ req7.bytes .little⟩

/-- The backends add 10 and 20, and the response of the second is the first to arrive. -/
def overtakingPost : List (Network.Event Envelope Word) :=
  [.send post7, .arrive 0 100, .arrive 0 10, .arrive 0 20, .arrive 1 0, .arrive 0 0]

/-- The client is sent a head and the sum, and in the other network the sum. -/
theorem overtakingPost_simulates :
    ((exec (Network.step (handleHTTP homeHTTP)) start overtakingPost).map fun s => s.flight) =
        .ok [⟨⟨0, 1⟩, ⟨0, 9⟩,
          httpRspHeader ++ TwoNumbers.bytes .little ⟨htonl .little 20, 2, 7, 133, 0⟩⟩] ∧
      exec (Network.step (handle home)) start
        (overtakingPost.map (Network.Event.map homeHTTP.unwrap)) =
        (exec (Network.step (handleHTTP homeHTTP)) start overtakingPost).map
          (State.map homeHTTP.unwrap) := by
  have hclients : Along (Network.step (handleHTTP homeHTTP))
      (Admits fun m => ∀ k, m.src ≠ homeHTTP.bb k) start overtakingPost := by
    refine Network.along_admits fun m hm => ?_
    have hrequest : m = post7 := by simpa [overtakingPost] using hm
    rw [hrequest]
    rintro (_ | _) <;> decide
  exact ⟨by decide +kernel, http_gateway_simulates hclients⟩

/-! ## 5. Behind the `Skeleton` -/

section

variable {cfg : Config} {s t : Skeleton} {i : SockId} {head body : List Byte}
  {ds : List (List Byte)}

theorem le_filledAfter {size headLen F : Nat} : ∀ {filled total : Nat} {ds : List (List Byte)},
    filledAfter size headLen filled total ds = some F → headLen ≤ F := by
  intro filled total ds
  induction ds generalizing filled total with
  | nil =>
    intro hF
    cases hF
  | cons d ds ih =>
    intro hF
    rw [filledAfter] at hF
    split at hF
    · obtain rfl := Option.some.inj hF
      omega
    split at hF
    · cases hF
    · exact ih hF

/-- **What is behind the head** in what is passed on: the body, cut or made longer as
`recv_buf_filled` says. -/
theorem content_passed (hmsg : Message cfg head body) (hs : HeadReadStarted cfg s i)
    (hds : ds.flatten = head ++ body) (hrun : feed cfg i ds s = .ok t) :
    match filledAfter cfg.initRecvBufSize head.length (s.heap i).recvBufFilled 0 ds with
    | none => delivered t i = delivered s i
    | some F => ∃ buf k, delivered t i = delivered s i ++ [buf] ∧
        content buf = some (resize 0 (body ++ List.replicate k 0) (F - head.length)) := by
  have hend := feed_head hmsg ds (hs.readsHead hmsg) hds hrun
  have hpassed : (wire t i).passed = delivered t i := rfl
  cases hF : filledAfter cfg.initRecvBufSize head.length (s.heap i).recvBufFilled 0 ds with
  | none =>
    rw [hF] at hend
    exact hpassed.symm.trans hend.passed
  | some F =>
    rw [hF] at hend
    refine ⟨_, grown cfg (head ++ body) - (head ++ body).length, hpassed.symm.trans hend.passed, ?_⟩
    rw [padded, List.take_length, List.append_assoc,
      resize_append_of_le 0 head _ (le_filledAfter hF)]
    exact content_append hmsg.ends _

/-- A field of a struct that was cut behind it. -/
theorem field_resize {o : ByteOrder} {x : TwoNumbers} (z : List Byte) {n j : Nat} {y : Word}
    (hn : 4 * (j + 1) ≤ n) (hy : [x.len, x.type, x.seq, x.num1, x.num2][j]? = some y) :
    field o j (resize 0 (x.bytes o ++ z) n) = y := by
  have hj : j < 5 := (List.getElem?_eq_some_iff.mp hy).1
  have hsize : 4 * (j + 1) ≤ (x.bytes o).length := by
    rw [TwoNumbers.length_bytes, TwoNumbers.size]
    omega
  rw [← field_take o le_rfl (resize 0 (x.bytes o ++ z) n), take_resize_append 0 z hn hsize,
    field_take o le_rfl]
  exact x.field_bytes o hy

theorem typeOf_resize (o : ByteOrder) (x : TwoNumbers) (z : List Byte) (n : Nat) :
    typeOf o (resize 0 (x.bytes o ++ z) n) = if n < 8 then none else some x.type := by
  rw [typeOf, length_resize]
  split
  · rfl
  · rw [field_resize z (by omega) rfl]

theorem read_resize (o : ByteOrder) (x : TwoNumbers) (z : List Byte) (n : Nat) :
    TwoNumbers.read o (resize 0 (x.bytes o ++ z) n) = if n < TwoNumbers.size then
      none else some x := by
  rw [TwoNumbers.read, length_resize]
  split
  · rfl
  · rename_i hn
    rw [TwoNumbers.size] at hn
    rw [field_resize z (by omega) (y := x.len) rfl, field_resize z (by omega) (y := x.type) rfl,
      field_resize z (by omega) (y := x.seq) rfl, field_resize z (by omega) (y := x.num1) rfl,
      field_resize z (by omega) (y := x.num2) rfl]

/-- **A program that is passed a struct behind a head** and reads all of it, does so when
`recv_buf_filled` reaches its end. -/
theorem struct_passed {β : Type*} {o : ByteOrder} {x : TwoNumbers} {program : List Byte → β}
    {short whole : β}
    (hprogram : ∀ buf z n, content buf = some (resize 0 (x.bytes o ++ z) n) →
      program buf = if n < TwoNumbers.size then short else whole)
    (hmsg : Message cfg head (x.bytes o)) (hs : HeadReadStarted cfg s i)
    (hds : ds.flatten = head ++ x.bytes o) (hrun : feed cfg i ds s = .ok t) :
    match filledAfter cfg.initRecvBufSize head.length (s.heap i).recvBufFilled 0 ds with
    | none => delivered t i = delivered s i
    | some F => ∃ buf, delivered t i = delivered s i ++ [buf] ∧
        program buf = if F < (head ++ x.bytes o).length then short else whole := by
  have hpassed := content_passed hmsg hs hds hrun
  cases hF : filledAfter cfg.initRecvBufSize head.length (s.heap i).recvBufFilled 0 ds with
  | none =>
    rw [hF] at hpassed
    exact hpassed
  | some F =>
    rw [hF] at hpassed
    obtain ⟨buf, k, hbuf, hcontent⟩ := hpassed
    have hle := le_filledAfter hF
    have hcut : F - head.length < TwoNumbers.size ↔ F < (head ++ x.bytes o).length := by
      rw [List.length_append, TwoNumbers.length_bytes]
      omega
    refine ⟨buf, hbuf, (hprogram buf _ _ hcontent).trans ?_⟩
    simp only [hcut]

/-- **When a request is served.**  A client sends it behind any head that can be read.  For every
way the transport splits the message, `ProcessData` either is not called, because `recv_buf_filled`
is the size of the buffer before the head has come; or it makes an entry, when `recv_buf_filled`
reaches the end of the request; or it reads a field behind the end of the buffer. -/
theorem http_request_served {req : TwoNumbers} (hmsg : Message cfg head (req.bytes h.o))
    (htype : req.type = PacketType.reqToBF.word) (hs : HeadReadStarted cfg s i)
    (hds : ds.flatten = head ++ req.bytes h.o) (hrun : feed cfg i ds s = .ok t) (ld : LD)
    {src : TCPEndpoint} (hsrc : ∀ k, src ≠ h.bb k) (u : Word) :
    match filledAfter cfg.initRecvBufSize head.length (s.heap i).recvBufFilled 0 ds with
    | none => delivered t i = delivered s i
    | some F => ∃ buf, delivered t i = delivered s i ++ [buf] ∧
        processDataHTTP h ld buf src (h.ownEnd src) u =
          if F < (head ++ req.bytes h.o).length then .error .outOfBounds
          else .ok (newRequest h.toDeployment ld src u req) := by
  refine struct_passed (fun buf z n hcontent => ?_) hmsg hs hds hrun
  have hbase : h.base buf (h.ownEnd src) = content buf := if_pos ((h.listens_ownEnd src).mpr hsrc)
  simp only [processDataHTTP, hbase, hcontent, typeOf_resize]
  by_cases hshort : n < 8
  · rw [if_pos hshort, if_pos (by rw [TwoNumbers.size]; omega)]
  · rw [if_neg hshort]
    simp only [htype, if_true, castTwo, read_resize]
    by_cases hcut : n < TwoNumbers.size
    · rw [if_pos hcut, if_pos hcut]
    · rw [if_neg hcut, if_neg hcut]

/-- The head of `http_c.cc` can be read. -/
theorem httpReqHeader_message (hbody : body.length = TwoNumbers.size) :
    Message Config.http httpReqHeader body where
  ends := httpReqHeader_ends
  small := by decide +kernel
  named := ⟨20, by decide +kernel, by rw [hbody]; decide +kernel⟩
  fits := by rw [hbody]; decide +kernel

/-- The reads can be fed to the state that a run has reached. -/
theorem feed_reached {es : List Event} (hs : exec (step Config.http) init es = .ok s)
    (hrun : ((exec (step Config.http) init es).bind (feed Config.http 0 ds)).map
      Skeleton.started = .ok true) : ∃ t, feed Config.http 0 ds s = .ok t := by
  rw [hs] at hrun
  obtain ⟨t, ht, -⟩ := map_eq_ok.mp hrun
  exact ⟨t, ht⟩

/-- In one read the request is served; when the head comes before the rest, fields are read that are
not in the buffer. -/
theorem post7_served : ∃ s, exec (step Config.http) init acceptHTTP = .ok s ∧
    (∃ t, feed Config.http 0 [httpReqHeader ++ req7.bytes .little] s = .ok t ∧ ∃ buf,
      delivered t 0 = delivered s 0 ++ [buf] ∧
        processDataHTTP homeHTTP (fun _ => none) buf ⟨0, 9⟩ (homeHTTP.ownEnd ⟨0, 9⟩) 100 =
          .ok (newRequest home (fun _ => none) ⟨0, 9⟩ 100 req7)) ∧
    ∃ t, feed Config.http 0 [httpReqHeader, req7.bytes .little] s = .ok t ∧ ∃ buf,
      delivered t 0 = delivered s 0 ++ [buf] ∧
        processDataHTTP homeHTTP (fun _ => none) buf ⟨0, 9⟩ (homeHTTP.ownEnd ⟨0, 9⟩) 100 =
          .error .outOfBounds := by
  obtain ⟨s, hs, hstarted, hfilled, -⟩ := acceptHTTP_started
  have hmsg : Message Config.http httpReqHeader (req7.bytes .little) :=
    httpReqHeader_message (TwoNumbers.length_bytes .little req7)
  have hclient : ∀ k, (⟨0, 9⟩ : TCPEndpoint) ≠ homeHTTP.bb k := by
    rintro (_ | _) <;> decide
  refine ⟨s, hs, ?_, ?_⟩
  · obtain ⟨t, ht⟩ : ∃ t, feed Config.http 0 [httpReqHeader ++ req7.bytes .little] s = .ok t :=
      feed_reached hs (by decide +kernel)
    have hds : [httpReqHeader ++ req7.bytes .little].flatten =
        httpReqHeader ++ req7.bytes homeHTTP.o :=
      List.flatten_singleton
    have hserved := http_request_served (h := homeHTTP) hmsg rfl hstarted hds ht
      (fun _ => none) hclient 100
    have hF : filledAfter Config.http.initRecvBufSize httpReqHeader.length 0 0
        [httpReqHeader ++ req7.bytes .little] = some (httpReqHeader ++ req7.bytes .little).length :=
      (filledAfter_first (by simp)).mpr rfl
    rw [hfilled, hF] at hserved
    obtain ⟨buf, hbuf, hprocess⟩ := hserved
    exact ⟨t, ht, buf, hbuf, hprocess.trans (if_neg (lt_irrefl _))⟩
  · obtain ⟨t, ht⟩ : ∃ t, feed Config.http 0 [httpReqHeader, req7.bytes .little] s = .ok t :=
      feed_reached hs (by decide +kernel)
    have hds : [httpReqHeader, req7.bytes .little].flatten =
        httpReqHeader ++ req7.bytes homeHTTP.o := by
      rw [List.flatten_cons, List.flatten_singleton]
      rfl
    have hserved := http_request_served (h := homeHTTP) hmsg rfl hstarted hds ht
      (fun _ => none) hclient 100
    have hF : filledAfter Config.http.initRecvBufSize httpReqHeader.length 0 0
        [httpReqHeader, req7.bytes .little] = some httpReqHeader.length :=
      (filledAfter_first le_rfl).mpr rfl
    rw [hfilled, hF] at hserved
    obtain ⟨buf, hbuf, hprocess⟩ := hserved
    refine ⟨t, ht, buf, hbuf, hprocess.trans (if_pos ?_)⟩
    decide +kernel

/-! ## 6. The reply at the client -/

/-- The head of a reply can be read by a client that can read numbers and has room for it. -/
theorem httpRspHeader_message
    (hcast : cfg.lexicalCast (lexicalCastString TwoNumbers.size) = some 20)
    (hsmall : httpRspHeader.length ≤ cfg.initRecvBufSize)
    (hfits : (httpRspHeader.length : Int) + 20 ≤ cfg.maxRecvBufSize)
    (hbody : body.length = TwoNumbers.size) : Message cfg httpRspHeader body where
  ends := httpRspHeader_ends
  small := hsmall
  named := by
    have htext : contentLengthText httpRspHeader 14 = lexicalCastString TwoNumbers.size := by
      decide +kernel
    refine ⟨14, by decide +kernel, ?_⟩
    rw [htext, hcast, hbody]
    rfl
  fits := by
    rw [hbody]
    exact hfits

/-- **When a reply is understood**: for every way the transport splits it, the client of `http_c.cc`
has the `RspFromBF` of the gateway in hand when `recv_buf_filled` reaches its end, and else reads
fields that are not in the buffer, or is never called. -/
theorem http_reply_read {o : ByteOrder} {rsp : TwoNumbers}
    (hcast : cfg.lexicalCast (lexicalCastString TwoNumbers.size) = some 20)
    (hsmall : httpRspHeader.length ≤ cfg.initRecvBufSize)
    (hfits : (httpRspHeader.length : Int) + 20 ≤ cfg.maxRecvBufSize) (hs : HeadReadStarted cfg s i)
    (hds : ds.flatten = httpRspHeader ++ rsp.bytes o) (hrun : feed cfg i ds s = .ok t) :
    match filledAfter cfg.initRecvBufSize httpRspHeader.length (s.heap i).recvBufFilled 0 ds with
    | none => delivered t i = delivered s i
    | some F => ∃ buf, delivered t i = delivered s i ++ [buf] ∧
        testClient o buf =
          if F < (httpRspHeader ++ rsp.bytes o).length then
            .error .outOfBounds else .ok (1, some rsp) := by
  have hmsg := httpRspHeader_message hcast hsmall hfits (TwoNumbers.length_bytes o rsp)
  refine struct_passed (fun buf z n hcontent => ?_) hmsg hs hds hrun
  simp only [testClient, hcontent, read_resize]
  by_cases hcut : n < TwoNumbers.size
  · rw [if_pos hcut, if_pos hcut]
  · rw [if_neg hcut, if_neg hcut]

/-- A client connects to the gateway, and its request has been sent. -/
def connectHTTP : List Event :=
  [.request (.toConnectThenWrite ⟨0, 1⟩ .http post7.data none), .run,
    .complete (.connectThenWrite 0 post7.data) { localEndpoint := some ⟨0, 9⟩ },
    .complete (.writeThenReadHTTPHead 0) {}]

theorem connectHTTP_started : ∃ s, exec (step Config.http) init connectHTTP = .ok s ∧
    (s.heap 0).isClient = true ∧ HeadReadStarted Config.http s 0 ∧
    (s.heap 0).recvBufFilled = 0 := by
  refine ⟨_, rfl, ?_, ⟨?_, ?_, ?_, ?_⟩, ?_⟩
  all_goals decide +kernel

/-- The sum 133 for the request number 7. -/
def rsp7 : TwoNumbers := ⟨htonl .little 20, PacketType.rspFromBF.word, 7, 133, 0⟩

/-- It is sent in two parts, the first of which ends in the head. -/
def rsp7Reads : List (List Byte) :=
  [httpRspHeader.take 10, httpRspHeader.drop 10 ++ rsp7.bytes .little]

/-- The running totals add up to more than the reply, which is understood. -/
theorem rsp7_read : ∃ s t, exec (step Config.http) init connectHTTP = .ok s ∧
    (s.heap 0).isClient = true ∧ feed Config.http 0 rsp7Reads s = .ok t ∧
      ∃ buf, delivered t 0 = delivered s 0 ++ [buf] ∧
      testClient .little buf = .ok (1, some rsp7) := by
  obtain ⟨s, hs, hisClient, hstarted, hfilled⟩ := connectHTTP_started
  obtain ⟨t, ht⟩ : ∃ t, feed Config.http 0 rsp7Reads s = .ok t :=
    feed_reached hs (by decide +kernel)
  have hds : rsp7Reads.flatten = httpRspHeader ++ rsp7.bytes .little := by
    rw [rsp7Reads, List.flatten_cons, List.flatten_singleton, ← List.append_assoc,
      List.take_append_drop]
  have hread := http_reply_read (by decide +kernel) (by decide +kernel) (by decide +kernel)
    hstarted hds ht
  have hF : filledAfter Config.http.initRecvBufSize httpRspHeader.length 0 0 rsp7Reads =
      some 80 := by
    decide +kernel
  rw [hfilled, hF] at hread
  obtain ⟨buf, hbuf, hclient⟩ := hread
  refine ⟨s, t, hs, hisClient, ht, buf, hbuf, hclient.trans (if_neg ?_)⟩
  decide +kernel

end

end Kknf.Asio2.TestGateway
