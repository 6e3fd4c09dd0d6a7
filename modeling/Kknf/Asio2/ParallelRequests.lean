/-
# The plain request and the one with a callback

`ToWriteThenCallBack` and `ToWriteThenRead` were written side by side: look for a socket, write on
it, or connect when there is none.  They are compared in what they leave when the callback stored on
the socket is forgotten (`forgetCallBack`), which every part of a request commutes with.

For a client they are the same.  For a server `ToWriteThenRead` looks in the map of the accepted
sockets, while `ToWriteThenCallBack` still looks for an idle client.  A socket is never both, so a
server's two requests agree only when neither map has anything for the endpoint
(`requests_agree_iff`).
-/
import Kknf.Asio2.Kinds
import Kknf.Asio2.Faults
import Kknf.Asio2.Listening
import Kknf.Asio2.Routing

namespace Kknf.Asio2

open Run

/-! ## 1. Up to the callback of one socket -/

/-- The state without the callback stored on socket `i`, and without those its requests asked
for. -/
def forgetCallBack (i : SockId) (s : Skeleton) : Skeleton :=
  { setSock s i fun k => { k with cb := none } with
    issued := s.issued.map fun c => if c.sock = i then { c with cb := none } else c }

/-- What a request leaves and returns, up to the callback of socket `i`. -/
def upToCallBack (i : SockId) (r : Except Fault (Skeleton × Int)) : Except Fault (Skeleton × Int) :=
  r.map fun p => (forgetCallBack i p.1, p.2)

/-- The two requests choose the same socket, and leave the same state and return the same number but
for the callback of that socket, the new one if there was none. -/
structure RequestsAgree (s : Skeleton) (remote : TCPEndpoint) (type : SocketType) (buf : List Byte)
    (iAmServer : Bool) (cb : Option CallBack) : Prop where
  selects : findIdleTCPClientSocket s remote = foundFor s remote iAmServer
  outcome : upToCallBack ((foundFor s remote iAmServer).getD s.next)
      (toWriteThenCallBack s remote type buf iAmServer cb) =
    upToCallBack ((foundFor s remote iAmServer).getD s.next)
      (toWriteThenRead s remote type buf iAmServer)

section

variable (s : Skeleton) (i : SockId) (cb : Option CallBack)

theorem forgetCallBack_issue :
    forgetCallBack i (issue s i cb) = issue (forgetCallBack i s) i none := by
  simp [forgetCallBack, issue, setSock]

/-- Storing a callback on the socket is forgotten. -/
theorem forgetCallBack_store :
    forgetCallBack i (setSock s i fun k => { k with cb := cb }) = forgetCallBack i s := by
  simp [forgetCallBack, setSock]

/-- A change that does not look at the callback is the same before and after. -/
theorem forgetCallBack_setSock {f : SocketInfo → SocketInfo}
    (hf : ∀ k : SocketInfo, { f k with cb := none } = f { k with cb := none }) :
    forgetCallBack i (setSock s i f) = setSock (forgetCallBack i s) i f := by
  simp [forgetCallBack, setSock, hf]

end

/-! ## 2. The parts of a request -/

section

variable (s : Skeleton) (i : SockId) (cb : Option CallBack)

/-- The write of a request does not look at the callback. -/
theorem toWriteThenReadOn_forget (buf : List Byte) :
    (toWriteThenReadOn s i buf).map (forgetCallBack i) =
      toWriteThenReadOn (forgetCallBack i s) i buf := by
  have hsock : (forgetCallBack i s).heap i = { s.heap i with cb := none } := by
    simp [forgetCallBack, setSock]
  have hchange : forgetCallBack i
        (setSock s i fun k => { k with inUse := k.isClient || k.inUse, sendBuf := buf }) =
      setSock (forgetCallBack i s) i fun k =>
        { k with inUse := k.isClient || k.inUse, sendBuf := buf } :=
    forgetCallBack_setSock s i fun _ => rfl
  unfold toWriteThenReadOn
  rw [hsock, ← hchange]
  dsimp only
  by_cases hbusy : ((s.heap i).isClient && (s.heap i).inUse) = true
  · rw [if_pos hbusy, if_pos hbusy]
    rfl
  · rw [if_neg hbusy, if_neg hbusy]
    cases (s.heap i).type <;> rfl

/-- The two requests write the same on a socket both have chosen. -/
theorem write_agrees (buf : List Byte) :
    (toWriteThenReadOn (setSock (issue s i cb) i fun k => { k with cb := cb }) i buf).map
        (forgetCallBack i) =
      (toWriteThenReadOn (issue s i none) i buf).map (forgetCallBack i) := by
  rw [toWriteThenReadOn_forget, toWriteThenReadOn_forget, forgetCallBack_store,
    forgetCallBack_issue,
    forgetCallBack_issue]

/-- And connect in the same way. -/
theorem connect_agrees (remote : TCPEndpoint) (type : SocketType) (buf : List Byte) :
    forgetCallBack s.next (toConnectThenWrite s remote type buf cb) =
      forgetCallBack s.next (toConnectThenWrite s remote type buf none) := by
  simp [forgetCallBack, toConnectThenWrite, push, insertTCPClientSocket, issue, alloc, setSock]

/-- What both requests make of the write: its state, and 0. -/
theorem upToCallBack_written {r r' : Except Fault Skeleton} :
    r.map (forgetCallBack i) = r'.map (forgetCallBack i) →
      upToCallBack i (match r with | .ok t => .ok (t, 0) | .error f => .error f) =
        upToCallBack i (match r' with | .ok t => .ok (t, 0) | .error f => .error f) := by
  intro h
  cases r with
  | error f =>
    cases r' with
    | error f' => exact congrArg Except.error (Except.error.inj h)
    | ok t' => cases h
  | ok t =>
    cases r' with
    | error f' => cases h
    | ok t' => exact congrArg (fun t => Except.ok (t, (0 : Int))) (Except.ok.inj h)

end

/-! ## 3. When the two agree -/

section

variable {s : Skeleton} {remote : TCPEndpoint} {type : SocketType} {buf : List Byte}
  {cb : Option CallBack}

/-- **For a client** the two requests always agree. -/
theorem client_requests_agree : RequestsAgree s remote type buf false cb := by
  have hfound : foundFor s remote false = findIdleTCPClientSocket s remote := rfl
  refine ⟨rfl, ?_⟩
  unfold toWriteThenCallBack toWriteThenRead
  simp only [hfound, Bool.false_eq_true, if_false]
  cases findIdleTCPClientSocket s remote with
  | none => exact congrArg (fun t => Except.ok (t, (0 : Int))) (connect_agrees s cb remote type buf)
  | some i => exact upToCallBack_written i (write_agrees s i cb buf)

/-- A server that finds nothing in either map refuses both. -/
theorem refused_requests_agree (hserver : findTCPServerSocket s remote = none)
    (hidle : findIdleTCPClientSocket s remote = none) :
    RequestsAgree s remote type buf true cb := by
  have hfound : foundFor s remote true = none := hserver
  refine ⟨hidle.trans hfound.symm, ?_⟩
  unfold toWriteThenCallBack toWriteThenRead
  simp only [hidle, hserver, if_true]

/-- What is found among the idle clients was not accepted. -/
theorem Kinds.idle_ne_served (hkinds : Kinds s) {i : SockId}
    (hidle : findIdleTCPClientSocket s remote = some i) :
    findTCPServerSocket s remote ≠ some i := by
  intro hserver
  have hclient := ((hkinds i).client_of_idle hidle).isClient
  have haccepted := ((hkinds i).server_of_served (served_iff.mpr hserver)).isClient
  rw [hclient] at haccepted
  cases haccepted

end

/-- **When the two requests agree**: in every state that can be reached, whatever is asked for, a
client's always do, and a server's do exactly when neither map has a socket for the endpoint. -/
theorem requests_agree_iff (cfg : Config) (es : List Event) (s : Skeleton)
    (hrun : exec (step cfg) init es = .ok s) (remote : TCPEndpoint) (type : SocketType)
    (buf : List Byte) (iAmServer : Bool) (cb : Option CallBack) :
    RequestsAgree s remote type buf iAmServer cb ↔
      (iAmServer = true →
        findTCPServerSocket s remote = none ∧ findIdleTCPClientSocket s remote = none) := by
  constructor
  · rintro h rfl
    have hselects : findIdleTCPClientSocket s remote = findTCPServerSocket s remote := h.selects
    cases hidle : findIdleTCPClientSocket s remote with
    | none => exact ⟨hselects ▸ hidle, rfl⟩
    | some i => exact absurd (hselects ▸ hidle) ((exec_kinds hrun).idle_ne_served hidle)
  · intro h
    cases iAmServer with
    | false => exact client_requests_agree
    | true => exact refused_requests_agree (h rfl).1 (h rfl).2

/-- A client's requests on a connection that has answered before and is idle. -/
theorem idle_requests_agree : ∃ s, exec (step Config.lv) init callBackOnce = .ok s ∧
    findIdleTCPClientSocket s ⟨9, 90⟩ = some 0 ∧
      RequestsAgree s ⟨9, 90⟩ .lv [0, 0, 0, 4] false (some 2) :=
  ⟨_, rfl, rfl, (requests_agree_iff Config.lv callBackOnce _ rfl ⟨9, 90⟩ .lv [0, 0, 0, 4] false
    (some 2)).mpr (by decide)⟩

/-- A server's requests to a client it has accepted: the plain one is written, the one with a
callback is refused. -/
theorem server_callBack_refused : ∃ s, exec (step Config.lv) init acceptOnce = .ok s ∧
    (toWriteThenRead s ⟨2, 5000⟩ .lv [0, 0, 0, 4] true).map Prod.snd = .ok 0 ∧
      (toWriteThenCallBack s ⟨2, 5000⟩ .lv [0, 0, 0, 4] true (some 1)).map Prod.snd = .ok (-1) ∧
      ¬ RequestsAgree s ⟨2, 5000⟩ .lv [0, 0, 0, 4] true (some 1) := by
  refine ⟨_, rfl, rfl, rfl, fun h => ?_⟩
  have hselects := h.selects
  revert hselects
  decide

end Kknf.Asio2
