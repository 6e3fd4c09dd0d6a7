/-
# What a request comes to

Each request of the user's code, inverted once: the states it can lead to, with the guards on the
way.  What the rest of the development says of a request goes through these lemmas.
-/
import Kknf.Asio2.Skeleton

namespace Kknf.Asio2

section

variable {s t : Skeleton} {remote : TCPEndpoint} {type : SocketType} {buf : List Byte} {n : Int}

/-- The write of a request: the socket is no client in use, and its type is one of the two
supported. -/
theorem toWriteThenReadOn_ok {i : SockId} (h : toWriteThenReadOn s i buf = .ok t) :
    ((s.heap i).isClient && (s.heap i).inUse) = false ∧
    ∃ op, ((s.heap i).type = .http ∧ op = .writeThenReadHTTPHead i ∨
        (s.heap i).type = .lv ∧ op = .writeThenReadL i) ∧
      t = push (setSock s i fun k => { k with inUse := k.isClient || k.inUse, sendBuf := buf })
        op := by
  simp only [toWriteThenReadOn] at h
  split at h
  · contradiction
  · rename_i hidle
    refine ⟨Bool.eq_false_iff.mpr hidle, ?_⟩
    split at h
    · rename_i htype
      exact ⟨_, .inl ⟨htype, rfl⟩, (Except.ok.inj h).symm⟩
    · rename_i htype
      exact ⟨_, .inr ⟨htype, rfl⟩, (Except.ok.inj h).symm⟩
    · contradiction

/-- `ToWriteThenRead` finds no socket, connects, or writes on the socket it finds. -/
theorem toWriteThenRead_ok {iAmServer : Bool}
    (h : toWriteThenRead s remote type buf iAmServer = .ok (t, n)) :
    (iAmServer = true ∧ t = s) ∨
    (iAmServer = false ∧ t = toConnectThenWrite s remote type buf none) ∨
    ∃ i, (if iAmServer then findTCPServerSocket s remote
        else findIdleTCPClientSocket s remote) = some i ∧
      toWriteThenReadOn (issue s i none) i buf = .ok t := by
  simp only [toWriteThenRead] at h
  split at h
  · split at h
    · rename_i hserver
      exact .inl ⟨hserver, (Prod.mk.inj (Except.ok.inj h)).1.symm⟩
    · rename_i hclient
      exact .inr (.inl ⟨Bool.eq_false_iff.mpr hclient, (Prod.mk.inj (Except.ok.inj h)).1.symm⟩)
  · rename_i i hi
    split at h
    · rename_i s' hs'
      obtain rfl := (Prod.mk.inj (Except.ok.inj h)).1
      exact .inr (.inr ⟨i, hi, hs'⟩)
    · contradiction

/-- `ToWriteThenCallBack` does nothing for a server that finds no socket, connects, or writes on the
socket it finds, with the callback stored. -/
theorem toWriteThenCallBack_ok {iAmServer : Bool} {cb : Option CallBack}
    (h : toWriteThenCallBack s remote type buf iAmServer cb = .ok (t, n)) :
    t = s ∨ t = toConnectThenWrite s remote type buf cb ∨
    ∃ i, findIdleTCPClientSocket s remote = some i ∧
      toWriteThenReadOn (setSock (issue s i cb) i fun k => { k with cb := cb }) i buf = .ok t := by
  simp only [toWriteThenCallBack] at h
  split at h
  · split at h
    · exact .inl (Prod.mk.inj (Except.ok.inj h)).1.symm
    · exact .inr (.inl (Prod.mk.inj (Except.ok.inj h)).1.symm)
  · rename_i i hi
    split at h
    · rename_i s' hs'
      obtain rfl := (Prod.mk.inj (Except.ok.inj h)).1
      exact .inr (.inr ⟨i, hi, hs'⟩)
    · contradiction

/-- `ToWriteThenClose` writes on the socket it finds. -/
theorem toWriteThenClose_ok {iAmServer : Bool}
    (h : toWriteThenClose s remote buf iAmServer = .ok (t, n)) :
    ∃ i, (if iAmServer then findTCPServerSocket s remote
        else findIdleTCPClientSocket s remote) = some i ∧
      t = push (setSendBuf s i buf) (.writeThenClose i) := by
  simp only [toWriteThenClose] at h
  split at h
  · contradiction
  · rename_i i hi
    exact ⟨i, hi, (Prod.mk.inj (Except.ok.inj h)).1.symm⟩

/-- After the write, `ToWriteThenReadSync` has left the socket alone or destroyed it. -/
theorem readSync_cases {cfg : Config} {i : SockId} {o : SyncOutcome} {r : Int × List Byte}
    (h : readSync cfg s i o = .ok (t, r)) : t = s ∨ t = (destroySocket s i).1 := by
  simp only [readSync] at h
  split at h
  · exact .inr (Prod.mk.inj (Except.ok.inj h)).1.symm
  split at h
  · contradiction
  split at h
  · exact .inr (Prod.mk.inj (Except.ok.inj h)).1.symm
  split at h
  · cases h
  split at h
  · exact .inr (Prod.mk.inj (Except.ok.inj h)).1.symm
  split at h
  · cases h
  split at h
  · contradiction
  · exact .inl (Prod.mk.inj (Except.ok.inj h)).1.symm

/-- The new connection of `ToWriteThenReadSync`. -/
def syncConnected (s : Skeleton) (remote : TCPEndpoint) (type : SocketType) (buf : List Byte) :
    Skeleton :=
  insertTCPClientSocket (alloc s
    { type := type, accessTime := s.clock, remoteEndpoint := remote,
      isConnected := true, inUse := true, sendBuf := buf }) remote s.next

/-- `ToWriteThenReadSync` fails before it writes, or it has written on the socket it found or on a
new one, and then left it alone or destroyed it. -/
theorem toWriteThenReadSync_ok {cfg : Config} {o : SyncOutcome} {r : Int × List Byte}
    (h : toWriteThenReadSync cfg s remote type buf o = .ok (t, r)) :
    t = s ∨
    (∃ i, findIdleTCPClientSocket s remote = some i ∧
      (t = setSendBuf s i buf ∨ t = (destroySocket (setSendBuf s i buf) i).1)) ∨
    ((type = .lv ∧ o.connectOk = true) ∧
      (t = syncConnected s remote type buf ∨
        t = (destroySocket (syncConnected s remote type buf) s.next).1)) := by
  simp only [toWriteThenReadSync] at h
  split at h
  · rename_i i hi
    split at h
    · contradiction
    split at h
    · exact .inl (Prod.mk.inj (Except.ok.inj h)).1.symm
    split at h
    · exact .inr (.inl ⟨i, hi, readSync_cases h⟩)
    · exact .inr (.inl ⟨i, hi, .inr (Prod.mk.inj (Except.ok.inj h)).1.symm⟩)
  · split at h
    · exact .inl (Prod.mk.inj (Except.ok.inj h)).1.symm
    rename_i htype
    split at h
    · exact .inl (Prod.mk.inj (Except.ok.inj h)).1.symm
    rename_i hconn
    have hok : type = .lv ∧ o.connectOk = true := ⟨by simpa using htype, by simpa using hconn⟩
    split at h
    · exact .inr (.inr ⟨hok, readSync_cases h⟩)
    · exact .inr (.inr ⟨hok, .inr (Prod.mk.inj (Except.ok.inj h)).1.symm⟩)

/-- `AddTCPAcceptor` at a free endpoint: an acceptor that waits with a new socket. -/
theorem addTCPAcceptor_ok {endpoint : TCPEndpoint}
    (h : addTCPAcceptor s endpoint type = .ok (t, n)) :
    s.tcpAcceptorMap.find endpoint = none ∧
    t = push { alloc s { type := type, accessTime := s.clock } with
      tcpAcceptorMap := s.tcpAcceptorMap.set endpoint ⟨type, s.next⟩ } (.accept endpoint) := by
  simp only [addTCPAcceptor] at h
  rcases hfind : s.tcpAcceptorMap.find endpoint with _ | a
  · simp only [insertTCPAcceptor, alloc, hfind] at h
    exact ⟨rfl, (Prod.mk.inj (Except.ok.inj h)).1.symm⟩
  · simp [insertTCPAcceptor, alloc, hfind] at h

end

end Kknf.Asio2
