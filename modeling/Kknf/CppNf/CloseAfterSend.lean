/-
# Closing an `AsyncTCPDataSocket` after all data

`CloseAfterSendAllData` is there to let what is queued go out before the connection is closed: the
event loop closes the connection when `OnWritable` returns 2.  `OnWritable` decides on the state
alone, after any write that transfers something, and does not look at the list.  So the first write
after the request closes the connection, whatever is still queued.

`closes_empty_iff` says which runs come out right: those in which every write after the request
transfers all that is queued and the last buffer of the list is not an empty one.  (An empty
buffer behind the last byte stays in the list, as the loop that accounts ends when `left` is 0.)
-/
import Kknf.CppNf.AsyncTcpSocket

namespace Kknf.CppNf.AsyncTcpSocket

open Kknf.Run

/-! ## 1. Runs up to the close -/

/-- A system, and the code that `OnWritable` returned when it was the last event. -/
structure Conn extends System where
  code : Option Int

/-- The event loop closes the connection on code 2, which ends the run.  `writev` transfers at least
one byte. -/
def connStep (c : Conn) (e : Event) : Except Fault Conn :=
  if c.code = some 2 then .error .disabled
  else
    match e with
    | .onWritable ret =>
      if ret < 1 then .error .disabled
      else (step c.toSystem e).map fun s =>
        { toSystem := s, code := (onWritable c.sock ret).toOption.map (·.1) }
    | _ => (step c.toSystem e).map fun s => { toSystem := s, code := none }

def Conn.new (curId : Nat) : Conn where
  toSystem := .new curId
  code := none

/-- The last event, if it was `OnWritable`, closed the connection only with nothing left in the list
and every accepted byte written, and returned 0 while there was something in the list.  (On a socket
in `S_TO_CLOSE` someone asked to close at once.) -/
def ClosesEmpty (c : Conn) : Prop :=
  ∀ code, c.code = some code → c.sock.state ≠ .toClose →
    (code = 2 → c.sock.sendMsgList = [] ∧ c.written = pendingOf c.accepted) ∧
      (c.sock.sendMsgList ≠ [] → code = 0)

/-- The last message of the list has something to send. -/
def LastPending (l : List TCPMessage) : Prop :=
  ∃ m, l.getLast? = some m ∧ m.data.head < m.data.tail

/-- A write after `CloseAfterSendAllData` transfers all that is queued, and the last buffer of the
list has a part in it. -/
def WritesAll (c : Conn) : Event → Prop
  | .onWritable ret =>
    c.sock.state = .toCloseAfterSendAllData →
      ret = (pendingOf (buffers c.sock.sendMsgList)).length ∧ LastPending c.sock.sendMsgList
  | _ => True

/-! ## 2. What one event does -/

theorem lastPending_singleton {m : TCPMessage} :
    LastPending [m] ↔ m.data.head < m.data.tail := by
  simp [LastPending]

theorem lastPending_cons {m : TCPMessage} {l : List TCPMessage} (hl : l ≠ []) :
    LastPending (m :: l) ↔ LastPending l := by
  obtain ⟨m', rest, rfl⟩ := List.exists_cons_of_ne_nil hl
  simp [LastPending]

/-- A list whose last message has something to send has something to send. -/
theorem LastPending.pos {l : List TCPMessage} (h : LastPending l) :
    0 < (pendingOf (buffers l)).length := by
  induction l with
  | nil =>
    obtain ⟨m, hm, -⟩ := h
    cases hm
  | cons m rest ih =>
    rw [buffers_cons, pendingOf_cons, List.length_append, Block.length_pending]
    by_cases hrest : rest = []
    · subst hrest
      have hlt := lastPending_singleton.mp h
      omega
    · have hpos := ih ((lastPending_cons hrest).mp h)
      omega

/-- **What the loop leaves.**  The list is empty at the end exactly when all of it was written and
its last message had something to send. -/
theorem account_nil_iff {l : List TCPMessage} (hl : l ≠ []) :
    ∀ {left : Nat} {gone : List Block} {l' : List TCPMessage}, account l left = .ok (gone, l', 0) →
      (l' = [] ↔ left = (pendingOf (buffers l)).length ∧ LastPending l) := by
  induction l with
  | nil => exact absurd rfl hl
  | cons m rest ih =>
    intro left gone l' h
    rw [buffers_cons, pendingOf_cons, List.length_append, Block.length_pending]
    rw [account] at h
    split at h
    · next hpos =>
      split at h
      · next hlen =>
        -- the first buffer leaves the list
        split at h
        · cases h
        · next returned l'' left' hacc =>
          cases h
          by_cases hrest : rest = []
          · subst hrest
            have hzero : left - (m.data.tail - m.data.head) = 0 ∧ [] = l' := by
              rw [account] at hacc
              split at hacc
              · cases hacc
              · simp only [Except.ok.injEq, Prod.mk.injEq] at hacc
                exact ⟨hacc.2.2, hacc.2.1⟩
            rw [lastPending_singleton]
            constructor
            · intro _
              simp only [buffers_nil, pendingOf_nil, List.length_nil]
              omega
            · intro _
              exact hzero.2.symm
          · rw [lastPending_cons hrest, ih hrest hacc]
            constructor
            · rintro ⟨hleft, hlast⟩
              exact ⟨by omega, hlast⟩
            · rintro ⟨hleft, hlast⟩
              exact ⟨by omega, hlast⟩
      · next hlen =>
        -- part of the first buffer is left
        cases h
        constructor
        · intro hnil
          cases hnil
        · rintro ⟨hleft, -⟩
          omega
    · next hpos =>
      cases h
      constructor
      · intro hnil
        cases hnil
      · rintro ⟨hleft, hlast⟩
        have hsome := hlast.pos
        rw [buffers_cons, pendingOf_cons, List.length_append, Block.length_pending] at hsome
        omega

/-- What a step of a run up to the close is. -/
theorem connStep_cases {c d : Conn} {e : Event} (h : connStep c e = .ok d) :
    step c.toSystem e = .ok d.toSystem ∧
      ((∃ ret, e = .onWritable ret ∧ 1 ≤ ret ∧
          d.code = (onWritable c.sock ret).toOption.map (·.1)) ∨
        (∀ ret, e ≠ .onWritable ret) ∧ d.code = none) := by
  simp only [connStep] at h
  split at h
  · cases h
  · split at h
    · next ret =>
      split at h
      · cases h
      · next hret =>
        obtain ⟨s, hs, rfl⟩ := map_eq_ok.mp h
        exact ⟨hs, Or.inl ⟨ret, rfl, by omega, rfl⟩⟩
    · next hne =>
      obtain ⟨s, hs, rfl⟩ := map_eq_ok.mp h
      exact ⟨hs, Or.inr ⟨hne, rfl⟩⟩

/-- A write that transfers something: the code is the state's, and the list is what the loop
leaves. -/
theorem connStep_onWritable {c d : Conn} {ret : Int} (h : connStep c (.onWritable ret) = .ok d) :
    d.sock.state = c.sock.state ∧
      (d.code = some (if c.sock.state = .toCloseAfterSendAllData ∨ c.sock.state = .toClose
        then 2 else 0)) ∧
      (d.sock.sendMsgList = [] ↔
        ret = (pendingOf (buffers c.sock.sendMsgList)).length ∧
        LastPending c.sock.sendMsgList) := by
  obtain ⟨hstep, ⟨ret', heq, hret, hcode⟩ | ⟨hne, -⟩⟩ := connStep_cases h
  · cases heq
    simp only [step] at hstep
    split at hstep
    · cases hstep
    · next hoffer =>
      have hle : ret ≤ (pendingOf (buffers c.sock.sendMsgList)).length := by omega
      have hcons : c.sock.sendMsgList ≠ [] := by
        intro hnil
        rw [hnil] at hle
        simp at hle
        omega
      have hlen : ¬ c.sock.sendMsgList.length = 0 := by simpa using hcons
      have hnn : ¬ ret < 0 := by omega
      have hnz : ¬ ret = 0 := by omega
      obtain ⟨gone, keep, l', hacc, -, -, -⟩ :=
        account_spec (show ret.toNat ≤ (pendingOf (buffers c.sock.sendMsgList)).length by omega)
      have hcall : onWritable c.sock ret = .ok
          (if c.sock.state = .toCloseAfterSendAllData ∨ c.sock.state = .toClose then 2 else 0, gone,
            { c.sock with sendMsgList := l' }) := by
        simp only [onWritable, hlen, hnn, hnz, if_false, hacc]
        rfl
      rw [hcall] at hstep hcode
      cases d
      cases hstep
      refine ⟨rfl, hcode, ?_⟩
      have hnil := account_nil_iff hcons hacc
      rw [show ret.toNat = (pendingOf (buffers c.sock.sendMsgList)).length ↔
        ret = (pendingOf (buffers c.sock.sendMsgList)).length by omega] at hnil
      exact hnil
  · exact absurd rfl (hne ret)

theorem connStep_accounted {c d : Conn} {e : Event} (hc : Accounted c.toSystem)
    (h : connStep c e = .ok d) : Accounted d.toSystem := by
  have hstep := (connStep_cases h).1
  rcases step_accounted hc e with hdis | ⟨t, ht, hacc⟩
  · cases hdis.symm.trans hstep
  · cases ht.symm.trans hstep
    exact hacc

/-- With nothing in the list, every accepted byte is written. -/
theorem Accounted.written_eq {s : System} (hs : Accounted s) (hnil : s.sock.sendMsgList = []) :
    s.written = pendingOf s.accepted := by
  obtain ⟨done, todo, -, -, -, hbytes⟩ := hs
  simpa [hnil] using hbytes

/-- An event ends well exactly when it is no write after the request that leaves something in the
list. -/
theorem closesEmpty_step_iff {c d : Conn} {e : Event} (hc : Accounted c.toSystem)
    (h : connStep c e = .ok d) : ClosesEmpty d ↔ WritesAll c e := by
  have hd := connStep_accounted hc h
  obtain ⟨-, ⟨ret, rfl, -, -⟩ | ⟨hne, hcode⟩⟩ := connStep_cases h
  · obtain ⟨hstate, hcode, hnil⟩ := connStep_onWritable h
    simp only [ClosesEmpty, WritesAll]
    rw [hcode, hstate]
    rcases hst : c.sock.state with _ | _ | _
    · simp
    · simp
    · constructor
      · intro hsafe _
        exact hnil.mp ((hsafe 2 (by simp) (by simp)).1 rfl).1
      · intro hall code hc' _
        have hempty := hnil.mpr (hall rfl)
        exact ⟨fun _ => ⟨hempty, hd.written_eq hempty⟩, fun hcons => absurd hempty hcons⟩
  · refine ⟨fun _ => ?_, fun _ => ?_⟩
    · rcases e with _ | ret | _ | _
      · trivial
      · exact absurd rfl (hne ret)
      · trivial
      · trivial
    · intro code hc'
      rw [hcode] at hc'
      cases hc'

/-! ## 3. Runs -/

/-- **The connection is closed with nothing left to send only if the first write after the request
sends everything.**  In a run every `OnWritable` returns 2 only on an empty list, with every
accepted byte written, and 0 while the list is not empty, exactly when every write in
`S_TO_CLOSE_AFTER_SEND_ALL_DATA` transfers all that is queued with the last buffer of the list among
it. -/
theorem closes_empty_iff (curId : Nat) (es : List Event) (t : Conn)
    (h : exec connStep (.new curId) es = .ok t) :
    (∀ u, Visits connStep (.new curId) es u → ClosesEmpty u) ↔
      Along connStep WritesAll (.new curId) es := by
  refine always_iff_along (I := fun c => Accounted c.toSystem ∧ ClosesEmpty c) ?_ ?_ ?_ ?_ h
  · rintro c e d ⟨hc, -⟩ hw hd
    exact ⟨connStep_accounted hc hd, (closesEmpty_step_iff hc hd).mpr hw⟩
  · intro c hc
    exact hc.2
  · rintro c e d ⟨hc, -⟩ hw hd hsafe
    exact hw ((closesEmpty_step_iff hc hd).mp hsafe)
  · refine ⟨accounted_new curId, ?_⟩
    intro code hcode
    cases hcode

/-- A small block with four bytes to send. -/
def fourBytes : Block where
  start := { pool := .small, off := 0 }
  head := 0
  tail := 4
  length := 4
  bytes := [1, 2, 3, 4]
  length_eq := rfl
  head_le := Nat.zero_le 4
  tail_le := Nat.le_refl 4

/-- Four bytes are queued, the upper layer asks to close after sending them, and the first write
transfers three: `OnWritable` returns 2 with the last byte in the list. -/
theorem not_closes_empty : ∃ es t, exec connStep (.new 1) es = .ok t ∧
    Event.closeAfterSendAllData ∈ es ∧ ¬ ∀ u, Visits connStep (.new 1) es u → ClosesEmpty u := by
  have hrun : exec connStep (.new 1)
      [.sendMessage fourBytes, .closeAfterSendAllData, .onWritable 3] = .ok
        { sock :=
            { sendMsgList := [{ id := 1, data := fourBytes.advance 3 (by simp [fourBytes]) }]
              state := .toCloseAfterSendAllData
              curId := 2 }
          accepted := [fourBytes]
          written := [1, 2, 3]
          returned := []
          code := some 2 } := rfl
  refine ⟨_, _, hrun, by simp, fun hall => ?_⟩
  obtain ⟨hnil, -⟩ := (hall _ ⟨_, List.prefix_rfl, hrun⟩ 2 rfl (by simp)).1 rfl
  cases hnil

/-- When the write transfers all four, nothing is left. -/
theorem closes_empty_fourBytes :
    Along connStep WritesAll (.new 1)
        [.sendMessage fourBytes, .closeAfterSendAllData, .onWritable 4] ∧
      ∀ u, Visits connStep (.new 1)
        [.sendMessage fourBytes, .closeAfterSendAllData, .onWritable 4] u → ClosesEmpty u := by
  have hrun : exec connStep (.new 1)
      [.sendMessage fourBytes, .closeAfterSendAllData, .onWritable 4] = .ok
        { sock := { sendMsgList := [], state := .toCloseAfterSendAllData, curId := 2 }
          accepted := [fourBytes]
          written := [1, 2, 3, 4]
          returned := [fourBytes]
          code := some 2 } := rfl
  have hall : Along connStep WritesAll (.new 1)
      [.sendMessage fourBytes, .closeAfterSendAllData, .onWritable 4] := by
    refine ⟨trivial, ?_⟩
    intro c hc
    cases hc
    refine ⟨trivial, ?_⟩
    intro c hc
    cases hc
    exact ⟨fun _ => ⟨rfl, _, rfl, Nat.zero_lt_succ 3⟩, fun _ _ => trivial⟩
  exact ⟨hall, (closes_empty_iff 1 _ _ hrun).mpr hall⟩

end Kknf.CppNf.AsyncTcpSocket
