/-
# Sending with `AsyncTCPDataSocket`

`SendMessage` appends a buffer to the list of messages to send, unless the list is full.
`OnWritable` offers `[head, tail)` of every listed buffer to one `writev`, and accounts for the
bytes that were written: a buffer that is written to its end leaves the list and goes back to the
pool, and the `head` of the first one that is not moves on.

The loop that accounts ends on `left > 0` alone (the test of the iterator is the left operand of a
comma).  That is enough, because `writev` writes no more than it is offered: `account_spec` says
that the loop stops inside the list with nothing left over, and `sendMessages_in_order` that no byte
is lost or sent twice and no buffer is kept or given back twice, for any pattern of partial writes.

The readings of the text: `writv` is `writev`, `i` lives until the call, and `ReturnBlock` is the
pool's `PutBlock`.  One call of `writev` transfers at most `0x7ffff000` bytes, so its result fits
the `int` it is stored in.  A buffer in the list belongs to the socket: a run does not hand it to
`SendMessage` again, which is the one guard of the events (`step`) besides what `writev` can return.
-/
import Mathlib.Tactic.NormNum
import Kknf.CppNf.MemPool

namespace Kknf.CppNf.AsyncTcpSocket

open Kknf.Run

/-! ## 1. Data -/

/-- A `Buffer` with the bytes of its block, `head` and `tail` in order. -/
structure Block extends Buffer where
  bytes : List UInt8
  length_eq : bytes.length = length
  head_le : head ≤ tail
  tail_le : tail ≤ length
  deriving DecidableEq

/-- The bytes from `head` to `tail`. -/
def Block.pending (b : Block) : List UInt8 := (b.bytes.drop b.head).take (b.tail - b.head)

@[simp] theorem Block.length_pending (b : Block) : b.pending.length = b.tail - b.head := by
  have h₁ := b.length_eq
  have h₂ := b.tail_le
  simp only [pending, List.length_take, List.length_drop]
  omega

/-- `buf->head += n`. -/
def Block.advance (b : Block) (n : Nat) (h : n ≤ b.tail - b.head) : Block :=
  { b with
    head := b.head + n
    head_le := by
      have := b.head_le
      omega }

@[simp] theorem Block.start_advance (b : Block) (n : Nat) (h : n ≤ b.tail - b.head) :
    (b.advance n h).start = b.start := rfl

theorem Block.pending_advance (b : Block) (n : Nat) (h : n ≤ b.tail - b.head) :
    (b.advance n h).pending = b.pending.drop n := by
  have hlen : b.tail - (b.head + n) = b.tail - b.head - n := Nat.sub_add_eq _ _ _
  simp [pending, advance, List.drop_take, hlen]

structure TCPMessage where
  id : Nat
  data : Block
  deriving DecidableEq

/-- `AsyncSocket::State`. -/
inductive State
  | ok
  | toClose
  | toCloseAfterSendAllData
  deriving DecidableEq

/-- What sending uses of an `AsyncTCPDataSocket`. -/
structure Socket where
  sendMsgList : List TCPMessage
  state : State
  curId : Nat

inductive Fault
  /-- an event that cannot happen in this state -/
  | disabled
  /-- the iterator of the loop is at the end of the list -/
  | pastEnd
  /-- `assert(left == 0)` -/
  | assertLeft
  deriving DecidableEq

/-! ## 2. The functions -/

def kMaxSendBufferNum : Nat := 1000

/-- `SendMessage`: the id it returns, 0 when the list is full, and the socket. -/
def sendMessage (sk : Socket) (buf : Block) : Nat × Socket :=
  if sk.sendMsgList.length = kMaxSendBufferNum then (0, sk)
  else
    (sk.curId, { sk with
      sendMsgList := sk.sendMsgList ++ [{ id := sk.curId, data := buf }]
      curId := (sk.curId + 1) % 2 ^ 64 })

/-- The loop that accounts for `left` written bytes: the buffers that go back to the pool, the list,
and what is left at the end. -/
def account : List TCPMessage → Nat → Except Fault (List Block × List TCPMessage × Nat)
  | [], left => if left > 0 then .error .pastEnd else .ok ([], [], left)
  | m :: rest, left =>
    if left > 0 then
      if h : m.data.tail - m.data.head ≤ left then
        match account rest (left - (m.data.tail - m.data.head)) with
        | .error f => .error f
        | .ok (returned, l, left) => .ok (m.data :: returned, l, left)
      else .ok ([], { m with data := m.data.advance left (Nat.le_of_not_le h) } :: rest, 0)
    else .ok ([], m :: rest, left)

/-- `OnWritable`, when `writev` returns `ret`: the code it returns, the buffers that go back to the
pool, and the socket. -/
def onWritable (sk : Socket) (ret : Int) : Except Fault (Int × List Block × Socket) :=
  if sk.sendMsgList.length = 0 then .ok (-1, [], sk)
  else if ret < 0 then .ok (-1, [], sk)
  else if ret = 0 then .ok (-2, [], sk)
  else
    match account sk.sendMsgList ret.toNat with
    | .error f => .error f
    | .ok (returned, l, left) =>
      if left ≠ 0 then .error .assertLeft
      else
        let code := if sk.state = .toCloseAfterSendAllData ∨ sk.state = .toClose then 2 else 0
        .ok (code, returned, { sk with sendMsgList := l })

/-- `CloseAfterSendAllData`. -/
def closeAfterSendAllData (sk : Socket) : Socket := { sk with state := .toCloseAfterSendAllData }

/-- `CloseNow`. -/
def closeNow (sk : Socket) : Socket := { sk with state := .toClose }

/-! ## 3. Runs -/

/-- The bytes that some buffers have to send. -/
def pendingOf (l : List Block) : List UInt8 := (l.map (·.pending)).flatten

/-- The buffers in the list of messages. -/
def buffers (l : List TCPMessage) : List Block := l.map (·.data)

/-- The most bytes that one call of `writev` transfers. -/
def maxTransfer : Int := 0x7ffff000

/-- A socket, the buffers that `SendMessage` accepted (as they were then), the bytes written to the
connection, and the buffers given back to the pool. -/
structure System where
  sock : Socket
  accepted : List Block
  written : List UInt8
  returned : List Block

inductive Event
  | sendMessage (buf : Block)
  /-- `OnWritable`, when `writev` returns `ret` -/
  | onWritable (ret : Int)
  | closeAfterSendAllData
  | closeNow

/-- A buffer that is in the list belongs to the socket, so it is not handed over again. -/
def step (s : System) : Event → Except Fault System
  | .sendMessage buf =>
    if buf.start ∈ (buffers s.sock.sendMsgList).map (·.start) then .error .disabled
    else
      .ok { s with
        sock := (sendMessage s.sock buf).2
        accepted :=
          if s.sock.sendMsgList.length = kMaxSendBufferNum then s.accepted
          else s.accepted ++ [buf] }
  | .onWritable ret =>
    let offered := pendingOf (buffers s.sock.sendMsgList)
    if ret > offered.length ∨ ret > maxTransfer then .error .disabled
    else
      match onWritable s.sock ret with
      | .error f => .error f
      | .ok (_, returned, sk) =>
        .ok { s with
          sock := sk
          written := s.written ++ offered.take ret.toNat
          returned := s.returned ++ returned }
  | .closeAfterSendAllData => .ok { s with sock := closeAfterSendAllData s.sock }
  | .closeNow => .ok { s with sock := closeNow s.sock }

/-- A new socket; nothing sets `cur_id_`. -/
def System.new (curId : Nat) : System where
  sock := { sendMsgList := [], state := .ok, curId := curId }
  accepted := []
  written := []
  returned := []

/-! ## 4. The loop -/

@[simp] theorem pendingOf_nil : pendingOf [] = [] := rfl

@[simp] theorem pendingOf_cons (b : Block) (l : List Block) :
    pendingOf (b :: l) = b.pending ++ pendingOf l := rfl

@[simp] theorem pendingOf_append (l l' : List Block) :
    pendingOf (l ++ l') = pendingOf l ++ pendingOf l' := by
  simp [pendingOf]

@[simp] theorem buffers_nil : buffers [] = [] := rfl

@[simp] theorem buffers_cons (m : TCPMessage) (l : List TCPMessage) :
    buffers (m :: l) = m.data :: buffers l := rfl

@[simp] theorem buffers_append (l l' : List TCPMessage) :
    buffers (l ++ l') = buffers l ++ buffers l' := List.map_append

/-- `l` is `todo`, or it is `todo` with part of the first buffer sent: not all of it, unless the
buffer is empty. -/
inductive Trimmed : List Block → List Block → Prop
  | refl (l : List Block) : Trimmed l l
  | head {b a : Block} {rest : List Block} (hstart : b.start = a.start)
      (hne : a.pending ≠ [] → b.pending ≠ []) (hle : b.pending.length ≤ a.pending.length) :
      Trimmed (b :: rest) (a :: rest)

theorem Trimmed.trans {l l' l'' : List Block} (h : Trimmed l l') (h' : Trimmed l' l'') :
    Trimmed l l'' := by
  rcases h with _ | ⟨hstart, hne, hle⟩
  · exact h'
  · rcases h' with _ | ⟨hstart', hne', hle'⟩
    · exact .head hstart hne hle
    · exact .head (hstart.trans hstart') (hne ∘ hne') (hle.trans hle')

theorem Trimmed.length_le {l l' : List Block} (h : Trimmed l l') :
    (pendingOf l).length ≤ (pendingOf l').length := by
  rcases h with _ | ⟨-, -, hle⟩
  · exact Nat.le_refl _
  · simp only [pendingOf_cons, List.length_append]
    omega

/-- When the first buffers leave a trimmed list, the rest of it is trimmed. -/
theorem Trimmed.split {gone keep l todo : List Block} (h : Trimmed (gone ++ keep) todo)
    (h' : Trimmed l keep) : ∃ done todo', todo = done ++ todo' ∧
      gone.map (·.start) = done.map (·.start) ∧ Trimmed l todo' := by
  rcases gone with _ | ⟨g, gs⟩
  · exact ⟨[], todo, rfl, rfl, h'.trans h⟩
  · rw [List.cons_append] at h
    generalize hq : g :: (gs ++ keep) = queue at h
    rcases h with _ | ⟨hstart, -, -⟩
    · exact ⟨g :: gs, keep, hq.symm, rfl, h'⟩
    · obtain ⟨rfl, rfl⟩ := List.cons.inj hq
      exact ⟨_ :: gs, keep, rfl, by simp [hstart], h'⟩

/-- **The loop stops inside the list with nothing left over.**  It takes the buffers that are
written to their ends off the list, and `left` bytes off what the list has to send. -/
theorem account_spec : ∀ {l : List TCPMessage} {left : Nat},
    left ≤ (pendingOf (buffers l)).length → ∃ gone keep l',
      account l left = .ok (gone, l', 0) ∧ buffers l = gone ++ keep ∧
        Trimmed (buffers l') keep ∧
        pendingOf (buffers l') = (pendingOf (buffers l)).drop left
  | [], left, h => by
    have hleft : left = 0 := by simpa using h
    subst hleft
    exact ⟨[], [], [], rfl, rfl, .refl [], rfl⟩
  | m :: rest, left, h => by
    rw [buffers_cons, pendingOf_cons, List.length_append, Block.length_pending] at h
    rcases Nat.eq_zero_or_pos left with rfl | hpos
    · exact ⟨[], buffers (m :: rest), m :: rest, by simp [account], rfl, .refl _, by simp⟩
    · by_cases hlen : m.data.tail - m.data.head ≤ left
      · -- the first buffer is written to its end
        have hleft : left - (m.data.tail - m.data.head) ≤ (pendingOf (buffers rest)).length := by
          omega
        obtain ⟨gone, keep, l', hacc, hsplit, htrim, hrest⟩ := account_spec hleft
        refine ⟨m.data :: gone, keep, l', ?_, ?_, htrim, ?_⟩
        · simp [account, hpos, hlen, hacc]
        · rw [buffers_cons, hsplit, List.cons_append]
        · have hnil : m.data.pending.drop left = [] :=
            List.drop_eq_nil_of_le (by rw [Block.length_pending]; exact hlen)
          rw [hrest, buffers_cons, pendingOf_cons, List.drop_append, Block.length_pending, hnil,
            List.nil_append]
      · have hlt : left < m.data.tail - m.data.head := Nat.lt_of_not_le hlen
        refine ⟨[], buffers (m :: rest),
          { m with data := m.data.advance left hlt.le } :: rest, ?_, rfl, ?_, ?_⟩
        · simp [account, hpos, hlen]
        · refine .head rfl (fun _ hnil => ?_) ?_
          · have hzero := congrArg List.length hnil
            rw [Block.pending_advance, List.length_drop, Block.length_pending] at hzero
            simp only [List.length_nil] at hzero
            omega
          · rw [Block.pending_advance, List.length_drop]
            exact Nat.sub_le _ _
        · have hle : left ≤ m.data.pending.length := by simpa using hlt.le
          simp only [buffers_cons, pendingOf_cons, Block.pending_advance]
          exact (List.drop_append_of_le_length hle).symm

/-! ## 5. Every run sends in order -/

/-- The accepted buffers are those given back and, in the same order, those in the list, of which
only the first is partly sent; and what has been written is what is no longer in the list. -/
def Accounted (s : System) : Prop :=
  ∃ done todo, s.accepted = done ++ todo ∧ s.returned.map (·.start) = done.map (·.start) ∧
    Trimmed (buffers s.sock.sendMsgList) todo ∧
    s.written ++ pendingOf (buffers s.sock.sendMsgList) = pendingOf s.accepted

theorem accounted_new (curId : Nat) : Accounted (.new curId) :=
  ⟨[], [], rfl, rfl, .refl [], rfl⟩

/-- A buffer appended to the list. -/
theorem Trimmed.append {l todo : List Block} (h : Trimmed l todo) (b : Block) :
    Trimmed (l ++ [b]) (todo ++ [b]) := by
  rcases h with _ | ⟨hstart, hne, hle⟩
  · exact .refl _
  · exact .head hstart hne hle

theorem accounted_sendMessage {s t : System} {buf : Block} (hs : Accounted s)
    (h : step s (.sendMessage buf) = .ok t) : Accounted t := by
  simp only [step] at h
  split at h
  · cases h
  · cases h
    obtain ⟨done, todo, hacc, hret, htrim, hbytes⟩ := hs
    by_cases hfull : s.sock.sendMsgList.length = kMaxSendBufferNum
    · simp only [sendMessage, hfull, if_true]
      exact ⟨done, todo, hacc, hret, htrim, hbytes⟩
    · simp only [sendMessage, hfull, if_false]
      refine ⟨done, todo ++ [buf], ?_, hret, ?_, ?_⟩
      · change s.accepted ++ [buf] = done ++ (todo ++ [buf])
        rw [hacc, List.append_assoc]
      · change Trimmed (buffers (s.sock.sendMsgList ++ [_])) (todo ++ [buf])
        rw [buffers_append]
        exact htrim.append buf
      · change s.written ++ pendingOf (buffers (s.sock.sendMsgList ++ [_])) =
          pendingOf (s.accepted ++ [buf])
        rw [buffers_append, pendingOf_append, pendingOf_append, ← hbytes, List.append_assoc]
        rfl

/-- `OnWritable` succeeds and keeps the account, whatever part of what it offers is written. -/
theorem accounted_onWritable {s : System} {ret : Int} (hs : Accounted s)
    (hret : ret ≤ (pendingOf (buffers s.sock.sendMsgList)).length) :
    ∃ code returned sk, onWritable s.sock ret = .ok (code, returned, sk) ∧
      Accounted { s with
        sock := sk
        written := s.written ++ (pendingOf (buffers s.sock.sendMsgList)).take ret.toNat
        returned := s.returned ++ returned } := by
  obtain ⟨done, todo, hacc, hdone, htrim, hbytes⟩ := hs
  by_cases hpos : s.sock.sendMsgList.length = 0 ∨ ret ≤ 0
  · -- nothing is written, and nothing changes
    have hnone : (pendingOf (buffers s.sock.sendMsgList)).take ret.toNat = [] := by
      rcases hpos with hnil | hle
      · simp [List.length_eq_zero_iff.mp hnil]
      · simp [Int.toNat_of_nonpos hle]
    have hcall : ∃ code, onWritable s.sock ret = .ok (code, [], s.sock) := by
      by_cases hnil : s.sock.sendMsgList.length = 0
      · exact ⟨-1, by simp [onWritable, hnil]⟩
      · by_cases hneg : ret < 0
        · exact ⟨-1, by simp [onWritable, hneg]⟩
        · have hzero : ret = 0 := by
            rcases hpos with h | h
            · exact absurd h hnil
            · omega
          exact ⟨-2, by simp [onWritable, hnil, hzero]⟩
    obtain ⟨code, hcall⟩ := hcall
    refine ⟨code, [], s.sock, hcall, done, todo, hacc, ?_, htrim, ?_⟩
    · simpa using hdone
    · simpa [hnone] using hbytes
  · push Not at hpos
    obtain ⟨hne, hgt⟩ := hpos
    have hle : ret.toNat ≤ (pendingOf (buffers s.sock.sendMsgList)).length := by omega
    obtain ⟨gone, keep, l', hloop, hsplit, hkeep, hrest⟩ := account_spec hle
    rw [hsplit] at htrim
    obtain ⟨more, todo', htodo, hgone, htrim'⟩ := htrim.split hkeep
    have hnn : ¬ ret < 0 := by omega
    have hnz : ¬ ret = 0 := by omega
    refine ⟨_, gone, { s.sock with sendMsgList := l' },
      by simp only [onWritable, hne, hnn, hnz, if_false, hloop]; rfl,
      done ++ more, todo', ?_, ?_, htrim', ?_⟩
    · rw [List.append_assoc, ← htodo]
      exact hacc
    · rw [List.map_append, List.map_append, hdone, hgone]
    · change _ ++ pendingOf (buffers l') = pendingOf s.accepted
      rw [hrest, List.append_assoc, List.take_append_drop]
      exact hbytes

/-- A step fails only when its event is not possible, and keeps the account. -/
theorem step_accounted {s : System} (hs : Accounted s) (e : Event) :
    step s e = .error .disabled ∨ ∃ t, step s e = .ok t ∧ Accounted t := by
  rcases e with ⟨buf⟩ | ⟨ret⟩ | _ | _
  · by_cases hmem : buf.start ∈ (buffers s.sock.sendMsgList).map (·.start)
    · exact Or.inl (by simp only [step, hmem, if_true])
    · have hstep : ∃ t, step s (.sendMessage buf) = .ok t := by
        simp only [step, hmem, if_false]
        exact ⟨_, rfl⟩
      obtain ⟨t, ht⟩ := hstep
      exact Or.inr ⟨t, ht, accounted_sendMessage hs ht⟩
  · by_cases hret : ret > (pendingOf (buffers s.sock.sendMsgList)).length ∨ ret > maxTransfer
    · exact Or.inl (by simp only [step, hret, if_true])
    · obtain ⟨code, returned, sk, hcall, hacc⟩ :=
        accounted_onWritable hs (Int.not_lt.mp (not_or.mp hret).1)
      exact Or.inr ⟨_, by simp only [step, hret, if_false, hcall], hacc⟩
  · exact Or.inr ⟨_, rfl, hs⟩
  · exact Or.inr ⟨_, rfl, hs⟩

theorem accounted_run (es : List Event) {s : System} (hs : Accounted s) :
    exec step s es = .error .disabled ∨ ∃ t, exec step s es = .ok t ∧ Accounted t :=
  exec_error_or_ok (fun _ e ht => step_accounted ht e) hs

/-- The bytes of the accepted buffers go out in order, each buffer is given back once, in order, and
a buffer with something to send is given back exactly when all of it has been written. -/
structure InOrder (s : System) : Prop where
  bytes : s.written ++ pendingOf (buffers s.sock.sendMsgList) = pendingOf s.accepted
  returned : s.returned.map (·.start) = (s.accepted.take s.returned.length).map (·.start)
  listed : (buffers s.sock.sendMsgList).map (·.start) =
    (s.accepted.drop s.returned.length).map (·.start)
  written_iff : ∀ i (h : i < s.accepted.length), s.accepted[i].pending ≠ [] →
    (i < s.returned.length ↔ (pendingOf (s.accepted.take (i + 1))).length ≤ s.written.length)

theorem Trimmed.map_start {l l' : List Block} (h : Trimmed l l') :
    l.map (·.start) = l'.map (·.start) := by
  rcases h with _ | ⟨hstart, -, -⟩
  · rfl
  · simp [hstart]

/-- What comes after a buffer with something to send is less than the whole. -/
theorem drop_lt {l : List Block} {j : Nat} (hj : j < l.length) (hne : l[j].pending ≠ []) :
    (pendingOf (l.drop (j + 1))).length < (pendingOf l).length := by
  have hsplit : pendingOf l =
      pendingOf (l.take j) ++ (l[j].pending ++ pendingOf (l.drop (j + 1))) := by
    rw [← pendingOf_cons, ← List.drop_eq_getElem_cons hj, ← pendingOf_append, List.take_append_drop]
  have hpos := List.length_pos_iff.mpr hne
  rw [hsplit, List.length_append, List.length_append]
  omega

theorem Trimmed.drop_lt {l todo : List Block} (h : Trimmed l todo) {j : Nat}
    (hj : j < todo.length) (hne : todo[j].pending ≠ []) :
    (pendingOf (todo.drop (j + 1))).length < (pendingOf l).length := by
  rcases h with _ | @⟨b, a, rest, -, hb, -⟩
  · exact AsyncTcpSocket.drop_lt hj hne
  · rcases j with _ | j
    · have hpos := List.length_pos_iff.mpr (hb hne)
      simp only [pendingOf_cons, List.length_append, List.drop_succ_cons, List.drop_zero]
      omega
    · have hlt := AsyncTcpSocket.drop_lt (l := rest) (Nat.lt_of_succ_lt_succ hj) hne
      simp only [pendingOf_cons, List.length_append, List.drop_succ_cons]
      omega

theorem Accounted.inOrder {s : System} (hs : Accounted s) : InOrder s := by
  obtain ⟨done, todo, hacc, hret, htrim, hbytes⟩ := hs
  have hlen : s.returned.length = done.length := by simpa using congrArg List.length hret
  refine ⟨hbytes, ?_, ?_, fun i hi hne => ?_⟩
  · rw [hlen, hacc, List.take_left]
    exact hret
  · rw [hlen, hacc, List.drop_left]
    exact htrim.map_start
  · have htotal := congrArg List.length hbytes
    rw [hacc, pendingOf_append, List.length_append, List.length_append] at htotal
    have hle := htrim.length_le
    rw [hlen]
    by_cases hid : i < done.length
    · -- it is one of those given back, and all of these have been written
      have htake : s.accepted.take (i + 1) = done.take (i + 1) := by
        rw [hacc, List.take_append_of_le_length hid]
      have hdone :
          pendingOf done = pendingOf (done.take (i + 1)) ++ pendingOf (done.drop (i + 1)) := by
        rw [← pendingOf_append, List.take_append_drop]
      have hsum := congrArg List.length hdone
      rw [List.length_append] at hsum
      rw [htake]
      exact ⟨fun _ => by omega, fun _ => hid⟩
    · -- it is in the list, and what comes after it is less than what is still to be sent
      obtain ⟨j, rfl⟩ := Nat.exists_eq_add_of_le (Nat.le_of_not_lt hid)
      have hj : j < todo.length := by
        rw [hacc, List.length_append] at hi
        omega
      have hget : s.accepted[done.length + j] = todo[j] := by
        simp [hacc]
      rw [hget] at hne
      have hlt := htrim.drop_lt hj hne
      have htake : s.accepted.take (done.length + j + 1) = done ++ todo.take (j + 1) := by
        rw [hacc, Nat.add_assoc, List.take_length_add_append]
      have htodo :
          pendingOf todo = pendingOf (todo.take (j + 1)) ++ pendingOf (todo.drop (j + 1)) := by
        rw [← pendingOf_append, List.take_append_drop]
      have hsum := congrArg List.length htodo
      rw [List.length_append] at hsum
      rw [htake, pendingOf_append, List.length_append]
      exact ⟨fun h => absurd h hid, fun h => by omega⟩

/-- **The send path is right.**  No run runs past the end of the list or fails the assertion, and in
every state of every run everything has been sent and given back in order. -/
theorem sendMessages_in_order (curId : Nat) (es : List Event) :
    (∀ f, exec step (.new curId) es = .error f → f = .disabled) ∧
      ∀ s, exec step (.new curId) es = .ok s → InOrder s := by
  rcases accounted_run es (accounted_new curId) with hdis | ⟨t, ht, hacc⟩
  · refine ⟨fun f hf => ?_, fun s hs => ?_⟩
    · cases hdis.symm.trans hf
      rfl
    · cases hdis.symm.trans hs
  · refine ⟨fun f hf => ?_, fun s hs => ?_⟩
    · cases ht.symm.trans hf
    · cases ht.symm.trans hs
      exact hacc.inOrder

end Kknf.CppNf.AsyncTcpSocket
