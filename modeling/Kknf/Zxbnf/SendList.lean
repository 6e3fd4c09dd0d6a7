/-
# Messages to send: `TCPConnection` and `TCPMessageToSend`

A connection has a list of messages to send, each a chain of buffers.  `GetIOVectorToSend` is to
gather what has not been sent, and `ShrinkSendMsgList` to take off the list what has.  Both follow
pointers of the message that nothing sets.

* The constructor of a message looks at the chain it is given and keeps neither `head_` nor `cur_`.
  So `SeekForward` fails its assertion, and without assertions every message counts as sent at once,
  with no buffer to release.  `shrink_iff` says that `ShrinkSendMsgList` is right for no list but
  the empty one.  (`SeekForward` itself is right once it has a cursor: `seekForward_of_cursor`.)
* `GetIOVectorToSend` never goes on to the next message, so it returns for no list but the empty one
  (`gather_iff`), whatever `head_` is and wherever `it++` leads, which is behind the buffer and not
  to its successor.  With `head_` null it goes on for ever.

The readings of the text: `TCPMessage(buffer_list)` is `Message(buffer_list)`, `cur()` is `cur_` and
`head()` of a message is `head_`, `Reset` is `Destroy`, and `remove(iter)` of the list is `erase`.
A pointer to a buffer is null or a position in the chain of its message, which is where all pointers
of a message can lead.
-/
import Kknf.Lib.Bytes
import Kknf.Lib.Loop
import Kknf.Lib.Run

namespace Kknf.Zxbnf.SendList

open Kknf.Loop Kknf.Run

/-! ## 1. Data -/

/-- A `Buffer`, with its block and the bytes in it. -/
structure Buffer where
  start : Nat
  bytes : List Byte
  head : Nat
  tail : Nat
  head_le : head ≤ tail
  tail_le : tail ≤ bytes.length
  deriving DecidableEq

def Buffer.length (b : Buffer) : Nat := b.bytes.length

/-- The bytes from `head` to `tail`. -/
def Buffer.pending (b : Buffer) : List Byte := (b.bytes.drop b.head).take (b.tail - b.head)

/-- `head() += n`. -/
def Buffer.forward (b : Buffer) (n : Nat) (h : n ≤ b.tail - b.head) : Buffer :=
  { b with
    head := b.head + n
    head_le := by
      have := b.head_le
      omega }

/-- A `TCPMessageToSend`, and the chain of buffers it was made of. -/
structure TCPMessageToSend where
  chain : List Buffer
  head : Option Nat
  cur : Option Nat
  messageSize : Int

structure TCPConnection where
  sendMsgList : List TCPMessageToSend

inductive Fault
  /-- an event that cannot happen in this state -/
  | disabled
  /-- the assertions of `Message::Message` -/
  | assertFull
  /-- `assert(cur())` -/
  | assertCur
  /-- a pointer to no buffer -/
  | wildDeref
  /-- an entry of `iovec` behind the last one -/
  | overflow
  deriving DecidableEq

/-! ## 2. The functions -/

/-- The assertions of `Message::Message`: all buffers but the last are full. -/
def chainFull : List Buffer → Bool
  | [] => true
  | [_] => true
  | b :: next :: l => b.head = 0 ∧ b.tail = b.length ∧ chainFull (next :: l)

/-- `TCPMessageToSend::TCPMessageToSend`; `asserts` says whether assertions are compiled in. -/
def newMessage (asserts : Bool) (bufferList : List Buffer) : Except Fault TCPMessageToSend :=
  if asserts ∧ ¬ chainFull bufferList then .error .assertFull
  else
    .ok {
      chain := bufferList
      head := none
      cur := none
      messageSize := bufferList.foldl (fun size b => size + b.tail) (-1) }

/-- The loop of `SeekForward`, over the buffers from `cur()` on: the buffers after it, how many of
them it has gone past, and `left`. -/
def seekLoop : List Buffer → Nat → List Buffer × Nat × Nat
  | [], left => ([], 0, left)
  | b :: l, left =>
    if left > 0 then
      if h : b.tail - b.head ≤ left then
        let r := seekLoop l (left - (b.tail - b.head))
        (b.forward (b.tail - b.head) (Nat.le_refl _) :: r.1, r.2.1 + 1, r.2.2)
      else (b.forward left (Nat.le_of_not_le h) :: l, 0, 0)
    else (b :: l, 0, left)

/-- `SeekForward`: the number of bytes it returns, and the message. -/
def seekForward (asserts : Bool) (m : TCPMessageToSend) (num : Nat) :
    Except Fault (Nat × TCPMessageToSend) :=
  match m.cur with
  | none => if asserts then .error .assertCur else .ok (0, m)
  | some i =>
    let r := seekLoop (m.chain.drop i) num
    .ok (num - r.2.2, { m with
      chain := m.chain.take i ++ r.1
      cur := if i + r.2.1 < m.chain.length then some (i + r.2.1) else none })

/-- `AllSent`. -/
def TCPMessageToSend.allSent (m : TCPMessageToSend) : Bool := m.cur.isNone

/-- The buffers that are put back to the pool, from the one that `Reset` returns on. -/
def TCPMessageToSend.released (m : TCPMessageToSend) : List Buffer :=
  match m.head with
  | none => []
  | some i => m.chain.drop i

/-- The loop of `ShrinkSendMsgList`, over the messages from `iter` on: `left`, the buffers that are
put back, and the messages that stay. -/
def shrinkLoop (asserts : Bool) :
    List TCPMessageToSend → Nat → Except Fault (Nat × List Buffer × List TCPMessageToSend)
  | [], left => .ok (left, [], [])
  | m :: iter, left =>
    match seekForward asserts m left with
    | .error f => .error f
    | .ok (reduced, m) =>
      let back := if m.allSent then m.released else []
      let stay := if m.allSent then [] else [m]
      if left - reduced = 0 then .ok (0, back, stay ++ iter)
      else
        match shrinkLoop asserts iter (left - reduced) with
        | .error f => .error f
        | .ok (left, more, rest) => .ok (left, back ++ more, stay ++ rest)

/-- `ShrinkSendMsgList`. -/
def shrinkSendMsgList (asserts : Bool) (c : TCPConnection) (num : Nat) :
    Except Fault (Nat × List Buffer × TCPConnection) :=
  (shrinkLoop asserts c.sendMsgList num).map fun r => (r.1, r.2.1, { sendMsgList := r.2.2 })

/-- `PushMessageToSend`. -/
def pushMessageToSend (asserts : Bool) (c : TCPConnection) (data : List Buffer) :
    Except Fault TCPConnection :=
  (newMessage asserts data).map fun newmsg => { sendMsgList := c.sendMsgList ++ [newmsg] }

/-- `struct iov`: the block from `iov_base` on, and `iov_len`. -/
structure IOVec where
  iovBase : List Byte
  iovLen : Nat

/-- Where `GetIOVectorToSend` is: at the test of the outer loop, or at that of the inner one. -/
inductive At
  | outer
  | inner (it : Option Nat)

/-- The variables of `GetIOVectorToSend` that change; `i` is the number of entries written. -/
structure Gathering where
  pos : At
  iovec : List IOVec

/-- A turn of either loop.  `iter` are the messages from `iter` on, and `behind` says what `it++`
leads to, which is behind the object that `it` points to. -/
def gatherTurn (behind : Nat → Option Nat) (iter : List TCPMessageToSend) (iovNum : Nat)
    (s : Gathering) : Except Fault (Turn Gathering (List IOVec)) :=
  match iter with
  | [] => .ok (.done s.iovec)
  | m :: _ =>
    match s.pos with
    | .outer => .ok (.again { s with pos := .inner m.head })
    | .inner none => .ok (.again { s with pos := .outer })
    | .inner (some i) =>
      match m.chain[i]? with
      | none => .error .wildDeref
      | some it =>
        -- `continue` does not move `it`
        if it.tail = it.head then .ok (.again s)
        else if s.iovec.length ≥ iovNum then .error .overflow
        else
          let iovec := s.iovec ++ [{ iovBase := it.bytes.drop it.head, iovLen := it.tail }]
          if iovec.length = iovNum then .ok (.again { pos := .outer, iovec := iovec })
          else .ok (.again { pos := .inner (behind i), iovec := iovec })

/-- `GetIOVectorToSend`, within so many turns of its loops. -/
def getIOVectorToSend (behind : Nat → Option Nat) (turns : Nat) (c : TCPConnection)
    (iovNum : Nat) : Option (Except Fault (List IOVec)) :=
  runFor (gatherTurn behind c.sendMsgList iovNum) turns { pos := .outer, iovec := [] }

/-! ## 3. Runs -/

inductive Event
  | push (data : List Buffer)
  | shrink (num : Nat)

/-- A message is made of one buffer at least. -/
def step (asserts : Bool) (c : TCPConnection) : Event → Except Fault TCPConnection
  | .push data => if data = [] then .error .disabled else pushMessageToSend asserts c data
  | .shrink num => (shrinkSendMsgList asserts c num).map (·.2.2)

def TCPConnection.new : TCPConnection where
  sendMsgList := []

/-! ## 4. What the functions are for -/

/-- What some buffers have to send. -/
def pendingOf (l : List Buffer) : List Byte := l.flatMap Buffer.pending

/-- What some messages have to send. -/
def unsentOf (l : List TCPMessageToSend) : List Byte := l.flatMap fun m => pendingOf m.chain

/-- `SeekForward(num)` goes over `num` bytes or all there are, and `AllSent` says whether any are
left. -/
def SeeksRight (asserts : Bool) (m : TCPMessageToSend) (num : Nat) : Prop :=
  ∃ reduced m', seekForward asserts m num = .ok (reduced, m') ∧
    reduced = min num (pendingOf m.chain).length ∧
    pendingOf m'.chain = (pendingOf m.chain).drop num ∧
    (m'.allSent = true ↔ pendingOf m'.chain = [])

/-- `ShrinkSendMsgList(num)` takes `num` bytes off the list or all there are, returns how many are
missing, puts back the buffers of the messages that are sent, and leaves the messages behind the
first one that is not as they are. -/
def ShrinksRight (asserts : Bool) (c : TCPConnection) (num : Nat) : Prop :=
  ∃ left back c', shrinkSendMsgList asserts c num = .ok (left, back, c') ∧
    unsentOf c'.sendMsgList = (unsentOf c.sendMsgList).drop num ∧
    left = num - (unsentOf c.sendMsgList).length ∧
    ∃ gone kept, c.sendMsgList = gone ++ kept ∧
      back.map (·.start) = (gone.flatMap (·.chain)).map (·.start) ∧
      c'.sendMsgList.length = kept.length ∧ c'.sendMsgList.drop 1 = kept.drop 1 ∧
      ∀ m ∈ kept.head?, pendingOf m.chain ≠ [] →
        num < (unsentOf gone).length + (pendingOf m.chain).length

/-- The bytes of some entries. -/
def gathered (iovec : List IOVec) : List Byte := iovec.flatMap fun v => v.iovBase.take v.iovLen

/-- `GetIOVectorToSend` ends and gathers the beginning of what there is to send, all of it if there
is room. -/
def GathersRight (behind : Nat → Option Nat) (c : TCPConnection) (iovNum : Nat) : Prop :=
  ∃ turns iovec, getIOVectorToSend behind turns c iovNum = some (.ok iovec) ∧
    iovec.length ≤ iovNum ∧
    gathered iovec <+: unsentOf c.sendMsgList ∧
    (iovec.length < iovNum → gathered iovec = unsentOf c.sendMsgList)

/-! ## 5. The cursor -/

@[simp] theorem Buffer.length_pending (b : Buffer) : b.pending.length = b.tail - b.head := by
  have h := b.tail_le
  simp only [pending, List.length_take, List.length_drop]
  omega

theorem Buffer.pending_forward (b : Buffer) (n : Nat) (h : n ≤ b.tail - b.head) :
    (b.forward n h).pending = b.pending.drop n := by
  have hlen : b.tail - (b.head + n) = b.tail - b.head - n := Nat.sub_add_eq _ _ _
  simp [pending, forward, List.drop_take, hlen]

@[simp] theorem pendingOf_nil : pendingOf [] = [] := rfl

@[simp] theorem pendingOf_cons (b : Buffer) (l : List Buffer) :
    pendingOf (b :: l) = b.pending ++ pendingOf l := List.flatMap_cons

@[simp] theorem pendingOf_append (l l' : List Buffer) :
    pendingOf (l ++ l') = pendingOf l ++ pendingOf l' := List.flatMap_append

/-- **What the loop of `SeekForward` does.**  It goes over `left` bytes or all there are, and past
all buffers if it was to go over more than there are, or exactly to the end of one that has some. -/
theorem seekLoop_spec {l : List Buffer} : ∀ {left : Nat},
    pendingOf (seekLoop l left).1 = (pendingOf l).drop left ∧
      (seekLoop l left).2.2 = left - (pendingOf l).length ∧
      (seekLoop l left).2.1 ≤ l.length ∧
      ((seekLoop l left).2.1 = l.length → (pendingOf l).length ≤ left) := by
  induction l with
  | nil =>
    intro left
    simp [seekLoop]
  | cons b l ih =>
    intro left
    rw [pendingOf_cons, List.length_append, Buffer.length_pending]
    by_cases hpos : left > 0
    · by_cases hlen : b.tail - b.head ≤ left
      · obtain ⟨hpend, hleft, hle, hall⟩ := @ih (left - (b.tail - b.head))
        have hnil : b.pending.drop (b.tail - b.head) = [] :=
          List.drop_eq_nil_of_le (Nat.le_of_eq b.length_pending)
        have hgone : b.pending.drop left = [] :=
          List.drop_eq_nil_of_le (by rw [Buffer.length_pending]; exact hlen)
        simp only [seekLoop, hpos, if_true, hlen, dif_pos, pendingOf_cons, Buffer.pending_forward,
          hnil, List.nil_append, List.length_cons]
        refine ⟨?_, by omega, by omega, fun heq => ?_⟩
        · rw [hpend, List.drop_append, Buffer.length_pending, hgone, List.nil_append]
        · have hrest := hall (by omega)
          omega
      · have hle : left ≤ b.pending.length := by
          rw [Buffer.length_pending]
          omega
        simp only [seekLoop, hpos, if_true, hlen, dif_neg, not_false_eq_true, pendingOf_cons,
          Buffer.pending_forward, List.length_cons]
        refine ⟨(List.drop_append_of_le_length hle).symm, by omega, by omega, fun heq => ?_⟩
        cases heq
    · have hzero : left = 0 := by omega
      subst hzero
      simp [seekLoop]

/-- The last buffer has something to send. -/
def EndsPending (l : List Buffer) : Prop := ∃ b, l.getLast? = some b ∧ b.head < b.tail

theorem endsPending_cons {b : Buffer} {l : List Buffer} (hl : l ≠ []) :
    EndsPending (b :: l) ↔ EndsPending l := by
  obtain ⟨b', rest, rfl⟩ := List.exists_cons_of_ne_nil hl
  simp [EndsPending]

/-- A chain whose last buffer has something to send is passed as soon as it is sent. -/
theorem seekLoop_passes {l : List Buffer} (hl : EndsPending l) : ∀ {left : Nat},
    (pendingOf l).length ≤ left → (seekLoop l left).2.1 = l.length := by
  induction l with
  | nil =>
    intro left _
    rfl
  | cons b l ih =>
    intro left hle
    rw [pendingOf_cons, List.length_append, Buffer.length_pending] at hle
    have hlen : b.tail - b.head ≤ left := by omega
    have hrest : left > 0 ∧ (seekLoop l (left - (b.tail - b.head))).2.1 = l.length := by
      by_cases hnil : l = []
      · subst hnil
        obtain ⟨b', hb', hlt⟩ := hl
        rw [List.getLast?_singleton] at hb'
        obtain rfl := Option.some.inj hb'
        exact ⟨by omega, rfl⟩
      · have hend := (endsPending_cons hnil).mp hl
        have hpass := @ih hend (left - (b.tail - b.head)) (by omega)
        refine ⟨?_, hpass⟩
        by_contra hzero
        -- nothing left to go over, so nothing to send
        obtain ⟨b', hb', hlt⟩ := hend
        have hmem := List.mem_map_of_mem (f := Buffer.pending) (List.mem_of_getLast? hb')
        have hsome : b'.pending.length ≤ (pendingOf l).length := by
          rw [pendingOf, List.flatMap_def]
          exact (List.sublist_flatten_of_mem hmem).length_le
        rw [Buffer.length_pending] at hsome
        omega
    simp only [seekLoop, hrest.1, if_true, hlen, dif_pos, hrest.2, List.length_cons]

/-- **With a cursor `SeekForward` is right**: when `cur_` is at a buffer, what is before it is sent
and the last buffer is not an empty one. -/
theorem seekForward_of_cursor {m : TCPMessageToSend} {i : Nat} (hcur : m.cur = some i)
    (hi : i < m.chain.length) (hsent : pendingOf (m.chain.take i) = [])
    (hend : EndsPending m.chain) (asserts : Bool) (num : Nat) : SeeksRight asserts m num := by
  obtain ⟨hpend, hleft, hle, hall⟩ := @seekLoop_spec (m.chain.drop i) num
  have hrest : pendingOf m.chain = pendingOf (m.chain.drop i) := by
    have hsplit := pendingOf_append (m.chain.take i) (m.chain.drop i)
    rwa [List.take_append_drop, hsent, List.nil_append] at hsplit
  have hend' : EndsPending (m.chain.drop i) := by
    obtain ⟨b, hb, hlt⟩ := hend
    exact ⟨b, by rw [List.getLast?_drop, if_neg (by omega), hb], hlt⟩
  rw [List.length_drop] at hle hall
  refine ⟨_, _, by rw [seekForward, hcur], ?_, ?_, ?_⟩
  · rw [hleft, hrest]
    omega
  · rw [pendingOf_append, hsent, List.nil_append, hpend, hrest]
  · rw [pendingOf_append, hsent, List.nil_append, hpend, List.drop_eq_nil_iff]
    constructor
    · intro hdone
      refine hall ?_
      by_contra hne
      rw [TCPMessageToSend.allSent, if_pos (by omega)] at hdone
      cases hdone
    · intro hdone
      have hpass := seekLoop_passes hend' hdone
      rw [List.length_drop] at hpass
      rw [TCPMessageToSend.allSent, if_neg (by omega)]
      rfl

/-! ## 6. The cursor is never set -/

/-- Every message is made of some buffers and has neither `head_` nor `cur_`. -/
def Unset (c : TCPConnection) : Prop :=
  ∀ m ∈ c.sendMsgList, m.head = none ∧ m.cur = none ∧ m.chain ≠ []

/-- Going on in a message without a cursor fails its assertion or does nothing. -/
theorem seekForward_of_none {m : TCPMessageToSend} (hcur : m.cur = none) (asserts : Bool)
    (num : Nat) :
    seekForward asserts m num = if asserts then .error .assertCur else .ok (0, m) := by
  rw [seekForward, hcur]

/-- The loop of `ShrinkSendMsgList` drops messages that have nothing set, and puts nothing back. -/
theorem shrinkLoop_unset {asserts : Bool} {iter : List TCPMessageToSend} :
    ∀ {num left : Nat} {back : List Buffer} {rest : List TCPMessageToSend},
      (∀ m ∈ iter, m.head = none ∧ m.cur = none ∧ m.chain ≠ []) →
      shrinkLoop asserts iter num = .ok (left, back, rest) →
      back = [] ∧ (∃ gone, iter = gone ++ rest) ∧ (iter ≠ [] → rest.length < iter.length) := by
  induction iter with
  | nil =>
    intro num left back rest _ h
    cases h
    exact ⟨rfl, ⟨[], rfl⟩, fun hne => absurd rfl hne⟩
  | cons m iter ih =>
    intro num left back rest hunset h
    obtain ⟨hhead, hcur, -⟩ := hunset m List.mem_cons_self
    have hsent : m.allSent = true := by rw [TCPMessageToSend.allSent, hcur]; rfl
    have hback : m.released = [] := by rw [TCPMessageToSend.released, hhead]
    rw [shrinkLoop, seekForward_of_none hcur] at h
    cases asserts with
    | true => cases h
    | false =>
      simp only [Bool.false_eq_true, if_false, hsent, if_true, hback, List.nil_append] at h
      split at h
      · cases h
        exact ⟨rfl, ⟨[m], rfl⟩, fun _ => Nat.lt_succ_self _⟩
      · split at h
        · cases h
        · next left' more rest' hloop =>
          cases h
          obtain ⟨hnil, ⟨gone, hgone⟩, -⟩ :=
            ih (fun m' hm' => hunset m' (List.mem_cons_of_mem m hm')) hloop
          refine ⟨hnil, ⟨m :: gone, by rw [hgone, List.cons_append]⟩, fun _ => ?_⟩
          rw [hgone, List.length_cons, List.length_append]
          omega

/-- Nothing sets them. -/
theorem unset_step {asserts : Bool} {c d : TCPConnection} {e : Event} (hc : Unset c)
    (h : step asserts c e = .ok d) : Unset d := by
  rcases e with ⟨data⟩ | ⟨num⟩
  · simp only [step] at h
    split at h
    · cases h
    · next hne =>
      obtain ⟨newmsg, hnew, rfl⟩ := map_eq_ok.mp h
      intro m hm
      rcases List.mem_append.mp hm with hm | hm
      · exact hc m hm
      · obtain rfl := List.mem_singleton.mp hm
        simp only [newMessage] at hnew
        split at hnew
        · cases hnew
        · cases hnew
          exact ⟨rfl, rfl, hne⟩
  · obtain ⟨r, hr, rfl⟩ := map_eq_ok.mp h
    obtain ⟨⟨left, back, rest⟩, hloop, rfl⟩ := map_eq_ok.mp hr
    obtain ⟨-, ⟨gone, hgone⟩, -⟩ := shrinkLoop_unset hc hloop
    intro m hm
    refine hc m ?_
    rw [hgone]
    exact List.mem_append_right gone hm

theorem unset_run {asserts : Bool} {es : List Event} {c : TCPConnection}
    (h : exec (step asserts) .new es = .ok c) : Unset c := by
  have hall : Along (step asserts) (fun _ _ => True) .new es := along_of_forall fun _ _ _ => trivial
  refine hall.invariant (P := Unset) (fun _ _ _ hc _ => unset_step hc) ?_ h
  intro m hm
  cases hm

/-- **`ShrinkSendMsgList` is right for the empty list only.** -/
theorem shrinksRight_iff {c : TCPConnection} (hc : Unset c) (asserts : Bool) (num : Nat) :
    ShrinksRight asserts c num ↔ c.sendMsgList = [] := by
  constructor
  · rintro ⟨left, back, c', hcall, -, -, gone, kept, hsplit, hback, hlen, -, -⟩
    obtain ⟨⟨left', back', rest⟩, hloop, heq⟩ := map_eq_ok.mp hcall
    cases heq
    obtain ⟨rfl, -, hless⟩ := shrinkLoop_unset hc hloop
    by_contra hne
    have hshort := hless hne
    -- nothing is put back, so nothing may leave the list
    have hnone : gone = [] := by
      by_contra hsome
      obtain ⟨m, gone', rfl⟩ := List.exists_cons_of_ne_nil hsome
      have hm : m ∈ c.sendMsgList := by
        rw [hsplit]
        exact List.mem_append_left kept List.mem_cons_self
      have hnil := List.map_eq_nil_iff.mp hback.symm
      rw [List.flatMap_cons] at hnil
      exact (hc m hm).2.2 (List.append_eq_nil_iff.mp hnil).1
    rw [hsplit, hnone, List.nil_append] at hshort
    exact absurd hlen (Nat.ne_of_lt hshort)
  · intro hnil
    refine ⟨num, [], c, ?_, ?_, ?_, [], [], hnil, rfl, ?_, ?_, ?_⟩
    · obtain ⟨l⟩ := c
      cases hnil
      rfl
    · rw [hnil]
      exact (List.drop_nil).symm
    · rw [hnil]
      rfl
    · rw [hnil]
    · rw [hnil]
    · intro m hm
      cases hm

/-- A message without a cursor counts as sent, if it does not fail. -/
theorem seeksRight_iff {m : TCPMessageToSend} (hcur : m.cur = none) (asserts : Bool) (num : Nat) :
    SeeksRight asserts m num ↔ asserts = false ∧ pendingOf m.chain = [] := by
  have hsent : m.allSent = true := by rw [TCPMessageToSend.allSent, hcur]; rfl
  constructor
  · rintro ⟨reduced, m', hcall, -, -, hiff⟩
    rw [seekForward_of_none hcur] at hcall
    cases asserts with
    | true => cases hcall
    | false =>
      cases hcall
      exact ⟨rfl, hiff.mp hsent⟩
  · rintro ⟨rfl, hnil⟩
    refine ⟨0, m, seekForward_of_none hcur false num, ?_, ?_, iff_of_true hsent hnil⟩
    · rw [hnil]
      exact (Nat.min_zero num).symm
    · rw [hnil]
      exact (List.drop_nil).symm

/-- **Sent messages are taken off the list in no state that there is, but for the empty list.**  In
every state of every run `ShrinkSendMsgList` is right if and only if the list is empty; and
`SeekForward` is right for a message of the list if and only if assertions are compiled out and the
message has nothing to send. -/
theorem shrink_iff (asserts : Bool) (es : List Event) (c : TCPConnection)
    (h : exec (step asserts) .new es = .ok c) (num : Nat) :
    (ShrinksRight asserts c num ↔ c.sendMsgList = []) ∧
      ∀ m ∈ c.sendMsgList,
        (SeeksRight asserts m num ↔ asserts = false ∧ pendingOf m.chain = []) := by
  have hc := unset_run h
  refine ⟨shrinksRight_iff hc asserts num, ?_⟩
  intro m hm
  exact seeksRight_iff (hc m hm).2.1 asserts num

/-! ## 7. Gathering -/

/-- `iter` never moves, so the outer loop ends only where it begins at the end of the list. -/
theorem gatherTurn_not_done {behind : Nat → Option Nat} {iter : List TCPMessageToSend}
    (hne : iter ≠ []) (iovNum : Nat) (s : Gathering) (r : List IOVec) :
    gatherTurn behind iter iovNum s ≠ .ok (.done r) := by
  obtain ⟨m, rest, rfl⟩ := List.exists_cons_of_ne_nil hne
  intro h
  simp only [gatherTurn] at h
  split at h
  · cases h
  · cases h
  · split at h
    · cases h
    · split at h
      · cases h
      · split at h
        · cases h
        · split at h
          · cases h
          · cases h

/-- A message as it was made: from the outer loop to the inner one and back. -/
theorem gather_diverges {c : TCPConnection} (hc : Unset c) (hne : c.sendMsgList ≠ [])
    (behind : Nat → Option Nat) (iovNum : Nat) :
    Diverges (gatherTurn behind c.sendMsgList iovNum) ⟨.outer, []⟩ := by
  obtain ⟨m, rest, hlist⟩ := List.exists_cons_of_ne_nil hne
  have hhead : m.head = none := (hc m (by rw [hlist]; exact List.mem_cons_self)).1
  rw [hlist]
  refine diverges_of_invariant
    (I := fun s => s = ⟨.outer, []⟩ ∨ s = ⟨.inner none, []⟩) ?_ (Or.inl rfl)
  rintro s (rfl | rfl)
  · exact ⟨⟨.inner m.head, []⟩, rfl, Or.inr (by rw [hhead])⟩
  · exact ⟨⟨.outer, []⟩, rfl, Or.inl rfl⟩

/-- **`GetIOVectorToSend` is right for the empty list only**, whatever pointers its messages have
and wherever `it++` leads. -/
theorem gather_iff (behind : Nat → Option Nat) (c : TCPConnection) (iovNum : Nat) :
    GathersRight behind c iovNum ↔ c.sendMsgList = [] := by
  constructor
  · rintro ⟨turns, iovec, hcall, -⟩
    by_contra hne
    have hends : Ends (gatherTurn behind c.sendMsgList iovNum) ⟨.outer, []⟩ (.ok iovec) :=
      ⟨turns, hcall⟩
    obtain ⟨f, hf⟩ := hends.fault_of_no_last (gatherTurn_not_done hne iovNum)
    cases hf
  · intro hnil
    refine ⟨1, [], ?_, Nat.zero_le _, List.nil_prefix, ?_⟩
    · rw [getIOVectorToSend, hnil]
      rfl
    · intro _
      rw [hnil]
      rfl

/-! ## 8. One message -/

/-- A buffer with two bytes to send. -/
def twoBytes : Buffer where
  start := 0
  bytes := [1, 2]
  head := 0
  tail := 2
  head_le := Nat.zero_le 2
  tail_le := Nat.le_refl 2

/-- The connection after `PushMessageToSend` of this buffer. -/
def oneMessage : TCPConnection where
  sendMsgList := [{ chain := [twoBytes], head := none, cur := none, messageSize := 1 }]

theorem oneMessage_pushed (asserts : Bool) :
    exec (step asserts) .new [.push [twoBytes]] = .ok oneMessage := by
  cases asserts with
  | true => rfl
  | false => rfl

/-- Without assertions a byte that is sent takes the message off the list. -/
theorem emptied_shrinksRight : exec (step false) .new [.push [twoBytes], .shrink 1] = .ok .new ∧
    ShrinksRight false .new 3 :=
  ⟨rfl, (shrink_iff false [.push [twoBytes], .shrink 1] .new rfl 3).1.mpr rfl⟩

/-- Both bytes are sent: the assertion fails; without assertions the message leaves the list, no
buffer is put back, and the two bytes are still to be taken off. -/
theorem oneMessage_wrong : exec (step true) .new [.push [twoBytes]] = .ok oneMessage ∧
    shrinkSendMsgList true oneMessage 2 = .error .assertCur ∧
    shrinkSendMsgList false oneMessage 2 = .ok (2, [], .new) ∧
    ¬ ShrinksRight true oneMessage 2 := by
  refine ⟨rfl, rfl, rfl, ?_⟩
  rintro ⟨left, back, c', hcall, -⟩
  cases hcall

/-- The two bytes are to be gathered, and the call does not end, wherever `it++` would lead. -/
theorem oneMessage_endless : exec (step true) .new [.push [twoBytes]] = .ok oneMessage ∧
    (∀ behind turns, getIOVectorToSend behind turns oneMessage 8 = none) ∧
    ¬ GathersRight (fun _ => none) oneMessage 8 := by
  have hendless : ∀ behind turns, getIOVectorToSend behind turns oneMessage 8 = none :=
    fun behind => gather_diverges (unset_run (oneMessage_pushed true))
      (by simp [oneMessage]) behind 8
  refine ⟨rfl, hendless, ?_⟩
  rintro ⟨turns, iovec, hcall, -⟩
  rw [hendless] at hcall
  cases hcall

end Kknf.Zxbnf.SendList
