/-
# Sending with the `TCPSocket` of `nf`

`OnWritable` offers all messages of the list to `writev`, accounts for what was written, and goes on
until the list is empty or `writev` fails.  `sent_` is to say how much of the first message has been
written.  It moves the start of that message, but nothing else is done with it:

* the length offered is still the whole size, so `sent_` bytes behind the message are offered too;
* the accounting compares with the whole size as well, so a message of which `sent_` bytes were
  written before is taken to need all of them again;
* `sent_` is set to what the last `writev` wrote, not moved on by it, and it is not set back when
  the message leaves the list.

So a message may be written in two parts, and no write may come after these.  `sent_in_order_iff`
says exactly which runs get by with that.

The bytes are told apart by their message and their place in it, since the defect is about which
bytes are written, not about their values.  `kMaxSendList` is not defined anywhere and is a
parameter; `writv` is `writev`, whose result fits an `int`, as one call transfers at most
`0x7ffff000` bytes; and `sent_`, which nothing initialises, starts as 0.
-/
import Mathlib.Data.List.Infix
import Kknf.Lib.Run

namespace Kknf.Nf

open Kknf.Run

/-! ## 1. The function -/

/-- A message: its number among the accepted ones, which stands for `data`, and its size. -/
structure TCPMessage where
  data : Nat
  size : Nat
  size_pos : 0 < size
  deriving DecidableEq

/-- A byte of memory: the `off`-th from the start of a message. -/
structure Place where
  data : Nat
  off : Nat
  deriving DecidableEq

/-- What sending uses of a `TCPSocket`. -/
structure TCPSocket where
  sendMsgList : List TCPMessage
  sent : Nat
  deriving DecidableEq

inductive Fault
  /-- an event that cannot happen in this state -/
  | disabled
  /-- `assert(send_msg_list_.size())` -/
  | assertList
  /-- the iterator of the loop is at the end of the list -/
  | pastEnd
  deriving DecidableEq

/-- `len` bytes from `off` on. -/
def iovec (data off len : Nat) : List Place := (List.range len).map fun j => ⟨data, off + j⟩

/-- The bytes of the messages. -/
def bytesOf (l : List TCPMessage) : List Place := l.flatMap fun m => iovec m.data 0 m.size

/-- The bytes that are offered to `writev`: the start of the first message is moved by `sent_`, its
length is not. -/
def offered : List TCPMessage → Nat → List Place
  | [], _ => []
  | m :: rest, sent => iovec m.data sent m.size ++ bytesOf rest

/-- The loop that accounts for `left` written bytes: the list and `sent_` after it. -/
def account : List TCPMessage → Nat → Nat → Except Fault TCPSocket
  | [], left, sent => if left > 0 then .error .pastEnd else .ok ⟨[], sent⟩
  | m :: rest, left, sent =>
    if left > 0 then
      if m.size ≤ left then account rest (left - m.size) sent
      else .ok ⟨m :: rest, left⟩
    else .ok ⟨m :: rest, sent⟩

/-- `AsyncSend`: what it returns, and the socket. -/
def asyncSend (kMaxSendList : Nat) (sk : TCPSocket) (msg : TCPMessage) : Bool × TCPSocket :=
  if sk.sendMsgList.length > kMaxSendList then (false, sk)
  else (true, { sk with sendMsgList := sk.sendMsgList ++ [msg] })

/-! ## 2. Runs -/

/-- What `writev` comes to. -/
inductive Writev
  | wrote (n : Nat)
  | eintr
  | eagain
  /-- it fails with another `errno` -/
  | failed
  deriving DecidableEq

/-- A return of `OnWritable`, with what had been accepted and written by then. -/
structure Return where
  code : Int
  accepted : List TCPMessage
  taken : List Place

/-- A socket, whether it is in the loop of `OnWritable`, the accepted messages, the bytes that
`writev` took, and the returns of `OnWritable`. -/
structure System where
  sk : TCPSocket
  inLoop : Bool
  accepted : List TCPMessage
  taken : List Place
  returns : List Return

inductive Event
  | asyncSend (size : Nat)
  | onWritable
  /-- one round of the loop of `OnWritable` -/
  | writev (w : Writev)
  deriving DecidableEq

/-- The most bytes that one call of `writev` transfers. -/
def maxTransfer : Nat := 0x7ffff000

/-- `OnWritable` returns. -/
def System.leave (s : System) (code : Int) : System :=
  { s with
    inLoop := false
    returns := ⟨code, s.accepted, s.taken⟩ :: s.returns }

def step (kMaxSendList : Nat) (s : System) : Event → Except Fault System
  | .asyncSend size =>
    if s.inLoop then .error .disabled
    else
      if h : 0 < size then
        let msg : TCPMessage := ⟨s.accepted.length, size, h⟩
        match asyncSend kMaxSendList s.sk msg with
        | (ok, sk) =>
          .ok { s with sk := sk, accepted := if ok then s.accepted ++ [msg] else s.accepted }
      else .error .disabled
  | .onWritable =>
    if s.inLoop then .error .disabled
    else if s.sk.sendMsgList.length = 0 then .error .assertList
    else .ok { s with inLoop := true }
  | .writev w =>
    if ¬ s.inLoop then .error .disabled
    else
      match w with
      | .eintr => .ok s
      | .eagain => .ok (s.leave 0)
      | .failed => .ok (s.leave (-1))
      | .wrote n =>
        let offers := offered s.sk.sendMsgList s.sk.sent
        if n = 0 ∨ n > offers.length ∨ n > maxTransfer then .error .disabled
        else
          match account s.sk.sendMsgList n s.sk.sent with
          | .error f => .error f
          | .ok sk =>
            let s := { s with sk := sk, taken := s.taken ++ offers.take n }
            if sk.sendMsgList.length = 0 then .ok (s.leave 1) else .ok s

/-- A new socket. -/
def System.new : System where
  sk := { sendMsgList := [], sent := 0 }
  inLoop := false
  accepted := []
  taken := []
  returns := []

/-- The bytes written are the first of the accepted ones, and `OnWritable` returned 1 exactly when
all were written. -/
structure InOrder (s : System) : Prop where
  taken : s.taken <+: bytesOf s.accepted
  returns : ∀ r ∈ s.returns, r.code = 1 ↔ r.taken = bytesOf r.accepted

/-- How much of the first message of the list has been written. -/
def System.ofFirst (s : System) : Nat :=
  s.taken.length -
    (bytesOf (s.accepted.take (s.accepted.length - s.sk.sendMsgList.length))).length

/-- `OnWritable` is called with something in the list.  A `writev` that writes finds that nothing of
the first message has been written, or that `sent_` of it have and the rest is not exceeded.  A
`writev` that ends the call finds that something is still to be written. -/
def GetsBy (s : System) : Event → Prop
  | .asyncSend _ => True
  | .onWritable => s.sk.sendMsgList ≠ []
  | .writev .eintr => True
  | .writev .eagain => s.taken ≠ bytesOf s.accepted
  | .writev .failed => s.taken ≠ bytesOf s.accepted
  | .writev (.wrote n) => s.sk.sent = 0 ∨ s.ofFirst = s.sk.sent ∧
      ∀ m ∈ s.sk.sendMsgList.head?, s.sk.sent + n ≤ m.size

instance decidableGetsBy (s : System) : ∀ e : Event, Decidable (GetsBy s e)
  | .asyncSend _ => isTrue trivial
  | .onWritable => inferInstanceAs (Decidable (s.sk.sendMsgList ≠ []))
  | .writev .eintr => isTrue trivial
  | .writev .eagain => inferInstanceAs (Decidable (s.taken ≠ bytesOf s.accepted))
  | .writev .failed => inferInstanceAs (Decidable (s.taken ≠ bytesOf s.accepted))
  | .writev (.wrote n) => inferInstanceAs (Decidable (s.sk.sent = 0 ∨ s.ofFirst = s.sk.sent ∧
      ∀ m ∈ s.sk.sendMsgList.head?, s.sk.sent + n ≤ m.size))

/-! ## 3. Places -/

@[simp] theorem length_iovec (data off len : Nat) : (iovec data off len).length = len := by
  simp [iovec]

theorem iovec_add (data off a b : Nat) :
    iovec data off (a + b) = iovec data off a ++ iovec data (off + a) b := by
  simp [iovec, List.range_add, Nat.add_assoc]

theorem iovec_succ (data off len : Nat) :
    iovec data off (len + 1) = ⟨data, off⟩ :: iovec data (off + 1) len := by
  rw [Nat.add_comm, iovec_add]
  rfl

@[simp] theorem bytesOf_nil : bytesOf [] = [] := rfl

@[simp] theorem bytesOf_cons (m : TCPMessage) (l : List TCPMessage) :
    bytesOf (m :: l) = iovec m.data 0 m.size ++ bytesOf l := rfl

@[simp] theorem bytesOf_append (l l' : List TCPMessage) :
    bytesOf (l ++ l') = bytesOf l ++ bytesOf l' := List.flatMap_append

theorem offered_zero (l : List TCPMessage) : offered l 0 = bytesOf l := by
  rcases l with _ | ⟨m, rest⟩ <;> rfl

@[simp] theorem length_offered (l : List TCPMessage) (sent : Nat) :
    (offered l sent).length = (bytesOf l).length := by
  rcases l with _ | ⟨m, rest⟩
  · rfl
  · simp [offered]

/-- The first bytes of some messages, up to the end of the first one. -/
theorem take_bytesOf {m : TCPMessage} {rest : List TCPMessage} {j : Nat} (hj : j ≤ m.size) :
    (bytesOf (m :: rest)).take j = iovec m.data 0 j := by
  have hsize : m.size = j + (m.size - j) := by omega
  rw [bytesOf_cons, hsize, iovec_add, List.append_assoc, List.take_left' (length_iovec _ _ _)]

/-- What there can be at the `j`-th place of some messages, up to the first of the second one. -/
theorem off_of_getElem? {m : TCPMessage} {rest : List TCPMessage} {j : Nat} {x : Place}
    (hj : j ≤ m.size) (hx : (bytesOf (m :: rest))[j]? = some x) :
    x.off = 0 ∨ j < m.size ∧ x.off = j := by
  rw [bytesOf_cons] at hx
  rcases Nat.lt_or_eq_of_le hj with hlt | rfl
  · right
    refine ⟨hlt, ?_⟩
    rw [List.getElem?_append_left (by simpa using hlt)] at hx
    simp only [iovec, List.getElem?_map, List.getElem?_range hlt, Option.map_some,
      Option.some.injEq] at hx
    rw [← hx]
    exact Nat.zero_add j
  · left
    rw [List.getElem?_append_right (by simp), length_iovec, Nat.sub_self] at hx
    rcases rest with _ | ⟨m', rest⟩
    · simp at hx
    · obtain ⟨k, hk⟩ := Nat.exists_eq_succ_of_ne_zero m'.size_pos.ne'
      rw [bytesOf_cons, hk, iovec_succ] at hx
      simp only [List.cons_append, List.getElem?_cons_zero, Option.some.injEq] at hx
      rw [← hx]

/-- A byte that is neither the next one of the first message nor the first one of a message is out
of order. -/
theorem not_prefix {done rest : List TCPMessage} {m : TCPMessage} {pre t : List Place} {x : Place}
    (hle : pre.length ≤ m.size) (hx : x.off ≠ 0) (hne : pre.length < m.size → x.off ≠ pre.length) :
    ¬ bytesOf done ++ (pre ++ x :: t) <+: bytesOf (done ++ m :: rest) := by
  intro h
  rw [bytesOf_append, List.prefix_append_right_inj] at h
  obtain ⟨u, hu⟩ := h
  have hget : (bytesOf (m :: rest))[pre.length]? = some x := by
    rw [← hu]
    simp
  rcases off_of_getElem? hle hget with h0 | ⟨hlt, hoff⟩
  · exact hx h0
  · exact hne hlt hoff

/-! ## 4. The accounting -/

/-- `p` bytes of the first message, and not all of it. -/
def Within : List TCPMessage → Nat → Prop
  | [], p => p = 0
  | m :: _, p => p < m.size

/-- From a message of which nothing has been written, the accounting is right. -/
theorem account_zero : ∀ {l : List TCPMessage} {n : Nat}, n ≤ (bytesOf l).length →
    ∃ gone l' p, account l n 0 = .ok ⟨l', p⟩ ∧ l = gone ++ l' ∧
      n = (bytesOf gone).length + p ∧ Within l' p
  | [], n, hn => by
    have hzero : n = 0 := by simpa using hn
    subst hzero
    exact ⟨[], [], 0, rfl, rfl, rfl, rfl⟩
  | m :: rest, n, hn => by
    rw [bytesOf_cons, List.length_append, length_iovec] at hn
    rcases Nat.eq_zero_or_pos n with rfl | hpos
    · exact ⟨[], m :: rest, 0, by simp [account], rfl, rfl, m.size_pos⟩
    · by_cases hle : m.size ≤ n
      · obtain ⟨gone, l', p, hacc, hsplit, hlen, hwithin⟩ :=
          account_zero (l := rest) (n := n - m.size) (by omega)
        refine ⟨m :: gone, l', p, ?_, ?_, ?_, hwithin⟩
        · simp [account, hpos, hle, hacc]
        · rw [hsplit, List.cons_append]
        · rw [bytesOf_cons, List.length_append, length_iovec]
          omega
      · refine ⟨[], m :: rest, n, ?_, rfl, ?_, Nat.lt_of_not_le hle⟩
        · simp [account, hpos, hle]
        · exact (Nat.zero_add n).symm

theorem Within.le_length {l : List TCPMessage} {p : Nat} (h : Within l p) :
    p ≤ (bytesOf l).length := by
  rcases l with _ | ⟨m, rest⟩
  · exact Nat.le_of_eq h
  · rw [bytesOf_cons, List.length_append, length_iovec]
    exact (Nat.le_of_lt h).trans (Nat.le_add_right _ _)

theorem Within.append {l : List TCPMessage} {p : Nat} (h : Within l p) (m : TCPMessage) :
    Within (l ++ [m]) p := by
  rcases l with _ | ⟨m', rest⟩
  · have hzero : p = 0 := h
    subst hzero
    exact m.size_pos
  · exact h

/-! ## 5. Which runs are in order -/

/-- What `sent_` says when `p` bytes of the first message have been written: how many they are, or,
after a second write, fewer. -/
inductive Progress (sk : TCPSocket) (p : Nat) : Prop
  | known (hp : p = sk.sent) (hwithin : Within sk.sendMsgList p)
  | behind {m : TCPMessage} {rest : List TCPMessage} (hl : sk.sendMsgList = m :: rest)
      (hpos : 0 < sk.sent) (hlt : sk.sent < p) (hle : p ≤ m.size)

/-- The messages of `done` have been written, and `p` bytes of the first one in the list. -/
structure Written (s : System) (done : List TCPMessage) (p : Nat) : Prop where
  accepted : s.accepted = done ++ s.sk.sendMsgList
  taken : s.taken = bytesOf done ++ (bytesOf s.sk.sendMsgList).take p
  progress : Progress s.sk p
  returns : ∀ r ∈ s.returns, r.code = 1 ↔ r.taken = bytesOf r.accepted

def Inv (s : System) : Prop := ∃ done p, Written s done p

theorem Progress.le_length {sk : TCPSocket} {p : Nat} (h : Progress sk p) :
    p ≤ (bytesOf sk.sendMsgList).length := by
  rcases h with ⟨-, hwithin⟩ | ⟨hl, -, -, hle⟩
  · exact hwithin.le_length
  · rw [hl, bytesOf_cons, List.length_append, length_iovec]
    exact hle.trans (Nat.le_add_right _ _)

theorem Written.ofFirst {s : System} {done : List TCPMessage} {p : Nat} (h : Written s done p) :
    s.ofFirst = p := by
  have hlen : s.accepted.length - s.sk.sendMsgList.length = done.length := by
    rw [h.accepted, List.length_append, Nat.add_sub_cancel]
  have hdone : s.accepted.take done.length = done := by
    rw [h.accepted, List.take_left]
  unfold System.ofFirst
  rw [hlen, hdone, h.taken, List.length_append, List.length_take,
    Nat.min_eq_left h.progress.le_length, Nat.add_sub_cancel_left]

theorem Inv.inOrder {s : System} (h : Inv s) : InOrder s := by
  obtain ⟨done, p, h⟩ := h
  refine ⟨?_, h.returns⟩
  rw [h.taken, h.accepted, bytesOf_append, List.prefix_append_right_inj]
  exact List.take_prefix _ _

theorem inv_new : Inv .new :=
  ⟨[], 0, rfl, rfl, .known rfl rfl, fun _ hr => absurd hr List.not_mem_nil⟩

/-- A return that says the truth. -/
theorem Written.leave {s : System} {done : List TCPMessage} {p : Nat} (h : Written s done p)
    {code : Int} (hcode : code = 1 ↔ s.taken = bytesOf s.accepted) :
    Written (s.leave code) done p := by
  refine ⟨h.accepted, h.taken, h.progress, ?_⟩
  intro r hr
  rcases List.mem_cons.mp hr with rfl | hr
  · exact hcode
  · exact h.returns r hr

theorem inv_asyncSend {kMaxSendList : Nat} {s : System} {size : Nat} (hs : Inv s)
    (hok : step kMaxSendList s (.asyncSend size) ≠ .error .disabled) :
    ∃ u, step kMaxSendList s (.asyncSend size) = .ok u ∧ Inv u := by
  obtain ⟨done, p, h⟩ := hs
  simp only [step] at hok ⊢
  by_cases hloop : s.inLoop
  · simp [hloop] at hok
  · by_cases hsize : 0 < size
    · simp only [hloop, Bool.false_eq_true, if_false, hsize, dif_pos]
      by_cases hfull : s.sk.sendMsgList.length > kMaxSendList
      · simp only [asyncSend, hfull, if_true, Bool.false_eq_true, if_false]
        exact ⟨_, rfl, done, p, h.accepted, h.taken, h.progress, h.returns⟩
      · simp only [asyncSend, hfull, if_false, if_true]
        refine ⟨_, rfl, done, p, ?_, ?_, ?_, h.returns⟩
        · rw [h.accepted, List.append_assoc]
        · rw [bytesOf_append, List.take_append_of_le_length h.progress.le_length]
          exact h.taken
        · rcases h.progress with ⟨hp, hwithin⟩ | ⟨hl, hpos, hlt, hle⟩
          · exact .known hp (hwithin.append _)
          · exact .behind (by rw [hl, List.cons_append]) hpos hlt hle
    · simp [hloop, hsize] at hok

/-- A `writev` that finds nothing of the first message written. -/
theorem written_fresh {s : System} {done : List TCPMessage} (h : Written s done 0) {n : Nat}
    (hn : n ≤ (bytesOf s.sk.sendMsgList).length) :
    ∃ sk done' p, account s.sk.sendMsgList n 0 = .ok sk ∧ (sk.sendMsgList = [] → p = 0) ∧
      Written { s with sk := sk, taken := s.taken ++ (bytesOf s.sk.sendMsgList).take n }
        done' p := by
  obtain ⟨gone, l', p, hacc, hsplit, hlen, hwithin⟩ := account_zero hn
  refine ⟨⟨l', p⟩, done ++ gone, p, hacc, ?_, ?_, ?_, .known rfl hwithin, h.returns⟩
  · rintro rfl
    exact hwithin
  · rw [List.append_assoc, ← hsplit]
    exact h.accepted
  · have htake : (bytesOf s.sk.sendMsgList).take n = bytesOf gone ++ (bytesOf l').take p := by
      rw [hsplit, bytesOf_append, hlen, List.take_length_add_append]
    rw [htake, h.taken, List.take_zero, List.append_nil, bytesOf_append, List.append_assoc]

/-- A `writev` that writes more of a message of which `sent_` bytes have been written. -/
theorem written_second {s : System} {done rest : List TCPMessage} {m : TCPMessage}
    (h : Written s done s.sk.sent) (hl : s.sk.sendMsgList = m :: rest) (hpos : 0 < s.sk.sent)
    {n : Nat} (hn : 0 < n) (hle : s.sk.sent + n ≤ m.size) :
    account s.sk.sendMsgList n s.sk.sent = .ok ⟨m :: rest, n⟩ ∧
      Written { s with
        sk := ⟨m :: rest, n⟩
        taken := s.taken ++ (offered s.sk.sendMsgList s.sk.sent).take n } done (s.sk.sent + n) := by
  have hlt : ¬ m.size ≤ n := by omega
  refine ⟨by simp [hl, account, hn, hlt], ?_, ?_, ?_, h.returns⟩
  · rw [← hl]
    exact h.accepted
  · have hoff : (offered (m :: rest) s.sk.sent).take n = iovec m.data s.sk.sent n := by
      have hsize : m.size = n + (m.size - n) := by omega
      rw [offered, hsize, iovec_add, List.append_assoc, List.take_left' (length_iovec _ _ _)]
    rw [h.taken, hl, hoff, take_bytesOf (by omega), take_bytesOf hle, iovec_add, Nat.zero_add,
      List.append_assoc]
  · exact .behind rfl hn (by change n < s.sk.sent + n; omega) hle

/-- The guard of the event in which `writev` writes. -/
theorem wrote_enabled {kMaxSendList : Nat} {s : System} {n : Nat}
    (hok : step kMaxSendList s (.writev (.wrote n)) ≠ .error .disabled) :
    s.inLoop = true ∧ 0 < n ∧ n ≤ (bytesOf s.sk.sendMsgList).length ∧
      step kMaxSendList s (.writev (.wrote n)) =
        match account s.sk.sendMsgList n s.sk.sent with
        | .error f => .error f
        | .ok sk =>
          let s := { s with
            sk := sk
            taken := s.taken ++ (offered s.sk.sendMsgList s.sk.sent).take n }
          if sk.sendMsgList.length = 0 then .ok (s.leave 1) else .ok s := by
  by_cases hloop : s.inLoop = true
  · by_cases hn : n = 0 ∨ n > (offered s.sk.sendMsgList s.sk.sent).length ∨ n > maxTransfer
    · simp only [step, hloop, not_true_eq_false, if_false, hn, if_true] at hok
      exact absurd rfl hok
    · refine ⟨hloop, ?_, ?_, ?_⟩
      · omega
      · rw [length_offered] at hn
        omega
      · simp only [step, hloop, not_true_eq_false, if_false, hn]
  · simp [step, hloop] at hok

/-- A `writev` that meets the condition keeps the order, whether it ends the call or not. -/
theorem inv_wrote {kMaxSendList : Nat} {s : System} {n : Nat} (hs : Inv s)
    (hok : step kMaxSendList s (.writev (.wrote n)) ≠ .error .disabled)
    (hby : GetsBy s (.writev (.wrote n))) :
    ∃ u, step kMaxSendList s (.writev (.wrote n)) = .ok u ∧ Inv u := by
  obtain ⟨-, hpos, hn, hstep⟩ := wrote_enabled hok
  obtain ⟨done, p, h⟩ := hs
  rw [hstep]
  by_cases hfresh : s.sk.sent = 0
  · have hp : p = 0 := by
      rcases h.progress with ⟨hp, -⟩ | ⟨-, h0, -, -⟩
      · exact hp.trans hfresh
      · exact absurd h0 (Nat.not_lt.mpr (Nat.le_of_eq hfresh))
    subst hp
    obtain ⟨sk, done', p, hacc, hend, hw⟩ := written_fresh h hn
    rw [hfresh, hacc, offered_zero]
    by_cases hnil : sk.sendMsgList.length = 0
    · simp only [hnil, if_true]
      have hlist : sk.sendMsgList = [] := List.eq_nil_of_length_eq_zero hnil
      refine ⟨_, rfl, done', p, hw.leave ⟨fun _ => ?_, fun _ => rfl⟩⟩
      rw [hw.taken, hw.accepted, hlist]
      simp
    · simp only [hnil, if_false]
      exact ⟨_, rfl, done', p, hw⟩
  · obtain ⟨hfirst, hrest⟩ := hby.resolve_left hfresh
    have hp : p = s.sk.sent := h.ofFirst.symm.trans hfirst
    subst hp
    rcases hl : s.sk.sendMsgList with _ | ⟨m, rest⟩
    · rw [hl] at hn
      exact absurd hn (Nat.not_le.mpr hpos)
    · obtain ⟨hacc, hw⟩ := written_second h hl (Nat.pos_of_ne_zero hfresh) hpos
        (hrest m (by rw [hl]; rfl))
      rw [← hl, hacc]
      exact ⟨_, rfl, done, _, hw⟩

/-- A return that says that something is left when something is. -/
theorem inv_leave {s : System} (hs : Inv s) {code : Int} (hcode : code ≠ 1)
    (hmore : s.taken ≠ bytesOf s.accepted) : Inv (s.leave code) := by
  obtain ⟨done, p, h⟩ := hs
  exact ⟨done, p, h.leave ⟨fun h1 => absurd h1 hcode, fun h1 => absurd h1 hmore⟩⟩

/-- **A step that meets the condition succeeds and keeps the order.** -/
theorem inv_step {kMaxSendList : Nat} {s : System} {e : Event}
    (hok : step kMaxSendList s e ≠ .error .disabled) (hs : Inv s) (hby : GetsBy s e) :
    ∃ u, step kMaxSendList s e = .ok u ∧ Inv u := by
  rcases e with ⟨size⟩ | _ | ⟨n | _ | _ | _⟩
  · exact inv_asyncSend hs hok
  · have hne : ¬ s.sk.sendMsgList.length = 0 := fun h => hby (List.eq_nil_of_length_eq_zero h)
    obtain ⟨done, p, h⟩ := hs
    by_cases hloop : s.inLoop
    · simp [step, hloop] at hok
    · simp only [step, hloop, Bool.false_eq_true, if_false, hne]
      exact ⟨_, rfl, done, p, h.accepted, h.taken, h.progress, h.returns⟩
  · exact inv_wrote hs hok hby
  · by_cases hloop : s.inLoop
    · simp only [step, hloop, not_true_eq_false, if_false]
      exact ⟨s, rfl, hs⟩
    · simp [step, hloop] at hok
  · by_cases hloop : s.inLoop
    · simp only [step, hloop, not_true_eq_false, if_false]
      exact ⟨_, rfl, inv_leave hs (by decide) hby⟩
    · simp [step, hloop] at hok
  · by_cases hloop : s.inLoop
    · simp only [step, hloop, not_true_eq_false, if_false]
      exact ⟨_, rfl, inv_leave hs (by decide) hby⟩
    · simp [step, hloop] at hok

/-- A return that says that something is left when nothing is. -/
theorem leave_not_inOrder {s : System} {code : Int} (hcode : code ≠ 1)
    (hall : s.taken = bytesOf s.accepted) : ¬ InOrder (s.leave code) := by
  intro horder
  have hret := horder.returns ⟨code, s.accepted, s.taken⟩ List.mem_cons_self
  exact hcode (hret.mpr hall)

/-- What is written in a state in which `sent_` bytes of the first message have been written, more
than the rest of it, begins with that rest and the byte behind the message. -/
theorem offered_behind {m : TCPMessage} (rest : List TCPMessage) {sent n : Nat}
    (hpos : 0 < sent) (hlt : sent < m.size) (hn : m.size < sent + n) :
    ∃ t, (offered (m :: rest) sent).take n =
      iovec m.data sent (m.size - sent) ++ ⟨m.data, m.size⟩ :: t := by
  obtain ⟨k, rfl⟩ := Nat.exists_eq_succ_of_ne_zero hpos.ne'
  obtain ⟨j, rfl⟩ : ∃ j, n = (m.size - (k + 1)) + (j + 1) :=
    ⟨n - (m.size - (k + 1)) - 1, by omega⟩
  have hsplit : iovec m.data (k + 1) m.size =
      iovec m.data (k + 1) (m.size - (k + 1)) ++ ⟨m.data, m.size⟩ ::
        iovec m.data (m.size + 1) k := by
    have hsize : iovec m.data (k + 1) m.size =
        iovec m.data (k + 1) (m.size - (k + 1) + (k + 1)) := by
      congr 1
      omega
    have hend : k + 1 + (m.size - (k + 1)) = m.size := by omega
    rw [hsize, iovec_add, hend, iovec_succ]
  have hlen := length_iovec m.data (k + 1) (m.size - (k + 1))
  refine ⟨(iovec m.data (m.size + 1) k ++ bytesOf rest).take j, ?_⟩
  rw [offered, hsplit, List.append_assoc, List.take_append, hlen, Nat.add_sub_cancel_left,
    List.take_of_length_le (by omega), List.cons_append, List.take_succ_cons]

/-- After the first write of a message, more than its rest is written: the byte behind it goes
out. -/
theorem behind_not_prefix {done rest : List TCPMessage} {m : TCPMessage} {sent n : Nat}
    (hpos : 0 < sent) (hwithin : sent < m.size) (hover : m.size < sent + n) :
    ¬ bytesOf done ++ ((bytesOf (m :: rest)).take sent ++ (offered (m :: rest) sent).take n) <+:
      bytesOf (done ++ m :: rest) := by
  obtain ⟨t, ht⟩ := offered_behind rest hpos hwithin hover
  rw [ht, take_bytesOf (Nat.le_of_lt hwithin), ← List.append_assoc (iovec m.data 0 sent)]
  refine not_prefix ?_ m.size_pos.ne' fun hlt => ?_
  · simp only [List.length_append, length_iovec]
    omega
  · simp only [List.length_append, length_iovec] at hlt
    omega

/-- `sent_` is behind what has been written of the message: bytes are written again. -/
theorem again_not_prefix {done rest : List TCPMessage} {m : TCPMessage} {sent p n : Nat}
    (hpos : 0 < sent) (hlt : sent < p) (hle : p ≤ m.size) (hn : 0 < n) :
    ¬ bytesOf done ++ ((bytesOf (m :: rest)).take p ++ (offered (m :: rest) sent).take n) <+:
      bytesOf (done ++ m :: rest) := by
  obtain ⟨k, hk⟩ := Nat.exists_eq_succ_of_ne_zero hn.ne'
  obtain ⟨j, hj⟩ := Nat.exists_eq_succ_of_ne_zero m.size_pos.ne'
  obtain ⟨t, ht⟩ : ∃ t, (offered (m :: rest) sent).take n = ⟨m.data, sent⟩ :: t := by
    rw [offered, hj, iovec_succ, hk]
    exact ⟨_, rfl⟩
  rw [ht, take_bytesOf hle]
  refine not_prefix ?_ hpos.ne' fun _ => ?_
  · rw [length_iovec]
    exact hle
  · rw [length_iovec]
    exact hlt.ne

/-- What a `writev` has written is in the order, whatever the accounting makes of it. -/
theorem wrote_taken {kMaxSendList : Nat} {s u : System} {n : Nat}
    (hu : step kMaxSendList s (.writev (.wrote n)) = .ok u) :
    u.taken = s.taken ++ (offered s.sk.sendMsgList s.sk.sent).take n ∧ u.accepted = s.accepted := by
  have hok : step kMaxSendList s (.writev (.wrote n)) ≠ .error .disabled := by
    rw [hu]
    simp
  obtain ⟨-, -, -, hstep⟩ := wrote_enabled hok
  rw [hstep] at hu
  split at hu
  · contradiction
  · split at hu
    · rw [← Except.ok.inj hu]
      exact ⟨rfl, rfl⟩
    · rw [← Except.ok.inj hu]
      exact ⟨rfl, rfl⟩

/-- A write that does not meet the condition. -/
theorem wrote_breaks {kMaxSendList : Nat} {s u : System} {n : Nat} (hs : Inv s)
    (hby : ¬ GetsBy s (.writev (.wrote n)))
    (hu : step kMaxSendList s (.writev (.wrote n)) = .ok u) :
    ¬ InOrder u := by
  intro horder
  obtain ⟨hutaken, huacc⟩ := wrote_taken hu
  have htaken := horder.taken
  have hok : step kMaxSendList s (.writev (.wrote n)) ≠ .error .disabled := by
    rw [hu]
    simp
  obtain ⟨-, hpos, hn, -⟩ := wrote_enabled hok
  obtain ⟨done, p, h⟩ := hs
  obtain ⟨hsent, hfirst⟩ := not_or.mp hby
  have h0 : 0 < s.sk.sent := Nat.pos_of_ne_zero hsent
  rcases hl : s.sk.sendMsgList with _ | ⟨m, rest⟩
  · rw [hl] at hn
    exact absurd hn (Nat.not_le.mpr hpos)
  · rw [hutaken, huacc, h.taken, h.accepted, hl, List.append_assoc] at htaken
    rcases h.progress with ⟨rfl, hwithin⟩ | ⟨hl', -, hlt, hle⟩
    · rw [hl] at hwithin
      refine behind_not_prefix h0 hwithin ?_ htaken
      by_contra hle
      refine hfirst ⟨h.ofFirst, ?_⟩
      intro m' hm'
      rw [hl, List.head?_cons, Option.mem_some_iff] at hm'
      rw [← hm']
      exact Nat.le_of_not_lt hle
    · obtain ⟨rfl, rfl⟩ := List.cons.inj (hl.symm.trans hl')
      exact again_not_prefix h0 hlt hle hpos htaken

/-- **A step that does not meet the condition breaks the order.** -/
theorem step_breaks {kMaxSendList : Nat} {s u : System} {e : Event} (hs : Inv s)
    (hby : ¬ GetsBy s e) (hu : step kMaxSendList s e = .ok u) : ¬ InOrder u := by
  rcases e with ⟨size⟩ | _ | ⟨n | _ | _ | _⟩
  · exact absurd trivial hby
  · have hnil : s.sk.sendMsgList.length = 0 := by
      by_contra hne
      exact hby fun h => hne (by rw [h]; rfl)
    simp only [step, hnil, if_true] at hu
    split at hu <;> contradiction
  · exact wrote_breaks hs hby hu
  · exact absurd trivial hby
  · have hall : s.taken = bytesOf s.accepted := not_not.mp hby
    simp only [step] at hu
    split at hu
    · contradiction
    · rw [← Except.ok.inj hu]
      exact leave_not_inOrder (by decide) hall
  · have hall : s.taken = bytesOf s.accepted := not_not.mp hby
    simp only [step] at hu
    split at hu
    · contradiction
    · rw [← Except.ok.inj hu]
      exact leave_not_inOrder (by decide) hall

/-- **The send path is in order exactly in the runs that get by with two writes a message**, and in
which `OnWritable` is called with something to write. -/
theorem sent_in_order_iff (kMaxSendList : Nat) (es : List Event)
    (hes : exec (step kMaxSendList) .new es ≠ .error .disabled) :
    ((∃ t, exec (step kMaxSendList) .new es = .ok t) ∧
      ∀ s, Visits (step kMaxSendList) .new es s → InOrder s) ↔
    Along (step kMaxSendList) GetsBy .new es := by
  have hkeep : ∀ s e, step kMaxSendList s e ≠ .error .disabled → Inv s → GetsBy s e →
      ∃ u, step kMaxSendList s e = .ok u ∧ Inv u := fun _ _ => inv_step
  have hbreak : ∀ s e u, step kMaxSendList s e ≠ .error .disabled → Inv s → ¬ GetsBy s e →
      step kMaxSendList s e = .ok u → ¬ InOrder u := fun _ _ _ _ => step_breaks
  exact runs_iff_along hkeep (fun _ h => h.inOrder) hbreak (along_ne_error hes) inv_new

/-- Two messages; the first one goes out in two parts, and then the connection is full. -/
def twoParts : List Event :=
  [.asyncSend 3, .asyncSend 1, .onWritable, .writev (.wrote 1), .writev .eintr,
    .writev (.wrote 2), .writev .eagain]

theorem twoParts_in_order : (∃ t, exec (step 100) .new twoParts = .ok t) ∧
    ∀ s, Visits (step 100) .new twoParts s → InOrder s := by
  have hends : (exec (step 100) .new twoParts).map (fun s => s.taken) =
      .ok [⟨0, 0⟩, ⟨0, 1⟩, ⟨0, 2⟩] := by
    decide +kernel
  obtain ⟨s, hs, -⟩ := map_eq_ok.mp hends
  exact (sent_in_order_iff 100 twoParts (by rw [hs]; simp)).mpr (by decide +kernel)

/-- After the first byte of a message of two, the second one and the byte behind the message go
out. -/
theorem byte_behind_message_sent : ∃ s, exec (step 100) .new
      [.asyncSend 2, .onWritable, .writev (.wrote 1), .writev (.wrote 2)] = .ok s ∧
    s.taken = [⟨0, 0⟩, ⟨0, 1⟩, ⟨0, 2⟩] ∧ ¬ InOrder s := by
  have hends : (exec (step 100) .new
      [.asyncSend 2, .onWritable, .writev (.wrote 1), .writev (.wrote 2)]).map
      (fun s => (s.taken, bytesOf s.accepted)) =
        .ok ([⟨0, 0⟩, ⟨0, 1⟩, ⟨0, 2⟩], [⟨0, 0⟩, ⟨0, 1⟩]) := by
    decide +kernel
  obtain ⟨s, hs, hend⟩ := map_eq_ok.mp hends
  obtain ⟨htaken, haccepted⟩ := Prod.mk.inj hend
  refine ⟨s, hs, htaken, ?_⟩
  intro horder
  have hlen := horder.taken.length_le
  rw [htaken, haccepted] at hlen
  exact absurd hlen (by decide)

end Kknf.Nf
