/-
# Sending: `PushDataToSend` and `TcpSocket::WriteHandler`

A socket has a list of blocks to send.  `WriteHandler` offers up to 999 of them to `writev`, whole
and from the front, gives the blocks that are gone back to the pool, and notes in `font_mb_cur_pos_`
how much of the next one has been sent.

That note is never read: the next call offers the block from its beginning again.  The accounting
loop also looks at the entry of `vec` BEHIND the last one filled in, whose length nobody has set; a
0 there takes one more block off the list.  `sends_in_order` says that the send path is right as
long as neither comes up: no `writev` finds a block that is partly sent, and when everything offered
has gone out the stray length is not 0.  (And the blocks from the thousandth on, when there are any,
are not all empty: with nothing left to write, the list would not be either.)
-/
import Kknf.Lib.Posix
import Kknf.Lib.Run

namespace Kknf.LibEvent

open Kknf.Run

/-! ## 1. The functions -/

/-- A block to send: which `MemBlock` it is, and its first `used_` bytes. -/
structure SendBlock where
  id : Nat
  data : List Byte
  deriving DecidableEq, Repr

/-- The sending half of a socket. -/
structure TcpSocket where
  sendMbList : List SendBlock := []
  fontMbCurPos : Nat := 0
  deriving DecidableEq

inductive SendFault
  /-- `writev` cannot give this result -/
  | disabled
  /-- `front()` of an empty list -/
  | emptyFront
  deriving DecidableEq

def maxIovecNum : Nat := 1000

/-- `PushDataToSend`. -/
def TcpSocket.pushDataToSend (sk : TcpSocket) (mb : SendBlock) : TcpSocket :=
  { sk with sendMbList := sk.sendMbList ++ [mb] }

/-- What `writev` does. -/
inductive WritevResult
  /-- it writes `n` bytes; `stray` is the length in the entry of `vec` behind the last one set -/
  | wrote (n stray : Nat)
  /-- `0` or `-1`, with this `errno` -/
  | failed (errno : Errno)
  deriving DecidableEq

/-- The blocks `vec` is filled with. -/
def TcpSocket.offered (sk : TcpSocket) : List SendBlock := sk.sendMbList.take (maxIovecNum - 1)

/-- The bytes of some blocks, in order. -/
def bytes (bs : List SendBlock) : List Byte := bs.flatMap SendBlock.data

/-- The loop over `vec` after the `writev`: `lens` are the lengths in its entries from `i` on, and
`returned` the blocks given to `ReturnMemBlock` so far. -/
def accountLoop : List Nat → Nat → TcpSocket → List SendBlock →
    Except SendFault (TcpSocket × List SendBlock)
  | [], _, sk, returned => .ok (sk, returned)
  | len :: lens, tmpNum, sk, returned =>
    if tmpNum ≥ len then
      match sk.sendMbList with
      | [] => .error .emptyFront
      | mb :: rest => accountLoop lens (tmpNum - len) { sk with sendMbList := rest }
          (returned ++ [mb])
    else .ok ({ sk with fontMbCurPos := tmpNum }, returned)

/-- `WriteHandler`: the code it returns, the socket, and the blocks it gives back.  The loop goes up
to `i = cnt`, one entry too far. -/
def TcpSocket.writeHandler (sk : TcpSocket) :
    WritevResult → Except SendFault (Int × TcpSocket × List SendBlock)
  | .failed errno =>
    if errno = EAGAIN ∨ errno = EWOULDBLOCK ∨ errno = 0 then .ok (0, sk, []) else .ok (-2, sk, [])
  | .wrote n stray =>
    match accountLoop (sk.offered.map (fun mb => mb.data.length) ++ [stray]) n sk [] with
    | .error f => .error f
    | .ok (sk, returned) => .ok (if sk.sendMbList.length = 0 then 1 else 0, sk, returned)

/-! ## 2. Runs -/

/-- A socket, with what has gone in and out so far. -/
structure Sending where
  sk : TcpSocket := {}
  pushed : List SendBlock := []
  written : List Byte := []
  returned : List SendBlock := []
  /-- what the last call returned, when it was one of `WriteHandler` -/
  ret : Option Int := none
  deriving DecidableEq

inductive SendEvent
  | push (mb : SendBlock)
  | write (r : WritevResult)
  deriving DecidableEq

/-- One call.  `writev` writes bytes it is offered, from the front. -/
def sendStep (s : Sending) : SendEvent → Except SendFault Sending
  | .push mb => .ok { s with sk := s.sk.pushDataToSend mb, pushed := s.pushed ++ [mb], ret := none }
  | .write r =>
    match r with
    | .failed _ =>
      match s.sk.writeHandler r with
      | .error f => .error f
      | .ok (ret, sk, returned) =>
        .ok { s with sk, returned := s.returned ++ returned, ret := some ret }
    | .wrote n _ =>
      if 1 ≤ n ∧ n ≤ (bytes s.sk.offered).length then
        match s.sk.writeHandler r with
        | .error f => .error f
        | .ok (ret, sk, returned) =>
          .ok { s with
            sk, returned := s.returned ++ returned, ret := some ret
            written := s.written ++ (bytes s.sk.offered).take n }
      else .error .disabled

/-- Every `writev` writes something. -/
def SendEvent.Writes : SendEvent → Prop
  | .write (.failed _) => False
  | _ => True

/-! ## 3. The accounting loop -/

theorem bytes_append (as bs : List SendBlock) : bytes (as ++ bs) = bytes as ++ bytes bs :=
  List.flatMap_append

theorem bytes_cons (mb : SendBlock) (bs : List SendBlock) :
    bytes (mb :: bs) = mb.data ++ bytes bs := List.flatMap_cons

/-- `part` is a beginning of the first block, and not all of it unless the block is empty. -/
def PartOf (part : List Byte) : List SendBlock → Prop
  | [] => part = []
  | mb :: _ => part <+: mb.data ∧ (mb.data ≠ [] → part.length < mb.data.length)

theorem partOf_nil (bs : List SendBlock) : PartOf [] bs := by
  rcases bs with - | ⟨mb, bs⟩
  · rfl
  · exact ⟨List.nil_prefix, List.length_pos_iff.mpr⟩

/-- A block at the end of the list leaves the first one as it is, or is the first one. -/
theorem PartOf.push {part : List Byte} {bs : List SendBlock} (h : PartOf part bs)
    (mb : SendBlock) : PartOf part (bs ++ [mb]) := by
  rcases bs with - | ⟨head, bs⟩
  · change part = [] at h
    rw [h]
    exact partOf_nil _
  · exact h

/-- It is all there is to send only if nothing is. -/
theorem PartOf.isPrefix {part : List Byte} {bs : List SendBlock} (h : PartOf part bs) :
    part <+: bytes bs := by
  rcases bs with - | ⟨mb, bs⟩
  · change part = [] at h
    rw [h]
    exact List.nil_prefix
  · rw [bytes_cons]
    exact h.1.trans (List.prefix_append _ _)

theorem PartOf.eq_bytes_iff {part : List Byte} {bs : List SendBlock} (h : PartOf part bs) :
    part = bytes bs ↔ bytes bs = [] := by
  constructor
  · intro hall
    rcases bs with - | ⟨mb, bs⟩
    · rfl
    · by_cases hmb : mb.data = []
      · have hnil : part = [] := List.prefix_nil.mp (hmb ▸ h.1)
        rw [← hall, hnil]
      · have hlt := h.2 hmb
        rw [hall, bytes_cons, List.length_append] at hlt
        omega
  · intro hnil
    have hpre := h.isPrefix
    rw [hnil] at hpre ⊢
    exact List.prefix_nil.mp hpre

/-- Whatever the lengths are, the loop gives back the blocks it takes off the list. -/
theorem accountLoop_split : ∀ {lens : List Nat} {n : Nat} {sk sk' : TcpSocket}
    {returned returned' : List SendBlock},
    accountLoop lens n sk returned = .ok (sk', returned') →
      ∃ gone, returned' = returned ++ gone ∧ sk.sendMbList = gone ++ sk'.sendMbList := by
  intro lens
  induction lens with
  | nil =>
    intro n sk sk' returned returned' h
    cases h
    exact ⟨[], by simp⟩
  | cons len lens ih =>
    intro n sk sk' returned returned' h
    simp only [accountLoop] at h
    split at h
    · rcases hlist : sk.sendMbList with - | ⟨mb, rest⟩
      · simp [hlist] at h
      · rw [hlist] at h
        obtain ⟨gone, hret, hrest⟩ := ih h
        refine ⟨mb :: gone, by simp [hret], ?_⟩
        rw [List.cons_append, ← hrest]
    · cases h
      exact ⟨[], by simp⟩

/-- So does `WriteHandler`. -/
theorem writeHandler_split {sk sk' : TcpSocket} {r : WritevResult} {ret : Int}
    {returned : List SendBlock} (h : sk.writeHandler r = .ok (ret, sk', returned)) :
    sk.sendMbList = returned ++ sk'.sendMbList := by
  rcases r with ⟨n, stray⟩ | errno
  · simp only [TcpSocket.writeHandler] at h
    split at h
    · cases h
    · rename_i sk₁ returned₁ hloop
      cases h
      obtain ⟨gone, hret, hlist⟩ := accountLoop_split hloop
      rw [hret, hlist, List.nil_append]
  · simp only [TcpSocket.writeHandler] at h
    split at h
    · cases h
      rfl
    · cases h
      rfl

/-- **The loop takes the blocks that are gone off the list**, and notes how much of the next one is.
It does so when `n` is at most what was offered, and all of it only with a stray length that is not
0. -/
theorem accountLoop_spec (rest : List SendBlock) {stray : Nat} :
    ∀ {bs : List SendBlock} {n : Nat} (font : Nat) (returned : List SendBlock),
      n ≤ (bytes bs).length → (n = (bytes bs).length → stray ≠ 0) →
      ∃ gone more part, bs ++ rest = gone ++ more ∧ (bytes bs).take n = bytes gone ++ part ∧
        PartOf part more ∧ (if n = (bytes bs).length then more = rest else bytes more ≠ []) ∧
        accountLoop (bs.map (fun mb => mb.data.length) ++ [stray]) n ⟨bs ++ rest, font⟩ returned
          = .ok (⟨more, part.length⟩, returned ++ gone) := by
  intro bs
  induction bs with
  | nil =>
    intro n font returned hn hstray
    have hzero : n = 0 := Nat.le_zero.mp hn
    subst hzero
    refine ⟨[], rest, [], rfl, rfl, partOf_nil rest, rfl, ?_⟩
    · have hlt : ¬ 0 ≥ stray := Nat.not_le.mpr (Nat.pos_of_ne_zero (hstray rfl))
      simp only [List.map_nil, List.nil_append, accountLoop, if_neg hlt, List.append_nil,
        List.length_nil]
  | cons mb bs ih =>
    intro n font returned hn hstray
    rw [bytes_cons] at hn hstray ⊢
    rw [List.length_append] at hn hstray
    by_cases hgone : n ≥ mb.data.length
    · -- the block is gone, and the loop goes on with what is left of `n`
      obtain ⟨gone, more, part, hsplit, htake, hpart, hmore, hloop⟩ :=
        ih (n := n - mb.data.length) font (returned ++ [mb]) (by omega) (by omega)
      refine ⟨mb :: gone, more, part, by simp [hsplit], ?_, hpart, ?_, ?_⟩
      · rw [List.take_append, List.take_of_length_le hgone, htake, bytes_cons, List.append_assoc]
      · have hiff : n = mb.data.length + (bytes bs).length ↔
          n - mb.data.length = (bytes bs).length := by
          omega
        simpa only [List.length_append, hiff] using hmore
      · simp only [List.map_cons, List.cons_append, accountLoop, if_pos hgone, hloop,
          List.append_assoc, List.nil_append]
    · have hlt : n < mb.data.length := Nat.lt_of_not_le hgone
      have hne : mb.data ≠ [] := List.length_pos_iff.mp (Nat.zero_lt_of_lt hlt)
      refine ⟨[], mb :: (bs ++ rest), mb.data.take n, rfl, ?_, ?_, ?_, ?_⟩
      · rw [List.take_append_of_le_length hlt.le]
        rfl
      · refine ⟨List.take_prefix n mb.data, fun _ => ?_⟩
        rw [List.length_take]
        omega
      · rw [if_neg (by rw [List.length_append]; omega), bytes_cons]
        exact List.append_ne_nil_of_left_ne_nil hne _
      · have hlen : (mb.data.take n).length = n := by
          rw [List.length_take]
          omega
        simp only [List.map_cons, List.cons_append, accountLoop, if_neg hgone, hlen,
          List.append_nil]

/-! ## 4. The send path -/

/-- Everything that is pushed goes out in order, and once. -/
structure InOrder (s : Sending) : Prop where
  /-- nothing is repeated, left out or changed round -/
  written : s.written <+: bytes s.pushed
  /-- each block is waiting or has been given back, once -/
  blocks : s.returned ++ s.sk.sendMbList = s.pushed
  /-- the blocks given back are those that have been written -/
  exact : (bytes s.returned).length ≤ s.written.length ∧ ∀ mb rest, s.sk.sendMbList = mb :: rest →
    mb.data ≠ [] → s.written.length < (bytes (s.returned ++ [mb])).length
  ret : ∀ r, s.ret = some r → (r = 1 ↔ s.written = bytes s.pushed)

/-- The step does not touch on the slips: at a `writev` the first block has not been sent in part,
and if everything offered goes out, then the stray length is not 0 and the blocks that were not
offered are not all empty. -/
def Resumable (s : Sending) : SendEvent → Prop
  | .push _ | .write (.failed _) => True
  | .write (.wrote n stray) =>
    s.sk.fontMbCurPos = 0 ∧ (n = (bytes s.sk.offered).length → stray ≠ 0 ∧
      (bytes (s.sk.sendMbList.drop (maxIovecNum - 1)) = [] →
        s.sk.sendMbList.drop (maxIovecNum - 1) = []))

instance (s : Sending) : (e : SendEvent) → Decidable (Resumable s e)
  | .push _ | .write (.failed _) => isTrue trivial
  | .write (.wrote _ _) => inferInstanceAs (Decidable (_ ∧ _))

/-- `part` of the first block has been sent. -/
structure SendInv (s : Sending) : Prop where
  blocks : s.returned ++ s.sk.sendMbList = s.pushed
  written : ∃ part, s.written = bytes s.returned ++ part ∧ part.length = s.sk.fontMbCurPos ∧
    PartOf part s.sk.sendMbList
  ret : ∀ r, s.ret = some r → (r = 1 ↔ bytes s.sk.sendMbList = [])

theorem SendInv.inOrder {s : Sending} (h : SendInv s) : InOrder s := by
  obtain ⟨part, hwritten, -, hpart⟩ := h.written
  have hpushed : bytes s.pushed = bytes s.returned ++ bytes s.sk.sendMbList := by
    rw [← h.blocks, bytes_append]
  refine ⟨?_, h.blocks, ⟨?_, ?_⟩, ?_⟩
  · rw [hwritten, hpushed, List.prefix_append_right_inj]
    exact hpart.isPrefix
  · rw [hwritten, List.length_append]
    exact Nat.le_add_right _ _
  · intro mb rest hlist hmb
    rw [hlist] at hpart
    have hlen := hpart.2 hmb
    rw [hwritten, bytes_append, List.length_append, List.length_append, bytes_cons,
      List.length_append]
    omega
  · intro r hr
    rw [h.ret r hr, hwritten, hpushed, List.append_cancel_left_eq]
    exact hpart.eq_bytes_iff.symm

/-- **One call of `WriteHandler`** that does not touch on the slips. -/
theorem write_inv {s : Sending} (h : SendInv s) {n stray : Nat}
    (hn : n ≤ (bytes s.sk.offered).length)
    (hres : Resumable s (.write (.wrote n stray))) : ∃ ret sk returned,
      s.sk.writeHandler (.wrote n stray) = .ok (ret, sk, returned) ∧
      SendInv { s with
        sk, returned := s.returned ++ returned, ret := some ret
        written := s.written ++ (bytes s.sk.offered).take n } := by
  obtain ⟨hfont, hall⟩ := hres
  obtain ⟨part₀, hwritten, hlen₀, -⟩ := h.written
  have hpart₀ : part₀ = [] := List.length_eq_zero_iff.mp (hlen₀.trans hfont)
  subst hpart₀
  have hlist : s.sk.offered ++ s.sk.sendMbList.drop (maxIovecNum - 1) = s.sk.sendMbList :=
    List.take_append_drop _ _
  obtain ⟨gone, more, part, hsplit, htake, hpart, hmore, hloop⟩ :=
    accountLoop_spec (s.sk.sendMbList.drop (maxIovecNum - 1))
      s.sk.fontMbCurPos [] hn fun hn' => (hall hn').1
  rw [hlist] at hsplit hloop
  refine ⟨if more.length = 0 then 1 else 0, ⟨more, part.length⟩, gone, ?_, ?_, ?_, ?_⟩
  · simp only [TcpSocket.writeHandler]
    rw [hloop]
    rfl
  · rw [List.append_assoc, ← hsplit]
    exact h.blocks
  · refine ⟨part, ?_, rfl, hpart⟩
    rw [hwritten, htake, bytes_append, List.append_nil, List.append_assoc]
  · rintro r ⟨⟩
    have hdone : more = [] ↔ bytes more = [] := by
      refine ⟨fun hnil => by rw [hnil]; rfl, fun hnil => ?_⟩
      split at hmore
      · rename_i hn'
        rw [hmore] at hnil ⊢
        exact (hall hn').2 hnil
      · exact absurd hnil hmore
    simp only [List.length_eq_zero_iff, ← hdone]
    by_cases hmore' : more = []
    · simp [hmore']
    · simp [hmore']

theorem push_inv {s : Sending} (h : SendInv s) (mb : SendBlock) :
    SendInv { s with sk := s.sk.pushDataToSend mb, pushed := s.pushed ++ [mb], ret := none } := by
  obtain ⟨part, hwritten, hlen, hpart⟩ := h.written
  refine ⟨?_, ⟨part, hwritten, hlen, hpart.push mb⟩, by simp⟩
  simp only [TcpSocket.pushDataToSend]
  rw [← List.append_assoc, h.blocks]

/-- **One call** that does not touch on the slips keeps the invariant, unless `writev` cannot give
this result. -/
theorem send_step {s : Sending} {e : SendEvent} (h : SendInv s) (hres : Resumable s e ∧ e.Writes) :
    sendStep s e = .error .disabled ∨ ∃ t, sendStep s e = .ok t ∧ SendInv t := by
  obtain ⟨hres, hwrites⟩ := hres
  rcases e with mb | ⟨n, stray⟩ | errno
  · exact Or.inr ⟨_, rfl, push_inv h mb⟩
  · simp only [sendStep]
    split
    · rename_i hn
      obtain ⟨ret, sk, returned, hwrite, hinv⟩ := write_inv h hn.2 hres
      rw [hwrite]
      exact Or.inr ⟨_, rfl, hinv⟩
    · exact Or.inl rfl
  · exact absurd hwrites id

theorem send_inv {s t : Sending} {e : SendEvent} (h : SendInv s) (hres : Resumable s e ∧ e.Writes)
    (ht : sendStep s e = .ok t) : SendInv t := by
  rcases send_step h hres with hdis | ⟨u, hu, hinv⟩
  · cases hdis.symm.trans ht
  · cases hu.symm.trans ht
    exact hinv

/-- The loop does not run past the end of the list. -/
theorem send_ne_emptyFront {s : Sending} {e : SendEvent} (h : SendInv s)
    (hres : Resumable s e ∧ e.Writes) : sendStep s e ≠ .error .emptyFront := by
  intro hempty
  rcases send_step h hres with hdis | ⟨u, hu, -⟩
  · cases hdis.symm.trans hempty
  · cases hu.symm.trans hempty

theorem start_sendInv : SendInv {} where
  blocks := rfl
  written := ⟨[], rfl, rfl, rfl⟩
  ret := by simp

/-- **The send path is in order** in every run that does not touch on the slips. -/
theorem sends_in_order (es : List SendEvent) (hes : ∀ e ∈ es, e.Writes)
    (hres : Along sendStep Resumable {} es) : exec sendStep {} es ≠ .error .emptyFront ∧
      ∀ s, Visits sendStep {} es s → InOrder s := by
  have hall : Along sendStep (fun s e => Resumable s e ∧ e.Writes) {} es :=
    hres.and (along_of_forall fun e he _ => hes e he)
  refine ⟨hall.ne_error (fun _ _ _ h => send_inv h) (fun _ _ h => send_ne_emptyFront h)
    start_sendInv, fun s hs => ?_⟩
  exact (hall.invariant_visits (fun _ _ _ h => send_inv h) start_sendInv hs).inOrder

/-- Two blocks go out in two writes, the first of which ends with the first block. -/
def wholeBlocks : List SendEvent :=
  [.push ⟨0, [1, 2]⟩, .push ⟨1, [3]⟩, .write (.wrote 2 5), .write (.wrote 1 5)]

theorem wholeBlocks_in_order : ∃ s, exec sendStep {} wholeBlocks = .ok s ∧ InOrder s ∧
    s.ret = some 1 := by
  have hends : (exec sendStep {} wholeBlocks).map (fun s => s.ret) = .ok (some 1) := by
    decide +kernel
  obtain ⟨s, hs, hret⟩ := map_eq_ok.mp hends
  have h := sends_in_order wholeBlocks (by simp [wholeBlocks, SendEvent.Writes]) (by decide +kernel)
  exact ⟨s, hs, h.2 s ⟨_, List.prefix_rfl, hs⟩, hret⟩

/-- Half of a block goes out, and then the whole block. -/
theorem head_block_sent_again : ∃ s,
    exec sendStep {} [.push ⟨0, [1, 2, 3, 4]⟩, .write (.wrote 2 5), .write (.wrote 4 5)] = .ok s ∧
      s.written = [1, 2, 1, 2, 3, 4] ∧ ¬ InOrder s := by
  have hends : (exec sendStep {} [.push ⟨0, [1, 2, 3, 4]⟩, .write (.wrote 2 5),
      .write (.wrote 4 5)]).map (fun s => (s.written, bytes s.pushed))
        = .ok ([1, 2, 1, 2, 3, 4], [1, 2, 3, 4]) := by
    decide +kernel
  obtain ⟨s, hs, hend⟩ := map_eq_ok.mp hends
  rw [Prod.mk.injEq] at hend
  refine ⟨s, hs, hend.1, fun h => ?_⟩
  have hpre := h.written.length_le
  rw [hend.1, hend.2] at hpre
  exact absurd hpre (by decide)

end Kknf.LibEvent
