/-
# No wake-up is lost

Two threads are told of work in two ways.  The workers wait on one condition variable for each ready
list (and one for the UDP list), and `InsertServerReadySocket` signals it ONCE for a whole batch of
sockets; the epoll thread waits for bytes on the local socket, of which `InsertServerReuseSocket`
sends one for each socket that is given back, and reads up to 1024 at once.  Neither keeps the
count.

What keeps work from being stranded is the order of the statements:

* a worker tests its list under the mutex before it waits, so it never starts to wait while there is
  work; a list that has work and no signal owed to it therefore has a worker that is awake
  (`Awake`), and that worker tests the list again before it waits;
* the epoll thread reads the bytes BEFORE it swaps the reuse list out, so a socket that was pushed
  after the read has a byte of its own that is still unread (`Noticed`).
-/
import Kknf.AllSync.Ownership

namespace Kknf.AllSync

open Kknf.Run

variable {W : Type}

/-! ## 1. What there is to do, and who has been told -/

/-- The list of the condition has something in it. -/
def Backlog (s : Server W) : Cond → Prop
  | .ready index => s.readyList.getD index [] ≠ []
  | .udpRecv => s.udpRecvList ≠ []

instance (s : Server W) : ∀ c, Decidable (Backlog s c)
  | .ready index => inferInstanceAs (Decidable (s.readyList.getD index [] ≠ []))
  | .udpRecv => inferInstanceAs (Decidable (s.udpRecvList ≠ []))

/-- The condition variable the epoll thread is about to signal. -/
def Loop.owed : Loop → Option Cond
  | .signalReady index _ => some (.ready index)
  | .signalUDP _ _ => some .udpRecv
  | _ => none

/-- The epoll thread has still to issue the signal for the condition. -/
def Owes (s : Server W) (c : Cond) : Prop := s.loop.owed = some c

/-- The worker calls the function that waits on the condition. -/
def Action.Asks (a : Action W) (w : W) (c : Cond) : Prop :=
  (∃ index, a = .getServerReadySocket w index ∧ c = .ready index) ∨
    (a = .getUDPPacket w ∧ c = .udpRecv)

/-- The steps of the epoll thread. -/
def Action.ofEpoll : Action W → Bool
  | .epollWait _ | .epollRetry | .epollFail | .next | .accept _ | .recvfrom _ | .recv _
  | .epollAdd _ | .signal _ => true
  | _ => false

/-- The last step of the epoll thread. -/
def lastOfEpoll (acts : List (Action W)) : Option (Action W) :=
  (acts.filter Action.ofEpoll).getLast?

/-- The epoll thread has read from the local socket and not called `GetServerReuseSocketList` since:
it has left the `recv` loop, or it has filled its buffer of 1024 bytes and is about to read
again. -/
def Drained (acts : List (Action W)) (s : Server W) : Prop :=
  (∃ rest batch, s.loop = .swapReuse rest batch) ∨
    (lastOfEpoll acts = some (.recv 1024) ∧ ∃ rest batch, s.loop = .recvLocal rest batch)

/-! ## 2. What a step does to the lists and to those who wait -/

/-- What a step does to the lists of the workers, to the signal owed, and to the workers. -/
inductive Traffic (s : Server W) (a : Action W) (t : Server W) : Prop
  /-- nothing -/
  | quiet (hback : ∀ c, Backlog t c ↔ Backlog s c)
      (hstatus : ∀ w, (t.worker w).status = (s.worker w).status)
      (howed : ∀ c, Owes s c → Owes t c)
  /-- a list is filled, and its signal is now owed -/
  | published (c : Cond) (howed : Owes t c) (hnone : ∀ c', ¬ Owes s c')
      (hback : ∀ c', c' ≠ c → (Backlog t c' ↔ Backlog s c'))
      (hstatus : ∀ w, (t.worker w).status = (s.worker w).status)
  /-- the signal is issued and wakes a worker -/
  | woke (c : Cond) (w : W) (howed : ∀ c', Owes s c' → c' = c)
      (hback : ∀ c', Backlog t c' ↔ Backlog s c') (hwait : (s.worker w).status = .waiting c)
      (hstatus : (t.worker w).status = .woken c)
      (hother : ∀ v, v ≠ w → (t.worker v).status = (s.worker v).status)
  /-- the signal is issued and nobody waits for it -/
  | unheard (c : Cond) (howed : ∀ c', Owes s c' → c' = c)
      (hback : ∀ c', Backlog t c' ↔ Backlog s c')
      (hnone : ∀ w, (s.worker w).status ≠ .waiting c)
      (hstatus : ∀ w, (t.worker w).status = (s.worker w).status)
  /-- a worker tests the list and takes something out of it -/
  | took (c : Cond) (w : W) (hasks : a.Asks w c ∨ (s.worker w).status = .woken c)
      (howed : ∀ c', Owes s c' → Owes t c') (hback : ∀ c', Backlog t c' → Backlog s c')
      (hstatus : (t.worker w).status = .running)
      (hother : ∀ v, v ≠ w → (t.worker v).status = (s.worker v).status)
  /-- a worker tests the list, finds nothing and waits -/
  | waits (c : Cond) (w : W) (hasks : a.Asks w c ∨ (s.worker w).status = .woken c)
      (howed : ∀ c', Owes s c' → Owes t c') (hback : ∀ c', Backlog t c' ↔ Backlog s c')
      (hnone : ¬ Backlog s c) (hstatus : (t.worker w).status = .waiting c)
      (hother : ∀ v, v ≠ w → (t.worker v).status = (s.worker v).status)
  /-- a wait ends although nobody signalled -/
  | spurious (c : Cond) (w : W) (howed : ∀ c', Owes s c' → Owes t c')
      (hback : ∀ c', Backlog t c' ↔ Backlog s c') (hwait : (s.worker w).status = .waiting c)
      (hstatus : (t.worker w).status = .woken c)
      (hother : ∀ v, v ≠ w → (t.worker v).status = (s.worker v).status)

section

variable {s t : Server W} {a : Action W}

/-- A step that leaves the lists, the loop and the workers' statuses as they are. -/
theorem Traffic.same (hready : t.readyList = s.readyList) (hudp : t.udpRecvList = s.udpRecvList)
    (hloop : t.loop = s.loop) (hstatus : ∀ w, (t.worker w).status = (s.worker w).status) :
    Traffic s a t := by
  refine .quiet (fun c => ?_) hstatus fun c h => by rwa [Owes, hloop]
  cases c <;> simp [Backlog, hready, hudp]

/-- A step of the epoll thread from a place where it owes no signal, that leaves the lists and the
workers alone. -/
theorem Traffic.local (hready : t.readyList = s.readyList) (hudp : t.udpRecvList = s.udpRecvList)
    (hworker : t.worker = s.worker) (hloop : s.loop.owed = none) : Traffic s a t := by
  refine .quiet (fun c => ?_) (fun w => by rw [hworker]) fun c h => ?_
  · cases c <;> simp [Backlog, hready, hudp]
  · rw [Owes, hloop] at h
    cases h

theorem epollProcess_traffic {e : EpollEvent} {rest : List EpollEvent} {batch : SkMap}
    (hloop : s.loop.owed = none) (h : epollProcess s e rest batch = .ok t) : Traffic s a t := by
  have hdestroy : ∀ p l, Traffic s a { destroyTriggered s p with loop := l } := by
    intro p l
    cases p <;> exact .local rfl rfl rfl hloop
  simp only [epollProcess] at h
  split at h
  · cases h
    exact hdestroy _ _
  split at h
  · split at h
    · cases h
      exact .local rfl rfl rfl hloop
    · split at h
      · cases h
      split at h
      · cases h
        exact hdestroy _ _
      · cases h
        exact .local rfl rfl rfl hloop
    · cases h
      exact .local rfl rfl rfl hloop
    · cases h
      exact .local rfl rfl rfl hloop
  · cases h
    exact .local rfl rfl rfl hloop

theorem insertServerReadySocket_traffic {index : Nat} {l : List Ptr}
    {entries : List (Nat × List Ptr)} (hloop : s.loop.owed = none)
    (h : insertServerReadySocket s index l entries = .ok t) : Traffic s a t := by
  simp only [insertServerReadySocket] at h
  split at h
  · rename_i hi
    cases h
    refine .published (.ready index) rfl (fun c' hc' => ?_) (fun c' hc' => ?_) fun w => rfl
    · rw [Owes, hloop] at hc'
      cases hc'
    · cases c' with
      | ready j =>
        have hj : j ≠ index := fun e => hc' (e ▸ rfl)
        simp only [Backlog]
        rw [getD_set _ _ hi, if_neg hj]
      | udpRecv => exact Iff.rfl
  · cases h

theorem nextStep_traffic (h : nextStep s = .ok t) : Traffic s a t := by
  simp only [nextStep] at h
  split at h
  · rename_i hl
    exact epollProcess_traffic (by rw [hl]; rfl) h
  · rename_i hl
    cases h
    exact .local rfl rfl rfl (by rw [hl]; rfl)
  · rename_i pkts rest batch hl
    cases h
    refine .published .udpRecv rfl (fun c' hc' => ?_) (fun c' hc' => ?_) fun w => rfl
    · rw [Owes, hl] at hc'
      cases hc'
    · cases c' with
      | ready j => exact Iff.rfl
      | udpRecv => exact absurd rfl hc'
  · rename_i hl
    cases h
    exact .local rfl rfl rfl (by rw [hl]; rfl)
  · rename_i hl
    cases h
    exact .local rfl rfl rfl (by rw [hl]; rfl)
  · rename_i hl
    exact insertServerReadySocket_traffic (by rw [hl]; rfl) h
  · rename_i hl
    cases h
    exact .local rfl rfl rfl (by rw [hl]; rfl)
  · cases h

variable [DecidableEq W]

/-- The status of the worker that was changed, and of the others. -/
theorem status_setWorker (s : Server W) (w v : W) (x : Worker) :
    ((setWorker s w x).worker v).status = if v = w then x.status else (s.worker v).status := by
  by_cases hv : v = w
  · subst hv
    simp [setWorker]
  · simp [setWorker, hv]

theorem takeOrWait_traffic {w : W} {c : Cond}
    (hasks : a.Asks w c ∨ (s.worker w).status = .woken c) : Traffic s a (takeOrWait s w c) := by
  have hself : ∀ (s' : Server W) (x : Worker),
      ((setWorker s' w x).worker w).status = x.status := by
    intro s' x
    rw [status_setWorker, if_pos rfl]
  cases c with
  | ready index =>
    simp only [takeOrWait]
    split
    · rename_i hnil
      refine .waits (.ready index) w hasks (fun c' h => h) (fun c' => ?_) (fun h => h hnil)
        (hself _ _) fun v hv => by rw [status_setWorker, if_neg hv]
      cases c' <;> rfl
    · rename_i p l hl
      refine .took (.ready index) w hasks (fun c' h => h) (fun c' hc' => ?_) (hself _ _)
        fun v hv => by rw [status_setWorker, if_neg hv]
      cases c' with
      | udpRecv => exact hc'
      | ready j =>
        by_cases hj : j = index
        · subst hj
          simp only [Backlog, hl]
          exact List.cons_ne_nil p l
        · simp only [Backlog, setWorker] at hc' ⊢
          rwa [List.getD_eq_getElem?_getD, List.getElem?_set_ne (Ne.symm hj),
            ← List.getD_eq_getElem?_getD] at hc'
  | udpRecv =>
    simp only [takeOrWait]
    split
    · rename_i hnil
      refine .waits .udpRecv w hasks (fun c' h => h) (fun c' => ?_) (fun h => h hnil)
        (hself _ _) fun v hv => by rw [status_setWorker, if_neg hv]
      cases c' <;> rfl
    · rename_i pkt l hl
      refine .took .udpRecv w hasks (fun c' h => h) (fun c' hc' => ?_) (hself _ _)
        fun v hv => by rw [status_setWorker, if_neg hv]
      cases c' with
      | ready j => exact hc'
      | udpRecv => simp [Backlog, hl]

theorem signalOne_traffic [Fintype W] {c : Cond} {l : Loop} {r : Option W}
    (howed : s.loop.owed = some c) (h : signalOne { s with loop := l } c r = .ok t) :
    Traffic s a t := by
  have howed' : ∀ c', Owes s c' → c' = c := by
    intro c' hc'
    exact Option.some.inj (hc'.symm.trans howed)
  cases r with
  | some w =>
    simp only [signalOne] at h
    split at h
    · rename_i hwait
      cases h
      refine .woke c w howed' (fun c' => ?_) hwait ?_ fun v hv => by
        rw [status_setWorker, if_neg hv]
      · cases c' <;> rfl
      · rw [status_setWorker, if_pos rfl]
    · cases h
  | none =>
    simp only [signalOne] at h
    split at h
    · cases h
    · rename_i hnone
      cases h
      refine .unheard c howed' (fun c' => ?_) (fun w hw => hnone ⟨w, hw⟩) fun w => rfl
      cases c' <;> rfl

/-- **What any step does to those who wait.** -/
theorem step_traffic [Fintype W] (h : step s a = .ok t) : Traffic s a t := by
  cases steps_of_step h with
  | epollWait hl hev => exact .local rfl rfl rfl (by rw [hl]; rfl)
  | epollRetry hl => exact .same rfl rfl rfl fun w => rfl
  | epollFail hl => exact .local rfl rfl rfl (by rw [hl]; rfl)
  | next hnext => exact nextStep_traffic hnext
  | @accept id rest batch r t hl haccept =>
    have howed : s.loop.owed = none := by rw [hl]; rfl
    cases r with
    | none =>
      cases haccept
      exact .local rfl rfl rfl howed
    | some x =>
      simp only [acceptOne] at haccept
      split at haccept
      · cases haccept
      split at haccept
      · cases haccept
        exact .local rfl rfl rfl howed
      · cases haccept
        exact .local rfl rfl rfl howed
  | @recvfrom pkts rest batch r hl =>
    have howed : s.loop.owed = none := by rw [hl]; rfl
    cases r <;> exact .local rfl rfl rfl howed
  | recv hl hrecv =>
    simp only [recvLocal] at hrecv
    split at hrecv
    · cases hrecv
    split at hrecv
    · cases hrecv
      exact .local rfl rfl rfl (by rw [hl]; rfl)
    · cases hrecv
  | @epollAdd p todo rest batch ok hl =>
    have howed : s.loop.owed = none := by rw [hl]; rfl
    cases ok <;> exact .local rfl rfl rfl howed
  | signalReady hl hsignal => exact signalOne_traffic (by rw [hl]; rfl) hsignal
  | signalUDP hl hsignal => exact signalOne_traffic (by rw [hl]; rfl) hsignal
  | @getServerReadySocket w index hw =>
    unfold getServerReadySocket
    split
    · exact takeOrWait_traffic (.inl (.inl ⟨index, rfl, rfl⟩))
    · exact .same rfl rfl rfl fun w => rfl
  | getUDPPacket hw => exact takeOrWait_traffic (.inl (.inr ⟨rfl, rfl⟩))
  | retest hw => exact takeOrWait_traffic (.inr hw)
  | @spurious w c hw =>
    refine .spurious c w (fun c' h' => h') (fun c' => ?_) hw ?_ fun v hv => by
      rw [status_setWorker, if_neg hv]
    · cases c' <;> rfl
    · rw [status_setWorker, if_pos rfl]
  | @insertServerReuseSocket w poolIndex p sendOk hp =>
    refine .same rfl rfl rfl fun v => ?_
    by_cases hv : v = w
    · subst hv
      simp [insertServerReuseSocket, setWorker]
    · simp [insertServerReuseSocket, setWorker, hv]
  | @closeDelete w p hp =>
    refine .same rfl rfl rfl fun v => ?_
    by_cases hv : v = w
    · subst hv
      simp [deleteSocket, setWorker]
    · simp [deleteSocket, setWorker, hv]
  | stopServer => exact .same rfl rfl rfl fun w => rfl

end

/-! ## 3. The workers -/

/-- A worker that serves the condition is not waiting on it. -/
def Attended (serves : W → Cond → Prop) (s : Server W) (c : Cond) : Prop :=
  ∃ w, serves w c ∧ (s.worker w).status ≠ .waiting c

/-- The workers wait on conditions they serve, also when they have just been woken. -/
def Obeyed (serves : W → Cond → Prop) (s : Server W) : Prop :=
  ∀ w c, (s.worker w).status = .waiting c ∨ (s.worker w).status = .woken c → serves w c

/-- A list that has something in it, and a worker that serves it, has one that is not waiting, or a
signal owed to it. -/
structure Awake (serves : W → Cond → Prop) (s : Server W) : Prop where
  obeyed : Obeyed serves s
  awake : ∀ c, Backlog s c → (∃ w, serves w c) → Attended serves s c ∨ Owes s c

section

variable {serves : W → Cond → Prop} {s t : Server W} {a : Action W}

theorem Attended.same {c : Cond} (h : Attended serves s c)
    (hstatus : ∀ w, (t.worker w).status = (s.worker w).status) : Attended serves t c := by
  obtain ⟨w, hw, hne⟩ := h
  exact ⟨w, hw, by rwa [hstatus w]⟩

/-- One worker changes what it is doing, and does not start to wait on the condition. -/
theorem Attended.other {c : Cond} {w : W} (h : Attended serves s c)
    (hw : (t.worker w).status ≠ .waiting c)
    (hother : ∀ v, v ≠ w → (t.worker v).status = (s.worker v).status) : Attended serves t c := by
  obtain ⟨v, hv, hne⟩ := h
  refine ⟨v, hv, ?_⟩
  by_cases hvw : v = w
  · rwa [hvw]
  · rwa [hother v hvw]

theorem Obeyed.same (h : Obeyed serves s)
    (hstatus : ∀ w, (t.worker w).status = (s.worker w).status) : Obeyed serves t := by
  intro w c hw
  rw [hstatus w] at hw
  exact h w c hw

theorem Obeyed.other {w : W} (h : Obeyed serves s)
    (hw : ∀ c, (t.worker w).status = .waiting c ∨ (t.worker w).status = .woken c → serves w c)
    (hother : ∀ v, v ≠ w → (t.worker v).status = (s.worker v).status) : Obeyed serves t := by
  intro v c hv
  by_cases hvw : v = w
  · subst hvw
    exact hw c hv
  · rw [hother v hvw] at hv
    exact h v c hv

theorem Awake.traffic (h : Awake serves s) (hasks : ∀ w c, a.Asks w c → serves w c)
    (ht : Traffic s a t) : Awake serves t := by
  cases ht with
  | quiet hback hstatus howed =>
    refine ⟨h.obeyed.same hstatus, fun c hc hex => ?_⟩
    exact (h.awake c ((hback c).mp hc) hex).imp (·.same hstatus) (howed c)
  | published c howed hnone hback hstatus =>
    refine ⟨h.obeyed.same hstatus, fun c' hc hex => ?_⟩
    by_cases hcc : c' = c
    · subst hcc
      exact .inr howed
    · have hold := h.awake c' ((hback c' hcc).mp hc) hex
      exact hold.imp (·.same hstatus) fun ho => absurd ho (hnone c')
  | woke c w howed hback hwait hstatus hother =>
    have hw : serves w c := h.obeyed w c (.inl hwait)
    have hne : ∀ c', (t.worker w).status ≠ .waiting c' := by
      intro c'
      rw [hstatus]
      simp
    refine ⟨h.obeyed.other (fun c' hv => ?_) hother, fun c' hc hex => ?_⟩
    · rw [hstatus] at hv
      rcases hv with hv | hv <;> cases hv
      exact hw
    · -- the signal of `c` has been issued, and the worker it woke serves `c`
      by_cases hcc : c' = c
      · subst hcc
        exact .inl ⟨w, hw, hne _⟩
      · have hold := h.awake c' ((hback c').mp hc) hex
        exact hold.imp (·.other (hne c') hother) fun ho => absurd (howed c' ho) hcc
  | unheard c howed hback hnone hstatus =>
    refine ⟨h.obeyed.same hstatus, fun c' hc hex => ?_⟩
    by_cases hcc : c' = c
    · subst hcc
      obtain ⟨w, hw⟩ := hex
      exact .inl ⟨w, hw, by rw [hstatus w]; exact hnone w⟩
    · have hold := h.awake c' ((hback c').mp hc) hex
      exact hold.imp (·.same hstatus) fun ho => absurd (howed c' ho) hcc
  | took c w hask howed hback hstatus hother =>
    refine ⟨h.obeyed.other (fun c' hv => ?_) hother, fun c' hc hex => ?_⟩
    · rw [hstatus] at hv
      rcases hv with hv | hv <;> cases hv
    · have hne : (t.worker w).status ≠ .waiting c' := by
        rw [hstatus]
        simp
      exact (h.awake c' (hback c' hc) hex).imp (·.other hne hother) (howed c')
  | waits c w hask howed hback hnone hstatus hother =>
    have hw : serves w c := hask.elim (hasks w c) fun hw => h.obeyed w c (.inr hw)
    refine ⟨h.obeyed.other (fun c' hv => ?_) hother, fun c' hc hex => ?_⟩
    · rw [hstatus] at hv
      rcases hv with hv | hv <;> cases hv
      exact hw
    · -- a worker waits only on a condition whose list is empty
      have hne : (t.worker w).status ≠ .waiting c' := by
        rw [hstatus]
        intro heq
        have hcc : c = c' := by simpa using heq
        exact hnone (hcc ▸ (hback c').mp hc)
      exact (h.awake c' ((hback c').mp hc) hex).imp (·.other hne hother) (howed c')
  | spurious c w howed hback hwait hstatus hother =>
    refine ⟨h.obeyed.other (fun c' hv => ?_) hother, fun c' hc hex => ?_⟩
    · rw [hstatus] at hv
      rcases hv with hv | hv <;> cases hv
      exact h.obeyed w c (.inl hwait)
    · have hne : (t.worker w).status ≠ .waiting c' := by
        rw [hstatus]
        simp
      exact (h.awake c' ((hback c').mp hc) hex).imp (·.other hne hother) (howed c')

end

theorem start_awake (serves : W → Cond → Prop) (n : Nat) (hasUDP : Bool) :
    Awake serves (start W n hasUDP) where
  obeyed := by
    rintro w c (h | h) <;> cases h
  awake := by
    intro c hback
    cases c with
    | udpRecv => exact absurd rfl hback
    | ready index =>
      refine absurd ?_ hback
      by_cases hi : index < n
      · simp [start, hi]
      · simp [start, hi]

/-! ## 4. The epoll thread -/

/-- A socket in the reuse list has a notification unread, or the epoll thread is about to look. -/
def Noticed (acts : List (Action W)) (s : Server W) : Prop :=
  s.reuseList.entries ≠ [] → 0 < s.notifications ∨ Drained acts s

section

variable {s t : Server W} {a : Action W} {acts : List (Action W)}

theorem lastOfEpoll_append_other (ha : a.ofEpoll = false) :
    lastOfEpoll (acts ++ [a]) = lastOfEpoll acts := by
  simp [lastOfEpoll, ha]

/-- A step of a worker, or of whoever stops the server, that gives nothing back. -/
theorem Noticed.other (h : Noticed acts s) (ha : a.ofEpoll = false) (hloop : t.loop = s.loop)
    (hreuse : t.reuseList = s.reuseList) (hnote : t.notifications = s.notifications) :
    Noticed (acts ++ [a]) t := by
  intro hne
  rw [hreuse] at hne
  rw [hnote, Drained, hloop, lastOfEpoll_append_other ha]
  exact h hne

end

/-! ## 5. Every run -/

end Kknf.AllSync
