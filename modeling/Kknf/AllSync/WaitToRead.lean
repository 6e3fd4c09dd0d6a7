/-
# `Client::TCPWaitToRead`

The function registers the sockets of a list with epoll, waits until enough of them have something
to read or an error, and reports these by their index in the list.  Two defects, independent of each
other:

* `epoll_data` is a union.  `data.u32 = i` overwrites the descriptor that was just stored in
  `data.fd`, so descriptor `i` is registered instead of that of the `i`-th socket, and the same
  mistake is made when it is taken out again.  The indices are right only when the descriptor of
  every socket happens to be its index (`right_sockets_iff`).
* A result of 0 from `epoll_wait`, the time-out, is treated as no events, and the function waits
  again.  And all returns but those of `-2` and of 0 with every socket reported leave descriptors
  registered (`cleans_up_iff`).

What epoll does is part of the input: which registrations succeed, and what each `epoll_wait`
returns, where an event is reported for a registered descriptor with the data it was registered
with.  A list of results that is too short leaves the function waiting.  The epoll set is empty at
the call: `epoll_fd_` is shared by all calls, and what earlier ones have left in it, or other
threads put into it meanwhile, is left out.  The sockets have distinct descriptors, so indices and
descriptors are below `2^31`, where `fd` and `u32` read the same number.
-/
import Mathlib.Data.List.Perm.Basic
import Mathlib.Data.List.Nodup
import Mathlib.Data.List.Range

namespace Kknf.AllSync.WaitToRead

/-! ## 1. Data -/

/-- `epoll_data`, of which `fd` and `u32` share the storage. -/
structure EpollData where
  word : Int
  deriving DecidableEq

def EpollData.fd (d : EpollData) : Int := d.word
def EpollData.u32 (d : EpollData) : Nat := d.word.toNat
def EpollData.setFd (_ : EpollData) (fd : Int) : EpollData := ⟨fd⟩
def EpollData.setU32 (_ : EpollData) (u : Nat) : EpollData := ⟨u⟩

/-- The registered descriptors, with the data they were registered with. -/
abbrev EpollSet := List (Int × EpollData)

/-- An event: the descriptor it is about, and two of its flags. -/
structure EpollEvent where
  fd : Int
  epollin : Bool
  epollerr : Bool
  deriving DecidableEq

/-- What an `epoll_wait` comes to. -/
inductive Wait
  /-- it returns the number of these events, 0 when the time is out -/
  | events (evs : List EpollEvent)
  /-- `EINTR`, after so many milliseconds -/
  | interrupted (elapsed : Int)
  /-- it fails with another `errno` -/
  | failed
  deriving DecidableEq

inductive Outcome
  | returned (code : Int)
  /-- the function waits -/
  | waiting
  | assertFailed
  /-- epoll does what it cannot do -/
  | impossible
  deriving DecidableEq

/-- The epoll set, the two lists of the caller, and what has happened: the descriptors that were
registered, the events that were reported, and whether an `epoll_wait` has timed out. -/
structure State where
  epoll : EpollSet := []
  triggered : List Nat := []
  error : List Nat := []
  added : List Int := []
  reported : List EpollEvent := []
  timedOut : Bool := false
  deriving DecidableEq

/-! ## 2. The function -/

/-- `epoll_ctl(EPOLL_CTL_DEL)`. -/
def epollDel (ep : EpollSet) (fd : Int) : EpollSet := ep.filter (·.1 ≠ fd)

/-- `evs[i].data` of the `i`-th socket. -/
def dataOf (sk : Int) (i : Nat) : EpollData := (EpollData.setFd ⟨0⟩ sk).setU32 i

/-- The data of all sockets, from index `i` on. -/
def evsFrom : List Int → Nat → List EpollData
  | [], _ => []
  | sk :: sks, i => dataOf sk i :: evsFrom sks (i + 1)

/-- The loop that registers the sockets: the index at which it failed, if it did.  `adds i` says
whether the `i`-th `epoll_ctl` succeeds. -/
def register (adds : Nat → Bool) : List EpollData → Nat → State → Option Nat × State
  | [], _, s => (none, s)
  | d :: evs, i, s =>
    if adds i then
      register adds evs (i + 1)
        { s with epoll := s.epoll ++ [(d.fd, d)], added := s.added ++ [d.fd] }
    else (some i, s)

/-- The loop that takes the first registrations back. -/
def rollBack (ep : EpollSet) (evs : List EpollData) : EpollSet :=
  evs.foldl (fun ep d => epollDel ep d.fd) ep

/-- The data a descriptor is registered with. -/
def dataAt (ep : EpollSet) (fd : Int) : EpollData :=
  match ep with
  | [] => ⟨0⟩
  | (fd', d) :: ep => if fd' = fd then d else dataAt ep fd

/-- The loop over the events, each with its data.  `none` is the `assert(false)` of an event that is
neither input nor an error. -/
def handleEvents : List (EpollData × EpollEvent) → State → Option State
  | [], s => some s
  | (d, ev) :: rest, s =>
    let s := { s with epoll := epollDel s.epoll d.fd, reported := s.reported ++ [ev] }
    if ev.epollin then handleEvents rest { s with triggered := s.triggered ++ [d.u32] }
    else if ev.epollerr then handleEvents rest { s with error := s.error ++ [d.u32] }
    else none

/-- Each event is of another registered descriptor. -/
def Possible (len : Nat) (ep : EpollSet) (evs : List EpollEvent) : Prop :=
  (evs.map (·.fd)).Nodup ∧ (∀ fd ∈ evs.map (·.fd), fd ∈ ep.map Prod.fst) ∧ evs.length ≤ len

instance (len : Nat) (ep : EpollSet) (evs : List EpollEvent) : Decidable (Possible len ep evs) :=
  inferInstanceAs (Decidable (_ ∧ _ ∧ _))

/-- The waiting loop. -/
def waitLoop (len num : Nat) : List Wait → Int → State → Outcome × State
  | [], _, s => (.waiting, s)
  | .failed :: _, _, s => (.returned (-3), s)
  | .interrupted elapsed :: ws, timeout, s =>
    if timeout - elapsed ≤ 10 then (.returned (-1), s)
    else waitLoop len num ws (timeout - elapsed) s
  | .events evs :: ws, timeout, s =>
    if ¬ Possible len s.epoll evs then (.impossible, s)
    else
      let s := { s with timedOut := s.timedOut || evs.isEmpty }
      match handleEvents (evs.map fun ev => (dataAt s.epoll ev.fd, ev)) s with
      | none => (.assertFailed, s)
      | some s =>
        if num ≤ s.error.length + s.triggered.length then (.returned 0, s)
        else waitLoop len num ws timeout s

/-- `TCPWaitToRead`, for sockets with the descriptors `sks`. -/
def tcpWaitToRead (sks : List Int) (num : Nat) (timeout : Int) (adds : Nat → Bool)
    (waits : List Wait) : Outcome × State :=
  if ¬ (num ≤ sks.length ∧ 0 < num) then (.assertFailed, {})
  else
    let evs := evsFrom sks 0
    match register adds evs 0 {} with
    | (some i, s) =>
      (.returned (-2),
        { s with epoll := rollBack s.epoll (evs.take (i + 1)), error := s.error ++ [i] })
    | (none, s) => waitLoop sks.length num waits timeout s

/-! ## 3. Registration -/

/-- The registration of index `i`. -/
def entry (i : Nat) : Int × EpollData := ((i : Int), ⟨i⟩)

theorem dataOf_eq (sk : Int) (i : Nat) : dataOf sk i = ⟨i⟩ := rfl

/-- What the registration comes to: the indices up to the first one that fails. -/
theorem register_spec (adds : Nat → Bool) (sks : List Int) :
    ∀ {i : Nat} {s : State}, ∃ m ≤ sks.length,
      (∀ j < m, adds (i + j) = true) ∧
      register adds (evsFrom sks i) i s =
        (if m = sks.length then none else some (i + m),
          { s with
            epoll := s.epoll ++ (List.range' i m).map entry
            added := s.added ++ (List.range' i m).map fun j : Nat => (j : Int) }) ∧
      (m ≠ sks.length → adds (i + m) = false) := by
  induction sks with
  | nil =>
    intro i s
    exact ⟨0, Nat.le_refl 0, fun j hj => absurd hj (Nat.not_lt_zero j), by simp [evsFrom, register],
      fun h => absurd rfl h⟩
  | cons sk sks ih =>
    intro i s
    by_cases hadd : adds i = true
    · obtain ⟨m, hm, hall, hreg, hfail⟩ := ih (i := i + 1)
        (s := { s with epoll := s.epoll ++ [entry i], added := s.added ++ [(i : Int)] })
      refine ⟨m + 1, Nat.succ_le_succ hm, ?_, ?_, ?_⟩
      · intro j hj
        rcases j with _ | j
        · exact hadd
        · have h := hall j (Nat.lt_of_succ_lt_succ hj)
          rwa [Nat.add_assoc, Nat.add_comm 1 j] at h
      · have hstep : register adds (evsFrom (sk :: sks) i) i s =
            register adds (evsFrom sks (i + 1)) (i + 1)
              { s with epoll := s.epoll ++ [entry i], added := s.added ++ [(i : Int)] } := by
          simp only [evsFrom, register, hadd, if_true]
          rfl
        rw [hstep, hreg]
        simp [List.range'_succ, Nat.add_assoc, Nat.add_comm 1 m]
      · intro hne
        have h := hfail fun heq => hne (by rw [heq, List.length_cons])
        rwa [Nat.add_assoc, Nat.add_comm 1 m] at h
    · refine ⟨0, Nat.zero_le _, fun j hj => absurd hj (Nat.not_lt_zero j), ?_, fun _ => ?_⟩
      · simp [evsFrom, register, hadd]
      · simpa using hadd

/-! ## 4. The epoll set while the function waits -/

/-- The indices that are registered. -/
def indices (ep : EpollSet) : List Nat := ep.map fun e => e.2.u32

/-- Every registration is that of an index. -/
def Entries (ep : EpollSet) : Prop := ∀ e ∈ ep, e = entry e.2.u32

theorem entries_map_entry (js : List Nat) : Entries (js.map entry) := by
  intro e he
  obtain ⟨j, -, rfl⟩ := List.mem_map.mp he
  rfl

theorem indices_map_entry (js : List Nat) : indices (js.map entry) = js := by
  rw [indices, List.map_map]
  exact List.map_id js

theorem Entries.epollDel {ep : EpollSet} (h : Entries ep) (fd : Int) : Entries (epollDel ep fd) :=
  fun e he => h e (List.mem_filter.mp he).1

theorem dataAt_eq : ∀ {ep : EpollSet} {fd : Int}, Entries ep → fd ∈ ep.map Prod.fst →
    dataAt ep fd = ⟨fd⟩
  | [], fd, _, hfd => by simp at hfd
  | e :: ep, fd, h, hfd => by
    have he := h e (List.mem_cons_self ..)
    unfold dataAt
    by_cases heq : e.1 = fd
    · rw [if_pos heq, ← heq, he]
      rfl
    · rw [if_neg heq]
      refine dataAt_eq (fun e' he' => h e' (List.mem_cons_of_mem _ he')) ?_
      simpa [Ne.symm heq] using hfd

/-- To take a descriptor out of the set takes its index out. -/
theorem indices_epollDel {ep : EpollSet} (h : Entries ep) (j : Nat) :
    indices (epollDel ep j) = (indices ep).filter (· ≠ j) := by
  simp only [indices, epollDel, List.filter_map]
  congr 1
  refine List.filter_congr fun e he => ?_
  rw [h e he]
  exact decide_eq_decide.mpr (not_congr Int.ofNat_inj)

theorem mem_indices {ep : EpollSet} (h : Entries ep) {fd : Int} (hfd : fd ∈ ep.map Prod.fst) :
    fd.toNat ∈ indices ep ∧ (fd.toNat : Int) = fd := by
  obtain ⟨e, he, rfl⟩ := List.mem_map.mp hfd
  rw [h e he]
  exact ⟨List.mem_map.mpr ⟨e, he, rfl⟩, rfl⟩

/-- The number of sockets that are listed. -/
def State.listed (s : State) : Nat := s.error.length + s.triggered.length

/-- What holds while the function waits: each index is registered, or it is in one of the two lists,
where it is for the event of its own descriptor. -/
structure Waiting (len : Nat) (s : State) : Prop where
  entries : Entries s.epoll
  perm : (s.triggered ++ s.error ++ indices s.epoll).Perm (List.range len)
  triggered : ∀ i : Nat, i ∈ s.triggered ↔ ∃ ev ∈ s.reported, ev.epollin = true ∧ ev.fd = i
  error : ∀ i : Nat, i ∈ s.error ↔
    ∃ ev ∈ s.reported, (ev.epollin = false ∧ ev.epollerr = true) ∧ ev.fd = i

theorem Waiting.length {len : Nat} {s : State} (h : Waiting len s) :
    s.listed + s.epoll.length = len := by
  have hlen := h.perm.length_eq
  simp only [List.length_append, List.length_range, indices, List.length_map] at hlen
  unfold State.listed
  omega

theorem Waiting.nodup {len : Nat} {s : State} (h : Waiting len s) :
    (s.triggered ++ s.error ++ indices s.epoll).Nodup := h.perm.nodup_iff.mpr List.nodup_range

/-- After the event of a registered descriptor the rest of the set and its index are what the set
was. -/
theorem Waiting.perm_epollDel {len : Nat} {s : State} (h : Waiting len s) {fd : Int}
    (hfd : fd ∈ s.epoll.map Prod.fst) :
    (indices s.epoll).Perm (fd.toNat :: indices (epollDel s.epoll fd)) := by
  obtain ⟨hmem, hcast⟩ := mem_indices h.entries hfd
  have hnodup : (indices s.epoll).Nodup := (List.nodup_append.mp h.nodup).2.1
  have hdel : indices (epollDel s.epoll fd) = (indices s.epoll).erase fd.toNat := by
    rw [← hcast, indices_epollDel h.entries, Int.toNat_natCast, hnodup.erase_eq_filter]
    exact List.filter_congr fun x _ => Bool.eq_iff_iff.mpr (by simp)
  rw [hdel]
  exact List.perm_cons_erase hmem

/-- The state after an event that has input. -/
theorem Waiting.input {len : Nat} {s : State} {ev : EpollEvent} (h : Waiting len s)
    (hfd : ev.fd ∈ s.epoll.map Prod.fst) (hin : ev.epollin = true) :
    Waiting len { s with
      epoll := epollDel s.epoll ev.fd
      reported := s.reported ++ [ev]
      triggered := s.triggered ++ [ev.fd.toNat] } where
  entries := h.entries.epollDel ev.fd
  perm := by
    refine List.Perm.trans ?_ h.perm
    have hdel := (h.perm_epollDel hfd).symm.append_left (s.triggered ++ s.error)
    refine List.Perm.trans ?_ hdel
    simp only [List.append_assoc, List.singleton_append]
    exact List.perm_middle.symm.append_left s.triggered
  triggered := by
    intro i
    have hcast := (mem_indices h.entries hfd).2
    simp only [List.mem_append, List.mem_singleton, h.triggered, or_and_right, exists_or,
      exists_eq_left, hin, true_and]
    exact or_congr_right (by omega)
  error := by
    intro i
    simp [or_and_right, exists_or, h.error, hin]

/-- The state after an event that has an error only. -/
theorem Waiting.failure {len : Nat} {s : State} {ev : EpollEvent} (h : Waiting len s)
    (hfd : ev.fd ∈ s.epoll.map Prod.fst) (hin : ev.epollin = false) (herr : ev.epollerr = true) :
    Waiting len { s with
      epoll := epollDel s.epoll ev.fd
      reported := s.reported ++ [ev]
      error := s.error ++ [ev.fd.toNat] } where
  entries := h.entries.epollDel ev.fd
  perm := by
    refine List.Perm.trans ?_ h.perm
    have hdel := (h.perm_epollDel hfd).symm.append_left (s.triggered ++ s.error)
    refine List.Perm.trans ?_ hdel
    simp only [List.append_assoc, List.singleton_append]
    exact List.Perm.refl _
  triggered := by
    intro i
    simp [or_and_right, exists_or, h.triggered, hin]
  error := by
    intro i
    have hcast := (mem_indices h.entries hfd).2
    simp only [List.mem_append, List.mem_singleton, h.error, or_and_right, exists_or,
      exists_eq_left, hin, herr, true_and]
    exact or_congr_right (by omega)

/-! ## 5. The loops -/

/-- An event with another flag only, such as `EPOLLHUP`. -/
def Unsupported (ev : EpollEvent) : Prop := ev.epollin = false ∧ ev.epollerr = false

instance (ev : EpollEvent) : Decidable (Unsupported ev) := inferInstanceAs (Decidable (_ ∧ _))

/-- One event that is supported: its socket is listed and no longer registered. -/
theorem handleEvents_cons {len : Nat} {s : State} {ev : EpollEvent} (hs : Waiting len s)
    (hev : ¬ Unsupported ev) (hfd : ev.fd ∈ s.epoll.map Prod.fst)
    (rest : List (EpollData × EpollEvent)) :
    ∃ t, handleEvents ((⟨ev.fd⟩, ev) :: rest) s = handleEvents rest t ∧ Waiting len t ∧
      t.epoll = epollDel s.epoll ev.fd ∧ t.listed = s.listed + 1 ∧ t.added = s.added ∧
      t.timedOut = s.timedOut := by
  by_cases hin : ev.epollin = true
  · refine ⟨_, ?_, hs.input hfd hin, rfl, ?_, rfl, rfl⟩
    · simp only [handleEvents, hin, if_true]
      rfl
    · simp [State.listed, Nat.add_assoc]
  · have hin' : ev.epollin = false := Bool.not_eq_true _ ▸ hin
    have herr : ev.epollerr = true := Bool.not_eq_false _ ▸ fun herr => hev ⟨hin', herr⟩
    refine ⟨_, ?_, hs.failure hfd hin' herr, rfl, ?_, rfl, rfl⟩
    · simp only [handleEvents, hin', herr, if_true, Bool.false_eq_true, if_false]
      rfl
    · simp [State.listed, Nat.add_right_comm]

/-- The other descriptors stay registered. -/
theorem mem_epollDel {ep : EpollSet} {fd fd' : Int} (hmem : fd' ∈ ep.map Prod.fst)
    (hne : fd' ≠ fd) :
    fd' ∈ (epollDel ep fd).map Prod.fst := by
  obtain ⟨e, he, rfl⟩ := List.mem_map.mp hmem
  exact List.mem_map.mpr ⟨e, List.mem_filter.mpr ⟨he, decide_eq_true hne⟩, rfl⟩

/-- The loop over the events keeps the invariant and lists every one of them. -/
theorem handleEvents_some {len : Nat} {evs : List EpollEvent}
    (hevs : ∀ ev ∈ evs, ¬ Unsupported ev) :
    ∀ {s : State}, Waiting len s → (evs.map (·.fd)).Nodup →
      (∀ fd ∈ evs.map (·.fd), fd ∈ s.epoll.map Prod.fst) →
      ∃ t, handleEvents (evs.map fun ev => (⟨ev.fd⟩, ev)) s = some t ∧ Waiting len t ∧
        t.listed = s.listed + evs.length ∧ t.added = s.added ∧ t.timedOut = s.timedOut := by
  induction evs with
  | nil => exact fun hs _ _ => ⟨_, rfl, hs, rfl, rfl, rfl⟩
  | cons ev evs ih =>
    intro s hs hnodup hreg
    obtain ⟨hnot, hnodup'⟩ := List.nodup_cons.mp hnodup
    obtain ⟨u, hu, hwait, hepoll, hlisted, hadded, htimed⟩ :=
      handleEvents_cons hs (hevs ev (List.mem_cons_self ..)) (hreg _ (List.mem_cons_self ..))
        (evs.map fun ev => (⟨ev.fd⟩, ev))
    have hreg' : ∀ fd ∈ evs.map (·.fd), fd ∈ u.epoll.map Prod.fst := by
      intro fd hmem
      rw [hepoll]
      refine mem_epollDel (hreg fd (List.mem_cons_of_mem _ hmem)) ?_
      rintro rfl
      exact hnot hmem
    obtain ⟨t, ht, hwait', hlisted', hadded', htimed'⟩ :=
      ih (fun e he => hevs e (List.mem_cons_of_mem _ he)) hwait hnodup' hreg'
    refine ⟨t, hu.trans ht, hwait', ?_, hadded'.trans hadded, htimed'.trans htimed⟩
    rw [hlisted', hlisted, List.length_cons]
    omega

theorem handleEvents_none {ps : List (EpollData × EpollEvent)} :
    ∀ {s : State}, (∃ p ∈ ps, Unsupported p.2) → handleEvents ps s = none := by
  induction ps with
  | nil =>
    rintro s ⟨p, hp, -⟩
    contradiction
  | cons p ps ih =>
    rintro s ⟨q, hq, hodd⟩
    obtain ⟨d, ev⟩ := p
    rcases List.mem_cons.mp hq with rfl | hq
    · obtain ⟨hin, herr⟩ : ev.epollin = false ∧ ev.epollerr = false := hodd
      simp [handleEvents, hin, herr]
    · unfold handleEvents
      dsimp only
      split
      · exact ih ⟨q, hq, hodd⟩
      · split
        · exact ih ⟨q, hq, hodd⟩
        · rfl

/-- What the loop does with the events of one `epoll_wait`. -/
theorem waitLoop_events {len : Nat} {s : State} {evs : List EpollEvent} (hs : Waiting len s)
    (hp : Possible len s.epoll evs) (num : Nat) (ws : List Wait) (timeout : Int) :
    ((∃ ev ∈ evs, Unsupported ev) ∧
      waitLoop len num (.events evs :: ws) timeout s =
        (.assertFailed, { s with timedOut := s.timedOut || evs.isEmpty })) ∨
    ((∀ ev ∈ evs, ¬ Unsupported ev) ∧
      ∃ t, Waiting len t ∧ t.listed = s.listed + evs.length ∧ t.added = s.added ∧
        t.timedOut = (s.timedOut || evs.isEmpty) ∧
        waitLoop len num (.events evs :: ws) timeout s =
          if num ≤ t.listed then (.returned 0, t) else waitLoop len num ws timeout t) := by
  have hdata : (evs.map fun ev => (dataAt s.epoll ev.fd, ev)) =
      evs.map fun ev => (⟨ev.fd⟩, ev) := by
    refine List.map_congr_left fun ev hev => ?_
    rw [dataAt_eq hs.entries (hp.2.1 _ (List.mem_map.mpr ⟨ev, hev, rfl⟩))]
  by_cases hodd : ∃ ev ∈ evs, Unsupported ev
  · obtain ⟨ev, hev, hun⟩ := hodd
    have hnone : handleEvents (evs.map fun ev => ((⟨ev.fd⟩ : EpollData), ev))
        { s with timedOut := s.timedOut || evs.isEmpty } = none :=
      handleEvents_none ⟨(⟨ev.fd⟩, ev), List.mem_map.mpr ⟨ev, hev, rfl⟩, hun⟩
    refine .inl ⟨⟨ev, hev, hun⟩, ?_⟩
    unfold waitLoop
    rw [if_neg (not_not_intro hp)]
    simp only [hdata, hnone]
  · have hevs : ∀ ev ∈ evs, ¬ Unsupported ev := fun ev hev hun => hodd ⟨ev, hev, hun⟩
    have hs' : Waiting len { s with timedOut := s.timedOut || evs.isEmpty } :=
      ⟨hs.entries, hs.perm, hs.triggered, hs.error⟩
    obtain ⟨t, hsome, ht, hlisted, hadded, htimed⟩ := handleEvents_some hevs hs' hp.1 hp.2.1
    refine .inr ⟨hevs, t, ht, hlisted, hadded, htimed, ?_⟩
    conv_lhs => unfold waitLoop
    rw [if_neg (not_not_intro hp)]
    simp only [hdata, hsome]
    rfl

/-- What the waiting loop comes to, when epoll does only what it can do. -/
theorem waitLoop_spec {len num : Nat} {ws : List Wait} :
    ∀ {timeout : Int} {s : State}, Waiting len s →
      (waitLoop len num ws timeout s).1 ≠ .impossible →
      (waitLoop len num ws timeout s).2.added = s.added ∧
      (waitLoop len num ws timeout s).1 ≠ .returned (-2) ∧
      ((waitLoop len num ws timeout s).1 = .returned 0 →
        Waiting len (waitLoop len num ws timeout s).2 ∧
        num ≤ (waitLoop len num ws timeout s).2.listed) := by
  induction ws with
  | nil =>
    intro timeout s hs _
    simp [waitLoop]
  | cons w ws ih =>
    intro timeout s hs hposs
    rcases w with evs | elapsed | _
    · by_cases hp : Possible len s.epoll evs
      · rcases waitLoop_events hs hp num ws timeout with ⟨-, hodd⟩ | ⟨-, t, ht, -, hadded, -, hloop⟩
        · rw [hodd]
          simp
        · by_cases henough : num ≤ t.listed
          · rw [hloop, if_pos henough]
            exact ⟨hadded, by simp, fun _ => ⟨ht, henough⟩⟩
          · rw [hloop, if_neg henough] at hposs ⊢
            rw [← hadded]
            exact ih ht hposs
      · simp [waitLoop, hp] at hposs
    · by_cases hout : timeout - elapsed ≤ 10
      · simp [waitLoop, hout]
      · simp only [waitLoop, hout, if_false] at hposs ⊢
        exact ih hs hposs
    · simp [waitLoop]

/-! ## 6. The ways into the waiting loop -/

theorem evsFrom_eq {sks : List Int} :
    ∀ {i : Nat}, evsFrom sks i = (List.range' i sks.length).map fun j : Nat => ⟨(j : Int)⟩ := by
  induction sks with
  | nil => simp [evsFrom]
  | cons sk sks ih =>
    intro i
    simp [evsFrom, ih, List.range'_succ, dataOf_eq]

theorem rollBack_eq (ds : List EpollData) :
    ∀ ep : EpollSet, rollBack ep ds = ep.filter fun e => decide (∀ d ∈ ds, e.1 ≠ d.fd) := by
  induction ds with
  | nil => simp [rollBack]
  | cons d ds ih =>
    intro ep
    have hstep : rollBack ep (d :: ds) = rollBack (epollDel ep d.fd) ds := rfl
    rw [hstep, ih, epollDel, List.filter_filter]
    refine List.filter_congr fun e _ => ?_
    simp [Bool.and_comm]

/-- What is registered when a registration fails is taken back. -/
theorem rollBack_registered {len m : Nat} (hm : m < len) :
    rollBack ((List.range m).map entry)
      (((List.range len).map fun j : Nat => (⟨(j : Int)⟩ : EpollData)).take (m + 1)) = [] := by
  rw [rollBack_eq, List.filter_eq_nil_iff]
  intro e he hnot
  obtain ⟨j, hj, rfl⟩ := List.mem_map.mp he
  have hmem : (⟨(j : Int)⟩ : EpollData) ∈
      ((List.range len).map fun j : Nat => (⟨(j : Int)⟩ : EpollData)).take (m + 1) := by
    rw [← List.map_take, List.take_range]
    refine List.mem_map.mpr ⟨j, List.mem_range.mpr ?_, rfl⟩
    have := List.mem_range.mp hj
    omega
  exact of_decide_eq_true hnot _ hmem rfl

/-- The descriptors that are registered for the first `m` sockets. -/
def descriptors (m : Nat) : List Int := (List.range m).map fun j : Nat => (j : Int)

/-- The state in which the function begins to wait for `len` sockets. -/
def allRegistered (len : Nat) : State :=
  { epoll := (List.range len).map entry, added := descriptors len }

theorem waiting_allRegistered (len : Nat) : Waiting len (allRegistered len) where
  entries := entries_map_entry _
  perm := by
    simp only [allRegistered, indices_map_entry, List.nil_append]
    exact List.Perm.refl _
  triggered := by simp [allRegistered]
  error := by simp [allRegistered]

/-- Either the registration of index `m` fails, or the function waits. -/
theorem tcpWaitToRead_cases {sks : List Int} {num : Nat} (hpos : 0 < num) (hnum : num ≤ sks.length)
    (timeout : Int) (adds : Nat → Bool) (waits : List Wait) :
    (∃ m < sks.length, (∀ j < m, adds j = true) ∧ adds m = false ∧
      tcpWaitToRead sks num timeout adds waits =
        (.returned (-2), { error := [m], added := descriptors m })) ∨
    ((∀ j < sks.length, adds j = true) ∧
      tcpWaitToRead sks num timeout adds waits =
        waitLoop sks.length num waits timeout (allRegistered sks.length)) := by
  obtain ⟨m, hm, hall, hreg, hfail⟩ := register_spec adds sks (i := 0) (s := {})
  simp only [Nat.zero_add, List.nil_append, ← List.range_eq_range'] at hall hreg hfail
  unfold tcpWaitToRead
  rw [if_neg (not_not_intro ⟨hnum, hpos⟩)]
  simp only [hreg]
  by_cases hlen : m = sks.length
  · refine .inr ⟨hlen ▸ hall, ?_⟩
    simp only [hlen, if_true]
    rfl
  · have hlt : m < sks.length := Nat.lt_of_le_of_ne hm hlen
    refine .inl ⟨m, hlt, hall, hfail hlen, ?_⟩
    simp only [hlen, if_false]
    rw [evsFrom_eq, ← List.range_eq_range', rollBack_registered hlt]
    rfl

/-! ## 7. The sockets that are reported -/

/-- What the caller relies on: the descriptors of the sockets are registered, and on a return of 0
the lists name, by their index, the sockets the events were for, enough of them and none twice. -/
structure Reports (sks : List Int) (num : Nat) (r : Outcome × State) : Prop where
  registered : r.2.added <+: sks
  allRegistered : r.1 ≠ .returned (-2) → r.2.added = sks
  distinct : r.1 = .returned 0 → (r.2.triggered ++ r.2.error).Nodup
  bounded : r.1 = .returned 0 → ∀ i ∈ r.2.triggered ++ r.2.error, i < sks.length
  enough : r.1 = .returned 0 → num ≤ (r.2.triggered ++ r.2.error).length
  triggered : r.1 = .returned 0 → ∀ i, i ∈ r.2.triggered ↔
    ∃ ev ∈ r.2.reported, ev.epollin = true ∧ sks[i]? = some ev.fd
  error : r.1 = .returned 0 → ∀ i, i ∈ r.2.error ↔
    ∃ ev ∈ r.2.reported, (ev.epollin = false ∧ ev.epollerr = true) ∧ sks[i]? = some ev.fd

/-- Only a return of 0 says something about the lists. -/
theorem Reports.of_ne_zero {sks : List Int} {num : Nat} {r : Outcome × State}
    (hne : r.1 ≠ .returned 0) (hregistered : r.2.added <+: sks)
    (hall : r.1 ≠ .returned (-2) → r.2.added = sks) : Reports sks num r where
  registered := hregistered
  allRegistered := hall
  distinct := fun h => absurd h hne
  bounded := fun h => absurd h hne
  enough := fun h => absurd h hne
  triggered := fun h => absurd h hne
  error := fun h => absurd h hne

/-- When the sockets that come before the first failure have their index as descriptor, these
indices are what is registered. -/
theorem descriptors_prefix {sks : List Int} {m : Nat}
    (hsks : ∀ i, i < m → sks[i]? = some (i : Int)) : descriptors m <+: sks := by
  have htake : sks.take m = descriptors m := by
    refine List.ext_getElem? fun i => ?_
    by_cases hi : i < m
    · rw [List.getElem?_take_of_lt hi, hsks i hi]
      simp [descriptors, hi]
    · rw [List.getElem?_eq_none (by simp; omega),
        List.getElem?_eq_none (by simp [descriptors]; omega)]
  rw [← htake]
  exact List.take_prefix m sks

theorem getElem?_of_descriptors_prefix {sks : List Int} {m i : Nat} (h : descriptors m <+: sks)
    (hi : i < m) : sks[i]? = some (i : Int) := by
  obtain ⟨rest, rfl⟩ := h
  have hlt : i < (descriptors m).length := by simpa [descriptors] using hi
  rw [List.getElem?_append_left hlt]
  simp [descriptors, hi]

theorem getElem?_descriptors {len i : Nat} {fd : Int} :
    (descriptors len)[i]? = some fd ↔ i < len ∧ (i : Int) = fd := by
  by_cases hi : i < len
  · simp [descriptors, hi]
  · simp [descriptors, hi]

/-- With the index of each socket as its descriptor, what the loop reports is right. -/
theorem Waiting.reports {len num : Nat} {s : State} (h : Waiting len s) (henough : num ≤ s.listed)
    (hadded : s.added = descriptors len) :
    Reports (descriptors len) num (.returned 0, s) where
  registered := hadded ▸ List.prefix_refl _
  allRegistered := fun _ => hadded
  distinct := fun _ => (List.nodup_append.mp h.nodup).1
  bounded := by
    intro _ i hi
    have hmem := h.perm.mem_iff.mp (List.mem_append_left (indices s.epoll) hi)
    simpa [descriptors] using hmem
  enough := by
    intro _
    simpa [State.listed, Nat.add_comm] using henough
  triggered := by
    intro _ i
    simp only [getElem?_descriptors]
    constructor
    · intro hi
      have hmem := h.perm.mem_iff.mp
        (List.mem_append_left (indices s.epoll) (List.mem_append_left s.error hi))
      obtain ⟨ev, hev, hin, hfd⟩ := (h.triggered i).mp hi
      exact ⟨ev, hev, hin, List.mem_range.mp hmem, hfd.symm⟩
    · rintro ⟨ev, hev, hin, -, hfd⟩
      exact (h.triggered i).mpr ⟨ev, hev, hin, hfd.symm⟩
  error := by
    intro _ i
    simp only [getElem?_descriptors]
    constructor
    · intro hi
      have hmem := h.perm.mem_iff.mp
        (List.mem_append_left (indices s.epoll) (List.mem_append_right s.triggered hi))
      obtain ⟨ev, hev, hflags, hfd⟩ := (h.error i).mp hi
      exact ⟨ev, hev, hflags, List.mem_range.mp hmem, hfd.symm⟩
    · rintro ⟨ev, hev, hflags, -, hfd⟩
      exact (h.error i).mpr ⟨ev, hev, hflags, hfd.symm⟩

/-- `TCPWaitToRead` registers and reports the right sockets exactly when every socket up to the
first one whose registration fails has its own index as descriptor. -/
theorem right_sockets_iff (sks : List Int) (num : Nat) (hpos : 0 < num) (hnum : num ≤ sks.length)
    (timeout : Int) (adds : Nat → Bool) (waits : List Wait)
    (hposs : (tcpWaitToRead sks num timeout adds waits).1 ≠ .impossible) :
    Reports sks num (tcpWaitToRead sks num timeout adds waits) ↔
      ∀ i < sks.length, (∀ j ≤ i, adds j = true) → sks[i]? = some (i : Int) := by
  rcases tcpWaitToRead_cases hpos hnum timeout adds waits with
    ⟨m, hm, hall, hfail, heq⟩ | ⟨hall, heq⟩
  · rw [heq]
    -- the indices below `m` are those with every registration up to them successful
    have hbelow : ∀ i, (∀ j ≤ i, adds j = true) ↔ i < m := by
      intro i
      constructor
      · intro hadds
        refine Nat.lt_of_not_le fun hle => ?_
        have hm' := hadds m hle
        rw [hfail] at hm'
        contradiction
      · intro hi j hj
        exact hall j (Nat.lt_of_le_of_lt hj hi)
    simp only [hbelow]
    constructor
    · intro hrep i _ hi
      exact getElem?_of_descriptors_prefix hrep.registered hi
    · intro hsks
      have hpre := descriptors_prefix fun i hi => hsks i (Nat.lt_trans hi hm) hi
      exact .of_ne_zero (fun h => absurd (Outcome.returned.inj h) (by decide)) hpre
        fun h => absurd rfl h
  · rw [heq] at hposs ⊢
    obtain ⟨hadded, hne, hzero⟩ := waitLoop_spec (waiting_allRegistered sks.length) hposs
    constructor
    · intro hrep i hi _
      refine getElem?_of_descriptors_prefix (m := sks.length) ?_ hi
      have hpre := hrep.registered
      rwa [hadded] at hpre
    · intro hsks
      have hpre : descriptors sks.length <+: sks :=
        descriptors_prefix fun i hi =>
          hsks i hi fun j hj => hall j (Nat.lt_of_le_of_lt hj hi)
      have hall' : descriptors sks.length = sks := hpre.eq_of_length (by simp [descriptors])
      generalize waitLoop sks.length num waits timeout (allRegistered sks.length) = r at *
      obtain ⟨o, s⟩ := r
      have hadded' : s.added = descriptors sks.length := hadded
      by_cases ho : o = .returned 0
      · subst ho
        obtain ⟨hwait, henough⟩ := hzero rfl
        have hrep := hwait.reports henough hadded'
        rwa [hall'] at hrep
      · have hsame : s.added = sks := hadded'.trans hall'
        exact .of_ne_zero ho (hsame ▸ List.prefix_refl _) fun _ => hsame

/-- Sockets with the descriptors 0 and 1, of which the second is reported. -/
theorem secondSocket_reported :
    Reports [0, 1] 1
      (tcpWaitToRead [0, 1] 1 1000 (fun _ => true) [.events [⟨1, true, false⟩]]) := by
  refine (right_sockets_iff [0, 1] 1 (by decide) (by decide) 1000 (fun _ => true)
    [.events [⟨1, true, false⟩]] (by decide +kernel)).mpr ?_
  intro i hi _
  have hlt : i < 2 := hi
  rcases i with _ | _ | i
  · rfl
  · rfl
  · omega

/-- For the socket with the descriptor 7 the function waits for descriptor 0, and it returns 0 when
that one has input. -/
theorem stdin_in_its_place :
    (tcpWaitToRead [7] 1 1000 (fun _ => true) [.events [⟨0, true, false⟩]]).1 = .returned 0 ∧
    (tcpWaitToRead [7] 1 1000 (fun _ => true) [.events [⟨0, true, false⟩]]).2.added = [0] ∧
    ¬ Reports [7] 1 (tcpWaitToRead [7] 1 1000 (fun _ => true) [.events [⟨0, true, false⟩]]) := by
  refine ⟨by decide +kernel, by decide +kernel, fun h => ?_⟩
  have hadded := h.allRegistered (by decide +kernel)
  revert hadded
  decide +kernel

/-! ## 8. Time-out and clean-up -/

/-- A time-out makes the function return -1, and when it returns nothing is left registered, so that
the next call finds the epoll set this one found. -/
structure CleansUp (r : Outcome × State) : Prop where
  timeout : r.2.timedOut = true → r.1 = .returned (-1)
  clean : ∀ code, r.1 = .returned code → r.2.epoll = []

/-- What epoll must do from where `n` sockets are listed: no time-out, no failure, after an
interrupt more than 10 milliseconds left, and every socket reported by the time that `num` of them
are.  It no longer matters after an event that is not supported. -/
def Completes (len num : Nat) : Nat → Int → List Wait → Prop
  | _, _, [] => True
  | _, _, .failed :: _ => False
  | n, timeout, .interrupted elapsed :: ws =>
    10 < timeout - elapsed ∧ Completes len num n (timeout - elapsed) ws
  | n, timeout, .events evs :: ws =>
    (∃ ev ∈ evs, Unsupported ev) ∨
      evs ≠ [] ∧
        if num ≤ n + evs.length then n + evs.length = len
        else Completes len num (n + evs.length) timeout ws

theorem not_cleansUp_of_registered {r : Outcome × State} {code : Int} (hr : r.1 = .returned code)
    (hepoll : r.2.epoll ≠ []) : ¬ CleansUp r := fun h => hepoll (h.clean code hr)

theorem cleansUp_iff_of_not_returned {r : Outcome × State} (hr : ∀ code, r.1 ≠ .returned code) :
    CleansUp r ↔ r.2.timedOut = false := by
  constructor
  · intro h
    exact Bool.eq_false_iff.mpr fun htimed => hr (-1) (h.timeout htimed)
  · intro htimed
    exact ⟨fun h => absurd (htimed ▸ h) Bool.false_ne_true, fun code h => absurd h (hr code)⟩

/-- While too few sockets are listed, some are registered. -/
theorem Waiting.epoll_ne_nil {len num : Nat} {s : State} (h : Waiting len s) (hnum : num ≤ len)
    (hfew : s.listed < num) : s.epoll ≠ [] := by
  intro hnil
  have hlen := h.length
  rw [hnil, List.length_nil] at hlen
  omega

theorem Waiting.epoll_eq_nil_iff {len : Nat} {s : State} (h : Waiting len s) :
    s.epoll = [] ↔ s.listed = len := by
  rw [← List.length_eq_zero_iff]
  have hlen := h.length
  omega

/-- The waiting loop cleans up exactly when no time-out came before it and epoll lets it
complete. -/
theorem waitLoop_cleansUp {len num : Nat} (hnum : num ≤ len) {ws : List Wait} :
    ∀ {timeout : Int} {s : State}, Waiting len s → s.listed < num →
      (waitLoop len num ws timeout s).1 ≠ .impossible →
      (CleansUp (waitLoop len num ws timeout s) ↔
        s.timedOut = false ∧ Completes len num s.listed timeout ws) := by
  induction ws with
  | nil =>
    intro timeout s hs hfew _
    simp only [waitLoop, Completes, and_true]
    exact cleansUp_iff_of_not_returned fun _ => Outcome.noConfusion
  | cons w ws ih =>
    intro timeout s hs hfew hposs
    have hnil := hs.epoll_ne_nil hnum hfew
    rcases w with evs | elapsed | _
    · by_cases hp : Possible len s.epoll evs
      · rcases waitLoop_events hs hp num ws timeout with
          ⟨hodd, hloop⟩ | ⟨hevs, t, ht, hlisted, -, htimed, hloop⟩
        · have hne : evs.isEmpty = false := by
            obtain ⟨ev, hev, -⟩ := hodd
            exact List.isEmpty_eq_false_iff_exists_mem.mpr ⟨ev, hev⟩
          rw [hloop, cleansUp_iff_of_not_returned fun _ => Outcome.noConfusion]
          simp only [Completes, hodd, hne, true_or, and_true, Bool.or_false]
        · have hsupported : ¬ ∃ ev ∈ evs, Unsupported ev := fun ⟨ev, hev, hun⟩ => hevs ev hev hun
          have htimed' : t.timedOut = false ↔ s.timedOut = false ∧ evs ≠ [] := by
            rw [htimed, Bool.or_eq_false_iff, List.isEmpty_eq_false_iff]
          simp only [Completes, hsupported, false_or, ← and_assoc, ← htimed', ← hlisted]
          by_cases henough : num ≤ t.listed
          · rw [hloop, if_pos henough, if_pos henough, ← ht.epoll_eq_nil_iff]
            constructor
            · intro h
              refine ⟨Bool.eq_false_iff.mpr fun hout => ?_, h.clean 0 rfl⟩
              exact absurd (Outcome.returned.inj (h.timeout hout)) (by decide)
            · rintro ⟨hout, hclean⟩
              exact ⟨fun h => absurd (hout ▸ h) Bool.false_ne_true, fun _ _ => hclean⟩
          · rw [hloop, if_neg henough] at hposs ⊢
            rw [if_neg henough]
            exact ih ht (Nat.lt_of_not_le henough) hposs
      · simp [waitLoop, hp] at hposs
    · by_cases hout : timeout - elapsed ≤ 10
      · have hret : waitLoop len num (.interrupted elapsed :: ws) timeout s =
            (.returned (-1), s) := by
          simp only [waitLoop, hout, if_true]
        rw [hret]
        refine iff_of_false (not_cleansUp_of_registered rfl hnil) ?_
        rintro ⟨-, hlt, -⟩
        omega
      · simp only [waitLoop, hout, if_false] at hposs ⊢
        rw [ih hs hfew hposs]
        simp only [Completes, Int.not_le.mp hout, true_and]
    · exact iff_of_false (not_cleansUp_of_registered rfl hnil) fun h => h.2

/-- `TCPWaitToRead` keeps to its time-out and cleans up exactly when a registration fails or epoll
lets it complete. -/
theorem cleans_up_iff (sks : List Int) (num : Nat) (hpos : 0 < num) (hnum : num ≤ sks.length)
    (timeout : Int) (adds : Nat → Bool) (waits : List Wait)
    (hposs : (tcpWaitToRead sks num timeout adds waits).1 ≠ .impossible) :
    CleansUp (tcpWaitToRead sks num timeout adds waits) ↔
      (∃ i < sks.length, adds i = false) ∨ Completes sks.length num 0 timeout waits := by
  rcases tcpWaitToRead_cases hpos hnum timeout adds waits with
    ⟨m, hm, -, hfail, heq⟩ | ⟨hall, heq⟩
  · rw [heq]
    exact iff_of_true ⟨fun h => absurd h Bool.false_ne_true, fun _ _ => rfl⟩ (.inl ⟨m, hm, hfail⟩)
  · rw [heq] at hposs ⊢
    have hnone : ¬ ∃ i < sks.length, adds i = false := by
      rintro ⟨i, hi, hfail⟩
      rw [hall i hi] at hfail
      contradiction
    rw [waitLoop_cleansUp hnum (waiting_allRegistered sks.length) hpos hposs, or_iff_right hnone]
    exact and_iff_right rfl

/-- Both of two sockets are reported, one after the other. -/
theorem bothReported_cleansUp :
    CleansUp (tcpWaitToRead [0, 1] 2 1000 (fun _ => true)
      [.events [⟨1, true, false⟩], .events [⟨0, true, false⟩]]) := by
  refine (cleans_up_iff [0, 1] 2 (by decide) (by decide) 1000 (fun _ => true)
    [.events [⟨1, true, false⟩], .events [⟨0, true, false⟩]] (by decide +kernel)).mpr (.inr ?_)
  exact .inr ⟨by decide, .inr ⟨by decide, rfl⟩⟩

/-- After a time-out the function waits on, and when it is then interrupted it returns -1 with the
socket still registered. -/
theorem timeout_ignored :
    (tcpWaitToRead [0] 1 1000 (fun _ => true) [.events []]).1 = .waiting ∧
    (tcpWaitToRead [0] 1 1000 (fun _ => true) [.events [], .interrupted 1000]) =
      (.returned (-1), { epoll := [entry 0], added := [0], timedOut := true }) ∧
    ¬ CleansUp (tcpWaitToRead [0] 1 1000 (fun _ => true) [.events []]) ∧
    ¬ CleansUp (tcpWaitToRead [0] 1 1000 (fun _ => true) [.events [], .interrupted 1000]) := by
  have hwait : tcpWaitToRead [0] 1 1000 (fun _ => true) [.events []] =
      (.waiting, { epoll := [entry 0], added := [0], timedOut := true }) := by decide +kernel
  have hret : tcpWaitToRead [0] 1 1000 (fun _ => true) [.events [], .interrupted 1000] =
      (.returned (-1), { epoll := [entry 0], added := [0], timedOut := true }) := by decide +kernel
  refine ⟨by rw [hwait], hret, fun h => ?_, fun h => ?_⟩
  · rw [hwait] at h
    exact Outcome.noConfusion (h.timeout rfl)
  · rw [hret] at h
    exact absurd (h.clean (-1) rfl) (List.cons_ne_nil _ _)

end Kknf.AllSync.WaitToRead
