/-
# The pool of connections: `ConnectionPool`

`connection_pool_` has a list of connections for each key.  `GetIdleConnection` should hand one of
them out, or none, to a caller that then has it for itself until `UnUse`; `DeleteConnection` should
close one and take it out of the list.

The flag `in_use_` does what it is for, `UnUse` outside the lock or not: a connection has one user
at most in every state of every run (`step_exclusive`), so what is handed out is nobody else's.  But

* `GetIdleConnection` has no `return` behind its loop.  When there is a list for the key and no
  connection of it is idle, the function ends without a value, which C++ leaves undefined;
* the test of `DeleteConnection` is the wrong way round.  It returns at once when there is a list
  for the key, and goes on with the iterator `end()` when there is none.  So no connection is ever
  closed or taken out of its list, and a "deleted" one is handed out again.

`pool_right_iff` says that the pool is right in exactly the runs without `DeleteConnection` in which
`GetIdleConnection` finds an idle connection whenever there is a list for the key.

The readings of the text: `connection_map_` is `connection_pool_`, and `ret` in `DeleteConnection`
is the iterator that `std::find` returns.  A `ConnectionKey` is a value of any type with an
equality.
-/
import Kknf.Lib.Run
import Kknf.Lib.StdMap

namespace Kknf.Asio

open Kknf.Run

/-! ## 1. Data -/

abbrev ConnId := Nat

/-- A thread or a handler that asks for connections. -/
abbrev Caller := Nat

structure BasicConnection where
  inUse : Bool
  connected : Bool
  /-- `socket().close()` has been called -/
  closed : Bool

/-- `BasicConnection::BasicConnection`. -/
def BasicConnection.new : BasicConnection := ⟨false, false, false⟩

/-- The pool and its connections, and what the callers know: who uses a connection, and what has
been inserted under which key. -/
structure ConnectionPool (κ : Type*) where
  heap : ConnId → BasicConnection
  connectionPool : StdMap κ (List ConnId)
  users : ConnId → List Caller
  inserted : List (κ × ConnId)

inductive Fault
  /-- `BOOST_ASSERT(in_use_ == false)` in `Use` -/
  | assertUse
  /-- `BOOST_ASSERT(in_use_ == true)` in `UnUse` -/
  | assertUnUse
  /-- the end of a function that has to return a value -/
  | noReturn
  /-- `it->second` where `it` is `end()` -/
  | endDeref
  deriving DecidableEq

variable {κ : Type*}

namespace ConnectionPool

/-- The pool of a program that starts, with all the connections it is going to construct. -/
def init : ConnectionPool κ := ⟨fun _ => .new, .empty, fun _ => [], []⟩

def setConnection (s : ConnectionPool κ) (i : ConnId) (c : BasicConnection) : ConnectionPool κ :=
  { s with heap := Function.update s.heap i c }

/-! ## 2. The functions -/

/-- `BasicConnection::Use`. -/
def use (s : ConnectionPool κ) (i : ConnId) : Except Fault (ConnectionPool κ) :=
  if (s.heap i).inUse = false then
    .ok (s.setConnection i { s.heap i with inUse := true })
  else .error .assertUse

/-- `BasicConnection::UnUse`. -/
def unUse (s : ConnectionPool κ) (i : ConnId) : Except Fault (ConnectionPool κ) :=
  if (s.heap i).inUse = true then
    .ok (s.setConnection i { s.heap i with inUse := false })
  else .error .assertUnUse

/-- `BasicConnection::set_connected`. -/
def setConnected (s : ConnectionPool κ) (i : ConnId) (connected : Bool) : ConnectionPool κ :=
  s.setConnection i { s.heap i with connected := connected }

/-- `socket().close()`. -/
def close (s : ConnectionPool κ) (i : ConnId) : ConnectionPool κ :=
  s.setConnection i { s.heap i with closed := true }

/-- The test of the loop of `GetIdleConnection`. -/
def idle (s : ConnectionPool κ) (i : ConnId) : Bool :=
  !(s.heap i).inUse && (s.heap i).connected

theorem setConnection_closed {s : ConnectionPool κ} {i j : ConnId} {c : BasicConnection}
    (hc : c.closed = (s.heap i).closed) :
    ((s.setConnection i c).heap j).closed = (s.heap j).closed := by
  by_cases hj : j = i
  · subst hj
    simp [setConnection, hc]
  · simp [setConnection, Function.update_of_ne hj]

theorem use_ok {s t : ConnectionPool κ} {i : ConnId} :
    s.use i = .ok t ↔ (s.heap i).inUse = false ∧
      t = s.setConnection i { s.heap i with inUse := true } := by
  unfold use
  split
  · rename_i hfree
    simp [hfree, eq_comm]
  · rename_i hused
    simp [hused]

theorem unUse_ok {s t : ConnectionPool κ} {i : ConnId} :
    s.unUse i = .ok t ↔ (s.heap i).inUse = true ∧
      t = s.setConnection i { s.heap i with inUse := false } := by
  unfold unUse
  split
  · rename_i hused
    simp [hused, eq_comm]
  · rename_i hfree
    simp [hfree]

theorem idle_iff {s : ConnectionPool κ} {i : ConnId} :
    s.idle i = true ↔ (s.heap i).inUse = false ∧ (s.heap i).connected = true := by
  simp [idle]

variable [DecidableEq κ]

def getIdleConnection (s : ConnectionPool κ) (key : κ) :
    Except Fault (Option ConnId × ConnectionPool κ) :=
  match s.connectionPool.find key with
  | none => .ok (none, s)
  | some list =>
    match list.find? s.idle with
    | some i => (s.use i).map fun t => (some i, t)
    -- behind the loop there is no `return`
    | none => .error .noReturn

def insertConnection (s : ConnectionPool κ) (key : κ) (newConnection : ConnId) :
    ConnectionPool κ :=
  match s.connectionPool.find key with
  | some list => { s with connectionPool := s.connectionPool.set key (list ++ [newConnection]) }
  | none => { s with connectionPool := s.connectionPool.set key [newConnection] }

/-- `it->second`. -/
def second : Option (List ConnId) → Except Fault (List ConnId)
  | some list => .ok list
  | none => .error .endDeref

def deleteConnection (s : ConnectionPool κ) (key : κ) (exactConnection : ConnId) :
    Except Fault (ConnectionPool κ) :=
  -- `none` is `end()`
  let it := s.connectionPool.find key
  if it.isSome then .ok s
  else
    (second it).map fun list =>
      let rest := list.erase exactConnection
      ({ s with connectionPool := s.connectionPool.set key rest }).close exactConnection

end ConnectionPool

open ConnectionPool

/-! ## 3. The flag and the users -/

/-- A connection has one user when its flag is set, and none otherwise. -/
def Exclusive (s : ConnectionPool κ) : Prop :=
  ∀ i, (s.users i).length = if (s.heap i).inUse = true then 1 else 0

theorem Exclusive.unused {s : ConnectionPool κ} (h : Exclusive s) {i : ConnId}
    (hfree : (s.heap i).inUse = false) : s.users i = [] := by
  have hlen := h i
  rw [if_neg (by simp [hfree])] at hlen
  exact List.length_eq_zero_iff.mp hlen

theorem Exclusive.flag_of_unused {s : ConnectionPool κ} (h : Exclusive s) {i : ConnId}
    (hnone : s.users i = []) : (s.heap i).inUse = false := by
  by_contra hused
  have hlen := h i
  rw [hnone, if_pos (by simpa using hused)] at hlen
  simp at hlen

theorem Exclusive.flag_of_used {s : ConnectionPool κ} (h : Exclusive s) {i : ConnId}
    {caller : Caller} (hu : caller ∈ s.users i) : (s.heap i).inUse = true := by
  by_contra hfree
  have hnone := h.unused (by simpa using hfree)
  simp [hnone] at hu

/-- Only the connection that a step is about has to be looked at. -/
theorem Exclusive.update {s t : ConnectionPool κ} (h : Exclusive s) (i : ConnId)
    (hother : ∀ j, j ≠ i → t.users j = s.users j ∧ (t.heap j).inUse = (s.heap j).inUse)
    (hthis : (t.users i).length = if (t.heap i).inUse = true then 1 else 0) : Exclusive t := by
  intro j
  by_cases hj : j = i
  · rw [hj]
    exact hthis
  · obtain ⟨husers, hflag⟩ := hother j hj
    rw [husers, hflag]
    exact h j

/-! ## 4. Runs -/

/-- A step of a caller.  The locked functions are one step each, and `UnUse` may come between any
two of them. -/
inductive Event (κ : Type*)
  /-- `Use` by who has made the connection -/
  | use (caller : Caller) (i : ConnId)
  | unUse (caller : Caller) (i : ConnId)
  | setConnected (i : ConnId) (connected : Bool)
  | insertConnection (key : κ) (i : ConnId)
  | getIdleConnection (caller : Caller) (key : κ)
  | deleteConnection (key : κ) (i : ConnId)

/-- The caller has the connection from now on. -/
def ConnectionPool.taken (s : ConnectionPool κ) (caller : Caller) (i : ConnId) :
    ConnectionPool κ :=
  { s with users := Function.update s.users i (caller :: s.users i) }

/-- The caller has done with the connection. -/
def ConnectionPool.givenBack (s : ConnectionPool κ) (caller : Caller) (i : ConnId) :
    ConnectionPool κ :=
  { s with users := Function.update s.users i ((s.users i).erase caller) }

variable [DecidableEq κ]

def step (s : ConnectionPool κ) : Event κ → Except Fault (ConnectionPool κ)
  | .use caller i => (s.use i).map fun t => t.taken caller i
  | .unUse caller i => (s.unUse i).map fun t => t.givenBack caller i
  | .setConnected i connected => .ok (s.setConnected i connected)
  | .insertConnection key i =>
    .ok { s.insertConnection key i with inserted := (key, i) :: s.inserted }
  | .getIdleConnection caller key =>
    (s.getIdleConnection key).map fun r =>
      match r.1 with
      | some i => r.2.taken caller i
      | none => r.2
  | .deleteConnection key i => s.deleteConnection key i

/-- What callers do: `Use` is for a connection that one has made, that is in no pool and that nobody
uses, and `UnUse` for a connection that one uses. -/
def Permitted (s : ConnectionPool κ) : Event κ → Prop
  | .use _ i => s.users i = [] ∧ i ∉ s.inserted.map Prod.snd
  | .unUse caller i => caller ∈ s.users i
  | _ => True

instance (s : ConnectionPool κ) : ∀ e, Decidable (Permitted s e)
  | .use _ _ => inferInstanceAs (Decidable (_ ∧ _))
  | .unUse _ _ => inferInstanceAs (Decidable (_ ∈ _))
  | .setConnected _ _ | .insertConnection _ _ | .getIdleConnection _ _ | .deleteConnection _ _ =>
    isTrue trivial

/-! ## 5. What the pool should do -/

/-- `GetIdleConnection` returns nothing, or a connected connection that was inserted under the key
and that nobody uses. -/
def GetRight (s : ConnectionPool κ) (key : κ) : Prop :=
  ∃ r t, s.getIdleConnection key = .ok (r, t) ∧
    ∀ i, r = some i → (s.heap i).connected = true ∧ (key, i) ∈ s.inserted ∧ s.users i = []

/-- `DeleteConnection` closes the connection and takes it, and nothing else, out of the pool. -/
structure DeleteRight (s : ConnectionPool κ) (key : κ) (i : ConnId) (t : ConnectionPool κ) :
    Prop where
  closed : (t.heap i).closed = true
  removed : t.connectionPool.listAt key = (s.connectionPool.listAt key).filter (· ≠ i)
  others : ∀ key', key' ≠ key → t.connectionPool.listAt key' = s.connectionPool.listAt key'

/-- The connection is not returned in the run. -/
def NotReturned (s : ConnectionPool κ) (es : List (Event κ)) (i : ConnId) : Prop :=
  ∀ pre caller key post t u, es = pre ++ .getIdleConnection caller key :: post →
    exec step s pre = .ok t → t.getIdleConnection key ≠ .ok (some i, u)

/-- The run goes through, and each step of it is right. -/
structure Right (es : List (Event κ)) : Prop where
  executes : ∃ t, exec step init es = .ok t
  gets : ∀ pre caller key post s, es = pre ++ .getIdleConnection caller key :: post →
    exec step init pre = .ok s → GetRight s key
  deletes : ∀ pre key i post s t, es = pre ++ .deleteConnection key i :: post →
    exec step init pre = .ok s → step s (.deleteConnection key i) = .ok t →
      DeleteRight s key i t ∧ NotReturned t post i

/-- `GetIdleConnection` finds no list for the key, or an idle connection in it; and
`DeleteConnection` is not called. -/
def Answers (s : ConnectionPool κ) : Event κ → Prop
  | .getIdleConnection _ key =>
    s.connectionPool.find key = none ∨ ∃ i ∈ s.connectionPool.listAt key, s.idle i = true
  | .deleteConnection _ _ => False
  | _ => True

instance (s : ConnectionPool κ) : ∀ e, Decidable (Answers s e)
  | .getIdleConnection _ _ => inferInstanceAs (Decidable (_ ∨ _))
  | .deleteConnection _ _ => isFalse id
  | .use _ _ | .unUse _ _ | .setConnected _ _ | .insertConnection _ _ => isTrue trivial

/-! ## 6. What each function does -/

/-- What `GetIdleConnection` returns, when it returns: nothing for a key without a list, else an
idle connection of the list, which is in use from then on. -/
theorem getIdleConnection_ok {s t : ConnectionPool κ} {key : κ} {r : Option ConnId}
    (h : s.getIdleConnection key = .ok (r, t)) :
    (s.connectionPool.find key = none ∧ r = none ∧ t = s) ∨
      ∃ i ∈ s.connectionPool.listAt key, s.idle i = true ∧ r = some i ∧ s.use i = .ok t := by
  unfold getIdleConnection at h
  split at h
  · rename_i hnone
    cases h
    exact .inl ⟨hnone, rfl, rfl⟩
  · rename_i list hlist
    split at h
    · rename_i i hi
      obtain ⟨u, hu, heq⟩ := map_eq_ok.mp h
      cases heq
      refine .inr ⟨i, ?_, List.find?_some hi, rfl, hu⟩
      simpa [StdMap.listAt, hlist] using List.mem_of_find?_eq_some hi
    · cases h

/-- **`GetIdleConnection` returns exactly when there is no list for the key or an idle connection in
it.** -/
theorem getIdleConnection_returns_iff {s : ConnectionPool κ} {key : κ} :
    (∃ r, s.getIdleConnection key = .ok r) ↔
      s.connectionPool.find key = none ∨
        ∃ i ∈ s.connectionPool.listAt key, s.idle i = true := by
  constructor
  · rintro ⟨⟨r, t⟩, h⟩
    rcases getIdleConnection_ok h with ⟨hnone, -, -⟩ | ⟨i, hi, hidle, -, -⟩
    · exact .inl hnone
    · exact .inr ⟨i, hi, hidle⟩
  · intro h
    unfold getIdleConnection
    cases hlist : s.connectionPool.find key with
    | none => exact ⟨(none, s), rfl⟩
    | some list =>
      obtain ⟨i, hi, hidle⟩ : ∃ i ∈ list, s.idle i = true := by
        simpa [hlist, StdMap.listAt] using h
      obtain ⟨j, hj⟩ := Option.isSome_iff_exists.mp (List.find?_isSome.mpr ⟨i, hi, hidle⟩)
      have hfree := (idle_iff.mp (List.find?_some hj)).1
      have huse : s.use j = .ok _ := use_ok.mpr ⟨hfree, rfl⟩
      exact ⟨_, by simp only [hj, huse]; rfl⟩

/-- Insertion is `connection_pool_[key].push_back(new_connection)`. -/
theorem insertConnection_eq (s : ConnectionPool κ) (key : κ) (i : ConnId) :
    s.insertConnection key i =
      { s with connectionPool := s.connectionPool.pushBack key i } := by
  unfold insertConnection StdMap.pushBack StdMap.listAt
  cases s.connectionPool.find key with
  | none => rfl
  | some list => rfl

/-- **`DeleteConnection` does nothing** when it does not read behind the map. -/
theorem deleteConnection_ok {s t : ConnectionPool κ} {key : κ} {i : ConnId} :
    s.deleteConnection key i = .ok t ↔ s.connectionPool.find key ≠ none ∧ t = s := by
  unfold deleteConnection
  cases hlist : s.connectionPool.find key with
  | none => simp [second, Except.map]
  | some list => simp [eq_comm]

/-- What a step can change. -/
inductive Change (s : ConnectionPool κ) : Event κ → ConnectionPool κ → Prop
  | taken {e : Event κ} (caller : Caller) (i : ConnId) (hfree : (s.heap i).inUse = false) :
    Change s e ((s.setConnection i { s.heap i with inUse := true }).taken caller i)
  | givenBack (caller : Caller) (i : ConnId) (hused : (s.heap i).inUse = true) :
    Change s (.unUse caller i)
      ((s.setConnection i { s.heap i with inUse := false }).givenBack caller i)
  | connected (i : ConnId) (c : Bool) : Change s (.setConnected i c) (s.setConnected i c)
  | inserted (key : κ) (i : ConnId) :
    Change s (.insertConnection key i)
      { s with
        connectionPool := s.connectionPool.pushBack key i
        inserted := (key, i) :: s.inserted }
  | nothing {e : Event κ} : Change s e s

theorem step_change {s t : ConnectionPool κ} {e : Event κ} (hst : step s e = .ok t) :
    Change s e t := by
  cases e with
  | use caller i =>
    obtain ⟨u, hu, rfl⟩ := map_eq_ok.mp hst
    obtain ⟨hfree, rfl⟩ := use_ok.mp hu
    exact .taken caller i hfree
  | unUse caller i =>
    obtain ⟨u, hu, rfl⟩ := map_eq_ok.mp hst
    obtain ⟨hused, rfl⟩ := unUse_ok.mp hu
    exact .givenBack caller i hused
  | setConnected i c =>
    cases hst
    exact .connected i c
  | insertConnection key i =>
    cases hst
    rw [insertConnection_eq]
    exact .inserted key i
  | getIdleConnection caller key =>
    obtain ⟨⟨r, u⟩, hget, rfl⟩ := map_eq_ok.mp hst
    rcases getIdleConnection_ok hget with ⟨-, rfl, rfl⟩ | ⟨i, -, -, rfl, hu⟩
    · exact .nothing
    · obtain ⟨hfree, rfl⟩ := use_ok.mp hu
      exact .taken caller i hfree
  | deleteConnection key i =>
    obtain ⟨-, rfl⟩ := deleteConnection_ok.mp hst
    exact .nothing

/-- **A connection has one user at most**: every step that callers make keeps it so. -/
theorem step_exclusive {s t : ConnectionPool κ} {e : Event κ} (h : Exclusive s)
    (hp : Permitted s e) (hst : step s e = .ok t) : Exclusive t := by
  cases step_change hst with
  | taken caller i hfree =>
    have hnone := h.unused hfree
    refine h.update i (fun j hj => ?_) ?_
    · simp [ConnectionPool.taken, setConnection, Function.update_of_ne hj]
    · simp [ConnectionPool.taken, setConnection, hnone]
  | givenBack caller i hused =>
    have hone : (s.users i).length = 1 := by rw [h i, if_pos hused]
    -- the caller that gives it back is the one user
    have hlen := List.length_erase_of_mem (show caller ∈ s.users i from hp)
    refine h.update i (fun j hj => ?_) ?_
    · simp [ConnectionPool.givenBack, setConnection, Function.update_of_ne hj]
    · simp [ConnectionPool.givenBack, setConnection, hlen, hone]
  | connected i c =>
    refine h.update i (fun j hj => ?_) ?_
    · simp [setConnected, setConnection, Function.update_of_ne hj]
    · simpa [setConnected, setConnection] using h i
  | inserted key i => exact h
  | nothing => exact h

/-! ## 7. The runs in which the pool is right -/

/-- The states of the runs: besides, what is in the pool was inserted there, and no connection is
closed, by `DeleteConnection` or otherwise. -/
structure Inv (s : ConnectionPool κ) : Prop where
  exclusive : Exclusive s
  inserted : ∀ key, ∀ i ∈ s.connectionPool.listAt key, (key, i) ∈ s.inserted
  unclosed : ∀ i, (s.heap i).closed = false

theorem init_inv : Inv (init : ConnectionPool κ) where
  exclusive := fun _ => rfl
  inserted := fun _ _ hi => absurd hi List.not_mem_nil
  unclosed := fun _ => rfl

/-- What is in a list of the pool was in it before, or has just been inserted. -/
theorem step_inserted {s t : ConnectionPool κ} {e : Event κ}
    (h : ∀ key, ∀ i ∈ s.connectionPool.listAt key, (key, i) ∈ s.inserted)
    (hst : step s e = .ok t) : ∀ key, ∀ i ∈ t.connectionPool.listAt key, (key, i) ∈ t.inserted := by
  cases step_change hst with
  | taken caller i hfree => exact h
  | givenBack caller i hused => exact h
  | connected i c => exact h
  | inserted key i =>
    intro key' j hj
    rw [StdMap.listAt_pushBack] at hj
    split at hj
    · rename_i hkey
      subst hkey
      rcases List.mem_append.mp hj with hold | hnew
      · exact List.mem_cons_of_mem _ (h key' j hold)
      · cases List.mem_singleton.mp hnew
        exact List.mem_cons_self
    · exact List.mem_cons_of_mem _ (h key' j hj)
  | nothing => exact h

/-- **No step closes a connection.** -/
theorem step_closed {s t : ConnectionPool κ} {e : Event κ} (hst : step s e = .ok t)
    (j : ConnId) : (t.heap j).closed = (s.heap j).closed := by
  cases step_change hst with
  | taken caller i hfree => exact setConnection_closed rfl
  | givenBack caller i hused => exact setConnection_closed rfl
  | connected i c => exact setConnection_closed rfl
  | inserted key i => rfl
  | nothing => rfl

theorem step_inv {s t : ConnectionPool κ} {e : Event κ} (h : Inv s) (hp : Permitted s e)
    (hst : step s e = .ok t) : Inv t where
  exclusive := step_exclusive h.exclusive hp hst
  inserted := step_inserted h.inserted hst
  unclosed := fun i => (step_closed hst i).trans (h.unclosed i)

/-- The invariant at each place of a run. -/
theorem inv_at {es pre post : List (Event κ)} {s : ConnectionPool κ}
    (hp : Along step Permitted init es) (heq : es = pre ++ post)
    (hs : exec step init pre = .ok s) : Inv s := by
  have hpre : Along step Permitted init pre := hp.of_isPrefix ⟨post, heq.symm⟩
  exact hpre.invariant (fun _ _ _ ht he hu => step_inv ht he hu) init_inv hs

/-- What `GetIdleConnection` returns is right. -/
theorem Inv.getRight {s : ConnectionPool κ} (h : Inv s) {caller : Caller} {key : κ}
    (ha : Answers s (.getIdleConnection caller key)) : GetRight s key := by
  obtain ⟨⟨r, t⟩, hget⟩ := getIdleConnection_returns_iff.mpr ha
  refine ⟨r, t, hget, fun i hr => ?_⟩
  rcases getIdleConnection_ok hget with ⟨-, rfl, -⟩ | ⟨j, hj, hidle, rfl, -⟩
  · cases hr
  · cases hr
    obtain ⟨hfree, hconn⟩ := idle_iff.mp hidle
    exact ⟨hconn, h.inserted key i hj, h.exclusive.unused hfree⟩

/-- A step that callers make and that is answered succeeds: no assertion fails. -/
theorem Inv.progress {s : ConnectionPool κ} (h : Inv s) {e : Event κ} (hp : Permitted s e)
    (ha : Answers s e) : ∃ t, step s e = .ok t ∧ Inv t := by
  have hok : ∃ t, step s e = .ok t := by
    cases e with
    | use caller i =>
      have hfree := h.exclusive.flag_of_unused hp.1
      exact ⟨_, map_eq_ok.mpr ⟨_, use_ok.mpr ⟨hfree, rfl⟩, rfl⟩⟩
    | unUse caller i =>
      have hused := h.exclusive.flag_of_used hp
      exact ⟨_, map_eq_ok.mpr ⟨_, unUse_ok.mpr ⟨hused, rfl⟩, rfl⟩⟩
    | setConnected i connected => exact ⟨_, rfl⟩
    | insertConnection key i => exact ⟨_, rfl⟩
    | getIdleConnection caller key =>
      obtain ⟨r, hr⟩ := getIdleConnection_returns_iff.mpr ha
      exact ⟨_, map_eq_ok.mpr ⟨r, hr, rfl⟩⟩
    | deleteConnection key i => exact ha.elim
  obtain ⟨t, ht⟩ := hok
  exact ⟨t, ht, step_inv h hp ht⟩

/-- In a run that is right, each step is answered. -/
theorem Right.answers {es : List (Event κ)} (h : Right es)
    (hp : Along step Permitted init es) : Along step Answers init es := by
  refine along_iff_at.mpr fun pre e post s heq hs => ?_
  cases e with
  | getIdleConnection caller key =>
    obtain ⟨r, t, hget, -⟩ := h.gets pre caller key post s heq hs
    exact getIdleConnection_returns_iff.mp ⟨_, hget⟩
  | deleteConnection key i =>
    obtain ⟨u, hu⟩ := h.executes
    rw [heq] at hu
    obtain ⟨s', hs', hrest⟩ := exec_append_ok.mp hu
    cases hs.symm.trans hs'
    obtain ⟨t, ht, -⟩ := exec_cons_ok.mp hrest
    have hclosed := (h.deletes pre key i post s t heq hs ht).1.closed
    -- `DeleteConnection` should have closed it, and no step does
    rw [step_closed ht, (inv_at hp heq hs).unclosed] at hclosed
    cases hclosed
  | use caller i => trivial
  | unUse caller i => trivial
  | setConnected i connected => trivial
  | insertConnection key i => trivial

theorem right_of_answers {es : List (Event κ)} (hp : Along step Permitted init es)
    (ha : Along step Answers init es) : Right es where
  executes := (hp.and ha).exec_ok (fun _ _ ht he => ht.progress he.1 he.2) init_inv
  gets := fun pre _ _ post s heq hs =>
    (inv_at hp heq hs).getRight (along_iff_at.mp ha pre _ post s heq hs)
  deletes := fun pre _ _ post s _ heq hs _ => (along_iff_at.mp ha pre _ post s heq hs).elim

/-- **The pool is right in exactly the runs without `DeleteConnection` in which `GetIdleConnection`
finds an idle connection whenever there is a list for its key.** -/
theorem pool_right_iff {es : List (Event κ)} (hp : Along step Permitted init es) :
    Right es ↔ Along step Answers init es :=
  ⟨fun h => h.answers hp, right_of_answers hp⟩

/-- The run of a connection that its creator uses, gives back, and another caller gets. -/
def handedOn : List (Event (Nat × Nat)) :=
  [.use 1 0, .insertConnection (10, 80) 0, .setConnected 0 true, .getIdleConnection 2 (11, 80),
    .unUse 1 0, .getIdleConnection 2 (10, 80), .unUse 2 0]

theorem handedOn_right : Right handedOn :=
  (pool_right_iff (by decide)).mpr (by decide)

/-- A connection that is deleted and then handed out. -/
def deletedThenGot : List (Event (Nat × Nat)) :=
  [.insertConnection (10, 80) 0, .setConnected 0 true, .deleteConnection (10, 80) 0,
    .getIdleConnection 1 (10, 80)]

/-- Two requests for the one connection that is there. -/
def gotTwice : List (Event (Nat × Nat)) :=
  [.insertConnection (10, 80) 0, .setConnected 0 true, .getIdleConnection 1 (10, 80),
    .getIdleConnection 2 (10, 80)]

/-- `DeleteConnection` leaves the connection open and in its list, from which it is handed out
again; and the second request gets no answer. -/
theorem pool_wrong :
    (Along step Permitted init deletedThenGot ∧ ¬ Right deletedThenGot ∧
      ∃ s t, exec step init deletedThenGot.dropLast = .ok s ∧ (s.heap 0).closed = false ∧
        s.getIdleConnection (10, 80) = .ok (some 0, t)) ∧
    Along step Permitted init gotTwice ∧ ¬ Right gotTwice ∧
      exec step init gotTwice = .error .noReturn := by
  have hdelete : Along step Permitted init deletedThenGot := by decide
  have hget : Along step Permitted init gotTwice := by decide
  refine ⟨⟨hdelete, fun h => ?_, _, _, rfl, rfl, rfl⟩, hget, fun h => ?_, rfl⟩
  · exact absurd (h.answers hdelete) (by decide)
  · exact absurd (h.answers hget) (by decide)

end Kknf.Asio
