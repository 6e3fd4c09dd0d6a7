/-
# Idle client sockets: `c_nf/io_service.c`

Client sockets that are not in use wait in the buckets of `client_map`, by the last two bytes of
their address.  `return_client_socket_info` puts one in front of its bucket, and
`get_idle_client_socket_info` takes the first one of a bucket.

* Returning a socket to a bucket that is not empty links it to the first socket of the bucket, but
  the bucket goes on to begin with that one.  The returned socket is lost, and the links back from
  the first one lead out of the list.
* Taking a socket compares neither the address, of which the bucket says two bytes only, nor the
  port.

`idle_sockets_iff` says that nothing else goes wrong: the buckets are in order, and the sockets
taken are the right ones, exactly as long as sockets are returned to empty buckets and the first
socket of the bucket is the one that is asked for.

The array is `client_map`, which `struct io_service` does not have.  `atime_sec` and `atime_usec`,
which nothing here reads, are left out.
-/
import Mathlib.Data.List.Nodup
import Kknf.Lib.Bytes
import Kknf.Lib.Linked
import Kknf.Lib.Run

namespace Kknf.CNf.IdleSockets

open Kknf.Run Kknf.Linked

/-! ## 1. Data -/

/-- An address in network order: its bytes in memory. -/
structure InAddr where
  b0 : Byte
  b1 : Byte
  b2 : Byte
  b3 : Byte
  deriving DecidableEq

/-- `*((uint16_t*)(((char*)&ip) + 2))`. -/
def hashCode (o : ByteOrder) (ip : InAddr) : Nat :=
  match o with
  | .little => ofBytesLE [ip.b2, ip.b3]
  | .big => ofBytesBE [ip.b2, ip.b3]

/-- `htons`. -/
def htons (o : ByteOrder) (port : UInt16) : UInt16 :=
  match o with
  | .little => port <<< 8 ||| port >>> 8
  | .big => port

/-- What is read of a `socket_info`.  A link is null or an address. -/
structure SocketInfo where
  netIp : InAddr
  netPort : UInt16
  next : Option Nat
  prev : Option Nat
  deriving DecidableEq

/-- `client_map`, and the `socket_info`s in memory. -/
structure IoService where
  clientMap : Nat → Option Nat
  heap : Nat → Option SocketInfo

inductive Fault
  /-- an event that cannot happen in this state -/
  | disabled
  /-- a link leads to no `socket_info` -/
  | wildDeref
  deriving DecidableEq

/-! ## 2. The functions -/

/-- `get_idle_client_socket_info`, when `inet_aton` makes `ip` of the string: the socket, or null,
and the service.  The port is not used. -/
def getIdleClientSocketInfo (o : ByteOrder) (io : IoService) (ip : Option InAddr)
    (_hostPort : UInt16) : Except Fault (Option (Nat × SocketInfo) × IoService) :=
  match ip with
  | none => .ok (none, io)
  | some ipaddr =>
    let h := hashCode o ipaddr
    match io.clientMap h with
    | none => .ok (none, io)
    | some ret =>
      match io.heap ret with
      | none => .error .wildDeref
      | some info =>
        match info.next with
        | none => .ok (some (ret, info),
            { io with clientMap := Function.update io.clientMap h none })
        | some next =>
          match io.heap next with
          | none => .error .wildDeref
          | some nextInfo =>
            .ok (some (ret, info), {
              clientMap := Function.update io.clientMap h (some next)
              heap := Function.update io.heap next (some { nextInfo with prev := none }) })

/-- `return_client_socket_info` of the socket at `a`. -/
def returnClientSocketInfo (o : ByteOrder) (io : IoService) (a : Nat) (netIp : InAddr)
    (netPort : UInt16) : Except Fault IoService :=
  let h := hashCode o netIp
  match io.clientMap h with
  | some first =>
    match io.heap first with
    | none => .error .wildDeref
    | some firstInfo =>
      -- the bucket goes on to begin with `first`
      .ok { io with
        heap := Function.update
          (Function.update io.heap a
            (some { netIp := netIp, netPort := netPort, next := some first, prev := none }))
          first (some { firstInfo with prev := some a }) }
  | none =>
    .ok {
      clientMap := Function.update io.clientMap h (some a)
      heap := Function.update io.heap a
        (some { netIp := netIp, netPort := netPort, next := none, prev := none }) }

/-! ## 3. Runs -/

/-- A socket that was taken, with the address and port that were asked for. -/
structure Taken where
  ip : InAddr
  port : UInt16
  info : SocketInfo

/-- A service, the sockets that were returned and not taken since, and those that were taken. -/
structure System where
  io : IoService
  idle : List Nat
  taken : List Taken

inductive Event
  /-- `get_idle_client_socket_info`, with what `inet_aton` makes of its string -/
  | get (ip : Option InAddr) (port : UInt16)
  | giveBack (a : Nat) (netIp : InAddr) (netPort : UInt16)
  deriving DecidableEq

/-- A socket that is idle is not returned. -/
def step (o : ByteOrder) (s : System) : Event → Except Fault System
  | .get ip port =>
    match getIdleClientSocketInfo o s.io ip port with
    | .error f => .error f
    | .ok (ret, io) =>
      .ok {
        io := io
        idle := ret.elim s.idle fun r => s.idle.erase r.1
        taken := (ip.bind fun ip => ret.map fun r => ⟨ip, port, r.2⟩).toList ++ s.taken }
  | .giveBack a netIp netPort =>
    if a ∈ s.idle then .error .disabled
    else
      match returnClientSocketInfo o s.io a netIp netPort with
      | .error f => .error f
      | .ok io => .ok { s with io := io, idle := a :: s.idle }

def System.new : System where
  io := { clientMap := fun _ => none, heap := fun _ => none }
  idle := []
  taken := []

/-- The buckets are doubly linked lists, of the sockets that hash to them, in which each idle socket
is once. -/
structure WellFormed (o : ByteOrder) (s : System) (lists : Nat → List Nat) : Prop where
  head : ∀ h, s.io.clientMap h = (lists h).head?
  dlist : ∀ h, DList SocketInfo.next SocketInfo.prev s.io.heap (lists h)
  nodup : ∀ h, (lists h).Nodup
  bucket : ∀ h, ∀ a ∈ lists h, ∃ info, s.io.heap a = some info ∧ hashCode o info.netIp = h
  idle : ∀ a, a ∈ s.idle ↔ ∃ h, a ∈ lists h

/-- The buckets are in order, and every socket that was taken has the address and the port that were
asked for. -/
structure Sound (o : ByteOrder) (s : System) : Prop where
  wellFormed : ∃ lists, WellFormed o s lists
  taken : ∀ t ∈ s.taken, t.info.netIp = t.ip ∧ t.info.netPort = htons o t.port

/-- A socket is returned to an empty bucket, and the first socket of the bucket, if there is one, is
the one that is asked for. -/
def Uncrowded (o : ByteOrder) (s : System) : Event → Prop
  | .get none _ => True
  | .get (some ip) port => ∀ a ∈ s.io.clientMap (hashCode o ip), ∀ info ∈ s.io.heap a,
      info.netIp = ip ∧ info.netPort = htons o port
  | .giveBack _ netIp _ => s.io.clientMap (hashCode o netIp) = none

instance decidableUncrowded (o : ByteOrder) (s : System) : ∀ e, Decidable (Uncrowded o s e)
  | .get none _ => isTrue trivial
  | .get (some ip) port => inferInstanceAs (Decidable (∀ a ∈ s.io.clientMap (hashCode o ip),
      ∀ info ∈ s.io.heap a, info.netIp = ip ∧ info.netPort = htons o port))
  | .giveBack _ netIp _ => inferInstanceAs (Decidable (s.io.clientMap (hashCode o netIp) = none))

/-! ## 4. Buckets of one socket -/

/-- No bucket has more than one socket. -/
structure Inv (o : ByteOrder) (s : System) (lists : Nat → List Nat) : Prop where
  wellFormed : WellFormed o s lists
  single : ∀ h, (lists h).length ≤ 1
  idle : s.idle.Nodup
  taken : ∀ t ∈ s.taken, t.info.netIp = t.ip ∧ t.info.netPort = htons o t.port

theorem inv_new (o : ByteOrder) : Inv o .new fun _ => [] := by
  refine ⟨⟨fun _ => rfl, fun _ => trivial, fun _ => List.nodup_nil, ?_, ?_⟩, ?_, List.nodup_nil, ?_⟩
  · intro h a ha
    exact absurd ha List.not_mem_nil
  · simp [System.new]
  · intro h
    exact Nat.zero_le 1
  · intro t ht
    exact absurd ht List.not_mem_nil

/-- A bucket that is not empty: its socket, whose links are null. -/
theorem Inv.bucket {o : ByteOrder} {s : System} {lists : Nat → List Nat} (hs : Inv o s lists)
    {h a : Nat} (ha : s.io.clientMap h = some a) :
    lists h = [a] ∧ ∃ info, s.io.heap a = some info ∧ info.prev = none ∧ info.next = none ∧
      hashCode o info.netIp = h := by
  have hhead := hs.wellFormed.head h
  have hsingle := hs.single h
  rcases hl : lists h with _ | ⟨b, l⟩
  · rw [ha, hl] at hhead
    contradiction
  · have hnil : l = [] := by
      rw [hl, List.length_cons] at hsingle
      exact List.eq_nil_of_length_eq_zero (Nat.le_zero.mp (Nat.le_of_succ_le_succ hsingle))
    subst hnil
    rw [ha, hl] at hhead
    obtain rfl := Option.some.inj hhead
    obtain ⟨info, hinfo, hprev, hnext⟩ := dList_singleton.mp (hl ▸ hs.wellFormed.dlist h)
    obtain ⟨info', hinfo', hcode⟩ := hs.wellFormed.bucket h a (by simp [hl])
    obtain rfl := Option.some.inj (hinfo.symm.trans hinfo')
    exact ⟨rfl, info, hinfo, hprev, hnext, hcode⟩

theorem Inv.empty {o : ByteOrder} {s : System} {lists : Nat → List Nat} (hs : Inv o s lists)
    {h : Nat} (hh : s.io.clientMap h = none) : lists h = [] := by
  have hhead := hs.wellFormed.head h
  rw [hh] at hhead
  exact List.head?_eq_none_iff.mp hhead.symm

/-- One bucket changes, and the sockets of the others do not. -/
theorem Inv.update {o : ByteOrder} {s t : System} {lists : Nat → List Nat} {h : Nat} {l : List Nat}
    (hs : Inv o s lists)
    (hmap : t.io.clientMap = Function.update s.io.clientMap h l.head?)
    (hheap : ∀ h', h' ≠ h → ∀ b ∈ lists h', t.io.heap b = s.io.heap b)
    (hsingle : l.length ≤ 1)
    (hlist : DList SocketInfo.next SocketInfo.prev t.io.heap l)
    (hbucket : ∀ b ∈ l, ∃ info, t.io.heap b = some info ∧ hashCode o info.netIp = h)
    (hidle : ∀ b, b ∈ t.idle ↔ b ∈ l ∨ ∃ h', h' ≠ h ∧ b ∈ lists h')
    (hnodup : t.idle.Nodup)
    (htaken : ∀ r ∈ t.taken, r.info.netIp = r.ip ∧ r.info.netPort = htons o r.port) :
    Inv o t (Function.update lists h l) := by
  have hself : Function.update lists h l h = l := Function.update_self h l lists
  have hother : ∀ h', h' ≠ h → Function.update lists h l h' = lists h' :=
    fun h' hne => Function.update_of_ne hne l lists
  refine ⟨⟨?_, ?_, ?_, ?_, ?_⟩, ?_, hnodup, htaken⟩
  · intro h'
    rw [hmap]
    rcases eq_or_ne h' h with rfl | hne
    · rw [Function.update_self, hself]
    · rw [Function.update_of_ne hne, hother h' hne]
      exact hs.wellFormed.head h'
  · intro h'
    rcases eq_or_ne h' h with rfl | hne
    · rw [hself]
      exact hlist
    · rw [hother h' hne]
      exact (hs.wellFormed.dlist h').congr (hheap h' hne)
  · intro h'
    rcases eq_or_ne h' h with rfl | hne
    · rw [hself]
      rcases l with _ | ⟨a, _ | ⟨b, l⟩⟩
      · exact List.nodup_nil
      · exact List.nodup_singleton a
      · exact absurd hsingle (by simp)
    · rw [hother h' hne]
      exact hs.wellFormed.nodup h'
  · intro h' b hb
    rcases eq_or_ne h' h with rfl | hne
    · rw [hself] at hb
      exact hbucket b hb
    · rw [hother h' hne] at hb
      rw [hheap h' hne b hb]
      exact hs.wellFormed.bucket h' b hb
  · intro b
    rw [hidle]
    constructor
    · rintro (hb | ⟨h', hne, hb⟩)
      · exact ⟨h, by rwa [hself]⟩
      · exact ⟨h', by rwa [hother h' hne]⟩
    · rintro ⟨h', hb⟩
      rcases eq_or_ne h' h with rfl | hne
      · rw [hself] at hb
        exact Or.inl hb
      · rw [hother h' hne] at hb
        exact Or.inr ⟨h', hne, hb⟩
  · intro h'
    rcases eq_or_ne h' h with rfl | hne
    · rw [hself]
      exact hsingle
    · rw [hother h' hne]
      exact hs.single h'

/-- A socket is in one bucket only. -/
theorem Inv.one_bucket {o : ByteOrder} {s : System} {lists : Nat → List Nat} (hs : Inv o s lists)
    {h h' a : Nat} (ha : a ∈ lists h) (ha' : a ∈ lists h') : h = h' := by
  obtain ⟨info, hinfo, hcode⟩ := hs.wellFormed.bucket h a ha
  obtain ⟨info', hinfo', hcode'⟩ := hs.wellFormed.bucket h' a ha'
  obtain rfl := Option.some.inj (hinfo.symm.trans hinfo')
  exact hcode.symm.trans hcode'

/-- Taking the socket of a bucket. -/
theorem inv_get {o : ByteOrder} {s : System} {lists : Nat → List Nat} (hs : Inv o s lists)
    {ip : Option InAddr} {port : UInt16} (hun : Uncrowded o s (.get ip port)) :
    ∃ u lists', step o s (.get ip port) = .ok u ∧ Inv o u lists' := by
  rcases ip with _ | ip
  · exact ⟨s, lists, rfl, hs⟩
  · rcases hh : s.io.clientMap (hashCode o ip) with _ | a
    · exact ⟨s, lists, by simp [step, getIdleClientSocketInfo, hh], hs⟩
    · obtain ⟨hlist, info, hinfo, -, hnext, hcode⟩ := hs.bucket hh
      have ha : a ∈ lists (hashCode o ip) := by simp [hlist]
      have hstep : step o s (.get (some ip) port) = .ok {
          io := { s.io with clientMap := Function.update s.io.clientMap (hashCode o ip) none }
          idle := s.idle.erase a
          taken := ⟨ip, port, info⟩ :: s.taken } := by
        simp [step, getIdleClientSocketInfo, hh, hinfo, hnext]
      refine ⟨_, _, hstep,
        hs.update (l := []) rfl (fun _ _ _ _ => rfl) (Nat.zero_le 1) trivial ?_ ?_
        (hs.idle.erase a) ?_⟩
      · intro b hb
        exact absurd hb List.not_mem_nil
      · intro b
        rw [hs.idle.mem_erase_iff, hs.wellFormed.idle]
        constructor
        · rintro ⟨hne, h, hb⟩
          refine Or.inr ⟨h, ?_, hb⟩
          rintro rfl
          rw [hlist] at hb
          exact hne (List.mem_singleton.mp hb)
        · rintro (hb | ⟨h, hne, hb⟩)
          · exact absurd hb List.not_mem_nil
          · refine ⟨?_, h, hb⟩
            rintro rfl
            exact hne (hs.one_bucket hb ha)
      · intro t ht
        rcases List.mem_cons.mp ht with rfl | ht
        · exact hun a hh info hinfo
        · exact hs.taken t ht

/-- Returning a socket to an empty bucket. -/
theorem inv_giveBack {o : ByteOrder} {s : System} {lists : Nat → List Nat} (hs : Inv o s lists)
    {a : Nat} {netIp : InAddr} {netPort : UInt16} (ha : a ∉ s.idle)
    (hun : Uncrowded o s (.giveBack a netIp netPort)) :
    ∃ u lists', step o s (.giveBack a netIp netPort) = .ok u ∧ Inv o u lists' := by
  have hempty : s.io.clientMap (hashCode o netIp) = none := hun
  have hnil := hs.empty hempty
  have hne : ∀ h, ∀ b ∈ lists h, b ≠ a := by
    rintro h b hb rfl
    exact ha ((hs.wellFormed.idle b).mpr ⟨h, hb⟩)
  refine ⟨_, Function.update lists (hashCode o netIp) [a], ?_, hs.update
    (t := {
      io := {
        clientMap := Function.update s.io.clientMap (hashCode o netIp) (some a)
        heap := Function.update s.io.heap a
          (some { netIp := netIp, netPort := netPort, next := none, prev := none }) }
      idle := a :: s.idle
      taken := s.taken }) rfl ?_ (Nat.le_refl 1) ?_ ?_ ?_ (List.nodup_cons.mpr ⟨ha, hs.idle⟩)
    hs.taken⟩
  · simp [step, ha, returnClientSocketInfo, hempty]
  · intro h' _ b hb
    exact Function.update_of_ne (hne h' b hb) _ _
  · exact dList_singleton.mpr ⟨_, Function.update_self _ _ _, rfl, rfl⟩
  · intro b hb
    obtain rfl := List.mem_singleton.mp hb
    exact ⟨_, Function.update_self _ _ _, rfl⟩
  · intro b
    rw [List.mem_cons, hs.wellFormed.idle, List.mem_singleton]
    constructor
    · rintro (hb | ⟨h, hb⟩)
      · exact Or.inl hb
      · refine Or.inr ⟨h, ?_, hb⟩
        rintro rfl
        rw [hnil] at hb
        exact absurd hb List.not_mem_nil
    · rintro (hb | ⟨h, -, hb⟩)
      · exact Or.inl hb
      · exact Or.inr ⟨h, hb⟩

/-! ## 5. When nothing goes wrong -/

/-- **A step in which no bucket is crowded keeps the buckets in order.** -/
theorem inv_step {o : ByteOrder} {s : System} {e : Event} (hok : step o s e ≠ .error .disabled)
    (hs : ∃ lists, Inv o s lists) (hun : Uncrowded o s e) :
    ∃ u, step o s e = .ok u ∧ ∃ lists, Inv o u lists := by
  obtain ⟨lists, hs⟩ := hs
  rcases e with ⟨ip, port⟩ | ⟨a, netIp, netPort⟩
  · obtain ⟨u, lists', hu, hinv⟩ := inv_get hs hun
    exact ⟨u, hu, lists', hinv⟩
  · by_cases ha : a ∈ s.idle
    · simp [step, ha] at hok
    · obtain ⟨u, lists', hu, hinv⟩ := inv_giveBack hs ha hun
      exact ⟨u, hu, lists', hinv⟩

/-- The first socket of a list links back to nothing. -/
theorem WellFormed.prev_of_head {o : ByteOrder} {s : System} {lists : Nat → List Nat}
    (hs : WellFormed o s lists) {h a : Nat} (ha : s.io.clientMap h = some a) {info : SocketInfo}
    (hinfo : s.io.heap a = some info) : info.prev = none := by
  have hhead := hs.head h
  have hlist := hs.dlist h
  rcases hl : lists h with _ | ⟨b, l⟩
  · rw [ha, hl] at hhead
    contradiction
  · rw [ha, hl] at hhead
    obtain rfl := Option.some.inj hhead
    rw [hl] at hlist
    obtain ⟨⟨info', hinfo', hprev, -⟩, -⟩ := hlist
    obtain rfl := Option.some.inj (hinfo.symm.trans hinfo')
    exact hprev

/-- **Any other step breaks it.** -/
theorem step_breaks {o : ByteOrder} {s u : System} {e : Event} (hs : ∃ lists, Inv o s lists)
    (hun : ¬ Uncrowded o s e) (hu : step o s e = .ok u) : ¬ Sound o u := by
  intro hsound
  obtain ⟨lists, hs⟩ := hs
  rcases e with ⟨ip, port⟩ | ⟨a, netIp, netPort⟩
  · rcases ip with _ | ip
    · exact hun trivial
    · rcases hh : s.io.clientMap (hashCode o ip) with _ | a
      · exact hun fun b hb => by rw [hh] at hb; contradiction
      · obtain ⟨-, info, hinfo, -, hnext, -⟩ := hs.bucket hh
        simp only [step, getIdleClientSocketInfo, hh, hinfo, hnext] at hu
        have htaken : ⟨ip, port, info⟩ ∈ u.taken := by
          rw [← Except.ok.inj hu]
          exact List.mem_cons_self
        refine hun fun b hb i hi => ?_
        obtain rfl := Option.some.inj (hh.symm.trans hb)
        obtain rfl := Option.some.inj (hinfo.symm.trans hi)
        exact hsound.taken _ htaken
  · rcases hh : s.io.clientMap (hashCode o netIp) with _ | b
    · exact hun hh
    · obtain ⟨hlist, info, hinfo, -, -, -⟩ := hs.bucket hh
      by_cases ha : a ∈ s.idle
      · simp only [step, ha, if_true] at hu
        contradiction
      · simp only [step, ha, if_false, returnClientSocketInfo, hh, hinfo] at hu
        obtain ⟨lists', hwf⟩ := hsound.wellFormed
        have hmap : u.io.clientMap (hashCode o netIp) = some b := by
          rw [← Except.ok.inj hu]
          exact hh
        have hheap : u.io.heap b = some { info with prev := some a } := by
          rw [← Except.ok.inj hu]
          exact Function.update_self _ _ _
        have hprev := hwf.prev_of_head hmap hheap
        contradiction

/-- **The idle sockets are in order exactly in the runs in which no bucket is crowded.** -/
theorem idle_sockets_iff (o : ByteOrder) (es : List Event)
    (hes : exec (step o) .new es ≠ .error .disabled) :
    ((∃ t, exec (step o) .new es = .ok t) ∧ ∀ s, Visits (step o) .new es s → Sound o s) ↔
      Along (step o) (Uncrowded o) .new es := by
  have hkeep : ∀ s e, step o s e ≠ .error .disabled → (∃ lists, Inv o s lists) → Uncrowded o s e →
      ∃ u, step o s e = .ok u ∧ ∃ lists, Inv o u lists := fun _ _ => inv_step
  have hI : ∀ s, (∃ lists, Inv o s lists) → Sound o s := fun _ ⟨lists, h⟩ =>
    ⟨⟨lists, h.wellFormed⟩, h.taken⟩
  have hbreak : ∀ s e u, step o s e ≠ .error .disabled → (∃ lists, Inv o s lists) →
      ¬ Uncrowded o s e → step o s e = .ok u → ¬ Sound o u := fun _ _ _ _ => step_breaks
  exact runs_iff_along hkeep hI hbreak (along_ne_error hes) ⟨_, inv_new o⟩

/-- Two sockets of one host are returned and taken again, one after the other. -/
def oneAtATime : List Event :=
  [.giveBack 0 ⟨10, 0, 0, 1⟩ 0x5000, .get (some ⟨10, 0, 0, 1⟩) 80,
    .giveBack 1 ⟨10, 0, 0, 1⟩ 0x5100, .giveBack 0 ⟨10, 0, 0, 2⟩ 0x5000, .get none 80,
    .get (some ⟨10, 0, 0, 1⟩) 81, .get (some ⟨10, 0, 0, 1⟩) 81]

theorem oneAtATime_in_order : (∃ t, exec (step .little) .new oneAtATime = .ok t) ∧
    ∀ s, Visits (step .little) .new oneAtATime s → Sound .little s := by
  have hends : (exec (step .little) .new oneAtATime).map (fun s => s.idle) = .ok [0] := by
    decide +kernel
  obtain ⟨s, hs, -⟩ := map_eq_ok.mp hends
  exact (idle_sockets_iff .little oneAtATime (by rw [hs]; simp)).mpr (by decide +kernel)

/-- The bucket of the host 10.0.0.1. -/
def bucketOfHost : Nat := hashCode .little ⟨10, 0, 0, 1⟩

/-- Two sockets of one host are returned and one is taken; the other one is in no bucket. -/
theorem second_socket_lost : ∃ s, exec (step .little) .new
      [.giveBack 0 ⟨10, 0, 0, 1⟩ 0x5000, .giveBack 1 ⟨10, 0, 0, 1⟩ 0x5000,
        .get (some ⟨10, 0, 0, 1⟩) 80] = .ok s ∧
    s.idle = [1] ∧ s.io.clientMap bucketOfHost = none ∧ ¬ Sound .little s := by
  have hends : (exec (step .little) .new
      [.giveBack 0 ⟨10, 0, 0, 1⟩ 0x5000, .giveBack 1 ⟨10, 0, 0, 1⟩ 0x5000,
        .get (some ⟨10, 0, 0, 1⟩) 80]).map
      (fun s => (s.idle, s.io.clientMap bucketOfHost, (s.io.heap 1).map (·.netIp))) =
        .ok ([1], none, some ⟨10, 0, 0, 1⟩) := by
    decide +kernel
  obtain ⟨s, hs, hend⟩ := map_eq_ok.mp hends
  simp only [Prod.mk.injEq, Option.map_eq_some_iff] at hend
  obtain ⟨hidle, hmap, info, hinfo, hip⟩ := hend
  refine ⟨s, hs, hidle, hmap, ?_⟩
  intro hsound
  obtain ⟨lists, hwf⟩ := hsound.wellFormed
  obtain ⟨h, hmem⟩ := (hwf.idle 1).mp (by simp [hidle])
  obtain ⟨info', hinfo', hcode⟩ := hwf.bucket h 1 hmem
  obtain rfl := Option.some.inj (hinfo.symm.trans hinfo')
  rw [hip] at hcode
  have hempty := hwf.head h
  rw [← hcode] at hempty hmem
  have hnil := List.head?_eq_none_iff.mp (hempty.symm.trans hmap)
  rw [hnil] at hmem
  exact absurd hmem List.not_mem_nil

end Kknf.CNf.IdleSockets
