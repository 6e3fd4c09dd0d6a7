/-
# The hash table of `c_nf/hash.c`

A table of buckets, each a chain of items; `hash_put` puts a new item in front of the chain,
`hash_get` and `hash_delete` follow it to the first item with the key.  As a map this is right only
on a narrow path, for five reasons:

* a loop that comes to the end of the chain leaves `cur` null, and `cur->value` and `cur->prev` are
  read all the same, so a key must be found, or its bucket be empty;
* an item put into an empty bucket keeps the links that `malloc` left in it.  Its `next` is followed
  when a key is not found, and its `prev` is what the assertion of the next `hash_put` looks at;
* a second `hash_put` of a key adds a second item, and `key_used` counts both;
* `hash_delete` does not count `key_used` down;
* and it takes out the newest item of the key only, so that an older one comes back.

`map_refined_iff` says exactly which runs stay on the path.

The table is the one that is meant: all buckets empty at first (the arguments of `memset` are the
wrong way round), `hash_item` has the field `prev` that the code uses, and `key_sapce` is
`key_space`.  The items of a table fit in memory, so `key_used` does not overflow.
-/
import Kknf.Lib.Bytes
import Kknf.Lib.Linked
import Kknf.Lib.Run
import Kknf.Lib.StdMap

namespace Kknf.CNf.Hash

open Kknf.Run Kknf.Linked

/-! ## 1. Data -/

abbrev Key := List Byte

/-- `key_space`, `hash` and the length of the keys. -/
structure Config where
  keySpace : Nat
  keyLen : Nat
  hash : Key → Nat
  hash_lt : ∀ key, hash key < keySpace

variable {V : Type}

/-- A `hash_item`.  A link is null or an address. -/
structure HashItem (V : Type) where
  key : Key
  value : V
  next : Option Nat
  prev : Option Nat

/-- A `hash_table`, the items in memory, and how many were ever allocated. -/
structure HashTable (V : Type) where
  keyUsed : Nat
  items : Nat → Option Nat
  heap : Nat → Option (HashItem V)
  mallocs : Nat

inductive Fault
  /-- an event that cannot happen in this state -/
  | disabled
  /-- `cur` is null -/
  | nullDeref
  /-- a link leads to no item -/
  | wildDeref
  /-- `assert (!(table->items[h]->prev))` -/
  | assertPrev
  /-- a loop that does not end -/
  | diverges
  deriving DecidableEq

/-! ## 2. The functions -/

/-- `hash_get_hash_table`. -/
def hashGetHashTable : HashTable V where
  keyUsed := 0
  items := fun _ => none
  heap := fun _ => none
  mallocs := 0

/-- `memcmp(a, b, key_len) == 0`. -/
def memcmpEq (c : Config) (a b : Key) : Bool := a.take c.keyLen = b.take c.keyLen

/-- The loop of `hash_get` and `hash_delete`, from the item at `a` on: the item it stops at.  A loop
over more items than were ever allocated has come back to one of them. -/
def findItem (c : Config) (t : HashTable V) (key : Key) (a : Nat) :
    Except Fault (Nat × HashItem V) :=
  match Linked.search HashItem.next t.heap (fun item => memcmpEq c key item.key) t.mallocs a with
  | .found cur item => .ok (cur, item)
  | .ended => .error .nullDeref
  | .wild => .error .wildDeref
  | .endless => .error .diverges

/-- `hash_get`. -/
def hashGet (c : Config) (t : HashTable V) (key : Key) : Except Fault (Option V) :=
  match t.items (c.hash key) with
  | none => .ok none
  | some a =>
    match findItem c t key a with
    | .error f => .error f
    | .ok (_, item) => .ok (some item.value)

/-- `hash_put`, when `malloc` returns memory at `addr` with `next` and `prev` in the place of the
links. -/
def hashPut (c : Config) (t : HashTable V) (key : Key) (value : V) (addr : Nat)
    (next prev : Option Nat) : Except Fault (Int × HashTable V) :=
  let h := c.hash key
  let code : Int := if c.keySpace ≥ t.keyUsed + 1 then -1 else 0
  match t.items h with
  | some head =>
    match t.heap head with
    | none => .error .wildDeref
    | some item =>
      if item.prev ≠ none then .error .assertPrev
      else
        let newItem := { key := key, value := value, next := some head, prev := none }
        .ok (code, {
          keyUsed := t.keyUsed + 1
          items := Function.update t.items h (some addr)
          heap := Function.update
            (Function.update t.heap head (some { item with prev := some addr }))
            addr (some newItem)
          mallocs := t.mallocs + 1 })
  | none =>
    let newItem := { key := key, value := value, next := next, prev := prev }
    .ok (code, {
      keyUsed := t.keyUsed + 1
      items := Function.update t.items h (some addr)
      heap := Function.update t.heap addr (some newItem)
      mallocs := t.mallocs + 1 })

/-- Write to a link of the item at `a`. -/
def relink (heap : Nat → Option (HashItem V)) (a : Nat) (f : HashItem V → HashItem V) :
    Except Fault (Nat → Option (HashItem V)) :=
  match heap a with
  | none => .error .wildDeref
  | some item => .ok (Function.update heap a (some (f item)))

/-- The item at `cur` leaves the chain of bucket `h`, and is freed. -/
def unlinkItem (t : HashTable V) (h cur : Nat) (item : HashItem V) : Except Fault (HashTable V) :=
  let linked :=
    match item.prev with
    | some p => (relink t.heap p fun i => { i with next := item.next }).map fun heap =>
        { t with heap := heap }
    | none => .ok { t with items := Function.update t.items h item.next }
  match linked with
  | .error f => .error f
  | .ok t =>
    let backLinked :=
      match item.next with
      | some n => (relink t.heap n fun i => { i with prev := item.prev }).map fun heap =>
          { t with heap := heap }
      | none => .ok t
    match backLinked with
    | .error f => .error f
    | .ok t => .ok { t with heap := Function.update t.heap cur none }

/-- `hash_delete`. -/
def hashDelete (c : Config) (t : HashTable V) (key : Key) :
    Except Fault (Option V × HashTable V) :=
  let h := c.hash key
  match t.items h with
  | none => .ok (none, t)
  | some a =>
    match findItem c t key a with
    | .error f => .error f
    | .ok (cur, item) =>
      match unlinkItem t h cur item with
      | .error f => .error f
      | .ok t => .ok (some item.value, t)

/-! ## 3. Runs -/

/-- A table, the map it stands for, and what the calls returned, each with what the map had. -/
structure System (V : Type) where
  table : HashTable V
  stored : StdMap Key V
  results : List (Option V × Option V)

inductive Event (V : Type)
  /-- `hash_put`, with what `malloc` returns -/
  | put (key : Key) (value : V) (addr : Nat) (next prev : Option Nat)
  | get (key : Key)
  | delete (key : Key)

/-- The keys have one length, and `malloc` returns memory that is not in use. -/
def step (c : Config) (s : System V) : Event V → Except Fault (System V)
  | .put key value addr next prev =>
    if key.length ≠ c.keyLen ∨ (s.table.heap addr).isSome then .error .disabled
    else
      match hashPut c s.table key value addr next prev with
      | .error f => .error f
      | .ok (_, t) => .ok { s with table := t, stored := s.stored.set key value }
  | .get key =>
    if key.length ≠ c.keyLen then .error .disabled
    else
      match hashGet c s.table key with
      | .error f => .error f
      | .ok r => .ok { s with results := (r, s.stored.find key) :: s.results }
  | .delete key =>
    if key.length ≠ c.keyLen then .error .disabled
    else
      match hashDelete c s.table key with
      | .error f => .error f
      | .ok (r, t) =>
        .ok {
          table := t
          stored := s.stored.erase key
          results := (r, s.stored.find key) :: s.results }

def System.new : System V where
  table := hashGetHashTable
  stored := .empty
  results := []

/-- Every call returned what the map had, and `key_used` is the number of its keys. -/
structure Refines (s : System V) : Prop where
  results : ∀ r ∈ s.results, r.1 = r.2
  keyUsed : s.table.keyUsed = s.stored.entries.length

/-- `prev` of the first item of a bucket. -/
def HashTable.headPrev (t : HashTable V) (h : Nat) : Option Nat :=
  match t.items h with
  | none => none
  | some a => (t.heap a).bind (·.prev)

/-- A key is put once only, into a bucket whose first item has a null `prev`, if there is one; a key
that is looked for is there, or its bucket is empty; a key that is deleted has an empty bucket. -/
def OnPath (c : Config) (s : System V) : Event V → Prop
  | .put key _ _ _ _ => (s.stored.find key).isNone ∧ s.table.headPrev (c.hash key) = none
  | .get key => (s.stored.find key).isSome ∨ s.table.items (c.hash key) = none
  | .delete key => s.table.items (c.hash key) = none

instance decidableOnPath (c : Config) (s : System V) : ∀ e : Event V, Decidable (OnPath c s e)
  | .put key _ _ _ _ => inferInstanceAs (Decidable
      ((s.stored.find key).isNone ∧ s.table.headPrev (c.hash key) = none))
  | .get key => inferInstanceAs (Decidable
      ((s.stored.find key).isSome ∨ s.table.items (c.hash key) = none))
  | .delete key => inferInstanceAs (Decidable (s.table.items (c.hash key) = none))

/-! ## 4. Chains of a table -/

/-- The table holds the map: each bucket is a chain, in which each key that hashes to it is found,
and the items in memory are those of the map. -/
structure Holds (c : Config) (s : System V) (chain : Nat → List Nat) : Prop where
  head : ∀ h, s.table.items h = (chain h).head?
  linked : ∀ h, Chain HashItem.next s.table.heap (chain h)
  short : ∀ h, (chain h).length ≤ s.table.mallocs
  found : ∀ key v, s.stored.find key = some v →
    ∃ a ∈ chain (c.hash key), ∃ item, s.table.heap a = some item ∧ item.key = key
  live : ∀ a item, s.table.heap a = some item →
    s.stored.find item.key = some item.value ∧ item.key.length = c.keyLen

def Inv (c : Config) (s : System V) : Prop := Refines s ∧ ∃ chain, Holds c s chain

theorem inv_new (c : Config) : Inv c (.new : System V) := by
  refine ⟨⟨fun r hr => absurd hr List.not_mem_nil, rfl⟩, fun _ => [], ?_⟩
  refine ⟨fun _ => rfl, fun _ => trivial, fun _ => Nat.le_refl 0, ?_, ?_⟩
  · intro key v hv
    simp [System.new, StdMap.find, StdMap.empty, StdMap.lookup] at hv
  · intro a item ha
    simp [System.new, hashGetHashTable] at ha

/-- Keys of the length the table is made for are compared as a whole. -/
theorem memcmpEq_iff {c : Config} {a b : Key} (ha : a.length = c.keyLen)
    (hb : b.length = c.keyLen) :
    memcmpEq c a b = true ↔ a = b := by
  simp [memcmpEq, ← ha, List.take_of_length_le (Nat.le_of_eq (hb.trans ha.symm))]

/-- The loop never stops at an item of another key. -/
theorem findItem_ok {c : Config} {s : System V} {chain : Nat → List Nat} (hs : Holds c s chain)
    {key : Key} (hlen : key.length = c.keyLen) {a cur : Nat} {item : HashItem V}
    (h : findItem c s.table key a = .ok (cur, item)) :
    s.table.heap cur = some item ∧ s.stored.find key = some item.value := by
  unfold findItem at h
  split at h
  · rename_i cur' item' hfound
    obtain ⟨rfl, rfl⟩ := Prod.mk.inj (Except.ok.inj h)
    obtain ⟨hcur, hkey⟩ := search_found hfound
    obtain ⟨hvalue, hitem⟩ := hs.live _ _ hcur
    rw [(memcmpEq_iff hlen hitem).mp hkey]
    exact ⟨hcur, hvalue⟩
  · contradiction
  · contradiction
  · contradiction

/-- **A key of the map is found.** -/
theorem findItem_stored {c : Config} {s : System V} {chain : Nat → List Nat} (hs : Holds c s chain)
    {key : Key} (hlen : key.length = c.keyLen) {v : V} (hv : s.stored.find key = some v) :
    ∃ a, s.table.items (c.hash key) = some a ∧
      ∃ cur item, findItem c s.table key a = .ok (cur, item) ∧ item.value = v := by
  obtain ⟨b, hb, item, hitem, hkey⟩ := hs.found key v hv
  rcases hchain : chain (c.hash key) with _ | ⟨a, l⟩
  · rw [hchain] at hb
    exact absurd hb List.not_mem_nil
  · have hhead : s.table.items (c.hash key) = some a := by
      rw [hs.head, hchain]
      rfl
    have hmatch : memcmpEq c key item.key = true := by
      rw [hkey]
      exact (memcmpEq_iff hlen hlen).mpr rfl
    obtain ⟨cur, item', hfound⟩ := search_chain
      (p := fun item : HashItem V => memcmpEq c key item.key) (hchain ▸ hs.linked (c.hash key))
      (hchain ▸ hs.short (c.hash key)) ⟨b, hchain ▸ hb, item, hitem, hmatch⟩
    have hok : findItem c s.table key a = .ok (cur, item') := by
      simp only [findItem, hfound]
    refine ⟨a, hhead, cur, item', hok, ?_⟩
    obtain ⟨-, hvalue⟩ := findItem_ok hs hlen hok
    exact Option.some.inj (hvalue.symm.trans hv)

/-- A bucket with the key of the map is not empty. -/
theorem find_eq_none {c : Config} {s : System V} {chain : Nat → List Nat} (hs : Holds c s chain)
    {key : Key} (hlen : key.length = c.keyLen) (hempty : s.table.items (c.hash key) = none) :
    s.stored.find key = none := by
  rcases hv : s.stored.find key with _ | v
  · rfl
  · obtain ⟨a, ha, -⟩ := findItem_stored hs hlen hv
    rw [hempty] at ha
    contradiction

/-! ## 5. `hash_put` -/

/-- A new item at `addr`; the other items keep everything but `prev`. -/
structure Added (heap heap' : Nat → Option (HashItem V)) (addr : Nat)
    (item : HashItem V) : Prop where
  fresh : heap addr = none
  added : heap' addr = some item
  kept : ∀ a i, heap a = some i → ∃ i', heap' a = some i' ∧ i'.next = i.next ∧ i'.key = i.key
  origin : ∀ a i', heap' a = some i' → a = addr ∧ i' = item ∨
    ∃ i, heap a = some i ∧ i'.key = i.key ∧ i'.value = i.value

theorem added_update {heap : Nat → Option (HashItem V)} {addr : Nat} (hfresh : heap addr = none)
    (item : HashItem V) : Added heap (Function.update heap addr (some item)) addr item := by
  refine ⟨hfresh, Function.update_self _ _ _, ?_, ?_⟩
  · intro a i hi
    have hne : a ≠ addr := by
      rintro rfl
      rw [hfresh] at hi
      contradiction
    exact ⟨i, by rw [Function.update_of_ne hne, hi], rfl, rfl⟩
  · intro a i' hi'
    by_cases ha : a = addr
    · subst ha
      rw [Function.update_self] at hi'
      exact Or.inl ⟨rfl, (Option.some.inj hi').symm⟩
    · rw [Function.update_of_ne ha] at hi'
      exact Or.inr ⟨i', hi', rfl, rfl⟩

/-- Changing `prev` of an item does not matter. -/
theorem Added.of_prev {heap heap' : Nat → Option (HashItem V)} {addr head : Nat}
    {item headItem : HashItem V} {prev : Option Nat} (hhead : heap head = some headItem)
    (h : Added (Function.update heap head (some { headItem with prev := prev })) heap' addr item) :
    Added heap heap' addr item := by
  have hne : addr ≠ head := by
    rintro rfl
    have hfresh := h.fresh
    rw [Function.update_self] at hfresh
    contradiction
  refine ⟨?_, h.added, ?_, ?_⟩
  · have hfresh := h.fresh
    rwa [Function.update_of_ne hne] at hfresh
  · intro a i hi
    by_cases ha : a = head
    · subst ha
      obtain rfl := Option.some.inj (hhead.symm.trans hi)
      exact h.kept a { headItem with prev := prev } (Function.update_self _ _ _)
    · exact h.kept a i (by rw [Function.update_of_ne ha, hi])
  · intro a i' hi'
    rcases h.origin a i' hi' with hnew | ⟨i, hi, hkey, hvalue⟩
    · exact Or.inl hnew
    · by_cases ha : a = head
      · subst ha
        rw [Function.update_self] at hi
        obtain rfl := Option.some.inj hi
        exact Or.inr ⟨headItem, hhead, hkey, hvalue⟩
      · rw [Function.update_of_ne ha] at hi
        exact Or.inr ⟨i, hi, hkey, hvalue⟩

/-- What `hash_put` comes to when its assertion holds. -/
theorem hashPut_ok {c : Config} {s : System V} {chain : Nat → List Nat} (hs : Holds c s chain)
    {key : Key} {addr : Nat} (value : V) (next prev : Option Nat)
    (hfresh : s.table.heap addr = none) (hprev : s.table.headPrev (c.hash key) = none) :
    ∃ code t item, hashPut c s.table key value addr next prev = .ok (code, t) ∧
      item.key = key ∧ item.value = value ∧
      (∀ b ∈ (chain (c.hash key)).head?, item.next = some b) ∧
      Added s.table.heap t.heap addr item ∧ t.keyUsed = s.table.keyUsed + 1 ∧
      t.mallocs = s.table.mallocs + 1 ∧
      t.items = Function.update s.table.items (c.hash key) (some addr) := by
  rcases hchain : chain (c.hash key) with _ | ⟨head, l⟩
  · have hitems : s.table.items (c.hash key) = none := by
      rw [hs.head, hchain]
      rfl
    simp only [hashPut, hitems]
    exact ⟨_, _, { key := key, value := value, next := next, prev := prev }, rfl, rfl, rfl, by simp,
      added_update hfresh _, rfl, rfl, rfl⟩
  · have hitems : s.table.items (c.hash key) = some head := by
      rw [hs.head, hchain]
      rfl
    obtain ⟨headItem, hhead⟩ := (hs.linked (c.hash key)).mem head (by simp [hchain])
    have hnull : headItem.prev = none := by
      simpa [HashTable.headPrev, hitems, hhead] using hprev
    have hne : addr ≠ head := by
      rintro rfl
      rw [hfresh] at hhead
      contradiction
    simp only [hashPut, hitems, hhead, hnull]
    exact ⟨_, _, { key := key, value := value, next := some head, prev := none }, rfl, rfl, rfl,
      by simp, (added_update (by rwa [Function.update_of_ne hne]) _).of_prev hhead, rfl, rfl, rfl⟩

/-- The bucket of the new item starts with it, and the other chains are what they were. -/
theorem Added.chain {heap heap' : Nat → Option (HashItem V)} {addr : Nat} {item : HashItem V}
    (hadded : Added heap heap' addr item) {l : List Nat} (h : Chain HashItem.next heap l) :
    Chain HashItem.next heap' l :=
  h.congr fun a _ i hi => by
    obtain ⟨i', hi', hsame, -⟩ := hadded.kept a i hi
    exact ⟨i', hi', hsame⟩

/-- The table holds the map with the new key. -/
theorem Holds.put {c : Config} {s : System V} {chain : Nat → List Nat} (hs : Holds c s chain)
    {key : Key} {value : V} {addr : Nat} {item : HashItem V} {t : HashTable V}
    (hlen : key.length = c.keyLen) (hnone : s.stored.find key = none)
    (hkey : item.key = key) (hvalue : item.value = value)
    (hnext : ∀ b ∈ (chain (c.hash key)).head?, item.next = some b)
    (hadded : Added s.table.heap t.heap addr item) (hmallocs : t.mallocs = s.table.mallocs + 1)
    (hitems : t.items = Function.update s.table.items (c.hash key) (some addr)) :
    Holds c { s with table := t, stored := s.stored.set key value }
      (Function.update chain (c.hash key) (addr :: chain (c.hash key))) where
  head := by
    intro h
    change t.items h = _
    rw [hitems]
    by_cases hh : h = c.hash key
    · subst hh
      simp
    · rw [Function.update_of_ne hh, Function.update_of_ne hh]
      exact hs.head h
  linked := by
    intro h
    by_cases hh : h = c.hash key
    · subst hh
      rw [Function.update_self]
      exact Chain.cons hadded.added hnext (hadded.chain (hs.linked _))
    · rw [Function.update_of_ne hh]
      exact hadded.chain (hs.linked h)
  short := by
    intro h
    change (Function.update chain _ _ h).length ≤ t.mallocs
    rw [hmallocs]
    have hshort := hs.short h
    by_cases hh : h = c.hash key
    · subst hh
      rw [Function.update_self, List.length_cons]
      omega
    · rw [Function.update_of_ne hh]
      omega
  found := by
    intro k v hv
    change (s.stored.set key value).find k = some v at hv
    rw [StdMap.find_set] at hv
    by_cases hk : k = key
    · subst hk
      exact ⟨addr, by simp, item, hadded.added, hkey⟩
    · rw [if_neg hk] at hv
      obtain ⟨a, ha, i, hi, hik⟩ := hs.found k v hv
      obtain ⟨i', hi', -, hkey'⟩ := hadded.kept a i hi
      refine ⟨a, ?_, i', hi', hkey'.trans hik⟩
      by_cases hh : c.hash k = c.hash key
      · rw [hh, Function.update_self, ← hh]
        exact List.mem_cons_of_mem addr ha
      · rwa [Function.update_of_ne hh]
  live := by
    intro a i' hi'
    change (s.stored.set key value).find i'.key = some i'.value ∧ _
    rw [StdMap.find_set]
    rcases hadded.origin a i' hi' with ⟨-, rfl⟩ | ⟨i, hi, hik, hiv⟩
    · rw [hkey, if_pos rfl, hvalue]
      exact ⟨rfl, hlen⟩
    · obtain ⟨hfind, hilen⟩ := hs.live a i hi
      have hne : i'.key ≠ key := by
        intro heq
        rw [← hik, heq, hnone] at hfind
        contradiction
      rw [if_neg hne, hik, hiv]
      exact ⟨hfind, hilen⟩

/-- A key that is not there yet is put in. -/
theorem inv_put {c : Config} {s : System V} (hs : Inv c s) {key : Key} {value : V} {addr : Nat}
    {next prev : Option Nat} (hlen : key.length = c.keyLen) (hfresh : s.table.heap addr = none)
    (hpath : OnPath c s (.put key value addr next prev)) :
    ∃ u, step c s (.put key value addr next prev) = .ok u ∧ Inv c u := by
  obtain ⟨href, chain, hs⟩ := hs
  obtain ⟨hnew, hprev⟩ := hpath
  obtain ⟨code, t, item, hput, hkey, hvalue, hnext, hadded, hused, hmallocs, hitems⟩ :=
    hashPut_ok hs value next prev hfresh hprev
  refine ⟨{ s with table := t, stored := s.stored.set key value }, ?_, ⟨href.results, ?_⟩, _,
    hs.put hlen (Option.isNone_iff_eq_none.mp hnew) hkey hvalue hnext hadded hmallocs hitems⟩
  · simp [step, hlen, hfresh, hput]
  · rw [StdMap.length_set, if_pos hnew]
    exact hused.trans (congrArg (· + 1) href.keyUsed)

/-! ## 6. Which runs refine a map -/

/-- A call on a table whose bucket is empty. -/
theorem hashGet_empty {c : Config} {t : HashTable V} {key : Key}
    (h : t.items (c.hash key) = none) : hashGet c t key = .ok none := by
  simp only [hashGet, h]

theorem hashDelete_empty {c : Config} {t : HashTable V} {key : Key}
    (h : t.items (c.hash key) = none) : hashDelete c t key = .ok (none, t) := by
  simp only [hashDelete, h]

/-- A key that is not there, in a bucket that is not empty: `hash_get` does not return. -/
theorem hashGet_missing {c : Config} {s : System V} {chain : Nat → List Nat} (hs : Holds c s chain)
    {key : Key} (hlen : key.length = c.keyLen) (hnone : s.stored.find key = none)
    (hbucket : s.table.items (c.hash key) ≠ none) : ∃ f, hashGet c s.table key = .error f := by
  rcases hitems : s.table.items (c.hash key) with _ | a
  · exact absurd hitems hbucket
  · rcases hfind : findItem c s.table key a with f | ⟨cur, item⟩
    · exact ⟨f, by simp only [hashGet, hitems, hfind]⟩
    · obtain ⟨-, hvalue⟩ := findItem_ok hs hlen hfind
      rw [hnone] at hvalue
      contradiction

theorem hashDelete_missing {c : Config} {s : System V} {chain : Nat → List Nat}
    (hs : Holds c s chain) {key : Key} (hlen : key.length = c.keyLen)
    (hnone : s.stored.find key = none) (hbucket : s.table.items (c.hash key) ≠ none) :
    ∃ f, hashDelete c s.table key = .error f := by
  rcases hitems : s.table.items (c.hash key) with _ | a
  · exact absurd hitems hbucket
  · rcases hfind : findItem c s.table key a with f | ⟨cur, item⟩
    · exact ⟨f, by simp only [hashDelete, hitems, hfind]⟩
    · obtain ⟨-, hvalue⟩ := findItem_ok hs hlen hfind
      rw [hnone] at hvalue
      contradiction

/-- `hash_delete` and the unlinking in it leave `key_used` as it is. -/
theorem unlinkItem_keyUsed {t t' : HashTable V} {h cur : Nat} {item : HashItem V}
    (hok : unlinkItem t h cur item = .ok t') : t'.keyUsed = t.keyUsed := by
  unfold unlinkItem relink at hok
  rcases hp : item.prev with _ | p
  · rcases hn : item.next with _ | n
    · simp only [hp, hn, Except.ok.injEq] at hok
      rw [← hok]
    · rcases hheap : t.heap n with _ | i
      · simp [hp, hn, hheap, Except.map] at hok
      · simp only [hp, hn, hheap, Except.map, Except.ok.injEq] at hok
        rw [← hok]
  · rcases hheap : t.heap p with _ | i
    · simp [hp, hheap, Except.map] at hok
    · simp only [hp, hheap, Except.map] at hok
      rcases hn : item.next with _ | n
      · simp only [hn, Except.ok.injEq] at hok
        rw [← hok]
      · simp only [hn] at hok
        split at hok
        · contradiction
        · rename_i t'' hback
          rw [← Except.ok.inj hok]
          split at hback
          · contradiction
          · rw [← Except.ok.inj hback]

theorem hashDelete_keyUsed {c : Config} {t t' : HashTable V} {key : Key} {r : Option V}
    (hok : hashDelete c t key = .ok (r, t')) : t'.keyUsed = t.keyUsed := by
  simp only [hashDelete] at hok
  split at hok
  · rw [← (Prod.mk.inj (Except.ok.inj hok)).2]
  · split at hok
    · contradiction
    · split at hok
      · contradiction
      · rename_i t'' hunlink
        rw [← (Prod.mk.inj (Except.ok.inj hok)).2]
        exact unlinkItem_keyUsed hunlink

theorem hashPut_keyUsed {c : Config} {t t' : HashTable V} {key : Key} {value : V} {addr : Nat}
    {next prev : Option Nat} {code : Int}
    (hok : hashPut c t key value addr next prev = .ok (code, t')) : t'.keyUsed = t.keyUsed + 1 := by
  simp only [hashPut] at hok
  split at hok
  · split at hok
    · contradiction
    · split at hok
      · contradiction
      · rw [← (Prod.mk.inj (Except.ok.inj hok)).2]
  · rw [← (Prod.mk.inj (Except.ok.inj hok)).2]

/-- A call that returns what the map has. -/
theorem Inv.logged {c : Config} {s : System V} (hs : Inv c s) (r : Option V) :
    Inv c { s with results := (r, r) :: s.results } := by
  obtain ⟨href, chain, hholds⟩ := hs
  refine ⟨⟨?_, href.keyUsed⟩, chain, hholds.head, hholds.linked, hholds.short, hholds.found,
    hholds.live⟩
  intro p hp
  rcases List.mem_cons.mp hp with rfl | hp
  · rfl
  · exact href.results p hp

/-- **A call on the path succeeds and refines the map.** -/
theorem inv_step {c : Config} {s : System V} {e : Event V} (hok : step c s e ≠ .error .disabled)
    (hs : Inv c s) (hpath : OnPath c s e) : ∃ u, step c s e = .ok u ∧ Inv c u := by
  rcases e with ⟨key, value, addr, next, prev⟩ | ⟨key⟩ | ⟨key⟩
  · by_cases hguard : key.length ≠ c.keyLen ∨ (s.table.heap addr).isSome
    · simp [step, hguard] at hok
    · obtain ⟨hlen, hfree⟩ := not_or.mp hguard
      exact inv_put hs (not_not.mp hlen) (by simpa using hfree) hpath
  · by_cases hlen : key.length = c.keyLen
    · obtain ⟨-, chain, hholds⟩ := id hs
      have hget : hashGet c s.table key = .ok (s.stored.find key) := by
        rcases hv : s.stored.find key with _ | v
        · exact hashGet_empty (hpath.resolve_left (by simp [hv]))
        · obtain ⟨a, ha, cur, item, hfind, hvalue⟩ := findItem_stored hholds hlen hv
          simp only [hashGet, ha, hfind, hvalue]
      exact ⟨_, by simp only [step, hlen, ne_eq, not_true_eq_false, if_false, hget],
        hs.logged (s.stored.find key)⟩
    · simp [step, hlen] at hok
  · by_cases hlen : key.length = c.keyLen
    · obtain ⟨-, chain, hholds⟩ := id hs
      have hempty : s.table.items (c.hash key) = none := hpath
      have hnone := find_eq_none hholds hlen hempty
      have herase := StdMap.erase_of_none hnone
      exact ⟨_, by simp only [step, hlen, ne_eq, not_true_eq_false, if_false,
        hashDelete_empty hempty, herase, hnone], hs.logged none⟩
    · simp [step, hlen] at hok

/-- `hash_put` off the path: the assertion fails, or a key is counted twice. -/
theorem put_leaves {c : Config} {s u : System V} {key : Key} {value : V} {addr : Nat}
    {next prev : Option Nat} (href : Refines s)
    (hpath : ¬ OnPath c s (.put key value addr next prev))
    (hu : step c s (.put key value addr next prev) = .ok u) : ¬ Refines u := by
  intro href'
  simp only [step] at hu
  split at hu
  · contradiction
  · split at hu
    · contradiction
    · rename_i code t hput
      rw [← Except.ok.inj hu] at href'
      rcases hv : s.stored.find key with _ | v
      · have hprev : s.table.headPrev (c.hash key) ≠ none := fun h => hpath ⟨by simp [hv], h⟩
        rcases hitems : s.table.items (c.hash key) with _ | head
        · exact hprev (by simp only [HashTable.headPrev, hitems])
        · rcases hhead : s.table.heap head with _ | item
          · simp [hashPut, hitems, hhead] at hput
          · have hnull : item.prev ≠ none := by
              simpa [HashTable.headPrev, hitems, hhead] using hprev
            simp [hashPut, hitems, hhead, hnull] at hput
      · have hused := hashPut_keyUsed hput
        have hcount := href'.keyUsed
        have hbefore := href.keyUsed
        rw [StdMap.length_set, hv] at hcount
        simp only [Option.isNone_some, Bool.false_eq_true, if_false] at hcount
        omega

/-- `hash_get` off the path does not return. -/
theorem get_leaves {c : Config} {s u : System V} {chain : Nat → List Nat} {key : Key}
    (hs : Holds c s chain) (hpath : ¬ OnPath c s (.get key)) : step c s (.get key) ≠ .ok u := by
  obtain ⟨hfind, hbucket⟩ := not_or.mp hpath
  intro hu
  simp only [step] at hu
  split at hu
  · contradiction
  · rename_i hlen
    obtain ⟨f, hf⟩ := hashGet_missing hs (not_not.mp hlen) (by simpa using hfind) hbucket
    simp only [hf] at hu
    contradiction

/-- `hash_delete` off the path: it does not return, or a key that is gone is still counted. -/
theorem delete_leaves {c : Config} {s u : System V} {chain : Nat → List Nat} {key : Key}
    (href : Refines s) (hs : Holds c s chain) (hpath : ¬ OnPath c s (.delete key))
    (hu : step c s (.delete key) = .ok u) : ¬ Refines u := by
  intro href'
  have hbucket : s.table.items (c.hash key) ≠ none := hpath
  simp only [step] at hu
  split at hu
  · contradiction
  · rename_i hlen
    rcases hv : s.stored.find key with _ | v
    · obtain ⟨f, hf⟩ := hashDelete_missing hs (not_not.mp hlen) hv hbucket
      simp only [hf] at hu
      contradiction
    · split at hu
      · contradiction
      · rename_i r t hdelete
        rw [← Except.ok.inj hu] at href'
        have hused := hashDelete_keyUsed hdelete
        have hcount := href'.keyUsed
        have hbefore := href.keyUsed
        have hlt := StdMap.length_erase_lt hv
        simp only at hcount
        omega

/-- **A call off the path that returns leaves the map.** -/
theorem step_leaves {c : Config} {s u : System V} {e : Event V} (hs : Inv c s)
    (hpath : ¬ OnPath c s e) (hu : step c s e = .ok u) : ¬ Refines u := by
  obtain ⟨href, chain, hholds⟩ := hs
  rcases e with ⟨key, value, addr, next, prev⟩ | ⟨key⟩ | ⟨key⟩
  · exact put_leaves href hpath hu
  · exact absurd hu (get_leaves hholds hpath)
  · exact delete_leaves href hholds hpath hu

/-- **The hash table refines a finite map exactly on the path.** -/
theorem map_refined_iff (c : Config) (es : List (Event V))
    (hes : exec (step c) .new es ≠ .error .disabled) :
    ((∃ t, exec (step c) .new es = .ok t) ∧ ∀ s, Visits (step c) .new es s → Refines s) ↔
      Along (step c) (OnPath c) .new es := by
  have hkeep : ∀ (s : System V) e, step c s e ≠ .error .disabled → Inv c s → OnPath c s e →
      ∃ u, step c s e = .ok u ∧ Inv c u := fun _ _ => inv_step
  have hbreak : ∀ (s : System V) e u, step c s e ≠ .error .disabled → Inv c s → ¬ OnPath c s e →
      step c s e = .ok u → ¬ Refines u := fun _ _ _ _ => step_leaves
  exact runs_iff_along hkeep (fun _ h => h.1) hbreak (along_ne_error hes) (inv_new c)

/-- Keys of one byte in two buckets. -/
def twoBuckets : Config where
  keySpace := 2
  keyLen := 1
  hash key := if key = [7] then 1 else 0
  hash_lt key := by split <;> decide

/-- Two keys in one bucket, and one that is not there in the other. -/
def oneBucketUsed : List (Event Nat) :=
  [.put [1] 10 0 none none, .put [2] 20 1 none none, .get [1], .get [2], .get [7], .delete [7]]

theorem oneBucketUsed_refined :
    (∃ t, exec (step twoBuckets) .new oneBucketUsed = .ok t) ∧
      ∀ s, Visits (step twoBuckets) .new oneBucketUsed s → Refines s := by
  have hends : (exec (step twoBuckets) .new oneBucketUsed).map (fun s => s.results) =
      .ok [(none, none), (none, none), (some 20, some 20), (some 10, some 10)] := by
    decide +kernel
  obtain ⟨s, hs, -⟩ := map_eq_ok.mp hends
  exact (map_refined_iff twoBuckets oneBucketUsed (by rw [hs]; simp)).mpr (by decide +kernel)

/-- A key that is not there, in the bucket of another one. -/
theorem missing_key_null_deref :
    exec (step twoBuckets) .new [.put [1] 10 0 none none, .get [2]] =
      (.error .nullDeref : Except Fault (System Nat)) := by
  have hends : (exec (step twoBuckets) (.new : System Nat)
      [.put [1] 10 0 none none, .get [2]]).map (fun _ => ()) = .error .nullDeref := by
    decide +kernel
  exact map_eq_error hends

end Kknf.CNf.Hash
