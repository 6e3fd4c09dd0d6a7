/-
# Linked lists in memory

Nodes lie at addresses and hold links, each of which is null or an address; nothing says that there
is a node at that address.  `heap a` is the node at `a`.

* `Chain` is a list of nodes that link to one another, with the link of the last one left open (an
  uninitialised link, say).  `search` follows the links from a node on, as a loop of a program does,
  and finds what is in a chain (`search_chain`); what it finds is there (`search_found`).
* `DList` is a doubly linked list with null at both ends.
-/
import Mathlib.Logic.Function.Basic

namespace Kknf.Linked

variable {α ν : Type*}

/-! ## 1. Chains and searching -/

/-- The nodes at the addresses of the list link to one another, in order. -/
def Chain (next : ν → Option α) (heap : α → Option ν) : List α → Prop
  | [] => True
  | [a] => ∃ n, heap a = some n
  | a :: b :: l => (∃ n, heap a = some n ∧ next n = some b) ∧ Chain next heap (b :: l)

theorem Chain.of_cons {next : ν → Option α} {heap : α → Option ν} {a : α} {l : List α}
    (h : Chain next heap (a :: l)) : ∃ n, heap a = some n ∧ ∀ b ∈ l.head?, next n = some b := by
  rcases l with _ | ⟨b, l⟩
  · obtain ⟨n, hn⟩ := h
    exact ⟨n, hn, by simp⟩
  · obtain ⟨⟨n, hn, hnext⟩, -⟩ := h
    exact ⟨n, hn, by simpa using hnext⟩

theorem Chain.tail {next : ν → Option α} {heap : α → Option ν} {a : α} {l : List α}
    (h : Chain next heap (a :: l)) : Chain next heap l := by
  rcases l with _ | ⟨b, l⟩
  · trivial
  · exact h.2

/-- A node in front of a chain. -/
theorem Chain.cons {next : ν → Option α} {heap : α → Option ν} {a : α} {l : List α} {n : ν}
    (hn : heap a = some n) (hnext : ∀ b ∈ l.head?, next n = some b) (h : Chain next heap l) :
    Chain next heap (a :: l) := by
  rcases l with _ | ⟨b, l⟩
  · exact ⟨n, hn⟩
  · exact ⟨⟨n, hn, hnext b rfl⟩, h⟩

/-- There is a node at every address of a chain. -/
theorem Chain.mem {next : ν → Option α} {heap : α → Option ν} {l : List α}
    (h : Chain next heap l) : ∀ a ∈ l, ∃ n, heap a = some n := by
  induction l with
  | nil => simp
  | cons b l ih =>
    intro a ha
    rcases List.mem_cons.mp ha with rfl | ha
    · obtain ⟨n, hn, -⟩ := h.of_cons
      exact ⟨n, hn⟩
    · exact ih h.tail a ha

/-- A chain stays one as long as its nodes keep their links. -/
theorem Chain.congr {next : ν → Option α} {heap heap' : α → Option ν} {l : List α}
    (h : Chain next heap l)
    (hheap : ∀ a ∈ l, ∀ n, heap a = some n → ∃ n', heap' a = some n' ∧ next n' = next n) :
    Chain next heap' l := by
  induction l with
  | nil => trivial
  | cons a l ih =>
    obtain ⟨n, hn, hnext⟩ := h.of_cons
    obtain ⟨n', hn', hsame⟩ := hheap a List.mem_cons_self n hn
    refine Chain.cons hn' ?_ (ih h.tail fun b hb => hheap b (List.mem_cons_of_mem a hb))
    intro b hb
    rw [hsame]
    exact hnext b hb

/-- What following the links comes to. -/
inductive Outcome (α ν : Type*)
  | found (a : α) (n : ν)
  /-- a null link -/
  | ended
  /-- a link to an address without a node -/
  | wild
  /-- more nodes than the fuel allows -/
  | endless

/-- Follow the links from the address `a` to the first node with the property `p`. -/
def search (next : ν → Option α) (heap : α → Option ν) (p : ν → Bool) : Nat → α → Outcome α ν
  | 0, _ => .endless
  | fuel + 1, a =>
    match heap a with
    | none => .wild
    | some n =>
      if p n then .found a n
      else
        match next n with
        | none => .ended
        | some b => search next heap p fuel b

/-- What is found is there. -/
theorem search_found {next : ν → Option α} {heap : α → Option ν} {p : ν → Bool} {c : α} {n : ν}
    {fuel : Nat} : ∀ {a : α}, search next heap p fuel a = .found c n →
      heap c = some n ∧ p n = true := by
  induction fuel with
  | zero =>
    intro a h
    simp [search] at h
  | succ fuel ih =>
    intro a h
    simp only [search] at h
    split at h
    · contradiction
    · rename_i n' hn
      split at h
      · rename_i hp
        obtain ⟨rfl, rfl⟩ := Outcome.found.inj h
        exact ⟨hn, hp⟩
      · split at h
        · contradiction
        · exact ih h

/-- **What is in a chain is found**, with fuel for the nodes of the chain. -/
theorem search_chain {next : ν → Option α} {heap : α → Option ν} {p : ν → Bool} {l : List α} :
    ∀ {a : α} {fuel : Nat}, Chain next heap (a :: l) → (a :: l).length ≤ fuel →
      (∃ c ∈ a :: l, ∃ n, heap c = some n ∧ p n = true) →
      ∃ c n, search next heap p fuel a = .found c n := by
  induction l with
  | nil =>
    intro a fuel hchain hlen hex
    obtain ⟨fuel, rfl⟩ := Nat.exists_eq_succ_of_ne_zero (Nat.ne_of_gt hlen)
    obtain ⟨c, hc, n, hn, hp⟩ := hex
    obtain rfl := List.mem_singleton.mp hc
    exact ⟨c, n, by simp [search, hn, hp]⟩
  | cons b l ih =>
    intro a fuel hchain hlen hex
    obtain ⟨fuel, rfl⟩ := Nat.exists_eq_succ_of_ne_zero (Nat.ne_of_gt (Nat.lt_of_lt_of_le
      (Nat.succ_pos _) hlen))
    obtain ⟨n, hn, hnext⟩ := hchain.of_cons
    by_cases hp : p n = true
    · exact ⟨a, n, by simp [search, hn, hp]⟩
    · have hrest : ∃ c ∈ b :: l, ∃ n, heap c = some n ∧ p n = true := by
        obtain ⟨c, hc, n', hn', hp'⟩ := hex
        rcases List.mem_cons.mp hc with rfl | hc
        · rw [hn] at hn'
          exact absurd (Option.some.inj hn' ▸ hp') hp
        · exact ⟨c, hc, n', hn', hp'⟩
      obtain ⟨c, n', hfound⟩ := ih hchain.tail (Nat.le_of_succ_le_succ hlen) hrest
      refine ⟨c, n', ?_⟩
      simp only [search, hn, hp, hnext b rfl]
      exact hfound

/-! ## 2. Doubly linked lists -/

/-- The nodes at the addresses of the list, the first of which links back to `p`, link to one
another both ways, and the last one to nothing. -/
def DListFrom (next prev : ν → Option α) (heap : α → Option ν) : Option α → List α → Prop
  | _, [] => True
  | p, a :: l => (∃ n, heap a = some n ∧ prev n = p ∧ next n = l.head?) ∧
      DListFrom next prev heap (some a) l

/-- A doubly linked list. -/
def DList (next prev : ν → Option α) (heap : α → Option ν) (l : List α) : Prop :=
  DListFrom next prev heap none l

/-- A list stays one as long as its nodes keep their links. -/
theorem DListFrom.congr_links {next prev : ν → Option α} {heap heap' : α → Option ν} {l : List α} :
    ∀ {p : Option α}, DListFrom next prev heap p l →
      (∀ a ∈ l, ∀ n, heap a = some n →
        ∃ n', heap' a = some n' ∧ prev n' = prev n ∧ next n' = next n) →
      DListFrom next prev heap' p l := by
  induction l with
  | nil =>
    intro p _ _
    trivial
  | cons a l ih =>
    intro p h hheap
    obtain ⟨⟨n, hn, hp, hl⟩, hrest⟩ := h
    obtain ⟨n', hn', hprev, hnext⟩ := hheap a List.mem_cons_self n hn
    refine ⟨⟨n', hn', hprev.trans hp, hnext.trans hl⟩, ih hrest ?_⟩
    intro b hb
    exact hheap b (List.mem_cons_of_mem a hb)

/-- A list whose nodes do not change stays as it is. -/
theorem DListFrom.congr {next prev : ν → Option α} {heap heap' : α → Option ν} {l : List α}
    {p : Option α} (h : DListFrom next prev heap p l) (hheap : ∀ a ∈ l, heap' a = heap a) :
    DListFrom next prev heap' p l := by
  refine h.congr_links ?_
  intro a ha n hn
  exact ⟨n, (hheap a ha).trans hn, rfl, rfl⟩

/-- A node of a list is the first one, or links back to another node of it. -/
theorem DListFrom.prev_of_mem {next prev : ν → Option α} {heap : α → Option ν} {l : List α}
    {a : α} :
    ∀ {p : Option α}, DListFrom next prev heap p l → a ∈ l → ∃ n, heap a = some n ∧
      (l.head? = some a ∧ prev n = p ∨ ∃ b ∈ l, prev n = some b) := by
  induction l with
  | nil =>
    intro p _ ha
    cases ha
  | cons c l ih =>
    intro p h ha
    obtain ⟨⟨n, hn, hp, -⟩, hrest⟩ := h
    rcases List.mem_cons.mp ha with rfl | ha
    · exact ⟨n, hn, Or.inl ⟨rfl, hp⟩⟩
    · obtain ⟨n', hn', ⟨-, hprev⟩ | ⟨b, hb, hprev⟩⟩ := ih hrest ha
      · exact ⟨n', hn', Or.inr ⟨c, List.mem_cons_self, hprev⟩⟩
      · exact ⟨n', hn', Or.inr ⟨b, List.mem_cons_of_mem c hb, hprev⟩⟩

theorem dList_singleton {next prev : ν → Option α} {heap : α → Option ν} {a : α} :
    DList next prev heap [a] ↔ ∃ n, heap a = some n ∧ prev n = none ∧ next n = none := by
  simp [DList, DListFrom]

end Kknf.Linked
