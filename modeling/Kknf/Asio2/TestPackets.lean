/-
# The packets of the `asio-based2` test programs

`test_packet.hpp` declares six packed structs, one for each `PacketType`; a received buffer is cast
to `TestPacketBase`, its `type_` is looked at, and it is cast on.  `len_` is sent in network order,
as the framing wants it; the other fields are sent as they are in memory, so that the parties have
to run on hosts of one byte order.  Nothing compares the size of a buffer with `sizeof`.  The
numbers are `int`; their addition is taken to wrap around.

`view` is what a party sees in a buffer, and the `view_bytes` lemmas say that it sees what was sent.
-/
import Kknf.Lib.Words

namespace Kknf.Asio2.TestGateway

open Kknf.Words

/-! ## 1. The structs -/

/-- The two backends. -/
inductive BB
  | bb1
  | bb2
  deriving DecidableEq, Repr

/-- `PacketType`; `reqToBB bb1` is `T_REQ_TO_BB1`. -/
inductive PacketType
  | reqToBF
  | rspFromBF
  | reqToBB (k : BB)
  | rspFromBB (k : BB)
  deriving DecidableEq, Repr

/-- The value of the enumerator. -/
def PacketType.word : PacketType → Word
  | .reqToBF => 1
  | .rspFromBF => 2
  | .reqToBB .bb1 => 3
  | .rspFromBB .bb1 => 4
  | .reqToBB .bb2 => 5
  | .rspFromBB .bb2 => 6

/-- The enumerator with this value. -/
def PacketType.ofWord? (x : Word) : Option PacketType :=
  [reqToBF, rspFromBF, reqToBB .bb1, rspFromBB .bb1, reqToBB .bb2, rspFromBB .bb2].find? fun t =>
    x = t.word

theorem PacketType.ofWord?_word (t : PacketType) : ofWord? t.word = some t := by
  rcases t with _ | _ | (_ | _) | (_ | _) <;> rfl

theorem PacketType.word_injective : Function.Injective PacketType.word := by
  intro t t' h
  have hopt := ofWord?_word t
  rw [h, ofWord?_word t'] at hopt
  exact (Option.some.inj hopt).symm

theorem PacketType.eq_word_of_ofWord? {x : Word} {t : PacketType} (h : ofWord? x = some t) :
    x = t.word := by
  simpa using List.find?_some h

/-- `ReqToBB1`, `RspFromBB1`, `ReqToBB2`, `RspFromBB2`: the number is `a_`, `another_a_`, `b_`,
`another_b_`. -/
structure OneNumber where
  len : Word
  type : Word
  seq : Word
  num : Word
  deriving DecidableEq, Repr

/-- `ReqToBF`, with `a_` and `b_`, and `RspFromBF`, with `sum_` and `error_`. -/
structure TwoNumbers where
  len : Word
  type : Word
  seq : Word
  num1 : Word
  num2 : Word
  deriving DecidableEq, Repr

def OneNumber.size : Nat := 16

def TwoNumbers.size : Nat := 20

/-- The bytes of the struct in memory. -/
def OneNumber.bytes (o : ByteOrder) (x : OneNumber) : List Byte :=
  structBytes o [x.len, x.type, x.seq, x.num]

def TwoNumbers.bytes (o : ByteOrder) (x : TwoNumbers) : List Byte :=
  structBytes o [x.len, x.type, x.seq, x.num1, x.num2]

/-- The cast of a buffer; `none` when a field lies outside the buffer. -/
def OneNumber.read (o : ByteOrder) (buf : List Byte) : Option OneNumber :=
  if buf.length < OneNumber.size then none
  else some ⟨field o 0 buf, field o 1 buf, field o 2 buf, field o 3 buf⟩

def TwoNumbers.read (o : ByteOrder) (buf : List Byte) : Option TwoNumbers :=
  if buf.length < TwoNumbers.size then none
  else some ⟨field o 0 buf, field o 1 buf, field o 2 buf, field o 3 buf, field o 4 buf⟩

/-- `baseptr->type_` -/
def typeOf (o : ByteOrder) (buf : List Byte) : Option Word :=
  if buf.length < 8 then none else some (field o 1 buf)

/-- `baseptr->seq_` -/
def seqOf (o : ByteOrder) (buf : List Byte) : Option Word :=
  if buf.length < 12 then none else some (field o 2 buf)

@[simp] theorem OneNumber.length_bytes (o : ByteOrder) (x : OneNumber) :
    (x.bytes o).length = OneNumber.size := by
  simp [OneNumber.bytes, OneNumber.size]

@[simp] theorem TwoNumbers.length_bytes (o : ByteOrder) (x : TwoNumbers) :
    (x.bytes o).length = TwoNumbers.size := by
  simp [TwoNumbers.bytes, TwoNumbers.size]

theorem OneNumber.field_bytes (o : ByteOrder) (x : OneNumber) {i : Nat} {y : Word}
    (h : [x.len, x.type, x.seq, x.num][i]? = some y) : field o i (x.bytes o) = y := by
  have hfield := field_structBytes o [] h
  rwa [List.append_nil] at hfield

theorem TwoNumbers.field_bytes (o : ByteOrder) (x : TwoNumbers) {i : Nat} {y : Word}
    (h : [x.len, x.type, x.seq, x.num1, x.num2][i]? = some y) : field o i (x.bytes o) = y := by
  have hfield := field_structBytes o [] h
  rwa [List.append_nil] at hfield

/-- **A struct is read as it was sent**, on a host of the same byte order. -/
theorem OneNumber.read_bytes (o : ByteOrder) (x : OneNumber) :
    OneNumber.read o (x.bytes o) = some x := by
  have hlen : ¬ (x.bytes o).length < OneNumber.size := by simp
  rw [OneNumber.read, if_neg hlen, x.field_bytes o (y := x.len) rfl,
    x.field_bytes o (y := x.type) rfl,
    x.field_bytes o (y := x.seq) rfl, x.field_bytes o (y := x.num) rfl]

theorem TwoNumbers.read_bytes (o : ByteOrder) (x : TwoNumbers) :
    TwoNumbers.read o (x.bytes o) = some x := by
  have hlen : ¬ (x.bytes o).length < TwoNumbers.size := by simp
  rw [TwoNumbers.read, if_neg hlen, x.field_bytes o (y := x.len) rfl,
    x.field_bytes o (y := x.type) rfl,
    x.field_bytes o (y := x.seq) rfl, x.field_bytes o (y := x.num1) rfl,
    x.field_bytes o (y := x.num2) rfl]

theorem OneNumber.typeOf_bytes (o : ByteOrder) (x : OneNumber) :
    typeOf o (x.bytes o) = some x.type := by
  have hlen : ¬ (x.bytes o).length < 8 := by simp [OneNumber.size]
  rw [typeOf, if_neg hlen, x.field_bytes o (y := x.type) rfl]

theorem TwoNumbers.typeOf_bytes (o : ByteOrder) (x : TwoNumbers) :
    typeOf o (x.bytes o) = some x.type := by
  have hlen : ¬ (x.bytes o).length < 8 := by simp [TwoNumbers.size]
  rw [typeOf, if_neg hlen, x.field_bytes o (y := x.type) rfl]

/-! ## 2. What a party sees in a buffer -/

/-- A buffer by its type, with the fields the programs use. -/
inductive View
  | reqToBF (seq a b : Word)
  | rspFromBF (seq sum error : Word)
  | reqToBB (k : BB) (seq num : Word)
  | rspFromBB (k : BB) (seq num : Word)
  /-- no `PacketType` -/
  | other
  /-- a field would be read outside the buffer -/
  | short
  deriving DecidableEq, Repr

/-- The struct with two numbers that the buffer is cast to. -/
def viewTwo (o : ByteOrder) (buf : List Byte) (f : Word → Word → Word → View) : View :=
  match TwoNumbers.read o buf with
  | none => .short
  | some x => f x.seq x.num1 x.num2

def viewOne (o : ByteOrder) (buf : List Byte) (f : Word → Word → View) : View :=
  match OneNumber.read o buf with
  | none => .short
  | some x => f x.seq x.num

/-- The buffer as a packet of this type. -/
def viewAs (o : ByteOrder) (buf : List Byte) : PacketType → View
  | .reqToBF => viewTwo o buf .reqToBF
  | .rspFromBF => viewTwo o buf .rspFromBF
  | .reqToBB k => viewOne o buf (.reqToBB k)
  | .rspFromBB k => viewOne o buf (.rspFromBB k)

def view (o : ByteOrder) (buf : List Byte) : View :=
  match typeOf o buf with
  | none => .short
  | some type =>
    match PacketType.ofWord? type with
    | none => .other
    | some t => viewAs o buf t

theorem view_of_type {o : ByteOrder} {buf : List Byte} {t : PacketType}
    (h : typeOf o buf = some t.word) : view o buf = viewAs o buf t := by
  simp only [view, h, PacketType.ofWord?_word]

/-- **What was sent is seen.** -/
theorem view_two (o : ByteOrder) (t : PacketType) (len seq num1 num2 : Word) :
    view o (TwoNumbers.bytes o ⟨len, t.word, seq, num1, num2⟩)
      = viewAs o (TwoNumbers.bytes o ⟨len, t.word, seq, num1, num2⟩) t :=
  view_of_type (TwoNumbers.typeOf_bytes o _)

theorem view_one (o : ByteOrder) (t : PacketType) (len seq num : Word) :
    view o (OneNumber.bytes o ⟨len, t.word, seq, num⟩)
      = viewAs o (OneNumber.bytes o ⟨len, t.word, seq, num⟩) t :=
  view_of_type (OneNumber.typeOf_bytes o _)

theorem view_rspFromBF (o : ByteOrder) (len seq sum error : Word) :
    view o (TwoNumbers.bytes o ⟨len, PacketType.rspFromBF.word, seq, sum, error⟩)
      = .rspFromBF seq sum error := by
  rw [view_two, viewAs, viewTwo, TwoNumbers.read_bytes]

theorem view_reqToBB (o : ByteOrder) (k : BB) (len seq num : Word) :
    view o (OneNumber.bytes o ⟨len, (PacketType.reqToBB k).word, seq, num⟩) =
      .reqToBB k seq num := by
  rw [view_one, viewAs, viewOne, OneNumber.read_bytes]

theorem view_rspFromBB (o : ByteOrder) (k : BB) (len seq num : Word) :
    view o (OneNumber.bytes o ⟨len, (PacketType.rspFromBB k).word, seq, num⟩) =
      .rspFromBB k seq num := by
  rw [view_one, viewAs, viewOne, OneNumber.read_bytes]

/-- The type of the packet that is seen. -/
def View.type? : View → Option PacketType
  | .reqToBF _ _ _ => some .reqToBF
  | .rspFromBF _ _ _ => some .rspFromBF
  | .reqToBB k _ _ => some (.reqToBB k)
  | .rspFromBB k _ _ => some (.rspFromBB k)
  | .other | .short => none

/-- **A packet is seen by its `type_`.** -/
theorem typeOf_of_view {o : ByteOrder} {buf : List Byte} {t : PacketType}
    (h : (view o buf).type? = some t) : typeOf o buf = some t.word := by
  unfold view at h
  split at h
  · cases h
  · rename_i type htype
    split at h
    · cases h
    · rename_i t' ht'
      rw [htype, PacketType.eq_word_of_ofWord? ht']
      cases t' with
      | reqToBF | rspFromBF =>
        simp only [viewAs, viewTwo] at h
        split at h <;> cases h
        rfl
      | reqToBB k | rspFromBB k =>
        simp only [viewAs, viewOne] at h
        split at h <;> cases h
        rfl

end Kknf.Asio2.TestGateway
