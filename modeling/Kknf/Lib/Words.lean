/-
# Packed structs of 32-bit fields

A struct declared under `#pragma pack(1)` whose members are all `int`s is laid out as its fields one
after the other, four bytes each, in the byte order of the host.  A program that sends such a struct
copies its bytes out of memory, and the one that receives it reads the fields where they are
expected.

Whether the two agree depends on what is done to the fields in between.  A field put through `htonl`
before it is sent and through `ntohl` after it has arrived is the same on every pair of hosts
(`ntohl_field_htonl`); one that is sent as it is needs hosts of the same byte order
(`field_structBytes`).
-/
import Mathlib.Data.BitVec
import Kknf.Lib.Bytes

namespace Kknf

/-- An `int` of 32 bits, with the arithmetic of the machine. -/
abbrev Word := BitVec 32

namespace Words

/-! ## 1. Layout -/

/-- The bytes of one field. -/
def storeWord (o : ByteOrder) (x : Word) : List Byte := store32 o x.toNat

/-- The bytes of a struct with these fields. -/
def structBytes (o : ByteOrder) (xs : List Word) : List Byte := (xs.map (storeWord o)).flatten

/-- The field number `i` of the struct at the beginning of `p`. -/
def field (o : ByteOrder) (i : Nat) (p : List Byte) : Word :=
  BitVec.ofNat 32 (load32 o (p.drop (4 * i)))

/-- `htonl` and `ntohl`, which are the same function. -/
def htonl (o : ByteOrder) (x : Word) : Word := BitVec.ofNat 32 (networkToHostLong o x.toNat)

abbrev ntohl := htonl

@[simp] theorem length_storeWord (o : ByteOrder) (x : Word) : (storeWord o x).length = 4 := by
  cases o with
  | little => exact length_toBytesLE 4 x.toNat
  | big => exact length_toBytesBE 4 x.toNat

@[simp] theorem length_structBytes (o : ByteOrder) (xs : List Word) :
    (structBytes o xs).length = 4 * xs.length := by
  induction xs with
  | nil => rfl
  | cons x xs ih =>
    have hcons : structBytes o (x :: xs) = storeWord o x ++ structBytes o xs := rfl
    rw [hcons, List.length_append, ih, length_storeWord, List.length_cons]
    omega

/-! ## 2. Reading what was laid out -/

theorem load32_store32 (o : ByteOrder) {n : Nat} (h : n < 2 ^ 32) (t : List Byte) :
    load32 o (store32 o n ++ t) = n := by
  have h256 : n < 256 ^ 4 := by simpa using h
  cases o with
  | little =>
    have htake : (toBytesLE 4 n ++ t).take 4 = toBytesLE 4 n :=
      List.take_left' (length_toBytesLE 4 n)
    simp only [load32, store32, htake, ofBytesLE_toBytesLE h256]
  | big =>
    have htake : (toBytesBE 4 n ++ t).take 4 = toBytesBE 4 n :=
      List.take_left' (length_toBytesBE 4 n)
    simp only [load32, store32, htake, ofBytesBE_toBytesBE h256]

theorem field_zero (o : ByteOrder) (x : Word) (t : List Byte) :
    field o 0 (storeWord o x ++ t) = x := by
  have hload : load32 o (storeWord o x ++ t) = x.toNat := load32_store32 o x.isLt t
  simp only [field, Nat.mul_zero, List.drop_zero, hload, BitVec.ofNat_toNat, BitVec.setWidth_eq]

/-- **A field is read as it was stored**, on a host of the same byte order and whatever follows the
struct. -/
theorem field_structBytes (o : ByteOrder) (t : List Byte) {x : Word} : ∀ {xs : List Word} {i : Nat},
    xs[i]? = some x → field o i (structBytes o xs ++ t) = x := by
  intro xs
  induction xs with
  | nil =>
    intro i h
    cases h
  | cons y ys ih =>
    intro i h
    have hcons : structBytes o (y :: ys) ++ t = storeWord o y ++ (structBytes o ys ++ t) :=
      List.append_assoc (storeWord o y) (structBytes o ys) t
    cases i with
    | zero =>
      cases h
      rw [hcons, field_zero]
    | succ i =>
      have hdrop : (storeWord o y ++ (structBytes o ys ++ t)).drop (4 * (i + 1))
          = (structBytes o ys ++ t).drop (4 * i) := by
        rw [Nat.mul_succ, Nat.add_comm, ← List.drop_drop, List.drop_left' (length_storeWord o y)]
      have hrest : field o i (structBytes o ys ++ t) = x := ih h
      rw [hcons]
      unfold field at hrest ⊢
      rw [hdrop, hrest]

/-- A field is read from its own bytes. -/
theorem field_take (o : ByteOrder) {i n : Nat} (h : 4 * (i + 1) ≤ n) (p : List Byte) :
    field o i (p.take n) = field o i p := by
  have hbytes : ((p.take n).drop (4 * i)).take 4 = (p.drop (4 * i)).take 4 := by
    rw [List.drop_take, List.take_take, min_eq_left (by omega)]
  unfold field
  cases o <;> simp only [load32, hbytes]

/-! ## 3. Network order -/

theorem networkToHostLong_lt (o : ByteOrder) {n : Nat} (h : n < 2 ^ 32) :
    networkToHostLong o n < 2 ^ 32 := by
  cases o with
  | little =>
    have hlt := ofBytesLE_lt (toBytesLE 4 n).reverse
    rw [List.length_reverse, length_toBytesLE] at hlt
    simpa [networkToHostLong, ofBytesBE] using hlt
  | big => exact h

theorem toNat_htonl (o : ByteOrder) (x : Word) :
    (htonl o x).toNat = networkToHostLong o x.toNat := by
  rw [htonl, BitVec.toNat_ofNat, Nat.mod_eq_of_lt (networkToHostLong_lt o x.isLt)]

/-- A field in network order is the same bytes on every host. -/
theorem storeWord_htonl (o : ByteOrder) (x : Word) :
    storeWord o (htonl o x) = toBytesBE 4 x.toNat := by
  rw [storeWord, toNat_htonl, store32_networkToHostLong]

/-- **`ntohl` undoes `htonl`, also across hosts.** -/
theorem ntohl_field_htonl (snd rcv : ByteOrder) (t : List Byte) {x : Word} {xs : List Word}
    {i : Nat} (h : xs[i]? = some x) :
    ntohl rcv (field rcv i (structBytes snd (xs.map (htonl snd)) ++ t)) = x := by
  -- the receiver could have stored the same bytes
  have hbytes : structBytes snd (xs.map (htonl snd)) = structBytes rcv (xs.map (htonl rcv)) := by
    simp only [structBytes, List.map_map, Function.comp_def, storeWord_htonl]
  have hfield : field rcv i (structBytes snd (xs.map (htonl snd)) ++ t) = htonl rcv x := by
    rw [hbytes]
    exact field_structBytes rcv t (by rw [List.getElem?_map, h, Option.map_some])
  have hload : networkToHostLong rcv (load32 rcv (storeWord rcv (htonl rcv x))) = x.toNat := by
    have hlen : 4 ≤ (storeWord rcv (htonl rcv x)).length := (length_storeWord rcv _).ge
    have htake : (toBytesBE 4 x.toNat).take 4 = toBytesBE 4 x.toNat :=
      List.take_of_length_le (length_toBytesBE 4 x.toNat).le
    rw [networkToHostLong_load32 rcv hlen, storeWord_htonl, htake,
      ofBytesBE_toBytesBE (by simpa using x.isLt)]
  have hstored : load32 rcv (storeWord rcv (htonl rcv x)) = (htonl rcv x).toNat := by
    simpa [storeWord] using load32_store32 rcv (htonl rcv x).isLt []
  rw [hfield, ntohl, htonl, ← hstored, hload, BitVec.ofNat_toNat, BitVec.setWidth_eq]

end Words

end Kknf
