/-
# Integers as bytes, in either byte order

The network code reads a length with `*(int*)p` and turns it round with `ntohl`, and writes one
back the same way.  What these two do depends on the byte order of the host; what they do
TOGETHER does not.  This file defines the two halves for both orders and proves that the pair is
big-endian decoding (`networkToHostLong_load32`) and big-endian encoding
(`store32_networkToHostLong`), and that these two invert each other.

`int32` and `sizeT` are the conversions to a signed 32-bit and an unsigned 64-bit integer.
-/
import Mathlib.Tactic.NormNum
import Mathlib.Data.UInt

namespace Kknf

abbrev Byte := UInt8

/-! ## 1. Little- and big-endian numerals -/

/-- The number a little-endian list of bytes stands for. -/
def ofBytesLE : List Byte → Nat
  | [] => 0
  | b :: t => b.toNat + 256 * ofBytesLE t

/-- The `k` low bytes of a number, the lowest first. -/
def toBytesLE : Nat → Nat → List Byte
  | 0, _ => []
  | k + 1, n => UInt8.ofNat n :: toBytesLE k (n / 256)

/-- The number a big-endian list of bytes stands for. -/
def ofBytesBE (l : List Byte) : Nat := ofBytesLE l.reverse

/-- The `k` low bytes of a number, the lowest last. -/
def toBytesBE (k n : Nat) : List Byte := (toBytesLE k n).reverse

@[simp] theorem length_toBytesLE : ∀ k n : Nat, (toBytesLE k n).length = k
  | 0, _ => rfl
  | k + 1, n => by simp [toBytesLE, length_toBytesLE k]

@[simp] theorem length_toBytesBE (k n : Nat) : (toBytesBE k n).length = k := by
  simp [toBytesBE]

theorem toBytesLE_ofBytesLE : ∀ l : List Byte, toBytesLE l.length (ofBytesLE l) = l
  | [] => rfl
  | b :: t => by
    have hb : b.toNat < 256 := b.toNat_lt
    have hdiv : (b.toNat + 256 * ofBytesLE t) / 256 = ofBytesLE t := by omega
    have hmod : UInt8.ofNat (b.toNat + 256 * ofBytesLE t) = b := by
      apply UInt8.toNat.inj
      rw [UInt8.toNat_ofNat']
      omega
    simp only [List.length_cons, ofBytesLE, toBytesLE, hdiv, hmod, toBytesLE_ofBytesLE t]

theorem ofBytesLE_lt : ∀ l : List Byte, ofBytesLE l < 256 ^ l.length
  | [] => by simp [ofBytesLE]
  | b :: t => by
    have hb : b.toNat < 256 := b.toNat_lt
    have ih := ofBytesLE_lt t
    simp only [ofBytesLE, List.length_cons, pow_succ]
    omega

theorem toBytesBE_ofBytesBE {l : List Byte} {k : Nat} (h : l.length = k) :
    toBytesBE k (ofBytesBE l) = l := by
  have hlen : l.reverse.length = k := by rw [List.length_reverse, h]
  unfold toBytesBE ofBytesBE
  rw [← hlen, toBytesLE_ofBytesLE, List.reverse_reverse]

theorem ofBytesLE_toBytesLE : ∀ {k n : Nat}, n < 256 ^ k → ofBytesLE (toBytesLE k n) = n
  | 0, n, h => by simp [toBytesLE, ofBytesLE]; omega
  | k + 1, n, h => by
    have hdiv : n / 256 < 256 ^ k := by
      rw [pow_succ] at h
      exact Nat.div_lt_of_lt_mul (by rwa [mul_comm])
    simp only [toBytesLE, ofBytesLE, ofBytesLE_toBytesLE hdiv, UInt8.toNat_ofNat']
    omega

theorem ofBytesBE_toBytesBE {k n : Nat} (h : n < 256 ^ k) : ofBytesBE (toBytesBE k n) = n := by
  rw [ofBytesBE, toBytesBE, List.reverse_reverse, ofBytesLE_toBytesLE h]

/-! ## 2. Loads, stores and `ntohl` -/

/-- The byte order of the host. -/
inductive ByteOrder
  | little
  | big
  deriving DecidableEq, Repr

/-- `*(int*)p`, as an unsigned number. -/
def load32 (o : ByteOrder) (p : List Byte) : Nat :=
  match o with
  | .little => ofBytesLE (p.take 4)
  | .big => ofBytesBE (p.take 4)

/-- The bytes `*(int*)p = n` writes. -/
def store32 (o : ByteOrder) (n : Nat) : List Byte :=
  match o with
  | .little => toBytesLE 4 n
  | .big => toBytesBE 4 n

/-- `network_to_host_long`: a byte swap on a little-endian host, nothing on a big-endian one. -/
def networkToHostLong (o : ByteOrder) (n : Nat) : Nat :=
  match o with
  | .little => ofBytesBE (toBytesLE 4 n)
  | .big => n

/-- **Loading and swapping is big-endian decoding**, whatever the host. -/
theorem networkToHostLong_load32 (o : ByteOrder) {p : List Byte} (h : 4 ≤ p.length) :
    networkToHostLong o (load32 o p) = ofBytesBE (p.take 4) := by
  cases o with
  | little =>
    have hlen : (p.take 4).length = 4 := by rw [List.length_take]; omega
    have hrt : toBytesLE 4 (ofBytesLE (p.take 4)) = p.take 4 := by
      rw [← hlen]
      simpa [hlen] using toBytesLE_ofBytesLE (p.take 4)
    simp only [networkToHostLong, load32, hrt]
  | big => rfl

/-- **Swapping and storing is big-endian encoding**, whatever the host. -/
theorem store32_networkToHostLong (o : ByteOrder) (n : Nat) :
    store32 o (networkToHostLong o n) = toBytesBE 4 n := by
  cases o with
  | little =>
    have hlen : (toBytesBE 4 n).length = 4 := length_toBytesBE 4 n
    have hrt := toBytesLE_ofBytesLE (toBytesBE 4 n)
    rw [hlen] at hrt
    exact hrt
  | big => rfl

/-! ## 3. Machine integers -/

/-- Conversion to a signed 32-bit integer. -/
def int32 (x : Int) : Int := Int.bmod x (2 ^ 32)

/-- Conversion to an unsigned 64-bit integer. -/
def sizeT (x : Int) : Nat := (x % 2 ^ 64).toNat

/-- Subtraction of unsigned 32-bit integers. -/
def sub32 (a b : Nat) : Nat := (((a : Int) - b) % 2 ^ 32).toNat

theorem sub32_eq {a b : Nat} (h : b ≤ a) (ha : a < 2 ^ 32) : sub32 a b = a - b := by
  unfold sub32
  omega

theorem int32_eq {x : Int} (hlo : -2 ^ 31 ≤ x) (hhi : x < 2 ^ 31) : int32 x = x := by
  unfold int32
  rw [Int.bmod_def]
  split <;> omega

theorem sizeT_eq {x : Int} (hlo : 0 ≤ x) (hhi : x < 2 ^ 64) : sizeT x = x.toNat := by
  unfold sizeT
  rw [Int.emod_eq_of_lt hlo hhi]

end Kknf
