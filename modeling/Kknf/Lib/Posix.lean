/-
# Results of system calls

`errno` and its values on Linux, and what a non-blocking `read` can do: hand out some of the bytes
that have arrived, or say that there is nothing yet.
-/
import Mathlib.Data.List.TakeDrop
import Kknf.Lib.Bytes

namespace Kknf

abbrev Errno := Nat

def EINTR : Errno := 4
def EAGAIN : Errno := 11
def EWOULDBLOCK : Errno := 11

/-- How a non-blocking `read` finds the connection. -/
inductive Ready
  /-- this many bytes have arrived -/
  | arrived (k : Nat)
  /-- none have -/
  | nothing
  deriving DecidableEq

/-- `read` of up to `n` bytes from the bytes of a connection: what it returns, the bytes, what is
still to come, and `errno`, which a call that does not fail leaves as it is. -/
def readSome (stream : List Byte) (n : Nat) (ready : Ready) (errno : Errno) :
    Int × List Byte × List Byte × Errno :=
  if n = 0 then (0, [], stream, errno)
  else
    match ready with
    | .nothing => (-1, [], stream, EAGAIN)
    | .arrived k =>
      if stream = [] ∨ k = 0 then (-1, [], stream, EAGAIN)
      else
        let data := stream.take (min k n)
        (data.length, data, stream.drop data.length, errno)

/-- A `read` of nothing gives nothing. -/
theorem readSome_zero (stream : List Byte) (ready : Ready) (errno : Errno) :
    readSome stream 0 ready errno = (0, [], stream, errno) := rfl

/-- Any other `read` gets the next bytes of the stream, as many as it asks for or fewer, or says
that there are none. -/
theorem readSome_cases (stream : List Byte) {n : Nat} (hn : 0 < n) (ready : Ready) (errno : Errno) :
    readSome stream n ready errno = (-1, [], stream, EAGAIN) ∨
      ∃ data rest, stream = data ++ rest ∧ 0 < data.length ∧ data.length ≤ n ∧
        readSome stream n ready errno = ((data.length : Int), data, rest, errno) := by
  unfold readSome
  rw [if_neg (Nat.ne_of_gt hn)]
  rcases ready with k | -
  · dsimp only
    split
    · exact Or.inl rfl
    · rename_i hsome
      push Not at hsome
      have hpos : 0 < stream.length := List.length_pos_iff.mpr hsome.1
      have hlen : (stream.take (min k n)).length = min (min k n) stream.length := List.length_take
      refine Or.inr ⟨stream.take (min k n), stream.drop (stream.take (min k n)).length, ?_, ?_, ?_,
        rfl⟩
      · rw [hlen]
        conv_lhs => rw [← List.take_append_drop (min (min k n) stream.length) stream]
        rw [← List.take_eq_take_min]
      · omega
      · omega
  · exact Or.inl rfl

end Kknf
