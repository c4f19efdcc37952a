/-
The segment of the UDP file transfer, as `unpifiplus.h` declares it, and
the part of C's `int` arithmetic its sender relies on.

`int` and `char` fields are integers here. The wire carries segments: what
the encoders and decoders do to them is a matter of their own.
-/
import Mathlib.Algebra.Group.Int.Defs
import Mathlib.Algebra.Group.Nat.Defs
import Mathlib.Data.List.Basic

namespace Sockets.Udp

abbrev udpPayloadSize : Nat := 491

structure Segment where
  sequenceNum : Int := 0
  ackNum : Int := 0
  isEof : Int := 0
  isProbe : Int := 0
  isComplete : Int := 0
  isResent : Int := 0
  rwnd : Int := 0
  timestamp : Int := 0
  isLastInIter : Int := 0
  payload : Vector UInt8 udpPayloadSize := Vector.replicate udpPayloadSize 0
deriving DecidableEq

/-- The result of signed `int` arithmetic; `none` where it overflows, which
C leaves undefined. -/
def checked (n : Int) : Option Int :=
  if -2 ^ 31 ≤ n ∧ n < 2 ^ 31 then some n else none

/-- The byte `buf[i]`; `none` outside the allocation. -/
def readByte (buf : List UInt8) (i : Int) : Option UInt8 :=
  if 0 ≤ i then buf[i.toNat]? else none

theorem checked_eq_some {n m : Int} (h : checked n = some m) : m = n := by
  unfold checked at h
  split at h
  · exact (Option.some.inj h).symm
  · cases h

theorem readByte_eq_some {buf : List UInt8} {i : Int} {b : UInt8} (h : readByte buf i = some b) :
    0 ≤ i ∧ i.toNat < buf.length ∧ buf.getD i.toNat 0 = b := by
  unfold readByte at h
  split at h
  next hi =>
    obtain ⟨hlt, -⟩ := List.getElem?_eq_some_iff.mp h
    exact ⟨hi, hlt, by simp [List.getD_eq_getElem?_getD, h]⟩
  · cases h

end Sockets.Udp
