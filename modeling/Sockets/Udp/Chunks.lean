/-
The file as the transfer cuts it: chunks of `UDP_PAYLOAD_SIZE` bytes,
numbered from 1, the last one padded with zero bytes. A segment the send
loop builds is one of them: the copy loop never leaves the file's buffer
(there the model has no outcome), and it sets `is_eof` on the last chunk and
on no other.
-/
import Sockets.Udp.Transfer

namespace Sockets.Udp

/-- The number of chunks of a file. -/
def numChunks (data : List UInt8) : Nat := (data.length + (udpPayloadSize - 1)) / udpPayloadSize

/-- The `udpPayloadSize` bytes from `start` on, zero past the end. -/
def bytesAt (data : List UInt8) (start : Nat) : Vector UInt8 udpPayloadSize :=
  Vector.ofFn fun j => data.getD (start + j) 0

/-- The chunks in order, each with its number. -/
def chunks (data : List UInt8) : List (Int × Vector UInt8 udpPayloadSize) :=
  (List.range (numChunks data)).map fun (i : Nat) => ((i : Int) + 1, bytesAt data (i * udpPayloadSize))

/-- The segment carries chunk `i + 1`, and says it is the last one when it is. -/
structure IsChunk (data : List UInt8) (i : Nat) (seg : Segment) : Prop where
  lt : i < numChunks data
  sequenceNum : seg.sequenceNum = i + 1
  payload : seg.payload = bytesAt data (i * udpPayloadSize)
  isEof : seg.isEof = if i + 1 = numChunks data then 1 else 0
  ackNum : seg.ackNum = 0

theorem chunks_length (data : List UInt8) : (chunks data).length = numChunks data := by simp [chunks]

/-- The chunk after the first `i` of them. -/
theorem take_chunks_succ {data : List UInt8} {i : Nat} (h : i < numChunks data) :
    (chunks data).take (i + 1) =
      (chunks data).take i ++ [((i : Int) + 1, bytesAt data (i * udpPayloadSize))] := by
  rw [List.take_add_one]
  simp [chunks, List.getElem?_range h]

/-- The last chunk reaches the end of the file, and it is the only one. -/
theorem numChunks_eq_iff {data : List UInt8} {i : Nat} (h : i * udpPayloadSize < data.length) :
    i < numChunks data ∧ (i + 1 = numChunks data ↔ data.length ≤ (i + 1) * udpPayloadSize) := by
  unfold numChunks udpPayloadSize at *
  omega

theorem mul_lt_of_lt_numChunks {data : List UInt8} {i : Nat} (h : i < numChunks data) :
    i * udpPayloadSize < data.length := by
  unfold numChunks udpPayloadSize at *
  omega

/-! ## The copy loop -/

/-- With `todo` bytes left, the payload filled so far and the rest zero: the
loop fills it, and sets `is_eof` if the file ends in it. -/
theorem copyPayload_spec {data : List UInt8} (start : Nat) {todo : Nat} {seg seg' : Segment}
    {copyByte : Int}
    (htodo : todo ≤ udpPayloadSize) (hcopy : copyByte = start + (udpPayloadSize - todo : Nat))
    (hlt : todo = 0 → copyByte < data.length)
    (hpay : ∀ j (h : j < udpPayloadSize),
      seg.payload[j] = if j < udpPayloadSize - todo then data.getD (start + j) 0 else 0)
    (h : copyPayload data todo seg copyByte = some seg') :
    start < data.length ∧ seg' = { seg with
      payload := bytesAt data start
      isEof := if data.length ≤ start + udpPayloadSize then 1 else seg.isEof } := by
  induction todo generalizing seg copyByte with
  | zero =>
    have hlt := hlt rfl
    simp only [copyPayload, Option.some.injEq] at h
    subst h
    have hfull : seg.payload = bytesAt data start := by
      ext j hj
      simp [hpay j hj, bytesAt, hj]
    unfold udpPayloadSize at *
    refine ⟨by omega, ?_⟩
    rw [if_neg (by omega), ← hfull]
  | succ todo ih =>
    simp only [copyPayload, Option.bind_eq_bind, Option.bind_eq_some_iff] at h
    obtain ⟨byte, hbyte, next, hnext, h⟩ := h
    obtain ⟨hge, hlt, hget⟩ := readByte_eq_some hbyte
    have hnext := checked_eq_some hnext
    have hstart : start < data.length := by
      unfold udpPayloadSize at *
      omega
    have hfill : ∀ j (hj : j < udpPayloadSize),
        (seg.payload.setIfInBounds (udpPayloadSize - (todo + 1)) byte)[j] =
          if j < udpPayloadSize - todo then data.getD (start + j) 0 else 0 := by
      intro j hj
      have hpos : copyByte.toNat = start + (udpPayloadSize - (todo + 1)) := by omega
      rw [Vector.getElem_setIfInBounds, hpay j hj]
      split
      next he =>
        rw [if_pos (by omega), ← hget, hpos, he]
      next hne =>
        by_cases hj' : j < udpPayloadSize - (todo + 1)
        · rw [if_pos hj', if_pos (by omega)]
        · rw [if_neg hj', if_neg (by omega)]
    split at h
    next hend =>
      simp only [Option.some.injEq] at h
      subst h
      have hfull :
          seg.payload.setIfInBounds (udpPayloadSize - (todo + 1)) byte = bytesAt data start := by
        ext j hj
        simp only [hfill j hj, bytesAt, Vector.getElem_ofFn]
        split
        · rfl
        · rw [List.getD_eq_getElem?_getD, List.getElem?_eq_none (by omega), Option.getD_none]
      refine ⟨hstart, ?_⟩
      simp only [hfull]
      rw [if_pos (by omega)]
    next hend =>
      obtain ⟨-, rfl⟩ := ih (by omega) (by omega) (by omega) hfill h
      exact ⟨hstart, rfl⟩

/-- The loop starts inside the file. -/
theorem copyPayload_nonneg {data : List UInt8} {todo : Nat} {seg seg' : Segment} {copyByte : Int}
    (h : copyPayload data (todo + 1) seg copyByte = some seg') : 0 ≤ copyByte := by
  simp only [copyPayload, Option.bind_eq_bind, Option.bind_eq_some_iff] at h
  obtain ⟨byte, hbyte, -⟩ := h
  exact (readByte_eq_some hbyte).1

/-- Without a file the segment says so; with one, its header is filled in
and then its payload. -/
theorem buildSegment_eq_some {file : Option (List UInt8)} {i recvRwnd segToSend now : Int}
    {seg : Segment} (h : buildSegment file i recvRwnd segToSend now = some seg) :
    (file = none ∧ seg.sequenceNum = -1 ∧ seg.ackNum = -1 ∧ seg.isEof = 0) ∨
    ∃ data head, file = some data ∧ head.sequenceNum = i ∧ head.ackNum = 0 ∧ head.isEof = 0 ∧
      head.payload = Vector.replicate udpPayloadSize 0 ∧
      copyPayload data udpPayloadSize head ((i - 1) * udpPayloadSize) = some seg := by
  unfold buildSegment at h
  cases file with
  | none =>
    left
    simp only [if_true, Option.some.injEq] at h
    subst h
    split <;> split <;> exact ⟨rfl, rfl, rfl, rfl⟩
  | some data =>
    right
    simp only [reduceCtorEq, if_false, Option.bind_eq_bind, Option.bind_eq_some_iff] at h
    obtain ⟨copyByte, hcopy, h⟩ := h
    rw [checked_eq_some hcopy] at h
    refine ⟨data, _, rfl, ?_, ?_, ?_, ?_, h⟩ <;> split <;> split <;> rfl

/-- A segment built from a file is the chunk its number says. -/
theorem isChunk_of_builtAt {data : List UInt8} {recvRwnd i : Int} {seg : Segment}
    (h : BuiltAt (some data) recvRwnd i seg) : IsChunk data (i - 1).toNat seg ∧ seg.sequenceNum = i := by
  obtain ⟨segToSend, now, h⟩ := h
  obtain ⟨hf, -⟩ | ⟨data', head, hf, hseq, hack, heof, hpay, h⟩ := buildSegment_eq_some h
  · cases hf
  cases hf
  have hnonneg := copyPayload_nonneg h
  have hi : i = ((i - 1).toNat : Int) + 1 := by
    unfold udpPayloadSize at hnonneg
    omega
  have hcopy : (i - 1) * udpPayloadSize =
      ((i - 1).toNat * udpPayloadSize : Nat) + (udpPayloadSize - udpPayloadSize : Nat) := by
    rw [Nat.sub_self, Int.natCast_zero, Int.add_zero, Int.natCast_mul]
    congr 1
    omega
  obtain ⟨hstart, rfl⟩ := copyPayload_spec ((i - 1).toNat * udpPayloadSize) (le_refl _) hcopy (by simp)
    (by simp [hpay]) h
  obtain ⟨hlt, hend⟩ := numChunks_eq_iff hstart
  refine ⟨{ lt := hlt, sequenceNum := hseq.trans hi, payload := rfl, isEof := ?_, ackNum := hack }, hseq⟩
  rw [Nat.add_one_mul] at hend
  simp only [hend, heof]

/-- What the copy loop leaves alone. -/
theorem copyPayload_header {data : List UInt8} {todo : Nat} {seg seg' : Segment} {copyByte : Int}
    (h : copyPayload data todo seg copyByte = some seg') :
    seg'.isProbe = seg.isProbe ∧ seg'.isResent = seg.isResent ∧ seg'.isLastInIter = seg.isLastInIter := by
  induction todo generalizing seg copyByte with
  | zero =>
    simp only [copyPayload, Option.some.injEq] at h
    exact h ▸ ⟨rfl, rfl, rfl⟩
  | succ todo ih =>
    simp only [copyPayload, Option.bind_eq_bind, Option.bind_eq_some_iff] at h
    obtain ⟨byte, -, next, -, h⟩ := h
    split at h
    · simp only [Option.some.injEq] at h
      exact h ▸ ⟨rfl, rfl, rfl⟩
    · have hrest := ih h
      exact hrest

/-- The flags of a segment the send loop builds. -/
theorem buildSegment_flags {file : Option (List UInt8)} {i recvRwnd segToSend now : Int} {seg : Segment}
    (h : buildSegment file i recvRwnd segToSend now = some seg) :
    seg.isProbe = (if recvRwnd = 0 then 1 else 0) ∧ seg.isResent = 0 ∧
      seg.isLastInIter = (if segToSend = 0 then 1 else 0) := by
  unfold buildSegment at h
  cases file with
  | none =>
    simp only [if_true, Option.some.injEq] at h
    subst h
    split <;> split <;> exact ⟨rfl, rfl, rfl⟩
  | some data =>
    simp only [reduceCtorEq, if_false, Option.bind_eq_bind, Option.bind_eq_some_iff] at h
    obtain ⟨copyByte, -, h⟩ := h
    obtain ⟨hprobe, hresent, hlast⟩ := copyPayload_header h
    rw [hprobe, hresent, hlast]
    split <;> split <;> exact ⟨rfl, rfl, rfl⟩

/-! ## Where the copy loop goes through -/

/-- Inside a file whose length fits an `int`, it does. -/
theorem copyPayload_isSome {data : List UInt8} (hlen : data.length < 2 ^ 31) (todo : Nat) {seg : Segment}
    {copyByte : Int} (hge : 0 ≤ copyByte) (hlt : copyByte < data.length) :
    ∃ seg', copyPayload data todo seg copyByte = some seg' := by
  induction todo generalizing seg copyByte with
  | zero => exact ⟨seg, rfl⟩
  | succ todo ih =>
    have hbyte : readByte data copyByte = some (data.get ⟨copyByte.toNat, by omega⟩) := by
      rw [readByte, if_pos hge]
      exact List.getElem?_eq_getElem _
    have hnext : checked (copyByte + 1) = some (copyByte + 1) := if_pos ⟨by omega, by omega⟩
    simp only [copyPayload, hbyte, hnext, Option.bind_eq_bind, Option.bind_some]
    split
    · exact ⟨_, rfl⟩
    · exact ih (by omega) (by omega)

/-- Chunk `i + 1` of such a file can be built. -/
theorem buildSegment_isSome {data : List UInt8} (hlen : data.length < 2 ^ 31) {i : Nat}
    (hi : i * udpPayloadSize < data.length) (recvRwnd segToSend now : Int) :
    ∃ seg, buildSegment (some data) (i + 1) recvRwnd segToSend now = some seg := by
  have hcopy : checked (((i : Int) + 1 - 1) * udpPayloadSize) = some (i * udpPayloadSize) := by
    rw [Int.add_sub_cancel]
    exact if_pos ⟨by omega, by omega⟩
  simp only [buildSegment, hcopy, reduceCtorEq, if_false, Option.bind_eq_bind, Option.bind_some]
  exact copyPayload_isSome hlen _ (by omega) (by omega)

/-- Segment `i`, cut out of the file at once. -/
def cutOut (data : List UInt8) (i recvRwnd segToSend now : Int) : Option Segment :=
  if 1 ≤ i ∧ (i - 1).toNat * udpPayloadSize < data.length then
    some {
      sequenceNum := i
      isEof := if data.length ≤ (i - 1).toNat * udpPayloadSize + udpPayloadSize then 1 else 0
      isProbe := if recvRwnd = 0 then 1 else 0
      timestamp := i32 now
      isLastInIter := if segToSend = 0 then 1 else 0
      payload := bytesAt data ((i - 1).toNat * udpPayloadSize) }
  else none

/-- Of a file whose length fits an `int`, the loop builds the segments that can be cut out. -/
theorem buildSegment_eq_cutOut {data : List UInt8} (hlen : data.length < 2 ^ 31) :
    buildSegment (some data) = cutOut data := by
  funext i recvRwnd segToSend now
  unfold cutOut
  split
  next hi =>
    obtain ⟨hpos, hlt⟩ := hi
    have hnat : i = ((i - 1).toNat : Int) + 1 := by omega
    generalize (i - 1).toNat = k at hnat hlt ⊢
    subst hnat
    obtain ⟨seg, hseg⟩ := buildSegment_isSome hlen hlt recvRwnd segToSend now
    have hcopy : checked (((k : Int) + 1 - 1) * udpPayloadSize) = some (k * udpPayloadSize) := by
      rw [Int.add_sub_cancel]
      exact if_pos ⟨by omega, by omega⟩
    rw [hseg]
    simp only [buildSegment, hcopy, reduceCtorEq, if_false, Option.bind_eq_bind, Option.bind_some] at hseg
    obtain ⟨-, rfl⟩ := copyPayload_spec (k * udpPayloadSize) (le_refl _) (by simp) (by simp)
      (by intro j hj; split <;> split <;> simp) hseg
    split <;> split <;> rfl
  next hi =>
    refine Option.eq_none_iff_forall_ne_some.mpr ?_
    intro seg hseg
    obtain ⟨hchunk, hnumber⟩ := isChunk_of_builtAt ⟨_, _, hseg⟩
    have hlt := mul_lt_of_lt_numChunks hchunk.lt
    have hseq := hchunk.sequenceNum
    exact hi ⟨by omega, hlt⟩

/-- To find the end of the file, the loop must count up to its length. -/
theorem copyPayload_eof {data : List UInt8} {todo : Nat} {seg seg' : Segment} {copyByte : Int}
    (h : copyPayload data todo seg copyByte = some seg') (heof : seg'.isEof ≠ seg.isEof) :
    data.length < 2 ^ 31 := by
  induction todo generalizing seg copyByte with
  | zero =>
    simp only [copyPayload, Option.some.injEq] at h
    exact absurd (h ▸ rfl) heof
  | succ todo ih =>
    simp only [copyPayload, Option.bind_eq_bind, Option.bind_eq_some_iff] at h
    obtain ⟨byte, -, next, hnext, h⟩ := h
    split at h
    next hend =>
      unfold checked at hnext
      split at hnext
      · simp only [Option.some.injEq] at hnext
        omega
      · cases hnext
    · have hrest := ih h
      exact hrest heof

end Sockets.Udp
