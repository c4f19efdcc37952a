/-
The text that arrives. The consumer prints a payload with `%.*s`: all of it,
or up to its first zero byte. There is no length in a segment, so the zeroes
that pad the last chunk and those of the file itself look the same; a file
with a zero byte in it is printed without the rest of that chunk. An empty
file has no chunk at all, and the loop that builds segment 1 reads past the
end of an empty buffer.
-/
import Mathlib.Data.List.GetD
import Mathlib.Data.List.TakeWhile
import Sockets.Udp.Chunks

namespace Sockets.Udp

/-- What the consumer prints of a payload. -/
def printedText (payload : Vector UInt8 udpPayloadSize) : List UInt8 := payload.toList.takeWhile (· ≠ 0)

/-- What a segment is built with besides the file and its number. -/
structure Header where
  recvRwnd : Int
  segToSend : Int
  now : Int

/-- Segment `i` of the file, as the send loop builds it. -/
def cutSegment (data : List UInt8) (header : Int → Header) (i : Int) : Option Segment :=
  buildSegment (some data) i (header i).recvRwnd (header i).segToSend (header i).now

/-- The segments 1 to `n`; `none` if the file's buffer is indexed outside while one of them is built. -/
def cutSegments (data : List UInt8) (header : Int → Header) (n : Nat) : Option (List Segment) :=
  (List.range n).mapM fun (i : Nat) => cutSegment data header (i + 1)

/-- Some segment, and no other, is marked as the last one; all up to it can be built, and
printed they make up the file. -/
def FileArrives (data : List UInt8) (header : Int → Header) : Prop :=
  ∃ n segs, cutSegments data header n = some segs ∧
    (∀ i : Int, (∃ seg, cutSegment data header i = some seg ∧ 0 < seg.isEof) ↔ i = n) ∧
    (segs.flatMap fun seg => printedText seg.payload) = data

variable {data : List UInt8} {header : Int → Header}

/-! ## Cutting -/

theorem cutSegment_isChunk {i : Int} {seg : Segment} (h : cutSegment data header i = some seg) :
    IsChunk data (i - 1).toNat seg ∧ seg.sequenceNum = i :=
  isChunk_of_builtAt ⟨_, _, h⟩

theorem cutSegment_isSome (header : Int → Header) (hlen : data.length < 2 ^ 31) {i : Nat}
    (hi : i * udpPayloadSize < data.length) : ∃ seg, cutSegment data header (i + 1) = some seg :=
  buildSegment_isSome hlen hi _ _ _

/-- A last segment is only found in a file whose length fits an `int`. -/
theorem cutSegment_eof {i : Int} {seg : Segment} (h : cutSegment data header i = some seg)
    (heof : 0 < seg.isEof) : data.length < 2 ^ 31 := by
  obtain ⟨hf, -⟩ | ⟨data', head, hf, -, -, hhead, -, h⟩ := buildSegment_eq_some h
  · cases hf
  · cases hf
    exact copyPayload_eof h (by omega)

/-- Of a file whose length fits, all chunks can be cut. -/
theorem cutSegments_eq_some (header : Int → Header) (hlen : data.length < 2 ^ 31) {n : Nat}
    (hn : n ≤ numChunks data) : ∃ segs, cutSegments data header n = some segs ∧
      segs.map (·.payload) = (List.range n).map fun i => bytesAt data (i * udpPayloadSize) := by
  induction n with
  | zero => exact ⟨[], rfl, rfl⟩
  | succ n ih =>
    obtain ⟨segs, hsegs, hpayloads⟩ := ih (by omega)
    obtain ⟨seg, hseg⟩ := cutSegment_isSome header hlen (mul_lt_of_lt_numChunks hn)
    obtain ⟨hchunk, -⟩ := cutSegment_isChunk hseg
    refine ⟨segs ++ [seg], ?_, ?_⟩
    · unfold cutSegments at hsegs ⊢
      rw [List.range_succ, List.mapM_append, hsegs]
      simp [hseg]
    · have hpayload : seg.payload = bytesAt data (n * udpPayloadSize) := by
        simpa using hchunk.payload
      rw [List.range_succ, List.map_append, List.map_append, hpayloads]
      simp [hpayload]

/-- The last chunk is the one marked. -/
theorem eof_iff (hlen : data.length < 2 ^ 31) (hne : data ≠ []) (i : Int) :
    (∃ seg, cutSegment data header i = some seg ∧ 0 < seg.isEof) ↔ i = numChunks data := by
  have hpos : 0 < data.length := List.length_pos_of_ne_nil hne
  have hchunks : 0 < numChunks data := by
    unfold numChunks udpPayloadSize
    omega
  constructor
  · rintro ⟨seg, hseg, heof⟩
    obtain ⟨hchunk, hnum⟩ := cutSegment_isChunk hseg
    have hmarked := hchunk.isEof
    have hseq := hchunk.sequenceNum
    split at hmarked
    next hlast => omega
    next => omega
  · rintro rfl
    have hlt : numChunks data - 1 < numChunks data := by omega
    obtain ⟨seg, hseg⟩ := cutSegment_isSome header hlen (mul_lt_of_lt_numChunks hlt)
    have hcast : ((numChunks data - 1 : Nat) : Int) + 1 = numChunks data := by omega
    rw [hcast] at hseg
    obtain ⟨hchunk, -⟩ := cutSegment_isChunk hseg
    refine ⟨seg, hseg, ?_⟩
    rw [hchunk.isEof, if_pos (by omega)]
    exact Int.zero_lt_one

/-! ## Printing -/

/-- A payload holds the bytes of the file from `start` on, and then zeroes. -/
theorem bytesAt_toList (start : Nat) : (bytesAt data start).toList =
    (data.drop start).take udpPayloadSize ++
      List.replicate (udpPayloadSize - (data.length - start)) 0 := by
  apply List.ext_getElem
  · simp
    omega
  · intro i hi _
    have hlt : i < udpPayloadSize := by simpa using hi
    simp only [bytesAt, Vector.getElem_toList, Vector.getElem_ofFn, List.getElem_append, List.length_take,
      List.length_drop, List.getElem_take, List.getElem_drop, List.getElem_replicate]
    split
    next hin => rw [List.getD_eq_getElem _ _ (by omega)]
    next hout => rw [List.getD_eq_default _ _ (by omega)]

/-- What is printed has no zero byte in it. -/
theorem zero_notMem_printedText (payload : Vector UInt8 udpPayloadSize) : 0 ∉ printedText payload := by
  intro h
  simpa using List.mem_takeWhile_imp h

/-- Without zero bytes in the file, what is printed of a chunk is all of it. -/
theorem printedText_of_notMem (hzero : 0 ∉ data) (start : Nat) :
    printedText (bytesAt data start) = (data.drop start).take udpPayloadSize := by
  have hnot : ∀ byte ∈ (data.drop start).take udpPayloadSize, decide (byte ≠ 0) = true := by
    intro byte hbyte
    have hmem : byte ∈ data := List.mem_of_mem_drop (List.mem_of_mem_take hbyte)
    simp only [ne_eq, decide_not, Bool.not_eq_true', decide_eq_false_iff_not]
    rintro rfl
    exact hzero hmem
  rw [printedText, bytesAt_toList, List.takeWhile_append_of_pos hnot]
  cases udpPayloadSize - (data.length - start) <;> simp [List.replicate_succ]

/-- Consecutive pieces make up the list. -/
theorem flatMap_range_pieces {α : Type} (l : List α) (size n : Nat) :
    (List.range n).flatMap (fun i => (l.drop (i * size)).take size) = l.take (n * size) := by
  induction n with
  | zero => simp
  | succ n ih => rw [List.range_succ, List.flatMap_append, ih, Nat.succ_mul, List.take_add]; simp

theorem printed_eq (hzero : 0 ∉ data) {segs : List Segment} {n : Nat} (hn : data.length ≤ n * udpPayloadSize)
    (hsegs : segs.map (·.payload) = (List.range n).map fun i => bytesAt data (i * udpPayloadSize)) :
    (segs.flatMap fun seg => printedText seg.payload) = data := by
  calc (segs.flatMap fun seg => printedText seg.payload)
      = (segs.map (·.payload)).flatMap printedText := by rw [List.flatMap_map]
    _ = (List.range n).flatMap fun i => printedText (bytesAt data (i * udpPayloadSize)) := by
      rw [hsegs, List.flatMap_map]
    _ = (List.range n).flatMap fun i => (data.drop (i * udpPayloadSize)).take udpPayloadSize := by
      simp only [printedText_of_notMem hzero]
    _ = data.take (n * udpPayloadSize) := flatMap_range_pieces data udpPayloadSize n
    _ = data := List.take_of_length_le hn

/-- **The file arrives, exactly.** Cut and printed, a file arrives unchanged if and only if
it is not empty, has no zero byte in it, and its length fits an `int`. -/
theorem fileArrives_iff (data : List UInt8) (header : Int → Header) :
    FileArrives data header ↔ data ≠ [] ∧ 0 ∉ data ∧ data.length < 2 ^ 31 := by
  constructor
  · rintro ⟨n, segs, -, heof, hprinted⟩
    obtain ⟨seg, hseg, hlast⟩ := (heof n).mpr rfl
    refine ⟨?_, ?_, cutSegment_eof hseg hlast⟩
    · rintro rfl
      have hlt := (cutSegment_isChunk hseg).1.lt
      simp [numChunks, udpPayloadSize] at hlt
    · intro hzero
      rw [← hprinted] at hzero
      obtain ⟨seg, -, hmem⟩ := List.mem_flatMap.mp hzero
      exact zero_notMem_printedText seg.payload hmem
  · rintro ⟨hne, hzero, hlen⟩
    obtain ⟨segs, hsegs, hpayloads⟩ := cutSegments_eq_some header hlen (le_refl _)
    refine ⟨numChunks data, segs, hsegs, eof_iff hlen hne, printed_eq hzero ?_ hpayloads⟩
    unfold numChunks udpPayloadSize
    omega

/-- A file of one zero byte is printed as nothing, and an empty file is read past its end. -/
theorem not_fileArrives :
    ¬ FileArrives [0] (fun _ => { recvRwnd := 5, segToSend := 1, now := 0 }) ∧
    ¬ FileArrives [] (fun _ => { recvRwnd := 5, segToSend := 1, now := 0 }) := by
  constructor
  · rintro ⟨n, segs, -, -, hprinted⟩
    have hzero : (0 : UInt8) ∈ segs.flatMap fun seg => printedText seg.payload := by
      rw [hprinted]
      exact List.mem_singleton.mpr rfl
    obtain ⟨seg, -, hmem⟩ := List.mem_flatMap.mp hzero
    exact zero_notMem_printedText seg.payload hmem
  · rintro ⟨n, segs, -, heof, -⟩
    obtain ⟨seg, hseg, -⟩ := (heof n).mpr rfl
    have hlt := (cutSegment_isChunk hseg).1.lt
    simp [numChunks, udpPayloadSize] at hlt

end Sockets.Udp
