/-
The segment on the wire: 512 bytes, of which 21 are the header. Both
programs write it into a buffer byte by byte, `copyIndex` counting on, and
read it in the same way, `byteRead` counting on; so what has been written is
a list that grows at its end, and what is left to read one that shrinks at
its front.

The code that writes stands in four places: three copies agree, and the
fourth leaves a field out (`timeWait_undefined`). The code that reads stands
in two; they differ in whether a byte of the buffer is a signed `char`,
which makes no difference (`decodeSegment_eq`).
-/
import Sockets.Lib.Codec
import Sockets.Udp.Segment
import Sockets.Udp.Timer

namespace Sockets.Udp

abbrev udpSegmentSize : Nat := 512

/-- A segment buffer as it is sent: `none` is a byte that nothing was written to. -/
abbrev Datagram : Type := Vector (Option UInt8) udpSegmentSize

/-- The buffer after these bytes were written to it, from the front; `none` when they go past
its end. -/
def segBuf (written : List UInt8) : Option Datagram :=
  if written.length ≤ udpSegmentSize then some (Vector.ofFn fun i => written[i.val]?) else none

/-! ## Writing -/

/-- The bytes of `converter`. -/
def converter (n : Int) : List UInt8 :=
  [lowByte (n >>> (24 : Nat)), lowByte (n >>> (16 : Nat)), lowByte (n >>> (8 : Nat)), lowByte n]

/-- The code that writes a segment, in three of the four places. -/
def encodeSegment (seg : Segment) : List UInt8 :=
  converter seg.sequenceNum ++ converter seg.ackNum ++
    [lowByte seg.isEof, lowByte seg.isProbe, lowByte seg.isComplete, lowByte seg.isResent] ++
    converter seg.rwnd ++ converter seg.timestamp ++ [lowByte seg.isLastInIter] ++ seg.payload.toList

/-- The server's send loop. -/
def encodeData (seg : Segment) : Option Datagram := segBuf (encodeSegment seg)

/-- The server's timeout branch. -/
def encodeTimeout (seg : Segment) : Option Datagram := segBuf (encodeSegment seg)

/-- The client's request loop. -/
def encodeRequest (seg : Segment) : Option Datagram := segBuf (encodeSegment seg)

/-- The client's reply in `TIME_WAIT`, without `is_last_in_iter`. -/
def encodeTimeWait (seg : Segment) : Option Datagram :=
  segBuf (converter seg.sequenceNum ++ converter seg.ackNum ++
    [lowByte seg.isEof, lowByte seg.isProbe, lowByte seg.isComplete, lowByte seg.isResent] ++
    converter seg.rwnd ++ converter seg.timestamp ++ seg.payload.toList)

/-! ## Reading -/

/-- An integer stored in a `char`. -/
def toChar (n : Int) : Int := if n % 2 ^ 8 < 2 ^ 7 then n % 2 ^ 8 else n % 2 ^ 8 - 2 ^ 8

section Read

-- the value of a byte of the buffer
variable (load : UInt8 → Int)

/-- Four bytes, stored in the `unsigned char`s of `converter` and shifted into an `int`. -/
def nextInt : List UInt8 → Option (Int × List UInt8)
  | a :: b :: c :: d :: rest =>
    let converter (byte : UInt8) : Nat := (lowByte (load byte)).toNat
    some (i32 ((converter a <<< 24 ||| converter b <<< 16 ||| converter c <<< 8 ||| converter d : Nat) : Int),
      rest)
  | _ => none

def nextChar : List UInt8 → Option (Int × List UInt8)
  | byte :: rest => some (toChar (load byte), rest)
  | [] => none

def nextPayload (buf : List UInt8) : Option (Vector UInt8 udpPayloadSize × List UInt8) :=
  if udpPayloadSize ≤ buf.length then
    some (Vector.ofFn fun j => lowByte (load (buf.getD j.val 0)), buf.drop udpPayloadSize)
  else none

def decodeSegment (buf : List UInt8) : Option Segment := do
  let (sequenceNum, buf) ← nextInt load buf
  let (ackNum, buf) ← nextInt load buf
  let (isEof, buf) ← nextChar load buf
  let (isProbe, buf) ← nextChar load buf
  let (isComplete, buf) ← nextChar load buf
  let (isResent, buf) ← nextChar load buf
  let (rwnd, buf) ← nextInt load buf
  let (timestamp, buf) ← nextInt load buf
  let (isLastInIter, buf) ← nextChar load buf
  let (payload, _) ← nextPayload load buf
  some { sequenceNum, ackNum, isEof, isProbe, isComplete, isResent, rwnd, timestamp, isLastInIter, payload }

end Read

/-- The client reads a segment from a buffer of `unsigned char`s. -/
def decodeData (buf : Vector UInt8 udpSegmentSize) : Option Segment :=
  decodeSegment (fun byte => byte.toNat) buf.toList

/-- The server reads a request from a buffer of `char`s. -/
def decodeRequest (buf : Vector UInt8 udpSegmentSize) : Option Segment :=
  decodeSegment (fun byte => toChar byte.toNat) buf.toList

/-! ## What is meant -/

/-- The values of a `char`. -/
def IsChar (n : Int) : Prop := -2 ^ 7 ≤ n ∧ n < 2 ^ 7

/-- The integers of the segment are `int`s and `char`s. -/
structure Segment.Fits (seg : Segment) : Prop where
  sequenceNum : IsInt32 seg.sequenceNum
  ackNum : IsInt32 seg.ackNum
  isEof : IsChar seg.isEof
  isProbe : IsChar seg.isProbe
  isComplete : IsChar seg.isComplete
  isResent : IsChar seg.isResent
  rwnd : IsInt32 seg.rwnd
  timestamp : IsInt32 seg.timestamp
  isLastInIter : IsChar seg.isLastInIter

/-- All bytes of the datagram are written, and these are they. -/
def Writes (datagram : Option Datagram) (buf : Vector UInt8 udpSegmentSize) : Prop :=
  datagram = some (buf.map some)

/-- The four copies write all bytes, and the same. -/
def EncodersAgree (seg : Segment) : Prop :=
  ∃ buf, Writes (encodeData seg) buf ∧ Writes (encodeTimeout seg) buf ∧ Writes (encodeRequest seg) buf ∧
    Writes (encodeTimeWait seg) buf

/-- What the writer writes the reader reads. -/
def ReadsBack (encode : Segment → Option Datagram) (decode : Vector UInt8 udpSegmentSize → Option Segment) :
    Prop :=
  ∀ seg : Segment, seg.Fits → ∃ buf, Writes (encode seg) buf ∧ decode buf = some seg

/-- What the reader reads is a segment, and the writer writes it back. -/
def WritesBack (encode : Segment → Option Datagram) (decode : Vector UInt8 udpSegmentSize → Option Segment) :
    Prop :=
  ∀ buf, ∃ seg, decode buf = some seg ∧ seg.Fits ∧ Writes (encode seg) buf

/-! ## The code of a segment -/

theorem toChar_lowByte {n : Int} (h : IsChar n) : toChar (lowByte n).toNat = n := by
  obtain ⟨hlo, hhi⟩ := h
  have hbyte := toNat_lowByte n
  unfold toChar
  split <;> omega

theorem isChar_toChar (n : Int) : IsChar (toChar n) ∧ toChar n % 2 ^ 8 = n % 2 ^ 8 := by
  unfold IsChar toChar
  split <;> omega

def char8 : Codec Int UInt8 :=
  .fixed 1 IsChar (fun n => [lowByte n]) (fun l => toChar (l.headD 0).toNat) (fun _ _ => rfl)
    fun _ => toChar_lowByte

theorem char8_exact : char8.Exact := by
  apply Codec.fixed_exact
  intro l hl
  obtain ⟨byte, rfl⟩ := List.length_eq_one_iff.mp hl
  obtain ⟨hchar, hmod⟩ := isChar_toChar byte.toNat
  have hlt := byte.toNat_lt
  refine ⟨hchar, ?_⟩
  rw [List.headD_cons, lowByte_eq (b := byte) (by omega)]

def payloadBytes : Codec (Vector UInt8 udpPayloadSize) UInt8 :=
  .fixed udpPayloadSize (fun _ => True) Vector.toList (fun l => Vector.ofFn fun j => l.getD j.val 0)
    (fun payload _ => payload.length_toList) fun payload _ => by
      apply Vector.ext
      intro i hi
      simp [List.getD_eq_getElem?_getD]

theorem payloadBytes_exact : payloadBytes.Exact := by
  apply Codec.fixed_exact
  intro l hl
  refine ⟨trivial, ?_⟩
  apply List.ext_getElem
  · simp [hl]
  · intro i hi hil
    simp [List.getD_eq_getElem?_getD, List.getElem?_eq_getElem hil]

def Segment.fields (seg : Segment) :=
  (seg.sequenceNum, seg.ackNum, seg.isEof, seg.isProbe, seg.isComplete, seg.isResent, seg.rwnd, seg.timestamp,
    seg.isLastInIter, seg.payload)

def Segment.ofFields : Int × Int × Int × Int × Int × Int × Int × Int × Int × Vector UInt8 udpPayloadSize →
    Segment
  | (sequenceNum, ackNum, isEof, isProbe, isComplete, isResent, rwnd, timestamp, isLastInIter, payload) =>
    { sequenceNum, ackNum, isEof, isProbe, isComplete, isResent, rwnd, timestamp, isLastInIter, payload }

def segmentCodec := int32.pair (int32.pair (char8.pair (char8.pair (char8.pair (char8.pair
  (int32.pair (int32.pair (char8.pair payloadBytes))))))))

theorem segmentCodec_exact : segmentCodec.Exact :=
  int32_exact.pair (int32_exact.pair (char8_exact.pair (char8_exact.pair (char8_exact.pair (char8_exact.pair
    (int32_exact.pair (int32_exact.pair (char8_exact.pair payloadBytes_exact))))))))

theorem segmentCodec_total : segmentCodec.Total udpSegmentSize := by
  have hint := int32_total
  have hchar : char8.Total 1 := Codec.fixed_total
  have hpayload : payloadBytes.Total udpPayloadSize := Codec.fixed_total
  exact hint.pair (hint.pair (hchar.pair (hchar.pair (hchar.pair (hchar.pair
    (hint.pair (hint.pair (hchar.pair hpayload))))))))

/-! ## The programs use it -/

theorem converter_eq (n : Int) : converter n = int32Bytes n := by
  simp only [converter, int32Bytes, Int.shiftRight_eq_div_pow]
  rfl

theorem shifted_or_eq {a b c d : Nat} (hb : b < 2 ^ 8) (hc : c < 2 ^ 8) (hd : d < 2 ^ 8) :
    a <<< 24 ||| b <<< 16 ||| c <<< 8 ||| d = ((a * 2 ^ 8 + b) * 2 ^ 8 + c) * 2 ^ 8 + d := by
  have h₁ : a <<< 24 ||| b <<< 16 = (a * 2 ^ 8 + b) <<< 16 := by
    rw [← Nat.shiftLeft_add_eq_or_of_lt (by rw [Nat.shiftLeft_eq]; omega)]
    simp only [Nat.shiftLeft_eq]
    omega
  have h₂ : (a * 2 ^ 8 + b) <<< 16 ||| c <<< 8 = ((a * 2 ^ 8 + b) * 2 ^ 8 + c) <<< 8 := by
    rw [← Nat.shiftLeft_add_eq_or_of_lt (by rw [Nat.shiftLeft_eq]; omega)]
    simp only [Nat.shiftLeft_eq]
    omega
  rw [h₁, h₂, ← Nat.shiftLeft_add_eq_or_of_lt hd, Nat.shiftLeft_eq]

/-- Shifted into an `int`, the bytes are its two's complement. -/
theorem i32_natOfBytes (a b c d : UInt8) :
    i32 (natOfBytes [a, b, c, d] : Int) = int32OfBytes [a, b, c, d] := by
  have ha := a.toNat_lt
  have hb := b.toNat_lt
  have hc := c.toNat_lt
  have hd := d.toNat_lt
  have hnat : natOfBytes [a, b, c, d] =
      ((a.toNat * 2 ^ 8 + b.toNat) * 2 ^ 8 + c.toNat) * 2 ^ 8 + d.toNat := by
    simp [natOfBytes]
  unfold i32 Int.bmod int32OfBytes
  dsimp only
  split <;> split <;> omega

section Read

variable {load : UInt8 → Int}

theorem nextInt_eq (hload : ∀ byte, lowByte (load byte) = byte) : nextInt load = int32.dec := by
  funext buf
  match buf with
  | [] | [_] | [_, _] | [_, _, _] => rfl
  | a :: b :: c :: d :: rest =>
    have hnat : natOfBytes [a, b, c, d] =
        a.toNat <<< 24 ||| b.toNat <<< 16 ||| c.toNat <<< 8 ||| d.toNat := by
      rw [shifted_or_eq b.toNat_lt c.toNat_lt d.toNat_lt]
      simp [natOfBytes]
    have hdec : int32.dec (a :: b :: c :: d :: rest) = some (int32OfBytes [a, b, c, d], rest) := by
      simp [int32, Codec.fixed]
    rw [hdec, ← i32_natOfBytes, hnat]
    simp only [nextInt, hload]

theorem nextChar_eq (hload : ∀ byte, lowByte (load byte) = byte) : nextChar load = char8.dec := by
  funext buf
  match buf with
  | [] => rfl
  | byte :: rest =>
    have hmod : load byte % 2 ^ 8 = byte.toNat := by
      rw [← toNat_lowByte, hload]
    have hsame : toChar (load byte) = toChar byte.toNat := by
      have hlt := byte.toNat_lt
      unfold toChar
      split <;> split <;> omega
    rw [nextChar, hsame]
    simp [char8, Codec.fixed]

theorem nextPayload_eq (hload : ∀ byte, lowByte (load byte) = byte) : nextPayload load = payloadBytes.dec := by
  funext buf
  simp only [nextPayload, payloadBytes, Codec.fixed, hload]
  split
  next hlen =>
    refine congrArg some (Prod.ext ?_ rfl)
    apply Vector.ext
    intro i hi
    simp only [Vector.getElem_ofFn, List.getD_eq_getElem?_getD]
    rw [List.getElem?_take_of_lt hi]
  · rfl

/-- Whatever the kind of `char`, the reader is that of the code. -/
theorem decodeSegment_eq (hload : ∀ byte, lowByte (load byte) = byte) (buf : List UInt8) :
    decodeSegment load buf = (segmentCodec.dec buf).map fun p => .ofFields p.1 := by
  simp only [decodeSegment, nextInt_eq hload, nextChar_eq hload, nextPayload_eq hload, segmentCodec,
    Codec.pair_dec_map]
  simp only [Option.map_eq_bind]
  rfl

end Read

theorem encodeSegment_eq (seg : Segment) : encodeSegment seg = segmentCodec.enc seg.fields := by
  simp only [encodeSegment, converter_eq, List.append_assoc]
  rfl

theorem Segment.Fits.valid {seg : Segment} (h : seg.Fits) : segmentCodec.Valid seg.fields :=
  ⟨h.sequenceNum, h.ackNum, h.isEof, h.isProbe, h.isComplete, h.isResent, h.rwnd, h.timestamp,
    h.isLastInIter, trivial⟩

/-! ## Both ways -/

theorem length_encodeSegment (seg : Segment) : (encodeSegment seg).length = udpSegmentSize := by
  simp [encodeSegment, converter]

/-- A full buffer has no byte that nothing was written to. -/
theorem segBuf_full {written : List UInt8} (h : written.length = udpSegmentSize) :
    ∃ buf, Writes (segBuf written) buf ∧ buf.toList = written := by
  refine ⟨⟨written.toArray, by simpa using h⟩, ?_, by simp⟩
  rw [Writes, segBuf, if_pos h.le]
  refine congrArg some (Vector.ext ?_)
  intro i hi
  simp [List.getElem?_eq_getElem (show i < written.length by omega)]

section Both

variable {load : UInt8 → Int}

theorem decodeSegment_encode (hload : ∀ byte, lowByte (load byte) = byte) {seg : Segment} (hs : seg.Fits) :
    decodeSegment load (encodeSegment seg) = some seg := by
  have hdec := segmentCodec.dec_enc seg.fields [] hs.valid
  rw [List.append_nil] at hdec
  rw [decodeSegment_eq hload, encodeSegment_eq, hdec]
  rfl

theorem encodeSegment_decode (hload : ∀ byte, lowByte (load byte) = byte) {buf : List UInt8}
    (h : buf.length = udpSegmentSize) :
    ∃ seg, decodeSegment load buf = some seg ∧ seg.Fits ∧ encodeSegment seg = buf := by
  obtain ⟨fields, rest, hdec, hrest⟩ := segmentCodec_total buf h.ge
  have hnil : rest = [] := List.eq_nil_of_length_eq_zero (by omega)
  obtain ⟨hvalid, hsame⟩ := segmentCodec_exact _ _ _ hdec
  obtain ⟨h₁, h₂, h₃, h₄, h₅, h₆, h₇, h₈, h₉, -⟩ := hvalid
  refine ⟨.ofFields fields, by rw [decodeSegment_eq hload, hdec]; rfl,
    ⟨h₁, h₂, h₃, h₄, h₅, h₆, h₇, h₈, h₉⟩, ?_⟩
  rw [encodeSegment_eq, hsame, hnil, List.append_nil]
  rfl

theorem readsBack (hload : ∀ byte, lowByte (load byte) = byte) :
    ReadsBack (fun seg => segBuf (encodeSegment seg)) fun buf => decodeSegment load buf.toList := by
  intro seg hs
  obtain ⟨buf, hwrites, hbuf⟩ := segBuf_full (length_encodeSegment seg)
  refine ⟨buf, hwrites, ?_⟩
  dsimp only
  rw [hbuf, decodeSegment_encode hload hs]

theorem writesBack (hload : ∀ byte, lowByte (load byte) = byte) :
    WritesBack (fun seg => segBuf (encodeSegment seg)) fun buf => decodeSegment load buf.toList := by
  intro buf
  obtain ⟨seg, hdecode, hfits, hencode⟩ := encodeSegment_decode hload buf.length_toList
  obtain ⟨buf', hwrites, hbuf⟩ := segBuf_full (length_encodeSegment seg)
  have hsame : buf' = buf := Vector.toList_inj.mp (hbuf.trans hencode)
  exact ⟨seg, hdecode, hfits, hsame ▸ hwrites⟩

end Both

theorem lowByte_unsigned (byte : UInt8) : lowByte byte.toNat = byte := by
  have hlt := byte.toNat_lt
  exact lowByte_eq (by omega)

theorem lowByte_signed (byte : UInt8) : lowByte (toChar byte.toNat) = byte := by
  have hlt := byte.toNat_lt
  have hmod := (isChar_toChar byte.toNat).2
  exact lowByte_eq (by omega)

/-- **A bijection.** Each program reads what the other writes, every segment and every buffer. -/
theorem segment_bijection :
    ReadsBack encodeData decodeData ∧ ReadsBack encodeRequest decodeRequest ∧
      WritesBack encodeData decodeData ∧ WritesBack encodeRequest decodeRequest :=
  ⟨readsBack lowByte_unsigned, readsBack lowByte_signed, writesBack lowByte_unsigned,
    writesBack lowByte_signed⟩

/-! ## The copy in `TIME_WAIT` -/

/-- Three copies agree. -/
theorem encoders_agree (seg : Segment) : ∃ buf, Writes (encodeData seg) buf ∧ Writes (encodeTimeout seg) buf ∧
    Writes (encodeRequest seg) buf := by
  obtain ⟨buf, hwrites, -⟩ := segBuf_full (length_encodeSegment seg)
  exact ⟨buf, hwrites, hwrites, hwrites⟩

/-- The fourth writes the payload one byte too far in front, and nothing to the last byte. -/
theorem timeWait_undefined (seg : Segment) : ∃ datagram, encodeTimeWait seg = some datagram ∧
    (∀ j (hj : j < udpPayloadSize), datagram[20 + j]? = some (some seg.payload[j])) ∧
      datagram[511]? = some none := by
  have hlength : (converter seg.sequenceNum ++ converter seg.ackNum ++
      [lowByte seg.isEof, lowByte seg.isProbe, lowByte seg.isComplete, lowByte seg.isResent] ++
      converter seg.rwnd ++ converter seg.timestamp).length = 20 := rfl
  have hwritten : encodeTimeWait seg = segBuf (_ ++ seg.payload.toList) := rfl
  generalize converter seg.sequenceNum ++ converter seg.ackNum ++
      [lowByte seg.isEof, lowByte seg.isProbe, lowByte seg.isComplete, lowByte seg.isResent] ++
      converter seg.rwnd ++ converter seg.timestamp = header at hlength hwritten
  have hsize : (header ++ seg.payload.toList).length = 511 := by
    rw [List.length_append, hlength, seg.payload.length_toList]
    rfl
  rw [segBuf, if_pos (by rw [hsize]; decide)] at hwritten
  refine ⟨_, hwritten, ?_, ?_⟩
  · intro j hj
    have hin : j < 491 := hj
    rw [Vector.getElem?_ofFn, dif_pos (show 20 + j < 512 by omega)]
    dsimp only
    rw [List.getElem?_append_right (by omega)]
    simp [hlength, hj]
  · rw [Vector.getElem?_ofFn, dif_pos (by decide), List.getElem?_eq_none (by rw [hsize])]

theorem timeWait_not_writes (seg : Segment) (buf : Vector UInt8 udpSegmentSize) :
    ¬ Writes (encodeTimeWait seg) buf := by
  intro hwrites
  obtain ⟨datagram, hdatagram, -, hlast⟩ := timeWait_undefined seg
  rw [Writes, hdatagram] at hwrites
  rw [Option.some.inj hwrites] at hlast
  simp at hlast

/-- **The copies agree on no segment.** -/
theorem not_encodersAgree (seg : Segment) : ¬ EncodersAgree seg := by
  intro hagree
  obtain ⟨buf, -, -, -, hwrites⟩ := hagree
  exact timeWait_not_writes seg buf hwrites

/-- Such as one the client sends in `TIME_WAIT`, when the transfer had three segments. -/
theorem not_encodersAgree_complete : ¬ EncodersAgree { ackNum := 3, isComplete := 1, rwnd := 8 } := by
  intro hagree
  obtain ⟨buf, -, -, -, hwrites⟩ := hagree
  exact timeWait_not_writes _ buf hwrites

end Sockets.Udp
