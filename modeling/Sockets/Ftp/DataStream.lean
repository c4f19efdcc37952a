/-
What the programs use of Java's data streams: `writeUTF` and `readUTF`,
`writeInt` and `readInt`, `readFully`. None of them reads ahead, so that a
new stream may be put on a socket for each command.

A string is its UTF-16 units, and each unit is written by itself, in one to
three bytes (so a unit of a surrogate pair takes three). In front stands the
number of the bytes, in two bytes: a string of more than 65535 is refused.
-/
import Sockets.Lib.Codec

namespace Sockets.Ftp

abbrev JChar : Type := UInt16

abbrev JString : Type := List JChar

def jchar (c : Char) : JChar := UInt16.ofNat c.toNat

/-- A string literal. -/
def jstring (text : String) : JString := text.toList.map jchar

/-! ## Strings -/

/-- `ofNat` of what is known to be a byte. -/
def byte (n : Nat) : UInt8 := UInt8.ofNat n

theorem toNat_byte {n : Nat} (h : n < 256) : (byte n).toNat = n := UInt8.toNat_ofNat_of_lt' h

/-- The bytes of a unit; the unit 0 takes two. -/
def encodeChar (c : JChar) : List UInt8 :=
  let n := c.toNat
  if 0x01 ≤ n ∧ n ≤ 0x7F then [byte n]
  else if n ≤ 0x7FF then [byte (0xC0 + n / 64), byte (0x80 + n % 64)]
  else [byte (0xE0 + n / 4096), byte (0x80 + n / 64 % 64), byte (0x80 + n % 64)]

def encodeChars (s : JString) : List UInt8 := s.flatMap encodeChar

/-- The six bits of a byte behind the first, if it is one. -/
def tailBits (b : UInt8) : Option Nat :=
  if b.toNat / 64 = 2 then some (b.toNat % 64) else none

/-- The units of the bytes; `none` where Java throws a `UTFDataFormatException`. -/
def decodeChars : List UInt8 → Option JString
  | [] => some []
  | a :: rest =>
    let high := a.toNat / 16
    if high ≤ 7 then (decodeChars rest).map (UInt16.ofNat a.toNat :: ·)
    else if high = 12 ∨ high = 13 then
      match rest with
      | b :: rest => (tailBits b).bind fun y =>
        (decodeChars rest).map (UInt16.ofNat (a.toNat % 32 * 64 + y) :: ·)
      | _ => none
    else if high = 14 then
      match rest with
      | b :: c :: rest => (tailBits b).bind fun y => (tailBits c).bind fun z =>
        (decodeChars rest).map (UInt16.ofNat (a.toNat % 16 * 4096 + y * 64 + z) :: ·)
      | _ => none
    else none

theorem tailBits_byte {n : Nat} (h : n < 64) : tailBits (byte (0x80 + n)) = some n := by
  have hbyte : (byte (0x80 + n)).toNat = 0x80 + n := toNat_byte (by omega)
  rw [tailBits, hbyte, if_pos (by omega)]
  exact congrArg some (by omega)

theorem jchar_ofNat {c : JChar} {n : Nat} (h : n = c.toNat) : UInt16.ofNat n = c := by
  rw [h, UInt16.ofNat_toNat]

/-- Decoding takes one unit at a time from the front. -/
theorem decodeChars_encodeChar (c : JChar) (rest : List UInt8) :
    decodeChars (encodeChar c ++ rest) = (decodeChars rest).map (c :: ·) := by
  have hlt : c.toNat < 65536 := c.toNat_lt
  unfold encodeChar
  dsimp only
  split
  next hone =>
    have ha : (byte c.toNat).toNat = c.toNat := toNat_byte (by omega)
    rw [List.cons_append, List.nil_append, decodeChars.eq_def (_ :: _)]
    dsimp only
    rw [ha, if_pos (by omega), jchar_ofNat rfl]
  next hmore =>
    split
    next htwo =>
      have ha : (byte (0xC0 + c.toNat / 64)).toNat = 0xC0 + c.toNat / 64 := toNat_byte (by omega)
      rw [List.cons_append, List.cons_append, List.nil_append, decodeChars.eq_def (_ :: _)]
      dsimp only
      rw [ha, if_neg (by omega), if_pos (by omega), tailBits_byte (by omega), Option.bind_some,
        jchar_ofNat (c := c) (by omega)]
    next hthree =>
      have ha : (byte (0xE0 + c.toNat / 4096)).toNat = 0xE0 + c.toNat / 4096 := toNat_byte (by omega)
      rw [List.cons_append, List.cons_append, List.cons_append, List.nil_append, decodeChars.eq_def (_ :: _)]
      dsimp only
      rw [ha, if_neg (by omega), if_neg (by omega), if_pos (by omega), tailBits_byte (by omega),
        Option.bind_some, tailBits_byte (by omega), Option.bind_some, jchar_ofNat (c := c) (by omega)]

theorem decodeChars_encodeChars (s : JString) : decodeChars (encodeChars s) = some s := by
  induction s with
  | nil => rfl
  | cons c s ih =>
    rw [encodeChars, List.flatMap_cons, decodeChars_encodeChar, ← encodeChars, ih, Option.map_some]

def ushortBytes (n : Nat) : List UInt8 := [byte (n / 256), byte (n % 256)]

theorem natOfBytes_ushortBytes {n : Nat} (h : n ≤ 65535) : natOfBytes (ushortBytes n) = n := by
  have hhigh : (byte (n / 256)).toNat = n / 256 := toNat_byte (by omega)
  have hlow : (byte (n % 256)).toNat = n % 256 := toNat_byte (by omega)
  simp only [ushortBytes, natOfBytes, List.foldl, hhigh, hlow]
  omega

/-- The length in front of a string. -/
def ushort : Codec Nat UInt8 :=
  .fixed 2 (· ≤ 65535) ushortBytes natOfBytes (fun _ _ => rfl) fun _ => natOfBytes_ushortBytes

/-- `writeUTF` and `readUTF`. -/
def utf : Codec JString UInt8 :=
  (ushort.headed List.length Codec.raw).via encodeChars decodeChars fun s _ => decodeChars_encodeChars s

/-- The length of a string as it is written, without the two bytes in front. -/
def utfLength (s : JString) : Nat := (encodeChars s).length

theorem utf_valid {s : JString} : utf.Valid s ↔ utfLength s ≤ 65535 := by
  simp [utf, Codec.via, Codec.headed, ushort, Codec.fixed, Codec.raw, utfLength]

theorem utfLength_append (s t : JString) : utfLength (s ++ t) = utfLength s + utfLength t := by
  simp [utfLength, encodeChars]

/-- `none` is an exception. -/
def writeUTF (s : JString) : Option (List UInt8) :=
  if utfLength s ≤ 65535 then some (utf.enc s) else none

/-- `none` when more is needed, and when what came is no string. -/
def readUTF : List UInt8 → Option (JString × List UInt8) := utf.dec

theorem writeUTF_eq {s : JString} (h : utfLength s ≤ 65535) : writeUTF s = some (utf.enc s) := if_pos h

/-! ## Numbers and bytes -/

def writeInt (n : Int) : List UInt8 := int32.enc n

def readInt : List UInt8 → Option (Int × List UInt8) := int32.dec

/-- A new array of this size, filled by `readFully`: there is none of a negative size. -/
def readFully (size : Int) (l : List UInt8) : Option (List UInt8 × List UInt8) :=
  if 0 ≤ size then (Codec.raw size.toNat).dec l else none

theorem readFully_append {size : Int} {data : List UInt8} (h : data.length = size) (rest : List UInt8) :
    readFully size (data ++ rest) = some (data, rest) := by
  have hlength : data.length = size.toNat := by omega
  rw [readFully, if_pos (by omega)]
  exact (Codec.raw size.toNat).dec_enc data rest hlength

theorem readFully_more {size : Int} {l data rest : List UInt8} (more : List UInt8)
    (h : readFully size l = some (data, rest)) : readFully size (l ++ more) = some (data, rest ++ more) := by
  simp only [readFully, Option.ite_none_right_eq_some] at h ⊢
  exact ⟨h.1, (Codec.raw size.toNat).dec_append l data rest more h.2⟩

/-- So many bytes as they are. -/
def array (size : Int) : Codec (List UInt8) UInt8 where
  Valid data := data.length = size
  enc := id
  dec := readFully size
  dec_enc _ rest h := readFully_append h rest
  dec_append _ _ _ more h := readFully_more more h

end Sockets.Ftp
