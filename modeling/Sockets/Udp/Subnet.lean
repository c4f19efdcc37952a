/-
The test for a common subnet, which the client and the server have as the
same text. An address is written out as a string of 32 bits; two of them
have as many leading bits in common as the strings agree (`getLongest`), and
that is compared with the number of bits set in the netmask.

The test is what it is meant to be: for a contiguous mask, as many bits in
common as the mask has are the same network part (`sameSubnet_iff`).

A host keeps a 32-bit integer with its low byte first.
-/
import Sockets.Lib.Decimal
import Sockets.Lib.LongestMatch

namespace Sockets.Udp

/-! ## Addresses -/

/-- The four bytes of an `in_addr`, in the order of the address. -/
structure InAddr where
  a : BitVec 8
  b : BitVec 8
  c : BitVec 8
  d : BitVec 8
deriving DecidableEq

/-- One of the four numbers: at most 255, in decimal without leading zeroes. -/
def octet (digits : List Char) : Option (BitVec 8) :=
  let n := Nat.ofDigitChars 10 digits 0
  if digits ≠ [] ∧ digits.all Char.isDigit ∧ (digits.head? = some '0' → digits = ['0']) ∧ n < 256 then
    some (BitVec.ofNat 8 n)
  else none

/-- `inet_pton` of an IPv4 address in dotted decimal. -/
def inetPton (text : List Char) : Option InAddr :=
  match text.splitOn '.' with
  | [a, b, c, d] => do
    let a ← octet a
    let b ← octet b
    let c ← octet c
    let d ← octet d
    some { a, b, c, d }
  | _ => none

/-- `inet_ntop`. -/
def inetNtop (ad : InAddr) : List Char :=
  ['.'].intercalate ([ad.a, ad.b, ad.c, ad.d].map fun byte => Nat.toDigits 10 byte.toNat)

/-- The bytes of the address as the integer they are in memory. -/
def InAddr.sAddr (ad : InAddr) : BitVec 32 := ad.d ++ ad.c ++ ad.b ++ ad.a

/-- The address as a number. -/
def InAddr.value (ad : InAddr) : BitVec 32 := ad.a ++ ad.b ++ ad.c ++ ad.d

def htonl (n : BitVec 32) : BitVec 32 :=
  n.extractLsb' 0 8 ++ n.extractLsb' 8 8 ++ n.extractLsb' 16 8 ++ n.extractLsb' 24 8

def getBit (n : BitVec 32) (bitnum : Nat) : BitVec 32 := n.sshiftRight (31 - bitnum) &&& 1#32

def getBitString (str : List Char) : Option (List Char) :=
  (inetPton str).map fun ad =>
    let n := htonl ad.sAddr
    (List.range 32).map fun j => Char.ofNat ((getBit n j).toNat + '0'.toNat)

/-- The loop of `getLongest` ends at the first bit that differs. -/
def getLongest (left right : List Char) : Option Nat := do
  let bitPtrLeft ← getBitString left
  let bitPtrRight ← getBitString right
  some (commonLength bitPtrLeft bitPtrRight)

/-- The loop of `getNetworkMaskNum`. -/
def networkMaskLoop (tmp : BitVec 32) (subnetMaskNum : Nat) : Nat :=
  if tmp = 0 then subnetMaskNum
  else
    let bitN := tmp &&& 1#32
    networkMaskLoop (tmp >>> 1) (if bitN = 1#32 then subnetMaskNum + 1 else subnetMaskNum)
termination_by tmp.toNat
decreasing_by
  have hpos : tmp.toNat ≠ 0 := fun h0 => by simp_all [BitVec.toNat_eq]
  rw [BitVec.toNat_ushiftRight, Nat.shiftRight_eq_div_pow]
  omega

def getNetworkMaskNum (str : List Char) : Option Nat :=
  (inetPton str).map fun ad => networkMaskLoop ad.sAddr 0

/-- A netmask of ones followed by zeroes. -/
def InAddr.Contiguous (m : InAddr) (k : Nat) : Prop := k ≤ 32 ∧ m.value = BitVec.allOnes 32 <<< (32 - k)

/-! ## The text of an address -/

theorem octet_toDigits : ∀ n < 256, octet (Nat.toDigits 10 n) = some (BitVec.ofNat 8 n) := by decide +kernel

/-- Every address has a text. -/
theorem inetPton_inetNtop (ad : InAddr) : inetPton (inetNtop ad) = some ad := by
  have hoctet (byte : BitVec 8) : octet (Nat.toDigits 10 byte.toNat) = some byte := by
    rw [octet_toDigits byte.toNat byte.isLt, BitVec.ofNat_toNat, BitVec.setWidth_eq]
  have hdot : ∀ digits ∈ [ad.a, ad.b, ad.c, ad.d].map (fun byte => Nat.toDigits 10 byte.toNat),
      '.' ∉ digits := by
    intro digits hm hdot
    obtain ⟨byte, -, rfl⟩ := List.mem_map.mp hm
    exact notMem_toDigits (by decide) _ hdot
  rw [inetPton, inetNtop, List.splitOn_intercalate '.' hdot (by simp)]
  simp only [List.map_cons, List.map_nil, hoctet, Option.bind_eq_bind, Option.bind_some]

/-! ## Bits -/

/-- The bytes of an integer. -/
theorem extract_bytes {n : BitVec 32} {a b c d : BitVec 8} (h : n = a ++ b ++ c ++ d) :
    n.extractLsb' 24 8 = a ∧ n.extractLsb' 16 8 = b ∧ n.extractLsb' 8 8 = c ∧ n.extractLsb' 0 8 = d := by
  subst h
  refine ⟨?_, ?_, ?_, BitVec.extractLsb'_append_eq_right⟩
  · rw [BitVec.extractLsb'_append_eq_of_le (by decide), BitVec.extractLsb'_append_eq_of_le (by decide)]
    exact BitVec.extractLsb'_append_eq_left
  · rw [BitVec.extractLsb'_append_eq_of_le (by decide), BitVec.extractLsb'_append_eq_of_le (by decide)]
    exact BitVec.extractLsb'_append_eq_right
  · rw [BitVec.extractLsb'_append_eq_of_le (by decide)]
    exact BitVec.extractLsb'_append_eq_right

theorem htonl_sAddr (ad : InAddr) : htonl ad.sAddr = ad.value := by
  obtain ⟨hd, hc, hb, ha⟩ := extract_bytes (n := ad.sAddr) rfl
  rw [htonl, ha, hb, hc, hd, InAddr.value]

theorem value_injective : Function.Injective InAddr.value := by
  intro ad ad' h
  obtain ⟨ha, hb, hc, hd⟩ := extract_bytes (n := ad.value) rfl
  obtain ⟨ha', hb', hc', hd'⟩ := extract_bytes (n := ad'.value) rfl
  rw [h] at ha hb hc hd
  cases ad
  cases ad'
  simp_all

theorem sAddr_injective : Function.Injective InAddr.sAddr := by
  intro ad ad' h
  apply value_injective
  rw [← htonl_sAddr, h, htonl_sAddr]

/-- The bitwise conjunction, byte by byte. -/
def InAddr.and (ad m : InAddr) : InAddr where
  a := ad.a &&& m.a
  b := ad.b &&& m.b
  c := ad.c &&& m.c
  d := ad.d &&& m.d

theorem sAddr_and (ad m : InAddr) : (ad.and m).sAddr = ad.sAddr &&& m.sAddr := by
  rw [InAddr.sAddr, InAddr.sAddr, InAddr.sAddr, BitVec.and_append, BitVec.and_append, BitVec.and_append]
  rfl

theorem value_and (ad m : InAddr) : (ad.and m).value = ad.value &&& m.value := by
  rw [InAddr.value, InAddr.value, InAddr.value, BitVec.and_append, BitVec.and_append, BitVec.and_append]
  rfl

/-- For the network part it does not matter in which order a host keeps the bytes. -/
theorem sAddr_and_iff (ad ad' m : InAddr) : ad.sAddr &&& m.sAddr = ad'.sAddr &&& m.sAddr ↔
    ad.value &&& m.value = ad'.value &&& m.value := by
  rw [← sAddr_and, ← sAddr_and, ← value_and, ← value_and, sAddr_injective.eq_iff, value_injective.eq_iff]

theorem toNat_and_one (n : BitVec 32) : (n &&& 1#32).toNat = (n.getLsbD 0).toNat := by
  rw [BitVec.and_one_eq_setWidth_ofBool_getLsbD]
  cases n.getLsbD 0 <;> rfl

theorem toNat_getBit (n : BitVec 32) {j : Nat} (hj : j < 32) : (getBit n j).toNat = (n.getMsbD j).toNat := by
  have hshift : 31 - j + 0 < 32 := by omega
  rw [getBit, toNat_and_one, BitVec.getLsbD_sshiftRight, BitVec.getMsbD_eq_getLsbD, if_pos hshift]
  simp [hj]

/-! ## The number of ones -/

/-- Shifted by one, a number has as many ones, but for the one that falls off. -/
theorem cpop_ushiftRight (n : BitVec 32) :
    n.cpop.toNat = (n >>> 1).cpop.toNat + (n.getLsbD 0).toNat := by
  have hlow : n = (n.extractLsb' 1 31).concat n[0] := BitVec.concat_extractLsb'_getLsb.symm
  have hhigh : n >>> 1 = (n.extractLsb' 1 31).cons false := by
    ext i hi
    rw [BitVec.getElem_ushiftRight, BitVec.getElem_cons]
    split
    next hlast => exact BitVec.getLsbD_of_ge n _ (by omega)
    next => rw [BitVec.getElem_extractLsb']
  rw [hhigh, BitVec.toNat_cpop_cons]
  conv_lhs => rw [hlow, BitVec.toNat_cpop_concat]
  rw [BitVec.getLsbD_eq_getElem (by decide)]
  simp [Nat.add_comm]

theorem networkMaskLoop_eq (tmp : BitVec 32) (subnetMaskNum : Nat) :
    networkMaskLoop tmp subnetMaskNum = subnetMaskNum + tmp.cpop.toNat := by
  induction tmp, subnetMaskNum using networkMaskLoop.induct with
  | case1 subnetMaskNum =>
    rw [networkMaskLoop]
    simp
  | case2 tmp subnetMaskNum hne bitN ih =>
    have hbit : bitN = 1#32 ↔ tmp.getLsbD 0 = true := by
      rw [← BitVec.toNat_inj, toNat_and_one]
      cases tmp.getLsbD 0 <;> simp
    have hcount : (if bitN = 1#32 then subnetMaskNum + 1 else subnetMaskNum) =
        subnetMaskNum + (tmp.getLsbD 0).toNat := by
      rw [if_congr hbit rfl rfl]
      cases tmp.getLsbD 0 <;> rfl
    rw [dite_eq_ite, hcount] at ih
    rw [networkMaskLoop, if_neg hne]
    show networkMaskLoop (tmp >>> 1) (if bitN = 1#32 then subnetMaskNum + 1 else subnetMaskNum) = _
    rw [hcount, ih, cpop_ushiftRight tmp]
    omega

/-- It does not matter in which order the bytes stand. -/
theorem cpop_sAddr (ad : InAddr) : ad.sAddr.cpop.toNat = ad.value.cpop.toNat := by
  simp only [InAddr.sAddr, InAddr.value, BitVec.toNat_cpop_append]
  omega

theorem cpop_mask : ∀ k ≤ 32, (BitVec.allOnes 32 <<< (32 - k)).cpop.toNat = k := by decide +kernel

theorem getNetworkMaskNum_eq {str : List Char} {m : InAddr} {k : Nat} (hm : inetPton str = some m)
    (hk : m.Contiguous k) : getNetworkMaskNum str = some k := by
  rw [getNetworkMaskNum, hm, Option.map_some, networkMaskLoop_eq, cpop_sAddr, hk.2, cpop_mask k hk.1,
    Nat.zero_add]

/-! ## Bits in common -/

theorem getMsbD_mask {k j : Nat} (hk : k ≤ 32) :
    (BitVec.allOnes 32 <<< (32 - k)).getMsbD j = decide (j < k) := by
  rw [BitVec.getMsbD_shiftLeft, BitVec.getMsbD_allOnes]
  simp
  omega

/-- Two addresses have the same network part if they agree in the bits of the mask. -/
theorem sAddr_and_mask_iff {ad ad' m : InAddr} {k : Nat} (hk : m.Contiguous k) :
    ad.sAddr &&& m.sAddr = ad'.sAddr &&& m.sAddr ↔ ∀ j < k, ad.value.getMsbD j = ad'.value.getMsbD j := by
  obtain ⟨hle, hm⟩ := hk
  rw [sAddr_and_iff, hm]
  constructor
  · intro hsame j hj
    have hbit := congrArg (fun n => BitVec.getMsbD n j) hsame
    simp only [BitVec.getMsbD_and, getMsbD_mask hle] at hbit
    simpa [hj] using hbit
  · intro hbits
    apply BitVec.eq_of_getMsbD_eq
    intro j _
    rw [BitVec.getMsbD_and, BitVec.getMsbD_and, getMsbD_mask hle]
    by_cases hj : j < k
    · rw [hbits j hj]
    · simp [hj]

/-- The bits of the address, as characters. -/
def InAddr.bits (ad : InAddr) : List Char :=
  (List.range 32).map fun j => if ad.value.getMsbD j then '1' else '0'

theorem getBitString_eq {str : List Char} {ad : InAddr} (h : inetPton str = some ad) :
    getBitString str = some ad.bits := by
  rw [getBitString, h, Option.map_some, htonl_sAddr, Option.some.injEq]
  apply List.map_congr_left
  intro j hj
  rw [toNat_getBit ad.value (List.mem_range.mp hj)]
  cases ad.value.getMsbD j <;> rfl

/-- `getLongest` counts the leading bits the addresses have in common. -/
theorem getLongest_spec {left right : List Char} {ad ad' : InAddr} (hl : inetPton left = some ad)
    (hr : inetPton right = some ad') : ∃ longest, getLongest left right = some longest ∧ longest ≤ 32 ∧
      ∀ k ≤ 32, k ≤ longest ↔ ∀ j < k, ad.value.getMsbD j = ad'.value.getMsbD j := by
  have hlength (ad : InAddr) : ad.bits.length = 32 := by simp [InAddr.bits]
  refine ⟨commonLength ad.bits ad'.bits, ?_, (commonLength_le _ _).trans (hlength ad).le, ?_⟩
  · rw [getLongest, getBitString_eq hl, getBitString_eq hr]
    rfl
  intro k hk
  rw [le_commonLength_iff (hk.trans (hlength ad).ge) (hk.trans (hlength ad').ge), InAddr.bits, InAddr.bits,
    ← List.map_take, ← List.map_take, List.take_range, Nat.min_eq_left hk, List.map_inj_left]
  refine forall_congr' fun j => ?_
  rw [List.mem_range]
  refine imp_congr_right fun _ => ?_
  cases ad.value.getMsbD j <;> cases ad'.value.getMsbD j <;> decide

/-- **The prefix test is the subnet test.** Two addresses have as many leading bits in common as a
contiguous netmask has ones, exactly if they are in the same subnet; and they have all 32 in common
exactly if they are the same. -/
theorem prefixTest_iff {left right mask : List Char} {ad ad' m : InAddr} {k : Nat}
    (hl : inetPton left = some ad) (hr : inetPton right = some ad') (hm : inetPton mask = some m)
    (hk : m.Contiguous k) : ∃ longest networkMaskNum,
      getLongest left right = some longest ∧ getNetworkMaskNum mask = some networkMaskNum ∧
        (networkMaskNum ≤ longest ↔ ad.sAddr &&& m.sAddr = ad'.sAddr &&& m.sAddr) ∧
        (longest = 32 ↔ ad = ad') := by
  obtain ⟨longest, hlongest, hle, hbits⟩ := getLongest_spec hl hr
  refine ⟨longest, k, hlongest, getNetworkMaskNum_eq hm hk, ?_, ?_⟩
  · rw [hbits k hk.1, sAddr_and_mask_iff hk]
  · have hall := hbits 32 (le_refl _)
    constructor
    · intro he
      apply value_injective
      exact BitVec.eq_of_getMsbD_eq (hall.mp he.ge)
    · rintro rfl
      exact hle.antisymm (hall.mpr fun _ _ => rfl)

/-- 10.0.0.1 and 10.0.0.200 have 24 bits in common. -/
theorem prefixTest_iff_text : ∃ longest networkMaskNum,
    getLongest "10.0.0.1".toList "10.0.0.200".toList = some longest ∧
      getNetworkMaskNum "255.255.255.0".toList = some networkMaskNum ∧
      (networkMaskNum ≤ longest ↔
        InAddr.sAddr ⟨10, 0, 0, 1⟩ &&& InAddr.sAddr ⟨255, 255, 255, 0⟩ =
          InAddr.sAddr ⟨10, 0, 0, 200⟩ &&& InAddr.sAddr ⟨255, 255, 255, 0⟩) ∧
      (longest = 32 ↔ (⟨10, 0, 0, 1⟩ : InAddr) = ⟨10, 0, 0, 200⟩) :=
  prefixTest_iff (k := 24) (by decide) (by decide) (by decide) ⟨by decide, by decide⟩

example : getLongest "10.0.0.1".toList "10.0.0.200".toList = some 24 := by decide

end Sockets.Udp
