/-
The packets of the on-demand routing daemon, as `odr.h` declares them, and
the text an RREQ carries: the flag that an RREP was already sent, the flag
of forced discovery, and the broadcast id in decimal.

Text is a C string: its characters up to the terminating zero.
-/
import Sockets.Lib.Decimal
import Mathlib.Algebra.Group.Int.Defs
import Mathlib.Algebra.GroupWithZero.Nat

namespace Sockets.Odr

/-- The nodes `vm1` to `vm10`, and the index 0 a host name without a digit gets. -/
abbrev Node : Type := Fin 11

/-- So that nodes are written as numerals. -/
instance instNeZeroNode : NeZero 11 := ⟨by decide⟩

/-- An Ethernet address. -/
abbrev Mac : Type := Vector UInt8 6

def Mac.empty : Mac := Vector.replicate 6 0
def Mac.broadcast : Mac := Vector.replicate 6 255

/-- The test of the source: `!=` binds tighter than `&`, so each byte is
masked with `0xff != 0`, that is, with 1. -/
def checkAddressNotEmpty (mac : Mac) : Bool := mac.toList.any fun byte => byte &&& 1 ≠ 0

/-- The test finds out whether the address has a byte other than 0. -/
def EmptyTestRight (mac : Mac) : Prop := checkAddressNotEmpty mac = true ↔ ∃ byte ∈ mac.toList, byte ≠ 0

theorem checkAddressNotEmpty_eq_true {mac : Mac} :
    checkAddressNotEmpty mac = true ↔ ∃ byte ∈ mac.toList, byte &&& 1 ≠ 0 := by
  simp only [checkAddressNotEmpty, List.any_eq_true, decide_eq_true_eq]

/-- **The test for an empty address.** It is right of the empty address, and of those with an odd
byte. -/
theorem emptyTestRight_iff (mac : Mac) :
    EmptyTestRight mac ↔ (∀ byte ∈ mac.toList, byte = 0) ∨ ∃ byte ∈ mac.toList, byte &&& 1 ≠ 0 := by
  rw [EmptyTestRight, checkAddressNotEmpty_eq_true]
  have hodd : (∃ byte ∈ mac.toList, byte &&& 1 ≠ 0) → ∃ byte ∈ mac.toList, byte ≠ 0 := by
    rintro ⟨byte, hm, hbit⟩
    refine ⟨byte, hm, ?_⟩
    rintro rfl
    exact hbit rfl
  constructor
  · intro hright
    by_cases hzero : ∀ byte ∈ mac.toList, byte = 0
    · exact .inl hzero
    · simp only [not_forall] at hzero
      obtain ⟨byte, hm, hne⟩ := hzero
      exact .inr (hright.mpr ⟨byte, hm, hne⟩)
  · rintro (hzero | hbit)
    · refine iff_of_false (fun hbit => ?_) (fun ⟨byte, hm, hne⟩ => hne (hzero byte hm))
      obtain ⟨byte, hm, hne⟩ := hodd hbit
      exact hne (hzero byte hm)
    · exact iff_of_true hbit (hodd hbit)

/-- 00:0c:20:00:00:02 is taken for an empty address. -/
theorem not_emptyTestRight : ¬ EmptyTestRight #v[0x00, 0x0c, 0x20, 0x00, 0x00, 0x02] := by
  intro hright
  have hone : checkAddressNotEmpty #v[0x00, 0x0c, 0x20, 0x00, 0x00, 0x02] = true :=
    hright.mpr ⟨0x0c, by decide, by decide⟩
  exact absurd hone (by decide)

structure Packet where
  type : Int := 0
  sourceIpAddr : String := ""
  sourcePort : Int := 0
  destinationIpAddr : String := ""
  destinationPort : Int := 0
  hopCount : Int := 0
  applicationMsg : List Char := []
deriving DecidableEq

/-- The C string an array of characters holds. -/
def cString (text : List Char) : List Char := text.takeWhile (· ≠ '\x00')

def createPfPacket (type : Int) (sourceIpAddr : String) (sourcePort : Int) (destinationIpAddr : String)
    (destinationPort hopCount : Int) (msg : List Char) : Packet :=
  { type, sourceIpAddr, sourcePort, destinationIpAddr, destinationPort, hopCount, applicationMsg := msg }

/-- A 32-bit integer with its four bytes in the opposite order. -/
def htonl (n : Int) : Int :=
  let u := n % 2 ^ 32
  (u % 2 ^ 8 * 2 ^ 24 + u / 2 ^ 8 % 2 ^ 8 * 2 ^ 16 + u / 2 ^ 16 % 2 ^ 8 * 2 ^ 8 + u / 2 ^ 24).bmod (2 ^ 32)

/-- What `sendMessage` leaves of the packet it was handed. -/
def Packet.htonl (packet : Packet) : Packet :=
  { packet with
    type := Odr.htonl packet.type
    sourcePort := Odr.htonl packet.sourcePort
    destinationPort := Odr.htonl packet.destinationPort
    hopCount := Odr.htonl packet.hopCount }

/-! ## The text of an RREQ -/

/-- The text a new RREQ is given. -/
def rreqMsg (flagInt : Int) (broadcastId : Nat) : List Char :=
  cString ('0' :: Char.ofNat ((flagInt + 48) % 256).toNat :: Nat.toDigits 10 broadcastId)

/-- `atoi` of a text that starts with a digit. -/
def atoi (text : List Char) : Nat := Nat.ofDigitChars 10 (text.takeWhile Char.isDigit) 0

/-- The broadcast id a receiver reads: the two flags are overwritten with zeroes. -/
def receivedBid (msg : List Char) : Nat := atoi ('0' :: '0' :: (msg.take 30).drop 2)

def flagAt (msg : List Char) (i : Nat) : Int := (msg.getD i '\x00').toNat - 48

def rrepAlreadySent (msg : List Char) : Int := flagAt msg 0
def forcedDiscovery (msg : List Char) : Int := flagAt msg 1

@[simp] theorem receivedBid_singleton (c : Char) : receivedBid [c] = 0 := rfl

/-- The id does not depend on the flags. -/
theorem receivedBid_set_zero (msg : List Char) (c : Char) :
    receivedBid (msg.set 0 c) = receivedBid msg := by
  cases msg with
  | nil => rfl
  | cons a msg => simp [receivedBid, List.set]

theorem receivedBid_set_one (msg : List Char) (c : Char) :
    receivedBid (msg.set 1 c) = receivedBid msg := by
  match msg with
  | [] | [_] => rfl
  | a :: b :: msg => simp [receivedBid, List.set]

theorem receivedBid_take (msg : List Char) : receivedBid (msg.take 30) = receivedBid msg := by
  rw [receivedBid, List.take_take, Nat.min_self, receivedBid]

theorem cString_toDigits (n : Nat) : cString (Nat.toDigits 10 n) = Nat.toDigits 10 n := by
  have hnul : '\x00' ∉ Nat.toDigits 10 n := notMem_toDigits (by decide) n
  apply List.takeWhile_eq_self_iff.mpr
  intro c hc
  simpa using ne_of_mem_of_not_mem hc hnul

theorem atoi_toDigits (n : Nat) : atoi (Nat.toDigits 10 n) = n := by
  rw [atoi, List.takeWhile_eq_self_iff.mpr toDigits_isDigit, Nat.ofDigitChars_ten_toDigits]

/-- The two zeroes do not change the number. -/
theorem atoi_zeroes (text : List Char) : atoi ('0' :: '0' :: text) = atoi text := by
  simp [atoi, Nat.ofDigitChars_cons]

theorem length_toDigits_id {broadcastId : Nat} (h : broadcastId < 2 ^ 31) :
    (Nat.toDigits 10 broadcastId).length ≤ 10 :=
  (Nat.length_toDigits_le_iff (by decide) (by decide)).mpr (h.trans (by decide))

/-- The digits behind the two flags are read back. -/
theorem receivedBid_digits (a c : Char) {broadcastId : Nat} (h : broadcastId < 2 ^ 31) :
    receivedBid (a :: c :: Nat.toDigits 10 broadcastId) = broadcastId := by
  have hlen := length_toDigits_id h
  rw [receivedBid, List.take_of_length_le (by simp; omega), atoi_zeroes, List.drop_succ_cons,
    List.drop_succ_cons, List.drop_zero, atoi_toDigits]

theorem rreqMsg_eq (flagInt : Int) (broadcastId : Nat)
    (h : Char.ofNat ((flagInt + 48) % 256).toNat ≠ '\x00') : rreqMsg flagInt broadcastId =
      '0' :: Char.ofNat ((flagInt + 48) % 256).toNat :: Nat.toDigits 10 broadcastId := by
  have htail := cString_toDigits broadcastId
  unfold cString at htail
  rw [rreqMsg, cString, List.takeWhile_cons_of_pos (by decide), List.takeWhile_cons_of_pos (by simpa using h),
    htail]

/-- Receivers read the id the text was built with; or 0, when the flag is
the one whose character ends the text. -/
theorem receivedBid_rreqMsg (flagInt : Int) {broadcastId : Nat} (h : broadcastId < 2 ^ 31) :
    receivedBid (rreqMsg flagInt broadcastId) = broadcastId ∨
      receivedBid (rreqMsg flagInt broadcastId) = 0 := by
  by_cases hc : Char.ofNat ((flagInt + 48) % 256).toNat = '\x00'
  · right
    simp [rreqMsg, cString, hc]
  · left
    rw [rreqMsg_eq flagInt broadcastId hc, receivedBid_digits _ _ h]

end Sockets.Odr
