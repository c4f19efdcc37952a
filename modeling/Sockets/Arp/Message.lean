/-
The messages of the ARP module. An IP address is four bytes in a message,
and text in the table and in what a client sends; what is printed of the
bytes is read back as the same bytes (`setIPAddr_ipNtop`), so the text of an
address is its own (`ipNtop_injective`).
-/
import Sockets.Odr.Packet

namespace Sockets.Arp

open Odr (Mac)

abbrev Ipv4 : Type := Vector UInt8 4

structure ArpMessage where
  id : Vector UInt8 2 := #v[0, 0]
  hatype : Vector UInt8 2 := #v[0, 0]
  prottype : Vector UInt8 2 := #v[0, 0]
  hardsize : UInt8 := 0
  protsize : UInt8 := 0
  op : Vector UInt8 2 := #v[0, 0]
  senderMac : Mac := Mac.empty
  senderIp : Ipv4 := #v[0, 0, 0, 0]
  targetMac : Mac := Mac.empty
  targetIp : Ipv4 := #v[0, 0, 0, 0]
deriving DecidableEq

def initArpMessage (arpMessage : ArpMessage) : ArpMessage :=
  { arpMessage with
    id := #v[0x54, 0x03]
    hatype := #v[0x00, 0x01]
    prottype := #v[0x08, 0x00]
    hardsize := 0x06
    protsize := 0x04 }

/-! ## The text of an address -/

/-- A byte as `%d` prints it. -/
def decimal (byte : UInt8) : List Char := Nat.toDigits 10 byte.toNat

def ipNtop (ip : Ipv4) : List Char :=
  decimal ip[0] ++ '.' :: (decimal ip[1] ++ '.' :: (decimal ip[2] ++ '.' :: decimal ip[3]))

def isSpace (c : Char) : Bool := c ∈ [' ', '\t', '\n', '\x0b', '\x0c', '\r']

/-- `%d` of `sscanf`: white space, a sign, digits. Without digits the variable stays without a
value, and one that does not fit an `int` is undefined: `none`. -/
def scanInt (text : List Char) : Option (Int × List Char) :=
  let text := text.dropWhile isSpace
  let (sign, text) : Int × List Char :=
    match text with
    | '-' :: rest => (-1, rest)
    | '+' :: rest => (1, rest)
    | text => (1, text)
  let digits := text.takeWhile Char.isDigit
  let n := sign * Nat.ofDigitChars 10 digits 0
  if digits ≠ [] ∧ -2 ^ 31 ≤ n ∧ n < 2 ^ 31 then some (n, text.dropWhile Char.isDigit) else none

/-- The dot between two conversions. -/
def scanDot : List Char → Option (List Char)
  | '.' :: rest => some rest
  | _ => none

/-- Four numbers, of each of which a byte is kept. -/
def setIPAddr (ipString : List Char) : Option Ipv4 := do
  let (ip1, rest) ← scanInt ipString
  let rest ← scanDot rest
  let (ip2, rest) ← scanInt rest
  let rest ← scanDot rest
  let (ip3, rest) ← scanInt rest
  let rest ← scanDot rest
  let (ip4, _) ← scanInt rest
  some #v[UInt8.ofInt ip1, UInt8.ofInt ip2, UInt8.ofInt ip3, UInt8.ofInt ip4]

/-- Text that does not go on with a digit. -/
def EndsNumber (rest : List Char) : Prop := ∀ c ∈ rest.head?, c.isDigit = false

theorem endsNumber_nil : EndsNumber [] := by simp [EndsNumber]

theorem endsNumber_dot (rest : List Char) : EndsNumber ('.' :: rest) := by
  simp only [EndsNumber, List.head?_cons, Option.mem_def, Option.some.injEq]
  rintro c rfl
  decide

theorem isDigit_of_mem_decimal {byte : UInt8} {c : Char} (h : c ∈ decimal byte) : c.isDigit = true :=
  toDigits_isDigit c h

theorem takeWhile_decimal (byte : UInt8) {rest : List Char} (h : EndsNumber rest) :
    (decimal byte ++ rest).takeWhile Char.isDigit = decimal byte := by
  rw [List.takeWhile_append_of_pos fun c hc => isDigit_of_mem_decimal hc]
  cases rest with
  | nil => simp
  | cons c rest =>
    have hc : c.isDigit = false := h c rfl
    simp [hc]

theorem dropWhile_decimal (byte : UInt8) {rest : List Char} (h : EndsNumber rest) :
    (decimal byte ++ rest).dropWhile Char.isDigit = rest := by
  rw [List.dropWhile_append_of_pos fun c hc => isDigit_of_mem_decimal hc]
  cases rest with
  | nil => simp
  | cons c rest =>
    have hc : c.isDigit = false := h c rfl
    simp [hc]

/-- A digit is neither white space nor a sign. -/
theorem not_isSpace_of_isDigit {c : Char} (h : c.isDigit = true) : isSpace c = false ∧ c ≠ '-' ∧ c ≠ '+' := by
  refine ⟨not_isBlank h, ?_, ?_⟩
  · rintro rfl
    exact absurd h (by decide)
  · rintro rfl
    exact absurd h (by decide)

/-- What is printed of a byte is scanned as that byte. -/
theorem scanInt_decimal (byte : UInt8) {rest : List Char} (h : EndsNumber rest) :
    scanInt (decimal byte ++ rest) = some ((byte.toNat : Int), rest) := by
  obtain ⟨c, digits, hdecimal⟩ := List.exists_cons_of_ne_nil (Nat.toDigits_ne_nil (n := byte.toNat) (b := 10))
  have hmem : c ∈ decimal byte := by
    rw [decimal, hdecimal]
    exact List.mem_cons_self
  have hc : c.isDigit = true := isDigit_of_mem_decimal hmem
  obtain ⟨hspace, hminus, hplus⟩ := not_isSpace_of_isDigit hc
  have htext : decimal byte ++ rest = c :: (digits ++ rest) := by rw [decimal, hdecimal, List.cons_append]
  have hdrop : (decimal byte ++ rest).dropWhile isSpace = decimal byte ++ rest := by
    rw [htext, List.dropWhile_cons_of_neg (by simp [hspace])]
  have hsign : (match decimal byte ++ rest with
      | '-' :: rest => ((-1 : Int), rest)
      | '+' :: rest => (1, rest)
      | text => (1, text)) = (1, decimal byte ++ rest) := by
    rw [htext]
    split
    next heq => exact absurd (List.cons.inj heq).1 hminus
    next heq => exact absurd (List.cons.inj heq).1 hplus
    next => rfl
  have hbyte := byte.toNat_lt
  unfold scanInt
  simp only [hdrop, hsign, takeWhile_decimal byte h, dropWhile_decimal byte h]
  rw [decimal, Nat.ofDigitChars_ten_toDigits, Int.one_mul]
  exact if_pos ⟨Nat.toDigits_ne_nil, by omega, by omega⟩

theorem ofInt_toNat (byte : UInt8) : UInt8.ofInt (byte.toNat : Int) = byte := by
  have hbyte := byte.toNat_lt
  have hmod : ((byte.toNat : Int) % 2 ^ 8).toNat = byte.toNat := by omega
  rw [UInt8.ofInt, hmod, UInt8.ofNat_toNat]

/-- The text of an address is read back as that address. -/
theorem setIPAddr_ipNtop (ip : Ipv4) : setIPAddr (ipNtop ip) = some ip := by
  have hlast := scanInt_decimal ip[3] endsNumber_nil
  rw [List.append_nil] at hlast
  simp only [setIPAddr, ipNtop, scanInt_decimal _ (endsNumber_dot _), hlast, scanDot, Option.bind_eq_bind,
    Option.bind_some, Option.some.injEq]
  ext i hi
  match i with
  | 0 | 1 | 2 | 3 => simp [ofInt_toNat]

theorem ipNtop_injective : Function.Injective ipNtop := by
  intro ip ip' h
  have hread := setIPAddr_ipNtop ip
  rw [h, setIPAddr_ipNtop] at hread
  exact (Option.some.inj hread).symm

example : setIPAddr "130.245.156.21".toList = some #v[130, 245, 156, 21] := by decide

end Sockets.Arp
