/-
How the ARP module looks things up. An address is compared by its text,
which is right for texts in the one form that is printed (`addressText_law`);
what the nodes print is, and so is every entry of the table if the clients
ask in that form (`canonical_of_reachableBy`).

A MAC address is compared as a C string too, though its bytes may be zero:
what is behind a zero byte is not compared, and without one the comparison
goes on into what stands behind the six bytes. So the pair of an IP and a
MAC address is looked up right only where neither matters (`findsPair_iff`).
-/
import Sockets.Arp.Connections
import Sockets.Lib.Codec
import Sockets.Lib.CString
import Sockets.Lib.Decimal

namespace Sockets.Arp

open Odr (Mac)

/-- Of two tests of which one passes more, the first to pass is the same if the first that passes that one
passes the other. -/
theorem findIdx?_eq_iff {α : Type} {p q : α → Bool} {l : List α} (hqp : ∀ a ∈ l, q a = true → p a = true) :
    l.findIdx? p = l.findIdx? q ↔ ∀ a ∈ l.find? p, q a = true := by
  induction l with
  | nil => simp
  | cons a l ih =>
    rw [List.forall_mem_cons] at hqp
    rw [List.findIdx?_cons, List.findIdx?_cons, List.find?_cons]
    cases hp : p a with
    | true => cases hq : q a <;> simp [hq]
    | false =>
      have hq : q a = false := by simpa [hp] using hqp.1
      have hinjective := (Option.map_injective (Nat.succ_injective)).eq_iff (a := l.findIdx? p) (b := l.findIdx? q)
      rw [hq]
      simpa using hinjective.trans (ih hqp.2)

/-! ## The text of an address -/

/-- A number up to 255 in decimal, without leading zeroes. -/
structure OctetText (digits : List Char) : Prop where
  isDigit : ∀ c ∈ digits, c.isDigit = true
  nonempty : digits ≠ []
  noLeading : digits.head? = some '0' → digits = ['0']
  lt : Nat.ofDigitChars 10 digits 0 < 256

/-- Dotted decimal, as it is printed. -/
def Canonical (s : List Char) : Prop :=
  ∃ a b c d, OctetText a ∧ OctetText b ∧ OctetText c ∧ OctetText d ∧
    s = a ++ '.' :: (b ++ '.' :: (c ++ '.' :: d))

theorem noLeading_toDigits : ∀ n < 256,
    (Nat.toDigits 10 n).head? = some '0' → Nat.toDigits 10 n = ['0'] := by decide +kernel

theorem octetText_decimal (byte : UInt8) : OctetText (decimal byte) where
  isDigit := toDigits_isDigit
  nonempty := Nat.toDigits_ne_nil
  noLeading := noLeading_toDigits _ byte.toNat_lt
  lt := by
    rw [decimal, Nat.ofDigitChars_ten_toDigits]
    exact byte.toNat_lt

theorem OctetText.exists_decimal {digits : List Char} (h : OctetText digits) : ∃ byte, decimal byte = digits := by
  refine ⟨UInt8.ofNat (Nat.ofDigitChars 10 digits 0), ?_⟩
  rw [decimal, UInt8.toNat_ofNat_of_lt' h.lt, toDigits_ofDigitChars h.isDigit h.nonempty h.noLeading]

theorem canonical_ipNtop (ip : Ipv4) : Canonical (ipNtop ip) :=
  ⟨_, _, _, _, octetText_decimal _, octetText_decimal _, octetText_decimal _, octetText_decimal _, rfl⟩

/-- They are the texts that are printed. -/
theorem canonical_iff {s : List Char} : Canonical s ↔ ∃ ip, ipNtop ip = s := by
  constructor
  · intro h
    obtain ⟨a, b, c, d, ha, hb, hc, hd, rfl⟩ := h
    obtain ⟨x, rfl⟩ := ha.exists_decimal
    obtain ⟨y, rfl⟩ := hb.exists_decimal
    obtain ⟨z, rfl⟩ := hc.exists_decimal
    obtain ⟨w, rfl⟩ := hd.exists_decimal
    exact ⟨#v[x, y, z, w], rfl⟩
  · intro h
    obtain ⟨ip, rfl⟩ := h
    exact canonical_ipNtop ip

/-- Texts in that form are the same if they are read as the same address. -/
theorem Canonical.eq_iff {s s' : List Char} (h : Canonical s) (h' : Canonical s') :
    s = s' ↔ setIPAddr s = setIPAddr s' := by
  obtain ⟨ip, rfl⟩ := canonical_iff.mp h
  obtain ⟨ip', rfl⟩ := canonical_iff.mp h'
  rw [setIPAddr_ipNtop, setIPAddr_ipNtop, Option.some.injEq, ipNtop_injective.eq_iff]

theorem Canonical.eq_ipNtop_iff {s : List Char} (h : Canonical s) (ip : Ipv4) :
    s = ipNtop ip ↔ setIPAddr s = some ip := by
  rw [h.eq_iff (canonical_ipNtop ip), setIPAddr_ipNtop]

theorem length_decimal (byte : UInt8) : (decimal byte).length ≤ 3 :=
  (Nat.length_toDigits_le_iff (by decide) (by decide)).mpr (byte.toNat_lt.trans (by decide))

theorem length_ipNtop (ip : Ipv4) : (ipNtop ip).length < ipAddrSize := by
  have h0 := length_decimal ip[0]
  have h1 := length_decimal ip[1]
  have h2 := length_decimal ip[2]
  have h3 := length_decimal ip[3]
  simp only [ipNtop, List.length_append, List.length_cons, ipAddrSize]
  omega

theorem nul_notMem_ipNtop (ip : Ipv4) : '\x00' ∉ ipNtop ip := by
  have hdigits (byte : UInt8) : '\x00' ∉ decimal byte := notMem_toDigits (by decide) _
  simp [ipNtop, hdigits]

/-! ## Addresses -/

/-- `checkIsDestNode` for an array of any interfaces: it goes up to the first free slot. -/
def checkIsDestNodeIn (ipAddr : Ipv4) : List Interface → Bool
  | [] => false
  | interface :: rest =>
    if interface.interfaceNum = -1 then false
    else if interface.ipAddr = ipNtop ipAddr then true
    else checkIsDestNodeIn ipAddr rest

/-- The interfaces in front of the first free slot. -/
def usedInterfaces (interfaceArray : List Interface) : List Interface :=
  interfaceArray.takeWhile (·.interfaceNum ≠ -1)

theorem checkIsDestNodeIn_iff {ip : Ipv4} {interfaceArray : List Interface} :
    checkIsDestNodeIn ip interfaceArray = true ↔
      ∃ interface ∈ usedInterfaces interfaceArray, interface.ipAddr = ipNtop ip := by
  induction interfaceArray with
  | nil => simp [checkIsDestNodeIn, usedInterfaces]
  | cons interface rest ih =>
    rw [usedInterfaces] at ih ⊢
    rw [checkIsDestNodeIn]
    split
    next hfree => simp [hfree]
    next hused =>
      rw [List.takeWhile_cons_of_pos (by simpa using hused), List.exists_mem_cons_iff]
      split
      next hsame => simp [hsame]
      next hother => rw [ih, or_iff_right hother]

/-- A node has its `eth0` in the first slot. -/
theorem checkIsDestNodeIn_eth0 {eth0 : Interface} (hused : eth0.interfaceNum ≠ -1) {rest : List Interface}
    (hfree : ∀ interface ∈ rest.head?, interface.interfaceNum = -1) (ip : Ipv4) :
    checkIsDestNodeIn ip (eth0 :: rest) = checkIsDestNode eth0 ip := by
  have hrest : checkIsDestNodeIn ip rest = false := by
    cases rest with
    | nil => rfl
    | cons interface rest => rw [checkIsDestNodeIn, if_pos (hfree interface rfl)]
  rw [checkIsDestNodeIn, if_neg hused, hrest, checkIsDestNode]
  split
  next hsame => simp [hsame]
  next hother => simp [hother]

/-- **The text of an address.** It fits its array and is read back as the address, of which it is the only
one; and where the texts that are compared are in that form, the lookups find what has the
address that is looked for. -/
theorem addressText_law :
    (∀ ip, setIPAddr (ipNtop ip) = some ip) ∧
    (∀ ip (dst : List.Vector Char ipAddrSize), ∃ ipPresentation,
      putString '\x00' dst (ipNtop ip) = some ipPresentation ∧ Holds '\x00' ipPresentation (ipNtop ip)) ∧
    Function.Injective ipNtop ∧
    (∀ arpTable s, (∀ entry ∈ arpTable, Canonical entry.ipAddr) → Canonical s →
      indexOfIP arpTable s = arpTable.findIdx? fun entry => setIPAddr entry.ipAddr = setIPAddr s) ∧
    ∀ interfaceArray ip, (∀ interface ∈ usedInterfaces interfaceArray, Canonical interface.ipAddr) →
      (checkIsDestNodeIn ip interfaceArray = true ↔
        ∃ interface ∈ usedInterfaces interfaceArray, setIPAddr interface.ipAddr = some ip) := by
  refine ⟨setIPAddr_ipNtop, ?_, ipNtop_injective, ?_, ?_⟩
  · intro ip dst
    exact putString_holds dst (nul_notMem_ipNtop ip) (length_ipNtop ip)
  · intro arpTable s htable hs
    have hsame : ∀ entry ∈ arpTable, entry.ipAddr = s ↔ setIPAddr entry.ipAddr = setIPAddr s :=
      fun entry hm => (htable entry hm).eq_iff hs
    refine (findIdx?_eq_iff fun entry hm => ?_).mpr fun entry hfound => ?_
    · simpa using (hsame entry hm).mpr
    · have hm := List.mem_of_find?_eq_some hfound
      simpa [← hsame entry hm] using List.find?_some hfound
  · intro interfaceArray ip hcanonical
    rw [checkIsDestNodeIn_iff]
    refine exists_congr fun interface => and_congr_right fun hm => ?_
    exact (hcanonical interface hm).eq_ipNtop_iff ip

/-- Two entries in the form that is printed, and a text for the second. -/
theorem addressText_law_two :
    indexOfIP [{ ipAddr := ipNtop #v[130, 245, 156, 29] }, { ipAddr := ipNtop #v[130, 245, 156, 30] }]
        (ipNtop #v[130, 245, 156, 30]) =
      List.findIdx? (fun entry : ArpEntry => setIPAddr entry.ipAddr = setIPAddr (ipNtop #v[130, 245, 156, 30]))
        [{ ipAddr := ipNtop #v[130, 245, 156, 29] }, { ipAddr := ipNtop #v[130, 245, 156, 30] }] :=
  addressText_law.2.2.2.1 _ _ (by simp [canonical_ipNtop]) (canonical_ipNtop _)

/-- The clients ask in that form. -/
def AsksCanonical (_ : ArpNode) (e : ArpEvent) (_ : ArpNode) : Prop :=
  match e with
  | .client _ text => Canonical (askedIp text)
  | .message .. => True

/-- Then all entries of the table are in that form, in every run. -/
theorem canonical_of_reachableBy {eth0 : Interface} {s : ArpNode}
    (h : (arpMachine eth0).ReachableBy AsksCanonical s) : ∀ entry ∈ s.arpTable, Canonical entry.ipAddr := by
  refine h.invariant (I := fun s => ∀ entry ∈ s.arpTable, Canonical entry.ipAddr) ?_ ?_
  · intro entry hm
    cases hm
  intro s e s' hs hstep hasks
  simp only [arpMachine, Option.map_eq_some_iff] at hstep
  obtain ⟨⟨node, actions⟩, hstep, rfl⟩ := hstep
  -- an entry that is filled in keeps its text
  have hfilled {ip : List Char} {front back : List ArpEntry} {entry entry' : ArpEntry}
      (hfirst : FirstEntry s.arpTable ip front entry back) (hip : entry'.ipAddr = entry.ipAddr) :
      ∀ other ∈ front ++ entry' :: back, Canonical other.ipAddr := by
    intro other hm
    rcases eq_or_mem_of_mem_split hm with rfl | hother
    · rw [hip]
      exact hs entry hfirst.mem
    · exact hs other (hfirst.mem_of_other hother)
  cases e with
  | client connFd text =>
    simp only [ArpNode.step, Option.ite_none_left_eq_some, Option.map_eq_some_iff, Prod.exists,
      Prod.mk.injEq] at hstep
    obtain ⟨-, table', actions', hclient, rfl, -⟩ := hstep
    cases onClient_effect hclient with
    | asks =>
      rw [List.forall_mem_append, List.forall_mem_singleton]
      exact ⟨hs, hasks⟩
    | answers | turnsAway => exact hs
  | message arpMessage beyond sllHatype sllIfindex =>
    simp only [ArpNode.step, Option.map_eq_some_iff, Prod.exists, Prod.mk.injEq] at hstep
    obtain ⟨table', actions', hmessage, rfl, -⟩ := hstep
    cases onArpMessage_effect hmessage with
    | ignores => exact hs
    | replies _ _ hnew =>
      rw [List.forall_mem_append]
      refine ⟨hs, fun entry hm => ?_⟩
      rw [(hnew entry hm).1]
      exact canonical_ipNtop _
    | fills hfirst hip => exact hfilled hfirst hip
    | answers hfirst hip => exact hfilled hfirst hip

/-! ## Comparing MAC addresses -/

/-- Up to a zero byte a string is the same as itself. -/
theorem strcmpEqual_self (beyond : Bool) (l : List UInt8) :
    strcmpEqual beyond l l = true ↔ 0 ∈ l ∨ beyond = true := by
  induction l with
  | nil => simp [strcmpEqual]
  | cons a l ih =>
    rw [strcmpEqual, if_neg (not_not_intro rfl), List.mem_cons]
    split
    next hzero => simp [hzero]
    next hne => rw [ih, or_iff_right (Ne.symm hne)]

/-- Without a zero byte only the same string will do. -/
theorem eq_of_strcmpEqual {beyond : Bool} {l l' : List UInt8} (hlength : l.length = l'.length) (hzero : 0 ∉ l')
    (h : strcmpEqual beyond l l' = true) : l = l' := by
  induction l generalizing l' with
  | nil => exact (List.eq_nil_of_length_eq_zero hlength.symm).symm
  | cons a l ih =>
    cases l' with
    | nil => cases hlength
    | cons b l' =>
      rw [List.mem_cons, not_or] at hzero
      rw [strcmpEqual] at h
      split at h
      · cases h
      next hsame =>
        obtain rfl : a = b := not_not.mp hsame
        rw [if_neg (Ne.symm hzero.1)] at h
        rw [ih (Nat.succ.inj hlength) hzero.2 h]

/-- With a zero byte in one of them they are compared as the strings up to it, whatever is behind. -/
theorem strcmpEqual_iff_stringOf {beyond : Bool} {l l' : List UInt8} (hlength : l.length = l'.length)
    (hzero : 0 ∈ l') : strcmpEqual beyond l l' = true ↔ stringOf 0 l = stringOf 0 l' := by
  induction l generalizing l' with
  | nil =>
    rw [List.eq_nil_of_length_eq_zero hlength.symm] at hzero
    cases hzero
  | cons a l ih =>
    cases l' with
    | nil => cases hlength
    | cons b l' =>
      rw [strcmpEqual]
      by_cases hsame : a = b
      · subst hsame
        rw [if_neg (not_not_intro rfl)]
        by_cases ha : a = 0
        · simp [ha, stringOf]
        · have hrest : 0 ∈ l' := (List.mem_cons.mp hzero).resolve_left (Ne.symm ha)
          simpa [ha, stringOf] using ih (Nat.succ.inj hlength) hrest
      · rw [if_pos hsame]
        refine iff_of_false Bool.false_ne_true fun hstrings => hsame ?_
        by_cases ha : a = 0 <;> by_cases hb : b = 0 <;> simp_all [stringOf]

/-- What is behind two arrays of one size matters once they have been compared. -/
theorem strcmpEqual_append {l l' : List UInt8} (hlength : l.length = l'.length) (beyond : Bool)
    (behind behind' : List UInt8) : strcmpEqual beyond (l ++ behind) (l' ++ behind') =
      strcmpEqual (strcmpEqual beyond behind behind') l l' := by
  induction l generalizing l' with
  | nil =>
    rw [List.eq_nil_of_length_eq_zero hlength.symm]
    cases behind <;> rfl
  | cons a l ih =>
    cases l' with
    | nil => cases hlength
    | cons b l' =>
      rw [List.cons_append, List.cons_append, strcmpEqual, strcmpEqual, ih (Nat.succ.inj hlength)]

/-- The fields behind the MAC address of an entry; integers have their lowest byte first. -/
def ArpEntry.behindMac (arpEntry : ArpEntry) : List UInt8 :=
  [lowByte arpEntry.sllHatype, lowByte (arpEntry.sllHatype / 2 ^ 8)] ++
    (int32Bytes arpEntry.sllIfindex).reverse ++ (int32Bytes arpEntry.connFd).reverse

/-- The fields behind the MAC address of the sender. -/
def ArpMessage.behindSenderMac (arpMessage : ArpMessage) : List UInt8 :=
  arpMessage.senderIp.toList ++ arpMessage.targetMac.toList ++ arpMessage.targetIp.toList

/-- In memory the comparison goes on into these fields, and then past them. -/
theorem strcmpEqual_fields (past : Bool) (arpEntry : ArpEntry) (arpMessage : ArpMessage) :
    strcmpEqual past (arpEntry.macAddr.toList ++ arpEntry.behindMac)
        (arpMessage.senderMac.toList ++ arpMessage.behindSenderMac) =
      strcmpEqual (strcmpEqual past arpEntry.behindMac arpMessage.behindSenderMac)
        arpEntry.macAddr.toList arpMessage.senderMac.toList :=
  strcmpEqual_append (by simp) past _ _

/-! ## Pairs of addresses -/

variable {beyond : ArpEntry → Bool} {arpTable : List ArpEntry} {ip : Ipv4} {mac : Mac}

/-- The first entry with both addresses is found, and nothing else, whatever is behind the MAC addresses. -/
def FindsPair (arpTable : List ArpEntry) (ip : Ipv4) (mac : Mac) : Prop :=
  ∀ beyond, checkEntryExist beyond arpTable ip mac =
    arpTable.findIdx? fun entry => entry.ipAddr = ipNtop ip ∧ entry.macAddr = mac

theorem checkEntryExist_of_zero (hzero : 0 ∈ mac.toList) : checkEntryExist beyond arpTable ip mac =
    arpTable.findIdx? fun entry =>
      entry.ipAddr = ipNtop ip ∧ stringOf 0 entry.macAddr.toList = stringOf 0 mac.toList := by
  have hcompare (entry : ArpEntry) : strcmpEqual (beyond entry) entry.macAddr.toList mac.toList = true ↔
      stringOf 0 entry.macAddr.toList = stringOf 0 mac.toList :=
    strcmpEqual_iff_stringOf (by simp) hzero
  simp only [checkEntryExist, hcompare]

theorem checkEntryExist_of_nonzero (hzero : 0 ∉ mac.toList) : checkEntryExist beyond arpTable ip mac =
    arpTable.findIdx? fun entry => entry.ipAddr = ipNtop ip ∧ entry.macAddr = mac ∧ beyond entry = true := by
  have hcompare (entry : ArpEntry) : strcmpEqual (beyond entry) entry.macAddr.toList mac.toList = true ↔
      entry.macAddr = mac ∧ beyond entry = true := by
    constructor
    · intro hequal
      have hsame : entry.macAddr = mac := Vector.toList_inj.mp (eq_of_strcmpEqual (by simp) hzero hequal)
      rw [hsame, strcmpEqual_self] at hequal
      exact ⟨hsame, hequal.resolve_left hzero⟩
    · intro hentry
      obtain ⟨hsame, hbeyond⟩ := hentry
      rw [hsame, strcmpEqual_self]
      exact .inr hbeyond
  simp only [checkEntryExist, hcompare]

/-- **The pair of addresses.** It is looked up right if and only if, where its MAC address has a zero byte, the
first entry for its IP address with the same bytes up to there has the other bytes too, and where it has
none, no entry has the pair. -/
theorem findsPair_iff : FindsPair arpTable ip mac ↔
    (0 ∈ mac.toList → ∀ entry ∈ arpTable.find? fun entry =>
      entry.ipAddr = ipNtop ip ∧ stringOf 0 entry.macAddr.toList = stringOf 0 mac.toList, entry.macAddr = mac) ∧
    (0 ∉ mac.toList → ∀ entry ∈ arpTable, entry.ipAddr = ipNtop ip → entry.macAddr ≠ mac) := by
  by_cases hzero : 0 ∈ mac.toList
  · rw [and_iff_left fun hnot => absurd hzero hnot, forall_prop_of_true hzero]
    have hfinds : FindsPair arpTable ip mac ↔ (arpTable.findIdx? fun entry =>
        entry.ipAddr = ipNtop ip ∧ stringOf 0 entry.macAddr.toList = stringOf 0 mac.toList) =
        arpTable.findIdx? fun entry => entry.ipAddr = ipNtop ip ∧ entry.macAddr = mac := by
      simp only [FindsPair, checkEntryExist_of_zero hzero, forall_const]
    rw [hfinds, findIdx?_eq_iff]
    · refine forall_congr' fun entry => forall_congr' fun hfound => ?_
      have hpasses := List.find?_some hfound
      simp only [decide_eq_true_eq] at hpasses ⊢
      exact and_iff_right hpasses.1
    · intro entry _ hpair
      simp only [decide_eq_true_eq] at hpair ⊢
      exact ⟨hpair.1, congrArg (fun mac => stringOf 0 mac.toList) hpair.2⟩
  · rw [and_iff_right fun hnot => absurd hnot hzero, forall_prop_of_true hzero]
    constructor
    · intro hfinds entry hm hip hmac
      -- if it goes on into bytes that differ, nothing is found
      have hnone := hfinds fun _ => false
      rw [checkEntryExist_of_nonzero hzero, List.findIdx?_eq_none_iff.mpr (by simp), eq_comm,
        List.findIdx?_eq_none_iff] at hnone
      simpa [hip, hmac] using hnone entry hm
    · intro hnone beyond
      have hno : ∀ entry ∈ arpTable, ¬ (entry.ipAddr = ipNtop ip ∧ entry.macAddr = mac) :=
        fun entry hm hpair => hnone entry hm hpair.1 hpair.2
      rw [checkEntryExist_of_nonzero hzero, List.findIdx?_eq_none_iff.mpr fun entry hm => ?_,
        List.findIdx?_eq_none_iff.mpr fun entry hm => ?_]
      · simpa using hno entry hm
      · simpa using fun hip hmac => absurd ⟨hip, hmac⟩ (hno entry hm)

/-- 08:00:27:11:22:33 is found under 08:00:27:49:3f:68. -/
theorem not_findsPair : ¬ FindsPair
    [{ ipAddr := "130.245.156.29".toList, macAddr := #v[0x08, 0x00, 0x27, 0x49, 0x3f, 0x68] }]
    #v[130, 245, 156, 29] #v[0x08, 0x00, 0x27, 0x11, 0x22, 0x33] := by
  intro hfinds
  exact absurd (hfinds fun _ => false) (by decide)

end Sockets.Arp
