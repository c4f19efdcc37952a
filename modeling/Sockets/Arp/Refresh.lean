/-
What a request does to the entry of its sender. Meant is that the entry is
updated with the interface the request came in on, whether or not the
request is for this node.

The handler updates a copy, so the entry stays as it was; and where it looks
for the entry it compares MAC addresses as C strings, past their six bytes
if there is no zero among them, so that it may not find the entry and puts
in a second one. What is meant comes about only where there is nothing to do
(`refreshed_iff`).
-/
import Sockets.Arp.Lookup

namespace Sockets.Arp

open Odr (Mac)

variable {eth0 : Interface} {arpTable table' : List ArpEntry} {beyond : ArpEntry → Bool} {sllHatype : Nat}
  {sllIfindex : Int} {arpMessage : ArpMessage} {index : Nat} {arpEntry : ArpEntry}

/-- The entry at this index has been updated with the interface the request came in on, and
nothing else has changed. -/
def Refreshed (arpTable : List ArpEntry) (index : Nat) (sllHatype : Nat) (sllIfindex : Int)
    (table' : List ArpEntry) : Prop :=
  ∃ arpEntry, arpTable[index]? = some arpEntry ∧
    table' = arpTable.set index { arpEntry with sllHatype, sllIfindex }

/-- A request whose sender has the pair of addresses of the entry at this index. -/
structure RequestOf (arpMessage : ArpMessage) (arpTable : List ArpEntry) (index : Nat) (arpEntry : ArpEntry) :
    Prop where
  op : arpMessage.op = opRequest
  entry : arpTable[index]? = some arpEntry
  ipAddr : arpEntry.ipAddr = ipNtop arpMessage.senderIp
  macAddr : arpEntry.macAddr = arpMessage.senderMac

/-! ## The sender -/

/-- The sender is found if its MAC address has a zero byte, or what stands behind it compares
equal for an entry with its pair of addresses. -/
theorem RequestOf.found_iff (hr : RequestOf arpMessage arpTable index arpEntry) :
    checkEntryExist beyond arpTable arpMessage.senderIp arpMessage.senderMac ≠ none ↔
      0 ∈ arpMessage.senderMac.toList ∨ ∃ entry ∈ arpTable,
        entry.ipAddr = ipNtop arpMessage.senderIp ∧ entry.macAddr = arpMessage.senderMac ∧ beyond entry = true := by
  have hmem : arpEntry ∈ arpTable := List.mem_of_getElem? hr.entry
  have hexists : checkEntryExist beyond arpTable arpMessage.senderIp arpMessage.senderMac ≠ none ↔
      ∃ entry ∈ arpTable, entry.ipAddr = ipNtop arpMessage.senderIp ∧
        strcmpEqual (beyond entry) entry.macAddr.toList arpMessage.senderMac.toList = true := by
    rw [checkEntryExist, Ne, List.findIdx?_eq_none_iff]
    simp
  rw [hexists]
  constructor
  · intro hfound
    obtain ⟨entry, hm, hip, hmac⟩ := hfound
    by_cases hzero : 0 ∈ arpMessage.senderMac.toList
    · exact .inl hzero
    · have hsame : entry.macAddr = arpMessage.senderMac :=
        Vector.toList_inj.mp (eq_of_strcmpEqual (by simp) hzero hmac)
      rw [hsame, strcmpEqual_self] at hmac
      exact .inr ⟨entry, hm, hip, hsame, hmac.resolve_left hzero⟩
  · intro hcase
    rcases hcase with hzero | ⟨entry, hm, hip, hsame, hbeyond⟩
    · refine ⟨arpEntry, hmem, hr.ipAddr, ?_⟩
      rw [hr.macAddr, strcmpEqual_self]
      exact .inl hzero
    · refine ⟨entry, hm, hip, ?_⟩
      rw [hsame, strcmpEqual_self]
      exact .inr hbeyond

/-! ## Requests -/

/-- A request leaves the table as it is, or adds an entry at its end. -/
theorem onArpMessage_request {actions : List Action} (hop : arpMessage.op = opRequest)
    (h : onArpMessage eth0 arpTable beyond sllHatype sllIfindex arpMessage = some (table', actions)) :
    (table' = arpTable ∧ (checkIsDestNode eth0 arpMessage.targetIp = true →
      checkEntryExist beyond arpTable arpMessage.senderIp arpMessage.senderMac ≠ none)) ∨
    ∃ entry, table' = arpTable ++ [entry] := by
  simp only [onArpMessage, onArpMessageWith, if_pos hop] at h
  split at h
  next hdest =>
    simp only [Option.bind_eq_bind, Option.bind_eq_some_iff, Option.some.injEq, Prod.mk.injEq] at h
    obtain ⟨pushed, hpush, rfl, -⟩ := h
    split at hpush
    · simp only [pushEntry, Option.ite_none_right_eq_some, Option.some.injEq] at hpush
      exact .inr ⟨_, hpush.2.symm⟩
    next hfound =>
      rw [Option.some.injEq] at hpush
      exact .inl ⟨hpush.symm, fun _ => hfound⟩
  next hother =>
    simp only [Option.some.injEq, Prod.mk.injEq] at h
    exact .inl ⟨h.1.symm, fun hdest => absurd hdest hother⟩

theorem onArpMessage_request_keeps (hop : arpMessage.op = opRequest)
    (hfound : checkIsDestNode eth0 arpMessage.targetIp = true →
      checkEntryExist beyond arpTable arpMessage.senderIp arpMessage.senderMac ≠ none) :
    ∃ actions, onArpMessage eth0 arpTable beyond sllHatype sllIfindex arpMessage = some (arpTable, actions) := by
  simp only [onArpMessage, onArpMessageWith, if_pos hop]
  split
  next hdest =>
    rw [if_neg (hfound hdest)]
    exact ⟨_, rfl⟩
  next => exact ⟨_, rfl⟩

/-- **The entry of the sender.** A request updates it exactly if there is nothing to update, and, at
the node the request is for, the entry is found: the MAC address has a zero byte, or the bytes behind it
compare equal. -/
theorem refreshed_iff (hr : RequestOf arpMessage arpTable index arpEntry) :
    (∃ table' actions, onArpMessage eth0 arpTable beyond sllHatype sllIfindex arpMessage = some (table', actions) ∧
      Refreshed arpTable index sllHatype sllIfindex table') ↔
    (arpEntry.sllHatype = sllHatype ∧ arpEntry.sllIfindex = sllIfindex) ∧
      (checkIsDestNode eth0 arpMessage.targetIp = true → 0 ∈ arpMessage.senderMac.toList ∨
        ∃ entry ∈ arpTable, entry.ipAddr = ipNtop arpMessage.senderIp ∧
          entry.macAddr = arpMessage.senderMac ∧ beyond entry = true) := by
  rw [← hr.found_iff]
  obtain ⟨hlt, hget⟩ := List.getElem?_eq_some_iff.mp hr.entry
  constructor
  · intro hrefreshed
    obtain ⟨table', actions, h, entry, hentry, hset⟩ := hrefreshed
    obtain rfl : arpEntry = entry := Option.some.inj (hr.entry.symm.trans hentry)
    rcases onArpMessage_request hr.op h with ⟨hkept, hfound⟩ | ⟨added, hadded⟩
    · refine ⟨?_, hfound⟩
      have hsame : arpEntry = { arpEntry with sllHatype, sllIfindex } := by
        have hslot := congrArg (fun table => table[index]?) (hkept.symm.trans hset)
        rwa [List.getElem?_set_self hlt, hr.entry, Option.some.injEq] at hslot
      exact ⟨congrArg ArpEntry.sllHatype hsame, congrArg ArpEntry.sllIfindex hsame⟩
    · -- an entry more is one too many
      have hlength := congrArg List.length (hadded.symm.trans hset)
      rw [List.length_append, List.length_set, List.length_singleton] at hlength
      omega
  · intro hcase
    obtain ⟨⟨rfl, rfl⟩, hfound⟩ := hcase
    obtain ⟨actions, h⟩ := onArpMessage_request_keeps hr.op hfound
    refine ⟨arpTable, actions, h, arpEntry, hr.entry, ?_⟩
    have hsame : arpTable.set index arpTable[index] = arpTable := List.set_getElem_self hlt
    rw [hget] at hsame
    exact hsame.symm

/-! ## A known sender -/

def askedInterface : Interface := { exampleInterface with ipAddr := "130.245.156.28".toList }

/-- The node 130.245.156.27 asks for 130.245.156.28. -/
def knownRequest : ArpMessage :=
  requestMessage { exampleInterface with macAddr := #v[0x08, 0x00, 0x27, 0x49, 0x3f, 0x67] }
    #v[130, 245, 156, 28] #v[130, 245, 156, 27]

/-- Its entry here, from an earlier request that came in on interface 2. -/
def knownEntry : ArpEntry where
  ipAddr := "130.245.156.27".toList
  macAddr := #v[0x08, 0x00, 0x27, 0x49, 0x3f, 0x67]
  sllHatype := 1
  sllIfindex := 2
  connFd := -1

theorem knownRequest_of : RequestOf knownRequest [knownEntry] 0 knownEntry := ⟨rfl, rfl, by decide, rfl⟩

theorem refreshed_iff_same :
    (∃ table' actions, onArpMessage askedInterface [knownEntry] (fun _ => false) 1 2 knownRequest =
      some (table', actions) ∧ Refreshed [knownEntry] 0 1 2 table') ↔
    (knownEntry.sllHatype = 1 ∧ knownEntry.sllIfindex = 2) ∧
      (checkIsDestNode askedInterface knownRequest.targetIp = true → 0 ∈ knownRequest.senderMac.toList ∨
        ∃ entry ∈ [knownEntry], entry.ipAddr = ipNtop knownRequest.senderIp ∧
          entry.macAddr = knownRequest.senderMac ∧ false = true) :=
  refreshed_iff knownRequest_of

/-- The next request comes in on interface 3; it is answered, and the entry keeps interface 2. -/
theorem not_refreshed : ∃ table' actions,
    onArpMessage askedInterface [knownEntry] (fun _ => false) 1 3 knownRequest = some (table', actions) ∧
      ¬ Refreshed [knownEntry] 0 1 3 table' := by
  have hkept : (onArpMessage askedInterface [knownEntry] (fun _ => false) 1 3 knownRequest).map Prod.fst =
      some [knownEntry] := by decide +kernel
  obtain ⟨⟨table', actions⟩, h, rfl⟩ := Option.map_eq_some_iff.mp hkept
  refine ⟨[knownEntry], actions, h, ?_⟩
  intro hrefreshed
  obtain ⟨entry, hentry, hset⟩ := hrefreshed
  obtain rfl : knownEntry = entry := Option.some.inj hentry
  have hindex := congrArg (fun table => table.map ArpEntry.sllIfindex) hset
  exact absurd hindex (by decide)

end Sockets.Arp
