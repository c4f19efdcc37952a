/-
The ARP module of a node: its table, and what it does with a client and with
a message from the network. A client asks for the MAC address of an IP
address: it is answered from the table, or a placeholder with the descriptor
of its connection is put in the table and the question is broadcast. A
request makes the node asked for answer and remember the sender; a reply
fills in the first entry for its sender.

The nodes have one interface `eth0` each. What has no defined outcome in C
(a 21st entry, text that is not terminated or not an address) is `none`.
-/
import Sockets.Arp.Message
import Mathlib.Data.List.GetD

namespace Sockets.Arp

open Odr (Mac checkAddressNotEmpty)

def arpTableSize : Nat := 20
def ipAddrSize : Nat := 20

structure Interface where
  macAddr : Mac
  ipAddr : List Char
  interfaceNum : Int

/-- `connFd` is a client's connection waiting for the MAC address, or negative. -/
structure ArpEntry where
  ipAddr : List Char := []
  macAddr : Mac := Mac.empty
  sllHatype : Nat := 0
  sllIfindex : Int := 0
  connFd : Int := 0
deriving DecidableEq

/-- An Ethernet frame with a message in it. -/
structure Frame where
  destMac : Mac
  srcMac : Mac
  ifIndex : Int
  arpMessage : ArpMessage
deriving DecidableEq

inductive Action
  | write (connFd : Int) (macAddr : Mac)
  | close (connFd : Int)
  | send (frame : Frame)
deriving DecidableEq

/-- The first entry with the text of the address. -/
def indexOfIP (arpTable : List ArpEntry) (ipAddr : List Char) : Option Nat :=
  arpTable.findIdx? (·.ipAddr = ipAddr)

/-- `arpTable[numEntries++] = arpEntry`. -/
def pushEntry (arpTable : List ArpEntry) (arpEntry : ArpEntry) : Option (List ArpEntry) :=
  if arpTable.length < arpTableSize then some (arpTable ++ [arpEntry]) else none

/-- `strcmp` says equal: the bytes agree up to a zero. Where they agree in all six and none is
zero it goes on past both arrays, and `beyond` is what it finds there. -/
def strcmpEqual (beyond : Bool) : List UInt8 → List UInt8 → Bool
  | a :: as, b :: bs => if a ≠ b then false else if a = 0 then true else strcmpEqual beyond as bs
  | _, _ => beyond

def checkEntryExist (beyond : ArpEntry → Bool) (arpTable : List ArpEntry) (ipAddr : Ipv4) (macAddr : Mac) :
    Option Nat :=
  arpTable.findIdx? fun arpEntry =>
    arpEntry.ipAddr = ipNtop ipAddr ∧
      strcmpEqual (beyond arpEntry) arpEntry.macAddr.toList macAddr.toList = true

def checkIsDestNode (eth0 : Interface) (ipAddr : Ipv4) : Bool := eth0.ipAddr = ipNtop ipAddr

def sendArpMessage (srcMac destMac : Mac) (ifIndex : Int) (arpMessage : ArpMessage) : Action :=
  .send { destMac, srcMac, ifIndex, arpMessage }

/-- The question for an address. -/
def requestMessage (eth0 : Interface) (targetIp senderIp : Ipv4) : ArpMessage :=
  { initArpMessage {} with
    targetIp
    senderIp
    targetMac := Mac.broadcast
    senderMac := eth0.macAddr
    op := #v[0x00, 0xff] }

/-- A connection is accepted, and `text` read from it; `push` puts an entry in the table. -/
def onClientWith (push : List ArpEntry → ArpEntry → Option (List ArpEntry)) (eth0 : Interface)
    (arpTable : List ArpEntry) (connFd : Nat) (text : List Char) : Option (List ArpEntry × List Action) :=
  let ip := Odr.cString (text.take ipAddrSize)
  if text = [] ∨ ipAddrSize ≤ ip.length then none
  else
    match indexOfIP arpTable ip with
    | none => do
      let arpTable ← push arpTable { ipAddr := ip, connFd }
      let targetIp ← setIPAddr ip
      let senderIp ← setIPAddr eth0.ipAddr
      let arpMessage := requestMessage eth0 targetIp senderIp
      some (arpTable, [sendArpMessage arpMessage.senderMac arpMessage.targetMac eth0.interfaceNum arpMessage])
    | some index =>
      let arpEntry := arpTable.getD index {}
      if checkAddressNotEmpty arpEntry.macAddr = false then some (arpTable, [])
      else some (arpTable, [.write connFd arpEntry.macAddr, .close connFd])

def onClient (eth0 : Interface) (arpTable : List ArpEntry) (connFd : Nat) (text : List Char) :
    Option (List ArpEntry × List Action) :=
  onClientWith pushEntry eth0 arpTable connFd text

/-- The answer to a request. -/
def replyMessage (eth0 : Interface) (arpMessage : ArpMessage) : ArpMessage :=
  { initArpMessage {} with
    op := #v[0xff, 0x00]
    senderIp := arpMessage.targetIp
    senderMac := eth0.macAddr
    targetIp := arpMessage.senderIp
    targetMac := arpMessage.senderMac }

/-- A message arrives; `sllHatype` and `sllIfindex` are what `recvfrom` says of its sender. -/
def onArpMessageWith (push : List ArpEntry → ArpEntry → Option (List ArpEntry)) (eth0 : Interface)
    (arpTable : List ArpEntry) (beyond : ArpEntry → Bool) (sllHatype : Nat) (sllIfindex : Int)
    (arpMessage : ArpMessage) : Option (List ArpEntry × List Action) :=
  if arpMessage.op = #v[0x00, 0xff] then
    -- of an entry that exists a copy is updated
    let foundIndex := checkEntryExist beyond arpTable arpMessage.senderIp arpMessage.senderMac
    if checkIsDestNode eth0 arpMessage.targetIp then do
      let arpEntry : ArpEntry := {
        ipAddr := ipNtop arpMessage.senderIp
        macAddr := arpMessage.senderMac
        sllHatype
        sllIfindex
        connFd := -1 }
      let pushed := if foundIndex = none then push arpTable arpEntry else some arpTable
      let arpTable ← pushed
      let reply := replyMessage eth0 arpMessage
      some (arpTable, [sendArpMessage reply.senderMac reply.targetMac eth0.interfaceNum reply])
    else some (arpTable, [])
  else if arpMessage.op = #v[0xff, 0x00] then
    match indexOfIP arpTable (ipNtop arpMessage.senderIp) with
    | none => some (arpTable, [])
    | some foundIndex =>
      let arpEntry := arpTable.getD foundIndex {}
      let arpEntry := { arpEntry with macAddr := arpMessage.senderMac, sllIfindex, sllHatype }
      if arpEntry.connFd > -1 then
        some (arpTable.set foundIndex { arpEntry with connFd := -1 },
          [.write arpEntry.connFd arpEntry.macAddr, .close arpEntry.connFd])
      else some (arpTable.set foundIndex arpEntry, [])
  else some (arpTable, [])

def onArpMessage (eth0 : Interface) (arpTable : List ArpEntry) (beyond : ArpEntry → Bool) (sllHatype : Nat)
    (sllIfindex : Int) (arpMessage : ArpMessage) : Option (List ArpEntry × List Action) :=
  onArpMessageWith pushEntry eth0 arpTable beyond sllHatype sllIfindex arpMessage

/-! ## The first entry for an address -/

/-- `entry` is the first one for the address, between `front` and `back`. -/
structure FirstEntry (arpTable : List ArpEntry) (ip : List Char) (front : List ArpEntry) (entry : ArpEntry)
    (back : List ArpEntry) : Prop where
  split : arpTable = front ++ entry :: back
  ipAddr : entry.ipAddr = ip
  front : ∀ other ∈ front, other.ipAddr ≠ ip

variable {arpTable : List ArpEntry} {ip : List Char}

theorem indexOfIP_eq_none (h : indexOfIP arpTable ip = none) : ∀ entry ∈ arpTable, entry.ipAddr ≠ ip := by
  intro entry hm
  simpa using List.findIdx?_eq_none_iff.mp h entry hm

theorem indexOfIP_eq_some {index : Nat} (h : indexOfIP arpTable ip = some index) : ∃ front entry back,
    FirstEntry arpTable ip front entry back ∧ arpTable.getD index {} = entry ∧
      ∀ entry', arpTable.set index entry' = front ++ entry' :: back := by
  obtain ⟨hlt, hip, hfront⟩ := List.findIdx?_eq_some_iff_getElem.mp h
  refine ⟨arpTable.take index, arpTable[index], arpTable.drop (index + 1), ⟨?_, ?_, ?_⟩, ?_, ?_⟩
  · simp
  · simpa using hip
  · intro other hm
    obtain ⟨j, hj, rfl⟩ := List.mem_take_iff_getElem.mp hm
    simpa using hfront j (by omega)
  · rw [List.getD_eq_getElem _ _ hlt]
  · intro entry'
    rw [List.set_eq_take_append_cons_drop, if_pos hlt]

/-- A member of a list split at one of its members. -/
theorem eq_or_mem_of_mem_split {α : Type} {front back : List α} {a b : α} (h : b ∈ front ++ a :: back) :
    b = a ∨ b ∈ front ∨ b ∈ back := by
  rcases List.mem_append.mp h with hfront | hrest
  · exact .inr (.inl hfront)
  rcases List.mem_cons.mp hrest with he | hback
  · exact .inl he
  · exact .inr (.inr hback)

theorem mem_split_of_mem {α : Type} {front back : List α} {a b : α} (h : b ∈ front ∨ b ∈ back) :
    b ∈ front ++ a :: back := by
  cases h with
  | inl hfront => exact List.mem_append_left _ hfront
  | inr hback => exact List.mem_append_right _ (List.mem_cons_of_mem _ hback)

namespace FirstEntry

variable {front back : List ArpEntry} {entry : ArpEntry}

theorem mem (h : FirstEntry arpTable ip front entry back) : entry ∈ arpTable := by
  rw [h.split]
  exact List.mem_append_right _ List.mem_cons_self

/-- The other entries are around it. -/
theorem mem_of_other (h : FirstEntry arpTable ip front entry back) {other : ArpEntry}
    (hm : other ∈ front ∨ other ∈ back) : other ∈ arpTable := by
  rw [h.split]
  exact mem_split_of_mem hm

theorem find (h : FirstEntry arpTable ip front entry back) : arpTable.find? (·.ipAddr = ip) = some entry := by
  rw [h.split, List.find?_append, List.find?_eq_none.mpr fun other hm => by simpa using h.front other hm,
    Option.none_or, List.find?_cons_of_pos (by simpa using h.ipAddr)]

/-- Changing it changes nothing for another address. -/
theorem find_replace (h : FirstEntry arpTable ip front entry back) {entry' : ArpEntry} {ip' : List Char}
    (hip : entry'.ipAddr = entry.ipAddr) (hne : ip' ≠ ip) :
    (front ++ entry' :: back).find? (·.ipAddr = ip') = arpTable.find? (·.ipAddr = ip') := by
  have hother : entry.ipAddr ≠ ip' := fun hsame => hne (hsame.symm.trans h.ipAddr)
  rw [h.split, List.find?_append, List.find?_append, List.find?_cons_of_neg (by simpa [hip] using hother),
    List.find?_cons_of_neg (by simpa using hother)]

end FirstEntry

/-! ## What a node does -/

/-- The values of `op` in a request and in a reply. -/
abbrev opRequest : Vector UInt8 2 := #v[0x00, 0xff]
abbrev opReply : Vector UInt8 2 := #v[0xff, 0x00]

def ArpMessage.IsReply (arpMessage : ArpMessage) : Prop := arpMessage.op = #v[0xff, 0x00]

instance (arpMessage : ArpMessage) : Decidable arpMessage.IsReply := inferInstanceAs (Decidable (_ = _))

variable {eth0 : Interface} {connFd : Nat} {table' : List ArpEntry} {actions : List Action}
  {arpMessage : ArpMessage}

/-- What a node does with a client that asks for `ip`: it asks the others, answers, or turns the
client away. -/
inductive ClientEffect (eth0 : Interface) (arpTable : List ArpEntry) (connFd : Nat) (ip : List Char) :
    List ArpEntry → List Action → Prop
  | asks {frame} (hnone : ∀ entry ∈ arpTable, entry.ipAddr ≠ ip)
      (hsender : setIPAddr eth0.ipAddr = some frame.arpMessage.senderIp)
      (hmac : frame.arpMessage.senderMac = eth0.macAddr) :
      ClientEffect eth0 arpTable connFd ip (arpTable ++ [{ ipAddr := ip, connFd }]) [.send frame]
  | answers {front entry back} (hfirst : FirstEntry arpTable ip front entry back)
      (hmac : checkAddressNotEmpty entry.macAddr = true) :
      ClientEffect eth0 arpTable connFd ip arpTable [.write connFd entry.macAddr, .close connFd]
  | turnsAway {front entry back} (hfirst : FirstEntry arpTable ip front entry back)
      (hmac : checkAddressNotEmpty entry.macAddr = false) :
      ClientEffect eth0 arpTable connFd ip arpTable []

theorem onClient_effect {text : List Char} (h : onClient eth0 arpTable connFd text = some (table', actions)) :
    ClientEffect eth0 arpTable connFd (Odr.cString (text.take ipAddrSize)) table' actions := by
  simp only [onClient, onClientWith] at h
  split at h
  · cases h
  split at h
  next hnone =>
    simp only [pushEntry, Option.bind_eq_bind, Option.bind_eq_some_iff, Option.ite_none_right_eq_some,
      Option.some.injEq, Prod.mk.injEq] at h
    obtain ⟨pushed, ⟨-, rfl⟩, targetIp, -, senderIp, hsender, rfl, rfl⟩ := h
    exact .asks (indexOfIP_eq_none hnone) hsender rfl
  next index hindex =>
    obtain ⟨front, entry, back, hfirst, hget, -⟩ := indexOfIP_eq_some hindex
    rw [hget] at h
    split at h
    next hmac =>
      simp only [Option.some.injEq, Prod.mk.injEq] at h
      obtain ⟨rfl, rfl⟩ := h
      exact .turnsAway hfirst hmac
    next hmac =>
      simp only [Option.some.injEq, Prod.mk.injEq] at h
      obtain ⟨rfl, rfl⟩ := h
      exact .answers hfirst (by simpa using hmac)

/-- What a node does with a message: it ignores it; it answers the request, and perhaps remembers
the sender; or the reply fills in the first entry for its sender, and the client that waits is
answered. -/
inductive MessageEffect (eth0 : Interface) (arpTable : List ArpEntry) (arpMessage : ArpMessage) :
    List ArpEntry → List Action → Prop
  | ignores (hnone : arpMessage.IsReply → ∀ entry ∈ arpTable, entry.ipAddr ≠ ipNtop arpMessage.senderIp) :
      MessageEffect eth0 arpTable arpMessage arpTable []
  | replies {new frame} (hnot : ¬ arpMessage.IsReply) (hdest : eth0.ipAddr = ipNtop arpMessage.targetIp)
      (hnew : ∀ entry ∈ new, entry.ipAddr = ipNtop arpMessage.senderIp ∧
        entry.macAddr = arpMessage.senderMac ∧ entry.connFd = -1)
      (hframe : frame.arpMessage = replyMessage eth0 arpMessage) :
      MessageEffect eth0 arpTable arpMessage (arpTable ++ new) [.send frame]
  | fills {front entry back entry'} (hfirst : FirstEntry arpTable (ipNtop arpMessage.senderIp) front entry back)
      (hip : entry'.ipAddr = entry.ipAddr) (hmac : entry'.macAddr = arpMessage.senderMac)
      (hnone : entry.connFd < 0) (hfd : entry'.connFd < 0) :
      MessageEffect eth0 arpTable arpMessage (front ++ entry' :: back) []
  | answers {front entry back entry'} (hfirst : FirstEntry arpTable (ipNtop arpMessage.senderIp) front entry back)
      (hip : entry'.ipAddr = entry.ipAddr) (hmac : entry'.macAddr = arpMessage.senderMac)
      (hwaits : 0 ≤ entry.connFd) (hfd : entry'.connFd < 0) :
      MessageEffect eth0 arpTable arpMessage (front ++ entry' :: back)
        [.write entry.connFd arpMessage.senderMac, .close entry.connFd]

theorem onArpMessage_effect {beyond : ArpEntry → Bool} {sllHatype : Nat} {sllIfindex : Int}
    (h : onArpMessage eth0 arpTable beyond sllHatype sllIfindex arpMessage = some (table', actions)) :
    MessageEffect eth0 arpTable arpMessage table' actions := by
  simp only [onArpMessage, onArpMessageWith] at h
  split at h
  next hrequest =>
    have hnot : ¬ arpMessage.IsReply := by
      rw [ArpMessage.IsReply, hrequest]
      decide
    split at h
    next hdest =>
      have hdest : eth0.ipAddr = ipNtop arpMessage.targetIp := by simpa [checkIsDestNode] using hdest
      simp only [Option.bind_eq_bind, Option.bind_eq_some_iff, Option.some.injEq, Prod.mk.injEq] at h
      obtain ⟨pushed, hpush, rfl, rfl⟩ := h
      have hreplies (new : List ArpEntry) (hnew : ∀ entry ∈ new, entry.ipAddr = ipNtop arpMessage.senderIp ∧
          entry.macAddr = arpMessage.senderMac ∧ entry.connFd = -1) :
          MessageEffect eth0 arpTable arpMessage (arpTable ++ new)
            [sendArpMessage eth0.macAddr arpMessage.senderMac eth0.interfaceNum (replyMessage eth0 arpMessage)] :=
        .replies hnot hdest hnew rfl
      split at hpush
      · simp only [pushEntry, Option.ite_none_right_eq_some, Option.some.injEq] at hpush
        obtain ⟨-, rfl⟩ := hpush
        exact hreplies _ (by simp)
      · simp only [Option.some.injEq] at hpush
        subst hpush
        have hnone := hreplies [] (by simp)
        rwa [List.append_nil] at hnone
    · simp only [Option.some.injEq, Prod.mk.injEq] at h
      obtain ⟨rfl, rfl⟩ := h
      exact .ignores fun hreply => absurd hreply hnot
  split at h
  next hreply =>
    split at h
    next hnone =>
      simp only [Option.some.injEq, Prod.mk.injEq] at h
      obtain ⟨rfl, rfl⟩ := h
      exact .ignores fun _ => indexOfIP_eq_none hnone
    next index hindex =>
      obtain ⟨front, entry, back, hfirst, hget, hset⟩ := indexOfIP_eq_some hindex
      simp only [hget, hset] at h
      split at h
      next hwaits =>
        simp only [Option.some.injEq, Prod.mk.injEq] at h
        obtain ⟨rfl, rfl⟩ := h
        exact .answers hfirst rfl rfl (by omega) (by dsimp only; omega)
      next hnone =>
        simp only [Option.some.injEq, Prod.mk.injEq] at h
        obtain ⟨rfl, rfl⟩ := h
        exact .fills hfirst rfl rfl (by omega) (by dsimp only; omega)
  next hother =>
    simp only [Option.some.injEq, Prod.mk.injEq] at h
    obtain ⟨rfl, rfl⟩ := h
    exact .ignores fun hreply => absurd hreply hother

end Sockets.Arp
