/-
The nodes of a tour, with every source-routed packet and every notice to the
group that was sent. What was sent may arrive at any later time, any number
of times or never, and a packet arrives as its passage leaves it; a node reads
ICMP packets of any kind, and its timeouts fall anywhere.

A tour is the list of its nodes, the starting one first. The packets of a
single tour are its legs: the packet of leg `i` goes from node `i` to node
`i + 1`, and a node that receives it sends that of leg `i + 1`, until the
index is the last one. For that the nodes have to read the numbers of the tour
in the slots of the packet, up to the 0 behind them (`Spells`). The starting
node reads them through a pointer to an array that is no longer there
(`Launch`), and of a long tour the end is not sent (`Passage.Keeps`).
-/
import Mathlib.Logic.Function.Basic
import Sockets.Lib.Machine
import Sockets.Tour.Node

namespace Sockets.Tour

open Wire

variable {m : DataModel}

/-- What a node made of a source-routed packet, and which one it was. -/
structure Reception where
  packet : Nat
  node : Int
  nextIpIdx : Int
  previousVmNum : Int
  forwarded : Bool
  ifLastNode : Int
deriving DecidableEq

structure Network (m : DataModel) where
  nodes : Int → Node
  sent : List (RtPacket m)
  received : List Reception := []
  multicasts : List Multicast := []

inductive TourEvent (m : DataModel)
  /-- the `k`-th packet arrives at the host of its destination -/
  | packet (k : Nat) (passage : Passage m)
  /-- node `v` reads an ICMP packet -/
  | icmp (v : Int) (packet : IcmpPacket)
  /-- a second has passed in `select` -/
  | timeout (v : Int)
  /-- node `v` reads the `k`-th notice that was sent -/
  | multicast (v : Int) (k : Nat)
  /-- the alarm of node `v` goes off -/
  | alarm (v : Int)

def Network.put (s : Network m) (v : Int) (node : Node) : Network m :=
  { s with nodes := Function.update s.nodes v node }

def Network.notify (s : Network m) (v : Int) (notice : Notice) : Network m :=
  { s with multicasts := s.multicasts ++ [{ sender := v, group := (s.nodes v).group, notice }] }

def Visit.reception (visit : Visit m) (k : Nat) (v : Int) (payload : PayLoad m) : Reception where
  packet := k
  node := v
  nextIpIdx := payload.nextIpIdx
  previousVmNum := visit.previousVmNum
  forwarded := visit.forwarded.isSome
  ifLastNode := visit.node.ifLastNode

/-- The `k`-th packet has arrived at node `v`, as `payload`. -/
def Network.visit (s : Network m) (k : Nat) (v : Int) (payload : PayLoad m) (visit : Visit m) : Network m where
  nodes := Function.update s.nodes v visit.node
  sent := s.sent ++ visit.forwarded.toList
  received := s.received ++ [visit.reception k v payload]
  multicasts := s.multicasts

def Network.step (s : Network m) : TourEvent m → Option (Network m)
  | .packet k passage =>
    s.sent[k]?.bind fun packet =>
      if (s.nodes packet.dst).exited then none
      else
        (passage.transmit packet.payload).bind fun payload =>
          ((s.nodes packet.dst).onRtPacket payload).map fun visit => s.visit k packet.dst payload visit
  | .icmp v packet =>
    if (s.nodes v).exited then none else ((s.nodes v).procV4 packet).map fun node => s.put v node
  | .timeout v =>
    if (s.nodes v).exited then none
    else ((s.nodes v).onTimeout v).map fun (node, timeout) =>
      match timeout with
      | .notice notice => (s.put v node).notify v notice
      | .pings _ => s.put v node
  | .multicast v k =>
    s.multicasts[k]?.bind fun multicast =>
      -- the socket is bound and the group joined at the first visit
      if (s.nodes v).exited ∨ (s.nodes v).ifVisit = 0 ∨ (s.nodes v).group ≠ multicast.group then none
      else
        match (s.nodes v).onMulticast v multicast.notice.text with
        | (node, some notice) => some ((s.put v node).notify v notice)
        | (node, none) => some (s.put v node)
  | .alarm v =>
    if (s.nodes v).alarm = true ∧ (s.nodes v).exited = false then
      some (s.put v { s.nodes v with exited := true })
    else none

/-! ## A single tour -/

def multicastPort : List Char := "9821".toList

def multicastAddr : List Char := "234.245.209.121".toList

/-- The characters of a text, and a 0 behind them. -/
def literal (text : List Char) : List.Vector UInt8 (text.length + 1) := ⟨text.map charByte ++ [0], by simp⟩

abbrev HostArray : Type := Vector Int totalVmSize

def slotsOf (m : DataModel) (numbers : HostArray) : HostSlots m := .ofFn fun q => slotOf m numbers[q]

/-- What the starting node finds in its memory: what its variable `packet` holds, and the numbers it reads
through the pointer that `hostNameToNumberArray` returns. The array this points to is gone by then, so
they may be any, and reading them may have no outcome. -/
structure Launch (m : DataModel) where
  packet : PayLoad m
  hostNumberArray : Option HostArray
  isInt : ∀ numbers, hostNumberArray = some numbers → ∀ q : Fin totalVmSize, IsInt32 numbers[q]

/-- A starting node that gets nothing through its pointer. -/
def Launch.failed (packet : PayLoad m) : Launch m where
  packet := packet
  hostNumberArray := none
  isInt := fun _ h => absurd h.symm (Option.some_ne_none _)

/-- The packet in `main` of the starting node; `packet` is what the variable held before. -/
def startPayLoad (packet : PayLoad m) (hostNumberArray : HostArray) : Option (PayLoad m) := do
  let multiPort ← strcpy 0 packet.multiPort (literal multicastPort)
  let multiIp ← strcpy 0 packet.multiIp (literal multicastAddr)
  some { nextIpIdx := 0, multiPort, multiIp, padding := packet.padding, hostArray := slotsOf m hostNumberArray }

/-- The starting node, `v`, has joined the group and sent its packet, if it got that far; the others were
started without arguments. -/
def Network.start (launch : Launch m) (v : Int) : Network m where
  nodes := Function.update (fun _ => {}) v {
    ifVisit := 1, group := some (multicastAddr, multicastPort), exited := launch.hostNumberArray.isNone }
  sent := ((launch.hostNumberArray.bind (startPayLoad launch.packet)).bind sendRTpacket).toList

/-- The tour that node `v` starts. -/
def tourMachine (launch : Launch m) (v : Int) : Machine (Network m) (TourEvent m) where
  init := .start launch v
  step := Network.step

/-- The `i`-th node of a tour, and 0 behind its end. -/
def vm (tour : List Int) (i : Nat) : Int := tour.getD i 0

def hostNumbers (tour : List Int) : HostArray := Vector.ofFn fun i => vm tour i

/-- At least one leg, room in the array, and numbers of hosts. -/
structure ValidTour (tour : List Int) : Prop where
  leg : 2 ≤ tour.length
  fits : tour.length ≤ totalVmSize
  nonzero : ∀ v ∈ tour, v ≠ 0
  isInt : ∀ v ∈ tour, IsInt32 v

instance {tour : List Int} : Decidable (ValidTour tour) :=
  decidable_of_iff (2 ≤ tour.length ∧ tour.length ≤ totalVmSize ∧ (∀ v ∈ tour, v ≠ 0) ∧
      ∀ v ∈ tour, IsInt32 v)
    ⟨fun h => ⟨h.1, h.2.1, h.2.2.1, h.2.2.2⟩, fun h => ⟨h.leg, h.fits, h.nonzero, h.isInt⟩⟩

/-- What the starting node reads are the numbers of the tour and, where there is room, a 0 behind them. -/
def Launch.Reads (launch : Launch m) (tour : List Int) : Prop :=
  ∃ numbers, launch.hostNumberArray = some numbers ∧
    ∀ q : Fin totalVmSize, (q : Nat) < tour.length + 1 → numbers[q] = vm tour q

/-- As far as the end of `hostArray` that is not sent belongs to the tour, the receiver's buffer has it. -/
def Wire.Passage.Keeps (passage : Passage m) (tour : List Int) : Prop :=
  passage.stale.take (cutOff m (tour.length + 1)) =
    ((cellBytes (slotsOf m (hostNumbers tour))).drop (totalVmSize * m.pointerSize - sizeofIp)).take
      (cutOff m (tour.length + 1))

/-- The slots have the numbers of the tour and, where there is room, a 0 behind them. -/
def Spells (tour : List Int) (slots : HostSlots m) : Prop :=
  ∀ q : Fin totalVmSize, (q : Nat) < tour.length + 1 → slots.get q = slotOf m (vm tour q)

/-- The packet carries the numbers of the tour. -/
structure Carries (tour : List Int) (i : Nat) (payload : PayLoad m) : Prop where
  nextIpIdx : payload.nextIpIdx = i
  port : 0 ∈ payload.multiPort.toList
  ip : 0 ∈ payload.multiIp.toList
  spells : Spells tour payload.hostArray

/-- The packet that node `i` sends. -/
structure IsLeg (tour : List Int) (i : Nat) (packet : RtPacket m) : Prop where
  src : packet.src = vm tour i
  dst : packet.dst = vm tour (i + 1)
  carries : Carries tour i packet.payload

section

variable {tour : List Int} {i j : Nat} {slots : HostSlots m} {payload received : PayLoad m}
  {passage : Passage m} {launch : Launch m} {numbers : HostArray}

theorem hostNumbers_getElem (h : i < totalVmSize) : (hostNumbers tour)[i] = vm tour i := by
  simp [hostNumbers]

theorem hostNumbers_toList (h : tour.length ≤ totalVmSize) :
    (hostNumbers tour).toList = tour ++ List.replicate (totalVmSize - tour.length) 0 := by
  refine List.ext_getElem (by simp; omega) ?_
  intro i hi hi'
  rw [Vector.getElem_toList, hostNumbers_getElem, vm, List.getElem_append]
  split
  next hlt => simp [hlt]
  next hge => simp [hge]

theorem vm_of_le (h : tour.length ≤ i) : vm tour i = 0 := by
  rw [vm, List.getD_eq_getElem?_getD, List.getElem?_eq_none h, Option.getD_none]

theorem ValidTour.isInt_vm (h : ValidTour tour) (i : Nat) : IsInt32 (vm tour i) := by
  by_cases hi : i < tour.length
  · rw [vm, List.getD_eq_getElem?_getD, List.getElem?_eq_getElem hi, Option.getD_some]
    exact h.isInt _ (List.getElem_mem hi)
  · rw [vm_of_le (Nat.le_of_not_lt hi)]
    decide

theorem ValidTour.vm_eq_zero_iff (h : ValidTour tour) : vm tour i = 0 ↔ tour.length ≤ i := by
  refine ⟨?_, vm_of_le⟩
  intro hzero
  by_contra hi
  have hlt : i < tour.length := Nat.lt_of_not_le hi
  rw [vm, List.getD_eq_getElem?_getD, List.getElem?_eq_getElem hlt, Option.getD_some] at hzero
  exact h.nonzero _ (List.getElem_mem hlt) hzero

/-- The memory of a starting node that still finds the numbers where they were written. -/
def Launch.ofTour (packet : PayLoad m) (ht : ValidTour tour) : Launch m where
  packet := packet
  hostNumberArray := some (hostNumbers tour)
  isInt := by
    intro numbers h q
    obtain rfl := Option.some.inj h
    exact (hostNumbers_getElem q.isLt).symm ▸ ht.isInt_vm q

theorem Launch.ofTour_reads (packet : PayLoad m) (ht : ValidTour tour) : (ofTour packet ht).Reads tour :=
  ⟨hostNumbers tour, rfl, fun q _ => hostNumbers_getElem q.isLt⟩

theorem slotsOf_get (numbers : HostArray) (q : Fin totalVmSize) :
    (slotsOf m numbers).get q = slotOf m numbers[q] := List.Vector.get_ofFn _ q

theorem spells_slotsOf (h : ∀ q : Fin totalVmSize, (q : Nat) < tour.length + 1 → numbers[q] = vm tour q) :
    Spells tour (slotsOf m numbers) := by
  intro q hq
  rw [slotsOf_get, h q hq]

theorem spells_hostNumbers (tour : List Int) : Spells tour (slotsOf m (hostNumbers tour)) :=
  spells_slotsOf fun q _ => hostNumbers_getElem q.isLt

/-- A slot of the tour is null behind its end. -/
theorem Spells.isNull_iff (h : Spells tour slots) (ht : ValidTour tour) {q : Fin totalVmSize}
    (hq : (q : Nat) < tour.length + 1) : isNull (slots.get q) = true ↔ tour.length ≤ q := by
  rw [h q hq, isNull_slotOf_iff (ht.isInt_vm q), ht.vm_eq_zero_iff]

theorem Spells.lastIndex_eq (h : Spells tour slots) (ht : ValidTour tour) :
    lastIndex slots = (tour.length - 1 : Nat) := by
  have hleg := ht.leg
  have hget (q : Nat) (hq : q < slots.toList.length) :
      slots.toList[q] = slots.get ⟨q, hq.trans_eq slots.toList_length⟩ := rfl
  have hnumber (q : Nat) (hq : q < slots.toList.length) (hlt : q < tour.length) :
      isNull slots.toList[q] = false := by
    rw [hget, Bool.eq_false_iff, Ne, h.isNull_iff ht (Nat.lt_succ_of_lt hlt)]
    exact Nat.not_le_of_lt hlt
  have hfind : slots.toList.findIdx isNull = tour.length := by
    cases Nat.lt_or_eq_of_le ht.fits with
    | inl hlt =>
      rw [List.findIdx_eq (hlt.trans_eq slots.toList_length.symm), hget,
        h.isNull_iff ht (Nat.lt_succ_self tour.length)]
      exact ⟨Nat.le_refl _, fun q hq => hnumber q _ hq⟩
    | inr he =>
      have hnone : slots.toList.findIdx isNull = slots.toList.length := by
        rw [List.findIdx_eq_length]
        intro slot hslot
        obtain ⟨q, hq, rfl⟩ := List.mem_iff_getElem.mp hslot
        exact hnumber q hq (he ▸ hq.trans_eq slots.toList_length)
      rw [hnone, slots.toList_length, he]
  rw [lastIndex, hfind]
  omega

/-! ### The way of a packet -/

theorem Carries.wellFormed (h : Carries tour i payload) (hi : i + 1 < totalVmSize) : payload.WellFormed where
  nonneg := h.nextIpIdx ▸ Int.natCast_nonneg i
  next := by
    rw [h.nextIpIdx]
    omega
  port := h.port
  ip := h.ip

/-- What a node sends of a packet that carries the tour. -/
theorem Carries.sendRTpacket (h : Carries tour i payload) (ht : ValidTour tour) (hi : i + 1 < tour.length) :
    ∃ packet, Tour.sendRTpacket payload = some packet ∧ IsLeg tour i packet := by
  have hfits := ht.fits
  have hat (q : Nat) (hq : q < totalVmSize) (hlt : q < tour.length + 1) :
      slotInt (payload.hostArray.get ⟨q, hq⟩) = vm tour q := by
    rw [h.spells ⟨q, hq⟩ hlt, slotInt_slotOf (ht.isInt_vm q)]
  have hindex : index? totalVmSize payload.nextIpIdx = some ⟨i, by omega⟩ := by
    rw [h.nextIpIdx, index?_natCast]
  have hnext : index? totalVmSize (payload.nextIpIdx + 1) = some ⟨i + 1, by omega⟩ := by
    rw [h.nextIpIdx]
    exact index?_natCast (i := i + 1) (by omega)
  refine ⟨{ src := vm tour i, dst := vm tour (i + 1), payload }, ?_, rfl, rfl, h⟩
  simp only [Tour.sendRTpacket, hindex, hnext, Option.bind_some, Option.map_some,
    hat i (by omega) (by omega), hat (i + 1) (by omega) (by omega)]

/-- A string that ends inside its array still does where another has the same. -/
theorem nul_mem_of_stringOf_eq {k : Nat} {a b : List.Vector UInt8 k}
    (h : stringOf 0 a.toList = stringOf 0 b.toList) (hb : 0 ∈ b.toList) : 0 ∈ a.toList := by
  have hlt := nul_mem_iff.mp hb
  rw [nul_mem_iff, h, a.toList_length]
  exact hlt.trans_eq b.toList_length

/-- A packet that survives carries the tour on. -/
theorem Carries.of_survives (h : Carries tour i payload) (hs : Survives payload received) :
    Carries tour (i + 1) received where
  nextIpIdx := by rw [hs.nextIpIdx, h.nextIpIdx, Nat.cast_succ]
  port := nul_mem_of_stringOf_eq hs.multiPort h.port
  ip := nul_mem_of_stringOf_eq hs.multiIp h.ip
  spells := hs.hostArray ▸ h.spells

/-- Where the buffer keeps the tour, a packet carries it on. -/
theorem Carries.transmit (h : Carries tour i payload) (hi : i + 1 < totalVmSize)
    (hkeeps : passage.Keeps tour) :
    ∃ received, passage.transmit payload = some received ∧ Carries tour (i + 1) received := by
  have hslots (q : Fin totalVmSize) (hq : (q : Nat) < tour.length + 1) :
      payload.hostArray.get q = (slotsOf m (hostNumbers tour)).get q := by
    rw [h.spells q hq, spells_hostNumbers tour q hq]
  obtain ⟨received, htransmit, hget, hip, hport, hidx⟩ :=
    transmit_slots (h.wellFormed hi) passage hslots hkeeps
  refine ⟨received, htransmit, ?_, nul_mem_of_stringOf_eq hport h.port, nul_mem_of_stringOf_eq hip h.ip, ?_⟩
  · rw [hidx, h.nextIpIdx, Nat.cast_succ]
  · intro q hq
    rw [hget q hq, spells_hostNumbers tour q hq]

/-- A tour that is short enough is sent whole. -/
theorem Wire.Passage.keeps_of_short
    (h : (tour.length + 1) * m.pointerSize ≤ totalVmSize * m.pointerSize - sizeofIp) : passage.Keeps tour := by
  have hcut : cutOff m (tour.length + 1) = 0 := Nat.sub_eq_zero_of_le h
  rw [Wire.Passage.Keeps, hcut, List.take_zero, List.take_zero]

/-! ### The start -/

/-- Both strings fit, whatever the variable held before. -/
theorem startPayLoad_eq (packet : PayLoad m) (numbers : HostArray) : ∃ payload,
    startPayLoad packet numbers = some payload ∧ payload.nextIpIdx = 0 ∧ 0 ∈ payload.multiPort.toList ∧
      0 ∈ payload.multiIp.toList ∧ payload.hostArray = slotsOf m numbers := by
  have hport : Holds 0 (literal multicastPort) (multicastPort.map charByte) := ⟨by decide, [], rfl⟩
  have hip : Holds 0 (literal multicastAddr) (multicastAddr.map charByte) := ⟨by decide, [], rfl⟩
  obtain ⟨multiPort, hportCopy, hportHolds⟩ := hport.strcpy packet.multiPort (by decide)
  obtain ⟨multiIp, hipCopy, hipHolds⟩ := hip.strcpy packet.multiIp (by decide)
  refine ⟨{ nextIpIdx := 0, multiPort, multiIp, padding := packet.padding, hostArray := slotsOf m numbers },
    ?_, rfl, hportHolds.nul_mem, hipHolds.nul_mem, rfl⟩
  simp only [startPayLoad, hportCopy, hipCopy, Option.bind_eq_bind, Option.bind_some]

theorem start_sent (ht : ValidTour tour) (hreads : launch.Reads tour) (v : Int) :
    ∃ packet, (Network.start launch v).sent = [packet] ∧ IsLeg tour 0 packet := by
  obtain ⟨numbers, hnumbers, hread⟩ := hreads
  obtain ⟨payload, hpayload, hidx, hport, hip, hslots⟩ := startPayLoad_eq launch.packet numbers
  have hcarries : Carries tour 0 payload := ⟨hidx, hport, hip, hslots ▸ spells_slotsOf hread⟩
  obtain ⟨packet, hpacket, hleg⟩ := hcarries.sendRTpacket ht (by have hleg := ht.leg; omega)
  refine ⟨packet, ?_, hleg⟩
  simp only [Network.start, hnumbers, hpayload, hpacket, Option.bind_some, Option.toList_some]

theorem Launch.Reads.isSome (h : launch.Reads tour) : launch.hostNumberArray.isSome = true := by
  obtain ⟨numbers, hnumbers, -⟩ := h
  rw [hnumbers, Option.isSome_some]

theorem start_nodes (hread : launch.hostNumberArray.isSome = true) (v w : Int) :
    ((Network.start launch v).nodes w).ifLastNode = -1 ∧ ((Network.start launch v).nodes w).alarm = false ∧
      ((Network.start launch v).nodes w).exited = false := by
  obtain ⟨numbers, hnumbers⟩ := Option.isSome_iff_exists.mp hread
  simp only [Network.start, hnumbers, Function.update_apply]
  split <;> exact ⟨rfl, rfl, rfl⟩

/-! ### The nodes on the way -/

/-- What comes of the packet of leg `i`. -/
structure LegVisits (tour : List Int) (i : Nat) (node : Node) (visit : Visit m) (j : Fin pingSize) : Prop where
  previous : visit.previousVmNum = vm tour i
  place : index? pingSize (vm tour i) = some j
  noted : Noted node j visit.node
  last : i + 2 = tour.length → visit.node.ifLastNode = 1 ∧ visit.forwarded = none
  notLast : i + 2 < tour.length → visit.node.ifLastNode = node.ifLastNode ∧
    ∃ packet, visit.forwarded = some packet ∧ IsLeg tour (i + 1) packet

theorem Carries.previous (h : Carries tour (i + 1) payload) (ht : ValidTour tour) (hi : i + 1 < tour.length) :
    ∃ q, index? totalVmSize (payload.nextIpIdx - 1) = some q ∧
      slotInt (payload.hostArray.get q) = vm tour i := by
  have hfits := ht.fits
  have hindex : payload.nextIpIdx - 1 = (i : Int) := by
    rw [h.nextIpIdx]
    omega
  refine ⟨⟨i, by omega⟩, by rw [hindex, index?_natCast], ?_⟩
  rw [h.spells _ (by show i < tour.length + 1; omega), slotInt_slotOf (ht.isInt_vm i)]

theorem Carries.isLast_iff (h : Carries tour (i + 1) payload) (ht : ValidTour tour) :
    payload.nextIpIdx = lastIndex payload.hostArray ↔ i + 2 = tour.length := by
  have hleg := ht.leg
  rw [h.spells.lastIndex_eq ht, h.nextIpIdx]
  omega

theorem legVisits_of_visits {node : Node} {visit : Visit m} {place : Fin pingSize} (ht : ValidTour tour)
    (hi : i + 1 < tour.length) (hcarries : Carries tour (i + 1) payload)
    (h : Visits node payload visit place) : LegVisits tour i node visit place := by
  have hprevious : visit.previousVmNum = vm tour i := by
    obtain ⟨q, hq, hread⟩ := h.previous
    obtain ⟨q', hq', hvm⟩ := hcarries.previous ht hi
    obtain rfl : q = q' := Option.some.inj (hq.symm.trans hq')
    exact hread.trans hvm
  refine ⟨hprevious, hprevious ▸ h.place, h.noted, ?_, ?_⟩
  · exact fun he => h.last ((hcarries.isLast_iff ht).mpr he)
  · intro hlt
    obtain ⟨hsame, packet, hsend, hforwarded⟩ :=
      h.notLast (mt (hcarries.isLast_iff ht).mp (Nat.ne_of_lt hlt))
    obtain ⟨packet', hsend', hleg⟩ := hcarries.sendRTpacket ht hlt
    obtain rfl : packet = packet' := Option.some.inj (hsend.symm.trans hsend')
    exact ⟨hsame, packet, hforwarded, hleg⟩

/-- Where its predecessor has a place a node can receive the packet of a leg. -/
theorem exists_visit (ht : ValidTour tour) (hi : i + 1 < tour.length) (hcarries : Carries tour (i + 1) payload)
    (hplace : 0 ≤ vm tour i ∧ vm tour i < pingSize) (node : Node) :
    ∃ visit, node.onRtPacket payload = some visit := by
  obtain ⟨q, hq, hvm⟩ := hcarries.previous ht hi
  obtain ⟨j, hj, -⟩ := index?_isSome hplace
  simp only [Node.onRtPacket, hq, hvm, hj, Option.bind_some]
  split
  · exact ⟨_, rfl⟩
  next hne =>
    have hlt : i + 1 + 1 < tour.length := by
      have hnot := mt (hcarries.isLast_iff ht).mpr hne
      omega
    obtain ⟨packet, hsend, -⟩ := hcarries.sendRTpacket ht hlt
    exact ⟨_, by rw [hsend, Option.map_some]⟩

end

/-! ## What an event does -/

def Notice.ends : Notice → Bool
  | .tourHasEnded _ => true
  | .member _ => false

/-- The announcements that the tour has ended. -/
def Network.announcements (s : Network m) : List Multicast := s.multicasts.filter (·.notice.ends)

theorem Network.announcements_notify (s : Network m) (v : Int) (notice : Notice) :
    (s.notify v notice).announcements = s.announcements ++
      if notice.ends then [{ sender := v, group := (s.nodes v).group, notice }] else [] := by
  cases notice <;> simp [Network.announcements, Network.notify, Notice.ends]

/-- Nothing was sent to the group, and every node runs and has no alarm. -/
structure Network.Calm (s : Network m) : Prop where
  multicasts : s.multicasts = []
  running : ∀ v, (s.nodes v).alarm = false ∧ (s.nodes v).exited = false

/-- An event that is neither the arrival of a packet nor the announcement. -/
structure Network.Quiet (s s' : Network m) : Prop where
  sent : s'.sent = s.sent
  received : s'.received = s.received
  ifPing : ∀ v, (s'.nodes v).ifPing = (s.nodes v).ifPing
  ifLastNode : ∀ v, (s'.nodes v).ifLastNode = (s.nodes v).ifLastNode
  pingSwitch : ∀ v, (s'.nodes v).pingSwitch = 1 → (s.nodes v).pingSwitch = 1
  announcements : s'.announcements = s.announcements
  calm : s.Calm → s'.Calm

def TourEvent.isPacket : TourEvent m → Bool
  | .packet .. => true
  | .icmp .. | .timeout _ | .multicast .. | .alarm _ => false

inductive Network.Effect (s : Network m) : TourEvent m → Network m → Prop
  | visits {k : Nat} {passage : Passage m} {packet : RtPacket m} {payload : PayLoad m} {visit : Visit m}
      {j : Fin pingSize} (hk : s.sent[k]? = some packet) (hrunning : (s.nodes packet.dst).exited = false)
      (htransmit : passage.transmit packet.payload = some payload)
      (hvisits : Visits (s.nodes packet.dst) payload visit j) :
      Effect s (.packet k passage) (s.visit k packet.dst payload visit)
  | ends {v : Int} (hswitch : (s.nodes v).pingSwitch = 1) (hcounter : (s.nodes v).CounterReady)
      (hlast : (s.nodes v).ifLastNode = 1) :
      Effect s (.timeout v) ((s.put v { s.nodes v with pingSwitch := -1 }).notify v (.tourHasEnded v))
  | other {e : TourEvent m} {s' : Network m} (he : e.isPacket = false) (h : s.Quiet s') : Effect s e s'

theorem Network.visit_nodes (s : Network m) (k : Nat) (v : Int) (payload : PayLoad m) (visit : Visit m) (w : Int) :
    (s.visit k v payload visit).nodes w = if w = v then visit.node else s.nodes w :=
  Function.update_apply ..

theorem Network.put_nodes (s : Network m) (v w : Int) (node : Node) :
    (s.put v node).nodes w = if w = v then node else s.nodes w := Function.update_apply ..

/-- A node changes neither its pings nor whether it is the last, and does not turn its switch on. -/
theorem Network.Quiet.put {s : Network m} {v : Int} {node : Node} (hping : node.ifPing = (s.nodes v).ifPing)
    (hlast : node.ifLastNode = (s.nodes v).ifLastNode)
    (hswitch : node.pingSwitch = 1 → (s.nodes v).pingSwitch = 1)
    (hcalm : s.Calm → node.alarm = false ∧ node.exited = false) : s.Quiet (s.put v node) := by
  have hnodes {P : Int → Node → Prop} (hv : P v node) (hother : ∀ w, P w (s.nodes w)) :
      ∀ w, P w ((s.put v node).nodes w) := by
    intro w
    rw [Network.put_nodes]
    split
    next he => exact he ▸ hv
    next => exact hother w
  exact {
    sent := rfl
    received := rfl
    ifPing := hnodes (P := fun w node => node.ifPing = (s.nodes w).ifPing) hping fun _ => rfl
    ifLastNode := hnodes (P := fun w node => node.ifLastNode = (s.nodes w).ifLastNode) hlast fun _ => rfl
    pingSwitch := hnodes (P := fun w node => node.pingSwitch = 1 → (s.nodes w).pingSwitch = 1) hswitch
      fun _ h => h
    announcements := rfl
    calm := fun h => ⟨h.multicasts,
      hnodes (P := fun _ node => node.alarm = false ∧ node.exited = false) (hcalm h) h.running⟩ }

theorem Network.Quiet.notify_member {s s' : Network m} (h : s.Quiet s') (hnot : ¬ s.Calm) (v host : Int) :
    s.Quiet (s'.notify v (.member host)) where
  sent := h.sent
  received := h.received
  ifPing := h.ifPing
  ifLastNode := h.ifLastNode
  pingSwitch := h.pingSwitch
  announcements := by
    rw [Network.announcements_notify, h.announcements, Notice.ends, if_neg Bool.false_ne_true, List.append_nil]
  calm := fun hcalm => absurd hcalm hnot

theorem Network.step_effect {s s' : Network m} {e : TourEvent m} (h : s.step e = some s') : s.Effect e s' := by
  cases e with
  | packet k passage =>
    simp only [Network.step, Option.bind_eq_some_iff] at h
    obtain ⟨packet, hk, h⟩ := h
    split at h
    · cases h
    next hrunning =>
      obtain ⟨payload, htransmit, h⟩ := Option.bind_eq_some_iff.mp h
      obtain ⟨visit, hvisit, rfl⟩ := Option.map_eq_some_iff.mp h
      obtain ⟨j, hvisits⟩ := Node.onRtPacket_visits hvisit
      exact .visits hk (Bool.eq_false_iff.mpr hrunning) htransmit hvisits
  | icmp v packet =>
    simp only [Network.step] at h
    split at h
    · cases h
    next hrunning =>
      obtain ⟨node, hnode, rfl⟩ := Option.map_eq_some_iff.mp h
      obtain ⟨hping, hlast, hswitch, halarm, hexited⟩ := Node.procV4_frame hnode
      exact .other rfl (.put hping hlast (fun hon => hswitch ▸ hon) fun hcalm => by
        rw [halarm, hexited]
        exact hcalm.running v)
  | timeout v =>
    simp only [Network.step] at h
    split at h
    · cases h
    next hrunning =>
      obtain ⟨⟨node, timeout⟩, hnode, rfl⟩ := Option.map_eq_some_iff.mp h
      rcases Node.onTimeout_cases hnode with ⟨hswitch, hcounter, hlast, rfl, rfl⟩ | ⟨rfl, requests, rfl⟩
      · exact .ends hswitch hcounter hlast
      · exact .other rfl (.put rfl rfl id fun hcalm => hcalm.running v)
  | multicast v k =>
    simp only [Network.step, Option.bind_eq_some_iff] at h
    obtain ⟨multicast, hk, h⟩ := h
    split at h
    · cases h
    next hjoined =>
      have hsome : ¬ s.Calm := by
        intro hcalm
        rw [hcalm.multicasts] at hk
        cases hk
      obtain ⟨hping, hlast, hswitch, hnotice⟩ := Node.onMulticast_frame (s.nodes v) v multicast.notice.text
      split at h
      next node notice heq =>
        rw [heq] at hping hlast hswitch hnotice
        cases h
        obtain rfl := hnotice notice rfl
        refine .other rfl (Network.Quiet.notify_member (.put hping hlast ?_ ?_) hsome v v)
        · intro hon
          rw [hswitch] at hon
          cases hon
        · exact fun hcalm => absurd hcalm hsome
      next node heq =>
        rw [heq] at hping hlast hswitch
        cases h
        refine .other rfl (.put hping hlast ?_ ?_)
        · intro hon
          rw [hswitch] at hon
          cases hon
        · exact fun hcalm => absurd hcalm hsome
  | alarm v =>
    simp only [Network.step, Option.ite_none_right_eq_some, Option.some.injEq] at h
    obtain ⟨⟨halarm, -⟩, rfl⟩ := h
    refine .other rfl (.put rfl rfl id ?_)
    intro hcalm
    rw [(hcalm.running v).1] at halarm
    cases halarm

end Sockets.Tour
