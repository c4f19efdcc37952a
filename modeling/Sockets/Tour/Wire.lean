/-
The bytes of a source-routed packet. `sendRTpacket` puts 20 bytes of a header
in front of the `PayLoad`, but hands only as many bytes to `sendto` as the
`PayLoad` has: its last 20 bytes, the end of `hostArray`, stay behind, and the
receiver reads what its own buffer had in their place (`survives_iff`).
What is in front of them arrives (`transmit_eq`).

The nodes of a tour read the numbers of the hosts in the slots of `hostArray`,
which have the size of a pointer: an `int` put in one is read back, and is 0
exactly if the pointer is null.
-/
import Sockets.Lib.Cells
import Sockets.Lib.Codec
import Sockets.Lib.CString

namespace Sockets.Tour

abbrev totalVmSize : Nat := 70

/-- A place in an array of this size. -/
def index? (size : Nat) (n : Int) : Option (Fin size) :=
  if h : 0 ≤ n ∧ n < size then some ⟨n.toNat, by omega⟩ else none

theorem index?_isSome {size : Nat} {n : Int} (h : 0 ≤ n ∧ n < size) :
    ∃ i : Fin size, index? size n = some i ∧ (i.val : Int) = n :=
  ⟨⟨n.toNat, by omega⟩, dif_pos h, Int.toNat_of_nonneg h.1⟩

theorem index?_eq_some {size : Nat} {n : Int} {i : Fin size} (h : index? size n = some i) :
    (i.val : Int) = n := by
  simp only [index?, Option.dite_none_right_eq_some, Option.some.injEq] at h
  obtain ⟨hn, rfl⟩ := h
  exact Int.toNat_of_nonneg hn.1

theorem index?_natCast {size i : Nat} (h : i < size) : index? size (i : Int) = some ⟨i, h⟩ :=
  dif_pos ⟨Int.natCast_nonneg i, Int.ofNat_lt.mpr h⟩

namespace Wire

/-- What the size of a pointer may be. -/
inductive DataModel
  | ilp32
  | lp64
deriving DecidableEq

def DataModel.pointerSize : DataModel → Nat
  | .ilp32 => 4
  | .lp64 => 8

variable {m : DataModel}

/-- A `PayLoad` in memory; a slot of `hostArray` is the bytes of a pointer. -/
structure PayLoad (m : DataModel) where
  nextIpIdx : Int
  multiPort : List.Vector UInt8 10
  multiIp : List.Vector UInt8 16
  padding : List.Vector UInt8 2
  hostArray : List.Vector (List.Vector UInt8 m.pointerSize) totalVmSize

def sizeofPayLoad (m : DataModel) : Nat := 32 + totalVmSize * m.pointerSize

/-- What is in front of `hostArray`; an integer has its lowest byte first. -/
def PayLoad.front (payload : PayLoad m) : List UInt8 :=
  (int32Bytes payload.nextIpIdx).reverse ++ payload.multiPort.toList ++ payload.multiIp.toList ++
    payload.padding.toList

def PayLoad.memory (payload : PayLoad m) : List UInt8 := payload.front ++ cellBytes payload.hostArray

/-- The index has a next one, and both strings end inside their arrays. -/
structure PayLoad.WellFormed (payload : PayLoad m) : Prop where
  nonneg : 0 ≤ payload.nextIpIdx
  next : payload.nextIpIdx + 1 < totalVmSize
  port : 0 ∈ payload.multiPort.toList
  ip : 0 ∈ payload.multiIp.toList

abbrev ipWholePackSize : Nat := 2000

abbrev sizeofIp : Nat := 20

/-- The bytes that are handed to `sendto`; `rest` is what `buf` has behind what is written. -/
def sendRTpacket (header : List.Vector UInt8 sizeofIp) (rest : List UInt8) (packet : PayLoad m) :
    Option (List UInt8) :=
  let index := packet.nextIpIdx
  (index? totalVmSize index).bind fun _ =>
    (index? totalVmSize (index + 1)).map fun _ =>
      let packet := { packet with nextIpIdx := index + 1 }
      let buf := header.toList ++ packet.memory ++ rest
      buf.take (sizeofPayLoad m)

/-- What is behind the header arrives as it was sent. -/
def deliver (header : List.Vector UInt8 sizeofIp) (sent : List UInt8) : List UInt8 :=
  header.toList ++ sent.drop sizeofIp

theorem length_slotAt (m : DataModel) (buff : List.Vector UInt8 ipWholePackSize) (q : Fin totalVmSize) :
    ((buff.toList.drop (sizeofIp + 32 + q * m.pointerSize)).take m.pointerSize).length = m.pointerSize := by
  have hq : (q : Nat) < 70 := q.isLt
  rw [List.length_take, List.length_drop, buff.toList_length]
  cases m <;> simp only [DataModel.pointerSize, ipWholePackSize, sizeofIp] <;> omega

/-- `payload->hostArray[q]`. -/
def slotAt (m : DataModel) (buff : List.Vector UInt8 ipWholePackSize) (q : Fin totalVmSize) :
    List.Vector UInt8 m.pointerSize :=
  ⟨(buff.toList.drop (sizeofIp + 32 + q * m.pointerSize)).take m.pointerSize, length_slotAt m buff q⟩

/-- What `receiveRTpacket` makes of its buffer; `payloadCopy` is what its result had before. -/
def receiveRTpacket (payloadCopy : PayLoad m) (buff : List.Vector UInt8 ipWholePackSize) :
    Option (PayLoad m) := do
  let hostArray := List.Vector.ofFn fun q => slotAt m buff q
  let nextIpIdx := int32OfBytes ((buff.toList.drop sizeofIp).take 4).reverse
  let multiPort ← strcpy 0 payloadCopy.multiPort (buff.drop (sizeofIp + 4))
  let multiIp ← strcpy 0 payloadCopy.multiIp (buff.drop (sizeofIp + 14))
  some { nextIpIdx, multiPort, multiIp, padding := payloadCopy.padding, hostArray }

/-- What a packet meets on its way: the header it is sent with and the one it arrives with, and the memory
of the sender and of the receiver. -/
structure Passage (m : DataModel) where
  header : List.Vector UInt8 sizeofIp
  rest : List UInt8
  arrived : List.Vector UInt8 sizeofIp
  buff : List.Vector UInt8 ipWholePackSize
  payloadCopy : PayLoad m

def Passage.transmit (passage : Passage m) (packet : PayLoad m) : Option (PayLoad m) := do
  let sent ← sendRTpacket passage.header passage.rest packet
  receiveRTpacket passage.payloadCopy (received passage.buff (deliver passage.arrived sent))

/-- What arrives is what was sent, with the index raised. -/
structure Survives (packet received : PayLoad m) : Prop where
  hostArray : received.hostArray = packet.hostArray
  multiIp : stringOf 0 received.multiIp.toList = stringOf 0 packet.multiIp.toList
  multiPort : stringOf 0 received.multiPort.toList = stringOf 0 packet.multiPort.toList
  nextIpIdx : received.nextIpIdx = packet.nextIpIdx + 1

/-! ## Numbers in slots -/

abbrev Slot (m : DataModel) : Type := List.Vector UInt8 m.pointerSize

abbrev HostSlots (m : DataModel) : Type := List.Vector (Slot m) totalVmSize

/-- An `int` that is put in a slot, as a pointer. -/
def slotOf (m : DataModel) (n : Int) : Slot m :=
  ⟨(int32Bytes n).reverse ++ List.replicate (m.pointerSize - 4) (if n < 0 then 255 else 0), by cases m <;> rfl⟩

/-- The low bytes of a slot, as an `int`. -/
def slotInt (slot : Slot m) : Int := int32OfBytes (slot.toList.take 4).reverse

def isNull (slot : Slot m) : Bool := slot.toList.all (· == 0)

theorem slotInt_slotOf {n : Int} (h : IsInt32 n) : slotInt (slotOf m n) = n := by
  have hlow : ((slotOf m n).toList.take 4).reverse = int32Bytes n := rfl
  rw [slotInt, hlow, int32OfBytes_bytes h]

theorem isNull_slotOf_iff {n : Int} (h : IsInt32 n) : isNull (slotOf m n) = true ↔ n = 0 := by
  constructor
  · intro hnull
    have hzero : (slotOf m n).toList.take 4 = List.replicate 4 0 := by
      rw [List.eq_replicate_iff]
      refine ⟨rfl, fun b hb => ?_⟩
      exact beq_iff_eq.mp (List.all_eq_true.mp hnull b (List.mem_of_mem_take hb))
    rw [← slotInt_slotOf (m := m) h, slotInt, hzero]
    decide
  · rintro rfl
    cases m <;> decide

/-- The characters of a string in an array. -/
def textOf (bytes : List UInt8) : List Char := (stringOf 0 bytes).map byteChar

/-- These bytes, with zeroes behind them. -/
def zeroFilled (n : Nat) (l : List UInt8) : List.Vector UInt8 n := ⟨(l ++ List.replicate n 0).take n, by simp⟩

/-! ## What arrives -/

/-- The end of `hostArray`, and what the receiver has in its place. -/
def PayLoad.tail (packet : PayLoad m) : List UInt8 :=
  (cellBytes packet.hostArray).drop (totalVmSize * m.pointerSize - sizeofIp)

def Passage.stale (passage : Passage m) : List UInt8 :=
  (passage.buff.toList.drop (sizeofPayLoad m)).take sizeofIp

section

variable {packet : PayLoad m} {passage : Passage m}

theorem length_front (payload : PayLoad m) : payload.front.length = 32 := by
  simp [PayLoad.front, int32Bytes]

theorem sizeofIp_le (m : DataModel) : sizeofIp ≤ totalVmSize * m.pointerSize := by
  cases m <;> decide

/-- The bytes of a packet but its last 20 are sent. -/
theorem sendRTpacket_eq (header : List.Vector UInt8 sizeofIp) (rest : List UInt8) (hp : packet.WellFormed) :
    ∃ sent, sendRTpacket header rest packet = some sent ∧ sent.length = sizeofPayLoad m ∧ sent.drop sizeofIp =
      PayLoad.front { packet with nextIpIdx := packet.nextIpIdx + 1 } ++
        (cellBytes packet.hostArray).take (totalVmSize * m.pointerSize - sizeofIp) := by
  have hnonneg := hp.nonneg
  have hnext := hp.next
  have hindex : 0 ≤ packet.nextIpIdx ∧ packet.nextIpIdx < totalVmSize := by omega
  have hindexNext : 0 ≤ packet.nextIpIdx + 1 ∧ packet.nextIpIdx + 1 < totalVmSize := by omega
  obtain ⟨i, hi, -⟩ := index?_isSome hindex
  obtain ⟨j, hj, -⟩ := index?_isSome hindexNext
  have hroom := sizeofIp_le m
  have hcells := length_cellBytes packet.hostArray
  generalize hraised : ({ packet with nextIpIdx := packet.nextIpIdx + 1 } : PayLoad m) = raised
  have hmemory : raised.memory = raised.front ++ cellBytes packet.hostArray := by rw [← hraised, PayLoad.memory]
  have hfront := length_front raised
  refine ⟨(header.toList ++ raised.memory ++ rest).take (sizeofPayLoad m), ?_, ?_, ?_⟩
  · simp only [sendRTpacket, hi, hj, Option.bind_some, Option.map_some, hraised]
  · rw [List.length_take, hmemory]
    simp only [List.length_append, header.toList_length, hfront, hcells, sizeofPayLoad]
    omega
  · have hskip : sizeofPayLoad m - sizeofIp =
        raised.front.length + (totalVmSize * m.pointerSize - sizeofIp) := by
      rw [hfront, sizeofPayLoad]
      omega
    rw [List.drop_take, List.append_assoc, List.drop_left' header.toList_length, hskip, hmemory,
      List.append_assoc, List.take_length_add_append, List.take_append_of_le_length (by omega)]

/-- The receiver's buffer behind the header. -/
theorem received_drop (buff : List.Vector UInt8 ipWholePackSize) (arrived : List.Vector UInt8 sizeofIp)
    {sent : List UInt8} (hsent : sent.length = sizeofPayLoad m) :
    (received buff (deliver arrived sent)).toList.drop sizeofIp =
      sent.drop sizeofIp ++ buff.toList.drop (sizeofPayLoad m) := by
  have hsize : sizeofIp ≤ sizeofPayLoad m ∧ sizeofPayLoad m ≤ ipWholePackSize := by
    cases m <;> decide
  have hlen : (deliver arrived sent).length = sizeofPayLoad m := by
    rw [deliver, List.length_append, arrived.toList_length, List.length_drop, hsent]
    omega
  rw [received, List.Vector.toList_mk, List.take_of_length_le (by omega), hlen, deliver, List.append_assoc,
    List.drop_left' arrived.toList_length]

/-- A string that is sent whole is received, in an array of the same size. -/
theorem strcpy_received {k n : Nat} (dst a : List.Vector UInt8 k) {src : List.Vector UInt8 n}
    {more : List UInt8} (ha : 0 ∈ a.toList) (hsrc : src.toList = a.toList ++ more) :
    ∃ copied, strcpy 0 dst src = some copied ∧ stringOf 0 copied.toList = stringOf 0 a.toList := by
  have hheld : Holds 0 a (stringOf 0 a.toList) := holds_of_front ha (List.append_nil _).symm
  obtain ⟨copied, hcopy, hcopied⟩ := (holds_of_front ha hsrc).strcpy dst hheld.length_lt
  exact ⟨copied, hcopy, hcopied.stringOf⟩

/-- Where the fields stand in a buffer that has the front of a packet behind the header. -/
structure FieldsAt (payload : PayLoad m) (buff : List.Vector UInt8 ipWholePackSize) (more : List UInt8) :
    Prop where
  nextIpIdx : (buff.toList.drop sizeofIp).take 4 = (int32Bytes payload.nextIpIdx).reverse
  multiPort : (buff.drop (sizeofIp + 4)).toList =
    payload.multiPort.toList ++ (payload.multiIp.toList ++ (payload.padding.toList ++ more))
  multiIp : (buff.drop (sizeofIp + 14)).toList = payload.multiIp.toList ++ (payload.padding.toList ++ more)
  hostArray : buff.toList.drop (sizeofIp + 32) = more

theorem fieldsAt {payload : PayLoad m} {buff : List.Vector UInt8 ipWholePackSize} {more : List UInt8}
    (hfront : buff.toList.drop sizeofIp = payload.front ++ more) : FieldsAt payload buff more := by
  have hint : (int32Bytes payload.nextIpIdx).reverse.length = 4 := rfl
  rw [PayLoad.front] at hfront
  simp only [List.append_assoc] at hfront
  have hport : (buff.drop (sizeofIp + 4)).toList =
      payload.multiPort.toList ++ (payload.multiIp.toList ++ (payload.padding.toList ++ more)) := by
    rw [List.Vector.toList_drop, ← List.drop_drop, hfront, List.drop_left' hint]
  have hip : (buff.drop (sizeofIp + 14)).toList =
      payload.multiIp.toList ++ (payload.padding.toList ++ more) := by
    have hsplit : sizeofIp + 14 = sizeofIp + 4 + 10 := rfl
    rw [List.Vector.toList_drop, hsplit, ← List.drop_drop, ← List.Vector.toList_drop, hport,
      List.drop_left' payload.multiPort.toList_length]
  refine ⟨by rw [hfront, List.take_left' hint], hport, hip, ?_⟩
  have hsplit : sizeofIp + 32 = sizeofIp + 14 + 16 + 2 := rfl
  rw [hsplit, ← List.drop_drop, ← List.drop_drop, ← List.Vector.toList_drop, hip,
    List.drop_left' payload.multiIp.toList_length, List.drop_left' payload.padding.toList_length]

/-- What is read of the buffer: the fields of the packet, and the slots from what is behind them. -/
theorem receiveRTpacket_eq (payloadCopy : PayLoad m) {payload : PayLoad m}
    {buff : List.Vector UInt8 ipWholePackSize} {more : List UInt8} (hfields : FieldsAt payload buff more)
    (hidx : IsInt32 payload.nextIpIdx) (hport : 0 ∈ payload.multiPort.toList)
    (hip : 0 ∈ payload.multiIp.toList) : ∃ received, receiveRTpacket payloadCopy buff = some received ∧
      cellBytes received.hostArray = more.take (totalVmSize * m.pointerSize) ∧
      stringOf 0 received.multiIp.toList = stringOf 0 payload.multiIp.toList ∧
      stringOf 0 received.multiPort.toList = stringOf 0 payload.multiPort.toList ∧
      received.nextIpIdx = payload.nextIpIdx := by
  obtain ⟨multiPort, hportCopy, hportSame⟩ :=
    strcpy_received payloadCopy.multiPort payload.multiPort hport hfields.multiPort
  obtain ⟨multiIp, hipCopy, hipSame⟩ :=
    strcpy_received payloadCopy.multiIp payload.multiIp hip hfields.multiIp
  have hcell : ∀ q : Fin totalVmSize,
      (slotAt m buff q).toList = (more.drop (q * m.pointerSize)).take m.pointerSize := by
    intro q
    rw [slotAt, List.Vector.toList_mk, ← List.drop_drop, hfields.hostArray]
  refine ⟨{
    nextIpIdx := int32OfBytes ((buff.toList.drop sizeofIp).take 4).reverse
    multiPort, multiIp
    padding := payloadCopy.padding
    hostArray := List.Vector.ofFn fun q => slotAt m buff q }, ?_, cellBytes_ofFn hcell, hipSame, hportSame, ?_⟩
  · simp only [receiveRTpacket, hportCopy, hipCopy, Option.bind_eq_bind, Option.bind_some]
  · rw [hfields.nextIpIdx, List.reverse_reverse, int32OfBytes_bytes hidx]

/-- What is received of a packet: all but the end of `hostArray`. -/
theorem transmit_eq (hp : packet.WellFormed) (passage : Passage m) : ∃ received,
    passage.transmit packet = some received ∧
      cellBytes received.hostArray =
        (cellBytes packet.hostArray).take (totalVmSize * m.pointerSize - sizeofIp) ++ passage.stale ∧
      stringOf 0 received.multiIp.toList = stringOf 0 packet.multiIp.toList ∧
      stringOf 0 received.multiPort.toList = stringOf 0 packet.multiPort.toList ∧
      received.nextIpIdx = packet.nextIpIdx + 1 := by
  obtain ⟨sent, hsend, hlen, hsent⟩ := sendRTpacket_eq passage.header passage.rest hp
  have hdrop := received_drop passage.buff passage.arrived hlen
  rw [hsent, List.append_assoc] at hdrop
  have hidx : IsInt32 (packet.nextIpIdx + 1) := by
    have hnonneg := hp.nonneg
    have hnext : packet.nextIpIdx + 1 < 70 := hp.next
    constructor <;> omega
  obtain ⟨received, hreceive, hcells, hfields⟩ :=
    receiveRTpacket_eq passage.payloadCopy (fieldsAt hdrop) hidx hp.port hp.ip
  refine ⟨received, ?_, ?_, hfields⟩
  · simp only [Passage.transmit, hsend, hreceive, Option.bind_eq_bind, Option.bind_some]
  · generalize hsentCells : (cellBytes packet.hostArray).take (totalVmSize * m.pointerSize - sizeofIp) = cells
      at hcells ⊢
    have hend : totalVmSize * m.pointerSize = cells.length + sizeofIp := by
      have hroom := sizeofIp_le m
      rw [← hsentCells, List.length_take, length_cellBytes]
      omega
    rw [hcells, hend, List.take_length_add_append, Passage.stale]

/-- How many bytes of the first `k` slots are not sent. -/
def cutOff (m : DataModel) (k : Nat) : Nat := k * m.pointerSize - (totalVmSize * m.pointerSize - sizeofIp)

/-- The first `k` slots arrive if what is cut off of them is in the receiver's buffer. -/
theorem transmit_slots (hp : packet.WellFormed) (passage : Passage m) {slots : HostSlots m} {k : Nat}
    (hslots : ∀ q : Fin totalVmSize, (q : Nat) < k → packet.hostArray.get q = slots.get q)
    (hstale : passage.stale.take (cutOff m k) =
      ((cellBytes slots).drop (totalVmSize * m.pointerSize - sizeofIp)).take (cutOff m k)) :
    ∃ received, passage.transmit packet = some received ∧
      (∀ q : Fin totalVmSize, (q : Nat) < k → received.hostArray.get q = slots.get q) ∧
      stringOf 0 received.multiIp.toList = stringOf 0 packet.multiIp.toList ∧
      stringOf 0 received.multiPort.toList = stringOf 0 packet.multiPort.toList ∧
      received.nextIpIdx = packet.nextIpIdx + 1 := by
  obtain ⟨received, htransmit, hcells, hfields⟩ := transmit_eq hp passage
  have hsent : (cellBytes packet.hostArray).take (k * m.pointerSize) =
      (cellBytes slots).take (k * m.pointerSize) := take_cellBytes_eq_iff.mpr hslots
  refine ⟨received, htransmit, take_cellBytes_eq_iff.mp ?_, hfields⟩
  generalize hN : totalVmSize * m.pointerSize - sizeofIp = N at hcells hstale
  have hlen : ((cellBytes packet.hostArray).take N).length = N := by
    rw [List.length_take, length_cellBytes]
    omega
  have hcut : cutOff m k = k * m.pointerSize - N := by rw [cutOff, hN]
  -- what is in front of the cut was sent, and what is behind it was there
  calc (cellBytes received.hostArray).take (k * m.pointerSize)
      = ((cellBytes packet.hostArray).take N).take (k * m.pointerSize) ++ passage.stale.take (cutOff m k) := by
        rw [hcells, List.take_append, hlen, hcut]
    _ = ((cellBytes slots).take N).take (k * m.pointerSize) ++ ((cellBytes slots).drop N).take (cutOff m k) := by
        rw [hstale, List.take_take, List.take_take, Nat.min_comm, ← List.take_take, ← List.take_take, hsent]
    _ = (cellBytes slots).take (k * m.pointerSize) := by
        have hslotsLen : ((cellBytes slots).take N).length = N := by
          rw [List.length_take, length_cellBytes]
          omega
        conv_rhs => rw [← List.take_append_drop N (cellBytes slots), List.take_append, hslotsLen]
        rw [hcut]

theorem survives_received (hp : packet.WellFormed) (passage : Passage m) : ∃ received,
    passage.transmit packet = some received ∧ (Survives packet received ↔ passage.stale = packet.tail) := by
  obtain ⟨received, htransmit, hcells, hip, hport, hidx⟩ := transmit_eq hp passage
  have hwhole : (cellBytes packet.hostArray).take (totalVmSize * m.pointerSize - sizeofIp) ++ packet.tail =
      cellBytes packet.hostArray := List.take_append_drop _ _
  refine ⟨received, htransmit, ?_⟩
  constructor
  · intro hsurvives
    exact List.append_cancel_left
      (hcells.symm.trans ((congrArg cellBytes hsurvives.hostArray).trans hwhole.symm))
  · intro hstale
    rw [hstale, hwhole] at hcells
    exact ⟨cellBytes_injective hcells, hip, hport, hidx⟩

/-- **Source routing on the wire.** A packet survives if and only if the receiver's buffer has the end
of its `hostArray` already. -/
theorem survives_iff (hp : packet.WellFormed) (passage : Passage m) :
    (∃ received, passage.transmit packet = some received ∧ Survives packet received) ↔
      passage.stale = packet.tail := by
  obtain ⟨received, htransmit, hsurvives⟩ := survives_received hp passage
  rw [htransmit, ← hsurvives]
  constructor
  · intro harrives
    obtain ⟨copy, hcopy, h⟩ := harrives
    obtain rfl := Option.some.inj hcopy
    exact h
  · intro h
    exact ⟨received, rfl, h⟩

/-- A packet can survive: there is memory of the receiver for which it does. -/
theorem exists_survives (hp : packet.WellFormed) : ∃ (passage : Passage m) (received : PayLoad m),
    passage.transmit packet = some received ∧ Survives packet received := by
  have hsize : sizeofPayLoad m + sizeofIp ≤ ipWholePackSize := by
    cases m <;> decide
  have htail : packet.tail.length = sizeofIp := by
    have hroom := sizeofIp_le m
    rw [PayLoad.tail, List.length_drop, length_cellBytes]
    omega
  let buff := zeroFilled ipWholePackSize (List.replicate (sizeofPayLoad m) 0 ++ packet.tail)
  let passage : Passage m := {
    header := zeroFilled sizeofIp [], rest := [], arrived := zeroFilled sizeofIp [], buff, payloadCopy := packet }
  refine ⟨passage, (survives_iff hp passage).mpr ?_⟩
  have hfront : (List.replicate (sizeofPayLoad m) (0 : UInt8)).length = sizeofPayLoad m := List.length_replicate
  show ((((List.replicate (sizeofPayLoad m) 0 ++ packet.tail) ++ List.replicate ipWholePackSize 0).take
    ipWholePackSize).drop (sizeofPayLoad m)).take sizeofIp = packet.tail
  rw [List.drop_take, List.append_assoc, List.drop_left' hfront, List.take_take,
    Nat.min_eq_left (by omega), List.take_left' htail]

end

/-! ## Tours -/

def bytesOf (n : Nat) (text : List Char) : List.Vector UInt8 n :=
  zeroFilled n (text.map fun c => UInt8.ofNat c.toNat)

/-- The packet of a tour that goes to and fro between vm1 and vm2 and visits so many nodes. -/
def toAndFro (n : Nat) : PayLoad .lp64 where
  nextIpIdx := 0
  multiPort := bytesOf 10 "9821".toList
  multiIp := bytesOf 16 "234.245.209.121".toList
  padding := zeroFilled 2 []
  hostArray := List.Vector.ofFn fun q => zeroFilled 8 [if (q : Nat) < n then UInt8.ofNat (q % 2 + 1) else 0]

/-- All the memory that is not written is zero. -/
def zeroPassage : Passage .lp64 where
  header := zeroFilled 20 []
  rest := []
  arrived := zeroFilled 20 []
  buff := zeroFilled 2000 []
  payloadCopy := toAndFro 0

theorem toAndFro_wellFormed (n : Nat) : (toAndFro n).WellFormed where
  nonneg := le_rfl
  next := (by decide : (0 : Int) + 1 < totalVmSize)
  port := (by decide : 0 ∈ (bytesOf 10 "9821".toList).toList)
  ip := (by decide : 0 ∈ (bytesOf 16 "234.245.209.121".toList).toList)

theorem survives_iff_short : ∃ received,
    zeroPassage.transmit (toAndFro 10) = some received ∧ Survives (toAndFro 10) received :=
  (survives_iff (toAndFro_wellFormed 10) zeroPassage).mpr (by decide +kernel)

/-- The last numbers of a tour of 70 nodes do not arrive. -/
theorem not_survives : ¬ ∃ received,
    zeroPassage.transmit (toAndFro 70) = some received ∧ Survives (toAndFro 70) received := by
  intro harrives
  obtain ⟨received, htransmit, hsurvives⟩ := harrives
  obtain ⟨copy, hcopy, hiff⟩ := survives_received (toAndFro_wellFormed 70) zeroPassage
  obtain rfl := Option.some.inj (htransmit.symm.trans hcopy)
  exact absurd (hiff.mp hsurvives) (by decide +kernel)

end Wire

end Sockets.Tour
