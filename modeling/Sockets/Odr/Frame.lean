/-
A packet on the wire. In memory it is a `SELF_DEFINED_PF_Packet`, whose three
arrays of characters were filled by `strcpy`, so that what is behind their
texts is whatever was there. `sendMessage` puts it behind an Ethernet header,
with its four integers in network order, in a buffer that it fills; but it
sends the 1514 bytes of a full frame, of which the last 144 are not of the
buffer. The receiver reads 1370 bytes.

What is read is the packet that was sent, and the address of the interface
it was sent from (`readFrame_sendMessage`): so a network that carries bytes
does what one does that carries packets (`wireExec_eq`).
-/
import Sockets.Lib.Codec
import Sockets.Odr.Network
import Sockets.Odr.RreqText

namespace Sockets.Odr

abbrev ipAddrSize : Nat := 20

/-- The length of the buffers. -/
def ethFrameLen1 : Nat := 1370

/-- The length of what is sent. -/
def ethFrameLen : Nat := 1514

/-- `SELF_PROTOCOL`, in network order. -/
def selfProtocol : List UInt8 := [0x54, 0x03]

/-- `SELF_DEFINED_PF_Packet`. -/
structure PfPacket where
  type : Int
  sourceIpAddr : List.Vector UInt8 ipAddrSize
  sourcePort : Int
  destinationIpAddr : List.Vector UInt8 ipAddrSize
  destinationPort : Int
  hopCount : Int
  applicationMsg : List.Vector UInt8 dataSize

/-- Memory that nothing was written to. -/
structure Uninit where
  ipAddr : List.Vector UInt8 ipAddrSize
  ipAddr' : List.Vector UInt8 ipAddrSize
  msg : List.Vector UInt8 dataSize

/-- `createPF_Packet`, in this memory. -/
def createPfPacketIn (uninit : Uninit) (packet : Packet) : Option PfPacket := do
  let sourceIpAddr ← putString 0 uninit.ipAddr (packet.sourceIpAddr.toList.map charByte)
  let destinationIpAddr ← putString 0 uninit.ipAddr' (packet.destinationIpAddr.toList.map charByte)
  let applicationMsg ← putString 0 uninit.msg (packet.applicationMsg.map charByte)
  some { type := packet.type, sourceIpAddr, sourcePort := packet.sourcePort, destinationIpAddr,
         destinationPort := packet.destinationPort, hopCount := packet.hopCount, applicationMsg }

/-- The string in an array of bytes, if it has an end. -/
def arrayText {n : Nat} (a : List.Vector UInt8 n) : Option (List Char) :=
  if 0 ∈ a.toList then some ((stringOf 0 a.toList).map byteChar) else none

/-- The packet in memory, with its texts as strings. -/
def PfPacket.packet? (p : PfPacket) : Option Packet := do
  let sourceIpAddr ← arrayText p.sourceIpAddr
  let destinationIpAddr ← arrayText p.destinationIpAddr
  let applicationMsg ← arrayText p.applicationMsg
  some { type := p.type, sourceIpAddr := String.ofList sourceIpAddr, sourcePort := p.sourcePort,
         destinationIpAddr := String.ofList destinationIpAddr, destinationPort := p.destinationPort,
         hopCount := p.hopCount, applicationMsg }

/-- The members one behind the other, without a gap; the integers have been through `htonl`. -/
def pfLayout : Codec (Int × List.Vector UInt8 ipAddrSize × Int × List.Vector UInt8 ipAddrSize × Int × Int ×
    List.Vector UInt8 dataSize) UInt8 :=
  int32.pair <| (Codec.array _).pair <| int32.pair <| (Codec.array _).pair <| int32.pair <| int32.pair <|
    Codec.array _

def PfPacket.bytes (p : PfPacket) : List UInt8 :=
  pfLayout.enc (p.type, p.sourceIpAddr, p.sourcePort, p.destinationIpAddr, p.destinationPort, p.hopCount,
    p.applicationMsg)

/-- The packet that stands at these bytes, its integers through `ntohl`. -/
def PfPacket.ofBytes (bytes : List UInt8) : Option PfPacket :=
  (pfLayout.dec bytes).map fun
    | ((type, sourceIpAddr, sourcePort, destinationIpAddr, destinationPort, hopCount, applicationMsg), _) =>
      { type, sourceIpAddr, sourcePort, destinationIpAddr, destinationPort, hopCount, applicationMsg }

/-- What `sendMessage` hands to the socket; `beyond` is what stands behind its buffer. -/
def sendMessageBytes (srcMac destMac : Mac) (p : PfPacket) (beyond : List UInt8) : List UInt8 :=
  (destMac.toList ++ srcMac.toList ++ selfProtocol ++ p.bytes ++ beyond).take ethFrameLen

/-- A buffer of zeroes, with what came in at its front. -/
def receiveBuffer (bytes : List UInt8) : List UInt8 :=
  bytes.take ethFrameLen1 ++ List.replicate (ethFrameLen1 - bytes.length) 0

/-- The address a frame was sent from. -/
def recvAddr (buffer : List UInt8) : Mac := Vector.ofFn fun i => buffer.getD (6 + i.val) 0

/-- `receivePacket`, up to where it returns the packet. -/
def readFrame (bytes : List UInt8) : Option (Mac × Packet) := do
  let buffer := receiveBuffer bytes
  let p ← PfPacket.ofBytes (buffer.drop 14)
  let packet ← p.packet?
  some (recvAddr buffer, packet)

/-- The packet has room in its arrays, and its integers in 32 bits. -/
structure Packet.Fits (packet : Packet) : Prop where
  type : IsInt32 packet.type
  sourceIpAddr : IsText ipAddrSize packet.sourceIpAddr.toList
  sourcePort : IsInt32 packet.sourcePort
  destinationIpAddr : IsText ipAddrSize packet.destinationIpAddr.toList
  destinationPort : IsInt32 packet.destinationPort
  hopCount : IsInt32 packet.hopCount
  applicationMsg : IsText dataSize packet.applicationMsg

/-! ## One frame -/

theorem arrayText_of_holds {n : Nat} {a : List.Vector UInt8 n} {text : List Char} (h : IsText n text)
    (ha : Holds 0 a (text.map charByte)) : arrayText a = some text := by
  rw [arrayText, if_pos ha.nul_mem, ha.stringOf, map_byteChar_charByte h]

theorem putString_text {n : Nat} {text : List Char} (uninit : List.Vector UInt8 n) (h : IsText n text) :
    ∃ a, putString 0 uninit (text.map charByte) = some a ∧ arrayText a = some text := by
  obtain ⟨a, hput, ha⟩ := putString_holds uninit (zero_notMem_map_charByte h)
    (by rw [List.length_map]; exact h.length)
  exact ⟨a, hput, arrayText_of_holds h ha⟩

/-- The packet in memory is the packet it was made for. -/
theorem packet?_createPfPacketIn {packet : Packet} (h : packet.Fits) (uninit : Uninit) :
    ∃ p, createPfPacketIn uninit packet = some p ∧ p.packet? = some packet ∧ IsInt32 p.type ∧
      IsInt32 p.sourcePort ∧ IsInt32 p.destinationPort ∧ IsInt32 p.hopCount := by
  obtain ⟨source, hsource, hsourceText⟩ := putString_text uninit.ipAddr h.sourceIpAddr
  obtain ⟨dest, hdest, hdestText⟩ := putString_text uninit.ipAddr' h.destinationIpAddr
  obtain ⟨msg, hmsg, hmsgText⟩ := putString_text uninit.msg h.applicationMsg
  let p : PfPacket := {
    type := packet.type
    sourceIpAddr := source
    sourcePort := packet.sourcePort
    destinationIpAddr := dest
    destinationPort := packet.destinationPort
    hopCount := packet.hopCount
    applicationMsg := msg }
  refine ⟨p, ?_, ?_, h.type, h.sourcePort, h.destinationPort, h.hopCount⟩
  · simp only [createPfPacketIn, hsource, hdest, hmsg, some_bind, p]
  · simp only [PfPacket.packet?, p, hsourceText, hdestText, hmsgText, some_bind, String.ofList_toList]

theorem length_array_enc {n : Nat} (v : List.Vector UInt8 n) : ((Codec.array n).enc v).length = n :=
  v.toList_length

theorem length_int32_enc (n : Int) : (int32.enc n).length = 4 := rfl

/-- The layout has no gaps: 56 bytes in front of the text. -/
theorem length_packetBytes (p : PfPacket) : p.bytes.length = 56 + dataSize := by
  simp only [PfPacket.bytes, pfLayout, Codec.pair, List.length_append, length_array_enc, length_int32_enc,
    ipAddrSize, dataSize]

theorem PfPacket.ofBytes_bytes {p : PfPacket} (htype : IsInt32 p.type) (hsource : IsInt32 p.sourcePort)
    (hdest : IsInt32 p.destinationPort) (hhops : IsInt32 p.hopCount) : PfPacket.ofBytes p.bytes = some p := by
  have hvalid : pfLayout.Valid (p.type, p.sourceIpAddr, p.sourcePort, p.destinationIpAddr, p.destinationPort,
      p.hopCount, p.applicationMsg) := ⟨htype, trivial, hsource, trivial, hdest, hhops, trivial⟩
  have hread := pfLayout.dec_enc _ [] hvalid
  rw [List.append_nil] at hread
  rw [PfPacket.ofBytes, PfPacket.bytes, hread]
  rfl

/-- All that the receiver has room for is of the sender's buffer. -/
theorem receiveBuffer_sendMessage (srcMac destMac : Mac) (p : PfPacket) (beyond : List UInt8) :
    receiveBuffer (sendMessageBytes srcMac destMac p beyond) =
      destMac.toList ++ srcMac.toList ++ selfProtocol ++ p.bytes := by
  have hlen : (destMac.toList ++ srcMac.toList ++ selfProtocol ++ p.bytes).length = ethFrameLen1 := by
    simp only [List.length_append, Vector.length_toList, length_packetBytes, selfProtocol, List.length_cons,
      List.length_nil, dataSize, ethFrameLen1]
  have hroom : ethFrameLen1 ≤ (sendMessageBytes srcMac destMac p beyond).length := by
    rw [sendMessageBytes, List.length_take, List.length_append, hlen, ethFrameLen, ethFrameLen1]
    omega
  rw [receiveBuffer, Nat.sub_eq_zero_of_le hroom, List.replicate_zero, List.append_nil, sendMessageBytes,
    List.take_take, Nat.min_eq_left (by decide), List.take_left' hlen]

theorem recvAddr_append (srcMac destMac : Mac) (rest : List UInt8) :
    recvAddr (destMac.toList ++ srcMac.toList ++ rest) = srcMac := by
  ext i hi
  have hdest : destMac.toList.length = 6 := Vector.length_toList
  have hsrc : srcMac.toList.length = 6 := Vector.length_toList
  simp only [recvAddr, Vector.getElem_ofFn, List.getD_eq_getElem?_getD]
  rw [List.append_assoc, List.getElem?_append_right (by omega), List.getElem?_append_left (by omega), hdest,
    Nat.add_sub_cancel_left, List.getElem?_eq_getElem (by omega), Option.getD_some, Vector.getElem_toList]

/-- **What is read is what was sent**, whatever the memory held before and behind. -/
theorem readFrame_sendMessage {packet : Packet} (h : packet.Fits) (uninit : Uninit) (srcMac destMac : Mac)
    (beyond : List UInt8) : ∃ p, createPfPacketIn uninit packet = some p ∧
      readFrame (sendMessageBytes srcMac destMac p beyond) = some (srcMac, packet) := by
  obtain ⟨p, hcreate, hpacket, htype, hsource, hdest, hhops⟩ := packet?_createPfPacketIn h uninit
  refine ⟨p, hcreate, ?_⟩
  have hheader : (destMac.toList ++ srcMac.toList ++ selfProtocol).length = 14 := by
    simp only [List.length_append, Vector.length_toList, selfProtocol, List.length_cons, List.length_nil]
  have haddr : recvAddr (destMac.toList ++ srcMac.toList ++ selfProtocol ++ p.bytes) = srcMac := by
    rw [List.append_assoc _ selfProtocol]
    exact recvAddr_append srcMac destMac _
  simp only [readFrame, receiveBuffer_sendMessage, List.drop_left' hheader,
    PfPacket.ofBytes_bytes htype hsource hdest hhops, hpacket, haddr, some_bind]

/-! ## The network -/

/-- What there is besides the packet where a frame is made: memory that nothing was written to, and what
stands behind the buffer. -/
structure Surroundings where
  uninit : Uninit
  beyond : List UInt8

/-- The frame as the bytes that go over the wire. -/
def Frame.bytes (frame : Frame) (around : Surroundings) : Option (List UInt8) :=
  (createPfPacketIn around.uninit frame.packet).map fun p =>
    sendMessageBytes frame.srcMac frame.destMac p around.beyond

/-- What the event is for the receiver, that is, after the frame has gone over the wire as bytes. -/
def wireStep (T : Topology) (s : Network) : NetworkEvent × Surroundings → Option Network
  | (.deliver record i m j clock reply, around) =>
    if record ∈ s.history ∧ T.linked record.node i m j = true then
      match T.frame record.node i record.action with
      | some frame =>
        if T.accepts m j frame then do
          let bytes ← frame.bytes around
          let (recvAddr, packet) ← readFrame bytes
          let (st, actions) ← receivePacket (T.host m) (s.nodes m) recvAddr j packet clock reply
          some (s.put m (some packet) st actions)
        else none
      | none => none
    else none
  | (.client n message clock, _) => (networkMachine T).step s (.client n message clock)

/-- The network, with bytes on its wires. -/
def wireMachine (T : Topology) : Machine Network (NetworkEvent × Surroundings) where
  init := (networkMachine T).init
  step := wireStep T

/-- What arrives fits its arrays. -/
def FrameFits (T : Topology) : NetworkEvent → Prop
  | .deliver record i .. => ∀ frame ∈ T.frame record.node i record.action, frame.packet.Fits
  | .client .. => True

theorem wireStep_eq {T : Topology} {s : Network} {e : NetworkEvent} (hfits : FrameFits T e)
    (around : Surroundings) : wireStep T s (e, around) = (networkMachine T).step s e := by
  cases e with
  | client n message clock => rfl
  | deliver record i m j clock reply =>
    simp only [wireStep, networkMachine]
    by_cases hmem : record ∈ s.history ∧ T.linked record.node i m j = true
    · rw [if_pos hmem, if_pos hmem]
      cases hframe : T.frame record.node i record.action with
      | none => rfl
      | some frame =>
        have hpacket : frame.packet.Fits := hfits frame hframe
        obtain ⟨p, hcreate, hread⟩ := readFrame_sendMessage hpacket around.uninit frame.srcMac frame.destMac
          around.beyond
        have hbytes : frame.bytes around =
            some (sendMessageBytes frame.srcMac frame.destMac p around.beyond) := by
          rw [Frame.bytes, hcreate, Option.map_some]
        simp only [hbytes, hread, some_bind]
        cases receivePacket (T.host m) (s.nodes m) frame.srcMac j frame.packet clock reply <;> rfl
    · rw [if_neg hmem, if_neg hmem]

/-- **Bytes instead of packets.** Where everything that arrives fits its arrays, the network with bytes on
its wires does what the network of packets does, whatever stands in the memory around them. -/
theorem wireExec_eq {T : Topology} {es : List (NetworkEvent × Surroundings)} (hfits : ∀ e ∈ es, FrameFits T e.1)
    (s : Network) : (wireMachine T).exec s es = (networkMachine T).exec s (es.map Prod.fst) := by
  induction es generalizing s with
  | nil => rfl
  | cons e es ih =>
    obtain ⟨e, around⟩ := e
    rw [List.forall_mem_cons] at hfits
    have hstep : (wireMachine T).step s (e, around) = (networkMachine T).step s e := wireStep_eq hfits.1 around
    rw [List.map_cons, Machine.exec, Machine.exec, hstep]
    congr 1
    funext s'
    exact ih hfits.2 s'

/-! ## The line -/

/-- A text is one for which this test says so. -/
theorem isText_of_all {n : Nat} {text : List Char}
    (h : (text.all (fun c => c ≠ '\x00' && c.toNat < 2 ^ 8) && text.length < n) = true) : IsText n text := by
  simp only [Bool.and_eq_true, List.all_eq_true, decide_eq_true_eq] at h
  obtain ⟨hall, hlength⟩ := h
  exact ⟨fun hm => (hall _ hm).1 rfl, fun c hc => (hall c hc).2, hlength⟩

theorem isText_lineText : ∀ n : Node, IsText ipAddrSize ("10.0.0.".toList ++ Nat.toDigits 10 n.val) := by
  intro n
  refine isText_of_all ?_
  revert n
  decide +kernel

theorem toList_lineIp (n : Node) : (lineIp n).toList = "10.0.0.".toList ++ Nat.toDigits 10 n.val := by
  unfold lineIp
  exact String.toList_ofList

theorem isText_lineIp (n : Node) : IsText ipAddrSize (lineIp n).toList := by
  rw [toList_lineIp]
  exact isText_lineText n

theorem isText_rreqMsg : IsText dataSize (rreqMsg 0 1) := isText_of_all (by decide +kernel)

theorem isInt32_line : IsInt32 0 ∧ IsInt32 1 ∧ IsInt32 5678 := by
  unfold IsInt32
  decide

theorem fits_rreqPacket (source dest : Node) : (rreqPacket source dest 0).Fits where
  type := isInt32_line.1
  sourceIpAddr := isText_lineIp source
  sourcePort := isInt32_line.2.1
  destinationIpAddr := isText_lineIp dest
  destinationPort := isInt32_line.2.2
  hopCount := isInt32_line.1
  applicationMsg := isText_rreqMsg

theorem fits_rrepPacket (source dest : Node) : (rrepPacket source dest 0).Fits where
  type := isInt32_line.2.1
  sourceIpAddr := isText_lineIp source
  sourcePort := isInt32_line.2.2
  destinationIpAddr := isText_lineIp dest
  destinationPort := isInt32_line.2.1
  hopCount := isInt32_line.1
  applicationMsg := isText_rreqMsg

/-- Memory full of blanks. -/
def blanks : Surroundings where
  uninit := { ipAddr := .replicate _ 32, ipAddr' := .replicate _ 32, msg := .replicate _ 32 }
  beyond := List.replicate (ethFrameLen - ethFrameLen1) 32

theorem wireExec_eq_askNeighbour : ((wireMachine lineTopology).exec (networkMachine lineTopology).init
      (askNeighbour.map fun e => (e, blanks))).isSome = true := by
  have hfits : ∀ e ∈ askNeighbour, FrameFits lineTopology e := by
    simp only [askNeighbour, List.forall_mem_cons]
    refine ⟨trivial, ?_, ?_, fun e he => absurd he List.not_mem_nil⟩
    · intro frame hframe
      rw [← Option.some.inj (frame_packet hframe)]
      exact fits_rreqPacket 1 2
    · intro frame hframe
      rw [← Option.some.inj (frame_packet hframe)]
      exact fits_rrepPacket 2 1
  have hevents : (askNeighbour.map fun e => (e, blanks)).map Prod.fst = askNeighbour := by
    rw [List.map_map]
    exact List.map_id askNeighbour
  rw [wireExec_eq (List.forall_mem_map.mpr hfits), hevents]
  decide +kernel

end Sockets.Odr
