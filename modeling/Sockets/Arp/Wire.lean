/-
The ARP module's messages on the wire. A frame is an Ethernet header and the
message behind it, 44 bytes, and is sent with six zeroes more; the network
may add others. The receiver reads 44 bytes, with zeroes for what has not
come.

The routing daemon sends under the same protocol number, so that each of its
packets is read as a message too. Its operation is then two characters of
the address the packet is from, and the message is ignored. So a network
that carries the bytes of both does what the network of ARP messages does
(`exec_wireMachine`).
-/
import Sockets.Arp.Agreement
import Sockets.Odr.Frame

namespace Sockets.Arp

open Odr (Mac selfProtocol)

def arpLen : Nat := 50

/-- The length of the header and the message. -/
def arpFrameSize : Nat := 44

/-- The members one behind the other, without a gap. -/
def arpLayout : Codec (Vector UInt8 2 × Vector UInt8 2 × Vector UInt8 2 × UInt8 × UInt8 × Vector UInt8 2 × Mac ×
    Ipv4 × Mac × Ipv4) UInt8 :=
  (Codec.vector 2).pair <| (Codec.vector 2).pair <| (Codec.vector 2).pair <| Codec.symbol.pair <|
    Codec.symbol.pair <| (Codec.vector 2).pair <| (Codec.vector 6).pair <| (Codec.vector 4).pair <|
    (Codec.vector 6).pair (Codec.vector 4)

def ArpMessage.fields (m : ArpMessage) :=
  (m.id, m.hatype, m.prottype, m.hardsize, m.protsize, m.op, m.senderMac, m.senderIp, m.targetMac, m.targetIp)

def ArpMessage.ofFields : Vector UInt8 2 × Vector UInt8 2 × Vector UInt8 2 × UInt8 × UInt8 × Vector UInt8 2 ×
    Mac × Ipv4 × Mac × Ipv4 → ArpMessage
  | (id, hatype, prottype, hardsize, protsize, op, senderMac, senderIp, targetMac, targetIp) =>
    { id, hatype, prottype, hardsize, protsize, op, senderMac, senderIp, targetMac, targetIp }

/-- The message as it stands in memory. -/
def ArpMessage.bytes (m : ArpMessage) : List UInt8 := arpLayout.enc m.fields

def ArpMessage.ofBytes (bytes : List UInt8) : Option ArpMessage :=
  (arpLayout.dec bytes).map fun p => ArpMessage.ofFields p.1

/-- The buffer that `sendArpMessage` hands to the socket. -/
def Frame.bytes (frame : Frame) : List UInt8 :=
  frame.destMac.toList ++ frame.srcMac.toList ++ selfProtocol ++ frame.arpMessage.bytes ++
    List.replicate (arpLen - arpFrameSize) 0

/-- What `recvArpMessage` makes of what has come. -/
def recvArpMessage (bytes : List UInt8) : Option ArpMessage :=
  let buffer := bytes.take arpFrameSize ++ List.replicate (arpFrameSize - bytes.length) 0
  ArpMessage.ofBytes (buffer.drop 14)

/-! ## One frame -/

theorem arpLayout_valid (m : ArpMessage) : arpLayout.Valid m.fields :=
  ⟨trivial, trivial, trivial, trivial, trivial, trivial, trivial, trivial, trivial, trivial⟩

theorem arpLayout_exact : arpLayout.Exact :=
  Codec.vector_exact.pair <| Codec.vector_exact.pair <| Codec.vector_exact.pair <| Codec.symbol_exact.pair <|
    Codec.symbol_exact.pair <| Codec.vector_exact.pair <| Codec.vector_exact.pair <| Codec.vector_exact.pair <|
    Codec.vector_exact.pair Codec.vector_exact

theorem arpLayout_total : arpLayout.Total (2 + (2 + (2 + (1 + (1 + (2 + (6 + (4 + (6 + 4))))))))) :=
  Codec.vector_total.pair <| Codec.vector_total.pair <| Codec.vector_total.pair <| Codec.symbol_total.pair <|
    Codec.symbol_total.pair <| Codec.vector_total.pair <| Codec.vector_total.pair <| Codec.vector_total.pair <|
    Codec.vector_total.pair Codec.vector_total

theorem ofBytes_bytes (m : ArpMessage) (rest : List UInt8) : ArpMessage.ofBytes (m.bytes ++ rest) = some m := by
  rw [ArpMessage.ofBytes, ArpMessage.bytes, arpLayout.dec_enc _ rest (arpLayout_valid m)]
  rfl

/-- Any 30 bytes are read as a message, which is the one that stands in memory as these bytes. -/
theorem exists_ofBytes {bytes : List UInt8} (h : 30 ≤ bytes.length) :
    ∃ m rest, ArpMessage.ofBytes bytes = some m ∧ bytes = m.bytes ++ rest := by
  obtain ⟨fields, rest, hdec, -⟩ := arpLayout_total bytes h
  obtain ⟨-, hbytes⟩ := arpLayout_exact bytes fields rest hdec
  exact ⟨ArpMessage.ofFields fields, rest, by rw [ArpMessage.ofBytes, hdec, Option.map_some], hbytes⟩

theorem length_arpBytes (m : ArpMessage) : m.bytes.length = 30 := by
  have hvector {n : Nat} (v : Vector UInt8 n) : ((Codec.vector n).enc v).length = n := v.length_toList
  simp only [ArpMessage.bytes, arpLayout, ArpMessage.fields, Codec.pair, List.length_append, hvector]
  rfl

/-- Where the operation stands. -/
theorem getElem?_arpBytes {m : ArpMessage} {i : Nat} (h : i < 2) : m.bytes[8 + i]? = some m.op[i] := by
  have hop : m.bytes.drop 8 = m.op.toList ++ (m.senderMac.toList ++ (m.senderIp.toList ++
      (m.targetMac.toList ++ m.targetIp.toList))) := by
    have hfront : (m.id.toList ++ (m.hatype.toList ++ (m.prottype.toList ++ ([m.hardsize] ++
        [m.protsize])))).length = 8 := by
      simp only [List.length_append, Vector.length_toList, List.length_cons, List.length_nil]
    have hsplit : m.bytes = (m.id.toList ++ (m.hatype.toList ++ (m.prottype.toList ++ ([m.hardsize] ++
        [m.protsize])))) ++ (m.op.toList ++ (m.senderMac.toList ++ (m.senderIp.toList ++
      (m.targetMac.toList ++ m.targetIp.toList)))) := by
      simp only [List.append_assoc]
      rfl
    rw [hsplit, List.drop_left' hfront]
  rw [← List.getElem?_drop, hop, List.getElem?_append_left (by rw [Vector.length_toList]; exact h),
    List.getElem?_eq_getElem (by rw [Vector.length_toList]; exact h), Vector.getElem_toList]

/-- **What is read is what was sent**, whatever the network adds to the frame. -/
theorem recvArpMessage_bytes (frame : Frame) (padding : List UInt8) :
    recvArpMessage (frame.bytes ++ padding) = some frame.arpMessage := by
  have hheader : (frame.destMac.toList ++ frame.srcMac.toList ++ selfProtocol).length = 14 := by
    simp only [List.length_append, Vector.length_toList, selfProtocol, List.length_cons, List.length_nil]
  have hfront : (frame.destMac.toList ++ frame.srcMac.toList ++ selfProtocol ++ frame.arpMessage.bytes).length =
      arpFrameSize := by
    rw [List.length_append, hheader, length_arpBytes, arpFrameSize]
  have hroom : arpFrameSize ≤ (frame.bytes ++ padding).length := by
    rw [Frame.bytes, List.append_assoc, List.length_append, hfront]
    omega
  have hmessage := ofBytes_bytes frame.arpMessage []
  rw [List.append_nil] at hmessage
  rw [recvArpMessage, Nat.sub_eq_zero_of_le hroom, List.replicate_zero, List.append_nil, Frame.bytes,
    List.append_assoc _ _ padding, List.take_left' hfront, List.drop_left' hheader, hmessage]

/-! ## A packet of the routing daemon -/

theorem seven_le_length_ipNtop (ip : Ipv4) : 7 ≤ (ipNtop ip).length := by
  have hdigits (byte : UInt8) : 1 ≤ (decimal byte).length :=
    List.length_pos_iff.mpr (Nat.toDigits_ne_nil (n := byte.toNat) (b := 10))
  have h0 := hdigits ip[0]
  have h1 := hdigits ip[1]
  have h2 := hdigits ip[2]
  have h3 := hdigits ip[3]
  simp only [ipNtop, List.length_append, List.length_cons]
  omega

theorem mem_ipNtop {ip : Ipv4} {c : Char} (h : c ∈ ipNtop ip) : c = '.' ∨ c.isDigit = true := by
  have hdigit {byte : UInt8} (hm : c ∈ decimal byte) : c = '.' ∨ c.isDigit = true :=
    .inr (isDigit_of_mem_decimal hm)
  simp only [ipNtop, List.mem_append, List.mem_cons] at h
  rcases h with h | h | h | h | h | h | h
  · exact hdigit h
  · exact .inl h
  · exact hdigit h
  · exact .inl h
  · exact hdigit h
  · exact .inl h
  · exact hdigit h

/-- The text of an address has neither of the bytes that an operation is made of. -/
theorem charByte_mem_ipNtop {ip : Ipv4} {c : Char} (h : c ∈ ipNtop ip) : charByte c ≠ 0x00 ∧ charByte c ≠ 0xff := by
  have hrange : 46 ≤ c.toNat ∧ c.toNat ≤ 57 := by
    rcases mem_ipNtop h with rfl | hdigit
    · decide
    · simp only [Char.isDigit, Bool.and_eq_true, decide_eq_true_eq] at hdigit
      obtain ⟨hlo, hhi⟩ := hdigit
      have hlo : '0'.toNat ≤ c.toNat := hlo
      have hhi : c.toNat ≤ '9'.toNat := hhi
      simp only [Char.reduceToNat] at hlo hhi
      omega
  have hbyte : (charByte c).toNat = c.toNat := UInt8.toNat_ofNat_of_lt' (by simp only [UInt8.size]; omega)
  constructor
  · intro hzero
    rw [hzero] at hbyte
    simp at hbyte
    omega
  · intro hones
    rw [hones] at hbyte
    simp at hbyte
    omega

/-- The text of the source address stands behind the type. -/
theorem getElem?_packetBytes (p : Odr.PfPacket) {i : Nat} (h : i < 16) :
    p.bytes[8 + i]? = p.sourceIpAddr.toList[4 + i]? := by
  have hsplit : ∃ rest, p.bytes = int32Bytes p.type ++ (p.sourceIpAddr.toList ++ rest) := ⟨_, rfl⟩
  obtain ⟨rest, hsplit⟩ := hsplit
  have htype : (int32Bytes p.type).length = 4 := rfl
  rw [hsplit, List.getElem?_append_right (by rw [htype]; omega), htype,
    List.getElem?_append_left (by rw [List.Vector.toList_length, Odr.ipAddrSize]; omega)]
  congr 1
  omega

/-- A packet of the routing daemon, read as a message: its operation is two characters of the address the
packet is from. -/
theorem recvArpMessage_sendMessage (srcMac destMac : Mac) (p : Odr.PfPacket) (beyond : List UInt8) :
    ∃ m, recvArpMessage (Odr.sendMessageBytes srcMac destMac p beyond) = some m ∧
      p.sourceIpAddr.toList[4]? = some m.op[0] ∧ p.sourceIpAddr.toList[5]? = some m.op[1] := by
  have hheader : (destMac.toList ++ srcMac.toList ++ selfProtocol).length = 14 := by
    simp only [List.length_append, Vector.length_toList, selfProtocol, List.length_cons, List.length_nil]
  have hbuffer : (Odr.sendMessageBytes srcMac destMac p beyond).take arpFrameSize =
      destMac.toList ++ srcMac.toList ++ selfProtocol ++ p.bytes.take 30 := by
    rw [Odr.sendMessageBytes, List.take_take, Nat.min_eq_left (by decide), List.append_assoc _ p.bytes,
      List.take_append, hheader, List.take_of_length_le (by rw [hheader]; decide), arpFrameSize,
      List.take_append_of_le_length (by rw [Odr.length_packetBytes]; decide)]
  have hlen : arpFrameSize ≤ (Odr.sendMessageBytes srcMac destMac p beyond).length := by
    have htake := congrArg List.length hbuffer
    rw [List.length_append, hheader, List.length_take, List.length_take, Odr.length_packetBytes] at htake
    simp only [arpFrameSize, Odr.dataSize] at htake ⊢
    omega
  have hlong : 30 ≤ (p.bytes.take 30).length := by
    rw [List.length_take, Odr.length_packetBytes, Odr.dataSize]
    omega
  obtain ⟨m, rest, hread, hbytes⟩ := exists_ofBytes hlong
  refine ⟨m, ?_, ?_⟩
  · rw [recvArpMessage, Nat.sub_eq_zero_of_le hlen, List.replicate_zero, List.append_nil, hbuffer,
      List.drop_left' hheader, hread]
  have hop {i : Nat} (hi : i < 2) : p.sourceIpAddr.toList[4 + i]? = some m.op[i] := calc
    p.sourceIpAddr.toList[4 + i]? = p.bytes[8 + i]? := (getElem?_packetBytes p (by omega)).symm
    _ = (p.bytes.take 30)[8 + i]? := (List.getElem?_take_of_lt (by omega)).symm
    _ = m.bytes[8 + i]? := by rw [hbytes, List.getElem?_append_left (by rw [length_arpBytes]; omega)]
    _ = some m.op[i] := getElem?_arpBytes hi
  exact ⟨hop (i := 0) (by decide), hop (i := 1) (by decide)⟩

/-- So it is neither a request nor a reply. -/
theorem recvArpMessage_odr {frame : Odr.Frame} {ip : Ipv4} (hfits : frame.packet.Fits)
    (hip : frame.packet.sourceIpAddr.toList = ipNtop ip) (around : Odr.Surroundings) :
    ∃ bytes m, frame.bytes around = some bytes ∧ recvArpMessage bytes = some m ∧ m.op ≠ opRequest ∧
      m.op ≠ opReply := by
  obtain ⟨p, hcreate, -⟩ := Odr.packet?_createPfPacketIn hfits around.uninit
  obtain ⟨m, hread, hfirst, hsecond⟩ := recvArpMessage_sendMessage frame.srcMac frame.destMac p around.beyond
  have htext : Holds 0 p.sourceIpAddr ((ipNtop ip).map charByte) := by
    obtain ⟨a, hput, ha⟩ := putString_holds around.uninit.ipAddr (zero_notMem_map_charByte hfits.sourceIpAddr)
      (by rw [List.length_map]; exact hfits.sourceIpAddr.length)
    have hmade := hcreate
    simp only [Odr.createPfPacketIn, hput, Option.bind_eq_bind, Option.bind_some, Option.bind_eq_some_iff,
      Option.some.injEq] at hmade
    obtain ⟨dest, -, msg, -, rfl⟩ := hmade
    rwa [hip] at ha
  have hseven := seven_le_length_ipNtop ip
  have hchar {i : Nat} {byte : UInt8} (hi : i < 7) (hbyte : p.sourceIpAddr.toList[i]? = some byte) :
      byte ≠ 0x00 ∧ byte ≠ 0xff := by
    have hload := htext.load (i := i) (by rw [List.length_map]; omega)
    rw [load, hbyte, List.getD_eq_getElem _ _ (by rw [List.length_map]; omega), List.getElem_map] at hload
    rw [Option.some.inj hload]
    exact charByte_mem_ipNtop (List.getElem_mem _)
  refine ⟨_, m, by rw [Odr.Frame.bytes, hcreate, Option.map_some], hread, ?_, ?_⟩
  · intro hop
    rw [hop] at hfirst
    exact (hchar (by decide) hfirst).1 rfl
  · intro hop
    rw [hop] at hfirst
    exact (hchar (by decide) hfirst).2 rfl

/-! ## The network -/

/-- An event of the ARP modules, where what arrives has such bytes added; or a packet of the routing daemon
arrives at node `n`. -/
inductive WireEvent (ι : Type)
  | arp (event : ArpNetworkEvent ι) (padding : List UInt8)
  | odr (frame : Odr.Frame) (around : Odr.Surroundings) (n : ι) (beyond : ArpEntry → Bool) (sllHatype : Nat)
    (sllIfindex : Int)

variable {ι : Type}

def WireEvent.arp? : WireEvent ι → Option (ArpNetworkEvent ι)
  | .arp event _ => some event
  | .odr .. => none

/-- The event at a node, if it can happen, with the message as the node reads it. -/
def ArpNetwork.wireLocal? [DecidableEq ι] (s : ArpNetwork ι) : WireEvent ι → Option (ι × ArpEvent)
  | .arp (.client n connFd text) _ => some (n, .client connFd text)
  | .arp (.deliver frame n beyond sllHatype sllIfindex) padding =>
    if frame ∈ s.frames then
      (recvArpMessage (frame.bytes ++ padding)).map fun m => (n, .message m beyond sllHatype sllIfindex)
    else none
  | .odr frame around n beyond sllHatype sllIfindex => do
    let bytes ← frame.bytes around
    let m ← recvArpMessage bytes
    some (n, .message m beyond sllHatype sllIfindex)

/-- The network, with bytes on its wire, and packets of the routing daemon among them. -/
def wireMachine [DecidableEq ι] (lan : Lan ι) : Machine (ArpNetwork ι) (WireEvent ι) where
  init := (arpNetworkMachine lan).init
  step s e := do
    let (n, event) ← s.wireLocal? e
    let (node, actions) ← (s.nodes n).step (lan.eth0 n) event
    some (s.put n node actions)

/-- A packet of the routing daemon fits its arrays, and is from an address. -/
def WireEvent.Routed : WireEvent ι → Prop
  | .arp .. => True
  | .odr frame .. => frame.packet.Fits ∧ ∃ ip : Ipv4, frame.packet.sourceIpAddr.toList = ipNtop ip

variable [DecidableEq ι] {lan : Lan ι}

/-- A node that is neither asked nor answered does nothing. -/
theorem ArpNode.step_ignores (eth0 : Interface) (s : ArpNode) {m : ArpMessage} (hrequest : m.op ≠ opRequest)
    (hreply : m.op ≠ opReply) (beyond : ArpEntry → Bool) (sllHatype : Nat) (sllIfindex : Int) :
    s.step eth0 (.message m beyond sllHatype sllIfindex) = some (s, []) := by
  have hnote : s.connections.map (noteReply m) = s.connections := by
    refine (List.map_congr_left ?_).trans (List.map_id _)
    intro c hc
    exact if_neg fun h => hreply h.1
  simp only [ArpNode.step, onArpMessage, onArpMessageWith, if_neg hrequest, if_neg hreply, Option.map_some,
    noteActions, List.foldl_nil, hnote]

theorem ArpNetwork.put_same (s : ArpNetwork ι) (n : ι) : s.put n (s.nodes n) [] = s := by
  simp only [ArpNetwork.put, Function.update_eq_self, List.filterMap_nil, List.append_nil]

theorem wireStep_arp (s : ArpNetwork ι) (e : ArpNetworkEvent ι) (padding : List UInt8) :
    (wireMachine lan).step s (.arp e padding) = (arpNetworkMachine lan).step s e := by
  have hlocal : s.wireLocal? (.arp e padding) = s.local? e := by
    cases e with
    | client => rfl
    | deliver => simp only [ArpNetwork.wireLocal?, ArpNetwork.local?, recvArpMessage_bytes, Option.map_some]
  simp only [wireMachine, arpNetworkMachine, hlocal]

/-- A packet of the routing daemon changes nothing. -/
theorem wireStep_odr (s : ArpNetwork ι) {e : WireEvent ι} (he : e.Routed) (hnot : e.arp? = none) :
    (wireMachine lan).step s e = some s := by
  cases e with
  | arp => cases hnot
  | odr frame around n beyond sllHatype sllIfindex =>
    obtain ⟨hfits, ip, hip⟩ := he
    obtain ⟨bytes, m, hbytes, hread, hrequest, hreply⟩ := recvArpMessage_odr hfits hip around
    simp only [wireMachine, ArpNetwork.wireLocal?, hbytes, hread, Option.bind_eq_bind, Option.bind_some,
      ArpNode.step_ignores _ _ hrequest hreply, ArpNetwork.put_same]

/-- **Bytes instead of messages.** With bytes on the wire, whatever is added to them, and with packets of the
routing daemon among them, the network does what the network of ARP messages does without those packets. -/
theorem exec_wireMachine {es : List (WireEvent ι)} (hrouted : ∀ e ∈ es, e.Routed) (s : ArpNetwork ι) :
    (wireMachine lan).exec s es = (arpNetworkMachine lan).exec s (es.filterMap WireEvent.arp?) := by
  induction es generalizing s with
  | nil => rfl
  | cons e es ih =>
    rw [List.forall_mem_cons] at hrouted
    obtain ⟨he, hrest⟩ := hrouted
    cases harp : e.arp? with
    | none =>
      rw [List.filterMap_cons_none harp, Machine.exec, wireStep_odr s he harp]
      exact ih hrest s
    | some event =>
      obtain ⟨padding, rfl⟩ : ∃ padding, e = .arp event padding := by
        cases e with
        | arp other padding => exact ⟨padding, by rw [Option.some.inj harp]⟩
        | odr => cases harp
      rw [List.filterMap_cons_some harp, Machine.exec, Machine.exec, wireStep_arp]
      congr 1
      funext s'
      exact ih hrest s'

/-- So the tables agree. -/
theorem agreed_of_wireExec {es : List (WireEvent ι)} (hrouted : ∀ e ∈ es, e.Routed) {s : ArpNetwork ι}
    (h : (wireMachine lan).exec (wireMachine lan).init es = some s) (n : ι) : Vouched lan.Owns (s.nodes n) := by
  rw [exec_wireMachine hrouted] at h
  exact agreed_of_reachable ⟨_, h⟩ n

/-- A client of node `n` asks for node `m`, and is answered. A packet of the routing daemon is about at the same
time; the other frames have ten zeroes added. -/
def askBesideOdr (lan : Lan ι) (n m : ι) (route : Odr.Frame) : List (WireEvent ι) :=
  let request := requestMessage (lan.eth0 n) (lan.ip m) (lan.ip n)
  let reply := replyMessage (lan.eth0 m) request
  [.arp (.client n 4 (ipNtop (lan.ip m))) [],
    .odr route Odr.blanks n (fun _ => false) 1 2,
    .arp (.deliver { destMac := request.targetMac, srcMac := request.senderMac, ifIndex := 2, arpMessage := request }
      m (fun _ => false) 1 2) (List.replicate 10 0),
    .odr route Odr.blanks m (fun _ => false) 1 2,
    .arp (.deliver { destMac := reply.targetMac, srcMac := reply.senderMac, ifIndex := 2, arpMessage := reply }
      n (fun _ => false) 1 2) (List.replicate 10 0)]

/-- The packet is a route request of node 1 of the line, for node 2. -/
theorem exec_wireMachine_besideOdr :
    let route : Odr.Frame :=
      { srcMac := Odr.lineMac 1 2, destMac := Odr.Mac.broadcast, packet := Odr.rreqPacket 1 2 0 }
    ((wireMachine exampleLan).exec (wireMachine exampleLan).init (askBesideOdr exampleLan 0 1 route)).any (fun s =>
      (s.nodes 0).connections.map (·.ops) = [[.write (exampleLan.macAddr 1), .close]]) = true := by
  intro route
  have htext : (Odr.lineIp 1).toList = ipNtop #v[10, 0, 0, 1] :=
    (Odr.toList_lineIp 1).trans (by decide +kernel)
  have hroute : (Odr.rreqPacket 1 2 0).Fits ∧ ∃ ip, (Odr.rreqPacket 1 2 0).sourceIpAddr.toList = ipNtop ip :=
    ⟨Odr.fits_rreqPacket 1 2, _, htext⟩
  have hrouted : ∀ e ∈ askBesideOdr exampleLan 0 1 route, e.Routed := by
    simp only [askBesideOdr, List.forall_mem_cons]
    exact ⟨trivial, hroute, trivial, hroute, trivial, fun e he => absurd he List.not_mem_nil⟩
  rw [exec_wireMachine hrouted]
  decide +kernel

end Sockets.Arp
