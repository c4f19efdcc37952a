/-
One node of the on-demand routing daemon: its routing table, its output
buffer, and what it does with a message of its client or a packet from the
wire (the two branches of the loop in `main`).

What a step puts out is a list of actions. A lookup that fails, an interface
number that is not there, an index outside the buffer: where C has no
defined outcome, the model has none. The readings of the clock a step makes
are numbered in the order they are made. Hop counts and ports are exact
integers.
-/
import Sockets.Odr.Packet
import Mathlib.Logic.Function.Basic

namespace Sockets.Odr

structure Interface where
  macAddr : Mac
  interfaceNum : Int
deriving DecidableEq

structure RoutingEntry where
  nextHop : Mac := Mac.empty
  outInterface : Int := 0
  hopsToDest : Int := 0
  timestamp : Int := 0
  highestBroadcastId : Node → Nat := fun _ => 0

structure MapPortPath where
  portNum : Int
  sunPath : String
deriving DecidableEq

/-- What a node is started with, and what its lookups of hosts give. -/
structure Host where
  node : Node
  localCanonicalIp : String
  currentAddr : String
  interfaces : List Interface
  staleTime : Int
  getNodeByIp : String → Option Node

structure NodeState where
  table : Node → RoutingEntry
  broadcastId : Nat
  sourcePort : Int
  sendBuffer : Nat → Packet
  numPacketsBuffered : Nat
  mapArray : List MapPortPath

def mapSize : Nat := 100
def bufferSize : Nat := 100

def NodeState.start : NodeState :=
  { table := fun _ => {}, broadcastId := 0, sourcePort := 1,
    sendBuffer := fun _ => {}, numPacketsBuffered := 0,
    mapArray := List.replicate mapSize { portNum := -1, sunPath := "" } }

/-- What a node puts out: a packet to everyone on each of its interfaces, a
packet to one address, or what it tells the server or a client. -/
inductive Action
  | broadcast (packet : Packet)
  | send (srcMac destMac : Mac) (ifIndex : Int) (packet : Packet)
  | toServer (sourceIpAddr : String) (sourcePort : Int) (msg : List Char)
  | toClient (sourceIpAddr : String) (sourcePort : Int) (msg : List Char) (flag : Int) (sunPath : String)
deriving DecidableEq

/-! ## Ports, interfaces, sending -/

def addMap (portNum : Int) (sunPath : String) : List MapPortPath → List MapPortPath
  | [] => []
  | slot :: rest =>
    if slot.portNum = -1 then { portNum, sunPath } :: rest else slot :: addMap portNum sunPath rest

def searchMap (port : Int) (map : List MapPortPath) : Option String :=
  (map.find? (·.portNum = port)).map (·.sunPath)

def Host.getMacAddrByInterfaceNum (h : Host) (ifaceNum : Int) : Option Mac :=
  (h.interfaces.find? (·.interfaceNum = ifaceNum)).map (·.macAddr)

/-- Both addresses of the packet are looked up when it is sent. -/
def Host.resolves (h : Host) (packet : Packet) : Bool :=
  (h.getNodeByIp packet.sourceIpAddr).isSome && (h.getNodeByIp packet.destinationIpAddr).isSome

def Host.sendMessage (h : Host) (srcMac destMac : Mac) (ifIndex : Int) (packet : Packet) :
    Option Action :=
  if h.resolves packet then some (.send srcMac destMac ifIndex packet) else none

def Host.broadcast (h : Host) (packet : Packet) : Option Action :=
  if h.interfaces = [] ∨ h.resolves packet then some (.broadcast packet) else none

/-- A packet sent along the entry of the table for `node`. -/
def Host.sendAlong (h : Host) (entry : RoutingEntry) (packet : Packet) : Option Action := do
  let srcMac ← h.getMacAddrByInterfaceNum entry.outInterface
  h.sendMessage srcMac entry.nextHop entry.outInterface packet

/-! ## The routing table -/

def NodeState.setEntry (st : NodeState) (node : Node) (entry : RoutingEntry) : NodeState :=
  { st with table := Function.update st.table node entry }

/-- The four fields every update of a route sets. -/
def RoutingEntry.learn (entry : RoutingEntry) (nextHop : Mac)
    (outInterface hopsToDest timestamp : Int) :
    RoutingEntry :=
  { entry with nextHop, outInterface, hopsToDest, timestamp }

def RoutingEntry.setHighest (entry : RoutingEntry) (node : Node) (id : Nat) : RoutingEntry :=
  { entry with highestBroadcastId := Function.update entry.highestBroadcastId node id }

/-! ## The output buffer -/

/-- `send_buffer[num_packets_buffered++] = packet`. -/
def NodeState.bufferPacket (st : NodeState) (packet : Packet) : Option NodeState :=
  if st.numPacketsBuffered < bufferSize then
    some { st with
      sendBuffer := Function.update st.sendBuffer st.numPacketsBuffered packet
      numPacketsBuffered := st.numPacketsBuffered + 1 }
  else none

def readSlot (buffer : Nat → Packet) (i : Nat) : Option Packet :=
  if i < bufferSize then some (buffer i) else none

/-- The loop of `removeFromBuffer`, `i` counting down to `removeIndex`. -/
def removeLoop (removeIndex : Nat) : Nat → (Nat → Packet) → Option (Nat → Packet)
  | 0, buffer => some buffer
  | i + 1, buffer =>
    if i + 1 > removeIndex then do
      let packet ← readSlot buffer (i + 1)
      removeLoop removeIndex i (Function.update buffer i packet)
    else some buffer

def NodeState.removeFromBuffer (st : NodeState) (removeIndex : Nat) : Option NodeState := do
  let sendBuffer ← removeLoop removeIndex st.numPacketsBuffered st.sendBuffer
  some { st with sendBuffer, numPacketsBuffered := st.numPacketsBuffered - 1 }

/-- The loop of `sendMessageFromBuffer` from index `i` on, `todo` indices left. -/
def flushFrom (h : Host) (clock : Nat → Int) :
    (todo i : Nat) → NodeState → Option (NodeState × List Action)
  | 0, _, st => some (st, [])
  | todo + 1, i, st => do
    let packet ← readSlot st.sendBuffer i
    let destNode ← h.getNodeByIp packet.destinationIpAddr
    let entry := st.table destNode
    if checkAddressNotEmpty entry.nextHop = true ∧ entry.timestamp + h.staleTime > clock i then do
      let action ← h.sendAlong entry packet
      -- the packet is converted to network order in the buffer itself
      let st := { st with sendBuffer := Function.update st.sendBuffer i packet.htonl }
      let st ← st.removeFromBuffer i
      let (st, actions) ← flushFrom h clock todo (i + 1) st
      some (st, action :: actions)
    else flushFrom h clock todo (i + 1) st

def sendMessageFromBuffer (h : Host) (clock : Nat → Int) (st : NodeState) :
    Option (NodeState × List Action) :=
  flushFrom h clock st.numPacketsBuffered 0 st

/-- `broadcast_id++`. -/
def NodeState.nextBroadcastId (st : NodeState) : Option NodeState :=
  if st.broadcastId + 1 < 2 ^ 31 then some { st with broadcastId := st.broadcastId + 1 } else none

/-! ## A client's message -/

structure ClientMessage where
  sunPath : String
  destinationAddr : String
  destinationPort : Int
  flag : Int
  msg : List Char

/-- A message that forces a discovery first forgets the way to its destination. -/
def NodeState.forget (st : NodeState) (flag : Int) (dest : Node) : NodeState :=
  if flag = 1 then st.setEntry dest { st.table dest with nextHop := Mac.empty } else st

/-- The discovery a client's message starts when there is no route. -/
def discover (h : Host) (st : NodeState) (m : ClientMessage) (dest : Node) (currTime : Int) :
    Option (List Action) :=
  let entry := st.table dest
  if checkAddressNotEmpty entry.nextHop = false ∨ entry.timestamp + h.staleTime < currTime then do
    let action ← h.broadcast (createPfPacket 0 h.localCanonicalIp st.sourcePort m.destinationAddr
      m.destinationPort 0 (rreqMsg m.flag st.broadcastId))
    some [action]
  else some []

def onClientMessage (h : Host) (st : NodeState) (m : ClientMessage) (clock : Nat → Int) :
    Option (NodeState × List Action) := do
  let st := { st with mapArray := addMap st.sourcePort m.sunPath st.mapArray }
  let st ← st.bufferPacket
    (createPfPacket 2 h.currentAddr st.sourcePort m.destinationAddr m.destinationPort 0 m.msg)
  let st ← st.nextBroadcastId
  let dest ← h.getNodeByIp m.destinationAddr
  let st := st.forget m.flag dest
  let rreq ← discover h st m dest (clock 0)
  let (st, sent) ← sendMessageFromBuffer h (fun i => clock (i + 1)) st
  some ({ st with sourcePort := st.sourcePort + 1 }, rreq ++ sent)

/-! ## A packet from the wire -/

/-- What is known of a packet before its type is looked at: who sent the
frame, the interface it came in on, and the nodes it names. -/
structure Incoming where
  recvAddr : Mac
  incomingInterface : Int
  sourceNode : Node
  destNode : Node
  packet : Packet

def Incoming.hopCount (inc : Incoming) : Int := inc.packet.hopCount + 1
def Incoming.id (inc : Incoming) : Nat := receivedBid inc.packet.applicationMsg
def Incoming.forced (inc : Incoming) : Int := forcedDiscovery inc.packet.applicationMsg

/-- Whether an RREQ updates the route back to its source. -/
def updateReverse (h : Host) (entry : RoutingEntry) (inc : Incoming) (currTime : Int) : Bool :=
  let updateReverse := true
  let updateReverse :=
    if inc.hopCount > entry.hopsToDest ∨ entry.timestamp + h.staleTime > currTime then false
    else updateReverse
  let updateReverse :=
    if inc.id > entry.highestBroadcastId inc.sourceNode ∧ inc.forced = 1 then true else updateReverse
  if checkAddressNotEmpty entry.nextHop = false then true else updateReverse

/-- The part of the RREQ branch before its test for duplicates. -/
def reversePath (h : Host) (st : NodeState) (inc : Incoming) (clock : Nat → Int) : NodeState :=
  let entry := st.table inc.sourceNode
  let update := updateReverse h entry inc (clock 0)
  let entry :=
    if inc.id > entry.highestBroadcastId inc.sourceNode then entry.setHighest inc.sourceNode inc.id
    else entry
  let entry :=
    if update then entry.learn inc.recvAddr inc.incomingInterface inc.hopCount (clock 1) else entry
  st.setEntry inc.sourceNode entry

/-- An RREP back to the source of an RREQ. -/
def replyTo (h : Host) (st : NodeState) (inc : Incoming) (msg : List Char) : Option Action :=
  h.sendAlong (st.table inc.sourceNode) (createPfPacket 1 inc.packet.destinationIpAddr inc.packet.destinationPort
    inc.packet.sourceIpAddr inc.packet.sourcePort 0 msg)

/-- The RREQ is broadcast again if its source is new here, or is now nearer;
it says then that an RREP was sent. -/
def floodReplied (h : Host) (inc : Incoming) (seenSource : Bool) (originalHopsToSource : Int) :
    Option (List Action) :=
  if seenSource = false ∨ originalHopsToSource > inc.hopCount then do
    let action ← h.broadcast { inc.packet with
      hopCount := inc.packet.hopCount + 1
      applicationMsg := inc.packet.applicationMsg.set 0 '1' }
    some [action]
  else some []

def flood (h : Host) (inc : Incoming) : Option (List Action) := do
  let action ← h.broadcast { inc.packet with hopCount := inc.packet.hopCount + 1 }
  some [action]

/-- The RREQ branch past its test for duplicates, at a node that is not the destination. -/
def rreqIntermediate (h : Host) (st : NodeState) (inc : Incoming) (seenSource : Bool)
    (originalHopsToSource : Int) (clock : Nat → Int) : Option (NodeState × List Action) := do
  let entry := st.table inc.destNode
  if checkAddressNotEmpty entry.nextHop = false ∨ entry.timestamp + h.staleTime < clock 2 then do
    let again ← flood h inc
    some (st, again)
  else if checkAddressNotEmpty entry.nextHop = true ∧ entry.timestamp + h.staleTime > clock 2 then
    if inc.forced = 0 then do
      let st := st.setEntry inc.destNode { entry with timestamp := clock 3 }
      if rrepAlreadySent inc.packet.applicationMsg ≠ 1 then do
        let rrep ← replyTo h st inc (inc.packet.applicationMsg.take 30)
        let again ← floodReplied h inc seenSource originalHopsToSource
        some (st, rrep :: again)
      else some (st, [])
    else if inc.forced = 1 then do
      let again ← flood h inc
      some (st, again)
    else some (st, [])
  else some (st, [])

/-- The same at the destination. -/
def rreqDestination (h : Host) (st : NodeState) (inc : Incoming) (seenSource : Bool)
    (originalHopsToSource : Int) : Option (NodeState × List Action) := do
  if rrepAlreadySent inc.packet.applicationMsg ≠ 1 then do
    let msg := inc.packet.applicationMsg.take 30
    let msg := if inc.forced = 1 then msg.set 1 '1' else msg
    let rrep ← replyTo h st inc msg
    let again ← floodReplied h inc seenSource originalHopsToSource
    some (st, rrep :: again)
  else some (st, [])

def onRreq (h : Host) (st : NodeState) (inc : Incoming) (clock : Nat → Int) :
    Option (NodeState × List Action) :=
  let entry := st.table inc.sourceNode
  let seenSource := checkAddressNotEmpty entry.nextHop
  let originalHopsToSource := entry.hopsToDest
  if inc.sourceNode = h.node then some (st, [])
  else
    let st := reversePath h st inc clock
    let entry := st.table inc.destNode
    if inc.id > entry.highestBroadcastId inc.sourceNode then
      let st := st.setEntry inc.destNode (entry.setHighest inc.sourceNode inc.id)
      if h.node ≠ inc.destNode then rreqIntermediate h st inc seenSource originalHopsToSource clock
      else rreqDestination h st inc seenSource originalHopsToSource
    else some (st, [])

/-- Whether an RREP updates the route to its source. -/
def updateForward (h : Host) (entry : RoutingEntry) (inc : Incoming) (currTime : Int) : Bool :=
  inc.forced = 1 ∨ inc.hopCount < entry.hopsToDest ∨ entry.timestamp + h.staleTime < currTime ∨
    checkAddressNotEmpty entry.nextHop = false

/-- The table write of the RREP branch. -/
def forwardPath (h : Host) (st : NodeState) (inc : Incoming) (clock : Nat → Int) : NodeState :=
  let entry := st.table inc.sourceNode
  if updateForward h entry inc (clock 0) then
    st.setEntry inc.sourceNode
      ((entry.learn inc.recvAddr inc.incomingInterface inc.hopCount (clock 1)).setHighest inc.sourceNode inc.id)
  else st

def onRrep (h : Host) (st : NodeState) (inc : Incoming) (clock : Nat → Int) :
    Option (NodeState × List Action) :=
  let st := forwardPath h st inc clock
  if inc.destNode = h.node then sendMessageFromBuffer h (fun i => clock (i + 2)) st
  else do
    let action ← h.sendAlong (st.table inc.destNode) { inc.packet with hopCount := inc.packet.hopCount + 1 }
    some (st, [action])

/-- An application message at its destination (a request goes to the
server, whose answer `reply` is buffered; a response goes to the client) or
on its way. -/
def acceptApplication (h : Host) (st : NodeState) (inc : Incoming) (reply : List Char) :
    Option (NodeState × List Action) := do
  let packet := inc.packet
  if inc.destNode = h.node then
    if packet.applicationMsg = "request time".toList then do
      let st ← st.bufferPacket (createPfPacket 2 packet.destinationIpAddr packet.destinationPort
        packet.sourceIpAddr packet.sourcePort 0 reply)
      some (st, [.toServer packet.sourceIpAddr packet.sourcePort packet.applicationMsg])
    else do
      let sunPath ← searchMap packet.destinationPort st.mapArray
      some (st, [.toClient packet.sourceIpAddr packet.sourcePort packet.applicationMsg inc.forced sunPath])
  else do
    let st ← st.bufferPacket { packet with hopCount := inc.hopCount }
    some (st, [])

/-- What is still buffered after an application message starts a forced
discovery of that message's destination. -/
def rediscover (h : Host) (st : NodeState) (inc : Incoming) : Option (NodeState × List Action) := do
  if st.numPacketsBuffered > 0 then do
    let st ← st.nextBroadcastId
    let action ← h.broadcast (createPfPacket 0 h.currentAddr st.sourcePort inc.packet.destinationIpAddr
      inc.packet.destinationPort 0 (rreqMsg 1 st.broadcastId))
    some (st, [action])
  else some (st, [])

def onApplication (h : Host) (st : NodeState) (inc : Incoming) (clock : Nat → Int) (reply : List Char) :
    Option (NodeState × List Action) := do
  let entry := st.table inc.sourceNode
  let st := st.setEntry inc.sourceNode
    (entry.learn inc.recvAddr inc.incomingInterface inc.hopCount (clock 0))
  let (st, accepted) ← acceptApplication h st inc reply
  let (st, sent) ← sendMessageFromBuffer h (fun i => clock (i + 1)) st
  let (st, rreq) ← rediscover h st inc
  some (st, accepted ++ sent ++ rreq)

def receivePacket (h : Host) (st : NodeState) (recvAddr : Mac) (incomingInterface : Int)
    (packet : Packet)
    (clock : Nat → Int) (reply : List Char) : Option (NodeState × List Action) := do
  let sourceNode ← h.getNodeByIp packet.sourceIpAddr
  let destNode ← h.getNodeByIp packet.destinationIpAddr
  let inc : Incoming := { recvAddr, incomingInterface, sourceNode, destNode, packet }
  if packet.type = 0 then onRreq h st inc clock
  else if packet.type = 1 then onRrep h st inc clock
  else onApplication h st inc clock reply

end Sockets.Odr
