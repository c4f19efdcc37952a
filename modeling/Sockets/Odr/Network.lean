/-
A network of nodes running the routing daemon over a static topology. A
frame that was ever put out may arrive at any node linked to the interface
it left by, at any time, any number of times or never; the clocks of the
nodes read anything.

The history of the network is the list of everything the nodes put out, each
with the packet it answers (none for a client's message).
-/
import Mathlib.Data.List.FinRange
import Sockets.Lib.Machine
import Sockets.Odr.Effects

namespace Sockets.Odr

/-- The hosts, their interfaces and the links between these. Every node
knows every name; no two interfaces have one address. -/
structure Topology where
  staleTime : Int
  getNodeByIp : String → Option Node
  localCanonicalIp : Node → String
  currentAddr : Node → String
  interfaces : Node → List Interface
  linked : Node → Int → Node → Int → Bool
  local_resolves : ∀ n, getNodeByIp (localCanonicalIp n) = some n
  current_resolves : ∀ n, getNodeByIp (currentAddr n) = some n
  empty_unresolved : getNodeByIp "" = none
  linked_symm : ∀ n i m j, linked n i m j = true → linked m j n i = true
  linked_ne : ∀ n i m j, linked n i m j = true → n ≠ m
  mac_inj : ∀ n m, ∀ f ∈ interfaces n, ∀ g ∈ interfaces m, f.macAddr = g.macAddr → n = m
  mac_ne_empty : ∀ n, ∀ f ∈ interfaces n, f.macAddr ≠ Mac.empty

def Topology.host (T : Topology) (n : Node) : Host where
  node := n
  localCanonicalIp := T.localCanonicalIp n
  currentAddr := T.currentAddr n
  interfaces := T.interfaces n
  staleTime := T.staleTime
  getNodeByIp := T.getNodeByIp

structure Frame where
  srcMac : Mac
  destMac : Mac
  packet : Packet

/-- What an action of `n` puts on the wire of its interface `i`. -/
def Topology.frame (T : Topology) (n : Node) (i : Int) : Action → Option Frame
  | .broadcast packet => ((T.host n).getMacAddrByInterfaceNum i).map fun srcMac =>
      { srcMac, destMac := Mac.broadcast, packet }
  | .send srcMac destMac ifIndex packet => if ifIndex = i then some { srcMac, destMac, packet } else none
  | .toServer .. | .toClient .. => none

/-- Whether interface `j` of `m` takes the frame. -/
def Topology.accepts (T : Topology) (m : Node) (j : Int) (frame : Frame) : Bool :=
  frame.destMac = Mac.broadcast ∨ (T.host m).getMacAddrByInterfaceNum j = some frame.destMac

/-- Something a node put out, and the packet it was processing. -/
structure Record where
  node : Node
  received : Option Packet
  action : Action
deriving DecidableEq

/-- What the receiving node makes of it at its interface `j`. -/
def Topology.incoming (T : Topology) (record : Record) (i j : Int) : Option Incoming := do
  let frame ← T.frame record.node i record.action
  let sourceNode ← T.getNodeByIp frame.packet.sourceIpAddr
  let destNode ← T.getNodeByIp frame.packet.destinationIpAddr
  some { recvAddr := frame.srcMac, incomingInterface := j, sourceNode, destNode, packet := frame.packet }

structure Network where
  nodes : Node → NodeState
  history : List Record

inductive NetworkEvent
  /-- a client of node `n` sends a message -/
  | client (n : Node) (message : ClientMessage) (clock : Nat → Int)
  /-- what `record` put on interface `i` arrives at interface `j` of node `m` -/
  | deliver (record : Record) (i : Int) (m : Node) (j : Int) (clock : Nat → Int) (reply : List Char)

/-- Node `n` is now in state `st`, having put out `actions`. -/
def Network.put (s : Network) (n : Node) (received : Option Packet) (st : NodeState)
    (actions : List Action) :
    Network where
  nodes := Function.update s.nodes n st
  history := s.history ++ actions.map fun action => { node := n, received, action }

def networkMachine (T : Topology) : Machine Network NetworkEvent where
  init := { nodes := fun _ => .start, history := [] }
  step s
    | .client n message clock =>
      (onClientMessage (T.host n) (s.nodes n) message clock).map fun (st, actions) =>
        s.put n none st actions
    | .deliver record i m j clock reply =>
      if record ∈ s.history ∧ T.linked record.node i m j = true then
        match T.frame record.node i record.action with
        | some frame =>
          if T.accepts m j frame then
            (receivePacket (T.host m) (s.nodes m) frame.srcMac j frame.packet clock reply).map
              fun (st, actions) => s.put m (some frame.packet) st actions
          else none
        | none => none
      else none

/-! ## One step -/

def Action.packet? : Action → Option Packet
  | .broadcast packet => some packet
  | .send _ _ _ packet => some packet
  | .toServer .. | .toClient .. => none

/-- The arrival of a frame: where it came from, and what it does at node `m`. -/
structure Delivery (T : Topology) (s s' : Network) (record : Record) (i : Int) (m : Node) (j : Int)
    (clock : Nat → Int) (reply : List Char) (inc : Incoming) (frame : Frame) (st : NodeState)
    (actions : List Action) : Prop where
  mem : record ∈ s.history
  linked : T.linked record.node i m j = true
  onWire : T.frame record.node i record.action = some frame
  incoming : T.incoming record i j = some inc
  packet : record.action.packet? = some inc.packet
  recvAddr : inc.recvAddr = frame.srcMac
  source : T.getNodeByIp inc.packet.sourceIpAddr = some inc.sourceNode
  dest : T.getNodeByIp inc.packet.destinationIpAddr = some inc.destNode
  spec : ReceiveSpec (T.host m) (s.nodes m) inc clock reply st actions
  state : s' = s.put m (some inc.packet) st actions

theorem frame_packet {T : Topology} {n : Node} {i : Int} {action : Action} {frame : Frame}
    (h : T.frame n i action = some frame) : action.packet? = some frame.packet := by
  cases action with
  | broadcast packet =>
    simp only [Topology.frame, Option.map_eq_some_iff] at h
    obtain ⟨srcMac, -, rfl⟩ := h
    rfl
  | send srcMac destMac ifIndex packet =>
    simp only [Topology.frame, Option.ite_none_right_eq_some, Option.some.injEq] at h
    obtain ⟨-, rfl⟩ := h
    rfl
  | toServer | toClient => cases h

theorem step_deliver {T : Topology} {s s' : Network} {record : Record} {i : Int} {m : Node} {j : Int}
    {clock : Nat → Int} {reply : List Char}
    (h : (networkMachine T).step s (.deliver record i m j clock reply) = some s') :
    ∃ inc frame st actions, Delivery T s s' record i m j clock reply inc frame st actions := by
  simp only [networkMachine] at h
  split at h
  next hmem =>
    split at h
    next frame hframe =>
      split at h
      · simp only [Option.map_eq_some_iff] at h
        obtain ⟨⟨st, actions⟩, hs, rfl⟩ := h
        obtain ⟨inc, hrecv, hin, hpacket, hsource, hdest, hspec⟩ := receivePacket_spec hs
        have hincoming : T.incoming record i j = some inc := by
          simp only [Topology.incoming, hframe, Option.bind_eq_bind, Option.bind_some]
          rw [show T.getNodeByIp _ = some inc.sourceNode from hsource,
            show T.getNodeByIp _ = some inc.destNode from hdest, ← hrecv, ← hin, ← hpacket]
          rfl
        rw [← hpacket] at hsource hdest
        exact ⟨inc, frame, st, actions, {
          mem := hmem.1
          linked := hmem.2
          onWire := hframe
          incoming := hincoming
          packet := by rw [frame_packet hframe, hpacket]
          recvAddr := hrecv
          source := hsource
          dest := hdest
          spec := hspec
          state := by rw [hpacket] }⟩
      · cases h
    · cases h
  · cases h

/-- A frame that arrives is meant for the interface it arrives at, and is received there. -/
theorem step_deliver_receive {T : Topology} {s s' : Network} {record : Record} {i : Int} {m : Node} {j : Int}
    {clock : Nat → Int} {reply : List Char}
    (h : (networkMachine T).step s (.deliver record i m j clock reply) = some s') :
    ∃ frame st actions, T.frame record.node i record.action = some frame ∧ T.accepts m j frame = true ∧
      receivePacket (T.host m) (s.nodes m) frame.srcMac j frame.packet clock reply = some (st, actions) ∧
      s' = s.put m (some frame.packet) st actions := by
  simp only [networkMachine] at h
  split at h
  · split at h
    next frame hframe =>
      split at h
      next haccepts =>
        simp only [Option.map_eq_some_iff] at h
        obtain ⟨⟨st, actions⟩, hs, rfl⟩ := h
        exact ⟨frame, st, actions, hframe, haccepts, hs, rfl⟩
      · cases h
    · cases h
  · cases h

theorem step_client {T : Topology} {s s' : Network} {n : Node} {message : ClientMessage}
    {clock : Nat → Int} (h : (networkMachine T).step s (.client n message clock) = some s') :
    ∃ st actions, onClientMessage (T.host n) (s.nodes n) message clock = some (st, actions) ∧
      s' = s.put n none st actions := by
  simp only [networkMachine, Option.map_eq_some_iff] at h
  obtain ⟨⟨st, actions⟩, hs, rfl⟩ := h
  exact ⟨st, actions, hs, rfl⟩

theorem mem_put_history {s : Network} {n : Node} {received : Option Packet} {st : NodeState}
    {actions : List Action} {record : Record} (h : record ∈ (s.put n received st actions).history) :
    record ∈ s.history ∨ (record.node = n ∧ record.received = received ∧ record.action ∈ actions) := by
  simp only [Network.put, List.mem_append, List.mem_map] at h
  rcases h with h | ⟨action, ha, rfl⟩
  · exact .inl h
  · exact .inr ⟨rfl, rfl, ha⟩

theorem put_nodes (s : Network) (n : Node) (received : Option Packet) (st : NodeState)
    (actions : List Action)
    (x : Node) : (s.put n received st actions).nodes x = if x = n then st else s.nodes x :=
  Function.update_apply _ _ _ _

theorem bufferable_true (h : Host) (inc : Incoming) (reply : List Char) :
    Bufferable h inc reply fun _ => True where
  htonl _ _ := trivial
  forward _ _ _ := trivial
  reply _ _ _ := trivial

/-! ## The types of packets -/

/-- The type of an application message, or the same with its bytes turned round. -/
def IsApplication (type : Int) : Prop := type = 2 ∨ type = 33554432

/-- A slot of the buffer is blank or holds an application message. -/
def SlotTyped (packet : Packet) : Prop := packet.destinationIpAddr = "" ∨ IsApplication packet.type

structure TypedInv (s : Network) : Prop where
  slots : ∀ n i, SlotTyped ((s.nodes n).sendBuffer i)
  history : ∀ record ∈ s.history, ∀ packet ∈ record.action.packet?,
    packet.type = 0 ∨ packet.type = 1 ∨ IsApplication packet.type

theorem slotTyped_htonl : HtonlClosed SlotTyped := by
  rintro packet (he | he | he)
  · exact .inl he
  · refine .inr (.inr ?_)
    simp only [Packet.htonl, he]
    decide
  · refine .inr (.inl ?_)
    simp only [Packet.htonl, he]
    decide

section Typed

variable {T : Topology} {s s' : Network} {n : Node} {st₀ st : NodeState} {clock : Nat → Int}
  {P : Packet → Prop} {inc : Option Incoming} {action : Action} {packet : Packet}

theorem sendAlong_packet? {h : Host} {entry : RoutingEntry}
    (hs : h.sendAlong entry packet = some action) :
    action.packet? = some packet := by
  obtain ⟨_, _, rfl⟩ := sendAlong_eq_some hs
  rfl

/-- What leaves the buffer is an application message. -/
theorem SlotTyped.sent (hs : SlotTyped packet) {destNode : Node}
    (hdest : T.getNodeByIp packet.destinationIpAddr = some destNode) : IsApplication packet.type := by
  cases hs with
  | inl he =>
    rw [he, T.empty_unresolved] at hdest
    cases hdest
  | inr h => exact h

theorem Emitted.typed (he : Emitted (T.host n) st₀ st clock SlotTyped inc action)
    (hp : packet ∈ action.packet?) :
    packet.type = 0 ∨ packet.type = 1 ∨ IsApplication packet.type := by
  cases he with
  | originate _ htype =>
    cases hp
    exact .inl htype
  | flood htype =>
    cases hp
    exact .inl htype
  | reply _ _ _ _ hsend =>
    rw [sendAlong_packet? hsend] at hp
    cases hp
    exact .inr (.inl rfl)
  | relay htype hsend =>
    rw [sendAlong_packet? hsend] at hp
    cases hp
    exact .inr (.inl htype)
  | buffered hslot hdest _ hsend =>
    rw [sendAlong_packet? hsend] at hp
    cases hp
    exact .inr (.inr (hslot.sent hdest))
  | toServer | toClient => cases hp

theorem TypedInv.start : TypedInv (networkMachine T).init where
  slots _ _ := .inl rfl
  history := by simp [networkMachine]

theorem TypedInv.put (hs : TypedInv s) {received : Option Packet} {actions : List Action}
    (hpackets : (∀ i, SlotTyped (st.sendBuffer i)) ∧
      ∀ action ∈ actions, Emitted (T.host n) st₀ st clock SlotTyped inc action) :
    TypedInv (s.put n received st actions) where
  slots x i := by
    rw [put_nodes]
    split
    · exact hpackets.1 i
    · exact hs.slots x i
  history record hm packet hp := by
    rcases mem_put_history hm with hm | ⟨-, -, ha⟩
    · exact hs.history record hm packet hp
    · exact (hpackets.2 _ ha).typed hp

/-- The packet that arrives is one of the history. -/
theorem Delivery.typed {record : Record} {i : Int} {m : Node} {j : Int} {reply : List Char}
    {inc : Incoming} {frame : Frame} {actions : List Action} (hs : TypedInv s)
    (hd : Delivery T s s' record i m j clock reply inc frame st actions) :
    Bufferable (T.host m) inc reply SlotTyped where
  htonl := slotTyped_htonl
  forward h₀ h₁ _ := by
    rcases hs.history record hd.mem inc.packet hd.packet with h | h | h
    · exact absurd h h₀
    · exact absurd h h₁
    · exact .inr h
  reply _ _ _ := .inr (.inl rfl)

theorem TypedInv.step (hs : TypedInv s) {e : NetworkEvent} (h : (networkMachine T).step s e = some s') :
    TypedInv s' := by
  cases e with
  | client n message clock =>
    obtain ⟨st, actions, hm, rfl⟩ := step_client h
    obtain ⟨dest, -, -, -, -, hpackets⟩ := onClientMessage_spec hm
    exact hs.put (hpackets SlotTyped slotTyped_htonl (.inr (.inl rfl)) (hs.slots n))
  | deliver record i m j clock reply =>
    obtain ⟨inc, frame, st, actions, hd⟩ := step_deliver h
    rw [hd.state]
    exact hs.put (hd.spec.packets SlotTyped (hd.typed hs) (hs.slots m))

end Typed

/-! ## Nodes in a line -/

/-- The address of a node in the line. -/
def lineIp (n : Node) : String := String.ofList ("10.0.0.".toList ++ Nat.toDigits 10 n.val)

def lineMac (n : Node) (interfaceNum : UInt8) : Mac :=
  #v[2, 0, 0, 0, n.val.toUInt8, 2 * interfaceNum + 1]

/-- Nodes in a line: interface 1 of each leads to the one before it,
interface 2 to the one after it. -/
def lineTopology : Topology where
  staleTime := 10
  getNodeByIp ip := (List.finRange 11).find? fun n => lineIp n = ip
  localCanonicalIp := lineIp
  currentAddr := lineIp
  interfaces n :=
    [{ macAddr := lineMac n 1, interfaceNum := 1 }, { macAddr := lineMac n 2, interfaceNum := 2 }]
  linked n i m j :=
    decide (i = 2 ∧ j = 1 ∧ n.val + 1 = m.val) || decide (i = 1 ∧ j = 2 ∧ m.val + 1 = n.val)
  local_resolves := by decide +kernel
  current_resolves := by decide +kernel
  empty_unresolved := by decide +kernel
  linked_symm n i m j h := by
    simp only [Bool.or_eq_true, decide_eq_true_eq] at h ⊢
    omega
  linked_ne n i m j h := by
    simp only [Bool.or_eq_true, decide_eq_true_eq] at h
    rintro rfl
    omega
  mac_inj := by decide +kernel
  mac_ne_empty := by decide +kernel

def lineRequest (dest : Node) : ClientMessage where
  sunPath := "/tmp/client"
  destinationAddr := lineIp dest
  destinationPort := 5678
  flag := 0
  msg := "request time".toList

/-- The first RREQ of a node, and an RREP to it, after some hops. -/
def rreqPacket (source dest : Node) (hopCount : Int) : Packet :=
  createPfPacket 0 (lineIp source) 1 (lineIp dest) 5678 hopCount (rreqMsg 0 1)

def rrepPacket (source dest : Node) (hopCount : Int) : Packet :=
  createPfPacket 1 (lineIp source) 5678 (lineIp dest) 1 hopCount (rreqMsg 0 1)

/-- A node starts a discovery. -/
def lineRreq (source dest : Node) : Record where
  node := source
  received := none
  action := .broadcast (rreqPacket source dest 0)

/-- A node answers or passes on an RREP, to the node before it in the line. -/
def lineReply (node before : Node) (received rrep : Packet) : Record where
  node := node
  received := some received
  action := .send (lineMac node 1) (lineMac before 2) 1 rrep

/-- A node answers for itself the RREQ of the node before it. -/
def lineRrep (node before : Node) : Record :=
  lineReply node before (rreqPacket before node 0) (rrepPacket node before 0)

/-- Node 1 asks its neighbour, node 2, which answers. -/
def askNeighbour : List NetworkEvent :=
  [.client 1 (lineRequest 2) fun _ => 0, .deliver (lineRreq 1 2) 2 2 1 (fun _ => 0) [],
   .deliver (lineRrep 2 1) 1 1 2 (fun _ => 0) []]

end Sockets.Odr
