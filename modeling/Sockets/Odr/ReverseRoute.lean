/-
Reverse routes. An RREQ starts with hop count 0 at the node that asks, and
each of the branches that broadcast it again adds one, whatever else they
rewrite; so the count is that of the links it has crossed
(`Topology.Crossed`), and the node it came from is that many links from the
node that asks. A node that installs the route back adds the last link.
-/
import Sockets.Odr.HopCount
import Sockets.Odr.LoopFreedom
import Sockets.Odr.ReversePath

namespace Sockets.Odr

/-- What a record has put out for `source` had crossed so many links before: none, when
`source` put it out and not in answer to an RREQ; one more than what it answers, otherwise. -/
inductive Topology.Crossed (T : Topology) (s : Network) (source : Node) : Record → Nat → Prop
  | origin {record : Record} (hm : record ∈ s.history) (hnode : record.node = source)
      (hown : ∀ received ∈ record.received, received.type ≠ 0) : Crossed T s source record 0
  | again {before record : Record} {i j : Int} {frame : Frame} {links : Nat}
      (hbefore : Crossed T s source before links) (hm : record ∈ s.history)
      (hlinked : T.linked before.node i record.node j = true)
      (hframe : T.frame before.node i before.action = some frame) (htype : frame.packet.type = 0)
      (hreceived : record.received = some frame.packet) : Crossed T s source record (links + 1)

/-- The hop count of every RREQ put out so far is the number of links it had crossed. -/
def HopsCounted (T : Topology) (s : Network) : Prop :=
  ∀ record ∈ s.history, ∀ packet ∈ record.action.packet?, packet.type = 0 →
    ∀ source, T.getNodeByIp packet.sourceIpAddr = some source →
      (record.node = source → packet.hopCount = 0) ∧ (∃ links, T.Crossed s source record links) ∧
        ∀ links, T.Crossed s source record links → packet.hopCount = links

/-- The entry goes by the sender of the frame, over the interface the frame came in on, and
counts the links of a walk that starts there. -/
structure ReverseRoute (T : Topology) (record : Record) (frame : Frame) (m : Node) (j : Int)
    (source : Node) (entry : RoutingEntry) : Prop where
  nextHop : entry.nextHop = frame.srcMac
  neighbour : T.Owns record.node frame.srcMac
  outInterface : entry.outInterface = j
  walk : ∃ (hadj : T.graph.Adj m record.node) (walk : T.graph.Walk record.node source),
    entry.hopsToDest = (SimpleGraph.Walk.cons hadj walk).length

/-- If the step installs a route from an RREQ, it is a reverse route. -/
def ReverseInstall (T : Topology) (s : Network) (e : NetworkEvent) (s' : Network) : Prop :=
  match e with
  | .client .. => True
  | .deliver record i m j clock _ => ∀ frame ∈ T.frame record.node i record.action,
      ∀ inc ∈ T.incoming record i j, inc.packet.type = 0 → inc.sourceNode ≠ m →
        updateReverse (T.host m) ((s.nodes m).table inc.sourceNode) inc (clock 0) = true →
          ReverseRoute T record frame m j inc.sourceNode ((s'.nodes m).table inc.sourceNode)

/-- Why an RREQ was put out: the node's own, or one it received, one hop on. -/
def RreqRecord (T : Topology) (n : Node) (received : Option Packet) (packet : Packet) : Prop :=
  ((∀ before ∈ received, before.type ≠ 0) ∧ packet.hopCount = 0 ∧
    T.getNodeByIp packet.sourceIpAddr = some n) ∨
  ∃ before ∈ received, before.type = 0 ∧ packet.hopCount = before.hopCount + 1 ∧
    packet.sourceIpAddr = before.sourceIpAddr ∧ T.getNodeByIp packet.sourceIpAddr ≠ some n

structure RreqInv (T : Topology) (s : Network) : Prop where
  typed : TypedInv s
  frames : ∀ record ∈ s.history, OwnFrames T record.node record.action
  records : ∀ record ∈ s.history, ∀ packet ∈ record.action.packet?, packet.type = 0 →
    RreqRecord T record.node record.received packet
  crossed : ∀ record ∈ s.history, ∀ packet ∈ record.action.packet?, packet.type = 0 →
    ∀ source, T.getNodeByIp packet.sourceIpAddr = some source → ∃ links, T.Crossed s source record links

variable {T : Topology} {s s' : Network} {source n m : Node} {record : Record} {links : Nat}

theorem Topology.Crossed.mono (hc : T.Crossed s source record links) (hsub : s.history ⊆ s'.history) :
    T.Crossed s' source record links := by
  induction hc with
  | origin hm hnode hown => exact .origin (hsub hm) hnode hown
  | again _ hm hlinked hframe htype hreceived ih => exact .again ih (hsub hm) hlinked hframe htype hreceived

/-- The links crossed are those of a walk back. -/
theorem Topology.Crossed.walk (hc : T.Crossed s source record links) :
    ∃ walk : T.graph.Walk record.node source, walk.length = links := by
  induction hc with
  | origin _ hnode => exact hnode ▸ ⟨.nil, rfl⟩
  | @again before record i j _ _ _ _ hlinked _ _ _ ih =>
    obtain ⟨walk, hlen⟩ := ih
    have hadj : T.graph.Adj record.node before.node := ⟨j, i, T.linked_symm _ _ _ _ hlinked⟩
    exact ⟨.cons hadj walk, by rw [SimpleGraph.Walk.length_cons, hlen]⟩

/-- However the links are counted, the hop count is what comes out. -/
theorem RreqInv.hopCount (hs : RreqInv T s) (hc : T.Crossed s source record links) :
    ∀ packet ∈ record.action.packet?, packet.type = 0 → packet.hopCount = links := by
  induction hc with
  | origin hm _ hown =>
    intro packet hp htype
    rcases hs.records _ hm packet hp htype with ⟨-, hz, -⟩ | ⟨before, hbefore, htype', -⟩
    · exact hz
    · exact absurd htype' (hown before hbefore)
  | again _ hm _ hframe htype' hreceived ih =>
    intro packet hp htype
    rcases hs.records _ hm packet hp htype with ⟨hown, -⟩ | ⟨before, hbefore, -, hnext, -⟩
    · exact absurd htype' (hown _ hreceived)
    · cases hbefore.symm.trans hreceived
      rw [hnext, ih _ (frame_packet hframe) htype']
      rfl

theorem RreqInv.hopsCounted (hs : RreqInv T s) : HopsCounted T s := by
  intro record hm packet hp htype source hsource
  refine ⟨?_, hs.crossed record hm packet hp htype source hsource, ?_⟩
  · rintro rfl
    rcases hs.records record hm packet hp htype with ⟨-, hz, -⟩ | ⟨-, -, -, -, -, hforeign⟩
    · exact hz
    · exact absurd hsource hforeign
  · intro links hc
    exact hs.hopCount hc packet hp htype

/-- Only its own discoveries, and RREQs that came in from other nodes, leave a node as RREQs. -/
theorem Emitted.rreq {st₀ st : NodeState} {clock : Nat → Int} {inc : Option Incoming} {action : Action}
    {packet : Packet} (hinc : ∀ i ∈ inc, T.getNodeByIp i.packet.sourceIpAddr = some i.sourceNode)
    (he : Emitted (T.host n) st₀ st clock SlotTyped inc action) (hp : packet ∈ action.packet?)
    (htype : packet.type = 0) : RreqRecord T n (inc.map (·.packet)) packet := by
  cases he with
  | originate htrigger _ hhops hsource =>
    left
    cases hp
    refine ⟨by simpa using htrigger, hhops, ?_⟩
    rcases hsource with he | he <;> rw [he]
    · exact T.local_resolves n
    · exact T.current_resolves n
  | @flood i _ htype' _ hforeign =>
    right
    cases hp
    refine ⟨i.packet, rfl, htype', rfl, rfl, ?_⟩
    intro hn
    exact hforeign (Option.some.inj ((hinc i rfl).symm.trans hn))
  | reply _ _ _ _ hsend =>
    rw [sendAlong_packet? hsend] at hp
    cases hp
    cases htype
  | relay htype' hsend =>
    rw [sendAlong_packet? hsend] at hp
    cases hp
    dsimp only at htype
    omega
  | buffered hslot hdest _ hsend =>
    rw [sendAlong_packet? hsend] at hp
    cases hp
    rcases hslot.sent hdest with h | h <;> omega
  | toServer | toClient => cases hp

/-! ## Steps -/

theorem RreqInv.start : RreqInv T (networkMachine T).init where
  typed := .start
  frames := by simp [networkMachine]
  records := by simp [networkMachine]
  crossed := by simp [networkMachine]

theorem put_history_subset (s : Network) (n : Node) (received : Option Packet) (st : NodeState)
    (actions : List Action) : s.history ⊆ (s.put n received st actions).history :=
  List.subset_append_left _ _

/-- What a step puts out, when what it answers has crossed the links it counts. -/
theorem RreqInv.put (hs : RreqInv T s) (inc : Option Incoming) {clock : Nat → Int} {st : NodeState}
    {actions : List Action} (htyped : TypedInv (s.put m (inc.map (·.packet)) st actions))
    (hinc : ∀ i ∈ inc, T.getNodeByIp i.packet.sourceIpAddr = some i.sourceNode)
    (hbefore : ∀ i ∈ inc, i.packet.type = 0 → ∃ before links, T.Crossed s i.sourceNode before links ∧
      ∃ k j frame, T.linked before.node k m j = true ∧ T.frame before.node k before.action = some frame ∧
        frame.packet = i.packet)
    (hemitted : ∀ action ∈ actions, Emitted (T.host m) (s.nodes m) st clock SlotTyped inc action) :
    RreqInv T (s.put m (inc.map (·.packet)) st actions) where
  typed := htyped
  frames := by
    intro record hm
    rcases mem_put_history hm with hm | ⟨hn, -, ha⟩
    · exact hs.frames record hm
    · exact hn ▸ (hemitted _ ha).ownFrames
  records := by
    intro record hm packet hp htype
    rcases mem_put_history hm with hm | ⟨hn, hreceived, ha⟩
    · exact hs.records record hm packet hp htype
    · rw [hn, hreceived]
      exact (hemitted _ ha).rreq hinc hp htype
  crossed := by
    intro record hm packet hp htype source hsource
    have hsub := put_history_subset s m (inc.map (·.packet)) st actions
    rcases mem_put_history hm with hold | ⟨rfl, hreceived, ha⟩
    · obtain ⟨links, hc⟩ := hs.crossed record hold packet hp htype source hsource
      exact ⟨links, hc.mono hsub⟩
    · rcases (hemitted _ ha).rreq hinc hp htype with
        ⟨hown, -, hnode⟩ | ⟨before, hb, htype', -, haddr, -⟩
      · exact ⟨0, .origin hm (Option.some.inj (hnode.symm.trans hsource)) (hreceived ▸ hown)⟩
      · cases inc with
        | none => cases hb
        | some inc =>
          cases hb
          obtain ⟨before, links, hc, k, j, frame, hlinked, hframe, hpacket⟩ := hbefore inc rfl htype'
          rw [haddr] at hsource
          cases (hinc inc rfl).symm.trans hsource
          refine ⟨links + 1, .again (hc.mono hsub) hm hlinked hframe (hpacket ▸ htype') ?_⟩
          rw [hreceived, hpacket]
          rfl

section Deliver

variable {i j : Int} {clock : Nat → Int} {reply : List Char} {inc : Incoming} {frame : Frame}
  {st : NodeState} {actions : List Action}

/-- An RREQ that arrives has crossed the links it counts. -/
theorem RreqInv.arrives (hs : RreqInv T s)
    (hd : Delivery T s s' record i m j clock reply inc frame st actions) (htype : inc.packet.type = 0) :
    ∃ links, T.Crossed s inc.sourceNode record links ∧ inc.packet.hopCount = links := by
  obtain ⟨links, hc⟩ := hs.crossed record hd.mem inc.packet hd.packet htype inc.sourceNode hd.source
  exact ⟨links, hc, hs.hopCount hc inc.packet hd.packet htype⟩

theorem Delivery.frame_packet (hd : Delivery T s s' record i m j clock reply inc frame st actions) :
    frame.packet = inc.packet :=
  Option.some.inj ((Odr.frame_packet hd.onWire).symm.trans hd.packet)

theorem Delivery.inc_eq (hd : Delivery T s s' record i m j clock reply inc frame st actions) :
    inc = {
      recvAddr := frame.srcMac, incomingInterface := j, sourceNode := inc.sourceNode
      destNode := inc.destNode, packet := frame.packet } := by
  have hincoming := hd.incoming
  simp only [Topology.incoming, hd.onWire, hd.frame_packet, hd.source, hd.dest, Option.bind_eq_bind,
    Option.bind_some, Option.some.injEq] at hincoming
  rw [hd.frame_packet]
  exact hincoming.symm

/-- An RREQ that arrives is handed to the RREQ branch. -/
theorem Delivery.onRreq (hd : Delivery T s s' record i m j clock reply inc frame st actions)
    (htype : inc.packet.type = 0) :
    receivePacket (T.host m) (s.nodes m) frame.srcMac j frame.packet clock reply =
      onRreq (T.host m) (s.nodes m) inc clock := by
  have hsource : (T.host m).getNodeByIp frame.packet.sourceIpAddr = some inc.sourceNode :=
    hd.frame_packet ▸ hd.source
  have hdest : (T.host m).getNodeByIp frame.packet.destinationIpAddr = some inc.destNode :=
    hd.frame_packet ▸ hd.dest
  have htype' : frame.packet.type = 0 := hd.frame_packet ▸ htype
  rw [hd.inc_eq]
  simp only [receivePacket, hsource, hdest, htype', if_true, Option.bind_eq_bind, Option.bind_some]

theorem RreqInv.reverseInstall (hs : RreqInv T s)
    (h : (networkMachine T).step s (.deliver record i m j clock reply) = some s') :
    ReverseInstall T s (.deliver record i m j clock reply) s' := by
  obtain ⟨inc, frame, st, actions, hd⟩ := step_deliver h
  obtain ⟨frame', st', actions', hframe', -, hreceive, hstate⟩ := step_deliver_receive h
  cases hd.onWire.symm.trans hframe'
  intro frame' hframe' inc' hinc' htype hforeign hupdate
  cases hd.onWire.symm.trans hframe'
  cases hd.incoming.symm.trans hinc'
  obtain ⟨links, hc, hhops⟩ := hs.arrives hd htype
  obtain ⟨walk, hlen⟩ := hc.walk
  have hadj : T.graph.Adj m record.node := ⟨j, i, T.linked_symm _ _ _ _ hd.linked⟩
  have hinterface : inc.incomingInterface = j := congrArg Incoming.incomingInterface hd.inc_eq
  rw [hd.onRreq htype] at hreceive
  have hentry : (s'.nodes m).table inc.sourceNode =
      (reversePath (T.host m) (s.nodes m) inc clock).table inc.sourceNode := by
    rw [hstate, put_nodes, if_pos rfl, onRreq_route htype hforeign hreceive]
  rw [hentry, reversePath_table, if_pos rfl]
  simp only [hupdate, if_true]
  exact {
    nextHop := hd.recvAddr
    neighbour := hs.frames record hd.mem i frame hd.onWire
    outInterface := hinterface
    walk := by
      refine ⟨hadj, walk, ?_⟩
      rw [SimpleGraph.Walk.length_cons, hlen]
      simp only [RoutingEntry.learn, Incoming.hopCount, hhops]
      rfl }

end Deliver

theorem RreqInv.step (hs : RreqInv T s) {e : NetworkEvent} (h : (networkMachine T).step s e = some s') :
    RreqInv T s' := by
  have htyped : TypedInv s' := hs.typed.step h
  cases e with
  | client n message clock =>
    obtain ⟨st, actions, hm, rfl⟩ := step_client h
    obtain ⟨dest, -, -, -, -, hpackets⟩ := onClientMessage_spec hm
    exact hs.put none htyped (by simp) (by simp)
      (hpackets SlotTyped slotTyped_htonl (.inr (.inl rfl)) (hs.typed.slots n)).2
  | deliver record i m j clock reply =>
    obtain ⟨inc, frame, st, actions, hd⟩ := step_deliver h
    have hsent := (hd.spec.packets SlotTyped (hd.typed hs.typed) (hs.typed.slots m)).2
    rw [hd.state] at htyped ⊢
    refine hs.put (some inc) htyped ?_ ?_ hsent
    · intro inc' hinc'
      cases hinc'
      exact hd.source
    · intro inc' hinc' htype
      cases hinc'
      obtain ⟨links, hc, -⟩ := hs.arrives hd htype
      exact ⟨record, links, hc, i, j, frame, hd.linked, hd.onWire, hd.frame_packet⟩

/-- **Reverse routes are sound.** Along every run of a network, the hop count of every RREQ
under way is the number of links it had crossed when it was last put out, none if it was put
out by the node that asks; and every route installed from one goes by the neighbour and the
interface it came by, and counts the links of a walk that starts with that neighbour. -/
theorem reverseRoutes_along (T : Topology) (es : List NetworkEvent) :
    (networkMachine T).Along (fun s e s' => HopsCounted T s' ∧ ReverseInstall T s e s')
      (networkMachine T).init es := by
  refine Machine.Along.of_step (I := RreqInv T) ?_ .start
  intro s e s' hs h
  have hs' : RreqInv T s' := hs.step h
  refine ⟨⟨hs'.hopsCounted, ?_⟩, hs'⟩
  cases e with
  | client => trivial
  | deliver => exact hs.reverseInstall h

end Sockets.Odr
