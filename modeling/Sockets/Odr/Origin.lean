/-
Where application messages come from. Whatever is lost, duplicated, delayed
or reordered, and however packets were buffered and routed on their way: what
a node hands to its server or to a client was sent by a client of the node it
names as its source, to this node, or is the answer of the server there to
such a message from here (`handed_of_history`).

The ports do not take part in this. A packet that is sent from the buffer is
turned to network order in the buffer itself, and the loop that sends may
come to such a slot again.
-/
import Sockets.Odr.Network

namespace Sockets.Odr

def requestTime : List Char := "request time".toList

/-- The application messages of a run: those of its clients, and the servers' answers to those that
ask for the time. -/
inductive Origin (T : Topology) (es : List NetworkEvent) : Packet → Prop
  | client {n message clock} {packet : Packet} (hm : NetworkEvent.client n message clock ∈ es)
      (hsource : packet.sourceIpAddr = T.currentAddr n)
      (hdest : packet.destinationIpAddr = message.destinationAddr)
      (hmsg : packet.applicationMsg = message.msg) : Origin T es packet
  | server {record i m j clock reply} {request packet : Packet}
      (hm : NetworkEvent.deliver record i m j clock reply ∈ es)
      (hreceived : record.action.packet? = some request) (hrequest : Origin T es request)
      (htext : request.applicationMsg = requestTime) (hhere : T.getNodeByIp request.destinationIpAddr = some m)
      (hsource : packet.sourceIpAddr = request.destinationIpAddr)
      (hdest : packet.destinationIpAddr = request.sourceIpAddr)
      (hmsg : packet.applicationMsg = reply) : Origin T es packet

/-- A client of the node with address `sourceIpAddr` sent this text to node `m`; or the server there
answered with it to a message of the run that came from `m` and asked for the time. -/
def SentTo (T : Topology) (es : List NetworkEvent) (m : Node) (sourceIpAddr : String) (msg : List Char) : Prop :=
  (∃ n message clock, NetworkEvent.client n message clock ∈ es ∧ T.currentAddr n = sourceIpAddr ∧
    T.getNodeByIp message.destinationAddr = some m ∧ message.msg = msg) ∨
  ∃ record i n j clock request, NetworkEvent.deliver record i n j clock msg ∈ es ∧
    record.action.packet? = some request ∧ Origin T es request ∧ request.applicationMsg = requestTime ∧
    T.getNodeByIp sourceIpAddr = some n ∧ request.destinationIpAddr = sourceIpAddr ∧
    T.getNodeByIp request.sourceIpAddr = some m

/-- What node `m` hands over, if it does, was sent to it: what asks for the time to its server, the rest to
a client. -/
def Handed (T : Topology) (es : List NetworkEvent) (m : Node) : Action → Prop
  | .toServer sourceIpAddr _ msg => SentTo T es m sourceIpAddr msg ∧ msg = requestTime
  | .toClient sourceIpAddr _ msg _ _ => SentTo T es m sourceIpAddr msg ∧ msg ≠ requestTime
  | .broadcast _ | .send .. => True

variable {T : Topology} {es : List NetworkEvent}

/-- The origin of a packet is that of its addresses and its text. -/
theorem Origin.congr {packet packet' : Packet} (h : Origin T es packet)
    (hsource : packet'.sourceIpAddr = packet.sourceIpAddr)
    (hdest : packet'.destinationIpAddr = packet.destinationIpAddr)
    (hmsg : packet'.applicationMsg = packet.applicationMsg) : Origin T es packet' := by
  cases h with
  | client hm hsource' hdest' hmsg' =>
    exact .client hm (hsource.trans hsource') (hdest.trans hdest') (hmsg.trans hmsg')
  | server hm hreceived hrequest htext hhere hsource' hdest' hmsg' =>
    exact .server hm hreceived hrequest htext hhere (hsource.trans hsource') (hdest.trans hdest')
      (hmsg.trans hmsg')

/-- A slot of the buffer is blank or holds an application message of the run. -/
def SlotOrigin (T : Topology) (es : List NetworkEvent) (packet : Packet) : Prop :=
  packet.destinationIpAddr = "" ∨ Origin T es packet

theorem slotOrigin_htonl : HtonlClosed (SlotOrigin T es) := by
  intro packet h
  rcases h with h | h
  · exact .inl h
  · exact .inr (h.congr rfl rfl rfl)

theorem SlotOrigin.sent {packet : Packet} (h : SlotOrigin T es packet) {destNode : Node}
    (hdest : T.getNodeByIp packet.destinationIpAddr = some destNode) : Origin T es packet := by
  rcases h with he | h
  · rw [he, T.empty_unresolved] at hdest
    cases hdest
  · exact h

/-! ## What is not handed over -/

section Packets

variable {h : Host} {st st' : NodeState} {inc : Incoming} {clock : Nat → Int} {actions : List Action}
  {reply : List Char}

/-- All that is put out are packets. -/
def AllPackets (actions : List Action) : Prop := ∀ action ∈ actions, action.packet?.isSome = true

theorem allPackets_sendAlong {entry : RoutingEntry} {packet : Packet} {action : Action}
    (hs : h.sendAlong entry packet = some action) : AllPackets [action] := by
  intro a ha
  rw [List.mem_singleton.mp ha, sendAlong_packet? hs]
  rfl

theorem allPackets_broadcast {packet : Packet} {action : Action} (hs : h.broadcast packet = some action) :
    AllPackets [action] := by
  intro a ha
  rw [List.mem_singleton.mp ha, broadcast_eq_some hs]
  rfl

theorem AllPackets.nil : AllPackets [] := by simp [AllPackets]

theorem AllPackets.append {more : List Action} (hs : AllPackets actions) (hmore : AllPackets more) :
    AllPackets (actions ++ more) := by
  intro action ha
  rcases List.mem_append.mp ha with ha | ha
  · exact hs action ha
  · exact hmore action ha

theorem FlushSpec.allPackets (hf : FlushSpec h st st' actions) : AllPackets actions := by
  intro action ha
  obtain ⟨packet, destNode, -, -, -, hs⟩ := hf.sent (fun _ => True) (fun _ _ => trivial) (fun _ => trivial) action ha
  rw [sendAlong_packet? hs]
  rfl

theorem allPackets_flood (hs : flood h inc = some actions) : AllPackets actions := by
  simp only [flood, Option.bind_eq_bind, Option.bind_eq_some_iff, Option.some.injEq] at hs
  obtain ⟨action, hb, rfl⟩ := hs
  exact allPackets_broadcast hb

theorem allPackets_floodReplied {seenSource : Bool} {originalHops : Int}
    (hs : floodReplied h inc seenSource originalHops = some actions) : AllPackets actions := by
  unfold floodReplied at hs
  split at hs
  · simp only [Option.bind_eq_bind, Option.bind_eq_some_iff, Option.some.injEq] at hs
    obtain ⟨action, hb, rfl⟩ := hs
    exact allPackets_broadcast hb
  · simp only [Option.some.injEq] at hs
    exact hs ▸ .nil

/-- An RREP, and perhaps the RREQ again. -/
theorem allPackets_reply {seenSource : Bool} {originalHops : Int} {msg : List Char} {rrep : Action}
    {again : List Action} (hrrep : replyTo h st inc msg = some rrep)
    (hs : floodReplied h inc seenSource originalHops = some again) : AllPackets (rrep :: again) :=
  (allPackets_sendAlong hrrep).append (allPackets_floodReplied hs)

theorem allPackets_rreqIntermediate {seenSource : Bool} {originalHops : Int}
    (hs : rreqIntermediate h st inc seenSource originalHops clock = some (st', actions)) : AllPackets actions := by
  simp only [rreqIntermediate, Option.bind_eq_bind] at hs
  split at hs
  · simp only [Option.bind_eq_some_iff, Option.some.injEq, Prod.mk.injEq] at hs
    obtain ⟨again, hagain, -, rfl⟩ := hs
    exact allPackets_flood hagain
  split at hs
  · split at hs
    · split at hs
      · simp only [Option.bind_eq_some_iff, Option.some.injEq, Prod.mk.injEq] at hs
        obtain ⟨rrep, hrrep, again, hagain, -, rfl⟩ := hs
        exact allPackets_reply hrrep hagain
      · simp only [Option.some.injEq, Prod.mk.injEq] at hs
        exact hs.2 ▸ .nil
    · split at hs
      · simp only [Option.bind_eq_some_iff, Option.some.injEq, Prod.mk.injEq] at hs
        obtain ⟨again, hagain, -, rfl⟩ := hs
        exact allPackets_flood hagain
      · simp only [Option.some.injEq, Prod.mk.injEq] at hs
        exact hs.2 ▸ .nil
  · simp only [Option.some.injEq, Prod.mk.injEq] at hs
    exact hs.2 ▸ .nil

theorem allPackets_rreqDestination {seenSource : Bool} {originalHops : Int}
    (hs : rreqDestination h st inc seenSource originalHops = some (st', actions)) : AllPackets actions := by
  simp only [rreqDestination, Option.bind_eq_bind] at hs
  split at hs
  · simp only [Option.bind_eq_some_iff, Option.some.injEq, Prod.mk.injEq] at hs
    obtain ⟨rrep, hrrep, again, hagain, -, rfl⟩ := hs
    exact allPackets_reply hrrep hagain
  · simp only [Option.some.injEq, Prod.mk.injEq] at hs
    exact hs.2 ▸ .nil

theorem allPackets_onRreq (hs : onRreq h st inc clock = some (st', actions)) : AllPackets actions := by
  simp only [onRreq] at hs
  split at hs
  · simp only [Option.some.injEq, Prod.mk.injEq] at hs
    exact hs.2 ▸ .nil
  split at hs
  · split at hs
    · exact allPackets_rreqIntermediate hs
    · exact allPackets_rreqDestination hs
  · simp only [Option.some.injEq, Prod.mk.injEq] at hs
    exact hs.2 ▸ .nil

theorem allPackets_onRrep (hs : onRrep h st inc clock = some (st', actions)) : AllPackets actions := by
  simp only [onRrep] at hs
  split at hs
  · exact (flushFrom_spec hs).allPackets
  · simp only [Option.bind_eq_bind, Option.bind_eq_some_iff, Option.some.injEq, Prod.mk.injEq] at hs
    obtain ⟨action, hsend, -, rfl⟩ := hs
    exact allPackets_sendAlong hsend

theorem allPackets_rediscover (hs : rediscover h st inc = some (st', actions)) : AllPackets actions := by
  simp only [rediscover, Option.bind_eq_bind] at hs
  split at hs
  · simp only [Option.bind_eq_some_iff, Option.some.injEq, Prod.mk.injEq] at hs
    obtain ⟨st₁, -, action, hb, -, rfl⟩ := hs
    exact allPackets_broadcast hb
  · simp only [Option.some.injEq, Prod.mk.injEq] at hs
    exact hs.2 ▸ .nil

theorem allPackets_onClientMessage {m : ClientMessage} (hs : onClientMessage h st m clock = some (st', actions)) :
    AllPackets actions := by
  simp only [onClientMessage, Option.bind_eq_bind, Option.bind_eq_some_iff, Option.some.injEq,
    Prod.mk.injEq] at hs
  obtain ⟨st₁, -, st₂, -, dest, -, rreq, hrreq, ⟨st₃, sent⟩, hflush, -, rfl⟩ := hs
  refine AllPackets.append ?_ (flushFrom_spec hflush).allPackets
  simp only [discover, Option.bind_eq_bind] at hrreq
  split at hrreq
  · simp only [Option.bind_eq_some_iff, Option.some.injEq] at hrreq
    obtain ⟨action, hb, rfl⟩ := hrreq
    exact allPackets_broadcast hb
  · simp only [Option.some.injEq] at hrreq
    exact hrreq ▸ .nil

end Packets

/-! ## What is handed over -/

theorem Origin.sentTo {packet : Packet} {m : Node} (h : Origin T es packet)
    (hhere : T.getNodeByIp packet.destinationIpAddr = some m) :
    SentTo T es m packet.sourceIpAddr packet.applicationMsg := by
  cases h with
  | client hm hsource hdest hmsg =>
    rw [hdest] at hhere
    exact .inl ⟨_, _, _, hm, hsource.symm, hhere, hmsg.symm⟩
  | server hm hreceived hrequest htext hthere hsource hdest hmsg =>
    rw [hdest] at hhere
    rw [← hsource] at hthere
    rw [← hmsg] at hm
    exact .inr ⟨_, _, _, _, _, _, hm, hreceived, hrequest, htext, hthere, hsource.symm, hhere⟩

theorem Handed.of_packet {m : Node} {action : Action} (h : action.packet?.isSome = true) : Handed T es m action := by
  cases action with
  | broadcast | send => trivial
  | toServer | toClient => cases h

/-- An application message is handed over at its destination only. -/
theorem handed_of_acceptApplication {m : Node} {st st' : NodeState} {inc : Incoming} {reply : List Char}
    {actions : List Action} (hs : acceptApplication (T.host m) st inc reply = some (st', actions))
    (hdest : T.getNodeByIp inc.packet.destinationIpAddr = some inc.destNode) (horigin : Origin T es inc.packet) :
    ∀ action ∈ actions, Handed T es m action := by
  intro action ha
  simp only [acceptApplication, Option.bind_eq_bind] at hs
  split at hs
  next hown =>
    have hhere : T.getNodeByIp inc.packet.destinationIpAddr = some m := by rw [hdest, hown]; rfl
    split at hs
    next htext =>
      simp only [Option.bind_eq_some_iff, Option.some.injEq, Prod.mk.injEq] at hs
      obtain ⟨st₁, -, -, rfl⟩ := hs
      rw [List.mem_singleton.mp ha]
      exact ⟨horigin.sentTo hhere, htext⟩
    next htext =>
      simp only [Option.bind_eq_some_iff, Option.some.injEq, Prod.mk.injEq] at hs
      obtain ⟨sunPath, -, -, rfl⟩ := hs
      rw [List.mem_singleton.mp ha]
      exact ⟨horigin.sentTo hhere, htext⟩
  next =>
    simp only [Option.bind_eq_some_iff, Option.some.injEq, Prod.mk.injEq] at hs
    obtain ⟨st₁, -, -, rfl⟩ := hs
    cases ha

theorem handed_of_receivePacket {m : Node} {st st' : NodeState} {recvAddr : Mac} {incomingInterface : Int}
    {packet : Packet} {clock : Nat → Int} {reply : List Char} {actions : List Action}
    (hs : receivePacket (T.host m) st recvAddr incomingInterface packet clock reply = some (st', actions))
    (horigin : packet.type ≠ 0 → packet.type ≠ 1 → Origin T es packet) :
    ∀ action ∈ actions, Handed T es m action := by
  intro action ha
  simp only [receivePacket, Option.bind_eq_bind, Option.bind_eq_some_iff] at hs
  obtain ⟨sourceNode, -, destNode, hdest, hs⟩ := hs
  split at hs
  next => exact .of_packet (allPackets_onRreq hs action ha)
  next htype₀ =>
  split at hs
  next => exact .of_packet (allPackets_onRrep hs action ha)
  next htype₁ =>
    simp only [onApplication, Option.bind_eq_bind, Option.bind_eq_some_iff, Option.some.injEq,
      Prod.mk.injEq] at hs
    obtain ⟨⟨st₁, accepted⟩, haccept, ⟨st₂, sent⟩, hflush, ⟨st₃, rreq⟩, hrreq, -, rfl⟩ := hs
    simp only [List.mem_append] at ha
    rcases ha with (ha | ha) | ha
    · exact handed_of_acceptApplication haccept hdest (horigin htype₀ htype₁) action ha
    · exact .of_packet ((flushFrom_spec hflush).allPackets action ha)
    · exact .of_packet (allPackets_rediscover hrreq action ha)

/-! ## What is put out and buffered -/

/-- The application messages put out are those of the run. -/
def Sound (T : Topology) (es : List NetworkEvent) (actions : List Action) : Prop :=
  ∀ action ∈ actions, ∀ packet ∈ action.packet?, packet.type ≠ 0 → packet.type ≠ 1 → Origin T es packet

theorem Emitted.origin {n : Node} {st₀ st : NodeState} {clock : Nat → Int} {inc : Option Incoming}
    {action : Action} {packet : Packet} (he : Emitted (T.host n) st₀ st clock (SlotOrigin T es) inc action)
    (hp : packet ∈ action.packet?) (htype₀ : packet.type ≠ 0) (htype₁ : packet.type ≠ 1) :
    Origin T es packet := by
  cases he with
  | originate _ htype =>
    cases hp
    exact absurd htype htype₀
  | flood htype =>
    cases hp
    exact absurd htype htype₀
  | reply _ _ _ _ hsend =>
    rw [sendAlong_packet? hsend] at hp
    cases hp
    exact absurd rfl htype₁
  | relay htype hsend =>
    rw [sendAlong_packet? hsend] at hp
    cases hp
    exact absurd htype htype₁
  | buffered hslot hdest _ hsend =>
    rw [sendAlong_packet? hsend] at hp
    cases hp
    exact hslot.sent hdest
  | toServer | toClient => cases hp

/-- The server's answer is buffered only where the time was asked for. -/
theorem slots_of_acceptApplication {h : Host} {st st' : NodeState} {inc : Incoming} {reply : List Char}
    {actions : List Action} (hs : acceptApplication h st inc reply = some (st', actions))
    (hforward : SlotOrigin T es { inc.packet with hopCount := inc.hopCount })
    (hreply : inc.destNode = h.node → inc.packet.applicationMsg = requestTime →
      SlotOrigin T es (createPfPacket 2 inc.packet.destinationIpAddr inc.packet.destinationPort
        inc.packet.sourceIpAddr inc.packet.sourcePort 0 reply))
    (hall : ∀ i, SlotOrigin T es (st.sendBuffer i)) : ∀ i, SlotOrigin T es (st'.sendBuffer i) := by
  simp only [acceptApplication, Option.bind_eq_bind] at hs
  split at hs
  next hown =>
    split at hs
    next htext =>
      simp only [Option.bind_eq_some_iff, Option.some.injEq, Prod.mk.injEq] at hs
      obtain ⟨st₁, hb, rfl, -⟩ := hs
      obtain rfl := bufferPacket_eq_some hb
      exact update_forall _ hall (hreply hown htext)
    next =>
      simp only [Option.bind_eq_some_iff, Option.some.injEq, Prod.mk.injEq] at hs
      obtain ⟨sunPath, -, rfl, -⟩ := hs
      exact hall
  next =>
    simp only [Option.bind_eq_some_iff, Option.some.injEq, Prod.mk.injEq] at hs
    obtain ⟨st₁, hb, rfl, -⟩ := hs
    obtain rfl := bufferPacket_eq_some hb
    exact update_forall _ hall hforward

theorem onApplication_origin {m : Node} {st st' : NodeState} {inc : Incoming} {clock : Nat → Int}
    {reply : List Char} {actions : List Action}
    (hs : onApplication (T.host m) st inc clock reply = some (st', actions)) (horigin : Origin T es inc.packet)
    (hreply : inc.destNode = m → inc.packet.applicationMsg = requestTime →
      SlotOrigin T es (createPfPacket 2 inc.packet.destinationIpAddr inc.packet.destinationPort
        inc.packet.sourceIpAddr inc.packet.sourcePort 0 reply))
    (hall : ∀ i, SlotOrigin T es (st.sendBuffer i)) :
    (∀ i, SlotOrigin T es (st'.sendBuffer i)) ∧ Sound T es actions := by
  simp only [onApplication, Option.bind_eq_bind, Option.bind_eq_some_iff, Option.some.injEq,
    Prod.mk.injEq] at hs
  obtain ⟨⟨st₁, accepted⟩, haccept, ⟨st₂, sent⟩, hflush, ⟨st₃, rreq⟩, hrreq, rfl, rfl⟩ := hs
  have hforward : SlotOrigin T es { inc.packet with hopCount := inc.hopCount } :=
    .inr (horigin.congr rfl rfl rfl)
  have hall₁ := slots_of_acceptApplication haccept hforward hreply hall
  obtain ⟨-, -, -, -, hlocal⟩ := acceptApplication_spec haccept
  have hflush := flushFrom_spec hflush
  obtain ⟨-, hbuffer₃, -, -, -⟩ := rediscover_spec clock hrreq
  refine ⟨?_, ?_⟩
  · rw [hbuffer₃]
    exact hflush.buffer _ slotOrigin_htonl hall₁
  · intro action ha packet hp htype₀ htype₁
    simp only [List.mem_append] at ha
    rcases ha with (ha | ha) | ha
    · rcases hlocal action ha with ⟨_, _, _, rfl⟩ | ⟨_, _, _, _, _, rfl⟩ <;> cases hp
    · obtain ⟨sentPacket, destNode, hslot, hdest, -, hsend⟩ := hflush.sent _ slotOrigin_htonl hall₁ action ha
      rw [sendAlong_packet? hsend] at hp
      cases hp
      exact hslot.sent hdest
    · simp only [rediscover, Option.bind_eq_bind] at hrreq
      split at hrreq
      · simp only [Option.bind_eq_some_iff, Option.some.injEq, Prod.mk.injEq] at hrreq
        obtain ⟨st₄, -, rreqAction, hb, -, rfl⟩ := hrreq
        rw [List.mem_singleton.mp ha, broadcast_eq_some hb] at hp
        cases hp
        exact absurd rfl htype₀
      · simp only [Option.some.injEq, Prod.mk.injEq] at hrreq
        rw [← hrreq.2] at ha
        cases ha

/-- The packet that arrives has the origin `horigin`; what the server answers it is of the run. -/
theorem receivePacket_origin {m : Node} {st st' : NodeState} {recvAddr : Mac} {incomingInterface : Int}
    {packet : Packet} {clock : Nat → Int} {reply : List Char} {actions : List Action}
    (hs : receivePacket (T.host m) st recvAddr incomingInterface packet clock reply = some (st', actions))
    (horigin : packet.type ≠ 0 → packet.type ≠ 1 → Origin T es packet)
    (hreply : packet.type ≠ 0 → packet.type ≠ 1 → T.getNodeByIp packet.destinationIpAddr = some m →
      packet.applicationMsg = requestTime →
      SlotOrigin T es (createPfPacket 2 packet.destinationIpAddr packet.destinationPort packet.sourceIpAddr
        packet.sourcePort 0 reply))
    (hall : ∀ i, SlotOrigin T es (st.sendBuffer i)) :
    (∀ i, SlotOrigin T es (st'.sendBuffer i)) ∧ Sound T es actions := by
  -- an RREQ or an RREP puts nothing in the buffer
  have hrouting : packet.type = 0 ∨ packet.type = 1 →
      (∀ i, SlotOrigin T es (st'.sendBuffer i)) ∧ Sound T es actions := by
    intro htype
    obtain ⟨inc, -, -, rfl, -, -, hspec⟩ := receivePacket_spec hs
    have hbufferable : Bufferable (T.host m) inc reply (SlotOrigin T es) := by
      refine ⟨slotOrigin_htonl, ?_, ?_⟩
      · intro htype₀ htype₁
        exact absurd htype (by simp [htype₀, htype₁])
      · intro htype₀ htype₁
        exact absurd htype (by simp [htype₀, htype₁])
    obtain ⟨hslots, hemitted⟩ := hspec.packets _ hbufferable hall
    exact ⟨hslots, fun action ha packet hp => (hemitted action ha).origin hp⟩
  by_cases htype₀ : packet.type = 0
  · exact hrouting (.inl htype₀)
  by_cases htype₁ : packet.type = 1
  · exact hrouting (.inr htype₁)
  simp only [receivePacket, Option.bind_eq_bind, Option.bind_eq_some_iff] at hs
  obtain ⟨sourceNode, -, destNode, hdest, hs⟩ := hs
  rw [if_neg htype₀, if_neg htype₁] at hs
  refine onApplication_origin hs (horigin htype₀ htype₁) ?_ hall
  intro hown
  exact hreply htype₀ htype₁ (hown ▸ hdest)

/-! ## Runs -/

structure OriginInv (T : Topology) (es : List NetworkEvent) (s : Network) : Prop where
  slots : ∀ n i, SlotOrigin T es ((s.nodes n).sendBuffer i)
  packets : ∀ record ∈ s.history, ∀ packet ∈ record.action.packet?,
    packet.type ≠ 0 → packet.type ≠ 1 → Origin T es packet
  handed : ∀ record ∈ s.history, Handed T es record.node record.action

theorem OriginInv.put {s : Network} (hs : OriginInv T es s) {n : Node} {st : NodeState}
    {received : Option Packet} {actions : List Action} (hslots : ∀ i, SlotOrigin T es (st.sendBuffer i))
    (hsound : Sound T es actions) (hhanded : ∀ action ∈ actions, Handed T es n action) :
    OriginInv T es (s.put n received st actions) where
  slots x i := by
    rw [put_nodes]
    split
    · exact hslots i
    · exact hs.slots x i
  packets record hm packet hp := by
    rcases mem_put_history hm with hm | ⟨-, -, ha⟩
    · exact hs.packets record hm packet hp
    · exact hsound _ ha packet hp
  handed record hm := by
    rcases mem_put_history hm with hm | ⟨hn, -, ha⟩
    · exact hs.handed record hm
    · rw [hn]
      exact hhanded _ ha

theorem OriginInv.step {s s' : Network} (hs : OriginInv T es s) {e : NetworkEvent} (hmem : e ∈ es)
    (h : (networkMachine T).step s e = some s') : OriginInv T es s' := by
  cases e with
  | client n message clock =>
    obtain ⟨st, actions, hm, rfl⟩ := step_client h
    obtain ⟨dest, -, -, -, -, hpackets⟩ := onClientMessage_spec hm
    have hnew : SlotOrigin T es (createPfPacket 2 (T.host n).currentAddr (s.nodes n).sourcePort
        message.destinationAddr message.destinationPort 0 message.msg) := .inr (.client hmem rfl rfl rfl)
    obtain ⟨hslots, hemitted⟩ := hpackets _ slotOrigin_htonl hnew (hs.slots n)
    refine hs.put hslots (fun action ha packet hp => (hemitted action ha).origin hp) ?_
    intro action ha
    exact .of_packet (allPackets_onClientMessage hm action ha)
  | deliver record i m j clock reply =>
    obtain ⟨_, _, _, _, hd⟩ := step_deliver h
    have hrecord := hd.mem
    obtain ⟨frame, st, actions, hframe, -, hreceive, rfl⟩ := step_deliver_receive h
    have hpacket := frame_packet hframe
    have horigin := hs.packets record hrecord frame.packet hpacket
    obtain ⟨hslots, hsound⟩ := receivePacket_origin hreceive horigin
      (fun htype₀ htype₁ hhere htext =>
        .inr (.server hmem hpacket (horigin htype₀ htype₁) htext hhere rfl rfl rfl)) (hs.slots m)
    exact hs.put hslots hsound (handed_of_receivePacket hreceive horigin)

/-- **Nothing is made up.** What a node hands to its server or to a client is of the run, and for this
node. -/
theorem handed_of_history {s : Network} (h : (networkMachine T).exec (networkMachine T).init es = some s)
    {record : Record} (hm : record ∈ s.history) : Handed T es record.node record.action := by
  have hinv : OriginInv T es s := by
    refine (Machine.reachableBy_of_exec h).invariant ?_ fun s e s' hs hstep he => hs.step he hstep
    exact ⟨fun _ _ => .inl rfl, by simp [networkMachine], by simp [networkMachine]⟩
  exact hinv.handed record hm

/-- Node 1 asks its neighbour for the time, and gets its answer. -/
def timeOfNeighbour : List NetworkEvent :=
  let request := createPfPacket 2 (lineIp 1) 1 (lineIp 2) 5678 0 requestTime
  let answer := createPfPacket 2 (lineIp 2) 5678 (lineIp 1) 1 0 "Mon".toList
  askNeighbour ++
    [.deliver { node := 1, received := some (rrepPacket 2 1 0),
                action := .send (lineMac 1 2) (lineMac 2 1) 2 request } 2 2 1 (fun _ => 0) "Mon".toList,
     .deliver { node := 2, received := some request,
                action := .send (lineMac 2 1) (lineMac 1 2) 1 answer } 1 1 2 (fun _ => 0) []]

/-- What the client of node 1 is told. -/
def toldTime (record : Record) : Bool :=
  match record.action with
  | .toClient sourceIpAddr _ msg _ sunPath => sourceIpAddr = lineIp 2 && msg = "Mon".toList && sunPath = "/tmp/client"
  | _ => false

theorem handed_of_history_timeOfNeighbour : ∃ s, ∃ record ∈ s.history, toldTime record = true ∧
    (networkMachine lineTopology).exec (networkMachine lineTopology).init timeOfNeighbour = some s ∧
    Handed lineTopology timeOfNeighbour record.node record.action := by
  have hrun : (((networkMachine lineTopology).exec (networkMachine lineTopology).init timeOfNeighbour).any
      fun s => s.history.any toldTime) = true := by decide +kernel
  obtain ⟨s, hs, htest⟩ := (Option.any_eq_true _ _).mp hrun
  obtain ⟨record, hm, htold⟩ := List.any_eq_true.mp htest
  exact ⟨s, record, hm, htold, hs, handed_of_history hs hm⟩

end Sockets.Odr
