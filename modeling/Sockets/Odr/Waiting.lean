/-
Packets that wait. A packet of the node's own or on its way is buffered, and
then sent along if its destination has a usable route. If it has not, the
node is meant to broadcast an RREQ for that destination, so that a route is
found for it some day.

A packet keeps its slot for as long as it is in the buffer: removing one
does not shift those behind it but overwrites them (`removeLoop_spec`), and
the loop then comes upon a blank packet, whose destination has no node. So a
flush that ends has sent the last packet of the buffer or none
(`flush_cases`).

What can go wrong is the time. A client's message starts a discovery when
the route has expired, and is sent when the route is fresh, and each of the
two tests reads the clock anew; a route that expires at the very reading, or
between the two, is neither. And an answer of the local server that is not
sent at once is left with a discovery of the node itself: the RREQ names the
destination of the message that came in, not of the answer.
-/
import Sockets.Odr.Network

namespace Sockets.Odr

/-- What a node is handed: a message of one of its clients, or a packet from the wire. -/
inductive NodeEvent
  | client (message : ClientMessage) (clock : Nat → Int)
  | packet (recvAddr : Mac) (incomingInterface : Int) (packet : Packet) (clock : Nat → Int)
      (reply : List Char)

def Host.onEvent (h : Host) (st : NodeState) : NodeEvent → Option (NodeState × List Action)
  | .client message clock => onClientMessage h st message clock
  | .packet recvAddr incomingInterface packet clock reply =>
    receivePacket h st recvAddr incomingInterface packet clock reply

/-- The destination an action broadcasts an RREQ for. -/
def Action.rreqFor : Action → Option String
  | .broadcast packet => if packet.type = 0 then some packet.destinationIpAddr else none
  | _ => none

/-- A node, and for each slot of its buffer the destinations it has broadcast
RREQs for in and after the event that filled the slot. -/
structure Waiting where
  node : NodeState
  sought : Nat → List String

/-- Slots in use keep what was sought for them; a slot filled by the event starts with it. -/
def waitingMachine (h : Host) : Machine Waiting NodeEvent where
  init := { node := .start, sought := fun _ => [] }
  step s e := (h.onEvent s.node e).map fun (st, actions) => {
    node := st
    sought := fun i =>
      (if i < s.node.numPacketsBuffered then s.sought i else []) ++ actions.filterMap Action.rreqFor }

/-- For every packet in the buffer its destination has been sought since it was buffered. -/
def NotForgotten (s : Waiting) : Prop :=
  ∀ i < s.node.numPacketsBuffered, (s.node.sendBuffer i).destinationIpAddr ∈ s.sought i

/-- Of a packet buffered now: its route is not set, or the first reading of the clock finds
it expired (and then it is sought), or the later one finds it fresh (and then it is sent). -/
def Attended (h : Host) (entry : RoutingEntry) (first later : Int) : Prop :=
  checkAddressNotEmpty entry.nextHop = false ∨ entry.timestamp + h.staleTime < first ∨
    entry.timestamp + h.staleTime > later

/-- A client's message is attended to, and an answer of the local server leaves at once (or
goes to the address the request came to). -/
def Attends (h : Host) (s : Waiting) (e : NodeEvent) (_ : Waiting) : Prop :=
  match e with
  | .client message clock => ∀ dest ∈ h.getNodeByIp message.destinationAddr,
      Attended h ((s.node.forget message.flag dest).table dest) (clock 0)
        (clock (s.node.numPacketsBuffered + 1))
  | .packet recvAddr _ packet clock _ =>
      packet.type ≠ 0 → packet.type ≠ 1 → h.getNodeByIp packet.destinationIpAddr = some h.node →
      packet.applicationMsg = "request time".toList →
      (checkAddressNotEmpty recvAddr = true ∧
        clock 0 + h.staleTime > clock (s.node.numPacketsBuffered + 1)) ∨
      packet.sourceIpAddr = packet.destinationIpAddr

/-! ## The flush -/

/-- The slots past the end of the buffer are blank. -/
def BlankTail (st : NodeState) : Prop :=
  ∀ i, st.numPacketsBuffered ≤ i → (st.sendBuffer i).destinationIpAddr = ""

/-- The packet would be sent along now. -/
def Usable (h : Host) (st : NodeState) (packet : Packet) (now : Int) : Prop :=
  ∃ dest, h.getNodeByIp packet.destinationIpAddr = some dest ∧
    checkAddressNotEmpty (st.table dest).nextHop = true ∧
    (st.table dest).timestamp + h.staleTime > now

/-- Removing a packet overwrites it and all behind it with the slot past the end. -/
theorem removeLoop_spec {removeIndex count : Nat} {buffer buffer' : Nat → Packet}
    (h : removeLoop removeIndex count buffer = some buffer') (j : Nat) :
    buffer' j = if removeIndex ≤ j ∧ j < count then buffer count else buffer j := by
  induction count generalizing buffer with
  | zero =>
    simp only [removeLoop, Option.some.injEq] at h
    simp [h]
  | succ count ih =>
    simp only [removeLoop] at h
    split at h
    next hgt =>
      simp only [readSlot, Option.bind_eq_bind, Option.bind_eq_some_iff, Option.ite_none_right_eq_some,
        Option.some.injEq] at h
      obtain ⟨packet, ⟨-, rfl⟩, h⟩ := h
      rw [ih h]
      simp only [Function.update_self, Function.update_apply]
      split
      next hj => rw [if_pos ⟨hj.1, by omega⟩]
      next hj =>
        split
        next heq =>
          subst heq
          rw [if_pos ⟨by omega, by omega⟩]
        next hne => rw [if_neg (by omega)]
    next hle =>
      simp only [Option.some.injEq] at h
      rw [h, if_neg (by omega)]

/-- What a flush that ends has done: nothing, the last packet having no usable route, or it
has sent the last packet. -/
inductive Flushed (h : Host) (clock : Nat → Int) (st : NodeState) : NodeState → List Action → Prop
  | kept (hnone : ∀ n, st.numPacketsBuffered = n + 1 → ¬ Usable h st (st.sendBuffer n) (clock n)) :
      Flushed h clock st st []
  | sentLast {n st' action} (hnum : st.numPacketsBuffered = n + 1)
      (husable : Usable h st (st.sendBuffer n) (clock n)) (haction : action.rreqFor = none)
      (htable : st'.table = st.table) (hnum' : st'.numPacketsBuffered = n)
      (hslots : ∀ i < n, st'.sendBuffer i = st.sendBuffer i) (hblank : BlankTail st') :
      Flushed h clock st st' [action]

theorem sendAlong_rreqFor {h : Host} {entry : RoutingEntry} {packet : Packet} {action : Action}
    (hs : h.sendAlong entry packet = some action) : action.rreqFor = none := by
  obtain ⟨srcMac, -, rfl⟩ := sendAlong_eq_some hs
  rfl

section Flush

variable {h : Host} {clock : Nat → Int} {st st' : NodeState} {sent : List Action}

/-- Removing a packet that others stand behind leaves a blank packet next in the loop. -/
theorem removeFromBuffer_spec {i : Nat} {packet : Packet} (hblank : BlankTail st)
    (hi : i < st.numPacketsBuffered)
    (hr : { st with sendBuffer := Function.update st.sendBuffer i packet }.removeFromBuffer i = some st') :
    st'.table = st.table ∧ st'.numPacketsBuffered = st.numPacketsBuffered - 1 ∧
      (∀ j < i, st'.sendBuffer j = st.sendBuffer j) ∧
      ∀ j, i ≤ j → (st'.sendBuffer j).destinationIpAddr = "" := by
  simp only [NodeState.removeFromBuffer, Option.bind_eq_bind, Option.bind_eq_some_iff,
    Option.some.injEq] at hr
  obtain ⟨buffer, hloop, rfl⟩ := hr
  have hslot := removeLoop_spec hloop
  refine ⟨rfl, rfl, ?_, ?_⟩
  · intro j hj
    dsimp only
    rw [hslot, if_neg (by omega), Function.update_of_ne (by omega)]
  · intro j hj
    dsimp only
    rw [hslot]
    split
    · rw [Function.update_of_ne (by omega)]
      exact hblank _ (le_refl _)
    · rw [Function.update_of_ne (by omega)]
      exact hblank j (by omega)

theorem flushFrom_cases (hempty : h.getNodeByIp "" = none) (hblank : BlankTail st) {todo i : Nat}
    (hi : i + todo = st.numPacketsBuffered)
    (hlast : todo = 0 → ∀ n, st.numPacketsBuffered = n + 1 → ¬ Usable h st (st.sendBuffer n) (clock n))
    (hf : flushFrom h clock todo i st = some (st', sent)) : Flushed h clock st st' sent := by
  induction todo generalizing i with
  | zero =>
    simp only [flushFrom, Option.some.injEq, Prod.mk.injEq] at hf
    obtain ⟨rfl, rfl⟩ := hf
    exact .kept (hlast rfl)
  | succ todo ih =>
    simp only [flushFrom, Option.bind_eq_bind, Option.bind_eq_some_iff] at hf
    obtain ⟨packet, hslot, dest, hdest, hf⟩ := hf
    simp only [readSlot, Option.ite_none_right_eq_some, Option.some.injEq] at hslot
    obtain ⟨-, rfl⟩ := hslot
    split at hf
    next hroute =>
      simp only [Option.bind_eq_some_iff] at hf
      obtain ⟨action, hsend, st₁, hremove, ⟨st₂, actions⟩, hrest, hf⟩ := hf
      simp only [Option.some.injEq, Prod.mk.injEq] at hf
      obtain ⟨rfl, rfl⟩ := hf
      obtain ⟨htable, hnum, hbefore, hafter⟩ := removeFromBuffer_spec hblank (by omega) hremove
      cases todo with
      | zero =>
        simp only [flushFrom, Option.some.injEq, Prod.mk.injEq] at hrest
        obtain ⟨rfl, rfl⟩ := hrest
        exact .sentLast hi.symm ⟨dest, hdest, hroute⟩ (sendAlong_rreqFor hsend) htable (by omega) hbefore
          fun j hj => hafter j (by omega)
      | succ todo =>
        -- the next slot is blank now, and a blank address has no node
        simp only [flushFrom, Option.bind_eq_bind, Option.bind_eq_some_iff] at hrest
        obtain ⟨packet, hslot, dest', hdest', -⟩ := hrest
        simp only [readSlot, Option.ite_none_right_eq_some, Option.some.injEq] at hslot
        rw [← hslot.2, hafter (i + 1) (by omega), hempty] at hdest'
        cases hdest'
    next hroute =>
      refine ih (by omega) ?_ hf
      rintro rfl n hn ⟨dest', hdest', husable⟩
      obtain rfl : n = i := by omega
      cases hdest.symm.trans hdest'
      exact hroute husable

theorem flush_cases (hempty : h.getNodeByIp "" = none) (hblank : BlankTail st)
    (hf : sendMessageFromBuffer h clock st = some (st', sent)) : Flushed h clock st st' sent := by
  refine flushFrom_cases hempty hblank (Nat.zero_add _) ?_ hf
  intro hz n hn
  omega

end Flush

/-! ## What an event does to the buffer -/

/-- The event puts no packet into the buffer that stays there. -/
structure KeepsBuffer (st st' : NodeState) : Prop where
  le : st'.numPacketsBuffered ≤ st.numPacketsBuffered
  slots : ∀ i < st'.numPacketsBuffered, st'.sendBuffer i = st.sendBuffer i
  blank : BlankTail st'

/-- The event leaves one more packet in the buffer. -/
structure AddsPacket (st st' : NodeState) (packet : Packet) : Prop where
  num : st'.numPacketsBuffered = st.numPacketsBuffered + 1
  slots : ∀ i < st.numPacketsBuffered, st'.sendBuffer i = st.sendBuffer i
  packet : st'.sendBuffer st.numPacketsBuffered = packet
  blank : BlankTail st'

section Event

variable {h : Host} {clock : Nat → Int} {st st₁ st' : NodeState} {packet : Packet}
  {actions sent : List Action} {inc : Incoming} {reply : List Char}

theorem KeepsBuffer.of_eq (hblank : BlankTail st) (hnum : st'.numPacketsBuffered = st.numPacketsBuffered)
    (hslots : st'.sendBuffer = st.sendBuffer) : KeepsBuffer st st' where
  le := hnum.le
  slots i _ := by rw [hslots]
  blank i hi := by
    rw [hslots]
    exact hblank i (by omega)

theorem AddsPacket.of_buffer (hblank : BlankTail st) (hnum : st'.numPacketsBuffered = st.numPacketsBuffered + 1)
    (hslots : st'.sendBuffer = Function.update st.sendBuffer st.numPacketsBuffered packet) :
    AddsPacket st st' packet where
  num := hnum
  slots i hi := by rw [hslots, Function.update_of_ne (by omega)]
  packet := by rw [hslots, Function.update_self]
  blank i hi := by
    rw [hslots, Function.update_of_ne (by omega)]
    exact hblank i (by omega)

/-- A table write leaves the buffer alone. -/
theorem KeepsBuffer.of_setEntry {node : Node} {entry : RoutingEntry}
    (hk : KeepsBuffer (st.setEntry node entry) st') : KeepsBuffer st st' where
  le := hk.le
  slots := hk.slots
  blank := hk.blank

theorem AddsPacket.of_setEntry {node : Node} {entry : RoutingEntry}
    (ha : AddsPacket (st.setEntry node entry) st' packet) : AddsPacket st st' packet where
  num := ha.num
  slots := ha.slots
  packet := ha.packet
  blank := ha.blank

/-- A flush of a buffer nothing was put into. -/
theorem KeepsBuffer.flushed (hk : KeepsBuffer st st₁) (hf : Flushed h clock st₁ st' sent) :
    KeepsBuffer st st' ∧ sent.filterMap Action.rreqFor = [] := by
  cases hf with
  | kept => exact ⟨hk, rfl⟩
  | sentLast hnum _ haction _ hnum' hslots hblank =>
    refine ⟨{ le := ?_, slots := ?_, blank := hblank }, by simp [haction]⟩
    · have hle := hk.le
      omega
    · intro i hi
      rw [hslots i (by omega)]
      exact hk.slots i (by omega)

/-- A flush of a buffer with a new packet: the packet is sent, or nothing is. -/
theorem AddsPacket.flushed (ha : AddsPacket st st₁ packet) (hf : Flushed h clock st₁ st' sent) :
    sent.filterMap Action.rreqFor = [] ∧
      ((Usable h st₁ packet (clock st.numPacketsBuffered) ∧ KeepsBuffer st st') ∨
        (¬ Usable h st₁ packet (clock st.numPacketsBuffered) ∧ st' = st₁)) := by
  have hpacket := ha.packet
  have hnum₁ := ha.num
  cases hf with
  | kept hnone =>
    refine ⟨rfl, .inr ⟨?_, rfl⟩⟩
    rw [← hpacket]
    exact hnone _ hnum₁
  | @sentLast n _ _ hnum husable haction _ hnum' hslots hblank =>
    obtain rfl : n = st.numPacketsBuffered := by omega
    refine ⟨by simp [haction], .inl ⟨hpacket ▸ husable, { le := hnum'.le, slots := ?_, blank := hblank }⟩⟩
    intro i hi
    rw [hslots i (by omega)]
    exact ha.slots i (by omega)

theorem discover_rreqFor {m : ClientMessage} {dest : Node} {currTime : Int}
    (hs : discover h st m dest currTime = some actions) : actions.filterMap Action.rreqFor =
      if checkAddressNotEmpty (st.table dest).nextHop = false ∨
        (st.table dest).timestamp + h.staleTime < currTime then [m.destinationAddr] else [] := by
  simp only [discover] at hs
  split at hs
  next hroute =>
    simp only [Option.bind_eq_bind, Option.bind_eq_some_iff, Option.some.injEq] at hs
    obtain ⟨action, hb, rfl⟩ := hs
    rw [broadcast_eq_some hb, if_pos hroute]
    rfl
  next hroute =>
    simp only [Option.some.injEq] at hs
    rw [← hs, if_neg hroute]
    rfl

theorem rediscover_waiting (hs : rediscover h st inc = some (st', actions)) :
    st'.sendBuffer = st.sendBuffer ∧ st'.numPacketsBuffered = st.numPacketsBuffered ∧
      actions.filterMap Action.rreqFor =
        if st.numPacketsBuffered > 0 then [inc.packet.destinationIpAddr] else [] := by
  simp only [rediscover] at hs
  split at hs
  next hpos =>
    simp only [Option.bind_eq_bind, Option.bind_eq_some_iff, Option.some.injEq, Prod.mk.injEq] at hs
    obtain ⟨st₁, hn, action, hb, rfl, rfl⟩ := hs
    obtain ⟨-, rfl⟩ := nextBroadcastId_eq_some hn
    rw [broadcast_eq_some hb, if_pos hpos]
    exact ⟨rfl, rfl, rfl⟩
  next hzero =>
    simp only [Option.some.injEq, Prod.mk.injEq] at hs
    obtain ⟨rfl, rfl⟩ := hs
    rw [if_neg hzero]
    exact ⟨rfl, rfl, rfl⟩

@[simp] theorem forget_numPacketsBuffered (st : NodeState) (flag : Int) (dest : Node) :
    (st.forget flag dest).numPacketsBuffered = st.numPacketsBuffered := by
  unfold NodeState.forget
  split <;> rfl

/-- What an event leaves in the buffer, and when a packet that stays there is sought. -/
inductive BufferEffect (st st' : NodeState) (actions : List Action) (attended : Prop) : Prop
  | keeps (hk : KeepsBuffer st st') (ha : attended)
  | adds {p : Packet} (hp : AddsPacket st st' p)
      (hiff : p.destinationIpAddr ∈ actions.filterMap Action.rreqFor ↔ attended)

theorem onClientMessage_buffer (hempty : h.getNodeByIp "" = none) (hblank : BlankTail st)
    {m : ClientMessage} (hs : onClientMessage h st m clock = some (st', actions)) :
    BufferEffect st st' actions (∀ dest ∈ h.getNodeByIp m.destinationAddr,
      Attended h ((st.forget m.flag dest).table dest) (clock 0) (clock (st.numPacketsBuffered + 1))) := by
  simp only [onClientMessage, Option.bind_eq_bind, Option.bind_eq_some_iff, Option.some.injEq,
    Prod.mk.injEq] at hs
  obtain ⟨st₁, hb, st₂, hn, dest, hdest, rreq, hrreq, ⟨st₃, sent⟩, hflush, rfl, rfl⟩ := hs
  have hst₁ := bufferPacket_eq_some hb
  obtain ⟨-, hst₂⟩ := nextBroadcastId_eq_some hn
  have htable : (st₂.forget m.flag dest).table = (st.forget m.flag dest).table := by
    rw [forget_table, forget_table, hst₂, hst₁]
  have hadds : AddsPacket st (st₂.forget m.flag dest) (createPfPacket 2 h.currentAddr st.sourcePort
      m.destinationAddr m.destinationPort 0 m.msg) := by
    refine .of_buffer hblank ?_ ?_
    · rw [forget_numPacketsBuffered, hst₂, hst₁]
    · rw [forget_sendBuffer, hst₂, hst₁]
  have hrreqs := discover_rreqFor hrreq
  rw [htable] at hrreqs
  obtain ⟨hsent, hcases⟩ := hadds.flushed (flush_cases hempty hadds.blank hflush)
  have hforall : (∀ d ∈ h.getNodeByIp m.destinationAddr, Attended h ((st.forget m.flag d).table d) (clock 0)
      (clock (st.numPacketsBuffered + 1))) ↔
      Attended h ((st.forget m.flag dest).table dest) (clock 0) (clock (st.numPacketsBuffered + 1)) := by
    simp [hdest]
  rw [hforall]
  rcases hcases with ⟨⟨d, hd, -, hfresh⟩, hkeeps⟩ | ⟨hnot, rfl⟩
  · cases hdest.symm.trans hd
    rw [htable] at hfresh
    exact .keeps ⟨hkeeps.le, hkeeps.slots, hkeeps.blank⟩ (.inr (.inr hfresh))
  · have hp : AddsPacket st
        { st₂.forget m.flag dest with sourcePort := (st₂.forget m.flag dest).sourcePort + 1 }
        (createPfPacket 2 h.currentAddr st.sourcePort m.destinationAddr m.destinationPort 0 m.msg) :=
      ⟨hadds.num, hadds.slots, hadds.packet, hadds.blank⟩
    refine .adds hp ?_
    rw [List.filterMap_append, hsent, hrreqs, List.append_nil]
    have hnot : checkAddressNotEmpty ((st.forget m.flag dest).table dest).nextHop = true →
        ¬ ((st.forget m.flag dest).table dest).timestamp + h.staleTime >
          clock (st.numPacketsBuffered + 1) := by
      intro hset hfresh
      exact hnot ⟨dest, hdest, by rwa [htable], by rwa [htable]⟩
    constructor
    · intro hm
      split at hm
      next hsought => exact hsought.elim .inl fun hexp => .inr (.inl hexp)
      · cases hm
    · rintro (hunset | hexpired | hfresh)
      · simp [hunset, createPfPacket]
      · simp [hexpired, createPfPacket]
      · have hunset : checkAddressNotEmpty ((st.forget m.flag dest).table dest).nextHop = false := by
          by_contra hset
          exact hnot (by simpa using hset) hfresh
        simp [hunset, createPfPacket]

theorem onRreq_buffer (hblank : BlankTail st) (htype : inc.packet.type = 0)
    (hs : onRreq h st inc clock = some (st', actions)) : KeepsBuffer st st' := by
  cases onRreq_outcome htype hs with
  | own | duplicate => exact .of_eq hblank rfl rfl
  | fresh _ _ _ hstate =>
    rcases hstate with rfl | rfl
    · exact .of_eq hblank rfl rfl
    · exact .of_eq hblank rfl rfl

theorem onRrep_buffer (hempty : h.getNodeByIp "" = none) (hblank : BlankTail st)
    (hs : onRrep h st inc clock = some (st', actions)) : KeepsBuffer st st' := by
  have hforward : KeepsBuffer st (forwardPath h st inc clock) := by
    refine .of_eq hblank ?_ ?_
    all_goals
      unfold forwardPath
      dsimp only
      split <;> rfl
  simp only [onRrep] at hs
  split at hs
  · exact (hforward.flushed (flush_cases hempty hforward.blank hs)).1
  · simp only [Option.bind_eq_bind, Option.bind_eq_some_iff, Option.some.injEq, Prod.mk.injEq] at hs
    obtain ⟨action, -, rfl, -⟩ := hs
    exact hforward

/-- An application message is buffered if it is on its way, and answered if it asks for the time. -/
inductive Accepted (h : Host) (inc : Incoming) (reply : List Char) (st st' : NodeState) : Prop
  | response (hresponse : inc.destNode = h.node → inc.packet.applicationMsg ≠ "request time".toList)
      (hk : KeepsBuffer st st')
  | request (hown : inc.destNode = h.node) (hrequest : inc.packet.applicationMsg = "request time".toList)
      (hp : AddsPacket st st' (createPfPacket 2 inc.packet.destinationIpAddr inc.packet.destinationPort
        inc.packet.sourceIpAddr inc.packet.sourcePort 0 reply))
  | forwarded (hother : inc.destNode ≠ h.node)
      (hp : AddsPacket st st' { inc.packet with hopCount := inc.hopCount })

theorem acceptApplication_buffer (hblank : BlankTail st)
    (hs : acceptApplication h st inc reply = some (st', actions)) :
    Accepted h inc reply st st' ∧ actions.filterMap Action.rreqFor = [] := by
  simp only [acceptApplication] at hs
  split at hs
  next hown =>
    split at hs
    next hrequest =>
      simp only [Option.bind_eq_bind, Option.bind_eq_some_iff, Option.some.injEq, Prod.mk.injEq] at hs
      obtain ⟨st₁, hb, rfl, rfl⟩ := hs
      have hst₁ := bufferPacket_eq_some hb
      exact ⟨.request hown hrequest (.of_buffer hblank (by rw [hst₁]) (by rw [hst₁])), rfl⟩
    next hresponse =>
      simp only [Option.bind_eq_bind, Option.bind_eq_some_iff, Option.some.injEq, Prod.mk.injEq] at hs
      obtain ⟨path, -, rfl, rfl⟩ := hs
      exact ⟨.response (fun _ => hresponse) (.of_eq hblank rfl rfl), rfl⟩
  next hother =>
    simp only [Option.bind_eq_bind, Option.bind_eq_some_iff, Option.some.injEq, Prod.mk.injEq] at hs
    obtain ⟨st₁, hb, rfl, rfl⟩ := hs
    have hst₁ := bufferPacket_eq_some hb
    exact ⟨.forwarded hother (.of_buffer hblank (by rw [hst₁]) (by rw [hst₁])), rfl⟩

/-- What becomes of a packet an application message has put into the buffer: it is sent, or
the destination of the message is sought. -/
theorem AddsPacket.served {st₂ : NodeState} {rreq : List Action} (hempty : h.getNodeByIp "" = none)
    (ha : AddsPacket st st₁ packet) (hflush : sendMessageFromBuffer h clock st₁ = some (st₂, sent))
    (hrreq : rediscover h st₂ inc = some (st', rreq)) :
    (Usable h st₁ packet (clock st.numPacketsBuffered) ∧ KeepsBuffer st st') ∨
      (¬ Usable h st₁ packet (clock st.numPacketsBuffered) ∧ AddsPacket st st' packet ∧
        (sent ++ rreq).filterMap Action.rreqFor = [inc.packet.destinationIpAddr]) := by
  obtain ⟨hslots, hnum, hsought⟩ := rediscover_waiting hrreq
  obtain ⟨hsent, hcases⟩ := ha.flushed (flush_cases hempty ha.blank hflush)
  rcases hcases with ⟨husable, hk⟩ | ⟨hnot, rfl⟩
  · refine .inl ⟨husable, { le := hnum ▸ hk.le, slots := ?_, blank := ?_ }⟩
    · rw [hslots, hnum]
      exact hk.slots
    · unfold BlankTail
      rw [hslots, hnum]
      exact hk.blank
  · have hpos : st₂.numPacketsBuffered > 0 := by
      have hadded := ha.num
      omega
    refine .inr ⟨hnot, { num := hnum.trans ha.num, slots := ?_, packet := ?_, blank := ?_ }, ?_⟩
    · rw [hslots]
      exact ha.slots
    · rw [hslots]
      exact ha.packet
    · unfold BlankTail
      rw [hslots, hnum]
      exact ha.blank
    · rw [List.filterMap_append, hsent, hsought, if_pos hpos, List.nil_append]

theorem onApplication_buffer (hempty : h.getNodeByIp "" = none) (hblank : BlankTail st)
    (hsource : h.getNodeByIp inc.packet.sourceIpAddr = some inc.sourceNode)
    (hs : onApplication h st inc clock reply = some (st', actions)) :
    BufferEffect st st' actions (inc.destNode = h.node →
      inc.packet.applicationMsg = "request time".toList →
      (checkAddressNotEmpty inc.recvAddr = true ∧
        clock 0 + h.staleTime > clock (st.numPacketsBuffered + 1)) ∨
      inc.packet.sourceIpAddr = inc.packet.destinationIpAddr) := by
  simp only [onApplication, Option.bind_eq_bind, Option.bind_eq_some_iff, Option.some.injEq,
    Prod.mk.injEq] at hs
  obtain ⟨⟨st₁, accepted⟩, haccept, ⟨st₂, sent⟩, hflush, ⟨st₃, rreq⟩, hrreq, rfl, rfl⟩ := hs
  have htable := (acceptApplication_spec haccept).1
  have hlearned : ∀ entry, BlankTail (st.setEntry inc.sourceNode entry) := fun _ => hblank
  obtain ⟨haccepted, hnone⟩ := acceptApplication_buffer (hlearned _) haccept
  rw [List.append_assoc]
  cases haccepted with
  | response hresponse hk =>
    obtain ⟨hkept, -⟩ := hk.flushed (flush_cases hempty hk.blank hflush)
    obtain ⟨hslots, hnum, -⟩ := rediscover_waiting hrreq
    refine .keeps { le := hnum ▸ hkept.le, slots := ?_, blank := ?_ } fun hown hrequest =>
      absurd hrequest (hresponse hown)
    · rw [hslots, hnum]
      exact hkept.slots
    · unfold BlankTail
      rw [hslots, hnum]
      exact hkept.blank
  | request hown hrequest hp =>
    have husable : Usable h st₁ (createPfPacket 2 inc.packet.destinationIpAddr inc.packet.destinationPort
        inc.packet.sourceIpAddr inc.packet.sourcePort 0 reply) (clock (st.numPacketsBuffered + 1)) ↔
        checkAddressNotEmpty inc.recvAddr = true ∧
          clock 0 + h.staleTime > clock (st.numPacketsBuffered + 1) := by
      simp [Usable, createPfPacket, hsource, htable, NodeState.setEntry, RoutingEntry.learn]
    rcases hp.served hempty hflush hrreq with ⟨hsent, hk⟩ | ⟨hnot, hadds, hsought⟩
    · exact .keeps hk.of_setEntry fun _ _ => .inl (husable.mp hsent)
    · refine .adds hadds.of_setEntry ?_
      rw [List.filterMap_append, hnone, hsought, List.nil_append, List.mem_singleton]
      constructor
      · exact fun he _ _ => .inr he
      · intro hattended
        exact (hattended hown hrequest).resolve_left fun hfresh => hnot (husable.mpr hfresh)
  | forwarded hother hp =>
    rcases hp.served hempty hflush hrreq with ⟨-, hk⟩ | ⟨-, hadds, hsought⟩
    · exact .keeps hk.of_setEntry fun hown => absurd hown hother
    · refine .adds hadds.of_setEntry (iff_of_true ?_ fun hown => absurd hown hother)
      rw [List.filterMap_append, hnone, hsought, List.nil_append]
      exact List.mem_singleton.mpr rfl

end Event

/-! ## Runs -/

variable {T : Topology} {n : Node}

/-- What an event leaves in the buffer, whatever it is. -/
theorem onEvent_buffer {s : Waiting} (s' : Waiting) {e : NodeEvent} {st' : NodeState} {actions : List Action}
    (hblank : BlankTail s.node) (hs : (T.host n).onEvent s.node e = some (st', actions)) :
    BufferEffect s.node st' actions (Attends (T.host n) s e s') := by
  cases e with
  | client message clock => exact onClientMessage_buffer T.empty_unresolved hblank hs
  | packet recvAddr incomingInterface packet clock reply =>
    simp only [Host.onEvent, receivePacket, Option.bind_eq_bind, Option.bind_eq_some_iff] at hs
    obtain ⟨sourceNode, hsource, destNode, hdest, hs⟩ := hs
    split at hs
    next htype => exact .keeps (onRreq_buffer hblank htype hs) fun h₀ => absurd htype h₀
    next htype₀ =>
    split at hs
    next htype =>
      exact .keeps (onRrep_buffer T.empty_unresolved hblank hs) fun _ h₁ => absurd htype h₁
    next htype₁ =>
      have happlication := onApplication_buffer T.empty_unresolved hblank hsource hs
      have hown : (T.host n).getNodeByIp packet.destinationIpAddr = some (T.host n).node ↔
          destNode = (T.host n).node := by
        rw [hdest, Option.some.injEq]
      simpa only [Attends, htype₀, htype₁, hown, ne_eq, not_false_eq_true, forall_const] using happlication

/-- Nothing is forgotten so far, and the slots past the end of the buffer are blank. -/
structure WaitingInv (s : Waiting) : Prop where
  notForgotten : NotForgotten s
  blank : BlankTail s.node

theorem WaitingInv.start : WaitingInv (waitingMachine (T.host n)).init where
  notForgotten i hi := absurd hi (Nat.not_lt_zero i)
  blank _ _ := rfl

theorem waiting_step {s s' : Waiting} {e : NodeEvent}
    (h : (waitingMachine (T.host n)).step s e = some s') :
    ∃ actions, (T.host n).onEvent s.node e = some (s'.node, actions) ∧ s'.sought = fun i =>
      (if i < s.node.numPacketsBuffered then s.sought i else []) ++ actions.filterMap Action.rreqFor := by
  simp only [waitingMachine, Option.map_eq_some_iff] at h
  obtain ⟨⟨st, actions⟩, hs, rfl⟩ := h
  exact ⟨actions, hs, rfl⟩

theorem WaitingInv.step_blank {s s' : Waiting} {e : NodeEvent} (hs : WaitingInv s)
    (h : (waitingMachine (T.host n)).step s e = some s') : BlankTail s'.node := by
  obtain ⟨actions, hevent, -⟩ := waiting_step h
  cases onEvent_buffer s' hs.blank hevent with
  | keeps hk => exact hk.blank
  | adds hp => exact hp.blank

/-- One event: nothing is forgotten after it exactly if it is attended to. -/
theorem WaitingInv.step_iff {s s' : Waiting} {e : NodeEvent} (hs : WaitingInv s)
    (h : (waitingMachine (T.host n)).step s e = some s') :
    NotForgotten s' ↔ Attends (T.host n) s e s' := by
  obtain ⟨actions, hevent, hsought⟩ := waiting_step h
  cases onEvent_buffer s' hs.blank hevent with
  | keeps hk ha =>
    refine iff_of_true ?_ ha
    intro i hi
    have hi' : i < s.node.numPacketsBuffered := Nat.lt_of_lt_of_le hi hk.le
    rw [hk.slots i hi, hsought]
    dsimp only
    rw [if_pos hi']
    exact List.mem_append_left _ (hs.notForgotten i hi')
  | @adds p hp hiff =>
    rw [← hiff]
    constructor
    · intro hall
      have hlast := hall s.node.numPacketsBuffered (by rw [hp.num]; omega)
      rw [hp.packet, hsought] at hlast
      simpa using hlast
    · intro hmem i hi
      rw [hsought]
      dsimp only
      have hle := hp.num
      by_cases hi' : i < s.node.numPacketsBuffered
      · rw [hp.slots i hi', if_pos hi']
        exact List.mem_append_left _ (hs.notForgotten i hi')
      · obtain rfl : i = s.node.numPacketsBuffered := by omega
        rw [hp.packet, if_neg (Nat.lt_irrefl _), List.nil_append]
        exact hmem

/-- **No forgotten packet, exactly.** Along a run of a node, every packet in the buffer has
been sought since it was put there, if and only if every client's message is attended to,
and every answer of the local server leaves at once or goes to the address it was asked at. -/
theorem notForgotten_along_iff (T : Topology) (n : Node) (es : List NodeEvent) :
    (waitingMachine (T.host n)).Along (fun _ _ s' => NotForgotten s') (waitingMachine (T.host n)).init es ↔
      (waitingMachine (T.host n)).Along (Attends (T.host n)) (waitingMachine (T.host n)).init es := by
  refine Machine.along_congr (I := WaitingInv) (fun _ _ _ hs h => hs.step_iff h) ?_ .start
  intro s e s' hs h hattends
  exact { notForgotten := (hs.step_iff h).mpr hattends, blank := hs.step_blank h }

/-- The route to node 2 is learned at time 0, and a client asks for node 2 at time 10, as it
expires: the message is neither sent nor is node 2 sought. -/
theorem not_notForgotten :
    ∃ s, (waitingMachine (lineTopology.host 1)).Reachable s ∧ ¬ NotForgotten s := by
  obtain ⟨s, hs, htest⟩ := Machine.reachable_of_exec_any (M := waitingMachine (lineTopology.host 1))
    [.packet (lineMac 2 1) 2 (rreqPacket 2 3 0) (fun _ => 0) [], .client (lineRequest 2) fun _ => 10]
    (fun s => s.node.numPacketsBuffered = 1 ∧ s.sought 0 = []) (by decide +kernel)
  obtain ⟨hnum, hnone⟩ := of_decide_eq_true htest
  refine ⟨s, hs, ?_⟩
  intro hall
  have hsought := hall 0 (by rw [hnum]; decide)
  rw [hnone] at hsought
  cases hsought

end Sockets.Odr
