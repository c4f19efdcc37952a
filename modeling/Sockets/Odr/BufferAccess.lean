/-
The accesses to the output buffer. The node is run once more, in the code of
`Odr.Node`, with each access to the buffer noted (`Watched`), up to the first
that has no outcome; without the notes it is the same node
(`Watched.onEvent_outcome`).

Meant is a queue: what was buffered and not yet removed, in order. A packet
is appended where there is room, and a slot that is read holds the packet of
the queue that stands there (`pendingWatch`). Taking a packet out breaks this
each time, as it reads the slot behind the last packet; and nothing
stops the hundred and first packet. So all accesses are as they are meant in
runs that buffer no packet in a full buffer and send none from it
(`inBounds_along`).
-/
import Sockets.Lib.Noted
import Sockets.Odr.Flush

namespace Sockets.Odr

/-- What is noted: `send_buffer[index] = packet`, what stands in a slot that is read, and that the
packet of a slot has been taken out. -/
inductive BufferNote
  | append (index : Nat) (packet : Packet)
  | read (index : Nat) (packet : Packet)
  | removed (index : Nat)
deriving DecidableEq

/-! ## The node, watched -/

namespace Watched

def bufferPacket (st : NodeState) (packet : Packet) : Noted BufferNote NodeState := do
  Noted.note (.append st.numPacketsBuffered packet)
  Noted.ofOption (st.bufferPacket packet)

def readSlot (buffer : Nat → Packet) (i : Nat) : Noted BufferNote Packet := do
  Noted.note (.read i (buffer i))
  Noted.ofOption (Odr.readSlot buffer i)

def removeLoop (removeIndex : Nat) : Nat → (Nat → Packet) → Noted BufferNote (Nat → Packet)
  | 0, buffer => pure buffer
  | i + 1, buffer =>
    if i + 1 > removeIndex then do
      let packet ← readSlot buffer (i + 1)
      removeLoop removeIndex i (Function.update buffer i packet)
    else pure buffer

def removeFromBuffer (st : NodeState) (removeIndex : Nat) : Noted BufferNote NodeState := do
  let sendBuffer ← removeLoop removeIndex st.numPacketsBuffered st.sendBuffer
  Noted.note (.removed removeIndex)
  pure { st with sendBuffer, numPacketsBuffered := st.numPacketsBuffered - 1 }

def flushFrom (h : Host) (clock : Nat → Int) :
    (todo i : Nat) → NodeState → Noted BufferNote (NodeState × List Action)
  | 0, _, st => pure (st, [])
  | todo + 1, i, st => do
    let packet ← readSlot st.sendBuffer i
    let destNode ← Noted.ofOption (h.getNodeByIp packet.destinationIpAddr)
    let entry := st.table destNode
    if checkAddressNotEmpty entry.nextHop = true ∧ entry.timestamp + h.staleTime > clock i then do
      let action ← Noted.ofOption (h.sendAlong entry packet)
      let st := { st with sendBuffer := Function.update st.sendBuffer i packet.htonl }
      let st ← removeFromBuffer st i
      let (st, actions) ← flushFrom h clock todo (i + 1) st
      pure (st, action :: actions)
    else flushFrom h clock todo (i + 1) st

def sendMessageFromBuffer (h : Host) (clock : Nat → Int) (st : NodeState) :
    Noted BufferNote (NodeState × List Action) :=
  flushFrom h clock st.numPacketsBuffered 0 st

def onClientMessage (h : Host) (st : NodeState) (m : ClientMessage) (clock : Nat → Int) :
    Noted BufferNote (NodeState × List Action) := do
  let st := { st with mapArray := addMap st.sourcePort m.sunPath st.mapArray }
  let st ← bufferPacket st
    (createPfPacket 2 h.currentAddr st.sourcePort m.destinationAddr m.destinationPort 0 m.msg)
  let st ← Noted.ofOption st.nextBroadcastId
  let dest ← Noted.ofOption (h.getNodeByIp m.destinationAddr)
  let st := st.forget m.flag dest
  let rreq ← Noted.ofOption (discover h st m dest (clock 0))
  let (st, sent) ← sendMessageFromBuffer h (fun i => clock (i + 1)) st
  pure ({ st with sourcePort := st.sourcePort + 1 }, rreq ++ sent)

def onRrep (h : Host) (st : NodeState) (inc : Incoming) (clock : Nat → Int) :
    Noted BufferNote (NodeState × List Action) :=
  let st := forwardPath h st inc clock
  if inc.destNode = h.node then sendMessageFromBuffer h (fun i => clock (i + 2)) st
  else do
    let action ← Noted.ofOption
      (h.sendAlong (st.table inc.destNode) { inc.packet with hopCount := inc.packet.hopCount + 1 })
    pure (st, [action])

def acceptApplication (h : Host) (st : NodeState) (inc : Incoming) (reply : List Char) :
    Noted BufferNote (NodeState × List Action) := do
  let packet := inc.packet
  if inc.destNode = h.node then
    if packet.applicationMsg = "request time".toList then do
      let st ← bufferPacket st (createPfPacket 2 packet.destinationIpAddr packet.destinationPort
        packet.sourceIpAddr packet.sourcePort 0 reply)
      pure (st, [.toServer packet.sourceIpAddr packet.sourcePort packet.applicationMsg])
    else do
      let sunPath ← Noted.ofOption (searchMap packet.destinationPort st.mapArray)
      pure (st, [.toClient packet.sourceIpAddr packet.sourcePort packet.applicationMsg inc.forced sunPath])
  else do
    let st ← bufferPacket st { packet with hopCount := inc.hopCount }
    pure (st, [])

def onApplication (h : Host) (st : NodeState) (inc : Incoming) (clock : Nat → Int) (reply : List Char) :
    Noted BufferNote (NodeState × List Action) := do
  let entry := st.table inc.sourceNode
  let st := st.setEntry inc.sourceNode
    (entry.learn inc.recvAddr inc.incomingInterface inc.hopCount (clock 0))
  let (st, accepted) ← acceptApplication h st inc reply
  let (st, sent) ← sendMessageFromBuffer h (fun i => clock (i + 1)) st
  let (st, rreq) ← Noted.ofOption (rediscover h st inc)
  pure (st, accepted ++ sent ++ rreq)

/-- An RREQ does not touch the buffer. -/
def receivePacket (h : Host) (st : NodeState) (recvAddr : Mac) (incomingInterface : Int) (packet : Packet)
    (clock : Nat → Int) (reply : List Char) : Noted BufferNote (NodeState × List Action) := do
  let sourceNode ← Noted.ofOption (h.getNodeByIp packet.sourceIpAddr)
  let destNode ← Noted.ofOption (h.getNodeByIp packet.destinationIpAddr)
  let inc : Incoming := { recvAddr, incomingInterface, sourceNode, destNode, packet }
  if packet.type = 0 then Noted.ofOption (onRreq h st inc clock)
  else if packet.type = 1 then onRrep h st inc clock
  else onApplication h st inc clock reply

def onEvent (h : Host) (st : NodeState) : NodeEvent → Noted BufferNote (NodeState × List Action)
  | .client message clock => onClientMessage h st message clock
  | .packet recvAddr incomingInterface packet clock reply =>
    receivePacket h st recvAddr incomingInterface packet clock reply

section Outcome

variable (h : Host) (st : NodeState)

@[simp] theorem bufferPacket_outcome (packet : Packet) :
    (bufferPacket st packet).outcome = st.bufferPacket packet := rfl

@[simp] theorem readSlot_outcome (buffer : Nat → Packet) (i : Nat) :
    (readSlot buffer i).outcome = Odr.readSlot buffer i := rfl

@[simp] theorem removeLoop_outcome (removeIndex i : Nat) (buffer : Nat → Packet) :
    (removeLoop removeIndex i buffer).outcome = Odr.removeLoop removeIndex i buffer := by
  induction i generalizing buffer with
  | zero => rfl
  | succ i ih =>
    simp only [removeLoop, Odr.removeLoop, Noted.outcome_ite, Noted.outcome_bind, Noted.outcome_pure,
      readSlot_outcome, ih, Option.bind_eq_bind]

@[simp] theorem removeFromBuffer_outcome (removeIndex : Nat) :
    (removeFromBuffer st removeIndex).outcome = st.removeFromBuffer removeIndex := by
  simp only [removeFromBuffer, NodeState.removeFromBuffer, Noted.outcome_bind, Noted.outcome_note,
    Noted.outcome_pure, removeLoop_outcome, Option.bind_some, Option.bind_eq_bind]

@[simp] theorem flushFrom_outcome (clock : Nat → Int) (todo i : Nat) :
    (flushFrom h clock todo i st).outcome = Odr.flushFrom h clock todo i st := by
  induction todo generalizing i st with
  | zero => rfl
  | succ todo ih =>
    simp only [flushFrom, Odr.flushFrom, Noted.outcome_ite, Noted.outcome_bind, Noted.outcome_ofOption,
      Noted.outcome_pure, readSlot_outcome, removeFromBuffer_outcome, ih, Option.bind_eq_bind]

@[simp] theorem sendMessageFromBuffer_outcome (clock : Nat → Int) :
    (sendMessageFromBuffer h clock st).outcome = Odr.sendMessageFromBuffer h clock st :=
  flushFrom_outcome h st clock _ 0

theorem onClientMessage_outcome (m : ClientMessage) (clock : Nat → Int) :
    (onClientMessage h st m clock).outcome = Odr.onClientMessage h st m clock := by
  simp only [onClientMessage, Odr.onClientMessage, Noted.outcome_bind, Noted.outcome_ofOption,
    Noted.outcome_pure, bufferPacket_outcome, sendMessageFromBuffer_outcome, Option.bind_eq_bind]

theorem onRrep_outcome (inc : Incoming) (clock : Nat → Int) :
    (onRrep h st inc clock).outcome = Odr.onRrep h st inc clock := by
  simp only [onRrep, Odr.onRrep, Noted.outcome_ite, Noted.outcome_bind, Noted.outcome_ofOption,
    Noted.outcome_pure, sendMessageFromBuffer_outcome, Option.bind_eq_bind]

theorem acceptApplication_outcome (inc : Incoming) (reply : List Char) :
    (acceptApplication h st inc reply).outcome = Odr.acceptApplication h st inc reply := by
  simp only [acceptApplication, Odr.acceptApplication, Noted.outcome_ite, Noted.outcome_bind,
    Noted.outcome_ofOption, Noted.outcome_pure, bufferPacket_outcome, Option.bind_eq_bind]

theorem onApplication_outcome (inc : Incoming) (clock : Nat → Int) (reply : List Char) :
    (onApplication h st inc clock reply).outcome = Odr.onApplication h st inc clock reply := by
  simp only [onApplication, Odr.onApplication, Noted.outcome_bind, Noted.outcome_ofOption, Noted.outcome_pure,
    acceptApplication_outcome, sendMessageFromBuffer_outcome, Option.bind_eq_bind]

/-- Without its notes it is the node. -/
theorem onEvent_outcome (e : NodeEvent) : (onEvent h st e).outcome = h.onEvent st e := by
  cases e with
  | client message clock => exact onClientMessage_outcome h st message clock
  | packet recvAddr incomingInterface packet clock reply =>
    simp only [onEvent, Host.onEvent, receivePacket, Odr.receivePacket, Noted.outcome_ite, Noted.outcome_bind,
      Noted.outcome_ofOption, onRrep_outcome, onApplication_outcome, Option.bind_eq_bind]

end Outcome

end Watched

/-! ## What is meant -/

/-- The queue of the packets that were buffered and not yet removed: one is appended inside the array, and
a slot that is read is in the array and has the packet of the queue that stands there. -/
def pendingWatch : Watch BufferNote (List Packet) where
  ok pending
    | .append index _ => index < bufferSize
    | .read index packet => index < bufferSize ∧ pending[index]? = some packet
    | .removed _ => True
  next pending
    | .append _ packet => pending ++ [packet]
    | .read .. => pending
    | .removed index => pending.eraseIdx index

instance : ∀ pending note, Decidable (pendingWatch.ok pending note)
  | _, .append index _ => inferInstanceAs (Decidable (index < bufferSize))
  | pending, .read index packet =>
    inferInstanceAs (Decidable (index < bufferSize ∧ pending[index]? = some packet))
  | _, .removed _ => .isTrue trivial

/-- A node and the queue; there is no node any more after an event without an outcome. -/
structure WatchedNode where
  node : Option NodeState
  pending : List Packet

def watchedMachine (h : Host) : Machine WatchedNode NodeEvent where
  init := { node := some .start, pending := [] }
  step s e := s.node.map fun st => {
    node := (h.onEvent st e).map (·.1)
    pending := pendingWatch.after s.pending (Watched.onEvent h st e).notes }

/-- All accesses of the event are as they are meant, and no more packets are buffered after it than there
is room for. -/
def BufferInBounds (h : Host) (s : WatchedNode) (e : NodeEvent) (s' : WatchedNode) : Prop :=
  (∀ st ∈ s.node, pendingWatch.Accepts s.pending (Watched.onEvent h st e).notes) ∧
    ∀ st ∈ s'.node, st.numPacketsBuffered ≤ bufferSize

/-! ## Events that send nothing from the buffer -/

/-- None of the packets has a usable route when the loop comes to it. -/
def Stays (h : Host) (table : Node → RoutingEntry) (clock : Nat → Int) (packets : List Packet) : Prop :=
  ∀ i < packets.length, h.sendable table (clock i) (packets.getD i {}) = false

instance {h : Host} {table : Node → RoutingEntry} {clock : Nat → Int} {packets : List Packet} :
    Decidable (Stays h table clock packets) := by
  unfold Stays
  infer_instance

/-- The packet an application message puts into the buffer: itself, on its way, or the answer of the server. -/
def Incoming.appended (h : Host) (inc : Incoming) (reply : List Char) : Option Packet :=
  if inc.destNode ≠ h.node then some { inc.packet with hopCount := inc.hopCount }
  else if inc.packet.applicationMsg = "request time".toList then
    some (createPfPacket 2 inc.packet.destinationIpAddr inc.packet.destinationPort inc.packet.sourceIpAddr
      inc.packet.sourcePort 0 reply)
  else none

/-- The table after the update every application message makes. -/
def learnedTable (st : NodeState) (inc : Incoming) (clock : Nat → Int) : Node → RoutingEntry :=
  (st.setEntry inc.sourceNode ((st.table inc.sourceNode).learn inc.recvAddr inc.incomingInterface inc.hopCount
    (clock 0))).table

/-- The event buffers nothing in a full buffer, and no packet is sent from the buffer. -/
def SendsNothing (h : Host) (st : NodeState) : NodeEvent → Prop
  | .client m clock =>
    st.numPacketsBuffered < bufferSize ∧ ∀ dest ∈ h.getNodeByIp m.destinationAddr,
      Stays h (st.forget m.flag dest).table (fun i => clock (i + 1)) (st.buffered ++
        [createPfPacket 2 h.currentAddr st.sourcePort m.destinationAddr m.destinationPort 0 m.msg])
  | .packet recvAddr incomingInterface packet clock reply =>
    ∀ sourceNode ∈ h.getNodeByIp packet.sourceIpAddr, ∀ destNode ∈ h.getNodeByIp packet.destinationIpAddr,
      let inc : Incoming := { recvAddr, incomingInterface, sourceNode, destNode, packet }
      if packet.type = 0 then True
      else if packet.type = 1 then
        destNode = h.node → Stays h (forwardPath h st inc clock).table (fun i => clock (i + 2)) st.buffered
      else
        ((inc.appended h reply).isSome → st.numPacketsBuffered < bufferSize) ∧
          Stays h (learnedTable st inc clock) (fun i => clock (i + 1))
            (st.buffered ++ (inc.appended h reply).toList)

instance {h : Host} {st : NodeState} {e : NodeEvent} : Decidable (SendsNothing h st e) := by
  cases e with
  | client => exact inferInstanceAs (Decidable (_ ∧ _))
  | packet recvAddr incomingInterface packet clock reply =>
    unfold SendsNothing
    infer_instance

/-- The queue is what is in the buffer. -/
structure Queued (pending : List Packet) (st : NodeState) : Prop where
  pending : pending = st.buffered
  le : st.numPacketsBuffered ≤ bufferSize

namespace Watched

variable {h : Host} {st : NodeState} {pending : List Packet} {clock : Nat → Int}

theorem length_buffered (st : NodeState) : st.buffered.length = st.numPacketsBuffered := by
  rw [NodeState.buffered, List.length_map, List.length_range]

theorem buffered_getElem? {i : Nat} (hi : i < st.numPacketsBuffered) :
    st.buffered[i]? = some (st.sendBuffer i) := by
  rw [NodeState.buffered, List.getElem?_map, List.getElem?_range hi, Option.map_some]

theorem Queued.congr {st' : NodeState} (hq : Queued pending st) (hslots : st'.sendBuffer = st.sendBuffer)
    (hnum : st'.numPacketsBuffered = st.numPacketsBuffered) : Queued pending st' where
  pending := by rw [NodeState.buffered, hslots, hnum]; exact hq.pending
  le := hnum ▸ hq.le

theorem buffered_append (st : NodeState) (packet : Packet) : NodeState.buffered { st with
    sendBuffer := Function.update st.sendBuffer st.numPacketsBuffered packet
    numPacketsBuffered := st.numPacketsBuffered + 1 } = st.buffered ++ [packet] := by
  rw [NodeState.buffered, List.range_succ, List.map_append, List.map_singleton]
  dsimp only
  rw [Function.update_self]
  refine congrArg (· ++ [packet]) (List.map_congr_left fun i hi => ?_)
  exact Function.update_of_ne (Nat.ne_of_lt (List.mem_range.mp hi)) _ _

/-- The buffer and the queue have one packet more, and the table is as it was. -/
structure Appended (st : NodeState) (packet : Packet) (pending : List Packet) (st' : NodeState) : Prop where
  queued : Queued pending st'
  buffered : st'.buffered = st.buffered ++ [packet]
  table : st'.table = st.table

theorem bufferPacket_ensures (packet : Packet) (hq : Queued pending st)
    (hroom : st.numPacketsBuffered < bufferSize) :
    pendingWatch.Ensures pending (bufferPacket st packet) (Appended st packet) := by
  refine .note_bind hroom (.ofOption fun st' hst' => ?_)
  obtain rfl := bufferPacket_eq_some hst'
  have hbuffered := buffered_append st packet
  refine ⟨⟨?_, hroom⟩, hbuffered, rfl⟩
  rw [hbuffered, ← hq.pending]
  rfl

/-- The loop over packets that stay changes nothing. -/
theorem flushFrom_ensures {todo i : Nat} (hq : Queued pending st) (hi : i + todo = st.numPacketsBuffered)
    (hstays : Stays h st.table clock st.buffered) : pendingWatch.Ensures pending (flushFrom h clock todo i st)
      fun pending' r => pending' = pending ∧ r = (st, []) := by
  induction todo generalizing i with
  | zero => exact .pure ⟨rfl, rfl⟩
  | succ todo ih =>
    have hslot : st.buffered[i]? = some (st.sendBuffer i) := buffered_getElem? (by omega)
    have hle := hq.le
    refine .bind (P := fun pending' packet => pending' = pending ∧ packet = st.sendBuffer i) ?_ ?_
    · refine .note_bind ⟨by omega, hq.pending ▸ hslot⟩ (.ofOption fun packet hpacket => ⟨rfl, ?_⟩)
      rw [Odr.readSlot, if_pos (by omega)] at hpacket
      exact (Option.some.inj hpacket).symm
    intro pending' packet hread
    obtain ⟨rfl, rfl⟩ := hread
    refine .ofOption_bind fun dest hdest => ?_
    have hnot := hstays i (by rw [length_buffered]; omega)
    rw [List.getD_eq_getElem?_getD, hslot, Option.getD_some] at hnot
    rw [if_neg (mt (sendable_eq_true hdest).mpr (ne_true_of_eq_false hnot))]
    exact ih (by omega)

theorem sendMessageFromBuffer_ensures (hq : Queued pending st) (hstays : Stays h st.table clock st.buffered) :
    pendingWatch.Ensures pending (sendMessageFromBuffer h clock st)
      fun pending' r => pending = pending' ∧ r = (st, []) :=
  (flushFrom_ensures hq (Nat.zero_add _) hstays).mono fun _ _ hr => ⟨hr.1.symm, hr.2⟩

theorem onClientMessage_ensures {m : ClientMessage} (hq : Queued pending st)
    (hguard : SendsNothing h st (.client m clock)) :
    pendingWatch.Ensures pending (onClientMessage h st m clock) fun pending' r => Queued pending' r.1 := by
  obtain ⟨hroom, hstays⟩ := hguard
  refine .bind (bufferPacket_ensures _ ⟨hq.pending, hq.le⟩ hroom) fun pending₁ st₁ happended => ?_
  refine .ofOption_bind fun st₂ hnext => ?_
  obtain ⟨-, rfl⟩ := nextBroadcastId_eq_some hnext
  refine .ofOption_bind fun dest hdest => .ofOption_bind fun rreq _ => ?_
  have hq₁ : Queued pending₁ ({ st₁ with broadcastId := st₁.broadcastId + 1 }.forget m.flag dest) :=
    Queued.congr happended.queued (by rw [forget_sendBuffer]) (by rw [forget_numPacketsBuffered])
  have htable : ({ st₁ with broadcastId := st₁.broadcastId + 1 }.forget m.flag dest).table =
      (st.forget m.flag dest).table := by
    rw [forget_table, forget_table]
    dsimp only
    rw [happended.table]
  have hbuffered := hq₁.pending.symm.trans (happended.queued.pending.trans happended.buffered)
  refine .bind (sendMessageFromBuffer_ensures hq₁ (htable ▸ hbuffered ▸ hstays dest hdest)) ?_
  intro pending' r hstayed
  obtain ⟨rfl, rfl⟩ := hstayed
  exact .pure ⟨hq₁.pending, hq₁.le⟩

theorem forwardPath_buffer (h : Host) (st : NodeState) (inc : Incoming) (clock : Nat → Int) :
    (forwardPath h st inc clock).sendBuffer = st.sendBuffer ∧
      (forwardPath h st inc clock).numPacketsBuffered = st.numPacketsBuffered := by
  unfold forwardPath
  dsimp only
  split <;> exact ⟨rfl, rfl⟩

theorem onRrep_ensures {inc : Incoming} (hq : Queued pending st)
    (hguard : inc.destNode = h.node →
      Stays h (forwardPath h st inc clock).table (fun i => clock (i + 2)) st.buffered) :
    pendingWatch.Ensures pending (onRrep h st inc clock) fun pending' r => Queued pending' r.1 := by
  obtain ⟨hslots, hnum⟩ := forwardPath_buffer h st inc clock
  have hq₁ : Queued pending (forwardPath h st inc clock) := Queued.congr hq hslots hnum
  simp only [onRrep]
  split
  next hown =>
    have hstays := hguard hown
    rw [← hq.pending, hq₁.pending] at hstays
    refine (sendMessageFromBuffer_ensures hq₁ hstays).mono ?_
    intro pending' r hstayed
    obtain ⟨rfl, rfl⟩ := hstayed
    exact hq₁
  next =>
    exact .ofOption_bind fun action _ => .pure hq₁

/-- What an application message leaves for the flush. -/
theorem acceptApplication_ensures {inc : Incoming} {reply : List Char} (hq : Queued pending st)
    (hroom : (inc.appended h reply).isSome → st.numPacketsBuffered < bufferSize) :
    pendingWatch.Ensures pending (acceptApplication h st inc reply) fun pending' r =>
      Queued pending' r.1 ∧ r.1.buffered = st.buffered ++ (inc.appended h reply).toList ∧
        r.1.table = st.table := by
  simp only [acceptApplication]
  unfold Incoming.appended at hroom ⊢
  split
  next hown =>
    rw [if_neg (not_not.mpr hown)] at hroom ⊢
    split
    next hrequest =>
      rw [if_pos hrequest] at hroom
      refine .bind (bufferPacket_ensures _ hq (hroom rfl)) fun pending' st' happended => ?_
      exact .pure ⟨happended.queued, happended.buffered, happended.table⟩
    next hother =>
      exact .ofOption_bind fun sunPath _ => .pure ⟨hq, (List.append_nil _).symm, rfl⟩
  next hforeign =>
    rw [if_pos hforeign] at hroom
    refine .bind (bufferPacket_ensures _ hq (hroom rfl)) fun pending' st' happended => ?_
    exact .pure ⟨happended.queued, happended.buffered, happended.table⟩

theorem onApplication_ensures {inc : Incoming} {reply : List Char} (hq : Queued pending st)
    (hroom : (inc.appended h reply).isSome → st.numPacketsBuffered < bufferSize)
    (hstays : Stays h (learnedTable st inc clock) (fun i => clock (i + 1))
      (st.buffered ++ (inc.appended h reply).toList)) :
    pendingWatch.Ensures pending (onApplication h st inc clock reply) fun pending' r => Queued pending' r.1 := by
  refine .bind (acceptApplication_ensures ⟨hq.pending, hq.le⟩ hroom) ?_
  rintro pending₁ ⟨st₁, accepted⟩ ⟨hq₁, hbuffered, htable⟩
  dsimp only at hq₁ hbuffered htable
  refine .bind (sendMessageFromBuffer_ensures hq₁ (htable ▸ hbuffered ▸ hstays)) ?_
  intro pending' r hstayed
  obtain ⟨rfl, rfl⟩ := hstayed
  refine .ofOption_bind fun r hrreq => ?_
  obtain ⟨hslots, hnum, -⟩ := rediscover_waiting hrreq
  exact .pure (Queued.congr hq₁ hslots hnum)

theorem onRreq_queued {inc : Incoming} {r : NodeState × List Action} (hq : Queued pending st)
    (htype : inc.packet.type = 0) (hr : onRreq h st inc clock = some r) : Queued pending r.1 := by
  obtain ⟨st', actions⟩ := r
  cases onRreq_outcome htype hr with
  | own => exact hq
  | duplicate => exact Queued.congr hq rfl rfl
  | fresh _ _ _ hstate =>
    rcases hstate with rfl | rfl
    · exact Queued.congr hq rfl rfl
    · exact Queued.congr hq rfl rfl

theorem onEvent_ensures {e : NodeEvent} (hq : Queued pending st) (hguard : SendsNothing h st e) :
    pendingWatch.Ensures pending (onEvent h st e) fun pending' r => Queued pending' r.1 := by
  cases e with
  | client m clock => exact onClientMessage_ensures hq hguard
  | packet recvAddr incomingInterface packet clock reply =>
    simp only [SendsNothing] at hguard
    refine .ofOption_bind fun sourceNode hsource => .ofOption_bind fun destNode hdest => ?_
    have hguard := hguard sourceNode hsource destNode hdest
    dsimp only at hguard ⊢
    split
    next htype =>
      refine .ofOption fun r hr => ?_
      exact onRreq_queued hq htype hr
    next htype₀ =>
      rw [if_neg htype₀] at hguard
      split
      next htype =>
        rw [if_pos htype] at hguard
        exact onRrep_ensures hq hguard
      next htype =>
        rw [if_neg htype] at hguard
        exact onApplication_ensures hq hguard.1 hguard.2

/-- Nothing stops the hundred and first packet. -/
theorem onClientMessage_full (m : ClientMessage) (hfull : bufferSize ≤ st.numPacketsBuffered) :
    ¬ pendingWatch.Accepts pending (onClientMessage h st m clock).notes := by
  intro haccepts
  have happend : st.numPacketsBuffered < bufferSize := haccepts.of_bind.of_bind.1
  omega

/-- Taking a packet out reads the slot behind the last one. -/
theorem removeFromBuffer_behind {i : Nat} (hlen : pending.length = st.numPacketsBuffered)
    (hi : i < st.numPacketsBuffered) : ¬ pendingWatch.Accepts pending (removeFromBuffer st i).notes := by
  intro haccepts
  obtain ⟨n, hn⟩ := Nat.exists_eq_succ_of_ne_zero (Nat.ne_zero_of_lt hi)
  have hloop := haccepts.of_bind
  rw [hn, removeLoop, if_pos (by omega)] at hloop
  have hread : pending[n + 1]? = some (st.sendBuffer (n + 1)) := hloop.of_bind.of_bind.1.2
  rw [List.getElem?_eq_none (by omega)] at hread
  cases hread

end Watched

/-! ## Runs -/

/-- **The buffer stays in bounds.** In every run none of whose events buffers a packet in a full buffer or
sends one from it, every access to the buffer is as it is meant. -/
theorem inBounds_along (h : Host) (es : List NodeEvent)
    (hguard : (watchedMachine h).Along (fun s e _ => ∀ st ∈ s.node, SendsNothing h st e)
      (watchedMachine h).init es) :
    (watchedMachine h).Along (BufferInBounds h) (watchedMachine h).init es := by
  refine hguard.of_guard (I := fun s => ∀ st ∈ s.node, Queued s.pending st) ?_ ?_
  · intro s e s' hq hs hsends
    obtain ⟨st, hst, rfl⟩ := Option.map_eq_some_iff.mp hs
    obtain ⟨haccepts, hpost⟩ := Watched.onEvent_ensures (hq st hst) (hsends st hst)
    have hnext : ∀ st' ∈ (h.onEvent st e).map (·.1),
        Queued (pendingWatch.after s.pending (Watched.onEvent h st e).notes) st' := by
      intro st' hst'
      obtain ⟨r, hr, rfl⟩ := Option.map_eq_some_iff.mp hst'
      exact hpost r ((Watched.onEvent_outcome h st e).trans hr)
    refine ⟨⟨fun st₁ hst₁ => ?_, fun st' hst' => (hnext st' hst').le⟩, hnext⟩
    obtain rfl : st = st₁ := Option.some.inj (hst.symm.trans hst₁)
    exact haccepts
  · intro st hst
    obtain rfl : NodeState.start = st := Option.some.inj hst
    exact ⟨rfl, Nat.zero_le _⟩

/-! ## A packet that waits, and one that is sent -/

/-- Node 1 hears of node 2. -/
def heardOf : NodeEvent := .packet (lineMac 2 1) 2 (rreqPacket 2 3 0) (fun _ => 0) []

/-- A packet for node 3 waits at node 1. -/
theorem inBounds_along_waits : (((watchedMachine (lineTopology.host 1)).exec
      (watchedMachine (lineTopology.host 1)).init [.client (lineRequest 3) fun _ => 0, heardOf]).any
        fun s => s.node.any fun st => st.numPacketsBuffered = 1) = true ∧
    (watchedMachine (lineTopology.host 1)).Along (BufferInBounds (lineTopology.host 1))
      (watchedMachine (lineTopology.host 1)).init [.client (lineRequest 3) fun _ => 0, heardOf] :=
  ⟨by decide +kernel, inBounds_along _ _ (Machine.along_of_execBy (by decide +kernel))⟩

/-- A packet for node 2 is sent at once, and slot 1 is read with one packet in the buffer. -/
theorem not_inBounds : ¬ (watchedMachine (lineTopology.host 1)).Along
    (BufferInBounds (lineTopology.host 1)) (watchedMachine (lineTopology.host 1)).init
    [heardOf, .client (lineRequest 2) fun _ => 5] := by
  intro halong
  have hrun : ((watchedMachine (lineTopology.host 1)).exec (watchedMachine (lineTopology.host 1)).init
      [heardOf]).any (fun s => s.node.any fun st => ¬ pendingWatch.Accepts s.pending
        (Watched.onEvent (lineTopology.host 1) st (.client (lineRequest 2) fun _ => 5)).notes) = true := by
    decide +kernel
  obtain ⟨s, hs, hnode⟩ := (Option.any_eq_true _ _).mp hrun
  obtain ⟨st, hst, hnot⟩ := (Option.any_eq_true _ _).mp hnode
  have hstep : (watchedMachine (lineTopology.host 1)).step s (.client (lineRequest 2) fun _ => 5) = some _ :=
    Option.map_eq_some_iff.mpr ⟨st, hst, rfl⟩
  have hlast := @Machine.Along.last _ _ _ _ [heardOf] _ _ _ _ halong hs hstep
  exact absurd (hlast.1 st hst) (by simpa using hnot)

end Sockets.Odr
