/-
What a step of a node can do, said once for the invariants of the network:
what becomes of each entry of its table (`receivePacket_table`), of its
output buffer (`KeepsBuffer`), and why each packet it puts out is put out
(`Emitted`).
-/
import Sockets.Odr.Node

namespace Sockets.Odr

/-! ## The output buffer -/

/-- Of a packet: kept by the conversion to network order in the buffer. -/
def HtonlClosed (P : Packet → Prop) : Prop := ∀ packet, P packet → P packet.htonl

/-- What the loop that sends from the buffer does to the node. -/
structure FlushSpec (h : Host) (st st' : NodeState) (sent : List Action) : Prop where
  table : st'.table = st.table
  broadcastId : st'.broadcastId = st.broadcastId
  buffer : ∀ P, HtonlClosed P → (∀ i, P (st.sendBuffer i)) → ∀ i, P (st'.sendBuffer i)
  sent : ∀ P, HtonlClosed P → (∀ i, P (st.sendBuffer i)) → ∀ action ∈ sent, ∃ packet destNode,
    P packet ∧ h.getNodeByIp packet.destinationIpAddr = some destNode ∧
      checkAddressNotEmpty (st.table destNode).nextHop = true ∧
      h.sendAlong (st.table destNode) packet = some action

theorem FlushSpec.refl (h : Host) (st : NodeState) : FlushSpec h st st [] where
  table := rfl
  broadcastId := rfl
  buffer _ _ := id
  sent := by simp

theorem update_forall {P : Packet → Prop} {buffer : Nat → Packet} {packet : Packet} (i : Nat)
    (hall : ∀ j, P (buffer j)) (hp : P packet) : ∀ j, P (Function.update buffer i packet j) := by
  intro j
  rw [Function.update_apply]
  split
  · exact hp
  · exact hall j

/-- The shift of the buffer only copies slots. -/
theorem removeLoop_forall {P : Packet → Prop} {removeIndex i : Nat} {buffer buffer' : Nat → Packet}
    (h : removeLoop removeIndex i buffer = some buffer') (hall : ∀ j, P (buffer j)) :
    ∀ j, P (buffer' j) := by
  induction i generalizing buffer with
  | zero =>
    simp only [removeLoop, Option.some.injEq] at h
    exact h ▸ hall
  | succ i ih =>
    simp only [removeLoop] at h
    split at h
    · simp only [Option.bind_eq_bind, Option.bind_eq_some_iff] at h
      obtain ⟨packet, hp, h⟩ := h
      simp only [readSlot, Option.ite_none_right_eq_some, Option.some.injEq] at hp
      have hpacket : P packet := hp.2 ▸ hall (i + 1)
      exact ih h (update_forall i hall hpacket)
    · simp only [Option.some.injEq] at h
      exact h ▸ hall

theorem flushFrom_spec {h : Host} {clock : Nat → Int} {todo i : Nat} {st st' : NodeState}
    {sent : List Action}
    (hf : flushFrom h clock todo i st = some (st', sent)) : FlushSpec h st st' sent := by
  induction todo generalizing i st sent with
  | zero =>
    simp only [flushFrom, Option.some.injEq, Prod.mk.injEq] at hf
    obtain ⟨rfl, rfl⟩ := hf
    exact .refl h st
  | succ todo ih =>
    simp only [flushFrom, Option.bind_eq_bind, Option.bind_eq_some_iff] at hf
    obtain ⟨packet, hslot, destNode, hdest, hf⟩ := hf
    simp only [readSlot, Option.ite_none_right_eq_some, Option.some.injEq] at hslot
    obtain ⟨-, rfl⟩ := hslot
    split at hf
    next hroute =>
      simp only [Option.bind_eq_some_iff, NodeState.removeFromBuffer, Option.bind_eq_bind] at hf
      obtain ⟨action, hsend, st₁, ⟨sendBuffer, hloop, hst₁⟩, ⟨st₂, actions⟩, hrest, hf⟩ := hf
      simp only [Option.some.injEq, Prod.mk.injEq] at hf hst₁
      obtain ⟨rfl, rfl⟩ := hf
      have hspec := ih hrest
      have hkeep : ∀ P, HtonlClosed P → (∀ i, P (st.sendBuffer i)) → ∀ i, P (st₁.sendBuffer i) := by
        intro P hclosed hall
        have hmarked := update_forall i hall (hclosed _ (hall i))
        rw [← hst₁]
        exact removeLoop_forall hloop hmarked
      have htable : st₁.table = st.table := hst₁ ▸ rfl
      have hid : st₁.broadcastId = st.broadcastId := hst₁ ▸ rfl
      exact {
        table := hspec.table.trans htable
        broadcastId := hspec.broadcastId.trans hid
        buffer := by
          intro P hclosed hall
          exact hspec.buffer P hclosed (hkeep P hclosed hall)
        sent := by
          intro P hclosed hall a ha
          rcases List.mem_cons.mp ha with rfl | ha
          · exact ⟨_, destNode, hall i, hdest, hroute.1, hsend⟩
          · have hlater := hspec.sent P hclosed (hkeep P hclosed hall) a ha
            rwa [htable] at hlater }
    · exact ih hf

theorem bufferPacket_eq_some {st st' : NodeState} {packet : Packet}
    (h : st.bufferPacket packet = some st') :
    st' = { st with
      sendBuffer := Function.update st.sendBuffer st.numPacketsBuffered packet
      numPacketsBuffered := st.numPacketsBuffered + 1 } := by
  simp only [NodeState.bufferPacket, Option.ite_none_right_eq_some, Option.some.injEq] at h
  exact h.2.symm

theorem nextBroadcastId_eq_some {st st' : NodeState} (h : st.nextBroadcastId = some st') :
    st.broadcastId + 1 < 2 ^ 31 ∧ st' = { st with broadcastId := st.broadcastId + 1 } := by
  simp only [NodeState.nextBroadcastId, Option.ite_none_right_eq_some, Option.some.injEq] at h
  exact ⟨h.1, h.2.symm⟩

theorem sendAlong_eq_some {h : Host} {entry : RoutingEntry} {packet : Packet} {action : Action}
    (hs : h.sendAlong entry packet = some action) : ∃ srcMac,
      h.getMacAddrByInterfaceNum entry.outInterface = some srcMac ∧
      action = .send srcMac entry.nextHop entry.outInterface packet := by
  simp only [Host.sendAlong, Host.sendMessage, Option.bind_eq_bind, Option.bind_eq_some_iff,
    Option.ite_none_right_eq_some, Option.some.injEq] at hs
  obtain ⟨srcMac, hmac, -, rfl⟩ := hs
  exact ⟨srcMac, hmac, rfl⟩

theorem broadcast_eq_some {h : Host} {packet : Packet} {action : Action}
    (hs : h.broadcast packet = some action) :
    action = .broadcast packet := by
  simp only [Host.broadcast, Option.ite_none_right_eq_some, Option.some.injEq] at hs
  exact hs.2.symm

/-! ## Why a packet is put out -/

/-- The node answers an RREQ for another node from its own table. -/
structure AnswersFromCache (h : Host) (st : NodeState) (inc : Incoming) (clock : Nat → Int) : Prop where
  foreign : inc.sourceNode ≠ h.node
  intermediate : h.node ≠ inc.destNode
  fresh : (st.table inc.destNode).highestBroadcastId inc.sourceNode < inc.id
  route : checkAddressNotEmpty (st.table inc.destNode).nextHop = true
  notStale : (st.table inc.destNode).timestamp + h.staleTime > clock 2
  notForced : inc.forced = 0
  notSent : rrepAlreadySent inc.packet.applicationMsg ≠ 1

/-- The reasons for what a step from `st₀` to `st` puts out. `Buffered` is
what is known of the packets in the buffer. -/
inductive Emitted (h : Host) (st₀ st : NodeState) (clock : Nat → Int) (Buffered : Packet → Prop) :
    Option Incoming → Action → Prop
  /-- a discovery of its own, for a client or an application message -/
  | originate {inc packet} (htrigger : ∀ i ∈ inc, i.packet.type ≠ 0) (htype : packet.type = 0)
      (hhops : packet.hopCount = 0)
      (hsource : packet.sourceIpAddr = h.localCanonicalIp ∨ packet.sourceIpAddr = h.currentAddr)
      (hid : receivedBid packet.applicationMsg = st.broadcastId ∨ receivedBid packet.applicationMsg = 0)
      (hnext : st.broadcastId = st₀.broadcastId + 1) :
      Emitted h st₀ st clock Buffered inc (.broadcast packet)
  /-- an RREQ, again -/
  | flood {inc : Incoming} {msg} (htype : inc.packet.type = 0) (hid : receivedBid msg = inc.id)
      (hforeign : inc.sourceNode ≠ h.node) (hdest : inc.destNode ≠ inc.sourceNode)
      (hfresh : (st₀.table inc.destNode).highestBroadcastId inc.sourceNode < inc.id)
      (hmark : (st.table inc.destNode).highestBroadcastId inc.sourceNode = inc.id) :
      Emitted h st₀ st clock Buffered (some inc) (.broadcast { inc.packet with
        hopCount := inc.packet.hopCount + 1, applicationMsg := msg })
  /-- an RREP to an RREQ -/
  | reply {inc : Incoming} {msg action} (htype : inc.packet.type = 0) (hid : receivedBid msg = inc.id)
      (hforeign : inc.sourceNode ≠ h.node)
      (hroute : inc.destNode = h.node ∨ AnswersFromCache h st₀ inc clock)
      (hsend : h.sendAlong (st.table inc.sourceNode) (createPfPacket 1 inc.packet.destinationIpAddr
        inc.packet.destinationPort inc.packet.sourceIpAddr inc.packet.sourcePort 0 msg) = some action) :
      Emitted h st₀ st clock Buffered (some inc) action
  /-- an RREP on its way -/
  | relay {inc : Incoming} {action} (htype : inc.packet.type = 1)
      (hsend : h.sendAlong (st.table inc.destNode)
        { inc.packet with hopCount := inc.packet.hopCount + 1 } = some action) :
      Emitted h st₀ st clock Buffered (some inc) action
  | buffered {inc packet destNode action} (hp : Buffered packet)
      (hdest : h.getNodeByIp packet.destinationIpAddr = some destNode)
      (hroute : checkAddressNotEmpty (st.table destNode).nextHop = true)
      (hsend : h.sendAlong (st.table destNode) packet = some action) :
      Emitted h st₀ st clock Buffered inc action
  | toServer {inc sourceIpAddr sourcePort msg} :
      Emitted h st₀ st clock Buffered inc (.toServer sourceIpAddr sourcePort msg)
  | toClient {inc sourceIpAddr sourcePort msg flag sunPath} :
      Emitted h st₀ st clock Buffered inc (.toClient sourceIpAddr sourcePort msg flag sunPath)

/-- Whether an action is a packet to everyone. -/
def Action.isBroadcast : Action → Bool
  | .broadcast _ => true
  | _ => false

theorem sendAlong_not_broadcast {h : Host} {entry : RoutingEntry} {packet : Packet} {action : Action}
    (hs : h.sendAlong entry packet = some action) : action.isBroadcast = false := by
  obtain ⟨_, _, rfl⟩ := sendAlong_eq_some hs
  rfl

theorem FlushSpec.no_broadcast {h : Host} {st st' : NodeState} {sent : List Action}
    (hf : FlushSpec h st st' sent) :
    sent.countP Action.isBroadcast = 0 := by
  refine List.countP_eq_zero.mpr ?_
  intro action ha
  obtain ⟨_, _, -, -, -, hs⟩ := hf.sent (fun _ => True) (fun _ _ => trivial) (fun _ => trivial) action ha
  simp [sendAlong_not_broadcast hs]

/-! ## The RREQ branch -/

section Rreq

variable {h : Host} {st st' : NodeState} {inc : Incoming} {clock : Nat → Int} {actions : List Action}

theorem reversePath_table (x : Node) : (reversePath h st inc clock).table x =
    if x = inc.sourceNode then
      let entry :=
        if inc.id > (st.table inc.sourceNode).highestBroadcastId inc.sourceNode then
          (st.table inc.sourceNode).setHighest inc.sourceNode inc.id
        else st.table inc.sourceNode
      if updateReverse h (st.table inc.sourceNode) inc (clock 0) then
        entry.learn inc.recvAddr inc.incomingInterface inc.hopCount (clock 1)
      else entry
    else st.table x := by
  simp only [reversePath, NodeState.setEntry, Function.update_apply]

theorem reversePath_of_ne {x : Node} (hx : x ≠ inc.sourceNode) :
    (reversePath h st inc clock).table x = st.table x := by
  rw [reversePath_table, if_neg hx]

theorem reversePath_nextHop (x : Node) :
    ((reversePath h st inc clock).table x).nextHop = (st.table x).nextHop ∨
      (x = inc.sourceNode ∧ ((reversePath h st inc clock).table x).nextHop = inc.recvAddr) := by
  rw [reversePath_table]
  by_cases hx : x = inc.sourceNode
  · subst hx
    rw [if_pos rfl]
    dsimp only
    split
    · exact .inr ⟨rfl, rfl⟩
    · left
      split <;> rfl
  · rw [if_neg hx]
    exact .inl rfl

/-- Past the reverse path, the node has a route to the source. -/
theorem reversePath_known :
    checkAddressNotEmpty ((reversePath h st inc clock).table inc.sourceNode).nextHop = true ∨
      ((reversePath h st inc clock).table inc.sourceNode).nextHop = inc.recvAddr := by
  rw [reversePath_table, if_pos rfl]
  dsimp only
  split
  · exact .inr rfl
  next hu =>
    left
    have hne : checkAddressNotEmpty (st.table inc.sourceNode).nextHop = true := by
      by_contra hc
      exact hu (by simp [updateReverse, hc])
    split <;> exact hne

/-- The reverse path raises the diagonal cell of the source to the id at least. -/
theorem reversePath_highest (x s : Node) :
    ((reversePath h st inc clock).table x).highestBroadcastId s =
      if x = inc.sourceNode ∧ s = inc.sourceNode then max ((st.table x).highestBroadcastId s) inc.id
      else (st.table x).highestBroadcastId s := by
  rw [reversePath_table]
  by_cases hx : x = inc.sourceNode
  · subst hx
    rw [if_pos rfl]
    have hcells : ∀ entry : RoutingEntry, entry.highestBroadcastId = Function.update
        (st.table inc.sourceNode).highestBroadcastId inc.sourceNode
        (max ((st.table inc.sourceNode).highestBroadcastId inc.sourceNode) inc.id) →
        entry.highestBroadcastId s = if inc.sourceNode = inc.sourceNode ∧ s = inc.sourceNode then
          max ((st.table inc.sourceNode).highestBroadcastId s) inc.id
          else (st.table inc.sourceNode).highestBroadcastId s := by
      intro entry he
      rw [he, Function.update_apply]
      simp only [true_and]
      split
      next hs => rw [hs]
      · rfl
    refine hcells _ ?_
    dsimp only
    by_cases hid : inc.id > (st.table inc.sourceNode).highestBroadcastId inc.sourceNode
    · rw [if_pos hid, max_eq_right (by omega)]
      split <;> rfl
    · rw [if_neg hid, max_eq_left (by omega), Function.update_eq_self]
      split <;> rfl
  · rw [if_neg hx, if_neg (by simp [hx])]

/-- The table and the state once an RREQ has passed the test for duplicates. -/
def markSeen (h : Host) (st : NodeState) (inc : Incoming) (clock : Nat → Int) : NodeState :=
  let st := reversePath h st inc clock
  st.setEntry inc.destNode ((st.table inc.destNode).setHighest inc.sourceNode inc.id)

theorem markSeen_of_ne {x : Node} (hx : x ≠ inc.destNode) :
    (markSeen h st inc clock).table x = (reversePath h st inc clock).table x := by
  simp only [markSeen, NodeState.setEntry, Function.update_apply, if_neg hx]

theorem markSeen_highest :
    ((markSeen h st inc clock).table inc.destNode).highestBroadcastId inc.sourceNode = inc.id := by
  simp [markSeen, NodeState.setEntry, RoutingEntry.setHighest]

theorem markSeen_entry (hdest : inc.destNode ≠ inc.sourceNode) :
    (markSeen h st inc clock).table inc.destNode =
    (st.table inc.destNode).setHighest inc.sourceNode inc.id := by
  simp only [markSeen, NodeState.setEntry, Function.update_self, reversePath_of_ne hdest]

/-- An RREQ that passed the test for duplicates, and a state that has marked it as seen. -/
structure Passed (h : Host) (st st' : NodeState) (inc : Incoming) : Prop where
  type : inc.packet.type = 0
  foreign : inc.sourceNode ≠ h.node
  dest : inc.destNode ≠ inc.sourceNode
  fresh : (st.table inc.destNode).highestBroadcastId inc.sourceNode < inc.id
  mark : (st'.table inc.destNode).highestBroadcastId inc.sourceNode = inc.id

/-- What the RREQ branch may put out. -/
structure Answered (h : Host) (st st' : NodeState) (inc : Incoming) (clock : Nat → Int)
    (actions : List Action) : Prop where
  emitted : ∀ Buffered, ∀ action ∈ actions, Emitted h st st' clock Buffered (some inc) action
  count : actions.countP Action.isBroadcast ≤ 1

theorem Answered.nil : Answered h st st' inc clock [] where
  emitted := by simp
  count := by simp

theorem Passed.broadcast (hp : Passed h st st' inc) {msg : List Char} {action : Action}
    (hid : receivedBid msg = inc.id)
    (hb : h.broadcast { inc.packet with hopCount := inc.packet.hopCount + 1, applicationMsg := msg } =
      some action) :
    Answered h st st' inc clock [action] where
  emitted Buffered a ha := by
    rw [List.mem_singleton.mp ha, broadcast_eq_some hb]
    exact .flood hp.type hid hp.foreign hp.dest hp.fresh hp.mark
  count := List.countP_le_length

theorem Passed.flood (hp : Passed h st st' inc) {again : List Action} (hs : flood h inc = some again) :
    Answered h st st' inc clock again := by
  simp only [Odr.flood, Option.bind_eq_bind, Option.bind_eq_some_iff, Option.some.injEq] at hs
  obtain ⟨action, hb, rfl⟩ := hs
  exact hp.broadcast rfl hb

theorem Passed.floodReplied (hp : Passed h st st' inc) {seenSource : Bool} {originalHops : Int}
    {again : List Action} (hs : floodReplied h inc seenSource originalHops = some again) :
    Answered h st st' inc clock again := by
  unfold Odr.floodReplied at hs
  split at hs
  · simp only [Option.bind_eq_bind, Option.bind_eq_some_iff, Option.some.injEq] at hs
    obtain ⟨action, hb, rfl⟩ := hs
    exact hp.broadcast (receivedBid_set_zero _ _) hb
  · simp only [Option.some.injEq] at hs
    exact hs ▸ .nil

/-- An RREP, and perhaps the RREQ again. -/
theorem Passed.reply (hp : Passed h st st' inc) {msg : List Char} {rrep : Action} {again : List Action}
    {seenSource : Bool} {originalHops : Int} (hid : receivedBid msg = inc.id)
    (hroute : inc.destNode = h.node ∨ AnswersFromCache h st inc clock)
    (hrrep : replyTo h st' inc msg = some rrep)
    (hs : Odr.floodReplied h inc seenSource originalHops = some again) :
    Answered h st st' inc clock (rrep :: again) where
  emitted Buffered a ha := by
    rcases List.mem_cons.mp ha with rfl | ha
    · exact .reply hp.type hid hp.foreign hroute hrrep
    · exact (hp.floodReplied hs).emitted Buffered a ha
  count := by
    have hagain : Answered h st st' inc clock again := hp.floodReplied hs
    have hrrep : ¬ rrep.isBroadcast = true := by simp [sendAlong_not_broadcast hrrep]
    rw [List.countP_cons_of_neg hrrep]
    exact hagain.count

variable (clock) in
theorem rreqDestination_spec {st₁ : NodeState} {seenSource : Bool} {originalHops : Int}
    (hp : Passed h st st₁ inc) (hown : inc.destNode = h.node)
    (hs : rreqDestination h st₁ inc seenSource originalHops = some (st', actions)) :
    st' = st₁ ∧ Answered h st st' inc clock actions := by
  simp only [rreqDestination] at hs
  split at hs
  · simp only [Option.bind_eq_bind, Option.bind_eq_some_iff, Option.some.injEq, Prod.mk.injEq] at hs
    obtain ⟨rrep, hrrep, again, hagain, rfl, rfl⟩ := hs
    have hid : receivedBid (if inc.forced = 1 then (inc.packet.applicationMsg.take 30).set 1 '1'
        else inc.packet.applicationMsg.take 30) = inc.id := by
      split
      · rw [receivedBid_set_one, receivedBid_take, Incoming.id]
      · rw [receivedBid_take, Incoming.id]
    exact ⟨rfl, hp.reply hid (.inl hown) hrrep hagain⟩
  · simp only [Option.some.injEq, Prod.mk.injEq] at hs
    obtain ⟨rfl, rfl⟩ := hs
    exact ⟨rfl, .nil⟩

theorem rreqIntermediate_spec {st₁ : NodeState} {seenSource : Bool} {originalHops : Int}
    (hp : Passed h st st₁ inc) (hother : h.node ≠ inc.destNode)
    (hnext : (st₁.table inc.destNode).nextHop = (st.table inc.destNode).nextHop)
    (htime : (st₁.table inc.destNode).timestamp = (st.table inc.destNode).timestamp)
    (hs : rreqIntermediate h st₁ inc seenSource originalHops clock = some (st', actions)) :
    (st' = st₁ ∨ st' = st₁.setEntry inc.destNode { st₁.table inc.destNode with timestamp := clock 3 }) ∧
      Answered h st st' inc clock actions := by
  simp only [rreqIntermediate] at hs
  split at hs
  · simp only [Option.bind_eq_bind, Option.bind_eq_some_iff, Option.some.injEq, Prod.mk.injEq] at hs
    obtain ⟨again, hagain, rfl, rfl⟩ := hs
    exact ⟨.inl rfl, hp.flood hagain⟩
  split at hs
  next hroute =>
    split at hs
    next hforced =>
      have hp' : Passed h st
          (st₁.setEntry inc.destNode { st₁.table inc.destNode with timestamp := clock 3 }) inc :=
        { hp with mark := by simpa [NodeState.setEntry] using hp.mark }
      split at hs
      next hsent =>
        simp only [Option.bind_eq_bind, Option.bind_eq_some_iff, Option.some.injEq, Prod.mk.injEq] at hs
        obtain ⟨rrep, hrrep, again, hagain, rfl, rfl⟩ := hs
        have hid : receivedBid (inc.packet.applicationMsg.take 30) = inc.id := by
          rw [receivedBid_take, Incoming.id]
        have hcached : AnswersFromCache h st inc clock := {
          foreign := hp.foreign
          intermediate := hother
          fresh := hp.fresh
          route := hnext ▸ hroute.1
          notStale := htime ▸ hroute.2
          notForced := hforced
          notSent := hsent }
        exact ⟨.inr rfl, hp'.reply hid (.inr hcached) hrrep hagain⟩
      · simp only [Option.some.injEq, Prod.mk.injEq] at hs
        obtain ⟨rfl, rfl⟩ := hs
        exact ⟨.inr rfl, .nil⟩
    · split at hs
      · simp only [Option.bind_eq_bind, Option.bind_eq_some_iff, Option.some.injEq, Prod.mk.injEq] at hs
        obtain ⟨again, hagain, rfl, rfl⟩ := hs
        exact ⟨.inl rfl, hp.flood hagain⟩
      · simp only [Option.some.injEq, Prod.mk.injEq] at hs
        obtain ⟨rfl, rfl⟩ := hs
        exact ⟨.inl rfl, .nil⟩
  · simp only [Option.some.injEq, Prod.mk.injEq] at hs
    obtain ⟨rfl, rfl⟩ := hs
    exact ⟨.inl rfl, .nil⟩

/-- What the RREQ branch does: it ignores the node's own RREQ, drops a
duplicate, or marks a new one and perhaps refreshes the entry it answers
from. -/
inductive RreqOutcome (h : Host) (st : NodeState) (inc : Incoming) (clock : Nat → Int) :
    NodeState → List Action → Prop
  | own (hown : inc.sourceNode = h.node) : RreqOutcome h st inc clock st []
  | duplicate (hforeign : inc.sourceNode ≠ h.node) :
      RreqOutcome h st inc clock (reversePath h st inc clock) []
  | fresh {st' : NodeState} {actions : List Action} (hforeign : inc.sourceNode ≠ h.node)
      (hdest : inc.destNode ≠ inc.sourceNode)
      (hfresh : (st.table inc.destNode).highestBroadcastId inc.sourceNode < inc.id)
      (hstate : st' = markSeen h st inc clock ∨ st' = (markSeen h st inc clock).setEntry inc.destNode
        { (markSeen h st inc clock).table inc.destNode with timestamp := clock 3 })
      (hanswered : Answered h st st' inc clock actions) :
      RreqOutcome h st inc clock st' actions

theorem onRreq_outcome (htype : inc.packet.type = 0)
    (hs : onRreq h st inc clock = some (st', actions)) :
    RreqOutcome h st inc clock st' actions := by
  simp only [onRreq] at hs
  split at hs
  next hown =>
    simp only [Option.some.injEq, Prod.mk.injEq] at hs
    obtain ⟨rfl, rfl⟩ := hs
    exact .own hown
  next hforeign =>
  split at hs
  next hfresh =>
    -- the diagonal cell was raised to the id already, so the packet is not from its own destination
    have hdest : inc.destNode ≠ inc.sourceNode := by
      intro he
      rw [reversePath_highest, if_pos ⟨he, rfl⟩] at hfresh
      omega
    rw [reversePath_of_ne hdest] at hfresh
    have hentry : (markSeen h st inc clock).table inc.destNode =
        (st.table inc.destNode).setHighest inc.sourceNode inc.id := markSeen_entry hdest
    have hp : Passed h st (markSeen h st inc clock) inc := {
      type := htype
      foreign := hforeign
      dest := hdest
      fresh := hfresh
      mark := markSeen_highest }
    split at hs
    next hother =>
      have hnext : ((markSeen h st inc clock).table inc.destNode).nextHop =
          (st.table inc.destNode).nextHop := by
        rw [hentry]
        rfl
      have htime : ((markSeen h st inc clock).table inc.destNode).timestamp =
          (st.table inc.destNode).timestamp := by
        rw [hentry]
        rfl
      obtain ⟨hstate, hanswered⟩ := rreqIntermediate_spec hp hother hnext htime hs
      exact .fresh hforeign hdest hfresh hstate hanswered
    next hown =>
      have hown : inc.destNode = h.node := (not_not.mp hown).symm
      obtain ⟨rfl, hanswered⟩ := rreqDestination_spec clock hp hown hs
      exact .fresh hforeign hdest hfresh (.inl rfl) hanswered
  next hdup =>
    simp only [Option.some.injEq, Prod.mk.injEq] at hs
    obtain ⟨rfl, rfl⟩ := hs
    exact .duplicate hforeign

end Rreq

/-! ## The RREP branch -/

section Rrep

variable {h : Host} {st st' : NodeState} {inc : Incoming} {clock : Nat → Int} {actions : List Action}

theorem forwardPath_table (x : Node) : (forwardPath h st inc clock).table x =
    if updateForward h (st.table inc.sourceNode) inc (clock 0) = true ∧ x = inc.sourceNode then
      ((st.table inc.sourceNode).learn inc.recvAddr inc.incomingInterface inc.hopCount (clock 1)).setHighest
        inc.sourceNode inc.id
    else st.table x := by
  simp only [forwardPath]
  by_cases hu : updateForward h (st.table inc.sourceNode) inc (clock 0) = true
  · simp only [hu, if_true, NodeState.setEntry, Function.update_apply, true_and]
  · simp [hu]

/-- The RREP branch writes the diagonal cell of its source, and no other. -/
theorem forwardPath_highest (d x : Node) : ((forwardPath h st inc clock).table d).highestBroadcastId x =
    if updateForward h (st.table inc.sourceNode) inc (clock 0) = true ∧
        d = inc.sourceNode ∧ x = inc.sourceNode then
      inc.id
    else (st.table d).highestBroadcastId x := by
  rw [forwardPath_table]
  by_cases hd : d = inc.sourceNode
  · subst hd
    by_cases hu : updateForward h (st.table inc.sourceNode) inc (clock 0) = true
    · simp [hu, RoutingEntry.setHighest, RoutingEntry.learn, Function.update_apply]
    · simp [hu]
  · simp [hd]

/-- The table after an RREP is that of its one write; what leaves is the
RREP itself, or what the buffer holds. -/
theorem onRrep_spec (htype : inc.packet.type = 1) (hs : onRrep h st inc clock = some (st', actions)) :
    st'.table = (forwardPath h st inc clock).table ∧ st'.broadcastId = st.broadcastId ∧
    actions.countP Action.isBroadcast = 0 ∧
    ∀ P, HtonlClosed P → (∀ i, P (st.sendBuffer i)) →
      (∀ i, P (st'.sendBuffer i)) ∧ ∀ action ∈ actions, Emitted h st st' clock P (some inc) action := by
  have hbuffer : (forwardPath h st inc clock).sendBuffer = st.sendBuffer := by
    unfold forwardPath
    dsimp only
    split <;> rfl
  have hid : (forwardPath h st inc clock).broadcastId = st.broadcastId := by
    unfold forwardPath
    dsimp only
    split <;> rfl
  simp only [onRrep] at hs
  split at hs
  · have hflush := flushFrom_spec hs
    refine ⟨hflush.table, hflush.broadcastId.trans hid, hflush.no_broadcast, ?_⟩
    intro P hclosed hall
    rw [← hbuffer] at hall
    refine ⟨hflush.buffer P hclosed hall, ?_⟩
    intro action ha
    obtain ⟨packet, destNode, hp, hdest, hroute, hsend⟩ := hflush.sent P hclosed hall action ha
    rw [← hflush.table] at hroute hsend
    exact .buffered hp hdest hroute hsend
  · simp only [Option.bind_eq_bind, Option.bind_eq_some_iff, Option.some.injEq, Prod.mk.injEq] at hs
    obtain ⟨action, hsend, rfl, rfl⟩ := hs
    refine ⟨rfl, hid, by simp [sendAlong_not_broadcast hsend], ?_⟩
    intro P _ hall
    refine ⟨by rwa [hbuffer], ?_⟩
    intro a ha
    rw [List.mem_singleton.mp ha]
    exact .relay htype hsend

end Rrep

/-! ## Application messages, and what a client asks for -/

/-- What is known of the packets in the buffer holds also of those an
application message adds to it. -/
structure Bufferable (h : Host) (inc : Incoming) (reply : List Char) (P : Packet → Prop) : Prop where
  htonl : HtonlClosed P
  forward : inc.packet.type ≠ 0 → inc.packet.type ≠ 1 → inc.destNode ≠ h.node →
    P { inc.packet with hopCount := inc.hopCount }
  reply : inc.packet.type ≠ 0 → inc.packet.type ≠ 1 → inc.destNode = h.node →
    P (createPfPacket 2 inc.packet.destinationIpAddr inc.packet.destinationPort
      inc.packet.sourceIpAddr inc.packet.sourcePort 0 reply)

section Application

variable {h : Host} {st st' : NodeState} {inc : Incoming} {clock : Nat → Int} {actions : List Action}
  {reply : List Char}

theorem acceptApplication_spec (hs : acceptApplication h st inc reply = some (st', actions)) :
    st'.table = st.table ∧ st'.broadcastId = st.broadcastId ∧
    (∀ P : Packet → Prop, (inc.destNode ≠ h.node → P { inc.packet with hopCount := inc.hopCount }) →
      (inc.destNode = h.node → P (createPfPacket 2 inc.packet.destinationIpAddr inc.packet.destinationPort
        inc.packet.sourceIpAddr inc.packet.sourcePort 0 reply)) →
      (∀ i, P (st.sendBuffer i)) → ∀ i, P (st'.sendBuffer i)) ∧
    actions.countP Action.isBroadcast = 0 ∧
    ∀ action ∈ actions, (∃ ip port msg, action = .toServer ip port msg) ∨
      ∃ ip port msg flag path, action = .toClient ip port msg flag path := by
  simp only [acceptApplication] at hs
  split at hs
  next hown =>
    split at hs
    · simp only [Option.bind_eq_bind, Option.bind_eq_some_iff, Option.some.injEq, Prod.mk.injEq] at hs
      obtain ⟨st₁, hb, rfl, rfl⟩ := hs
      obtain rfl := bufferPacket_eq_some hb
      exact ⟨rfl, rfl, fun P _ hreply hall => update_forall _ hall (hreply hown), rfl, by simp⟩
    · simp only [Option.bind_eq_bind, Option.bind_eq_some_iff, Option.some.injEq, Prod.mk.injEq] at hs
      obtain ⟨path, -, rfl, rfl⟩ := hs
      exact ⟨rfl, rfl, fun P _ _ hall => hall, rfl, by simp⟩
  next hother =>
    simp only [Option.bind_eq_bind, Option.bind_eq_some_iff, Option.some.injEq, Prod.mk.injEq] at hs
    obtain ⟨st₁, hb, rfl, rfl⟩ := hs
    obtain rfl := bufferPacket_eq_some hb
    exact ⟨rfl, rfl, fun P hforward _ hall => update_forall _ hall (hforward hother), rfl, by simp⟩

/-- A new RREQ carries the id just counted up to. -/
theorem originate_emitted {st₀ : NodeState} {P : Packet → Prop} {inc : Option Incoming}
    {sourceIpAddr : String}
    {sourcePort : Int} {destinationIpAddr : String} {destinationPort flag : Int} {action : Action}
    (htrigger : ∀ i ∈ inc, i.packet.type ≠ 0)
    (hsource : sourceIpAddr = h.localCanonicalIp ∨ sourceIpAddr = h.currentAddr)
    (hnext : st.broadcastId = st₀.broadcastId + 1) (hlt : st.broadcastId < 2 ^ 31)
    (hb : h.broadcast (createPfPacket 0 sourceIpAddr sourcePort destinationIpAddr destinationPort 0
      (rreqMsg flag st.broadcastId)) = some action) : Emitted h st₀ st clock P inc action := by
  rw [broadcast_eq_some hb]
  exact .originate htrigger rfl rfl hsource (receivedBid_rreqMsg flag hlt) hnext

variable (clock) in
theorem rediscover_spec (hs : rediscover h st inc = some (st', actions)) :
    st'.table = st.table ∧ st'.sendBuffer = st.sendBuffer ∧
    (st'.broadcastId = st.broadcastId ∨ st'.broadcastId = st.broadcastId + 1) ∧
    actions.countP Action.isBroadcast ≤ 1 ∧
    ∀ st₀ : NodeState, st₀.broadcastId = st.broadcastId → inc.packet.type ≠ 0 → ∀ P, ∀ action ∈ actions,
      Emitted h st₀ st' clock P (some inc) action := by
  simp only [rediscover] at hs
  split at hs
  · simp only [Option.bind_eq_bind, Option.bind_eq_some_iff, Option.some.injEq, Prod.mk.injEq] at hs
    obtain ⟨st₁, hn, action, hb, rfl, rfl⟩ := hs
    obtain ⟨hlt, rfl⟩ := nextBroadcastId_eq_some hn
    refine ⟨rfl, rfl, .inr rfl, List.countP_le_length, ?_⟩
    intro st₀ he htype P a ha
    rw [List.mem_singleton.mp ha]
    exact originate_emitted (by simpa using htype) (.inr rfl) (by simp [he]) hlt hb
  · simp only [Option.some.injEq, Prod.mk.injEq] at hs
    obtain ⟨rfl, rfl⟩ := hs
    exact ⟨rfl, rfl, .inl rfl, by simp, by simp⟩

/-- An application message always makes the sender of its frame the way to
its source; what leaves is what the buffer holds, and perhaps a discovery. -/
theorem onApplication_spec (htype₀ : inc.packet.type ≠ 0) (htype₁ : inc.packet.type ≠ 1)
    (hs : onApplication h st inc clock reply = some (st', actions)) :
    st'.table = Function.update st.table inc.sourceNode ((st.table inc.sourceNode).learn inc.recvAddr
      inc.incomingInterface inc.hopCount (clock 0)) ∧
    (st'.broadcastId = st.broadcastId ∨ st'.broadcastId = st.broadcastId + 1) ∧
    actions.countP Action.isBroadcast ≤ 1 ∧
    ∀ P, Bufferable h inc reply P → (∀ i, P (st.sendBuffer i)) →
      (∀ i, P (st'.sendBuffer i)) ∧ ∀ action ∈ actions, Emitted h st st' clock P (some inc) action := by
  simp only [onApplication, Option.bind_eq_bind, Option.bind_eq_some_iff, Option.some.injEq,
    Prod.mk.injEq] at hs
  obtain ⟨⟨st₁, accepted⟩, haccept, ⟨st₂, sent⟩, hflush, ⟨st₃, rreq⟩, hrreq, rfl, rfl⟩ := hs
  obtain ⟨htable₁, hid₁, hbuffer₁, hcount₁, hlocal⟩ := acceptApplication_spec haccept
  have hflush := flushFrom_spec hflush
  obtain ⟨htable₃, hbuffer₃, hid₃, hcount₃, horiginate⟩ := rediscover_spec clock hrreq
  have hid : st₂.broadcastId = st.broadcastId := hflush.broadcastId.trans hid₁
  rw [hid] at hid₃
  refine ⟨htable₃.trans (hflush.table.trans htable₁), hid₃, ?_, ?_⟩
  · rw [List.countP_append, List.countP_append, hcount₁, hflush.no_broadcast]
    simpa using hcount₃
  · intro P hP hall
    have hall₁ := hbuffer₁ P (hP.forward htype₀ htype₁) (hP.reply htype₀ htype₁) hall
    have hall₂ := hflush.buffer P hP.htonl hall₁
    refine ⟨by rwa [hbuffer₃], ?_⟩
    intro action ha
    simp only [List.mem_append] at ha
    rcases ha with (ha | ha) | ha
    · rcases hlocal action ha with ⟨_, _, _, rfl⟩ | ⟨_, _, _, _, _, rfl⟩
      · exact .toServer
      · exact .toClient
    · obtain ⟨packet, destNode, hp, hdest, hroute, hsend⟩ := hflush.sent P hP.htonl hall₁ action ha
      rw [← hflush.table, ← htable₃] at hroute hsend
      exact .buffered hp hdest hroute hsend
    · exact horiginate st hid.symm htype₀ P action ha

@[simp] theorem forget_broadcastId (st : NodeState) (flag : Int) (dest : Node) :
    (st.forget flag dest).broadcastId = st.broadcastId := by
  unfold NodeState.forget
  split <;> rfl

@[simp] theorem forget_sendBuffer (st : NodeState) (flag : Int) (dest : Node) :
    (st.forget flag dest).sendBuffer = st.sendBuffer := by
  unfold NodeState.forget
  split <;> rfl

theorem forget_table (st : NodeState) (flag : Int) (dest : Node) : (st.forget flag dest).table =
    if flag = 1 then Function.update st.table dest { st.table dest with nextHop := Mac.empty }
    else st.table := by
  unfold NodeState.forget
  split <;> rfl

variable (clock) in
theorem discover_spec {m : ClientMessage} {dest : Node} {currTime : Int}
    (hs : discover h st m dest currTime = some actions) :
    actions.countP Action.isBroadcast ≤ 1 ∧
    ∀ st₀ st' : NodeState, st'.broadcastId = st.broadcastId → st.broadcastId = st₀.broadcastId + 1 →
      st.broadcastId < 2 ^ 31 → ∀ P, ∀ action ∈ actions, Emitted h st₀ st' clock P none action := by
  simp only [discover] at hs
  split at hs
  · simp only [Option.bind_eq_bind, Option.bind_eq_some_iff, Option.some.injEq] at hs
    obtain ⟨action, hb, rfl⟩ := hs
    refine ⟨List.countP_le_length, ?_⟩
    intro st₀ st' he hnext hlt P a ha
    rw [List.mem_singleton.mp ha]
    rw [← he] at hb hnext hlt
    exact originate_emitted (by simp) (.inl rfl) hnext hlt hb
  · simp only [Option.some.injEq] at hs
    exact hs ▸ ⟨by simp, by simp⟩

theorem onClientMessage_spec {m : ClientMessage}
    (hs : onClientMessage h st m clock = some (st', actions)) :
    ∃ dest, h.getNodeByIp m.destinationAddr = some dest ∧
    st'.table =
      (if m.flag = 1 then Function.update st.table dest { st.table dest with nextHop := Mac.empty }
      else st.table) ∧
    st'.broadcastId = st.broadcastId + 1 ∧ actions.countP Action.isBroadcast ≤ 1 ∧
    ∀ P, HtonlClosed P →
      P (createPfPacket 2 h.currentAddr st.sourcePort m.destinationAddr m.destinationPort 0 m.msg) →
      (∀ i, P (st.sendBuffer i)) →
      (∀ i, P (st'.sendBuffer i)) ∧ ∀ action ∈ actions, Emitted h st st' clock P none action := by
  simp only [onClientMessage, Option.bind_eq_bind, Option.bind_eq_some_iff, Option.some.injEq,
    Prod.mk.injEq] at hs
  obtain ⟨st₁, hb, st₂, hn, dest, hdest, rreq, hrreq, ⟨st₃, sent⟩, hflush, rfl, rfl⟩ := hs
  have hst₁ := bufferPacket_eq_some hb
  obtain ⟨hlt, hst₂⟩ := nextBroadcastId_eq_some hn
  have hflush := flushFrom_spec hflush
  obtain ⟨hcount, horiginate⟩ := discover_spec clock hrreq
  have htable₂ : st₂.table = st.table := by rw [hst₂, hst₁]
  have hid₂ : st₂.broadcastId = st.broadcastId + 1 := by rw [hst₂, hst₁]
  have hid₃ : st₃.broadcastId = st₂.broadcastId := hflush.broadcastId.trans (forget_broadcastId _ _ _)
  rw [hst₁] at hlt
  refine ⟨dest, hdest, ?_, hid₃.trans hid₂, ?_, ?_⟩
  · rw [← htable₂, ← forget_table]
    exact hflush.table
  · rw [List.countP_append, hflush.no_broadcast]
    exact hcount
  · intro P hclosed hp hall
    have hall₂ : ∀ i, P ((st₂.forget m.flag dest).sendBuffer i) := by
      rw [forget_sendBuffer, hst₂, hst₁]
      exact update_forall _ hall hp
    refine ⟨hflush.buffer P hclosed hall₂, ?_⟩
    intro action ha
    cases List.mem_append.mp ha with
    | inl ha =>
      exact horiginate _ _ (by simpa using hid₃) (by simpa using hid₂) (by simpa [hid₂] using hlt) P action ha
    | inr ha =>
      obtain ⟨packet, destNode, hpk, hdest, hroute, hsend⟩ := hflush.sent P hclosed hall₂ action ha
      rw [← hflush.table] at hroute hsend
      exact .buffered hpk hdest hroute hsend

end Application

/-! ## Any packet -/

/-- What a packet from the wire does to a node, whatever its type. -/
structure ReceiveSpec (h : Host) (st : NodeState) (inc : Incoming) (clock : Nat → Int)
    (reply : List Char) (st' : NodeState) (actions : List Action) : Prop where
  nextHop : ∀ x, (st'.table x).nextHop = (st.table x).nextHop ∨
    (x = inc.sourceNode ∧ (st'.table x).nextHop = inc.recvAddr)
  /-- Unless it is the node's own RREQ, there is now a route to its source. -/
  known : (inc.packet.type = 0 → inc.sourceNode ≠ h.node) →
    checkAddressNotEmpty (st'.table inc.sourceNode).nextHop = true ∨
      (st'.table inc.sourceNode).nextHop = inc.recvAddr
  highest : ∀ x s, (st'.table x).highestBroadcastId s = (st.table x).highestBroadcastId s ∨
    (inc.packet.type = 0 ∧ s = inc.sourceNode ∧ (st.table x).highestBroadcastId s < inc.id ∧
      (st'.table x).highestBroadcastId s = inc.id) ∨
    (inc.packet.type = 1 ∧ x = inc.sourceNode ∧ s = inc.sourceNode)
  rrep : inc.packet.type = 1 →
    st'.table = (forwardPath h st inc clock).table ∧ st'.broadcastId = st.broadcastId
  broadcastId : st'.broadcastId = st.broadcastId ∨ st'.broadcastId = st.broadcastId + 1
  count : actions.countP Action.isBroadcast ≤ 1
  packets : ∀ P, Bufferable h inc reply P → (∀ i, P (st.sendBuffer i)) →
    (∀ i, P (st'.sendBuffer i)) ∧ ∀ action ∈ actions, Emitted h st st' clock P (some inc) action

section Receive

variable {h : Host} {st st' : NodeState} {inc : Incoming} {clock : Nat → Int} {actions : List Action}
  {reply : List Char}

/-- The RREQ branch writes cells of its source only, and only upwards. -/
theorem RreqOutcome.receiveSpec (htype : inc.packet.type = 0)
    (ho : RreqOutcome h st inc clock st' actions) :
    ReceiveSpec h st inc clock reply st' actions := by
  have hreverse : ∀ x s, ((reversePath h st inc clock).table x).highestBroadcastId s =
      (st.table x).highestBroadcastId s ∨ (inc.packet.type = 0 ∧ s = inc.sourceNode ∧
        (st.table x).highestBroadcastId s < inc.id ∧
        ((reversePath h st inc clock).table x).highestBroadcastId s = inc.id) := by
    intro x s
    rw [reversePath_highest]
    split
    next hxs =>
      cases le_total inc.id ((st.table x).highestBroadcastId s) with
      | inl hle => exact .inl (max_eq_left hle)
      | inr hle =>
        cases Nat.lt_or_eq_of_le hle with
        | inl hlt => exact .inr ⟨htype, hxs.2, hlt, max_eq_right hle⟩
        | inr heq => exact .inl (max_eq_left (by omega))
    · exact .inl rfl
  cases ho with
  | own hown =>
    exact {
      nextHop := fun _ => .inl rfl
      known := fun hf => absurd hown (hf htype)
      highest := fun _ _ => .inl rfl
      rrep := by omega
      broadcastId := .inl rfl
      count := by simp
      packets := fun P _ hall => ⟨hall, by simp⟩ }
  | duplicate hforeign =>
    exact {
      nextHop := reversePath_nextHop
      known := fun _ => reversePath_known
      highest := fun x s => (hreverse x s).imp_right .inl
      rrep := by omega
      broadcastId := .inl rfl
      count := by simp
      packets := fun P _ hall => ⟨hall, by simp⟩ }
  | fresh hforeign hdest hfresh hstate hanswered =>
    -- the entry of the destination is marked, and perhaps refreshed
    have hentry : ∃ t, st' = (markSeen h st inc clock).setEntry inc.destNode
        { (st.table inc.destNode).setHighest inc.sourceNode inc.id with timestamp := t } := by
      have hentry : (markSeen h st inc clock).table inc.destNode =
          (st.table inc.destNode).setHighest inc.sourceNode inc.id := markSeen_entry hdest
      rw [← hentry]
      rcases hstate with rfl | rfl
      · refine ⟨((markSeen h st inc clock).table inc.destNode).timestamp, ?_⟩
        simp [NodeState.setEntry]
      · exact ⟨_, rfl⟩
    obtain ⟨t, rfl⟩ := hentry
    have htable : ∀ x, (((markSeen h st inc clock).setEntry inc.destNode
        { (st.table inc.destNode).setHighest inc.sourceNode inc.id with timestamp := t }).table x) =
        if x = inc.destNode then
          { (st.table inc.destNode).setHighest inc.sourceNode inc.id with timestamp := t }
        else (reversePath h st inc clock).table x := by
      intro x
      simp only [NodeState.setEntry, Function.update_apply]
      split
      · rfl
      next hx => exact markSeen_of_ne hx
    exact {
      nextHop := by
        intro x
        rw [htable]
        split
        next hx =>
          subst hx
          exact .inl rfl
        · exact reversePath_nextHop x
      known := by
        intro _
        rw [htable, if_neg (Ne.symm hdest)]
        exact reversePath_known
      highest := by
        intro x s
        rw [htable]
        split
        next hx =>
          subst hx
          by_cases hs : s = inc.sourceNode
          · subst hs
            exact .inr (.inl ⟨htype, rfl, hfresh, by simp [RoutingEntry.setHighest]⟩)
          · left
            simp [RoutingEntry.setHighest, hs]
        · exact (hreverse x s).imp_right .inl
      rrep := by omega
      broadcastId := .inl rfl
      count := hanswered.count
      packets := fun P _ hall => ⟨hall, hanswered.emitted P⟩ }

theorem onRrep_receiveSpec (htype : inc.packet.type = 1)
    (hs : onRrep h st inc clock = some (st', actions)) :
    ReceiveSpec h st inc clock reply st' actions := by
  obtain ⟨htable, hid, hcount, hpackets⟩ := onRrep_spec htype hs
  exact {
    nextHop := by
      intro x
      rw [htable, forwardPath_table]
      split
      next hx => exact .inr ⟨hx.2, rfl⟩
      · exact .inl rfl
    known := by
      intro _
      rw [htable, forwardPath_table]
      split
      · exact .inr rfl
      next hu =>
        left
        by_contra hc
        have hempty : checkAddressNotEmpty (st.table inc.sourceNode).nextHop = false := by
          simpa using hc
        have hupdates : updateForward h (st.table inc.sourceNode) inc (clock 0) = true := by
          simp [updateForward, hempty]
        exact hu ⟨hupdates, rfl⟩
    highest := by
      intro x s
      rw [htable, forwardPath_highest]
      split
      next hx => exact .inr (.inr ⟨htype, hx.2⟩)
      · exact .inl rfl
    rrep := fun _ => ⟨htable, hid⟩
    broadcastId := .inl hid
    count := by omega
    packets := fun P hP => hpackets P hP.htonl }

theorem onApplication_receiveSpec (htype₀ : inc.packet.type ≠ 0) (htype₁ : inc.packet.type ≠ 1)
    (hs : onApplication h st inc clock reply = some (st', actions)) :
    ReceiveSpec h st inc clock reply st' actions := by
  obtain ⟨htable, hid, hcount, hpackets⟩ := onApplication_spec htype₀ htype₁ hs
  exact {
    nextHop := by
      intro x
      rw [htable, Function.update_apply]
      split
      next hx => exact .inr ⟨hx, rfl⟩
      · exact .inl rfl
    known := by
      intro _
      rw [htable, Function.update_self]
      exact .inr rfl
    highest := by
      intro x s
      rw [htable, Function.update_apply]
      split
      next hx =>
        subst hx
        exact .inl rfl
      · exact .inl rfl
    rrep := fun h₁ => absurd h₁ htype₁
    broadcastId := hid
    count := hcount
    packets := hpackets }

theorem receivePacket_spec {recvAddr : Mac} {incomingInterface : Int} {packet : Packet}
    (hs : receivePacket h st recvAddr incomingInterface packet clock reply = some (st', actions)) :
    ∃ inc : Incoming, inc.recvAddr = recvAddr ∧ inc.incomingInterface = incomingInterface ∧
      inc.packet = packet ∧
      h.getNodeByIp packet.sourceIpAddr = some inc.sourceNode ∧
      h.getNodeByIp packet.destinationIpAddr = some inc.destNode ∧
      ReceiveSpec h st inc clock reply st' actions := by
  simp only [receivePacket, Option.bind_eq_bind, Option.bind_eq_some_iff] at hs
  obtain ⟨sourceNode, hsource, destNode, hdest, hs⟩ := hs
  refine ⟨{ recvAddr, incomingInterface, sourceNode, destNode, packet }, rfl, rfl, rfl, hsource, hdest, ?_⟩
  split at hs
  next htype => exact (onRreq_outcome htype hs).receiveSpec htype
  next htype₀ =>
  split at hs
  next htype => exact onRrep_receiveSpec htype hs
  next htype₁ => exact onApplication_receiveSpec htype₀ htype₁ hs

end Receive

end Sockets.Odr
