/-
RREQs on their way. A node between the source and the destination is meant
to broadcast an RREQ again, or to answer it from its table: whichever it
does, the discovery goes on.

The node puts the first question as "no route, or expired before now", the
second as "a route, and one that expires after now". A route that expires at
the very reading of the clock is neither (`notSwallowed_iff`); and since the
id has been marked as seen by then, no copy of the RREQ gets another chance.
-/
import Sockets.Odr.Network

namespace Sockets.Odr

/-- An RREQ that says that no RREP was sent for it, at a node that is neither its source nor its
destination, and past the node's test for duplicates. -/
structure NewRreq (h : Host) (st : NodeState) (inc : Incoming) (clock : Nat → Int) : Prop where
  type : inc.packet.type = 0
  source : h.getNodeByIp inc.packet.sourceIpAddr = some inc.sourceNode
  dest : h.getNodeByIp inc.packet.destinationIpAddr = some inc.destNode
  foreign : inc.sourceNode ≠ h.node
  intermediate : h.node ≠ inc.destNode
  notSent : rrepAlreadySent inc.packet.applicationMsg = 0
  fresh : inc.id > ((reversePath h st inc clock).table inc.destNode).highestBroadcastId inc.sourceNode

/-- The frame came in on an interface of the node, and a route back that is there already leads
out of one. -/
structure InterfacesKnown (h : Host) (st : NodeState) (inc : Incoming) : Prop where
  incoming : (h.getMacAddrByInterfaceNum inc.incomingInterface).isSome
  back : checkAddressNotEmpty (st.table inc.sourceNode).nextHop = true →
    (h.getMacAddrByInterfaceNum (st.table inc.sourceNode).outInterface).isSome

/-- The RREQ is broadcast again, one hop on. -/
def Rebroadcast (inc : Incoming) (action : Action) : Prop :=
  ∃ msg, receivedBid msg = inc.id ∧
    action = .broadcast { inc.packet with hopCount := inc.hopCount, applicationMsg := msg }

/-- An RREP for the RREQ, sent along the entry. -/
def RrepAlong (entry : RoutingEntry) (inc : Incoming) (action : Action) : Prop :=
  ∃ srcMac msg, action = .send srcMac entry.nextHop entry.outInterface
    (createPfPacket 1 inc.packet.destinationIpAddr inc.packet.destinationPort
      inc.packet.sourceIpAddr inc.packet.sourcePort 0 msg)

/-- The RREQ is broadcast again or an RREP is sent towards its source; in a forced discovery, it
is broadcast again. -/
structure NotSwallowed (h : Host) (st : NodeState) (inc : Incoming) (clock : Nat → Int)
    (actions : List Action) : Prop where
  goesOn : (∃ action ∈ actions, Rebroadcast inc action) ∨
    ∃ action ∈ actions, RrepAlong ((reversePath h st inc clock).table inc.sourceNode) inc action
  forced : inc.forced = 1 → ∃ action ∈ actions, Rebroadcast inc action

/-- Of a route that is set: it does not expire at the very reading of the clock, and while it is
fresh the flag of forced discovery is one of its two values. -/
def Decided (h : Host) (entry : RoutingEntry) (inc : Incoming) (now : Int) : Prop :=
  checkAddressNotEmpty entry.nextHop = true → entry.timestamp + h.staleTime ≠ now ∧
    (entry.timestamp + h.staleTime > now → inc.forced = 0 ∨ inc.forced = 1)

variable {h : Host} {st : NodeState} {inc : Incoming} {clock : Nat → Int}

theorem NewRreq.dest_ne_source (hnew : NewRreq h st inc clock) : inc.destNode ≠ inc.sourceNode := by
  intro he
  have hfresh := hnew.fresh
  rw [reversePath_highest, if_pos ⟨he, rfl⟩] at hfresh
  omega

theorem NewRreq.resolves (hnew : NewRreq h st inc clock) {packet : Packet}
    (hs : packet.sourceIpAddr = inc.packet.sourceIpAddr)
    (hd : packet.destinationIpAddr = inc.packet.destinationIpAddr) : h.resolves packet = true := by
  simp [Host.resolves, hs, hd, hnew.source, hnew.dest]

/-- What is left of the step past the test for duplicates. -/
theorem NewRreq.receivePacket_eq (hnew : NewRreq h st inc clock) (reply : List Char) :
    ∃ seenSource originalHops,
      receivePacket h st inc.recvAddr inc.incomingInterface inc.packet clock reply =
        rreqIntermediate h (markSeen h st inc clock) inc seenSource originalHops clock := by
  have honRreq : receivePacket h st inc.recvAddr inc.incomingInterface inc.packet clock reply =
      onRreq h st inc clock := by
    simp [receivePacket, hnew.source, hnew.dest, hnew.type]
  refine ⟨checkAddressNotEmpty (st.table inc.sourceNode).nextHop, (st.table inc.sourceNode).hopsToDest,
    honRreq.trans ?_⟩
  simp only [onRreq, if_neg hnew.foreign, if_pos hnew.fresh, if_pos hnew.intermediate]
  rfl

/-- The entry the node decides by is the one it had. -/
theorem NewRreq.entry (hnew : NewRreq h st inc clock) :
    (markSeen h st inc clock).table inc.destNode =
      (st.table inc.destNode).setHighest inc.sourceNode inc.id :=
  markSeen_entry hnew.dest_ne_source

/-- There is a way back to the source. -/
theorem InterfacesKnown.reverse (hknown : InterfacesKnown h st inc) (clock : Nat → Int) :
    (h.getMacAddrByInterfaceNum ((reversePath h st inc clock).table inc.sourceNode).outInterface).isSome := by
  rw [reversePath_table, if_pos rfl]
  dsimp only
  split
  · exact hknown.incoming
  next hu =>
    have hne : checkAddressNotEmpty (st.table inc.sourceNode).nextHop = true := by
      by_contra hc
      exact hu (by simp [updateReverse, hc])
    split <;> exact hknown.back hne

/-! ## What the node does -/

/-- The RREQ as it is broadcast again. -/
def Incoming.again (inc : Incoming) : Action :=
  .broadcast { inc.packet with hopCount := inc.packet.hopCount + 1 }

theorem rebroadcast_again (inc : Incoming) : Rebroadcast inc inc.again :=
  ⟨inc.packet.applicationMsg, rfl, rfl⟩

theorem NewRreq.flood_eq (hnew : NewRreq h st inc clock) : flood h inc = some [inc.again] := by
  simp only [flood, Host.broadcast, hnew.resolves, or_true, if_true, Option.bind_eq_bind,
    Option.bind_some]
  rfl

theorem NewRreq.floodReplied_isSome (hnew : NewRreq h st inc clock) (seenSource : Bool)
    (originalHops : Int) : (floodReplied h inc seenSource originalHops).isSome := by
  simp only [floodReplied]
  split
  · simp [Host.broadcast, hnew.resolves]
  · rfl

/-- An answer goes back along the entry for the source. -/
theorem NewRreq.replyTo_eq (hnew : NewRreq h st inc clock) (hknown : InterfacesKnown h st inc)
    {st₁ : NodeState} (msg : List Char)
    (hentry : st₁.table inc.sourceNode = (reversePath h st inc clock).table inc.sourceNode) :
    ∃ rrep, replyTo h st₁ inc msg = some rrep ∧
      RrepAlong ((reversePath h st inc clock).table inc.sourceNode) inc rrep := by
  obtain ⟨srcMac, hmac⟩ := Option.isSome_iff_exists.mp (hknown.reverse clock)
  refine ⟨_, ?_, srcMac, msg, rfl⟩
  simp [replyTo, hentry, Host.sendAlong, hmac, Host.sendMessage, Host.resolves, createPfPacket,
    hnew.source, hnew.dest]

section Intermediate

variable {seenSource : Bool} {originalHops : Int}

/-- Without a usable route, or in a forced discovery, the RREQ is broadcast again. -/
theorem NewRreq.floods (hnew : NewRreq h st inc clock)
    (hcase : checkAddressNotEmpty (st.table inc.destNode).nextHop = false ∨
      (st.table inc.destNode).timestamp + h.staleTime < clock 2 ∨
      ((st.table inc.destNode).timestamp + h.staleTime > clock 2 ∧ inc.forced = 1)) :
    rreqIntermediate h (markSeen h st inc clock) inc seenSource originalHops clock =
      some (markSeen h st inc clock, [inc.again]) := by
  simp only [rreqIntermediate, hnew.entry, RoutingEntry.setHighest, hnew.flood_eq, Option.bind_eq_bind,
    Option.bind_some]
  rw [← or_assoc] at hcase
  rcases hcase with hnone | ⟨hfresh, hforced⟩
  · rw [if_pos hnone]
  · by_cases hnone : checkAddressNotEmpty (st.table inc.destNode).nextHop = false ∨
        (st.table inc.destNode).timestamp + h.staleTime < clock 2
    · rw [if_pos hnone]
    · have hset := eq_true_of_ne_false fun hempty => hnone (.inl hempty)
      have hzero : ¬ inc.forced = 0 := by omega
      rw [if_neg hnone, if_pos ⟨hset, hfresh⟩, if_neg hzero, if_pos hforced]

/-- The state a node answers in: the entry it answers from is refreshed. -/
def answeredState (h : Host) (st : NodeState) (inc : Incoming) (clock : Nat → Int) : NodeState :=
  (markSeen h st inc clock).setEntry inc.destNode
    { (markSeen h st inc clock).table inc.destNode with timestamp := clock 3 }

theorem NewRreq.answeredState_source (hnew : NewRreq h st inc clock) :
    (answeredState h st inc clock).table inc.sourceNode =
      (reversePath h st inc clock).table inc.sourceNode := by
  simp only [answeredState, NodeState.setEntry]
  rw [Function.update_of_ne hnew.dest_ne_source.symm, markSeen_of_ne hnew.dest_ne_source.symm]

/-- With a fresh route, it is answered. -/
theorem NewRreq.answers (hnew : NewRreq h st inc clock) (hknown : InterfacesKnown h st inc)
    (hset : checkAddressNotEmpty (st.table inc.destNode).nextHop = true)
    (hfresh : (st.table inc.destNode).timestamp + h.staleTime > clock 2) (hforced : inc.forced = 0) :
    ∃ rrep again,
      rreqIntermediate h (markSeen h st inc clock) inc seenSource originalHops clock =
        some (answeredState h st inc clock, rrep :: again) ∧
      RrepAlong ((reversePath h st inc clock).table inc.sourceNode) inc rrep := by
  obtain ⟨again, hagain⟩ := Option.isSome_iff_exists.mp (hnew.floodReplied_isSome seenSource originalHops)
  obtain ⟨rrep, hrrep, halong⟩ :=
    hnew.replyTo_eq hknown (inc.packet.applicationMsg.take 30) hnew.answeredState_source
  refine ⟨rrep, again, ?_, halong⟩
  have hroute : checkAddressNotEmpty ((markSeen h st inc clock).table inc.destNode).nextHop = true ∧
      ((markSeen h st inc clock).table inc.destNode).timestamp + h.staleTime > clock 2 := by
    rw [hnew.entry]
    exact ⟨hset, hfresh⟩
  have hsent : rrepAlreadySent inc.packet.applicationMsg ≠ 1 := by
    rw [hnew.notSent]
    decide
  rw [answeredState] at hrrep
  simp only [rreqIntermediate]
  rw [if_neg, if_pos hroute, if_pos hforced, if_pos hsent, hrrep, hagain]
  · rfl
  · simp only [hroute.1, Bool.true_eq_false, false_or]
    omega

/-- What is left is swallowed. -/
theorem NewRreq.swallows (hnew : NewRreq h st inc clock)
    (hset : checkAddressNotEmpty (st.table inc.destNode).nextHop = true)
    (hcase : (st.table inc.destNode).timestamp + h.staleTime = clock 2 ∨
      ((st.table inc.destNode).timestamp + h.staleTime > clock 2 ∧ inc.forced ≠ 0 ∧ inc.forced ≠ 1)) :
    rreqIntermediate h (markSeen h st inc clock) inc seenSource originalHops clock =
      some (markSeen h st inc clock, []) := by
  simp only [rreqIntermediate, hnew.entry, RoutingEntry.setHighest, hset, Bool.true_eq_false, false_or,
    true_and]
  rw [if_neg (by omega)]
  rcases hcase with heq | ⟨hfresh, hforced⟩
  · rw [if_neg (by omega)]
  · rw [if_pos hfresh, if_neg hforced.1, if_neg hforced.2]

end Intermediate

/-- The RREQ goes on from the node exactly if its route for the destination is decided. -/
theorem notSwallowed_iff (hnew : NewRreq h st inc clock) (hknown : InterfacesKnown h st inc)
    (reply : List Char) :
    (∃ st' actions,
      receivePacket h st inc.recvAddr inc.incomingInterface inc.packet clock reply = some (st', actions) ∧
        NotSwallowed h st inc clock actions) ↔
      Decided h (st.table inc.destNode) inc (clock 2) := by
  obtain ⟨seenSource, originalHops, hreceive⟩ := hnew.receivePacket_eq reply
  rw [hreceive]
  constructor
  · intro ⟨st', actions, hstep, hgoes⟩ hset
    by_contra hcase
    have hcase : (st.table inc.destNode).timestamp + h.staleTime = clock 2 ∨
        ((st.table inc.destNode).timestamp + h.staleTime > clock 2 ∧
          inc.forced ≠ 0 ∧ inc.forced ≠ 1) := by
      by_contra hnot
      exact hcase ⟨by omega, by omega⟩
    rw [hnew.swallows hset hcase] at hstep
    simp only [Option.some.injEq, Prod.mk.injEq] at hstep
    obtain ⟨rfl, rfl⟩ := hstep
    simpa using hgoes.goesOn
  · intro hdecided
    have hagain : NotSwallowed h st inc clock [inc.again] :=
      { goesOn := .inl ⟨_, List.mem_singleton_self _, rebroadcast_again inc⟩
        forced := fun _ => ⟨_, List.mem_singleton_self _, rebroadcast_again inc⟩ }
    cases hset : checkAddressNotEmpty (st.table inc.destNode).nextHop with
    | false => exact ⟨_, _, hnew.floods (.inl hset), hagain⟩
    | true =>
      obtain ⟨hne, hflag⟩ := hdecided hset
      rcases lt_or_gt_of_ne hne with hstale | hfresh
      · exact ⟨_, _, hnew.floods (.inr (.inl hstale)), hagain⟩
      rcases hflag hfresh with hforced | hforced
      · obtain ⟨rrep, rest, hstep, hrrep⟩ := hnew.answers hknown hset hfresh hforced
        refine ⟨_, rrep :: rest, hstep, { goesOn := .inr ⟨rrep, List.mem_cons_self, hrrep⟩, forced := ?_ }⟩
        intro hforced₁
        omega
      · exact ⟨_, _, hnew.floods (.inr (.inr ⟨hfresh, hforced⟩)), hagain⟩

/-! ## The middle of the line -/

/-- Node 2 has had a route to node 3 since time 0. -/
def lineMiddle : NodeState :=
  NodeState.start.setEntry 3 { nextHop := lineMac 3 1, outInterface := 2, hopsToDest := 1, timestamp := 0 }

/-- It gets the first RREQ of node 1, for node 3. -/
def lineIncoming : Incoming where
  recvAddr := lineMac 1 2
  incomingInterface := 1
  sourceNode := 1
  destNode := 3
  packet := rreqPacket 1 3 0

theorem lineIncoming_new (now : Int) : NewRreq (lineTopology.host 2) lineMiddle lineIncoming fun _ => now where
  type := rfl
  source := by decide +kernel
  dest := by decide +kernel
  foreign := by decide
  intermediate := by decide
  notSent := by decide +kernel
  fresh := by
    rw [reversePath_of_ne (by decide)]
    decide +kernel

theorem lineIncoming_known : InterfacesKnown (lineTopology.host 2) lineMiddle lineIncoming where
  incoming := by decide +kernel
  back := by decide +kernel

/-- At time 5 the route is fresh, and the RREQ is answered. -/
theorem notSwallowed_iff_line : ∃ st' actions,
    receivePacket (lineTopology.host 2) lineMiddle (lineMac 1 2) 1 (rreqPacket 1 3 0) (fun _ => 5) [] =
      some (st', actions) ∧
    NotSwallowed (lineTopology.host 2) lineMiddle lineIncoming (fun _ => 5) actions :=
  (notSwallowed_iff (lineIncoming_new 5) lineIncoming_known []).mpr fun _ => ⟨by decide, by decide +kernel⟩

/-- At time 10 the route expires, and nothing is put out. -/
theorem not_notSwallowed : NewRreq (lineTopology.host 2) lineMiddle lineIncoming (fun _ => 10) ∧
    InterfacesKnown (lineTopology.host 2) lineMiddle lineIncoming ∧
    (receivePacket (lineTopology.host 2) lineMiddle (lineMac 1 2) 1 (rreqPacket 1 3 0) (fun _ => 10) []).map
      Prod.snd = some [] ∧
    ¬ NotSwallowed (lineTopology.host 2) lineMiddle lineIncoming (fun _ => 10) [] := by
  refine ⟨lineIncoming_new 10, lineIncoming_known, ?_, ?_⟩
  · obtain ⟨_, _, hreceive⟩ := (lineIncoming_new 10).receivePacket_eq []
    exact congrArg (Option.map Prod.snd)
      (hreceive.trans ((lineIncoming_new 10).swallows (by decide +kernel) (.inl (by decide))))
  · intro hgoes
    simpa using hgoes.goesOn

end Sockets.Odr
