/-
A node of the tour: what `main` does when a source-routed packet arrives,
when an echo reply is read, when a second passes in `select`, and when the
group sends something. A node is known by its number, which is the host of
the name "vm" and that number; all these hosts are there. The packets have
their bytes: a number is read in a slot, and what of a packet arrives is not
always what was sent.

The two arrays of a node have a place for the numbers 0 to 10, and no number
is checked before it is used as an index: where it is none C gives the event
no outcome, and nor does the model (`index?`).
-/
import Sockets.Tour.Wire

namespace Sockets.Tour

open Wire

abbrev pingSize : Nat := 11

def ipIdentification : Nat := 5914

variable {m : DataModel}

/-- What `sendRTpacket` was called with, and the hosts whose addresses it puts in the header. What is
handed to `sendto` is `Wire.sendRTpacket`, and what arrives of it `Passage.transmit`. -/
structure RtPacket (m : DataModel) where
  src : Int
  dst : Int
  payload : PayLoad m

/-- The state of a node; `group` is the address and the port of the group it has joined. -/
structure Node where
  previousIndexStatic : Int := -1
  previousVmNumStatic : Int := -1
  ifLastNode : Int := -1
  ifPing : Vector Int pingSize := Vector.replicate pingSize 0
  pingCounterArray : Vector Int pingSize := Vector.replicate pingSize 0
  pingSwitch : Int := -1
  ifVisit : Int := 0
  group : Option (List Char × List Char) := none
  alarm : Bool := false
  exited : Bool := false

/-! ## Source routing -/

/-- `sendRTpacket` goes by the numbers in the slot of the index and in the next one. -/
def sendRTpacket (packet : PayLoad m) : Option (RtPacket m) :=
  let index := packet.nextIpIdx
  (index? totalVmSize index).bind fun i =>
    (index? totalVmSize (index + 1)).map fun j =>
      { src := slotInt (packet.hostArray.get i), dst := slotInt (packet.hostArray.get j), payload := packet }

theorem sendRTpacket_cases {payload : PayLoad m} {packet : RtPacket m} (h : sendRTpacket payload = some packet) :
    ∃ i j, index? totalVmSize payload.nextIpIdx = some i ∧ index? totalVmSize (payload.nextIpIdx + 1) = some j ∧
      packet = { src := slotInt (payload.hostArray.get i), dst := slotInt (payload.hostArray.get j), payload } := by
  obtain ⟨i, hi, h⟩ := Option.bind_eq_some_iff.mp h
  obtain ⟨j, hj, rfl⟩ := Option.map_eq_some_iff.mp h
  exact ⟨i, j, hi, hj, rfl⟩

/-- The index before the first slot that is 0, or the last index of a full array. -/
def lastIndex (hostArray : HostSlots m) : Int := (hostArray.toList.findIdx isNull : Int) - 1

/-- The predecessor is to be pinged from now on, if it is not already. -/
def Node.notePrevious (node : Node) (previousIndex previousVmNum : Int) (j : Fin pingSize) : Node :=
  if node.ifPing[j] = 0 then
    { node with
      pingSwitch := 1
      ifPing := node.ifPing.set j 1
      previousIndexStatic := previousIndex
      previousVmNumStatic := previousVmNum }
  else node

/-- At the first visit the node joins the group. -/
def Node.join (node : Node) (payload : PayLoad m) : Node :=
  if node.ifVisit = 0 then
    { node with ifVisit := 1, group := some (textOf payload.multiIp.toList, textOf payload.multiPort.toList) }
  else node

/-- What comes of a packet: the predecessor that was found, and what is sent on. -/
structure Visit (m : DataModel) where
  previousVmNum : Int
  node : Node
  forwarded : Option (RtPacket m)

/-- What `main` makes of what `receiveRTpacket` returns. -/
def Node.onRtPacket (node : Node) (payload : PayLoad m) : Option (Visit m) :=
  let previousIndex := payload.nextIpIdx - 1
  (index? totalVmSize previousIndex).bind fun i =>
    let previousVmNum := slotInt (payload.hostArray.get i)
    (index? pingSize previousVmNum).bind fun j =>
      let node := (node.notePrevious previousIndex previousVmNum j).join payload
      if payload.nextIpIdx = lastIndex payload.hostArray then
        some { previousVmNum, node := { node with ifLastNode := 1 }, forwarded := none }
      else
        (sendRTpacket payload).map fun packet => { previousVmNum, node, forwarded := some packet }

/-- The node with this place is to be pinged. -/
def Node.Pings (node : Node) (j : Fin pingSize) : Prop := node.ifPing[j] ≠ 0

/-- The node pings, and its latest predecessor has a place. -/
def Node.Primed (node : Node) : Prop :=
  node.pingSwitch = 1 ∧ ∃ j, index? pingSize node.previousVmNumStatic = some j

/-- What a packet does to the pings of a node: its predecessor is pinged from now on, the others
as before, and nothing is new when it was pinged already. -/
structure Noted (node : Node) (j : Fin pingSize) (node' : Node) : Prop where
  noted : node'.Pings j
  kept : ∀ k, node.Pings k → node'.Pings k
  pingSwitch : node.Pings j → node'.pingSwitch = node.pingSwitch
  primed : (node.Pings j → node.Primed) → node'.Primed
  alarm : node'.alarm = node.alarm
  exited : node'.exited = node.exited

section

variable {node : Node} {payload : PayLoad m} {visit : Visit m}

theorem Node.notePrevious_noted (previousIndex : Int) {previousVmNum : Int} {j : Fin pingSize}
    (hj : index? pingSize previousVmNum = some j) :
    Noted node j (node.notePrevious previousIndex previousVmNum j) := by
  unfold Node.notePrevious
  split
  next hfirst =>
    refine ⟨by simp [Node.Pings], ?_, fun hne => absurd hfirst hne, fun _ => ⟨rfl, j, hj⟩, rfl, rfl⟩
    intro k hk
    show (node.ifPing.set j 1)[k] ≠ 0
    simp only [Fin.getElem_fin, Vector.getElem_set]
    split
    · decide
    · exact hk
  next hpinged => exact ⟨hpinged, fun _ hk => hk, fun _ => rfl, fun hprimed => hprimed hpinged, rfl, rfl⟩

theorem Node.notePrevious_ifLastNode (previousIndex previousVmNum : Int) (j : Fin pingSize) :
    (node.notePrevious previousIndex previousVmNum j).ifLastNode = node.ifLastNode := by
  unfold Node.notePrevious
  split <;> rfl

theorem Noted.join {node' : Node} {j : Fin pingSize} (h : Noted node j node') (payload : PayLoad m) :
    Noted node j (node'.join payload) := by
  unfold Node.join
  split
  · exact ⟨h.noted, h.kept, h.pingSwitch, h.primed, h.alarm, h.exited⟩
  · exact h

theorem Node.join_ifLastNode : (node.join payload).ifLastNode = node.ifLastNode := by
  unfold Node.join
  split <;> rfl

/-- What comes of a packet. -/
structure Visits (node : Node) (payload : PayLoad m) (visit : Visit m) (j : Fin pingSize) : Prop where
  previous : ∃ i, index? totalVmSize (payload.nextIpIdx - 1) = some i ∧
    visit.previousVmNum = slotInt (payload.hostArray.get i)
  place : index? pingSize visit.previousVmNum = some j
  noted : Noted node j visit.node
  last : payload.nextIpIdx = lastIndex payload.hostArray → visit.node.ifLastNode = 1 ∧ visit.forwarded = none
  notLast : payload.nextIpIdx ≠ lastIndex payload.hostArray → visit.node.ifLastNode = node.ifLastNode ∧
    ∃ packet, sendRTpacket payload = some packet ∧ visit.forwarded = some packet

theorem Node.onRtPacket_visits (h : node.onRtPacket payload = some visit) :
    ∃ j, Visits node payload visit j := by
  simp only [Node.onRtPacket, Option.bind_eq_some_iff] at h
  obtain ⟨i, hi, j, hj, h⟩ := h
  have hnoted := (node.notePrevious_noted (payload.nextIpIdx - 1) hj).join payload
  refine ⟨j, ?_⟩
  split at h
  next he =>
    cases h
    exact {
      previous := ⟨i, hi, rfl⟩
      place := hj
      noted := ⟨hnoted.noted, hnoted.kept, hnoted.pingSwitch, hnoted.primed, hnoted.alarm, hnoted.exited⟩
      last := fun _ => ⟨rfl, rfl⟩
      notLast := fun hne => absurd he hne }
  next hne =>
    obtain ⟨packet, hpacket, rfl⟩ := Option.map_eq_some_iff.mp h
    exact {
      previous := ⟨i, hi, rfl⟩
      place := hj
      noted := hnoted
      last := fun he => absurd he hne
      notLast := fun _ => ⟨Node.join_ifLastNode.trans (node.notePrevious_ifLastNode ..), packet, hpacket, rfl⟩ }

end

/-! ## The group -/

inductive Notice
  | tourHasEnded (host : Int)
  | member (host : Int)
deriving DecidableEq

def hostName (host : Int) : List Char := "vm".toList ++ (toString host).toList

def Notice.text : Notice → List Char
  | .tourHasEnded host =>
    "<<<<< This is node ".toList ++ ' ' :: hostName host ++ ' ' ::
      " . Tour has ended . Group members please identify yourselves. >>>>>\n".toList
  | .member host =>
    "<<<<< Node ".toList ++ ' ' :: hostName host ++ ' ' :: " . I am a member of the group. >>>>>\n".toList

/-- What was sent to a group, and from where. -/
structure Multicast where
  sender : Int
  group : Option (List Char × List Char)
  notice : Notice
deriving DecidableEq

/-- The branch of `main` that calls `recv_multicast`, with what the node sends. -/
def Node.onMulticast (node : Node) (self : Int) (text : List Char) : Node × Option Notice :=
  let node := { node with pingSwitch := -1 }
  if text[6]? = some 'T' then (node, some (.member self))
  else if text[6]? = some 'N' then ({ node with alarm := true }, none)
  else (node, none)

/-! ## Pings -/

/-- What a timeout of `select` brings about: a notice to the group, or an echo request to each of
the nodes that are to be pinged, with its `icmp_seq`. -/
inductive Timeout
  | notice (notice : Notice)
  | pings (requests : List (Nat × Int))

def Node.onTimeout (node : Node) (self : Int) : Option (Node × Timeout) :=
  if node.pingSwitch = 1 then
    (index? pingSize node.previousVmNumStatic).map fun j : Fin pingSize =>
      if node.pingCounterArray[j] ≥ 5 ∧ node.ifLastNode = 1 then
        ({ node with pingSwitch := -1 }, .notice (.tourHasEnded self))
      else
        (node, .pings ((List.finRange pingSize).filterMap fun k : Fin pingSize =>
          if k.val ≠ 0 ∧ node.ifPing[k] ≠ 0 then some (k.val, node.pingCounterArray[k]) else none))
  else some (node, .pings [])

/-- What is read of an ICMP packet; `pingNode` is the number of the host it comes from. -/
structure IcmpPacket where
  ipHl : Nat
  ipP : Nat
  len : Int
  icmpType : Nat
  icmpId : Nat
  pingNode : Int

def ipprotoIcmp : Nat := 1

def icmpEchoReply : Nat := 0

def Node.procV4 (node : Node) (packet : IcmpPacket) : Option Node :=
  let hlen1 := packet.ipHl <<< 2
  if packet.ipP ≠ ipprotoIcmp then some node
  else if packet.len - hlen1 < 8 then some node
  else if packet.icmpType = icmpEchoReply then
    if packet.icmpId ≠ ipIdentification then some node
    else
      (index? pingSize packet.pingNode).map fun j : Fin pingSize =>
        { node with pingCounterArray := node.pingCounterArray.set j (node.pingCounterArray[j] + 1) }
  else some node

/-- An echo reply from a host. -/
def echoReply (host : Int) : IcmpPacket where
  ipHl := 5
  ipP := ipprotoIcmp
  len := 44
  icmpType := icmpEchoReply
  icmpId := ipIdentification
  pingNode := host

def Node.counter (node : Node) (j : Fin pingSize) : Int := node.pingCounterArray[j]

/-- One more reply has come from the node with this place. -/
def Node.counted (node : Node) (j : Fin pingSize) : Node :=
  { node with pingCounterArray := node.pingCounterArray.set j (node.pingCounterArray[j] + 1) }

theorem Node.counter_counted (node : Node) (j : Fin pingSize) :
    (node.counted j).counter j = node.counter j + 1 := Vector.getElem_set_self _

theorem Node.procV4_echoReply (node : Node) {host : Int} {j : Fin pingSize} (hj : index? pingSize host = some j) :
    node.procV4 (echoReply host) = some (node.counted j) := by
  have hlen : ¬ ((44 : Int) - (5 <<< 2 : Nat) < 8) := by decide
  simp only [Node.procV4, echoReply, ne_eq, not_true_eq_false, if_false, hlen, if_true, hj, Option.map_some,
    Node.counted]

/-! ## What the other events leave alone -/

/-- The node has pinged its latest predecessor five times. -/
def Node.CounterReady (node : Node) : Prop :=
  ∃ j, index? pingSize node.previousVmNumStatic = some j ∧ node.pingCounterArray[j] ≥ 5

section

variable {node node' : Node} {self : Int}

theorem Node.onMulticast_frame (node : Node) (self : Int) (text : List Char) :
    let p := node.onMulticast self text
    p.1.ifPing = node.ifPing ∧ p.1.ifLastNode = node.ifLastNode ∧ p.1.pingSwitch = -1 ∧
      ∀ notice, p.2 = some notice → notice = .member self := by
  unfold Node.onMulticast
  dsimp only
  split
  · exact ⟨rfl, rfl, rfl, fun _ h => (Option.some.inj h).symm⟩
  · split
    · exact ⟨rfl, rfl, rfl, fun _ h => nomatch h⟩
    · exact ⟨rfl, rfl, rfl, fun _ h => nomatch h⟩

/-- The end of the tour is announced, or nothing changes. -/
theorem Node.onTimeout_cases {timeout : Timeout} (h : node.onTimeout self = some (node', timeout)) :
    (node.pingSwitch = 1 ∧ node.CounterReady ∧ node.ifLastNode = 1 ∧ node' = { node with pingSwitch := -1 } ∧
      timeout = .notice (.tourHasEnded self)) ∨
    (node' = node ∧ ∃ requests, timeout = .pings requests) := by
  unfold Node.onTimeout at h
  split at h
  next hswitch =>
    obtain ⟨j, hj, h⟩ := Option.map_eq_some_iff.mp h
    split at h
    next hends =>
      cases h
      exact .inl ⟨hswitch, ⟨j, hj, hends.1⟩, hends.2, rfl, rfl⟩
    next =>
      cases h
      exact .inr ⟨rfl, _, rfl⟩
  next =>
    cases h
    exact .inr ⟨rfl, _, rfl⟩

theorem Node.procV4_frame {packet : IcmpPacket} (h : node.procV4 packet = some node') :
    node'.ifPing = node.ifPing ∧ node'.ifLastNode = node.ifLastNode ∧ node'.pingSwitch = node.pingSwitch ∧
      node'.alarm = node.alarm ∧ node'.exited = node.exited := by
  unfold Node.procV4 at h
  dsimp only at h
  split at h
  · cases h
    exact ⟨rfl, rfl, rfl, rfl, rfl⟩
  split at h
  · cases h
    exact ⟨rfl, rfl, rfl, rfl, rfl⟩
  split at h
  · split at h
    · cases h
      exact ⟨rfl, rfl, rfl, rfl, rfl⟩
    · obtain ⟨j, -, rfl⟩ := Option.map_eq_some_iff.mp h
      exact ⟨rfl, rfl, rfl, rfl, rfl⟩
  · cases h
    exact ⟨rfl, rfl, rfl, rfl, rfl⟩

end

end Sockets.Tour
