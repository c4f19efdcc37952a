/-
The ports a node hands out. Each message of a client gets the next port, and
the client's path is put in the first free entry of the map, from which
nothing is ever taken out: so the map holds the first hundred ports, and the
clients that come later are not found when their response arrives
(`responseFound_iff`).
-/
import Sockets.Lib.Slots
import Sockets.Odr.Waiting

namespace Sockets.Odr

/-- One node, whatever becomes of what it puts out. -/
def nodeMachine (h : Host) : Machine NodeState NodeEvent where
  init := .start
  step st e := (h.onEvent st e).map (·.1)

/-- The path of the client whose message this is. -/
def NodeEvent.sunPath? : NodeEvent → Option String
  | .client message _ => some message.sunPath
  | .packet .. => none

/-- The clients that have sent a message, in order. -/
def clientPaths (es : List NodeEvent) : List String := es.filterMap NodeEvent.sunPath?

/-! ## What leaves the ports alone -/

/-- The map and the next port stay as they are. -/
structure PortsKept (st st' : NodeState) : Prop where
  mapArray : st'.mapArray = st.mapArray
  sourcePort : st'.sourcePort = st.sourcePort

theorem PortsKept.refl (st : NodeState) : PortsKept st st := ⟨rfl, rfl⟩

theorem PortsKept.trans {st st₁ st₂ : NodeState} (h : PortsKept st st₁) (h₁ : PortsKept st₁ st₂) :
    PortsKept st st₂ := ⟨h₁.mapArray.trans h.mapArray, h₁.sourcePort.trans h.sourcePort⟩

variable {h : Host} {st st' : NodeState} {inc : Incoming} {clock : Nat → Int} {actions sent : List Action}
  {reply : List Char}

theorem setEntry_ports (st : NodeState) (node : Node) (entry : RoutingEntry) :
    PortsKept st (st.setEntry node entry) := ⟨rfl, rfl⟩

theorem forget_ports (st : NodeState) (flag : Int) (dest : Node) : PortsKept st (st.forget flag dest) := by
  unfold NodeState.forget
  split
  · exact setEntry_ports ..
  · exact .refl st

theorem bufferPacket_ports {packet : Packet} (hs : st.bufferPacket packet = some st') : PortsKept st st' := by
  rw [bufferPacket_eq_some hs]
  exact ⟨rfl, rfl⟩

theorem nextBroadcastId_ports (hs : st.nextBroadcastId = some st') : PortsKept st st' := by
  rw [(nextBroadcastId_eq_some hs).2]
  exact ⟨rfl, rfl⟩

theorem removeFromBuffer_ports {removeIndex : Nat} (hs : st.removeFromBuffer removeIndex = some st') :
    PortsKept st st' := by
  simp only [NodeState.removeFromBuffer, Option.bind_eq_bind, Option.bind_eq_some_iff,
    Option.some.injEq] at hs
  obtain ⟨sendBuffer, -, rfl⟩ := hs
  exact ⟨rfl, rfl⟩

theorem flushFrom_ports {todo i : Nat} (hf : flushFrom h clock todo i st = some (st', sent)) :
    PortsKept st st' := by
  induction todo generalizing i st sent with
  | zero =>
    simp only [flushFrom, Option.some.injEq, Prod.mk.injEq] at hf
    exact hf.1 ▸ .refl st
  | succ todo ih =>
    simp only [flushFrom, Option.bind_eq_bind, Option.bind_eq_some_iff] at hf
    obtain ⟨packet, -, destNode, -, hf⟩ := hf
    split at hf
    · simp only [Option.bind_eq_some_iff] at hf
      obtain ⟨action, -, st₁, hremove, ⟨st₂, actions⟩, hrest, hf⟩ := hf
      simp only [Option.some.injEq, Prod.mk.injEq] at hf
      obtain ⟨rfl, -⟩ := hf
      have hkept := (removeFromBuffer_ports hremove).trans (ih hrest)
      exact ⟨hkept.mapArray, hkept.sourcePort⟩
    · exact ih hf

theorem reversePath_ports (h : Host) (st : NodeState) (inc : Incoming) (clock : Nat → Int) :
    PortsKept st (reversePath h st inc clock) := setEntry_ports ..

theorem onRreq_ports (htype : inc.packet.type = 0) (hs : onRreq h st inc clock = some (st', actions)) :
    PortsKept st st' := by
  have hmarked : PortsKept st (markSeen h st inc clock) :=
    (reversePath_ports h st inc clock).trans (setEntry_ports ..)
  cases onRreq_outcome htype hs with
  | own => exact .refl st
  | duplicate => exact reversePath_ports h st inc clock
  | fresh _ _ _ hstate =>
    rcases hstate with rfl | rfl
    · exact hmarked
    · exact hmarked.trans (setEntry_ports ..)

theorem forwardPath_ports (h : Host) (st : NodeState) (inc : Incoming) (clock : Nat → Int) :
    PortsKept st (forwardPath h st inc clock) := by
  unfold forwardPath
  dsimp only
  split
  · exact setEntry_ports ..
  · exact .refl st

theorem onRrep_ports (hs : onRrep h st inc clock = some (st', actions)) : PortsKept st st' := by
  simp only [onRrep] at hs
  split at hs
  · exact (forwardPath_ports h st inc clock).trans (flushFrom_ports hs)
  · simp only [Option.bind_eq_bind, Option.bind_eq_some_iff, Option.some.injEq, Prod.mk.injEq] at hs
    obtain ⟨action, -, rfl, -⟩ := hs
    exact forwardPath_ports h st inc clock

theorem acceptApplication_ports (hs : acceptApplication h st inc reply = some (st', actions)) :
    PortsKept st st' := by
  simp only [acceptApplication, Option.bind_eq_bind] at hs
  split at hs
  · split at hs
    · simp only [Option.bind_eq_some_iff, Option.some.injEq, Prod.mk.injEq] at hs
      obtain ⟨st₁, hb, rfl, -⟩ := hs
      exact bufferPacket_ports hb
    · simp only [Option.bind_eq_some_iff, Option.some.injEq, Prod.mk.injEq] at hs
      obtain ⟨sunPath, -, rfl, -⟩ := hs
      exact .refl st
  · simp only [Option.bind_eq_some_iff, Option.some.injEq, Prod.mk.injEq] at hs
    obtain ⟨st₁, hb, rfl, -⟩ := hs
    exact bufferPacket_ports hb

theorem rediscover_ports (hs : rediscover h st inc = some (st', actions)) : PortsKept st st' := by
  simp only [rediscover, Option.bind_eq_bind] at hs
  split at hs
  · simp only [Option.bind_eq_some_iff, Option.some.injEq, Prod.mk.injEq] at hs
    obtain ⟨st₁, hn, action, -, rfl, -⟩ := hs
    exact nextBroadcastId_ports hn
  · simp only [Option.some.injEq, Prod.mk.injEq] at hs
    exact hs.1 ▸ .refl st

theorem onApplication_ports (hs : onApplication h st inc clock reply = some (st', actions)) :
    PortsKept st st' := by
  simp only [onApplication, Option.bind_eq_bind, Option.bind_eq_some_iff, Option.some.injEq,
    Prod.mk.injEq] at hs
  obtain ⟨⟨st₁, accepted⟩, haccept, ⟨st₂, sent⟩, hflush, ⟨st₃, rreq⟩, hrediscover, rfl, -⟩ := hs
  have haccepted := (setEntry_ports ..).trans (acceptApplication_ports haccept)
  exact (haccepted.trans (flushFrom_ports hflush)).trans (rediscover_ports hrediscover)

/-- No packet from the wire changes the map or the next port. -/
theorem receivePacket_ports {recvAddr : Mac} {incomingInterface : Int} {packet : Packet}
    (hs : receivePacket h st recvAddr incomingInterface packet clock reply = some (st', actions)) :
    PortsKept st st' := by
  simp only [receivePacket, Option.bind_eq_bind, Option.bind_eq_some_iff] at hs
  obtain ⟨sourceNode, -, destNode, -, hs⟩ := hs
  split at hs
  next htype => exact onRreq_ports htype hs
  split at hs
  · exact onRrep_ports hs
  · exact onApplication_ports hs

/-- A client's message takes the next port. -/
theorem onClientMessage_ports {message : ClientMessage}
    (hs : onClientMessage h st message clock = some (st', actions)) :
    st'.mapArray = addMap st.sourcePort message.sunPath st.mapArray ∧ st'.sourcePort = st.sourcePort + 1 := by
  simp only [onClientMessage, Option.bind_eq_bind, Option.bind_eq_some_iff, Option.some.injEq,
    Prod.mk.injEq] at hs
  obtain ⟨st₁, hb, st₂, hn, dest, -, rreq, -, ⟨st₃, sent⟩, hflush, rfl, -⟩ := hs
  have hkept := ((bufferPacket_ports hb).trans (nextBroadcastId_ports hn)).trans
    ((forget_ports ..).trans (flushFrom_ports hflush))
  exact ⟨hkept.mapArray, congrArg (· + 1) hkept.sourcePort⟩

/-! ## The map -/

def freeEntry : MapPortPath := { portNum := -1, sunPath := "" }

/-- The entries for these clients: the first has port 1. -/
def mapEntries (paths : List String) : List MapPortPath :=
  paths.zipIdx.map fun (sunPath, k) => { portNum := k + 1, sunPath }

theorem addMap_eq (portNum : Int) (sunPath : String) (map : List MapPortPath) :
    addMap portNum sunPath map = putFirst (fun slot => slot.portNum = -1) { portNum, sunPath } map := by
  induction map with
  | nil => rfl
  | cons slot map ih => simp only [addMap, putFirst, ih, decide_eq_true_eq]

@[simp] theorem length_mapEntries (paths : List String) : (mapEntries paths).length = paths.length := by
  simp [mapEntries]

theorem mapEntries_append (paths : List String) (sunPath : String) :
    mapEntries (paths ++ [sunPath]) = mapEntries paths ++ [{ portNum := paths.length + 1, sunPath }] := by
  simp [mapEntries, List.zipIdx_append]

theorem getElem_mapEntries {paths : List String} {k : Nat} (hk : k < paths.length) :
    (mapEntries paths)[k]? = some { portNum := k + 1, sunPath := paths[k] } := by
  simp [mapEntries, hk]

theorem portNum_of_mem {paths : List String} {slot : MapPortPath} {n : Nat}
    (hm : slot ∈ (mapEntries paths).take n) : 0 < slot.portNum ∧ slot.portNum ≤ n := by
  obtain ⟨k, hk⟩ := List.mem_iff_getElem?.mp hm
  rw [List.getElem?_take] at hk
  split at hk
  next hlt =>
    have hpath : k < paths.length := by
      have hlength := (List.getElem?_eq_some_iff.mp hk).1
      rwa [length_mapEntries] at hlength
    rw [getElem_mapEntries hpath, Option.some.injEq] at hk
    subst hk
    dsimp only
    omega
  next => cases hk

/-- Where the ports of these clients were handed out. -/
structure HandedOut (paths : List String) (st : NodeState) : Prop where
  sourcePort : st.sourcePort = paths.length + 1
  mapArray : st.mapArray = slots mapSize freeEntry (mapEntries paths)

variable {paths : List String} {e : NodeEvent}

theorem HandedOut.start : HandedOut [] NodeState.start where
  sourcePort := rfl
  mapArray := (slots_nil mapSize freeEntry).symm

/-- Each client's message hands out one more. -/
theorem HandedOut.step (hp : HandedOut paths st) (hs : (nodeMachine h).step st e = some st') :
    HandedOut (paths ++ e.sunPath?.toList) st' := by
  simp only [nodeMachine, Option.map_eq_some_iff] at hs
  obtain ⟨⟨st₁, actions⟩, hs, rfl⟩ := hs
  cases e with
  | packet =>
    obtain ⟨hmap, hport⟩ := receivePacket_ports hs
    rw [NodeEvent.sunPath?, Option.toList_none, List.append_nil]
    exact ⟨hport.trans hp.sourcePort, hmap.trans hp.mapArray⟩
  | client message =>
    obtain ⟨hmap, hport⟩ := onClientMessage_ports hs
    have hused : ∀ slot ∈ mapEntries paths, decide (slot.portNum = -1) = false := by
      intro slot hm
      rw [← List.take_length (l := mapEntries paths)] at hm
      have hpos := (portNum_of_mem hm).1
      exact decide_eq_false (by omega)
    rw [NodeEvent.sunPath?, Option.toList_some]
    refine ⟨?_, ?_⟩
    · rw [hport, hp.sourcePort, List.length_append, List.length_singleton]
      omega
    · rw [hmap, addMap_eq, hp.mapArray, putFirst_slots rfl hused, hp.sourcePort, mapEntries_append]

theorem HandedOut.run {es : List NodeEvent} (hp : HandedOut paths st)
    (hr : (nodeMachine h).exec st es = some st') : HandedOut (paths ++ clientPaths es) st' := by
  induction es generalizing st paths with
  | nil =>
    rw [Machine.exec_nil, Option.some.injEq] at hr
    rw [clientPaths, List.filterMap_nil, List.append_nil]
    exact hr ▸ hp
  | cons e es ih =>
    obtain ⟨st₁, hs, hr⟩ := Machine.exec_cons_iff.mp hr
    have hrest := ih (hp.step hs) hr
    rw [List.append_assoc] at hrest
    have hpaths : clientPaths (e :: es) = e.sunPath?.toList ++ clientPaths es := by
      cases he : e.sunPath? <;> simp [clientPaths, he]
    rwa [hpaths]

theorem getElem_map {k : Nat} (hlt : k < mapSize) (hk : k < paths.length) :
    (slots mapSize freeEntry (mapEntries paths))[k]? = some { portNum := k + 1, sunPath := paths[k] } := by
  rw [getElem?_slots hlt (by rwa [length_mapEntries]), getElem_mapEntries hk]

/-- A port is found in the map as long as it is one of the first. -/
theorem HandedOut.searchMap_eq (hp : HandedOut paths st) {k : Nat} (hk : k < paths.length) :
    searchMap (k + 1) st.mapArray = if k < mapSize then some paths[k] else none := by
  rw [hp.mapArray, searchMap]
  split
  next hlt =>
    have hfind : (slots mapSize freeEntry (mapEntries paths)).find? (fun slot => slot.portNum = (k : Int) + 1) =
        some { portNum := k + 1, sunPath := paths[k] } := by
      obtain ⟨hbound, hget⟩ := List.getElem?_eq_some_iff.mp (getElem_map hlt hk)
      refine List.find?_eq_some_iff_getElem.mpr ⟨by simp, k, hbound, hget, ?_⟩
      intro j hj
      rw [(List.getElem?_eq_some_iff.mp (getElem_map (hj.trans hlt) (hj.trans hk))).2]
      simp only [Bool.not_eq_true', decide_eq_false_iff_not]
      omega
    rw [hfind]
    rfl
  next hge =>
    have hnone : (slots mapSize freeEntry (mapEntries paths)).find? (fun slot => slot.portNum = (k : Int) + 1) =
        none := by
      rw [List.find?_eq_none]
      intro slot hm
      rw [decide_eq_true_eq]
      rcases List.mem_append.mp hm with hm | hm
      · have hle := (portNum_of_mem hm).2
        omega
      · have hfree : slot.portNum = -1 := by rw [List.eq_of_mem_replicate hm, freeEntry]
        omega
    rw [hnone]
    rfl

/-- **Who gets a response.** In every run of a node, whenever a port has been handed out, the
client it was handed out to is found under it, if and only if it is one of the first hundred. -/
theorem responseFound_iff {es : List NodeEvent} (hr : (nodeMachine h).exec NodeState.start es = some st)
    {k : Nat} (hk : k < (clientPaths es).length) :
    searchMap (k + 1) st.mapArray = some (clientPaths es)[k] ↔ k < mapSize := by
  have hp : HandedOut (clientPaths es) st := HandedOut.start.run hr
  rw [hp.searchMap_eq hk]
  split
  next hlt => exact iff_of_true rfl hlt
  next hge => exact iff_of_false (fun hsome => by cases hsome) hge

/-! ## A client too many -/

/-- Node 1 learns the way to node 2, and then these clients send messages there, which it sends on
at once. -/
def clientsAt (sunPaths : List String) : List NodeEvent :=
  .packet (lineMac 2 1) 2 (rreqPacket 2 3 0) (fun _ => 0) [] ::
    sunPaths.map fun sunPath => .client { lineRequest 2 with sunPath } fun _ => 5

def fourPaths : List String := ["/tmp/client1", "/tmp/client2", "/tmp/client3", "/tmp/client4"]

theorem responseFound_iff_third : ∃ st,
    (nodeMachine (lineTopology.host 1)).exec NodeState.start (clientsAt fourPaths) = some st ∧
      (searchMap ((2 : Nat) + 1) st.mapArray = some "/tmp/client3" ↔ 2 < mapSize) := by
  have hrun : ((nodeMachine (lineTopology.host 1)).exec NodeState.start (clientsAt fourPaths)).isSome = true := by
    decide +kernel
  obtain ⟨st, hr⟩ := Option.isSome_iff_exists.mp hrun
  exact ⟨st, hr, responseFound_iff hr (k := 2) (by decide)⟩

/-- The hundred and first client is not found. -/
theorem not_responseFound : ∃ st,
    (nodeMachine (lineTopology.host 1)).exec NodeState.start (clientsAt (List.replicate 101 "/tmp/client")) =
      some st ∧
    (clientPaths (clientsAt (List.replicate 101 "/tmp/client"))).length = 101 ∧
      searchMap 101 st.mapArray = none := by
  have hrun : ((nodeMachine (lineTopology.host 1)).exec NodeState.start
      (clientsAt (List.replicate 101 "/tmp/client"))).any
        (fun st => searchMap 101 st.mapArray = none) = true := by decide +kernel
  obtain ⟨st, hr, hnone⟩ := (Option.any_eq_true _ _).mp hrun
  exact ⟨st, hr, by decide +kernel, of_decide_eq_true hnone⟩

end Sockets.Odr
