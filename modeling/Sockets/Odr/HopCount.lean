/-
Hop counts of forward routes. An RREP starts with hop count 0 at the node
that sends it, every relay adds one, and so does the node that installs the
route; so the count is that of the links the RREP has crossed. That is the
distance to the node it speaks for when that node sent it. When an
intermediate node answers from its table, the hops it has itself to the
destination are left out, and the installed count is too small.
-/
import Mathlib.Combinatorics.SimpleGraph.Metric
import Sockets.Odr.Network

namespace Sockets.Odr

/-- Nodes with a link between them. -/
def Topology.graph (T : Topology) : SimpleGraph Node where
  Adj n m := ∃ i j, T.linked n i m j = true
  symm := ⟨fun n m ⟨i, j, h⟩ => ⟨j, i, T.linked_symm n i m j h⟩⟩
  loopless := ⟨fun n ⟨i, j, h⟩ => T.linked_ne n i n j h rfl⟩

/-- There is a path of at most `hops` links. -/
def Topology.Within (T : Topology) (n d : Node) (hops : Int) : Prop :=
  ∃ walk : T.graph.Walk n d, (walk.length : Int) ≤ hops

/-- If the step installs a route from an RREP, a path bears its hop count out. -/
def HonestInstall (T : Topology) (s : Network) (e : NetworkEvent) (s' : Network) : Prop :=
  match e with
  | .client .. => True
  | .deliver record i m j clock _ => ∀ inc ∈ T.incoming record i j, inc.packet.type = 1 →
      updateForward (T.host m) ((s.nodes m).table inc.sourceNode) inc (clock 0) = true →
        T.Within m inc.sourceNode ((s'.nodes m).table inc.sourceNode).hopsToDest

/-- No intermediate node answers an RREQ from its table. -/
def NoCachedAnswer (T : Topology) (s : Network) (e : NetworkEvent) (_ : Network) : Prop :=
  match e with
  | .client .. => True
  | .deliver record i m j clock _ => ∀ inc ∈ T.incoming record i j, inc.packet.type = 0 →
      ¬ AnswersFromCache (T.host m) (s.nodes m) inc clock

/-- Of every RREP under way: its sender is within its hop count of the node it speaks for. -/
def RrepsHonest (T : Topology) (s : Network) : Prop :=
  ∀ record ∈ s.history, ∀ packet ∈ record.action.packet?, packet.type = 1 →
    ∀ d, T.getNodeByIp packet.sourceIpAddr = some d → T.Within record.node d packet.hopCount

structure HopInv (T : Topology) (s : Network) : Prop where
  typed : TypedInv s
  rreps : RrepsHonest T s

variable {T : Topology} {s s' : Network}

theorem Topology.Within.refl (n : Node) : T.Within n n 0 := ⟨.nil, by simp⟩

theorem Topology.Within.cons {n m d : Node} {i j hops : Int} (h : T.Within m d hops)
    (hl : T.linked n i m j = true) : T.Within n d (hops + 1) := by
  obtain ⟨walk, hlen⟩ := h
  have hadj : T.graph.Adj n m := ⟨i, j, hl⟩
  refine ⟨.cons hadj walk, ?_⟩
  rw [SimpleGraph.Walk.length_cons]
  omega

/-- In particular the count is no smaller than the distance. -/
theorem Topology.Within.dist_le {n d : Node} {hops : Int} (h : T.Within n d hops) :
    (T.graph.dist n d : Int) ≤ hops := by
  obtain ⟨walk, hlen⟩ := h
  have hdist := SimpleGraph.dist_le walk
  omega

/-- A node that sends an RREP speaks for itself, or passes it on. -/
theorem Emitted.rrep {n : Node} {st₀ st : NodeState} {clock : Nat → Int} {inc : Option Incoming}
    {action : Action} {packet : Packet} {d : Node}
    (hinc : ∀ i ∈ inc, T.getNodeByIp i.packet.sourceIpAddr = some i.sourceNode ∧
      T.getNodeByIp i.packet.destinationIpAddr = some i.destNode)
    (hcache : ∀ i ∈ inc, i.packet.type = 0 → ¬ AnswersFromCache (T.host n) st₀ i clock)
    (he : Emitted (T.host n) st₀ st clock SlotTyped inc action) (hp : packet ∈ action.packet?)
    (htype : packet.type = 1) (hd : T.getNodeByIp packet.sourceIpAddr = some d) :
    (d = n ∧ packet.hopCount = 0) ∨
      ∃ i ∈ inc, i.packet.type = 1 ∧ i.sourceNode = d ∧ packet.hopCount = i.hopCount := by
  cases he with
  | originate _ htype' =>
    cases hp
    omega
  | flood htype' =>
    cases hp
    dsimp only at htype
    omega
  | reply htype' _ _ hroute hsend =>
    left
    rw [sendAlong_packet? hsend] at hp
    cases hp
    cases hroute with
    | inl hown =>
      exact ⟨Option.some.inj (hd.symm.trans ((hinc _ rfl).2.trans (congrArg some hown))), rfl⟩
    | inr hcached => exact absurd hcached (hcache _ rfl htype')
  | relay htype' hsend =>
    right
    rw [sendAlong_packet? hsend] at hp
    cases hp
    exact ⟨_, rfl, htype', Option.some.inj ((hinc _ rfl).1.symm.trans hd), rfl⟩
  | buffered hslot hdest _ hsend =>
    rw [sendAlong_packet? hsend] at hp
    cases hp
    rcases hslot.sent hdest with h | h <;> omega
  | toServer | toClient => cases hp

theorem RrepsHonest.put (hs : RrepsHonest T s) {m : Node} {st : NodeState} {actions : List Action}
    (inc : Option Incoming) {clock : Nat → Int}
    (hinc : ∀ i ∈ inc, T.getNodeByIp i.packet.sourceIpAddr = some i.sourceNode ∧
      T.getNodeByIp i.packet.destinationIpAddr = some i.destNode)
    (hcache : ∀ i ∈ inc, i.packet.type = 0 → ¬ AnswersFromCache (T.host m) (s.nodes m) i clock)
    (hwithin : ∀ i ∈ inc, i.packet.type = 1 → T.Within m i.sourceNode i.hopCount)
    (hemitted : ∀ action ∈ actions, Emitted (T.host m) (s.nodes m) st clock SlotTyped inc action) :
    RrepsHonest T (s.put m (inc.map (·.packet)) st actions) := by
  intro record hm packet hp htype d hd
  rcases mem_put_history hm with hm | ⟨hn, -, ha⟩
  · exact hs record hm packet hp htype d hd
  rw [hn]
  rcases (hemitted _ ha).rrep hinc hcache hp htype hd with ⟨rfl, hz⟩ | ⟨i, hi, htype', rfl, hhop⟩
  · rw [hz]
    exact .refl d
  · rw [hhop]
    exact hwithin i hi htype'

/-- An RREP that arrives has crossed one more link. -/
theorem Delivery.within {record : Record} {i : Int} {m : Node} {j : Int} {clock : Nat → Int}
    {reply : List Char}
    {inc : Incoming} {frame : Frame} {st : NodeState} {actions : List Action} (hs : RrepsHonest T s)
    (hd : Delivery T s s' record i m j clock reply inc frame st actions) (htype : inc.packet.type = 1) :
    T.Within m inc.sourceNode inc.hopCount :=
  (hs record hd.mem inc.packet hd.packet htype inc.sourceNode hd.source).cons
    (T.linked_symm _ _ _ _ hd.linked)

theorem HopInv.start : HopInv T (networkMachine T).init where
  typed := .start
  rreps := by simp [networkMachine, RrepsHonest]

theorem HopInv.step (hs : HopInv T s) {e : NetworkEvent} (h : (networkMachine T).step s e = some s')
    (hcache : NoCachedAnswer T s e s') : HonestInstall T s e s' ∧ HopInv T s' := by
  cases e with
  | client n message clock =>
    obtain ⟨st, actions, hm, rfl⟩ := step_client h
    obtain ⟨dest, -, -, -, -, hpackets⟩ := onClientMessage_spec hm
    refine ⟨trivial, { typed := hs.typed.step h, rreps := ?_ }⟩
    exact hs.rreps.put none (by simp) (by simp) (by simp)
      (hpackets SlotTyped slotTyped_htonl (.inr (.inl rfl)) (hs.typed.slots n)).2
  | deliver record i m j clock reply =>
    obtain ⟨inc, frame, st, actions, hd⟩ := step_deliver h
    constructor
    · intro inc' hinc' htype hu
      cases hd.incoming.symm.trans hinc'
      rw [hd.state, put_nodes, if_pos rfl, (hd.spec.rrep htype).1, forwardPath_table, if_pos ⟨hu, rfl⟩]
      exact hd.within hs.rreps htype
    · refine { typed := hs.typed.step h, rreps := ?_ }
      rw [hd.state]
      have hsent := (hd.spec.packets SlotTyped (hd.typed hs.typed) (hs.typed.slots m)).2
      refine hs.rreps.put (some inc) ?_ ?_ ?_ hsent
      · intro i hi
        cases hi
        exact ⟨hd.source, hd.dest⟩
      · intro i hi
        cases hi
        exact hcache inc hd.incoming
      · intro i hi
        cases hi
        exact hd.within hs.rreps

/-- **Hop counts.** In a run of a network in which no intermediate node
answers from its table, every route installed from an RREP has a hop count
that is the length of a path, or more. -/
theorem honestInstall_along (T : Topology) (es : List NetworkEvent)
    (h : (networkMachine T).Along (NoCachedAnswer T) (networkMachine T).init es) :
    (networkMachine T).Along (HonestInstall T) (networkMachine T).init es :=
  h.of_guard (I := HopInv T) (fun _ _ _ hs h hcache => hs.step h hcache) .start

/-- The run goes through, and the installed hop count is honest. -/
theorem honestInstall_along_line :
    ((networkMachine lineTopology).exec (networkMachine lineTopology).init askNeighbour).isSome = true ∧
    (networkMachine lineTopology).Along (HonestInstall lineTopology) (networkMachine lineTopology).init
      askNeighbour := by
  refine ⟨by decide +kernel, honestInstall_along lineTopology _ ?_⟩
  refine fun s _ => ⟨trivial, fun s' _ => ⟨?_, fun s'' _ => ⟨?_, trivial⟩⟩⟩
  · intro inc hinc _ hcached
    have hdest : (lineTopology.incoming (lineRreq 1 2) 2 1).map (·.destNode) = some 2 := by
      decide +kernel
    rw [hinc, Option.map_some, Option.some.injEq] at hdest
    exact hcached.intermediate hdest.symm
  · intro inc hinc htype
    have hrrep : (lineTopology.incoming (lineRrep 2 1) 1 2).map (·.packet.type) = some 1 := by
      decide +kernel
    rw [hinc, Option.map_some, Option.some.injEq] at hrrep
    omega

theorem line_not_within : ¬ lineTopology.Within 1 3 1 := by
  rintro ⟨walk, hlen⟩
  match walk, hlen with
  | .cons ⟨i, j, hl⟩ .nil, _ =>
    simp only [lineTopology, Bool.or_eq_true, decide_eq_true_eq] at hl
    rcases hl with ⟨-, -, h⟩ | ⟨-, -, h⟩ <;> exact absurd h (by decide)
  | .cons _ (.cons _ _), hlen =>
    simp only [SimpleGraph.Walk.length_cons] at hlen
    omega

/-- Node 2 has learned the way to node 3, one hop. Node 1 asks for node 3,
node 2 answers with hop count 0, and node 1 has node 3 at one hop. -/
theorem not_honestInstall : ∃ s e s', (networkMachine lineTopology).Reachable s ∧
    (networkMachine lineTopology).step s e = some s' ∧ ¬ HonestInstall lineTopology s e s' := by
  let cached : Record := lineReply 2 1 (rreqPacket 1 3 0) (rrepPacket 3 1 0)
  let e : NetworkEvent := .deliver cached 1 1 2 (fun _ => 0) []
  obtain ⟨s, hs, htest⟩ := Machine.reachable_of_exec_any (M := networkMachine lineTopology)
    [.client 2 (lineRequest 3) fun _ => 0, .deliver (lineRreq 2 3) 2 3 1 (fun _ => 0) [],
     .deliver (lineRrep 3 2) 1 2 2 (fun _ => 0) [], .client 1 (lineRequest 3) fun _ => 0,
     .deliver (lineRreq 1 3) 2 2 1 (fun _ => 0) []]
    (fun s => !checkAddressNotEmpty ((s.nodes 1).table 3).nextHop &&
      ((networkMachine lineTopology).step s e).any fun s' => ((s'.nodes 1).table 3).hopsToDest = 1)
    (by decide +kernel)
  simp only [Bool.and_eq_true, Bool.not_eq_true', Option.any_eq_true, decide_eq_true_eq] at htest
  obtain ⟨hempty, s', hstep, hhops⟩ := htest
  refine ⟨s, e, s', hs, hstep, ?_⟩
  intro hhonest
  apply line_not_within
  have hinc :
      (lineTopology.incoming cached 1 2).any fun inc => inc.packet.type = 1 ∧ inc.sourceNode = 3 := by
    decide +kernel
  obtain ⟨inc, hinc, htype⟩ := (Option.any_eq_true _ _).mp hinc
  obtain ⟨htype, hsource⟩ := of_decide_eq_true htype
  have hwithin := hhonest inc hinc htype (by simp [updateForward, hsource, hempty])
  rwa [hsource, hhops] at hwithin

end Sockets.Odr
