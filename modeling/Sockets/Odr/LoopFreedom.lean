/-
Routes and loops. The entries of the nodes for one destination, each naming
the neighbour a packet goes to next, make a route; nothing orders what they
say, so a node that gives up one way for another may take it through a node
that goes through it, and the packet goes round.

No loop comes of entries set for the first time. What a node passes on for
`d` (what carries `d` as its source) it passes on with a next hop for `d`
set; so a node whose next hop for `d` is not set is nobody's next hop, and
the one it sets leads elsewhere. The same holds of a change at a node that
is nobody's next hop, and of a change to `d` itself.
-/
import Sockets.Lib.Acyclic
import Sockets.Odr.Network

namespace Sockets.Odr

/-- One of the interfaces of `n` has the address. -/
def Topology.Owns (T : Topology) (n : Node) (mac : Mac) : Prop := ∃ f ∈ T.interfaces n, f.macAddr = mac

/-- `n`, on the way to `d`, is followed by `m`. A route ends at `d`. -/
def Topology.NextHop (T : Topology) (s : Network) (d n m : Node) : Prop :=
  n ≠ d ∧ T.Owns m ((s.nodes n).table d).nextHop

/-- The same through an entry that is not empty and is fresh by the clock of `n`. -/
def Topology.FreshHop (T : Topology) (s : Network) (now : Node → Int) (d n m : Node) : Prop :=
  T.NextHop s d n m ∧ checkAddressNotEmpty ((s.nodes n).table d).nextHop = true ∧
    ((s.nodes n).table d).timestamp + T.staleTime > now n

/-- A next hop for `d` that is set is never cleared, and changes only to `d`
itself or at a node that is nobody's next hop for `d`. -/
def KeepsWay (T : Topology) (d : Node) (s : Network) (_ : NetworkEvent) (s' : Network) : Prop :=
  ∀ n, n ≠ d → ((s.nodes n).table d).nextHop ≠ Mac.empty →
    ((s'.nodes n).table d).nextHop = ((s.nodes n).table d).nextHop ∨ T.NextHop s' d n d ∨
      (((s'.nodes n).table d).nextHop ≠ Mac.empty ∧ ∀ a, ¬ T.NextHop s d a n)

instance (T : Topology) (n : Node) (mac : Mac) : Decidable (T.Owns n mac) :=
  inferInstanceAs (Decidable (∃ f ∈ T.interfaces n, f.macAddr = mac))

instance (T : Topology) (s : Network) (d n m : Node) : Decidable (T.NextHop s d n m) :=
  inferInstanceAs (Decidable (_ ∧ _))

instance (T : Topology) (s : Network) (now : Node → Int) (d n m : Node) :
    Decidable (T.FreshHop s now d n m) :=
  inferInstanceAs (Decidable (_ ∧ _ ∧ _))

instance (T : Topology) (d : Node) (s : Network) (e : NetworkEvent) (s' : Network) :
    Decidable (KeepsWay T d s e s') :=
  inferInstanceAs (Decidable (∀ n, n ≠ d → _ → _))

variable {T : Topology} {s s' : Network} {d n m : Node} {st₀ st : NodeState} {clock : Nat → Int}
  {actions : List Action}

/-! ## Addresses -/

theorem Topology.Owns.ne_empty {mac : Mac} (h : T.Owns n mac) : mac ≠ Mac.empty := by
  obtain ⟨f, hf, rfl⟩ := h
  exact T.mac_ne_empty n f hf

theorem Topology.Owns.unique {mac : Mac} (hn : T.Owns n mac) (hm : T.Owns m mac) : n = m := by
  obtain ⟨f, hf, rfl⟩ := hn
  obtain ⟨g, hg, he⟩ := hm
  exact T.mac_inj n m f hf g hg he.symm

theorem owns_of_getMacAddr {i : Int} {mac : Mac}
    (h : (T.host n).getMacAddrByInterfaceNum i = some mac) :
    T.Owns n mac := by
  simp only [Host.getMacAddrByInterfaceNum, Option.map_eq_some_iff] at h
  obtain ⟨f, hf, rfl⟩ := h
  exact ⟨f, List.mem_of_find?_eq_some hf, rfl⟩

theorem ne_empty_of_notEmpty {mac : Mac} (h : checkAddressNotEmpty mac = true) : mac ≠ Mac.empty := by
  rintro rfl
  exact absurd h (by decide)

/-- The frames of `n` carry its address. -/
def OwnFrames (T : Topology) (n : Node) (action : Action) : Prop :=
  ∀ i, ∀ frame ∈ T.frame n i action, T.Owns n frame.srcMac

theorem ownFrames_broadcast (packet : Packet) : OwnFrames T n (.broadcast packet) := by
  intro i frame h
  simp only [Topology.frame, Option.mem_def, Option.map_eq_some_iff] at h
  obtain ⟨srcMac, hmac, rfl⟩ := h
  exact owns_of_getMacAddr hmac

theorem ownFrames_sendAlong {entry : RoutingEntry} {packet : Packet} {action : Action}
    (hs : (T.host n).sendAlong entry packet = some action) : OwnFrames T n action := by
  obtain ⟨srcMac, hmac, rfl⟩ := sendAlong_eq_some hs
  intro i frame h
  simp only [Topology.frame, Option.mem_def, Option.ite_none_right_eq_some, Option.some.injEq] at h
  obtain ⟨-, rfl⟩ := h
  exact owns_of_getMacAddr hmac

theorem Emitted.ownFrames {P : Packet → Prop} {inc : Option Incoming} {action : Action}
    (he : Emitted (T.host n) st₀ st clock P inc action) : OwnFrames T n action := by
  cases he with
  | originate | flood => exact ownFrames_broadcast _
  | reply _ _ _ _ hsend | relay _ hsend | buffered _ _ _ hsend => exact ownFrames_sendAlong hsend
  | toServer | toClient => simp [OwnFrames, Topology.frame]

/-! ## What a node passes on -/

/-- `n` is `d`, or its next hop for `d` is set. -/
def HasWay (d n : Node) (st : NodeState) : Prop := n = d ∨ (st.table d).nextHop ≠ Mac.empty

/-- If the packet speaks for `d`, then its holder, `n`, has a way to `d`. -/
def Vouched (T : Topology) (d n : Node) (st : NodeState) (packet : Packet) : Prop :=
  T.getNodeByIp packet.sourceIpAddr = some d → HasWay d n st

theorem vouched_htonl : HtonlClosed (Vouched T d n st) := fun _ => id

/-- Why a node puts out a packet that carries `d` as its source: it is `d`, a packet from
`d` came in, it has a route to `d`, or the packet was in its buffer. -/
theorem Emitted.source {Q : Prop} {inc : Option Incoming} {action : Action} {packet : Packet}
    (hinc : ∀ i ∈ inc, T.getNodeByIp i.packet.sourceIpAddr = some i.sourceNode ∧
      T.getNodeByIp i.packet.destinationIpAddr = some i.destNode)
    (hown : n = d → Q) (hknown : ∀ i ∈ inc, i.sourceNode = d → (i.packet.type = 0 → d ≠ n) → Q)
    (hcached : checkAddressNotEmpty (st₀.table d).nextHop = true → Q)
    (he : Emitted (T.host n) st₀ st clock (fun packet => T.getNodeByIp packet.sourceIpAddr = some d → Q)
      inc action)
    (hp : packet ∈ action.packet?) (hd : T.getNodeByIp packet.sourceIpAddr = some d) : Q := by
  cases he with
  | originate _ _ _ hsource =>
    cases hp
    rcases hsource with he | he <;> rw [he] at hd
    · exact hown (Option.some.inj ((T.local_resolves n).symm.trans hd))
    · exact hown (Option.some.inj ((T.current_resolves n).symm.trans hd))
  | flood htype _ hforeign =>
    cases hp
    cases (hinc _ rfl).1.symm.trans hd
    exact hknown _ rfl rfl fun _ => hforeign
  | reply _ _ _ hroute hsend =>
    rw [sendAlong_packet? hsend] at hp
    cases hp
    cases (hinc _ rfl).2.symm.trans hd
    cases hroute with
    | inl hself => exact hown hself.symm
    | inr hanswers => exact hcached hanswers.route
  | relay htype hsend =>
    rw [sendAlong_packet? hsend] at hp
    cases hp
    cases (hinc _ rfl).1.symm.trans hd
    exact hknown _ rfl rfl (by omega)
  | buffered hslot _ _ hsend =>
    rw [sendAlong_packet? hsend] at hp
    cases hp
    exact hslot hd
  | toServer | toClient => cases hp

theorem Emitted.vouched {inc : Option Incoming} {action : Action} {packet : Packet}
    (hinc : ∀ i ∈ inc, T.getNodeByIp i.packet.sourceIpAddr = some i.sourceNode ∧
      T.getNodeByIp i.packet.destinationIpAddr = some i.destNode)
    (hknown : ∀ i ∈ inc, (i.packet.type = 0 → i.sourceNode ≠ n) → HasWay i.sourceNode n st)
    (hkeep : HasWay d n st₀ → HasWay d n st)
    (he : Emitted (T.host n) st₀ st clock (Vouched T d n st) inc action) (hp : packet ∈ action.packet?) :
    Vouched T d n st packet := by
  refine he.source hinc .inl ?_ ?_ hp
  · rintro i hi rfl hforeign
    exact hknown i hi hforeign
  · intro hroute
    exact hkeep (.inr (ne_empty_of_notEmpty hroute))

/-! ## The invariant -/

/-- The next hops for `d` make no loop, and whoever is one, or has passed on
or still holds a packet that speaks for `d`, has a way to `d`. -/
structure WayInv (T : Topology) (d : Node) (s : Network) : Prop where
  acyclic : Acyclic (T.NextHop s d)
  hops : ∀ n m, T.NextHop s d n m → HasWay d m (s.nodes m)
  slots : ∀ n i, Vouched T d n (s.nodes n) ((s.nodes n).sendBuffer i)
  packets : ∀ record ∈ s.history, ∀ packet ∈ record.action.packet?,
    Vouched T d record.node (s.nodes record.node) packet
  frames : ∀ record ∈ s.history, OwnFrames T record.node record.action

theorem WayInv.start : WayInv T d (networkMachine T).init where
  acyclic a h := by
    obtain ⟨b, ⟨-, hb⟩, -⟩ := Relation.TransGen.head'_iff.mp h
    exact hb.ne_empty rfl
  hops n m h := absurd rfl h.2.ne_empty
  slots n i h := by
    rw [show ((networkMachine T).init.nodes n).sendBuffer i = {} from rfl, T.empty_unresolved] at h
    cases h
  packets := by simp [networkMachine]
  frames := by simp [networkMachine]

/-- The next hop of `m` for `d` becomes `k`, which has a way to `d` and does not lead back. -/
structure Redirects (T : Topology) (d m : Node) (s : Network) (st : NodeState) (k : Node) : Prop where
  owns : T.Owns k (st.table d).nextHop
  hasWay : HasWay d k (s.nodes k)
  ne : k ≠ m
  harmless : k = d ∨ ∀ a, ¬ T.NextHop s d a m

theorem Redirects.not_reaches {received : Option Packet} {k : Node} (h : Redirects T d m s st k) :
    ¬ Relation.ReflTransGen (T.NextHop (s.put m received st actions) d) k m := by
  rcases h.harmless with rfl | hin
  · exact not_reaches_of_no_out (fun a ha => ha.1 rfl) h.ne
  · refine not_reaches_of_no_in ?_ h.ne
    rintro a ⟨ha, howns⟩
    rw [put_nodes] at howns
    split at howns
    · exact h.ne (h.owns.unique howns)
    · exact hin a ⟨ha, howns⟩

theorem WayInv.put (hs : WayInv T d s) {received : Option Packet}
    (hkeep : HasWay d m (s.nodes m) → HasWay d m st)
    (hnext : m ≠ d → (st.table d).nextHop = ((s.nodes m).table d).nextHop ∨ ∃ k, Redirects T d m s st k)
    (hslots : ∀ i, Vouched T d m st (st.sendBuffer i))
    (hpackets : ∀ action ∈ actions, ∀ packet ∈ action.packet?, Vouched T d m st packet)
    (hframes : ∀ action ∈ actions, OwnFrames T m action) :
    WayInv T d (s.put m received st actions) := by
  have hkept : ∀ x, HasWay d x (s.nodes x) → HasWay d x ((s.put m received st actions).nodes x) := by
    intro x hx
    rw [put_nodes]
    split
    next he => exact he ▸ hkeep (he ▸ hx)
    · exact hx
  -- a next hop is an old one, or the one `m` now has
  have hnew : ∀ a b, T.NextHop (s.put m received st actions) d a b →
      T.NextHop s d a b ∨ (a = m ∧ Redirects T d m s st b) := by
    rintro a b ⟨ha, howns⟩
    rw [put_nodes] at howns
    split at howns
    next he =>
      subst he
      rcases hnext ha with hsame | ⟨k, hk⟩
      · exact .inl ⟨ha, hsame ▸ howns⟩
      · exact .inr ⟨rfl, howns.unique hk.owns ▸ hk⟩
    · exact .inl ⟨ha, howns⟩
  exact {
    acyclic := hs.acyclic.redirect fun a b h => (hnew a b h).imp_right (.imp_right Redirects.not_reaches)
    hops := by
      intro a b h
      rcases hnew a b h with hold | ⟨-, hb⟩
      · exact hkept b (hs.hops a b hold)
      · exact hkept b hb.hasWay
    slots := by
      intro x i
      rw [put_nodes]
      split
      next he => exact he ▸ hslots i
      · exact hs.slots x i
    packets := by
      intro record hm packet hp
      rcases mem_put_history hm with hm | ⟨hn, -, ha⟩
      · exact fun hd => hkept _ (hs.packets record hm packet hp hd)
      · rw [hn, put_nodes, if_pos rfl]
        exact hpackets _ ha packet hp
    frames := by
      intro record hm
      rcases mem_put_history hm with hm | ⟨hn, -, ha⟩
      · exact hs.frames record hm
      · exact hn ▸ hframes _ ha }

/-! ## Steps -/

theorem KeepsWay.at {e : NetworkEvent} {received : Option Packet}
    (h : KeepsWay T d s e (s.put m received st actions))
    (hm : m ≠ d) (hset : ((s.nodes m).table d).nextHop ≠ Mac.empty) :
    (st.table d).nextHop = ((s.nodes m).table d).nextHop ∨ T.Owns d (st.table d).nextHop ∨
      ((st.table d).nextHop ≠ Mac.empty ∧ ∀ a, ¬ T.NextHop s d a m) := by
  have h := h m hm hset
  rw [Topology.NextHop, put_nodes, if_pos rfl] at h
  exact h.imp_right (.imp_left And.right)

theorem WayInv.step_client (hs : WayInv T d s) {message : ClientMessage}
    (hm : onClientMessage (T.host m) (s.nodes m) message clock = some (st, actions))
    (hkeeps : KeepsWay T d s (.client m message clock) (s.put m none st actions)) :
    WayInv T d (s.put m none st actions) := by
  obtain ⟨dest, -, htable, -, -, hpackets⟩ := onClientMessage_spec hm
  have hcleared :
      (st.table d).nextHop = ((s.nodes m).table d).nextHop ∨ (st.table d).nextHop = Mac.empty := by
    rw [htable]
    split
    · rw [Function.update_apply]
      split
      · exact .inr rfl
      · exact .inl rfl
    · exact .inl rfl
  have hsame : m ≠ d → (st.table d).nextHop = ((s.nodes m).table d).nextHop := by
    intro hmd
    by_cases hset : ((s.nodes m).table d).nextHop = Mac.empty
    · cases hcleared with
      | inl h => exact h
      | inr h => exact h.trans hset.symm
    · rcases hkeeps.at hmd hset with h | h | h
      · exact h
      · exact hcleared.resolve_right h.ne_empty
      · exact hcleared.resolve_right h.1
  have hkeep : HasWay d m (s.nodes m) → HasWay d m st := by
    rintro (rfl | hset)
    · exact .inl rfl
    · by_cases hmd : m = d
      · exact .inl hmd
      · exact .inr (hsame hmd ▸ hset)
  have hown : Vouched T d m st (createPfPacket 2 (T.host m).currentAddr (s.nodes m).sourcePort
      message.destinationAddr message.destinationPort 0 message.msg) :=
    fun hd => .inl (Option.some.inj ((T.current_resolves m).symm.trans hd))
  obtain ⟨hslots, hemitted⟩ := hpackets (Vouched T d m st) vouched_htonl hown
    fun i hslot => hkeep (hs.slots m i hslot)
  exact hs.put hkeep (fun hmd => .inl (hsame hmd)) hslots
    (fun action ha packet hp => (hemitted action ha).vouched (by simp) (by simp) hkeep hp)
    fun action ha => (hemitted action ha).ownFrames

theorem WayInv.step_deliver (hs : WayInv T d s) {record : Record} {i j : Int} {reply : List Char}
    {inc : Incoming} {frame : Frame}
    (hd : Delivery T s s' record i m j clock reply inc frame st actions)
    (hkeeps : KeepsWay T d s (.deliver record i m j clock reply) s') : WayInv T d s' := by
  have hsender : T.Owns record.node inc.recvAddr :=
    hd.recvAddr ▸ hs.frames record hd.mem i frame hd.onWire
  have hne : record.node ≠ m := T.linked_ne _ _ _ _ hd.linked
  have hknown : (inc.packet.type = 0 → inc.sourceNode ≠ m) → HasWay inc.sourceNode m st := by
    intro hforeign
    cases hd.spec.known hforeign with
    | inl h => exact .inr (ne_empty_of_notEmpty h)
    | inr h => exact .inr (h ▸ hsender.ne_empty)
  have hkeep : HasWay d m (s.nodes m) → HasWay d m st := by
    rintro (rfl | hset)
    · exact .inl rfl
    · rcases hd.spec.nextHop d with h | ⟨-, h⟩
      · exact .inr (h ▸ hset)
      · exact .inr (h ▸ hsender.ne_empty)
  have hnext :
      m ≠ d → (st.table d).nextHop = ((s.nodes m).table d).nextHop ∨ ∃ k, Redirects T d m s st k := by
    intro hmd
    rcases hd.spec.nextHop d with h | ⟨rfl, h⟩
    · exact .inl h
    · have hway := hs.packets record hd.mem inc.packet hd.packet hd.source
      have howns : T.Owns record.node (st.table inc.sourceNode).nextHop := h ▸ hsender
      by_cases hset : ((s.nodes m).table inc.sourceNode).nextHop = Mac.empty
      · -- a node whose next hop is not set is nobody's next hop
        have hin : ∀ a, ¬ T.NextHop s inc.sourceNode a m := fun a ha =>
          (hs.hops a m ha).elim hmd fun hset' => hset' hset
        exact .inr ⟨_, howns, hway, hne, .inr hin⟩
      · rw [hd.state] at hkeeps
        rcases hkeeps.at hmd hset with hsame | hdirect | ⟨-, hin⟩
        · exact .inl hsame
        · exact .inr ⟨_, howns, hway, hne, .inl (howns.unique hdirect)⟩
        · exact .inr ⟨_, howns, hway, hne, .inr hin⟩
  have hbuffer : Bufferable (T.host m) inc reply (Vouched T d m st) := {
    htonl := vouched_htonl
    forward := by
      intro htype _ _ hsource
      cases hd.source.symm.trans hsource
      exact hknown fun h => absurd h htype
    reply := by
      intro _ _ hdest hsource
      cases hd.dest.symm.trans hsource
      exact .inl hdest.symm }
  obtain ⟨hslots, hemitted⟩ := hd.spec.packets (Vouched T d m st) hbuffer
    fun i hslot => hkeep (hs.slots m i hslot)
  rw [hd.state]
  refine hs.put hkeep hnext hslots ?_ fun action ha => (hemitted action ha).ownFrames
  intro action ha packet hp
  refine (hemitted action ha).vouched ?_ ?_ hkeep hp
  · intro i hi
    cases hi
    exact ⟨hd.source, hd.dest⟩
  · intro i hi
    cases hi
    exact hknown

theorem WayInv.step (hs : WayInv T d s) {e : NetworkEvent} (h : (networkMachine T).step s e = some s')
    (hkeeps : KeepsWay T d s e s') : WayInv T d s' := by
  cases e with
  | client n message clock =>
    obtain ⟨st, actions, hm, rfl⟩ := Odr.step_client h
    exact hs.step_client hm hkeeps
  | deliver record i m j clock reply =>
    obtain ⟨inc, frame, st, actions, hd⟩ := Odr.step_deliver h
    exact hs.step_deliver hd hkeeps

/-- **Loop freedom.** As long as the next hops for `d` are kept, the route
that the fresh entries make never visits a node twice. -/
theorem loopFree_of_keepsWay (T : Topology) (d : Node) {s : Network}
    (h : (networkMachine T).ReachableBy (KeepsWay T d) s) (now : Node → Int) :
    LoopFree (T.FreshHop s now d) := by
  have hs : WayInv T d s := h.invariant .start fun _ _ _ hs hstep hkeeps => hs.step hstep hkeeps
  exact hs.acyclic.loopFree.mono fun _ _ h => h.1

/-! ## A route, and a loop -/

/-- Node 1 finds the way to node 3, through node 2. The RREP reaches node 1 at time 5. -/
def askBeyond : List NetworkEvent :=
  let flooded : Record :=
    { node := 2, received := some (rreqPacket 1 3 0), action := .broadcast (rreqPacket 1 3 1) }
  [.client 1 (lineRequest 3) fun _ => 0, .deliver (lineRreq 1 3) 2 2 1 (fun _ => 0) [],
   .deliver flooded 2 3 1 (fun _ => 0) [],
   .deliver (lineReply 3 2 (rreqPacket 1 3 1) (rrepPacket 3 1 0)) 1 2 2 (fun _ => 0) [],
   .deliver (lineReply 2 1 (rrepPacket 3 1 0) (rrepPacket 3 1 1)) 1 1 2 (fun _ => 5) []]

/-- At time 11 the entry of node 2 is stale. It asks, and node 1 answers from its table. -/
def askBack : List NetworkEvent :=
  let answer : Record :=
    { node := 1, received := some (rreqPacket 2 3 0)
      action := .send (lineMac 1 2) (lineMac 2 1) 2 (rrepPacket 3 2 0) }
  [.client 2 (lineRequest 3) fun _ => 11, .deliver (lineRreq 2 3) 1 1 2 (fun _ => 11) [],
   .deliver answer 2 2 1 (fun _ => 11) []]

/-- The way through node 2 has come about by keeping next hops, and has no loop. -/
theorem loopFree_of_keepsWay_line : ∃ s, (lineTopology.FreshHop s (fun _ => 5) 3 1 2 ∧
    lineTopology.FreshHop s (fun _ => 5) 3 2 3) ∧ LoopFree (lineTopology.FreshHop s (fun _ => 5) 3) := by
  obtain ⟨s, hs, htest⟩ := Machine.reachableBy_of_execBy_any (M := networkMachine lineTopology)
    (G := KeepsWay lineTopology 3) askBeyond
    (fun s => lineTopology.FreshHop s (fun _ => 5) 3 1 2 ∧ lineTopology.FreshHop s (fun _ => 5) 3 2 3)
    (by decide +kernel)
  exact ⟨s, of_decide_eq_true htest, loopFree_of_keepsWay lineTopology 3 hs _⟩

/-- Node 2 comes to go through node 1, which goes through node 2. -/
theorem not_loopFree : ∃ s, (networkMachine lineTopology).Reachable s ∧
    ¬ LoopFree (lineTopology.FreshHop s (fun _ => 11) 3) := by
  obtain ⟨s, hs, htest⟩ := Machine.reachable_of_exec_any (M := networkMachine lineTopology)
    (askBeyond ++ askBack)
    (fun s => lineTopology.FreshHop s (fun _ => 11) 3 1 2 ∧ lineTopology.FreshHop s (fun _ => 11) 3 2 1)
    (by decide +kernel)
  obtain ⟨hforth, hback⟩ := of_decide_eq_true htest
  refine ⟨s, hs, ?_⟩
  intro h
  have hround : [1, 2, 1].IsChain (lineTopology.FreshHop s (fun _ => 11) 3) := by simp [hforth, hback]
  exact absurd (h _ hround) (by decide)

end Sockets.Odr
