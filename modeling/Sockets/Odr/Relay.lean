/-
RREPs on their way back. A relay sends an RREP on to the next hop of its
entry for the node that asked, without a look at the entry (the loop that
sends from the buffer does look). That there is a next hop rests on the
network: a node comes by an RREP for `x` only if it was some node's next hop
for `x`, so it has put out a packet from `x` itself, and has heard from `x`.

What it has learned then it may have forgotten since: a client of the relay
that forces a discovery of `x` clears the entry, and an RREP that is still
under way to `x` is relayed to the all-zero address. That is the only way
(`relaysAlongRoute_along_iff`).
-/
import Sockets.Odr.LoopFreedom

namespace Sockets.Odr

/-- No interface has the address that stands for everyone. -/
structure EthernetTopology extends Topology where
  mac_ne_broadcast : ∀ n, ∀ f ∈ interfaces n, f.macAddr ≠ Mac.broadcast

/-- The address node `n` receives a frame from in the event. -/
def Topology.recvAddr (T : Topology) (n : Node) : NetworkEvent → List Mac
  | .client .. => []
  | .deliver record i m _ _ _ =>
    if m = n then ((T.frame record.node i record.action).map (·.srcMac)).toList else []

/-- A client of `n` has forced a discovery of `x`, and `n` has not heard from `x` since;
`before` says whether this was so before the event. -/
def Topology.forgets (T : Topology) (n x : Node) (before : Bool) : NetworkEvent → Bool
  | .client m message _ =>
    before || (m = n && message.flag = 1 && T.getNodeByIp message.destinationAddr = some x)
  | .deliver record i m j _ _ =>
    before && !(m = n && (T.incoming record i j).any fun inc => inc.sourceNode = x)

/-- A network, with what each of its nodes has received and forgotten. -/
structure Hearing where
  network : Network
  recvAddrs : Node → List Mac
  forgotten : Node → Node → Bool

def hearingMachine (T : Topology) : Machine Hearing NetworkEvent where
  init := {
    network := (networkMachine T).init
    recvAddrs := fun _ => []
    forgotten := fun _ _ => false }
  step s e := ((networkMachine T).step s.network e).map fun network => {
    network
    recvAddrs := fun n => s.recvAddrs n ++ T.recvAddr n e
    forgotten := fun n x => T.forgets n x (s.forgotten n x) e }

/-- An RREP that is not for the node itself leaves it for a next hop that is set, to an
address the node has received frames from. -/
def RelaysAlongRoute (T : Topology) (_ : Hearing) (e : NetworkEvent) (s' : Hearing) : Prop :=
  match e with
  | .client .. => True
  | .deliver record i m j _ _ => ∀ inc ∈ T.incoming record i j, inc.packet.type = 1 → inc.destNode ≠ m →
      ((s'.network.nodes m).table inc.destNode).nextHop ≠ Mac.empty ∧
        ((s'.network.nodes m).table inc.destNode).nextHop ∈ s'.recvAddrs m

/-- No client of the relay has forced a discovery of the node that asked since the relay
last heard from it. -/
def AskerRemembered (T : Topology) (s : Hearing) (e : NetworkEvent) (_ : Hearing) : Prop :=
  match e with
  | .client .. => True
  | .deliver record i m j _ _ => ∀ inc ∈ T.incoming record i j, inc.packet.type = 1 → inc.destNode ≠ m →
      T.forgets m inc.destNode (s.forgotten m inc.destNode) e = false

/-- `n` is `x`, or has heard from `x`: it has a next hop for `x`, or has forgotten it. -/
def HasHeard (n x : Node) (st : NodeState) (forgotten : Node → Bool) : Prop :=
  n = x ∨ (st.table x).nextHop ≠ Mac.empty ∨ forgotten x = true

def Hearing.HasHeard (s : Hearing) (n x : Node) : Prop :=
  Odr.HasHeard n x (s.network.nodes n) (s.forgotten n)

/-- The record is an RREP sent to one address, whose owner has heard from the node that asked. -/
def RrepSent (T : Topology) (s : Hearing) (record : Record) (packet : Packet) (x : Node) : Prop :=
  ∃ srcMac destMac ifIndex, record.action = .send srcMac destMac ifIndex packet ∧
    destMac ≠ Mac.broadcast ∧ ∀ k, T.Owns k destMac → s.HasHeard k x

/-- Next hops are addresses of frames received, of nodes that have heard from where the
route leads; so have all who pass packets on, and all whom RREPs are sent to. -/
structure HearingInv (T : Topology) (s : Hearing) : Prop where
  typed : TypedInv s.network
  routes : ∀ n x, ((s.network.nodes n).table x).nextHop = Mac.empty ∨
    ((s.network.nodes n).table x).nextHop ∈ s.recvAddrs n
  owned : ∀ n, ∀ mac ∈ s.recvAddrs n, ∃ k, T.Owns k mac
  forgotten : ∀ n x, n ≠ x → s.forgotten n x = true → ((s.network.nodes n).table x).nextHop = Mac.empty
  hops : ∀ n x k, T.Owns k ((s.network.nodes n).table x).nextHop → s.HasHeard k x
  slots : ∀ n i x, T.getNodeByIp ((s.network.nodes n).sendBuffer i).sourceIpAddr = some x → s.HasHeard n x
  packets : ∀ record ∈ s.network.history, ∀ packet ∈ record.action.packet?,
    ∀ x, T.getNodeByIp packet.sourceIpAddr = some x → s.HasHeard record.node x
  rreps : ∀ record ∈ s.network.history, ∀ packet ∈ record.action.packet?, packet.type = 1 →
    ∀ x, T.getNodeByIp packet.destinationIpAddr = some x → RrepSent T s record packet x
  frames : ∀ record ∈ s.network.history, OwnFrames T record.node record.action

section

variable {T : Topology} {s s' : Hearing} {n m x : Node} {st₀ st : NodeState} {clock : Nat → Int}
  {inc : Option Incoming} {action : Action} {packet : Packet} {received : Option Packet}
  {actions : List Action}

/-! ## What a node puts out -/

/-- An RREP goes to the next hop for the node that asked. -/
theorem Emitted.rrep_send (hinc : ∀ i ∈ inc, T.getNodeByIp i.packet.sourceIpAddr = some i.sourceNode ∧
      T.getNodeByIp i.packet.destinationIpAddr = some i.destNode)
    (he : Emitted (T.host n) st₀ st clock SlotTyped inc action) (hp : packet ∈ action.packet?)
    (htype : packet.type = 1) (hx : T.getNodeByIp packet.destinationIpAddr = some x) :
    ∃ srcMac ifIndex, action = .send srcMac (st.table x).nextHop ifIndex packet := by
  cases he with
  | originate _ htype' =>
    cases hp
    omega
  | flood htype' =>
    cases hp
    dsimp only at htype
    omega
  | reply _ _ _ _ hsend =>
    rw [sendAlong_packet? hsend] at hp
    cases hp
    cases (hinc _ rfl).1.symm.trans hx
    obtain ⟨srcMac, -, rfl⟩ := sendAlong_eq_some hsend
    exact ⟨srcMac, _, rfl⟩
  | relay _ hsend =>
    rw [sendAlong_packet? hsend] at hp
    cases hp
    cases (hinc _ rfl).2.symm.trans hx
    obtain ⟨srcMac, -, rfl⟩ := sendAlong_eq_some hsend
    exact ⟨srcMac, _, rfl⟩
  | buffered hslot hdest _ hsend =>
    rw [sendAlong_packet? hsend] at hp
    cases hp
    rcases hslot.sent hdest with h | h <;> omega
  | toServer | toClient => cases hp

/-! ## The invariant -/

theorem HearingInv.start : HearingInv T (hearingMachine T).init where
  typed := TypedInv.start (T := T)
  routes _ _ := .inl rfl
  owned := by simp [hearingMachine]
  forgotten _ _ _ _ := rfl
  hops n x k h := absurd rfl h.ne_empty
  slots n i x h := by
    change T.getNodeByIp "" = some x at h
    rw [T.empty_unresolved] at h
    cases h
  packets := by simp [hearingMachine, networkMachine]
  rreps := by simp [hearingMachine, networkMachine]
  frames := by simp [hearingMachine, networkMachine]

/-- A step at node `m`, after which nobody has heard less than before. -/
structure Hears (s s' : Hearing) (m : Node) (received : Option Packet) (st : NodeState)
    (actions : List Action) : Prop where
  network : s'.network = s.network.put m received st actions
  addrs : ∀ n, ∀ mac ∈ s.recvAddrs n, mac ∈ s'.recvAddrs n
  others : ∀ n, n ≠ m → s'.forgotten n = s.forgotten n
  keeps : ∀ x, s.HasHeard m x → s'.HasHeard m x

theorem Hears.nodes (hh : Hears s s' m received st actions) (n : Node) :
    s'.network.nodes n = if n = m then st else s.network.nodes n := by
  rw [hh.network, put_nodes]

theorem Hears.mono (hh : Hears s s' m received st actions) (h : s.HasHeard n x) : s'.HasHeard n x := by
  by_cases hn : n = m
  · subst hn
    exact hh.keeps x h
  · unfold Hearing.HasHeard at h ⊢
    rwa [hh.nodes, if_neg hn, hh.others n hn]

theorem RrepSent.mono (hh : Hears s s' m received st actions) {record : Record}
    (h : RrepSent T s record packet x) : RrepSent T s' record packet x := by
  obtain ⟨srcMac, destMac, ifIndex, haction, hne, hheard⟩ := h
  exact ⟨srcMac, destMac, ifIndex, haction, hne, fun k hk => hh.mono (hheard k hk)⟩

/-- The route to `x` at node `m` is as it was, is cleared, or is learned from a frame of a
node that has heard from `x`. -/
def Learns (T : Topology) (s s' : Hearing) (m : Node) (st : NodeState) (x : Node) : Prop :=
  (st.table x).nextHop = ((s.network.nodes m).table x).nextHop ∨ (st.table x).nextHop = Mac.empty ∨
    ((st.table x).nextHop ∈ s'.recvAddrs m ∧ ∃ k, T.Owns k (st.table x).nextHop ∧ s.HasHeard k x)

/-! ## What an event makes of what was received and forgotten -/

theorem hearing_step {e : NetworkEvent} (h : (hearingMachine T).step s e = some s') :
    (networkMachine T).step s.network e = some s'.network ∧
      (∀ n, s'.recvAddrs n = s.recvAddrs n ++ T.recvAddr n e) ∧
      ∀ n x, s'.forgotten n x = T.forgets n x (s.forgotten n x) e := by
  simp only [hearingMachine, Option.map_eq_some_iff] at h
  obtain ⟨network, hstep, rfl⟩ := h
  exact ⟨hstep, fun _ => rfl, fun _ _ => rfl⟩

theorem forgets_client {before : Bool} {message : ClientMessage} :
    T.forgets n x before (.client m message clock) = true ↔
      before = true ∨ (m = n ∧ message.flag = 1 ∧ T.getNodeByIp message.destinationAddr = some x) := by
  simp [Topology.forgets, and_assoc]

theorem forgets_deliver {before : Bool} {record : Record} {i j : Int} {reply : List Char} {inc : Incoming}
    (hinc : T.incoming record i j = some inc) :
    T.forgets n x before (.deliver record i m j clock reply) = true ↔
      before = true ∧ ¬ (m = n ∧ inc.sourceNode = x) := by
  simp only [Topology.forgets, hinc, Option.any_some, Bool.and_eq_true, Bool.not_eq_true',
    Bool.and_eq_false_iff, decide_eq_false_iff_not, not_and_or]

theorem recvAddr_deliver {record : Record} {i j : Int} {reply : List Char} {frame : Frame}
    (hframe : T.frame record.node i record.action = some frame) {mac : Mac} :
    mac ∈ T.recvAddr n (.deliver record i m j clock reply) ↔ m = n ∧ mac = frame.srcMac := by
  simp [Topology.recvAddr, hframe]

end

section Ethernet

variable {E : EthernetTopology} {s s' : Hearing} {m : Node} {st : NodeState} {clock : Nat → Int}
  {received : Option Packet} {actions : List Action}

theorem HearingInv.put (hs : HearingInv E.toTopology s) (hh : Hears s s' m received st actions)
    (htyped : TypedInv s'.network) (hlearns : ∀ x, Learns E.toTopology s s' m st x)
    (howned : ∀ n, ∀ mac ∈ s'.recvAddrs n, mac ∈ s.recvAddrs n ∨ ∃ k, E.Owns k mac)
    (hforgotten : ∀ x, m ≠ x → s'.forgotten m x = true → (st.table x).nextHop = Mac.empty)
    (hslots : ∀ i x, E.getNodeByIp (st.sendBuffer i).sourceIpAddr = some x → s'.HasHeard m x)
    (hpackets : ∀ action ∈ actions, ∀ packet ∈ action.packet?,
      ∀ x, E.getNodeByIp packet.sourceIpAddr = some x → s'.HasHeard m x)
    (hrreps : ∀ action ∈ actions, ∀ packet ∈ action.packet?, packet.type = 1 →
      ∀ x, E.getNodeByIp packet.destinationIpAddr = some x →
        ∃ srcMac ifIndex, action = .send srcMac (st.table x).nextHop ifIndex packet)
    (hframes : ∀ action ∈ actions, OwnFrames E.toTopology m action) : HearingInv E.toTopology s' := by
  have hroutes : ∀ n x, ((s'.network.nodes n).table x).nextHop = Mac.empty ∨
      ((s'.network.nodes n).table x).nextHop ∈ s'.recvAddrs n := by
    intro n x
    rw [hh.nodes]
    split
    next hn =>
      subst hn
      rcases hlearns x with hsame | hcleared | ⟨hmem, -⟩
      · rw [hsame]
        exact (hs.routes n x).imp_right (hh.addrs n _)
      · exact .inl hcleared
      · exact .inr hmem
    next => exact (hs.routes n x).imp_right (hh.addrs n _)
  have howned' : ∀ n, ∀ mac ∈ s'.recvAddrs n, ∃ k, E.Owns k mac := by
    intro n mac hmac
    exact (howned n mac hmac).elim (hs.owned n mac) id
  have hhops : ∀ n x k, E.Owns k ((s'.network.nodes n).table x).nextHop → s'.HasHeard k x := by
    intro n x k hk
    rw [hh.nodes] at hk
    split at hk
    next hn =>
      rcases hlearns x with hsame | hcleared | ⟨-, k', hk', hheard⟩
      · rw [hsame] at hk
        exact hh.mono (hs.hops m x k hk)
      · exact absurd hcleared hk.ne_empty
      · cases hk.unique hk'
        exact hh.mono hheard
    next => exact hh.mono (hs.hops n x k hk)
  exact {
    typed := htyped
    routes := hroutes
    owned := howned'
    forgotten := by
      intro n x hne hf
      rw [hh.nodes]
      split
      next hn =>
        subst hn
        exact hforgotten x hne hf
      next hn => exact hs.forgotten n x hne (hh.others n hn ▸ hf)
    hops := hhops
    slots := by
      intro n i x hx
      rw [hh.nodes] at hx
      split at hx
      next hn =>
        subst hn
        exact hslots i x hx
      next => exact hh.mono (hs.slots n i x hx)
    packets := by
      intro record hm packet hp x hx
      rw [hh.network] at hm
      rcases mem_put_history hm with hm | ⟨hn, -, ha⟩
      · exact hh.mono (hs.packets record hm packet hp x hx)
      · exact hn ▸ hpackets _ ha packet hp x hx
    rreps := by
      intro record hm packet hp htype x hx
      rw [hh.network] at hm
      rcases mem_put_history hm with hm | ⟨-, -, ha⟩
      · exact (hs.rreps record hm packet hp htype x hx).mono hh
      · obtain ⟨srcMac, ifIndex, haction⟩ := hrreps _ ha packet hp htype x hx
        have hnode : s'.network.nodes m = st := by rw [hh.nodes, if_pos rfl]
        refine ⟨srcMac, _, ifIndex, haction, ?_, ?_⟩
        · -- the next hop is an address of a node, or none
          rw [← hnode]
          cases hroutes m x with
          | inl hempty =>
            rw [hempty]
            decide
          | inr hmem =>
            obtain ⟨k, f, hf, he⟩ := howned' m _ hmem
            exact he ▸ E.mac_ne_broadcast k f hf
        · intro k hk
          exact hhops m x k (hnode ▸ hk)
    frames := by
      intro record hm
      rw [hh.network] at hm
      rcases mem_put_history hm with hm | ⟨hn, -, ha⟩
      · exact hs.frames record hm
      · exact hn ▸ hframes _ ha }

/-! ## Steps -/

/-- A client's message clears the next hop it forgets, if it forgets one. -/
theorem client_nextHop {message : ClientMessage} {dest x : Node}
    (htable : st.table = if message.flag = 1 then
      Function.update (s.network.nodes m).table dest
        { (s.network.nodes m).table dest with nextHop := Mac.empty }
      else (s.network.nodes m).table) :
    (st.table x).nextHop = ((s.network.nodes m).table x).nextHop ∨
      (message.flag = 1 ∧ x = dest ∧ (st.table x).nextHop = Mac.empty) := by
  rw [htable]
  split
  next hflag =>
    rw [Function.update_apply]
    split
    next hx => exact .inr ⟨hflag, hx, rfl⟩
    · exact .inl rfl
  · exact .inl rfl

theorem hears_client {T : Topology} {message : ClientMessage} {dest : Node}
    (h : (hearingMachine T).step s (.client m message clock) = some s')
    (hnetwork : s'.network = s.network.put m none st actions)
    (hdest : T.getNodeByIp message.destinationAddr = some dest)
    (hclears : ∀ x, (st.table x).nextHop = ((s.network.nodes m).table x).nextHop ∨
      (message.flag = 1 ∧ x = dest ∧ (st.table x).nextHop = Mac.empty)) :
    Hears s s' m none st actions := by
  obtain ⟨-, haddrs, hforgotten⟩ := hearing_step h
  have hnode : s'.network.nodes m = st := by rw [hnetwork, put_nodes, if_pos rfl]
  exact {
    network := hnetwork
    addrs := by
      intro n mac hmac
      rw [haddrs]
      exact List.mem_append_left _ hmac
    others := by
      intro n hn
      funext x
      rw [hforgotten, Bool.eq_iff_iff, forgets_client]
      exact or_iff_left fun hclear => hn hclear.1.symm
    keeps := by
      intro x hheard
      unfold Hearing.HasHeard HasHeard
      rw [hnode, hforgotten, forgets_client]
      rcases hheard with hself | hset | hforgot
      · exact .inl hself
      · rcases hclears x with hsame | ⟨hflag, rfl, -⟩
        · exact .inr (.inl (hsame ▸ hset))
        · exact .inr (.inr (.inr ⟨rfl, hflag, hdest⟩))
      · exact .inr (.inr (.inl hforgot)) }

theorem HearingInv.step_client (hs : HearingInv E.toTopology s) {message : ClientMessage}
    (h : (hearingMachine E.toTopology).step s (.client m message clock) = some s') :
    HearingInv E.toTopology s' := by
  obtain ⟨hstep, haddrs, hforgotten⟩ := hearing_step h
  obtain ⟨st, actions, hm, hnetwork⟩ := Odr.step_client hstep
  obtain ⟨dest, hdest, htable, -, -, hpackets⟩ := onClientMessage_spec hm
  have hclears := fun x => client_nextHop (x := x) htable
  have hh : Hears s s' m none st actions := hears_client h hnetwork hdest hclears
  have hsource : ∀ x, (∀ i, E.getNodeByIp (st.sendBuffer i).sourceIpAddr = some x → s'.HasHeard m x) ∧
      ∀ action ∈ actions, ∀ packet ∈ action.packet?,
        E.getNodeByIp packet.sourceIpAddr = some x → s'.HasHeard m x := by
    intro x
    obtain ⟨hslots, hemitted⟩ := hpackets
      (fun packet => E.getNodeByIp packet.sourceIpAddr = some x → s'.HasHeard m x)
      (fun _ hp => hp) (fun hx => .inl (Option.some.inj ((E.current_resolves m).symm.trans hx)))
      fun i hx => hh.mono (hs.slots m i x hx)
    refine ⟨hslots, ?_⟩
    intro action ha packet hp hx
    refine (hemitted action ha).source (by simp) .inl (by simp) ?_ hp hx
    intro hroute
    exact hh.keeps x (.inr (.inl (ne_empty_of_notEmpty hroute)))
  obtain ⟨-, htyped⟩ := hpackets SlotTyped slotTyped_htonl (.inr (.inl rfl)) (hs.typed.slots m)
  refine hs.put hh (hs.typed.step hstep) ?_ ?_ ?_ (fun i x => (hsource x).1 i)
    (fun action ha packet hp x => (hsource x).2 action ha packet hp)
    (fun action ha packet hp htype x hx => (htyped action ha).rrep_send (by simp) hp htype hx)
    fun action ha => (htyped action ha).ownFrames
  · intro x
    exact (hclears x).imp_right fun hclear => .inl hclear.2.2
  · intro n mac hmac
    rw [haddrs] at hmac
    exact .inl (by simpa [Topology.recvAddr] using hmac)
  · intro x hne hf
    rw [hforgotten, forgets_client] at hf
    rcases hf with hf | ⟨-, hflag, hx⟩
    · rcases hclears x with hsame | ⟨-, -, hempty⟩
      · exact hsame.trans (hs.forgotten m x hne hf)
      · exact hempty
    · cases hdest.symm.trans hx
      rw [htable, if_pos hflag, Function.update_self]

section Deliver

variable {record : Record} {i j : Int} {reply : List Char} {inc : Incoming} {frame : Frame}

theorem HearingInv.sender {T : Topology} (hs : HearingInv T s) {network : Network}
    (hd : Delivery T s.network network record i m j clock reply inc frame st actions) :
    T.Owns record.node inc.recvAddr := hd.recvAddr ▸ hs.frames record hd.mem i frame hd.onWire

/-- A packet that came in is heard from its source, if that is another node. -/
theorem HearingInv.hears {T : Topology} (hs : HearingInv T s)
    (hd : Delivery T s.network s'.network record i m j clock reply inc frame st actions)
    (hforeign : inc.packet.type = 0 → inc.sourceNode ≠ m) : s'.HasHeard m inc.sourceNode := by
  refine .inr (.inl ?_)
  rw [hd.state, put_nodes, if_pos rfl]
  cases hd.spec.known hforeign with
  | inl hroute => exact ne_empty_of_notEmpty hroute
  | inr hlearned => exact hlearned ▸ (hs.sender hd).ne_empty

theorem HearingInv.hears_deliver {T : Topology} (hs : HearingInv T s)
    (h : (hearingMachine T).step s (.deliver record i m j clock reply) = some s')
    (hd : Delivery T s.network s'.network record i m j clock reply inc frame st actions) :
    Hears s s' m (some inc.packet) st actions := by
  obtain ⟨-, haddrs, hforgotten⟩ := hearing_step h
  have hnode : s'.network.nodes m = st := by rw [hd.state, put_nodes, if_pos rfl]
  exact {
    network := hd.state
    addrs := by
      intro n mac hmac
      rw [haddrs]
      exact List.mem_append_left _ hmac
    others := by
      intro n hn
      funext x
      rw [hforgotten, Bool.eq_iff_iff, forgets_deliver hd.incoming]
      exact and_iff_left fun hhears => hn hhears.1.symm
    keeps := by
      intro x hx
      by_cases hself : m = x
      · exact .inl hself
      by_cases hsource : inc.sourceNode = x
      · subst hsource
        exact hs.hears hd fun _ => Ne.symm hself
      · rcases hx with hself | hset | hforgot
        · exact .inl hself
        · refine .inr (.inl ?_)
          rw [hnode]
          cases hd.spec.nextHop x with
          | inl hsame => exact hsame ▸ hset
          | inr hlearned => exact absurd hlearned.1.symm hsource
        · refine .inr (.inr ?_)
          rw [hforgotten, forgets_deliver hd.incoming]
          exact ⟨hforgot, fun hhears => hsource hhears.2⟩ }

theorem HearingInv.step_deliver (hs : HearingInv E.toTopology s)
    (h : (hearingMachine E.toTopology).step s (.deliver record i m j clock reply) = some s') :
    HearingInv E.toTopology s' := by
  obtain ⟨hstep, haddrs, hforgotten⟩ := hearing_step h
  obtain ⟨inc, frame, st, actions, hd⟩ := Odr.step_deliver hstep
  have hh : Hears s s' m (some inc.packet) st actions := hs.hears_deliver h hd
  have hinc : ∀ i ∈ some inc, E.getNodeByIp i.packet.sourceIpAddr = some i.sourceNode ∧
      E.getNodeByIp i.packet.destinationIpAddr = some i.destNode := by
    intro inc' hinc'
    cases hinc'
    exact ⟨hd.source, hd.dest⟩
  have hsource : ∀ x, (∀ i, E.getNodeByIp (st.sendBuffer i).sourceIpAddr = some x → s'.HasHeard m x) ∧
      ∀ action ∈ actions, ∀ packet ∈ action.packet?,
        E.getNodeByIp packet.sourceIpAddr = some x → s'.HasHeard m x := by
    intro x
    have hbuffer : Bufferable (E.host m) inc reply
        (fun packet => E.getNodeByIp packet.sourceIpAddr = some x → s'.HasHeard m x) := {
      htonl := fun _ hp => hp
      forward := by
        intro htype _ _ hx
        cases hd.source.symm.trans hx
        exact hs.hears hd fun h₀ => absurd h₀ htype
      reply := by
        intro _ _ hown hx
        cases hd.dest.symm.trans hx
        exact .inl hown.symm }
    obtain ⟨hslots, hemitted⟩ := hd.spec.packets _ hbuffer fun i hx => hh.mono (hs.slots m i x hx)
    refine ⟨hslots, ?_⟩
    intro action ha packet hp hx
    refine (hemitted action ha).source hinc .inl ?_ ?_ hp hx
    · intro inc' hinc' hx' hforeign
      cases hinc'
      subst hx'
      exact hs.hears hd hforeign
    · intro hroute
      exact hh.keeps x (.inr (.inl (ne_empty_of_notEmpty hroute)))
  obtain ⟨-, htyped⟩ := hd.spec.packets SlotTyped (hd.typed hs.typed) (hs.typed.slots m)
  refine hs.put hh (hs.typed.step hstep) ?_ ?_ ?_ (fun i x => (hsource x).1 i)
    (fun action ha packet hp x => (hsource x).2 action ha packet hp)
    (fun action ha packet hp htype x hx => (htyped action ha).rrep_send hinc hp htype hx)
    fun action ha => (htyped action ha).ownFrames
  · intro x
    rcases hd.spec.nextHop x with hsame | ⟨rfl, hlearned⟩
    · exact .inl hsame
    · refine .inr (.inr ⟨?_, record.node, hlearned ▸ hs.sender hd, ?_⟩)
      · rw [haddrs]
        refine List.mem_append_right _ ((recvAddr_deliver hd.onWire).mpr ⟨rfl, ?_⟩)
        rw [hlearned, hd.recvAddr]
      · exact hs.packets record hd.mem inc.packet hd.packet _ hd.source
  · intro n mac hmac
    rw [haddrs] at hmac
    cases List.mem_append.mp hmac with
    | inl hold => exact .inl hold
    | inr hnew =>
      obtain ⟨-, rfl⟩ := (recvAddr_deliver hd.onWire).mp hnew
      exact .inr ⟨record.node, hs.frames record hd.mem i frame hd.onWire⟩
  · intro x hne hf
    rw [hforgotten, forgets_deliver hd.incoming] at hf
    rcases hd.spec.nextHop x with hsame | ⟨hx, -⟩
    · exact hsame.trans (hs.forgotten m x hne hf.1)
    · exact absurd ⟨rfl, hx.symm⟩ hf.2

end Deliver

theorem HearingInv.step (hs : HearingInv E.toTopology s) {e : NetworkEvent}
    (h : (hearingMachine E.toTopology).step s e = some s') : HearingInv E.toTopology s' := by
  cases e with
  | client m message clock => exact hs.step_client h
  | deliver record i m j clock reply => exact hs.step_deliver h

/-- One step: a node that an RREP is sent to has heard from the node that asked, so it has a
next hop unless it has forgotten it. -/
theorem HearingInv.relays_iff (hs : HearingInv E.toTopology s) {e : NetworkEvent}
    (h : (hearingMachine E.toTopology).step s e = some s') :
    RelaysAlongRoute E.toTopology s e s' ↔ AskerRemembered E.toTopology s e s' := by
  have hs' := hs.step h
  obtain ⟨hstep, haddrs, hforgotten⟩ := hearing_step h
  cases e with
  | client m message clock => exact Iff.rfl
  | deliver record i m j clock reply =>
    simp only [RelaysAlongRoute, AskerRemembered]
    refine forall_congr' fun inc => forall_congr' fun hinc => forall_congr' fun htype =>
      forall_congr' fun hne => ?_
    rw [← hforgotten]
    obtain ⟨inc', frame, st, actions, hd⟩ := Odr.step_deliver hstep
    cases hd.incoming.symm.trans hinc
    obtain ⟨srcMac, destMac, ifIndex, haction, hunicast, hheard⟩ :=
      hs.rreps record hd.mem inc.packet hd.packet htype inc.destNode hd.dest
    obtain ⟨frame', -, -, hframe', haccepts, -⟩ := step_deliver_receive hstep
    have hdestMac : frame'.destMac = destMac := by
      rw [haction] at hframe'
      simp only [Topology.frame, Option.ite_none_right_eq_some, Option.some.injEq] at hframe'
      rw [← hframe'.2]
    have howns : E.Owns m destMac := by
      simp only [Topology.accepts, hdestMac, decide_eq_true_eq] at haccepts
      exact owns_of_getMacAddr (haccepts.resolve_left hunicast)
    constructor
    · rintro ⟨hset, -⟩
      by_contra hforgot
      exact hset (hs'.forgotten m _ hne.symm (by simpa using hforgot))
    · intro hremembered
      have hheard' := (hs.hears_deliver h hd).mono (hheard m howns)
      have hset : ((s'.network.nodes m).table inc.destNode).nextHop ≠ Mac.empty := by
        refine (hheard'.resolve_left hne.symm).resolve_right ?_
        rw [hremembered]
        exact Bool.false_ne_true
      exact ⟨hset, (hs'.routes m inc.destNode).resolve_left hset⟩

end Ethernet

/-- **RREPs are relayed along routes, exactly.** Along a run of a network every RREP that a
node relays leaves it for an address it has received frames from, if and only if no RREP
comes to a node whose client has forced a discovery of the node that asked, and which has not
heard from that node since. -/
theorem relaysAlongRoute_along_iff (E : EthernetTopology) (es : List NetworkEvent) :
    (hearingMachine E.toTopology).Along (RelaysAlongRoute E.toTopology)
      (hearingMachine E.toTopology).init es ↔
    (hearingMachine E.toTopology).Along (AskerRemembered E.toTopology)
      (hearingMachine E.toTopology).init es :=
  Machine.along_congr (I := HearingInv E.toTopology) (fun _ _ _ hs h => hs.relays_iff h)
    (fun _ _ _ hs h _ => hs.step h) .start

def lineEthernet : EthernetTopology where
  toTopology := lineTopology
  mac_ne_broadcast := by decide +kernel

/-- Node 1 asks for node 3. While the RREP of node 3 is under way, a client of node 2 forces
a discovery of node 1. Node 2 relays the RREP to the all-zero address. -/
theorem not_relaysAlongRoute : ∃ s e s', (hearingMachine lineEthernet.toTopology).Reachable s ∧
    (hearingMachine lineEthernet.toTopology).step s e = some s' ∧
    ¬ RelaysAlongRoute lineEthernet.toTopology s e s' := by
  let rrep : Record := lineReply 3 2 (rreqPacket 1 3 1) (rrepPacket 3 1 0)
  let flooded : Record :=
    { node := 2, received := some (rreqPacket 1 3 0), action := .broadcast (rreqPacket 1 3 1) }
  let e : NetworkEvent := .deliver rrep 1 2 2 (fun _ => 0) []
  obtain ⟨s, hs, htest⟩ := Machine.reachable_of_exec_any (M := hearingMachine lineEthernet.toTopology)
    [.client 1 (lineRequest 3) fun _ => 0, .deliver (lineRreq 1 3) 2 2 1 (fun _ => 0) [],
     .deliver flooded 2 3 1 (fun _ => 0) [], .client 2 { lineRequest 1 with flag := 1 } fun _ => 0]
    (fun s => ((hearingMachine lineEthernet.toTopology).step s e).any fun s' =>
      ((s'.network.nodes 2).table 1).nextHop = Mac.empty)
    (by decide +kernel)
  obtain ⟨s', hstep, hempty⟩ := (Option.any_eq_true _ _).mp htest
  refine ⟨s, e, s', hs, hstep, ?_⟩
  intro hrelays
  have hinc : (lineEthernet.toTopology.incoming rrep 1 2).any
      fun inc => inc.packet.type = 1 ∧ inc.destNode = 1 := by decide +kernel
  obtain ⟨inc, hinc, htest⟩ := (Option.any_eq_true _ _).mp hinc
  obtain ⟨htype, hdest⟩ := of_decide_eq_true htest
  obtain ⟨hset, -⟩ := hrelays inc hinc htype (by rw [hdest]; decide)
  rw [hdest] at hset
  exact hset (of_decide_eq_true hempty)

end Sockets.Odr
