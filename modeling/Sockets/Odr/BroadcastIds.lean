/-
The bookkeeping of broadcast ids: cell (d, s) of a node's table is meant to
hold an id that `s` has issued, and only to grow.

The RREQ branch keeps this. The RREP branch does not: the RREP carries the
id of the node that asked, and the branch writes it to the diagonal cell of
the node that was asked for, whatever is there. The bookkeeping is sound on
a run exactly as long as each id so written happens to be one that the other
node had issued, and no lower than what was there.
-/
import Sockets.Odr.Network

namespace Sockets.Odr

/-- Every cell is at most the counter of the node its ids belong to. -/
def IdsIssued (s : Network) : Prop :=
  ∀ n d x, ((s.nodes n).table d).highestBroadcastId x ≤ (s.nodes x).broadcastId

/-- No cell goes down. -/
def IdsGrow (s s' : Network) : Prop :=
  ∀ n d x, ((s.nodes n).table d).highestBroadcastId x ≤ ((s'.nodes n).table d).highestBroadcastId x

/-- The bookkeeping after one step. -/
def IdsSound (s : Network) (_ : NetworkEvent) (s' : Network) : Prop := IdsIssued s' ∧ IdsGrow s s'

/-- An RREP that updates the table carries an id the node it speaks for has
issued, no lower than the one it overwrites. -/
def RrepIdFits (T : Topology) (s : Network) (e : NetworkEvent) (_ : Network) : Prop :=
  match e with
  | .client .. => True
  | .deliver record i m j clock _ => ∀ inc ∈ T.incoming record i j, inc.packet.type = 1 →
      updateForward (T.host m) ((s.nodes m).table inc.sourceNode) inc (clock 0) = true →
        ((s.nodes m).table inc.sourceNode).highestBroadcastId inc.sourceNode ≤ inc.id ∧
          inc.id ≤ (s.nodes inc.sourceNode).broadcastId

/-- The RREQs under way carry ids their sources have issued. -/
def RreqIdsIssued (T : Topology) (s : Network) : Prop :=
  ∀ record ∈ s.history, ∀ packet ∈ record.action.packet?, packet.type = 0 →
    ∀ x, T.getNodeByIp packet.sourceIpAddr = some x →
      receivedBid packet.applicationMsg ≤ (s.nodes x).broadcastId

variable {T : Topology} {s s' : Network} {m : Node} {st : NodeState} {actions : List Action}

theorem put_broadcastId {received : Option Packet} (hid : (s.nodes m).broadcastId ≤ st.broadcastId)
    (x : Node) :
    (s.nodes x).broadcastId ≤ ((s.put m received st actions).nodes x).broadcastId := by
  rw [put_nodes]
  split
  next hx => exact hx ▸ hid
  · exact le_refl _

/-- An RREQ put out is a discovery of the node's own, or one that came in. -/
theorem Emitted.rreqId {n : Node} {st₀ : NodeState} {clock : Nat → Int} {inc : Option Incoming}
    {action : Action} {packet : Packet} {x : Node}
    (hinc : ∀ i ∈ inc, T.getNodeByIp i.packet.sourceIpAddr = some i.sourceNode)
    (he : Emitted (T.host n) st₀ st clock SlotTyped inc action) (hp : packet ∈ action.packet?)
    (htype : packet.type = 0) (hx : T.getNodeByIp packet.sourceIpAddr = some x) :
    (x = n ∧ receivedBid packet.applicationMsg ≤ st.broadcastId) ∨
      ∃ i ∈ inc, i.packet.type = 0 ∧ i.sourceNode = x ∧ receivedBid packet.applicationMsg = i.id := by
  cases he with
  | originate _ _ _ hsource hid =>
    left
    cases hp
    refine ⟨?_, by omega⟩
    rcases hsource with he | he <;> rw [he] at hx
    · exact Option.some.inj (hx.symm.trans (T.local_resolves n))
    · exact Option.some.inj (hx.symm.trans (T.current_resolves n))
  | flood htype' hid =>
    right
    cases hp
    exact ⟨_, rfl, htype', Option.some.inj ((hinc _ rfl).symm.trans hx), hid⟩
  | reply _ _ _ _ hsend =>
    rw [sendAlong_packet? hsend] at hp
    cases hp
    cases htype
  | relay htype' hsend =>
    rw [sendAlong_packet? hsend] at hp
    cases hp
    dsimp only at htype
    omega
  | buffered hslot hdest _ hsend =>
    rw [sendAlong_packet? hsend] at hp
    cases hp
    rcases hslot.sent hdest with h | h <;> omega
  | toServer | toClient => cases hp

theorem RreqIdsIssued.put (hs : RreqIdsIssued T s) (inc : Option Incoming) {clock : Nat → Int}
    (hinc : ∀ i ∈ inc, T.getNodeByIp i.packet.sourceIpAddr = some i.sourceNode)
    (hids : ∀ i ∈ inc, i.packet.type = 0 → i.id ≤ (s.nodes i.sourceNode).broadcastId)
    (hemitted : ∀ action ∈ actions, Emitted (T.host m) (s.nodes m) st clock SlotTyped inc action)
    (hid : (s.nodes m).broadcastId ≤ st.broadcastId) :
    RreqIdsIssued T (s.put m (inc.map (·.packet)) st actions) := by
  intro record hm packet hp htype x hx
  rcases mem_put_history hm with hm | ⟨-, -, ha⟩
  · exact (hs record hm packet hp htype x hx).trans (put_broadcastId hid x)
  rcases (hemitted _ ha).rreqId hinc hp htype hx with ⟨rfl, hle⟩ | ⟨i, hi, htype', rfl, he⟩
  · rwa [put_nodes, if_pos rfl]
  · exact he.trans_le ((hids i hi htype').trans (put_broadcastId hid _))

/-- What is known of the network as long as the bookkeeping is sound. -/
structure IdInv (T : Topology) (s : Network) : Prop where
  typed : TypedInv s
  rreqs : RreqIdsIssued T s
  issued : IdsIssued s

theorem IdInv.start : IdInv T (networkMachine T).init where
  typed := .start
  rreqs := by simp [networkMachine, RreqIdsIssued]
  issued := by simp [networkMachine, IdsIssued, NodeState.start]

/-- All but the bookkeeping itself is kept by every step. -/
theorem IdInv.step_rreqs (hs : IdInv T s) {e : NetworkEvent}
    (h : (networkMachine T).step s e = some s') :
    RreqIdsIssued T s' := by
  cases e with
  | client n message clock =>
    obtain ⟨st, actions, hm, rfl⟩ := step_client h
    obtain ⟨dest, -, -, hid, -, hpackets⟩ := onClientMessage_spec hm
    obtain ⟨-, hemitted⟩ := hpackets SlotTyped slotTyped_htonl (.inr (.inl rfl)) (hs.typed.slots n)
    exact hs.rreqs.put none (by simp) (by simp) hemitted (by omega)
  | deliver record i m j clock reply =>
    obtain ⟨inc, frame, st, actions, hd⟩ := step_deliver h
    obtain ⟨-, hemitted⟩ := hd.spec.packets SlotTyped (hd.typed hs.typed) (hs.typed.slots m)
    have hids : ∀ i ∈ some inc, i.packet.type = 0 → i.id ≤ (s.nodes i.sourceNode).broadcastId := by
      intro inc' hinc htype
      cases hinc
      exact hs.rreqs record hd.mem inc.packet hd.packet htype inc.sourceNode hd.source
    have hid : (s.nodes m).broadcastId ≤ st.broadcastId := by
      rcases hd.spec.broadcastId with he | he <;> omega
    rw [hd.state]
    exact hs.rreqs.put (some inc) (by simpa using hd.source) hids hemitted hid

/-- A step that changes no cell, or only raises some to ids their source
has issued, keeps the bookkeeping sound. -/
theorem IdsIssued.put {received : Option Packet} (hs : IdsIssued s)
    (hid : (s.nodes m).broadcastId ≤ st.broadcastId)
    (hcells : ∀ d x, (st.table d).highestBroadcastId x = ((s.nodes m).table d).highestBroadcastId x ∨
      (((s.nodes m).table d).highestBroadcastId x ≤ (st.table d).highestBroadcastId x ∧
        (st.table d).highestBroadcastId x ≤ (s.nodes x).broadcastId)) :
    IdsIssued (s.put m received st actions) ∧ IdsGrow s (s.put m received st actions) := by
  constructor
  · intro n d x
    refine le_trans ?_ (put_broadcastId hid x)
    rw [put_nodes]
    split
    · rcases hcells d x with he | ⟨-, hle⟩
      · exact he ▸ hs m d x
      · exact hle
    · exact hs n d x
  · intro n d x
    rw [put_nodes]
    split
    next hn =>
      subst hn
      rcases hcells d x with he | ⟨hle, -⟩
      · exact he.ge
      · exact hle
    · exact le_refl _

theorem IdInv.sound_iff (hs : IdInv T s) {e : NetworkEvent}
    (h : (networkMachine T).step s e = some s') :
    IdsSound s e s' ↔ RrepIdFits T s e s' := by
  cases e with
  | client n message clock =>
    obtain ⟨st, actions, hm, rfl⟩ := step_client h
    obtain ⟨dest, -, htable, hid, -⟩ := onClientMessage_spec hm
    have hcells : ∀ d x,
        (st.table d).highestBroadcastId x = ((s.nodes n).table d).highestBroadcastId x := by
      intro d x
      rw [htable]
      split
      · rw [Function.update_apply]
        split
        next hd => rw [hd]
        · rfl
      · rfl
    refine iff_of_true (hs.issued.put (by omega) ?_) trivial
    intro d x
    exact .inl (hcells d x)
  | deliver record i m j clock reply =>
    obtain ⟨inc, frame, st, actions, hd⟩ := step_deliver h
    rw [hd.state]
    have hid : (s.nodes m).broadcastId ≤ st.broadcastId := by
      rcases hd.spec.broadcastId with he | he <;> omega
    by_cases hwrites : inc.packet.type = 1 ∧
        updateForward (T.host m) ((s.nodes m).table inc.sourceNode) inc (clock 0) = true
    · obtain ⟨htype, hu⟩ := hwrites
      obtain ⟨htable, hcounter⟩ := hd.spec.rrep htype
      have hcell : ∀ d x, (st.table d).highestBroadcastId x =
          if d = inc.sourceNode ∧ x = inc.sourceNode then inc.id
          else ((s.nodes m).table d).highestBroadcastId x := by
        intro d x
        rw [htable, forwardPath_highest]
        simp only [hu, true_and]
      constructor
      · rintro ⟨hissued, hgrow⟩ inc' hinc' - -
        cases hd.incoming.symm.trans hinc'
        have hlow := hgrow m inc.sourceNode inc.sourceNode
        have hhigh := hissued m inc.sourceNode inc.sourceNode
        rw [put_nodes, if_pos rfl, hcell, if_pos ⟨rfl, rfl⟩] at hlow hhigh
        -- an RREP leaves the counters alone
        have hcounters : ((s.put m (some inc.packet) st actions).nodes inc.sourceNode).broadcastId =
            (s.nodes inc.sourceNode).broadcastId := by
          rw [put_nodes]
          split
          next hx => rw [hcounter, hx]
          · rfl
        exact ⟨hlow, hcounters ▸ hhigh⟩
      · intro hfits
        obtain ⟨hlow, hhigh⟩ := hfits inc hd.incoming htype hu
        refine hs.issued.put hid ?_
        intro d x
        rw [hcell]
        split
        next hdx =>
          obtain ⟨rfl, rfl⟩ := hdx
          exact .inr ⟨hlow, hhigh⟩
        · exact .inl rfl
    · -- no diagonal cell is overwritten
      have hfits : RrepIdFits T s (.deliver record i m j clock reply)
          (s.put m (some inc.packet) st actions) := by
        intro inc' hinc' htype hu
        cases hd.incoming.symm.trans hinc'
        exact absurd ⟨htype, hu⟩ hwrites
      refine iff_of_true (hs.issued.put hid ?_) hfits
      intro d x
      rcases hd.spec.highest d x with he | ⟨htype, rfl, hlt, he⟩ | ⟨htype, -, -⟩
      · exact .inl he
      · have hissued := hs.rreqs record hd.mem inc.packet hd.packet htype inc.sourceNode hd.source
        exact .inr ⟨by omega, he.trans_le hissued⟩
      · left
        obtain ⟨htable, -⟩ := hd.spec.rrep htype
        rw [htable, forwardPath_table, if_neg fun hu => hwrites ⟨htype, hu.1⟩]

/-- **The bookkeeping, exactly.** Along a run of a network every cell stays
at most the counter it counts against and never goes down, if and only if
every RREP that updates a table carries an id that fits the cell it is
written to. -/
theorem idsSound_along_iff (T : Topology) (es : List NetworkEvent) :
    (networkMachine T).Along IdsSound (networkMachine T).init es ↔
      (networkMachine T).Along (RrepIdFits T) (networkMachine T).init es := by
  refine Machine.along_congr (I := IdInv T) (fun _ _ _ hs h => hs.sound_iff h) ?_ .start
  intro s e s' hs h hfits
  obtain ⟨hissued, -⟩ := (hs.sound_iff h).mpr hfits
  exact { typed := hs.typed.step h, rreqs := hs.step_rreqs h, issued := hissued }

/-- Node 1 asks for node 2, which answers: node 1 now has it that node 2 has
issued id 1, and node 2 has issued none. -/
theorem not_idsIssued : ∃ s, (networkMachine lineTopology).Reachable s ∧ ¬ IdsIssued s := by
  obtain ⟨s, hs, htest⟩ := Machine.reachable_of_exec_any (M := networkMachine lineTopology) askNeighbour
    (fun s => (s.nodes 2).broadcastId < ((s.nodes 1).table 2).highestBroadcastId 2) (by decide +kernel)
  refine ⟨s, hs, ?_⟩
  intro hissued
  have hcell := hissued 1 2 2
  simp only [decide_eq_true_eq] at htest
  omega

end Sockets.Odr
