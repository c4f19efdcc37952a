/-
Flooding is duplicate-free: a node broadcasts an RREQ, identified by its
source, its destination and its broadcast id, at most once.

The duplicate test reads the cell (destination, source) of the node's table.
That cell is off the diagonal, so the write of the RREP branch, which may
lower a diagonal cell, does not touch it; and every RREQ the node has
broadcast again left its id, or a later one, there.
-/
import Sockets.Odr.Network

namespace Sockets.Odr

/-- What identifies an RREQ. -/
structure RreqKey where
  source : Node
  dest : Node
  id : Nat
deriving DecidableEq

def Action.rreqKey (T : Topology) : Action → Option RreqKey
  | .broadcast packet =>
    if packet.type = 0 then
      match T.getNodeByIp packet.sourceIpAddr, T.getNodeByIp packet.destinationIpAddr with
      | some source, some dest => some { source, dest, id := receivedBid packet.applicationMsg }
      | _, _ => none
    else none
  | _ => none

/-- The RREQs that the records of some kind have broadcast. -/
def rreqKeys (T : Topology) (s : Network) (kind : Record → Bool) : List RreqKey :=
  (s.history.filter kind).filterMap fun record => record.action.rreqKey T

/-- The RREQs a node has broadcast, its own and those of others. -/
def broadcastKeys (T : Topology) (s : Network) (n : Node) : List RreqKey :=
  rreqKeys T s fun record => record.node = n

/-- Those it has broadcast on the reception of an RREQ. -/
def rebroadcastKeys (T : Topology) (s : Network) (n : Node) : List RreqKey :=
  rreqKeys T s fun record => decide (record.node = n) && record.received.any (·.type = 0)

structure FloodInv (T : Topology) (s : Network) : Prop where
  /-- An RREQ of another node has left its id in the cell the duplicate test reads. -/
  seen : ∀ n, ∀ key ∈ broadcastKeys T s n, key.source ≠ n →
    key.dest ≠ key.source ∧ 0 < key.id ∧
      key.id ≤ ((s.nodes n).table key.dest).highestBroadcastId key.source
  own : ∀ n, ∀ key ∈ broadcastKeys T s n, key.source = n → key.id ≤ (s.nodes n).broadcastId
  again : ∀ n, ∀ key ∈ rebroadcastKeys T s n, key.source ≠ n
  nodup : ∀ n, ((broadcastKeys T s n).filter fun key => 0 < key.id).Nodup

variable {T : Topology} {s s' : Network} {st : NodeState} {actions : List Action} {m : Node}
  {received : Option Packet}

theorem rreqKeys_put {kind : Record → Bool} {b : Bool}
    (hkind : ∀ action, kind { node := m, received, action } = b) :
    rreqKeys T (s.put m received st actions) kind =
    rreqKeys T s kind ++ if b = true then actions.filterMap (Action.rreqKey T) else [] := by
  simp only [rreqKeys, Network.put, List.filter_append, List.filterMap_append, List.filter_map,
    Function.comp_def, hkind]
  cases b <;> simp

theorem broadcastKeys_put (n : Node) : broadcastKeys T (s.put m received st actions) n =
    broadcastKeys T s n ++ if m = n then actions.filterMap (Action.rreqKey T) else [] := by
  rw [broadcastKeys, rreqKeys_put (b := decide (m = n)) fun _ => rfl]
  simp [broadcastKeys]

/-- An RREQ in the longer history was there, or is one of those just put out. -/
theorem mem_rreqKeys_put {kind : Record → Bool} {b : Bool} {key : RreqKey}
    (hkind : ∀ action, kind { node := m, received, action } = b)
    (h : key ∈ rreqKeys T (s.put m received st actions) kind) :
    key ∈ rreqKeys T s kind ∨ (b = true ∧ key ∈ actions.filterMap (Action.rreqKey T)) := by
  rw [rreqKeys_put hkind] at h
  cases List.mem_append.mp h with
  | inl hold => exact .inl hold
  | inr hnew =>
    split at hnew
    next hb => exact .inr ⟨hb, hnew⟩
    next => cases hnew

theorem mem_broadcastKeys_put {n : Node} {key : RreqKey}
    (h : key ∈ broadcastKeys T (s.put m received st actions) n) :
    key ∈ broadcastKeys T s n ∨ (m = n ∧ key ∈ actions.filterMap (Action.rreqKey T)) := by
  rcases mem_rreqKeys_put (b := decide (m = n)) (fun _ => rfl) h with hold | ⟨hn, hnew⟩
  · exact .inl hold
  · exact .inr ⟨of_decide_eq_true hn, hnew⟩

theorem mem_rebroadcastKeys_put {n : Node} {key : RreqKey}
    (h : key ∈ rebroadcastKeys T (s.put m received st actions) n) :
    key ∈ rebroadcastKeys T s n ∨
      (m = n ∧ received.any (·.type = 0) = true ∧ key ∈ actions.filterMap (Action.rreqKey T)) := by
  rcases mem_rreqKeys_put (b := decide (m = n) && received.any (·.type = 0)) (fun _ => rfl) h with
    hold | ⟨hn, hnew⟩
  · exact .inl hold
  · rw [Bool.and_eq_true] at hn
    exact .inr ⟨of_decide_eq_true hn.1, hn.2, hnew⟩

theorem rebroadcastKeys_sublist (s : Network) (n : Node) :
    (rebroadcastKeys T s n).Sublist (broadcastKeys T s n) := by
  refine (List.monotone_filter_right _ ?_).filterMap _
  intro record h
  simp only [Bool.and_eq_true] at h
  exact h.1

/-- At most one of the actions of a step is a broadcast. -/
theorem rreqKeys_length (h : actions.countP Action.isBroadcast ≤ 1) :
    (actions.filterMap (Action.rreqKey T)).length ≤ 1 := by
  have hkey : ∀ action ∈ actions, (action.rreqKey T).isSome = true → action.isBroadcast = true := by
    intro action _ hk
    cases action with
    | broadcast => rfl
    | send | toServer | toClient => simp [Action.rreqKey] at hk
  rw [List.length_filterMap_eq_countP]
  exact (List.countP_mono_left hkey).trans h

/-! ## What one step broadcasts -/

theorem nodup_of_length_le_one {α : Type} {l : List α} (h : l.length ≤ 1) : l.Nodup := by
  match l with
  | [] => exact List.nodup_nil
  | [a] => exact List.nodup_singleton a
  | _ :: _ :: _ => simp at h

theorem rreqKey_broadcast {packet : Packet} {key : RreqKey}
    (h : (Action.broadcast packet).rreqKey T = some key) : packet.type = 0 ∧
      T.getNodeByIp packet.sourceIpAddr = some key.source ∧
      T.getNodeByIp packet.destinationIpAddr = some key.dest ∧
      key.id = receivedBid packet.applicationMsg := by
  simp only [Action.rreqKey] at h
  split at h
  next htype =>
    split at h
    next hsource hdest =>
      simp only [Option.some.injEq] at h
      subst h
      exact ⟨htype, hsource, hdest, rfl⟩
    · cases h
  · cases h

theorem rreqKey_sendAlong {h : Host} {entry : RoutingEntry} {packet : Packet} {action : Action}
    (hs : h.sendAlong entry packet = some action) : action.rreqKey T = none := by
  obtain ⟨_, _, rfl⟩ := sendAlong_eq_some hs
  rfl

/-- The key of a broadcast: of a discovery of the node's own, with the id
just counted up to, or of an RREQ that passed the duplicate test. -/
def NewKey (n : Node) (st₀ st : NodeState) (inc : Option Incoming) (key : RreqKey) : Prop :=
  (key.source = n ∧ (key.id = st.broadcastId ∨ key.id = 0) ∧ st.broadcastId = st₀.broadcastId + 1 ∧
    ∀ i ∈ inc, i.packet.type ≠ 0) ∨
  (key.source ≠ n ∧ key.dest ≠ key.source ∧ (st₀.table key.dest).highestBroadcastId key.source < key.id ∧
    (st.table key.dest).highestBroadcastId key.source = key.id)

theorem Emitted.newKey {n : Node} {st₀ : NodeState} {clock : Nat → Int} {P : Packet → Prop}
    {inc : Option Incoming} {action : Action} {key : RreqKey}
    (hinc : ∀ i ∈ inc, T.getNodeByIp i.packet.sourceIpAddr = some i.sourceNode ∧
      T.getNodeByIp i.packet.destinationIpAddr = some i.destNode)
    (he : Emitted (T.host n) st₀ st clock P inc action) (hk : action.rreqKey T = some key) :
    NewKey n st₀ st inc key := by
  cases he with
  | originate htrigger htype _ hsource hid hnext =>
    left
    obtain ⟨-, hs, -, hkid⟩ := rreqKey_broadcast hk
    have hsource : key.source = n := by
      rcases hsource with he | he <;> rw [he] at hs
      · exact Option.some.inj (hs.symm.trans (T.local_resolves n))
      · exact Option.some.inj (hs.symm.trans (T.current_resolves n))
    exact ⟨hsource, hkid ▸ hid, hnext, htrigger⟩
  | flood htype hid hforeign hdest hfresh hmark =>
    right
    obtain ⟨hs, hd⟩ := hinc _ rfl
    obtain ⟨-, hs', hd', hkid⟩ := rreqKey_broadcast hk
    have hsource := Option.some.inj (hs'.symm.trans hs)
    have hdest' := Option.some.inj (hd'.symm.trans hd)
    rw [hsource, hdest', hkid, hid]
    exact ⟨hforeign, hdest, hfresh, hmark⟩
  | reply _ _ _ _ hsend | relay _ hsend | buffered _ _ _ hsend =>
    rw [rreqKey_sendAlong hsend] at hk
    cases hk
  | toServer | toClient => cases hk

/-- What a step must satisfy to keep the invariant at its node. -/
theorem FloodInv.put (hs : FloodInv T s) (inc : Option Incoming) {clock : Nat → Int}
    (hinc : ∀ i ∈ inc, T.getNodeByIp i.packet.sourceIpAddr = some i.sourceNode ∧
      T.getNodeByIp i.packet.destinationIpAddr = some i.destNode)
    (hemitted : ∀ action ∈ actions, Emitted (T.host m) (s.nodes m) st clock (fun _ => True) inc action)
    (hcount : actions.countP Action.isBroadcast ≤ 1)
    (hcells : ∀ d x, d ≠ x →
      ((s.nodes m).table d).highestBroadcastId x ≤ (st.table d).highestBroadcastId x)
    (hid : (s.nodes m).broadcastId ≤ st.broadcastId) :
    FloodInv T (s.put m (inc.map (·.packet)) st actions) := by
  have hnew : ∀ key ∈ actions.filterMap (Action.rreqKey T), NewKey m (s.nodes m) st inc key := by
    intro key hk
    obtain ⟨action, ha, hk⟩ := List.mem_filterMap.mp hk
    exact (hemitted action ha).newKey hinc hk
  exact {
    seen := by
      intro n key hk hne
      rw [put_nodes]
      rcases mem_broadcastKeys_put hk with hold | ⟨rfl, hput⟩
      · obtain ⟨hd, hpos, hle⟩ := hs.seen n key hold hne
        refine ⟨hd, hpos, ?_⟩
        split
        next hn => exact hle.trans (hn ▸ hcells _ _ hd)
        next => exact hle
      · rw [if_pos rfl]
        rcases hnew key hput with ⟨hown, -⟩ | ⟨-, hd, hlt, hmark⟩
        · exact absurd hown hne
        · exact ⟨hd, by omega, hmark.ge⟩
    own := by
      intro n key hk he
      rw [put_nodes]
      rcases mem_broadcastKeys_put hk with hold | ⟨rfl, hput⟩
      · have hle := hs.own n key hold he
        split
        next hn =>
          subst hn
          exact hle.trans hid
        next => exact hle
      · rw [if_pos rfl]
        rcases hnew key hput with ⟨-, hkid, -⟩ | ⟨hne, -⟩
        · omega
        · exact absurd he hne
    again := by
      intro n key hk
      rcases mem_rebroadcastKeys_put hk with hold | ⟨rfl, htype, hput⟩
      · exact hs.again n key hold
      · rcases hnew key hput with ⟨-, -, -, hno⟩ | ⟨hne, -⟩
        · -- a discovery of the node's own is not triggered by an RREQ
          cases inc with
          | none => simp at htype
          | some inc =>
            simp only [Option.map_some, Option.any_some, decide_eq_true_eq] at htype
            exact absurd htype (hno inc rfl)
        · exact hne
    nodup := by
      intro n
      rw [broadcastKeys_put, List.filter_append]
      split
      next hn =>
        subst hn
        have hlen : ((actions.filterMap (Action.rreqKey T)).filter fun key => 0 < key.id).length ≤ 1 :=
          (List.length_filter_le _ _).trans (rreqKeys_length hcount)
        refine List.nodup_append.mpr ⟨hs.nodup m, nodup_of_length_le_one hlen, ?_⟩
        intro old hold key hk he
        subst he
        obtain ⟨hold, -⟩ := List.mem_filter.mp hold
        obtain ⟨hk, hpos⟩ := List.mem_filter.mp hk
        rcases hnew old hk with ⟨hown, hkid, hnext, -⟩ | ⟨hne, -, hlt, -⟩
        · have hle := hs.own m old hold hown
          simp only [decide_eq_true_eq] at hpos
          omega
        · have hseen := (hs.seen m old hold hne).2.2
          omega
      · simpa using hs.nodup n }

theorem FloodInv.start : FloodInv T (networkMachine T).init where
  seen := by simp [networkMachine, broadcastKeys, rreqKeys]
  own := by simp [networkMachine, broadcastKeys, rreqKeys]
  again := by simp [networkMachine, rebroadcastKeys, rreqKeys]
  nodup := by simp [networkMachine, broadcastKeys, rreqKeys]

theorem FloodInv.step (hs : FloodInv T s) {e : NetworkEvent}
    (h : (networkMachine T).step s e = some s') :
    FloodInv T s' := by
  cases e with
  | client n message clock =>
    obtain ⟨st, actions, hm, rfl⟩ := step_client h
    obtain ⟨dest, -, htable, hid, hcount, hpackets⟩ := onClientMessage_spec hm
    obtain ⟨-, hemitted⟩ := hpackets (fun _ => True) (fun _ _ => trivial) trivial fun _ => trivial
    have hcells : ∀ d x, d ≠ x →
        ((s.nodes n).table d).highestBroadcastId x ≤ (st.table d).highestBroadcastId x := by
      intro d x _
      rw [htable]
      split
      · rw [Function.update_apply]
        split
        next hd => exact hd ▸ le_refl _
        · exact le_refl _
      · exact le_refl _
    exact hs.put none (by simp) hemitted hcount hcells (by omega)
  | deliver record i m j clock reply =>
    obtain ⟨inc, frame, st, actions, hd⟩ := step_deliver h
    obtain ⟨-, hemitted⟩ := hd.spec.packets _ (bufferable_true _ _ _) fun _ => trivial
    have hcells : ∀ d x, d ≠ x →
        ((s.nodes m).table d).highestBroadcastId x ≤ (st.table d).highestBroadcastId x := by
      intro d x hne
      rcases hd.spec.highest d x with he | ⟨-, -, hlt, he⟩ | ⟨-, hd', hx⟩
      · exact he.ge
      · omega
      · -- the write of an RREP is on the diagonal
        exact absurd (hd'.trans hx.symm) hne
    have hid : (s.nodes m).broadcastId ≤ st.broadcastId := by
      rcases hd.spec.broadcastId with he | he <;> omega
    rw [hd.state]
    exact hs.put (some inc) (by simpa using ⟨hd.source, hd.dest⟩) hemitted hd.spec.count hcells hid

/-- **Flooding is duplicate-free.** In every state a network reaches, no
node has broadcast one RREQ again twice, none has broadcast its own again on
reception, and no node has broadcast any RREQ twice, its own discoveries
included. -/
theorem broadcast_at_most_once (h : (networkMachine T).Reachable s) (n : Node) :
    (rebroadcastKeys T s n).Nodup ∧ (∀ key ∈ rebroadcastKeys T s n, key.source ≠ n) ∧
      ((broadcastKeys T s n).filter fun key => 0 < key.id).Nodup := by
  have hs : FloodInv T s := h.invariant .start fun _ _ _ hs h => hs.step h
  have hsub := rebroadcastKeys_sublist (T := T) s n
  have hpos : (rebroadcastKeys T s n).filter (fun key => 0 < key.id) = rebroadcastKeys T s n := by
    refine List.filter_eq_self.mpr ?_
    intro key hk
    have hseen := hs.seen n key (hsub.subset hk) (hs.again n key hk)
    simpa using hseen.2.1
  have hagain : (rebroadcastKeys T s n).Nodup := by
    rw [← hpos]
    exact (hs.nodup n).sublist (hsub.filter _)
  exact ⟨hagain, hs.again n, hs.nodup n⟩

/-- Node 2 of the line has passed on what node 1 asks for node 3. -/
theorem broadcast_at_most_once_line : ∃ s, (networkMachine lineTopology).Reachable s ∧
    rebroadcastKeys lineTopology s 2 = [{ source := 1, dest := 3, id := 1 }] ∧
    ((broadcastKeys lineTopology s 2).filter fun key => 0 < key.id).Nodup := by
  obtain ⟨s, hs, htest⟩ := Machine.reachable_of_exec_any (M := networkMachine lineTopology)
    [.client 1 (lineRequest 3) fun _ => 0, .deliver (lineRreq 1 3) 2 2 1 (fun _ => 0) []]
    (fun s => rebroadcastKeys lineTopology s 2 = [{ source := 1, dest := 3, id := 1 }])
    (by decide +kernel)
  exact ⟨s, hs, by simpa using htest, (broadcast_at_most_once hs 2).2.2⟩

end Sockets.Odr
