/-
The reverse path: what a node without a route to `s` has for `s` after it
has processed several copies of one RREQ from `s`, which came by different
ways. Better copies are meant to replace worse ones. But the test is a
disjunction: an entry is left alone if the copy is no better *or* the entry
is fresh, and the first copy has just made it fresh. So the node keeps the
first copy (the first, that is, whose sender's address passes for
non-empty; until then every copy replaces the one before it).
-/
import Sockets.Odr.Network

namespace Sockets.Odr

/-- A copy of an RREQ as it arrived, and the readings of the clock while it was processed. -/
structure Copy where
  inc : Incoming
  clock : Nat → Int

/-- The RREQ branch, for one copy after the other. -/
def processCopies (h : Host) : NodeState → List Copy → Option NodeState
  | st, [] => some st
  | st, copy :: copies => do
    let (st, _) ← onRreq h st copy.inc copy.clock
    processCopies h st copies

/-- Copies of one RREQ of another node, without forced discovery, all
processed within the staleness interval that starts at `start`. -/
structure CopiesOf (h : Host) (source dest : Node) (id : Nat) (start : Int) (copies : List Copy) :
    Prop where
  foreign : source ≠ h.node
  type : ∀ copy ∈ copies, copy.inc.packet.type = 0
  source : ∀ copy ∈ copies, copy.inc.sourceNode = source
  dest : ∀ copy ∈ copies, copy.inc.destNode = dest
  id : ∀ copy ∈ copies, copy.inc.id = id
  notForced : ∀ copy ∈ copies, copy.inc.forced ≠ 1
  interval : ∀ copy ∈ copies, ∀ i, start ≤ copy.clock i ∧ copy.clock i < start + h.staleTime

/-- The route is that of a copy that came the shortest way. -/
def Shortest (copies : List Copy) (entry : RoutingEntry) : Prop :=
  ∃ copy ∈ copies, (∀ other ∈ copies, copy.inc.packet.hopCount ≤ other.inc.packet.hopCount) ∧
    entry.hopsToDest = copy.inc.packet.hopCount + 1 ∧ entry.nextHop = copy.inc.recvAddr ∧
    entry.outInterface = copy.inc.incomingInterface

/-- The copy that stays: the first whose sender's address passes for non-empty, or else the last. -/
def keptCopy : Copy → List Copy → Copy
  | copy, [] => copy
  | copy, next :: rest => if checkAddressNotEmpty copy.inc.recvAddr then copy else keptCopy next rest

/-- The entry holds the route by which the copy came. -/
structure RouteOf (copy : Copy) (entry : RoutingEntry) : Prop where
  nextHop : entry.nextHop = copy.inc.recvAddr
  outInterface : entry.outInterface = copy.inc.incomingInterface
  hopsToDest : entry.hopsToDest = copy.inc.packet.hopCount + 1

variable {h : Host} {st st' : NodeState} {source dest : Node} {id : Nat} {start : Int}

theorem keptCopy_mem (copy : Copy) (rest : List Copy) : keptCopy copy rest ∈ copy :: rest := by
  induction rest generalizing copy with
  | nil => simp [keptCopy]
  | cons next rest ih =>
    simp only [keptCopy]
    split
    · exact List.mem_cons_self
    · exact List.mem_cons_of_mem _ (ih next)

theorem CopiesOf.tail {copy : Copy} {copies : List Copy}
    (hc : CopiesOf h source dest id start (copy :: copies)) :
    CopiesOf h source dest id start copies where
  foreign := hc.foreign
  type c hm := hc.type c (List.mem_cons_of_mem _ hm)
  source c hm := hc.source c (List.mem_cons_of_mem _ hm)
  dest c hm := hc.dest c (List.mem_cons_of_mem _ hm)
  id c hm := hc.id c (List.mem_cons_of_mem _ hm)
  notForced c hm := hc.notForced c (List.mem_cons_of_mem _ hm)
  interval c hm := hc.interval c (List.mem_cons_of_mem _ hm)

/-- What the RREQ branch makes of the route to the source of an RREQ of
another node is what the reverse path makes of it. -/
theorem onRreq_route {inc : Incoming} {clock : Nat → Int} {actions : List Action}
    (htype : inc.packet.type = 0)
    (hforeign : inc.sourceNode ≠ h.node) (hs : onRreq h st inc clock = some (st', actions)) :
    st'.table inc.sourceNode = (reversePath h st inc clock).table inc.sourceNode := by
  cases onRreq_outcome htype hs with
  | own hown => exact absurd hown hforeign
  | duplicate => rfl
  | fresh _ hdest _ hstate _ =>
    rcases hstate with rfl | rfl
    · exact markSeen_of_ne (Ne.symm hdest)
    · exact (Function.update_of_ne (Ne.symm hdest) _ _).trans (markSeen_of_ne (Ne.symm hdest))

theorem updateReverse_of_empty {entry : RoutingEntry} {inc : Incoming} {currTime : Int}
    (hempty : checkAddressNotEmpty entry.nextHop = false) :
    updateReverse h entry inc currTime = true := by
  simp [updateReverse, hempty]

/-- A fresh entry is left alone, however good the copy. -/
theorem updateReverse_of_fresh {entry : RoutingEntry} {inc : Incoming} {currTime : Int}
    (hroute : checkAddressNotEmpty entry.nextHop = true)
    (hfresh : entry.timestamp + h.staleTime > currTime)
    (hforced : inc.forced ≠ 1) : updateReverse h entry inc currTime = false := by
  simp [updateReverse, hroute, hfresh, hforced]

/-- One copy at a node that has no route. -/
theorem onRreq_of_empty {copy : Copy} {actions : List Action} (htype : copy.inc.packet.type = 0)
    (hforeign : copy.inc.sourceNode ≠ h.node)
    (hempty : checkAddressNotEmpty (st.table copy.inc.sourceNode).nextHop = false)
    (hs : onRreq h st copy.inc copy.clock = some (st', actions)) :
    RouteOf copy (st'.table copy.inc.sourceNode) ∧
      (st'.table copy.inc.sourceNode).timestamp = copy.clock 1 := by
  rw [onRreq_route htype hforeign hs, reversePath_table, if_pos rfl]
  simp only [updateReverse_of_empty hempty, if_true]
  exact ⟨{ nextHop := rfl, outInterface := rfl, hopsToDest := rfl }, rfl⟩

/-- One copy at a node that has a fresh route. -/
theorem onRreq_of_fresh {copy kept : Copy} {actions : List Action} (htype : copy.inc.packet.type = 0)
    (hforeign : copy.inc.sourceNode ≠ h.node) (hforced : copy.inc.forced ≠ 1)
    (hroute : RouteOf kept (st.table copy.inc.sourceNode))
    (hkept : checkAddressNotEmpty kept.inc.recvAddr = true)
    (hfresh : (st.table copy.inc.sourceNode).timestamp + h.staleTime > copy.clock 0)
    (hs : onRreq h st copy.inc copy.clock = some (st', actions)) :
    RouteOf kept (st'.table copy.inc.sourceNode) ∧
      (st'.table copy.inc.sourceNode).timestamp = (st.table copy.inc.sourceNode).timestamp := by
  rw [onRreq_route htype hforeign hs, reversePath_table, if_pos rfl]
  simp only [updateReverse_of_fresh (hroute.nextHop ▸ hkept) hfresh hforced, Bool.false_eq_true,
    if_false]
  split
  · have hroute' : RouteOf kept ((st.table copy.inc.sourceNode).setHighest copy.inc.sourceNode copy.inc.id) :=
      { nextHop := hroute.nextHop, outInterface := hroute.outInterface, hopsToDest := hroute.hopsToDest }
    exact ⟨hroute', rfl⟩
  · exact ⟨hroute, rfl⟩

/-- A fresh route outlasts all copies. -/
theorem processCopies_of_fresh {kept : Copy} (hkept : checkAddressNotEmpty kept.inc.recvAddr = true)
    {copies : List Copy} (hc : CopiesOf h source dest id start copies)
    (hroute : RouteOf kept (st.table source))
    (htime : start ≤ (st.table source).timestamp) (hs : processCopies h st copies = some st') :
    RouteOf kept (st'.table source) := by
  induction copies generalizing st with
  | nil =>
    simp only [processCopies, Option.some.injEq] at hs
    exact hs ▸ hroute
  | cons copy copies ih =>
    simp only [processCopies, Option.bind_eq_bind, Option.bind_eq_some_iff] at hs
    obtain ⟨⟨st₁, actions⟩, hcopy, hs⟩ := hs
    have hm : copy ∈ copy :: copies := List.mem_cons_self
    have hsource := hc.source copy hm
    have hinterval := hc.interval copy hm 0
    rw [← hsource] at hroute htime
    obtain ⟨hroute₁, htime₁⟩ := onRreq_of_fresh (hc.type copy hm) (hsource ▸ hc.foreign)
      (hc.notForced copy hm) hroute hkept (by omega) hcopy
    rw [← htime₁] at htime
    rw [hsource] at hroute₁ htime
    exact ih hc.tail hroute₁ htime hs

/-- What the node is left with is the route of the copy that stays. -/
theorem processCopies_of_empty {copy : Copy} {copies : List Copy}
    (hc : CopiesOf h source dest id start (copy :: copies))
    (hempty : checkAddressNotEmpty (st.table source).nextHop = false)
    (hs : processCopies h st (copy :: copies) = some st') :
    RouteOf (keptCopy copy copies) (st'.table source) := by
  induction copies generalizing copy st with
  | nil =>
    simp only [processCopies, Option.bind_eq_bind, Option.bind_eq_some_iff, Option.some.injEq] at hs
    obtain ⟨⟨st₁, actions⟩, hcopy, rfl⟩ := hs
    have hm : copy ∈ [copy] := List.mem_cons_self
    have hsource := hc.source copy hm
    rw [← hsource] at hempty ⊢
    obtain ⟨hroute, -⟩ := onRreq_of_empty (hc.type copy hm) (hsource ▸ hc.foreign) hempty hcopy
    exact hroute
  | cons next rest ih =>
    rw [processCopies] at hs
    simp only [Option.bind_eq_bind, Option.bind_eq_some_iff] at hs
    obtain ⟨⟨st₁, actions⟩, hcopy, hs⟩ := hs
    have hm : copy ∈ copy :: next :: rest := List.mem_cons_self
    have hsource := hc.source copy hm
    rw [← hsource] at hempty
    obtain ⟨hroute, htime⟩ := onRreq_of_empty (hc.type copy hm) (hsource ▸ hc.foreign) hempty hcopy
    rw [hsource] at hroute htime
    simp only [keptCopy]
    split
    next hkept =>
      have hlater := (hc.interval copy hm 1).1
      exact processCopies_of_fresh hkept hc.tail hroute (by omega) hs
    next hkept =>
      -- its sender's address passes for empty, so the next copy replaces it
      have hempty₁ : checkAddressNotEmpty (st₁.table source).nextHop = false := by
        rw [hroute.nextHop]
        simpa using hkept
      exact ih hc.tail hempty₁ hs

/-- **The reverse path, exactly.** At a node without a route to the source,
after all copies of one RREQ: the route is that of a copy that came the
shortest way if and only if the copy that stays came the shortest way. -/
theorem shortest_iff {copy : Copy} {copies : List Copy}
    (hc : CopiesOf h source dest id start (copy :: copies))
    (hempty : checkAddressNotEmpty (st.table source).nextHop = false)
    (hs : processCopies h st (copy :: copies) = some st') :
    Shortest (copy :: copies) (st'.table source) ↔
      ∀ other ∈ copy :: copies,
        (keptCopy copy copies).inc.packet.hopCount ≤ other.inc.packet.hopCount := by
  have hroute := processCopies_of_empty hc hempty hs
  constructor
  · rintro ⟨best, -, hbest, hhops, -⟩ other hm
    have hle := hbest other hm
    have hkept := hroute.hopsToDest
    omega
  · intro hleast
    exact ⟨keptCopy copy copies, keptCopy_mem copy copies, hleast, hroute.hopsToDest, hroute.nextHop,
      hroute.outInterface⟩

/-- Two copies at node 5 of the line of what node 1 asks for node 9. -/
def longCopy : Copy where
  inc := {
    recvAddr := lineMac 4 2, incomingInterface := 1, sourceNode := 1, destNode := 9
    packet := rreqPacket 1 9 3 }
  clock _ := 0

def shortCopy : Copy where
  inc := {
    recvAddr := lineMac 6 1, incomingInterface := 2, sourceNode := 1, destNode := 9
    packet := rreqPacket 1 9 1 }
  clock _ := 0

theorem copiesOf_pair {copies : List Copy} (hm : ∀ copy ∈ copies, copy = longCopy ∨ copy = shortCopy) :
    CopiesOf (lineTopology.host 5) 1 9 1 0 copies where
  foreign := by decide
  type copy h := by rcases hm copy h with rfl | rfl <;> rfl
  source copy h := by rcases hm copy h with rfl | rfl <;> rfl
  dest copy h := by rcases hm copy h with rfl | rfl <;> rfl
  id copy h := by rcases hm copy h with rfl | rfl <;> decide +kernel
  notForced copy h := by rcases hm copy h with rfl | rfl <;> decide +kernel
  interval copy h _ := by
    rcases hm copy h with rfl | rfl <;> exact ⟨le_refl _, show (0 : Int) < 10 by decide⟩

/-- The short copy first: it stays, and it is the shortest. -/
theorem shortest_iff_short_first :
    ∃ st', processCopies (lineTopology.host 5) .start [shortCopy, longCopy] = some st' ∧
    Shortest [shortCopy, longCopy] (st'.table 1) := by
  have hsome : (processCopies (lineTopology.host 5) .start [shortCopy, longCopy]).isSome = true := by
    decide +kernel
  obtain ⟨st', hs⟩ := Option.isSome_iff_exists.mp hsome
  exact ⟨st', hs, (shortest_iff (copiesOf_pair (by simp)) (by decide) hs).mpr (by decide)⟩

/-- The long copy first: it stays, although the short one is better. -/
theorem not_shortest :
    ∃ st', processCopies (lineTopology.host 5) .start [longCopy, shortCopy] = some st' ∧
    CopiesOf (lineTopology.host 5) 1 9 1 0 [longCopy, shortCopy] ∧
    checkAddressNotEmpty (NodeState.start.table 1).nextHop = false ∧
    ¬ Shortest [longCopy, shortCopy] (st'.table 1) := by
  have hsome : (processCopies (lineTopology.host 5) .start [longCopy, shortCopy]).isSome = true := by
    decide +kernel
  obtain ⟨st', hs⟩ := Option.isSome_iff_exists.mp hsome
  have hc : CopiesOf (lineTopology.host 5) 1 9 1 0 [longCopy, shortCopy] := copiesOf_pair (by simp)
  refine ⟨st', hs, hc, by decide, ?_⟩
  rintro ⟨best, -, hbest, hhops, -⟩
  have hkept : (keptCopy longCopy [shortCopy]).inc.packet.hopCount = 3 := by decide
  have hroute := (processCopies_of_empty hc (by decide) hs).hopsToDest
  have hshort : best.inc.packet.hopCount ≤ 1 := hbest shortCopy (by simp)
  omega

end Sockets.Odr
