/-
The order of a tour, when no packet is lost, none arrives twice and each
arrives as it was sent: the nodes of the tour receive it one after another,
each once for each of its places, each finds its predecessor, and only the
last sends nothing on.

Nothing else that happens on the way matters: as long as the tour has not
ended no node sends anything to the group, so none is alarmed and leaves.
But it is the tour that the starting node reads, and it reads it through a
pointer to an array that is gone; and a node looks up its predecessor among
the eleven places of its array, and goes on past a greater number only by
luck. A tour is visited exactly when the numbers are read as they were
written, and all nodes but the last have a place (`visitsInOrder_iff`).
-/
import Sockets.Tour.Network

namespace Sockets.Tour

open Wire

variable {m : DataModel}

/-- No packet arrives twice, and each arrives as it was sent. -/
def Delivered (s : Network m) (e : TourEvent m) (_ : Network m) : Prop :=
  match e with
  | .packet k passage => (∀ r ∈ s.received, r.packet ≠ k) ∧ ∀ packet, s.sent[k]? = some packet →
      ∃ received, passage.transmit packet.payload = some received ∧ Survives packet.payload received
  | _ => True

/-- What node `i + 1` makes of its packet. -/
def receptionAt (tour : List Int) (i : Nat) : Reception where
  packet := i
  node := vm tour (i + 1)
  nextIpIdx := (i + 1 : Nat)
  previousVmNum := vm tour i
  forwarded := i + 2 < tour.length
  ifLastNode := if i + 2 = tour.length then 1 else -1

/-- What the nodes of a tour receive, in their order. -/
def itinerary (tour : List Int) : List Reception := (List.range (tour.length - 1)).map (receptionAt tour)

/-- The first nodes of the tour have received it, in its order; the next one can receive it, unless
there is none; and then no packet is on the way. -/
structure VisitedSoFar (tour : List Int) (s : Network m) : Prop where
  order : s.received <+: itinerary tour
  goesOn : s.received ≠ itinerary tour →
    ∃ k passage s', Delivered s (.packet k passage) s' ∧ s.step (.packet k passage) = some s'
  stops : s.received = itinerary tour → ∀ k < s.sent.length, ∃ r ∈ s.received, r.packet = k

/-- All nodes but the last have a place in the array of those that are pinged. -/
def HavePlaces (tour : List Int) : Prop := ∀ i, i + 1 < tour.length → 0 ≤ vm tour i ∧ vm tour i < pingSize

/-- The packet has arrived on the first `n` legs. -/
structure Progress (tour : List Int) (s : Network m) (n : Nat) : Prop where
  bound : n + 1 ≤ tour.length
  received : s.received = (List.range n).map (receptionAt tour)
  length_sent : s.sent.length = min (n + 1) (tour.length - 1)
  calm : n + 1 < tour.length → s.Calm
  notLast : n + 1 < tour.length → ∀ v, (s.nodes v).ifLastNode = -1

/-- The packet that goes on to the next node carries the tour. -/
structure OrderInv (tour : List Int) (s : Network m) (n : Nat) : Prop extends Progress tour s n where
  next : ∀ packet, s.sent[n]? = some packet → IsLeg tour n packet

variable {tour : List Int} {s s' : Network m} {e : TourEvent m} {n : Nat} {launch : Launch m} {v : Int}

theorem index?_eq_some_bounds {size : Nat} {v : Int} {i : Fin size} (h : index? size v = some i) :
    0 ≤ v ∧ v < size := by
  have hv := index?_eq_some h
  omega

theorem Progress.start (hleg : 2 ≤ tour.length) {packet : RtPacket m}
    (hsent : (tourMachine launch v).init.sent = [packet]) (hread : launch.hostNumberArray.isSome = true) :
    Progress tour (tourMachine launch v).init 0 where
  bound := by omega
  received := rfl
  length_sent := by
    rw [hsent, List.length_singleton]
    omega
  calm := fun _ => ⟨rfl, fun w => (start_nodes hread v w).2⟩
  notLast := fun _ w => (start_nodes hread v w).1

theorem OrderInv.start (ht : ValidTour tour) (hreads : launch.Reads tour) :
    OrderInv tour (tourMachine launch v).init 0 := by
  obtain ⟨packet, hsent, hpacket⟩ := start_sent ht hreads v
  refine ⟨.start ht.leg hsent hreads.isSome, ?_⟩
  intro packet' hfirst
  rw [tourMachine, hsent] at hfirst
  exact Option.some.inj hfirst ▸ hpacket

/-- Until the last node has the packet there is one on the way. -/
theorem OrderInv.exists_next (h : OrderInv tour s n) (hn : n + 1 < tour.length) :
    ∃ packet, s.sent[n]? = some packet ∧ IsLeg tour n packet := by
  have hlt : n < s.sent.length := by
    rw [h.length_sent]
    omega
  exact ⟨s.sent[n], List.getElem?_eq_getElem hlt, h.next _ (List.getElem?_eq_getElem hlt)⟩

/-- The first `n` packets have arrived. -/
theorem OrderInv.isNew_iff (h : OrderInv tour s n) {k : Nat} :
    (∀ r ∈ s.received, r.packet ≠ k) ↔ n ≤ k := by
  simp only [h.received, List.forall_mem_map, List.mem_range]
  constructor
  · intro hnew
    exact Nat.le_of_not_lt fun hlt => hnew k hlt rfl
  · intro hle i hlt he
    have hindex : i = k := he
    omega

theorem LegVisits.forwarded_length {node : Node} {visit : Visit m} {j : Fin pingSize}
    (h : LegVisits tour n node visit j) (hn : n + 1 < tour.length) :
    visit.forwarded.toList.length = if n + 2 < tour.length then 1 else 0 := by
  split
  next hlt =>
    obtain ⟨-, packet, hforwarded, -⟩ := h.notLast hlt
    rw [hforwarded, Option.toList_some, List.length_singleton]
  next hge => rw [(h.last (by omega)).2, Option.toList_none, List.length_nil]

theorem LegVisits.reception {node : Node} {visit : Visit m} {j : Fin pingSize} {payload : PayLoad m}
    (h : LegVisits tour n node visit j) (hn : n + 1 < tour.length) (hnot : node.ifLastNode = -1)
    (hidx : payload.nextIpIdx = (n + 1 : Nat)) :
    visit.reception n (vm tour (n + 1)) payload = receptionAt tour n := by
  rw [Visit.reception, h.previous, hidx, receptionAt]
  cases Nat.lt_or_eq_of_le hn with
  | inl hlt =>
    have hlt : n + 2 < tour.length := hlt
    obtain ⟨hsame, packet, hforwarded, -⟩ := h.notLast hlt
    rw [hforwarded, hsame, hnot, if_neg (Nat.ne_of_lt hlt), decide_eq_true hlt]
    rfl
  | inr he =>
    have he : n + 2 = tour.length := he
    obtain ⟨hlast, hforwarded⟩ := h.last he
    rw [hforwarded, hlast, if_pos he, decide_eq_false (by omega)]
    rfl

/-- The next node receives a packet that carries the tour. -/
theorem Progress.visit (h : Progress tour s n) (hn : n + 1 < tour.length) {payload : PayLoad m}
    {visit : Visit m} {j : Fin pingSize} (hidx : payload.nextIpIdx = (n + 1 : Nat))
    (hvisit : LegVisits tour n (s.nodes (vm tour (n + 1))) visit j) :
    OrderInv tour (s.visit n (vm tour (n + 1)) payload visit) (n + 1) := by
  have hlength : s.sent.length = n + 1 := by
    rw [h.length_sent]
    omega
  refine ⟨⟨hn, ?_, ?_, ?_, ?_⟩, ?_⟩
  · rw [List.range_succ, List.map_append, ← h.received, List.map_singleton,
      ← hvisit.reception hn (h.notLast hn _) hidx]
    rfl
  · show (s.sent ++ visit.forwarded.toList).length = _
    rw [List.length_append, hlength, hvisit.forwarded_length hn]
    split <;> omega
  · intro hmore
    have hcalm := h.calm hn
    refine ⟨hcalm.multicasts, ?_⟩
    intro v
    rw [Network.visit_nodes]
    split
    next =>
      rw [hvisit.noted.alarm, hvisit.noted.exited]
      exact hcalm.running _
    next => exact hcalm.running v
  · intro hmore v
    rw [Network.visit_nodes]
    split
    next => rw [(hvisit.notLast hmore).1, h.notLast hn]
    next => exact h.notLast hn v
  · intro packet hpacket
    have hforwarded : visit.forwarded.toList[0]? = some packet := by
      have hlast : (s.sent ++ visit.forwarded.toList)[s.sent.length]? = some packet := hlength.symm ▸ hpacket
      rwa [List.getElem?_append_right (Nat.le_refl _), Nat.sub_self] at hlast
    cases Nat.lt_or_eq_of_le hn with
    | inl hlt =>
      obtain ⟨-, packet', hforwarded', hleg⟩ := hvisit.notLast hlt
      rw [hforwarded'] at hforwarded
      exact Option.some.inj hforwarded ▸ hleg
    | inr he =>
      rw [(hvisit.last he).2] at hforwarded
      cases hforwarded

/-- The next packet is the only one that has not arrived; where it can arrive the predecessor has
a place. -/
theorem OrderInv.packet (h : OrderInv tour s n) (ht : ValidTour tour) {k : Nat} {passage : Passage m}
    (hg : Delivered s (.packet k passage) s') (hs : s.step (.packet k passage) = some s') :
    n + 1 < tour.length ∧ (0 ≤ vm tour n ∧ vm tour n < pingSize) ∧ OrderInv tour s' (n + 1) := by
  obtain ⟨hnew, hintact⟩ := hg
  cases Network.step_effect hs with
  | @visits _ _ packet payload visit j hpacket hrunning htransmit hvisits =>
    have hlt := (List.getElem?_eq_some_iff.mp hpacket).1
    rw [h.length_sent] at hlt
    have hle : n ≤ k := h.isNew_iff.mp hnew
    obtain rfl : n = k := by omega
    have hn : n + 1 < tour.length := by omega
    have hleg := h.next packet hpacket
    obtain ⟨received, hreceived, hsurvives⟩ := hintact packet hpacket
    obtain rfl : payload = received := Option.some.inj (htransmit.symm.trans hreceived)
    have hcarries := hleg.carries.of_survives hsurvives
    have hvisit := legVisits_of_visits ht hn hcarries hvisits
    refine ⟨hn, index?_eq_some_bounds hvisit.place, ?_⟩
    rw [hleg.dst] at hvisit ⊢
    exact h.visit hn hcarries.nextIpIdx hvisit
  | other he _ => cases he

/-- What else happens leaves the packet where it is. -/
theorem OrderInv.other (h : OrderInv tour s n) (he : e.isPacket = false) (hs : s.step e = some s') :
    OrderInv tour s' n := by
  cases Network.step_effect hs with
  | visits => cases he
  | @ends v hswitch hcounter hlast =>
    have hlast' : ¬ n + 1 < tour.length := by
      intro hn
      rw [h.notLast hn] at hlast
      cases hlast
    exact ⟨⟨h.bound, h.received, h.length_sent, fun hn => absurd hn hlast', fun hn => absurd hn hlast'⟩, h.next⟩
  | other _ hquiet =>
    refine ⟨⟨h.bound, hquiet.received.trans h.received, ?_, ?_, ?_⟩, hquiet.sent ▸ h.next⟩
    · rw [hquiet.sent, h.length_sent]
    · exact fun hn => hquiet.calm (h.calm hn)
    · exact fun hn v => (hquiet.ifLastNode v).trans (h.notLast hn v)

theorem OrderInv.step (h : OrderInv tour s n) (ht : ValidTour tour) (hs : s.step e = some s')
    (hg : Delivered s e s') : ∃ i, OrderInv tour s' i := by
  cases e with
  | packet k passage => exact ⟨n + 1, (h.packet ht hg hs).2.2⟩
  | icmp v packet | timeout v | multicast v k | alarm v =>
    exact ⟨n, h.other rfl hs⟩

theorem orderInv_of_reachable (ht : ValidTour tour) (hreads : launch.Reads tour)
    (h : (tourMachine launch v).ReachableBy Delivered s) : ∃ n, OrderInv tour s n := by
  refine h.invariant (I := fun s => ∃ n, OrderInv tour s n) ⟨0, .start ht hreads⟩ ?_
  intro s e s' hinv hs hg
  obtain ⟨n, hinv⟩ := hinv
  exact hinv.step ht hs hg

/-- Where the predecessor has a place the next node can receive a packet that carries the tour. -/
theorem OrderInv.exists_visit (h : OrderInv tour s n) (ht : ValidTour tour) (hn : n + 1 < tour.length)
    (hplace : 0 ≤ vm tour n ∧ vm tour n < pingSize) {packet : RtPacket m} {passage : Passage m}
    {payload : PayLoad m} (hpacket : s.sent[n]? = some packet)
    (htransmit : passage.transmit packet.payload = some payload) (hcarries : Carries tour (n + 1) payload) :
    ∃ visit j, s.step (.packet n passage) = some (s.visit n (vm tour (n + 1)) payload visit) ∧
      LegVisits tour n (s.nodes (vm tour (n + 1))) visit j := by
  have hrunning : (s.nodes (vm tour (n + 1))).exited = false := ((h.calm hn).running _).2
  obtain ⟨visit, hvisit⟩ := Tour.exists_visit ht hn hcarries hplace (s.nodes (vm tour (n + 1)))
  obtain ⟨j, hvisits⟩ := Node.onRtPacket_visits hvisit
  refine ⟨visit, j, ?_, legVisits_of_visits ht hn hcarries hvisits⟩
  rw [Network.step, hpacket, Option.bind_some, (h.next packet hpacket).dst, hrunning,
    if_neg Bool.false_ne_true, htransmit, Option.bind_some, hvisit, Option.map_some]

theorem OrderInv.received_eq_iff (h : OrderInv tour s n) :
    s.received = itinerary tour ↔ n + 1 = tour.length := by
  have hbound := h.bound
  rw [h.received, itinerary]
  constructor
  · intro he
    have hlength := congrArg List.length he
    simp only [List.length_map, List.length_range] at hlength
    omega
  · intro he
    have hn : tour.length - 1 = n := by omega
    rw [hn]

theorem OrderInv.visitedSoFar (h : OrderInv tour s n) (ht : ValidTour tour) (hplaces : HavePlaces tour) :
    VisitedSoFar tour s := by
  have hbound := h.bound
  have hfits := ht.fits
  refine ⟨?_, ?_, ?_⟩
  · obtain ⟨m, hm⟩ := Nat.exists_eq_add_of_le (Nat.le_sub_one_of_lt hbound)
    rw [h.received, itinerary, hm, List.range_add, List.map_append]
    exact List.prefix_append _ _
  · intro hne
    have hn : n + 1 < tour.length := by
      have hnot := mt h.received_eq_iff.mpr hne
      omega
    obtain ⟨packet, hpacket, hleg⟩ := h.exists_next hn
    obtain ⟨passage, received, htransmit, hsurvives⟩ := exists_survives (hleg.carries.wellFormed (by omega))
    obtain ⟨visit, j, hstep, -⟩ :=
      h.exists_visit ht hn (hplaces n hn) hpacket htransmit (hleg.carries.of_survives hsurvives)
    refine ⟨n, passage, _, ⟨h.isNew_iff.mpr (Nat.le_refl n), ?_⟩, hstep⟩
    intro packet' hpacket'
    obtain rfl : packet = packet' := Option.some.inj (hpacket.symm.trans hpacket')
    exact ⟨received, htransmit, hsurvives⟩
  · intro he k hk
    have hn := h.received_eq_iff.mp he
    rw [h.length_sent] at hk
    refine ⟨receptionAt tour k, ?_, rfl⟩
    rw [h.received]
    exact List.mem_map_of_mem (List.mem_range.mpr (by omega))

/-! ## What is read -/

/-- The numbers in front of the first 0 are a tour that is read. -/
theorem reads_takeWhile {numbers : HostArray} (h : launch.hostNumberArray = some numbers) :
    launch.Reads (numbers.toList.takeWhile (· ≠ 0)) := by
  refine ⟨numbers, h, ?_⟩
  intro q hq
  have hnumber : numbers.toList[(q : Nat)]? = some numbers[q] := by
    rw [Vector.getElem?_toList]
    exact Vector.getElem?_eq_getElem q.isLt
  rw [List.takeWhile_eq_take_findIdx_not] at hq ⊢
  have hle : numbers.toList.findIdx (fun v => !decide (v ≠ 0)) ≤ numbers.toList.length := List.findIdx_le_length
  rw [List.length_take, Nat.min_eq_left hle] at hq
  cases Nat.lt_or_eq_of_le (Nat.le_of_lt_succ hq) with
  | inl hlt => rw [vm, List.getD_eq_getElem?_getD, List.getElem?_take_of_lt hlt, hnumber, Option.getD_some]
  | inr he =>
    generalize numbers[q] = number at hnumber ⊢
    rw [he] at hnumber
    have hzero := List.findIdx_of_getElem?_eq_some hnumber
    rw [vm_of_le (by rw [List.length_take, he]; exact Nat.min_le_left _ _)]
    simpa using hzero

theorem validTour_takeWhile {numbers : HostArray} (h : launch.hostNumberArray = some numbers)
    (hfirst : numbers[0] ≠ 0) (hsecond : numbers[1] ≠ 0) :
    ValidTour (numbers.toList.takeWhile (· ≠ 0)) := by
  obtain ⟨_, hsome, hread⟩ := reads_takeWhile h
  obtain rfl := Option.some.inj (h.symm.trans hsome)
  have hfront := List.takeWhile_prefix (l := numbers.toList) (p := (· ≠ 0))
  refine ⟨?_, ?_, ?_, ?_⟩
  · by_contra hshort
    have hlength : (numbers.toList.takeWhile (· ≠ 0)).length = 0 ∨
        (numbers.toList.takeWhile (· ≠ 0)).length = 1 := by omega
    rcases hlength with hnone | hone
    · exact hfirst ((hread 0 (by rw [hnone]; decide)).trans (vm_of_le (by rw [hnone]; decide)))
    · exact hsecond ((hread 1 (by rw [hone]; decide)).trans (vm_of_le (by rw [hone]; decide)))
  · exact hfront.length_le.trans_eq numbers.length_toList
  · intro v hv
    simpa using List.mem_takeWhile_imp hv
  · intro v hv
    obtain ⟨q, hq, rfl⟩ := List.mem_iff_getElem.mp (hfront.mem hv)
    rw [numbers.length_toList] at hq
    exact launch.isInt numbers h ⟨q, hq⟩

/-- The first node that receives the packet finds the numbers that were read. -/
theorem first_reception {numbers : HostArray} (h : launch.hostNumberArray = some numbers) {k : Nat}
    {passage : Passage m} (hg : Delivered (tourMachine launch v).init (.packet k passage) s')
    (hs : (tourMachine launch v).init.step (.packet k passage) = some s') :
    ∃ r, s'.received = [r] ∧ r.previousVmNum = numbers[0] ∧ r.node = numbers[1] := by
  obtain ⟨payload, hpayload, hidx, -, -, hslots⟩ := startPayLoad_eq launch.packet numbers
  have hread (q : Fin totalVmSize) : slotInt (payload.hostArray.get q) = numbers[q] := by
    rw [hslots, slotsOf_get, slotInt_slotOf (launch.isInt numbers h q)]
  cases Network.step_effect hs with
  | @visits _ _ packet received visit j hpacket hrunning htransmit hvisits =>
    obtain ⟨received', hreceived, hsurvives⟩ := hg.2 packet hpacket
    obtain rfl : received = received' := Option.some.inj (htransmit.symm.trans hreceived)
    have hsent : sendRTpacket payload = some packet := by
      have hmem := List.mem_of_getElem? hpacket
      simpa only [tourMachine, Network.start, h, hpayload, Option.bind_some, Option.mem_toList] using hmem
    obtain ⟨i, j, hi, hj, rfl⟩ := sendRTpacket_cases hsent
    obtain ⟨q, hq, hprevious⟩ := hvisits.previous
    refine ⟨_, rfl, ?_, ?_⟩
    · obtain rfl : q = 0 := by
        have hq' := index?_eq_some hq
        rw [hsurvives.nextIpIdx, hidx] at hq'
        exact Fin.ext (by simpa using hq')
      exact hprevious.trans ((congrArg (fun slots => slotInt (slots.get 0)) hsurvives.hostArray).trans (hread 0))
    · obtain rfl : j = 1 := by
        have hj' := index?_eq_some hj
        rw [hidx] at hj'
        exact Fin.ext (by simpa using hj')
      exact hread 1
  | other he _ => cases he

/-- The itinerary tells the tour. -/
theorem itinerary_injective {tour' : List Int} (h : 2 ≤ tour.length) (h' : 2 ≤ tour'.length)
    (he : itinerary tour = itinerary tour') : tour = tour' := by
  have hlength : tour.length = tour'.length := by
    have hsame := congrArg List.length he
    simp only [itinerary, List.length_map, List.length_range] at hsame
    omega
  rw [itinerary, itinerary, hlength] at he
  have hreception (i : Nat) (hi : i < tour'.length - 1) : receptionAt tour i = receptionAt tour' i :=
    List.map_inj_left.mp he i (List.mem_range.mpr hi)
  have hvm (i : Nat) (hi : i < tour'.length) : vm tour i = vm tour' i := by
    cases i with
    | zero => exact congrArg Reception.previousVmNum (hreception 0 (by omega))
    | succ i => exact congrArg Reception.node (hreception i (by omega))
  refine List.ext_getElem hlength ?_
  intro i hi hi'
  simpa [vm, hi, hi'] using hvm i hi'

/-- Where the tour goes on from every state, what is read is visited as far as one likes. -/
theorem exists_orderInv {read : List Int} (ht : ValidTour read) (hreads : launch.Reads read)
    (hall : ∀ s, (tourMachine launch v).ReachableBy Delivered s → VisitedSoFar tour s)
    (hn : n + 1 ≤ read.length) :
    ∃ s, (tourMachine launch v).ReachableBy Delivered s ∧ OrderInv read s n ∧
      ∀ i < n, 0 ≤ vm read i ∧ vm read i < pingSize := by
  induction n with
  | zero => exact ⟨_, .init, .start ht hreads, fun i hi => absurd hi (Nat.not_lt_zero i)⟩
  | succ n ih =>
    obtain ⟨s, hs, hinv, hplaces⟩ := ih (by omega)
    have hne : s.received ≠ itinerary tour := by
      intro he
      -- there is a packet on the way, which has not arrived
      have hlt : n < s.sent.length := by
        rw [hinv.length_sent]
        omega
      obtain ⟨r, hr, hindex⟩ := (hall s hs).stops he n hlt
      exact hinv.isNew_iff.mpr (Nat.le_refl n) r hr hindex
    obtain ⟨k, passage, s', hg, hstep⟩ := (hall s hs).goesOn hne
    obtain ⟨-, hplace, hinv'⟩ := hinv.packet ht hg hstep
    have hnext : (tourMachine launch v).step s (.packet k passage) = some s' := hstep
    refine ⟨s', hs.step hnext hg, hinv', ?_⟩
    intro i hi
    cases Nat.lt_or_eq_of_le (Nat.le_of_lt_succ hi) with
    | inl hlt => exact hplaces i hlt
    | inr he => exact he ▸ hplace

/-- A tour that is visited is the one that is read, and its nodes have places. -/
theorem reads_of_visited (ht : ValidTour tour)
    (hall : ∀ s, (tourMachine launch v).ReachableBy Delivered s → VisitedSoFar tour s) :
    launch.Reads tour ∧ HavePlaces tour := by
  have hleg := ht.leg
  have hitinerary : itinerary tour =
      receptionAt tour 0 :: (List.range (tour.length - 2)).map (receptionAt tour ∘ Nat.succ) := by
    have hlength : tour.length - 1 = tour.length - 2 + 1 := by omega
    rw [itinerary, hlength, List.range_succ_eq_map, List.map_cons, List.map_map]
  obtain ⟨k, passage, s', hg, hstep⟩ := (hall _ .init).goesOn (by
    rw [hitinerary]
    exact (List.cons_ne_nil _ _).symm)
  have hfirst : (tourMachine launch v).step (tourMachine launch v).init (.packet k passage) = some s' := hstep
  have hs' := Machine.ReachableBy.init.step hfirst hg
  cases hnumbers : launch.hostNumberArray with
  | none =>
    -- nothing was sent
    cases Network.step_effect hstep with
    | visits hpacket =>
      simp only [tourMachine, Network.start, hnumbers, Option.bind_none, Option.toList_none] at hpacket
      cases hpacket
    | other he _ => cases he
  | some numbers =>
    obtain ⟨r, hr, hprevious, hnode⟩ := first_reception hnumbers hg hstep
    obtain ⟨rest, hrest⟩ := (hall s' hs').order
    rw [hr, hitinerary, List.cons_append] at hrest
    obtain rfl := (List.cons.inj hrest).1
    have hread := validTour_takeWhile hnumbers
      (hprevious ▸ mt ht.vm_eq_zero_iff.mp (by omega)) (hnode ▸ mt ht.vm_eq_zero_iff.mp (by omega))
    have hreads := reads_takeWhile hnumbers
    generalize numbers.toList.takeWhile (· ≠ 0) = read at hread hreads
    have hlegRead := hread.leg
    obtain ⟨s, hs, hinv, hplaces⟩ := exists_orderInv (n := read.length - 1) hread hreads hall (by omega)
    have hend : s.received = itinerary tour := by
      by_contra hne
      obtain ⟨k, passage, s', hg, hstep⟩ := (hall s hs).goesOn hne
      have hmore := (hinv.packet hread hg hstep).1
      omega
    obtain rfl : read = tour :=
      itinerary_injective hlegRead hleg ((hinv.received_eq_iff.mpr (by omega)).symm.trans hend)
    exact ⟨hreads, fun i hi => hplaces i (by omega)⟩

/-- **The order of a tour.** When no packet is lost, none arrives twice and each arrives as it was sent, a
tour visits its nodes in order and stops, whatever else happens, exactly when the starting node reads its
numbers, and all nodes but the last have a place in the array of those that are pinged. -/
theorem visitsInOrder_iff (ht : ValidTour tour) :
    (∀ s, (tourMachine launch (vm tour 0)).ReachableBy Delivered s → VisitedSoFar tour s) ↔
      launch.Reads tour ∧ HavePlaces tour := by
  constructor
  · exact reads_of_visited ht
  · intro h s hs
    obtain ⟨n, hinv⟩ := orderInv_of_reachable ht h.1 hs
    exact hinv.visitedSoFar ht h.2

theorem validTour_four : ValidTour [1, 2, 3, 2] := by decide

/-- From node 1 over 2 to 3 and back to 2. -/
theorem visitsInOrder_iff_four :
    (∀ s, (tourMachine (Launch.ofTour (toAndFro 0) validTour_four) 1).ReachableBy Delivered s →
      VisitedSoFar [1, 2, 3, 2] s) ↔
    (Launch.ofTour (toAndFro 0) validTour_four).Reads [1, 2, 3, 2] ∧ HavePlaces [1, 2, 3, 2] :=
  visitsInOrder_iff validTour_four

theorem validTour_million : ValidTour [1, 1000000, 3] := by decide

/-- Where nothing is read nothing is sent; and where the tour is read, node 1000000 sends the packet on to
node 3, which looks for a place for it far behind its array. -/
theorem not_visitsInOrder :
    (ValidTour [1, 2, 3] ∧
      ¬ ∀ s, (tourMachine (Launch.failed (toAndFro 0)) 1).ReachableBy Delivered s → VisitedSoFar [1, 2, 3] s) ∧
    (Launch.ofTour (toAndFro 0) validTour_million).Reads [1, 1000000, 3] ∧
      ¬ ∀ s, (tourMachine (Launch.ofTour (toAndFro 0) validTour_million) 1).ReachableBy Delivered s →
        VisitedSoFar [1, 1000000, 3] s := by
  refine ⟨⟨by decide, ?_⟩, Launch.ofTour_reads _ _, ?_⟩
  · intro hall
    obtain ⟨⟨numbers, hnumbers, -⟩, -⟩ := reads_of_visited (by decide) hall
    cases hnumbers
  · intro hall
    exact absurd ((reads_of_visited validTour_million hall).2 1 (by decide)) (by decide)

end Sockets.Tour
