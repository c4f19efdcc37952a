/-
A tour whose end is cut off. The last 20 bytes of a packet are not sent, and
a receiver whose buffer has zeroes there finds the tour ended where they
begin: what goes on from there is a shorter tour, with a last node of its
own. That node announces the end as soon as it has pinged its predecessor
five times, though the tour has not reached its last position, and it is not
the last node (`not_ended_once`).
-/
import Sockets.Tour.Ended

namespace Sockets.Tour

open Wire

variable {m : DataModel} {tour : List Int} {s s' : Network m} {n : Nat} {launch : Launch m} {v w : Int}

theorem tourMachine_step (e : TourEvent m) : (tourMachine launch v).step s e = s.step e := rfl

theorem exec_snoc {r : Network m} {e : TourEvent m} {es : List (TourEvent m)}
    (h : (tourMachine launch v).exec s es = some r) (hs : r.step e = some s') :
    (tourMachine launch v).exec s (es ++ [e]) = some s' :=
  Machine.exec_append.mpr ⟨r, h, Machine.exec_cons_iff.mpr ⟨s', hs, rfl⟩⟩

/-- A node that has a predecessor to ping is about it. -/
def Network.Primed (s : Network m) : Prop := ∀ v k, (s.nodes v).Pings k → (s.nodes v).Primed

theorem primed_start : (tourMachine launch v).init.Primed := by
  intro w k hpings
  have hnone : ((tourMachine launch v).init.nodes w).ifPing = Vector.replicate pingSize 0 := by
    simp only [tourMachine, Network.start, Function.update_apply]
    split <;> rfl
  rw [Node.Pings, hnone, Fin.getElem_fin, Vector.getElem_replicate] at hpings
  exact absurd rfl hpings

theorem Network.Primed.visit (h : s.Primed) {k : Nat} {payload : PayLoad m} {visit : Visit m} {j : Fin pingSize}
    (hnoted : Noted (s.nodes v) j visit.node) : (s.visit k v payload visit).Primed := by
  intro w k hpings
  rw [Network.visit_nodes] at hpings ⊢
  split at hpings
  next he =>
    rw [if_pos he]
    exact hnoted.primed (h v j)
  next hne =>
    rw [if_neg hne]
    exact h w k hpings

/-- The next packet arrives at a node whose buffer keeps the tour. -/
theorem OrderInv.exists_leg (h : OrderInv tour s n) (ht : ValidTour tour) (hn : n + 1 < tour.length)
    (hplaces : HavePlaces tour) {passage : Passage m} (hkeeps : passage.Keeps tour) (hprimed : s.Primed) :
    ∃ payload visit j, s.step (.packet n passage) = some (s.visit n (vm tour (n + 1)) payload visit) ∧
      LegVisits tour n (s.nodes (vm tour (n + 1))) visit j ∧
      OrderInv tour (s.visit n (vm tour (n + 1)) payload visit) (n + 1) ∧
      (s.visit n (vm tour (n + 1)) payload visit).Primed := by
  have hfits := ht.fits
  obtain ⟨packet, hpacket, hleg⟩ := h.exists_next hn
  obtain ⟨payload, htransmit, hcarries⟩ := hleg.carries.transmit (by omega) hkeeps
  obtain ⟨visit, j, hstep, hvisit⟩ := h.exists_visit ht hn (hplaces n hn) hpacket htransmit hcarries
  exact ⟨payload, visit, j, hstep, hvisit, h.visit hn hcarries.nextIpIdx hvisit, hprimed.visit hvisit.noted⟩

/-- The next `k` legs. -/
theorem OrderInv.exists_legs (launch : Launch m) (v : Int) (h : OrderInv tour s n) (ht : ValidTour tour)
    (hplaces : HavePlaces tour) {passage : Passage m} (hkeeps : passage.Keeps tour) (hprimed : s.Primed)
    {k : Nat} (hk : n + k + 1 ≤ tour.length) :
    ∃ es s', (tourMachine launch v).exec s es = some s' ∧ OrderInv tour s' (n + k) ∧ s'.Primed := by
  induction k with
  | zero => exact ⟨[], s, rfl, h, hprimed⟩
  | succ k ih =>
    obtain ⟨es, s', hexec, hinv, hprimed'⟩ := ih (by omega)
    obtain ⟨payload, visit, j, hstep, -, hnext, hprimed''⟩ :=
      hinv.exists_leg ht (by omega) hplaces hkeeps hprimed'
    exact ⟨_, _, exec_snoc hexec hstep, hnext, hprimed''⟩

/-- The node runs, takes itself for the last one, and pings. -/
structure Node.Ending (node : Node) : Prop where
  running : node.exited = false
  last : node.ifLastNode = 1
  primed : node.Primed

/-- A tour gets to its end. -/
theorem OrderInv.exists_end (launch : Launch m) (v : Int) (h : OrderInv tour s n) (ht : ValidTour tour)
    (hn : n + 1 < tour.length) (hplaces : HavePlaces tour) {passage : Passage m} (hkeeps : passage.Keeps tour)
    (hprimed : s.Primed) :
    ∃ es s', (tourMachine launch v).exec s es = some s' ∧ (s'.nodes (lastVm tour)).Ending := by
  obtain ⟨k, hk⟩ := Nat.exists_eq_add_of_le (show n ≤ tour.length - 2 by omega)
  obtain ⟨es, s', hexec, hinv, hprimed'⟩ :=
    h.exists_legs launch v ht hplaces hkeeps hprimed (k := k) (by omega)
  rw [← hk] at hinv
  have hlt : tour.length - 2 + 1 < tour.length := by omega
  obtain ⟨payload, visit, j, hstep, hvisit, -, -⟩ := hinv.exists_leg ht hlt hplaces hkeeps hprimed'
  have hlast : tour.length - 2 + 1 = tour.length - 1 := by omega
  refine ⟨_, _, exec_snoc hexec hstep, ?_⟩
  rw [lastVm, ← hlast, Network.visit_nodes, if_pos rfl]
  exact {
    running := hvisit.noted.exited.trans ((hinv.calm hlt).running _).2
    last := (hvisit.last (by omega)).1
    primed := hvisit.noted.primed (hprimed' _ j) }

/-! ## Replies -/

/-- After `k` replies the counter has gone up by as many. -/
theorem Node.Ending.exists_replies (launch : Launch m) (v : Int) (h : (s.nodes w).Ending) {j : Fin pingSize}
    (hj : index? pingSize (s.nodes w).previousVmNumStatic = some j) (k : Nat) :
    ∃ es s', (tourMachine launch v).exec s es = some s' ∧ (s'.nodes w).Ending ∧
      index? pingSize (s'.nodes w).previousVmNumStatic = some j ∧
      (s'.nodes w).counter j = (s.nodes w).counter j + k := by
  induction k with
  | zero => exact ⟨[], s, rfl, h, hj, (Int.add_zero _).symm⟩
  | succ k ih =>
    obtain ⟨es, s', hexec, hending, hj', hcounter⟩ := ih
    have hstep : s'.step (.icmp w (echoReply (s'.nodes w).previousVmNumStatic)) =
        some (s'.put w ((s'.nodes w).counted j)) := by
      rw [Network.step, hending.running, if_neg Bool.false_ne_true, Node.procV4_echoReply _ hj', Option.map_some]
    have hnode : (s'.put w ((s'.nodes w).counted j)).nodes w = (s'.nodes w).counted j := by
      rw [Network.put_nodes, if_pos rfl]
    refine ⟨_, _, exec_snoc hexec hstep, ?_, ?_, ?_⟩
    · rw [hnode]
      exact ⟨hending.running, hending.last, hending.primed⟩
    · rw [hnode]
      exact hj'
    · rw [hnode, Node.counter_counted, hcounter, Int.add_assoc, Int.natCast_succ]

/-- A node that takes itself for the last one announces the end, once its counter is at five. -/
theorem Node.Ending.exists_announcement (launch : Launch m) (v : Int) (h : (s.nodes w).Ending) :
    ∃ es r s', (tourMachine launch v).exec s es = some r ∧ r.step (.timeout w) = some s' ∧
      s'.announcements ≠ r.announcements := by
  obtain ⟨j, hj⟩ := h.primed.2
  obtain ⟨es, r, hexec, hending, hj', hcounter⟩ :=
    h.exists_replies launch v hj (5 - (s.nodes w).counter j).toNat
  have hfive : (r.nodes w).counter j ≥ 5 := by omega
  have htimeout : (r.nodes w).onTimeout w =
      some ({ r.nodes w with pingSwitch := -1 }, .notice (.tourHasEnded w)) := by
    rw [Node.onTimeout, if_pos hending.primed.1, hj', Option.map_some, if_pos ⟨hfive, hending.last⟩]
  refine ⟨es, r, (r.put w { r.nodes w with pingSwitch := -1 }).notify w (.tourHasEnded w), hexec, ?_, ?_⟩
  · rw [Network.step, hending.running, if_neg Bool.false_ne_true, htimeout, Option.map_some]
  · rw [Network.announcements_notify]
    have hput : (r.put w { r.nodes w with pingSwitch := -1 }).announcements = r.announcements := rfl
    rw [hput]
    exact fun he => by simpa [Notice.ends] using congrArg List.length he

/-! ## A tour of seventy nodes -/

/-- To and fro between nodes 1 and 2, and at last from 1 to 3. -/
def longTour : List Int := (List.replicate 34 [1, 2]).flatten ++ [1, 3]

/-- What is left of it where the end of the packet is zero. -/
def shortTour : List Int := (List.replicate 34 [1, 2]).flatten

theorem validTour_long : ValidTour longTour := by decide

theorem validTour_short : ValidTour shortTour := by decide

def longLaunch : Launch .lp64 := .ofTour (toAndFro 0) validTour_long

theorem havePlaces_short : HavePlaces shortTour := by
  have hplaces : ∀ i < 67, 0 ≤ vm shortTour i ∧ vm shortTour i < pingSize := by decide
  exact fun i hi => hplaces i (Nat.lt_of_succ_lt_succ hi)

theorem zeroPassage_keeps : zeroPassage.Keeps shortTour := by
  unfold Wire.Passage.Keeps
  decide +kernel

/-- The bytes of the long tour that are sent, and zeroes, are those of the short one. -/
theorem cellBytes_short :
    ((cellBytes (slotsOf .lp64 (hostNumbers longTour))).take (totalVmSize * 8 - sizeofIp) ++
      zeroPassage.stale).take (69 * 8) = (cellBytes (slotsOf .lp64 (hostNumbers shortTour))).take (69 * 8) := by
  decide +kernel

/-- The first packet of the long tour arrives as one of the short tour. -/
theorem carries_short {packet : RtPacket .lp64} (h : IsLeg longTour 0 packet) :
    ∃ payload, zeroPassage.transmit packet.payload = some payload ∧ Carries shortTour 1 payload := by
  obtain ⟨payload, htransmit, hcells, hip, hport, hidx⟩ :=
    transmit_eq (h.carries.wellFormed (by decide)) zeroPassage
  have hslots : packet.payload.hostArray = slotsOf .lp64 (hostNumbers longTour) := by
    refine List.Vector.ext ?_
    intro q
    have hq : (q : Nat) < longTour.length + 1 := Nat.lt_succ_of_lt q.isLt
    rw [h.carries.spells q hq, spells_hostNumbers longTour q hq]
  have hsame : (cellBytes payload.hostArray).take (69 * 8) =
      (cellBytes (slotsOf .lp64 (hostNumbers shortTour))).take (69 * 8) := by
    rw [hcells, hslots]
    exact cellBytes_short
  refine ⟨payload, htransmit, ?_, nul_mem_of_stringOf_eq hport h.carries.port,
    nul_mem_of_stringOf_eq hip h.carries.ip, ?_⟩
  · rw [hidx, h.carries.nextIpIdx]
    rfl
  · intro q hq
    have hget : payload.hostArray.get q = (slotsOf .lp64 (hostNumbers shortTour)).get q :=
      take_cellBytes_eq_iff.mp hsame q hq
    rw [hget, spells_hostNumbers shortTour q hq]

/-- From the first node on it is the short tour that goes on. -/
theorem exists_cutOff : ∃ s, (tourMachine longLaunch 1).exec (tourMachine longLaunch 1).init
    [.packet 0 zeroPassage] = some s ∧ OrderInv shortTour s 1 ∧ s.Primed := by
  obtain ⟨packet, hsent, hleg⟩ := start_sent validTour_long (Launch.ofTour_reads (toAndFro 0) validTour_long) 1
  obtain ⟨payload, htransmit, hcarries⟩ := carries_short hleg
  have hpacket : (tourMachine longLaunch 1).init.sent[0]? = some packet := congrArg (·[0]?) hsent
  have hstart : Progress shortTour (tourMachine longLaunch 1).init 0 := .start (by decide) hsent rfl
  obtain ⟨visit, hvisit⟩ := exists_visit validTour_short (by decide) hcarries (havePlaces_short 0 (by decide))
    ((tourMachine longLaunch 1).init.nodes (vm shortTour 1))
  obtain ⟨j, hvisits⟩ := Node.onRtPacket_visits hvisit
  have hlegVisits := legVisits_of_visits validTour_short (by decide) hcarries hvisits
  have hrunning : ((tourMachine longLaunch 1).init.nodes (vm shortTour 1)).exited = false :=
    (start_nodes rfl 1 (vm shortTour 1)).2.2
  have hstep : (tourMachine longLaunch 1).step (tourMachine longLaunch 1).init (.packet 0 zeroPassage) =
      some ((tourMachine longLaunch 1).init.visit 0 (vm shortTour 1) payload visit) := by
    have hdst : packet.dst = vm shortTour 1 := hleg.dst.trans (by decide)
    rw [tourMachine_step, Network.step, hpacket, Option.bind_some, hdst, hrunning,
      if_neg Bool.false_ne_true, htransmit, Option.bind_some, hvisit, Option.map_some]
  exact ⟨_, Machine.exec_cons_iff.mpr ⟨_, hstep, Machine.exec_nil _⟩,
    hstart.visit (by decide) hcarries.nextIpIdx hlegVisits, primed_start.visit hlegVisits.noted⟩

end Sockets.Tour
