/-
The end of the tour. A node announces it at a timeout, when it is the last
one and has pinged its latest predecessor five times, and turns its pings
off. What could turn them on again is a packet from a predecessor it has not
pinged yet. There is none: the packet of the last leg was sent after those
of all the other legs had arrived, so every predecessor that a packet can
name, late or twice, has been noted where it arrives.

That holds as long as the nodes read the numbers of the tour in the packets
(`ended_once`). The end of a long tour is not sent: where the receiver's
buffer has zeroes in its place, a node takes itself for the last one too
early, and announces the end (`not_ended_once`).
-/
import Sockets.Tour.Itinerary

namespace Sockets.Tour

open Wire

variable {m : DataModel}

/-- Where a packet arrives, the receiver's buffer keeps the tour. -/
def Kept (tour : List Int) (_ : Network m) (e : TourEvent m) (_ : Network m) : Prop :=
  match e with
  | .packet _ passage => passage.Keeps tour
  | _ => True

/-- The packet of leg `i` has arrived. -/
def Network.Reached (s : Network m) (i : Nat) : Prop := ∃ r ∈ s.received, r.nextIpIdx = (i + 1 : Nat)

def lastVm (tour : List Int) : Int := vm tour (tour.length - 1)

/-- The end of the tour is announced, if at all, at a timeout of the last node, for the first time,
after the packet has reached the last position, and with the counter at five. -/
def EndedRight (tour : List Int) (s : Network m) (e : TourEvent m) (s' : Network m) : Prop :=
  s'.announcements = s.announcements ∨
    (s.announcements = [] ∧ e = .timeout (lastVm tour) ∧ s.Reached (tour.length - 2) ∧
      (s.nodes (lastVm tour)).CounterReady ∧
      s'.announcements = [{ sender := lastVm tour, group := (s.nodes (lastVm tour)).group,
                            notice := .tourHasEnded (lastVm tour) }])

/-- Packets are those of legs whose earlier legs have arrived; where a leg has arrived, its
predecessor is noted; and once the end is announced the last node has its pings off. -/
structure TourInv (tour : List Int) (s : Network m) : Prop where
  sent : ∀ packet ∈ s.sent, ∃ i, i + 1 < tour.length ∧ IsLeg tour i packet ∧ ∀ h < i, s.Reached h
  reached : ∀ i, s.Reached i → i + 1 < tour.length ∧ (∀ h < i, s.Reached h) ∧
    ∃ j, index? pingSize (vm tour i) = some j ∧ (s.nodes (vm tour (i + 1))).Pings j
  last : ∀ v, (s.nodes v).ifLastNode = 1 → v = lastVm tour ∧ s.Reached (tour.length - 2)
  ended : s.announcements ≠ [] → s.Reached (tour.length - 2) ∧ (s.nodes (lastVm tour)).pingSwitch ≠ 1

variable {tour : List Int} {s s' : Network m} {e : TourEvent m} {launch : Launch m} {v : Int}

theorem TourInv.quiet (h : TourInv tour s) (hs : s.Quiet s') : TourInv tour s' := by
  have hreached (i : Nat) : s'.Reached i ↔ s.Reached i := by rw [Network.Reached, Network.Reached, hs.received]
  refine ⟨?_, ?_, ?_, ?_⟩
  · simpa only [hs.sent, hreached] using h.sent
  · simpa only [Node.Pings, hs.ifPing, hreached] using h.reached
  · simpa only [hs.ifLastNode, hreached] using h.last
  · rw [hs.announcements, hreached]
    intro hended
    obtain ⟨hlast, hoff⟩ := h.ended hended
    exact ⟨hlast, fun hon => hoff (hs.pingSwitch _ hon)⟩

/-- When the last leg has arrived every leg has. -/
theorem TourInv.reached_of_last (h : TourInv tour s) (hlast : s.Reached (tour.length - 2)) {i : Nat}
    (hi : i + 1 < tour.length) : s.Reached i := by
  cases Nat.lt_or_eq_of_le hi with
  | inl hlt => exact (h.reached _ hlast).2.1 i (by omega)
  | inr hend =>
    have he : tour.length - 2 = i := by omega
    exact he ▸ hlast

section Visit

variable {i k : Nat} {payload : PayLoad m} {visit : Visit m} {j : Fin pingSize}

theorem reached_visit (hidx : payload.nextIpIdx = (i + 1 : Nat)) {n : Nat} :
    (s.visit k v payload visit).Reached n ↔ s.Reached n ∨ n = i := by
  have hindex : payload.nextIpIdx = (n + 1 : Nat) ↔ n = i := by
    rw [hidx]
    omega
  simp only [Network.Reached, Network.visit, Visit.reception, List.mem_append, List.mem_singleton,
    or_and_right, exists_or, exists_eq_left, hindex]

/-- Where a leg has arrived its predecessor stays noted. -/
theorem noted_visit (hnoted : Noted (s.nodes v) j visit.node) {w : Int} {place : Fin pingSize}
    (h : (s.nodes w).Pings place) : ((s.visit k v payload visit).nodes w).Pings place := by
  rw [Network.visit_nodes]
  split
  next he => exact hnoted.kept place (he ▸ h)
  next => exact h

/-- The packet of leg `i` arrives. -/
theorem TourInv.arrives (h : TourInv tour s) (ht : ValidTour tour) (hi : i + 1 < tour.length)
    (hearlier : ∀ h < i, s.Reached h) (hidx : payload.nextIpIdx = (i + 1 : Nat))
    (hvisit : LegVisits tour i (s.nodes (vm tour (i + 1))) visit j) :
    TourInv tour (s.visit k (vm tour (i + 1)) payload visit) := by
  have hleg := ht.leg
  have hreached {n : Nat} : (s.visit k (vm tour (i + 1)) payload visit).Reached n ↔ s.Reached n ∨ n = i :=
    reached_visit hidx
  refine ⟨?_, ?_, ?_, ?_⟩
  · intro packet hm
    rcases List.mem_append.mp hm with hm | hm
    · obtain ⟨n, hn, hpacket, hbefore⟩ := h.sent packet hm
      exact ⟨n, hn, hpacket, fun m hlt => hreached.mpr (.inl (hbefore m hlt))⟩
    · -- what is sent on is the packet of the next leg
      cases Nat.lt_or_eq_of_le hi with
      | inl hlt =>
        obtain ⟨-, packet', hforwarded, hnext⟩ := hvisit.notLast hlt
        rw [hforwarded, Option.toList_some, List.mem_singleton] at hm
        refine ⟨i + 1, hlt, hm ▸ hnext, ?_⟩
        intro m hm'
        cases Nat.lt_or_eq_of_le (Nat.le_of_lt_succ hm') with
        | inl hlt => exact hreached.mpr (.inl (hearlier m hlt))
        | inr he => exact hreached.mpr (.inr he)
      | inr he =>
        obtain ⟨-, hforwarded⟩ := hvisit.last he
        rw [hforwarded] at hm
        cases hm
  · intro n hn
    cases hreached.mp hn with
    | inl hold =>
      obtain ⟨hlength, hbefore, place, hplace, hpinged⟩ := h.reached n hold
      exact ⟨hlength, fun m hlt => hreached.mpr (.inl (hbefore m hlt)), place, hplace,
        noted_visit hvisit.noted hpinged⟩
    | inr he =>
      subst he
      refine ⟨hi, fun m hlt => hreached.mpr (.inl (hearlier m hlt)), j, hvisit.place, ?_⟩
      rw [Network.visit_nodes, if_pos rfl]
      exact hvisit.noted.noted
  · intro v hlast
    rw [Network.visit_nodes] at hlast
    split at hlast
    next he =>
      cases Nat.lt_or_eq_of_le hi with
      | inl hlt =>
        rw [(hvisit.notLast hlt).1] at hlast
        obtain ⟨hv, hend⟩ := h.last _ hlast
        exact ⟨he.trans hv, hreached.mpr (.inl hend)⟩
      | inr hend =>
        have hv : i + 1 = tour.length - 1 := by omega
        exact ⟨by rw [he, lastVm, hv], hreached.mpr (.inr (by omega))⟩
    next =>
      obtain ⟨hv, hend⟩ := h.last v hlast
      exact ⟨hv, hreached.mpr (.inl hend)⟩
  · intro hended
    obtain ⟨hend, hoff⟩ := h.ended hended
    refine ⟨hreached.mpr (.inl hend), ?_⟩
    rw [Network.visit_nodes]
    split
    next he =>
      -- the leg has arrived before, so nothing is new to the node
      obtain ⟨-, -, place, hplace, hpinged⟩ := h.reached i (h.reached_of_last hend hi)
      obtain rfl : j = place := Option.some.inj (hvisit.place.symm.trans hplace)
      rw [hvisit.noted.pingSwitch hpinged, ← he]
      exact hoff
    next => exact hoff

end Visit

theorem TourInv.step (h : TourInv tour s) (ht : ValidTour tour) (hs : s.step e = some s')
    (hkept : Kept tour s e s') : EndedRight tour s e s' ∧ TourInv tour s' := by
  have hleg := ht.leg
  cases Network.step_effect hs with
  | @visits k passage packet payload visit j hk hrunning htransmit hvisits =>
    obtain ⟨i, hi, hpacket, hearlier⟩ := h.sent packet (List.mem_of_getElem? hk)
    obtain ⟨received, hreceived, hcarries⟩ :=
      hpacket.carries.transmit (by have hfits := ht.fits; omega) hkept
    obtain rfl : payload = received := Option.some.inj (htransmit.symm.trans hreceived)
    have hvisit := legVisits_of_visits ht hi hcarries hvisits
    rw [hpacket.dst] at hvisit ⊢
    exact ⟨.inl rfl, h.arrives ht hi hearlier hcarries.nextIpIdx hvisit⟩
  | @ends v hswitch hcounter hlast =>
    obtain ⟨rfl, hreached⟩ := h.last v hlast
    have hfirst : s.announcements = [] := by
      by_contra hended
      exact (h.ended hended).2 hswitch
    refine ⟨.inr ⟨hfirst, rfl, hreached, hcounter, ?_⟩, ?_⟩
    · have hput (node : Node) : (s.put (lastVm tour) node).announcements = [] := hfirst
      rw [Network.announcements_notify, hput, Network.put_nodes, if_pos rfl]
      rfl
    · have hquiet : s.Quiet (s.put (lastVm tour) { s.nodes (lastVm tour) with pingSwitch := -1 }) :=
        .put rfl rfl (fun hon => by cases hon) fun hcalm => hcalm.running _
      have hput := h.quiet hquiet
      refine ⟨hput.sent, hput.reached, hput.last, fun _ => ⟨hreached, ?_⟩⟩
      show ((s.put (lastVm tour) _).nodes (lastVm tour)).pingSwitch ≠ 1
      rw [Network.put_nodes, if_pos rfl]
      show (-1 : Int) ≠ 1
      decide
  | other _ hquiet => exact ⟨.inl hquiet.announcements, h.quiet hquiet⟩

theorem TourInv.start (ht : ValidTour tour) (hreads : launch.Reads tour) :
    TourInv tour (tourMachine launch v).init := by
  have hleg := ht.leg
  have hnone (i : Nat) : ¬ (tourMachine launch v).init.Reached i := by
    intro hr
    obtain ⟨r, hr, -⟩ := hr
    cases hr
  refine ⟨?_, fun i hi => absurd hi (hnone i), ?_, fun hended => absurd rfl hended⟩
  · obtain ⟨packet, hsent, hpacket⟩ := start_sent ht hreads v
    rw [tourMachine, hsent]
    intro packet' hm
    exact ⟨0, by omega, List.mem_singleton.mp hm ▸ hpacket, fun n hn => absurd hn (Nat.not_lt_zero n)⟩
  · intro w hw
    rw [tourMachine, (start_nodes hreads.isSome v w).1] at hw
    cases hw

/-- A tour that is sent whole is kept wherever it arrives. -/
theorem along_kept_of_short
    (h : (tour.length + 1) * m.pointerSize ≤ totalVmSize * m.pointerSize - sizeofIp) {es : List (TourEvent m)} :
    (tourMachine launch v).Along (Kept tour) s es := by
  refine Machine.Along.of_step (I := fun _ => True) ?_ trivial
  intro s e s' _ _
  refine ⟨?_, trivial⟩
  cases e with
  | packet k passage => exact Wire.Passage.keeps_of_short h
  | icmp v packet | timeout v | multicast v k | alarm v => trivial

/-- Both legs, five replies to the last node, and two timeouts there; in between the packet of the
second leg arrives again. -/
def wholeTour : List (TourEvent .lp64) :=
  [.packet 0 zeroPassage, .packet 1 zeroPassage] ++ List.replicate 5 (.icmp 3 (echoReply 2)) ++
    [.timeout 3, .packet 1 zeroPassage, .timeout 3]

theorem validTour_three : ValidTour [1, 2, 3] := by decide

def threeLaunch : Launch .lp64 := .ofTour (toAndFro 0) validTour_three

example : (((tourMachine threeLaunch 1).exec (tourMachine threeLaunch 1).init wholeTour).map
    fun s => s.announcements.length) = some 1 := by decide +kernel

end Sockets.Tour
