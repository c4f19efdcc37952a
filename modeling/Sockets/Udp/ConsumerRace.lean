/-
The race on `last_seg_acked` between the receive thread and the consumer.
The receive thread tests `seg.sequence_num > last_seg_acked` before it
takes the mutex; by the time it inserts, the consumer may have printed the
segment. A segment so inserted stays at the head of the window, and the
consumer, which waits for `last_seg_acked + 1`, never prints again.

The client is reduced to the three atomic steps the race is about; segments
arrive in any order, any number of times.
-/
import Sockets.Udp.RecvWindow

namespace Sockets.Udp

/-- The shared window, and the segment that passed the test and waits for the mutex. -/
structure Race where
  window : RecvWindow
  tested : Option Segment
deriving DecidableEq

inductive RaceEvent
  | test (seg : Segment)
  | insert
  | drain
deriving DecidableEq

def raceMachine (maxWindowSize : Int) : Machine Race RaceEvent where
  init := { window := .start, tested := none }
  step s
    | .test seg =>
      match s.tested with
      | some _ => none
      | none => some (if seg.sequenceNum > s.window.lastSegAcked then { s with tested := some seg } else s)
    | .insert => s.tested.map fun seg => { window := s.window.insert maxWindowSize seg, tested := none }
    | .drain => some { s with window := s.window.drain }

/-- No node of the window has been printed already. -/
def RecvWindow.NoStale (w : RecvWindow) : Prop := ∀ node ∈ w.recvBase, w.lastSegAcked < node.sequenceNum

/-- At the insertion, the segment is still past `last_seg_acked` (or there
is no room for it). -/
def StillNew (maxWindowSize : Int) (s : Race) (e : RaceEvent) (_ : Race) : Prop :=
  e = .insert → ∀ seg, s.tested = some seg →
    s.window.lastSegAcked < seg.sequenceNum ∨ maxWindowSize ≤ s.window.numSegInBuf

namespace RecvWindow

variable {w w' : RecvWindow} {seg : Segment} {maxWindowSize : Int}

/-- In a sorted window, what is behind the printed head is beyond it. -/
theorem noStale_printHead (hs : SortedBy Segment.sequenceNum w.recvBase)
    (hp : w.printHead = some w') : w'.NoStale ∧ SortedBy Segment.sequenceNum w'.recvBase := by
  obtain ⟨node, rest, hb, hn, rfl⟩ := printHead_eq_some hp
  rw [hb] at hs
  obtain ⟨hlt, hrest⟩ := SortedBy.cons_iff.mp hs
  refine ⟨?_, hrest⟩
  intro node' hm
  have hbehind := hlt node' hm
  dsimp only
  omega

theorem NoStale.drain (h : w.NoStale) (hs : SortedBy Segment.sequenceNum w.recvBase) :
    w.drain.NoStale ∧ SortedBy Segment.sequenceNum w.drain.recvBase :=
  drain_induction (P := fun w => w.NoStale ∧ SortedBy Segment.sequenceNum w.recvBase)
    (fun _ _ h hp => noStale_printHead h.2 hp) ⟨h, hs⟩

/-- The same in the middle of a drain. -/
theorem NoStale.drains (h : w.NoStale) (hs : SortedBy Segment.sequenceNum w.recvBase)
    (hd : w.Drains w') :
    w'.NoStale ∧ SortedBy Segment.sequenceNum w'.recvBase := by
  induction hd with
  | refl => exact ⟨h, hs⟩
  | tail _ hround ih => exact noStale_printHead ih.2 hround

theorem NoStale.insert_iff (h : w.NoStale) : (w.insert maxWindowSize seg).NoStale ↔
    w.lastSegAcked < seg.sequenceNum ∨ maxWindowSize ≤ w.numSegInBuf := by
  by_cases hlt : w.numSegInBuf < maxWindowSize
  · constructor
    · intro hi
      left
      obtain ⟨node, hm, hk⟩ := exists_key_insertKey Segment.sequenceNum seg w.recvBase
      rw [insert_of_lt hlt] at hi
      rw [← hk]
      exact hi node hm
    · intro hn node hm
      rw [insert_lastSegAcked]
      rcases mem_insert hm with rfl | hm
      · omega
      · exact h node hm
  · rw [insert_of_full hlt]
    exact iff_of_true h (.inr (by omega))

/-- A printed node at hand in a sorted window: its head is not the next segment. -/
theorem printHead_of_stale (hs : SortedBy Segment.sequenceNum w.recvBase)
    (h : ∃ node ∈ w.recvBase, node.sequenceNum ≤ w.lastSegAcked) : w.printHead = none := by
  obtain ⟨node, hm, hle⟩ := h
  unfold RecvWindow.printHead
  split
  · rfl
  next first rest hb =>
  rw [hb] at hs hm
  apply if_neg
  intro he
  rcases List.mem_cons.mp hm with rfl | hm
  · omega
  · have hbehind := (SortedBy.cons_iff.mp hs).1 node hm
    omega

end RecvWindow

/-! ## Steps of the race -/

/-- A step leaves the window alone, drains it, or inserts the tested segment. -/
theorem race_step_cases {maxWindowSize : Int} {s s' : Race} {e : RaceEvent}
    (h : (raceMachine maxWindowSize).step s e = some s') :
    (e ≠ .insert ∧ (s'.window = s.window ∨ s'.window = s.window.drain)) ∨
      ∃ seg, e = .insert ∧ s.tested = some seg ∧ s'.window = s.window.insert maxWindowSize seg := by
  cases e with
  | test seg =>
    left
    simp only [raceMachine] at h
    split at h
    · cases h
    · simp only [Option.some.injEq] at h
      subst h
      refine ⟨by simp, .inl ?_⟩
      split <;> rfl
  | insert =>
    right
    simp only [raceMachine, Option.map_eq_some_iff] at h
    obtain ⟨seg, htested, rfl⟩ := h
    exact ⟨seg, rfl, htested, rfl⟩
  | drain =>
    left
    simp only [raceMachine, Option.some.injEq] at h
    subst h
    exact ⟨by simp, .inr rfl⟩

/-- What is known of the window as long as no printed segment has come into it. -/
structure Race.Inv (s : Race) : Prop where
  noStale : s.window.NoStale
  sorted : SortedBy Segment.sequenceNum s.window.recvBase

section Race

variable {maxWindowSize : Int} {s s' : Race} {e : RaceEvent}

theorem Race.Inv.start : (raceMachine maxWindowSize).init.Inv where
  noStale := by simp [raceMachine, RecvWindow.start, RecvWindow.NoStale]
  sorted := SortedBy.nil

/-- Only an insertion can bring a printed segment into the window. -/
theorem Race.Inv.noStale_iff (hs : s.Inv) (h : (raceMachine maxWindowSize).step s e = some s') :
    s'.window.NoStale ↔ StillNew maxWindowSize s e s' := by
  rcases race_step_cases h with ⟨hne, hw | hw⟩ | ⟨seg, rfl, htested, hw⟩
  · exact iff_of_true (hw ▸ hs.noStale) fun he => absurd he hne
  · have hdrain := hs.noStale.drain hs.sorted
    exact iff_of_true (hw ▸ hdrain.1) fun he => absurd he hne
  · rw [hw, hs.noStale.insert_iff]
    simp only [StillNew, htested, true_implies, Option.some.injEq, forall_eq']

theorem Race.Inv.step (hs : s.Inv) (h : (raceMachine maxWindowSize).step s e = some s')
    (hnew : StillNew maxWindowSize s e s') : s'.Inv where
  noStale := (hs.noStale_iff h).mpr hnew
  sorted := by
    rcases race_step_cases h with ⟨-, hw | hw⟩ | ⟨seg, -, -, hw⟩
    · exact hw ▸ hs.sorted
    · have hdrain := hs.noStale.drain hs.sorted
      exact hw ▸ hdrain.2
    · exact hw ▸ RecvWindow.insert_sorted hs.sorted

end Race

/-- **The race, exactly.** Along a run of the client no printed segment is
ever in the window if and only if every insertion finds its segment still
past `last_seg_acked`. -/
theorem noStale_along_iff (maxWindowSize : Int) (es : List RaceEvent) :
    (raceMachine maxWindowSize).Along (fun _ _ s' => s'.window.NoStale)
        (raceMachine maxWindowSize).init es ↔
      (raceMachine maxWindowSize).Along (StillNew maxWindowSize) (raceMachine maxWindowSize).init es :=
  Machine.along_congr (I := Race.Inv) (fun _ _ _ hs h => hs.noStale_iff h)
    (fun _ _ _ hs h hnew => hs.step h hnew) .start

/-- What is known of the window once a printed segment is in it. -/
structure Race.Jammed (printed : List Segment) (s : Race) : Prop where
  sorted : SortedBy Segment.sequenceNum s.window.recvBase
  stale : ∃ node ∈ s.window.recvBase, node.sequenceNum ≤ s.window.lastSegAcked
  printed : s.window.printed = printed

theorem Race.Jammed.step {maxWindowSize : Int} {printed : List Segment} {s s' : Race} {e : RaceEvent}
    (hs : s.Jammed printed) (h : (raceMachine maxWindowSize).step s e = some s') :
    s'.Jammed printed := by
  have hblocked := RecvWindow.printHead_of_stale hs.sorted hs.stale
  obtain ⟨hsorted, ⟨node, hm, hle⟩, hprinted⟩ := hs
  rcases race_step_cases h with ⟨-, hw | hw⟩ | ⟨seg, -, -, hw⟩
  · exact { sorted := hw ▸ hsorted, stale := hw ▸ ⟨node, hm, hle⟩, printed := hw ▸ hprinted }
  · rw [RecvWindow.drain_of_blocked hblocked] at hw
    exact { sorted := hw ▸ hsorted, stale := hw ▸ ⟨node, hm, hle⟩, printed := hw ▸ hprinted }
  · exact {
      sorted := hw ▸ RecvWindow.insert_sorted hsorted
      stale := hw ▸ ⟨node, RecvWindow.mem_insert_of_mem hm, by simpa using hle⟩
      printed := by rw [hw, RecvWindow.insert_printed, hprinted] }

/-- A printed segment in the window blocks the consumer for good. -/
theorem blocked_of_stale {maxWindowSize : Int} {s s' : Race} {es : List RaceEvent}
    (hs : SortedBy Segment.sequenceNum s.window.recvBase)
    (h : ∃ node ∈ s.window.recvBase, node.sequenceNum ≤ s.window.lastSegAcked)
    (hr : (raceMachine maxWindowSize).exec s es = some s') : s'.window.printed = s.window.printed := by
  have hjammed : s.Jammed s.window.printed := { sorted := hs, stale := h, printed := rfl }
  exact (Machine.exec_invariant (fun _ _ _ hj hstep => hj.step hstep) hjammed hr).printed

/-- Segment 1 arrives twice; its second copy passes the test while the
first is in the window, the consumer prints the first, and the second is
inserted after all: the window holds a printed segment, for good. -/
theorem stale_reachable : ∃ s, (raceMachine 5).Reachable s ∧ ¬ s.window.NoStale ∧
    ∀ es s', (raceMachine 5).exec s es = some s' → s'.window.printed = s.window.printed := by
  let seg : Segment := { sequenceNum := 1 }
  refine ⟨{ window := { recvBase := [seg], numSegInBuf := 1, lastSegAcked := 1, printed := [seg] },
            tested := none },
    ⟨[.test seg, .insert, .test seg, .drain, .insert], rfl⟩, ?_, ?_⟩
  · intro h
    exact absurd (h seg (by simp)) (by decide)
  · intro es s' hr
    exact blocked_of_stale (List.pairwise_singleton _ _) ⟨seg, by simp, by decide⟩ hr

end Sockets.Udp
