/-
The operations on the client's receive window, as facts about the list:
the insertion is `insertKey` at the sequence number, one round of the
consumer takes the head when it is the next segment, and `drain` goes on
until it is not.
-/
import Mathlib.Logic.Relation
import Sockets.Lib.SortedKeys
import Sockets.Udp.Client

namespace Sockets.Udp

@[simp] theorem insertNode_fst (seg : Segment) (nodes : List Segment) (num : Int) :
    (insertNode seg nodes num).1 = insertKey Segment.sequenceNum seg nodes := by
  induction nodes generalizing num with
  | nil => rfl
  | cons node rest ih =>
    simp only [insertNode, insertKey]
    split
    · rfl
    split
    · rfl
    · rw [← ih num]

/-- The count goes up exactly when the list grows. -/
theorem insertNode_snd (seg : Segment) (nodes : List Segment) (num : Int) :
    (insertNode seg nodes num).2 - (insertNode seg nodes num).1.length = num - nodes.length := by
  induction nodes generalizing num with
  | nil => simp [insertNode]
  | cons node rest ih =>
    have hrest := ih num
    simp only [insertNode]
    split
    · rfl
    split
    · simp only [List.length_cons, Int.natCast_add, Int.natCast_one]
      omega
    · simp only [List.length_cons, Int.natCast_add, Int.natCast_one]
      omega

namespace RecvWindow

variable {w w' : RecvWindow} {seg : Segment} {maxWindowSize : Int}

theorem insert_of_lt (h : w.numSegInBuf < maxWindowSize) :
    w.insert maxWindowSize seg = { w with
      recvBase := insertKey Segment.sequenceNum seg w.recvBase
      numSegInBuf := (insertNode seg w.recvBase w.numSegInBuf).2 } := by
  simp only [insert, h, if_true, insertNode_fst]

theorem insert_of_full (h : ¬ w.numSegInBuf < maxWindowSize) : w.insert maxWindowSize seg = w :=
  if_neg h

@[simp] theorem insert_lastSegAcked : (w.insert maxWindowSize seg).lastSegAcked = w.lastSegAcked := by
  unfold insert
  split <;> rfl

@[simp] theorem insert_printed : (w.insert maxWindowSize seg).printed = w.printed := by
  unfold insert
  split <;> rfl

theorem mem_insert {node : Segment} (h : node ∈ (w.insert maxWindowSize seg).recvBase) :
    node = seg ∨ node ∈ w.recvBase := by
  by_cases hlt : w.numSegInBuf < maxWindowSize
  · rw [insert_of_lt hlt] at h
    exact mem_insertKey h
  · rw [insert_of_full hlt] at h
    exact .inr h

theorem mem_insert_of_mem {node : Segment} (h : node ∈ w.recvBase) :
    node ∈ (w.insert maxWindowSize seg).recvBase := by
  by_cases hlt : w.numSegInBuf < maxWindowSize
  · rw [insert_of_lt hlt]
    exact mem_insertKey_of_mem h
  · rwa [insert_of_full hlt]

theorem insert_sorted (h : SortedBy Segment.sequenceNum w.recvBase) :
    SortedBy Segment.sequenceNum (w.insert maxWindowSize seg).recvBase := by
  by_cases hlt : w.numSegInBuf < maxWindowSize
  · rw [insert_of_lt hlt]
    exact h.insertKey
  · rwa [insert_of_full hlt]

theorem insert_count (h : w.numSegInBuf = w.recvBase.length) :
    (w.insert maxWindowSize seg).numSegInBuf = (w.insert maxWindowSize seg).recvBase.length := by
  by_cases hlt : w.numSegInBuf < maxWindowSize
  · have hs := insertNode_snd seg w.recvBase w.numSegInBuf
    rw [insert_of_lt hlt]
    rw [insertNode_fst] at hs
    dsimp only
    omega
  · rwa [insert_of_full hlt]

/-- A round of the consumer prints the head, and the head was the next segment. -/
theorem printHead_eq_some (h : w.printHead = some w') :
    ∃ node rest, w.recvBase = node :: rest ∧ node.sequenceNum = w.lastSegAcked + 1 ∧
      w' = { recvBase := rest, numSegInBuf := w.numSegInBuf - 1,
             lastSegAcked := w.lastSegAcked + 1, printed := w.printed ++ [node] } := by
  unfold printHead at h
  split at h
  · cases h
  next node rest hb =>
  split at h
  next hn =>
    refine ⟨node, rest, hb, hn, ?_⟩
    rw [if_pos (by omega), hn] at h
    exact (Option.some.inj h).symm
  · cases h

theorem drainRounds_induction {P : RecvWindow → Prop}
    (hstep : ∀ w w', P w → w.printHead = some w' → P w') (rounds : Nat) (h : P w) :
    P (drainRounds rounds w) := by
  induction rounds generalizing w with
  | zero => exact h
  | succ rounds ih =>
    simp only [drainRounds]
    split
    · exact h
    next w' hw =>
      have hround : P w' := hstep w w' h hw
      exact ih hround

/-- What every round keeps, the consumer's loop keeps. -/
theorem drain_induction {P : RecvWindow → Prop} (hstep : ∀ w w', P w → w.printHead = some w' → P w')
    (h : P w) : P w.drain := drainRounds_induction hstep _ h

theorem drainRounds_stops (rounds : Nat) (h : w.recvBase.length ≤ rounds) :
    (drainRounds rounds w).printHead = none := by
  induction rounds generalizing w with
  | zero =>
    have hempty : w.recvBase = [] := by simpa using h
    simp [drainRounds, printHead, hempty]
  | succ rounds ih =>
    simp only [drainRounds]
    split
    next hn => exact hn
    next w' hw =>
      obtain ⟨node, rest, hb, -, rfl⟩ := printHead_eq_some hw
      simp only [hb, List.length_cons] at h
      have hshorter : rest.length ≤ rounds := by omega
      exact ih hshorter

/-- The consumer's loop ends by its own test. -/
theorem drain_stops (w : RecvWindow) : w.drain.printHead = none := drainRounds_stops _ (Nat.le_refl _)

theorem drain_of_blocked (h : w.printHead = none) : w.drain = w := by
  unfold drain
  cases w.recvBase.length with
  | zero => rfl
  | succ n => simp [drainRounds, h]

theorem drain_of_printHead (h : w.printHead = some w') : w.drain = w'.drain := by
  obtain ⟨node, rest, hb, -, hw⟩ := printHead_eq_some h
  have hrest : w'.recvBase = rest := by rw [hw]
  rw [drain, drain, hb, hrest, List.length_cons]
  simp only [drainRounds, h]

/-- The window after some rounds of the consumer's loop. -/
def Drains : RecvWindow → RecvWindow → Prop := Relation.ReflTransGen fun w w' => w.printHead = some w'

theorem Drains.drain_eq (h : Drains w w') : w.drain = w'.drain := by
  induction h with
  | refl => rfl
  | tail _ hround ih => exact ih.trans (drain_of_printHead hround)

/-- A loop that has ended has drained the window. -/
theorem Drains.eq_drain (h : Drains w w') (hend : w'.printHead = none) : w.drain = w' := by
  rw [h.drain_eq, drain_of_blocked hend]

theorem Drains.lastSegAcked_le (h : Drains w w') : w.lastSegAcked ≤ w'.lastSegAcked := by
  induction h with
  | refl => exact le_refl _
  | tail _ hround ih =>
    obtain ⟨node, rest, -, -, hw⟩ := printHead_eq_some hround
    rw [hw]
    dsimp only
    omega

end RecvWindow

end Sockets.Udp
