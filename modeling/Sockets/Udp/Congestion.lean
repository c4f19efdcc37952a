/-
The congestion "state machine" of the UDP file server: `get_cwnd`, called
for every request the client sends, and the reset in the timeout branch of
the send loop. Integers are exact.

States are the source's numbers: 1 slow start, 2 congestion avoidance, 3
fast retransmit.
-/
import Sockets.Lib.Machine
import Mathlib.Order.Lattice

namespace Sockets.Udp

structure Congestion where
  congestionState : Int
  cwnd : Int
  ssthresh : Int
  prevAckSegNum : Int
  numDupCount : Int
deriving DecidableEq, Repr

/-- The values the child server starts its send loop with. -/
def Congestion.start : Congestion :=
  { congestionState := 1, cwnd := 1, ssthresh := 8, prevAckSegNum := 0, numDupCount := 0 }

/-- What `get_cwnd` does in states 1 and 2 once `num_dup_count` is updated:
the third duplicate enters fast retransmit with half the window. -/
def Congestion.thirdDup (c : Congestion) : Congestion :=
  if c.numDupCount = 3 then
    let ssthresh := c.cwnd.tdiv 2
    let ssthresh := if ssthresh = 0 then ssthresh + 1 else ssthresh
    let cwnd := ssthresh
    let cwnd := if cwnd = 0 then cwnd + 1 else cwnd
    { c with congestionState := 3, ssthresh, cwnd }
  else c

def getCwnd (c : Congestion) (arriveAckSeg : Int) : Congestion :=
  if c.congestionState = 1 then
    let c :=
      if c.prevAckSegNum = arriveAckSeg then { c with numDupCount := c.numDupCount + 1 }
      else
        let c := { c with cwnd := c.cwnd * 2, numDupCount := 0 }
        if c.cwnd ≥ c.ssthresh then { c with cwnd := c.ssthresh, congestionState := 2 } else c
    c.thirdDup
  else if c.congestionState = 2 then
    let c :=
      if c.prevAckSegNum = arriveAckSeg then { c with numDupCount := c.numDupCount + 1 }
      else { c with cwnd := c.cwnd + 1, numDupCount := 0 }
    c.thirdDup
  else if c.congestionState = 3 then
    if c.prevAckSegNum = arriveAckSeg then { c with cwnd := c.cwnd + 1 }
    else { c with congestionState := 2, cwnd := c.ssthresh, numDupCount := 0 }
  else c

/-- The congestion part of the timeout branch. -/
def Congestion.timeout (c : Congestion) : Congestion :=
  let ssthresh := c.cwnd.tdiv 2
  let ssthresh := if ssthresh ≤ 0 then 1 else ssthresh
  { c with ssthresh, cwnd := 1, numDupCount := 0, congestionState := 1 }

/-- A request that does not end the transfer: `get_cwnd`, and then the new
ACK number becomes the previous one. -/
def Congestion.ack (c : Congestion) (ackNum : Int) : Congestion :=
  { getCwnd c ackNum with prevAckSegNum := ackNum }

inductive CongestionEvent
  | ack (ackNum : Int)
  | timeout
deriving DecidableEq, Repr

/-- The congestion machine alone, driven by any ACKs and timeouts. -/
def congestionMachine : Machine Congestion CongestionEvent where
  init := .start
  step c
    | .ack ackNum => some (c.ack ackNum)
    | .timeout => some c.timeout

theorem tdiv_two {n : Int} (h : 1 ≤ n) : n.tdiv 2 = n / 2 :=
  Int.tdiv_eq_ediv_of_nonneg (by omega)

/-- A third duplicate halves the window, but not below 1. -/
theorem Congestion.thirdDup_eq {c : Congestion} (h : 1 ≤ c.cwnd) (h3 : c.numDupCount = 3) :
    c.thirdDup = { c with congestionState := 3, ssthresh := max 1 (c.cwnd / 2),
                          cwnd := max 1 (c.cwnd / 2) } := by
  simp only [thirdDup, h3, if_true, tdiv_two h]
  by_cases h0 : c.cwnd / 2 = 0
  · simp [h0]
  · simp only [h0, if_false]
    rw [max_eq_right (by omega)]

theorem Congestion.thirdDup_of_ne {c : Congestion} (h3 : c.numDupCount ≠ 3) : c.thirdDup = c :=
  if_neg h3

theorem Congestion.timeout_eq {c : Congestion} (h : 1 ≤ c.cwnd) :
    c.timeout = { c with congestionState := 1, cwnd := 1, numDupCount := 0,
                         ssthresh := max 1 (c.cwnd / 2) } := by
  simp only [timeout, tdiv_two h]
  by_cases h0 : c.cwnd / 2 ≤ 0
  · rw [if_pos h0, max_eq_left (by omega)]
  · rw [if_neg h0, max_eq_right (by omega)]

/-- What every run of ACKs and timeouts keeps. -/
structure Congestion.Inv (c : Congestion) : Prop where
  cwnd_pos : 1 ≤ c.cwnd
  ssthresh_pos : 1 ≤ c.ssthresh
  state : c.congestionState = 1 ∨ c.congestionState = 2 ∨ c.congestionState = 3
  slowStart : c.congestionState = 1 → c.cwnd ≤ c.ssthresh
  atLeast : c.congestionState = 2 ∨ c.congestionState = 3 → c.ssthresh ≤ c.cwnd
  dup_nonneg : 0 ≤ c.numDupCount
  dup_le : c.congestionState = 1 ∨ c.congestionState = 2 → c.numDupCount ≤ 2
  dup_eq : c.congestionState = 3 → c.numDupCount = 3

theorem Congestion.start_inv : Congestion.start.Inv := by
  constructor <;> simp [start]

/-- What an ACK can do: count a duplicate, enter fast retransmit on the
third, grow the window, or leave fast retransmit at `ssthresh`. -/
inductive AckOutcome (c : Congestion) (ackNum : Int) : Congestion → Prop
  | duplicate : c.prevAckSegNum = ackNum → c.congestionState ≠ 3 → c.numDupCount ≠ 2 →
      AckOutcome c ackNum { c with numDupCount := c.numDupCount + 1 }
  | enterFast : c.prevAckSegNum = ackNum → c.congestionState ≠ 3 → c.numDupCount = 2 →
      AckOutcome c ackNum { c with
        congestionState := 3, numDupCount := 3,
        ssthresh := max 1 (c.cwnd / 2), cwnd := max 1 (c.cwnd / 2) }
  | double : c.prevAckSegNum ≠ ackNum → c.congestionState = 1 → c.cwnd * 2 < c.ssthresh →
      AckOutcome c ackNum { c with cwnd := c.cwnd * 2, numDupCount := 0 }
  | reachThreshold : c.prevAckSegNum ≠ ackNum → c.congestionState = 1 → c.ssthresh ≤ c.cwnd * 2 →
      AckOutcome c ackNum { c with congestionState := 2, cwnd := c.ssthresh, numDupCount := 0 }
  | avoid : c.prevAckSegNum ≠ ackNum → c.congestionState = 2 →
      AckOutcome c ackNum { c with cwnd := c.cwnd + 1, numDupCount := 0 }
  | inflate : c.prevAckSegNum = ackNum → c.congestionState = 3 →
      AckOutcome c ackNum { c with cwnd := c.cwnd + 1 }
  | leaveFast : c.prevAckSegNum ≠ ackNum → c.congestionState = 3 →
      AckOutcome c ackNum { c with congestionState := 2, cwnd := c.ssthresh, numDupCount := 0 }

theorem getCwnd_outcome {c : Congestion} (h : c.Inv) (ackNum : Int) :
    AckOutcome c ackNum (getCwnd c ackNum) := by
  have hpos := h.cwnd_pos
  -- A duplicate outside fast retransmit is counted the same in states 1 and 2.
  have dup (hp : c.prevAckSegNum = ackNum) (hs : c.congestionState ≠ 3) :
      AckOutcome c ackNum { c with numDupCount := c.numDupCount + 1 : Congestion }.thirdDup := by
    by_cases h3 : c.numDupCount = 2
    · rw [Congestion.thirdDup_eq (by exact hpos) (by simp [h3])]
      simp only [h3]
      exact .enterFast hp hs h3
    · rw [Congestion.thirdDup_of_ne (by simp only; omega)]
      exact .duplicate hp hs h3
  unfold getCwnd
  rcases h.state with hs | hs | hs
  · rw [if_pos hs]
    by_cases hp : c.prevAckSegNum = ackNum
    · simp only [hp, if_true]
      exact hp ▸ dup hp (by omega)
    · simp only [hp, if_false]
      by_cases hge : c.cwnd * 2 ≥ c.ssthresh
      · simp only [hge, if_true]
        rw [Congestion.thirdDup_of_ne (by simp)]
        exact .reachThreshold hp hs hge
      · simp only [hge, if_false]
        rw [Congestion.thirdDup_of_ne (by simp)]
        exact .double hp hs (by omega)
  · rw [if_neg (by omega), if_pos hs]
    by_cases hp : c.prevAckSegNum = ackNum
    · simp only [hp, if_true]
      exact hp ▸ dup hp (by omega)
    · simp only [hp, if_false]
      rw [Congestion.thirdDup_of_ne (by simp)]
      exact .avoid hp hs
  · rw [if_neg (by omega), if_neg (by omega), if_pos hs]
    by_cases hp : c.prevAckSegNum = ackNum
    · rw [if_pos hp]
      exact .inflate hp hs
    · rw [if_neg hp]
      exact .leaveFast hp hs

/-- An ACK keeps the invariant. -/
theorem Congestion.Inv.ack {c : Congestion} (h : c.Inv) (ackNum : Int) : (c.ack ackNum).Inv := by
  have ho := getCwnd_outcome h ackNum
  obtain ⟨hcw, hss, hst, hslow, hge, hdup, hle, heq⟩ := h
  unfold Congestion.ack
  generalize getCwnd c ackNum = c' at ho
  cases ho <;> constructor <;> dsimp only <;> omega

theorem Congestion.Inv.timeout {c : Congestion} (h : c.Inv) : c.timeout.Inv := by
  rw [Congestion.timeout_eq h.cwnd_pos]
  constructor <;> dsimp only <;> omega

theorem reachable_congestion_inv {c : Congestion} (h : congestionMachine.Reachable c) : c.Inv := by
  apply h.invariant Congestion.start_inv
  intro c e c' hc hs
  cases e with
  | ack ackNum =>
    simp only [congestionMachine, Option.some.injEq] at hs
    exact hs ▸ hc.ack ackNum
  | timeout =>
    simp only [congestionMachine, Option.some.injEq] at hs
    exact hs ▸ hc.timeout

/-- **The congestion machine.** In every state any sequence of ACKs and
timeouts reaches, the invariant holds; and a step shrinks the window only if
it is a timeout, the third duplicate ACK, or the first new ACK in fast
retransmit, which sets the window to `ssthresh`. -/
theorem congestion_sound {c : Congestion} (h : congestionMachine.Reachable c) :
    c.Inv ∧ ∀ e c', congestionMachine.step c e = some c' → c'.cwnd < c.cwnd →
      e = .timeout ∨
      (e = .ack c.prevAckSegNum ∧ c.congestionState ≠ 3 ∧ c.numDupCount = 2) ∨
      (c.congestionState = 3 ∧ (∃ ackNum, e = .ack ackNum ∧ ackNum ≠ c.prevAckSegNum) ∧
        c'.cwnd = c.ssthresh) := by
  have hinv := reachable_congestion_inv h
  refine ⟨hinv, ?_⟩
  intro e c' hs hlt
  cases e with
  | timeout => exact .inl rfl
  | ack ackNum =>
    right
    simp only [congestionMachine, Option.some.injEq] at hs
    subst hs
    have ho := getCwnd_outcome hinv ackNum
    have hge := hinv.slowStart
    have hpos := hinv.cwnd_pos
    simp only [Congestion.ack] at hlt ⊢
    generalize getCwnd c ackNum = c' at ho hlt
    cases ho with
    | enterFast hp h3 hd => exact .inl ⟨by rw [hp], h3, hd⟩
    | leaveFast hp h3 => exact .inr ⟨h3, ⟨ackNum, rfl, fun he => hp he.symm⟩, rfl⟩
    | duplicate | double | reachThreshold | avoid | inflate =>
      dsimp only at hlt
      omega

/-- Four ACKs of segment 1 reach fast retransmit. -/
theorem congestion_sound_fast :
    Congestion.Inv { congestionState := 3, cwnd := 1, ssthresh := 1, prevAckSegNum := 1, numDupCount := 3 } :=
  (congestion_sound ⟨[.ack 1, .ack 1, .ack 1, .ack 1], by decide⟩).1

end Sockets.Udp
