/-
The retransmission timer of the UDP file server: the RTT estimator at the
head of the send loop, the back-off `RTO * 2^conse_packet_drop`, and the
abort after `RTT_MAXNREXMT` timeouts in a row.

Times are microseconds. The estimator's arithmetic is kept at 32 bits
(wrapping); the clamp that follows it makes whatever an overflow gives
harmless here. The back-off is computed as a double and stored in an `int`.
C leaves a conversion whose value does not fit undefined, so what it gives
is a parameter (`IntConv`) of which only this is used: a value that fits is
kept, and one just past the top comes out negative. That is so for the
x86-64 conversion instruction and for reduction modulo `2^32`.
-/
import Sockets.Lib.Machine
import Mathlib.Algebra.Group.Int.Defs
import Mathlib.Algebra.Group.Nat.Defs
import Mathlib.Tactic.Linarith

namespace Sockets.Udp

def rttMaxNRexmt : Nat := 12
def rttMin : Int := 1000
def rttMax : Int := 3000

/-- An integer stored in a 32-bit `int`, in two's complement. -/
def i32 (n : Int) : Int := n.bmod (2 ^ 32)

theorem i32_eq {n : Int} (h₁ : -2 ^ 31 ≤ n) (h₂ : n < 2 ^ 31) : i32 n = n :=
  Int.bmod_eq_of_le (by omega) (by omega)

/-- How a double is converted to `int` when its value may not fit. -/
structure IntConv where
  toInt : Int → Int
  exact : ∀ v, -2 ^ 31 ≤ v → v < 2 ^ 31 → toInt v = v
  overflow : ∀ v, 2 ^ 31 ≤ v → v < 2 ^ 32 → toInt v < 0

/-- The x86-64 instruction: an out-of-range value becomes `INT_MIN`. -/
def IntConv.cvttsd2si : IntConv where
  toInt v := if -2 ^ 31 ≤ v ∧ v < 2 ^ 31 then v else -2 ^ 31
  exact v h₁ h₂ := if_pos ⟨h₁, h₂⟩
  overflow v h _ := by
    rw [if_neg (by omega)]
    decide

/-- Reduction modulo `2^32`. -/
def IntConv.wrap : IntConv where
  toInt := i32
  exact _ h₁ h₂ := i32_eq h₁ h₂
  overflow v h₁ h₂ := by
    unfold i32 Int.bmod
    dsimp only
    split <;> omega

structure Timer where
  measuredRTT : Int
  srtt : Int
  rttvar : Int
  rto : Int
  lastPacketDrop : Bool
  consePacketDrop : Nat
  updateRtt : Bool
deriving DecidableEq, Repr

/-- The values the send loop starts with. `RTO` is not initialized by the
source; the first iteration sets it. -/
def Timer.start : Timer :=
  { measuredRTT := 0, srtt := 1500000, rttvar := 1500000, rto := 0,
    lastPacketDrop := false, consePacketDrop := 0, updateRtt := true }

def clampRto (rto : Int) : Int :=
  if rto < rttMin * 1000 then rttMin * 1000
  else if rto > rttMax * 1000 then rttMax * 1000
  else rto

/-- The RTT update at the head of the loop. -/
def Timer.update (t : Timer) : Timer :=
  if t.lastPacketDrop = false then
    if t.updateRtt = true then
      let measuredRTT := i32 (t.measuredRTT - (t.srtt >>> (3 : Nat)))
      let srtt := i32 (t.srtt + measuredRTT)
      let measuredRTT := if measuredRTT < 0 then i32 (-measuredRTT) else measuredRTT
      let measuredRTT := i32 (measuredRTT - (t.rttvar >>> (2 : Nat)))
      let rttvar := i32 (t.rttvar + measuredRTT)
      let rto := i32 ((srtt >>> (3 : Nat)) + rttvar)
      { t with measuredRTT, srtt, rttvar, rto := clampRto rto }
    else { t with updateRtt := true }
  else t

/-- The time-out of this iteration's `select`. -/
def Timer.transTime (conv : IntConv) (t : Timer) : Int :=
  let transTime := conv.toInt (t.rto * 2 ^ t.consePacketDrop)
  if transTime > rttMax * 1000 then rttMax * 1000 else transTime

def Timer.tvSec (conv : IntConv) (t : Timer) : Int := (t.transTime conv).tdiv 1000000
def Timer.tvUsec (conv : IntConv) (t : Timer) : Int := (t.transTime conv).tmod 1000000

/-- The timer part of the timeout branch. -/
def Timer.timeout (t : Timer) : Timer :=
  { t with lastPacketDrop := true, updateRtt := false, consePacketDrop := t.consePacketDrop + 1 }

/-- The timer part of the request branch. -/
def Timer.request (t : Timer) (measuredRTT : Int) : Timer :=
  { t with lastPacketDrop := false, consePacketDrop := 0, measuredRTT }

/-- How one wait of the loop ends. A `select` interrupted by a signal goes
back to the head of the loop. -/
inductive TimerEvent
  | request (measuredRTT : Int)
  | timeout
  | interrupted
deriving DecidableEq, Repr

/-- The head of the loop up to `select`: `none` when the child aborts after
`RTT_MAXNREXMT` timeouts in a row, or when `select` refuses a negative
time-out and `err_sys` ends it. -/
def Timer.await (conv : IntConv) (t : Timer) : Option Timer :=
  if t.consePacketDrop = rttMaxNRexmt then none
  else if t.update.transTime conv < 0 then none
  else some t.update

def timerMachine (conv : IntConv) : Machine Timer TimerEvent where
  init := .start
  step t e := (t.await conv).map fun t =>
    match e with
    | .request measuredRTT => t.request measuredRTT
    | .timeout => t.timeout
    | .interrupted => t

/-! ## The range of the timer -/

theorem clampRto_range (rto : Int) : 1000000 ≤ clampRto rto ∧ clampRto rto ≤ 3000000 := by
  unfold clampRto rttMin rttMax
  split
  · omega
  split <;> omega

/-- What every run of the loop keeps of its timer, at the loop's head. -/
structure Timer.Inv (t : Timer) : Prop where
  dropped : t.lastPacketDrop = true ↔ 0 < t.consePacketDrop
  conse_le : t.consePacketDrop ≤ rttMaxNRexmt
  rto_range : t.lastPacketDrop = true ∨ t.updateRtt = false → 1000000 ≤ t.rto ∧ t.rto ≤ 3000000
  /-- The wait before this one had a time-out that fitted an `int`. -/
  fitted : 0 < t.consePacketDrop → t.rto * 2 ^ (t.consePacketDrop - 1) < 2 ^ 31

theorem Timer.start_inv : Timer.start.Inv where
  dropped := by decide
  conse_le := by decide
  rto_range := by decide
  fitted := by decide

@[simp] theorem Timer.update_consePacketDrop (t : Timer) :
    t.update.consePacketDrop = t.consePacketDrop := by
  unfold update
  split
  · split <;> rfl
  · rfl

@[simp] theorem Timer.update_lastPacketDrop (t : Timer) :
    t.update.lastPacketDrop = t.lastPacketDrop := by
  unfold update
  split
  · split <;> rfl
  · rfl

/-- The estimator is left alone while packets are being dropped. -/
theorem Timer.update_of_dropped {t : Timer} (h : t.lastPacketDrop = true) : t.update = t := by
  simp [update, h]

theorem Timer.Inv.update_rto {t : Timer} (h : t.Inv) :
    1000000 ≤ t.update.rto ∧ t.update.rto ≤ 3000000 := by
  unfold update
  split
  · split
    · exact clampRto_range _
    next hu => exact h.rto_range (.inr (by simpa using hu))
  next hd => exact h.rto_range (.inl (by simpa using hd))

theorem Timer.Inv.update {t : Timer} (h : t.Inv) : t.update.Inv where
  dropped := by simpa using h.dropped
  conse_le := by simpa using h.conse_le
  rto_range _ := h.update_rto
  fitted hc := by
    rw [update_consePacketDrop] at hc ⊢
    rw [update_of_dropped (h.dropped.mpr hc)]
    exact h.fitted hc

/-- The back-off before the conversion is positive and below `2^32`. -/
theorem Timer.Inv.backoff {t : Timer} (h : t.Inv) :
    1000000 ≤ t.update.rto * 2 ^ t.consePacketDrop ∧ t.update.rto * 2 ^ t.consePacketDrop < 2 ^ 32 := by
  have hr := h.update_rto
  have hpow : (1 : Int) ≤ 2 ^ t.consePacketDrop := one_le_pow₀ (by decide)
  refine ⟨by nlinarith, ?_⟩
  cases hc : t.consePacketDrop with
  | zero => omega
  | succ n =>
    have hf := h.fitted (by omega)
    rw [update_of_dropped (h.dropped.mpr (by omega)), Int.pow_succ]
    rw [hc, Nat.add_sub_cancel] at hf
    linarith

/-- The time-out is in range exactly when the back-off fits an `int`;
otherwise it is negative. -/
theorem Timer.Inv.transTime (conv : IntConv) {t : Timer} (h : t.Inv) :
    (t.update.rto * 2 ^ t.consePacketDrop < 2 ^ 31 ∧ 1000000 ≤ t.update.transTime conv ∧
      t.update.transTime conv ≤ 3000000) ∨
    (2 ^ 31 ≤ t.update.rto * 2 ^ t.consePacketDrop ∧ t.update.transTime conv < 0) := by
  obtain ⟨hlo, hhi⟩ := h.backoff
  unfold Timer.transTime rttMax
  rw [update_consePacketDrop]
  by_cases hfit : t.update.rto * 2 ^ t.consePacketDrop < 2 ^ 31
  · left
    rw [conv.exact _ (by omega) hfit]
    refine ⟨hfit, ?_⟩
    dsimp only
    split <;> omega
  · right
    have hneg := conv.overflow _ (by omega) hhi
    refine ⟨by omega, ?_⟩
    dsimp only
    split <;> omega

theorem Timer.Inv.step {conv : IntConv} {t t' : Timer} {e : TimerEvent} (h : t.Inv)
    (hs : (timerMachine conv).step t e = some t') : t'.Inv := by
  simp only [timerMachine, Timer.await, Option.map_eq_some_iff] at hs
  obtain ⟨u, hu, rfl⟩ := hs
  split at hu
  · cases hu
  next hc =>
  split at hu
  · cases hu
  next hneg =>
  simp only [Option.some.injEq] at hu
  subst hu
  cases e with
  | request measuredRTT =>
    exact { dropped := by simp [Timer.request], conse_le := by simp [Timer.request]
            rto_range := fun _ => h.update_rto, fitted := by simp [Timer.request] }
  | interrupted => exact h.update
  | timeout =>
    refine { dropped := by simp [Timer.timeout], conse_le := ?_, rto_range := fun _ => h.update_rto,
             fitted := fun _ => ?_ }
    · have hdrops := h.conse_le
      simp only [Timer.timeout, update_consePacketDrop]
      omega
    · simp only [Timer.timeout, update_consePacketDrop, Nat.add_sub_cancel]
      rcases h.transTime conv with ⟨hfit, -⟩ | ⟨-, hn⟩
      · exact hfit
      · exact absurd hn hneg

theorem reachable_timer_inv {conv : IntConv} {t : Timer} (h : (timerMachine conv).Reachable t) :
    t.Inv :=
  h.invariant Timer.start_inv fun _ _ _ ht hs => ht.step hs

/-- What the loop is meant to hand to `select` before each of its
transmissions: a time-out between `RTTMIN` and `RTTMAX`, as a positive
`timeval`, so that the wait can end in a timeout and a retransmission. -/
structure Timer.SelectOk (conv : IntConv) (t : Timer) : Prop where
  ge : rttMin * 1000 ≤ t.update.transTime conv
  le : t.update.transTime conv ≤ rttMax * 1000
  sec : 0 ≤ t.update.tvSec conv
  usec : 0 ≤ t.update.tvUsec conv ∧ t.update.tvUsec conv < 1000000
  pos : 0 < t.update.tvSec conv * 1000000 + t.update.tvUsec conv
  sends : ((timerMachine conv).step t .timeout).isSome

/-- The back-off in force fits: nine timeouts in a row always do, a tenth
and an eleventh only if the `RTO` they double is small enough. -/
def Timer.BackoffFits (t : Timer) : Prop :=
  t.consePacketDrop ≤ 9 ∨ (t.consePacketDrop = 10 ∧ t.rto ≤ 2097151) ∨
    (t.consePacketDrop = 11 ∧ t.rto ≤ 1048575)

instance (t : Timer) : Decidable t.BackoffFits := inferInstanceAs (Decidable (_ ∨ _ ∨ _))

theorem Timer.Inv.backoffFits_iff {t : Timer} (h : t.Inv) (hc : t.consePacketDrop ≠ rttMaxNRexmt) :
    t.BackoffFits ↔ t.update.rto * 2 ^ t.consePacketDrop < 2 ^ 31 := by
  have hr := h.update_rto
  have hle : t.consePacketDrop ≤ 11 := by
    have hdrops := h.conse_le
    unfold rttMaxNRexmt at *
    omega
  unfold BackoffFits
  by_cases h9 : t.consePacketDrop ≤ 9
  · refine iff_of_true (.inl h9) ?_
    have hpow : (2 : Int) ^ t.consePacketDrop ≤ 2 ^ 9 := pow_le_pow_right₀ (by decide) h9
    nlinarith
  · rw [update_of_dropped (h.dropped.mpr (by omega))] at hr ⊢
    obtain h10 | h11 : t.consePacketDrop = 10 ∨ t.consePacketDrop = 11 := by omega
    · rw [h10]
      omega
    · rw [h11]
      omega

/-- **The time-out, exactly.** In every run of the loop, before it aborts:
the time-out handed to `select` is as promised if and only if the back-off
fits. -/
theorem selectOk_iff {conv : IntConv} {t : Timer} (h : (timerMachine conv).Reachable t)
    (hc : t.consePacketDrop ≠ rttMaxNRexmt) : t.SelectOk conv ↔ t.BackoffFits := by
  have hinv := reachable_timer_inv h
  rw [hinv.backoffFits_iff hc]
  rcases hinv.transTime conv with ⟨hfit, hlo, hhi⟩ | ⟨hbig, hneg⟩
  · refine iff_of_true ?_ hfit
    have hsec : t.update.tvSec conv = t.update.transTime conv / 1000000 :=
      Int.tdiv_eq_ediv_of_nonneg (by omega)
    have husec : t.update.tvUsec conv = t.update.transTime conv % 1000000 :=
      Int.tmod_eq_emod_of_nonneg (by omega)
    have hawait : t.await conv = some t.update := by
      rw [Timer.await, if_neg hc, if_neg (by omega)]
    exact {
      ge := hlo
      le := hhi
      sec := by omega
      usec := by omega
      pos := by omega
      sends := by simp [timerMachine, hawait] }
  · refine iff_of_false ?_ (by omega)
    intro hok
    have hge := hok.ge
    unfold rttMin at hge
    omega

/-- After a sample, two timeouts, a reply to what was resent, another sample and two timeouts the
time-out is as promised. -/
theorem selectOk_iff_timeouts : ∃ t, (timerMachine .cvttsd2si).Reachable t ∧ t.consePacketDrop = 2 ∧
    t.SelectOk .cvttsd2si := by
  obtain ⟨t, ht, htest⟩ := Machine.reachable_of_exec_any
    (M := timerMachine .cvttsd2si)
    [.request 40000, .timeout, .timeout, .request 900000, .request 60000, .timeout, .timeout]
    (fun t => t.consePacketDrop = 2 ∧ t.BackoffFits) (by decide)
  obtain ⟨hdrops, hfits⟩ := of_decide_eq_true htest
  exact ⟨t, ht, hdrops, (selectOk_iff ht (by rw [hdrops]; decide)).mpr hfits⟩

/-- Eleven timeouts in a row from the start: `RTO` is 1476562 and doubled
eleven times it does not fit, so `select` is handed a negative time-out. -/
theorem not_selectOk_eleven :
    ¬ ∀ t, (timerMachine .cvttsd2si).Reachable t → t.consePacketDrop ≠ rttMaxNRexmt →
      t.SelectOk .cvttsd2si := by
  intro hall
  have hok := hall
    { measuredRTT := -187500, srtt := 1312500, rttvar := 1312500, rto := 1476562,
      lastPacketDrop := true, consePacketDrop := 11, updateRtt := false }
    ⟨List.replicate 11 .timeout, by decide⟩ (by decide)
  exact absurd hok.ge (by decide)

end Sockets.Udp
