/-
The RTT estimator, over any samples of up to 134 seconds. `srtt` is kept at
8 times the average of the samples, and `rttvar` at 4 times that of their
distances from it; each is an average in integer arithmetic (`smooth`). So
both stay within bounds, nothing overflows, and under a constant sample both
come to rest.
-/
import Sockets.Lib.Smoothing
import Sockets.Udp.Timer

namespace Sockets.Udp

/-- A request gives a sample, and the head of the next iteration takes it in. -/
def Timer.sampled (t : Timer) (measuredRTT : Int) : Timer := (t.request measuredRTT).update

/-- The estimator after these samples. -/
def Timer.estimate (samples : List Int) : Timer := samples.foldl Timer.sampled .start

/-- And after so many times the same one. -/
def Timer.repeated (t : Timer) (m : Int) (n : Nat) : Timer := (Timer.sampled · m)^[n] t

/-- The values of the update's expressions, in the order it computes them, with no overflow. -/
def Timer.updateValues (t : Timer) : List Int :=
  let distance := t.measuredRTT - (t.srtt >>> (3 : Nat))
  let srtt := t.srtt + distance
  let absolute := if distance < 0 then -distance else distance
  let change := absolute - (t.rttvar >>> (2 : Nat))
  let rttvar := t.rttvar + change
  [t.srtt >>> (3 : Nat), distance, srtt, absolute, t.rttvar >>> (2 : Nat), change, rttvar,
    srtt >>> (3 : Nat), (srtt >>> (3 : Nat)) + rttvar]

/-- The value can be stored in an `int`. -/
def FitsInt (v : Int) : Prop := -2 ^ 31 ≤ v ∧ v < 2 ^ 31

/-- Under a constant sample `srtt` moves to where the average is the sample, never away from it
or past it, and stays there; `rttvar` comes down to less than 4 in the end. -/
structure Timer.Settles (t : Timer) (m : Int) : Prop where
  up : t.srtt ≤ 8 * m + 7 → ∀ n,
    (t.repeated m n).srtt ≤ (t.repeated m (n + 1)).srtt ∧ (t.repeated m (n + 1)).srtt ≤ 8 * m + 7
  down : 8 * m ≤ t.srtt → ∀ n,
    (t.repeated m (n + 1)).srtt ≤ (t.repeated m n).srtt ∧ 8 * m ≤ (t.repeated m (n + 1)).srtt
  srtt : ∃ N, ∀ n, N ≤ n → (8 * m ≤ (t.repeated m n).srtt ∧ (t.repeated m n).srtt ≤ 8 * m + 7) ∧
    (t.repeated m n).srtt = (t.repeated m N).srtt
  rttvar : ∃ N, ∀ n, N ≤ n → 0 ≤ (t.repeated m n).rttvar ∧ (t.repeated m n).rttvar ≤ 3

/-- The estimator is within bounds, and so is all that it computes from the next sample; and it
settles under a constant one. -/
structure Timer.Stable (t : Timer) (M : Int) : Prop where
  srtt : 0 ≤ t.srtt ∧ t.srtt ≤ 8 * M + 7
  rttvar : 0 ≤ t.rttvar ∧ t.rttvar ≤ 4 * M + 3
  fits : ∀ m, 0 ≤ m → m ≤ M → ∀ v ∈ (t.request m).updateValues, FitsInt v
  rto : ∀ m, 0 ≤ m → m ≤ M → 1000000 ≤ (t.sampled m).rto ∧ (t.sampled m).rto ≤ 3000000
  settles : ∀ m, 0 ≤ m → m ≤ M → t.Settles m

/-! ## One sample -/

/-- The estimator before a sample, within bounds for samples up to `M`. -/
structure Timer.Bounded (M : Int) (t : Timer) : Prop where
  updates : t.updateRtt = true
  srtt : 0 ≤ t.srtt ∧ t.srtt < 8 * (M + 1)
  rttvar : 0 ≤ t.rttvar ∧ t.rttvar < 4 * (M + 1)

variable {t : Timer} {m M : Int}

theorem Timer.sampled_updateRtt (h : t.updateRtt = true) : (t.sampled m).updateRtt = true := by
  simp [sampled, update, request, h]

theorem FitsInt.i32_eq {v : Int} (h : FitsInt v) : i32 v = v := Udp.i32_eq h.1 h.2

theorem ite_neg_eq_abs (v : Int) : (if v < 0 then -v else v) = |v| := by
  split
  next hv => rw [abs_of_neg hv]
  next hv => rw [abs_of_nonneg (not_lt.mp hv)]

/-- The values of an update are those of the two averages. -/
theorem Timer.updateValues_eq (t : Timer) (m : Int) :
    let distance := m - t.srtt / 8
    let srtt := smooth 8 m t.srtt
    let rttvar := smooth 4 |distance| t.rttvar
    (t.request m).updateValues = [t.srtt / 8, distance, srtt, |distance|, t.rttvar / 4,
      |distance| - t.rttvar / 4, rttvar, srtt / 8, srtt / 8 + rttvar] := by
  have hsrtt : smooth 8 m t.srtt = t.srtt + (m - t.srtt / 8) := by
    unfold smooth
    omega
  have hrttvar : smooth 4 |m - t.srtt / 8| t.rttvar = t.rttvar + (|m - t.srtt / 8| - t.rttvar / 4) := by
    unfold smooth
    omega
  simp only [updateValues, request, ite_neg_eq_abs, Int.shiftRight_eq_div_pow, hsrtt, hrttvar]
  rfl

/-- If its values fit, the update computes them. -/
theorem Timer.sampled_eq (h : t.updateRtt = true) (hfits : ∀ v ∈ (t.request m).updateValues, FitsInt v) :
    (t.sampled m).srtt = smooth 8 m t.srtt ∧ (t.sampled m).rttvar = smooth 4 |m - t.srtt / 8| t.rttvar := by
  have hvalues := t.updateValues_eq m
  dsimp only at hvalues
  rw [hvalues] at hfits
  simp only [List.forall_mem_cons] at hfits
  obtain ⟨-, hdistance, hsrtt, habs, -, hchange, hrttvar, -⟩ := hfits
  have habsolute : (if m - t.srtt / 8 < 0 then i32 (-(m - t.srtt / 8)) else m - t.srtt / 8) =
      |m - t.srtt / 8| := by
    rw [← ite_neg_eq_abs] at habs ⊢
    split
    next hneg =>
      rw [if_pos hneg] at habs
      exact habs.i32_eq
    · rfl
  have hsum : t.srtt + (m - t.srtt / 8) = smooth 8 m t.srtt := by
    unfold smooth
    omega
  have hsum' : t.rttvar + (|m - t.srtt / 8| - t.rttvar / 4) = smooth 4 |m - t.srtt / 8| t.rttvar := by
    unfold smooth
    omega
  have hdivide : t.srtt >>> (3 : Nat) = t.srtt / 8 ∧ t.rttvar >>> (2 : Nat) = t.rttvar / 4 :=
    ⟨Int.shiftRight_eq_div_pow _ _, Int.shiftRight_eq_div_pow _ _⟩
  simp only [sampled, update, request, h, if_true, hdivide, hdistance.i32_eq, habsolute, hsum,
    hchange.i32_eq, hsum', hsrtt.i32_eq, hrttvar.i32_eq, and_self]

/-- Of a sample within bounds, the values fit. -/
theorem Timer.Bounded.fits (ht : t.Bounded M) (hM : M ≤ 2 ^ 27) (hm : 0 ≤ m) (hmM : m ≤ M) :
    ∀ v ∈ (t.request m).updateValues, FitsInt v := by
  obtain ⟨hsrtt, hsrttM⟩ := ht.srtt
  obtain ⟨hrttvar, hrttvarM⟩ := ht.rttvar
  have hdistance : |m - t.srtt / 8| ≤ M := abs_le.mpr ⟨by omega, by omega⟩
  have habs : 0 ≤ |m - t.srtt / 8| := abs_nonneg _
  obtain ⟨hs, hsM⟩ := smooth_bounds (by decide) hsrtt hsrttM hm hmM
  obtain ⟨hr, hrM⟩ := smooth_bounds (by decide) hrttvar hrttvarM habs hdistance
  have hvalues := t.updateValues_eq m
  dsimp only at hvalues
  rw [hvalues]
  unfold FitsInt
  simp only [List.forall_mem_cons]
  refine ⟨by omega, by omega, by omega, by omega, by omega, by omega, by omega, by omega, by omega, ?_⟩
  simp

/-- One more sample keeps the bounds. -/
theorem Timer.Bounded.sampled (ht : t.Bounded M) (hM : M ≤ 2 ^ 27) (hm : 0 ≤ m) (hmM : m ≤ M) :
    (t.sampled m).Bounded M := by
  obtain ⟨hsrtt, hrttvar⟩ := sampled_eq ht.updates (ht.fits hM hm hmM)
  have hlo := ht.srtt.1
  have hhi := ht.srtt.2
  have hdistance : |m - t.srtt / 8| ≤ M := abs_le.mpr ⟨by omega, by omega⟩
  refine { updates := sampled_updateRtt ht.updates, srtt := ?_, rttvar := ?_ }
  · rw [hsrtt]
    exact smooth_bounds (by decide) hlo hhi hm hmM
  · rw [hrttvar]
    exact smooth_bounds (by decide) ht.rttvar.1 ht.rttvar.2 (abs_nonneg _) hdistance

theorem Timer.Bounded.rto (ht : t.Bounded M) :
    1000000 ≤ (t.sampled m).rto ∧ (t.sampled m).rto ≤ 3000000 := by
  simp only [Timer.sampled, update, request, ht.updates, if_true]
  exact clampRto_range _

/-! ## Any samples -/

theorem Timer.Bounded.start (hM : 375000 ≤ M) : Timer.start.Bounded M where
  updates := rfl
  srtt := by
    show 0 ≤ (1500000 : Int) ∧ (1500000 : Int) < 8 * (M + 1)
    omega
  rttvar := by
    show 0 ≤ (1500000 : Int) ∧ (1500000 : Int) < 4 * (M + 1)
    omega

theorem Timer.Bounded.foldl (ht : t.Bounded M) (hM : M ≤ 2 ^ 27) {samples : List Int}
    (hs : ∀ m ∈ samples, 0 ≤ m ∧ m ≤ M) : (samples.foldl Timer.sampled t).Bounded M := by
  induction samples generalizing t with
  | nil => exact ht
  | cons m samples ih =>
    obtain ⟨hm, hmM⟩ := hs m List.mem_cons_self
    exact ih (ht.sampled hM hm hmM) fun m' hm' => hs m' (List.mem_cons_of_mem _ hm')

/-! ## A constant sample -/

theorem Timer.repeated_succ (t : Timer) (m : Int) (n : Nat) :
    t.repeated m (n + 1) = (t.repeated m n).sampled m := Function.iterate_succ_apply' _ _ _

theorem Timer.Bounded.repeated (ht : t.Bounded M) (hM : M ≤ 2 ^ 27) (hm : 0 ≤ m) (hmM : m ≤ M) (n : Nat) :
    (t.repeated m n).Bounded M ∧ (t.repeated m n).srtt = (smooth 8 m)^[n] t.srtt := by
  induction n with
  | zero => exact ⟨ht, rfl⟩
  | succ n ih =>
    obtain ⟨hn, hsrtt⟩ := ih
    rw [repeated_succ, Function.iterate_succ_apply', ← hsrtt]
    exact ⟨hn.sampled hM hm hmM, (sampled_eq hn.updates (hn.fits hM hm hmM)).1⟩

/-- Once the average is the sample, only a part of `rttvar` is let go at each step. -/
theorem Timer.Bounded.repeated_rttvar (ht : t.Bounded M) (hM : M ≤ 2 ^ 27) (hm : 0 ≤ m) (hmM : m ≤ M)
    {N : Nat} (hN : ∀ n, N ≤ n → Settled 8 m (t.repeated m n).srtt) (n : Nat) :
    (t.repeated m (N + n)).rttvar = (smooth 4 0)^[n] (t.repeated m N).rttvar := by
  induction n with
  | zero => rfl
  | succ n ih =>
    obtain ⟨hlo, hhi⟩ := hN (N + n) (Nat.le_add_right N n)
    have hn := (ht.repeated hM hm hmM (N + n)).1
    have hzero : m - (t.repeated m (N + n)).srtt / 8 = 0 := by omega
    rw [← Nat.add_assoc, repeated_succ, (sampled_eq hn.updates (hn.fits hM hm hmM)).2, hzero, abs_zero, ih,
      Function.iterate_succ_apply']

theorem Timer.Bounded.settles (ht : t.Bounded M) (hM : M ≤ 2 ^ 27) (hm : 0 ≤ m) (hmM : m ≤ M) :
    t.Settles m := by
  have hsrtt := fun n => (ht.repeated hM hm hmM n).2
  obtain ⟨N, hN⟩ := iterate_smooth_settles (d := 8) (by decide) m t.srtt
  refine { up := ?_, down := ?_, srtt := ⟨N, ?_⟩, rttvar := ?_ }
  · intro hle n
    have hbelow : t.srtt < 8 * (m + 1) := by omega
    obtain ⟨hle, hlt⟩ := iterate_smooth_up (by decide) hbelow n
    rw [hsrtt, hsrtt]
    exact ⟨hle, by omega⟩
  · intro habove n
    rw [hsrtt, hsrtt]
    exact iterate_smooth_down (by decide) habove n
  · intro n hn
    obtain ⟨⟨hlo, hhi⟩, hsame⟩ := hN n hn
    rw [hsrtt, hsrtt]
    exact ⟨⟨hlo, by omega⟩, hsame⟩
  · have hsettled : ∀ n, N ≤ n → Settled 8 m (t.repeated m n).srtt := by
      intro n hn
      rw [hsrtt]
      exact (hN n hn).1
    obtain ⟨K, hK⟩ := iterate_smooth_settles (d := 4) (by decide) 0 (t.repeated m N).rttvar
    refine ⟨N + K, ?_⟩
    intro n hn
    obtain ⟨k, rfl⟩ := Nat.exists_eq_add_of_le (Nat.le_of_add_right_le hn)
    obtain ⟨⟨hlo, hhi⟩, -⟩ := hK k (by omega)
    rw [ht.repeated_rttvar hM hm hmM hsettled k]
    omega

/-- **The estimator is stable**, after any samples from 0 to `M`. -/
theorem estimate_stable {M : Int} (hM₀ : 375000 ≤ M) (hM : M ≤ 2 ^ 27) {samples : List Int}
    (hs : ∀ m ∈ samples, 0 ≤ m ∧ m ≤ M) : (Timer.estimate samples).Stable M := by
  have ht : (Timer.estimate samples).Bounded M := (Timer.Bounded.start hM₀).foldl hM hs
  have hsrtt := ht.srtt
  have hrttvar := ht.rttvar
  exact {
    srtt := by omega
    rttvar := by omega
    fits := fun m hm hmM => ht.fits hM hm hmM
    rto := fun m _ _ => ht.rto
    settles := fun m hm hmM => ht.settles hM hm hmM }

/-- After a sample of a second, and one of none, with samples of up to two seconds. -/
theorem estimate_stable_two : (Timer.estimate [1000000, 0]).Stable 2000000 :=
  estimate_stable (by decide) (by decide) (by decide)

end Sockets.Udp
