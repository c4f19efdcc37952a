/-
Averages in integer arithmetic. The state is kept at `d` times the average;
a step lets a `d`-th part of it go, rounded down, and takes in a sample. The
state then stays below `d` times one more than the largest sample, and under
a constant sample `m` it moves to where the average, rounded down, is `m`,
without passing it, and stays there.
-/
import Mathlib.Logic.Function.Iterate
import Mathlib.Tactic.Linarith

namespace Sockets

/-- A step of the average. -/
def smooth (d m x : Int) : Int := x - x / d + m

/-- The average, rounded down, is the sample. -/
def Settled (d m x : Int) : Prop := d * m ≤ x ∧ x < d * (m + 1)

variable {d m M x : Int}

theorem smooth_bounds (hd : 0 < d) (hx : 0 ≤ x) (hxM : x < d * (M + 1)) (hm : 0 ≤ m) (hmM : m ≤ M) :
    0 ≤ smooth d m x ∧ smooth d m x < d * (M + 1) := by
  have hq : 0 ≤ x / d := Int.ediv_nonneg hx hd.le
  have hqM : x / d < M + 1 := Int.ediv_lt_of_lt_mul hd (by rwa [Int.mul_comm])
  have hlo : x / d * d ≤ x := Int.ediv_mul_le x hd.ne'
  have hhi : x < (x / d + 1) * d := Int.lt_ediv_add_one_mul_self x hd
  unfold smooth
  constructor
  · nlinarith
  · nlinarith

/-- A settled state does not move. -/
theorem Settled.smooth_eq (hd : 0 < d) (hs : Settled d m x) : smooth d m x = x := by
  obtain ⟨hlo, hhi⟩ := hs
  have hq : x / d = m := by
    apply le_antisymm
    · exact Int.lt_add_one_iff.mp (Int.ediv_lt_of_lt_mul hd (by rwa [Int.mul_comm]))
    · exact Int.le_ediv_of_mul_le hd (by rwa [Int.mul_comm])
  rw [smooth, hq]
  omega

theorem smooth_rises (hd : 0 < d) (hx : x < d * m) : x < smooth d m x ∧ smooth d m x ≤ d * m := by
  have hq : x / d < m := Int.ediv_lt_of_lt_mul hd (by rwa [Int.mul_comm])
  have hhi : x < (x / d + 1) * d := Int.lt_ediv_add_one_mul_self x hd
  unfold smooth
  constructor
  · omega
  · nlinarith

theorem smooth_falls (hd : 0 < d) (hx : d * (m + 1) ≤ x) : smooth d m x < x ∧ d * m ≤ smooth d m x := by
  have hq : m + 1 ≤ x / d := Int.le_ediv_of_mul_le hd (by rwa [Int.mul_comm])
  have hlo : x / d * d ≤ x := Int.ediv_mul_le x hd.ne'
  unfold smooth
  constructor
  · omega
  · nlinarith

/-- From below, a step does not move down, and not past the settled states. -/
theorem smooth_up (hd : 0 < d) (hx : x < d * (m + 1)) : x ≤ smooth d m x ∧ smooth d m x < d * (m + 1) := by
  by_cases hlow : x < d * m
  · obtain ⟨hlt, hle⟩ := smooth_rises hd hlow
    exact ⟨hlt.le, by nlinarith⟩
  · rw [Settled.smooth_eq hd ⟨not_lt.mp hlow, hx⟩]
    exact ⟨le_refl x, hx⟩

/-- From above, a step does not move up, and not past them. -/
theorem smooth_down (hd : 0 < d) (hx : d * m ≤ x) : smooth d m x ≤ x ∧ d * m ≤ smooth d m x := by
  by_cases hhigh : d * (m + 1) ≤ x
  · obtain ⟨hlt, hle⟩ := smooth_falls hd hhigh
    exact ⟨hlt.le, hle⟩
  · rw [Settled.smooth_eq hd ⟨hx, not_le.mp hhigh⟩]
    exact ⟨le_refl x, hx⟩

theorem iterate_smooth_up (hd : 0 < d) (hx : x < d * (m + 1)) (n : Nat) :
    (smooth d m)^[n] x ≤ (smooth d m)^[n + 1] x ∧ (smooth d m)^[n + 1] x < d * (m + 1) := by
  have hbelow : (smooth d m)^[n] x < d * (m + 1) := by
    induction n with
    | zero => exact hx
    | succ n ih =>
      rw [Function.iterate_succ_apply']
      exact (smooth_up hd ih).2
  rw [Function.iterate_succ_apply']
  exact smooth_up hd hbelow

theorem iterate_smooth_down (hd : 0 < d) (hx : d * m ≤ x) (n : Nat) :
    (smooth d m)^[n + 1] x ≤ (smooth d m)^[n] x ∧ d * m ≤ (smooth d m)^[n + 1] x := by
  have habove : d * m ≤ (smooth d m)^[n] x := by
    induction n with
    | zero => exact hx
    | succ n ih =>
      rw [Function.iterate_succ_apply']
      exact (smooth_down hd ih).2
  rw [Function.iterate_succ_apply']
  exact smooth_down hd habove

/-- Each step before the state is settled brings it nearer. -/
theorem exists_settled (hd : 0 < d) (m x : Int) : ∃ n, Settled d m ((smooth d m)^[n] x) := by
  induction hdist : (x - d * m).natAbs using Nat.strong_induction_on generalizing x with
  | _ dist ih =>
    subst hdist
    by_cases hlow : x < d * m
    · obtain ⟨hlt, hle⟩ := smooth_rises hd hlow
      obtain ⟨n, hn⟩ := ih _ (by omega) (smooth d m x) rfl
      exact ⟨n + 1, hn⟩
    by_cases hhigh : d * (m + 1) ≤ x
    · obtain ⟨hlt, hle⟩ := smooth_falls hd hhigh
      obtain ⟨n, hn⟩ := ih _ (by omega) (smooth d m x) rfl
      exact ⟨n + 1, hn⟩
    · exact ⟨0, not_lt.mp hlow, not_le.mp hhigh⟩

/-- **Settling.** Under a constant sample the state is settled after some steps, and does not
move any more. -/
theorem iterate_smooth_settles (hd : 0 < d) (m x : Int) :
    ∃ N, ∀ n, N ≤ n → Settled d m ((smooth d m)^[n] x) ∧ (smooth d m)^[n] x = (smooth d m)^[N] x := by
  obtain ⟨N, hN⟩ := exists_settled hd m x
  refine ⟨N, ?_⟩
  intro n hn
  have hsame : (smooth d m)^[n] x = (smooth d m)^[N] x := by
    obtain ⟨k, rfl⟩ := Nat.exists_eq_add_of_le hn
    rw [Nat.add_comm, Function.iterate_add_apply]
    exact Function.iterate_fixed (hN.smooth_eq hd) k
  exact ⟨hsame ▸ hN, hsame⟩

end Sockets
