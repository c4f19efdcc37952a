/-
Longest matches: how far two lists agree, and the scan of a list that keeps
the best element so far.

The scan replaces what it keeps by an element that passes the test and has a
greater key, so it ends with the first element of the greatest key among those
that pass (`scanBest_eq_some_iff`).
-/
import Mathlib.Order.Lattice
import Mathlib.Data.List.Basic

namespace Sockets

/-! ## Common prefixes -/

section CommonLength

variable {α : Type} [DecidableEq α]

/-- The length of the longest common prefix. -/
def commonLength : List α → List α → Nat
  | a :: as, b :: bs => if a = b then commonLength as bs + 1 else 0
  | _, _ => 0

/-- Two lists have the first `k` elements in common if they agree there. -/
theorem le_commonLength_iff {l l' : List α} {k : Nat} (hl : k ≤ l.length) (hl' : k ≤ l'.length) :
    k ≤ commonLength l l' ↔ l.take k = l'.take k := by
  induction k generalizing l l' with
  | zero => simp
  | succ k ih =>
    match l, l' with
    | a :: as, b :: bs =>
      simp only [List.length_cons, Nat.add_le_add_iff_right] at hl hl'
      rw [commonLength, List.take_succ_cons, List.take_succ_cons, List.cons.injEq]
      split
      next he => rw [Nat.add_le_add_iff_right, ih hl hl', and_iff_right he]
      next hne => exact iff_of_false (Nat.not_succ_le_zero k) fun hsame => hne hsame.1

theorem commonLength_le (l l' : List α) : commonLength l l' ≤ l.length := by
  induction l generalizing l' with
  | nil => exact Nat.zero_le _
  | cons a as ih =>
    cases l' with
    | nil => exact Nat.zero_le _
    | cons b bs =>
      rw [commonLength]
      split
      · exact Nat.succ_le_succ (ih bs)
      · exact Nat.zero_le _

end CommonLength

/-! ## The best so far -/

section ScanBest

variable {α κ : Type} [LinearOrder κ] (ok : α → Bool) (key : α → κ)

/-- From left to right: an element that passes the test takes the place of the best so far if its
key is greater. -/
def scanBest : Option α → List α → Option α
  | best, [] => best
  | best, a :: l => scanBest (if ok a ∧ ∀ b ∈ best, key b < key a then some a else best) l

variable {ok key}

/-- What is found is the best so far, if nothing that passes is greater, or the first one with the
greatest key. -/
theorem scanBest_eq_some_iff {best : Option α} {l : List α} {a : α} : scanBest ok key best l = some a ↔
    (best = some a ∧ ∀ b ∈ l, ok b = true → key b ≤ key a) ∨
      ∃ front back, l = front ++ a :: back ∧ ok a = true ∧ (∀ b ∈ best, key b < key a) ∧
        (∀ b ∈ front, ok b = true → key b < key a) ∧ ∀ b ∈ back, ok b = true → key b ≤ key a := by
  induction l generalizing best with
  | nil => simp [scanBest]
  | cons c l ih =>
    rw [scanBest, ih]
    split
    next htake =>
      constructor
      · intro h
        rcases h with ⟨hc, hmax⟩ | ⟨front, back, rfl, hok, hbest, hfront, hback⟩
        · obtain rfl := Option.some.inj hc
          exact .inr ⟨[], l, rfl, htake.1, htake.2, List.forall_mem_nil _, hmax⟩
        · have hlt : key c < key a := hbest c rfl
          refine .inr ⟨c :: front, back, rfl, hok, fun b hb => (htake.2 b hb).trans hlt, ?_, hback⟩
          exact List.forall_mem_cons.mpr ⟨fun _ => hlt, hfront⟩
      · intro h
        rcases h with ⟨rfl, hmax⟩ | ⟨front, back, heq, hok, hbest, hfront, hback⟩
        · exact absurd (htake.2 a rfl) (not_lt.mpr (hmax c List.mem_cons_self htake.1))
        cases front with
        | nil =>
          obtain ⟨rfl, rfl⟩ := List.cons.inj heq
          exact .inl ⟨rfl, hback⟩
        | cons d front =>
          obtain ⟨rfl, rfl⟩ := List.cons.inj heq
          rw [List.forall_mem_cons] at hfront
          refine .inr ⟨front, back, rfl, hok, ?_, hfront.2, hback⟩
          intro b hb
          exact Option.some.inj hb ▸ hfront.1 htake.1
    next hleave =>
      constructor
      · intro h
        rcases h with ⟨rfl, hmax⟩ | ⟨front, back, rfl, hok, hbest, hfront, hback⟩
        · refine .inl ⟨rfl, List.forall_mem_cons.mpr ⟨?_, hmax⟩⟩
          intro hc
          exact not_lt.mp fun hlt => hleave ⟨hc, fun b hb => Option.some.inj hb ▸ hlt⟩
        · refine .inr ⟨c :: front, back, rfl, hok, hbest, List.forall_mem_cons.mpr ⟨?_, hfront⟩, hback⟩
          intro hc
          -- what was kept is no worse than what was left
          by_contra hge
          exact hleave ⟨hc, fun b hb => (hbest b hb).trans_le (not_lt.mp hge)⟩
      · intro h
        rcases h with ⟨rfl, hmax⟩ | ⟨front, back, heq, hok, hbest, hfront, hback⟩
        · exact .inl ⟨rfl, (List.forall_mem_cons.mp hmax).2⟩
        cases front with
        | nil =>
          obtain ⟨rfl, rfl⟩ := List.cons.inj heq
          exact absurd ⟨hok, hbest⟩ hleave
        | cons d front =>
          obtain ⟨rfl, rfl⟩ := List.cons.inj heq
          exact .inr ⟨front, back, rfl, hok, hbest, (List.forall_mem_cons.mp hfront).2, hback⟩

end ScanBest

end Sockets
