/-
Machines given by a partial step function: what an event does to a state,
or `none` where the event cannot happen there (or where C gives it no
defined outcome). Their runs, the invariant rule, runs all of whose steps
satisfy a guard, and the simulation of one machine by another.

`along_congr` is the rule behind "the property holds on a run exactly when
every step of it meets the condition": if, where the invariant holds, the
property of a step is equivalent to the guard, then so are they along runs.
-/
import Mathlib.Data.List.Basic

namespace Sockets

/-- Where a machine starts, and what each event does to a state. -/
structure Machine (σ ε : Type) where
  init : σ
  step : σ → ε → Option σ

namespace Machine

variable {σ ε : Type} {M : Machine σ ε}

/-- The state after the events, in order; `none` when one of them cannot happen. -/
def exec (M : Machine σ ε) : σ → List ε → Option σ
  | s, [] => some s
  | s, e :: es => (M.step s e).bind fun s' => M.exec s' es

/-- A state some run ends in. -/
def Reachable (M : Machine σ ε) (s : σ) : Prop := ∃ es, M.exec M.init es = some s

/-- A state some run ends in all of whose steps satisfy `G`. -/
inductive ReachableBy (M : Machine σ ε) (G : σ → ε → σ → Prop) : σ → Prop
  | init : ReachableBy M G M.init
  | step {s e s'} : ReachableBy M G s → M.step s e = some s' → G s e s' → ReachableBy M G s'

/-- Every step the run takes satisfies `G`, up to the first event that cannot happen. -/
def Along (M : Machine σ ε) (G : σ → ε → σ → Prop) : σ → List ε → Prop
  | _, [] => True
  | s, e :: es => ∀ s', M.step s e = some s' → G s e s' ∧ M.Along G s' es

@[simp] theorem exec_nil (s : σ) : M.exec s [] = some s := rfl

theorem exec_cons_iff {s r : σ} {e : ε} {es : List ε} :
    M.exec s (e :: es) = some r ↔ ∃ s', M.step s e = some s' ∧ M.exec s' es = some r := by
  simp [exec, Option.bind_eq_some_iff]

theorem exec_append {s r : σ} {es fs : List ε} :
    M.exec s (es ++ fs) = some r ↔ ∃ m, M.exec s es = some m ∧ M.exec m fs = some r := by
  induction es generalizing s with
  | nil => simp
  | cons e es ih =>
    rw [List.cons_append, exec_cons_iff]
    constructor
    · rintro ⟨s', hs, h⟩
      obtain ⟨m, hm, hf⟩ := ih.mp h
      exact ⟨m, exec_cons_iff.mpr ⟨s', hs, hm⟩, hf⟩
    · rintro ⟨m, hm, hf⟩
      obtain ⟨s', hs, hm⟩ := exec_cons_iff.mp hm
      exact ⟨s', hs, ih.mpr ⟨m, hm, hf⟩⟩

/-- What evaluating a run shows: it ends, in a state that passes the test. -/
theorem reachable_of_exec_any (es : List ε) (test : σ → Bool)
    (h : ((M.exec M.init es).any test) = true) :
    ∃ s, M.Reachable s ∧ test s = true := by
  obtain ⟨s, hs, ht⟩ := (Option.any_eq_true _ _).mp h
  exact ⟨s, ⟨es, hs⟩, ht⟩

theorem exec_invariant {I : σ → Prop} (hstep : ∀ s e s', I s → M.step s e = some s' → I s')
    {es : List ε} {s r : σ} (h : I s) (hr : M.exec s es = some r) : I r := by
  induction es generalizing s with
  | nil =>
    simp only [exec_nil, Option.some.injEq] at hr
    exact hr ▸ h
  | cons e es ih =>
    obtain ⟨s', hs, hr⟩ := exec_cons_iff.mp hr
    have hs' : I s' := hstep s e s' h hs
    exact ih hs' hr

/-- **Bounded runs.** Where every step keeps `I` and does not raise the rank, and the events that
pass the test lower it, a run has no more of these than the rank it starts with. -/
theorem exec_countP_le {I : σ → Prop} {rank : σ → Nat} {test : ε → Bool}
    (hstep : ∀ s e s', I s → M.step s e = some s' →
      I s' ∧ rank s' ≤ rank s ∧ (test e = true → rank s' < rank s))
    {es : List ε} {s r : σ} (h : I s) (hr : M.exec s es = some r) : es.countP test ≤ rank s := by
  induction es generalizing s with
  | nil => exact Nat.zero_le _
  | cons e es ih =>
    obtain ⟨s', hs, hr⟩ := exec_cons_iff.mp hr
    obtain ⟨hs', hle, hlt⟩ := hstep s e s' h hs
    have hrest := ih hs' hr
    rw [List.countP_cons]
    split
    next ht =>
      have hlower := hlt ht
      omega
    next => omega

/-- Where each step of `M` is one of `N`, a run of `M` is a run of `N`. -/
theorem exec_map {τ : Type} {N : Machine τ ε} {f : σ → τ}
    (hstep : ∀ s e s', M.step s e = some s' → N.step (f s) e = some (f s')) {es : List ε} {s r : σ}
    (hr : M.exec s es = some r) : N.exec (f s) es = some (f r) := by
  induction es generalizing s with
  | nil =>
    simp only [exec_nil, Option.some.injEq] at hr
    rw [exec_nil, hr]
  | cons e es ih =>
    obtain ⟨s', hs, hr⟩ := exec_cons_iff.mp hr
    exact exec_cons_iff.mpr ⟨f s', hstep s e s' hs, ih hr⟩

theorem Reachable.start : M.Reachable M.init := ⟨[], rfl⟩

theorem Reachable.next {s s' : σ} {e : ε} (h : M.Reachable s) (hs : M.step s e = some s') :
    M.Reachable s' := by
  obtain ⟨es, hes⟩ := h
  exact ⟨es ++ [e], exec_append.mpr ⟨s, hes, exec_cons_iff.mpr ⟨s', hs, rfl⟩⟩⟩

theorem Reachable.exec {es : List ε} {s r : σ} (h : M.Reachable s) (hr : M.exec s es = some r) :
    M.Reachable r := by
  obtain ⟨es', hes'⟩ := h
  exact ⟨es' ++ es, exec_append.mpr ⟨s, hes', hr⟩⟩

/-- **Runs to the end.** Where no run goes on for ever, and there is a next step unless `P` holds, any
run can be continued to a state in which `P` holds. -/
theorem Reachable.exists_end {P : σ → Prop}
    (hends : WellFounded fun s' s => M.Reachable s ∧ ∃ e, M.step s e = some s')
    (hnext : ∀ s, M.Reachable s → P s ∨ ∃ e s', M.step s e = some s') {s : σ} (h : M.Reachable s) :
    ∃ es r, M.exec s es = some r ∧ P r := by
  induction s using hends.induction with
  | _ s ih =>
    rcases hnext s h with hp | ⟨e, s', hs⟩
    · exact ⟨[], s, rfl, hp⟩
    · obtain ⟨es, r, hr, hp⟩ := ih s' ⟨h, e, hs⟩ (h.next hs)
      exact ⟨e :: es, r, exec_cons_iff.mpr ⟨s', hs, hr⟩, hp⟩

/-- What holds at the start and is kept by every step holds of every reachable state. -/
theorem Reachable.invariant {I : σ → Prop} (h₀ : I M.init)
    (hstep : ∀ s e s', I s → M.step s e = some s' → I s') {s : σ} (h : M.Reachable s) : I s := by
  obtain ⟨es, hes⟩ := h
  exact exec_invariant hstep h₀ hes

/-- The same for runs under a guard: the guard may be used in keeping the invariant. -/
theorem ReachableBy.invariant {G : σ → ε → σ → Prop} {I : σ → Prop} (h₀ : I M.init)
    (hstep : ∀ s e s', I s → M.step s e = some s' → G s e s' → I s') {s : σ}
    (h : M.ReachableBy G s) : I s := by
  induction h with
  | init => exact h₀
  | step _ hs hg ih => exact hstep _ _ _ ih hs hg

theorem ReachableBy.reachable {G : σ → ε → σ → Prop} {s : σ} (h : M.ReachableBy G s) :
    M.Reachable s := by
  induction h with
  | init => exact .start
  | step _ hs _ ih => exact ih.next hs

/-- Any run is a run under the guard that asks for nothing. -/
theorem Reachable.reachableBy {s : σ} (h : M.Reachable s) : M.ReachableBy (fun _ _ _ => True) s :=
  h.invariant .init fun _ _ _ hs hstep => hs.step hstep trivial

/-- The steps of a run are those of its events. -/
theorem reachableBy_of_exec {es : List ε} {s : σ} (h : M.exec M.init es = some s) :
    M.ReachableBy (fun _ e _ => e ∈ es) s := by
  have hrun : ∀ fs m r, M.ReachableBy (fun _ e _ => e ∈ es) m → fs ⊆ es → M.exec m fs = some r →
      M.ReachableBy (fun _ e _ => e ∈ es) r := by
    intro fs
    induction fs with
    | nil =>
      intro m r hm _ hr
      simp only [exec_nil, Option.some.injEq] at hr
      exact hr ▸ hm
    | cons e fs ih =>
      intro m r hm hsub hr
      obtain ⟨s', hs, hr⟩ := exec_cons_iff.mp hr
      obtain ⟨he, hsub⟩ := List.cons_subset.mp hsub
      exact ih s' r (hm.step hs he) hsub hr
  exact hrun es M.init s .init (List.Subset.refl es) h

/-- **Simulation.** On related states each step of `M` is a step of `N`, or
none: then every state `M` reaches is related to one that `N` reaches. -/
theorem ReachableBy.simulated {τ δ : Type} {N : Machine τ δ} {G : σ → ε → σ → Prop}
    {H : τ → δ → τ → Prop} {R : σ → τ → Prop} (h₀ : R M.init N.init)
    (hstep : ∀ s e s' t, R s t → M.step s e = some s' → G s e s' →
      R s' t ∨ ∃ d t', N.step t d = some t' ∧ H t d t' ∧ R s' t')
    {s : σ} (h : M.ReachableBy G s) : ∃ t, N.ReachableBy H t ∧ R s t := by
  induction h with
  | init => exact ⟨N.init, .init, h₀⟩
  | step _ hs hg ih =>
    obtain ⟨t, ht, hr⟩ := ih
    rcases hstep _ _ _ t hr hs hg with hr | ⟨d, t', htt, hh, hr⟩
    · exact ⟨t, ht, hr⟩
    · exact ⟨t', ht.step htt hh, hr⟩

/-- The state after the events, in order, as long as each step satisfies the guard. -/
def execBy (M : Machine σ ε) (G : σ → ε → σ → Prop) [∀ s e s', Decidable (G s e s')] :
    σ → List ε → Option σ
  | s, [] => some s
  | s, e :: es => (M.step s e).bind fun s' => if G s e s' then M.execBy G s' es else none

theorem reachableBy_of_execBy {G : σ → ε → σ → Prop} [∀ s e s', Decidable (G s e s')] {es : List ε}
    {s r : σ} (h : M.ReachableBy G s) (hr : M.execBy G s es = some r) : M.ReachableBy G r := by
  induction es generalizing s with
  | nil =>
    simp only [execBy, Option.some.injEq] at hr
    exact hr ▸ h
  | cons e es ih =>
    simp only [execBy, Option.bind_eq_some_iff, Option.ite_none_right_eq_some] at hr
    obtain ⟨s', hs, hg, hr⟩ := hr
    have hs' : M.ReachableBy G s' := h.step hs hg
    exact ih hs' hr

/-- A run that gets through under the guard satisfies it throughout. -/
theorem along_of_execBy {G : σ → ε → σ → Prop} [∀ s e s', Decidable (G s e s')] {es : List ε} {s : σ}
    (h : (M.execBy G s es).isSome = true) : M.Along G s es := by
  induction es generalizing s with
  | nil => trivial
  | cons e es ih =>
    intro s' hs
    rw [execBy, hs, Option.bind_some] at h
    split at h
    next hg => exact ⟨hg, ih h⟩
    next => cases h

/-- What evaluating a guarded run shows. -/
theorem reachableBy_of_execBy_any {G : σ → ε → σ → Prop} [∀ s e s', Decidable (G s e s')] (es : List ε)
    (test : σ → Bool) (h : ((M.execBy G M.init es).any test) = true) :
    ∃ s, M.ReachableBy G s ∧ test s = true := by
  obtain ⟨s, hs, ht⟩ := (Option.any_eq_true _ _).mp h
  exact ⟨s, reachableBy_of_execBy .init hs, ht⟩

/-- **Guards that suffice.** Steps satisfying `G` keep `I` and satisfy `R`:
then a run from a state of `I` that satisfies `G` throughout satisfies `R`
throughout. -/
theorem Along.of_guard {R G : σ → ε → σ → Prop} {I : σ → Prop}
    (hstep : ∀ s e s', I s → M.step s e = some s' → G s e s' → R s e s' ∧ I s')
    {es : List ε} {s : σ} (h : I s) (ha : M.Along G s es) : M.Along R s es := by
  induction es generalizing s with
  | nil => trivial
  | cons e es ih =>
    intro s' hs
    have ⟨hg, ha⟩ := ha s' hs
    have ⟨hr, hi⟩ := hstep s e s' h hs hg
    exact ⟨hr, ih hi ha⟩

/-- A property of every step that leaves from, and keeps, an invariant holds throughout. -/
theorem Along.of_step {R : σ → ε → σ → Prop} {I : σ → Prop}
    (hstep : ∀ s e s', I s → M.step s e = some s' → R s e s' ∧ I s') {es : List ε} {s : σ} (h : I s) :
    M.Along R s es := by
  induction es generalizing s with
  | nil => trivial
  | cons e es ih =>
    intro s' hs
    have ⟨hr, hi⟩ := hstep s e s' h hs
    exact ⟨hr, ih hi⟩

/-- The last step of a run satisfies what all its steps do. -/
theorem Along.last {G : σ → ε → σ → Prop} {es : List ε} {e : ε} {s m s' : σ} (ha : M.Along G s (es ++ [e]))
    (hm : M.exec s es = some m) (hs : M.step m e = some s') : G m e s' := by
  induction es generalizing s with
  | nil =>
    simp only [exec_nil, Option.some.injEq] at hm
    subst hm
    exact (ha s' hs).1
  | cons e' es ih =>
    obtain ⟨s₁, hs₁, hm⟩ := exec_cons_iff.mp hm
    exact ih (ha s₁ hs₁).2 hm

/-- What every step of a run establishes holds where the run ends. -/
theorem Along.final {P : σ → Prop} {es : List ε} {s r : σ} (h : P s) (ha : M.Along (fun _ _ s' => P s') s es)
    (hr : M.exec s es = some r) : P r := by
  induction es generalizing s with
  | nil =>
    simp only [exec_nil, Option.some.injEq] at hr
    exact hr ▸ h
  | cons e es ih =>
    obtain ⟨s', hs, hr⟩ := exec_cons_iff.mp hr
    obtain ⟨hs', ha⟩ := ha s' hs
    exact ih hs' ha hr

/-- **Exact guards.** Where `I` holds, `R` holds of a step exactly when `G`
does, and steps satisfying `G` keep `I`: then a run from a state of `I`
satisfies `R` throughout exactly when it satisfies `G` throughout. The
events may be known to be of a kind `P`. -/
theorem along_congr_of_forall {R G : σ → ε → σ → Prop} {I : σ → Prop} {P : ε → Prop}
    (hiff : ∀ s e s', P e → I s → M.step s e = some s' → (R s e s' ↔ G s e s'))
    (hkeep : ∀ s e s', P e → I s → M.step s e = some s' → G s e s' → I s')
    {es : List ε} (hes : ∀ e ∈ es, P e) {s : σ} (h : I s) : M.Along R s es ↔ M.Along G s es := by
  induction es generalizing s with
  | nil => rfl
  | cons e es ih =>
    have he : P e := hes e List.mem_cons_self
    have hes : ∀ e ∈ es, P e := fun e hm => hes e (List.mem_cons_of_mem _ hm)
    simp only [Along]
    apply forall_congr'
    intro s'
    apply forall_congr'
    intro hs
    rw [hiff s e s' he h hs]
    apply and_congr_right
    intro hg
    have hs' : I s' := hkeep s e s' he h hs hg
    exact ih hes hs'

/-- The same for events of any kind. -/
theorem along_congr {R G : σ → ε → σ → Prop} {I : σ → Prop}
    (hiff : ∀ s e s', I s → M.step s e = some s' → (R s e s' ↔ G s e s'))
    (hkeep : ∀ s e s', I s → M.step s e = some s' → G s e s' → I s')
    {es : List ε} {s : σ} (h : I s) : M.Along R s es ↔ M.Along G s es :=
  along_congr_of_forall (P := fun _ => True) (fun s e s' _ => hiff s e s') (fun s e s' _ => hkeep s e s')
    (fun _ _ => trivial) h

end Machine

end Sockets
