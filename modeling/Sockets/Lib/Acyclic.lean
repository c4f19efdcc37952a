/-
Relations without cycles, for pointers followed from one thing to the next.
Where nothing leads back to itself, a route visits nothing twice; and
turning the pointers of one element elsewhere makes no cycle, as long as
what they now lead to does not lead back to it.
-/
import Mathlib.Data.List.Chain
import Mathlib.Logic.Relation

namespace Sockets

variable {α : Type}

/-- Nothing leads back to itself. -/
def Acyclic (R : α → α → Prop) : Prop := ∀ a, ¬ Relation.TransGen R a a

/-- Whoever follows the relation never visits the same element twice. -/
def LoopFree (R : α → α → Prop) : Prop := ∀ route : List α, route.IsChain R → route.Nodup

variable {R R' : α → α → Prop} {n : α}

theorem Acyclic.loopFree (h : Acyclic R) : LoopFree R := by
  intro route hr
  have hchain : route.IsChain (Relation.TransGen R) := hr.imp fun _ _ => .single
  apply hchain.pairwise.imp
  intro a b hab he
  exact h a (he ▸ hab)

theorem LoopFree.mono (h : LoopFree R) (hsub : ∀ a b, R' a b → R a b) : LoopFree R' :=
  fun route hr => h route (hr.imp fun a b => hsub a b)

/-- What nothing points at is reached from itself only. -/
theorem not_reaches_of_no_in (hin : ∀ a, ¬ R a n) {b : α} (hb : b ≠ n) :
    ¬ Relation.ReflTransGen R b n := by
  intro h
  rcases h.cases_tail with he | ⟨a, -, ha⟩
  · exact hb he.symm
  · exact hin a ha

/-- From what points at nothing only itself is reached. -/
theorem not_reaches_of_no_out {b : α} (hout : ∀ a, ¬ R b a) (hb : b ≠ n) :
    ¬ Relation.ReflTransGen R b n := by
  intro h
  rcases h.cases_head with he | ⟨a, ha, -⟩
  · exact hb he
  · exact hout a ha

/-- **Redirecting.** New pointers out of `n` make no cycle, when what they
lead to does not lead back to `n`. -/
theorem Acyclic.redirect (h : Acyclic R)
    (hnew : ∀ a b, R' a b → R a b ∨ (a = n ∧ ¬ Relation.ReflTransGen R' b n)) : Acyclic R' := by
  -- a way is an old one, or takes a new pointer out of `n` and never comes back
  have hway : ∀ {x y}, Relation.TransGen R' x y → Relation.TransGen R x y ∨
      (Relation.ReflTransGen R' x n ∧
        ∃ b, ¬ Relation.ReflTransGen R' b n ∧ Relation.ReflTransGen R' b y) := by
    intro x y hxy
    induction hxy with
    | single hxb =>
      rcases hnew _ _ hxb with hold | ⟨rfl, hback⟩
      · exact .inl (.single hold)
      · exact .inr ⟨.refl, _, hback, .refl⟩
    | tail hxb hby ih =>
      rcases hnew _ _ hby with hold | ⟨rfl, hback⟩
      · rcases ih with ih | ⟨hxn, b, hback, hb⟩
        · exact .inl (ih.tail hold)
        · exact .inr ⟨hxn, b, hback, hb.tail hby⟩
      · exact .inr ⟨hxb.to_reflTransGen, _, hback, .refl⟩
  intro a ha
  rcases hway ha with hold | ⟨han, b, hback, hba⟩
  · exact h a hold
  · exact hback (hba.trans han)

end Sockets
