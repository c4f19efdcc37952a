/-
Computations that note what they do, and may have no outcome; what was noted
until then is kept. A watch reads the notes one after another and says of
each whether it is all right. `Watch.Ensures` is the triple for them: every
note is all right, and where there is an outcome the postcondition holds; its
rules follow the computation.
-/
import Mathlib.Data.List.Basic

namespace Sockets

/-- A computation with its notes. -/
structure Noted (ε α : Type) where
  notes : List ε
  outcome : Option α

namespace Noted

variable {ε α β : Type}

def note (e : ε) : Noted ε Unit := ⟨[e], some ()⟩

/-- A step that has nothing to note. -/
def ofOption (o : Option α) : Noted ε α := ⟨[], o⟩

instance : Monad (Noted ε) where
  pure a := ⟨[], some a⟩
  bind x f :=
    match x.outcome with
    | none => ⟨x.notes, none⟩
    | some a => ⟨x.notes ++ (f a).notes, (f a).outcome⟩

@[simp] theorem outcome_note (e : ε) : (note e).outcome = some () := rfl

@[simp] theorem outcome_ofOption (o : Option α) : (ofOption o : Noted ε α).outcome = o := rfl

@[simp] theorem outcome_pure (a : α) : (pure a : Noted ε α).outcome = some a := rfl

@[simp] theorem outcome_bind (x : Noted ε α) (f : α → Noted ε β) :
    (x >>= f).outcome = x.outcome.bind fun a => (f a).outcome := by
  obtain ⟨notes, _ | a⟩ := x <;> rfl

@[simp] theorem outcome_ite (c : Prop) [Decidable c] (x y : Noted ε α) :
    (if c then x else y).outcome = if c then x.outcome else y.outcome := by
  split <;> rfl

end Noted

/-- Which notes are all right, and what the watch knows after each. -/
structure Watch (ε σ : Type) where
  ok : σ → ε → Prop
  next : σ → ε → σ

namespace Watch

variable {ε σ α β : Type} (W : Watch ε σ)

/-- All the notes are all right. -/
def Accepts : σ → List ε → Prop
  | _, [] => True
  | s, e :: es => W.ok s e ∧ Accepts (W.next s e) es

instance decidableAccepts [∀ s e, Decidable (W.ok s e)] : ∀ s es, Decidable (W.Accepts s es)
  | _, [] => .isTrue trivial
  | s, e :: es =>
    have : Decidable (W.Accepts (W.next s e) es) := decidableAccepts (W.next s e) es
    inferInstanceAs (Decidable (W.ok s e ∧ W.Accepts (W.next s e) es))

def after (s : σ) (es : List ε) : σ := es.foldl W.next s

theorem accepts_append {s : σ} {es fs : List ε} :
    W.Accepts s (es ++ fs) ↔ W.Accepts s es ∧ W.Accepts (W.after s es) fs := by
  induction es generalizing s with
  | nil => exact ⟨fun h => ⟨trivial, h⟩, And.right⟩
  | cons e es ih =>
    rw [List.cons_append, Accepts, Accepts, ih, and_assoc]
    rfl

theorem after_append (s : σ) (es fs : List ε) : W.after s (es ++ fs) = W.after (W.after s es) fs :=
  List.foldl_append

/-- From this state on all notes are all right, and the outcome, if there is one, satisfies `Q`. -/
def Ensures (s : σ) (x : Noted ε α) (Q : σ → α → Prop) : Prop :=
  W.Accepts s x.notes ∧ ∀ a, x.outcome = some a → Q (W.after s x.notes) a

variable {W} {s : σ} {Q : σ → α → Prop}

theorem Ensures.pure {a : α} (h : Q s a) : W.Ensures s (Pure.pure a) Q :=
  ⟨trivial, fun _ hb => Option.some.inj hb ▸ h⟩

theorem Ensures.note {Q : σ → Unit → Prop} {e : ε} (hok : W.ok s e) (h : Q (W.next s e) ()) :
    W.Ensures s (Noted.note e) Q :=
  ⟨⟨hok, trivial⟩, fun _ _ => h⟩

theorem Ensures.ofOption {o : Option α} (h : ∀ a, o = some a → Q s a) : W.Ensures s (Noted.ofOption o) Q :=
  ⟨trivial, h⟩

/-- What comes first is watched first. -/
theorem Accepts.of_bind {x : Noted ε β} {f : β → Noted ε α} (h : W.Accepts s (x >>= f).notes) :
    W.Accepts s x.notes := by
  obtain ⟨notes, outcome⟩ := x
  cases outcome with
  | none => exact h
  | some b => exact (W.accepts_append.mp h).1

/-- One computation after another. -/
theorem Ensures.bind {P : σ → β → Prop} {x : Noted ε β} {f : β → Noted ε α} (hx : W.Ensures s x P)
    (hf : ∀ s' b, P s' b → W.Ensures s' (f b) Q) : W.Ensures s (x >>= f) Q := by
  obtain ⟨notes, outcome⟩ := x
  obtain ⟨haccepts, hpost⟩ := hx
  cases outcome with
  | none => exact ⟨haccepts, fun _ ha => by cases ha⟩
  | some b =>
    obtain ⟨hnext, hlast⟩ := hf _ b (hpost b rfl)
    refine ⟨W.accepts_append.mpr ⟨haccepts, hnext⟩, fun a ha => ?_⟩
    exact (W.after_append s notes (f b).notes).symm ▸ hlast a ha

theorem Ensures.note_bind {e : ε} {f : Unit → Noted ε α} (hok : W.ok s e) (h : W.Ensures (W.next s e) (f ()) Q) :
    W.Ensures s (Noted.note e >>= f) Q :=
  .bind (P := fun s' _ => s' = W.next s e) (.note hok rfl) fun _ _ hs => hs ▸ h

/-- A step without notes leaves the watch where it is. -/
theorem Ensures.ofOption_bind {o : Option β} {f : β → Noted ε α} (h : ∀ b, o = some b → W.Ensures s (f b) Q) :
    W.Ensures s (Noted.ofOption o >>= f) Q :=
  .bind (P := fun s' b => s' = s ∧ o = some b) (.ofOption fun _ hb => ⟨rfl, hb⟩)
    fun _ b hb => hb.1 ▸ h b hb.2

theorem Ensures.mono {R : σ → α → Prop} {x : Noted ε α} (h : W.Ensures s x Q) (hQR : ∀ s' a, Q s' a → R s' a) :
    W.Ensures s x R :=
  ⟨h.1, fun a ha => hQR _ a (h.2 a ha)⟩

end Watch

end Sockets
