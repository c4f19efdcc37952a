/-
Pipes, and what a reader makes of the texts in one. A writer ends each text
with `nul`; the reader takes what there is, at most `k` elements at a time,
and looks for a text only where a read starts.

So it finds a last text `t` exactly when one of its reads ends where `t`
starts: `Pending.read` keeps that as "a multiple of `k` stood in front of it
when it was written".
-/
import Mathlib.Data.List.Infix
import Mathlib.Data.Nat.ModEq
import Sockets.Lib.CString

namespace Sockets

variable {α : Type}

/-- What was written and not yet read; behind that, when the writer has closed its end, is the end. -/
structure Pipe (α : Type) where
  unread : List α := []
  closed : Bool := false

namespace Pipe

def write (p : Pipe α) (l : List α) : Pipe α := { p with unread := p.unread ++ l }

def close (p : Pipe α) : Pipe α := { p with closed := true }

/-- A read that returns the next `n` elements. -/
def read (p : Pipe α) (n : Nat) : Option (List α × Pipe α) :=
  if 0 < n ∧ n ≤ p.unread.length then some (p.unread.take n, { p with unread := p.unread.drop n }) else none

/-- A read returns 0. -/
def ended (p : Pipe α) : Bool := p.unread.isEmpty && p.closed

@[simp] theorem write_unread (p : Pipe α) (l : List α) : (p.write l).unread = p.unread ++ l := rfl
@[simp] theorem write_closed (p : Pipe α) (l : List α) : (p.write l).closed = p.closed := rfl
@[simp] theorem close_unread (p : Pipe α) : p.close.unread = p.unread := rfl
@[simp] theorem close_closed (p : Pipe α) : p.close.closed = true := rfl

theorem ended_iff {p : Pipe α} : p.ended = true ↔ p.unread = [] ∧ p.closed = true := by
  rw [ended, Bool.and_eq_true, List.isEmpty_iff]

theorem read_eq_some {p p' : Pipe α} {n : Nat} {l : List α} (h : p.read n = some (l, p')) :
    p.unread = l ++ p'.unread ∧ p'.closed = p.closed ∧ l.length = n ∧ 0 < n := by
  rw [read, Option.ite_none_right_eq_some] at h
  obtain ⟨⟨hpos, hn⟩, heq⟩ := h
  obtain ⟨rfl, rfl⟩ := Prod.mk.inj (Option.some.inj heq)
  exact ⟨(List.take_append_drop n p.unread).symm, rfl, List.length_take_of_le hn, hpos⟩

/-- A read that takes what there is, as far as there is room. -/
theorem read_min {p : Pipe α} (k : Nat) (hk : 0 < k) : p.read (min k p.unread.length) =
    if p.unread = [] then none else some (p.unread.take k, { p with unread := p.unread.drop k }) := by
  rw [read]
  split
  next h =>
    have hne : p.unread ≠ [] := List.ne_nil_of_length_pos (by omega)
    rw [if_neg hne]
    rcases Nat.lt_or_ge p.unread.length k with hlt | hle
    · rw [Nat.min_eq_right hlt.le, List.take_length, List.drop_length, List.take_of_length_le hlt.le,
        List.drop_of_length_le hlt.le]
    · rw [Nat.min_eq_left hle]
  next h =>
    rw [if_pos]
    by_contra hne
    have hpos := List.length_pos_of_ne_nil hne
    omega

end Pipe

/-! ## Texts with `nul` behind them -/

variable {nul : α} {t m u w : List α} {k : Nat}

/-- The last text that was written is complete. -/
def Terminated (nul : α) (w : List α) : Prop := w = [] ∨ [nul] <:+ w

theorem Terminated.append (w m : List α) : Terminated nul (w ++ (m ++ [nul])) :=
  .inr ⟨w ++ m, by rw [List.append_assoc]⟩

theorem Terminated.of_suffix (h : Terminated nul w) (hu : u <:+ w) : Terminated nul u := by
  rcases u.eq_nil_or_concat with rfl | ⟨front, c, rfl⟩
  · exact .inl rfl
  · rw [List.concat_eq_append] at hu ⊢
    rcases h with rfl | hw
    · exact .inl (List.suffix_nil.mp hu)
    · exact .inr (List.suffix_of_suffix_length_le hw hu (by simp))

theorem Terminated.nul_mem (h : Terminated nul w) (hw : w ≠ []) : nul ∈ w :=
  (h.resolve_left hw).mem List.mem_cons_self

/-- A text ends at the first `nul`, whatever is behind it. -/
theorem prefix_of_prefix_append (ht : nul ∉ t) (hu : nul ∈ u) (h : t ++ [nul] <+: u ++ w) : t ++ [nul] <+: u := by
  apply List.prefix_of_prefix_length_le h (List.prefix_append u w)
  by_contra hlong
  rw [List.length_append, List.length_singleton, Nat.not_le] at hlong
  have hstarts : u <+: t :=
    List.prefix_of_prefix_length_le (List.prefix_append u w) ((List.prefix_append t [nul]).trans h) (by omega)
  exact ht (hstarts.subset hu)

/-- What a read leaves in the buffer behind the texts does not matter. -/
theorem prefix_received_iff {a : List.Vector α k} (hu : Terminated nul u) (hne : u ≠ []) (ht : nul ∉ t) :
    t ++ [nul] <+: (received a (u.take k)).toList ↔ t ++ [nul] <+: u.take k := by
  rw [received, List.Vector.toList_mk, List.take_take, Nat.min_self]
  constructor
  · intro h
    rcases Nat.lt_or_ge k u.length with hlt | hle
    · rwa [List.length_take_of_le hlt.le, List.drop_eq_nil_of_le a.toList_length.le, List.append_nil] at h
    · rw [List.take_of_length_le hle] at h ⊢
      exact prefix_of_prefix_append ht (hu.nul_mem hne) h
  · intro h
    exact h.trans (List.prefix_append _ _)

/-- No text that was written is `t`, nor ends in it. -/
structure Unsaid (nul : α) (t w : List α) : Prop where
  terminated : Terminated nul w
  unsaid : ¬ t ++ [nul] <:+: w

namespace Unsaid

theorem nil : Unsaid nul t [] := ⟨.inl rfl, by simp⟩

theorem of_suffix (h : Unsaid nul t w) (hu : u <:+ w) : Unsaid nul t u :=
  ⟨h.terminated.of_suffix hu, fun hfound => h.unsaid (hfound.trans hu.isInfix)⟩

theorem not_start (h : Unsaid nul t u) : ¬ t ++ [nul] <+: u := fun hstarts => h.unsaid hstarts.isInfix

/-- Another text does not say it. -/
theorem append (h : Unsaid nul t w) (ht : nul ∉ t) (hm : nul ∉ m) (hne : ¬ t <:+ m) :
    Unsaid nul t (w ++ (m ++ [nul])) := by
  refine ⟨.append w m, ?_⟩
  have hlast : ¬ t ++ [nul] <:+: m ++ [nul] := by
    intro hfound
    rcases List.infix_concat_iff.mp hfound with hsuffix | hfound
    · exact hne (List.suffix_append_self_iff.mp hsuffix)
    · exact hm (hfound.subset (List.mem_append_right t List.mem_cons_self))
  intro hfound
  rcases List.infix_append_iff.mp hfound with hw | hmn | ⟨front, back, heq, hfront, hback⟩
  · exact h.unsaid hw
  · exact hlast hmn
  · rcases eq_or_ne front [] with rfl | hcons
    · rw [heq, List.nil_append] at hlast
      exact hlast hback.isInfix
    · -- what stands in front of `m` ends with a `nul`: there it would have been said before
      have hnul : nul ∈ front := (h.terminated.of_suffix hfront).nul_mem hcons
      have hstarts : t ++ [nul] <+: front := prefix_of_prefix_append ht hnul (w := back) (by rw [heq])
      exact h.unsaid (hstarts.isInfix.trans hfront.isInfix)

end Unsaid

/-- The last text is `t`, with `told` elements in front of it when it was written, of which a reader
takes `k` at a time; or it has read into it. -/
def Pending (nul : α) (t : List α) (k told : Nat) (u : List α) : Prop :=
  (∃ w, u = w ++ (t ++ [nul]) ∧ Unsaid nul t w ∧ w.length ≡ told [MOD k]) ∨ (Unsaid nul t u ∧ ¬ k ∣ told)

/-- Less than the whole text does not say it. -/
theorem unsaid_drop {j : Nat} (hj : 0 < j) : Unsaid nul t ((t ++ [nul]).drop j) := by
  have hsuffix : (t ++ [nul]).drop j <:+ t ++ [nul] := List.drop_suffix j _
  refine ⟨Terminated.of_suffix (Terminated.append [] t) hsuffix, ?_⟩
  intro hfound
  have hlen := hfound.length_le
  rw [List.length_drop, List.length_append, List.length_singleton] at hlen
  omega

namespace Pending

variable {told : Nat}

theorem start (hw : Unsaid nul t w) : Pending nul t k w.length (w ++ (t ++ [nul])) := .inl ⟨w, rfl, hw, rfl⟩

theorem terminated (h : Pending nul t k told u) : Terminated nul u := by
  rcases h with ⟨w, rfl, -, -⟩ | ⟨hu, -⟩
  · exact .append w t
  · exact hu.terminated

/-- Where the text is found, reads end where it starts; else it may still be found. -/
theorem read (h : Pending nul t k told u) (ht : nul ∉ t) (hk : t.length < k) :
    (t ++ [nul] <+: u.take k → k ∣ told) ∧
      (¬ t ++ [nul] <+: u.take k → Pending nul t k told (u.drop k)) := by
  rcases h with ⟨w, rfl, hw, hmod⟩ | ⟨hu, htold⟩
  · rcases eq_or_ne w [] with rfl | hcons
    · rw [List.nil_append, List.take_of_length_le (by rw [List.length_append, List.length_singleton]; omega)]
      have hdvd : k ∣ told := (Nat.modEq_zero_iff_dvd).mp hmod.symm
      exact ⟨fun _ => hdvd, fun hne => absurd (List.prefix_refl _) hne⟩
    · -- it is not found yet: the first read starts with another text
      have hne : ¬ t ++ [nul] <+: (w ++ (t ++ [nul])).take k := by
        intro hstarts
        have hsaid := hstarts.trans (List.take_prefix k _)
        exact hw.not_start (prefix_of_prefix_append ht (hw.terminated.nul_mem hcons) hsaid)
      refine ⟨fun hstarts => absurd hstarts hne, fun _ => ?_⟩
      rcases Nat.lt_or_ge w.length k with hlt | hle
      · rw [List.drop_append, List.drop_eq_nil_of_le hlt.le, List.nil_append]
        refine .inr ⟨unsaid_drop (by omega), ?_⟩
        intro hdvd
        have hzero : k ∣ w.length := (hmod.dvd_iff dvd_rfl).mpr hdvd
        have hpos := List.length_pos_of_ne_nil hcons
        exact absurd (Nat.le_of_dvd hpos hzero) (by omega)
      · rw [List.drop_append_of_le_length hle]
        refine .inl ⟨w.drop k, rfl, hw.of_suffix (List.drop_suffix k w), ?_⟩
        rw [List.length_drop]
        exact ((Nat.modEq_sub_modulus_iff hle).mpr hmod.symm).symm
  · have hne : ¬ t ++ [nul] <+: u.take k := fun hstarts => hu.not_start (hstarts.trans (List.take_prefix k u))
    exact ⟨fun hstarts => absurd hstarts hne, fun _ => .inr ⟨hu.of_suffix (List.drop_suffix k u), htold⟩⟩

/-- Where all has been read, it was not found. -/
theorem missed (h : Pending nul t k told []) : ¬ k ∣ told := by
  rcases h with ⟨w, hnil, -, -⟩ | ⟨-, htold⟩
  · simp at hnil
  · exact htold

end Pending

end Sockets
