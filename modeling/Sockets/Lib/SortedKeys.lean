/-
Lists strictly increasing in a key, as a linked list without repetitions
keeps them: insertion that drops a key already there, what it adds, and
that it keeps the order. For integer keys in a window `(lo, hi]`, the list
is no longer than the window, and a list as long as the window starts at
its bottom.
-/
import Mathlib.Data.List.Basic
import Mathlib.Order.Lattice

namespace Sockets

/-- Strictly increasing in the key. -/
def SortedBy {α κ : Type} [LT κ] (key : α → κ) (l : List α) : Prop :=
  l.Pairwise fun a b => key a < key b

theorem SortedBy.nil {α κ : Type} [LT κ] {key : α → κ} : SortedBy key [] := List.Pairwise.nil

theorem SortedBy.cons_iff {α κ : Type} [LT κ] {key : α → κ} {a : α} {l : List α} :
    SortedBy key (a :: l) ↔ (∀ b ∈ l, key a < key b) ∧ SortedBy key l := List.pairwise_cons

section Insert

variable {α κ : Type} [LinearOrder κ] (key : α → κ)

/-- Insertion in key order; a key already in the list is not inserted again. -/
def insertKey (x : α) : List α → List α
  | [] => [x]
  | y :: ys =>
    if key y = key x then y :: ys
    else if key x < key y then x :: y :: ys
    else y :: insertKey x ys

variable {key}

theorem mem_insertKey {x a : α} {l : List α} (h : a ∈ insertKey key x l) : a = x ∨ a ∈ l := by
  induction l with
  | nil => simpa [insertKey] using h
  | cons y ys ih =>
    simp only [insertKey] at h
    split at h
    · exact .inr h
    split at h
    · simpa using h
    · rcases List.mem_cons.mp h with rfl | h
      · exact .inr List.mem_cons_self
      · have hold := ih h
        exact hold.imp_right (List.mem_cons_of_mem _)

theorem mem_insertKey_of_mem {x a : α} {l : List α} (h : a ∈ l) : a ∈ insertKey key x l := by
  induction l with
  | nil => simp at h
  | cons y ys ih =>
    simp only [insertKey]
    split
    · exact h
    split
    · exact List.mem_cons_of_mem _ h
    · rcases List.mem_cons.mp h with rfl | h
      · exact List.mem_cons_self
      · exact List.mem_cons_of_mem _ (ih h)

variable (key) in
/-- The key is in the list after the insertion. -/
theorem exists_key_insertKey (x : α) (l : List α) : ∃ a ∈ insertKey key x l, key a = key x := by
  induction l with
  | nil => exact ⟨x, by simp [insertKey], rfl⟩
  | cons y ys ih =>
    simp only [insertKey]
    split
    next h => exact ⟨y, List.mem_cons_self, h⟩
    split
    · exact ⟨x, List.mem_cons_self, rfl⟩
    · obtain ⟨a, ha, hk⟩ := ih
      exact ⟨a, List.mem_cons_of_mem _ ha, hk⟩

theorem SortedBy.insertKey {x : α} {l : List α} (h : SortedBy key l) :
    SortedBy key (insertKey key x l) := by
  induction l with
  | nil => exact List.pairwise_singleton _ _
  | cons y ys ih =>
    have ⟨hy, hys⟩ := SortedBy.cons_iff.mp h
    simp only [Sockets.insertKey]
    split
    · exact h
    next hne =>
    split
    next hlt =>
      have hbelow : ∀ a ∈ y :: ys, key x < key a := by
        intro a ha
        rcases List.mem_cons.mp ha with rfl | ha
        · exact hlt
        · exact hlt.trans (hy a ha)
      exact SortedBy.cons_iff.mpr ⟨hbelow, h⟩
    next hle =>
      have hlt : key y < key x := lt_of_le_of_ne (not_lt.mp hle) hne
      have habove : ∀ a ∈ Sockets.insertKey key x ys, key y < key a := by
        intro a ha
        rcases mem_insertKey ha with rfl | ha
        · exact hlt
        · exact hy a ha
      exact SortedBy.cons_iff.mpr ⟨habove, ih hys⟩

end Insert

section Window

variable {α : Type} {key : α → Int}

/-- A strictly sorted list whose keys lie in `(lo, hi]` is no longer than the window. -/
theorem SortedBy.length_le {l : List α} {lo hi : Int} (hs : SortedBy key l) (hle : lo ≤ hi)
    (hb : ∀ a ∈ l, lo < key a ∧ key a ≤ hi) : (l.length : Int) ≤ hi - lo := by
  induction l generalizing lo with
  | nil =>
    simp only [List.length_nil]
    omega
  | cons a l ih =>
    have ⟨ha, hl⟩ := SortedBy.cons_iff.mp hs
    have hka := hb a List.mem_cons_self
    -- the rest lies in the smaller window above the first key
    have hrest : ∀ b ∈ l, key a < key b ∧ key b ≤ hi := by
      intro b hm
      exact ⟨ha b hm, (hb b (List.mem_cons_of_mem _ hm)).2⟩
    have hlen : (l.length : Int) ≤ hi - key a := ih hl hka.2 hrest
    rw [List.length_cons, Int.natCast_add, Int.natCast_one]
    omega

/-- A strictly sorted list that fills the window `(lo, hi]` starts at `lo + 1`. -/
theorem SortedBy.head_of_full {l : List α} {lo hi : Int} (hs : SortedBy key l) (hlt : lo < hi)
    (hb : ∀ a ∈ l, lo < key a ∧ key a ≤ hi) (hfull : (l.length : Int) = hi - lo) :
    ∃ a rest, l = a :: rest ∧ key a = lo + 1 := by
  cases l with
  | nil =>
    simp only [List.length_nil] at hfull
    omega
  | cons a l =>
    have ⟨ha, hl⟩ := SortedBy.cons_iff.mp hs
    have hka := hb a List.mem_cons_self
    have hrest : ∀ b ∈ l, key a < key b ∧ key b ≤ hi := by
      intro b hm
      exact ⟨ha b hm, (hb b (List.mem_cons_of_mem _ hm)).2⟩
    have hlen : (l.length : Int) ≤ hi - key a := hl.length_le hka.2 hrest
    rw [List.length_cons, Int.natCast_add, Int.natCast_one] at hfull
    exact ⟨a, l, rfl, by omega⟩

end Window

end Sockets
