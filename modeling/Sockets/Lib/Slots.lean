/-
An array of slots of which some are free. What is put in takes the first
free slot; where there is none it is dropped. From an array of free slots
on, it holds what was put in first, as much as there is room for
(`foldl_putFirst`).
-/
import Mathlib.Data.List.Induction

namespace Sockets

variable {α : Type} {free : α → Bool}

/-- The first free slot is taken. -/
def putFirst (free : α → Bool) (a : α) : List α → List α
  | [] => []
  | slot :: rest => if free slot then a :: rest else slot :: putFirst free a rest

/-- Behind what is taken. -/
theorem putFirst_append {l rest : List α} (hl : ∀ slot ∈ l, free slot = false) (a : α) :
    putFirst free a (l ++ rest) = l ++ putFirst free a rest := by
  induction l with
  | nil => rfl
  | cons slot l ih =>
    rw [List.forall_mem_cons] at hl
    rw [List.cons_append, putFirst, if_neg (by simp [hl.1]), ih hl.2, List.cons_append]

/-- An array that holds as much of `l` as there is room for in `n` slots, in front of free ones. -/
def slots (n : Nat) (blank : α) (l : List α) : List α := l.take n ++ List.replicate (n - l.length) blank

theorem slots_nil (n : Nat) (blank : α) : slots n blank [] = List.replicate n blank := by
  simp [slots]

theorem getElem?_slots {n i : Nat} {blank : α} {l : List α} (hn : i < n) (hl : i < l.length) :
    (slots n blank l)[i]? = l[i]? := by
  rw [slots, List.getElem?_append_left (by rw [List.length_take]; omega), List.getElem?_take, if_pos hn]

/-- One more is put in, or dropped. -/
theorem putFirst_slots {n : Nat} {blank a : α} {l : List α} (hblank : free blank = true)
    (hl : ∀ slot ∈ l, free slot = false) : putFirst free a (slots n blank l) = slots n blank (l ++ [a]) := by
  have htake : ∀ slot ∈ l.take n, free slot = false := fun slot hm => hl slot (List.mem_of_mem_take hm)
  rw [slots, putFirst_append htake, slots, List.length_append, List.length_singleton]
  rcases Nat.lt_or_ge l.length n with hlt | hge
  · have hroom : n - l.length = n - (l.length + 1) + 1 := by omega
    rw [hroom, List.replicate_succ, putFirst, if_pos hblank, List.take_of_length_le (by omega),
      List.take_of_length_le (by simp; omega), List.append_assoc, List.singleton_append]
  · have hfull : n - l.length = 0 := by omega
    have hnext : n - (l.length + 1) = 0 := by omega
    rw [hfull, hnext, List.replicate_zero, putFirst, List.append_nil, List.append_nil,
      List.take_append_of_le_length hge]

/-- What was put in first is there. -/
theorem foldl_putFirst {n : Nat} {blank : α} {l : List α} (hblank : free blank = true)
    (hl : ∀ slot ∈ l, free slot = false) :
    l.foldl (fun array a => putFirst free a array) (List.replicate n blank) = slots n blank l := by
  induction l using List.reverseRecOn with
  | nil => exact (slots_nil n blank).symm
  | append_singleton l a ih =>
    have hfront : ∀ slot ∈ l, free slot = false := fun slot hm => hl slot (List.mem_append_left _ hm)
    rw [List.foldl_append, ih hfront, List.foldl_cons, List.foldl_nil, putFirst_slots hblank hfront]

end Sockets
