/-
Strings in arrays, as C has them: a string stands in an array with `nul`
behind it, and what is behind that does not matter (`Holds`). What the
functions of the standard library do to an array that is too short, or
to one without a `nul`, has no outcome.
-/
import Mathlib.Data.Vector.Basic
import Mathlib.Data.List.TakeWhile

namespace Sockets

/-- The end of a string. -/
def nul : Char := '\x00'

/-- The size of an array for a line. -/
def MAXLINE : Nat := 4096

variable {α : Type} {n m : Nat}

/-- What does not pass ends the run, wherever it ended without it. -/
theorem takeWhile_append_cons_neg {p : α → Bool} {c : α} (s rest : List α) (hc : p c = false) :
    (s ++ c :: rest).takeWhile p = s.takeWhile p := by
  rw [List.takeWhile_append]
  split
  next h =>
    rw [List.takeWhile_cons_of_neg (by simp [hc]), List.append_nil]
    exact ((List.takeWhile_prefix p).eq_of_length h).symm
  next => rfl

/-- What has an outcome goes on with it. -/
theorem some_bind {β : Type} (x : α) (f : α → Option β) : (some x >>= f) = f x := rfl

/-- `a[i]`. -/
def load (a : List.Vector α n) (i : Nat) : Option α := a.toList[i]?

theorem length_stored (a : List.Vector α n) (i : Nat) (c : α) : (a.toList.set i c).length = n := by
  rw [List.length_set, a.toList_length]

/-- `a[i] = c`. -/
def store (a : List.Vector α n) (i : Nat) (c : α) : Option (List.Vector α n) :=
  if i < n then some ⟨a.toList.set i c, length_stored a i c⟩ else none

/-- The array holds this string. -/
def Holds (nul : α) (a : List.Vector α n) (s : List α) : Prop :=
  nul ∉ s ∧ ∃ rest, a.toList = s ++ nul :: rest

section

variable {nul : α} {a : List.Vector α n} {s : List α} {i : Nat}

theorem Holds.nul_mem (h : Holds nul a s) : nul ∈ a.toList := by
  obtain ⟨-, rest, ha⟩ := h
  rw [ha]
  exact List.mem_append_right _ List.mem_cons_self

theorem Holds.length_lt (h : Holds nul a s) : s.length < n := by
  obtain ⟨-, rest, ha⟩ := h
  have hlen := congrArg List.length ha
  rw [a.toList_length, List.length_append, List.length_cons] at hlen
  omega

/-- The string can be read up to its end. -/
theorem Holds.load (h : Holds nul a s) (hi : i ≤ s.length) : load a i = some (s.getD i nul) := by
  obtain ⟨-, rest, ha⟩ := h
  rw [Sockets.load, ha, List.getD_eq_getElem?_getD]
  rcases Nat.lt_or_eq_of_le hi with hlt | rfl
  · rw [List.getElem?_append_left hlt, List.getElem?_eq_getElem hlt, Option.getD_some]
  · rw [List.getElem?_append_right le_rfl, Nat.sub_self, List.getElem?_cons_zero,
      List.getElem?_eq_none le_rfl, Option.getD_none]

/-- A cell in front of the `nul` is written. -/
theorem Holds.store (h : Holds nul a s) (hi : i < s.length) {c : α} (hc : c ≠ nul) :
    ∃ a', store a i c = some a' ∧ Holds nul a' (s.set i c) := by
  have hlt := h.length_lt
  obtain ⟨hs, rest, ha⟩ := h
  refine ⟨_, if_pos (by omega), ?_, rest, ?_⟩
  · intro hm
    rcases List.mem_or_eq_of_mem_set hm with hm | rfl
    · exact hs hm
    · exact hc rfl
  · rw [List.Vector.toList_mk, ha, List.set_append_left _ _ hi]

end

theorem length_written {a : List.Vector α n} {s : List α} (nul : α) (h : s.length < n) :
    (s ++ nul :: a.toList.drop (s.length + 1)).length = n := by
  rw [List.length_append, List.length_cons, List.length_drop, a.toList_length]
  omega

theorem length_received (a : List.Vector α n) (bytes : List α) :
    (bytes.take n ++ a.toList.drop bytes.length).length = n := by
  rw [List.length_append, List.length_take, List.length_drop, a.toList_length]
  omega

/-- What comes in is written to the front of the array, as `recvfrom` does; it puts no `nul` behind it. -/
def received (a : List.Vector α n) (bytes : List α) : List.Vector α n :=
  ⟨bytes.take n ++ a.toList.drop bytes.length, length_received a bytes⟩

/-- What stands behind what came in was there before. -/
theorem load_received_of_le {a : List.Vector α n} {bytes : List α} {i : Nat} (h : bytes.length ≤ i) :
    load (received a bytes) i = load a i := by
  rw [load, load, received, List.Vector.toList_mk]
  by_cases hn : i < n
  · rw [List.take_of_length_le (by omega), List.getElem?_append_right h, List.getElem?_drop,
      Nat.add_sub_cancel' h]
  · rw [List.getElem?_eq_none (by rw [length_received]; omega),
      List.getElem?_eq_none (by rw [a.toList_length]; omega)]

/-- What came in stands in the array, as far as there is room. -/
theorem load_received_of_lt {a : List.Vector α n} {bytes : List α} {i : Nat} (h : i < bytes.length) (hn : i < n) :
    load (received a bytes) i = some bytes[i] := by
  rw [load, received, List.Vector.toList_mk, List.getElem?_append_left (by rw [List.length_take]; omega),
    List.getElem?_take_of_lt hn, List.getElem?_eq_getElem h]

/-- Nothing stands behind the string in the array. -/
def Padded (nul : α) (a : List.Vector α n) : Prop :=
  ∃ s, nul ∉ s ∧ a.toList = s ++ List.replicate (n - s.length) nul

theorem padded_replicate {nul : α} {a : List.Vector α n} (h : a.toList = List.replicate n nul) : Padded nul a :=
  ⟨[], List.not_mem_nil, by rw [h, List.nil_append, List.length_nil, Nat.sub_zero]⟩

/-- What comes in without a `nul` leaves nothing behind the string, if there was nothing. -/
theorem Padded.received {nul : α} {a : List.Vector α n} {bytes : List α} (ha : Padded nul a) (hnul : nul ∉ bytes) :
    Padded nul (received a bytes) := by
  obtain ⟨s, hs, ha⟩ := ha
  refine ⟨bytes.take n ++ s.drop bytes.length, ?_, ?_⟩
  · intro hm
    rcases List.mem_append.mp hm with hm | hm
    · exact hnul (List.mem_of_mem_take hm)
    · exact hs (List.mem_of_mem_drop hm)
  · have hlen := congrArg List.length ha
    rw [a.toList_length, List.length_append, List.length_replicate] at hlen
    rw [Sockets.received, List.Vector.toList_mk, ha, List.drop_append, List.drop_replicate, List.append_assoc,
      List.length_append, List.length_take, List.length_drop]
    congr 3
    omega

/-! ## The functions of the library -/

/-- The string is written to the front of the array, as `sprintf` does. -/
def putString (nul : α) (dst : List.Vector α n) (s : List α) : Option (List.Vector α n) :=
  if h : s.length < n then some ⟨s ++ nul :: dst.toList.drop (s.length + 1), length_written nul h⟩
  else none

theorem putString_holds {nul : α} {s : List α} (dst : List.Vector α n) (hs : nul ∉ s) (hn : s.length < n) :
    ∃ a, putString nul dst s = some a ∧ Holds nul a s :=
  ⟨_, dif_pos hn, hs, _, rfl⟩

variable [DecidableEq α] {nul : α}

/-- What stands in front of the first `nul`. -/
def stringOf (nul : α) (l : List α) : List α := l.takeWhile (· ≠ nul)

theorem stringOf_eq_self {s : List α} (h : nul ∉ s) : stringOf nul s = s := by
  apply List.takeWhile_eq_self_iff.mpr
  intro c hc
  simpa using fun he : c = nul => h (he ▸ hc)

theorem stringOf_append_nul (s rest : List α) : stringOf nul (s ++ nul :: rest) = stringOf nul s :=
  takeWhile_append_cons_neg s rest (by simp)

/-- There is a `nul` exactly where the string ends inside the list. -/
theorem nul_mem_iff {l : List α} : nul ∈ l ↔ (stringOf nul l).length < l.length := by
  constructor
  · intro h
    obtain ⟨s, rest, rfl, hs⟩ := List.eq_append_cons_of_mem h
    rw [stringOf_append_nul, stringOf_eq_self hs, List.length_append, List.length_cons]
    omega
  · intro h
    by_contra hnot
    rw [stringOf_eq_self hnot] at h
    exact Nat.lt_irrefl _ h

theorem Holds.stringOf {a : List.Vector α n} {s : List α} (h : Holds nul a s) :
    stringOf nul a.toList = s := by
  obtain ⟨hs, rest, ha⟩ := h
  rw [ha, stringOf_append_nul, stringOf_eq_self hs]

/-- What came in without a `nul` is the string in the array only if there was a `nul` behind it before. -/
theorem stringOf_received_iff {a : List.Vector α n} {s : List α} (hs : nul ∉ s) (hn : s.length < n) :
    nul ∈ (received a s).toList ∧ stringOf nul (received a s).toList = s ↔ load a s.length = some nul := by
  have hlist : (received a s).toList = s ++ a.toList.drop s.length := by
    rw [received, List.Vector.toList_mk, List.take_of_length_le (by omega)]
  have hlt : s.length < a.toList.length := by rwa [a.toList_length]
  rw [hlist, List.drop_eq_getElem_cons hlt, load, List.getElem?_eq_getElem hlt]
  constructor
  · intro h
    obtain ⟨-, hstring⟩ := h
    by_contra hne
    have hne : a.toList[s.length] ≠ nul := fun he => hne (congrArg some he)
    rw [stringOf, List.takeWhile_append_of_pos (by simpa using fun c hc (he : c = nul) => hs (he ▸ hc)),
      List.takeWhile_cons_of_pos (by simpa using hne)] at hstring
    have hlong := congrArg List.length hstring
    rw [List.length_append, List.length_cons] at hlong
    omega
  · intro h
    rw [Option.some.inj h]
    exact ⟨List.mem_append_right _ List.mem_cons_self, by rw [stringOf_append_nul, stringOf_eq_self hs]⟩

theorem length_cleared (nul : α) (a : List.Vector α n) :
    (List.replicate (stringOf nul a.toList).length nul ++ a.toList.drop (stringOf nul a.toList).length).length = n := by
  have hprefix := (List.takeWhile_prefix (· ≠ nul) (l := a.toList)).length_le
  rw [List.length_append, List.length_replicate, List.length_drop, stringOf]
  rw [a.toList_length] at hprefix ⊢
  omega

/-- `memset(a, 0, strlen(a))`: what stands behind the string stays there. -/
def clearString (nul : α) (a : List.Vector α n) : Option (List.Vector α n) :=
  if nul ∈ a.toList then
    some ⟨List.replicate (stringOf nul a.toList).length nul ++ a.toList.drop (stringOf nul a.toList).length,
      length_cleared nul a⟩
  else none

/-- An array without anything behind its string is cleared as a whole. -/
theorem Padded.clearString {a b : List.Vector α n} (ha : Padded nul a) (h : clearString nul a = some b) :
    b.toList = List.replicate n nul := by
  rw [Sockets.clearString, Option.ite_none_right_eq_some] at h
  obtain ⟨hnul, heq⟩ := h
  obtain ⟨s, hs, ha⟩ := ha
  have hstring : Sockets.stringOf nul a.toList = s := by
    rcases Nat.eq_zero_or_pos (n - s.length) with hz | hpos
    · rw [ha, hz, List.replicate_zero, List.append_nil] at hnul
      exact absurd hnul hs
    · obtain ⟨j, hj⟩ := Nat.exists_eq_succ_of_ne_zero hpos.ne'
      rw [ha, hj, List.replicate_succ, stringOf_append_nul, stringOf_eq_self hs]
  have hlen := congrArg List.length ha
  rw [a.toList_length, List.length_append, List.length_replicate] at hlen
  rw [← Option.some.inj heq, List.Vector.toList_mk, hstring, ha, List.drop_left, List.replicate_append_replicate]
  congr 1
  omega

/-- Clearing the string leaves a `nul` where there was one. -/
theorem load_clearString {a b : List.Vector α n} {i : Nat} (h : clearString nul a = some b)
    (ha : load a i = some nul) : load b i = some nul := by
  rw [clearString, Option.ite_none_right_eq_some] at h
  rw [load, ← Option.some.inj h.2, List.Vector.toList_mk]
  rcases Nat.lt_or_ge i (stringOf nul a.toList).length with hlt | hle
  · rw [List.getElem?_append_left (by rwa [List.length_replicate]), List.getElem?_replicate, if_pos hlt]
  · rw [List.getElem?_append_right (by rwa [List.length_replicate]), List.length_replicate, List.getElem?_drop,
      Nat.add_sub_cancel' hle]
    exact ha

def strcpy (nul : α) (dst : List.Vector α n) (src : List.Vector α m) : Option (List.Vector α n) :=
  if nul ∈ src.toList then putString nul dst (stringOf nul src.toList) else none

/-- The `k` cells that `strncpy` writes. -/
def padded (nul : α) (k : Nat) (l : List α) : List α :=
  let s := stringOf nul (l.take k)
  s ++ List.replicate (k - s.length) nul

/-- An array that starts with one that has a string. -/
theorem holds_of_front {a : List.Vector α n} {l more : List α} (hmem : nul ∈ l) (ha : a.toList = l ++ more) :
    Holds nul a (Sockets.stringOf nul l) := by
  obtain ⟨s, rest, rfl, hs⟩ := List.eq_append_cons_of_mem hmem
  rw [stringOf_append_nul, stringOf_eq_self hs]
  exact ⟨hs, rest ++ more, by rw [ha, List.append_assoc, List.cons_append]⟩

theorem length_padded (nul : α) (k : Nat) (l : List α) : (padded nul k l).length = k := by
  have hprefix := (List.takeWhile_prefix (· ≠ nul) (l := l.take k)).length_le
  have htake := List.length_take_le k l
  rw [padded, List.length_append, List.length_replicate, stringOf]
  omega

theorem length_strncpy {a : List.Vector α n} {l : List α} {k : Nat} (nul : α) (h : k ≤ n) :
    (padded nul k l ++ a.toList.drop k).length = n := by
  rw [List.length_append, length_padded, List.length_drop, a.toList_length]
  omega

def strncpy (nul : α) (dst : List.Vector α n) (src : List.Vector α m) (k : Nat) :
    Option (List.Vector α n) :=
  if h : k ≤ n ∧ (k ≤ m ∨ nul ∈ src.toList) then
    some ⟨padded nul k src.toList ++ dst.toList.drop k, length_strncpy nul h.1⟩
  else none

section

variable {src : List.Vector α m} {s : List α}

theorem Holds.strcpy (h : Holds nul src s) (dst : List.Vector α n) (hn : s.length < n) :
    ∃ a, strcpy nul dst src = some a ∧ Holds nul a s := by
  rw [Sockets.strcpy, if_pos h.nul_mem, h.stringOf]
  exact putString_holds dst h.1 hn

/-- What is copied ends inside the `k` cells. -/
theorem Holds.strncpy (h : Holds nul src s) (dst : List.Vector α n) {k : Nat} (hk : s.length < k)
    (hn : k ≤ n) : ∃ a, strncpy nul dst src k = some a ∧ Holds nul a s := by
  refine ⟨_, dif_pos ⟨hn, .inr h.nul_mem⟩, h.1, ?_⟩
  obtain ⟨hs, rest, ha⟩ := h
  obtain ⟨j, rfl⟩ : ∃ j, k = s.length + (j + 1) := ⟨k - s.length - 1, by omega⟩
  have htake : src.toList.take (s.length + (j + 1)) = s ++ nul :: rest.take j := by
    rw [ha, List.take_length_add_append, List.take_succ_cons]
  have hpadded : padded nul (s.length + (j + 1)) src.toList = s ++ List.replicate (j + 1) nul := by
    rw [padded, htake, stringOf_append_nul, stringOf_eq_self hs, Nat.add_sub_cancel_left]
  rw [List.Vector.toList_mk, hpadded, List.replicate_succ, List.append_assoc, List.cons_append]
  exact ⟨_, rfl⟩

end

end Sockets
