/-
`strtok` cuts a string into tokens where it stands: it writes a `nul` over
the delimiter behind a token, and the next call goes on behind that. What is
cut off can still be read at its place, and so can what is left
(`HoldsAt.cut`).
-/
import Sockets.Lib.CString

namespace Sockets

variable {α : Type} {n : Nat}

/-- The array holds this string from `i` on. -/
def HoldsAt (nul : α) (a : List.Vector α n) (i : Nat) (s : List α) : Prop :=
  nul ∉ s ∧ ∃ rest, a.toList.drop i = s ++ nul :: rest

section

variable {nul : α} {a a' : List.Vector α n} {i j : Nat} {s : List α}

theorem Holds.holdsAt (h : Holds nul a s) : HoldsAt nul a 0 s := h

theorem load_of_drop {c : α} {rest : List α} (ha : a.toList.drop i = s ++ c :: rest) :
    load a (i + s.length) = some c := by
  rw [load, ← List.getElem?_drop, ha, List.getElem?_append_right le_rfl, Nat.sub_self, List.getElem?_cons_zero]

theorem lt_of_load {c : α} (hload : load a i = some c) : i < n := by
  rw [load, List.getElem?_eq_some_iff] at hload
  obtain ⟨hlt, -⟩ := hload
  rwa [a.toList_length] at hlt

theorem exists_store (hi : i < n) (c : α) : ∃ a', store a i c = some a' := ⟨_, if_pos hi⟩

theorem toList_of_store {c : α} (hstore : store a i c = some a') : a'.toList = a.toList.set i c := by
  unfold store at hstore
  split at hstore
  · rw [← Option.some.inj hstore, List.Vector.toList_mk]
  · cases hstore

/-- What is written behind a string leaves it as it is. -/
theorem HoldsAt.of_store (h : HoldsAt nul a i s) (hj : i + s.length < j) {c : α}
    (hstore : store a j c = some a') : HoldsAt nul a' i s := by
  obtain ⟨hs, rest, ha⟩ := h
  obtain ⟨k, rfl⟩ : ∃ k, j = i + (s.length + (k + 1)) := ⟨j - i - s.length - 1, by omega⟩
  refine ⟨hs, rest.set k c, ?_⟩
  rw [toList_of_store hstore, List.drop_set, if_neg (by omega), Nat.add_sub_cancel_left, ha,
    List.set_append_right _ _ (Nat.le_add_right _ _), Nat.add_sub_cancel_left, List.set_cons_succ]

/-- A `nul` over a character of a string cuts it in two. -/
theorem HoldsAt.cut {token more : List α} {c : α} (h : HoldsAt nul a i (token ++ c :: more))
    (hstore : store a (i + token.length) nul = some a') :
    HoldsAt nul a' i token ∧ HoldsAt nul a' (i + token.length + 1) more := by
  obtain ⟨hs, rest, ha⟩ := h
  rw [List.mem_append, List.mem_cons, not_or, not_or] at hs
  rw [List.append_assoc, List.cons_append] at ha
  refine ⟨⟨hs.1, more ++ nul :: rest, ?_⟩, hs.2.2, rest, ?_⟩
  · rw [toList_of_store hstore, List.drop_set, if_neg (by omega), Nat.add_sub_cancel_left, ha,
      List.set_append_right _ _ le_rfl, Nat.sub_self, List.set_cons_zero]
  · rw [toList_of_store hstore, List.drop_set_of_lt (Nat.lt_add_one _), Nat.add_assoc, ← List.drop_drop, ha,
      List.drop_length_add_append, List.drop_succ_cons, List.drop_zero]

/-- At its end a string is empty. -/
theorem HoldsAt.at_end (h : HoldsAt nul a i s) : HoldsAt nul a (i + s.length) [] := by
  obtain ⟨-, rest, ha⟩ := h
  refine ⟨List.not_mem_nil, rest, ?_⟩
  rw [← List.drop_drop, ha, List.drop_left, List.nil_append]

end

variable [DecidableEq α]

/-- The string from `i` on. -/
def stringAt (nul : α) (a : List.Vector α n) (i : Nat) : Option (List α) :=
  if nul ∈ a.toList.drop i then some (stringOf nul (a.toList.drop i)) else none

/-- What a call returns, and where the next one goes on. -/
structure Token (α : Type) (n : Nat) where
  start : Option Nat
  a : List.Vector α n
  left : Nat

/-- The first cell from `i` on that does not pass. -/
def spanFrom (p : α → Bool) (a : List.Vector α n) (i : Nat) : Nat :=
  i + ((a.toList.drop i).takeWhile p).length

def strtok (nul : α) (delim : List α) (a : List.Vector α n) (left : Nat) : Option (Token α n) := do
  let start := spanFrom (· ∈ delim) a left
  let stop := spanFrom (fun c => c ≠ nul ∧ c ∉ delim) a start
  let c ← load a stop
  if start = stop then some { start := none, a, left := stop }
  else if c = nul then some { start := some start, a, left := stop }
  else do
    let a ← store a stop nul
    some { start := some start, a, left := stop + 1 }

variable {nul : α} {delim : List α} {a : List.Vector α n} {i : Nat} {s token more : List α} {c : α}

theorem HoldsAt.stringAt (h : HoldsAt nul a i s) : stringAt nul a i = some s := by
  obtain ⟨hs, rest, ha⟩ := h
  rw [Sockets.stringAt, if_pos (by simp [ha]), ha, stringOf_append_nul, stringOf_eq_self hs]

/-- A token starts where it is looked for. -/
theorem spanFrom_start {rest : List α} (hne : token ≠ []) (htoken : ∀ d ∈ token, d ∉ delim)
    (ha : a.toList.drop i = token ++ rest) : spanFrom (· ∈ delim) a i = i := by
  cases token with
  | nil => exact absurd rfl hne
  | cons d token =>
    have hd : d ∉ delim := htoken d List.mem_cons_self
    rw [spanFrom, ha, List.cons_append, List.takeWhile_cons_of_neg (by simpa using hd), List.length_nil,
      Nat.add_zero]

/-- It ends in front of a `nul` or a delimiter. -/
theorem spanFrom_token {rest : List α} (ha : a.toList.drop i = token ++ c :: rest)
    (hnul : nul ∉ token) (htoken : ∀ d ∈ token, d ∉ delim) (hc : c ≠ nul → c ∈ delim) :
    spanFrom (fun c => c ≠ nul ∧ c ∉ delim) a i = i + token.length := by
  have hall : token.takeWhile (fun c => c ≠ nul ∧ c ∉ delim) = token := by
    apply List.takeWhile_eq_self_iff.mpr
    intro d hd
    have hne : d ≠ nul := ne_of_mem_of_not_mem hd hnul
    simpa using ⟨hne, htoken d hd⟩
  rw [spanFrom, ha, takeWhile_append_cons_neg _ _ (by simpa using hc), hall]

/-- The token that starts here is found, and what is behind it decides how it ends. -/
theorem strtok_eq {rest : List α} (ha : a.toList.drop i = token ++ c :: rest) (hne : token ≠ [])
    (hnul : nul ∉ token) (htoken : ∀ d ∈ token, d ∉ delim) (hc : c ≠ nul → c ∈ delim) :
    strtok nul delim a i =
      if c = nul then some { start := some i, a, left := i + token.length }
      else (store a (i + token.length) nul).map fun a =>
        { start := some i, a, left := i + token.length + 1 } := by
  have hstart := spanFrom_start hne htoken ha
  have hstop := spanFrom_token ha hnul htoken hc
  have hpos := List.length_pos_iff.mpr hne
  simp only [strtok, hstart, hstop, load_of_drop ha, some_bind]
  rw [if_neg (by omega), Option.map_eq_bind]
  rfl

/-- A token with a delimiter behind it is cut off, and what was cut off before it stays. -/
theorem HoldsAt.strtok_delim (h : HoldsAt nul a i (token ++ c :: more)) (hne : token ≠ [])
    (htoken : ∀ d ∈ token, d ∉ delim) (hc : c ∈ delim) : ∃ a',
      strtok nul delim a i = some { start := some i, a := a', left := i + token.length + 1 } ∧
      HoldsAt nul a' i token ∧ HoldsAt nul a' (i + token.length + 1) more ∧
      ∀ j s, j + s.length < i → HoldsAt nul a j s → HoldsAt nul a' j s := by
  have ⟨hs, rest, ha⟩ := h
  rw [List.mem_append, List.mem_cons, not_or, not_or] at hs
  obtain ⟨hnul, hcnul, -⟩ := hs
  rw [List.append_assoc, List.cons_append] at ha
  obtain ⟨a', hstore⟩ := exists_store (lt_of_load (load_of_drop ha)) nul
  obtain ⟨hcut, hmore⟩ := h.cut hstore
  refine ⟨a', ?_, hcut, hmore, fun j s hlt hj => hj.of_store (by omega) hstore⟩
  rw [strtok_eq ha hne hnul htoken fun _ => hc, if_neg (Ne.symm hcnul), hstore, Option.map_some]

/-- A token at the end of the string. -/
theorem HoldsAt.strtok_last (h : HoldsAt nul a i token) (hne : token ≠ []) (htoken : ∀ d ∈ token, d ∉ delim) :
    strtok nul delim a i = some { start := some i, a, left := i + token.length } := by
  obtain ⟨hnul, rest, ha⟩ := h
  rw [strtok_eq ha hne hnul htoken fun hc => absurd rfl hc, if_pos rfl]

/-- There is no token in an empty string. -/
theorem HoldsAt.strtok_nil (h : HoldsAt nul a i []) (hnul : nul ∉ delim) :
    strtok nul delim a i = some { start := none, a, left := i } := by
  obtain ⟨-, rest, ha⟩ := h
  have hload := load_of_drop ha
  have hstart : spanFrom (· ∈ delim) a i = i := by
    rw [spanFrom, ha, List.nil_append, List.takeWhile_cons_of_neg (by simpa using hnul), List.length_nil,
      Nat.add_zero]
  have hstop : spanFrom (fun c => c ≠ nul ∧ c ∉ delim) a i = i := spanFrom_token ha List.not_mem_nil
    (fun d hd => absurd hd List.not_mem_nil) fun hne => absurd rfl hne
  simp only [List.length_nil, Nat.add_zero] at hload
  simp only [strtok, hstart, hstop, hload, some_bind]
  rw [if_pos True.intro]

end Sockets
