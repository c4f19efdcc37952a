/-
An array of cells in memory: their bytes one cell behind the other. The
bytes tell the cells (`cellBytes_injective`), and a reader that takes
cell after cell from a memory has the bytes that stand there
(`cellBytes_ofFn`).
-/
import Mathlib.Data.Vector.Basic

namespace Sockets

variable {α : Type} {n w : Nat}

def cellBytes (cells : List.Vector (List.Vector α w) n) : List α :=
  (cells.toList.map List.Vector.toList).flatten

theorem map_length_cells (cells : List.Vector (List.Vector α w) n) :
    (cells.toList.map List.Vector.toList).map List.length = List.replicate n w := by
  rw [List.map_map, List.eq_replicate_iff]
  refine ⟨by rw [List.length_map, cells.toList_length], fun k hk => ?_⟩
  obtain ⟨cell, -, rfl⟩ := List.mem_map.mp hk
  exact cell.toList_length

theorem length_cellBytes (cells : List.Vector (List.Vector α w) n) : (cellBytes cells).length = n * w := by
  rw [cellBytes, List.length_flatten, map_length_cells, List.sum_replicate_nat]

theorem cellBytes_injective : Function.Injective (cellBytes : List.Vector (List.Vector α w) n → List α) := by
  intro cells cells' h
  have hlists : cells.toList.map List.Vector.toList = cells'.toList.map List.Vector.toList :=
    List.eq_iff_flatten_eq.mpr ⟨h, by rw [map_length_cells, map_length_cells]⟩
  exact List.Vector.eq _ _ (List.map_injective_iff.mpr Subtype.val_injective hlists)

/-- The bytes of the first cells. -/
theorem take_cellBytes (cells : List.Vector (List.Vector α w) n) (k : Nat) :
    (cellBytes cells).take (k * w) = ((cells.toList.take k).map List.Vector.toList).flatten := by
  obtain ⟨cells, rfl⟩ := cells
  show ((cells.map List.Vector.toList).flatten).take (k * w) = ((cells.take k).map List.Vector.toList).flatten
  induction cells generalizing k with
  | nil => simp
  | cons cell cells ih =>
    cases k with
    | zero => simp
    | succ k =>
      have hend : (k + 1) * w = cell.toList.length + k * w := by rw [cell.toList_length, Nat.succ_mul, Nat.add_comm]
      rw [List.map_cons, List.flatten_cons, hend, List.take_length_add_append, ih, List.take_succ_cons,
        List.map_cons, List.flatten_cons]

/-- The bytes of the first cells tell these cells. -/
theorem take_cellBytes_eq_iff {cells cells' : List.Vector (List.Vector α w) n} {k : Nat} :
    (cellBytes cells).take (k * w) = (cellBytes cells').take (k * w) ↔
      ∀ q : Fin n, (q : Nat) < k → cells.get q = cells'.get q := by
  have hlengths (l : List.Vector (List.Vector α w) n) :
      ((l.toList.take k).map List.Vector.toList).map List.length = List.replicate (min k n) w := by
    rw [List.map_take, List.map_take, map_length_cells, List.take_replicate]
  have hlists : (cellBytes cells).take (k * w) = (cellBytes cells').take (k * w) ↔
      cells.toList.take k = cells'.toList.take k := by
    rw [take_cellBytes, take_cellBytes]
    constructor
    · intro h
      have hmaps := List.eq_iff_flatten_eq.mpr ⟨h, by rw [hlengths, hlengths]⟩
      exact List.map_injective_iff.mpr Subtype.val_injective hmaps
    · exact fun h => by rw [h]
  rw [hlists]
  constructor
  · intro h q hq
    have hat := congrArg (·[(q : Nat)]?) h
    simp only [List.getElem?_take_of_lt hq] at hat
    simpa [List.Vector.get_eq_get_toList] using hat
  · intro h
    refine List.ext_getElem? fun i => ?_
    rw [List.getElem?_take, List.getElem?_take]
    split
    next hi =>
      by_cases hn : i < n
      · have hat := h ⟨i, hn⟩ hi
        simp only [List.Vector.get_eq_get_toList] at hat
        rw [List.getElem?_eq_getElem (by simpa using hn), List.getElem?_eq_getElem (by simpa using hn)]
        exact congrArg some (by simpa using hat)
      · rw [List.getElem?_eq_none (by simpa using hn), List.getElem?_eq_none (by simpa using hn)]
    next => rfl

/-- The cells that are read one after another. -/
theorem cellBytes_ofFn {l : List α} : ∀ {n : Nat} {cell : Fin n → List.Vector α w},
    (∀ q, (cell q).toList = (l.drop (q * w)).take w) → cellBytes (List.Vector.ofFn cell) = l.take (n * w) := by
  intro n cell hcell
  rw [cellBytes, List.Vector.toList_ofFn, List.map_ofFn]
  induction n with
  | zero => simp
  | succ n ih =>
    rw [List.ofFn_succ_last, List.flatten_append, Nat.succ_mul, List.take_add]
    congr 1
    · exact ih fun q => hcell q.castSucc
    · rw [List.flatten_singleton]
      exact hcell (Fin.last n)

end Sockets
