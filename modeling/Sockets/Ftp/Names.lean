/-
The names `getName` goes through, for every name that is asked for: which of
them it sees in the directory, and which it takes although the directory has
it. A name is looked for from where the loop goes on after the last change:
from the second file when a number was raised, and behind the file it has just
seen when the name has got its first (`scanFrom`). So a file is
overwritten when a name that is taken stands in front of that
(`storesSafely_iff`).
-/
import Sockets.Ftp.Files
import Sockets.Lib.CString

namespace Sockets.Ftp

/-- What the code takes out of the name to change it is there. -/
def Renamable (name : JString) : Prop :=
  if jchar '[' ∈ name then jchar ']' ∈ name else jchar '.' ∈ name

instance {name : JString} : Decidable (Renamable name) := by
  unfold Renamable
  infer_instance

/-- The name and the count after a change. -/
def nextName : JString × Nat → JString × Nat
  | (name, count) =>
    if jchar '[' ∈ name then
      (name.take (name.idxOf (jchar '[') + 1) ++ decimal count ++ name.drop (name.idxOf (jchar ']')), count + 1)
    else
      (name.take (name.idxOf (jchar '.')) ++ jstring "[1]." ++ name.drop (name.idxOf (jchar '.') + 1), count)

/-- The name after `j` changes, with the count. -/
def candidateAt (name : JString) (j : Nat) : JString × Nat := nextName^[j] (name, 2)

def candidate (name : JString) (j : Nat) : JString := (candidateAt name j).1

/-- Where in the directory the name is looked for after `j` changes. -/
def scanFrom (fList : List JString) (name : JString) : Nat → Nat
  | 0 => 0
  | j + 1 => if jchar '[' ∈ candidate name j then 1 else fList.idxOf (candidate name j) + 1

/-- The name after `j` changes is one the loop sees. -/
def Seen (fList : List JString) (name : JString) (j : Nat) : Prop :=
  candidate name j ∈ fList.drop (scanFrom fList name j)

instance {fList : List JString} {name : JString} {j : Nat} : Decidable (Seen fList name j) := by
  unfold Seen
  infer_instance

/-- A file is stored under a name that is not in the directory, its own if that is not. -/
def StoresSafely (fList : List JString) (name : JString) : Prop :=
  ∃ stored, getName fList name = some stored ∧ stored ∉ fList ∧ (name ∉ fList → stored = name)

/-! ## The names -/

section

variable {name : JString}

theorem drop_idxOf {s : JString} {c : Char} (h : jchar c ∈ s) :
    ∃ rest, s.drop (s.idxOf (jchar c)) = jchar c :: rest := by
  obtain ⟨left, rest, rfl, hleft⟩ := List.eq_append_cons_of_mem h
  refine ⟨rest, ?_⟩
  rw [List.idxOf_append_of_notMem hleft, List.idxOf_cons_self, Nat.add_zero, List.drop_left]

/-- A new number for the name. -/
theorem nextName_bracketed {left tail : JString} (hleft : jchar '[' ∉ left)
    (hclose : jchar ']' ∈ left ++ jchar '[' :: tail) (count : Nat) :
    ∃ rest, nextName (left ++ jchar '[' :: tail, count) =
      (left ++ jchar '[' :: (decimal count ++ jchar ']' :: rest), count + 1) := by
  obtain ⟨rest, hrest⟩ := drop_idxOf hclose
  refine ⟨rest, ?_⟩
  rw [nextName, if_pos (List.mem_append_right _ List.mem_cons_self), hrest,
    List.idxOf_append_of_notMem hleft, List.idxOf_cons_self, Nat.add_zero, List.take_length_add_append]
  simp

/-- The first number, for a name without brackets. -/
theorem nextName_plain {left right : JString} (hopen : jchar '[' ∉ left ++ jchar '.' :: right)
    (hdot : jchar '.' ∉ left) (count : Nat) : nextName (left ++ jchar '.' :: right, count) =
      (left ++ jchar '[' :: (decimal 1 ++ jchar ']' :: jchar '.' :: right), count) := by
  have hdigit : decimal 1 = [jchar '1'] := rfl
  rw [nextName, if_neg hopen, List.idxOf_append_of_notMem hdot, List.idxOf_cons_self, Nat.add_zero,
    List.take_left, List.drop_length_add_append, List.drop_one, List.tail_cons, hdigit]
  simp [jstring]

theorem candidateAt_succ (name : JString) (j : Nat) :
    candidateAt name (j + 1) = nextName (candidateAt name j) :=
  Function.iterate_succ_apply' nextName j (name, 2)

/-- Behind the same text the names have one number after another. -/
theorem candidateAt_numbered (hname : Renamable name) : ∃ left first, jchar '[' ∉ left ∧
    ∀ j, ∃ rest, candidateAt name (j + 1) =
      (left ++ jchar '[' :: (decimal (first + j) ++ jchar ']' :: rest), first + j + 1) := by
  have hstart : ∃ left first rest, jchar '[' ∉ left ∧ candidateAt name 1 =
      (left ++ jchar '[' :: (decimal first ++ jchar ']' :: rest), first + 1) := by
    by_cases hopen : jchar '[' ∈ name
    · rw [Renamable, if_pos hopen] at hname
      obtain ⟨left, tail, rfl, hleft⟩ := List.eq_append_cons_of_mem hopen
      obtain ⟨rest, hnext⟩ := nextName_bracketed hleft hname 2
      exact ⟨left, 2, rest, hleft, hnext⟩
    · rw [Renamable, if_neg hopen] at hname
      obtain ⟨left, right, rfl, hdot⟩ := List.eq_append_cons_of_mem hname
      exact ⟨left, 1, jchar '.' :: right, fun hm => hopen (List.mem_append_left _ hm),
        nextName_plain hopen hdot 2⟩
  obtain ⟨left, first, rest, hleft, hfirst⟩ := hstart
  refine ⟨left, first, hleft, fun j => ?_⟩
  induction j with
  | zero => exact ⟨rest, hfirst⟩
  | succ j ih =>
    obtain ⟨rest, hj⟩ := ih
    have hclose : jchar ']' ∈ left ++ jchar '[' :: (decimal (first + j) ++ jchar ']' :: rest) := by simp
    obtain ⟨next, hnext⟩ := nextName_bracketed hleft hclose (first + j + 1)
    exact ⟨next, by rw [candidateAt_succ, hj, hnext, Nat.add_assoc]⟩

theorem open_mem_candidate (hname : Renamable name) (j : Nat) : jchar '[' ∈ candidate name (j + 1) := by
  obtain ⟨left, first, -, hnumbered⟩ := candidateAt_numbered hname
  obtain ⟨rest, hj⟩ := hnumbered j
  rw [candidate, hj]
  simp

theorem candidate_renamable (hname : Renamable name) (j : Nat) : Renamable (candidate name j) := by
  cases j with
  | zero => exact hname
  | succ j =>
    rw [Renamable, if_pos (open_mem_candidate hname j)]
    obtain ⟨left, first, -, hnumbered⟩ := candidateAt_numbered hname
    obtain ⟨rest, hj⟩ := hnumbered j
    rw [candidate, hj]
    simp

/-- The number of a name can be read back. -/
theorem candidate_injective (hname : Renamable name) :
    Function.Injective fun j => candidate name (j + 1) := by
  intro i j hsame
  obtain ⟨left, first, -, hnumbered⟩ := candidateAt_numbered hname
  obtain ⟨rest, hi⟩ := hnumbered i
  obtain ⟨rest', hj⟩ := hnumbered j
  simp only [candidate, hi, hj, List.append_cancel_left_eq, List.cons.injEq, true_and] at hsame
  have hdigits := congrArg (stringOf (jchar ']')) hsame
  rw [stringOf_append_nul, stringOf_append_nul, stringOf_eq_self (close_notMem_decimal _),
    stringOf_eq_self (close_notMem_decimal _)] at hdigits
  have hcount := decimal_injective hdigits
  omega

end

/-! ## The loop -/

section

variable {fList : List JString} {name : JString}

/-- The loop with a name that is not in the rest of the directory. -/
theorem getNameFrom_missed {s : JString} {rounds i : Nat} (count : Nat) (hs : s ∉ fList.drop i)
    (hrounds : fList.length - i < rounds) : getNameFrom fList rounds s count i = some s := by
  induction rounds generalizing i with
  | zero => omega
  | succ rounds ih =>
    rw [getNameFrom]
    split
    next => rfl
    next other hother =>
      obtain ⟨hi, rfl⟩ := List.getElem?_eq_some_iff.mp hother
      rw [List.drop_eq_getElem_cons hi, List.mem_cons, not_or] at hs
      rw [if_neg fun he => hs.1 he.symm]
      exact ih hs.2 (by omega)

/-- The change of a name that is there. -/
theorem getNameFrom_change {s : JString} {i : Nat} (count rounds : Nat) (hs : fList[i]? = some s) :
    getNameFrom fList (rounds + 1) s count i =
      if Renamable s then
        getNameFrom fList rounds (nextName (s, count)).1 (nextName (s, count)).2
          (if jchar '[' ∈ s then 1 else i + 1)
      else none := by
  rw [getNameFrom, hs]
  dsimp only
  rw [if_pos rfl]
  by_cases hopen : jchar '[' ∈ s
  · simp only [indexOf, nextName, Renamable, if_pos hopen]
    split <;> rfl
  · simp only [indexOf, nextName, Renamable, if_neg hopen]
    split <;> rfl

/-- The loop up to a name that is there, and its change. -/
theorem getNameFrom_found {s : JString} {i : Nat} (count rounds : Nat) (hs : s ∈ fList.drop i) :
    getNameFrom fList (rounds + (fList.drop i).idxOf s + 1) s count i =
      if Renamable s then
        getNameFrom fList rounds (nextName (s, count)).1 (nextName (s, count)).2
          (if jchar '[' ∈ s then 1 else i + (fList.drop i).idxOf s + 1)
      else none := by
  generalize hrest : fList.drop i = rest at hs
  induction rest generalizing i with
  | nil => cases hs
  | cons other rest ih =>
    have hi : fList[i]? = some other := by rw [← List.head?_drop, hrest, List.head?_cons]
    have hnext : fList.drop (i + 1) = rest := by rw [← List.tail_drop, hrest, List.tail_cons]
    by_cases hsame : other = s
    · rw [hsame, List.idxOf_cons_self, Nat.add_zero, Nat.add_zero, getNameFrom_change count rounds (hsame ▸ hi)]
    · have hmem : s ∈ rest := (List.mem_cons.mp hs).resolve_left fun he => hsame he.symm
      rw [getNameFrom, hi]
      dsimp only
      rw [if_neg hsame, List.idxOf_cons_ne _ hsame, Nat.succ_eq_add_one, ← Nat.add_assoc rounds, ih hnext hmem]
      simp only [Nat.add_assoc, Nat.add_comm 1]

/-- Past a name that is seen the loop goes on with the next. -/
theorem getNameFrom_seen (hname : Renamable name) {j rounds : Nat} (hseen : Seen fList name j)
    (hrounds : fList.length ≤ rounds) : ∃ left, rounds ≤ left + fList.length ∧
      getNameFrom fList rounds (candidateAt name j).1 (candidateAt name j).2 (scanFrom fList name j) =
        getNameFrom fList left (candidateAt name (j + 1)).1 (candidateAt name (j + 1)).2
          (scanFrom fList name (j + 1)) := by
  have hplace := List.idxOf_lt_length_of_mem hseen
  rw [List.length_drop] at hplace
  obtain ⟨left, rfl⟩ : ∃ left,
      rounds = left + (fList.drop (scanFrom fList name j)).idxOf (candidate name j) + 1 :=
    ⟨rounds - (fList.drop (scanFrom fList name j)).idxOf (candidate name j) - 1, by omega⟩
  refine ⟨left, by omega, ?_⟩
  rw [← candidate, getNameFrom_found _ _ hseen, if_pos (candidate_renamable hname j), candidateAt_succ]
  cases j with
  | zero => simp only [scanFrom, List.drop_zero, Nat.zero_add]; rfl
  | succ j => rw [if_pos (open_mem_candidate hname j), scanFrom, if_pos (open_mem_candidate hname j)]; rfl

/-- A round for each file with each of the names, and some more. -/
theorem le_getNameRounds {j : Nat} (hj : j ≤ fList.length + 2) :
    j * fList.length + 3 * fList.length + 6 ≤ getNameRounds fList := by
  have hle : j * fList.length ≤ (fList.length + 2) * fList.length := Nat.mul_le_mul_right _ hj
  have hproduct : getNameRounds fList = (fList.length + 2) * fList.length + 3 * fList.length + 6 := by
    rw [getNameRounds]
    ring
  omega

/-- The loop comes to the first name it does not see. -/
theorem getName_reaches (hname : Renamable name) {j : Nat} (hj : j ≤ fList.length + 2)
    (hseen : ∀ i < j, Seen fList name i) : ∃ rounds, getNameRounds fList ≤ rounds + j * fList.length ∧
      getName fList name =
        getNameFrom fList rounds (candidateAt name j).1 (candidateAt name j).2 (scanFrom fList name j) := by
  induction j with
  | zero => exact ⟨_, by omega, rfl⟩
  | succ j ih =>
    obtain ⟨rounds, hrounds, hreaches⟩ := ih (by omega) fun i hi => hseen i (by omega)
    have henough := le_getNameRounds hj
    rw [Nat.add_mul, Nat.one_mul] at henough
    have hleft : fList.length ≤ rounds := by omega
    obtain ⟨left, hleft, hnext⟩ := getNameFrom_seen hname (hseen j (by omega)) hleft
    exact ⟨left, by rw [Nat.add_mul]; omega, hreaches.trans hnext⟩

/-- There are more names than files. -/
theorem exists_first_missed (fList : List JString) (hname : Renamable name) :
    ∃ j ≤ fList.length + 2, ¬ Seen fList name j ∧ ∀ i < j, Seen fList name i := by
  have hmissed : ∃ j ≤ fList.length + 2, ¬ Seen fList name j := by
    by_contra hnone
    have hall : ∀ j, 1 ≤ j → j ≤ fList.length + 1 → candidate name (j + 1) ∈ fList := by
      intro j _ hj
      by_contra hnot
      exact hnone ⟨j + 1, by omega, fun hseen => hnot (List.mem_of_mem_drop hseen)⟩
    have hle := le_length_of_injective (candidate_injective hname) hall
    omega
  refine ⟨Nat.find hmissed, (Nat.find_spec hmissed).1, (Nat.find_spec hmissed).2, fun i hi => ?_⟩
  by_contra hnot
  have hle := (Nat.find_spec hmissed).1
  exact Nat.find_min hmissed hi ⟨by omega, hnot⟩

/-- The first name that is not seen is the one that is taken. -/
theorem getName_eq_candidate (hname : Renamable name) {j : Nat} (hj : j ≤ fList.length + 2)
    (hmissed : ¬ Seen fList name j) (hseen : ∀ i < j, Seen fList name i) :
    getName fList name = some (candidate name j) := by
  obtain ⟨rounds, hrounds, hreaches⟩ := getName_reaches hname hj hseen
  have henough := le_getNameRounds hj
  rw [hreaches]
  exact getNameFrom_missed _ hmissed (by omega)

/-- A name that is free is taken as it is. -/
theorem getName_free (hfree : name ∉ fList) : getName fList name = some name := by
  have henough : 0 * fList.length + 3 * fList.length + 6 ≤ getNameRounds fList := le_getNameRounds (by omega)
  exact getNameFrom_missed 2 hfree (by omega)

/-- Without room for a number a name that is not makes `getName` throw an exception. -/
theorem getName_throws (htaken : name ∈ fList) (hname : ¬ Renamable name) : getName fList name = none := by
  have henough : 0 * fList.length + 3 * fList.length + 6 ≤ getNameRounds fList := le_getNameRounds (by omega)
  have hplace : fList.idxOf name < fList.length := List.idxOf_lt_length_of_mem htaken
  have hfound := @getNameFrom_found fList name 0 2 (getNameRounds fList - fList.idxOf name - 1) htaken
  rw [List.drop_zero, if_neg hname] at hfound
  have hrounds : getNameRounds fList - fList.idxOf name - 1 + fList.idxOf name + 1 = getNameRounds fList := by
    omega
  rw [getName, ← hrounds, hfound]

/-- **Storing a file.** Exactly when `getName` gives a name that is not in the directory: the name that is
asked for is free, or it can be given a number and the loop sees each name it comes to by way of
taken ones, if that one is taken too. -/
theorem storesSafely_iff (fList : List JString) (name : JString) : StoresSafely fList name ↔
    name ∉ fList ∨ Renamable name ∧ ∀ j, (∀ i ≤ j, candidate name i ∈ fList) → Seen fList name j := by
  by_cases hfree : name ∉ fList
  · exact iff_of_true ⟨name, getName_free hfree, hfree, fun _ => rfl⟩ (.inl hfree)
  have htaken : name ∈ fList := by simpa using hfree
  by_cases hname : Renamable name
  · obtain ⟨j, hj, hmissed, hseen⟩ := exists_first_missed fList hname
    rw [StoresSafely, getName_eq_candidate hname hj hmissed hseen]
    constructor
    · intro hsafe
      obtain ⟨stored, hstored, hnot, -⟩ := hsafe
      obtain rfl := Option.some.inj hstored
      refine .inr ⟨hname, fun k hk => ?_⟩
      rcases Nat.lt_or_ge k j with hlt | hge
      · exact hseen k hlt
      · exact absurd (hk j hge) hnot
    · intro hcase
      rcases hcase with hnot | ⟨-, hall⟩
      · exact absurd htaken hnot
      · refine ⟨_, rfl, fun hmem => hmissed (hall j fun i hi => ?_), fun hnot => absurd htaken hnot⟩
        rcases Nat.lt_or_eq_of_le hi with hlt | rfl
        · exact List.mem_of_mem_drop (hseen i hlt)
        · exact hmem
  · refine iff_of_false ?_ ?_
    · intro hsafe
      obtain ⟨stored, hstored, -⟩ := hsafe
      rw [getName_throws htaken hname] at hstored
      cases hstored
    · intro hcase
      rcases hcase with hnot | ⟨hyes, -⟩
      · exact hfree hnot
      · exact hname hyes

/-- "a.txt" is stored as "a[1].txt", which is there: it stands in front of the name that was asked for. -/
theorem not_storesSafely : ¬ StoresSafely [jstring "a[1].txt", jstring "a.txt"] (jstring "a.txt") := by
  intro hsafe
  obtain ⟨stored, hstored, hnot, -⟩ := hsafe
  have hname : getName [jstring "a[1].txt", jstring "a.txt"] (jstring "a.txt") = some (jstring "a[1].txt") := by
    decide
  rw [hname] at hstored
  obtain rfl := Option.some.inj hstored
  exact hnot List.mem_cons_self

end

end Sockets.Ftp
