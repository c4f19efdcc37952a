/-
The directory `dataFile` that each side keeps, and `getName`, by which both
choose the name under which a file is stored: as long as the directory has a
file of that name the number in brackets is raised, from 1 on.

`getName` is the same text on both sides. It loops over the names the
directory has, in the order in which the system lists them, and starts over
with each new number; it ends, since there are no more names than files
(`getName_eq_some`), for the names with a dot and without brackets that the
programs are meant for. Other names may make it throw an exception.
-/
import Sockets.Ftp.DataStream
import Sockets.Lib.Decimal
import Mathlib.Order.Interval.Finset.Nat
import Mathlib.Tactic.Ring

namespace Sockets.Ftp

/-! ## Directories -/

/-- The contents of each file. -/
abbrev Directory : Type := JString → Option (List UInt8)

def Directory.write (dir : Directory) (name : JString) (data : List UInt8) : Directory :=
  Function.update dir name (some data)

/-- `File.delete`, which does nothing when there is no such file. -/
def Directory.delete (dir : Directory) (name : JString) : Directory := Function.update dir name none

/-! ## Names -/

/-- `indexOf`, with `none` for -1. -/
def indexOf (s : JString) (c : Char) : Option Nat :=
  if jchar c ∈ s then some (s.idxOf (jchar c)) else none

/-- A number in a string. -/
def decimal (n : Nat) : JString := (Nat.toDigits 10 n).map jchar

section GetName

-- the names in the directory, as they are listed
variable (fList : List JString)

/-- The loop of `getName` from index `i` on; `none` when it throws an exception, or does not end
within so many rounds. -/
def getNameFrom : Nat → JString → Nat → Nat → Option JString
  | 0, _, _, _ => none
  | rounds + 1, Dfname, count, i =>
    match fList[i]? with
    | none => some Dfname
    | some name =>
      if name = Dfname then
        match indexOf Dfname '[' with
        | none =>
          (indexOf Dfname '.').bind fun m =>
            let left := Dfname.take m
            let right := Dfname.drop (m + 1)
            getNameFrom rounds (left ++ jstring "[1]." ++ right) count (i + 1)
        | some l =>
          (indexOf Dfname ']').bind fun r =>
            let left := Dfname.take (l + 1)
            let right := Dfname.drop r
            -- `i` is set to 0 and then counts on, so that the first name is not looked at again
            getNameFrom rounds (left ++ decimal count ++ right) (count + 1) 1
      else getNameFrom rounds Dfname count (i + 1)

/-- There are at most as many numbers as files, and two names more, and a round for each file
with each of them. -/
def getNameRounds : Nat := (fList.length + 3) * (fList.length + 2)

def getName (Dfname : JString) : Option JString := getNameFrom fList (getNameRounds fList) Dfname 2 0

end GetName

/-- A file name with a dot and without brackets. -/
structure PlainName (name : JString) : Prop where
  dot : jchar '.' ∈ name
  noOpen : jchar '[' ∉ name
  noClose : jchar ']' ∉ name

instance {name : JString} : Decidable (PlainName name) :=
  decidable_of_iff (jchar '.' ∈ name ∧ jchar '[' ∉ name ∧ jchar ']' ∉ name)
    ⟨fun ⟨dot, noOpen, noClose⟩ => ⟨dot, noOpen, noClose⟩, fun ⟨dot, noOpen, noClose⟩ => ⟨dot, noOpen, noClose⟩⟩

/-! ## `getName` ends -/

theorem digit_of_mem {n : Nat} {c : Char} (h : c ∈ Nat.toDigits 10 n) : 48 ≤ c.toNat ∧ c.toNat ≤ 57 := by
  have hdigit : c.isDigit = true := toDigits_isDigit c h
  simp only [Char.isDigit, Bool.and_eq_true, decide_eq_true_eq] at hdigit
  exact ⟨hdigit.1, hdigit.2⟩

theorem toNat_jchar {c : Char} (h : c.toNat < 65536) : (jchar c).toNat = c.toNat :=
  UInt16.toNat_ofNat_of_lt' h

theorem close_notMem_decimal (n : Nat) : jchar ']' ∉ decimal n := by
  intro hm
  obtain ⟨c, hc, hsame⟩ := List.mem_map.mp hm
  have hdigit := digit_of_mem hc
  have hnat : (jchar c).toNat = (jchar ']').toNat := congrArg UInt16.toNat hsame
  rw [toNat_jchar (by omega)] at hnat
  have hbracket : (jchar ']').toNat = 93 := rfl
  omega

theorem decimal_injective : Function.Injective decimal := by
  intro n m hsame
  have hback (k : Nat) : (decimal k).map (fun u => Char.ofNat u.toNat) = Nat.toDigits 10 k := by
    rw [decimal, List.map_map]
    refine (List.map_congr_left ?_).trans (List.map_id _)
    intro c hc
    have hdigit := digit_of_mem hc
    rw [Function.comp_apply, toNat_jchar (by omega), Char.ofNat_toNat, id]
  have hdigits : Nat.toDigits 10 n = Nat.toDigits 10 m := by rw [← hback n, hsame, hback m]
  have hvalue := congrArg (fun l => Nat.ofDigitChars 10 l 0) hdigits
  simpa using hvalue

/-- A name with a number in it. -/
def numbered (left right : JString) (k : Nat) : JString :=
  left ++ jchar '[' :: (decimal k ++ jchar ']' :: jchar '.' :: right)

theorem numbered_injective (left right : JString) : Function.Injective (numbered left right) := by
  intro n m hsame
  simp only [numbered, List.append_cancel_left_eq, List.cons.injEq, List.append_cancel_right_eq,
    true_and] at hsame
  exact decimal_injective hsame

theorem indexOf_append {left : JString} {c : Char} (h : jchar c ∉ left) (rest : JString) :
    indexOf (left ++ jchar c :: rest) c = some left.length := by
  rw [indexOf, if_pos (List.mem_append_right _ List.mem_cons_self), List.idxOf_append_of_notMem h,
    List.idxOf_cons_self, Nat.add_zero]

theorem indexOf_eq_none {s : JString} {c : Char} (h : jchar c ∉ s) : indexOf s c = none := if_neg h

/-- As many different names of a list as there are, there are that many names in it. -/
theorem le_length_of_injective {f : Nat → JString} (hf : Function.Injective f) {l : List JString} {k : Nat}
    (h : ∀ j, 1 ≤ j → j ≤ k → f j ∈ l) : k ≤ l.length := by
  have hsubset : (Finset.Icc 1 k).image f ⊆ l.toFinset := by
    intro name hm
    obtain ⟨j, hj, rfl⟩ := Finset.mem_image.mp hm
    obtain ⟨hlo, hhi⟩ := Finset.mem_Icc.mp hj
    exact List.mem_toFinset.mpr (h j hlo hhi)
  have hcard := Finset.card_le_card hsubset
  rw [Finset.card_image_of_injective _ hf, Nat.card_Icc] at hcard
  have hlength := List.toFinset_card_le l
  omega

section Ends

variable {fList : List JString} {left right : JString}

/-- One round with a number: the next name, or the next number. -/
theorem getNameFrom_numbered (hleft : jchar '[' ∉ left) (hclose : jchar ']' ∉ left) (rounds k count i : Nat) :
    getNameFrom fList (rounds + 1) (numbered left right k) count i =
      match fList[i]? with
      | none => some (numbered left right k)
      | some name =>
        if name = numbered left right k then getNameFrom fList rounds (numbered left right count) (count + 1) 1
        else getNameFrom fList rounds (numbered left right k) count (i + 1) := by
  have hopen : indexOf (numbered left right k) '[' = some left.length := indexOf_append hleft _
  have hsplit : numbered left right k =
      (left ++ jchar '[' :: decimal k) ++ jchar ']' :: jchar '.' :: right := by
    simp [numbered]
  have hnone : jchar ']' ∉ left ++ jchar '[' :: decimal k := by
    simp only [List.mem_append, List.mem_cons, not_or]
    exact ⟨hclose, by decide, close_notMem_decimal k⟩
  have hend : indexOf (numbered left right k) ']' = some (left ++ jchar '[' :: decimal k).length := by
    rw [hsplit, indexOf_append hnone]
  have htake : (numbered left right k).take (left.length + 1) = left ++ [jchar '['] := by
    simp [numbered, List.take_append]
  have hdrop : (numbered left right k).drop (left ++ jchar '[' :: decimal k).length =
      jchar ']' :: jchar '.' :: right := by
    rw [hsplit, List.drop_left]
  rw [getNameFrom]
  split
  · rfl
  next name _ =>
    have hnext : left ++ [jchar '['] ++ decimal count ++ jchar ']' :: jchar '.' :: right =
        numbered left right count := by
      simp [numbered]
    dsimp only
    rw [hopen, hend]
    dsimp only [Option.bind_some]
    rw [htake, hdrop, hnext]

/-- The names with the numbers below `k` are in the directory, so there are not too many of them:
each round is on a later file, or with a higher number. -/
theorem getNameFrom_numbered_eq_some (hleft : jchar '[' ∉ left) (hclose : jchar ']' ∉ left)
    {rounds k i : Nat} (hused : ∀ j, 1 ≤ j → j < k → numbered left right j ∈ fList)
    (hrounds : (fList.length + 1 - k) * (fList.length + 1) + (fList.length - i) < rounds) :
    ∃ stored, getNameFrom fList rounds (numbered left right k) (k + 1) i = some stored := by
  induction rounds generalizing k i with
  | zero => omega
  | succ rounds ih =>
    rw [getNameFrom_numbered hleft hclose]
    split
    · exact ⟨_, rfl⟩
    next name hname =>
      have hi : i < fList.length := (List.getElem?_eq_some_iff.mp hname).1
      split
      next hsame =>
        have hk : ∀ j, 1 ≤ j → j ≤ k → numbered left right j ∈ fList := by
          intro j hlo hhi
          cases Nat.lt_or_eq_of_le hhi with
          | inl hlt => exact hused j hlo hlt
          | inr he => exact he ▸ hsame ▸ List.mem_of_getElem? hname
        have hle : k ≤ fList.length := le_length_of_injective (numbered_injective left right) hk
        refine ih (fun j hlo hhi => hk j hlo (Nat.le_of_lt_succ hhi)) ?_
        have hnext : fList.length + 1 - k = fList.length - k + 1 := by omega
        rw [hnext, Nat.add_mul] at hrounds
        have hlast : fList.length + 1 - (k + 1) = fList.length - k := by omega
        rw [hlast]
        omega
      next => exact ih hused (by omega)

/-- As long as the name has no number. -/
theorem getNameFrom_plain_eq_some {name : JString} (hname : PlainName name) {rounds i : Nat}
    (hrounds : (fList.length + 1) * (fList.length + 1) + (fList.length - i) < rounds) :
    ∃ stored, getNameFrom fList rounds name 2 i = some stored := by
  induction rounds generalizing i with
  | zero => omega
  | succ rounds ih =>
    rw [getNameFrom]
    split
    · exact ⟨_, rfl⟩
    next other hother =>
      have hi : i < fList.length := (List.getElem?_eq_some_iff.mp hother).1
      split
      next =>
        obtain ⟨left, right, rfl, hdot⟩ := List.eq_append_cons_of_mem hname.dot
        have hopen : jchar '[' ∉ left := fun hm => hname.noOpen (List.mem_append_left _ hm)
        have hclose : jchar ']' ∉ left := fun hm => hname.noClose (List.mem_append_left _ hm)
        have hfirst : left ++ jstring "[1]." ++ right = numbered left right 1 := by
          have hdigit : decimal 1 = [jchar '1'] := rfl
          rw [numbered, hdigit]
          simp [jstring]
        rw [indexOf_eq_none hname.noOpen, indexOf_append hdot]
        dsimp only [Option.bind_some]
        rw [List.take_left, List.drop_length_add_append, List.drop_one, List.tail_cons, hfirst]
        refine getNameFrom_numbered_eq_some hopen hclose (fun j hlo hhi => absurd hhi (by omega)) ?_
        rw [Nat.add_sub_cancel]
        rw [Nat.add_mul] at hrounds
        omega
      next => exact ih (by omega)

/-- **Storing a file.** For a plain name `getName` finds a name, whatever is in the directory and
in which order. -/
theorem getName_eq_some (fList : List JString) {name : JString} (hname : PlainName name) :
    ∃ stored, getName fList name = some stored := by
  refine getNameFrom_plain_eq_some hname ?_
  have hproduct : getNameRounds fList =
      (fList.length + 1) * (fList.length + 1) + 3 * fList.length + 5 := by
    rw [getNameRounds]
    ring
  omega

end Ends

end Sockets.Ftp
