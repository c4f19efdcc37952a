/-
The arguments of the node that starts a tour. Each name is compared with
the argument in front of it, which has its first two characters overwritten
by then, as its number was read: so only the first name can be found equal,
to the name of the program, and a tour that stays where it is is never
rejected (`tourRight_iff`).

The array of the numbers is the function's own, and its address is what it
returns; the model stops at what the array holds.
-/
import Sockets.Odr.Packet
import Sockets.Tour.Network

namespace Sockets.Tour

/-- The name of a host: "vm" and its number. -/
structure VmName where
  digits : List Char
  nonempty : digits ≠ []
  isDigit : ∀ c ∈ digits, c.isDigit = true
  isInt : Odr.atoi digits < 2 ^ 31

def VmName.text (name : VmName) : List Char := 'v' :: 'm' :: name.digits

def VmName.number (name : VmName) : Int := Odr.atoi name.digits

/-- `atoi` of a text that starts with a digit, where the number is an `int`. -/
def atoi (text : List Char) : Option Int :=
  if Odr.atoi text < 2 ^ 31 then some (Odr.atoi text : Int) else none

/-- `host[0] = '0'; host[1] = '0'`. -/
def zeroName : List Char → Option (List Char)
  | _ :: _ :: rest => some ('0' :: '0' :: rest)
  | _ => none

/-- `vmNumber[i] = curr_node`. -/
def setNumber (vmNumber : HostArray) (i : Nat) (currNode : Int) : Option HostArray :=
  if h : i < totalVmSize then some (vmNumber.set i currNode) else none

/-- What becomes of the arguments: the program exits with "Invalid tour", or has the numbers. -/
inductive TourNumbers
  | invalidTour
  | numbers (vmNumber : HostArray)
deriving DecidableEq

/-- The loop over the arguments from `i` on, with `todo` of them left. -/
def argumentLoop : (todo i : Nat) → List (List Char) → HostArray → Option TourNumbers
  | 0, _, _, vmNumber => some (.numbers vmNumber)
  | todo + 1, i, argv, vmNumber => do
    let argument ← argv[i]?
    let previous ← argv[i - 1]?
    if argument = previous then some .invalidTour
    else do
      let host ← zeroName argument
      let currNode ← atoi host
      let vmNumber ← setNumber vmNumber i currNode
      argumentLoop todo (i + 1) (argv.set i host) vmNumber

def hostNameToNumberArray (hostname : List Char) (argv : List (List Char)) : Option TourNumbers := do
  let hostname ← zeroName hostname
  let currNode ← atoi hostname
  let vmNumber ← setNumber (Vector.replicate totalVmSize 0) 0 currNode
  argumentLoop (argv.length - 1) 1 argv vmNumber

/-- Two consecutive names are equal. -/
def Repeats (names : List VmName) : Prop :=
  ∃ i, i + 1 < names.length ∧ (names.map VmName.text)[i]? = (names.map VmName.text)[i + 1]?

/-- A tour is rejected if it goes from a node to the same node, and otherwise its numbers are those
of the local node and of the names. -/
def TourRight (localHost : VmName) (program : List Char) (names : List VmName) : Prop :=
  let result := hostNameToNumberArray localHost.text (program :: names.map VmName.text)
  (result = some .invalidTour ↔ Repeats names) ∧
    (¬ Repeats names → ∃ vmNumber, result = some (.numbers vmNumber) ∧
      localHost.number :: names.map VmName.number <+: vmNumber.toList)

/-! ## What the loop computes -/

section

variable {names : List VmName} {program : List Char}

theorem VmName.atoi_zeroes (name : VmName) : atoi ('0' :: '0' :: name.digits) = some name.number := by
  rw [atoi, Odr.atoi_zeroes, if_pos name.isInt, VmName.number]

theorem setNumber_hostNumbers {tour : List Int} (h : tour.length < totalVmSize) (n : Int) :
    setNumber (hostNumbers tour) tour.length n = some (hostNumbers (tour ++ [n])) := by
  rw [setNumber, dif_pos h]
  refine congrArg some (Vector.ext fun i hi => ?_)
  rw [Vector.getElem_set, hostNumbers_getElem hi, hostNumbers_getElem hi, vm, vm, List.getD_eq_getElem?_getD,
    List.getD_eq_getElem?_getD]
  split
  next heq =>
    rw [← heq, List.getElem?_append_right le_rfl, Nat.sub_self, List.getElem?_cons_zero, Option.getD_some]
  next hne =>
    rcases Nat.lt_or_ge i tour.length with hlt | hge
    · rw [List.getElem?_append_left hlt]
    · rw [List.getElem?_eq_none hge, List.getElem?_eq_none (by simp; omega)]

/-- What the loop does with a name that is not the argument in front of it. -/
theorem argumentLoop_step {seen rest : List (List Char)} {previous : List Char} {name : VmName} (todo : Nat)
    (vmNumber : HostArray) (hne : name.text ≠ previous) :
    argumentLoop (todo + 1) (seen.length + 1) (seen ++ previous :: name.text :: rest) vmNumber =
      (setNumber vmNumber (seen.length + 1) name.number).bind
        (argumentLoop todo (seen.length + 2) (seen ++ previous :: ('0' :: '0' :: name.digits) :: rest)) := by
  have hargument : (seen ++ previous :: name.text :: rest)[seen.length + 1]? = some name.text := by
    rw [List.getElem?_append_right (by omega), Nat.add_sub_cancel_left]
    rfl
  have hprevious : (seen ++ previous :: name.text :: rest)[seen.length + 1 - 1]? = some previous := by
    rw [Nat.add_sub_cancel, List.getElem?_append_right le_rfl, Nat.sub_self]
    rfl
  have hset : (seen ++ previous :: name.text :: rest).set (seen.length + 1) ('0' :: '0' :: name.digits) =
      seen ++ previous :: ('0' :: '0' :: name.digits) :: rest := by
    rw [List.set_append_right _ _ (by omega), Nat.add_sub_cancel_left]
    rfl
  have hzero : zeroName name.text = some ('0' :: '0' :: name.digits) := rfl
  simp only [argumentLoop, hargument, hprevious, hzero, name.atoi_zeroes, if_neg hne, hset, Option.bind_eq_bind,
    Option.bind_some]

/-- Once the argument in front is not the next name none is rejected, for that is rewritten before the one
behind it is compared. -/
theorem argumentLoop_eq {seen : List (List Char)} {previous : List Char} {tour : List Int}
    (hfirst : ∀ name ∈ names.head?, name.text ≠ previous) (hlen : tour.length = seen.length + 1)
    (hfits : tour.length ≤ totalVmSize) :
    argumentLoop names.length (seen.length + 1) (seen ++ previous :: names.map VmName.text) (hostNumbers tour) =
      if tour.length + names.length ≤ totalVmSize then
        some (.numbers (hostNumbers (tour ++ names.map VmName.number))) else none := by
  induction names generalizing seen previous tour with
  | nil => simp only [List.length_nil, List.map_nil, argumentLoop, Nat.add_zero, if_pos hfits, List.append_nil]
  | cons name names ih =>
    rw [List.length_cons, List.map_cons, argumentLoop_step _ _ (hfirst name rfl), ← hlen]
    rcases Nat.lt_or_ge tour.length totalVmSize with hlt | hge
    · have hnext : ∀ next ∈ names.head?, next.text ≠ '0' :: '0' :: name.digits := by
        intro next _ he
        exact absurd (List.cons.inj he).1 (by decide)
      have hgo := @ih (seen ++ [previous]) ('0' :: '0' :: name.digits) (tour ++ [name.number]) hnext
        (by simp [hlen]) (by simp; omega)
      rw [setNumber_hostNumbers hlt, Option.bind_some]
      simp only [List.length_append, List.length_singleton, List.append_assoc, List.singleton_append] at hgo
      rw [hgo]
      simp only [List.map_cons, Nat.add_assoc, Nat.add_comm 1]
    · rw [setNumber, dif_neg (by omega), Option.bind_none, if_neg (by omega)]

theorem hostNumbers_nil : hostNumbers [] = Vector.replicate totalVmSize 0 := by
  refine Vector.ext fun i hi => ?_
  rw [hostNumbers_getElem hi, Vector.getElem_replicate]
  rfl

/-- The array before the loop, which has the number of the local node. -/
theorem hostNameToNumberArray_loop (localHost : VmName) (argv : List (List Char)) :
    hostNameToNumberArray localHost.text argv =
      argumentLoop (argv.length - 1) 1 argv (hostNumbers [localHost.number]) := by
  have hzero : zeroName localHost.text = some ('0' :: '0' :: localHost.digits) := rfl
  have hlocal : setNumber (hostNumbers []) 0 localHost.number = some (hostNumbers [localHost.number]) :=
    setNumber_hostNumbers (by decide) _
  simp only [hostNameToNumberArray, hzero, localHost.atoi_zeroes, ← hostNumbers_nil, hlocal,
    Option.bind_eq_bind, Option.bind_some]

/-- What becomes of the arguments if the program does not go by the first name. -/
theorem hostNameToNumberArray_numbers (localHost : VmName)
    (hfirst : ∀ name ∈ names.head?, name.text ≠ program) :
    hostNameToNumberArray localHost.text (program :: names.map VmName.text) =
      if names.length < totalVmSize then
        some (.numbers (hostNumbers (localHost.number :: names.map VmName.number))) else none := by
  have hloop := @argumentLoop_eq names [] program [localHost.number] hfirst rfl
    (show 1 ≤ totalVmSize by decide)
  rw [hostNameToNumberArray_loop, List.length_cons, List.length_map, Nat.add_sub_cancel]
  simp only [List.nil_append, List.length_nil, List.length_singleton, List.singleton_append, Nat.zero_add] at hloop
  rw [hloop]
  simp only [Nat.add_comm 1, Nat.succ_le_iff]

theorem hostNameToNumberArray_invalid (localHost : VmName) {name : VmName} (hfirst : name.text = program) :
    hostNameToNumberArray localHost.text (program :: (name :: names).map VmName.text) = some .invalidTour := by
  rw [hostNameToNumberArray_loop, List.map_cons, List.length_cons, List.length_cons, Nat.add_sub_cancel, hfirst]
  show (if program = program then some TourNumbers.invalidTour else _) = _
  exact if_pos rfl

/-- **Which tours are rejected.** The one check that sees two names as they were given is that of the first,
against the name of the program. So a tour is taken right when no two consecutive names are equal, none
needs more room than the array has, and the program is not called like the first; or when two
are equal and the program is. -/
theorem tourRight_iff (localHost : VmName) (program : List Char) (names : List VmName) :
    TourRight localHost program names ↔
      ¬ Repeats names ∧ names.length < totalVmSize ∧ (∀ name ∈ names.head?, name.text ≠ program) ∨
      Repeats names ∧ ∃ name ∈ names.head?, name.text = program := by
  unfold TourRight
  by_cases hfirst : ∃ name ∈ names.head?, name.text = program
  · have hinvalid :
        hostNameToNumberArray localHost.text (program :: names.map VmName.text) = some .invalidTour := by
      obtain ⟨name, hname, heq⟩ := hfirst
      cases names with
      | nil => cases hname
      | cons first rest =>
        cases hname
        exact hostNameToNumberArray_invalid localHost heq
    rw [hinvalid]
    constructor
    · intro h
      exact .inr ⟨h.1.mp rfl, hfirst⟩
    · intro hcase
      rcases hcase with ⟨-, -, hne⟩ | ⟨hrepeats, -⟩
      · obtain ⟨name, hname, heq⟩ := hfirst
        exact absurd heq (hne name hname)
      · exact ⟨iff_of_true rfl hrepeats, fun hnot => absurd hrepeats hnot⟩
  · have hne : ∀ name ∈ names.head?, name.text ≠ program := fun name hname heq => hfirst ⟨name, hname, heq⟩
    rw [hostNameToNumberArray_numbers localHost hne]
    have hnot : (if names.length < totalVmSize then
        some (TourNumbers.numbers (hostNumbers (localHost.number :: names.map VmName.number))) else none) ≠
        some .invalidTour := by
      split <;> simp
    constructor
    · intro hright
      obtain ⟨hreject, hnumbers⟩ := hright
      have hrepeats : ¬ Repeats names := fun h => hnot (hreject.mpr h)
      obtain ⟨vmNumber, hsome, -⟩ := hnumbers hrepeats
      refine .inl ⟨hrepeats, ?_, hne⟩
      by_contra hge
      rw [if_neg hge] at hsome
      cases hsome
    · intro hcase
      rcases hcase with ⟨hrepeats, hfits, -⟩ | ⟨-, hsame⟩
      · refine ⟨iff_of_false hnot hrepeats, fun _ => ⟨_, if_pos hfits, ?_⟩⟩
        rw [hostNumbers_toList (by rw [List.length_cons, List.length_map]; exact hfits)]
        exact List.prefix_append _ _
      · exact absurd hsame hfirst

end

/-! ## A tour that stays where it is -/

/-- The name of the host with this number. -/
def VmName.ofNat (n : Nat) (h : n < 2 ^ 31) : VmName where
  digits := Nat.toDigits 10 n
  nonempty := Nat.toDigits_ne_nil
  isDigit := toDigits_isDigit
  isInt := (Odr.atoi_toDigits n).symm ▸ h

/-- `./tour vm2 vm2 vm3` at vm1 is not rejected. -/
theorem not_tourRight : ¬ TourRight (.ofNat 1 (by decide)) "./tour".toList
    [.ofNat 2 (by decide), .ofNat 2 (by decide), .ofNat 3 (by decide)] := by
  intro h
  have hrepeats : Repeats [.ofNat 2 (by decide), .ofNat 2 (by decide), .ofNat 3 (by decide)] :=
    ⟨0, by decide, rfl⟩
  have hinvalid := h.1.mpr hrepeats
  rw [hostNameToNumberArray_numbers _ (by decide)] at hinvalid
  cases hinvalid

end Sockets.Tour
