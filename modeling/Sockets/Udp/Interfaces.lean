/-
How the client chooses the interface it sends from. `main` puts the
interfaces of the host in an array, and goes through the array as long as
the slots are taken: of the interfaces in whose subnet the server is it
keeps the first of those whose address has the most leading bits in common
with the server's (`selectInterface_eq`). For the loopback address it does not
look at the array.

What is kept need not have the longest netmask (`selectsLongestMask_iff`).
-/
import Sockets.Lib.Slots
import Sockets.Udp.Subnet

namespace Sockets.Udp

def fdSetSize : Nat := 1024

/-- What the host says of an interface: the texts of its address and its netmask. -/
structure IfiInfo where
  ifiAddr : List Char
  ifiNtmaddr : List Char

/-- A slot of the array; it is free if the label is negative. -/
structure Interface where
  label : Int := -1
  address : List Char := []
  networkMask : List Char := []

def freeSlot : Interface := {}

def IfiInfo.slot (ifi : IfiInfo) : Interface :=
  { label := 1, address := ifi.ifiAddr, networkMask := ifi.ifiNtmaddr }

/-- The interfaces in the array: each is put in the first slot with a negative label. -/
def interfaceArray (ifis : List IfiInfo) : List Interface :=
  ifis.foldl (fun array ifi => putFirst (fun slot => slot.label < 0) ifi.slot array)
    (List.replicate fdSetSize freeSlot)

/-- The loop over the array from slot `w` on. -/
def selectLoop (currentServAddr : List Char) : List Interface → Int → Int → Int → Option (Int × Int)
  | [], _, longestInt, index => some (longestInt, index)
  | interface :: rest, w, longestInt, index =>
    if interface.label > 0 then do
      let networkMaskNum ← getNetworkMaskNum interface.networkMask
      let tmpLong ← getLongest interface.address currentServAddr
      if tmpLong ≥ networkMaskNum ∧ tmpLong > longestInt then
        selectLoop currentServAddr rest (w + 1) tmpLong w
      else selectLoop currentServAddr rest (w + 1) longestInt index
    else some (longestInt, index)

def loopbackAddr : List Char := "127.0.0.1".toList

/-- The values of `longestInt` and `index` when the address of the client is chosen. For the loopback
address the loop is not run; there is no `index` then, and -1 stands for it. -/
def selectInterface (ifis : List IfiInfo) (currentServAddr : List Char) : Option (Int × Int) :=
  if currentServAddr = loopbackAddr then some (-1, -1)
  else selectLoop currentServAddr (interfaceArray ifis) 0 (-1) (-1)

/-! ## What is meant -/

/-- An interface with a valid address and a contiguous netmask. -/
structure ValidIfi extends IfiInfo where
  ad : InAddr
  mask : InAddr
  ones : Nat
  addr_eq : inetPton ifiAddr = some ad
  mask_eq : inetPton ifiNtmaddr = some mask
  contiguous : mask.Contiguous ones

/-- The subnet of the interface contains the address. -/
def ValidIfi.Contains (ifi : ValidIfi) (server : InAddr) : Prop :=
  ifi.ad.sAddr &&& ifi.mask.sAddr = server.sAddr &&& ifi.mask.sAddr

instance (ifi : ValidIfi) (server : InAddr) : Decidable (ifi.Contains server) :=
  inferInstanceAs (Decidable (_ = _))

def ValidIfi.bitsInCommon (ifi : ValidIfi) (server : InAddr) : Nat := commonLength ifi.ad.bits server.bits

/-- The selection ends with -1 where no subnet contains the server; otherwise with an interface whose
subnet does, and of these one with the longest netmask. -/
def SelectsLongestMask (ifis : List ValidIfi) (server : InAddr) (longestInt index : Int) : Prop :=
  (longestInt = -1 ↔ ∀ ifi ∈ ifis, ¬ ifi.Contains server) ∧
    (longestInt ≠ -1 → ∃ (w : Nat) (ifi : ValidIfi), index = w ∧ ifis[w]? = some ifi ∧ ifi.Contains server ∧
      ∀ other ∈ ifis, other.Contains server → other.ones ≤ ifi.ones)

/-- Of the interfaces whose subnet contains the server, this one, behind `front`, is the first that
is closest to it. -/
structure Closest (server : InAddr) (front : List ValidIfi) (ifi : ValidIfi) (back : List ValidIfi) : Prop where
  contains : ifi.Contains server
  front : ∀ other ∈ front, other.Contains server → other.bitsInCommon server < ifi.bitsInCommon server
  back : ∀ other ∈ back, other.Contains server → other.bitsInCommon server ≤ ifi.bitsInCommon server

/-- Among the interfaces in the array the one that is closest to the server has the longest netmask. -/
def ClosestHasLongestMask (ifis : List ValidIfi) (server : InAddr) : Prop :=
  ∃ front ifi back, ifis.take fdSetSize = front ++ ifi :: back ∧ Closest server front ifi back ∧
    ∀ other ∈ ifis, other.Contains server → other.ones ≤ ifi.ones

variable {ifis : List ValidIfi} {server : InAddr} {currentServAddr : List Char}

/-! ## The array -/

/-- The array holds the interfaces, as many as it has slots. -/
theorem interfaceArray_eq (ifis : List IfiInfo) :
    interfaceArray ifis = slots fdSetSize freeSlot (ifis.map IfiInfo.slot) := by
  have htaken : ∀ slot ∈ ifis.map IfiInfo.slot, decide (slot.label < 0) = false := by
    intro slot hm
    obtain ⟨ifi, -, rfl⟩ := List.mem_map.mp hm
    rfl
  rw [← @foldl_putFirst _ (fun slot : Interface => slot.label < 0) _ _ _ rfl htaken, List.foldl_map]
  rfl

/-! ## The loop -/

theorem getLongest_eq (ifi : ValidIfi) (hs : inetPton currentServAddr = some server) :
    getLongest ifi.ifiAddr currentServAddr = some (ifi.bitsInCommon server) := by
  rw [getLongest, getBitString_eq ifi.addr_eq, getBitString_eq hs]
  rfl

/-- The test of the loop is whether the subnet contains the server. -/
theorem ValidIfi.contains_iff (ifi : ValidIfi) (hs : inetPton currentServAddr = some server) :
    ifi.Contains server ↔ ifi.ones ≤ ifi.bitsInCommon server := by
  obtain ⟨longest, networkMaskNum, hlongest, hmask, hiff, -⟩ :=
    prefixTest_iff ifi.addr_eq hs ifi.mask_eq ifi.contiguous
  rw [getLongest_eq ifi hs, Option.some.injEq] at hlongest
  rw [getNetworkMaskNum_eq ifi.mask_eq ifi.contiguous, Option.some.injEq] at hmask
  subst hlongest hmask
  exact hiff.symm

/-- The variables of the loop when this is the best so far. -/
def kept (server : InAddr) : Option (ValidIfi × Nat) → Int × Int
  | none => (-1, -1)
  | some (ifi, w) => (ifi.bitsInCommon server, w)

/-- The loop is the scan for the most bits in common. -/
theorem selectLoop_eq (hs : inetPton currentServAddr = some server) {rest : List Interface}
    (hrest : ∀ slot ∈ rest.head?, slot.label < 0) (w : Nat) (best : Option (ValidIfi × Nat)) :
    selectLoop currentServAddr (ifis.map (·.slot) ++ rest) w (kept server best).1 (kept server best).2 =
      some (kept server (scanBest (fun p => p.1.Contains server) (fun p => p.1.bitsInCommon server) best
        (ifis.zipIdx w))) := by
  induction ifis generalizing w best with
  | nil =>
    rw [List.map_nil, List.nil_append, List.zipIdx_nil, scanBest]
    cases rest with
    | nil => rfl
    | cons slot rest =>
      have hfree : ¬ slot.label > 0 := by
        have hlabel := hrest slot rfl
        omega
      rw [selectLoop, if_neg hfree]
  | cons ifi ifis ih =>
    have htaken : ifi.slot.label > 0 := Int.zero_lt_one
    have hindex : (w : Int) + 1 = (w + 1 : Nat) := rfl
    -- the bits in common with what was kept are fewer, or nothing was kept
    have hgreater : ((ifi.bitsInCommon server : Int) > (kept server best).1) ↔
        ∀ b ∈ best, b.1.bitsInCommon server < ifi.bitsInCommon server := by
      cases best with
      | none => simp [kept]; omega
      | some b => simp [kept]
    rw [List.map_cons, List.cons_append, selectLoop, if_pos htaken, List.zipIdx_cons, scanBest]
    simp only [IfiInfo.slot, getNetworkMaskNum_eq ifi.mask_eq ifi.contiguous, getLongest_eq ifi hs,
      Option.bind_eq_bind, Option.bind_some, decide_eq_true_eq]
    have htest : (ifi.bitsInCommon server ≥ ifi.ones ∧
        (ifi.bitsInCommon server : Int) > (kept server best).1) ↔
          (ifi.Contains server ∧ ∀ b ∈ best, b.1.bitsInCommon server < ifi.bitsInCommon server) := by
      rw [hgreater, ifi.contains_iff hs, ge_iff_le]
    rw [hindex]
    simp only [htest]
    split
    · exact ih (w + 1) (some (ifi, w))
    · exact ih (w + 1) best

theorem zipIdx_eq_append_cons {α : Type} {l : List α} {a : α} {w : Nat} {front back : List (α × Nat)}
    (h : l.zipIdx = front ++ (a, w) :: back) :
    l = front.map Prod.fst ++ a :: back.map Prod.fst ∧ w = front.length := by
  constructor
  · have hfst := congrArg (List.map Prod.fst) h
    rwa [List.zipIdx_map_fst, List.map_append, List.map_cons] at hfst
  · have hat : l.zipIdx[front.length]? = some (a, w) := by
      rw [h, List.getElem?_append_right le_rfl, Nat.sub_self, List.getElem?_cons_zero]
    rw [List.getElem?_zipIdx, Option.map_eq_some_iff] at hat
    obtain ⟨b, -, heq⟩ := hat
    have hindex := (Prod.mk.inj heq).2
    omega

/-- The scan keeps the first of the interfaces that are closest to the server. -/
theorem scanBest_zipIdx_iff {ifi : ValidIfi} {w : Nat} :
    scanBest (fun p => p.1.Contains server) (fun p => p.1.bitsInCommon server) none ifis.zipIdx = some (ifi, w) ↔
      ∃ front back, ifis = front ++ ifi :: back ∧ front.length = w ∧ Closest server front ifi back := by
  rw [scanBest_eq_some_iff]
  constructor
  · intro h
    rcases h with ⟨hnone, -⟩ | ⟨front, back, hsplit, hok, -, hfront, hback⟩
    · cases hnone
    obtain ⟨hifis, rfl⟩ := zipIdx_eq_append_cons hsplit
    refine ⟨_, _, hifis, List.length_map _, of_decide_eq_true hok, ?_, ?_⟩
    · intro other hm hother
      obtain ⟨p, hp, rfl⟩ := List.mem_map.mp hm
      exact hfront p hp (decide_eq_true hother)
    · intro other hm hother
      obtain ⟨p, hp, rfl⟩ := List.mem_map.mp hm
      exact hback p hp (decide_eq_true hother)
  · intro h
    obtain ⟨front, back, rfl, rfl, hclosest⟩ := h
    refine .inr ⟨front.zipIdx, back.zipIdx (front.length + 1), ?_, decide_eq_true hclosest.contains, ?_, ?_, ?_⟩
    · rw [List.zipIdx_append, List.zipIdx_cons, Nat.zero_add]
    · intro b hb
      cases hb
    · intro p hp hother
      exact hclosest.front p.1 (List.fst_mem_of_mem_zipIdx hp) (of_decide_eq_true hother)
    · intro p hp hother
      exact hclosest.back p.1 (List.fst_mem_of_mem_zipIdx hp) (of_decide_eq_true hother)

/-- What is selected for any other address than the loopback one. -/
theorem selectInterface_eq (ifis : List ValidIfi) (hs : inetPton currentServAddr = some server)
    (hother : currentServAddr ≠ loopbackAddr) :
    selectInterface (ifis.map (·.toIfiInfo)) currentServAddr =
      some (kept server (scanBest (fun p => p.1.Contains server) (fun p => p.1.bitsInCommon server) none
        (ifis.take fdSetSize).zipIdx)) := by
  have harray : interfaceArray (ifis.map (·.toIfiInfo)) =
      (ifis.take fdSetSize).map (·.slot) ++ List.replicate (fdSetSize - ifis.length) freeSlot := by
    rw [interfaceArray_eq, slots, List.map_map, List.length_map, ← List.map_take]
    rfl
  have hfree : ∀ slot ∈ (List.replicate (fdSetSize - ifis.length) freeSlot).head?, slot.label < 0 := by
    intro slot hm
    rw [List.eq_of_mem_replicate (List.mem_of_mem_head? hm)]
    decide
  have hloop := @selectLoop_eq (ifis.take fdSetSize) server _ hs _ hfree 0 none
  rw [selectInterface, if_neg hother, harray]
  exact hloop

/-- What ends with -1 is right exactly where no subnet contains the server. -/
theorem selectsLongestMask_none_iff {index : Int} :
    SelectsLongestMask ifis server (-1) index ↔ ∀ ifi ∈ ifis, ¬ ifi.Contains server :=
  ⟨fun h => h.1.mp rfl, fun h => ⟨iff_of_true rfl h, fun hne => absurd rfl hne⟩⟩

/-- What is kept is right exactly where no other interface that could be selected has a longer netmask. -/
theorem selectsLongestMask_some_iff {ifi : ValidIfi} {w : Nat} (hw : ifis[w]? = some ifi)
    (hcontains : ifi.Contains server) : SelectsLongestMask ifis server (ifi.bitsInCommon server) w ↔
      ∀ other ∈ ifis, other.Contains server → other.ones ≤ ifi.ones := by
  have hfound : (ifi.bitsInCommon server : Int) ≠ -1 := by omega
  constructor
  · intro h
    obtain ⟨v, found, hindex, hv, -, hlongest⟩ := h.2 hfound
    obtain rfl : w = v := Int.ofNat_inj.mp hindex
    obtain rfl := Option.some.inj (hw.symm.trans hv)
    exact hlongest
  · intro hlongest
    refine ⟨iff_of_false hfound fun hall => hall ifi (List.mem_of_getElem? hw) hcontains, fun _ => ?_⟩
    exact ⟨w, ifi, rfl, hw, hcontains, hlongest⟩

/-- **The interface that is chosen.** It is the one with the longest netmask, or -1 where no subnet contains
the server, if and only if no subnet does, or the server's address is not the loopback one and the closest of
the interfaces in the array whose subnet contains it has the longest netmask of all that contain it. -/
theorem selectsLongestMask_iff (ifis : List ValidIfi) (hs : inetPton currentServAddr = some server) :
    (∃ longestInt index, selectInterface (ifis.map (·.toIfiInfo)) currentServAddr = some (longestInt, index) ∧
      SelectsLongestMask ifis server longestInt index) ↔
    (∀ ifi ∈ ifis, ¬ ifi.Contains server) ∨
      currentServAddr ≠ loopbackAddr ∧ ClosestHasLongestMask ifis server := by
  by_cases hother : currentServAddr = loopbackAddr
  · rw [selectInterface, if_pos hother, or_iff_left fun h => h.1 hother]
    constructor
    · intro h
      obtain ⟨longestInt, index, hselected, hright⟩ := h
      obtain ⟨rfl, rfl⟩ := Prod.mk.inj (Option.some.inj hselected)
      exact selectsLongestMask_none_iff.mp hright
    · intro hnone
      exact ⟨-1, -1, rfl, selectsLongestMask_none_iff.mpr hnone⟩
  rw [and_iff_right hother, selectInterface_eq ifis hs hother]
  generalize hbest : scanBest (fun p => p.1.Contains server) (fun p => p.1.bitsInCommon server) none
    (ifis.take fdSetSize).zipIdx = best
  cases best with
  | none =>
    have hfar : ¬ ClosestHasLongestMask ifis server := by
      intro h
      obtain ⟨front, ifi, back, hsplit, hclosest, -⟩ := h
      have hsome := scanBest_zipIdx_iff.mpr ⟨front, back, hsplit, rfl, hclosest⟩
      rw [hbest] at hsome
      cases hsome
    rw [or_iff_left hfar]
    constructor
    · intro h
      obtain ⟨longestInt, index, hselected, hright⟩ := h
      obtain ⟨rfl, rfl⟩ := Prod.mk.inj (Option.some.inj hselected)
      exact selectsLongestMask_none_iff.mp hright
    · intro hnone
      exact ⟨-1, -1, rfl, selectsLongestMask_none_iff.mpr hnone⟩
  | some p =>
    obtain ⟨ifi, w⟩ := p
    obtain ⟨front, back, hsplit, hlength, hclosest⟩ := scanBest_zipIdx_iff.mp hbest
    have hw : ifis[w]? = some ifi := by
      have hat : (ifis.take fdSetSize)[w]? = some ifi := by
        rw [hsplit, ← hlength, List.getElem?_append_right le_rfl, Nat.sub_self, List.getElem?_cons_zero]
      rw [List.getElem?_take] at hat
      exact (Option.ite_none_right_eq_some.mp hat).2
    have hsome : ¬ ∀ ifi ∈ ifis, ¬ ifi.Contains server :=
      fun hnone => hnone ifi (List.mem_of_getElem? hw) hclosest.contains
    rw [or_iff_right hsome]
    constructor
    · intro h
      obtain ⟨longestInt, index, hselected, hright⟩ := h
      obtain ⟨rfl, rfl⟩ := Prod.mk.inj (Option.some.inj hselected)
      exact ⟨front, ifi, back, hsplit, hclosest,
        (selectsLongestMask_some_iff hw hclosest.contains).mp hright⟩
    · intro h
      obtain ⟨front', found, back', hsplit', hclosest', hlongest⟩ := h
      -- there is only one that is the first of the closest
      have hfound := scanBest_zipIdx_iff.mpr ⟨front', back', hsplit', rfl, hclosest'⟩
      obtain ⟨rfl, -⟩ := Prod.mk.inj (Option.some.inj (hbest.symm.trans hfound))
      exact ⟨_, _, rfl, (selectsLongestMask_some_iff hw hclosest.contains).mpr hlongest⟩

/-! ## Two interfaces to one server -/

/-- An interface given by its address and the length of its netmask. -/
def exampleIfi (ad : InAddr) (mask : InAddr) (ones : Nat) (h : mask.Contiguous ones) : ValidIfi where
  ifiAddr := inetNtop ad
  ifiNtmaddr := inetNtop mask
  ad := ad
  mask := mask
  ones := ones
  addr_eq := inetPton_inetNtop ad
  mask_eq := inetPton_inetNtop mask
  contiguous := h

/-- 10.0.0.1 in 10.0.0.0/8, and 10.0.0.200 in 10.0.0.0/24. -/
def twoIfis : List ValidIfi :=
  [exampleIfi ⟨10, 0, 0, 1⟩ ⟨255, 0, 0, 0⟩ 8 ⟨by decide, by decide⟩,
    exampleIfi ⟨10, 0, 0, 200⟩ ⟨255, 255, 255, 0⟩ 24 ⟨by decide, by decide⟩]

theorem selectsLongestMask_iff_two :
    (∃ longestInt index,
      selectInterface (twoIfis.map (·.toIfiInfo)) "10.0.0.203".toList = some (longestInt, index) ∧
        SelectsLongestMask twoIfis ⟨10, 0, 0, 203⟩ longestInt index) ↔
    (∀ ifi ∈ twoIfis, ¬ ifi.Contains ⟨10, 0, 0, 203⟩) ∨
      "10.0.0.203".toList ≠ loopbackAddr ∧ ClosestHasLongestMask twoIfis ⟨10, 0, 0, 203⟩ :=
  selectsLongestMask_iff twoIfis (by decide)

/-- To the server 10.0.0.2 the first is chosen, with the shorter netmask. -/
theorem not_selectsLongestMask : (∀ ifi ∈ twoIfis, ifi.ad ≠ ⟨10, 0, 0, 2⟩) ∧
    ¬ ∃ longestInt index,
      selectInterface (twoIfis.map (·.toIfiInfo)) "10.0.0.2".toList = some (longestInt, index) ∧
        SelectsLongestMask twoIfis ⟨10, 0, 0, 2⟩ longestInt index := by
  refine ⟨by decide, ?_⟩
  intro h
  obtain ⟨longestInt, index, hselected, hright⟩ := h
  have hfirst : selectInterface (twoIfis.map (·.toIfiInfo)) "10.0.0.2".toList = some (30, 0) := by
    decide +kernel
  obtain ⟨rfl, rfl⟩ := Prod.mk.inj (Option.some.inj (hselected.symm.trans hfirst))
  obtain ⟨w, ifi, hindex, hw, -, hlongest⟩ := hright.2 (by decide)
  obtain rfl : w = 0 := by omega
  obtain rfl : twoIfis.head (by decide) = ifi := Option.some.inj hw
  exact absurd (hlongest _ (List.mem_cons_of_mem _ List.mem_cons_self) (by decide +kernel)) (by decide)

end Sockets.Udp
