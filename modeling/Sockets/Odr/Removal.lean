/-
Taking one packet out of the buffer. Meant is that the packets behind it move
up by one slot.

The loop goes from the end of the buffer to the packet and copies each slot
into the one in front of it, so that the slot past the end is copied all the
way down (`TakenOut`). The packets that are left are the right ones if those
behind the packet are what is in that slot, as when there are none
(`removesPacket_iff`).
-/
import Sockets.Odr.Flush

namespace Sockets.Odr

variable {st st' : NodeState} {removeIndex : Nat}

/-- The buffer has the other packets, in their order. -/
structure RemovesPacket (removeIndex : Nat) (st st' : NodeState) : Prop where
  count : st'.numPacketsBuffered = st.numPacketsBuffered - 1
  buffered : st'.buffered = st.buffered.eraseIdx removeIndex

/-- The other packets, slot by slot. -/
theorem buffered_eraseIdx (st : NodeState) (hk : removeIndex < st.numPacketsBuffered) :
    st.buffered.eraseIdx removeIndex = (List.range (st.numPacketsBuffered - 1)).map fun i =>
      if i < removeIndex then st.sendBuffer i else st.sendBuffer (i + 1) := by
  apply List.ext_getElem?
  intro i
  rw [List.getElem?_eraseIdx, NodeState.buffered, List.getElem?_map, List.getElem?_map, List.getElem?_map]
  rcases Nat.lt_or_ge i (st.numPacketsBuffered - 1) with hlt | hge
  · rw [List.getElem?_range hlt, List.getElem?_range (by omega), List.getElem?_range (by omega)]
    simp only [Option.map_some]
    split <;> rfl
  · rw [if_neg (by omega), List.getElem?_eq_none (by rw [List.length_range]; omega),
      List.getElem?_eq_none (by rw [List.length_range]; omega), Option.map_none, Option.map_none]

/-- A slot in front of the packet keeps what it had, and the others have what was past the end. -/
theorem TakenOut.buffered (ht : TakenOut removeIndex st st') :
    st'.buffered = (List.range (st.numPacketsBuffered - 1)).map fun i =>
      if i < removeIndex then st.sendBuffer i else st.sendBuffer st.numPacketsBuffered := by
  rw [NodeState.buffered, ht.count]
  apply List.map_congr_left
  intro i hi
  have hlt := List.mem_range.mp hi
  split
  next hbefore => exact ht.before i hbefore
  next hinside => exact ht.inside i (by omega) (by omega)

/-- **Taking out a packet.** The others are left, in their order, if and only if each packet behind it is
the same as what is in the slot past the end. -/
theorem removesPacket_iff (hk : removeIndex < st.numPacketsBuffered)
    (hn : st.numPacketsBuffered < bufferSize) :
    (∃ st', st.removeFromBuffer removeIndex = some st' ∧ RemovesPacket removeIndex st st') ↔
      ∀ j < st.numPacketsBuffered, removeIndex < j →
        st.sendBuffer j = st.sendBuffer st.numPacketsBuffered := by
  obtain ⟨st', hremove, ht⟩ := remove_takenOut (i := removeIndex) (st.sendBuffer removeIndex) hn
  rw [Function.update_eq_self] at hremove
  have hright : (∃ st', st.removeFromBuffer removeIndex = some st' ∧ RemovesPacket removeIndex st st') ↔
      st'.buffered = st.buffered.eraseIdx removeIndex := by
    constructor
    · intro hexists
      obtain ⟨st₁, hst₁, hremoves⟩ := hexists
      obtain rfl := Option.some.inj (hremove.symm.trans hst₁)
      exact hremoves.buffered
    · intro hbuffered
      exact ⟨st', hremove, ht.count, hbuffered⟩
  rw [hright, ht.buffered, buffered_eraseIdx st hk, List.map_inj_left]
  constructor
  · intro hslots j hj hkj
    have hslot := hslots (j - 1) (List.mem_range.mpr (by omega))
    rw [if_neg (by omega), if_neg (by omega), Nat.sub_add_cancel (by omega)] at hslot
    exact hslot.symm
  · intro hcopies i hi
    have hlt := List.mem_range.mp hi
    split
    next => rfl
    next hinside => exact (hcopies (i + 1) (by omega) (by omega)).symm

/-! ## Two packets -/

/-- Two packets in the buffer, and nothing behind them. -/
def twoPackets : NodeState :=
  { NodeState.start with
    sendBuffer := fun i => if i < 2 then { hopCount := i + 1 } else {}
    numPacketsBuffered := 2 }

/-- The last packet can be taken out. -/
theorem removesPacket_iff_last :
    (∃ st', twoPackets.removeFromBuffer 1 = some st' ∧ RemovesPacket 1 twoPackets st') ↔
      ∀ j < twoPackets.numPacketsBuffered, 1 < j →
        twoPackets.sendBuffer j = twoPackets.sendBuffer twoPackets.numPacketsBuffered :=
  removesPacket_iff (by decide) (by decide)

/-- Taking out the first loses the second. -/
theorem not_removesPacket : ¬ ∃ st', twoPackets.removeFromBuffer 0 = some st' ∧
    RemovesPacket 0 twoPackets st' := by
  intro hexists
  obtain ⟨st', hremove, hremoves⟩ := hexists
  have hleft : (twoPackets.removeFromBuffer 0).map NodeState.buffered = some [{}] := by decide
  rw [hremove, Option.map_some, Option.some.injEq, hremoves.buffered] at hleft
  exact absurd hleft (by decide)

end Sockets.Odr
