/-
Flushing the output buffer. Meant is: the packets with a usable route are
sent, in the order of the buffer, and the others stay.

The loop takes out a packet by overwriting it, and all that stand behind it,
with the slot past the end. So from the first packet it sends on, it goes on
as if those behind were copies of that slot (`flushFrom_copies`), and what it
does is what is meant only if they are (`flushExact_iff`).
-/
import Sockets.Odr.Waiting

namespace Sockets.Odr

/-- The packets in the buffer. -/
def NodeState.buffered (st : NodeState) : List Packet :=
  (List.range st.numPacketsBuffered).map st.sendBuffer

/-- The entry for the destination of the packet is not empty and fresh. -/
def Host.sendable (h : Host) (table : Node → RoutingEntry) (now : Int) (packet : Packet) : Bool :=
  (h.getNodeByIp packet.destinationIpAddr).any fun destNode =>
    checkAddressNotEmpty (table destNode).nextHop ∧ (table destNode).timestamp + h.staleTime > now

/-- The packet sent along that entry. -/
def Host.transmission (h : Host) (table : Node → RoutingEntry) (packet : Packet) : Option Action :=
  (h.getNodeByIp packet.destinationIpAddr).bind fun destNode => h.sendAlong (table destNode) packet

/-- The packet in the slot is sendable when the loop comes to it. -/
def NodeState.sendableAt (st : NodeState) (h : Host) (clock : Nat → Int) (i : Nat) : Bool :=
  h.sendable st.table (clock i) (st.sendBuffer i)

/-- The sendable packets are sent, in the order of the buffer, and the others are kept in it. -/
structure FlushExact (h : Host) (clock : Nat → Int) (st st' : NodeState) (sent : List Action) : Prop where
  sent : sent.map some = ((List.range st.numPacketsBuffered).filter (st.sendableAt h clock)).map
    fun i => h.transmission st.table (st.sendBuffer i)
  kept : st'.buffered =
    ((List.range st.numPacketsBuffered).filter fun i => !st.sendableAt h clock i).map st.sendBuffer

/-- The buffer is no longer than its array, its packets are for known hosts, and the routes of
those it would send lead out of interfaces of the node. -/
structure BufferKnown (h : Host) (clock : Nat → Int) (st : NodeState) : Prop where
  le : st.numPacketsBuffered ≤ bufferSize
  dest : ∀ i < st.numPacketsBuffered, (h.getNodeByIp (st.sendBuffer i).destinationIpAddr).isSome
  sends : ∀ i < st.numPacketsBuffered, st.sendableAt h clock i →
    (h.transmission st.table (st.sendBuffer i)).isSome

/-- The buffer is not full, and all packets behind the slot are what is in the slot past the end. -/
def NodeState.CopiesBehind (st : NodeState) (k : Nat) : Prop :=
  st.numPacketsBuffered < bufferSize ∧
    ∀ j < st.numPacketsBuffered, k < j → st.sendBuffer j = st.sendBuffer st.numPacketsBuffered

variable {h : Host} {clock : Nat → Int} {st st' : NodeState} {sent : List Action}

/-! ## One turn of the loop -/

theorem sendable_eq_true {table : Node → RoutingEntry} {now : Int} {packet : Packet} {dest : Node}
    (hdest : h.getNodeByIp packet.destinationIpAddr = some dest) : h.sendable table now packet = true ↔
      checkAddressNotEmpty (table dest).nextHop = true ∧ (table dest).timestamp + h.staleTime > now := by
  simp [Host.sendable, hdest]

/-- Different packets are sent as different actions. -/
theorem transmission_inj {table : Node → RoutingEntry} {p q : Packet}
    (hp : (h.transmission table p).isSome) (heq : h.transmission table p = h.transmission table q) :
    p = q := by
  obtain ⟨action, haction⟩ := Option.isSome_iff_exists.mp hp
  obtain ⟨_, -, hsendp⟩ := Option.bind_eq_some_iff.mp haction
  obtain ⟨_, -, hsendq⟩ := Option.bind_eq_some_iff.mp (heq.symm.trans haction)
  obtain ⟨_, -, rfl⟩ := sendAlong_eq_some hsendp
  obtain ⟨_, -, hsame⟩ := sendAlong_eq_some hsendq
  simp only [Action.send.injEq] at hsame
  exact hsame.2.2.2

/-- A packet that is not sendable stays. -/
theorem flushFrom_stays {todo i : Nat} {dest : Node} (hi : i < bufferSize)
    (hdest : h.getNodeByIp (st.sendBuffer i).destinationIpAddr = some dest)
    (hs : st.sendableAt h clock i = false) :
    flushFrom h clock (todo + 1) i st = flushFrom h clock todo (i + 1) st := by
  have hroute := mt (sendable_eq_true hdest).mpr (ne_true_of_eq_false hs)
  simp [flushFrom, readSlot, hi, hdest, hroute]

/-- A packet that is sendable is sent and taken out. -/
theorem flushFrom_sends {todo i : Nat} {action : Action} (hi : i < bufferSize)
    (haction : h.transmission st.table (st.sendBuffer i) = some action)
    (hs : st.sendableAt h clock i = true) : flushFrom h clock (todo + 1) i st =
      ({ st with sendBuffer := Function.update st.sendBuffer i (st.sendBuffer i).htonl }.removeFromBuffer
        i).bind fun st₁ => (flushFrom h clock todo (i + 1) st₁).bind fun r =>
          some (r.1, action :: r.2) := by
  obtain ⟨dest, hdest, hsend⟩ := Option.bind_eq_some_iff.mp haction
  have hroute := (sendable_eq_true hdest).mp hs
  simp only [flushFrom, readSlot, if_pos hi, Option.bind_eq_bind, Option.bind_some, hdest, if_pos hroute,
    hsend]

/-- A turn that has an outcome found the destination, and sent what was to be sent. -/
theorem flushFrom_known {todo i : Nat} (hf : flushFrom h clock (todo + 1) i st = some (st', sent)) :
    i < bufferSize ∧ (h.getNodeByIp (st.sendBuffer i).destinationIpAddr).isSome ∧
      (st.sendableAt h clock i = true → (h.transmission st.table (st.sendBuffer i)).isSome) := by
  simp only [flushFrom, Option.bind_eq_bind, Option.bind_eq_some_iff] at hf
  obtain ⟨packet, hslot, dest, hdest, hf⟩ := hf
  simp only [readSlot, Option.ite_none_right_eq_some, Option.some.injEq] at hslot
  obtain ⟨hi, rfl⟩ := hslot
  refine ⟨hi, by simp [hdest], ?_⟩
  intro hs
  rw [if_pos ((sendable_eq_true hdest).mp hs)] at hf
  obtain ⟨action, hsend, -⟩ := Option.bind_eq_some_iff.mp hf
  simp [Host.transmission, hdest, hsend]

/-- The packets before the first sendable one stay. -/
theorem flushFrom_skip {m todo : Nat} (hm : m ≤ bufferSize)
    (hdest : ∀ i < m, (h.getNodeByIp (st.sendBuffer i).destinationIpAddr).isSome)
    (hs : ∀ i < m, st.sendableAt h clock i = false) :
    flushFrom h clock (m + todo) 0 st = flushFrom h clock todo m st := by
  induction m generalizing todo with
  | zero => rw [Nat.zero_add]
  | succ m ih =>
    have hlast : flushFrom h clock (m + (todo + 1)) 0 st = flushFrom h clock (todo + 1) m st :=
      ih (by omega) (fun i hi => hdest i (by omega)) fun i hi => hs i (by omega)
    obtain ⟨dest, hd⟩ := Option.isSome_iff_exists.mp (hdest m (by omega))
    rw [Nat.succ_add, ← Nat.add_succ, hlast]
    exact flushFrom_stays hm hd (hs m (by omega))

/-- The shift reads no slot past the array. -/
theorem removeLoop_isSome (removeIndex : Nat) (buffer : Nat → Packet) {count : Nat}
    (hc : count < bufferSize) : (removeLoop removeIndex count buffer).isSome := by
  induction count generalizing buffer with
  | zero => rfl
  | succ count ih =>
    simp only [removeLoop]
    split
    · simp only [readSlot, if_pos hc, Option.bind_eq_bind, Option.bind_some]
      exact ih _ (by omega)
    · rfl

/-- What taking out the packet of slot `i` does. -/
structure TakenOut (i : Nat) (st st' : NodeState) : Prop where
  table : st'.table = st.table
  count : st'.numPacketsBuffered = st.numPacketsBuffered - 1
  before : ∀ j < i, st'.sendBuffer j = st.sendBuffer j
  inside : ∀ j, i ≤ j → j < st.numPacketsBuffered →
    st'.sendBuffer j = st.sendBuffer st.numPacketsBuffered
  behind : ∀ j, i < j → st.numPacketsBuffered ≤ j → st'.sendBuffer j = st.sendBuffer j

theorem takenOut_of_remove {i : Nat} {packet : Packet}
    (hr : { st with sendBuffer := Function.update st.sendBuffer i packet }.removeFromBuffer i = some st') :
    TakenOut i st st' := by
  simp only [NodeState.removeFromBuffer, Option.bind_eq_bind, Option.bind_eq_some_iff,
    Option.some.injEq] at hr
  obtain ⟨buffer, hloop, rfl⟩ := hr
  have hslot := removeLoop_spec hloop
  refine { table := rfl, count := rfl, before := ?_, inside := ?_, behind := ?_ }
  · intro j hj
    dsimp only
    rw [hslot, if_neg (by omega), Function.update_of_ne (by omega)]
  · intro j hij hj
    dsimp only
    rw [hslot, if_pos ⟨hij, hj⟩, Function.update_of_ne (by omega)]
  · intro j hij hj
    dsimp only
    rw [hslot, if_neg (by omega), Function.update_of_ne (by omega)]

theorem remove_takenOut {i : Nat} (packet : Packet) (hc : st.numPacketsBuffered < bufferSize) : ∃ st₁,
    { st with sendBuffer := Function.update st.sendBuffer i packet }.removeFromBuffer i = some st₁ ∧
      TakenOut i st st₁ := by
  obtain ⟨buffer, hloop⟩ := Option.isSome_iff_exists.mp
    (removeLoop_isSome i (Function.update st.sendBuffer i packet) hc)
  have hr : { st with sendBuffer := Function.update st.sendBuffer i packet }.removeFromBuffer i =
      some { st with sendBuffer := buffer, numPacketsBuffered := st.numPacketsBuffered - 1 } := by
    simp [NodeState.removeFromBuffer, hloop]
  exact ⟨_, hr, takenOut_of_remove hr⟩

/-- Taking out reads the slot past the end. -/
theorem lt_of_remove {i : Nat} {buffer : Nat → Packet} (hi : i < st.numPacketsBuffered)
    (hr : { st with sendBuffer := buffer }.removeFromBuffer i = some st') :
    st.numPacketsBuffered < bufferSize := by
  simp only [NodeState.removeFromBuffer, Option.bind_eq_bind, Option.bind_eq_some_iff] at hr
  obtain ⟨_, hloop, -⟩ := hr
  obtain ⟨n, hn⟩ := Nat.exists_eq_succ_of_ne_zero (Nat.ne_zero_of_lt hi)
  rw [hn, removeLoop, if_pos (by omega), Option.bind_eq_bind, Option.bind_eq_some_iff] at hloop
  obtain ⟨packet, hslot, -⟩ := hloop
  simp only [readSlot, Option.ite_none_right_eq_some] at hslot
  rw [hn]
  exact hslot.1

/-! ## Behind the first packet that is sent -/

/-- The `todo` slots from `i` on hold one packet, and the buffer ends in them. -/
structure CopiesFrom (i todo : Nat) (packet : Packet) (st : NodeState) : Prop where
  slots : ∀ j, i ≤ j → j < i + todo → st.sendBuffer j = packet
  count : st.numPacketsBuffered < i + todo
  todo_le : todo ≤ st.numPacketsBuffered
  le : i + todo ≤ bufferSize

/-- The loop sends the packet once for each turn that finds it sendable. -/
structure CopiesFlushed (h : Host) (clock : Nat → Int) (i todo : Nat) (packet : Packet)
    (st st' : NodeState) (sent : List Action) : Prop where
  count : st'.numPacketsBuffered + sent.length = st.numPacketsBuffered
  sent : sent.map some = ((List.range' i todo).filter fun j => h.sendable st.table (clock j) packet).map
    fun _ => h.transmission st.table packet
  before : ∀ j < i, st'.sendBuffer j = st.sendBuffer j
  inside : ∀ j, i ≤ j → j < st'.numPacketsBuffered → st'.sendBuffer j = packet

theorem CopiesFrom.stays {i todo : Nat} {packet : Packet} (hc : CopiesFrom i (todo + 1) packet st) :
    CopiesFrom (i + 1) todo packet st where
  slots j hij hj := hc.slots j (by omega) (by omega)
  count := by
    have hcount := hc.count
    omega
  todo_le := Nat.le_of_succ_le hc.todo_le
  le := by
    have hle := hc.le
    omega

theorem CopiesFrom.takenOut {i todo : Nat} {packet : Packet} {st₁ : NodeState}
    (hc : CopiesFrom i (todo + 1) packet st) (ht : TakenOut i st st₁) :
    CopiesFrom (i + 1) todo packet st₁ where
  slots j hij hj := by
    by_cases hin : j < st.numPacketsBuffered
    · have hcount := hc.count
      rw [ht.inside j (by omega) hin]
      exact hc.slots _ (by omega) hcount
    · rw [ht.behind j hij (by omega)]
      exact hc.slots j (by omega) (by omega)
  count := by
    have hcount := hc.count
    rw [ht.count]
    omega
  todo_le := by
    rw [ht.count]
    exact Nat.le_sub_one_of_lt hc.todo_le
  le := by
    have hle := hc.le
    omega

theorem flushFrom_copies {i todo : Nat} {packet : Packet} (hc : CopiesFrom i todo packet st)
    (hf : flushFrom h clock todo i st = some (st', sent)) :
    CopiesFlushed h clock i todo packet st st' sent := by
  induction todo generalizing i st sent with
  | zero =>
    simp only [flushFrom, Option.some.injEq, Prod.mk.injEq] at hf
    obtain ⟨rfl, rfl⟩ := hf
    have hcount := hc.count
    exact { count := rfl, sent := rfl, before := fun _ _ => rfl, inside := fun j hij hj => by omega }
  | succ todo ih =>
    obtain ⟨hi, hdest, hsends⟩ := flushFrom_known hf
    obtain ⟨dest, hdest⟩ := Option.isSome_iff_exists.mp hdest
    have hslot := hc.slots i (le_refl _) (by omega)
    cases hs : st.sendableAt h clock i with
    | false =>
      rw [flushFrom_stays hi hdest hs] at hf
      have hrest := ih hc.stays hf
      rw [NodeState.sendableAt, hslot] at hs
      refine { count := hrest.count, sent := ?_, before := ?_, inside := ?_ }
      · rw [hrest.sent, List.range'_succ, List.filter_cons_of_neg (by simp [hs])]
      · intro j hj
        exact hrest.before j (by omega)
      · intro j hij hj
        rcases hij.eq_or_lt with rfl | hlt
        · rw [hrest.before i (by omega), hslot]
        · exact hrest.inside j hlt hj
    | true =>
      obtain ⟨action, haction⟩ := Option.isSome_iff_exists.mp (hsends hs)
      rw [flushFrom_sends hi haction hs] at hf
      obtain ⟨st₁, hremove, hf⟩ := Option.bind_eq_some_iff.mp hf
      obtain ⟨⟨st₂, actions⟩, hflush, hf⟩ := Option.bind_eq_some_iff.mp hf
      simp only [Option.some.injEq, Prod.mk.injEq] at hf
      obtain ⟨rfl, rfl⟩ := hf
      have ht := takenOut_of_remove hremove
      have hrest := ih (hc.takenOut ht) hflush
      have hcount := hrest.count
      have hfirst := ht.count
      have hpos := hc.todo_le
      rw [NodeState.sendableAt, hslot] at hs
      rw [hslot] at haction
      refine { count := ?_, sent := ?_, before := ?_, inside := ?_ }
      · rw [List.length_cons]
        omega
      · rw [List.map_cons, hrest.sent, ht.table, List.range'_succ,
          List.filter_cons_of_pos (by simpa using hs), List.map_cons, haction]
      · intro j hj
        rw [hrest.before j (by omega), ht.before j hj]
      · intro j hij hj
        rcases hij.eq_or_lt with rfl | hlt
        · have hlast := hc.count
          rw [hrest.before i (by omega), ht.inside i (le_refl _) (by omega)]
          exact hc.slots _ (by omega) hlast
        · exact hrest.inside j hlt hj

/-- The loop gets through, if the packet can be sent. -/
theorem flushFrom_copies_isSome {i todo : Nat} {packet : Packet} (hc : CopiesFrom i todo packet st)
    (hdest : 0 < todo → (h.getNodeByIp packet.destinationIpAddr).isSome)
    (hsends : ∀ j, i ≤ j → j < i + todo → h.sendable st.table (clock j) packet = true →
      (h.transmission st.table packet).isSome) : (flushFrom h clock todo i st).isSome := by
  induction todo generalizing i st with
  | zero => rfl
  | succ todo ih =>
    have hi := hc.le
    have hcount := hc.count
    have hslot := hc.slots i (le_refl _) (by omega)
    obtain ⟨dest, hd⟩ := Option.isSome_iff_exists.mp (hdest (by omega))
    have hlater : ∀ j, i + 1 ≤ j → j < i + 1 + todo → h.sendable st.table (clock j) packet = true →
        (h.transmission st.table packet).isSome := fun j hij hj => hsends j (by omega) (by omega)
    cases hs : st.sendableAt h clock i with
    | false =>
      rw [flushFrom_stays (by omega) (hslot ▸ hd) hs]
      exact ih hc.stays (fun _ => hdest (by omega)) hlater
    | true =>
      have hnow := hs
      rw [NodeState.sendableAt, hslot] at hnow
      obtain ⟨action, haction⟩ := Option.isSome_iff_exists.mp (hsends i (le_refl _) (by omega) hnow)
      obtain ⟨st₁, hremove, ht⟩ := remove_takenOut (i := i) (st.sendBuffer i).htonl
        (hcount.trans_le hi)
      rw [flushFrom_sends (by omega) (hslot ▸ haction) hs, hremove, Option.bind_some]
      rw [← ht.table] at hlater
      obtain ⟨r, hr⟩ := Option.isSome_iff_exists.mp
        (ih (hc.takenOut ht) (fun _ => hdest (by omega)) hlater)
      rw [hr]
      rfl

/-! ## The whole flush -/

/-- The first sendable packet is sent, and from there on the loop sees copies. -/
theorem flush_first {k todo : Nat} (hknown : BufferKnown h clock st)
    (hn : st.numPacketsBuffered = k + (todo + 1)) (hk : st.sendableAt h clock k = true)
    (hfirst : ∀ i < k, st.sendableAt h clock i = false) : ∃ action,
    h.transmission st.table (st.sendBuffer k) = some action ∧
      sendMessageFromBuffer h clock st =
        ({ st with sendBuffer := Function.update st.sendBuffer k (st.sendBuffer k).htonl }.removeFromBuffer
          k).bind fun st₁ => (flushFrom h clock todo (k + 1) st₁).bind fun r =>
            some (r.1, action :: r.2) := by
  have hle := hknown.le
  obtain ⟨action, haction⟩ := Option.isSome_iff_exists.mp (hknown.sends k (by omega) hk)
  have hskip : sendMessageFromBuffer h clock st = flushFrom h clock (todo + 1) k st := by
    rw [sendMessageFromBuffer, hn]
    exact flushFrom_skip (by omega) (fun i hi => hknown.dest i (by omega)) hfirst
  exact ⟨action, haction, hskip.trans (flushFrom_sends (by omega) haction hk)⟩

theorem TakenOut.copies {k todo : Nat} {st₁ : NodeState} (ht : TakenOut k st st₁)
    (hn : st.numPacketsBuffered = k + (todo + 1)) (hle : st.numPacketsBuffered ≤ bufferSize) :
    CopiesFrom (k + 1) todo (st.sendBuffer st.numPacketsBuffered) st₁ where
  slots j hij hj := ht.inside j (by omega) (by omega)
  count := by
    rw [ht.count]
    omega
  todo_le := by
    rw [ht.count]
    omega
  le := by omega

/-- The indices of the buffer, split at the first that satisfies `p`. -/
theorem filter_range_first {p : Nat → Bool} {k : Nat} (todo : Nat) (hk : p k = true)
    (hfirst : ∀ i < k, p i = false) :
    (List.range (k + (todo + 1))).filter p = k :: (List.range' (k + 1) todo).filter p ∧
      ((List.range (k + (todo + 1))).filter fun i => !p i) =
        List.range k ++ (List.range' (k + 1) todo).filter fun i => !p i := by
  have hsplit : List.range (k + (todo + 1)) = List.range k ++ k :: List.range' (k + 1) todo := by
    rw [List.range_add, ← List.range'_eq_map_range, List.range'_succ]
  have hnone : (List.range k).filter p = [] := by
    rw [List.filter_eq_nil_iff]
    intro i hi
    simp [hfirst i (List.mem_range.mp hi)]
  have hall : ((List.range k).filter fun i => !p i) = List.range k := by
    rw [List.filter_eq_self]
    intro i hi
    simp [hfirst i (List.mem_range.mp hi)]
  constructor
  · rw [hsplit, List.filter_append, hnone, List.filter_cons_of_pos hk, List.nil_append]
  · rw [hsplit, List.filter_append, hall, List.filter_cons_of_neg (by simp [hk])]

section First

variable {k todo : Nat} {action : Action} {st₁ : NodeState} {rest : List Action}

/-- Before the first packet that is sent nothing has changed, and behind it are copies. -/
theorem CopiesFlushed.buffered (hn : st.numPacketsBuffered = k + (todo + 1)) (ht : TakenOut k st st₁)
    (hc : CopiesFlushed h clock (k + 1) todo (st.sendBuffer st.numPacketsBuffered) st₁ st' rest) :
    st'.buffered = (List.range k).map st.sendBuffer ++
      List.replicate (todo - rest.length) (st.sendBuffer st.numPacketsBuffered) := by
  have hcount := hc.count
  rw [ht.count] at hcount
  have hrest : rest.length ≤ todo := by
    have hlength := congrArg List.length hc.sent
    rw [List.length_map, List.length_map] at hlength
    rw [hlength]
    exact (List.length_filter_le _ _).trans List.length_range'.le
  have hnum : st'.numPacketsBuffered = k + (todo - rest.length) := by omega
  rw [NodeState.buffered, hnum, List.range_add, List.map_append, List.map_map]
  congr 1
  · apply List.map_congr_left
    intro j hj
    have hj := List.mem_range.mp hj
    rw [hc.before j (by omega), ht.before j hj]
  · rw [List.eq_replicate_iff, List.length_map, List.length_range, List.forall_mem_map]
    refine ⟨rfl, ?_⟩
    intro j hj
    have hj := List.mem_range.mp hj
    rcases Nat.eq_zero_or_pos j with rfl | hpos
    · exact (hc.before k (by omega)).trans (ht.inside k (le_refl _) (by omega))
    · exact hc.inside (k + j) (by omega) (by omega)

/-- So the flush was exact if what stood behind the first packet was copies. -/
theorem flushExact_copies (hn : st.numPacketsBuffered = k + (todo + 1))
    (hk : st.sendableAt h clock k = true) (hfirst : ∀ i < k, st.sendableAt h clock i = false)
    (hsends : ∀ j < st.numPacketsBuffered, st.sendableAt h clock j →
      (h.transmission st.table (st.sendBuffer j)).isSome)
    (haction : h.transmission st.table (st.sendBuffer k) = some action) (ht : TakenOut k st st₁)
    (hc : CopiesFlushed h clock (k + 1) todo (st.sendBuffer st.numPacketsBuffered) st₁ st' rest) :
    FlushExact h clock st st' (action :: rest) ↔
      ∀ j < st.numPacketsBuffered, k < j → st.sendBuffer j = st.sendBuffer st.numPacketsBuffered := by
  obtain ⟨hsendable, hstay⟩ := filter_range_first todo hk hfirst
  have hbuffered := hc.buffered hn ht
  have hrest := hc.sent
  rw [ht.table] at hrest
  have hmem : ∀ j, j ∈ List.range' (k + 1) todo ↔ k < j ∧ j < st.numPacketsBuffered := by
    intro j
    rw [List.mem_range'_1]
    omega
  constructor
  · intro hexact j hj hkj
    have hjmem := (hmem j).mpr ⟨hkj, hj⟩
    cases hs : st.sendableAt h clock j with
    | true =>
      have hsent := hexact.sent
      rw [hn, hsendable, List.map_cons, List.map_cons, haction, List.cons.injEq, hrest] at hsent
      have htx := List.mem_map_of_mem (f := fun i => h.transmission st.table (st.sendBuffer i))
        (List.mem_filter.mpr ⟨hjmem, hs⟩)
      rw [← hsent.2, List.mem_map] at htx
      obtain ⟨_, -, htx⟩ := htx
      exact transmission_inj (hsends j hj hs) htx.symm
    | false =>
      have hkept := hexact.kept
      rw [hn, hstay, hbuffered, hn, List.map_append, List.append_cancel_left_eq] at hkept
      have hstays : j ∈ (List.range' (k + 1) todo).filter fun i => !st.sendableAt h clock i :=
        List.mem_filter.mpr ⟨hjmem, by simp [hs]⟩
      have hbehind := List.mem_map_of_mem (f := st.sendBuffer) hstays
      rw [← hkept] at hbehind
      exact (List.eq_of_mem_replicate hbehind).trans (by rw [hn])
  · intro hcopies
    have hsame : ∀ j ∈ List.range' (k + 1) todo,
        st.sendBuffer j = st.sendBuffer st.numPacketsBuffered := by
      intro j hj
      exact hcopies j ((hmem j).mp hj).2 ((hmem j).mp hj).1
    have hfilter : ((List.range' (k + 1) todo).filter fun j =>
        h.sendable st.table (clock j) (st.sendBuffer st.numPacketsBuffered)) =
          (List.range' (k + 1) todo).filter (st.sendableAt h clock) := by
      apply List.filter_congr
      intro j hj
      rw [NodeState.sendableAt, hsame j hj]
    rw [hfilter] at hrest
    refine { sent := ?_, kept := ?_ }
    · rw [hn, hsendable, List.map_cons, List.map_cons, haction, hrest, List.cons.injEq]
      refine ⟨rfl, List.map_congr_left ?_⟩
      intro j hj
      rw [hsame j (List.mem_of_mem_filter hj)]
    · have hlength := congrArg List.length hrest
      rw [List.length_map, List.length_map] at hlength
      have hall := List.length_eq_length_filter_add (l := List.range' (k + 1) todo) (st.sendableAt h clock)
      rw [List.length_range'] at hall
      rw [hbuffered, hn, hstay, List.map_append, List.append_cancel_left_eq, eq_comm,
        List.eq_replicate_iff, List.length_map, List.forall_mem_map, ← hn]
      refine ⟨by omega, ?_⟩
      intro j hj
      exact hsame j (List.mem_of_mem_filter hj)

end First

/-- A flush with nothing to send. -/
theorem flushExact_of_none (hknown : BufferKnown h clock st)
    (hnone : ∀ i < st.numPacketsBuffered, st.sendableAt h clock i = false) :
    sendMessageFromBuffer h clock st = some (st, []) ∧ FlushExact h clock st st [] := by
  have hflush : flushFrom h clock (st.numPacketsBuffered + 0) 0 st = some (st, []) :=
    flushFrom_skip hknown.le hknown.dest hnone
  refine ⟨hflush, { sent := ?_, kept := ?_ }⟩
  · have hfilter : (List.range st.numPacketsBuffered).filter (st.sendableAt h clock) = [] := by
      rw [List.filter_eq_nil_iff]
      intro i hi
      simp [hnone i (List.mem_range.mp hi)]
    rw [hfilter]
    rfl
  · have hfilter : ((List.range st.numPacketsBuffered).filter fun i => !st.sendableAt h clock i) =
        List.range st.numPacketsBuffered := by
      rw [List.filter_eq_self]
      intro i hi
      simp [hnone i (List.mem_range.mp hi)]
    rw [hfilter]
    rfl

/-- With something to send, it is exact if behind the first such packet stand copies. -/
theorem flushExact_of_first {k : Nat} (hknown : BufferKnown h clock st) (hk : k < st.numPacketsBuffered)
    (hs : st.sendableAt h clock k = true) (hfirst : ∀ i < k, st.sendableAt h clock i = false) :
    (∃ st' sent, sendMessageFromBuffer h clock st = some (st', sent) ∧ FlushExact h clock st st' sent) ↔
      st.CopiesBehind k := by
  obtain ⟨todo, htodo⟩ := Nat.exists_eq_add_of_lt hk
  have hn : st.numPacketsBuffered = k + (todo + 1) := htodo
  obtain ⟨action, haction, hflush⟩ := flush_first hknown hn hs hfirst
  rw [hflush]
  constructor
  · intro ⟨st', sent, hf, hexact⟩
    obtain ⟨st₁, hremove, hf⟩ := Option.bind_eq_some_iff.mp hf
    obtain ⟨⟨st₂, rest⟩, hrest, hf⟩ := Option.bind_eq_some_iff.mp hf
    simp only [Option.some.injEq, Prod.mk.injEq] at hf
    obtain ⟨rfl, rfl⟩ := hf
    have ht := takenOut_of_remove hremove
    have hcopies := flushFrom_copies (ht.copies hn hknown.le) hrest
    exact ⟨lt_of_remove hk hremove,
      (flushExact_copies hn hs hfirst hknown.sends haction ht hcopies).mp hexact⟩
  · intro ⟨hlt, hsame⟩
    obtain ⟨st₁, hremove, ht⟩ := remove_takenOut (i := k) (st.sendBuffer k).htonl hlt
    have hcopies := ht.copies hn hknown.le
    have hdest : 0 < todo →
        (h.getNodeByIp (st.sendBuffer st.numPacketsBuffered).destinationIpAddr).isSome := by
      intro hpos
      rw [← hsame (k + 1) (by omega) (by omega)]
      exact hknown.dest (k + 1) (by omega)
    have hsends : ∀ j, k + 1 ≤ j → j < k + 1 + todo →
        h.sendable st₁.table (clock j) (st.sendBuffer st.numPacketsBuffered) = true →
          (h.transmission st₁.table (st.sendBuffer st.numPacketsBuffered)).isSome := by
      intro j hkj hj
      rw [← hsame j (by omega) hkj, ht.table]
      exact hknown.sends j (by omega)
    obtain ⟨⟨st', rest⟩, hrest⟩ :=
      Option.isSome_iff_exists.mp (flushFrom_copies_isSome hcopies hdest hsends)
    refine ⟨st', action :: rest, by rw [hremove, Option.bind_some, hrest, Option.bind_some], ?_⟩
    exact (flushExact_copies hn hs hfirst hknown.sends haction ht (flushFrom_copies hcopies hrest)).mpr
      hsame

/-- A flush is what is meant exactly when behind each packet it is to send stand copies of what
is in the slot past the end. -/
theorem flushExact_iff (hknown : BufferKnown h clock st) :
    (∃ st' sent, sendMessageFromBuffer h clock st = some (st', sent) ∧ FlushExact h clock st st' sent) ↔
      ∀ k < st.numPacketsBuffered, st.sendableAt h clock k → st.CopiesBehind k := by
  by_cases hany : ∃ k, k < st.numPacketsBuffered ∧ st.sendableAt h clock k
  · have hfirst : ∀ i < Nat.find hany, st.sendableAt h clock i = false := by
      intro i hi
      have hnot := Nat.find_min hany hi
      have hlt := (Nat.find_spec hany).1
      exact eq_false_of_ne_true fun hs => hnot ⟨by omega, hs⟩
    rw [flushExact_of_first hknown (Nat.find_spec hany).1 (Nat.find_spec hany).2 hfirst]
    constructor
    · intro ⟨hlt, hsame⟩ k hk hs
      have hle := Nat.find_min' hany ⟨hk, hs⟩
      exact ⟨hlt, fun j hj hkj => hsame j hj (by omega)⟩
    · intro hcopies
      exact hcopies _ (Nat.find_spec hany).1 (Nat.find_spec hany).2
  · have hnone : ∀ i < st.numPacketsBuffered, st.sendableAt h clock i = false :=
      fun i hi => eq_false_of_ne_true fun hs => hany ⟨i, hi, hs⟩
    obtain ⟨hflush, hexact⟩ := flushExact_of_none hknown hnone
    constructor
    · intro _ k hk hs
      exact absurd ⟨k, hk, hs⟩ hany
    · intro _
      exact ⟨st, [], hflush, hexact⟩

/-! ## A node that waits for a route to its neighbour -/

/-- Node 1 of the line has a route to node 2, and packets for these nodes in its buffer. -/
def lineBuffer (dests : List Node) : NodeState :=
  { NodeState.start with
    table := fun n =>
      if n = 2 then { nextHop := lineMac 2 1, outInterface := 2, hopsToDest := 1, timestamp := 0 } else {}
    sendBuffer := fun i =>
      match dests[i]? with
      | some dest => createPfPacket 2 (lineIp 1) (i + 1) (lineIp dest) 5678 0 "request time".toList
      | none => {}
    numPacketsBuffered := dests.length }

/-- Behind two packets that wait for a route to node 3 the last one is sent. -/
theorem flushExact_iff_last : ∃ st' sent,
    sendMessageFromBuffer (lineTopology.host 1) (fun _ => 5) (lineBuffer [3, 3, 2]) = some (st', sent) ∧
      FlushExact (lineTopology.host 1) (fun _ => 5) (lineBuffer [3, 3, 2]) st' sent := by
  refine (flushExact_iff ⟨by decide, by decide +kernel, by decide +kernel⟩).mpr ?_
  intro k hk hs
  have hlast : ∀ i < 3, (lineBuffer [3, 3, 2]).sendableAt (lineTopology.host 1) (fun _ => 5) i = true → i = 2 := by
    decide +kernel
  obtain rfl := hlast k hk hs
  refine ⟨by decide, ?_⟩
  intro j hj hkj
  have hj : j < 3 := hj
  omega

/-- Of two packets the second is lost: the slot past the end is blank. -/
theorem not_flushExact : ¬ ∃ st' sent,
    sendMessageFromBuffer (lineTopology.host 1) (fun _ => 5) (lineBuffer [2, 2]) = some (st', sent) ∧
      FlushExact (lineTopology.host 1) (fun _ => 5) (lineBuffer [2, 2]) st' sent := by
  have hknown : BufferKnown (lineTopology.host 1) (fun _ => 5) (lineBuffer [2, 2]) :=
    ⟨by decide, by decide +kernel, by decide +kernel⟩
  have hs : (lineBuffer [2, 2]).sendableAt (lineTopology.host 1) (fun _ => 5) 0 = true := by decide +kernel
  rw [flushExact_of_first hknown (k := 0) (by decide) hs (by simp)]
  intro ⟨_, hsame⟩
  have hblank : (lineBuffer [2, 2]).sendBuffer 1 = (lineBuffer [2, 2]).sendBuffer 2 :=
    hsame 1 (by decide) (by decide)
  exact absurd hblank (by decide +kernel)

end Sockets.Odr
