/-
The text of an RREQ in the arrays it is kept in: built digit by digit in an
array of thirty characters, copied by `strcpy` into a new packet for each
broadcast, and by `strncpy` into the array of an RREP and into the one the
id is read from. What was in an array before is whatever it was, except
where the code clears it.

Each of these does to the array what the node does to its text
(`buildRreqMsg_holds`, `Reflood.holds`, `rrepText_holds`, and
`onRreq_copies` for the node), and so a receiver reads what was written
(`rreqText_decodes`).
-/
import Sockets.Lib.CString
import Sockets.Odr.Effects

namespace Sockets.Odr

abbrev dataSize : Nat := 1300

/-- The text of a packet. -/
abbrev ApplicationMsg : Type := List.Vector Char dataSize

/-- The array holds this text. -/
def HoldsText {n : Nat} (a : List.Vector Char n) (text : List Char) : Prop := Holds '\x00' a text

/-! ## The arrays of an RREQ -/

/-- The loop that copies the digits of the id, with `todo` rounds left. -/
def copyDigits (stringId : List.Vector Char 40) :
    (todo temp copyTo : Nat) → List.Vector Char 30 → Option (List.Vector Char 30 × Nat)
  | 0, _, copyTo, rreqMsg => some (rreqMsg, copyTo)
  | todo + 1, temp, copyTo, rreqMsg => do
    let c ← load stringId temp
    if c ≠ '\x00' then do
      let rreqMsg ← store rreqMsg copyTo c
      copyDigits stringId todo (temp + 1) (copyTo + 1) rreqMsg
    else some (rreqMsg, copyTo)

/-- `rreq_msg` of a new RREQ. -/
def buildRreqMsg (rreqMsg : List.Vector Char 30) (stringId : List.Vector Char 40) (flagInt : Int)
    (broadcastId : Nat) : Option (List.Vector Char 30) := do
  let rreqMsg ← store rreqMsg 0 '0'
  let rreqMsg ← store rreqMsg 1 (Char.ofNat ((flagInt + 48) % 256).toNat)
  let stringId ← putString '\x00' stringId (Nat.toDigits 10 broadcastId)
  let (rreqMsg, copyTo) ← copyDigits stringId 30 0 2 rreqMsg
  store rreqMsg copyTo '\x00'

/-- A broadcast of a received RREQ, as it is or with the flag set: the text is copied into a new packet. -/
inductive Reflood
  | flood (memory : ApplicationMsg)
  | floodReplied (memory : ApplicationMsg)

def Reflood.copy : Reflood → ApplicationMsg → Option ApplicationMsg
  | .flood memory, msg => strcpy '\x00' memory msg
  | .floodReplied memory, msg => do
    let msg ← store msg 0 '1'
    strcpy '\x00' memory msg

/-- The text of an RREQ that was broadcast, and then broadcast again by one node after another. -/
def travel (rreqMsg : List.Vector Char 30) (memory : ApplicationMsg) (again : List Reflood) :
    Option ApplicationMsg := do
  let msg ← strcpy '\x00' memory rreqMsg
  again.foldlM (fun msg reflood => reflood.copy msg) msg

/-- A flag as the code reads it. -/
def readFlag (msg : ApplicationMsg) (i : Nat) : Option Int := (load msg i).map fun c => (c.toNat : Int) - 48

/-- The node that answers an RREQ. -/
inductive Answerer
  | intermediate
  | destination

/-- The text of the RREP a node answers with. -/
def rrepText (answerer : Answerer) (memory msg : ApplicationMsg) : Option ApplicationMsg := do
  let rrepMsg ← strncpy '\x00' (List.Vector.replicate 30 '\x00') msg 30
  let outMsg ← strcpy '\x00' memory rrepMsg
  match answerer with
  | .intermediate => some outMsg
  | .destination => do
    let forcedDiscovery ← readFlag msg 1
    if forcedDiscovery = 1 then store outMsg 1 '1' else some outMsg

/-- The id in a text, by way of `received_bid`, which holds something before. -/
def readBid (receivedBid : List.Vector Char 2000) (msg : ApplicationMsg) : Option Nat := do
  let receivedBid ← strncpy '\x00' receivedBid msg 30
  let receivedBid ← store receivedBid 0 '0'
  let receivedBid ← store receivedBid 1 '0'
  some (atoi receivedBid.toList)

/-- What a receiver of an RREQ reads. -/
structure RreqFields where
  rrepAlreadySent : Int
  forcedDiscovery : Int
  id : Nat
deriving DecidableEq

def decodeRreq (stack : List.Vector Char 2000) (msg : ApplicationMsg) : Option RreqFields := do
  let rrepAlreadySent ← readFlag msg 0
  let forcedDiscovery ← readFlag msg 1
  let id ← readBid stack msg
  some { rrepAlreadySent, forcedDiscovery, id }

/-- What a receiver of an RREP reads. -/
structure RrepFields where
  forcedDiscovery : Int
  id : Nat
deriving DecidableEq

def decodeRrep (msg : ApplicationMsg) : Option RrepFields := do
  let forcedDiscovery ← readFlag msg 1
  let id ← readBid (List.Vector.replicate 2000 '\x00') msg
  some { forcedDiscovery, id }

/-! ## What is built -/

/-- The rounds that copy these digits, from `front` and what is copied of the id on. -/
theorem copyDigits_eq {stringId : List.Vector Char 40} {digits : List Char} :
    ∀ {copied front cells : List Char} {a : List.Vector Char 30} {todo : Nat},
      HoldsText stringId (copied ++ digits) → a.toList = front ++ cells → digits.length ≤ cells.length →
      digits.length < todo → ∃ a', copyDigits stringId todo copied.length front.length a =
        some (a', front.length + digits.length) ∧ a'.toList = front ++ digits ++ cells.drop digits.length := by
  induction digits with
  | nil =>
    intro copied front cells a todo hid ha hcells htodo
    obtain ⟨todo, rfl⟩ : ∃ k, todo = k + 1 := ⟨todo - 1, by rw [List.length_nil] at htodo; omega⟩
    have hend : load stringId copied.length = some '\x00' := by
      rw [Holds.load hid (by simp), List.append_nil, List.getD_eq_getElem?_getD,
        List.getElem?_eq_none le_rfl, Option.getD_none]
    refine ⟨a, ?_, by simpa using ha⟩
    simp only [copyDigits, hend, Option.bind_eq_bind, Option.bind_some, ne_eq, not_true_eq_false, if_false,
      List.length_nil, Nat.add_zero]
  | cons d digits ih =>
    intro copied front cells a todo hid ha hcells htodo
    rw [List.length_cons] at hcells htodo
    obtain ⟨todo, rfl⟩ : ∃ k, todo = k + 1 := ⟨todo - 1, by omega⟩
    cases cells with
    | nil => simp at hcells
    | cons cell cells =>
      rw [List.length_cons] at hcells
      have hd : load stringId copied.length = some d := by
        rw [Holds.load hid (by simp), List.getD_eq_getElem?_getD,
          List.getElem?_append_right le_rfl, Nat.sub_self, List.getElem?_cons_zero, Option.getD_some]
      have hne : d ≠ '\x00' := fun he => hid.1 (by simp [he])
      have hroom : front.length < 30 := by
        have hlen := congrArg List.length ha
        rw [a.toList_length, List.length_append, List.length_cons] at hlen
        omega
      have hnext : HoldsText stringId ((copied ++ [d]) ++ digits) := by simpa using hid
      have hset : a.toList.set front.length d = (front ++ [d]) ++ cells := by
        rw [ha, List.set_append_right _ _ le_rfl, Nat.sub_self, List.set_cons_zero, List.append_assoc,
          List.singleton_append]
      obtain ⟨a', hcopy, ha'⟩ := ih (a := ⟨_, length_stored a front.length d⟩) hnext hset (by omega)
        (by omega : digits.length < todo)
      have hstep : copyDigits stringId (todo + 1) copied.length front.length a =
          copyDigits stringId todo (copied.length + 1) (front.length + 1)
            ⟨_, length_stored a front.length d⟩ := by
        simp only [copyDigits, hd, Option.bind_eq_bind, Option.bind_some, if_pos hne, store, if_pos hroom]
        rfl
      rw [List.length_append, List.length_singleton, List.length_append, List.length_singleton] at hcopy
      refine ⟨a', ?_, by simpa using ha'⟩
      rw [hstep, hcopy, List.length_cons, Nat.add_right_comm, Nat.add_assoc]

/-- Behind the two flags there is room for the digits of an id and for what ends the text. -/
theorem copyDigits_ends {stringId : List.Vector Char 40} {digits : List Char}
    (hid : HoldsText stringId digits) (hlen : digits.length ≤ 10) {a : List.Vector Char 30} {x y : Char}
    {cells : List Char} (ha : a.toList = x :: y :: cells) : ∃ a' ended,
      copyDigits stringId 30 0 2 a = some (a', 2 + digits.length) ∧
      store a' (2 + digits.length) '\x00' = some ended ∧
      ∃ rest, ended.toList = x :: y :: digits ++ '\x00' :: rest := by
  have hcells : cells.length = 28 := by
    have hsize := congrArg List.length ha
    rw [a.toList_length, List.length_cons, List.length_cons] at hsize
    omega
  obtain ⟨a', hcopy, ha'⟩ := @copyDigits_eq stringId digits [] [x, y] cells a 30 hid ha (by omega) (by omega)
  refine ⟨a', _, hcopy, if_pos (by omega), (cells.drop digits.length).tail, ?_⟩
  obtain ⟨cell, rest, hrest⟩ := List.exists_cons_of_ne_nil
    (List.ne_nil_of_length_pos (l := cells.drop digits.length) (by rw [List.length_drop]; omega))
  rw [List.Vector.toList_mk, ha', hrest, List.tail_cons, List.set_append_right _ _ (by simp; omega)]
  have hlast : 2 + digits.length - ([x, y] ++ digits).length = 0 := by simp; omega
  rw [hlast, List.set_cons_zero]
  rfl

/-- The array is large enough, and holds the text of the RREQ. -/
theorem buildRreqMsg_holds (array : List.Vector Char 30) (stringId : List.Vector Char 40) {flagInt : Int}
    (hflag : Char.ofNat ((flagInt + 48) % 256).toNat ≠ '\x00') {broadcastId : Nat} (h : broadcastId < 2 ^ 31) :
    ∃ a, buildRreqMsg array stringId flagInt broadcastId = some a ∧
      HoldsText a (rreqMsg flagInt broadcastId) := by
  have hlen := length_toDigits_id h
  have hdigits : '\x00' ∉ Nat.toDigits 10 broadcastId := notMem_toDigits (by decide) _
  obtain ⟨id, hput, hid⟩ := putString_holds stringId hdigits (by omega)
  rw [rreqMsg_eq _ _ hflag]
  match array with
  | ⟨x :: y :: cells, hsize⟩ =>
    obtain ⟨a', ended, hcopy, hend, rest, hended⟩ := copyDigits_ends hid hlen
      (a := ⟨'0' :: Char.ofNat ((flagInt + 48) % 256).toNat :: cells, hsize⟩) rfl
    refine ⟨ended, ?_, ?_, rest, hended⟩
    · simp only [buildRreqMsg, hput, Option.bind_eq_bind, Option.bind_some]
      show (copyDigits id 30 0 2 ⟨'0' :: Char.ofNat ((flagInt + 48) % 256).toNat :: cells, hsize⟩).bind _ = _
      rw [hcopy]
      exact hend
    · simp [hdigits, hflag.symm]

/-! ## What the copies do to the text -/

/-- The text a node broadcasts again. -/
def Reflood.text : Reflood → List Char → List Char
  | .flood _, text => text
  | .floodReplied _, text => text.set 0 '1'

/-- The text of its RREP. -/
def Answerer.text : Answerer → List Char → List Char
  | .intermediate, text => text.take 30
  | .destination, text => if forcedDiscovery text = 1 then (text.take 30).set 1 '1' else text.take 30

/-- What goes out carries a copy of the text. -/
def CopyOf (text : List Char) : Action → Prop
  | .broadcast packet => ∃ reflood : Reflood, packet.applicationMsg = reflood.text text
  | .send _ _ _ packet => ∃ answerer : Answerer, packet.applicationMsg = answerer.text text
  | _ => False

section

variable {h : Host} {st st' : NodeState} {inc : Incoming} {clock : Nat → Int} {actions : List Action}

theorem broadcast_copies {packet : Packet} {action : Action} (r : Reflood)
    (hs : h.broadcast packet = some action)
    (htext : packet.applicationMsg = r.text inc.packet.applicationMsg) :
    ∀ a ∈ [action], CopyOf inc.packet.applicationMsg a := by
  intro a ha
  rw [List.mem_singleton.mp ha, broadcast_eq_some hs]
  exact ⟨r, htext⟩

theorem flood_copies (hs : flood h inc = some actions) :
    ∀ action ∈ actions, CopyOf inc.packet.applicationMsg action := by
  simp only [flood, Option.bind_eq_bind, Option.bind_eq_some_iff, Option.some.injEq] at hs
  obtain ⟨action, hb, rfl⟩ := hs
  exact broadcast_copies (.flood (List.Vector.replicate dataSize '\x00')) hb rfl

theorem reply_copies {seenSource : Bool} {originalHops : Int} {rrep : Action} (answerer : Answerer)
    (hrrep : replyTo h st inc (answerer.text inc.packet.applicationMsg) = some rrep)
    (hs : floodReplied h inc seenSource originalHops = some actions) :
    ∀ action ∈ rrep :: actions, CopyOf inc.packet.applicationMsg action := by
  rw [List.forall_mem_cons]
  constructor
  · obtain ⟨srcMac, -, rfl⟩ := sendAlong_eq_some hrrep
    exact ⟨answerer, rfl⟩
  · unfold floodReplied at hs
    split at hs
    next =>
      simp only [Option.bind_eq_bind, Option.bind_eq_some_iff, Option.some.injEq] at hs
      obtain ⟨action, hb, rfl⟩ := hs
      exact broadcast_copies (.floodReplied (List.Vector.replicate dataSize '\x00')) hb rfl
    next =>
      rw [← Option.some.inj hs]
      exact List.forall_mem_nil _

theorem nothing_copies {st₁ : NodeState} (hs : some (st₁, ([] : List Action)) = some (st', actions)) :
    ∀ action ∈ actions, CopyOf inc.packet.applicationMsg action := by
  obtain ⟨-, rfl⟩ := Prod.mk.inj (Option.some.inj hs)
  exact List.forall_mem_nil _

theorem rreqIntermediate_copies {seenSource : Bool} {originalHops : Int}
    (hs : rreqIntermediate h st inc seenSource originalHops clock = some (st', actions)) :
    ∀ action ∈ actions, CopyOf inc.packet.applicationMsg action := by
  simp only [rreqIntermediate, Option.bind_eq_bind] at hs
  split at hs
  · obtain ⟨again, hagain, he⟩ := Option.bind_eq_some_iff.mp hs
    obtain ⟨-, rfl⟩ := Prod.mk.inj (Option.some.inj he)
    exact flood_copies hagain
  split at hs
  · split at hs
    · split at hs
      · simp only [Option.bind_eq_some_iff, Option.some.injEq, Prod.mk.injEq] at hs
        obtain ⟨rrep, hrrep, again, hagain, -, rfl⟩ := hs
        exact reply_copies .intermediate hrrep hagain
      · exact nothing_copies hs
    split at hs
    · obtain ⟨again, hagain, he⟩ := Option.bind_eq_some_iff.mp hs
      obtain ⟨-, rfl⟩ := Prod.mk.inj (Option.some.inj he)
      exact flood_copies hagain
    · exact nothing_copies hs
  · exact nothing_copies hs

theorem rreqDestination_copies {seenSource : Bool} {originalHops : Int}
    (hs : rreqDestination h st inc seenSource originalHops = some (st', actions)) :
    ∀ action ∈ actions, CopyOf inc.packet.applicationMsg action := by
  simp only [rreqDestination] at hs
  split at hs
  · simp only [Option.bind_eq_bind, Option.bind_eq_some_iff, Option.some.injEq, Prod.mk.injEq] at hs
    obtain ⟨rrep, hrrep, again, hagain, -, rfl⟩ := hs
    exact reply_copies .destination hrrep hagain
  · exact nothing_copies hs

/-- All that a node puts out for an RREQ carries a copy of its text. -/
theorem onRreq_copies (hs : onRreq h st inc clock = some (st', actions)) :
    ∀ action ∈ actions, CopyOf inc.packet.applicationMsg action := by
  simp only [onRreq] at hs
  split at hs
  · exact nothing_copies hs
  split at hs
  · split at hs
    · exact rreqIntermediate_copies hs
    · exact rreqDestination_copies hs
  · exact nothing_copies hs

end

/-- A text of two flags and more, which ends inside thirty characters. -/
structure ShortText (text : List Char) : Prop where
  two_le : 2 ≤ text.length
  lt : text.length < 30

section

variable {msg : ApplicationMsg} {text : List Char}

theorem Reflood.holds (r : Reflood) (h : HoldsText msg text) (hshort : ShortText text) :
    ∃ msg', r.copy msg = some msg' ∧ HoldsText msg' (r.text text) ∧ ShortText (r.text text) := by
  have hroom : text.length < dataSize := hshort.lt.trans (by decide)
  cases r with
  | flood memory =>
    obtain ⟨msg', hcopy, hheld⟩ := Holds.strcpy h memory hroom
    exact ⟨msg', hcopy, hheld, hshort⟩
  | floodReplied memory =>
    have htwo := hshort.two_le
    obtain ⟨flagged, hstore, hflagged⟩ := Holds.store h (i := 0) (by omega) (by decide : '1' ≠ '\x00')
    obtain ⟨msg', hcopy, hheld⟩ := Holds.strcpy hflagged memory (by rwa [List.length_set])
    refine ⟨msg', ?_, hheld, ?_⟩
    · rw [Reflood.copy, hstore]
      exact hcopy
    · rw [Reflood.text]
      exact ⟨by rwa [List.length_set], by rw [List.length_set]; exact hshort.lt⟩

theorem readFlag_eq (h : HoldsText msg text) {i : Nat} (hi : i ≤ text.length) :
    readFlag msg i = some (flagAt text i) := by
  rw [readFlag, Holds.load h hi]
  rfl

theorem rrepText_holds (answerer : Answerer) (memory : ApplicationMsg) (h : HoldsText msg text)
    (hshort : ShortText text) :
    ∃ rrepMsg, rrepText answerer memory msg = some rrepMsg ∧ HoldsText rrepMsg (answerer.text text) := by
  have htwo := hshort.two_le
  have hlt := hshort.lt
  have htake : text.take 30 = text := List.take_of_length_le (by omega)
  obtain ⟨rrepMsg, hcopy, hrrep⟩ := Holds.strncpy h (List.Vector.replicate 30 '\x00') hlt le_rfl
  obtain ⟨outMsg, hout, hheld⟩ := Holds.strcpy hrrep memory (hlt.trans (by decide))
  cases answerer with
  | intermediate =>
    refine ⟨outMsg, ?_, by rwa [Answerer.text, htake]⟩
    simp only [rrepText, hcopy, hout, Option.bind_eq_bind, Option.bind_some]
  | destination =>
    have hread : readFlag msg 1 = some (forcedDiscovery text) := readFlag_eq h (by omega)
    simp only [rrepText, hcopy, hout, hread, Option.bind_eq_bind, Option.bind_some, Answerer.text, htake]
    split
    next => exact Holds.store hheld (by omega) (by decide)
    next => exact ⟨outMsg, rfl, hheld⟩

/-- What the destination writes is there already. -/
theorem Answerer.text_eq (answerer : Answerer) (hshort : ShortText text) : answerer.text text = text := by
  have htwo := hshort.two_le
  have htake : text.take 30 = text := List.take_of_length_le hshort.lt.le
  cases answerer with
  | intermediate => exact htake
  | destination =>
    rw [Answerer.text, htake]
    split
    next hforced =>
      match text with
      | a :: c :: rest =>
        have hc : ((c.toNat : Nat) : Int) - 48 = 1 := hforced
        have hone : c = '1' := Char.toNat_inj.mp (by rw [show ('1' : Char).toNat = 49 from rfl]; omega)
        rw [hone]
        rfl
    next => rfl

/-- What ends the text is not a digit. -/
theorem atoi_append_nul (s rest : List Char) : atoi (s ++ '\x00' :: rest) = atoi s := by
  rw [atoi, takeWhile_append_cons_neg s rest (by decide), atoi]

theorem readBid_eq (stack : List.Vector Char 2000) (h : HoldsText msg text) (hshort : ShortText text) :
    readBid stack msg = some (receivedBid text) := by
  have htwo := hshort.two_le
  have hlt := hshort.lt
  obtain ⟨bid, hcopy, hbid⟩ := Holds.strncpy h stack hlt (by omega)
  obtain ⟨first, hfirst, hheld⟩ := Holds.store hbid (i := 0) (c := '0') (by omega) (by decide)
  obtain ⟨second, hsecond, -, rest, htext⟩ := Holds.store hheld (i := 1) (c := '0')
    (by rw [List.length_set]; omega) (by decide)
  simp only [readBid, hcopy, hfirst, hsecond, Option.bind_eq_bind, Option.bind_some, Option.some.injEq]
  match text with
  | a :: c :: digits =>
    rw [htext, atoi_append_nul, receivedBid, List.take_of_length_le (by omega)]
    rfl

/-- What a node broadcasts again it may have got from one that did. -/
theorem refloods_hold (again : List Reflood) (h : HoldsText msg text) (hshort : ShortText text) :
    ∃ msg', again.foldlM (fun msg reflood => reflood.copy msg) msg = some msg' ∧
      HoldsText msg' (again.foldl (fun text reflood => reflood.text text) text) ∧
      ShortText (again.foldl (fun text reflood => reflood.text text) text) := by
  induction again generalizing msg text with
  | nil => exact ⟨msg, rfl, h, hshort⟩
  | cons r again ih =>
    obtain ⟨next, hcopy, hnext, hshortNext⟩ := r.holds h hshort
    obtain ⟨msg', hrest, hheld⟩ := ih hnext hshortNext
    refine ⟨msg', ?_, hheld⟩
    rw [List.foldlM_cons, hcopy]
    exact hrest

theorem travel_holds {rreqMsg : List.Vector Char 30} (memory : ApplicationMsg) (again : List Reflood)
    (h : HoldsText rreqMsg text) (hshort : ShortText text) : ∃ msg, travel rreqMsg memory again = some msg ∧
      HoldsText msg (again.foldl (fun text reflood => reflood.text text) text) ∧
      ShortText (again.foldl (fun text reflood => reflood.text text) text) := by
  obtain ⟨first, hcopy, hfirst⟩ := Holds.strcpy h memory (hshort.lt.trans (by decide))
  rw [travel, hcopy]
  exact refloods_hold again hfirst hshort

end

/-! ## What a receiver reads -/

/-- The flag a node leaves behind in the text. -/
def Reflood.writes : Reflood → Int → Int
  | .flood _, flag => flag
  | .floodReplied _, _ => 1

/-- The flag that was written last. -/
def lastWritten (again : List Reflood) : Int :=
  again.foldl (fun flag reflood => reflood.writes flag) 0

/-- Only the first character changes on the way. -/
theorem refloods_text (again : List Reflood) (c : Char) (rest : List Char) : ∃ c' : Char,
    again.foldl (fun text reflood => reflood.text text) (c :: rest) = c' :: rest ∧
      (c'.toNat : Int) - 48 =
        again.foldl (fun flag reflood => reflood.writes flag) ((c.toNat : Int) - 48) := by
  induction again generalizing c with
  | nil => exact ⟨c, rfl, rfl⟩
  | cons r again ih =>
    cases r with
    | flood memory => exact ih c
    | floodReplied memory => exact ih '1'

/-- **The text of an RREQ.** Whatever the arrays held, the text of an RREQ fits the one it is built in;
after any number of broadcasts a receiver reads the flags and the id back, from the RREQ and from the
RREP that it is answered with. -/
theorem rreqText_decodes {flagInt : Int} (hflag : flagInt = 0 ∨ flagInt = 1) {broadcastId : Nat}
    (hid : broadcastId < 2 ^ 31) (array : List.Vector Char 30) (stringId : List.Vector Char 40)
    (memory : ApplicationMsg) (again : List Reflood) : ∃ rreqMsg msg,
    buildRreqMsg array stringId flagInt broadcastId = some rreqMsg ∧ travel rreqMsg memory again = some msg ∧
      (∀ stack, decodeRreq stack msg = some
        { rrepAlreadySent := lastWritten again, forcedDiscovery := flagInt, id := broadcastId }) ∧
      ∀ answerer memory', ∃ rrepMsg, rrepText answerer memory' msg = some rrepMsg ∧
        readFlag rrepMsg 0 = some (lastWritten again) ∧
        decodeRrep rrepMsg = some { forcedDiscovery := flagInt, id := broadcastId } := by
  have hchar : Char.ofNat ((flagInt + 48) % 256).toNat ≠ '\x00' ∧
      (((Char.ofNat ((flagInt + 48) % 256).toNat).toNat : Int) - 48) = flagInt := by
    rcases hflag with rfl | rfl <;> decide
  have hlen := length_toDigits_id hid
  obtain ⟨rreqMsg, hbuild, hrreq⟩ := buildRreqMsg_holds array stringId hchar.1 hid
  rw [rreqMsg_eq flagInt broadcastId hchar.1] at hrreq
  obtain ⟨msg, htravel, hmsg, hshort⟩ := travel_holds memory again hrreq
    ⟨by simp, by simp only [List.length_cons]; omega⟩
  obtain ⟨c, htext, hc⟩ := refloods_text again '0'
    (Char.ofNat ((flagInt + 48) % 256).toNat :: Nat.toDigits 10 broadcastId)
  generalize hforced : Char.ofNat ((flagInt + 48) % 256).toNat = forced at *
  rw [htext] at hmsg hshort
  have hlast : (c.toNat : Int) - 48 = lastWritten again := hc
  have hreads : ∀ {msg : ApplicationMsg}, HoldsText msg (c :: forced :: Nat.toDigits 10 broadcastId) →
      readFlag msg 0 = some (lastWritten again) ∧ readFlag msg 1 = some flagInt ∧
        ∀ stack, readBid stack msg = some broadcastId := by
    intro msg h
    refine ⟨?_, ?_, fun stack => ?_⟩
    · rw [readFlag_eq h (by simp), ← hlast]
      rfl
    · rw [readFlag_eq h (by simp)]
      exact congrArg some hchar.2
    · rw [readBid_eq stack h hshort, receivedBid_digits _ _ hid]
  refine ⟨rreqMsg, msg, hbuild, htravel, fun stack => ?_, fun answerer memory' => ?_⟩
  · obtain ⟨hsent, hflagRead, hbid⟩ := hreads hmsg
    simp only [decodeRreq, hsent, hflagRead, hbid stack, Option.bind_eq_bind, Option.bind_some]
  · obtain ⟨rrepMsg, hrrep, hheld⟩ := rrepText_holds answerer memory' hmsg hshort
    have hanswer : answerer.text (c :: forced :: Nat.toDigits 10 broadcastId) =
        c :: forced :: Nat.toDigits 10 broadcastId :=
      answerer.text_eq hshort
    rw [hanswer] at hheld
    obtain ⟨hsent, hflagRead, hbid⟩ := hreads hheld
    refine ⟨rrepMsg, hrrep, hsent, ?_⟩
    simp only [decodeRrep, hflagRead, hbid, Option.bind_eq_bind, Option.bind_some]

/-- The largest id, forced; the second node that broadcasts it again has answered it. -/
theorem rreqText_decodes_largest : ∃ rreqMsg msg,
    buildRreqMsg (List.Vector.replicate 30 '?') (List.Vector.replicate 40 '?') 1 (2 ^ 31 - 1) = some rreqMsg ∧
      travel rreqMsg (List.Vector.replicate dataSize '?') [.flood (List.Vector.replicate dataSize '?'),
        .floodReplied (List.Vector.replicate dataSize '?')] = some msg ∧
      (∀ stack, decodeRreq stack msg = some
        { rrepAlreadySent := 1, forcedDiscovery := 1, id := 2 ^ 31 - 1 }) ∧
      ∀ answerer memory', ∃ rrepMsg, rrepText answerer memory' msg = some rrepMsg ∧
        readFlag rrepMsg 0 = some 1 ∧ decodeRrep rrepMsg = some { forcedDiscovery := 1, id := 2 ^ 31 - 1 } :=
  rreqText_decodes (.inr rfl) (by decide) _ _ _ _

end Sockets.Odr
