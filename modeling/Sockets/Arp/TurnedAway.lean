/-
The clients that the ARP module turns away. A client that asks while the
module has an entry for its address, but none with a MAC address, is accepted
and not remembered: its descriptor is not in the table, and as it is open no
other client gets it. So nothing is ever written to it (`Ignored`).

A connection is known by its number, the count of those accepted before it.
-/
import Sockets.Arp.Connections

namespace Sockets.Arp

open Odr (Mac checkAddressNotEmpty)

/-! ## One connection in the record -/

/-- The connection that was accepted as the one with this number. -/
def ArpNode.connection? (s : ArpNode) (p : Nat) : Option Connection := s.connections.reverse[p]?

/-- What was written to a connection. -/
def Connection.written? (c : Connection) : Option Mac :=
  c.ops.findSome? fun
    | .write macAddr => some macAddr
    | .close => none

theorem Connection.mem_of_written? {c : Connection} {macAddr : Mac} (h : c.written? = some macAddr) :
    .write macAddr ∈ c.ops := by
  obtain ⟨op, hop, hwritten⟩ := List.exists_of_findSome?_eq_some h
  cases op with
  | write other => rwa [Option.some.inj hwritten] at hop
  | close => cases hwritten

/-- The connections after something was done with a descriptor: only one that has it is changed. -/
structure Kept (connFd : Int) (connections connections' : List Connection) : Prop where
  length : connections'.length = connections.length
  kept : ∀ (i : Nat) (c : Connection), connections[i]? = some c → ∃ c' : Connection, connections'[i]? = some c' ∧
    c'.fd = c.fd ∧ c'.ip = c.ip ∧ ((c.fd : Int) ≠ connFd → c'.ops = c.ops)

section

variable {connFd : Int} {connections connections' connections'' : List Connection}

theorem Kept.refl (connFd : Int) (connections : List Connection) : Kept connFd connections connections :=
  ⟨rfl, fun _ c hc => ⟨c, hc, rfl, rfl, fun _ => rfl⟩⟩

theorem Kept.trans (h : Kept connFd connections connections') (h' : Kept connFd connections' connections'') :
    Kept connFd connections connections'' := by
  refine ⟨h'.length.trans h.length, ?_⟩
  intro i c hc
  obtain ⟨c', hc', hfd, hip, hops⟩ := h.kept i c hc
  obtain ⟨c'', hc'', hfd', hip', hops'⟩ := h'.kept i c' hc'
  refine ⟨c'', hc'', hfd'.trans hfd, hip'.trans hip, ?_⟩
  intro hne
  exact (hops' (by rw [hfd]; exact hne)).trans (hops hne)

theorem Kept.noteOp (connFd : Int) (op : ConnOp) (connections : List Connection) :
    Kept connFd connections (noteOp connFd op connections) := by
  induction connections with
  | nil => exact .refl connFd []
  | cons d rest ih =>
    unfold Arp.noteOp
    split
    next hfd =>
      refine ⟨rfl, ?_⟩
      intro i c hc
      cases i with
      | zero =>
        obtain rfl : d = c := Option.some.inj hc
        exact ⟨_, rfl, rfl, rfl, fun hne => absurd hfd hne⟩
      | succ i => exact ⟨c, hc, rfl, rfl, fun _ => rfl⟩
    next hfd =>
      refine ⟨congrArg (· + 1) ih.length, ?_⟩
      intro i c hc
      cases i with
      | zero => exact ⟨c, hc, rfl, rfl, fun _ => rfl⟩
      | succ i => exact ih.kept i c hc

theorem Kept.reply (h : Kept connFd connections connections') (arpMessage : ArpMessage) :
    Kept connFd connections (connections'.map (noteReply arpMessage)) := by
  refine ⟨(List.length_map _).trans h.length, ?_⟩
  intro i c hc
  obtain ⟨c', hc', hfd, hip, hops⟩ := h.kept i c hc
  refine ⟨noteReply arpMessage c', ?_, ?_, ?_, ?_⟩
  · rw [List.getElem?_map, hc', Option.map_some]
  · rw [noteReply_fd, hfd]
  · rw [noteReply_ip, hip]
  · rw [noteReply_ops]
    exact hops

theorem Kept.answer (connFd : Int) (macAddr : Mac) (connections : List Connection) :
    Kept connFd connections (noteActions [.write connFd macAddr, .close connFd] connections) :=
  (Kept.noteOp connFd (.write macAddr) connections).trans (Kept.noteOp connFd .close _)

/-- The number of a connection stays its number. -/
theorem Kept.reverse (h : Kept connFd connections connections') {p : Nat} {c : Connection}
    (hc : connections.reverse[p]? = some c) : ∃ c', connections'.reverse[p]? = some c' ∧ c'.fd = c.fd ∧
      c'.ip = c.ip ∧ ((c.fd : Int) ≠ connFd → c'.ops = c.ops) := by
  obtain ⟨hp, -⟩ := List.getElem?_eq_some_iff.mp hc
  rw [List.length_reverse] at hp
  rw [List.getElem?_reverse hp] at hc
  rw [List.getElem?_reverse (by rw [h.length]; exact hp), h.length]
  exact h.kept _ c hc

end

/-- A connection that nothing will be written to: it is open, and the table does not have its descriptor. -/
structure Ignored (s : ArpNode) (c : Connection) : Prop where
  ops : c.ops = []
  table : ∀ entry ∈ s.arpTable, entry.connFd ≠ c.fd

/-- What a step of its node leaves of a connection. -/
structure Remains (s s' : ArpNode) (c c' : Connection) : Prop where
  ip : c'.ip = c.ip
  ignored : Ignored s c → Ignored s' c'

section

variable {eth0 : Interface} {s s' : ArpNode} {actions : List Action} {p : Nat} {c : Connection}

/-- A client is accepted, and has the next number. -/
theorem ArpNode.connection?_accept (s : ArpNode) (connFd : Nat) (text : List Char) :
    (accepted connFd text :: s.connections).reverse[s.connections.length]? = some (accepted connFd text) := by
  rw [List.reverse_cons, List.getElem?_append_right (by rw [List.length_reverse]), List.length_reverse,
    Nat.sub_self, List.getElem?_cons_zero]

theorem ArpNode.connection?_cons (connection : Connection) (h : s.connection? p = some c) :
    (connection :: s.connections).reverse[p]? = some c := by
  rw [List.reverse_cons, List.getElem?_append_left (List.getElem?_eq_some_iff.mp h).1]
  exact h

/-- What a client is answered is written to its own connection. -/
theorem ClientEffect.kept {arpTable arpTable' : List ArpEntry} {connFd : Nat} {ip : List Char}
    (h : ClientEffect eth0 arpTable connFd ip arpTable' actions) (connections : List Connection) :
    Kept connFd connections (noteActions actions connections) := by
  cases h with
  | asks => exact .refl _ _
  | answers => exact .answer _ _ _
  | turnsAway => exact .refl _ _

theorem remains_client {connFd : Nat} {text : List Char}
    (hs : s.step eth0 (.client connFd text) = some (s', actions)) (hc : s.connection? p = some c) :
    ∃ c', s'.connection? p = some c' ∧ Remains s s' c c' := by
  obtain ⟨heffect, hconnections, hopen⟩ := ArpNode.step_client hs
  obtain ⟨c', hc', hfd, hip, hops⟩ := (heffect.kept (accepted connFd text :: s.connections)).reverse
    (ArpNode.connection?_cons _ hc)
  refine ⟨c', by rw [ArpNode.connection?, hconnections]; exact hc', hip, ?_⟩
  intro h
  have hne : c.fd ≠ connFd := hopen c (List.mem_reverse.mp (List.mem_of_getElem? hc)) h.ops
  refine ⟨(hops (by omega)).trans h.ops, ?_⟩
  rw [hfd]
  obtain ⟨arpTable, connections⟩ := s'
  dsimp only at heffect ⊢
  cases heffect with
  | asks =>
    intro entry hm
    rcases List.mem_append.mp hm with hm | hm
    · exact h.table entry hm
    · rw [List.mem_singleton.mp hm]
      intro hsame
      exact hne (by dsimp only at hsame; omega)
  | answers | turnsAway => exact h.table

/-- A message is followed by an answer on a descriptor of the table, or by none. -/
theorem MessageEffect.kept {arpTable arpTable' : List ArpEntry} {arpMessage : ArpMessage}
    (h : MessageEffect eth0 arpTable arpMessage arpTable' actions) (connections : List Connection) :
    ∃ connFd, Kept connFd connections (noteActions actions connections) ∧
      (connFd < 0 ∨ ∃ entry ∈ arpTable, entry.connFd = connFd) := by
  cases h with
  | ignores | replies | fills => exact ⟨-1, .refl _ _, .inl (by decide)⟩
  | answers hfirst => exact ⟨_, .answer _ _ _, .inr ⟨_, hfirst.mem, rfl⟩⟩

theorem remains_message {arpMessage : ArpMessage} {beyond : ArpEntry → Bool} {sllHatype : Nat} {sllIfindex : Int}
    (hs : s.step eth0 (.message arpMessage beyond sllHatype sllIfindex) = some (s', actions))
    (hc : s.connection? p = some c) : ∃ c', s'.connection? p = some c' ∧ Remains s s' c c' := by
  obtain ⟨heffect, hconnections⟩ := ArpNode.step_message hs
  obtain ⟨connFd, hkept, hfrom⟩ := heffect.kept s.connections
  obtain ⟨c', hc', hfd, hip, hops⟩ := (hkept.reply arpMessage).reverse hc
  refine ⟨c', by rw [ArpNode.connection?, hconnections]; exact hc', hip, ?_⟩
  intro h
  have hne : (c.fd : Int) ≠ connFd := by
    rcases hfrom with hneg | ⟨entry, hm, rfl⟩
    · omega
    · exact (h.table entry hm).symm
  refine ⟨(hops hne).trans h.ops, ?_⟩
  rw [hfd]
  -- an entry that is new or changed has no descriptor
  have hfilled {front back : List ArpEntry} {ip : List Char} {entry entry' : ArpEntry}
      (hfirst : FirstEntry s.arpTable ip front entry back) (hneg : entry'.connFd < 0) :
      ∀ other ∈ front ++ entry' :: back, other.connFd ≠ c.fd := by
    intro other hm
    rcases eq_or_mem_of_mem_split hm with rfl | hm
    · omega
    · exact h.table other (hfirst.mem_of_other hm)
  obtain ⟨arpTable, connections⟩ := s'
  dsimp only at heffect ⊢
  cases heffect with
  | ignores => exact h.table
  | replies hnot hdest hnew =>
    intro entry hm
    rcases List.mem_append.mp hm with hm | hm
    · exact h.table entry hm
    · rw [(hnew entry hm).2.2]
      omega
  | fills hfirst hip hmac hnone hneg => exact hfilled hfirst hneg
  | answers hfirst hip hmac hwaits hneg => exact hfilled hfirst hneg

/-- The number of a connection stays its number, and one that is ignored stays so. -/
theorem ArpNode.step_remains {e : ArpEvent} (hs : s.step eth0 e = some (s', actions))
    (hc : s.connection? p = some c) : ∃ c', s'.connection? p = some c' ∧ Remains s s' c c' := by
  cases e with
  | client => exact remains_client hs hc
  | message => exact remains_message hs hc

/-- The module has an entry for the address, and no MAC address in the first one. -/
def ArpNode.turnsAway (s : ArpNode) (ip : List Char) : Bool :=
  match indexOfIP s.arpTable ip with
  | some index => checkAddressNotEmpty (s.arpTable.getD index {}).macAddr = false
  | none => false

theorem ArpNode.turnsAway_eq_true {ip : List Char} (h : s.turnsAway ip = true) : ∃ front entry back,
    FirstEntry s.arpTable ip front entry back ∧ checkAddressNotEmpty entry.macAddr = false := by
  unfold ArpNode.turnsAway at h
  split at h
  next index hindex =>
    obtain ⟨front, entry, back, hfirst, hget, -⟩ := indexOfIP_eq_some hindex
    rw [hget] at h
    exact ⟨front, entry, back, hfirst, of_decide_eq_true h⟩
  next => cases h

/-- A client is accepted, and ignored if it is turned away. -/
theorem ArpNode.step_accepts {connFd : Nat} {text : List Char} (hinv : ConnectionsInv s)
    (hs : s.step eth0 (.client connFd text) = some (s', actions)) :
    ∃ c, s'.connection? s.connections.length = some c ∧ c.ip = askedIp text ∧
      (s.turnsAway (askedIp text) = true → Ignored s' c) := by
  obtain ⟨heffect, hconnections, hopen⟩ := ArpNode.step_client hs
  have haccepted := s.connection?_accept connFd text
  obtain ⟨c, hc, hfd, hip, -⟩ := (heffect.kept (accepted connFd text :: s.connections)).reverse haccepted
  refine ⟨c, by rw [ArpNode.connection?, hconnections]; exact hc, hip, ?_⟩
  intro haway
  obtain ⟨front, entry, back, hfirst, hempty⟩ := ArpNode.turnsAway_eq_true haway
  obtain ⟨arpTable, connections⟩ := s'
  dsimp only at heffect ⊢
  cases heffect with
  | asks hnone => exact absurd hfirst.ipAddr (hnone entry hfirst.mem)
  | answers hother hmac =>
    have hsame := hother.find.symm.trans hfirst.find
    rw [Option.some.inj hsame, hempty] at hmac
    cases hmac
  | turnsAway =>
    -- nothing was done on any connection
    obtain rfl : accepted connFd text = c := Option.some.inj (haccepted.symm.trans hc)
    refine ⟨rfl, ?_⟩
    intro other hm hsame
    obtain ⟨d, hd, hdfd, -, hops⟩ := hinv.waiting other hm (by omega)
    exact hopen d hd hops (by have hfd : (accepted connFd text).fd = connFd := rfl; omega)

end

end Sockets.Arp
