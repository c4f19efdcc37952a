/-
The clients of the ARP module. A connection is accepted, asks for an
address, and is answered once and closed: at once from the table, or when
the reply comes. What the node does on each connection is recorded beside
its state, with whether a reply for its address was processed since.

An entry of the table has room for one connection. A client that asks while
the MAC address of the first entry counts as empty is neither stored nor
answered nor closed: that is so as long as another client waits, and for
good if no byte of the MAC address is odd.
-/
import Sockets.Lib.Machine
import Sockets.Arp.Node

namespace Sockets.Arp

open Odr (Mac checkAddressNotEmpty)

inductive ConnOp
  | write (macAddr : Mac)
  | close
deriving DecidableEq

/-- A connection: its descriptor, what it asks for, what the node did on it, in order, and
whether a reply from the address it asks for has come since. -/
structure Connection where
  fd : Nat
  ip : List Char
  ops : List ConnOp := []
  replied : Bool := false

/-- The table of a node, and the connections it has accepted, newest first. -/
structure ArpNode where
  arpTable : List ArpEntry
  connections : List Connection

/-- What is done on a descriptor is done on the newest connection with it. -/
def noteOp (connFd : Int) (op : ConnOp) : List Connection → List Connection
  | [] => []
  | c :: rest => if c.fd = connFd then { c with ops := c.ops ++ [op] } :: rest else c :: noteOp connFd op rest

def noteAction (connections : List Connection) : Action → List Connection
  | .write connFd macAddr => noteOp connFd (.write macAddr) connections
  | .close connFd => noteOp connFd .close connections
  | .send _ => connections

def noteActions (actions : List Action) (connections : List Connection) : List Connection :=
  actions.foldl noteAction connections

def noteReply (arpMessage : ArpMessage) (c : Connection) : Connection :=
  if arpMessage.IsReply ∧ c.ip = ipNtop arpMessage.senderIp then { c with replied := true } else c

/-- The address a client asks for. -/
def askedIp (text : List Char) : List Char := Odr.cString (text.take ipAddrSize)

inductive ArpEvent
  | client (connFd : Nat) (text : List Char)
  | message (arpMessage : ArpMessage) (beyond : ArpEntry → Bool) (sllHatype : Nat) (sllIfindex : Int)

/-- What an event does to a node, and what the node does then. -/
def ArpNode.step (eth0 : Interface) (s : ArpNode) : ArpEvent → Option (ArpNode × List Action)
  | .client connFd text =>
    -- a connection is accepted with a descriptor that is not open
    if s.connections.any fun c => c.fd = connFd ∧ .close ∉ c.ops then none
    else (onClient eth0 s.arpTable connFd text).map fun (arpTable, actions) =>
      let connections := noteActions actions ({ fd := connFd, ip := askedIp text } :: s.connections)
      ({ arpTable, connections }, actions)
  | .message arpMessage beyond sllHatype sllIfindex =>
    (onArpMessage eth0 s.arpTable beyond sllHatype sllIfindex arpMessage).map fun (arpTable, actions) =>
      ({ arpTable, connections := (noteActions actions s.connections).map (noteReply arpMessage) }, actions)

def ArpNode.start : ArpNode := { arpTable := [], connections := [] }

def arpMachine (eth0 : Interface) : Machine ArpNode ArpEvent where
  init := .start
  step s e := (s.step eth0 e).map (·.1)

def ConnOp.isWrite : ConnOp → Bool
  | .write _ => true
  | .close => false

/-- A connection is written to at most once, and not after it was closed. -/
structure ServedOnce (c : Connection) : Prop where
  once : c.ops.countP ConnOp.isWrite ≤ 1
  notClosed : ∀ before after, c.ops = before ++ .close :: after → ∀ macAddr, .write macAddr ∉ after

/-- And when a reply for it has come it is answered and closed. -/
def NoneForgotten (s : ArpNode) : Prop :=
  ∀ c ∈ s.connections, ServedOnce c ∧
    (c.replied = true → (∃ macAddr, .write macAddr ∈ c.ops) ∧ .close ∈ c.ops)

/-- No client asks for an address whose first entry has a MAC address that counts as empty. -/
def NotTurnedAway (s : ArpNode) (e : ArpEvent) (_ : ArpNode) : Prop :=
  match e with
  | .client _ text => ∀ index, indexOfIP s.arpTable (askedIp text) = some index →
    checkAddressNotEmpty (s.arpTable.getD index {}).macAddr = true
  | .message .. => True

instance {s : ArpNode} {e : ArpEvent} {s' : ArpNode} : Decidable (NotTurnedAway s e s') :=
  match e with
  | .client _ text => inferInstanceAs (Decidable (∀ index ∈ indexOfIP s.arpTable (askedIp text), _ = true))
  | .message .. => inferInstanceAs (Decidable True)

/-! ## The record of the connections -/

@[simp] theorem noteReply_fd (arpMessage : ArpMessage) (c : Connection) : (noteReply arpMessage c).fd = c.fd := by
  unfold noteReply
  split <;> rfl

@[simp] theorem noteReply_ip (arpMessage : ArpMessage) (c : Connection) : (noteReply arpMessage c).ip = c.ip := by
  unfold noteReply
  split <;> rfl

@[simp] theorem noteReply_ops (arpMessage : ArpMessage) (c : Connection) :
    (noteReply arpMessage c).ops = c.ops := by
  unfold noteReply
  split <;> rfl

variable {connections front back : List Connection} {c : Connection} {connFd : Int}

theorem noteOp_append (hfront : ∀ d ∈ front, (d.fd : Int) ≠ connFd) (hfd : c.fd = connFd) (op : ConnOp) :
    noteOp connFd op (front ++ c :: back) = front ++ { c with ops := c.ops ++ [op] } :: back := by
  induction front with
  | nil => rw [List.nil_append, noteOp, if_pos hfd, List.nil_append]
  | cons d front ih =>
    rw [List.cons_append, noteOp, if_neg (hfront d List.mem_cons_self),
      ih fun d hm => hfront d (List.mem_cons_of_mem _ hm), List.cons_append]

/-- Each connection is waiting, or answered and closed; and of two with one descriptor the older
one is not waiting. -/
structure ConnectionsOk (connections : List Connection) : Prop where
  ops : ∀ c ∈ connections, c.ops = [] ∨ ∃ macAddr, c.ops = [.write macAddr, .close]
  newest : connections.Pairwise fun newer older => newer.fd = older.fd → older.ops ≠ []

/-- What answering the waiting connection `c` does to the record. -/
structure Answered (connections : List Connection) (c : Connection) (macAddr : Mac)
    (connections' : List Connection) : Prop where
  ok : ConnectionsOk connections'
  changed : ∀ d ∈ connections', (d ∈ connections ∧ (d.ops = [] → d.fd ≠ c.fd)) ∨
    d = { c with ops := [.write macAddr, .close] }
  kept : ∀ d ∈ connections, d.fd ≠ c.fd → d ∈ connections'

theorem ConnectionsOk.answer (h : ConnectionsOk connections) (hc : c ∈ connections) (hfd : c.fd = connFd)
    (hops : c.ops = []) (macAddr : Mac) :
    Answered connections c macAddr (noteActions [.write connFd macAddr, .close connFd] connections) := by
  obtain ⟨front, back, rfl⟩ := List.append_of_mem hc
  obtain ⟨hfront, hback, hacross⟩ := List.pairwise_append.mp h.newest
  obtain ⟨holder, hback⟩ := List.pairwise_cons.mp hback
  have hnewer : ∀ d ∈ front, (d.fd : Int) ≠ connFd := by
    intro d hm hsame
    exact hacross d hm c List.mem_cons_self (by omega) hops
  have hnoted : noteActions [.write connFd macAddr, .close connFd] (front ++ c :: back) =
      front ++ { c with ops := [.write macAddr, .close] } :: back := by
    simp only [noteActions, List.foldl_cons, List.foldl_nil, noteAction]
    rw [noteOp_append hnewer hfd, hops]
    exact noteOp_append (c := { c with ops := [.write macAddr] }) hnewer hfd .close
  rw [hnoted]
  refine ⟨⟨?_, ?_⟩, ?_, ?_⟩
  · intro d hm
    rcases eq_or_mem_of_mem_split hm with rfl | hm
    · exact .inr ⟨macAddr, rfl⟩
    · exact h.ops d (mem_split_of_mem hm)
  · refine List.pairwise_append.mpr ⟨hfront, List.pairwise_cons.mpr ⟨holder, hback⟩, ?_⟩
    intro d hm older holder hsame
    rcases List.mem_cons.mp holder with rfl | holder
    · exact List.cons_ne_nil _ _
    · exact hacross d hm older (List.mem_cons_of_mem _ holder) hsame
  · intro d hm
    rcases eq_or_mem_of_mem_split hm with rfl | hm
    · exact .inr rfl
    refine .inl ⟨mem_split_of_mem hm, ?_⟩
    intro hwaits hsame
    cases hm with
    | inl hm => exact hnewer d hm (by omega)
    | inr hm => exact holder d hm hsame.symm hwaits
  · intro d hm hne
    rcases eq_or_mem_of_mem_split hm with rfl | hm
    · exact absurd rfl hne
    · exact mem_split_of_mem hm

/-- A connection is accepted with a descriptor that is not open. -/
theorem ConnectionsOk.accept (h : ConnectionsOk connections) (hnew : c.ops = [])
    (hopen : ∀ d ∈ connections, d.ops = [] → d.fd ≠ c.fd) : ConnectionsOk (c :: connections) where
  ops d hm := by
    cases List.mem_cons.mp hm with
    | inl he => exact .inl (he ▸ hnew)
    | inr hm => exact h.ops d hm
  newest := List.pairwise_cons.mpr ⟨fun d hm hsame hwaits => hopen d hm hwaits hsame.symm, h.newest⟩

theorem ConnectionsOk.reply (h : ConnectionsOk connections) (arpMessage : ArpMessage) :
    ConnectionsOk (connections.map (noteReply arpMessage)) where
  ops d hm := by
    obtain ⟨c, hc, rfl⟩ := List.mem_map.mp hm
    simpa using h.ops c hc
  newest := by
    rw [List.pairwise_map]
    simpa using h.newest

/-! ## The connections that wait -/

/-- The record is right, and each descriptor in the table is that of a connection that waits for
the address of its entry. -/
structure ConnectionsInv (s : ArpNode) : Prop where
  ok : ConnectionsOk s.connections
  waiting : ∀ entry ∈ s.arpTable, 0 ≤ entry.connFd →
    ∃ c ∈ s.connections, c.fd = entry.connFd ∧ c.ip = entry.ipAddr ∧ c.ops = []
  distinct : s.arpTable.Pairwise fun entry entry' => 0 ≤ entry.connFd → entry.connFd ≠ entry'.connFd

variable {eth0 : Interface} {s s' : ArpNode} {actions : List Action}

/-- An entry that holds no descriptor may take the place of any other. -/
theorem distinct_replace {front back : List ArpEntry} {entry entry' : ArpEntry} (hfd : entry'.connFd < 0)
    (h : (front ++ entry :: back).Pairwise fun entry entry' => 0 ≤ entry.connFd → entry.connFd ≠ entry'.connFd) :
    (front ++ entry' :: back).Pairwise fun entry entry' => 0 ≤ entry.connFd → entry.connFd ≠ entry'.connFd := by
  obtain ⟨hfront, hback, hacross⟩ := List.pairwise_append.mp h
  obtain ⟨-, hback⟩ := List.pairwise_cons.mp hback
  refine List.pairwise_append.mpr ⟨hfront, List.pairwise_cons.mpr ⟨fun _ _ hge => by omega, hback⟩, ?_⟩
  intro other hm later hlater hge
  cases List.mem_cons.mp hlater with
  | inl he =>
    rw [he]
    omega
  | inr hm' => exact hacross other hm later (List.mem_cons_of_mem _ hm') hge

/-- The other entries have other descriptors. -/
theorem ne_of_distinct {front back : List ArpEntry} {entry other : ArpEntry}
    (h : (front ++ entry :: back).Pairwise fun entry entry' => 0 ≤ entry.connFd → entry.connFd ≠ entry'.connFd)
    (hm : other ∈ front ∨ other ∈ back) (hge : 0 ≤ entry.connFd) : other.connFd ≠ entry.connFd := by
  obtain ⟨-, hback, hacross⟩ := List.pairwise_append.mp h
  obtain ⟨hentry, -⟩ := List.pairwise_cons.mp hback
  cases hm with
  | inl hm =>
    intro hsame
    exact hacross other hm entry List.mem_cons_self (by omega) hsame
  | inr hm => exact fun hsame => hentry other hm hge hsame.symm

/-- Accepting a client with a descriptor that is not open. -/
theorem ArpNode.step_client {connFd : Nat} {text : List Char}
    (h : s.step eth0 (.client connFd text) = some (s', actions)) :
    ClientEffect eth0 s.arpTable connFd (askedIp text) s'.arpTable actions ∧
    s'.connections = noteActions actions ({ fd := connFd, ip := askedIp text } :: s.connections) ∧
    ∀ d ∈ s.connections, d.ops = [] → d.fd ≠ connFd := by
  simp only [ArpNode.step] at h
  split at h
  · cases h
  next hopen =>
    simp only [Option.map_eq_some_iff] at h
    obtain ⟨⟨arpTable, acts⟩, hclient, h⟩ := h
    simp only [Prod.mk.injEq] at h
    obtain ⟨rfl, rfl⟩ := h
    refine ⟨onClient_effect hclient, rfl, ?_⟩
    intro d hm hops hfd
    apply hopen
    rw [List.any_eq_true]
    exact ⟨d, hm, by simp [hfd, hops]⟩

theorem ArpNode.step_message {arpMessage : ArpMessage} {beyond : ArpEntry → Bool} {sllHatype : Nat}
    {sllIfindex : Int} (h : s.step eth0 (.message arpMessage beyond sllHatype sllIfindex) = some (s', actions)) :
    MessageEffect eth0 s.arpTable arpMessage s'.arpTable actions ∧
    s'.connections = (noteActions actions s.connections).map (noteReply arpMessage) := by
  simp only [ArpNode.step, Option.map_eq_some_iff] at h
  obtain ⟨⟨arpTable, acts⟩, hmessage, h⟩ := h
  simp only [Prod.mk.injEq] at h
  obtain ⟨rfl, rfl⟩ := h
  exact ⟨onArpMessage_effect hmessage, rfl⟩

/-- The connection of a client, as it is accepted. -/
def accepted (connFd : Nat) (text : List Char) : Connection := { fd := connFd, ip := askedIp text }

theorem ConnectionsInv.client (h : ConnectionsInv s) {connFd : Nat} {text : List Char}
    (hs : s.step eth0 (.client connFd text) = some (s', actions)) : ConnectionsInv s' := by
  obtain ⟨heffect, hconnections, hopen⟩ := ArpNode.step_client hs
  have haccepted : ConnectionsOk (accepted connFd text :: s.connections) := h.ok.accept rfl hopen
  have hwaiting : ∀ entry ∈ s.arpTable, 0 ≤ entry.connFd →
      ∃ c ∈ s.connections, (c.fd = entry.connFd ∧ c.ip = entry.ipAddr ∧ c.ops = []) ∧ c.fd ≠ connFd := by
    intro entry hm hge
    obtain ⟨c, hc, hfd, hip, hops⟩ := h.waiting entry hm hge
    exact ⟨c, hc, ⟨hfd, hip, hops⟩, hopen c hc hops⟩
  obtain ⟨arpTable, connections⟩ := s'
  dsimp only at heffect hconnections
  subst hconnections
  cases heffect with
  | asks hnone hsender hmac =>
    refine ⟨haccepted, ?_, ?_⟩
    · intro entry hm hge
      rcases List.mem_append.mp hm with hm | hm
      · obtain ⟨c, hc, hkeeps, -⟩ := hwaiting entry hm hge
        exact ⟨c, List.mem_cons_of_mem _ hc, hkeeps⟩
      · rw [List.mem_singleton.mp hm]
        exact ⟨_, List.mem_cons_self, rfl, rfl, rfl⟩
    · refine List.pairwise_append.mpr ⟨h.distinct, List.pairwise_singleton _ _, ?_⟩
      intro entry hm new hnew hge hsame
      obtain ⟨c, -, ⟨hfd, -⟩, hne⟩ := hwaiting entry hm hge
      rw [List.mem_singleton.mp hnew] at hsame
      dsimp only at hsame
      omega
  | answers hfirst hmac =>
    have hanswered := haccepted.answer List.mem_cons_self rfl rfl
    refine ⟨(hanswered _).ok, ?_, h.distinct⟩
    intro entry hm hge
    obtain ⟨c, hc, hkeeps, hne⟩ := hwaiting entry hm hge
    exact ⟨c, (hanswered _).kept c (List.mem_cons_of_mem _ hc) hne, hkeeps⟩
  | turnsAway hfirst hmac =>
    refine ⟨haccepted, ?_, h.distinct⟩
    intro entry hm hge
    obtain ⟨c, hc, hkeeps, -⟩ := hwaiting entry hm hge
    exact ⟨c, List.mem_cons_of_mem _ hc, hkeeps⟩

theorem ConnectionsInv.message (h : ConnectionsInv s) {arpMessage : ArpMessage} {beyond : ArpEntry → Bool}
    {sllHatype : Nat} {sllIfindex : Int}
    (hs : s.step eth0 (.message arpMessage beyond sllHatype sllIfindex) = some (s', actions)) :
    ConnectionsInv s' := by
  obtain ⟨heffect, hconnections⟩ := ArpNode.step_message hs
  have hkept {connections : List Connection} {entry : ArpEntry}
      (hc : ∃ c ∈ connections, (c.fd : Int) = entry.connFd ∧ c.ip = entry.ipAddr ∧ c.ops = []) :
      ∃ c ∈ connections.map (noteReply arpMessage),
        (c.fd : Int) = entry.connFd ∧ c.ip = entry.ipAddr ∧ c.ops = [] := by
    obtain ⟨c, hc, hfd, hip, hops⟩ := hc
    exact ⟨_, List.mem_map_of_mem hc, by simpa using hfd, by simpa using hip, by simpa using hops⟩
  obtain ⟨arpTable, connections⟩ := s'
  dsimp only at heffect hconnections
  subst hconnections
  cases heffect with
  | ignores => exact ⟨h.ok.reply _, fun entry hm hge => hkept (h.waiting entry hm hge), h.distinct⟩
  | replies hnot hdest hnew hframe =>
    refine ⟨h.ok.reply _, ?_, ?_⟩
    · intro entry hm hge
      rcases List.mem_append.mp hm with hm | hm
      · exact hkept (h.waiting entry hm hge)
      · obtain ⟨-, -, hfd⟩ := hnew entry hm
        omega
    · refine List.pairwise_append.mpr ⟨h.distinct, ?_, ?_⟩
      · refine List.pairwise_of_forall_mem_list ?_
        intro entry hm _ _ hge
        obtain ⟨-, -, hfd⟩ := hnew entry hm
        omega
      · intro entry _ new hm hge
        obtain ⟨-, -, hfd⟩ := hnew new hm
        omega
  | @fills front _ back entry' hfirst hip hmac hnone hfd =>
    have hdistinct := h.distinct
    rw [hfirst.split] at hdistinct
    refine ⟨h.ok.reply _, ?_, distinct_replace hfd hdistinct⟩
    intro entry hm hge
    rcases eq_or_mem_of_mem_split hm with rfl | hother
    · omega
    · exact hkept (h.waiting entry (hfirst.mem_of_other hother) hge)
  | @answers front asked back entry' hfirst hip hmac hwaits hfd =>
    have hdistinct := h.distinct
    rw [hfirst.split] at hdistinct
    obtain ⟨c, hc, hcfd, -, hcops⟩ := h.waiting asked hfirst.mem hwaits
    have hanswered := h.ok.answer hc hcfd hcops arpMessage.senderMac
    refine ⟨hanswered.ok.reply _, ?_, distinct_replace hfd hdistinct⟩
    intro entry hm hge
    rcases eq_or_mem_of_mem_split hm with rfl | hother
    · omega
    have hne := ne_of_distinct hdistinct hother hwaits
    obtain ⟨d, hd, hdfd, hdip, hdops⟩ := h.waiting entry (hfirst.mem_of_other hother) hge
    exact hkept ⟨d, hanswered.kept d hd (by omega), hdfd, hdip, hdops⟩

theorem connectionsInv_of_reachable (h : (arpMachine eth0).Reachable s) : ConnectionsInv s := by
  refine h.invariant ?_ ?_
  · exact {
      ok := ⟨by simp [arpMachine, ArpNode.start], List.Pairwise.nil⟩
      waiting := by simp [arpMachine, ArpNode.start]
      distinct := List.Pairwise.nil }
  · intro s e s' hs hstep
    simp only [arpMachine, Option.map_eq_some_iff] at hstep
    obtain ⟨⟨node, actions⟩, hstep, rfl⟩ := hstep
    cases e with
    | client connFd text => exact hs.client hstep
    | message arpMessage beyond sllHatype sllIfindex => exact hs.message hstep

/-- **Served once.** In every run, and whatever is asked of it, a node writes to a connection at
most once, and not after it has closed it. -/
theorem ConnectionsOk.servedOnce (h : ConnectionsOk connections) (hc : c ∈ connections) : ServedOnce c := by
  rcases h.ops c hc with hops | ⟨macAddr, hops⟩
  · refine ⟨by simp [hops], ?_⟩
    intro before after heq
    simp [hops] at heq
  · refine ⟨?_, ?_⟩
    · rw [hops, List.countP_cons_of_pos (by rfl), List.countP_cons_of_neg (by simp [ConnOp.isWrite]),
        List.countP_nil]
    · intro before after heq
      rw [hops] at heq
      match before with
      | [] => simp at heq
      | [op] =>
        obtain ⟨-, -, rfl⟩ : ConnOp.write macAddr = op ∧ ConnOp.close = .close ∧ [] = after := by simpa using heq
        simp
      | op :: op' :: before => simp at heq

/-! ## The connections that are answered -/

/-- A connection that waits has its descriptor in the first entry for its address, and no reply
has come for it. -/
structure AwaitedInv (s : ArpNode) : Prop where
  first : ∀ c ∈ s.connections, c.ops = [] →
    ∃ entry, s.arpTable.find? (·.ipAddr = c.ip) = some entry ∧ entry.connFd = c.fd
  replied : ∀ c ∈ s.connections, c.replied = true → c.ops ≠ []

theorem find_append {arpTable new : List ArpEntry} {ip : List Char} {entry : ArpEntry}
    (h : arpTable.find? (·.ipAddr = ip) = some entry) : (arpTable ++ new).find? (·.ipAddr = ip) = some entry := by
  rw [List.find?_append, h, Option.some_or]

/-- The first entry for an address is that of the connection that waits for it. -/
theorem AwaitedInv.connFd_eq (h : AwaitedInv s) {ip : List Char} {front back : List ArpEntry} {entry : ArpEntry}
    (hfirst : FirstEntry s.arpTable ip front entry back) (hc : c ∈ s.connections) (hops : c.ops = [])
    (hip : c.ip = ip) : entry.connFd = c.fd := by
  obtain ⟨entry', hfind, hfd⟩ := h.first c hc hops
  rw [hip, hfirst.find, Option.some.injEq] at hfind
  rw [hfind, hfd]

namespace Answered

variable {connections' : List Connection} {macAddr : Mac}

/-- The connections that still wait waited before, with another descriptor. -/
theorem waiting (h : Answered connections c macAddr connections') {d : Connection} (hd : d ∈ connections')
    (hops : d.ops = []) : d ∈ connections ∧ d.fd ≠ c.fd := by
  rcases h.changed d hd with ⟨hd, hfd⟩ | rfl
  · exact ⟨hd, hfd hops⟩
  · cases hops

theorem replied (h : Answered connections c macAddr connections')
    (hreplied : ∀ d ∈ connections, d.replied = true → d.ops ≠ []) :
    ∀ d ∈ connections', d.replied = true → d.ops ≠ [] := by
  intro d hd
  rcases h.changed d hd with ⟨hd, -⟩ | rfl
  · exact hreplied d hd
  · exact fun _ => List.cons_ne_nil _ _

end Answered

theorem AwaitedInv.client (h : AwaitedInv s) (hinv : ConnectionsInv s) {connFd : Nat} {text : List Char}
    (hs : s.step eth0 (.client connFd text) = some (s', actions))
    (hguard : NotTurnedAway s (.client connFd text) s') : AwaitedInv s' := by
  obtain ⟨heffect, hconnections, hopen⟩ := ArpNode.step_client hs
  obtain ⟨arpTable, connections⟩ := s'
  dsimp only at heffect hconnections
  subst hconnections
  have hreplied : ∀ c ∈ accepted connFd text :: s.connections, c.replied = true → c.ops ≠ [] := by
    intro c hc hreplied
    cases hc with
    | head => cases hreplied
    | tail _ hc => exact h.replied c hc hreplied
  cases heffect with
  | asks hnone hsender hmac =>
    refine ⟨?_, hreplied⟩
    intro c hc hops
    cases hc with
    | head =>
      refine ⟨{ ipAddr := askedIp text, connFd }, ?_, rfl⟩
      rw [List.find?_append, List.find?_eq_none.mpr fun entry hm => by simpa using hnone entry hm]
      simp
    | tail _ hc =>
      obtain ⟨entry, hfind, hfd⟩ := h.first c hc hops
      exact ⟨entry, find_append hfind, hfd⟩
  | answers hfirst hmac =>
    have haccepted : ConnectionsOk (accepted connFd text :: s.connections) := hinv.ok.accept rfl hopen
    have hanswered := haccepted.answer List.mem_cons_self rfl rfl
    refine ⟨?_, (hanswered _).replied hreplied⟩
    intro c hc hops
    obtain ⟨hc, hfd⟩ := (hanswered _).waiting hc hops
    cases hc with
    | head => exact absurd rfl hfd
    | tail _ hc => exact h.first c hc hops
  | turnsAway hfirst hmac =>
    -- the first entry has a MAC address that counts as empty
    cases hindex : indexOfIP s.arpTable (askedIp text) with
    | none => exact absurd hfirst.ipAddr (indexOfIP_eq_none hindex _ hfirst.mem)
    | some index =>
      obtain ⟨front, entry, back, hfirst', hget, -⟩ := indexOfIP_eq_some hindex
      have hguard := hguard index hindex
      have hsame := Option.some.inj (hfirst.find.symm.trans hfirst'.find)
      rw [hget, ← hsame, hmac] at hguard
      cases hguard

/-- What a message leaves: the connections that wait, where none of them waits for its reply. -/
theorem awaitedInv_of_noteReply {arpTable : List ArpEntry} {connections : List Connection}
    {arpMessage : ArpMessage} (h : AwaitedInv { arpTable, connections })
    (hreply : arpMessage.IsReply → ∀ c ∈ connections, c.ops = [] → c.ip ≠ ipNtop arpMessage.senderIp) :
    AwaitedInv { arpTable, connections := connections.map (noteReply arpMessage) } where
  first c hc hops := by
    obtain ⟨d, hd, rfl⟩ := List.mem_map.mp hc
    simpa using h.first d hd (by simpa using hops)
  replied c hc hreplied := by
    obtain ⟨d, hd, rfl⟩ := List.mem_map.mp hc
    rw [noteReply_ops]
    unfold noteReply at hreplied
    split at hreplied
    next hnow => exact fun hops => hreply hnow.1 d hd hops hnow.2
    next => exact h.replied d hd hreplied

theorem AwaitedInv.message (h : AwaitedInv s) (hinv : ConnectionsInv s) {arpMessage : ArpMessage}
    {beyond : ArpEntry → Bool} {sllHatype : Nat} {sllIfindex : Int}
    (hs : s.step eth0 (.message arpMessage beyond sllHatype sllIfindex) = some (s', actions)) :
    AwaitedInv s' := by
  obtain ⟨heffect, hconnections⟩ := ArpNode.step_message hs
  obtain ⟨arpTable, connections⟩ := s'
  dsimp only at heffect hconnections
  subst hconnections
  cases heffect with
  | ignores hnone =>
    refine awaitedInv_of_noteReply h ?_
    intro hreply c hc hops hip
    obtain ⟨entry, hfind, -⟩ := h.first c hc hops
    have hentry : entry.ipAddr = c.ip := by simpa using List.find?_some hfind
    exact hnone hreply entry (List.mem_of_find?_eq_some hfind) (hentry.trans hip)
  | replies hnot hdest hnew hframe =>
    refine awaitedInv_of_noteReply ⟨?_, h.replied⟩ fun hreply => absurd hreply hnot
    intro c hc hops
    obtain ⟨entry, hfind, hfd⟩ := h.first c hc hops
    exact ⟨entry, find_append hfind, hfd⟩
  | @fills front entry back entry' hfirst hip hmac hnone hfd =>
    have hother : ∀ c ∈ s.connections, c.ops = [] → c.ip ≠ ipNtop arpMessage.senderIp := by
      intro c hc hops hsame
      have hfd := h.connFd_eq hfirst hc hops hsame
      omega
    refine awaitedInv_of_noteReply ⟨?_, h.replied⟩ fun _ => hother
    intro c hc hops
    rw [hfirst.find_replace hip (hother c hc hops)]
    exact h.first c hc hops
  | @answers front entry back entry' hfirst hip hmac hwaits hfd =>
    obtain ⟨asked, hasked, hfd, -, hops⟩ := hinv.waiting entry hfirst.mem hwaits
    have hanswered := hinv.ok.answer hasked hfd hops arpMessage.senderMac
    have hother : ∀ c ∈ noteActions [.write entry.connFd arpMessage.senderMac, .close entry.connFd] s.connections,
        c.ops = [] → c.ip ≠ ipNtop arpMessage.senderIp := by
      intro c hc hops hsame
      obtain ⟨hc, hne⟩ := hanswered.waiting hc hops
      have hsame := h.connFd_eq hfirst hc hops hsame
      omega
    refine awaitedInv_of_noteReply ⟨?_, hanswered.replied h.replied⟩ fun _ => hother
    intro c hc hops
    rw [hfirst.find_replace hip (hother c hc hops)]
    exact h.first c (hanswered.waiting hc hops).1 hops

/-- **None forgotten.** Where no client is turned away each connection is served once, and has been
answered and closed when a reply for it has come. -/
theorem noneForgotten_of_notTurnedAway (h : (arpMachine eth0).ReachableBy NotTurnedAway s) : NoneForgotten s := by
  have hstart : ConnectionsInv (arpMachine eth0).init ∧ AwaitedInv (arpMachine eth0).init := by
    refine ⟨connectionsInv_of_reachable .start, ?_, ?_⟩
    · simp [arpMachine, ArpNode.start]
    · simp [arpMachine, ArpNode.start]
  have hinv : ConnectionsInv s ∧ AwaitedInv s := by
    refine h.invariant (I := fun s => ConnectionsInv s ∧ AwaitedInv s) hstart ?_
    intro s e s' hs hstep hguard
    simp only [arpMachine, Option.map_eq_some_iff] at hstep
    obtain ⟨⟨node, actions⟩, hstep, rfl⟩ := hstep
    cases e with
    | client connFd text => exact ⟨hs.1.client hstep, hs.2.client hs.1 hstep hguard⟩
    | message arpMessage beyond sllHatype sllIfindex => exact ⟨hs.1.message hstep, hs.2.message hs.1 hstep⟩
  intro c hc
  refine ⟨hinv.1.ok.servedOnce hc, ?_⟩
  intro hreplied
  rcases hinv.1.ok.ops c hc with hops | ⟨macAddr, hops⟩
  · exact absurd hops (hinv.2.replied c hc hreplied)
  · rw [hops]
    exact ⟨⟨macAddr, List.mem_cons_self⟩, List.mem_cons_of_mem _ List.mem_cons_self⟩

def exampleInterface : Interface where
  macAddr := #v[0x00, 0x0c, 0x29, 0x49, 0x3f, 0x5b]
  ipAddr := "130.245.156.21".toList
  interfaceNum := 2

/-- The reply of node 130.245.156.22. -/
def exampleReply : ArpEvent :=
  let eth0 : Interface := {
    macAddr := #v[0x00, 0x0c, 0x29, 0x49, 0x3f, 0x65]
    ipAddr := "130.245.156.22".toList
    interfaceNum := 2 }
  .message (replyMessage eth0 (requestMessage exampleInterface #v[130, 245, 156, 22] #v[130, 245, 156, 21]))
    (fun _ => false) 1 2

/-- A client waits and is answered; the next one is answered from the table. -/
theorem noneForgotten_of_notTurnedAway_two :
    ∃ s, (s.connections.map fun c => (c.fd, c.replied, c.ops.length)) = [(5, false, 2), (4, true, 2)] ∧
      NoneForgotten s := by
  obtain ⟨s, hs, htest⟩ := Machine.reachableBy_of_execBy_any (M := arpMachine exampleInterface)
    (G := NotTurnedAway)
    [.client 4 "130.245.156.22".toList, exampleReply, .client 5 "130.245.156.22".toList]
    (fun s => (s.connections.map fun c => (c.fd, c.replied, c.ops.length)) = [(5, false, 2), (4, true, 2)])
    (by decide +kernel)
  exact ⟨s, of_decide_eq_true htest, noneForgotten_of_notTurnedAway hs⟩

/-- Two clients ask for one address before the reply comes: the second stays without an answer. -/
theorem not_noneForgotten : ∃ s, (arpMachine exampleInterface).Reachable s ∧ ¬ NoneForgotten s := by
  obtain ⟨s, hs, htest⟩ := Machine.reachable_of_exec_any (M := arpMachine exampleInterface)
    [.client 4 "130.245.156.22".toList, .client 5 "130.245.156.22".toList, exampleReply]
    (fun s => ∃ c ∈ s.connections, c.replied = true ∧ c.ops = []) (by decide +kernel)
  obtain ⟨c, hc, hreplied, hops⟩ := of_decide_eq_true htest
  refine ⟨s, hs, ?_⟩
  intro hall
  obtain ⟨-, hserved⟩ := hall c hc
  have hclosed := (hserved hreplied).2
  rw [hops] at hclosed
  cases hclosed

end Sockets.Arp
