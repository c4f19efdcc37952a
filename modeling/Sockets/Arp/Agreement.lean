/-
Agreement of the tables. Every node has one interface, with an address of
its own; a frame that was ever sent may arrive at any node, at any time, any
number of times or never; clients ask for whatever they like. Then a MAC
address in a table is that of the node whose IP address the entry is for,
and so is what a client is answered.

What carries this: a node signs what it sends with its own two addresses. A
request is signed with what is read back from the text of its address, a
reply with the address that was asked for, which is the node's own only
because the texts of different addresses differ.
-/
import Mathlib.Logic.Function.Basic
import Sockets.Arp.Connections

namespace Sockets.Arp

open Odr (Mac checkAddressNotEmpty)

/-- The nodes, each with one interface; no two have one IP address. -/
structure Lan (ι : Type) where
  ip : ι → Ipv4
  macAddr : ι → Mac
  interfaceNum : ι → Int
  ip_injective : Function.Injective ip

variable {ι : Type}

def Lan.eth0 (lan : Lan ι) (n : ι) : Interface where
  macAddr := lan.macAddr n
  ipAddr := ipNtop (lan.ip n)
  interfaceNum := lan.interfaceNum n

/-- The nodes, and every frame sent so far. -/
structure ArpNetwork (ι : Type) where
  nodes : ι → ArpNode
  frames : List Frame

inductive ArpNetworkEvent (ι : Type)
  /-- a client of node `n` asks -/
  | client (n : ι) (connFd : Nat) (text : List Char)
  /-- a frame arrives at node `n` -/
  | deliver (frame : Frame) (n : ι) (beyond : ArpEntry → Bool) (sllHatype : Nat) (sllIfindex : Int)

def Action.frame? : Action → Option Frame
  | .send frame => some frame
  | .write .. | .close _ => none

section

variable [DecidableEq ι]

/-- What a step of node `n` does to the network. -/
def ArpNetwork.put (s : ArpNetwork ι) (n : ι) (node : ArpNode) (actions : List Action) : ArpNetwork ι where
  nodes := Function.update s.nodes n node
  frames := s.frames ++ actions.filterMap Action.frame?

/-- The event at a node, if it can happen: what arrives was sent. -/
def ArpNetwork.local? (s : ArpNetwork ι) : ArpNetworkEvent ι → Option (ι × ArpEvent)
  | .client n connFd text => some (n, .client connFd text)
  | .deliver frame n beyond sllHatype sllIfindex =>
    if frame ∈ s.frames then some (n, .message frame.arpMessage beyond sllHatype sllIfindex) else none

def arpNetworkMachine (lan : Lan ι) : Machine (ArpNetwork ι) (ArpNetworkEvent ι) where
  init := { nodes := fun _ => .start, frames := [] }
  step s e := do
    let (n, event) ← s.local? e
    let (node, actions) ← (s.nodes n).step (lan.eth0 n) event
    some (s.put n node actions)

end

/-- The address with this text is that of a node with this MAC address. -/
def Lan.Owns (lan : Lan ι) (ip : List Char) (macAddr : Mac) : Prop :=
  ∃ n, ipNtop (lan.ip n) = ip ∧ lan.macAddr n = macAddr

/-- Every MAC address in the table is right for its address. -/
def TableRight (V : List Char → Mac → Prop) (arpTable : List ArpEntry) : Prop :=
  ∀ entry ∈ arpTable, entry.macAddr ≠ Mac.empty → V entry.ipAddr entry.macAddr

/-- Every MAC address written to a client is right for what it asked. -/
def AnswersRight (V : List Char → Mac → Prop) (connections : List Connection) : Prop :=
  ∀ c ∈ connections, ∀ macAddr, .write macAddr ∈ c.ops → V c.ip macAddr

structure Vouched (V : List Char → Mac → Prop) (s : ArpNode) : Prop where
  arpTable : TableRight V s.arpTable
  answers : AnswersRight V s.connections

/-- The owner of an address is one node, with one MAC address. -/
theorem Lan.Owns.unique {lan : Lan ι} {ip : List Char} {macAddr macAddr' : Mac} (h : lan.Owns ip macAddr)
    (h' : lan.Owns ip macAddr') : macAddr = macAddr' := by
  obtain ⟨n, hip, rfl⟩ := h
  obtain ⟨n', hip', rfl⟩ := h'
  have hsame : lan.ip n = lan.ip n' := ipNtop_injective (hip.trans hip'.symm)
  rw [lan.ip_injective hsame]

/-! ## One node -/

variable {V : List Char → Mac → Prop} {eth0 : Interface} {s s' : ArpNode} {actions : List Action}

/-- A node signs what it sends with its own addresses. -/
theorem ArpNode.step_signs {ip : Ipv4} (hip : eth0.ipAddr = ipNtop ip) {e : ArpEvent}
    (hs : s.step eth0 e = some (s', actions)) {frame : Frame} (hm : .send frame ∈ actions) :
    frame.arpMessage.senderIp = ip ∧ frame.arpMessage.senderMac = eth0.macAddr := by
  obtain ⟨arpTable, connections⟩ := s'
  cases e with
  | client connFd text =>
    obtain ⟨heffect, -, -⟩ := ArpNode.step_client hs
    dsimp only at heffect
    cases heffect with
    | asks hnone hsender hmac =>
      obtain rfl : frame = _ := by simpa using hm
      rw [hip, setIPAddr_ipNtop] at hsender
      exact ⟨(Option.some.inj hsender).symm, hmac⟩
    | answers => simp at hm
    | turnsAway => cases hm
  | message arpMessage beyond sllHatype sllIfindex =>
    obtain ⟨heffect, -⟩ := ArpNode.step_message hs
    dsimp only at heffect
    cases heffect with
    | replies hnot hdest hnew hframe =>
      obtain rfl : frame = _ := by simpa using hm
      rw [hframe]
      exact ⟨ipNtop_injective (hdest.symm.trans hip), rfl⟩
    | ignores | fills => cases hm
    | answers => simp at hm

theorem macAddr_ne_empty {macAddr : Mac} (h : checkAddressNotEmpty macAddr = true) : macAddr ≠ Mac.empty := by
  intro he
  rw [he] at h
  exact absurd h (by decide)

theorem Vouched.start : Vouched V .start where
  arpTable := by simp [TableRight, ArpNode.start]
  answers := by simp [AnswersRight, ArpNode.start]

/-- An answer is written to the one connection that waits. -/
theorem Answered.vouched {connections connections' : List Connection} {c : Connection} {macAddr : Mac}
    (h : Answered connections c macAddr connections') (hc : V c.ip macAddr)
    (hanswers : AnswersRight V connections) : AnswersRight V connections' := by
  intro d hd written hm
  rcases h.changed d hd with ⟨hd, -⟩ | rfl
  · exact hanswers d hd written hm
  · obtain rfl : written = macAddr := by simpa using hm
    exact hc

theorem AnswersRight.reply {connections : List Connection} (h : AnswersRight V connections)
    (arpMessage : ArpMessage) : AnswersRight V (connections.map (noteReply arpMessage)) := by
  intro c hc macAddr hm
  obtain ⟨d, hd, rfl⟩ := List.mem_map.mp hc
  rw [noteReply_ops] at hm
  rw [noteReply_ip]
  exact h d hd macAddr hm

theorem Vouched.client (h : Vouched V s) (hinv : ConnectionsInv s) {connFd : Nat} {text : List Char}
    (hs : s.step eth0 (.client connFd text) = some (s', actions)) : Vouched V s' := by
  obtain ⟨heffect, hconnections, hopen⟩ := ArpNode.step_client hs
  obtain ⟨arpTable, connections⟩ := s'
  dsimp only at heffect hconnections
  subst hconnections
  have haccepted : AnswersRight V (accepted connFd text :: s.connections) := by
    intro c hc macAddr hm
    cases hc with
    | head => cases hm
    | tail _ hc => exact h.answers c hc macAddr hm
  cases heffect with
  | asks hnone hsender hmac =>
    refine ⟨?_, haccepted⟩
    intro entry hm hne
    rcases List.mem_append.mp hm with hm | hm
    · exact h.arpTable entry hm hne
    · -- a placeholder has no MAC address
      rw [List.mem_singleton.mp hm] at hne
      exact absurd rfl hne
  | @answers front entry back hfirst hmac =>
    have hanswered := (hinv.ok.accept (c := accepted connFd text) rfl hopen).answer List.mem_cons_self rfl rfl
      entry.macAddr
    refine ⟨h.arpTable, hanswered.vouched ?_ haccepted⟩
    have hentry := h.arpTable entry hfirst.mem (macAddr_ne_empty hmac)
    rwa [hfirst.ipAddr] at hentry
  | turnsAway hfirst hmac => exact ⟨h.arpTable, haccepted⟩

/-- A new MAC address in the first entry for its sender. -/
theorem Vouched.fill (h : Vouched V s) {ip : List Char} {front back : List ArpEntry} {entry entry' : ArpEntry}
    (hfirst : FirstEntry s.arpTable ip front entry back) (hip : entry'.ipAddr = entry.ipAddr)
    (hV : V ip entry'.macAddr) : TableRight V (front ++ entry' :: back) := by
  intro other hm hne
  rcases eq_or_mem_of_mem_split hm with rfl | hother
  · rwa [hip, hfirst.ipAddr]
  · exact h.arpTable other (hfirst.mem_of_other hother) hne

theorem Vouched.message (h : Vouched V s) (hinv : ConnectionsInv s) {arpMessage : ArpMessage}
    {beyond : ArpEntry → Bool} {sllHatype : Nat} {sllIfindex : Int}
    (hV : V (ipNtop arpMessage.senderIp) arpMessage.senderMac)
    (hs : s.step eth0 (.message arpMessage beyond sllHatype sllIfindex) = some (s', actions)) :
    Vouched V s' := by
  obtain ⟨heffect, hconnections⟩ := ArpNode.step_message hs
  obtain ⟨arpTable, connections⟩ := s'
  dsimp only at heffect hconnections
  subst hconnections
  cases heffect with
  | ignores hnone => exact ⟨h.arpTable, h.answers.reply _⟩
  | replies hnot hdest hnew hframe =>
    refine ⟨?_, h.answers.reply _⟩
    intro entry hm hne
    rcases List.mem_append.mp hm with hm | hm
    · exact h.arpTable entry hm hne
    · obtain ⟨hip, hmac, -⟩ := hnew entry hm
      rwa [hip, hmac]
  | fills hfirst hip hmac hnone hfd => exact ⟨h.fill hfirst hip (by rwa [hmac]), h.answers.reply _⟩
  | @answers front entry back entry' hfirst hip hmac hwaits hfd =>
    obtain ⟨c, hc, hcfd, hcip, hcops⟩ := hinv.waiting entry hfirst.mem hwaits
    have hanswered := hinv.ok.answer hc hcfd hcops arpMessage.senderMac
    have hright : V c.ip arpMessage.senderMac := by rwa [hcip, hfirst.ipAddr]
    exact ⟨h.fill hfirst hip (by rwa [hmac]), (hanswered.vouched hright h.answers).reply _⟩

/-! ## The network -/

variable {lan : Lan ι}

/-- Every MAC address in a table, in an answer or in the signature of a frame is its owner's. -/
structure AgreedInv (lan : Lan ι) (s : ArpNetwork ι) : Prop where
  connections : ∀ n, ConnectionsInv (s.nodes n)
  vouched : ∀ n, Vouched lan.Owns (s.nodes n)
  signed : ∀ frame ∈ s.frames, lan.Owns (ipNtop frame.arpMessage.senderIp) frame.arpMessage.senderMac

variable [DecidableEq ι]

theorem AgreedInv.put {s : ArpNetwork ι} (h : AgreedInv lan s) {n : ι} {e : ArpEvent} {node : ArpNode}
    {actions : List Action} (hs : (s.nodes n).step (lan.eth0 n) e = some (node, actions))
    (hconnections : ConnectionsInv node) (hvouched : Vouched lan.Owns node) :
    AgreedInv lan (s.put n node actions) where
  connections := (Function.forall_update_iff s.nodes (p := fun _ => ConnectionsInv)).mpr
    ⟨hconnections, fun m _ => h.connections m⟩
  vouched := (Function.forall_update_iff s.nodes (p := fun _ => Vouched lan.Owns)).mpr
    ⟨hvouched, fun m _ => h.vouched m⟩
  signed frame hm := by
    rcases List.mem_append.mp hm with hm | hm
    · exact h.signed frame hm
    · obtain ⟨action, haction, hframe⟩ := List.mem_filterMap.mp hm
      obtain rfl : action = .send frame := by
        cases action with
        | send sent => rw [Option.some.inj hframe]
        | write | close => cases hframe
      obtain ⟨hip, hmac⟩ := ArpNode.step_signs (rfl : (lan.eth0 n).ipAddr = ipNtop (lan.ip n)) hs haction
      exact ⟨n, by rw [hip], hmac.symm⟩

theorem agreedInv_of_reachable {s : ArpNetwork ι} (h : (arpNetworkMachine lan).Reachable s) :
    AgreedInv lan s := by
  refine h.invariant ?_ ?_
  · exact {
      connections := fun n => connectionsInv_of_reachable (Machine.Reachable.start (M := arpMachine (lan.eth0 n)))
      vouched := fun n => .start
      signed := by simp [arpNetworkMachine] }
  · intro s e s' hs hstep
    simp only [arpNetworkMachine, Option.bind_eq_bind, Option.bind_eq_some_iff, Option.some.injEq] at hstep
    obtain ⟨⟨n, event⟩, hlocal, ⟨node, actions⟩, hnode, rfl⟩ := hstep
    have hconnections := hs.connections n
    have hvouched := hs.vouched n
    cases e with
    | client m connFd text =>
      simp only [ArpNetwork.local?, Option.some.injEq, Prod.mk.injEq] at hlocal
      obtain ⟨rfl, rfl⟩ := hlocal
      exact hs.put hnode (hconnections.client hnode) (hvouched.client hconnections hnode)
    | deliver frame m beyond sllHatype sllIfindex =>
      simp only [ArpNetwork.local?, Option.ite_none_right_eq_some, Option.some.injEq, Prod.mk.injEq] at hlocal
      obtain ⟨hm, rfl, rfl⟩ := hlocal
      exact hs.put hnode (hconnections.message hnode) (hvouched.message hconnections (hs.signed frame hm) hnode)

/-- **ARP agreement.** However frames are lost, delayed, duplicated or reordered, at every node
each MAC address in the table is that of the node whose address the entry is for, and each MAC
address written to a client is that of the node it asked for. -/
theorem agreed_of_reachable {s : ArpNetwork ι} (h : (arpNetworkMachine lan).Reachable s) (n : ι) :
    Vouched lan.Owns (s.nodes n) :=
  (agreedInv_of_reachable h).vouched n

def exampleLan : Lan (Fin 2) where
  ip n := if n = 0 then #v[130, 245, 156, 23] else #v[130, 245, 156, 24]
  macAddr n := if n = 0 then #v[0x00, 0x0c, 0x29, 0x49, 0x3f, 0x6f] else #v[0x00, 0x0c, 0x29, 0x49, 0x3f, 0x79]
  interfaceNum _ := 2
  ip_injective := by
    unfold Function.Injective
    decide

/-- A client of node 0 asks for node 1; the request arrives there, and the reply arrives. -/
theorem agreed_of_reachable_two : ∃ s : ArpNetwork (Fin 2),
    (s.nodes 0).connections.map (·.ops) = [[.write (exampleLan.macAddr 1), .close]] ∧
      Vouched exampleLan.Owns (s.nodes 0) := by
  let request := requestMessage (exampleLan.eth0 0) (exampleLan.ip 1) (exampleLan.ip 0)
  let reply := replyMessage (exampleLan.eth0 1) request
  obtain ⟨s, hs, htest⟩ := Machine.reachable_of_exec_any (M := arpNetworkMachine exampleLan)
    [.client 0 4 (ipNtop (exampleLan.ip 1)),
      .deliver { destMac := request.targetMac, srcMac := request.senderMac, ifIndex := 2, arpMessage := request }
        1 (fun _ => false) 1 2,
      .deliver { destMac := reply.targetMac, srcMac := reply.senderMac, ifIndex := 2, arpMessage := reply }
        0 (fun _ => false) 1 2]
    (fun s => (s.nodes 0).connections.map (·.ops) = [[.write (exampleLan.macAddr 1), .close]]) (by decide +kernel)
  exact ⟨s, of_decide_eq_true htest, agreed_of_reachable hs 0⟩

end Sockets.Arp
