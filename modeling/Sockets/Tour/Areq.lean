/-
`areq`, over the ARP modules of all nodes. The tour asks the module of its
own node for the MAC address of a host, waits for five seconds, and takes
what it has then, or else what its buffer had, for the address.

However frames are lost, delayed, duplicated or reordered, and whatever other
clients the modules have, an answer is the address of the host that was asked
for. But a call that is turned away has no answer, whatever comes later: it
waits for its timeout (`areq_answers`).
-/
import Sockets.Arp.Agreement
import Sockets.Arp.Lookup
import Sockets.Arp.TurnedAway
import Sockets.Tour.Node

namespace Sockets.Tour

open Arp (ArpEvent ArpNetwork ArpNetworkEvent Ipv4 Lan arpNetworkMachine askedIp ipNtop)
open Odr (Mac)

abbrev dstIpSize : Nat := 20

/-- The array that a host name is resolved into; without a host it keeps what it had. -/
def hostnameToIp (uninit : List.Vector Char dstIpSize) : Option Ipv4 → Option (List.Vector Char dstIpSize)
  | some ip => putString '\x00' uninit (ipNtop ip)
  | none => some uninit

/-- What a call has for the MAC address. -/
inductive Outcome
  | waits
  | answered (dstMac : Mac)
  | timedOut (dstMac : Mac)
deriving DecidableEq

/-- A call of `areq` at a node, for vm `k`, on the connection of this number; `turnedAway` is whether the
module turned it away. -/
structure AreqCall (ι : Type) where
  node : ι
  k : Int
  connection : Nat
  turnedAway : Bool
  outcome : Outcome := .waits

structure AreqNetwork (ι : Type) where
  arp : ArpNetwork ι
  calls : List (AreqCall ι)

inductive AreqEvent (ι : Type)
  /-- anything else that the modules do, for other clients too -/
  | arp (event : ArpNetworkEvent ι)
  /-- a call at node `n`, whose connection the module accepts with this descriptor -/
  | areq (n : ι) (k : Int) (connFd : Nat) (uninit : List.Vector Char dstIpSize)
  /-- the socket of a call is readable -/
  | readable (i : Nat)
  /-- it was not for five seconds; `buf` was not written to -/
  | timeout (i : Nat) (buf : Mac)

variable {ι : Type} [DecidableEq ι]

/-- What was written to the socket of a call. -/
def AreqNetwork.written? (s : AreqNetwork ι) (call : AreqCall ι) : Option Mac :=
  ((s.arp.nodes call.node).connection? call.connection).bind (·.written?)

def AreqNetwork.finish (s : AreqNetwork ι) (i : Nat) (call : AreqCall ι) (outcome : Outcome) : AreqNetwork ι :=
  { s with calls := s.calls.set i { call with outcome } }

/-- The tour at each node over its module; `gethostbyname` is the node that a vm is. -/
def areqMachine (lan : Lan ι) (gethostbyname : Int → Option ι) : Machine (AreqNetwork ι) (AreqEvent ι) where
  init := { arp := (arpNetworkMachine lan).init, calls := [] }
  step s
    | .arp event => ((arpNetworkMachine lan).step s.arp event).map fun arp => { s with arp }
    | .areq n k connFd uninit => do
      let dstIp ← hostnameToIp uninit ((gethostbyname k).map lan.ip)
      let arp ← (arpNetworkMachine lan).step s.arp (.client n connFd dstIp.toList)
      some { arp, calls := s.calls ++ [{
        node := n
        k
        connection := (s.arp.nodes n).connections.length
        turnedAway := (s.arp.nodes n).turnsAway (askedIp dstIp.toList) }] }
    | .readable i => do
      let call ← s.calls[i]?
      let dstMac ← s.written? call
      match call.outcome with
      | .waits => some (s.finish i call (.answered dstMac))
      | .answered _ | .timedOut _ => none
    | .timeout i buf => do
      let call ← s.calls[i]?
      match call.outcome, s.written? call with
      | .waits, none => some (s.finish i call (.timedOut buf))
      | _, _ => none

/-- An answer is the MAC address of the node that the vm is; and a call that was turned away has none. -/
structure AreqCall.Right (lan : Lan ι) (gethostbyname : Int → Option ι) (call : AreqCall ι) : Prop where
  owner : ∀ dstMac, call.outcome = .answered dstMac → ∀ m, gethostbyname call.k = some m → dstMac = lan.macAddr m
  away : call.turnedAway = true → ∀ dstMac, call.outcome ≠ .answered dstMac

omit [DecidableEq ι] in
theorem AreqCall.right_of_unanswered {lan : Lan ι} {gethostbyname : Int → Option ι} {call : AreqCall ι}
    (h : ∀ dstMac, call.outcome ≠ .answered dstMac) : call.Right lan gethostbyname :=
  ⟨fun dstMac hanswered => absurd hanswered (h dstMac), fun _ => h⟩

/-- The connection of a call asks for the address of the vm, and is ignored if it was turned away. -/
structure CallInv (lan : Lan ι) (gethostbyname : Int → Option ι) (arp : ArpNetwork ι) (call : AreqCall ι) : Prop where
  connection : ∃ c, (arp.nodes call.node).connection? call.connection = some c ∧
    (∀ m, gethostbyname call.k = some m → c.ip = ipNtop (lan.ip m)) ∧
    (call.turnedAway = true → Arp.Ignored (arp.nodes call.node) c)
  right : call.Right lan gethostbyname

variable {lan : Lan ι} {gethostbyname : Int → Option ι} {arp arp' : ArpNetwork ι}

/-- A step of the modules is a step of one of them. -/
theorem nodes_of_step {event : ArpNetworkEvent ι} (h : (arpNetworkMachine lan).step arp event = some arp') :
    ∃ n e node actions, arp.local? event = some (n, e) ∧ (arp.nodes n).step (lan.eth0 n) e = some (node, actions) ∧
      arp'.nodes = Function.update arp.nodes n node := by
  simp only [arpNetworkMachine, Option.bind_eq_bind, Option.bind_eq_some_iff, Option.some.injEq] at h
  obtain ⟨⟨n, e⟩, hlocal, ⟨node, actions⟩, hstep, rfl⟩ := h
  exact ⟨n, e, node, actions, hlocal, hstep, rfl⟩

/-- What the modules do leaves a call as it was. -/
theorem CallInv.step {call : AreqCall ι} (h : CallInv lan gethostbyname arp call) {event : ArpNetworkEvent ι}
    (hs : (arpNetworkMachine lan).step arp event = some arp') : CallInv lan gethostbyname arp' call := by
  obtain ⟨n, e, node, actions, -, hstep, hnodes⟩ := nodes_of_step hs
  obtain ⟨c, hc, hip, haway⟩ := h.connection
  refine ⟨?_, h.right⟩
  rw [hnodes]
  by_cases hn : call.node = n
  · subst hn
    obtain ⟨c', hc', hremains⟩ := Arp.ArpNode.step_remains hstep hc
    rw [Function.update_self]
    refine ⟨c', hc', ?_, ?_⟩
    · intro m hm
      rw [hremains.ip]
      exact hip m hm
    · intro hturned
      exact hremains.ignored (haway hturned)
  · rw [Function.update_of_ne hn]
    exact ⟨c, hc, hip, haway⟩

/-- The text that is sent for a host is read as its address. -/
theorem askedIp_hostnameToIp {uninit dstIp : List.Vector Char dstIpSize} {ip : Ipv4}
    (h : hostnameToIp uninit (some ip) = some dstIp) : askedIp dstIp.toList = ipNtop ip := by
  obtain ⟨a, hput, ha⟩ := putString_holds uninit (Arp.nul_notMem_ipNtop ip) (Arp.length_ipNtop ip)
  obtain rfl : a = dstIp := Option.some.inj (hput.symm.trans h)
  have hlen : a.toList.length ≤ Arp.ipAddrSize := by rw [a.toList_length]; decide
  rw [askedIp, List.take_of_length_le hlen]
  exact ha.stringOf

/-- A call that is made. -/
theorem callInv_areq {n : ι} {k : Int} {connFd : Nat} {uninit dstIp : List.Vector Char dstIpSize}
    (hconnections : Arp.ConnectionsInv (arp.nodes n))
    (hip : hostnameToIp uninit ((gethostbyname k).map lan.ip) = some dstIp)
    (hs : (arpNetworkMachine lan).step arp (.client n connFd dstIp.toList) = some arp') :
    CallInv lan gethostbyname arp' {
      node := n
      k
      connection := (arp.nodes n).connections.length
      turnedAway := (arp.nodes n).turnsAway (askedIp dstIp.toList) } := by
  obtain ⟨m, e, node, actions, hlocal, hstep, hnodes⟩ := nodes_of_step hs
  obtain ⟨rfl, rfl⟩ := Prod.mk.inj (Option.some.inj hlocal)
  obtain ⟨c, hc, hasked, haway⟩ := Arp.ArpNode.step_accepts hconnections hstep
  refine ⟨⟨c, ?_, ?_, ?_⟩, AreqCall.right_of_unanswered ?_⟩
  · show (arp'.nodes n).connection? _ = some c
    rw [hnodes, Function.update_self]
    exact hc
  · intro m hm
    have hm : gethostbyname k = some m := hm
    rw [hm, Option.map_some] at hip
    exact hasked.trans (askedIp_hostnameToIp hip)
  · show _ → Arp.Ignored (arp'.nodes n) c
    rw [hnodes, Function.update_self]
    exact haway
  · intro dstMac hanswered
    cases hanswered

/-- What is written to the connection of a call is an answer to it, and the module did not turn it away. -/
theorem CallInv.written (h : (arpNetworkMachine lan).Reachable arp) {call : AreqCall ι}
    (hcall : CallInv lan gethostbyname arp call) {calls : List (AreqCall ι)} {dstMac : Mac}
    (hwritten : AreqNetwork.written? { arp, calls } call = some dstMac) :
    (∀ m, gethostbyname call.k = some m → dstMac = lan.macAddr m) ∧ call.turnedAway ≠ true := by
  obtain ⟨c, hc, hip, haway⟩ := hcall.connection
  rw [AreqNetwork.written?, hc, Option.bind_some] at hwritten
  have hop := Arp.Connection.mem_of_written? hwritten
  have hmem : c ∈ (arp.nodes call.node).connections := List.mem_reverse.mp (List.mem_of_getElem? hc)
  refine ⟨?_, ?_⟩
  · intro m hm
    have howns : lan.Owns c.ip dstMac := (Arp.agreed_of_reachable h call.node).answers c hmem dstMac hop
    rw [hip m hm] at howns
    exact howns.unique ⟨m, rfl, rfl⟩
  · intro hturned
    rw [(haway hturned).ops] at hop
    cases hop

structure AreqInv (lan : Lan ι) (gethostbyname : Int → Option ι) (s : AreqNetwork ι) : Prop where
  arp : (arpNetworkMachine lan).Reachable s.arp
  calls : ∀ call ∈ s.calls, CallInv lan gethostbyname s.arp call

/-- A call that ends. -/
theorem AreqInv.finish {s : AreqNetwork ι} (h : AreqInv lan gethostbyname s) {i : Nat} {call : AreqCall ι}
    (hcall : s.calls[i]? = some call) {outcome : Outcome}
    (hright : ({ call with outcome } : AreqCall ι).Right lan gethostbyname) :
    AreqInv lan gethostbyname (s.finish i call outcome) := by
  refine ⟨h.arp, ?_⟩
  intro other hother
  rcases List.mem_or_eq_of_mem_set hother with hother | rfl
  · exact h.calls other hother
  · exact ⟨(h.calls call (List.mem_of_getElem? hcall)).connection, hright⟩

theorem areqInv_of_reachable {s : AreqNetwork ι} (h : (areqMachine lan gethostbyname).Reachable s) :
    AreqInv lan gethostbyname s := by
  refine h.invariant ⟨.start, fun call hcall => absurd hcall List.not_mem_nil⟩ ?_
  intro s e s' hs hstep
  cases e with
  | arp event =>
    simp only [areqMachine, Option.map_eq_some_iff] at hstep
    obtain ⟨arp, harp, rfl⟩ := hstep
    exact ⟨hs.arp.next harp, fun call hcall => (hs.calls call hcall).step harp⟩
  | areq n k connFd uninit =>
    simp only [areqMachine, Option.bind_eq_bind, Option.bind_eq_some_iff, Option.some.injEq] at hstep
    obtain ⟨dstIp, hip, arp, harp, rfl⟩ := hstep
    have hconnections := (Arp.agreedInv_of_reachable hs.arp).connections n
    refine ⟨hs.arp.next harp, ?_⟩
    intro call hcall
    rcases List.mem_append.mp hcall with hcall | hcall
    · exact (hs.calls call hcall).step harp
    · rw [List.mem_singleton.mp hcall]
      exact callInv_areq hconnections hip harp
  | readable i =>
    simp only [areqMachine, Option.bind_eq_bind, Option.bind_eq_some_iff] at hstep
    obtain ⟨call, hcall, dstMac, hwritten, hstep⟩ := hstep
    obtain ⟨howner, haway⟩ := (hs.calls call (List.mem_of_getElem? hcall)).written hs.arp hwritten
    split at hstep
    · obtain rfl := Option.some.inj hstep
      refine hs.finish hcall ⟨?_, fun hturned => absurd hturned haway⟩
      intro dstMac' hanswered m hm
      rw [← Outcome.answered.inj hanswered]
      exact howner m hm
    · cases hstep
    · cases hstep
  | timeout i buf =>
    simp only [areqMachine, Option.bind_eq_bind, Option.bind_eq_some_iff] at hstep
    obtain ⟨call, hcall, hstep⟩ := hstep
    split at hstep
    · obtain rfl := Option.some.inj hstep
      refine hs.finish hcall (AreqCall.right_of_unanswered ?_)
      intro dstMac hanswered
      cases hanswered
    · cases hstep

/-- **What `areq` returns.** At every node and in every run, a call that is answered has the MAC address of the
node that the vm is, and a call that was turned away is not answered. -/
theorem areq_answers {s : AreqNetwork ι} (h : (areqMachine lan gethostbyname).Reachable s) {call : AreqCall ι}
    (hcall : call ∈ s.calls) : call.Right lan gethostbyname :=
  ((areqInv_of_reachable h).calls call hcall).right

/-- At node 0 three calls for vm 2, which is node 1: the first times out, the second comes while it is still in
the table. Then the reply arrives, but not for the second; the third is answered from the table. -/
theorem areq_answers_third : ∃ s : AreqNetwork (Fin 2),
    s.calls.map (fun call => (call.turnedAway, call.outcome)) = [(false, .timedOut Mac.empty),
      (true, .timedOut Mac.empty), (false, .answered (Arp.exampleLan.macAddr 1))] ∧
    ∀ call ∈ s.calls, call.Right Arp.exampleLan fun k => if k = 2 then some 1 else none := by
  let request := Arp.requestMessage (Arp.exampleLan.eth0 0) (Arp.exampleLan.ip 1) (Arp.exampleLan.ip 0)
  let reply := Arp.replyMessage (Arp.exampleLan.eth0 1) request
  let uninit : List.Vector Char dstIpSize := .replicate _ 'x'
  obtain ⟨s, hs, htest⟩ := Machine.reachable_of_exec_any
    (M := areqMachine Arp.exampleLan fun k => if k = 2 then some 1 else none)
    [.areq 0 2 4 uninit, .timeout 0 Mac.empty, .areq 0 2 5 uninit,
      .arp (.deliver
        { destMac := request.targetMac, srcMac := request.senderMac, ifIndex := 2, arpMessage := request }
        1 (fun _ => false) 1 2),
      .arp (.deliver { destMac := reply.targetMac, srcMac := reply.senderMac, ifIndex := 2, arpMessage := reply }
        0 (fun _ => false) 1 2),
      .timeout 1 Mac.empty, .areq 0 2 6 uninit, .readable 2]
    (fun s => s.calls.map (fun call => (call.turnedAway, call.outcome)) = [(false, .timedOut Mac.empty),
      (true, .timedOut Mac.empty), (false, .answered (Arp.exampleLan.macAddr 1))]) (by decide +kernel)
  exact ⟨s, of_decide_eq_true htest, fun call hcall => areq_answers hs hcall⟩

end Sockets.Tour
