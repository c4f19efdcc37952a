/-
The table of the ARP module, as it fills. Entries are put in at two places,
under two tests: a client's question looks for the address, a request for
this node looks for the pair of addresses. So an address has two entries
when its node asks while the MAC address in its first entry is another one,
that of an unanswered question say; and neither place looks at the size of
the array.

To say so the node is let go on past the end of the array, where the entry
is counted, whatever it is written over (`countEntry`). Up to there it is
the node as it is (`onClient_iff`, `onArpMessage_iff`).
-/
import Mathlib.Data.List.Dedup
import Sockets.Arp.Connections

namespace Sockets.Arp

open Odr (Mac checkAddressNotEmpty)

/-- An entry is counted wherever it is written. -/
def countEntry (arpTable : List ArpEntry) (arpEntry : ArpEntry) : Option (List ArpEntry) :=
  some (arpTable ++ [arpEntry])

/-- The table of a node that goes on past the end of its array. -/
def tableMachine (eth0 : Interface) : Machine (List ArpEntry) ArpEvent where
  init := []
  step arpTable
    | .client connFd text => (onClientWith countEntry eth0 arpTable connFd text).map (·.1)
    | .message arpMessage beyond sllHatype sllIfindex =>
      (onArpMessageWith countEntry eth0 arpTable beyond sllHatype sllIfindex arpMessage).map (·.1)

/-- The entries are in the array, and are for different addresses. -/
structure TableOk (arpTable : List ArpEntry) : Prop where
  le : arpTable.length ≤ arpTableSize
  distinct : (arpTable.map (·.ipAddr)).Nodup

/-- The address an event brings: one a client asks for, or the sender's of a request for this node. -/
def heard (eth0 : Interface) : ArpEvent → Option (List Char)
  | .client _ text => some (askedIp text)
  | .message arpMessage .. =>
    if arpMessage.op = opRequest ∧ checkIsDestNode eth0 arpMessage.targetIp = true then
      some (ipNtop arpMessage.senderIp)
    else none

/-- The different addresses that come up in a run. -/
def addresses (eth0 : Interface) (es : List ArpEvent) : List (List Char) := (es.filterMap (heard eth0)).dedup

/-- A request for this node comes from an address without an entry, or with one for its pair. -/
def SenderKnown (eth0 : Interface) (arpTable : List ArpEntry) (e : ArpEvent) (_ : List ArpEntry) : Prop :=
  match e with
  | .client .. => True
  | .message arpMessage beyond .. =>
    arpMessage.op = opRequest → checkIsDestNode eth0 arpMessage.targetIp = true →
      indexOfIP arpTable (ipNtop arpMessage.senderIp) ≠ none →
        checkEntryExist beyond arpTable arpMessage.senderIp arpMessage.senderMac ≠ none

/-! ## The node as it is -/

section

variable {eth0 : Interface} {arpTable table' : List ArpEntry} {actions : List Action}

theorem pushEntry_iff {arpEntry : ArpEntry} : pushEntry arpTable arpEntry = some table' ↔
    countEntry arpTable arpEntry = some table' ∧ table'.length ≤ arpTableSize := by
  simp only [pushEntry, countEntry, Option.ite_none_right_eq_some, Option.some.injEq]
  constructor
  · intro hstep
    obtain ⟨hroom, he⟩ := hstep
    refine ⟨he, ?_⟩
    rw [← he, List.length_append, List.length_singleton]
    omega
  · intro hstep
    obtain ⟨he, hle⟩ := hstep
    rw [← he, List.length_append, List.length_singleton] at hle
    exact ⟨by omega, he⟩

/-- A result with a table that fits. -/
theorem fits_iff {arpTable : List ArpEntry} {actions' : List Action} (h : arpTable.length ≤ arpTableSize) :
    some (arpTable, actions') = some (table', actions) ↔
      some (arpTable, actions') = some (table', actions) ∧ table'.length ≤ arpTableSize := by
  refine (and_iff_left_of_imp ?_).symm
  intro hsame
  simp only [Option.some.injEq, Prod.mk.injEq] at hsame
  exact hsame.1 ▸ h

/-- As long as the entries are in the array it is one node. -/
theorem onClient_iff (h : arpTable.length ≤ arpTableSize) {connFd : Nat} {text : List Char} :
    onClient eth0 arpTable connFd text = some (table', actions) ↔
      onClientWith countEntry eth0 arpTable connFd text = some (table', actions) ∧
        table'.length ≤ arpTableSize := by
  unfold onClient onClientWith
  dsimp only
  split
  · simp
  cases indexOfIP arpTable (Odr.cString (text.take ipAddrSize)) with
  | none =>
    simp only [Option.bind_eq_bind, Option.bind_eq_some_iff, pushEntry_iff, Option.some.injEq, Prod.mk.injEq]
    constructor
    · intro hstep
      obtain ⟨pushed, ⟨hcount, hle⟩, targetIp, htarget, senderIp, hsender, he, hactions⟩ := hstep
      exact ⟨⟨pushed, hcount, targetIp, htarget, senderIp, hsender, he, hactions⟩, he ▸ hle⟩
    · intro hstep
      obtain ⟨⟨pushed, hcount, targetIp, htarget, senderIp, hsender, he, hactions⟩, hle⟩ := hstep
      exact ⟨pushed, ⟨hcount, he ▸ hle⟩, targetIp, htarget, senderIp, hsender, he, hactions⟩
  | some index =>
    dsimp only
    split
    · exact fits_iff h
    · exact fits_iff h

theorem onArpMessage_iff (h : arpTable.length ≤ arpTableSize) {arpMessage : ArpMessage}
    {beyond : ArpEntry → Bool} {sllHatype : Nat} {sllIfindex : Int} :
    onArpMessage eth0 arpTable beyond sllHatype sllIfindex arpMessage = some (table', actions) ↔
      onArpMessageWith countEntry eth0 arpTable beyond sllHatype sllIfindex arpMessage = some (table', actions) ∧
        table'.length ≤ arpTableSize := by
  unfold onArpMessage onArpMessageWith
  dsimp only
  split
  · split
    · split
      · simp only [Option.bind_eq_bind, Option.bind_eq_some_iff, pushEntry_iff, Option.some.injEq, Prod.mk.injEq]
        constructor
        · intro hstep
          obtain ⟨pushed, ⟨hcount, hle⟩, he, hactions⟩ := hstep
          exact ⟨⟨pushed, hcount, he, hactions⟩, he ▸ hle⟩
        · intro hstep
          obtain ⟨⟨pushed, hcount, he, hactions⟩, hle⟩ := hstep
          exact ⟨pushed, ⟨hcount, he ▸ hle⟩, he, hactions⟩
      · exact fits_iff h
    · exact fits_iff h
  split
  · cases indexOfIP arpTable (ipNtop arpMessage.senderIp) with
    | none => exact fits_iff h
    | some index =>
      dsimp only
      split
      · exact fits_iff (by simpa using h)
      · exact fits_iff (by simpa using h)
  · exact fits_iff h

end

/-! ## The addresses in the table -/

/-- The texts of the addresses the entries are for. -/
def texts (arpTable : List ArpEntry) : List (List Char) := arpTable.map (·.ipAddr)

variable {eth0 : Interface} {arpTable table' : List ArpEntry} {e : ArpEvent}

theorem mem_texts_iff {ip : List Char} : ip ∈ texts arpTable ↔ indexOfIP arpTable ip ≠ none := by
  rw [texts, List.mem_map, Ne, indexOfIP, List.findIdx?_eq_none_iff]
  simp

/-- Filling in an entry leaves its address. -/
theorem texts_set {index : Nat} {entry : ArpEntry} (h : entry.ipAddr = (arpTable.getD index {}).ipAddr) :
    texts (arpTable.set index entry) = texts arpTable := by
  refine List.ext_getElem (by simp [texts]) ?_
  intro i hi hi'
  simp only [texts, List.getElem_map, List.getElem_set]
  split
  next hindex =>
    subst hindex
    have hlt : index < arpTable.length := by simpa [texts] using hi'
    rw [h, List.getD_eq_getElem _ _ hlt]
  next => rfl

/-- What an event puts in the table: an entry for the address it brings, if none or, where a
request does not look for it, not the same is there. -/
inductive TableEffect (eth0 : Interface) (arpTable : List ArpEntry) (e : ArpEvent) (table' : List ArpEntry) : Prop
  | keeps (hsame : texts table' = texts arpTable) (hthere : ∀ ip ∈ heard eth0 e, ip ∈ texts arpTable)
      (hknown : SenderKnown eth0 arpTable e table')
  | puts {ip} (hheard : heard eth0 e = some ip) (hput : texts table' = texts arpTable ++ [ip])
      (hknown : SenderKnown eth0 arpTable e table' ↔ ip ∉ texts arpTable)

theorem checkEntryExist_mem {beyond : ArpEntry → Bool} {ip : Ipv4} {macAddr : Mac}
    (h : checkEntryExist beyond arpTable ip macAddr ≠ none) : ipNtop ip ∈ texts arpTable := by
  obtain ⟨index, hindex⟩ := Option.ne_none_iff_exists'.mp h
  obtain ⟨hlt, hmatch, -⟩ := List.findIdx?_eq_some_iff_getElem.mp hindex
  have hip : arpTable[index].ipAddr = ipNtop ip := (of_decide_eq_true hmatch).1
  exact List.mem_map.mpr ⟨_, List.getElem_mem hlt, hip⟩

theorem onClientWith_effect {connFd : Nat} {text : List Char}
    (h : (tableMachine eth0).step arpTable (.client connFd text) = some table') :
    TableEffect eth0 arpTable (.client connFd text) table' := by
  simp only [tableMachine, onClientWith, Option.map_eq_some_iff, Prod.exists, exists_and_right,
    exists_eq_right] at h
  obtain ⟨actions, h⟩ := h
  split at h
  · cases h
  split at h
  next hnone =>
    simp only [countEntry, Option.bind_eq_bind, Option.bind_some, Option.bind_eq_some_iff, Option.some.injEq,
      Prod.mk.injEq] at h
    obtain ⟨targetIp, -, senderIp, -, rfl, -⟩ := h
    have hheard : heard eth0 (.client connFd text) = some (askedIp text) := rfl
    refine .puts hheard (by simp [texts, askedIp]) ?_
    refine iff_of_true trivial ?_
    rw [mem_texts_iff]
    exact not_not_intro hnone
  next index hindex =>
    have hthere : askedIp text ∈ texts arpTable := by
      rw [mem_texts_iff]
      exact hindex ▸ Option.some_ne_none index
    split at h <;>
    · simp only [Option.some.injEq, Prod.mk.injEq] at h
      obtain ⟨rfl, -⟩ := h
      exact .keeps rfl (by simpa [heard] using hthere) trivial

theorem onArpMessageWith_effect {arpMessage : ArpMessage} {beyond : ArpEntry → Bool} {sllHatype : Nat}
    {sllIfindex : Int}
    (h : (tableMachine eth0).step arpTable (.message arpMessage beyond sllHatype sllIfindex) = some table') :
    TableEffect eth0 arpTable (.message arpMessage beyond sllHatype sllIfindex) table' := by
  simp only [tableMachine, onArpMessageWith, Option.map_eq_some_iff, Prod.exists, exists_and_right,
    exists_eq_right] at h
  obtain ⟨actions, h⟩ := h
  split at h
  next hrequest =>
    split at h
    next hdest =>
      have hheard : heard eth0 (.message arpMessage beyond sllHatype sllIfindex) =
          some (ipNtop arpMessage.senderIp) := if_pos ⟨hrequest, hdest⟩
      split at h
      next hnone =>
        simp only [countEntry, Option.bind_eq_bind, Option.bind_some, Option.some.injEq, Prod.mk.injEq] at h
        obtain ⟨rfl, -⟩ := h
        refine .puts hheard (by simp [texts]) ?_
        rw [mem_texts_iff]
        simp only [SenderKnown, hrequest, hdest, hnone, ne_eq, not_true_eq_false, imp_false, true_implies]
      next hfound =>
        simp only [Option.bind_eq_bind, Option.bind_some, Option.some.injEq, Prod.mk.injEq] at h
        obtain ⟨rfl, -⟩ := h
        refine .keeps rfl ?_ fun _ _ _ => hfound
        intro ip hip
        rw [hheard, Option.mem_def, Option.some.injEq] at hip
        exact hip ▸ checkEntryExist_mem hfound
    next hother =>
      simp only [Option.some.injEq, Prod.mk.injEq] at h
      obtain ⟨rfl, -⟩ := h
      refine .keeps rfl ?_ fun _ hdest => absurd hdest hother
      simp [heard, hother]
  next hnot =>
    have hnone : ∀ ip ∈ heard eth0 (.message arpMessage beyond sllHatype sllIfindex), ip ∈ texts arpTable := by
      simp [heard, hnot]
    split at h
    · split at h
      · simp only [Option.some.injEq, Prod.mk.injEq] at h
        obtain ⟨rfl, -⟩ := h
        exact .keeps rfl hnone fun hrequest => absurd hrequest hnot
      · split at h <;>
        · simp only [Option.some.injEq, Prod.mk.injEq] at h
          obtain ⟨rfl, -⟩ := h
          exact .keeps (texts_set rfl) hnone fun hrequest => absurd hrequest hnot
    · simp only [Option.some.injEq, Prod.mk.injEq] at h
      obtain ⟨rfl, -⟩ := h
      exact .keeps rfl hnone fun hrequest => absurd hrequest hnot

theorem table_effect (h : (tableMachine eth0).step arpTable e = some table') :
    TableEffect eth0 arpTable e table' := by
  cases e with
  | client => exact onClientWith_effect h
  | message => exact onArpMessageWith_effect h

/-! ## Runs -/

/-- The addresses stay different exactly if the sender of a request is known. -/
theorem TableEffect.distinct_iff (h : TableEffect eth0 arpTable e table') (hd : (texts arpTable).Nodup) :
    (texts table').Nodup ↔ SenderKnown eth0 arpTable e table' := by
  cases h with
  | keeps hsame hthere hknown =>
    rw [hsame]
    exact iff_of_true hd hknown
  | puts hheard hput hknown =>
    rw [hput, hknown, List.nodup_append_comm, List.singleton_append, List.nodup_cons]
    exact and_iff_left hd

theorem TableEffect.mem_iff (h : TableEffect eth0 arpTable e table') (ip : List Char) :
    ip ∈ texts table' ↔ heard eth0 e = some ip ∨ ip ∈ texts arpTable := by
  cases h with
  | keeps hsame hthere hknown =>
    rw [hsame]
    exact (or_iff_right_of_imp (hthere ip)).symm
  | puts hheard hput hknown =>
    rw [hput, hheard, List.mem_append, List.mem_singleton, Option.some.injEq, or_comm, eq_comm]

theorem TableEffect.length_le (h : TableEffect eth0 arpTable e table') : arpTable.length ≤ table'.length := by
  have hlength {t : List ArpEntry} : t.length = (texts t).length := by simp [texts]
  rw [hlength, hlength]
  cases h with
  | keeps hsame hthere hknown => rw [hsame]
  | puts hheard hput hknown =>
    rw [hput, List.length_append]
    omega

variable {es : List ArpEvent}

/-- Along a run in which senders are known, the addresses in the table are those that came up. -/
theorem texts_of_run (hd : (texts arpTable).Nodup) (ha : (tableMachine eth0).Along (SenderKnown eth0) arpTable es)
    (hr : (tableMachine eth0).exec arpTable es = some table') :
    (texts table').Nodup ∧ ∀ ip, ip ∈ texts table' ↔ ip ∈ es.filterMap (heard eth0) ∨ ip ∈ texts arpTable := by
  induction es generalizing arpTable with
  | nil =>
    simp only [Machine.exec_nil, Option.some.injEq] at hr
    subst hr
    simpa using hd
  | cons e es ih =>
    obtain ⟨next, hs, hr⟩ := Machine.exec_cons_iff.mp hr
    obtain ⟨hknown, ha⟩ := ha next hs
    have heffect := table_effect hs
    obtain ⟨hnodup, hmem⟩ := ih ((heffect.distinct_iff hd).mpr hknown) ha hr
    refine ⟨hnodup, ?_⟩
    intro ip
    rw [hmem, heffect.mem_iff, List.mem_filterMap, List.mem_filterMap]
    simp only [List.mem_cons, exists_eq_or_imp]
    rw [or_left_comm, or_assoc]

theorem length_le_of_run (hr : (tableMachine eth0).exec arpTable es = some table') :
    arpTable.length ≤ table'.length :=
  Machine.exec_invariant (I := fun t => arpTable.length ≤ t.length)
    (fun _ _ _ hle hs => hle.trans (table_effect hs).length_le) (le_refl _) hr

/-- A run that ends with a table that fits had one that fits throughout. -/
theorem tableOk_of_run (hd : (texts arpTable).Nodup) (ha : (tableMachine eth0).Along (SenderKnown eth0) arpTable es)
    (hr : (tableMachine eth0).exec arpTable es = some table') (hle : table'.length ≤ arpTableSize) :
    (tableMachine eth0).Along (fun _ _ t => TableOk t) arpTable es := by
  induction es generalizing arpTable with
  | nil => trivial
  | cons e es ih =>
    intro next hs
    obtain ⟨after, hs', hr⟩ := Machine.exec_cons_iff.mp hr
    obtain rfl : next = after := Option.some.inj (hs.symm.trans hs')
    obtain ⟨hknown, ha⟩ := ha next hs
    have hdistinct : (texts next).Nodup := ((table_effect hs).distinct_iff hd).mpr hknown
    exact ⟨{ le := (length_le_of_run hr).trans hle, distinct := hdistinct }, ih hdistinct ha hr⟩

/-- **The table, exactly.** Along a run the entries are in the array and for different addresses, if
and only if the sender of each request for the node is known, and no more than twenty different
addresses come up. -/
theorem tableOk_along_iff (eth0 : Interface) {es : List ArpEvent} {table' : List ArpEntry}
    (h : (tableMachine eth0).exec [] es = some table') :
    (tableMachine eth0).Along (fun _ _ t => TableOk t) [] es ↔
      (tableMachine eth0).Along (SenderKnown eth0) [] es ∧ (addresses eth0 es).length ≤ arpTableSize := by
  have hstart : (texts []).Nodup := List.nodup_nil
  have hlength (ha : (tableMachine eth0).Along (SenderKnown eth0) [] es) :
      (addresses eth0 es).length = table'.length := by
    obtain ⟨hnodup, hmem⟩ := texts_of_run hstart ha h
    have hperm : (addresses eth0 es).Perm (texts table') := by
      refine (List.perm_ext_iff_of_nodup (List.nodup_dedup _) hnodup).mpr ?_
      intro ip
      rw [List.mem_dedup, hmem]
      simp [texts]
    rw [hperm.length_eq, texts, List.length_map]
  constructor
  · intro hok
    have ha : (tableMachine eth0).Along (SenderKnown eth0) [] es :=
      Machine.Along.of_guard (I := fun t => (texts t).Nodup)
        (fun t e t' hd hs hok => ⟨((table_effect hs).distinct_iff hd).mp hok.distinct, hok.distinct⟩)
        hstart hok
    have hfinal : TableOk table' := hok.final ⟨Nat.zero_le _, hstart⟩ h
    exact ⟨ha, (hlength ha).trans_le hfinal.le⟩
  · intro hstep
    obtain ⟨ha, hfew⟩ := hstep
    exact tableOk_of_run hstart ha h ((hlength ha).symm.trans_le hfew)

/-- The request of node 130.245.156.26 for node 130.245.156.25. -/
def exampleRequest : ArpEvent :=
  let eth0 : Interface := {
    macAddr := #v[0x08, 0x00, 0x27, 0x49, 0x3f, 0x66]
    ipAddr := "130.245.156.26".toList
    interfaceNum := 2 }
  .message (requestMessage eth0 #v[130, 245, 156, 25] #v[130, 245, 156, 26]) (fun _ => false) 1 2

def exampleTarget : Interface := { exampleInterface with ipAddr := "130.245.156.25".toList }

/-- Three clients, one of them for an address that is known from a request. -/
def exampleRun : List ArpEvent :=
  [.client 4 "130.245.156.21".toList, exampleRequest, .client 5 "130.245.156.22".toList,
    .client 6 "130.245.156.26".toList]

theorem tableOk_along_iff_three :
    (tableMachine exampleTarget).Along (fun _ _ t => TableOk t) [] exampleRun ↔
      (tableMachine exampleTarget).Along (SenderKnown exampleTarget) [] exampleRun ∧
        (addresses exampleTarget exampleRun).length ≤ arpTableSize := by
  have hrun : ((tableMachine exampleTarget).exec [] exampleRun).any (fun t => t.length = 3) = true := by
    decide +kernel
  obtain ⟨table', h, -⟩ := (Option.any_eq_true _ _).mp hrun
  exact tableOk_along_iff exampleTarget h

/-- A client asks for the address of a node that then asks for this one: the address has two entries. -/
theorem not_tableOk : ∃ table', (tableMachine exampleTarget).exec []
    [.client 4 "130.245.156.26".toList, exampleRequest] = some table' ∧ ¬ TableOk table' := by
  have hrun : ((tableMachine exampleTarget).exec [] [.client 4 "130.245.156.26".toList, exampleRequest]).any
      (fun t => texts t = ["130.245.156.26".toList, "130.245.156.26".toList]) = true := by decide +kernel
  obtain ⟨table', h, htexts⟩ := (Option.any_eq_true _ _).mp hrun
  refine ⟨table', h, ?_⟩
  intro hok
  have hdistinct : (texts table').Nodup := hok.distinct
  rw [of_decide_eq_true htexts] at hdistinct
  exact absurd hdistinct (by decide)

end Sockets.Arp
