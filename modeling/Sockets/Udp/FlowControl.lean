/-
Flow control: the receive window never jams. What is in flight is within
the window the client advertised for it, and `last_seg_acked` only grows, so
every segment that arrives is at most `max_window_size` past what is
printed: a window that is full starts with the very segment the consumer
waits for.

The receive thread's test and insertion are taken as one step here: the
consumer does not run in between (`ConsumerRace` is about what happens when
it does).
-/
import Sockets.Udp.RecvWindow
import Sockets.Udp.SendWindow

namespace Sockets.Udp

/-- What holds of the client's receive window. -/
structure RecvWindow.Ok (maxWindowSize : Int) (w : RecvWindow) : Prop where
  range : ∀ node ∈ w.recvBase,
    w.lastSegAcked < node.sequenceNum ∧ node.sequenceNum ≤ w.lastSegAcked + maxWindowSize
  sorted : SortedBy Segment.sequenceNum w.recvBase
  count : w.numSegInBuf = w.recvBase.length

/-- The consumer does not run between the receive thread's test and its insertion. -/
def TestInsertAtomic (s : Transfer) (e : TransferEvent) (_ : Transfer) : Prop :=
  e = .consumer → ∀ seg initRwnd probe, s.client.recvPc ≠ .insert seg initRwnd probe

/-- A datagram that may be in flight once everything up to `last` is
printed. Without a file all that is sent is the news of it and dummies. -/
structure InWindow (cfg : Config) (last : Int) (seg : Segment) : Prop where
  le : seg.sequenceNum ≤ last + cfg.maxWindowSize
  noFile : cfg.file = none → seg.sequenceNum ≤ last
  file : cfg.file ≠ none → seg.ackNum = 0

/-- What the receive thread knows once everything up to `last` is printed. -/
def flowFacts (cfg : Config) (last : Int) : RecvFacts where
  ackNum ackNum := ackNum ≤ last + 1
  rwnd rwnd := 0 ≤ rwnd ∧ rwnd ≤ cfg.maxWindowSize
  request request := 0 ≤ request.rwnd ∧ request.rwnd ≤ cfg.maxWindowSize ∧
    (¬ 0 < request.isComplete → request.ackNum ≤ last + 1)
  datagram := InWindow cfg last
  tested seg := InWindow cfg last seg ∧ last < seg.sequenceNum

/-- What holds of the two parties and the network while the client runs. -/
structure Flow (cfg : Config) (s : Transfer) : Prop where
  nonneg : 0 ≤ s.client.window.lastSegAcked
  noFile : cfg.file = none → s.client.window.recvBase = []
  holdAt : (flowFacts cfg s.client.window.lastSegAcked).HoldAt s.client.recvPc
  inFlight : ∀ seg ∈ s.data, InWindow cfg s.client.window.lastSegAcked seg
  requests : ∀ request ∈ s.requests, (flowFacts cfg s.client.window.lastSegAcked).request request
  sendBase : ∀ node ∈ s.server.sendBase, InWindow cfg s.client.window.lastSegAcked node
  dummy : s.server.sendBase = [] → s.server.lastSegAcked ≤ s.client.window.lastSegAcked

structure FlowInv (cfg : Config) (s : Transfer) : Prop where
  window : s.client.window.Ok cfg.maxWindowSize
  rwnd : ∀ request ∈ s.requests, 0 ≤ request.rwnd
  flow : s.client.recvPc ≠ .exited → Flow cfg s

namespace RecvWindow.Ok

variable {w w' : RecvWindow} {maxWindowSize : Int}

theorem le_max (h : w.Ok maxWindowSize) (hmax : 1 ≤ maxWindowSize) : w.numSegInBuf ≤ maxWindowSize := by
  have hlen := h.sorted.length_le (by omega) h.range
  have hcount := h.count
  omega

/-- A full window starts with the segment after the last one printed. -/
theorem full (h : w.Ok maxWindowSize) (hmax : 1 ≤ maxWindowSize)
    (hfull : w.numSegInBuf = maxWindowSize) :
    ∃ node rest, w.recvBase = node :: rest ∧ node.sequenceNum = w.lastSegAcked + 1 := by
  have hlen : (w.recvBase.length : Int) = w.lastSegAcked + maxWindowSize - w.lastSegAcked := by
    have hcount := h.count
    omega
  exact h.sorted.head_of_full (by omega) h.range hlen

/-- The segment the consumer waits for always finds room. -/
theorem accepts (h : w.Ok maxWindowSize) (hmax : 1 ≤ maxWindowSize) {seg : Segment}
    (hseg : seg.sequenceNum = w.lastSegAcked + 1) :
    ∃ node ∈ (w.insert maxWindowSize seg).recvBase, node.sequenceNum = w.lastSegAcked + 1 := by
  by_cases hlt : w.numSegInBuf < maxWindowSize
  · rw [insert_of_lt hlt, ← hseg]
    exact exists_key_insertKey Segment.sequenceNum seg w.recvBase
  · have hle := h.le_max hmax
    have hfull : w.numSegInBuf = maxWindowSize := by omega
    obtain ⟨node, rest, hb, hn⟩ := h.full hmax hfull
    rw [insert_of_full hlt]
    exact ⟨node, by simp [hb], hn⟩

theorem insert (h : w.Ok maxWindowSize) {seg : Segment}
    (hseg : w.lastSegAcked < seg.sequenceNum ∧ seg.sequenceNum ≤ w.lastSegAcked + maxWindowSize) :
    (w.insert maxWindowSize seg).Ok maxWindowSize where
  range node hm := by
    rw [insert_lastSegAcked]
    rcases mem_insert hm with rfl | hm
    · exact hseg
    · exact h.range node hm
  sorted := insert_sorted h.sorted
  count := insert_count h.count

theorem printHead (h : w.Ok maxWindowSize) (hp : w.printHead = some w') : w'.Ok maxWindowSize := by
  obtain ⟨node, rest, hb, hn, rfl⟩ := printHead_eq_some hp
  have hs := h.sorted
  have hc := h.count
  rw [hb] at hs hc
  obtain ⟨hlt, hrest⟩ := SortedBy.cons_iff.mp hs
  refine { range := ?_, sorted := hrest, count := ?_ }
  · intro node' hm
    have habove := hlt node' hm
    have hrange := h.range node' (by simp [hb, hm])
    dsimp only
    omega
  · rw [List.length_cons] at hc
    dsimp only
    omega

end RecvWindow.Ok

variable {cfg : Config} {s s' : Transfer}

theorem InWindow.mono {last last' : Int} {seg : Segment} (h : InWindow cfg last seg)
    (hle : last ≤ last') :
    InWindow cfg last' seg where
  le := by
    have hold := h.le
    omega
  noFile hf := (h.noFile hf).trans hle
  file := h.file

/-- A built segment is within the window its number is in. -/
theorem InWindow.of_builtAt {last recvRwnd i : Int} {seg : Segment} (hmax : 1 ≤ cfg.maxWindowSize)
    (hlast : 0 ≤ last) (hle : i ≤ last + cfg.maxWindowSize) (h : BuiltAt cfg.file recvRwnd i seg) :
    InWindow cfg last seg := by
  cases hf : cfg.file with
  | none =>
    obtain ⟨segToSend, now, h⟩ := h
    obtain ⟨-, hseq, -⟩ | ⟨data, head, hd, -⟩ := buildSegment_eq_some h
    · exact { le := by omega, noFile := fun _ => by omega, file := by simp [hf] }
    · simp [hf] at hd
  | some data =>
    rw [hf] at h
    obtain ⟨hchunk, rfl⟩ := isChunk_of_builtAt h
    exact { le := hle, noFile := by simp [hf], file := fun _ => hchunk.ackNum }

theorem flowFacts_le {last last' : Int} (hle : last ≤ last') :
    (flowFacts cfg last).Le (flowFacts cfg last') where
  ackNum ackNum h := by
    simp only [flowFacts] at h ⊢
    omega
  rwnd _ := id
  request request h := ⟨h.1, h.2.1, fun hc => (h.2.2 hc).trans (by omega)⟩
  datagram _ h := h.mono hle

/-! ## One step -/

namespace FlowInv

theorem start (initTime : Int) : FlowInv cfg (transferMachine cfg initTime).init where
  window :=
    { range := by simp [transferMachine, Client.start, RecvWindow.start], sorted := .nil, count := rfl }
  rwnd := by simp [transferMachine]
  flow _ := {
    nonneg := le_refl _
    noFile := fun _ => rfl
    holdAt := trivial
    inFlight := by simp [transferMachine]
    requests := by simp [transferMachine]
    sendBase := by simp [transferMachine, Server.start]
    dummy := fun _ => le_refl _ }

end FlowInv

theorem Flow.timeoutSegment (h : Flow cfg s) (hmax : 1 ≤ cfg.maxWindowSize) (now : Int) :
    InWindow cfg s.client.window.lastSegAcked (s.server.timeoutSegment now) := by
  unfold Server.timeoutSegment
  cases hb : s.server.sendBase with
  | cons node rest =>
    have hnode := h.sendBase node (by simp [hb])
    exact { le := hnode.le, noFile := hnode.noFile, file := hnode.file }
  | nil =>
    have hdummy := h.dummy hb
    exact { le := by dsimp only; omega, noFile := fun _ => hdummy, file := fun _ => rfl }

/-- What the server sends is within the window it was advertised. -/
theorem Flow.serverStep (h : Flow cfg s) (hmax : 1 ≤ cfg.maxWindowSize) {e : ServerEvent}
    {server : Server}
    {out : List Segment} (he : ∀ request clock, e = .request request clock → request ∈ s.requests)
    (hs : s.server.Moves cfg e server out) : Flow cfg { s with server, data := s.data ++ out } := by
  cases hs with
  | quiet hbase hlast _ =>
    exact { h with
      inFlight := by simpa using h.inFlight
      sendBase := by simpa [hbase] using h.sendBase
      dummy := by simpa [hbase, hlast] using h.dummy }
  | @resend now _ hbase hlast _ =>
    exact { h with
      inFlight := by
        intro seg hm
        cases List.mem_append.mp hm with
        | inl hm => exact h.inFlight seg hm
        | inr hm =>
          rw [List.mem_singleton.mp hm]
          exact h.timeoutSegment hmax now
      sendBase := by simpa [hbase] using h.sendBase
      dummy := by simpa [hbase, hlast] using h.dummy }
  | @answer request clock _ _ segToSend s₁ hcomplete hbase hlast _ hle hsend =>
    obtain ⟨hge, hrwnd, hack⟩ := h.requests request (he request clock rfl)
    have hack := hack hcomplete
    have hout : ∀ seg ∈ out, InWindow cfg s.client.window.lastSegAcked seg := by
      intro seg hm
      obtain ⟨i, hlt, hi, hbuilt⟩ := hsend.built seg hm
      have hsent := hsend.last_le
      have hwithin : i ≤ s.client.window.lastSegAcked + cfg.maxWindowSize := by omega
      exact .of_builtAt hmax h.nonneg hwithin hbuilt
    exact { h with
      inFlight := by
        intro seg hm
        cases List.mem_append.mp hm with
        | inl hm => exact h.inFlight seg hm
        | inr hm => exact hout seg hm
      sendBase := by
        intro node hm
        cases hsend.sendBase node hm with
        | inl hm => exact h.sendBase node (hbase node hm)
        | inr hm => exact hout node hm
      dummy := by
        intro hempty
        have hsame := hsend.empty hempty
        dsimp only
        omega }

namespace FlowInv

theorem serverStep (h : FlowInv cfg s) (hmax : 1 ≤ cfg.maxWindowSize) {e : ServerEvent}
    (he : ∀ request clock, e = .request request clock → request ∈ s.requests)
    (hs : s.serverStep cfg e = some s') : FlowInv cfg s' := by
  simp only [Transfer.serverStep, Option.map_eq_some_iff] at hs
  obtain ⟨⟨server, out⟩, hstep, rfl⟩ := hs
  exact { window := h.window, rwnd := h.rwnd
          flow := fun hpc => (h.flow hpc).serverStep hmax he (Server.step_moves hstep) }

/-- The receive thread may advertise what the window has left. -/
theorem sound (h : FlowInv cfg s) (hmax : 1 ≤ cfg.maxWindowSize) :
    (flowFacts cfg s.client.window.lastSegAcked).Sound cfg s.client where
  ackNum := le_refl _
  rwnd := by
    have hle := h.window.le_max hmax
    have hcount := h.window.count
    simp only [flowFacts]
    omega
  request ackNum rwnd hack hrwnd := ⟨hrwnd.1, hrwnd.2, fun _ => hack⟩
  complete rwnd hrwnd _ := ⟨hrwnd.1, hrwnd.2, by simp⟩
  tested seg hseg hlt := ⟨hseg, hlt⟩
  datagram seg hseg := hseg.1

theorem receiver (h : FlowInv cfg s) (hpc : s.client.recvPc ≠ .exited) {client : Client}
    {out : List Segment}
    (hs : ReceiverSpec (flowFacts cfg s.client.window.lastSegAcked) cfg s.client client out) :
    FlowInv cfg { s with client, requests := s.requests ++ out } := by
  have hflow := h.flow hpc
  have hrequests : ∀ request ∈ s.requests ++ out,
      (flowFacts cfg s.client.window.lastSegAcked).request request := by
    intro request hm
    cases List.mem_append.mp hm with
    | inl hm => exact hflow.requests request hm
    | inr hm => exact hs.out request hm
  have hrwnd : ∀ request ∈ s.requests ++ out, 0 ≤ request.rwnd :=
    fun request hm => (hrequests request hm).1
  obtain ⟨hok, hlast, hnone⟩ : client.window.Ok cfg.maxWindowSize ∧
      client.window.lastSegAcked = s.client.window.lastSegAcked ∧
      (cfg.file = none → client.window.recvBase = []) := by
    rcases hs.window with hw | ⟨seg, initRwnd, probe, hc, hw⟩
    · rw [hw]
      exact ⟨h.window, rfl, hflow.noFile⟩
    · have htested := hflow.holdAt
      rw [hc] at htested
      obtain ⟨hseg, hlt⟩ := htested
      rw [hw]
      refine ⟨h.window.insert ⟨hlt, hseg.le⟩, RecvWindow.insert_lastSegAcked, ?_⟩
      intro hf
      have hle := hseg.noFile hf
      omega
  refine { window := hok, rwnd := hrwnd, flow := fun _ => ?_ }
  rw [← hlast] at hrequests hs
  exact {
    nonneg := hlast ▸ hflow.nonneg
    noFile := hnone
    holdAt := hs.holdAt
    inFlight := hlast ▸ hflow.inFlight
    requests := hrequests
    sendBase := hlast ▸ hflow.sendBase
    dummy := hlast ▸ hflow.dummy }

/-- The consumer only moves the window up. -/
theorem printHead (h : FlowInv cfg s) (hpc : s.client.recvPc ≠ .exited)
    (hatomic : ∀ seg initRwnd probe, s.client.recvPc ≠ .insert seg initRwnd probe)
    {client : Client} (hclient : client.recvPc = s.client.recvPc)
    (hw : s.client.window.printHead = some client.window) : FlowInv cfg { s with client } := by
  have hflow := h.flow hpc
  have hok := h.window.printHead hw
  obtain ⟨node, rest, hb, -, hwin⟩ := RecvWindow.printHead_eq_some hw
  have hle : s.client.window.lastSegAcked ≤ client.window.lastSegAcked := by
    rw [hwin]
    dsimp only
    omega
  have hfacts : (flowFacts cfg _).Le (flowFacts cfg _) := flowFacts_le hle
  refine { window := hok, rwnd := h.rwnd, flow := fun _ => ?_ }
  exact {
    nonneg := hflow.nonneg.trans hle
    noFile := fun hf => by simp [hflow.noFile hf] at hb
    holdAt := by
      rw [show ({ s with client } : Transfer).client.recvPc = s.client.recvPc from hclient]
      exact hfacts.holdAt (fun seg initRwnd probe hi => absurd hi (hatomic seg initRwnd probe)) hflow.holdAt
    inFlight := fun seg hm => (hflow.inFlight seg hm).mono hle
    requests := fun request hm => hfacts.request request (hflow.requests request hm)
    sendBase := fun node hm => (hflow.sendBase node hm).mono hle
    dummy := fun he => (hflow.dummy he).trans hle }

/-- Without a file the news of it ends the client, its window empty. -/
theorem noFile (h : FlowInv cfg s) (hpc : s.client.recvPc ≠ .exited) {seg : Segment} (hm : seg ∈ s.data)
    (hack : seg.ackNum = -1) : FlowInv cfg { s with
      client := { s.client with
        window := { s.client.window with lastSegAcked := -1 }
        recvPc := .exited }
      requests := s.requests ++ [] } := by
  have hflow := h.flow hpc
  have hf : cfg.file = none := by
    by_contra hf
    have hzero := (hflow.inFlight seg hm).file hf
    omega
  exact {
    window := { range := by simp [hflow.noFile hf], sorted := h.window.sorted, count := h.window.count }
    rwnd := by simpa using h.rwnd
    flow := fun hpc => absurd rfl hpc }

theorem consumer (h : FlowInv cfg s) {client : Client} (hstep : s.client.consumerStep = some client)
    (hatomic : ∀ seg initRwnd probe, s.client.recvPc ≠ .insert seg initRwnd probe) :
    FlowInv cfg { s with client } := by
  obtain ⟨hpc, hclient, -, hw | hw⟩ := consumerStep_spec hstep
  · refine { window := hw ▸ h.window, rwnd := h.rwnd, flow := fun _ => ?_ }
    have hflow := h.flow hpc
    exact {
      nonneg := hw ▸ hflow.nonneg
      noFile := hw ▸ hflow.noFile
      holdAt := by
        rw [show ({ s with client } : Transfer).client.recvPc = s.client.recvPc from hclient]
        exact hw ▸ hflow.holdAt
      inFlight := hw ▸ hflow.inFlight
      requests := hw ▸ hflow.requests
      sendBase := hw ▸ hflow.sendBase
      dummy := hw ▸ hflow.dummy }
  · exact h.printHead hpc hatomic hclient hw

theorem step (h : FlowInv cfg s) (hmax : 1 ≤ cfg.maxWindowSize) {initTime : Int} {e : TransferEvent}
    (hs : (transferMachine cfg initTime).step s e = some s') (hatomic : TestInsertAtomic s e s') :
    FlowInv cfg s' := by
  cases Transfer.step_moves hs with
  | server se hsent hstep => exact h.serverStep hmax hsent hstep
  | receiver hstep =>
    have hpc : s.client.recvPc ≠ .exited := by
      intro hexited
      simp [Client.receiverStep, hexited] at hstep
    have hspec := receiverStep_spec (h.sound hmax) (h.flow hpc).holdAt hstep
    exact h.receiver hpc hspec
  | datagram hsent hstep =>
    have hpc : s.client.recvPc ≠ .exited := by
      intro hexited
      simp [Client.onDatagram, hexited] at hstep
    have hseg := (h.flow hpc).inFlight _ hsent
    rcases onDatagram_spec (h.sound hmax) hseg hstep with hspec | ⟨-, hack, rfl, rfl⟩
    · exact h.receiver hpc hspec
    · exact h.noFile hpc hsent hack
  | consumer hstep => exact h.consumer hstep (hatomic rfl)

end FlowInv

/-- **The receive window never jams.** In every state the transfer reaches,
its numbers are in order and within `max_window_size` of what is printed;
its count is right, is at most `max_window_size`, and no request ever
advertised a negative window; and when it is full it starts with the segment
the consumer waits for, which is therefore never refused for lack of room. -/
theorem receive_window_never_jams {initTime : Int} (hmax : 1 ≤ cfg.maxWindowSize)
    (h : (transferMachine cfg initTime).ReachableBy TestInsertAtomic s) :
    let w := s.client.window
    w.Ok cfg.maxWindowSize ∧ w.numSegInBuf ≤ cfg.maxWindowSize ∧
      (∀ request ∈ s.requests, 0 ≤ request.rwnd) ∧
      (w.numSegInBuf = cfg.maxWindowSize →
        ∃ node rest, w.recvBase = node :: rest ∧ node.sequenceNum = w.lastSegAcked + 1) ∧
      ∀ seg, seg.sequenceNum = w.lastSegAcked + 1 →
        ∃ node ∈ (w.insert cfg.maxWindowSize seg).recvBase, node.sequenceNum = w.lastSegAcked + 1 := by
  have hinv : FlowInv cfg s :=
    h.invariant (I := FlowInv cfg) (.start initTime) fun _ _ _ hi hs hg => hi.step hmax hs hg
  exact ⟨hinv.window, hinv.window.le_max hmax, hinv.rwnd, hinv.window.full hmax,
    fun _ => hinv.window.accepts hmax⟩

/-- The second segment arrives, the consumer finds it too early, and the first arrives. -/
theorem receive_window_never_jams_full : ∃ s,
    (transferMachine threeSegments 0).ReachableBy TestInsertAtomic s ∧
      s.client.window.recvBase.map (·.sequenceNum) = [1, 2] ∧ s.client.window.Ok 2 ∧
      ∃ node rest, s.client.window.recvBase = node :: rest ∧
        node.sequenceNum = s.client.window.lastSegAcked + 1 := by
  have hG (s : Transfer) (e : TransferEvent) (s' : Transfer) (he : e ≠ .consumer) : TestInsertAtomic s e s' :=
    fun hc => absurd hc he
  obtain ⟨server, first, second, hfirst, hsecond, hs⟩ := exists_sentTwo hG
  let early (consumerPc : ConsumerPc) : Transfer := sentTwo server first second { Client.start with
    window := { RecvWindow.start with recvBase := [second], numSegInBuf := 1 }
    recvPc := .listen 1 false, consumerPc }
  have hs : (transferMachine threeSegments 0).ReachableBy TestInsertAtomic (early .asleep) :=
    Transfer.arrives hG hs rfl (by decide)
      (by simp [sentTwo, Client.start, Client.transferred, RecvWindow.start]) (by simp [sentTwo, Client.start])
      (by simp [sentTwo]) hsecond (by decide) (by simp [sentTwo, Client.start, RecvWindow.start]) rfl
  have hguard (consumerPc : ConsumerPc) (s' : Transfer) : TestInsertAtomic (early consumerPc) .consumer s' :=
    fun _ seg initRwnd probe hpc => by cases hpc
  have hwake : (transferMachine threeSegments 0).step (early .asleep) .consumer = some (early .draining) := rfl
  have hlook : (transferMachine threeSegments 0).step (early .draining) .consumer = some (early .checking) := by
    simp [transferMachine, Client.consumerStep, early, sentTwo, RecvWindow.printHead, hsecond.sequenceNum,
      RecvWindow.start]
  have hsleep : (transferMachine threeSegments 0).step (early .checking) .consumer = some (early .asleep) := rfl
  have hs := ((hs.step hwake (hguard _ _)).step hlook (hguard _ _)).step hsleep (hguard _ _)
  have hput : RecvWindow.insert 2 (early .asleep).client.window first =
      { RecvWindow.start with recvBase := [first, second], numSegInBuf := 2 } := by
    simp [RecvWindow.insert, insertNode, hfirst.sequenceNum, hsecond.sequenceNum, RecvWindow.start, early,
      sentTwo]
  have hs := Transfer.arrives hG hs rfl (by decide)
    (by simp [early, sentTwo, Client.start, Client.transferred, RecvWindow.start]) (by simp [early, sentTwo])
    (by simp [early, sentTwo]) hfirst (by decide) (by simp [early, sentTwo, RecvWindow.start]) hput
  obtain ⟨hok, -, -, hfull, -⟩ := receive_window_never_jams (by decide) hs
  exact ⟨_, hs, by simp [hfirst.sequenceNum, hsecond.sequenceNum], hok, hfull rfl⟩

end Sockets.Udp
