/-
In-order delivery: whatever the network does, what the consumer prints is a
prefix of the file's chunks, and the client reports completion only when it
has printed them all.

The invariant is indexed by `k`, the number of chunks printed. Everything in
flight and in both windows is a chunk of the file, or (the dummy a timeout
sends when its window is empty) carries a number the client has printed
already, so the receive thread's test drops it.
-/
import Sockets.Udp.RecvWindow
import Sockets.Udp.SendWindow

namespace Sockets.Udp

/-- A segment as the transfer's output sees it. -/
def Segment.numbered (seg : Segment) : Int × Vector UInt8 udpPayloadSize :=
  (seg.sequenceNum, seg.payload)

/-- A datagram that may be in flight once `k` chunks are printed. -/
def Carried (data : List UInt8) (k : Nat) (seg : Segment) : Prop :=
  (∃ i, IsChunk data i seg) ∨ (seg.sequenceNum ≤ k ∧ seg.ackNum = 0 ∧ seg.isEof = 0)

/-- What the receive thread knows once `k` chunks are printed. -/
def deliveryFacts (data : List UInt8) (k : Nat) : RecvFacts where
  ackNum ackNum := ackNum ≤ k + 1
  rwnd _ := True
  request request := (0 < request.isComplete → k = numChunks data) ∧
    (¬ 0 < request.isComplete → request.ackNum ≤ k + 1)
  datagram := Carried data k
  tested seg := ∃ i, IsChunk data i seg

structure DeliveryInv (data : List UInt8) (k : Nat) (s : Transfer) : Prop where
  le : k ≤ numChunks data
  last : s.client.window.lastSegAcked = k
  printed : s.client.window.printed.map Segment.numbered = (chunks data).take k
  recvBase : ∀ node ∈ s.client.window.recvBase, ∃ i, IsChunk data i node
  lastSegInTransfer : s.client.lastSegInTransfer = -1 ∨ s.client.lastSegInTransfer = numChunks data
  holdAt : (deliveryFacts data k).HoldAt s.client.recvPc
  inFlight : ∀ seg ∈ s.data, Carried data k seg
  requests : ∀ request ∈ s.requests, (deliveryFacts data k).request request
  sendBase : ∀ node ∈ s.server.sendBase, ∃ i, IsChunk data i node
  dummy : s.server.sendBase = [] → s.server.lastSegAcked ≤ k
  complete : s.server.status = .complete → k = numChunks data

variable {data : List UInt8} {k : Nat} {s s' : Transfer} {cfg : Config}

theorem Carried.ackNum {seg : Segment} (h : Carried data k seg) : seg.ackNum = 0 := by
  rcases h with ⟨i, hi⟩ | ⟨-, hack, -⟩
  · exact hi.ackNum
  · exact hack

/-- A segment past the printed ones is a chunk. -/
theorem Carried.isChunk {seg : Segment} (h : Carried data k seg) (hlt : k < seg.sequenceNum) :
    ∃ i, IsChunk data i seg := by
  rcases h with h | ⟨hle, -⟩
  · exact h
  · omega

/-- A segment that ends the file carries the last number. -/
theorem Carried.eof {seg : Segment} (h : Carried data k seg) (heof : 0 < seg.isEof) :
    seg.sequenceNum = numChunks data := by
  rcases h with ⟨i, hi⟩ | ⟨-, -, hz⟩
  · have he := hi.isEof
    rw [hi.sequenceNum]
    split at he <;> omega
  · omega

theorem Carried.succ {seg : Segment} (h : Carried data k seg) : Carried data (k + 1) seg := by
  rcases h with h | ⟨hle, hrest⟩
  · exact .inl h
  · exact .inr ⟨by omega, hrest⟩

/-- Resending a segment of the window changes its flags only. -/
theorem IsChunk.resent {i : Nat} {seg : Segment} (h : IsChunk data i seg) (now : Int) :
    IsChunk data i { seg with isResent := 1, timestamp := i32 now } :=
  { lt := h.lt, sequenceNum := h.sequenceNum, payload := h.payload, isEof := h.isEof, ackNum := h.ackNum }

namespace DeliveryInv

theorem start (data : List UInt8) (initTime : Int) :
    DeliveryInv data 0 (transferMachine cfg initTime).init where
  le := Nat.zero_le _
  last := rfl
  printed := rfl
  recvBase := by simp [transferMachine, Client.start, RecvWindow.start]
  lastSegInTransfer := .inl rfl
  holdAt := trivial
  inFlight := by simp [transferMachine]
  requests := by simp [transferMachine]
  sendBase := by simp [transferMachine, Server.start]
  dummy _ := le_refl _
  complete := by simp [transferMachine, Server.start]

theorem timeoutSegment (h : DeliveryInv data k s) (now : Int) :
    Carried data k (s.server.timeoutSegment now) := by
  unfold Server.timeoutSegment
  cases hb : s.server.sendBase with
  | cons node rest =>
    obtain ⟨i, hi⟩ := h.sendBase node (by simp [hb])
    exact .inl ⟨i, hi.resent now⟩
  | nil => exact .inr ⟨h.dummy hb, rfl, rfl⟩

/-- The server sends chunks and dummies, and stops only when told. -/
theorem serverStep (h : DeliveryInv data k s) (hfile : cfg.file = some data) {e : ServerEvent}
    (he : ∀ request clock, e = .request request clock → request ∈ s.requests)
    (hs : s.serverStep cfg e = some s') : DeliveryInv data k s' := by
  simp only [Transfer.serverStep, Option.map_eq_some_iff] at hs
  obtain ⟨⟨server, out⟩, hstep, rfl⟩ := hs
  cases Server.step_moves hstep with
  | quiet hbase hlast hcomplete =>
    exact { h with
      inFlight := by simpa using h.inFlight
      sendBase := by simpa [hbase] using h.sendBase
      dummy := by simpa [hbase, hlast] using h.dummy
      complete := by
        intro hc
        obtain ⟨request, clock, rfl, hpos⟩ := hcomplete hc
        have hrequest := h.requests request (he request clock rfl)
        exact hrequest.1 hpos }
  | @resend now _ hbase hlast hstatus =>
    exact { h with
      inFlight := by
        intro seg hm
        cases List.mem_append.mp hm with
        | inl hm => exact h.inFlight seg hm
        | inr hm =>
          rw [List.mem_singleton.mp hm]
          exact h.timeoutSegment now
      sendBase := by simpa [hbase] using h.sendBase
      dummy := by simpa [hbase, hlast] using h.dummy
      complete := fun hc => by simp [hstatus] at hc }
  | @answer request clock _ _ _ s₁ hcomplete hbase hlast hstatus hle hsend =>
    have hout : ∀ seg ∈ out, ∃ i, IsChunk data i seg := by
      intro seg hm
      obtain ⟨i, -, -, hbuilt⟩ := hsend.built seg hm
      rw [hfile] at hbuilt
      obtain ⟨hchunk, -⟩ := isChunk_of_builtAt hbuilt
      exact ⟨_, hchunk⟩
    exact { h with
      inFlight := by
        intro seg hm
        cases List.mem_append.mp hm with
        | inl hm => exact h.inFlight seg hm
        | inr hm => exact .inl (hout seg hm)
      sendBase := by
        intro node hm
        cases hsend.sendBase node hm with
        | inl hm => exact h.sendBase node (hbase node hm)
        | inr hm => exact hout node hm
      dummy := by
        intro hempty
        have hack := (h.requests request (he request clock rfl)).2 hcomplete
        have hsame := hsend.empty hempty
        dsimp only
        omega
      complete := fun hc => by simp [hstatus] at hc }

theorem sound (h : DeliveryInv data k s) : (deliveryFacts data k).Sound cfg s.client where
  ackNum := by simp [deliveryFacts, h.last]
  rwnd := trivial
  request ackNum rwnd hack _ := ⟨by simp, fun _ => hack⟩
  complete rwnd _ ht := by
    have hall : k = numChunks data := by
      have hlast := h.last
      unfold Client.transferred at ht
      rcases h.lastSegInTransfer with he | he <;> omega
    exact ⟨fun _ => hall, by simp⟩
  tested seg hseg hlt := Carried.isChunk hseg (h.last ▸ hlt)
  datagram _ := .inl

/-- The receive thread adds chunks to the window, and learns the last number from one. -/
theorem receiver (h : DeliveryInv data k s) {client : Client} {out : List Segment}
    (hs : ReceiverSpec (deliveryFacts data k) cfg s.client client out) :
    DeliveryInv data k { s with client, requests := s.requests ++ out } := by
  have hpc := h.holdAt
  have hrequests : ∀ request ∈ s.requests ++ out, (deliveryFacts data k).request request := by
    intro request hm
    cases List.mem_append.mp hm with
    | inl hm => exact h.requests request hm
    | inr hm => exact hs.out request hm
  have heof : client.lastSegInTransfer = -1 ∨ client.lastSegInTransfer = numChunks data := by
    rcases hs.lastSegInTransfer with he | ⟨seg, initRwnd, probe, hc, hpos, he⟩
    · rw [he]
      exact h.lastSegInTransfer
    · rw [hc] at hpc
      exact .inr (he.trans (Carried.eof hpc hpos))
  rcases hs.window with hw | ⟨seg, initRwnd, probe, hc, hw⟩
  · exact { h with
      last := by simpa [hw] using h.last
      printed := by simpa [hw] using h.printed
      recvBase := by simpa [hw] using h.recvBase
      lastSegInTransfer := heof
      holdAt := hs.holdAt
      requests := hrequests }
  · rw [hc] at hpc
    exact { h with
      last := by simpa [hw] using h.last
      printed := by simpa [hw] using h.printed
      recvBase := by
        intro node hm
        dsimp only at hm
        rw [hw] at hm
        rcases RecvWindow.mem_insert hm with rfl | hm
        · exact hpc
        · exact h.recvBase node hm
      lastSegInTransfer := heof
      holdAt := hs.holdAt
      requests := hrequests }

end DeliveryInv

theorem deliveryFacts_le (hlt : k < numChunks data) :
    (deliveryFacts data k).Le (deliveryFacts data (k + 1)) where
  ackNum ackNum h := by
    simp only [deliveryFacts] at h ⊢
    omega
  rwnd _ := id
  request request h := by
    constructor
    · intro hc
      have hall := h.1 hc
      omega
    · intro hc
      have hack := h.2 hc
      omega
  datagram _ := Carried.succ

namespace DeliveryInv

/-- The consumer prints the chunk after the last one it printed. -/
theorem printHead (h : DeliveryInv data k s) {window : RecvWindow}
    (hw : s.client.window.printHead = some window)
    {client : Client} (hpc : client.recvPc = s.client.recvPc)
    (hlast : client.lastSegInTransfer = s.client.lastSegInTransfer) (hwin : client.window = window) :
    DeliveryInv data (k + 1) { s with client } := by
  obtain ⟨node, rest, hb, hseq, rfl⟩ := RecvWindow.printHead_eq_some hw
  obtain ⟨i, hi⟩ := h.recvBase node (by simp [hb])
  have hik : i = k := by
    have hnum := hi.sequenceNum
    have hlast := h.last
    omega
  subst hik
  have hle := deliveryFacts_le hi.lt
  exact {
    le := hi.lt
    last := by simp [hwin, h.last]
    printed := by
      simp only [hwin, List.map_append, h.printed, List.map_cons, List.map_nil]
      rw [take_chunks_succ hi.lt, Segment.numbered, hi.sequenceNum, hi.payload]
    recvBase := by
      intro node hm
      have hrest : node ∈ rest := by simpa only [hwin] using hm
      exact h.recvBase node (by simp [hb, hrest])
    lastSegInTransfer := by simpa [hlast] using h.lastSegInTransfer
    holdAt := by
      rw [show ({ s with client } : Transfer).client.recvPc = s.client.recvPc from hpc]
      exact hle.holdAt (fun _ _ _ _ => id) h.holdAt
    inFlight := fun seg hm => (h.inFlight seg hm).succ
    requests := fun request hm => hle.request request (h.requests request hm)
    sendBase := h.sendBase
    dummy := by
      intro he
      have hle := h.dummy he
      dsimp only
      omega
    complete := by
      intro hc
      have hall := h.complete hc
      have hlt := hi.lt
      omega }

theorem consumer (h : DeliveryInv data k s) {client : Client}
    (hs : s.client.consumerStep = some client) :
    ∃ k, DeliveryInv data k { s with client } := by
  obtain ⟨-, hpc, hlast, hw | hw⟩ := consumerStep_spec hs
  · exact ⟨k, { h with
      last := by simpa [hw] using h.last
      printed := by simpa [hw] using h.printed
      recvBase := by simpa [hw] using h.recvBase
      lastSegInTransfer := by simpa [hlast] using h.lastSegInTransfer
      holdAt := by simpa [hpc] using h.holdAt }⟩
  · exact ⟨k + 1, h.printHead hw hpc hlast rfl⟩

theorem step (h : DeliveryInv data k s) (hfile : cfg.file = some data) {initTime : Int}
    {e : TransferEvent}
    (hs : (transferMachine cfg initTime).step s e = some s') : ∃ k, DeliveryInv data k s' := by
  cases Transfer.step_moves hs with
  | server se hsent hstep => exact ⟨k, h.serverStep hfile hsent hstep⟩
  | receiver hstep =>
    have hspec := receiverStep_spec h.sound h.holdAt hstep
    exact ⟨k, h.receiver hspec⟩
  | datagram hsent hstep =>
    have hseg := h.inFlight _ hsent
    rcases onDatagram_spec h.sound hseg hstep with hspec | ⟨-, hack, -⟩
    · exact ⟨k, h.receiver hspec⟩
    · -- with a file, nothing says that there is none
      have hzero := hseg.ackNum
      omega
  | consumer hstep => exact h.consumer hstep

end DeliveryInv

/-- **In-order delivery.** In every state the transfer of a file reaches,
what the consumer has printed is a prefix of the file's chunks; and if the
client has sent a request that says it is complete, or the server has
stopped on one, it is all of them. -/
theorem printed_isPrefix_file {initTime : Int} (hfile : cfg.file = some data)
    (h : (transferMachine cfg initTime).Reachable s) :
    s.client.window.printed.map Segment.numbered <+: chunks data ∧
    ((∃ request ∈ s.requests, 0 < request.isComplete) ∨ s.server.status = .complete →
      s.client.window.printed.map Segment.numbered = chunks data) := by
  obtain ⟨k, hk⟩ : ∃ k, DeliveryInv data k s :=
    h.invariant (I := fun s => ∃ k, DeliveryInv data k s) ⟨0, .start data initTime⟩
      fun _ _ _ ⟨_, hk⟩ hs => hk.step hfile hs
  rw [hk.printed]
  refine ⟨List.take_prefix _ _, ?_⟩
  intro hdone
  have hall : k = numChunks data := by
    rcases hdone with ⟨request, hm, hpos⟩ | hc
    · exact (hk.requests request hm).1 hpos
    · exact hk.complete hc
  rw [hall, ← chunks_length, List.take_length]

/-- Of a file of three segments two have arrived, and the consumer has printed them. -/
theorem printed_isPrefix_file_two : ∃ s, (transferMachine threeSegments 0).Reachable s ∧
    s.client.window.printed.map (·.sequenceNum) = [1, 2] ∧
      s.client.window.printed.map Segment.numbered <+: chunks (List.replicate 983 7) := by
  obtain ⟨server, first, second, hfirst, hsecond, hs⟩ := exists_sentTwo fun _ _ _ _ => trivial
  let s (initRwnd : Int) (recvBase printed : List Segment) (consumerPc : ConsumerPc) : Transfer :=
    sentTwo server first second { Client.start with
      window := { recvBase, numSegInBuf := recvBase.length, lastSegAcked := printed.length, printed }
      recvPc := .listen initRwnd false, consumerPc }
  have hs : (transferMachine threeSegments 0).Reachable (s 1 [first] [] .asleep) :=
    (Transfer.arrives (fun _ _ _ _ => trivial) hs rfl (by decide)
      (by simp [sentTwo, Client.start, Client.transferred, RecvWindow.start]) (by simp [sentTwo, Client.start])
      (by simp [sentTwo]) hfirst (by decide) (by simp [sentTwo, Client.start, RecvWindow.start]) rfl).reachable
  have hput : RecvWindow.insert 2 (s 1 [first] [] .asleep).client.window second =
      (s 1 [first, second] [] .asleep).client.window := by
    simp [RecvWindow.insert, insertNode, hfirst.sequenceNum, hsecond.sequenceNum, s, sentTwo]
  have hs : (transferMachine threeSegments 0).Reachable (s 0 [first, second] [] .asleep) :=
    (Transfer.arrives (fun _ _ _ _ => trivial) hs.reachableBy rfl (by decide)
      (by simp [s, sentTwo, Client.start, Client.transferred]) (by simp [s, sentTwo]) (by simp [s, sentTwo])
      hsecond (by decide) (by simp [s, sentTwo]) hput).reachable
  have hwake : (transferMachine threeSegments 0).step (s 0 [first, second] [] .asleep) .consumer =
      some (s 0 [first, second] [] .draining) := rfl
  have hfirst' : (transferMachine threeSegments 0).step (s 0 [first, second] [] .draining) .consumer =
      some (s 0 [second] [first] .draining) := by
    simp [transferMachine, Client.consumerStep, s, sentTwo, RecvWindow.printHead, hfirst.sequenceNum]
  have hsecond' : (transferMachine threeSegments 0).step (s 0 [second] [first] .draining) .consumer =
      some (s 0 [] [first, second] .draining) := by
    simp [transferMachine, Client.consumerStep, s, sentTwo, RecvWindow.printHead, hsecond.sequenceNum]
  have hs := ((hs.next hwake).next hfirst').next hsecond'
  exact ⟨_, hs, by simp [s, sentTwo, hfirst.sequenceNum, hsecond.sequenceNum],
    (printed_isPrefix_file rfl hs).1⟩

end Sockets.Udp
