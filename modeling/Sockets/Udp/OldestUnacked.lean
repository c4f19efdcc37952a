/-
What the timer guards. It resends the first segment of the send window,
which is meant to be the oldest one not yet acknowledged: the one the newest
request asked for. As long as requests arrive in order, the window holds
that segment and those after it, one by one (`Consecutive`).

But each request, however old, sets the point the loop sends from. If an
older one arrives behind a newer one, and there is something to send, then
what it asks for is linked behind what the window holds.
-/
import Sockets.Udp.RecvWindow
import Sockets.Udp.SendWindow

namespace Sockets.Udp

/-- The server, the highest ACK number it has received, and what its last iteration sent. -/
structure Guarding where
  server : Server
  highestAck : Option Int
  out : List Segment

def highestAfter (before : Option Int) : ServerEvent → Option Int
  | .request request _ => some (max (before.getD request.ackNum) request.ackNum)
  | .timeout _ | .interrupted => before

/-- The server in its loop: an iteration that ends it is not a step. -/
def guardMachine (cfg : Config) (initTime : Int) : Machine Guarding ServerEvent where
  init := { server := .start initTime, highestAck := none, out := [] }
  step s e := (s.server.step cfg e).bind fun (server, out) =>
    if server.status = .running then
      some { server, highestAck := highestAfter s.highestAck e, out }
    else none

/-- The window goes up from the highest ACK number, and what a timeout resends has that number. -/
structure OldestGuarded (s : Guarding) (e : ServerEvent) (s' : Guarding) : Prop where
  increasing : (s'.server.sendBase.map (·.sequenceNum)).Pairwise (· < ·)
  unacked : ∀ node ∈ s'.server.sendBase, ∀ ack ∈ s'.highestAck, ack ≤ node.sequenceNum
  resent : ∀ now, e = .timeout now → s.server.sendBase ≠ [] →
    ∃ seg, s'.out = [seg] ∧ s.highestAck = some seg.sequenceNum

/-- A request the server has nothing to send for, or one for a file that is there which is no
older than those before it. -/
def InOrder (cfg : Config) (s : Guarding) (e : ServerEvent) (_ : Guarding) : Prop :=
  match e with
  | .request request _ => s.server.allowed cfg request ≤ 0 ∨
    (cfg.file ≠ none ∧ ∀ ack ∈ s.highestAck, ack ≤ request.ackNum)
  | .timeout _ | .interrupted => True

/-- Unless it says that it is complete, the client asks for segments from 1 on. -/
def FromClient : ServerEvent → Prop
  | .request request _ => ¬ request.isComplete > 0 → 1 ≤ request.ackNum
  | .timeout _ | .interrupted => True

/-! ## Windows without gaps -/

/-- The numbers go up one by one from `first`. -/
def Consecutive : Int → List Segment → Prop
  | _, [] => True
  | first, node :: rest => node.sequenceNum = first ∧ Consecutive (first + 1) rest

variable {first : Int} {nodes : List Segment}

theorem Consecutive.mem_range (h : Consecutive first nodes) :
    ∀ node ∈ nodes, first ≤ node.sequenceNum ∧ node.sequenceNum < first + nodes.length := by
  induction nodes generalizing first with
  | nil => simp
  | cons node rest ih =>
    intro node' hm
    rw [List.length_cons]
    rcases List.mem_cons.mp hm with rfl | hm
    · have hfirst := h.1
      omega
    · have hrange := ih h.2 node' hm
      omega

theorem Consecutive.exists_mem (h : Consecutive first nodes) {i : Int} (hge : first ≤ i)
    (hlt : i < first + nodes.length) : ∃ node ∈ nodes, node.sequenceNum = i := by
  induction nodes generalizing first with
  | nil =>
    rw [List.length_nil] at hlt
    omega
  | cons node rest ih =>
    by_cases hi : i = first
    · exact ⟨node, List.mem_cons_self, h.1.trans hi.symm⟩
    · rw [List.length_cons] at hlt
      obtain ⟨node', hm, hseq⟩ := ih h.2 (by omega) (by omega)
      exact ⟨node', List.mem_cons_of_mem _ hm, hseq⟩

theorem Consecutive.increasing (h : Consecutive first nodes) :
    (nodes.map (·.sequenceNum)).Pairwise (· < ·) := by
  induction nodes generalizing first with
  | nil => exact List.Pairwise.nil
  | cons node rest ih =>
    rw [List.map_cons]
    refine List.pairwise_cons.mpr ⟨?_, ih h.2⟩
    intro number hm
    obtain ⟨node', hnode, rfl⟩ := List.mem_map.mp hm
    have hfirst := h.1
    have hrange := h.2.mem_range node' hnode
    omega

theorem Consecutive.concat (h : Consecutive first nodes) {seg : Segment}
    (hseq : seg.sequenceNum = first + nodes.length) : Consecutive first (nodes ++ [seg]) := by
  induction nodes generalizing first with
  | nil => exact ⟨by simpa using hseq, trivial⟩
  | cons node rest ih =>
    refine ⟨h.1, ih h.2 ?_⟩
    rw [List.length_cons] at hseq
    omega

/-- Pruning up to `last` leaves what comes after it. -/
theorem Consecutive.prune (h : Consecutive first nodes) (last num : Int) :
    Consecutive (max first (last + 1)) (Udp.prune last nodes num).1 := by
  induction nodes generalizing first num with
  | nil => trivial
  | cons node rest ih =>
    rw [Udp.prune]
    have hfirst := h.1
    split
    next hle =>
      have hrest := ih h.2 (num - 1)
      rwa [show max (first + 1) (last + 1) = max first (last + 1) by omega] at hrest
    next hgt => rwa [max_eq_left (by omega)]

/-- A segment with a number of the window, or the next one, leaves no gap. -/
theorem Consecutive.link {s : Server} {seg : Segment} (h : Consecutive first s.sendBase)
    (hge : first ≤ seg.sequenceNum) (hle : seg.sequenceNum ≤ first + s.sendBase.length) :
    Consecutive first (s.linkSegment seg).sendBase ∧
      seg.sequenceNum + 1 ≤ first + (s.linkSegment seg).sendBase.length := by
  unfold Server.linkSegment
  split
  next hin =>
    obtain ⟨node, hm, hseq⟩ := List.any_eq_true.mp hin
    have hrange := h.mem_range node hm
    simp only [decide_eq_true_eq] at hseq
    exact ⟨h, by omega⟩
  next hout =>
    have hnext : seg.sequenceNum = first + s.sendBase.length := by
      by_contra hne
      obtain ⟨node, hm, hseq⟩ := h.exists_mem hge (by omega)
      exact hout (List.any_eq_true.mpr ⟨node, hm, by simpa using hseq⟩)
    refine ⟨h.concat hnext, ?_⟩
    rw [List.length_append, List.length_singleton]
    omega

/-! ## Sending -/

section SendLoop

variable {data : List UInt8} {recvRwnd windowSpace : Int} {clock : Nat → Int} {segToSend : Nat}
  {s s' : Server} {out : List Segment}

/-- Sending from a number of the window on, or the next one, leaves no gap. -/
theorem sendLoop_consecutive (hc : Consecutive first s.sendBase) (hge : first ≤ s.lastSegAcked + 1)
    (hle : s.lastSegAcked + 1 ≤ first + s.sendBase.length)
    (h : sendLoop (some data) recvRwnd windowSpace clock segToSend s = some (s', out)) :
    Consecutive first s'.sendBase := by
  induction segToSend generalizing s out with
  | zero =>
    simp only [sendLoop, Option.some.injEq, Prod.mk.injEq] at h
    obtain ⟨rfl, rfl⟩ := h
    exact hc
  | succ segToSend ih =>
    simp only [sendLoop] at h
    split at h
    · simp only [Option.some.injEq, Prod.mk.injEq] at h
      obtain ⟨rfl, rfl⟩ := h
      exact hc
    · simp only [Option.bind_eq_bind, Option.bind_eq_some_iff] at h
      obtain ⟨seg, hseg, h⟩ := h
      obtain ⟨-, hnumber⟩ := isChunk_of_builtAt ⟨_, _, hseg⟩
      have hc' : Consecutive first { s with lastSegAcked := s.lastSegAcked + 1 }.sendBase := hc
      obtain ⟨hlinked, hlength⟩ := hc'.link (hnumber ▸ hge) (hnumber ▸ hle)
      split at h
      · simp only [Option.some.injEq, Prod.mk.injEq] at h
        obtain ⟨rfl, rfl⟩ := h
        exact hlinked
      split at h
      · simp only [Option.some.injEq, Prod.mk.injEq] at h
        obtain ⟨rfl, rfl⟩ := h
        exact hlinked
      · simp only [Option.bind_eq_some_iff] at h
        obtain ⟨⟨s₂, out₂⟩, hloop, h⟩ := h
        simp only [Option.some.injEq, Prod.mk.injEq] at h
        obtain ⟨rfl, rfl⟩ := h
        have hlast : (Server.linkSegment { s with lastSegAcked := s.lastSegAcked + 1 } seg).lastSegAcked =
            s.lastSegAcked + 1 := by
          unfold Server.linkSegment
          split <;> rfl
        refine ih (s := { Server.linkSegment { s with lastSegAcked := s.lastSegAcked + 1 } seg with
          lastOutTime := seg.timestamp }) hlinked ?_ ?_ hloop
        · dsimp only
          omega
        · dsimp only
          omega

/-- What the loop sends first is in the window afterwards. -/
theorem sendLoop_first {file : Option (List UInt8)} {number : Int} (hspace : windowSpace ≠ 0)
    (hnumber : ∀ seg, BuiltAt file recvRwnd (s.lastSegAcked + 1) seg → seg.sequenceNum = number)
    (h : sendLoop file recvRwnd windowSpace clock (segToSend + 1) s = some (s', out)) :
    ∃ node ∈ s'.sendBase, node.sequenceNum = number := by
  simp only [sendLoop, if_neg hspace, Option.bind_eq_bind, Option.bind_eq_some_iff] at h
  obtain ⟨seg, hseg, h⟩ := h
  have hseq := hnumber seg ⟨_, _, hseg⟩
  have hlinked : ∃ node ∈ (Server.linkSegment { s with lastSegAcked := s.lastSegAcked + 1 } seg).sendBase,
      node.sequenceNum = number := by
    unfold Server.linkSegment
    split
    next hin =>
      obtain ⟨node, hm, hsame⟩ := List.any_eq_true.mp hin
      exact ⟨node, hm, (of_decide_eq_true hsame).trans hseq⟩
    next => exact ⟨seg, List.mem_append_right _ (List.mem_singleton.mpr rfl), hseq⟩
  split at h
  · simp only [Option.some.injEq, Prod.mk.injEq] at h
    obtain ⟨rfl, rfl⟩ := h
    exact hlinked
  split at h
  · simp only [Option.some.injEq, Prod.mk.injEq] at h
    obtain ⟨rfl, rfl⟩ := h
    exact hlinked
  · simp only [Option.bind_eq_some_iff] at h
    obtain ⟨⟨s₂, out₂⟩, hloop, h⟩ := h
    simp only [Option.some.injEq, Prod.mk.injEq] at h
    obtain ⟨rfl, rfl⟩ := h
    obtain ⟨node, hm, hsame⟩ := hlinked
    exact ⟨node, (sendLoop_spec hloop).kept node hm, hsame⟩

end SendLoop

/-! ## Runs -/

/-- The window has no gaps, from the highest ACK number on. -/
def Guarded (s : Guarding) : Prop :=
  match s.highestAck with
  | none => s.server.sendBase = []
  | some first => Consecutive first s.server.sendBase

variable {cfg : Config} {initTime : Int} {s s' : Guarding} {e : ServerEvent}

/-- An iteration of the server, and what is noted of it. -/
theorem guardMachine_step (h : (guardMachine cfg initTime).step s e = some s') :
    s.server.step cfg e = some (s'.server, s'.out) ∧ s'.server.status = .running ∧
      s'.highestAck = highestAfter s.highestAck e := by
  simp only [guardMachine, Option.bind_eq_some_iff] at h
  obtain ⟨⟨server, out⟩, hstep, h⟩ := h
  split at h
  next hrun =>
    simp only [Option.some.injEq] at h
    subst h
    exact ⟨hstep, hrun, rfl⟩
  · cases h

/-- Whatever the window is before, pruned by the newest request it goes on from there. -/
theorem Guarded.prune (h : Guarded s) (ackNum num : Int) :
    Consecutive (max (s.highestAck.getD ackNum) ackNum) (Udp.prune (ackNum - 1) s.server.sendBase num).1 := by
  unfold Guarded at h
  cases hhighest : s.highestAck with
  | none =>
    rw [hhighest] at h
    simp only [h]
    trivial
  | some first =>
    rw [hhighest] at h
    have hpruned := h.prune (ackNum - 1) num
    rwa [Int.sub_add_cancel] at hpruned

/-- A request in order, or one that nothing is sent for, leaves no gaps. -/
theorem Guarded.step (h : Guarded s) (hstep : (guardMachine cfg initTime).step s e = some s')
    (hin : InOrder cfg s e s') : Guarded s' := by
  obtain ⟨server, highestAck, out⟩ := s'
  obtain ⟨hserver, hrun, hhighest⟩ := guardMachine_step hstep
  dsimp only at hserver hrun hhighest
  cases e with
  | timeout now =>
    obtain ⟨-, hbase⟩ := Server.step_timeout hserver hrun
    unfold Guarded
    rw [hhighest, hbase]
    exact h
  | interrupted =>
    cases Server.step_moves hserver with
    | quiet hbase =>
      unfold Guarded
      rw [hhighest, hbase]
      exact h
  | request request clock =>
    obtain ⟨timer, -, -, hloop⟩ := Server.step_request hserver hrun
    have hpruned := h.prune request.ackNum s.server.numSegInBuf
    unfold Guarded
    rw [hhighest]
    change Consecutive (max (s.highestAck.getD request.ackNum) request.ackNum) server.sendBase
    rcases hin with hnone | ⟨hfile, hnewest⟩
    · rw [Int.toNat_of_nonpos hnone] at hloop
      simp only [sendLoop, Option.some.injEq, Prod.mk.injEq] at hloop
      obtain ⟨rfl, -⟩ := hloop
      exact hpruned
    · obtain ⟨data, hdata⟩ := Option.ne_none_iff_exists'.mp hfile
      have hmax : max (s.highestAck.getD request.ackNum) request.ackNum = request.ackNum := by
        cases hold : s.highestAck with
        | none => exact max_self _
        | some ack => exact max_eq_right (hnewest ack hold)
      rw [hmax] at hpruned ⊢
      rw [hdata] at hloop
      refine sendLoop_consecutive hpruned ?_ ?_ hloop
      · show request.ackNum ≤ request.ackNum - 1 + 1
        omega
      · show request.ackNum - 1 + 1 ≤ _
        omega

/-- While it has none, what the timer resends is the segment asked for last. -/
theorem Guarded.oldest (h : Guarded s) (h' : Guarded s')
    (hstep : (guardMachine cfg initTime).step s e = some s') : OldestGuarded s e s' where
  increasing := by
    unfold Guarded at h'
    split at h'
    · simp [h']
    · exact h'.increasing
  unacked node hm ack hack := by
    unfold Guarded at h'
    rw [Option.mem_def.mp hack] at h'
    exact (h'.mem_range node hm).1
  resent := by
    rintro now rfl hne
    obtain ⟨hserver, hrun, -⟩ := guardMachine_step hstep
    obtain ⟨hout, -⟩ := Server.step_timeout hserver hrun
    refine ⟨_, hout, ?_⟩
    unfold Guarded at h
    split at h
    · exact absurd h hne
    next first hfirst =>
      unfold Server.timeoutSegment
      cases hbase : s.server.sendBase with
      | nil => exact absurd hbase hne
      | cons node rest =>
        rw [hbase] at h
        rw [hfirst]
        exact congrArg some h.1.symm

/-- An older request that something is sent for leaves a segment in the window below the
highest ACK number. -/
theorem inOrder_of_oldest (he : FromClient e) (hstep : (guardMachine cfg initTime).step s e = some s')
    (ho : OldestGuarded s e s') : InOrder cfg s e s' := by
  obtain ⟨hserver, hrun, hhighest⟩ := guardMachine_step hstep
  cases e with
  | timeout | interrupted => trivial
  | request request clock =>
    obtain ⟨timer, -, hcomplete, hloop⟩ := Server.step_request hserver hrun
    by_cases hallowed : s.server.allowed cfg request ≤ 0
    · exact .inl hallowed
    · have hspace : s.server.windowSpace cfg request ≠ 0 := by
        unfold Server.allowed at hallowed
        rw [segToSend_eq] at hallowed
        omega
      obtain ⟨more, hmore⟩ : ∃ more, (s.server.allowed cfg request).toNat = more + 1 :=
        ⟨(s.server.allowed cfg request).toNat - 1, by omega⟩
      rw [hmore] at hloop
      have htop : s'.highestAck = some (max (s.highestAck.getD request.ackNum) request.ackNum) := hhighest
      -- what the loop sends first has no lower a number than that
      have hfirst : ∀ number, (∀ seg, BuiltAt cfg.file request.rwnd (request.ackNum - 1 + 1) seg →
          seg.sequenceNum = number) → max (s.highestAck.getD request.ackNum) request.ackNum ≤ number := by
        intro number hnumber
        obtain ⟨node, hm, hseq⟩ := sendLoop_first hspace hnumber hloop
        rw [← hseq]
        exact ho.unacked node hm _ htop
      right
      cases hfile : cfg.file with
      | none =>
        have hge := he hcomplete
        have hle := hfirst (-1) fun seg ⟨_, _, hseg⟩ => by
          obtain ⟨-, hseq, -⟩ | ⟨data, head, hdata, -⟩ := buildSegment_eq_some hseg
          · exact hseq
          · simp [hfile] at hdata
        omega
      | some data =>
        refine ⟨Option.some_ne_none data, ?_⟩
        intro ack hack
        have hle := hfirst request.ackNum fun seg hseg => by
          rw [hfile] at hseg
          obtain ⟨-, hseq⟩ := isChunk_of_builtAt hseg
          omega
        rw [Option.mem_def.mp hack] at hle
        exact (le_max_left _ _).trans hle

/-! ## The client's requests -/

/-- What the receive thread knows of the numbers it asks for. -/
def askingFacts : RecvFacts where
  ackNum ackNum := 1 ≤ ackNum
  rwnd _ := True
  request request := ¬ request.isComplete > 0 → 1 ≤ request.ackNum
  datagram _ := True
  tested _ := True

/-- While the client runs, what it has printed goes up from 0. -/
structure AskingInv (s : Transfer) : Prop where
  nonneg : s.client.recvPc ≠ .exited → 0 ≤ s.client.window.lastSegAcked
  holdAt : askingFacts.HoldAt s.client.recvPc
  requests : ∀ request ∈ s.requests, ¬ request.isComplete > 0 → 1 ≤ request.ackNum

theorem AskingInv.receiver {t : Transfer} (h : AskingInv t) (hpc : t.client.recvPc ≠ .exited)
    {client : Client} {out : List Segment} (hs : ReceiverSpec askingFacts cfg t.client client out) :
    AskingInv { t with client, requests := t.requests ++ out } where
  nonneg _ := by
    have hnonneg := h.nonneg hpc
    rcases hs.window with hw | ⟨seg, initRwnd, probe, -, hw⟩
    · rwa [hw]
    · rwa [hw, RecvWindow.insert_lastSegAcked]
  holdAt := hs.holdAt
  requests request hm := by
    cases List.mem_append.mp hm with
    | inl hm => exact h.requests request hm
    | inr hm => exact hs.out request hm

theorem AskingInv.step {t t' : Transfer} (h : AskingInv t) {e : TransferEvent}
    (hs : (transferMachine cfg initTime).step t e = some t') : AskingInv t' := by
  have hsound (hpc : t.client.recvPc ≠ .exited) : askingFacts.Sound cfg t.client :=
    { ackNum := by
        have hnonneg := h.nonneg hpc
        simp only [askingFacts]
        omega
      rwnd := trivial
      request := fun _ _ hack _ _ => hack
      complete := fun _ _ _ hc => absurd Int.zero_lt_one hc
      tested := fun _ _ _ => trivial
      datagram := fun _ _ => trivial }
  cases Transfer.step_moves hs with
  | server se hsent hstep =>
    simp only [Transfer.serverStep, Option.map_eq_some_iff] at hstep
    obtain ⟨⟨server, out⟩, -, rfl⟩ := hstep
    exact ⟨h.nonneg, h.holdAt, h.requests⟩
  | receiver hstep =>
    have hpc : t.client.recvPc ≠ .exited := by
      intro hexited
      simp [Client.receiverStep, hexited] at hstep
    exact h.receiver hpc (receiverStep_spec (hsound hpc) h.holdAt hstep)
  | datagram hsent hstep =>
    have hpc : t.client.recvPc ≠ .exited := by
      intro hexited
      simp [Client.onDatagram, hexited] at hstep
    rcases onDatagram_spec (hsound hpc) trivial hstep with hspec | ⟨-, -, rfl, rfl⟩
    · exact h.receiver hpc hspec
    · exact ⟨fun hrun => absurd rfl hrun, trivial, by simpa using h.requests⟩
  | @consumer client hstep =>
    obtain ⟨hpc, hclient, -, hw⟩ := consumerStep_spec hstep
    refine ⟨fun _ => ?_, ?_, h.requests⟩
    · have hnonneg := h.nonneg hpc
      rcases hw with hw | hw
      · rwa [hw]
      · obtain ⟨node, rest, -, -, hwin⟩ := RecvWindow.printHead_eq_some hw
        rw [hwin]
        dsimp only
        omega
    · rw [show ({ t with client } : Transfer).client.recvPc = t.client.recvPc from hclient]
      exact h.holdAt

/-- Whatever the network does, the requests on their way are such as the server is meant for. -/
theorem requests_fromClient {t : Transfer} (h : (transferMachine cfg initTime).Reachable t)
    {request : Segment} (hm : request ∈ t.requests) (clock : Nat → Int) : FromClient (.request request clock) := by
  have hinv : AskingInv t :=
    h.invariant ⟨fun _ => le_refl _, trivial, by simp [transferMachine]⟩ fun _ _ _ hi hs => hi.step hs
  exact hinv.requests request hm

/-- **The oldest segment is guarded, exactly.** Along every run of the server the window goes up
from the highest ACK number, and a timeout resends the segment with that number, if and only
if each request something is sent for is for a file that is there, and no older than those
before it. -/
theorem oldestGuarded_along_iff (cfg : Config) (initTime : Int) {es : List ServerEvent}
    (hes : ∀ e ∈ es, FromClient e) :
    (guardMachine cfg initTime).Along OldestGuarded (guardMachine cfg initTime).init es ↔
      (guardMachine cfg initTime).Along (InOrder cfg) (guardMachine cfg initTime).init es := by
  refine Machine.along_congr_of_forall (I := Guarded) ?_ ?_ hes rfl
  · intro s e s' he h hstep
    refine ⟨inOrder_of_oldest he hstep, ?_⟩
    intro hin
    exact h.oldest (h.step hstep hin) hstep
  · intro s e s' _ h hstep hin
    exact h.step hstep hin

/-- A request for the only segment, and a timeout that resends it. -/
theorem oldestGuarded_along_iff_one :
    let cfg : Config := { file := some [7], maxBufferSize := 8, maxWindowSize := 8, conv := .cvttsd2si }
    let es : List ServerEvent := [.request { ackNum := 1, rwnd := 1 } fun _ => 0, .timeout 3000000]
    ((guardMachine cfg 0).exec (guardMachine cfg 0).init es).any
      (fun s => s.out.map (·.sequenceNum) = [1]) = true ∧
    (guardMachine cfg 0).Along OldestGuarded (guardMachine cfg 0).init es := by
  refine ⟨by decide +kernel, (oldestGuarded_along_iff _ _ (by simp [FromClient])).mpr ?_⟩
  intro s hs
  exact ⟨.inr ⟨by simp, by simp [guardMachine]⟩, fun _ _ => ⟨trivial, trivial⟩⟩

/-- A file of two segments: the first is asked for, then the second, and then the first request
arrives again. Segment 1 is linked behind segment 2. -/
theorem not_oldestGuarded :
    let cfg : Config :=
      { file := some (List.replicate 492 7), maxBufferSize := 8, maxWindowSize := 8, conv := .cvttsd2si }
    let ask (ackNum : Int) : ServerEvent := .request { ackNum, rwnd := 1 } fun _ => 0
    (∀ e ∈ [ask 1, ask 2, ask 1], FromClient e) ∧
    ¬ (guardMachine cfg 0).Along OldestGuarded (guardMachine cfg 0).init [ask 1, ask 2, ask 1] := by
  intro cfg ask
  refine ⟨by simp [ask, FromClient], ?_⟩
  intro ha
  have hwhole : (guardMachine cfg 0).Along OldestGuarded (guardMachine cfg 0).init
      ([ask 1, ask 2] ++ [ask 1]) := ha
  have hcut (s : Server) (e : ServerEvent) : s.step cfg e = s.stepWith (cutOut (List.replicate 492 7)) cfg e :=
    s.step_cutOut rfl (by rw [List.length_replicate]; decide) e
  have hrun : (((guardMachine cfg 0).exec (guardMachine cfg 0).init [ask 1, ask 2]).any fun s =>
      ((guardMachine cfg 0).step s (ask 1)).any fun s' =>
        s'.server.sendBase.map (·.sequenceNum) = [2, 1]) = true := by
    simp only [guardMachine, hcut]
    decide +kernel
  obtain ⟨s, hs, hlast⟩ := (Option.any_eq_true _ _).mp hrun
  obtain ⟨s', hstep, hnumbers⟩ := (Option.any_eq_true _ _).mp hlast
  have hup := (hwhole.last hs hstep).increasing
  rw [of_decide_eq_true hnumbers] at hup
  exact absurd hup (by decide)

end Sockets.Udp
