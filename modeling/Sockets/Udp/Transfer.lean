/-
The transfer: the child server, the two threads of the client and the
network between them. The network is the list of all requests and the list
of all data datagrams ever sent; a party may receive any of them at any
time, any number of times or never, so loss, duplication, delay and
reordering are all there.

What one step can do is said once here, for the invariants of the modules
after it: `Transfer.Moves` for the whole, `Server.Moves` for the server, and
for the client `RecvFacts.HoldAt`, which says of every value the receive
thread holds in its local variables what is known of it.
-/
import Sockets.Udp.Client

namespace Sockets.Udp

structure Transfer where
  server : Server
  client : Client
  requests : List Segment
  data : List Segment

inductive TransferEvent
  | serverTimeout (now : Int)
  | serverRequest (request : Segment) (clock : Nat → Int)
  | serverInterrupted
  | receiver (lost : Bool)
  | datagram (seg : Segment) (lost : Bool)
  | consumer

/-- The server takes a step; what it sends is on its way. -/
def Transfer.serverStep (cfg : Config) (s : Transfer) (e : ServerEvent) : Option Transfer :=
  (s.server.step cfg e).map fun (server, out) => { s with server, data := s.data ++ out }

def transferMachine (cfg : Config) (initTime : Int) : Machine Transfer TransferEvent where
  init := { server := .start initTime, client := .start, requests := [], data := [] }
  step s
    | .serverTimeout now => s.serverStep cfg (.timeout now)
    | .serverRequest request clock =>
      if request ∈ s.requests then s.serverStep cfg (.request request clock) else none
    | .serverInterrupted => s.serverStep cfg .interrupted
    | .receiver lost =>
      (s.client.receiverStep cfg lost).map fun (client, out) =>
        { s with client, requests := s.requests ++ out }
    | .datagram seg lost =>
      if seg ∈ s.data then
        (s.client.onDatagram cfg seg lost).map fun (client, out) =>
          { s with client, requests := s.requests ++ out }
      else none
    | .consumer => s.client.consumerStep.map fun client => { s with client }

/-- One step of a transfer: of the server, which answers only what was sent,
of the receive thread, of a datagram that was sent, or of the consumer. -/
inductive Transfer.Moves (cfg : Config) (s : Transfer) : TransferEvent → Transfer → Prop
  | server {e s'} (se : ServerEvent)
      (hsent : ∀ request clock, se = .request request clock → request ∈ s.requests)
      (hstep : s.serverStep cfg se = some s') : Moves cfg s e s'
  | receiver {lost client out} (hstep : s.client.receiverStep cfg lost = some (client, out)) :
      Moves cfg s (.receiver lost) { s with client, requests := s.requests ++ out }
  | datagram {seg lost client out} (hsent : seg ∈ s.data)
      (hstep : s.client.onDatagram cfg seg lost = some (client, out)) :
      Moves cfg s (.datagram seg lost) { s with client, requests := s.requests ++ out }
  | consumer {client} (hstep : s.client.consumerStep = some client) :
      Moves cfg s .consumer { s with client }

theorem Transfer.step_moves {cfg : Config} {initTime : Int} {s s' : Transfer} {e : TransferEvent}
    (h : (transferMachine cfg initTime).step s e = some s') : s.Moves cfg e s' := by
  cases e with
  | serverTimeout now => exact .server (.timeout now) (by simp) h
  | serverInterrupted => exact .server .interrupted (by simp) h
  | serverRequest request clock =>
    simp only [transferMachine] at h
    split at h
    next hsent =>
      refine .server (.request request clock) ?_ h
      intro request' clock' he
      cases he
      exact hsent
    · cases h
  | receiver lost =>
    simp only [transferMachine, Option.map_eq_some_iff] at h
    obtain ⟨⟨client, out⟩, hstep, rfl⟩ := h
    exact .receiver hstep
  | datagram seg lost =>
    simp only [transferMachine] at h
    split at h
    next hsent =>
      simp only [Option.map_eq_some_iff] at h
      obtain ⟨⟨client, out⟩, hstep, rfl⟩ := h
      exact .datagram hsent hstep
    · cases h
  | consumer =>
    simp only [transferMachine, Option.map_eq_some_iff] at h
    obtain ⟨client, hstep, rfl⟩ := h
    exact .consumer hstep

/-! ## What the server can do -/

/-- The segment the send loop built for number `i`, in answer to a request
that advertised `recvRwnd`. -/
def BuiltAt (file : Option (List UInt8)) (recvRwnd i : Int) (seg : Segment) : Prop :=
  ∃ segToSend now, buildSegment file i recvRwnd segToSend now = some seg

/-- What the send loop does to the server, given at most `segToSend` segments to send. -/
structure SendLoopSpec (file : Option (List UInt8)) (recvRwnd : Int) (segToSend : Nat)
    (s s' : Server) (out : List Segment) : Prop where
  status : s'.status = s.status
  timer : s'.timer = s.timer
  congestion : s'.congestion = s.congestion
  last_ge : s.lastSegAcked ≤ s'.lastSegAcked
  last_le : s'.lastSegAcked ≤ s.lastSegAcked + segToSend
  built : ∀ seg ∈ out, ∃ i, s.lastSegAcked < i ∧ i ≤ s'.lastSegAcked ∧ BuiltAt file recvRwnd i seg
  kept : ∀ node ∈ s.sendBase, node ∈ s'.sendBase
  sendBase : ∀ node ∈ s'.sendBase, node ∈ s.sendBase ∨ node ∈ out
  empty : s'.sendBase = [] → s'.lastSegAcked = s.lastSegAcked

theorem SendLoopSpec.refl {file : Option (List UInt8)} {recvRwnd : Int} (segToSend : Nat) (s : Server) :
    SendLoopSpec file recvRwnd segToSend s s [] where
  status := rfl
  timer := rfl
  congestion := rfl
  last_ge := le_refl _
  last_le := by omega
  built := by simp
  kept _ := id
  sendBase _ := .inl
  empty _ := rfl

theorem SendLoopSpec.trans {file : Option (List UInt8)} {recvRwnd : Int} {m n : Nat} {s₁ s₂ s₃ : Server}
    {out₁ out₂ : List Segment} (h₁ : SendLoopSpec file recvRwnd m s₁ s₂ out₁)
    (h₂ : SendLoopSpec file recvRwnd n s₂ s₃ out₂) :
    SendLoopSpec file recvRwnd (m + n) s₁ s₃ (out₁ ++ out₂) where
  status := h₂.status.trans h₁.status
  timer := h₂.timer.trans h₁.timer
  congestion := h₂.congestion.trans h₁.congestion
  last_ge := h₁.last_ge.trans h₂.last_ge
  last_le := by
    have hle₁ := h₁.last_le
    have hle₂ := h₂.last_le
    omega
  built seg hm := by
    have hge₁ := h₁.last_ge
    have hge₂ := h₂.last_ge
    cases List.mem_append.mp hm with
    | inl hm =>
      obtain ⟨i, hlt, hle, hb⟩ := h₁.built seg hm
      exact ⟨i, hlt, by omega, hb⟩
    | inr hm =>
      obtain ⟨i, hlt, hle, hb⟩ := h₂.built seg hm
      exact ⟨i, by omega, hle, hb⟩
  kept node hm := h₂.kept node (h₁.kept node hm)
  sendBase node hm := by
    cases h₂.sendBase node hm with
    | inl hm => exact (h₁.sendBase node hm).imp_right (List.mem_append_left _)
    | inr hm => exact .inr (List.mem_append_right _ hm)
  empty he := by
    have hnone : ∀ node, node ∉ s₂.sendBase := by
      intro node hm
      have hkept := h₂.kept node hm
      simp [he] at hkept
    have hempty : s₂.sendBase = [] := List.eq_nil_iff_forall_not_mem.mpr hnone
    rw [h₂.empty he, h₁.empty hempty]

/-- One turn of the loop: the counter goes up, the segment is built, linked and sent. -/
theorem SendLoopSpec.one {file : Option (List UInt8)} {recvRwnd : Int} {s : Server} {seg : Segment}
    (hseg : BuiltAt file recvRwnd (s.lastSegAcked + 1) seg) (lastOutTime : Int) :
    SendLoopSpec file recvRwnd 1 s
      { Server.linkSegment { s with lastSegAcked := s.lastSegAcked + 1 } seg with lastOutTime } [seg] := by
  unfold Server.linkSegment
  split
  next h =>
    exact {
      status := rfl
      timer := rfl
      congestion := rfl
      last_ge := by dsimp only; omega
      last_le := by simp
      built := by simpa using ⟨_, by omega, le_refl _, hseg⟩
      kept := fun _ => id
      sendBase := fun _ => .inl
      empty := fun he => by
        dsimp only at h he
        simp [he] at h }
  · exact {
      status := rfl
      timer := rfl
      congestion := rfl
      last_ge := by dsimp only; omega
      last_le := by simp
      built := by simpa using ⟨_, by omega, le_refl _, hseg⟩
      kept := fun _ => List.mem_append_left _
      sendBase := fun _ => List.mem_append.mp
      empty := fun he => by simp at he }

theorem sendLoop_spec {file : Option (List UInt8)} {recvRwnd windowSpace : Int} {clock : Nat → Int}
    {segToSend : Nat} {s s' : Server} {out : List Segment}
    (h : sendLoop file recvRwnd windowSpace clock segToSend s = some (s', out)) :
    SendLoopSpec file recvRwnd segToSend s s' out := by
  induction segToSend generalizing s s' out with
  | zero =>
    simp only [sendLoop, Option.some.injEq, Prod.mk.injEq] at h
    obtain ⟨rfl, rfl⟩ := h
    exact .refl _ _
  | succ segToSend ih =>
    simp only [sendLoop] at h
    split at h
    · simp only [Option.some.injEq, Prod.mk.injEq] at h
      obtain ⟨rfl, rfl⟩ := h
      exact .refl _ _
    · simp only [Option.bind_eq_bind, Option.bind_eq_some_iff] at h
      obtain ⟨seg, hseg, h⟩ := h
      have hone : SendLoopSpec file recvRwnd 1 s _ [seg] := .one ⟨_, _, hseg⟩ seg.timestamp
      have hstop := hone.trans (.refl segToSend _)
      rw [Nat.add_comm 1] at hstop
      split at h
      · simp only [Option.some.injEq, Prod.mk.injEq] at h
        obtain ⟨rfl, rfl⟩ := h
        exact hstop
      split at h
      · simp only [Option.some.injEq, Prod.mk.injEq] at h
        obtain ⟨rfl, rfl⟩ := h
        exact hstop
      · simp only [Option.bind_eq_some_iff] at h
        obtain ⟨⟨s₂, out₂⟩, hloop, h⟩ := h
        simp only [Option.some.injEq, Prod.mk.injEq] at h
        obtain ⟨rfl, rfl⟩ := h
        have hrest := hone.trans (ih hloop)
        rwa [Nat.add_comm 1] at hrest

theorem mem_prune {lastSegAcked : Int} {node : Segment} {nodes : List Segment} {num : Int}
    (h : node ∈ (prune lastSegAcked nodes num).1) : node ∈ nodes := by
  induction nodes generalizing num with
  | nil => exact h
  | cons first rest ih =>
    simp only [prune] at h
    split at h
    · exact List.mem_cons_of_mem _ (ih h)
    · exact h

/-- The value of `seg_to_send` never exceeds what the client advertised. -/
theorem segToSend_le (recvRwnd cwnd windowSpace : Int) :
    segToSend recvRwnd cwnd windowSpace ≤ recvRwnd := by
  unfold segToSend
  dsimp only
  split <;> split <;> omega

/-- One iteration of the server: it sends nothing and keeps its window, it
resends, or it answers a request that is not the last. -/
inductive Server.Moves (cfg : Config) (s : Server) : ServerEvent → Server → List Segment → Prop
  | quiet {e s'} (hbase : s'.sendBase = s.sendBase) (hlast : s'.lastSegAcked = s.lastSegAcked)
      (hcomplete : s'.status = .complete →
        ∃ request clock, e = .request request clock ∧ 0 < request.isComplete) :
      Moves cfg s e s' []
  | resend {now s'} (hbase : s'.sendBase = s.sendBase) (hlast : s'.lastSegAcked = s.lastSegAcked)
      (hstatus : s'.status = .running) : Moves cfg s (.timeout now) s' [s.timeoutSegment now]
  | answer {request clock s' out} {segToSend : Nat} (s₁ : Server)
      (hcomplete : ¬ 0 < request.isComplete) (hbase : ∀ node ∈ s₁.sendBase, node ∈ s.sendBase)
      (hlast : s₁.lastSegAcked = request.ackNum - 1) (hstatus : s'.status = .running)
      (hle : segToSend ≤ request.rwnd.toNat)
      (hsend : SendLoopSpec cfg.file request.rwnd segToSend s₁ s' out) :
      Moves cfg s (.request request clock) s' out

theorem Server.step_moves {cfg : Config} {s s' : Server} {e : ServerEvent} {out : List Segment}
    (h : s.step cfg e = some (s', out)) : s.Moves cfg e s' out := by
  unfold Server.step at h
  split at h
  · cases h
  next hrun =>
  rw [ne_eq, not_not] at hrun
  split at h
  · simp only [Option.some.injEq, Prod.mk.injEq] at h
    obtain ⟨rfl, rfl⟩ := h
    exact .quiet rfl rfl nofun
  next timer _ =>
  cases e with
  | timeout now =>
    simp only [Option.some.injEq, Prod.mk.injEq] at h
    obtain ⟨rfl, rfl⟩ := h
    exact .resend rfl rfl hrun
  | interrupted =>
    simp only [Option.some.injEq, Prod.mk.injEq] at h
    obtain ⟨rfl, rfl⟩ := h
    exact .quiet rfl rfl (by simp [hrun])
  | request request clock =>
    simp only [Server.onRequest] at h
    split at h
    next hc =>
      simp only [Option.some.injEq, Prod.mk.injEq] at h
      obtain ⟨rfl, rfl⟩ := h
      exact .quiet rfl rfl fun _ => ⟨request, clock, rfl, hc⟩
    next hc =>
      have hspec := sendLoop_spec h
      have hbase :
          ∀ node ∈ (prune (request.ackNum - 1) s.sendBase s.numSegInBuf).1, node ∈ s.sendBase :=
        fun node hm => mem_prune hm
      refine .answer _ hc hbase rfl (hspec.status.trans hrun) ?_ hspec
      exact Int.toNat_le_toNat (segToSend_le _ _ _)

/-! ## What the client can do -/

/-- What is known of the values in the receive thread's local variables: of
an `ackNum` it has read, of an `rwnd`, of a request it is about to send or
has just sent, of a datagram, and of one that passed the test. -/
structure RecvFacts where
  ackNum : Int → Prop
  rwnd : Int → Prop
  request : Segment → Prop
  datagram : Segment → Prop
  tested : Segment → Prop

def RecvFacts.HoldAt (F : RecvFacts) : RecvPc → Prop
  | .rwnd ackNum => F.ackNum ackNum
  | .complete ackNum rwnd => F.ackNum ackNum ∧ F.rwnd rwnd
  | .send request | .sent request => F.request request
  | .test seg _ _ | .flags seg _ _ => F.datagram seg
  | .insert seg _ _ => F.tested seg
  | .request | .listen .. | .read .. | .join | .timeWait | .exited => True

/-- `G` asks no more than `F`, except perhaps of a tested segment. -/
structure RecvFacts.Le (F G : RecvFacts) : Prop where
  ackNum : ∀ ackNum, F.ackNum ackNum → G.ackNum ackNum
  rwnd : ∀ rwnd, F.rwnd rwnd → G.rwnd rwnd
  request : ∀ request, F.request request → G.request request
  datagram : ∀ seg, F.datagram seg → G.datagram seg

theorem RecvFacts.Le.holdAt {F G : RecvFacts} (h : F.Le G) : ∀ {pc : RecvPc},
    (∀ seg initRwnd probe, pc = .insert seg initRwnd probe → F.tested seg → G.tested seg) →
    F.HoldAt pc → G.HoldAt pc
  | .rwnd _, _, hpc => h.ackNum _ hpc
  | .complete .., _, hpc => ⟨h.ackNum _ hpc.1, h.rwnd _ hpc.2⟩
  | .send _, _, hpc | .sent _, _, hpc => h.request _ hpc
  | .test .., _, hpc | .flags .., _, hpc => h.datagram _ hpc
  | .insert .., ht, hpc => ht _ _ _ rfl hpc
  | .request, _, _ | .listen .., _, _ | .read .., _, _ | .join, _, _ | .timeWait, _, _
  | .exited, _, _ => trivial

/-- What the shared variables must satisfy for the receive thread to go on
knowing `F`. -/
structure RecvFacts.Sound (F : RecvFacts) (cfg : Config) (c : Client) : Prop where
  ackNum : F.ackNum (c.window.lastSegAcked + 1)
  rwnd : F.rwnd (cfg.maxWindowSize - c.window.numSegInBuf)
  request : ∀ ackNum rwnd, F.ackNum ackNum → F.rwnd rwnd → F.request { ackNum, rwnd }
  complete : ∀ rwnd, F.rwnd rwnd → c.transferred →
    F.request { ackNum := c.lastSegInTransfer, rwnd, isComplete := 1 }
  tested : ∀ seg, F.datagram seg → c.window.lastSegAcked < seg.sequenceNum → F.tested seg
  datagram : ∀ seg, F.tested seg → F.datagram seg

section Client

variable {cfg : Config} {c c' : Client} {lost : Bool} {out : List Segment} {F : RecvFacts}

/-- A step of the receive thread, or the arrival of a datagram: what it
knows and sends, and its writes to the window and to `last_seg_in_transfer`. -/
structure ReceiverSpec (F : RecvFacts) (cfg : Config) (c c' : Client) (out : List Segment) : Prop where
  holdAt : F.HoldAt c'.recvPc
  out : ∀ request ∈ out, F.request request
  window : c'.window = c.window ∨ ∃ seg initRwnd probe, c.recvPc = .insert seg initRwnd probe ∧
    c'.window = c.window.insert cfg.maxWindowSize seg
  lastSegInTransfer : c'.lastSegInTransfer = c.lastSegInTransfer ∨ ∃ seg initRwnd probe,
    c.recvPc = .flags seg initRwnd probe ∧ 0 < seg.isEof ∧ c'.lastSegInTransfer = seg.sequenceNum

/-- A step that leaves what is shared alone. -/
theorem ReceiverSpec.of_local (hwin : c'.window = c.window)
    (hlast : c'.lastSegInTransfer = c.lastSegInTransfer)
    (hpc : F.HoldAt c'.recvPc) (hout : ∀ request ∈ out, F.request request) :
    ReceiverSpec F cfg c c' out where
  holdAt := hpc
  out := hout
  window := .inl hwin
  lastSegInTransfer := .inl hlast

theorem receiverStep_spec (hF : F.Sound cfg c) (hpc : F.HoldAt c.recvPc)
    (h : c.receiverStep cfg lost = some (c', out)) : ReceiverSpec F cfg c c' out := by
  cases hc : c.recvPc with
  | request =>
    simp only [Client.receiverStep, hc] at h
    split at h
    · simp only [Option.some.injEq, Prod.mk.injEq] at h
      obtain ⟨rfl, rfl⟩ := h
      exact .of_local rfl rfl trivial (by simp)
    · simp only [Option.some.injEq, Prod.mk.injEq] at h
      obtain ⟨rfl, rfl⟩ := h
      exact .of_local rfl rfl hF.ackNum (by simp)
  | rwnd ackNum =>
    simp only [Client.receiverStep, hc, Option.some.injEq, Prod.mk.injEq] at h hpc
    obtain ⟨rfl, rfl⟩ := h
    exact .of_local rfl rfl ⟨hpc, hF.rwnd⟩ (by simp)
  | complete ackNum rwnd =>
    simp only [Client.receiverStep, hc] at h hpc
    split at h
    next ht =>
      simp only [Option.some.injEq, Prod.mk.injEq] at h
      obtain ⟨rfl, rfl⟩ := h
      exact .of_local rfl rfl (hF.complete rwnd hpc.2 ht) (by simp)
    · simp only [Option.some.injEq, Prod.mk.injEq] at h
      obtain ⟨rfl, rfl⟩ := h
      exact .of_local rfl rfl (hF.request ackNum rwnd hpc.1 hpc.2) (by simp)
  | send request =>
    simp only [Client.receiverStep, hc, Option.some.injEq, Prod.mk.injEq] at h hpc
    obtain ⟨rfl, rfl⟩ := h
    refine .of_local rfl rfl hpc fun r hr => ?_
    split at hr
    · simp at hr
    · rw [List.mem_singleton.mp hr]
      exact hpc
  | sent request =>
    simp only [Client.receiverStep, hc] at h
    split at h <;>
    · simp only [Option.some.injEq, Prod.mk.injEq] at h
      obtain ⟨rfl, rfl⟩ := h
      exact .of_local rfl rfl trivial (by simp)
  | listen initRwnd probe =>
    simp only [Client.receiverStep, hc] at h
    split at h
    · split at h <;>
      · simp only [Option.some.injEq, Prod.mk.injEq] at h
        obtain ⟨rfl, rfl⟩ := h
        exact .of_local rfl rfl trivial (by simp)
    · simp only [Option.some.injEq, Prod.mk.injEq] at h
      obtain ⟨rfl, rfl⟩ := h
      exact .of_local rfl rfl trivial (by simp)
  | test seg initRwnd probe =>
    simp only [Client.receiverStep, hc] at h hpc
    split at h
    next hlt =>
      simp only [Option.some.injEq, Prod.mk.injEq] at h
      obtain ⟨rfl, rfl⟩ := h
      exact .of_local rfl rfl (hF.tested seg hpc hlt) (by simp)
    · simp only [Option.some.injEq, Prod.mk.injEq] at h
      obtain ⟨rfl, rfl⟩ := h
      exact .of_local rfl rfl hpc (by simp)
  | insert seg initRwnd probe =>
    simp only [Client.receiverStep, hc] at h hpc
    split at h
    · cases h
    · simp only [Option.some.injEq, Prod.mk.injEq] at h
      obtain ⟨rfl, rfl⟩ := h
      exact { holdAt := hF.datagram seg hpc, out := by simp
              window := .inr ⟨seg, initRwnd, probe, hc, rfl⟩, lastSegInTransfer := .inl rfl }
  | flags seg initRwnd probe =>
    simp only [Client.receiverStep, hc] at h
    split at h
    next heof =>
      simp only [Option.some.injEq, Prod.mk.injEq] at h
      obtain ⟨rfl, rfl⟩ := h
      exact { holdAt := trivial, out := by simp, window := .inl rfl
              lastSegInTransfer := .inr ⟨seg, initRwnd, probe, hc, heof, rfl⟩ }
    · repeat' split at h
      all_goals
        simp only [Option.some.injEq, Prod.mk.injEq] at h
        obtain ⟨rfl, rfl⟩ := h
        exact .of_local rfl rfl trivial (by simp)
  | join =>
    simp only [Client.receiverStep, hc] at h
    split at h
    · simp only [Option.some.injEq, Prod.mk.injEq] at h
      obtain ⟨rfl, rfl⟩ := h
      exact .of_local rfl rfl trivial (by simp)
    · cases h
  | timeWait =>
    simp only [Client.receiverStep, hc, Option.some.injEq, Prod.mk.injEq] at h
    obtain ⟨rfl, rfl⟩ := h
    exact .of_local rfl rfl trivial (by simp)
  | read | exited => simp only [Client.receiverStep, hc, reduceCtorEq] at h

/-- A datagram tells the receive thread nothing but itself; the one that
says there is no such file ends the client. -/
theorem onDatagram_spec {seg : Segment} (hF : F.Sound cfg c) (hseg : F.datagram seg)
    (h : c.onDatagram cfg seg lost = some (c', out)) : ReceiverSpec F cfg c c' out ∨
      (seg.sequenceNum = -1 ∧ seg.ackNum = -1 ∧ out = [] ∧
        c' = { c with window := { c.window with lastSegAcked := -1 }, recvPc := .exited }) := by
  unfold Client.onDatagram at h
  split at h
  · split at h
    · simp only [Option.some.injEq, Prod.mk.injEq] at h
      obtain ⟨rfl, rfl⟩ := h
      exact .inl (.of_local rfl rfl trivial (by simp))
    split at h
    next hno =>
      simp only [Option.some.injEq, Prod.mk.injEq] at h
      obtain ⟨rfl, rfl⟩ := h
      exact .inr ⟨hno.1, hno.2, rfl, rfl⟩
    split at h
    · simp only [Option.some.injEq, Prod.mk.injEq] at h
      obtain ⟨rfl, rfl⟩ := h
      exact .inl (.of_local rfl rfl trivial (by simp))
    · simp only [Option.some.injEq, Prod.mk.injEq] at h
      obtain ⟨rfl, rfl⟩ := h
      exact .inl (.of_local rfl rfl hseg (by simp))
  next hc =>
    have hack := hF.request _ _ hF.ackNum hF.rwnd
    split at h
    next ht =>
      simp only [Option.some.injEq, Prod.mk.injEq] at h
      obtain ⟨rfl, rfl⟩ := h
      refine .inl (.of_local rfl rfl (by simp only [hc]; trivial) fun r hr => ?_)
      split at hr
      · simp at hr
      · rw [List.mem_singleton.mp hr]
        exact hF.complete _ hF.rwnd ht
    · simp only [Option.some.injEq, Prod.mk.injEq] at h
      obtain ⟨rfl, rfl⟩ := h
      refine .inl (.of_local rfl rfl (by simp only [hc]; trivial) fun r hr => ?_)
      split at hr
      · simp at hr
      · rw [List.mem_singleton.mp hr]
        exact hack
  · cases h

/-- The consumer only prints, and not after the client has exited. -/
theorem consumerStep_spec (h : c.consumerStep = some c') :
    c.recvPc ≠ .exited ∧ c'.recvPc = c.recvPc ∧ c'.lastSegInTransfer = c.lastSegInTransfer ∧
      (c'.window = c.window ∨ c.window.printHead = some c'.window) := by
  unfold Client.consumerStep at h
  split at h
  · cases h
  next hex =>
  refine ⟨hex, ?_⟩
  split at h
  · simp only [Option.some.injEq] at h
    subst h
    exact ⟨rfl, rfl, .inl rfl⟩
  · split at h
    next hw =>
      simp only [Option.some.injEq] at h
      subst h
      exact ⟨rfl, rfl, .inr hw⟩
    · simp only [Option.some.injEq] at h
      subst h
      exact ⟨rfl, rfl, .inl rfl⟩
  · repeat' split at h
    all_goals
      simp only [Option.some.injEq] at h
      subst h
      exact ⟨rfl, rfl, .inl rfl⟩
  · cases h

end Client

/-! ## A segment that is put in the window -/

/-- A segment with this number that is put in the window, and nothing more. -/
structure Segment.Plain (n : Int) (seg : Segment) : Prop where
  sequenceNum : seg.sequenceNum = n
  isProbe : seg.isProbe = 0
  isEof : seg.isEof = 0
  isResent : seg.isResent = 0
  isLastInIter : seg.isLastInIter = 0

instance (n : Int) (seg : Segment) : Decidable (seg.Plain n) :=
  decidable_of_iff (seg.sequenceNum = n ∧ seg.isProbe = 0 ∧ seg.isEof = 0 ∧ seg.isResent = 0 ∧
      seg.isLastInIter = 0)
    ⟨fun h => ⟨h.1, h.2.1, h.2.2.1, h.2.2.2.1, h.2.2.2.2⟩, fun h => ⟨h.1, h.2, h.3, h.4, h.5⟩⟩

/-- From the head of its inner loop the receive thread gets back there, with one segment more. -/
theorem Transfer.arrives {cfg : Config} {initTime initRwnd n : Int} {s : Transfer} {seg : Segment}
    {window : RecvWindow} {G : Transfer → TransferEvent → Transfer → Prop}
    (hG : ∀ s e s', e ≠ .consumer → G s e s') (hs : (transferMachine cfg initTime).ReachableBy G s)
    (hpc : s.client.recvPc = .listen initRwnd false) (hrwnd : 0 < initRwnd) (hopen : ¬ s.client.transferred)
    (hidle : s.client.consumerPc ≠ .draining) (hsent : seg ∈ s.data) (hseg : seg.Plain n) (hn : 0 ≤ n)
    (hnew : s.client.window.lastSegAcked < n) (hput : s.client.window.insert cfg.maxWindowSize seg = window) :
    (transferMachine cfg initTime).ReachableBy G
      { s with client := { s.client with window, recvPc := .listen (initRwnd - 1) false } } := by
  let before (recvPc : RecvPc) : Transfer := { s with client := { s.client with recvPc } }
  let after (recvPc : RecvPc) : Transfer := { s with client := { s.client with window, recvPc } }
  have hread : (transferMachine cfg initTime).step s (.receiver false) =
      some (before (.read initRwnd false)) := by
    simp [transferMachine, Client.receiverStep, hpc, hrwnd, hopen, before]
  have hdatagram : (transferMachine cfg initTime).step (before (.read initRwnd false)) (.datagram seg false) =
      some (before (.test seg initRwnd false)) := by
    have hnumber : ¬ (n = -1 ∧ seg.ackNum = -1) := by omega
    simp [transferMachine, Client.onDatagram, hsent, hseg.sequenceNum, hseg.isProbe, hnumber, before]
  have htest : (transferMachine cfg initTime).step (before (.test seg initRwnd false)) (.receiver false) =
      some (before (.insert seg initRwnd false)) := by
    simp [transferMachine, Client.receiverStep, hseg.sequenceNum, hnew, before]
  have hinsert : (transferMachine cfg initTime).step (before (.insert seg initRwnd false)) (.receiver false) =
      some (after (.flags seg initRwnd false)) := by
    simp [transferMachine, Client.receiverStep, hidle, hput, before, after]
  have hflags : (transferMachine cfg initTime).step (after (.flags seg initRwnd false)) (.receiver false) =
      some (after (.listen (initRwnd - 1) false)) := by
    simp [transferMachine, Client.receiverStep, hseg.isEof, hseg.isResent, hseg.isLastInIter, after]
  have hs := (hs.step hread (hG _ _ _ (by simp))).step hdatagram (hG _ _ _ (by simp))
  have hs := (hs.step htest (hG _ _ _ (by simp))).step hinsert (hG _ _ _ (by simp))
  exact hs.step hflags (hG _ _ _ (by simp))

end Sockets.Udp
