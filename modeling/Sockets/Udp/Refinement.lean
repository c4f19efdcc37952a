/-
The machines of the parts, within the whole: in a transfer the child
server's timer runs as `timerMachine`, its congestion state as
`congestionMachine`, and the client's two threads as `raceMachine`. So what
is proved of the parts holds in every state a transfer reaches.

The client takes smaller steps than the race: its consumer drains the
window round by round, and the receive thread may make its test meanwhile.
To the race the whole drain happens when it ends.
-/
import Sockets.Udp.ConsumerRace
import Sockets.Udp.Transfer

namespace Sockets.Udp

variable {cfg : Config} {initTime : Int} {s s' : Transfer}

/-! ## The server's parts -/

section Server

variable {server server' : Server} {e : ServerEvent} {out : List Segment}

/-- What an iteration does to the timer, if anything, the timer machine does. -/
theorem serverStep_timer (h : server.step cfg e = some (server', out)) :
    server'.timer = server.timer ∨
      ∃ te, (timerMachine cfg.conv).step server.timer te = some server'.timer := by
  unfold Server.step at h
  split at h
  · cases h
  split at h
  · simp only [Option.some.injEq, Prod.mk.injEq] at h
    obtain ⟨rfl, rfl⟩ := h
    exact .inl rfl
  next timer hawait =>
  right
  cases e with
  | timeout now =>
    simp only [Option.some.injEq, Prod.mk.injEq] at h
    obtain ⟨rfl, rfl⟩ := h
    exact ⟨.timeout, by simp [timerMachine, hawait, Server.onTimeout]⟩
  | interrupted =>
    simp only [Option.some.injEq, Prod.mk.injEq] at h
    obtain ⟨rfl, rfl⟩ := h
    exact ⟨.interrupted, by simp [timerMachine, hawait]⟩
  | request request clock =>
    refine ⟨.request (i32 (i32 (clock 0) - server.lastOutTime)), ?_⟩
    simp only [Server.onRequest] at h
    split at h
    · simp only [Option.some.injEq, Prod.mk.injEq] at h
      obtain ⟨rfl, rfl⟩ := h
      simp [timerMachine, hawait]
    · have hsend := sendLoop_spec h
      simp [timerMachine, hawait, hsend.timer]

/-- An iteration after which the server goes on is a step of the congestion machine, or none. -/
theorem serverStep_congestion (h : server.step cfg e = some (server', out))
    (hrun : server'.status = .running) :
    server'.congestion = server.congestion ∨
      ∃ ce, congestionMachine.step server.congestion ce = some server'.congestion := by
  unfold Server.step at h
  split at h
  · cases h
  split at h
  · simp only [Option.some.injEq, Prod.mk.injEq] at h
    obtain ⟨rfl, rfl⟩ := h
    exact .inl rfl
  cases e with
  | timeout now =>
    simp only [Option.some.injEq, Prod.mk.injEq] at h
    obtain ⟨rfl, rfl⟩ := h
    exact .inr ⟨.timeout, rfl⟩
  | interrupted =>
    simp only [Option.some.injEq, Prod.mk.injEq] at h
    obtain ⟨rfl, rfl⟩ := h
    exact .inl rfl
  | request request clock =>
    simp only [Server.onRequest] at h
    split at h
    · simp only [Option.some.injEq, Prod.mk.injEq] at h
      obtain ⟨rfl, rfl⟩ := h
      cases hrun
    · have hsend := sendLoop_spec h
      exact .inr ⟨.ack request.ackNum, by simp [congestionMachine, Congestion.ack, hsend.congestion]⟩

end Server

/-- A step of the transfer is one of the server's, or leaves the server alone. -/
theorem transfer_step_server {e : TransferEvent}
    (h : (transferMachine cfg initTime).step s e = some s') :
    s'.server = s.server ∨ ∃ se out, s.server.step cfg se = some (s'.server, out) := by
  cases Transfer.step_moves h with
  | server se _ hstep =>
    simp only [Transfer.serverStep, Option.map_eq_some_iff] at hstep
    obtain ⟨⟨server, out⟩, hserver, rfl⟩ := hstep
    exact .inr ⟨se, out, hserver⟩
  | receiver | datagram | consumer => exact .inl rfl

/-- **The timer of a transfer** is in a state its machine reaches. -/
theorem transfer_timer_reachable (h : (transferMachine cfg initTime).Reachable s) :
    (timerMachine cfg.conv).Reachable s.server.timer := by
  refine h.invariant (I := fun s => (timerMachine cfg.conv).Reachable s.server.timer) .start ?_
  intro s e s' hs hstep
  rcases transfer_step_server hstep with hsame | ⟨se, out, hserver⟩
  · rwa [hsame]
  rcases serverStep_timer hserver with hsame | ⟨te, hte⟩
  · rwa [hsame]
  · exact hs.next hte

/-- **The congestion state of a transfer** is one its machine reaches, until the server stops. -/
theorem transfer_congestion_reachable (h : (transferMachine cfg initTime).Reachable s) :
    s.server.status = .running → congestionMachine.Reachable s.server.congestion := by
  refine h.invariant
    (I := fun s => s.server.status = .running → congestionMachine.Reachable s.server.congestion)
    (fun _ => .start) ?_
  intro s e s' hs hstep hrun
  rcases transfer_step_server hstep with hsame | ⟨se, out, hserver⟩
  · rw [hsame] at hrun ⊢
    exact hs hrun
  -- the server took a step, so it was running
  have hbefore : s.server.status = .running := by
    unfold Server.step at hserver
    by_contra hstopped
    rw [if_pos hstopped] at hserver
    cases hserver
  rcases serverStep_congestion hserver hrun with hsame | ⟨ce, hce⟩
  · rw [hsame]
    exact hs hbefore
  · exact (hs hbefore).next hce

/-- So a running server always has a window, and a time-out for it. -/
theorem transfer_server_inv (h : (transferMachine cfg initTime).Reachable s)
    (hrun : s.server.status = .running) :
    s.server.congestion.Inv ∧ s.server.timer.Inv :=
  ⟨reachable_congestion_inv (transfer_congestion_reachable h hrun),
    reachable_timer_inv (transfer_timer_reachable h)⟩

/-! ## The client's threads -/

/-- The segment that passed the receive thread's test and waits for the mutex. -/
def Client.tested (c : Client) : Option Segment :=
  match c.recvPc with
  | .insert seg _ _ => some seg
  | _ => none

/-- The client as the race has it: while the consumer drains the window, the
race still has the one it started from. -/
structure Client.InRace (c : Client) (r : Race) : Prop where
  tested : r.tested = c.tested
  drains : r.window.Drains c.window
  idle : c.consumerPc ≠ .draining → r.window = c.window

/-- Until it exits, the client is in the race. -/
def InRaceUntilExit (s : Transfer) (r : Race) : Prop := s.client.recvPc = .exited ∨ s.client.InRace r

/-- When the receive thread inserts, the segment is still past
`last_seg_acked` (or there is no room for it). -/
def InsertsNew (cfg : Config) (s : Transfer) (e : TransferEvent) (_ : Transfer) : Prop :=
  ∀ lost seg, e = .receiver lost → s.client.tested = some seg →
    s.client.window.lastSegAcked < seg.sequenceNum ∨ cfg.maxWindowSize ≤ s.client.window.numSegInBuf

section Client

variable {c c' : Client} {lost : Bool} {out : List Segment} {r : Race}

/-- What the receive thread's steps are to the race: nothing, a test that
is passed, or an insertion. -/
inductive ReceiverInRace (cfg : Config) (c c' : Client) : Prop
  | nothing (hwindow : c'.window = c.window) (htested : c'.tested = c.tested)
  | test (seg : Segment) (hwindow : c'.window = c.window) (hbefore : c.tested = none)
      (hafter : c'.tested = some seg) (hpassed : c.window.lastSegAcked < seg.sequenceNum)
  | insert (seg : Segment) (hidle : c.consumerPc ≠ .draining) (hbefore : c.tested = some seg)
      (hafter : c'.tested = none) (hwindow : c'.window = c.window.insert cfg.maxWindowSize seg)

theorem receiverStep_race (h : c.receiverStep cfg lost = some (c', out)) :
    c'.consumerPc = c.consumerPc ∧ ReceiverInRace cfg c c' := by
  cases hc : c.recvPc with
  | test seg initRwnd probe =>
    simp only [Client.receiverStep, hc] at h
    split at h
    next hlt =>
      simp only [Option.some.injEq, Prod.mk.injEq] at h
      obtain ⟨rfl, rfl⟩ := h
      exact ⟨rfl, .test seg rfl (by simp [Client.tested, hc]) rfl hlt⟩
    · simp only [Option.some.injEq, Prod.mk.injEq] at h
      obtain ⟨rfl, rfl⟩ := h
      exact ⟨rfl, .nothing rfl (by simp [Client.tested, hc])⟩
  | insert seg initRwnd probe =>
    simp only [Client.receiverStep, hc] at h
    split at h
    · cases h
    next hidle =>
      simp only [Option.some.injEq, Prod.mk.injEq] at h
      obtain ⟨rfl, rfl⟩ := h
      exact ⟨rfl, .insert seg hidle (by simp [Client.tested, hc]) rfl rfl⟩
  | request | rwnd | complete | send | sent | listen | flags | join | timeWait | read | exited =>
    -- away from the test and the insertion nothing passes the test or touches the window
    simp only [Client.receiverStep, hc, reduceCtorEq] at h
    repeat' split at h
    all_goals simp only [Option.some.injEq, Prod.mk.injEq, reduceCtorEq] at h
    all_goals
      obtain ⟨rfl, rfl⟩ := h
      exact ⟨rfl, .nothing rfl (by simp [Client.tested, hc])⟩

theorem onDatagram_race {seg : Segment} (h : c.onDatagram cfg seg lost = some (c', out)) :
    c'.recvPc = .exited ∨
      (c'.consumerPc = c.consumerPc ∧ c'.window = c.window ∧ c'.tested = c.tested) := by
  unfold Client.onDatagram at h
  split at h
  next hc =>
    split at h
    · simp only [Option.some.injEq, Prod.mk.injEq] at h
      obtain ⟨rfl, rfl⟩ := h
      exact .inr ⟨rfl, rfl, by simp [Client.tested, hc]⟩
    split at h
    · simp only [Option.some.injEq, Prod.mk.injEq] at h
      obtain ⟨rfl, rfl⟩ := h
      exact .inl rfl
    split at h <;>
    · simp only [Option.some.injEq, Prod.mk.injEq] at h
      obtain ⟨rfl, rfl⟩ := h
      exact .inr ⟨rfl, rfl, by simp [Client.tested, hc]⟩
  · split at h <;>
    · simp only [Option.some.injEq, Prod.mk.injEq] at h
      obtain ⟨rfl, rfl⟩ := h
      exact .inr ⟨rfl, rfl, rfl⟩
  · cases h

/-- A round of the consumer is one more round of its drain; the end of its loop is the drain. -/
theorem consumerStep_race (h : c.consumerStep = some c') : c'.recvPc = c.recvPc ∧
    ((c.consumerPc ≠ .draining ∧ c'.window = c.window) ∨
      (c'.consumerPc = .draining ∧ c.window.printHead = some c'.window) ∨
      (c.consumerPc = .draining ∧ c'.window = c.window ∧ c.window.printHead = none)) := by
  unfold Client.consumerStep at h
  split at h
  · cases h
  split at h
  next hc =>
    simp only [Option.some.injEq] at h
    subst h
    exact ⟨rfl, .inl ⟨by simp [hc], rfl⟩⟩
  next hc =>
    split at h
    next hround =>
      simp only [Option.some.injEq] at h
      subst h
      exact ⟨rfl, .inr (.inl ⟨hc, hround⟩)⟩
    next hend =>
      simp only [Option.some.injEq] at h
      subst h
      exact ⟨rfl, .inr (.inr ⟨hc, rfl, hend⟩)⟩
  next hc =>
    repeat' split at h
    all_goals
      simp only [Option.some.injEq] at h
      subst h
      exact ⟨rfl, .inl ⟨by simp [hc], rfl⟩⟩
  · cases h

theorem Client.InRace.start : Client.start.InRace (raceMachine cfg.maxWindowSize).init where
  tested := rfl
  drains := .refl
  idle _ := rfl

/-- A step that has nothing to do with the race. -/
theorem Client.InRace.unchanged (hr : c.InRace r) (hpc : c'.consumerPc = c.consumerPc)
    (hwindow : c'.window = c.window) (htested : c'.tested = c.tested) : c'.InRace r where
  tested := hr.tested.trans htested.symm
  drains := hwindow ▸ hr.drains
  idle hidle := (hr.idle (hpc ▸ hidle)).trans hwindow.symm

/-- A step of the receive thread, in the race. -/
theorem Client.InRace.receiver (hr : c.InRace r) (hpc : c'.consumerPc = c.consumerPc)
    (h : ReceiverInRace cfg c c') : c'.InRace r ∨
      ∃ d r', (raceMachine cfg.maxWindowSize).step r d = some r' ∧ c'.InRace r' ∧
        (d = .insert → r.window = c.window ∧ r.tested = c.tested) := by
  cases h with
  | nothing hwindow htested => exact .inl (hr.unchanged hpc hwindow htested)
  | test seg hwindow hbefore hafter hpassed =>
    -- what is past the window half drained is past the one the race still has
    have hle := hr.drains.lastSegAcked_le
    have htested : r.tested = none := hr.tested.trans hbefore
    have hstep :
        (raceMachine cfg.maxWindowSize).step r (.test seg) = some { r with tested := some seg } := by
      simp only [raceMachine, htested]
      rw [if_pos (by omega)]
    refine .inr ⟨.test seg, _, hstep, ?_, by simp⟩
    exact {
      tested := hafter.symm
      drains := hwindow ▸ hr.drains
      idle := fun hidle => (hr.idle (hpc ▸ hidle)).trans hwindow.symm }
  | insert seg hidle hbefore hafter hwindow =>
    have hsame := hr.idle hidle
    have hstep : (raceMachine cfg.maxWindowSize).step r .insert =
        some { window := r.window.insert cfg.maxWindowSize seg, tested := none } := by
      simp only [raceMachine, hr.tested.trans hbefore, Option.map_some]
    have hinserted : r.window.insert cfg.maxWindowSize seg = c'.window := by rw [hsame, hwindow]
    refine .inr ⟨.insert, _, hstep, ?_, fun _ => ⟨hsame, hr.tested⟩⟩
    exact { tested := hafter.symm, drains := hinserted ▸ .refl, idle := fun _ => hinserted }

variable (cfg) in
/-- A step of the consumer, in the race. -/
theorem Client.InRace.consumer (hr : c.InRace r) (h : c.consumerStep = some c') : c'.InRace r ∨
    ∃ r', (raceMachine cfg.maxWindowSize).step r .drain = some r' ∧ c'.InRace r' := by
  obtain ⟨hpc, hstep⟩ := consumerStep_race h
  have htested : r.tested = c'.tested := by rw [hr.tested, Client.tested, Client.tested, hpc]
  rcases hstep with ⟨hidle, hwindow⟩ | ⟨hdraining, hround⟩ | ⟨-, hwindow, hend⟩
  · left
    have hsame : r.window = c'.window := (hr.idle hidle).trans hwindow.symm
    exact { tested := htested, drains := hsame ▸ .refl, idle := fun _ => hsame }
  · left
    exact { tested := htested, drains := hr.drains.tail hround, idle := fun hidle => absurd hdraining hidle }
  · right
    have hdrained : r.window.drain = c'.window := (hr.drains.eq_drain hend).trans hwindow.symm
    exact ⟨_, rfl, { tested := htested, drains := hdrained ▸ .refl, idle := fun _ => hdrained }⟩

end Client

/-- Each step of a transfer is to its client's race a step or nothing; and an
insertion there is one here, of the same segment into the same window. -/
theorem transfer_step_race {e : TransferEvent} {r : Race} (hr : InRaceUntilExit s r)
    (h : (transferMachine cfg initTime).step s e = some s') : InRaceUntilExit s' r ∨
      ∃ d r', (raceMachine cfg.maxWindowSize).step r d = some r' ∧
        (InsertsNew cfg s e s' → StillNew cfg.maxWindowSize r d r') ∧ InRaceUntilExit s' r' := by
  cases Transfer.step_moves h with
  | server se _ hstep =>
    simp only [Transfer.serverStep, Option.map_eq_some_iff] at hstep
    obtain ⟨⟨server, out⟩, -, rfl⟩ := hstep
    exact .inl hr
  | receiver hstep =>
    rcases hr with hexited | hr
    · simp [Client.receiverStep, hexited] at hstep
    obtain ⟨hpc, hrace⟩ := receiverStep_race hstep
    rcases hr.receiver hpc hrace with hsame | ⟨d, r', hd, hr', hinsert⟩
    · exact .inl (.inr hsame)
    refine .inr ⟨d, r', hd, ?_, .inr hr'⟩
    rintro hnew rfl seg htested
    obtain ⟨hwindow, hsame⟩ := hinsert rfl
    rw [hwindow]
    exact hnew _ seg rfl (hsame ▸ htested)
  | datagram _ hstep =>
    left
    rcases onDatagram_race hstep with hexited | ⟨hpc, hwindow, hnone⟩
    · exact .inl hexited
    cases hr with
    | inl hexited => simp [Client.onDatagram, hexited] at hstep
    | inr hr => exact .inr (hr.unchanged hpc hwindow hnone)
  | consumer hstep =>
    rcases hr with hexited | hr
    · simp [Client.consumerStep, hexited] at hstep
    rcases hr.consumer cfg hstep with hsame | ⟨r', hd, hr'⟩
    · exact .inl (.inr hsame)
    · exact .inr ⟨.drain, r', hd, fun _ => by simp [StillNew], .inr hr'⟩

/-- **The client of a transfer** runs its race: in every state a transfer
reaches in which it has not exited, its window is the one of a state the
race reaches, or that window some rounds into a drain. -/
theorem transfer_race_reachable (h : (transferMachine cfg initTime).Reachable s) :
    ∃ r, (raceMachine cfg.maxWindowSize).Reachable r ∧ InRaceUntilExit s r := by
  obtain ⟨r, hrace, hr⟩ := h.reachableBy.simulated (N := raceMachine cfg.maxWindowSize)
    (H := fun _ _ _ => True) (R := InRaceUntilExit) (.inr .start) fun s e s' r hr hstep _ => by
      rcases transfer_step_race hr hstep with hsame | ⟨d, r', hd, -, hr'⟩
      · exact .inl hsame
      · exact .inr ⟨d, r', hd, trivial, hr'⟩
  exact ⟨r, hrace.reachable, hr⟩

/-- So while its insertions find their segments new, the window of a
transfer's client never holds a printed segment, in the middle of a drain
either. -/
theorem transfer_noStale (h : (transferMachine cfg initTime).ReachableBy (InsertsNew cfg) s)
    (hrun : s.client.recvPc ≠ .exited) : s.client.window.NoStale := by
  obtain ⟨r, hrace, hr⟩ := h.simulated (N := raceMachine cfg.maxWindowSize)
    (H := StillNew cfg.maxWindowSize) (R := InRaceUntilExit) (.inr .start)
    fun s e s' r hr hstep hnew => by
      rcases transfer_step_race hr hstep with hsame | ⟨d, r', hd, hstill, hr'⟩
      · exact .inl hsame
      · exact .inr ⟨d, r', hd, hstill hnew, hr'⟩
  have hinv : r.Inv := hrace.invariant .start fun _ _ _ hs hstep hnew => hs.step hstep hnew
  have hdrains := (hr.resolve_left hrun).drains
  exact (hinv.noStale.drains hinv.sorted hdrains).1

end Sockets.Udp
