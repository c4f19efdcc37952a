/-
The zero window. A client without room is meant to get probes, and no data,
until it advertises room again. The server sets `is_probe` on what it builds
for such a request, in a loop that its `seg_to_send`, which is then zero or
less, never enters. So nothing answers the request, and what the next
timeout sends is the first segment of the window, or the dummy, with no
probe flag.
-/
import Sockets.Udp.Refinement
import Sockets.Udp.SendWindow

namespace Sockets.Udp

/-- The server, and what its last iteration sent. -/
def serverMachine (cfg : Config) (initTime : Int) : Machine Sending ServerEvent :=
  sendMachine (buildSegment cfg.file) cfg initTime

/-- The requests among the events advertise no room. -/
def ZeroWindow : ServerEvent → Prop
  | .request request _ => request.rwnd = 0
  | .timeout _ | .interrupted => True

/-- From a reply to a request without room on, all that is sent is probes, and one is: as the
reply, or when the timer expires next. -/
structure Persists (cfg : Config) (initTime : Int) (s : Sending) : Prop where
  probes : ∀ es s', (∀ e ∈ es, ZeroWindow e) → (serverMachine cfg initTime).exec s es = some s' →
    ∀ seg ∈ s'.out, seg.isProbe > 0
  sent : (∃ seg ∈ s.out, seg.isProbe > 0) ∨
    ∀ now s', (serverMachine cfg initTime).step s (.timeout now) = some s' → ∃ seg ∈ s'.out, seg.isProbe > 0

variable {cfg : Config} {initTime : Int} {s s' : Sending} {e : ServerEvent}

theorem serverMachine_step : (serverMachine cfg initTime).step s e = some s' ↔
    s.server.step cfg e = some (s'.server, s'.out) := by
  simp only [serverMachine, sendMachine, Server.stepWith_buildSegment, Option.map_eq_some_iff]
  constructor
  · rintro ⟨⟨server, out⟩, hstep, rfl⟩
    exact hstep
  · intro hstep
    exact ⟨_, hstep, rfl⟩

/-! ## No probes -/

/-- What a server keeps in every run: neither its window nor what it sends holds a probe. -/
structure NoProbe (cfg : Config) (s : Sending) : Prop where
  timer : (timerMachine cfg.conv).Reachable s.server.timer
  sendBase : ∀ node ∈ s.server.sendBase, node.isProbe = 0
  out : ∀ seg ∈ s.out, seg.isProbe = 0

/-- A segment is built only for a request that advertises room. -/
theorem isProbe_of_answer {request : Segment} {s₁ s₂ : Server} {segToSend : Nat} {out : List Segment}
    (hle : segToSend ≤ request.rwnd.toNat) (hsend : SendLoopSpec cfg.file request.rwnd segToSend s₁ s₂ out) :
    ∀ seg ∈ out, seg.isProbe = 0 := by
  intro seg hm
  obtain ⟨i, hlt, hi, left, now, hseg⟩ := hsend.built seg hm
  have hroom : request.rwnd ≠ 0 := by
    have hlast := hsend.last_le
    omega
  obtain ⟨hprobe, -⟩ := buildSegment_flags hseg
  rwa [if_neg hroom] at hprobe

theorem NoProbe.timeoutSegment (h : NoProbe cfg s) (now : Int) : (s.server.timeoutSegment now).isProbe = 0 := by
  unfold Server.timeoutSegment
  cases hbase : s.server.sendBase with
  | nil => rfl
  | cons node rest =>
    have hnode := h.sendBase node (by simp [hbase])
    exact hnode

theorem NoProbe.step (h : NoProbe cfg s) (hstep : (serverMachine cfg initTime).step s e = some s') :
    NoProbe cfg s' := by
  obtain ⟨server, out⟩ := s'
  have hserver : s.server.step cfg e = some (server, out) := serverMachine_step.mp hstep
  have htimer : (timerMachine cfg.conv).Reachable server.timer := by
    rcases serverStep_timer hserver with hsame | ⟨te, hte⟩
    · rw [hsame]
      exact h.timer
    · exact h.timer.next hte
  cases Server.step_moves hserver with
  | quiet hbase => exact { timer := htimer, sendBase := by rw [hbase]; exact h.sendBase, out := by simp }
  | @resend now _ hbase =>
    exact {
      timer := htimer
      sendBase := by rw [hbase]; exact h.sendBase
      out := by simpa using h.timeoutSegment now }
  | answer s₁ hcomplete hbase hlast hstatus hle hsend =>
    have hout := isProbe_of_answer hle hsend
    refine { timer := htimer, sendBase := ?_, out := hout }
    intro node hm
    cases hsend.sendBase node hm with
    | inl hm => exact h.sendBase node (hbase node hm)
    | inr hm => exact hout node hm

theorem noProbe_of_reachable (h : (serverMachine cfg initTime).Reachable s) : NoProbe cfg s := by
  refine h.invariant ?_ fun _ _ _ hs hstep => hs.step hstep
  exact {
    timer := .start
    sendBase := by simp [serverMachine, sendMachine, Server.start]
    out := by simp [serverMachine, sendMachine] }

/-! ## The next timeout -/

/-- After a request the loop waits again. -/
theorem Timer.Inv.await_isSome {conv : IntConv} {t : Timer} (h : t.Inv) (hc : t.consePacketDrop = 0) :
    ∃ timer, t.await conv = some timer := by
  have hrange := h.update_rto
  have hwait : ¬ t.update.transTime conv < 0 := by
    rcases h.transTime conv with ⟨-, hge, -⟩ | ⟨hbig, -⟩
    · omega
    · rw [hc, pow_zero] at hbig
      omega
  exact ⟨t.update, by rw [await, if_neg (by rw [hc]; decide), if_neg hwait]⟩

/-- And a timeout may be what it waits for. -/
theorem exists_timeout (h : (serverMachine cfg initTime).Reachable s) {request : Segment} {clock : Nat → Int}
    (hstep : (serverMachine cfg initTime).step s (.request request clock) = some s')
    (hrun : s'.server.status = .running) (now : Int) :
    ∃ s₂, (serverMachine cfg initTime).step s' (.timeout now) = some s₂ ∧
      s₂.out = [s'.server.timeoutSegment now] := by
  obtain ⟨timer, -, -, hloop⟩ := Server.step_request (serverMachine_step.mp hstep) hrun
  have htimer := (noProbe_of_reachable (h.next hstep)).timer
  have hdrops : s'.server.timer.consePacketDrop = 0 := by
    rw [(sendLoop_spec hloop).timer]
    rfl
  obtain ⟨waiting, hawait⟩ : ∃ waiting, s'.server.timer.await cfg.conv = some waiting :=
    (reachable_timer_inv htimer).await_isSome hdrops
  have hserver : s'.server.step cfg (.timeout now) =
      some (({ s'.server with timer := waiting }.onTimeout now).1, [s'.server.timeoutSegment now]) := by
    simp only [Server.step, hrun, ne_eq, not_true_eq_false, if_false, hawait]
    rfl
  exact ⟨{ server := _, out := _ }, serverMachine_step.mpr hserver, rfl⟩

/-- **No persistence.** Whatever the state of the server, and unless it ends the transfer: a
request without room is not answered, and what is sent after it is not what is meant. -/
theorem not_persists (cfg : Config) (initTime : Int) {s s' : Sending} {request : Segment} {clock : Nat → Int}
    (h : (serverMachine cfg initTime).Reachable s)
    (hstep : (serverMachine cfg initTime).step s (.request request clock) = some s')
    (hrwnd : request.rwnd = 0) (hrun : s'.server.status = .running) :
    s'.out = [] ∧ ¬ Persists cfg initTime s' := by
  constructor
  · obtain ⟨timer, -, -, hloop⟩ := Server.step_request (serverMachine_step.mp hstep) hrun
    have hle : s.server.allowed cfg request ≤ request.rwnd := segToSend_le _ _ _
    rw [Int.toNat_of_nonpos (by omega)] at hloop
    simp only [sendLoop, Option.some.injEq, Prod.mk.injEq] at hloop
    exact hloop.2.symm
  · intro hpersists
    obtain ⟨s₂, htimeout, hout⟩ := exists_timeout h hstep hrun 0
    have hexec : (serverMachine cfg initTime).exec s' [.timeout 0] = some s₂ :=
      Machine.exec_cons_iff.mpr ⟨s₂, htimeout, rfl⟩
    have hnone := (noProbe_of_reachable ((h.next hstep).next htimeout)).out
    have hprobe := hpersists.probes [.timeout 0] s₂ (by simp [ZeroWindow]) hexec
    rw [hout] at hnone hprobe
    have hzero := hnone _ (List.mem_singleton.mpr rfl)
    have hpos := hprobe _ (List.mem_singleton.mpr rfl)
    omega

/-- The first request of all is one without room. -/
theorem not_persists_start :
    let cfg : Config := { file := some [7], maxBufferSize := 8, maxWindowSize := 8, conv := .cvttsd2si }
    ∃ s', (serverMachine cfg 0).step (serverMachine cfg 0).init (.request { ackNum := 1 } fun _ => 0) = some s' ∧
      s'.out = [] ∧ ¬ Persists cfg 0 s' := by
  intro cfg
  have hrun : ((serverMachine cfg 0).step (serverMachine cfg 0).init (.request { ackNum := 1 } fun _ => 0)).any
      (fun s => s.server.status = .running) = true := by decide +kernel
  obtain ⟨s', hstep, hrun⟩ := (Option.any_eq_true _ _).mp hrun
  have hrun : s'.server.status = .running := of_decide_eq_true hrun
  have hstart : (serverMachine cfg 0).Reachable (serverMachine cfg 0).init := .start
  exact ⟨s', hstep, not_persists cfg 0 hstart hstep rfl hrun⟩

/-- The first segment is asked for, and again without room for it. What the timeout then sends
is that segment. -/
theorem not_persists_resent :
    let cfg : Config := { file := some [7], maxBufferSize := 8, maxWindowSize := 8, conv := .cvttsd2si }
    let ask (rwnd : Int) : ServerEvent := .request { ackNum := 1, rwnd } fun _ => 0
    ∃ s, (serverMachine cfg 0).exec (serverMachine cfg 0).init [ask 1, ask 0] = some s ∧
      ¬ Persists cfg 0 s := by
  intro cfg ask
  have hrun : ((serverMachine cfg 0).exec (serverMachine cfg 0).init [ask 1, ask 0]).any (fun s =>
      ((serverMachine cfg 0).exec s [.timeout 0]).any fun s' =>
        s'.out.map (fun seg => (seg.sequenceNum, seg.isProbe)) = [(1, 0)]) = true := by decide +kernel
  obtain ⟨s, hs, htimeout⟩ := (Option.any_eq_true _ _).mp hrun
  obtain ⟨s', hs', hout⟩ := (Option.any_eq_true _ _).mp htimeout
  refine ⟨s, hs, ?_⟩
  intro hpersists
  have hprobes := hpersists.probes [.timeout 0] s' (by simp [ZeroWindow]) hs'
  obtain ⟨seg, hseg, hflags⟩ := List.map_eq_singleton_iff.mp (of_decide_eq_true hout)
  rw [hseg] at hprobes
  have hprobe := hprobes seg (List.mem_singleton.mpr rfl)
  rw [Prod.mk.injEq] at hflags
  omega

end Sockets.Udp
