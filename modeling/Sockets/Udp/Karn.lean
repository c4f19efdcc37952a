/-
Karn's rule. The estimator is meant to take in only the time from a
transmission of the send loop to the request that answers it, and none of a
segment that a timeout has sent again.

The first request after a timeout is kept from the estimator. But the next
one is not, and its time is counted from the last transmission of the send
loop. That is after the timeout only if the first request let the server
send something; a request without room does not (`karnRule_along_iff`).
-/
import Sockets.Udp.SendWindow
import Sockets.Udp.Refinement

namespace Sockets.Udp

/-- The server, when its send loop last transmitted a segment, whether a timeout has sent one
again since, and what the last request gives the estimator then: the time since that
transmission, unless something was sent again in between. `unanswered` says that the server was
let send nothing for the requests since the last timeout, or the start. -/
structure Karn where
  server : Server
  lastSent : Option Int
  resent : Bool
  sample : Option Int
  unanswered : Bool

/-- What is noted of an iteration. -/
def Karn.note (cfg : Config) (s : Karn) (e : ServerEvent) (server : Server) (out : List Segment) : Karn :=
  match e with
  | .timeout _ => { server, lastSent := s.lastSent, resent := true, sample := none, unanswered := true }
  | .request request clock => {
      server
      lastSent := (out.getLast?.map (·.timestamp)).or s.lastSent
      resent := s.resent && out.isEmpty
      sample := if s.resent then none else s.lastSent.map fun sent => i32 (i32 (clock 0) - sent)
      unanswered := s.unanswered && decide (s.server.allowed cfg request ≤ 0) }
  | .interrupted => { s with server }

/-- The server in its loop: an iteration that ends it is not a step. The loop starts with the
time of its start in the place of a transmission's; `startCounts` says whether it is one. -/
def karnMachine (cfg : Config) (initTime : Int) (startCounts : Bool) : Machine Karn ServerEvent where
  init := {
    server := .start initTime
    lastSent := if startCounts then some (i32 initTime) else none
    resent := false
    sample := none
    unanswered := !startCounts }
  step s e := (s.server.step cfg e).bind fun r =>
    if r.1.status = .running then some (s.note cfg e r.1 r.2) else none

/-- The head of the next iteration updates `srtt` and `rttvar`. -/
def Karn.Updates (s : Karn) : Prop :=
  s.server.timer.lastPacketDrop = false ∧ s.server.timer.updateRtt = true

instance (s : Karn) : Decidable s.Updates := inferInstanceAs (Decidable (_ ∧ _))

/-- An update is by what the request just processed is meant to give. -/
def KarnRule (_ : Karn) (_ : ServerEvent) (s' : Karn) : Prop :=
  s'.Updates → s'.sample = some s'.server.timer.measuredRTT

/-- A request that comes first, or right behind another, finds that the server was let send for
one since the last timeout, or the start. -/
def AnsweredBefore (s : Karn) (e : ServerEvent) (_ : Karn) : Prop :=
  match e with
  | .request _ _ => s.server.timer.lastPacketDrop = false → s.unanswered = false
  | .timeout _ | .interrupted => True

/-! ## The send loop -/

/-- The loop keeps the time of what it sent last. -/
theorem sendLoop_lastOutTime {file : Option (List UInt8)} {recvRwnd windowSpace : Int} {clock : Nat → Int}
    {segToSend : Nat} {s s' : Server} {out : List Segment}
    (h : sendLoop file recvRwnd windowSpace clock segToSend s = some (s', out)) :
    s'.lastOutTime = (out.getLast?.map (·.timestamp)).getD s.lastOutTime := by
  induction segToSend generalizing s out with
  | zero =>
    simp only [sendLoop, Option.some.injEq, Prod.mk.injEq] at h
    obtain ⟨rfl, rfl⟩ := h
    rfl
  | succ segToSend ih =>
    simp only [sendLoop] at h
    split at h
    · simp only [Option.some.injEq, Prod.mk.injEq] at h
      obtain ⟨rfl, rfl⟩ := h
      rfl
    simp only [Option.bind_eq_bind, Option.bind_eq_some_iff] at h
    obtain ⟨seg, -, h⟩ := h
    split at h
    · simp only [Option.some.injEq, Prod.mk.injEq] at h
      obtain ⟨rfl, rfl⟩ := h
      rfl
    split at h
    · simp only [Option.some.injEq, Prod.mk.injEq] at h
      obtain ⟨rfl, rfl⟩ := h
      rfl
    · simp only [Option.bind_eq_some_iff] at h
      obtain ⟨⟨s₂, rest⟩, hloop, h⟩ := h
      simp only [Option.some.injEq, Prod.mk.injEq] at h
      obtain ⟨rfl, rfl⟩ := h
      rw [ih hloop, List.getLast?_cons]
      cases rest.getLast? <;> rfl

/-- It sends something, if it is entered. -/
theorem sendLoop_eq_nil {file : Option (List UInt8)} {recvRwnd windowSpace : Int} {clock : Nat → Int}
    {segToSend : Nat} {s s' : Server} {out : List Segment}
    (h : sendLoop file recvRwnd windowSpace clock segToSend s = some (s', out)) :
    out = [] ↔ segToSend = 0 ∨ windowSpace = 0 := by
  cases segToSend with
  | zero =>
    simp only [sendLoop, Option.some.injEq, Prod.mk.injEq] at h
    simp [← h.2]
  | succ segToSend =>
    simp only [sendLoop] at h
    split at h
    next hspace =>
      simp only [Option.some.injEq, Prod.mk.injEq] at h
      simp [← h.2, hspace]
    next hspace =>
      simp only [Option.bind_eq_bind, Option.bind_eq_some_iff] at h
      obtain ⟨seg, -, h⟩ := h
      have hne : out ≠ [] := by
        split at h
        · simp only [Option.some.injEq, Prod.mk.injEq] at h
          simp [← h.2]
        split at h
        · simp only [Option.some.injEq, Prod.mk.injEq] at h
          simp [← h.2]
        · simp only [Option.bind_eq_some_iff] at h
          obtain ⟨⟨s₂, rest⟩, -, h⟩ := h
          simp only [Option.some.injEq, Prod.mk.injEq] at h
          simp [← h.2]
      simp [hne, hspace]

theorem segToSend_le_space (recvRwnd cwnd windowSpace : Int) :
    segToSend recvRwnd cwnd windowSpace ≤ windowSpace := by
  unfold segToSend
  dsimp only
  split <;> split <;> omega

/-! ## One iteration -/

variable {cfg : Config} {initTime : Int} {startCounts : Bool} {s s' : Karn} {e : ServerEvent}

theorem karnMachine_step (h : (karnMachine cfg initTime startCounts).step s e = some s') :
    ∃ out, s.server.step cfg e = some (s'.server, out) ∧ s'.server.status = .running ∧
      s' = s.note cfg e s'.server out := by
  simp only [karnMachine, Option.bind_eq_some_iff, Option.ite_none_right_eq_some, Option.some.injEq] at h
  obtain ⟨⟨server, out⟩, hstep, hrun, rfl⟩ := h
  have hserver : (s.note cfg e server out).server = server := by cases e <;> rfl
  rw [hserver]
  exact ⟨out, hstep, hrun, rfl⟩

/-- What an iteration with a request does to the timer and the time of the last transmission. -/
structure Requested (cfg : Config) (s s' : Karn) (request : Segment) (clock : Nat → Int)
    (out : List Segment) : Prop where
  timer : s'.server.timer = s.server.timer.update.request (i32 (i32 (clock 0) - s.server.lastOutTime))
  lastOut : s'.server.lastOutTime = (out.getLast?.map (·.timestamp)).getD s.server.lastOutTime
  silent : out = [] ↔ s.server.allowed cfg request ≤ 0
  note : s' = s.note cfg (.request request clock) s'.server out

theorem requested_of_step {request : Segment} {clock : Nat → Int}
    (h : (karnMachine cfg initTime startCounts).step s (.request request clock) = some s') :
    ∃ out, Requested cfg s s' request clock out := by
  obtain ⟨out, hstep, hrun, hnote⟩ := karnMachine_step h
  obtain ⟨timer, hawait, -, hloop⟩ := Server.step_request hstep hrun
  have htimer : timer = s.server.timer.update := by
    unfold Timer.await at hawait
    split at hawait
    · cases hawait
    split at hawait
    · cases hawait
    · exact (Option.some.inj hawait).symm
  have hlastOut := sendLoop_lastOutTime hloop
  refine ⟨out, { timer := ?_, lastOut := hlastOut, silent := ?_, note := hnote }⟩
  · rw [(sendLoop_spec hloop).timer, htimer]
    rfl
  · have hspace : s.server.allowed cfg request ≤ s.server.windowSpace cfg request :=
      segToSend_le_space _ _ _
    rw [sendLoop_eq_nil hloop]
    omega

/-- Behind a request, or at the start, the head leaves `update_rtt` set. -/
theorem Timer.update_updateRtt (t : Timer) :
    t.update.updateRtt = true ↔ t.lastPacketDrop = false ∨ t.updateRtt = true := by
  unfold update
  split
  next hd =>
    split
    next hu => simp [hd, hu]
    · simp [hd]
  next hd => simp [hd]

/-! ## Runs -/

/-- What a run of requests and timeouts keeps. -/
structure Karn.Inv (s : Karn) : Prop where
  flags : s.server.timer.lastPacketDrop = true → s.server.timer.updateRtt = false
  lastOut : ∀ sent ∈ s.lastSent, s.server.lastOutTime = sent
  unanswered : s.unanswered = false ↔ s.resent = false ∧ s.lastSent.isSome

theorem Karn.Inv.start : (karnMachine cfg initTime startCounts).init.Inv where
  flags h := by cases h
  lastOut := by
    cases startCounts <;> simp [karnMachine, Server.start]
  unanswered := by
    cases startCounts <;> simp [karnMachine]

/-- The head updates behind a request that comes first or right behind another. -/
theorem Karn.Inv.updates_iff (hs : s.Inv) {request : Segment} {clock : Nat → Int} {out : List Segment}
    (hr : Requested cfg s s' request clock out) :
    s'.Updates ↔ s.server.timer.lastPacketDrop = false := by
  have hflags := hs.flags
  simp only [Updates, hr.timer, Timer.request, true_and, Timer.update_updateRtt]
  cases hd : s.server.timer.lastPacketDrop with
  | false => simp
  | true => simp [hflags hd]

/-- What the request gives the estimator is what is meant, if there is something that is meant. -/
theorem Karn.Inv.sample_iff (hs : s.Inv) {request : Segment} {clock : Nat → Int} {out : List Segment}
    (hr : Requested cfg s s' request clock out) :
    s'.sample = some s'.server.timer.measuredRTT ↔ s.unanswered = false := by
  rw [hs.unanswered, hr.timer, hr.note]
  simp only [note, Timer.request]
  cases hsent : s.lastSent with
  | none => simp
  | some sent =>
    have hlast := hs.lastOut sent hsent
    cases hresent : s.resent with
    | false => simp [hlast]
    | true => simp

theorem Karn.Inv.request (hs : s.Inv) {request : Segment} {clock : Nat → Int} {out : List Segment}
    (hr : Requested cfg s s' request clock out) : s'.Inv where
  flags := by
    rw [hr.timer]
    intro hd
    cases hd
  lastOut := by
    rw [hr.lastOut, hr.note]
    simp only [note]
    cases hout : out.getLast? with
    | none => simpa using hs.lastOut
    | some seg => simp
  unanswered := by
    have hunanswered := hs.unanswered
    have hsilent := hr.silent
    rw [hr.note]
    simp only [note]
    cases hout : out with
    | nil =>
      have hzero := hsilent.mp hout
      simpa [hzero] using hunanswered
    | cons seg rest =>
      have hpos : ¬ s.server.allowed cfg request ≤ 0 := by
        rw [← hsilent, hout]
        simp
      simp [hpos, List.getLast?_cons]

theorem Karn.Inv.timeout (hs : s.Inv) {now : Int}
    (h : (karnMachine cfg initTime startCounts).step s (.timeout now) = some s') :
    s'.Inv ∧ s'.server.timer.lastPacketDrop = true := by
  obtain ⟨out, hstep, hrun, hnote⟩ := karnMachine_step h
  have hmoved : s'.server.timer.lastPacketDrop = true ∧ s'.server.timer.updateRtt = false ∧
      s'.server.lastOutTime = s.server.lastOutTime := by
    unfold Server.step at hstep
    split at hstep
    · cases hstep
    split at hstep <;> simp only [Option.some.injEq, Prod.mk.injEq] at hstep
    · rw [← hstep.1] at hrun
      cases hrun
    · rw [← hstep.1]
      exact ⟨rfl, rfl, rfl⟩
  obtain ⟨hd, hu, hlast⟩ := hmoved
  refine ⟨{ flags := fun _ => hu, lastOut := ?_, unanswered := ?_ }, hd⟩
  · rw [hlast, hnote]
    exact hs.lastOut
  · rw [hnote]
    simp [note]

/-- **Karn's rule, exactly.** In a run of requests and timeouts every update is by what is meant
if and only if each request that comes first or right behind another comes after one that the
server was let send for, since the last timeout. -/
theorem karnRule_along_iff (cfg : Config) (initTime : Int) (startCounts : Bool) {es : List ServerEvent}
    (hes : ∀ e ∈ es, e ≠ .interrupted) :
    (karnMachine cfg initTime startCounts).Along KarnRule (karnMachine cfg initTime startCounts).init es ↔
      (karnMachine cfg initTime startCounts).Along AnsweredBefore
        (karnMachine cfg initTime startCounts).init es := by
  refine Machine.along_congr_of_forall (I := Karn.Inv) ?_ ?_ hes .start
  · intro s e s' he hs hstep
    cases e with
    | interrupted => exact absurd rfl he
    | timeout now =>
      have hdropped := (hs.timeout hstep).2
      simp [KarnRule, AnsweredBefore, Karn.Updates, hdropped]
    | request request clock =>
      obtain ⟨out, hr⟩ := requested_of_step hstep
      rw [KarnRule, hs.updates_iff hr, hs.sample_iff hr, AnsweredBefore]
  · intro s e s' he hs hstep _
    cases e with
    | interrupted => exact absurd rfl he
    | timeout now => exact (hs.timeout hstep).1
    | request request clock =>
      obtain ⟨out, hr⟩ := requested_of_step hstep
      exact hs.request hr

/-! ## Runs of a server with one byte to send -/

def oneByte : Config := { file := some [7], maxBufferSize := 8, maxWindowSize := 8, conv := .cvttsd2si }

/-- The client asks for the first segment, with so much room. -/
def askFirst (rwnd now : Int) : ServerEvent := .request { ackNum := 1, rwnd } fun _ => now

/-- The segment is asked for at once, and again behind that. -/
theorem karnRule_along_iff_twice :
    (karnMachine oneByte 0 true).Along KarnRule (karnMachine oneByte 0 true).init
      [askFirst 1 0, askFirst 1 50] := by
  refine (karnRule_along_iff oneByte 0 true (by simp [askFirst])).mpr ?_
  intro s hs
  obtain ⟨out, -, -, hnote⟩ := karnMachine_step hs
  have hanswered : s.unanswered = false := by
    rw [hnote]
    rfl
  exact ⟨fun _ => rfl, fun s' _ => ⟨fun _ => hanswered, trivial⟩⟩

/-- The segment is sent at time 0, and a timeout sends it again; then a request comes that has no
room. -/
def askedInVain : List ServerEvent := [askFirst 1 0, .timeout 2000000, askFirst 0 2000100]

/-- The next request gives the estimator five seconds, from time 0 on. Whether or not the start
of the loop counts as a transmission, the rule is broken. -/
theorem not_karnRule : ¬ ∃ startCounts, ∀ es, (∀ e ∈ es, e ≠ .interrupted) →
    (karnMachine oneByte 0 startCounts).Along KarnRule (karnMachine oneByte 0 startCounts).init es := by
  intro ⟨startCounts, hall⟩
  have hrun : ((karnMachine oneByte 0 startCounts).exec (karnMachine oneByte 0 startCounts).init
      askedInVain).any (fun m => ((karnMachine oneByte 0 startCounts).step m (askFirst 1 5000000)).any
        fun s => s.server.timer.measuredRTT = 5000000 ∧ s.Updates ∧ s.sample = none) = true := by
    cases startCounts <;> decide +kernel
  obtain ⟨m, hm, hnext⟩ := (Option.any_eq_true _ _).mp hrun
  obtain ⟨s, hs, htest⟩ := (Option.any_eq_true _ _).mp hnext
  obtain ⟨-, hupdates, hsample⟩ := of_decide_eq_true htest
  have hrule := (hall (askedInVain ++ [askFirst 1 5000000]) (by simp [askedInVain, askFirst])).last hm hs
  rw [hrule hupdates] at hsample
  cases hsample

end Sockets.Udp
