/-
The send window, whatever the segments carry. The loop that sends looks at
three things of a segment it has built: its number, and whether it is the
last of the file or a probe. So the window is shown sound for any way of
building segments (`Builder`), of which the server's own is one
(`stepWith_buildSegment`).

The room in the window is computed once, before the loop; it is room enough
because each turn of the loop links one segment at most, and a segment whose
number is in the window none.
-/
import Sockets.Udp.Chunks
import Mathlib.Data.List.Nodup

namespace Sockets.Udp

/-- How a segment is built from `last_seg_acked`, `recv_rwnd`, `seg_to_send` and the time. -/
abbrev Builder : Type := Int → Int → Int → Int → Option Segment

/-- The loop that sends, for any way of building segments. -/
def sendLoopWith (build : Builder) (recvRwnd windowSpace : Int) (clock : Nat → Int) :
    Nat → Server → Option (Server × List Segment)
  | 0, s => some (s, [])
  | segToSend + 1, s =>
    if windowSpace = 0 then some (s, [])
    else do
      let s := { s with lastSegAcked := s.lastSegAcked + 1 }
      let seg ← build s.lastSegAcked recvRwnd (segToSend + 1) (clock (segToSend + 1))
      let s := { s.linkSegment seg with lastOutTime := seg.timestamp }
      if seg.isEof > 0 then some (s, [seg])
      else if seg.isProbe = 1 then some (s, [seg])
      else do
        let (s, out) ← sendLoopWith build recvRwnd windowSpace clock segToSend s
        some (s, seg :: out)

/-- The request branch, for any way of building segments. -/
def Server.onRequestWith (build : Builder) (cfg : Config) (s : Server) (request : Segment)
    (clock : Nat → Int) : Option (Server × List Segment) :=
  let s := { s with
    timer := s.timer.request (i32 (i32 (clock 0) - s.lastOutTime))
    congestion := getCwnd s.congestion request.ackNum }
  if request.isComplete > 0 then some ({ s with status := .complete }, [])
  else
    let s := { s with
      lastSegAcked := request.ackNum - 1
      congestion := { s.congestion with prevAckSegNum := request.ackNum } }
    let (sendBase, numSegInBuf) := prune s.lastSegAcked s.sendBase s.numSegInBuf
    let s := { s with sendBase, numSegInBuf }
    let windowSpace := cfg.maxBufferSize - s.numSegInBuf
    sendLoopWith build request.rwnd windowSpace clock
      (segToSend request.rwnd s.congestion.cwnd windowSpace).toNat s

/-- One iteration of the loop, for any way of building segments. -/
def Server.stepWith (build : Builder) (cfg : Config) (s : Server) (e : ServerEvent) :
    Option (Server × List Segment) :=
  if s.status ≠ .running then none
  else
    match s.timer.await cfg.conv with
    | none => some ({ s with status := .exited }, [])
    | some timer =>
      let s := { s with timer }
      match e with
      | .timeout now =>
        let (s, seg) := s.onTimeout now
        some (s, [seg])
      | .request segment clock => s.onRequestWith build cfg segment clock
      | .interrupted => some (s, [])

/-- The server, and what its last iteration sent. -/
structure Sending where
  server : Server
  out : List Segment

def sendMachine (build : Builder) (cfg : Config) (initTime : Int) : Machine Sending ServerEvent where
  init := { server := .start initTime, out := [] }
  step s e := (s.server.stepWith build cfg e).map fun (server, out) => { server, out }

/-- The count is that of the window, no number is in the window twice, and it has room. -/
structure WindowSound (maxBufferSize : Int) (s : Server) : Prop where
  num : s.numSegInBuf = s.sendBase.length
  nodup : (s.sendBase.map (·.sequenceNum)).Nodup
  le : s.sendBase.length ≤ maxBufferSize

/-- A request causes no more segments than it advertises, `cwnd` allows, and the window has
room for once it is pruned. -/
def AnswerBounded (cfg : Config) (s : Sending) (e : ServerEvent) (s' : Sending) : Prop :=
  match e with
  | .request request _ =>
    (s'.out.length : Int) ≤ max 0 (min request.rwnd (min (getCwnd s.server.congestion request.ackNum).cwnd
      (cfg.maxBufferSize - (prune (request.ackNum - 1) s.server.sendBase s.server.numSegInBuf).1.length)))
  | .timeout _ | .interrupted => True

/-! ## The server's own segments -/

theorem sendLoopWith_buildSegment (file : Option (List UInt8)) :
    sendLoopWith (buildSegment file) = sendLoop file := by
  funext recvRwnd windowSpace clock segToSend s
  induction segToSend generalizing s with
  | zero => rfl
  | succ segToSend ih => simp only [sendLoopWith, sendLoop, ih]

/-- The server is the one that builds its segments from the file. -/
theorem Server.stepWith_buildSegment (cfg : Config) (s : Server) (e : ServerEvent) :
    s.stepWith (buildSegment cfg.file) cfg e = s.step cfg e := by
  unfold stepWith onRequestWith
  rw [sendLoopWith_buildSegment]
  rfl

/-- Of a file whose length fits an `int`, it is the one that cuts them out. -/
theorem Server.step_cutOut {cfg : Config} {data : List UInt8} (hfile : cfg.file = some data)
    (hlen : data.length < 2 ^ 31) (s : Server) (e : ServerEvent) :
    s.step cfg e = s.stepWith (cutOut data) cfg e := by
  rw [← stepWith_buildSegment, hfile, buildSegment_eq_cutOut hlen]

/-! ## A request that does not end the transfer -/

/-- The server once it has noted the request and pruned its window. -/
def Server.acked (s : Server) (request : Segment) (clock : Nat → Int) : Server :=
  { s with
    timer := s.timer.request (i32 (i32 (clock 0) - s.lastOutTime))
    congestion := { getCwnd s.congestion request.ackNum with prevAckSegNum := request.ackNum }
    lastSegAcked := request.ackNum - 1
    sendBase := (prune (request.ackNum - 1) s.sendBase s.numSegInBuf).1
    numSegInBuf := (prune (request.ackNum - 1) s.sendBase s.numSegInBuf).2 }

/-- The room in the window then, and the number of segments it lets the server send. -/
def Server.windowSpace (cfg : Config) (s : Server) (request : Segment) : Int :=
  cfg.maxBufferSize - (prune (request.ackNum - 1) s.sendBase s.numSegInBuf).2

def Server.allowed (cfg : Config) (s : Server) (request : Segment) : Int :=
  segToSend request.rwnd (getCwnd s.congestion request.ackNum).cwnd (s.windowSpace cfg request)

theorem Server.onRequestWith_eq {build : Builder} {cfg : Config} {s : Server} {request : Segment}
    {clock : Nat → Int} (hc : ¬ request.isComplete > 0) :
    s.onRequestWith build cfg request clock = sendLoopWith build request.rwnd (s.windowSpace cfg request) clock
      (s.allowed cfg request).toNat (s.acked request clock) := by
  simp only [onRequestWith, if_neg hc]
  rfl

/-- An iteration with a request after which the server goes on. -/
theorem Server.step_request {cfg : Config} {s s' : Server} {request : Segment} {clock : Nat → Int}
    {out : List Segment} (h : s.step cfg (.request request clock) = some (s', out))
    (hrun : s'.status = .running) : ∃ timer, s.timer.await cfg.conv = some timer ∧
      ¬ request.isComplete > 0 ∧
      sendLoop cfg.file request.rwnd (s.windowSpace cfg request) clock (s.allowed cfg request).toNat
        ({ s with timer }.acked request clock) = some (s', out) := by
  unfold Server.step at h
  split at h
  · cases h
  split at h
  · simp only [Option.some.injEq, Prod.mk.injEq] at h
    obtain ⟨rfl, -⟩ := h
    cases hrun
  next timer hawait =>
    simp only [onRequest] at h
    split at h
    · simp only [Option.some.injEq, Prod.mk.injEq] at h
      obtain ⟨rfl, -⟩ := h
      cases hrun
    next hc => exact ⟨timer, hawait, hc, h⟩

/-- An iteration with a timeout after which it goes on. -/
theorem Server.step_timeout {cfg : Config} {s s' : Server} {now : Int} {out : List Segment}
    (h : s.step cfg (.timeout now) = some (s', out)) (hrun : s'.status = .running) :
    out = [s.timeoutSegment now] ∧ s'.sendBase = s.sendBase := by
  unfold Server.step at h
  split at h
  · cases h
  split at h <;> simp only [Option.some.injEq, Prod.mk.injEq] at h <;> obtain ⟨rfl, rfl⟩ := h
  · cases hrun
  · exact ⟨rfl, rfl⟩

/-! ## Pruning -/

/-- What is left of the window are the segments from the first one past `lastSegAcked` on. -/
theorem prune_nodes (lastSegAcked : Int) (nodes : List Segment) (num : Int) :
    (prune lastSegAcked nodes num).1 = nodes.dropWhile (·.sequenceNum ≤ lastSegAcked) := by
  induction nodes generalizing num with
  | nil => rfl
  | cons node rest ih =>
    rw [prune, List.dropWhile_cons]
    by_cases hle : node.sequenceNum ≤ lastSegAcked
    · rw [if_pos hle, if_pos (by simpa using hle), ih]
    · rw [if_neg hle, if_neg (by simpa using hle)]

/-- The count goes down with the window. -/
theorem prune_num {lastSegAcked : Int} {nodes : List Segment} {num : Int} (h : num = nodes.length) :
    (prune lastSegAcked nodes num).2 = (prune lastSegAcked nodes num).1.length := by
  induction nodes generalizing num with
  | nil => exact h
  | cons node rest ih =>
    rw [prune]
    split
    · apply ih
      rw [h, List.length_cons]
      omega
    · exact h

theorem WindowSound.prune {maxBufferSize lastSegAcked : Int} {s s' : Server}
    (hs : WindowSound maxBufferSize s)
    (hbase : s'.sendBase = (prune lastSegAcked s.sendBase s.numSegInBuf).1)
    (hnum : s'.numSegInBuf = (Udp.prune lastSegAcked s.sendBase s.numSegInBuf).2) :
    WindowSound maxBufferSize s' := by
  have hsub : s'.sendBase.Sublist s.sendBase := by
    rw [hbase, prune_nodes]
    exact List.dropWhile_sublist _
  exact {
    num := by rw [hnum, hbase, prune_num hs.num]
    nodup := hs.nodup.sublist (hsub.map _)
    le := by
      have hle := hs.le
      have hlength := hsub.length_le
      omega }

/-! ## Sending -/

/-- A turn of the loop leaves the window sound if it has room for one more. -/
theorem WindowSound.link {maxBufferSize : Int} {s : Server} (hs : WindowSound maxBufferSize s)
    (hroom : s.sendBase.length + 1 ≤ maxBufferSize) (seg : Segment) :
    WindowSound maxBufferSize (s.linkSegment seg) ∧
      (s.linkSegment seg).sendBase.length ≤ s.sendBase.length + 1 := by
  unfold Server.linkSegment
  split
  · exact ⟨hs, Nat.le_succ _⟩
  next hnew =>
    have hnot : seg.sequenceNum ∉ s.sendBase.map (·.sequenceNum) := by
      simpa [List.any_eq_true, List.mem_map] using hnew
    refine ⟨{ num := ?_, nodup := ?_, le := ?_ }, ?_⟩
    · simp [hs.num]
    · rw [List.map_append, List.map_singleton]
      exact List.nodup_append.mpr ⟨hs.nodup, List.nodup_singleton _, by
        intro a ha b hb
        rw [List.mem_singleton.mp hb]
        rintro rfl
        exact hnot ha⟩
    · simpa using hroom
    · simp

theorem sendLoopWith_window {build : Builder} {maxBufferSize recvRwnd windowSpace : Int} {clock : Nat → Int}
    {segToSend : Nat} {s s' : Server} {out : List Segment} (hs : WindowSound maxBufferSize s)
    (hroom : s.sendBase.length + segToSend ≤ maxBufferSize ∨ segToSend = 0)
    (h : sendLoopWith build recvRwnd windowSpace clock segToSend s = some (s', out)) :
    WindowSound maxBufferSize s' ∧ out.length ≤ segToSend := by
  induction segToSend generalizing s out with
  | zero =>
    simp only [sendLoopWith, Option.some.injEq, Prod.mk.injEq] at h
    obtain ⟨rfl, rfl⟩ := h
    exact ⟨hs, Nat.zero_le _⟩
  | succ segToSend ih =>
    simp only [sendLoopWith] at h
    split at h
    · simp only [Option.some.injEq, Prod.mk.injEq] at h
      obtain ⟨rfl, rfl⟩ := h
      exact ⟨hs, Nat.zero_le _⟩
    · simp only [Option.bind_eq_bind, Option.bind_eq_some_iff] at h
      obtain ⟨seg, -, h⟩ := h
      have hcounted : WindowSound maxBufferSize { s with lastSegAcked := s.lastSegAcked + 1 } :=
        ⟨hs.num, hs.nodup, hs.le⟩
      obtain ⟨hlinked, hlength⟩ := hcounted.link (by dsimp only; omega) seg
      have hsent : WindowSound maxBufferSize
          { Server.linkSegment { s with lastSegAcked := s.lastSegAcked + 1 } seg with
            lastOutTime := seg.timestamp } := ⟨hlinked.num, hlinked.nodup, hlinked.le⟩
      split at h
      · simp only [Option.some.injEq, Prod.mk.injEq] at h
        obtain ⟨rfl, rfl⟩ := h
        exact ⟨hsent, by simp⟩
      split at h
      · simp only [Option.some.injEq, Prod.mk.injEq] at h
        obtain ⟨rfl, rfl⟩ := h
        exact ⟨hsent, by simp⟩
      · simp only [Option.bind_eq_some_iff] at h
        obtain ⟨⟨s₂, out₂⟩, hloop, h⟩ := h
        simp only [Option.some.injEq, Prod.mk.injEq] at h
        obtain ⟨rfl, rfl⟩ := h
        dsimp only at hlength
        obtain ⟨hrest, hcount⟩ := ih hsent (.inl (by dsimp only; omega)) hloop
        exact ⟨hrest, by simpa using hcount⟩

/-- What a request lets the server send, as the minimum it is. -/
theorem segToSend_eq (recvRwnd cwnd windowSpace : Int) :
    segToSend recvRwnd cwnd windowSpace = min recvRwnd (min cwnd windowSpace) := by
  unfold segToSend
  dsimp only
  split <;> split <;> omega

/-! ## Runs -/

theorem WindowSound.start {maxBufferSize : Int} (hmax : 1 ≤ maxBufferSize) (initTime : Int) :
    WindowSound maxBufferSize (.start initTime) where
  num := rfl
  nodup := List.nodup_nil
  le := by
    change (0 : Int) ≤ maxBufferSize
    omega

theorem WindowSound.onRequest {build : Builder} {cfg : Config} {s s' : Server} {request : Segment}
    {clock : Nat → Int} {out : List Segment} (hs : WindowSound cfg.maxBufferSize s)
    (h : s.onRequestWith build cfg request clock = some (s', out)) :
    WindowSound cfg.maxBufferSize s' ∧ (out.length : Int) ≤ max 0 (min request.rwnd
      (min (getCwnd s.congestion request.ackNum).cwnd
        (cfg.maxBufferSize - (Udp.prune (request.ackNum - 1) s.sendBase s.numSegInBuf).1.length))) := by
  by_cases hc : request.isComplete > 0
  · simp only [Server.onRequestWith, if_pos hc, Option.some.injEq, Prod.mk.injEq] at h
    obtain ⟨rfl, rfl⟩ := h
    exact ⟨⟨hs.num, hs.nodup, hs.le⟩, by simp⟩
  · rw [Server.onRequestWith_eq hc] at h
    have hpruned : WindowSound cfg.maxBufferSize (s.acked request clock) := hs.prune rfl rfl
    have hspace : s.windowSpace cfg request = cfg.maxBufferSize - (s.acked request clock).sendBase.length := by
      rw [← hpruned.num]
      rfl
    have hallowed : s.allowed cfg request = min request.rwnd
        (min (getCwnd s.congestion request.ackNum).cwnd (s.windowSpace cfg request)) := segToSend_eq _ _ _
    obtain ⟨hsound, hcount⟩ := sendLoopWith_window hpruned (by omega) h
    refine ⟨hsound, ?_⟩
    change (out.length : Int) ≤ max 0 (min request.rwnd (min (getCwnd s.congestion request.ackNum).cwnd
      (cfg.maxBufferSize - (s.acked request clock).sendBase.length)))
    rw [← hspace, ← hallowed]
    omega

theorem WindowSound.step {build : Builder} {cfg : Config} {s s' : Server} {e : ServerEvent}
    {out : List Segment} (hs : WindowSound cfg.maxBufferSize s)
    (h : s.stepWith build cfg e = some (s', out)) :
    WindowSound cfg.maxBufferSize s' ∧ AnswerBounded cfg { server := s, out := [] } e { server := s', out } := by
  unfold Server.stepWith at h
  split at h
  · cases h
  split at h
  · simp only [Option.some.injEq, Prod.mk.injEq] at h
    obtain ⟨rfl, rfl⟩ := h
    refine ⟨⟨hs.num, hs.nodup, hs.le⟩, ?_⟩
    cases e with
    | request => simp [AnswerBounded]
    | timeout | interrupted => trivial
  next timer _ =>
    have hwaiting : WindowSound cfg.maxBufferSize { s with timer } := ⟨hs.num, hs.nodup, hs.le⟩
    cases e with
    | timeout now =>
      simp only [Option.some.injEq, Prod.mk.injEq] at h
      obtain ⟨rfl, rfl⟩ := h
      exact ⟨⟨hs.num, hs.nodup, hs.le⟩, trivial⟩
    | request request clock => exact hwaiting.onRequest h
    | interrupted =>
      simp only [Option.some.injEq, Prod.mk.injEq] at h
      obtain ⟨rfl, rfl⟩ := h
      exact ⟨hwaiting, trivial⟩

/-- **The send window.** However segments are built, along every run of the server, whatever
it is asked for: the count of the window is its length, no number is in it twice, it never
outgrows its size, and no request causes more segments than it and `cwnd` allow and the
pruned window has room for. -/
theorem sendWindow_along (build : Builder) (cfg : Config) (initTime : Int) (hmax : 1 ≤ cfg.maxBufferSize)
    (es : List ServerEvent) :
    (sendMachine build cfg initTime).Along
      (fun s e s' => WindowSound cfg.maxBufferSize s'.server ∧ AnswerBounded cfg s e s')
      (sendMachine build cfg initTime).init es := by
  refine Machine.Along.of_step (I := fun s => WindowSound cfg.maxBufferSize s.server) ?_
    (WindowSound.start hmax initTime)
  intro s e s' hs h
  simp only [sendMachine, Option.map_eq_some_iff] at h
  obtain ⟨⟨server, out⟩, hstep, rfl⟩ := h
  obtain ⟨hsound, hbounded⟩ := hs.step hstep
  exact ⟨⟨hsound, hbounded⟩, hsound⟩

/-- A server with a window of 8 is asked for segment 1, for segment 2, and for segment 1 again. -/
theorem sendWindow_along_eight :
    let cfg : Config := { file := none, maxBufferSize := 8, maxWindowSize := 8, conv := .cvttsd2si }
    let build : Builder := fun number _ _ _ => some { sequenceNum := number }
    let es : List ServerEvent := [.request { ackNum := 1, rwnd := 4 } fun _ => 0,
      .request { ackNum := 2, rwnd := 4 } fun _ => 0, .timeout 3000000,
      .request { ackNum := 1, rwnd := 4 } fun _ => 0]
    ((sendMachine build cfg 0).exec (sendMachine build cfg 0).init es).any
      (fun s => s.server.sendBase.map (·.sequenceNum) = [2, 3, 4, 5, 1]) = true ∧
    (sendMachine build cfg 0).Along
      (fun s e s' => WindowSound cfg.maxBufferSize s'.server ∧ AnswerBounded cfg s e s')
      (sendMachine build cfg 0).init es :=
  ⟨by decide +kernel, sendWindow_along _ _ _ (by decide) _⟩

/-! ## The first segments of a file -/

/-- A file of three segments, and room for two. -/
def threeSegments : Config where
  file := some (List.replicate 983 7)
  maxBufferSize := 8
  maxWindowSize := 2
  conv := .wrap

def firstRequest : Segment := { ackNum := 1, rwnd := 2 }

def sentTwo (server : Server) (first second : Segment) (client : Client) : Transfer where
  server := server
  client := client
  requests := [firstRequest]
  data := [first, second]

/-- The first two segments of the file have been asked for and sent. -/
theorem exists_sentTwo {G : Transfer → TransferEvent → Transfer → Prop}
    (hG : ∀ s e s', e ≠ .consumer → G s e s') : ∃ server first second, first.Plain 1 ∧ second.Plain 2 ∧
      (transferMachine threeSegments 0).ReachableBy G
        (sentTwo server first second { Client.start with recvPc := .listen 2 false }) := by
  have hrun : ((Server.start 0).step threeSegments (.request firstRequest fun _ => 0)).any (fun sent =>
      sent.2.length = 2 ∧ (∀ seg ∈ sent.2.head?, seg.Plain 1) ∧ ∀ seg ∈ sent.2.getLast?, seg.Plain 2) = true := by
    rw [Server.step_cutOut rfl (by rw [List.length_replicate]; decide)]
    decide +kernel
  obtain ⟨⟨server, out⟩, hstep, hplain⟩ := (Option.any_eq_true _ _).mp hrun
  obtain ⟨hlength, hfirst, hsecond⟩ := of_decide_eq_true hplain
  obtain ⟨first, second, rfl⟩ := List.length_eq_two.mp hlength
  let asked : Transfer := {
    server := .start 0, client := { Client.start with recvPc := .listen 2 false }
    requests := [firstRequest], data := [] }
  have hasked : (transferMachine threeSegments 0).exec (transferMachine threeSegments 0).init
      (List.replicate 5 (.receiver false)) = some asked := rfl
  have hreach : (transferMachine threeSegments 0).ReachableBy G asked :=
    (Machine.reachableBy_of_exec hasked).invariant (I := (transferMachine threeSegments 0).ReachableBy G)
      .init fun s e s' hs hstep he => hs.step hstep (hG _ _ _ (by rw [List.eq_of_mem_replicate he]; simp))
  have hserve : (transferMachine threeSegments 0).step asked (.serverRequest firstRequest fun _ => 0) =
      some (sentTwo server first second asked.client) := by
    simp only [transferMachine, asked, List.mem_singleton, if_true, Transfer.serverStep, hstep, Option.map_some,
      List.nil_append, sentTwo]
  have hs := hreach.step hserve (hG _ _ _ (by simp))
  exact ⟨server, first, second, hfirst first rfl, hsecond second rfl, hs⟩

end Sockets.Udp
