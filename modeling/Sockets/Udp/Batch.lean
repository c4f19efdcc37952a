/-
The end of a batch. The client reads as many segments as it advertised
unless one is marked as the last: `is_last_in_iter`, or `is_eof` at the end
of the file. The server tests `seg_to_send == 0` to set the former, inside a
loop that has ended by then, so it never does; of the segments that answer a
request only the last of the file is marked.
-/
import Sockets.Udp.RecvWindow
import Sockets.Udp.SendWindow

namespace Sockets.Udp

/-- The flags at which the client stops reading. -/
def Segment.Last (seg : Segment) : Prop := seg.isLastInIter > 0 ∨ seg.isEof > 0

/-- The last segment is marked, and no earlier one. -/
def MarkedLast (out : List Segment) : Prop :=
  ∃ front seg, out = front ++ [seg] ∧ seg.Last ∧ ∀ earlier ∈ front, ¬ earlier.Last

/-- The client in its inner loop, and what it has not read of the batch. -/
structure Reading where
  client : Client
  unread : List Segment

inductive ReadingEvent
  | receiver
  | datagram
  | consumer
deriving DecidableEq

/-- The batch arrives in order and none is lost; it ends when the receive thread is back at the
head of its outer loop. -/
def readingMachine (cfg : Config) (client : Client) (batch : List Segment) : Machine Reading ReadingEvent where
  init := { client, unread := batch }
  step s e :=
    if s.client.recvPc = .request then none
    else
      match e, s.unread with
      | .receiver, _ => (s.client.receiverStep cfg false).map fun (client, _) => { s with client }
      | .datagram, seg :: unread =>
        (s.client.onDatagram cfg seg false).map fun (client, _) => { client, unread }
      | .datagram, [] => none
      | .consumer, _ => s.client.consumerStep.map fun client => { s with client }

/-- The receive thread goes on until it has read all of the batch, unless the consumer holds
the mutex; then it is back at the head of its outer loop, after a bounded number of steps. -/
def ReadsBatch (cfg : Config) (client : Client) (batch : List Segment) : Prop :=
  ∀ es s, (readingMachine cfg client batch).exec (readingMachine cfg client batch).init es = some s →
    (s.client.recvPc = .request → s.unread = []) ∧
    (s.client.recvPc ≠ .request → s.client.consumerPc = .draining ∨
      ∃ e s', e ≠ .consumer ∧ (readingMachine cfg client batch).step s e = some s') ∧
    es.countP (· ≠ .consumer) ≤ 6 * batch.length + 1

/-- The batch is marked at its end, and is read to its end by every client that has advertised
`rwnd`, whatever it holds, and to which `lastSegInTransfer` is the last segment of the file. -/
structure BatchAgreed (cfg : Config) (lastSegInTransfer rwnd : Int) (batch : List Segment) : Prop where
  marked : MarkedLast batch
  reads : ∀ client : Client, client.recvPc = .listen rwnd false →
    client.lastSegInTransfer = lastSegInTransfer → 0 ≤ client.window.lastSegAcked →
    ReadsBatch cfg client batch

/-- What the request allows the server to send reaches the end of the file. -/
def EndsFile (cfg : Config) (s : Server) (request : Segment) : Prop :=
  ∃ data, cfg.file = some data ∧ data.length ≤ (request.ackNum - 1 + s.allowed cfg request) * udpPayloadSize

theorem not_markedLast_of_forall {out : List Segment} (h : ∀ seg ∈ out, ¬ seg.Last) : ¬ MarkedLast out := by
  rintro ⟨front, seg, rfl, hlast, -⟩
  exact h seg (List.mem_append_right _ (List.mem_singleton.mpr rfl)) hlast

theorem MarkedLast.cons_iff {seg : Segment} {rest : List Segment} :
    MarkedLast (seg :: rest) ↔ (rest = [] ∧ seg.Last) ∨ (¬ seg.Last ∧ MarkedLast rest) := by
  constructor
  · rintro ⟨front, last, heq, hlast, hfront⟩
    cases front with
    | nil =>
      rw [List.nil_append, List.cons.injEq] at heq
      exact .inl ⟨heq.2, heq.1 ▸ hlast⟩
    | cons first front =>
      rw [List.cons_append, List.cons.injEq] at heq
      obtain ⟨rfl, rfl⟩ := heq
      exact .inr ⟨hfront seg List.mem_cons_self, front, last, rfl, hlast,
        fun earlier hm => hfront earlier (List.mem_cons_of_mem _ hm)⟩
  · rintro (⟨rfl, hlast⟩ | ⟨hseg, front, last, rfl, hlast, hfront⟩)
    · exact ⟨[], seg, rfl, hlast, by simp⟩
    · refine ⟨seg :: front, last, rfl, hlast, ?_⟩
      intro earlier hm
      cases List.mem_cons.mp hm with
      | inl he => exact he ▸ hseg
      | inr hm => exact hfront earlier hm

/-! ## What the server marks -/

section SendLoop

variable {file : Option (List UInt8)} {recvRwnd windowSpace : Int} {clock : Nat → Int} {segToSend : Nat}
  {s s' : Server} {out : List Segment}

/-- Each segment is built while there is one to send. -/
theorem sendLoop_built (h : sendLoop file recvRwnd windowSpace clock segToSend s = some (s', out)) :
    out.length ≤ segToSend ∧ ∀ seg ∈ out, ∃ i left now, 0 < left ∧
      buildSegment file i recvRwnd left now = some seg := by
  induction segToSend generalizing s s' out with
  | zero =>
    simp only [sendLoop, Option.some.injEq, Prod.mk.injEq] at h
    obtain ⟨rfl, rfl⟩ := h
    simp
  | succ segToSend ih =>
    simp only [sendLoop] at h
    split at h
    · simp only [Option.some.injEq, Prod.mk.injEq] at h
      obtain ⟨rfl, rfl⟩ := h
      simp
    · simp only [Option.bind_eq_bind, Option.bind_eq_some_iff] at h
      obtain ⟨seg, hseg, h⟩ := h
      have hone : ∃ i left now, 0 < left ∧ buildSegment file i recvRwnd left now = some seg :=
        ⟨_, _, _, by omega, hseg⟩
      split at h
      · simp only [Option.some.injEq, Prod.mk.injEq] at h
        obtain ⟨rfl, rfl⟩ := h
        simpa using hone
      split at h
      · simp only [Option.some.injEq, Prod.mk.injEq] at h
        obtain ⟨rfl, rfl⟩ := h
        simpa using hone
      · simp only [Option.bind_eq_some_iff] at h
        obtain ⟨⟨s₂, out₂⟩, hloop, h⟩ := h
        simp only [Option.some.injEq, Prod.mk.injEq] at h
        obtain ⟨rfl, rfl⟩ := h
        obtain ⟨hlength, hbuilt⟩ := ih hloop
        refine ⟨by simpa using hlength, ?_⟩
        intro seg' hm
        cases List.mem_cons.mp hm with
        | inl he => exact he ▸ hone
        | inr hm => exact hbuilt seg' hm

/-- `is_last_in_iter` is never set, so what is marked is the last segment of the file. -/
theorem last_iff_isEof {i left now : Int} {seg : Segment} (hleft : 0 < left)
    (h : buildSegment file i recvRwnd left now = some seg) : seg.Last ↔ seg.isEof > 0 := by
  obtain ⟨-, -, hlast⟩ := buildSegment_flags h
  rw [if_neg (by omega)] at hlast
  unfold Segment.Last
  omega

theorem isEof_iff {data : List UInt8} {i left now : Int} {seg : Segment}
    (h : buildSegment (some data) i recvRwnd left now = some seg) :
    seg.isEof > 0 ↔ data.length ≤ i * udpPayloadSize := by
  obtain ⟨hchunk, hnumber⟩ := isChunk_of_builtAt ⟨_, _, h⟩
  have hseq := hchunk.sequenceNum
  have heof := hchunk.isEof
  obtain ⟨-, hend⟩ := numChunks_eq_iff (mul_lt_of_lt_numChunks hchunk.lt)
  have hcast : i * udpPayloadSize = ((i - 1).toNat + 1 : Nat) * udpPayloadSize := by
    congr 1
    omega
  rw [hcast, ← Int.natCast_mul, Int.ofNat_le, ← hend, heof]
  split <;> simp_all

/-- The loop ends at the last segment of the file, or before it with all segments sent. -/
theorem sendLoop_marked {data : List UInt8} (hspace : windowSpace ≠ 0) (hrwnd : recvRwnd ≠ 0)
    (h : sendLoop (some data) recvRwnd windowSpace clock segToSend s = some (s', out)) :
    (MarkedLast out ∧ data.length ≤ (s.lastSegAcked + segToSend) * udpPayloadSize) ∨
    ((∀ seg ∈ out, ¬ seg.Last) ∧
      (segToSend = 0 ∨ (s.lastSegAcked + segToSend) * udpPayloadSize < data.length)) := by
  induction segToSend generalizing s s' out with
  | zero =>
    simp only [sendLoop, Option.some.injEq, Prod.mk.injEq] at h
    obtain ⟨rfl, rfl⟩ := h
    exact .inr ⟨by simp, .inl rfl⟩
  | succ segToSend ih =>
    simp only [sendLoop, if_neg hspace, Option.bind_eq_bind, Option.bind_eq_some_iff] at h
    obtain ⟨seg, hseg, h⟩ := h
    have hmark := last_iff_isEof (by omega) hseg
    have heof := isEof_iff hseg
    obtain ⟨hprobe, -⟩ := buildSegment_flags hseg
    rw [if_neg hrwnd] at hprobe
    split at h
    next hlast =>
      simp only [Option.some.injEq, Prod.mk.injEq] at h
      obtain ⟨rfl, rfl⟩ := h
      have hend := heof.mp hlast
      refine .inl ⟨MarkedLast.cons_iff.mpr (.inl ⟨rfl, hmark.mpr hlast⟩), ?_⟩
      unfold udpPayloadSize at *
      omega
    next hgoes =>
      rw [if_neg (by omega)] at h
      simp only [Option.bind_eq_some_iff] at h
      obtain ⟨⟨s₂, out₂⟩, hloop, h⟩ := h
      simp only [Option.some.injEq, Prod.mk.injEq] at h
      obtain ⟨rfl, rfl⟩ := h
      have hseg : ¬ seg.Last := fun hlast => hgoes (hmark.mp hlast)
      have hbefore : ¬ (data.length ≤ (s.lastSegAcked + 1) * udpPayloadSize) := fun hle => hgoes (heof.mpr hle)
      have hlast : ({ Server.linkSegment { s with lastSegAcked := s.lastSegAcked + 1 } seg with
          lastOutTime := seg.timestamp } : Server).lastSegAcked = s.lastSegAcked + 1 := by
        unfold Server.linkSegment
        split <;> rfl
      have hrest := ih hloop
      rw [hlast] at hrest
      rcases hrest with ⟨hmarked, hle⟩ | ⟨hnone, hlt⟩
      · refine .inl ⟨MarkedLast.cons_iff.mpr (.inr ⟨hseg, hmarked⟩), ?_⟩
        unfold udpPayloadSize at *
        omega
      · refine .inr ⟨?_, .inr ?_⟩
        · intro seg' hm
          cases List.mem_cons.mp hm with
          | inl he => exact he ▸ hseg
          | inr hm => exact hnone seg' hm
        · unfold udpPayloadSize at *
          omega

end SendLoop

/-- A batch is the answer to a request that does not end the transfer. -/
theorem Server.step_batch {cfg : Config} {s s' : Server} {request : Segment} {clock : Nat → Int}
    {out : List Segment} (h : s.step cfg (.request request clock) = some (s', out)) (hne : out ≠ []) :
    ∃ timer, 0 < s.allowed cfg request ∧ s.windowSpace cfg request ≠ 0 ∧
      sendLoop cfg.file request.rwnd (s.windowSpace cfg request) clock (s.allowed cfg request).toNat
        ({ s with timer }.acked request clock) = some (s', out) := by
  have hrun : s'.status = .running := by
    cases Server.step_moves h with
    | quiet => exact absurd rfl hne
    | answer _ _ _ _ hstatus => exact hstatus
  obtain ⟨timer, -, -, hloop⟩ := Server.step_request h hrun
  have hallowed : 0 < s.allowed cfg request := by
    by_contra hnone
    rw [Int.toNat_of_nonpos (by omega)] at hloop
    simp only [sendLoop, Option.some.injEq, Prod.mk.injEq] at hloop
    exact hne hloop.2.symm
  have hmin : s.allowed cfg request = min request.rwnd
      (min (getCwnd s.congestion request.ackNum).cwnd (s.windowSpace cfg request)) := segToSend_eq _ _ _
  exact ⟨timer, hallowed, by omega, hloop⟩

/-- A batch is marked if and only if it reaches the end of the file. -/
theorem markedLast_iff {cfg : Config} {s s' : Server} {request : Segment} {clock : Nat → Int}
    {out : List Segment} (h : s.step cfg (.request request clock) = some (s', out))
    (hrwnd : 0 < request.rwnd) (hne : out ≠ []) : MarkedLast out ↔ EndsFile cfg s request := by
  obtain ⟨timer, hallowed, hspace, hloop⟩ := Server.step_batch h hne
  have hlast : ({ s with timer }.acked request clock).lastSegAcked + (s.allowed cfg request).toNat =
      request.ackNum - 1 + s.allowed cfg request := by
    rw [Int.toNat_of_nonneg hallowed.le]
    rfl
  unfold EndsFile
  cases hfile : cfg.file with
  | none =>
    rw [hfile] at hloop
    refine iff_of_false ?_ (by simp)
    apply not_markedLast_of_forall
    intro seg hm hmark
    obtain ⟨i, left, now, hleft, hseg⟩ := (sendLoop_built hloop).2 seg hm
    have heof := (last_iff_isEof hleft hseg).mp hmark
    obtain ⟨-, -, -, hzero⟩ | ⟨data, head, hdata, -⟩ := buildSegment_eq_some hseg
    · omega
    · cases hdata
  | some data =>
    rw [hfile] at hloop
    simp only [Option.some.injEq, exists_eq_left']
    have hends := sendLoop_marked hspace (by omega) hloop
    rw [hlast] at hends
    rcases hends with ⟨hmarked, hle⟩ | ⟨hnone, hzero | hlt⟩
    · exact iff_of_true hmarked hle
    · omega
    · exact iff_of_false (not_markedLast_of_forall hnone) (by omega)

/-! ## What the client reads -/

/-- A segment in answer to a request that advertised room. -/
structure Plain (seg : Segment) : Prop where
  sequenceNum : 0 < seg.sequenceNum
  isProbe : seg.isProbe = 0
  isResent : seg.isResent = 0

/-- What is left of a batch, and no more than the client goes on to read. -/
structure Awaited (initRwnd : Int) (batch : List Segment) : Prop where
  marked : MarkedLast batch
  le : batch.length ≤ initRwnd
  plain : ∀ seg ∈ batch, Plain seg

def ReadingInv (s : Reading) : Prop :=
  0 ≤ s.client.window.lastSegAcked ∧
    match s.client.recvPc with
    | .listen initRwnd _ | .read initRwnd _ => Awaited initRwnd s.unread ∧ s.client.lastSegInTransfer < 0
    | .test seg initRwnd _ | .insert seg initRwnd _ | .flags seg initRwnd _ =>
      Awaited initRwnd (seg :: s.unread) ∧ s.client.lastSegInTransfer < 0
    | .request => s.unread = []
    | _ => False

/-- How many steps the receive thread may take until it has read the rest. -/
def Reading.rank (s : Reading) : Nat :=
  6 * s.unread.length +
    match s.client.recvPc with
    | .listen .. => 1
    | .test .. => 5
    | .insert .. => 4
    | .flags .. => 3
    | _ => 0

variable {cfg : Config} {client : Client} {batch : List Segment} {s s' : Reading} {e : ReadingEvent}

theorem Awaited.ne_nil {initRwnd : Int} (h : Awaited initRwnd batch) : batch ≠ [] := by
  rintro rfl
  obtain ⟨front, seg, heq, -⟩ := h.marked
  simp at heq

/-- Once its first segment is read and is not the last, the rest is awaited. -/
theorem Awaited.tail {initRwnd : Int} {seg : Segment} (h : Awaited initRwnd (seg :: batch)) (hseg : ¬ seg.Last) :
    Awaited (initRwnd - 1) batch where
  marked := by
    obtain ⟨-, hlast⟩ | ⟨-, hrest⟩ := MarkedLast.cons_iff.mp h.marked
    · exact absurd hlast hseg
    · exact hrest
  le := by
    have hle := h.le
    rw [List.length_cons] at hle
    omega
  plain seg' hm := h.plain seg' (List.mem_cons_of_mem _ hm)

/-- When the one that is read is the last, nothing is left. -/
theorem Awaited.nothing {initRwnd : Int} {seg : Segment} (h : Awaited initRwnd (seg :: batch))
    (hseg : seg.Last) : batch = [] := by
  obtain ⟨hrest, -⟩ | ⟨hnot, -⟩ := MarkedLast.cons_iff.mp h.marked
  · exact hrest
  · exact absurd hseg hnot

/-- A client that has not seen the end of the file has not printed it. -/
theorem not_transferred {c : Client} (hlast : c.lastSegInTransfer < 0) (hge : 0 ≤ c.window.lastSegAcked) :
    ¬ c.transferred := by
  unfold Client.transferred
  omega

theorem ReadingInv.receiver (h : ReadingInv s) {c : Client} {out : List Segment}
    (hrun : s.client.recvPc ≠ .request) (hstep : s.client.receiverStep cfg false = some (c, out)) :
    ReadingInv { s with client := c } ∧ Reading.rank { s with client := c } < s.rank := by
  obtain ⟨hge, hpc⟩ := h
  cases hc : s.client.recvPc with
  | listen initRwnd probe =>
    simp only [hc] at hpc
    obtain ⟨hawaited, hlast⟩ := hpc
    have hpos : initRwnd > 0 := by
      have hle := hawaited.le
      have hlength := List.length_pos_iff.mpr hawaited.ne_nil
      omega
    simp only [Client.receiverStep, hc, if_pos (Or.inl hpos), if_neg (not_transferred hlast hge),
      Option.some.injEq, Prod.mk.injEq] at hstep
    obtain ⟨rfl, -⟩ := hstep
    exact ⟨⟨hge, hawaited, hlast⟩, by simp [Reading.rank, hc]⟩
  | test seg initRwnd probe =>
    simp only [hc] at hpc
    simp only [Client.receiverStep, hc] at hstep
    split at hstep <;> simp only [Option.some.injEq, Prod.mk.injEq] at hstep <;> obtain ⟨rfl, -⟩ := hstep
    · exact ⟨⟨hge, hpc⟩, by simp [Reading.rank, hc]⟩
    · exact ⟨⟨hge, hpc⟩, by simp [Reading.rank, hc]⟩
  | insert seg initRwnd probe =>
    simp only [hc] at hpc
    simp only [Client.receiverStep, hc] at hstep
    split at hstep
    · cases hstep
    · simp only [Option.some.injEq, Prod.mk.injEq] at hstep
      obtain ⟨rfl, -⟩ := hstep
      exact ⟨⟨by simpa [RecvWindow.insert_lastSegAcked] using hge, hpc⟩, by simp [Reading.rank, hc]⟩
  | flags seg initRwnd probe =>
    simp only [hc] at hpc
    obtain ⟨hawaited, hlast⟩ := hpc
    have hplain := hawaited.plain seg List.mem_cons_self
    simp only [Client.receiverStep, hc] at hstep
    split at hstep
    next heof =>
      simp only [Option.some.injEq, Prod.mk.injEq] at hstep
      obtain ⟨rfl, -⟩ := hstep
      exact ⟨⟨hge, hawaited.nothing (.inr heof)⟩, by simp [Reading.rank, hc]⟩
    next heof =>
      rw [if_neg (by rw [hplain.isResent]; decide)] at hstep
      split at hstep
      next hiter =>
        simp only [Option.some.injEq, Prod.mk.injEq] at hstep
        obtain ⟨rfl, -⟩ := hstep
        exact ⟨⟨hge, hawaited.nothing (.inl hiter)⟩, by simp [Reading.rank, hc]⟩
      next hiter =>
        simp only [Option.some.injEq, Prod.mk.injEq] at hstep
        obtain ⟨rfl, -⟩ := hstep
        have hseg : ¬ seg.Last := fun hseg => hseg.elim hiter heof
        exact ⟨⟨hge, hawaited.tail hseg, hlast⟩, by simp [Reading.rank, hc]⟩
  | request => exact absurd hc hrun
  | read => simp [Client.receiverStep, hc] at hstep
  | rwnd | complete | send | sent | join | timeWait | exited => simp [hc] at hpc

theorem ReadingInv.datagram (h : ReadingInv s) {seg : Segment} {unread : List Segment}
    (hunread : s.unread = seg :: unread) {c : Client} {out : List Segment}
    (hrun : s.client.recvPc ≠ .request) (hstep : s.client.onDatagram cfg seg false = some (c, out)) :
    ReadingInv { client := c, unread } ∧ Reading.rank { client := c, unread } < s.rank := by
  obtain ⟨hge, hpc⟩ := h
  cases hc : s.client.recvPc with
  | read initRwnd probe =>
    simp only [hc, hunread] at hpc
    have hplain := hpc.1.plain seg List.mem_cons_self
    have hnumber := hplain.sequenceNum
    rw [Client.onDatagram, hc] at hstep
    simp only [Bool.false_eq_true, if_false] at hstep
    rw [if_neg (by omega), if_neg (by rw [hplain.isProbe]; decide)] at hstep
    simp only [Option.some.injEq, Prod.mk.injEq] at hstep
    obtain ⟨rfl, -⟩ := hstep
    refine ⟨⟨hge, hpc⟩, ?_⟩
    simp only [Reading.rank, hc, hunread, List.length_cons]
    omega
  | request => exact absurd hc hrun
  | listen | test | insert | flags => simp [Client.onDatagram, hc] at hstep
  | rwnd | complete | send | sent | join | timeWait | exited => simp [hc] at hpc

/-- The consumer only prints. -/
theorem ReadingInv.consumer (h : ReadingInv s) {c : Client} (hstep : s.client.consumerStep = some c) :
    ReadingInv { s with client := c } ∧ Reading.rank { s with client := c } = s.rank := by
  obtain ⟨hge, hpc⟩ := h
  obtain ⟨-, hclient, hlast, hw⟩ := consumerStep_spec hstep
  refine ⟨⟨?_, ?_⟩, ?_⟩
  · rcases hw with hw | hw
    · rwa [hw]
    · obtain ⟨node, rest, -, -, hwin⟩ := RecvWindow.printHead_eq_some hw
      rw [hwin]
      dsimp only
      omega
  · simpa only [hclient, hlast] using hpc
  · simp only [Reading.rank, hclient]

theorem ReadingInv.step (h : ReadingInv s) (hstep : (readingMachine cfg client batch).step s e = some s') :
    ReadingInv s' ∧ s'.rank ≤ s.rank ∧ (decide (e ≠ .consumer) = true → s'.rank < s.rank) := by
  simp only [readingMachine] at hstep
  split at hstep
  · cases hstep
  next hrun =>
  split at hstep
  next hunread =>
    simp only [Option.map_eq_some_iff] at hstep
    obtain ⟨⟨c, out⟩, hstep, rfl⟩ := hstep
    obtain ⟨hinv, hlt⟩ := h.receiver hrun hstep
    exact ⟨hinv, hlt.le, fun _ => hlt⟩
  next seg unread hunread =>
    simp only [Option.map_eq_some_iff] at hstep
    obtain ⟨⟨c, out⟩, hstep, rfl⟩ := hstep
    obtain ⟨hinv, hlt⟩ := h.datagram hunread hrun hstep
    exact ⟨hinv, hlt.le, fun _ => hlt⟩
  · cases hstep
  next =>
    simp only [Option.map_eq_some_iff] at hstep
    obtain ⟨c, hstep, rfl⟩ := hstep
    obtain ⟨hinv, heq⟩ := h.consumer hstep
    exact ⟨hinv, heq.le, by simp⟩

/-- The receive thread has something to do until it is back at the head of its loop. -/
theorem ReadingInv.goesOn (h : ReadingInv s) (hrun : s.client.recvPc ≠ .request) :
    s.client.consumerPc = .draining ∨
      ∃ e s', e ≠ .consumer ∧ (readingMachine cfg client batch).step s e = some s' := by
  obtain ⟨hge, hpc⟩ := h
  have hreceiver : (∃ c, s.client.receiverStep cfg false = some c) →
      ∃ e s', e ≠ .consumer ∧ (readingMachine cfg client batch).step s e = some s' := by
    rintro ⟨⟨c, out⟩, hc⟩
    refine ⟨.receiver, { s with client := c }, by decide, ?_⟩
    simp only [readingMachine, if_neg hrun, hc, Option.map_some]
  cases hc : s.client.recvPc with
  | listen | test | flags =>
    right
    apply hreceiver
    simp only [Client.receiverStep, hc]
    repeat' split
    all_goals exact ⟨_, rfl⟩
  | insert =>
    by_cases hdraining : s.client.consumerPc = .draining
    · exact .inl hdraining
    · right
      apply hreceiver
      simp only [Client.receiverStep, hc, if_neg hdraining]
      exact ⟨_, rfl⟩
  | read initRwnd probe =>
    right
    simp only [hc] at hpc
    obtain ⟨seg, unread, hunread⟩ := List.exists_cons_of_ne_nil hpc.1.ne_nil
    obtain ⟨⟨c, out⟩, hstep⟩ : ∃ c, s.client.onDatagram cfg seg false = some c := by
      rw [Client.onDatagram, hc]
      dsimp only
      repeat' split
      all_goals exact ⟨_, rfl⟩
    refine ⟨.datagram, { client := c, unread }, by decide, ?_⟩
    simp only [readingMachine, if_neg hrun, hunread, hstep, Option.map_some]
  | request => exact absurd hc hrun
  | rwnd | complete | send | sent | join | timeWait | exited => simp [hc] at hpc

/-- A batch that is marked at its end is read to its end. -/
theorem readsBatch_of_awaited {c : Client} {rwnd : Int} (hc : c.recvPc = .listen rwnd false)
    (hlast : c.lastSegInTransfer < 0) (hge : 0 ≤ c.window.lastSegAcked) (hawaited : Awaited rwnd batch) :
    ReadsBatch cfg c batch := by
  intro es s hs
  have hstart : ReadingInv (readingMachine cfg c batch).init := by
    refine ⟨hge, ?_⟩
    simp only [readingMachine, hc]
    exact ⟨hawaited, hlast⟩
  have hinv : ReadingInv s := Machine.exec_invariant (fun _ _ _ hi hstep => (hi.step hstep).1) hstart hs
  refine ⟨?_, hinv.goesOn, ?_⟩
  · intro hrequest
    have hunread := hinv.2
    rwa [hrequest] at hunread
  · have hcount : es.countP (· ≠ .consumer) ≤ (readingMachine cfg c batch).init.rank :=
      Machine.exec_countP_le (fun _ _ _ hi hstep => hi.step hstep) hstart hs
    simpa only [Reading.rank, readingMachine, hc] using hcount

/-- A client that has printed all of the file reads nothing of the batch. -/
theorem not_readsBatch_of_transferred {c : Client} {rwnd : Int} (hc : c.recvPc = .listen rwnd false)
    (htransferred : c.transferred) (hne : batch ≠ []) : ¬ ReadsBatch cfg c batch := by
  intro hreads
  have hstep : (readingMachine cfg c batch).exec (readingMachine cfg c batch).init [.receiver] =
      some { client := { c with recvPc := .request }, unread := batch } := by
    simp [readingMachine, Machine.exec, Client.receiverStep, hc, htransferred]
  exact hne ((hreads _ _ hstep).1 rfl)

/-- **The end of a batch, exactly.** Whatever the state of the server and the request, as long as it
advertises room and is answered: both sides agree on where the batch ends if and only if it ends
at the end of the file, and the client does not know yet where that is. -/
theorem batchAgreed_iff {cfg : Config} {s s' : Server} {request : Segment} {clock : Nat → Int}
    {out : List Segment} (h : s.step cfg (.request request clock) = some (s', out))
    (hrwnd : 0 < request.rwnd) (hne : out ≠ []) (lastSegInTransfer : Int) :
    BatchAgreed cfg lastSegInTransfer request.rwnd out ↔ EndsFile cfg s request ∧ lastSegInTransfer < 0 := by
  have hmarked := markedLast_iff h hrwnd hne
  constructor
  · intro hagreed
    refine ⟨hmarked.mp hagreed.marked, ?_⟩
    by_contra hknown
    let c : Client := { Client.start with
      recvPc := .listen request.rwnd false
      lastSegInTransfer
      window := { RecvWindow.start with lastSegAcked := lastSegInTransfer } }
    have hge : 0 ≤ lastSegInTransfer := by omega
    exact not_readsBatch_of_transferred (c := c) rfl rfl hne (hagreed.reads c rfl rfl hge)
  · rintro ⟨hends, hunknown⟩
    have hend := hmarked.mpr hends
    refine ⟨hend, ?_⟩
    intro c hc hlast hge
    obtain ⟨timer, hallowed, -, hloop⟩ := Server.step_batch h hne
    obtain ⟨data, hfile, -⟩ := hends
    rw [hfile] at hloop
    obtain ⟨hlength, hbuilt⟩ := sendLoop_built hloop
    have hle : s.allowed cfg request ≤ request.rwnd := segToSend_le _ _ _
    refine readsBatch_of_awaited hc (hlast ▸ hunknown) hge ⟨hend, by omega, ?_⟩
    intro seg hm
    obtain ⟨i, left, now, -, hseg⟩ := hbuilt seg hm
    obtain ⟨hprobe, hresent, -⟩ := buildSegment_flags hseg
    obtain ⟨hchunk, -⟩ := isChunk_of_builtAt ⟨_, _, hseg⟩
    have hnumber := hchunk.sequenceNum
    rw [if_neg (by omega)] at hprobe
    exact { sequenceNum := by omega, isProbe := hprobe, isResent := hresent }

/-- A file of two segments, and a client with room for five: both are sent, and the second ends it. -/
theorem batchAgreed_iff_two :
    let cfg : Config :=
      { file := some (List.replicate 492 7), maxBufferSize := 8, maxWindowSize := 8, conv := .cvttsd2si }
    ∃ s' out, (Server.start 0).step cfg (.request { ackNum := 1, rwnd := 5 } fun _ => 0) = some (s', out) ∧
      out.length = 2 ∧ BatchAgreed cfg (-1) 5 out := by
  intro cfg
  have hrun : ((Server.start 0).step cfg (.request { ackNum := 1, rwnd := 5 } fun _ => 0)).any
      (fun sent => sent.2.length = 2) = true := by
    rw [Server.step_cutOut rfl (by rw [List.length_replicate]; decide)]
    decide +kernel
  obtain ⟨⟨s', out⟩, hstep, hlength⟩ := (Option.any_eq_true _ _).mp hrun
  have hlength : out.length = 2 := of_decide_eq_true hlength
  have hne : out ≠ [] := List.ne_nil_of_length_pos (by omega)
  exact ⟨s', out, hstep, hlength, (batchAgreed_iff hstep (by decide) hne (-1)).mpr
    ⟨⟨List.replicate 492 7, rfl, by decide +kernel⟩, by decide⟩⟩

/-- A file of three segments, and a client with room for five: `cwnd` lets the server send two,
and the client waits for a third. -/
theorem not_batchAgreed :
    let cfg : Config :=
      { file := some (List.replicate 983 7), maxBufferSize := 8, maxWindowSize := 8, conv := .cvttsd2si }
    ∃ s' out, (Server.start 0).step cfg (.request { ackNum := 1, rwnd := 5 } fun _ => 0) = some (s', out) ∧
      out ≠ [] ∧ ¬ BatchAgreed cfg (-1) 5 out := by
  intro cfg
  let c : Client := { Client.start with recvPc := .listen 5 false }
  let es : List ReadingEvent := [.receiver, .datagram, .receiver, .receiver, .receiver,
    .receiver, .datagram, .receiver, .receiver, .receiver, .receiver]
  have hrun : ((Server.start 0).step cfg (.request { ackNum := 1, rwnd := 5 } fun _ => 0)).any (fun sent =>
      sent.2 ≠ [] ∧ ((readingMachine cfg c sent.2).exec { client := c, unread := sent.2 } es).any fun s =>
        s.unread = [] ∧ s.client.recvPc = .read 3 false ∧ s.client.consumerPc = .asleep) = true := by
    rw [Server.step_cutOut rfl (by rw [List.length_replicate]; decide)]
    decide +kernel
  obtain ⟨⟨s', out⟩, hstep, htest⟩ := (Option.any_eq_true _ _).mp hrun
  obtain ⟨hne, hwaits⟩ := of_decide_eq_true htest
  refine ⟨s', out, hstep, hne, ?_⟩
  intro hagreed
  obtain ⟨s, hs, hwaits⟩ := (Option.any_eq_true _ _).mp hwaits
  obtain ⟨hunread, hpc, hasleep⟩ := of_decide_eq_true hwaits
  obtain ⟨-, hgoes, -⟩ := hagreed.reads c rfl rfl (by decide) es s hs
  rcases hgoes (by simp [hpc]) with hdraining | ⟨e, s₂, hreceiver, hstep⟩
  · simp [hasleep] at hdraining
  · cases e with
    | receiver | datagram => simp [readingMachine, hpc, hunread, Client.receiverStep] at hstep
    | consumer => exact hreceiver rfl

end Sockets.Udp
