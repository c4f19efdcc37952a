/-
The server with all its echo clients. Each connection has a thread of its own,
but a thread that fails at a call on its connection ends the process, and the
service of all. Such a call can fail only when the client is gone and
bytes were sent that it did not read; so a client that ends while nothing is
on its way does no harm, and one that ends while something is can take
the server with it (`mayFail_iff`).
-/
import Mathlib.Logic.Function.Basic
import Sockets.Tcp.Crash

namespace Sockets.Tcp

variable {ι : Type}

structure System (ι : Type) where
  up : Bool
  sessions : ι → Session

inductive SystemEvent (ι : Type)
  | client (i : ι) (e : Event)
  /-- `read` or `Writen` fails in the thread of this client -/
  | fails (i : ι)
  | killed

namespace System

def start (mem : ι → Memory) (text : ι → List Char) : System ι where
  up := true
  sessions i := .start (mem i) (text i)

/-- The process ends, and all connections with it. -/
def gone (s : System ι) : System ι := { up := false, sessions := fun i => (s.sessions i).serverGone }

/-- Bytes were sent to a client that is gone. -/
def reset (t : Session) : Bool := t.serving && t.child == .ended && !t.toClient.unread.isEmpty

variable [DecidableEq ι]

def step (s : System ι) : SystemEvent ι → Option (System ι)
  | .client i e =>
    if e = .serverEnds then none
    else ((s.sessions i).step e).map fun t => { s with sessions := Function.update s.sessions i t }
  | .fails i => if s.up = true ∧ reset (s.sessions i) = true then some s.gone else none
  | .killed => if s.up = true then some s.gone else none

end System

variable [DecidableEq ι]

def systemMachine (mem : ι → Memory) (text : ι → List Char) : Machine (System ι) (SystemEvent ι) where
  init := .start mem text
  step := System.step

namespace System

variable {mem : ι → Memory} {text : ι → List Char} {s s' r : System ι} {e : SystemEvent ι}

/-! ## Client by client -/

theorem up_of_step {t t' : Session} {e : Event} (h : t.step e = some t') (he : e ≠ .serverEnds) : t'.up = t.up := by
  cases Session.effect_of_step h with
  | serverEnds hup => exact absurd rfl he
  | refused hchild | childSocket hchild | childSocketEnd hchild | childStdinEnd hchild => simp
  | _ => rfl

/-- Each client sees a run of its own, with the end of the server in it. -/
theorem sessions_of_reachable (h : (systemMachine mem text).Reachable s) (i : ι) :
    (sessionMachine (mem i) (text i)).Reachable (s.sessions i) ∧ (s.sessions i).up = s.up := by
  revert i
  refine h.invariant (I := fun s => ∀ i, (sessionMachine (mem i) (text i)).Reachable (s.sessions i) ∧
    (s.sessions i).up = s.up) (fun i => ⟨.start, rfl⟩) ?_
  intro s e s' hs hstep i
  have hgone (hup : s.up = true) : (sessionMachine (mem i) (text i)).Reachable (s.gone.sessions i) ∧
      (s.gone.sessions i).up = s.gone.up :=
    ⟨Session.reachable_step (e := .serverEnds) (hs i).1 (if_pos ((hs i).2.trans hup)), rfl⟩
  cases e with
  | client j e =>
    obtain ⟨he, h⟩ := Option.ite_none_left_eq_some.mp hstep
    obtain ⟨t, ht, rfl⟩ := Option.map_eq_some_iff.mp h
    show (sessionMachine (mem i) (text i)).Reachable (Function.update s.sessions j t i) ∧
      (Function.update s.sessions j t i).up = s.up
    rcases eq_or_ne i j with rfl | hne
    · rw [Function.update_self]
      exact ⟨Session.reachable_step (hs i).1 ht, (up_of_step ht he).trans (hs i).2⟩
    · rw [Function.update_of_ne hne]
      exact hs i
  | fails j =>
    obtain ⟨⟨hup, -⟩, h⟩ := Option.ite_none_right_eq_some.mp hstep
    exact Option.some.inj h ▸ hgone hup
  | killed =>
    obtain ⟨hup, h⟩ := Option.ite_none_right_eq_some.mp hstep
    exact Option.some.inj h ▸ hgone hup

/-! ## What the threads can do -/

/-- The thread of a client can still come to a call that fails. -/
def Endangered (t : Session) : Prop := t.serving = true ∧ t.child = .ended ∧ t.underWay ≠ []

/-- What a thread of the server does. -/
def atServer : SystemEvent ι → Bool
  | .client _ (.serverRead _) | .client _ .serverReadEnd | .client _ (.serverWrite _) | .fails _ => true
  | _ => false

omit [DecidableEq ι] in
/-- What a thread does leaves the bytes under way and the clients as they are. -/
theorem endangered_of_step {t t' : Session} {i : ι} {e : Event} (h : t.step e = some t')
    (he : atServer (.client i e) = true) (ht' : Endangered t') : Endangered t := by
  have hunder : t'.underWay = t.underWay ∧ t'.child = t.child ∧ (t'.serving = true → t.serving = true) := by
    cases Session.effect_of_step h with
    | serverRead hserving hheld hread =>
      exact ⟨by simp [Session.underWay, hheld, hread], rfl, id⟩
    | serverReadEnd => exact ⟨rfl, rfl, fun hserving => absurd hserving Bool.false_ne_true⟩
    | serverWrite hserving =>
      refine ⟨?_, rfl, id⟩
      rw [Session.underWay, Session.underWay, Pipe.write_unread, List.append_assoc t.toClient.unread,
        List.take_append_drop]
    | _ => simp [atServer] at he
  obtain ⟨hserving, hchild, hne⟩ := ht'
  exact ⟨hunder.2.2 hserving, hunder.2.1 ▸ hchild, hunder.1 ▸ hne⟩

theorem endangered_of_reset {t : Session} (h : reset t = true) : Endangered t := by
  simp only [reset, Bool.and_eq_true, beq_iff_eq, Bool.not_eq_true', List.isEmpty_eq_false_iff] at h
  obtain ⟨⟨hserving, hchild⟩, hne⟩ := h
  exact ⟨hserving, hchild, by simp [Session.underWay, hne]⟩

/-- As long as no thread is in danger, the threads do no harm. -/
theorem not_endangered_of_step (hs : ∀ i, ¬ Endangered (s.sessions i)) (he : atServer e = true)
    (hstep : s.step e = some s') : s'.up = s.up ∧ ∀ i, ¬ Endangered (s'.sessions i) := by
  cases e with
  | client j e =>
    obtain ⟨-, h⟩ := Option.ite_none_left_eq_some.mp hstep
    obtain ⟨t, ht, rfl⟩ := Option.map_eq_some_iff.mp h
    refine ⟨rfl, (Function.forall_update_iff s.sessions (p := fun _ t => ¬ Endangered t)).mpr ⟨?_, ?_⟩⟩
    · exact fun hdanger => hs j (endangered_of_step ht he hdanger)
    · exact fun i _ => hs i
  | fails j =>
    obtain ⟨⟨-, hreset⟩, -⟩ := Option.ite_none_right_eq_some.mp hstep
    exact absurd (endangered_of_reset hreset) (hs j)
  | killed => simp [atServer] at he

theorem up_of_exec {es : List (SystemEvent ι)} (hs : ∀ i, ¬ Endangered (s.sessions i))
    (hes : ∀ e ∈ es, atServer e = true) (hr : (systemMachine mem text).exec s es = some r) : r.up = s.up := by
  induction es generalizing s with
  | nil => rw [Option.some.inj hr]
  | cons e es ih =>
    obtain ⟨s', hstep, hr⟩ := Machine.exec_cons_iff.mp hr
    obtain ⟨hup, hs'⟩ := not_endangered_of_step hs (hes e List.mem_cons_self) hstep
    exact (ih hs' (fun e he => hes e (List.mem_cons_of_mem _ he)) hr).trans hup

/-! ## The buffer of a thread -/

/-- The last cell of a thread's buffer stays a `nul`. -/
theorem load_serverBuf {mem : Memory} {text : List Char} {t : Session}
    (hmem : load mem.server (MAXLINE - 1) = some nul) (hnul : nul ∉ text)
    (h : (sessionMachine mem text).Reachable t) : load t.serverBuf (MAXLINE - 1) = some nul := by
  have hinv : (sessionMachine mem text).Reachable t ∧ load t.serverBuf (MAXLINE - 1) = some nul := by
    refine h.invariant (I := fun t => (sessionMachine mem text).Reachable t ∧
      load t.serverBuf (MAXLINE - 1) = some nul) ⟨.start, hmem⟩ ?_
    intro t e t' ht hstep
    refine ⟨Session.reachable_step ht.1 hstep, ?_⟩
    cases Session.effect_of_step hstep with
    | @serverRead buf bytes toServer hserving hheld hread hclosed hbuf hn hend =>
      -- a read that fills the buffer finds no `nul` to print to
      have hbytes : nul ∉ bytes := by
        intro hm
        exact hnul (by simp [← Session.conserved ht.1, Session.underWay, hread, hm])
      have hlt : bytes.length < MAXLINE := by
        refine lt_of_le_of_ne hn ?_
        intro hfull
        rw [received, List.Vector.toList_mk, List.take_of_length_le hn, List.drop_of_length_le (by
          rw [buf.toList_length, hfull]), List.append_nil] at hend
        exact hbytes hend
      exact (load_received_of_le (by omega)).trans (load_clearString hbuf ht.2)
    | serverReadEnd hheld hended hbuf => exact load_clearString hbuf ht.2
    | refused hchild | childSocket hchild | childSocketEnd hchild | childStdinEnd hchild => simpa using ht.2
    | _ => exact ht.2
  exact hinv.2

/-! ## A thread that fails -/

omit [DecidableEq ι] in
/-- Up to the call that fails, the thread goes on with its loop. -/
theorem exists_reset (mem : Memory) (text : List Char) {t : Session} (h : Endangered t)
    (hload : load t.serverBuf (MAXLINE - 1) = some nul) :
    ∃ es t', (sessionMachine mem text).exec t es = some t' ∧ reset t' = true ∧
      ∀ e ∈ es, ∀ i : ι, atServer (.client i e) = true := by
  obtain ⟨hserving, hchild, hne⟩ := h
  have hreset {t : Session} (hserving : t.serving = true) (hchild : t.child = .ended) (hne : t.toClient.unread ≠ []) :
      reset t = true := by simp [reset, hserving, hchild, hne]
  have hwrite {t : Session} (hserving : t.serving = true) (hchild : t.child = .ended) (hheld : t.held ≠ []) :
      ∃ t', t.step (.serverWrite t.held.length) = some t' ∧ reset t' = true := by
    refine ⟨_, if_pos ⟨hserving, List.length_pos_of_ne_nil hheld, le_rfl⟩, hreset hserving hchild ?_⟩
    rw [List.take_length, Pipe.write_unread]
    exact List.append_ne_nil_of_right_ne_nil _ hheld
  rcases eq_or_ne t.toClient.unread [] with hclient | hclient
  · rcases eq_or_ne t.held [] with hheld | hheld
    · -- nothing is read yet: the thread reads a byte first
      have hserver : t.toServer.unread ≠ [] := by simpa [Session.underWay, hclient, hheld] using hne
      obtain ⟨c, rest, hunread⟩ := List.exists_cons_of_ne_nil hserver
      obtain ⟨buf, hbuf⟩ : ∃ buf, clearString nul t.serverBuf = some buf :=
        ⟨_, if_pos (Session.nul_mem_of_load hload)⟩
      have hlast : load (received buf [c]) (MAXLINE - 1) = some nul :=
        (load_received_of_le (show 1 ≤ MAXLINE - 1 by decide)).trans (load_clearString hbuf hload)
      have hend : nul ∈ (received buf [c]).toList := Session.nul_mem_of_load hlast
      have hread : t.step (.serverRead 1) = some { t with
          serverBuf := received buf [c], toServer := { t.toServer with unread := rest }, held := [c] } := by
        rw [Session.step, if_pos ⟨hserving, hheld, by decide⟩, hbuf, Option.bind_some, Pipe.read,
          if_pos ⟨Nat.one_pos, by simp [hunread]⟩, hunread, Option.bind_some]
        exact if_pos hend
      obtain ⟨t', hstep, ht'⟩ := @hwrite { t with
        serverBuf := received buf [c], toServer := { t.toServer with unread := rest }, held := [c] } hserving hchild
        (List.cons_ne_nil c [])
      refine ⟨[.serverRead 1, .serverWrite 1], t', ?_, ht', by simp [atServer]⟩
      exact Machine.exec_cons_iff.mpr ⟨_, hread, Machine.exec_cons_iff.mpr ⟨t', hstep, rfl⟩⟩
    · obtain ⟨t', hstep, ht'⟩ := hwrite hserving hchild hheld
      exact ⟨[.serverWrite t.held.length], t', Machine.exec_cons_iff.mpr ⟨t', hstep, rfl⟩, ht', by simp [atServer]⟩
  · exact ⟨[], t, rfl, hreset hserving hchild hclient, by simp⟩

/-- What a client and its thread do by themselves. -/
theorem exec_client {i : ι} {es : List Event} {t' : Session} (hes : ∀ e ∈ es, e ≠ .serverEnds)
    (h : (sessionMachine (mem i) (text i)).exec (s.sessions i) es = some t') :
    (systemMachine mem text).exec s (es.map (.client i)) =
      some { s with sessions := Function.update s.sessions i t' } := by
  induction es generalizing s with
  | nil =>
    rw [← Option.some.inj h, Function.update_eq_self]
    rfl
  | cons e es ih =>
    obtain ⟨t, ht, h⟩ := Machine.exec_cons_iff.mp h
    have hstep : s.step (.client i e) = some { s with sessions := Function.update s.sessions i t } := by
      rw [step, if_neg (hes e List.mem_cons_self)]
      exact congrArg (Option.map _) ht
    rw [List.map_cons]
    refine Machine.exec_cons_iff.mpr ⟨_, hstep, ?_⟩
    have hrest := ih (s := { s with sessions := Function.update s.sessions i t })
      (fun e he => hes e (List.mem_cons_of_mem _ he)) (by simpa using h)
    simpa using hrest

/-- **Who can end the service of all.** While the server is up, its threads alone can bring it down
exactly when a client has ended with bytes on their way that its thread still serves; and then
every connection ends with it. -/
theorem mayFail_iff (hmem : ∀ i, load (mem i).server (MAXLINE - 1) = some nul) (hnul : ∀ i, nul ∉ text i)
    (h : (systemMachine mem text).Reachable s) (hup : s.up = true) :
    (∃ es r, (systemMachine mem text).exec s es = some r ∧ (∀ e ∈ es, atServer e = true) ∧ r.up = false ∧
      ∀ j, (r.sessions j).toClient.closed = true) ↔
    ∃ i, (s.sessions i).serving = true ∧ (s.sessions i).child = .ended ∧ (s.sessions i).underWay ≠ [] := by
  constructor
  · intro hfail
    obtain ⟨es, r, hr, hes, hdown, -⟩ := hfail
    by_contra hsafe
    have hstill := up_of_exec (fun i hdanger => hsafe ⟨i, hdanger⟩) hes hr
    exact absurd (hdown.symm.trans (hstill.trans hup)) (by decide)
  · intro hdanger
    obtain ⟨i, hdanger⟩ := hdanger
    have hload := load_serverBuf (hmem i) (hnul i) (sessions_of_reachable h i).1
    obtain ⟨es, t', hexec, hreset, hes⟩ := exists_reset (ι := ι) (mem i) (text i) hdanger hload
    have hends : ∀ e ∈ es, e ≠ .serverEnds := by
      intro e he hend
      exact absurd (hend ▸ hes e he i) (by simp [atServer])
    let s' : System ι := { s with sessions := Function.update s.sessions i t' }
    have hfails : (systemMachine mem text).step s' (.fails i) = some s'.gone :=
      if_pos ⟨hup, by simpa [s'] using hreset⟩
    refine ⟨es.map (.client i) ++ [.fails i], s'.gone, Machine.exec_append.mpr ⟨s', exec_client hends hexec,
      Machine.exec_cons_iff.mpr ⟨s'.gone, hfails, rfl⟩⟩, ?_, rfl, fun j => rfl⟩
    intro e he
    rcases List.mem_append.mp he with hmem | hmem
    · obtain ⟨e', he', rfl⟩ := List.mem_map.mp hmem
      exact hes e' he' i
    · rw [List.mem_singleton.mp hmem]
      rfl

/-- What the second client has typed is under way when it ends; the first one has not even connected. -/
theorem mayFail_iff_leavesEarly : ∃ s : System Bool,
    (systemMachine (fun _ => .zero) (fun _ => ['a'])).Reachable s ∧ (s.sessions false).child = .connecting ∧
    ∃ es r, (systemMachine (fun _ => .zero) (fun _ => ['a'])).exec s es = some r ∧
      (∀ e ∈ es, atServer e = true) ∧ r.up = false ∧ ∀ j, (r.sessions j).toClient.closed = true := by
  obtain ⟨t, hconnect, hready⟩ := @Session.ready_connect .zero ['a'] Session.zero_roomy Session.zero_roomy
  have hsent := @Session.Ready.childStdin t ['a'] [] hready (List.cons_ne_nil _ _) (by decide)
  let t' : Session :=
    Session.childEnds { t with stdin := [], buf := received t.buf ['a'], toServer := { unread := ['a'] } }
  let s : System Bool :=
    { up := true, sessions := Function.update (fun _ => Session.start .zero ['a']) true t' }
  have hexec : (sessionMachine .zero ['a']).exec (.start .zero ['a']) [.connect, .childStdin 1, .childDies] =
      some t' :=
    Machine.exec_cons_iff.mpr ⟨_, hconnect, Machine.exec_cons_iff.mpr ⟨_, hsent, Machine.exec_cons_iff.mpr
      ⟨_, if_pos (by simp [hready.child]), rfl⟩⟩⟩
  have hs : (systemMachine (fun _ : Bool => .zero) (fun _ => ['a'])).Reachable s :=
    ⟨_, @exec_client Bool _ (fun _ => .zero) (fun _ => ['a'])
      (.start (fun _ => .zero) (fun _ => ['a'])) true [.connect, .childStdin 1, .childDies] t' (by decide) hexec⟩
  have hload (i : Bool) : load ((fun _ : Bool => Memory.zero) i).server (MAXLINE - 1) = some nul :=
    (Session.roomy_of_mem Session.zero_roomy.1 Session.zero_roomy.2).2
  have ht' : s.sessions true = t' := by simp only [s, Function.update_self]
  have hdanger : (s.sessions true).serving = true ∧ (s.sessions true).child = .ended ∧
      (s.sessions true).underWay ≠ [] := by
    rw [ht']
    exact ⟨hready.serving, rfl, by simp [t', Session.underWay, Session.childEnds, Pipe.close]⟩
  refine ⟨s, hs, rfl, (mayFail_iff hload (fun _ => ?_) hs rfl).mpr ⟨true, hdanger⟩⟩
  decide

end System

end Sockets.Tcp
