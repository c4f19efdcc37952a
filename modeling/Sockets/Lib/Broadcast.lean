/-
Broadcasts under a lock. Each of some threads has one message for all the
listeners. It takes the lock, writes to one listener after another, and gives
the lock back; a listener registers while nobody has the lock. The threads
get the lock in any order. A write to a listener never blocks.

There is then one order of all the messages: every listener is written, from
where it registered, the messages in this order, and is at most the one that
is being sent behind (`Coherent`). No message is lost or sent twice
(`started_perm`), and all can be sent (`exists_settled`).
-/
import Mathlib.Data.List.Perm.Basic
import Sockets.Lib.Machine

namespace Sockets

/-- Of a listener: how many messages had been sent when it registered, what was written to it, and how much
of that it has read. -/
structure Listener (μ : Type) where
  since : Nat
  written : List μ := []
  read : Nat := 0

/-- The messages whose thread waits for the lock; the one that has it, with the number of the listeners it was
written to; the ones that were sent, and the ones whose thread was started, in order. -/
structure Broadcasts (μ : Type) where
  listeners : List (Listener μ) := []
  waiting : List μ := []
  holder : Option (μ × Nat) := none
  sent : List μ := []
  started : List μ := []

inductive BroadcastEvent (μ : Type)
  | register
  | start (m : μ)
  | acquire (i : Nat)
  | write
  | release
  | read (j : Nat)

variable {μ : Type}

namespace Broadcasts

def step (s : Broadcasts μ) : BroadcastEvent μ → Option (Broadcasts μ)
  | .register =>
    match s.holder with
    | none => some { s with listeners := s.listeners ++ [{ since := s.sent.length }] }
    | some _ => none
  | .start m => some { s with waiting := s.waiting ++ [m], started := s.started ++ [m] }
  | .acquire i =>
    match s.holder, s.waiting[i]? with
    | none, some m => some { s with waiting := s.waiting.eraseIdx i, holder := some (m, 0) }
    | _, _ => none
  | .write =>
    match s.holder with
    | some (m, i) =>
      (s.listeners[i]?).map fun l =>
        { s with
          listeners := s.listeners.set i { l with written := l.written ++ [m] }
          holder := some (m, i + 1) }
    | none => none
  | .release =>
    match s.holder with
    | some (m, i) => if i < s.listeners.length then none else some { s with holder := none, sent := s.sent ++ [m] }
    | none => none
  | .read j =>
    (s.listeners[j]?).bind fun l =>
      if l.read < l.written.length then
        some { s with listeners := s.listeners.set j { l with read := l.read + 1 } }
      else none

/-- The messages in the order in which they got the lock. -/
def order (s : Broadcasts μ) : List μ := s.sent ++ (s.holder.map Prod.fst).toList

/-- What the thread that has the lock has written to the listener with this number. -/
def current (s : Broadcasts μ) (j : Nat) : List μ :=
  match s.holder with
  | some (m, i) => if j < i then [m] else []
  | none => []

/-- What an event does. -/
inductive Effect (s : Broadcasts μ) : BroadcastEvent μ → Broadcasts μ → Prop
  | register (hfree : s.holder = none) :
      Effect s .register { s with listeners := s.listeners ++ [{ since := s.sent.length }] }
  | start (m : μ) : Effect s (.start m) { s with waiting := s.waiting ++ [m], started := s.started ++ [m] }
  | acquire {i m} (hfree : s.holder = none) (hm : s.waiting[i]? = some m) :
      Effect s (.acquire i) { s with waiting := s.waiting.eraseIdx i, holder := some (m, 0) }
  | write {m i l} (hheld : s.holder = some (m, i)) (hl : s.listeners[i]? = some l) :
      Effect s .write { s with
        listeners := s.listeners.set i { l with written := l.written ++ [m] }
        holder := some (m, i + 1) }
  | release {m i} (hheld : s.holder = some (m, i)) (hall : s.listeners.length ≤ i) :
      Effect s .release { s with holder := none, sent := s.sent ++ [m] }
  | read {j l} (hl : s.listeners[j]? = some l) (hmore : l.read < l.written.length) :
      Effect s (.read j) { s with listeners := s.listeners.set j { l with read := l.read + 1 } }

theorem effect_of_step {s s' : Broadcasts μ} {e : BroadcastEvent μ} (h : s.step e = some s') : s.Effect e s' := by
  cases e with
  | register =>
    simp only [step] at h
    split at h
    next hfree => exact Option.some.inj h ▸ .register hfree
    next => cases h
  | start m => exact Option.some.inj h ▸ .start m
  | acquire i =>
    simp only [step] at h
    split at h
    next m hfree hm => exact Option.some.inj h ▸ .acquire hfree hm
    next => cases h
  | write =>
    simp only [step] at h
    split at h
    next m i hheld =>
      obtain ⟨l, hl, rfl⟩ := Option.map_eq_some_iff.mp h
      exact .write hheld hl
    next => cases h
  | release =>
    simp only [step] at h
    split at h
    next m i hheld =>
      split at h
      · cases h
      next hall => exact Option.some.inj h ▸ .release hheld (Nat.not_lt.mp hall)
    next => cases h
  | read j =>
    simp only [step, Option.bind_eq_some_iff, Option.ite_none_right_eq_some, Option.some.injEq] at h
    obtain ⟨l, hl, hmore, rfl⟩ := h
    exact .read hl hmore

end Broadcasts

/-- Every listener was written the messages that were sent since it registered, in order, and then perhaps the
one that is being sent; and every message that was started is sent, being sent or waiting. -/
structure Broadcasts.Coherent (s : Broadcasts μ) : Prop where
  since : ∀ l ∈ s.listeners, l.since ≤ s.sent.length
  written : ∀ j l, s.listeners[j]? = some l → l.written = s.sent.drop l.since ++ s.current j
  holder : ∀ m i, s.holder = some (m, i) → i ≤ s.listeners.length
  perm : s.started.Perm (s.order ++ s.waiting)

def broadcastMachine (μ : Type) : Machine (Broadcasts μ) (BroadcastEvent μ) where
  init := {}
  step := Broadcasts.step

namespace Broadcasts

variable {s s' : Broadcasts μ} {e : BroadcastEvent μ}

theorem current_of_free (h : s.holder = none) (j : Nat) : s.current j = [] := by
  rw [current, h]

theorem current_of_held {m : μ} {i : Nat} (h : s.holder = some (m, i)) (j : Nat) :
    s.current j = if j < i then [m] else [] := by
  rw [current, h]

/-- One listener is replaced by one that registered with it. -/
theorem Coherent.since_set (h : s.Coherent) {i : Nat} {l l' : Listener μ} (hl : s.listeners[i]? = some l)
    (hsame : l'.since = l.since) : ∀ other ∈ s.listeners.set i l', other.since ≤ s.sent.length := by
  intro other hother
  rcases List.mem_or_eq_of_mem_set hother with hother | rfl
  · exact h.since other hother
  · rw [hsame]
    exact h.since l (List.mem_of_getElem? hl)

theorem Coherent.register (h : s.Coherent) (hfree : s.holder = none) :
    Coherent { s with listeners := s.listeners ++ [{ since := s.sent.length }] } where
  since l hl := by
    rcases List.mem_append.mp hl with hl | hl
    · exact h.since l hl
    · obtain rfl := List.mem_singleton.mp hl
      exact Nat.le_refl _
  written j l hl := by
    have hcurrent : current { s with listeners := s.listeners ++ [{ since := s.sent.length }] } j = s.current j := rfl
    rw [hcurrent]
    rw [List.getElem?_append] at hl
    split at hl
    · exact h.written j l hl
    · obtain rfl := List.mem_singleton.mp (List.mem_of_getElem? hl)
      rw [List.drop_length, current_of_free hfree, List.append_nil]
  holder m i hheld := absurd (hfree.symm.trans hheld) (by intro hc; cases hc)
  perm := h.perm

theorem Coherent.acquire (h : s.Coherent) {i : Nat} {m : μ} (hfree : s.holder = none) (hm : s.waiting[i]? = some m) :
    Coherent { s with waiting := s.waiting.eraseIdx i, holder := some (m, 0) } where
  since := h.since
  written j l hl := by
    rw [current_of_held rfl, if_neg (Nat.not_lt_zero j), ← current_of_free hfree j]
    exact h.written j l hl
  holder m' i' hheld := by
    obtain ⟨-, rfl⟩ := Prod.mk.inj (Option.some.inj hheld)
    exact Nat.zero_le _
  perm := by
    obtain ⟨hi, rfl⟩ := List.getElem?_eq_some_iff.mp hm
    have hperm := h.perm
    simp only [order, hfree, Option.map_none, Option.toList_none, List.append_nil] at hperm
    simp only [order, Option.map_some, Option.toList_some, List.append_assoc]
    exact hperm.trans (List.Perm.append_left _ (List.getElem_cons_eraseIdx_perm hi).symm)

theorem Coherent.write (h : s.Coherent) {m : μ} {i : Nat} {l : Listener μ} (hheld : s.holder = some (m, i))
    (hl : s.listeners[i]? = some l) : Coherent { s with
      listeners := s.listeners.set i { l with written := l.written ++ [m] }
      holder := some (m, i + 1) } where
  since := h.since_set hl rfl
  written j other hother := by
    obtain ⟨hi, -⟩ := List.getElem?_eq_some_iff.mp hl
    rw [current_of_held rfl]
    by_cases hj : j = i
    · subst hj
      obtain rfl : { l with written := l.written ++ [m] } = other :=
        Option.some.inj ((List.getElem?_set_self hi).symm.trans hother)
      rw [if_pos (Nat.lt_succ_self j)]
      show l.written ++ [m] = s.sent.drop l.since ++ [m]
      rw [h.written j l hl, current_of_held hheld, if_neg (Nat.lt_irrefl j), List.append_nil]
    · rw [List.getElem?_set_ne (Ne.symm hj)] at hother
      rw [h.written j other hother, current_of_held hheld]
      by_cases hlt : j < i
      · rw [if_pos hlt, if_pos (by omega)]
      · rw [if_neg hlt, if_neg (by omega)]
  holder m' i' hheld' := by
    obtain ⟨-, rfl⟩ := Prod.mk.inj (Option.some.inj hheld')
    rw [List.length_set]
    exact (List.getElem?_eq_some_iff.mp hl).1
  perm := by
    have hperm := h.perm
    simp only [order, hheld, Option.map_some] at hperm ⊢
    exact hperm

theorem Coherent.release (h : s.Coherent) {m : μ} {i : Nat} (hheld : s.holder = some (m, i))
    (hall : s.listeners.length ≤ i) : Coherent { s with holder := none, sent := s.sent ++ [m] } where
  since l hl := by
    rw [List.length_append]
    exact Nat.le_trans (h.since l hl) (Nat.le_add_right _ _)
  written j l hl := by
    have hj : j < i := Nat.lt_of_lt_of_le (List.getElem?_eq_some_iff.mp hl).1 hall
    rw [current_of_free rfl, List.append_nil, List.drop_append_of_le_length (h.since l (List.mem_of_getElem? hl)),
      h.written j l hl, current_of_held hheld, if_pos hj]
  holder m' i' hheld' := by cases hheld'
  perm := by
    have hperm := h.perm
    simp only [order, hheld, Option.map_some, Option.toList_some] at hperm
    simp only [order, Option.map_none, Option.toList_none, List.append_nil]
    exact hperm

theorem Coherent.read (h : s.Coherent) {j : Nat} {l : Listener μ} (hl : s.listeners[j]? = some l) (n : Nat) :
    Coherent { s with listeners := s.listeners.set j { l with read := n } } where
  since := h.since_set hl rfl
  written i other hother := by
    show other.written = s.sent.drop other.since ++ s.current i
    by_cases hi : i = j
    · subst hi
      obtain rfl : { l with read := n } = other :=
        Option.some.inj ((List.getElem?_set_self (List.getElem?_eq_some_iff.mp hl).1).symm.trans hother)
      exact h.written i l hl
    · rw [List.getElem?_set_ne (Ne.symm hi)] at hother
      exact h.written i other hother
  holder m i hheld := by
    rw [List.length_set]
    exact h.holder m i hheld
  perm := h.perm

theorem Coherent.step (h : s.Coherent) (hs : s.step e = some s') : s'.Coherent := by
  cases effect_of_step hs with
  | register hfree => exact h.register hfree
  | start m =>
    refine ⟨h.since, h.written, h.holder, ?_⟩
    show (s.started ++ [m]).Perm (s.order ++ (s.waiting ++ [m]))
    rw [← List.append_assoc]
    exact h.perm.append_right [m]
  | acquire hfree hm => exact h.acquire hfree hm
  | write hheld hl => exact h.write hheld hl
  | release hheld hall => exact h.release hheld hall
  | read hl hmore => exact h.read hl _

theorem coherent_start : Coherent ({} : Broadcasts μ) where
  since l hl := absurd hl List.not_mem_nil
  written j l hl := by cases hl
  holder m i hheld := by cases hheld
  perm := .refl _

/-- What a listener has read is the messages in their order from where it registered, as far as it has come. -/
theorem Coherent.read_prefix_order (h : s.Coherent) {l : Listener μ} (hl : l ∈ s.listeners) :
    l.written.take l.read <+: s.order.drop l.since := by
  obtain ⟨j, hj⟩ := List.mem_iff_getElem?.mp hl
  refine (List.take_prefix _ _).trans ?_
  rw [h.written j l hj, order, List.drop_append_of_le_length (h.since l hl), List.prefix_append_right_inj]
  cases hheld : s.holder with
  | none =>
    rw [current_of_free hheld]
    exact List.nil_prefix
  | some held =>
    rw [current_of_held hheld, Option.map_some, Option.toList_some]
    split
    · exact List.prefix_rfl
    · exact List.nil_prefix

/-- The order only grows. -/
theorem order_prefix_of_step (hs : s.step e = some s') : s.order <+: s'.order := by
  cases effect_of_step hs with
  | register | start | read => exact List.prefix_rfl
  | acquire hfree =>
    rw [order, hfree]
    exact List.prefix_append_right_inj _ |>.mpr List.nil_prefix
  | write hheld =>
    rw [order, hheld]
    exact List.prefix_rfl
  | release hheld =>
    rw [order, hheld]
    exact List.prefix_append _ []

/-! ## All can be sent -/

/-- What the threads do that have a message: no other thread is started meanwhile, and no listener registers. -/
def Sends : BroadcastEvent μ → Prop
  | .acquire _ | .write | .release => True
  | .register | .start _ | .read _ => False

/-- A run of the threads that are there. -/
structure SendsOut (s s' : Broadcasts μ) (es : List (BroadcastEvent μ)) : Prop where
  exec : (broadcastMachine μ).exec s es = some s'
  sends : ∀ e ∈ es, Sends e
  started : s'.started = s.started
  since : s'.listeners.map (·.since) = s.listeners.map (·.since)
  order : s.order <+: s'.order

theorem SendsOut.refl (s : Broadcasts μ) : SendsOut s s [] :=
  ⟨rfl, fun _ he => absurd he List.not_mem_nil, rfl, rfl, List.prefix_rfl⟩

theorem SendsOut.cons {s'' : Broadcasts μ} {es : List (BroadcastEvent μ)} (hs : s.step e = some s') (he : Sends e)
    (hstarted : s'.started = s.started) (hsince : s'.listeners.map (·.since) = s.listeners.map (·.since))
    (h : SendsOut s' s'' es) : SendsOut s s'' (e :: es) where
  exec := Machine.exec_cons_iff.mpr ⟨s', hs, h.exec⟩
  sends := List.forall_mem_cons.mpr ⟨he, h.sends⟩
  started := h.started.trans hstarted
  since := h.since.trans hsince
  order := (order_prefix_of_step hs).trans h.order

theorem SendsOut.trans {s'' : Broadcasts μ} {es fs : List (BroadcastEvent μ)} (h : SendsOut s s' es)
    (h' : SendsOut s' s'' fs) : SendsOut s s'' (es ++ fs) where
  exec := Machine.exec_append.mpr ⟨s', h.exec, h'.exec⟩
  sends _ he := (List.mem_append.mp he).elim (h.sends _) (h'.sends _)
  started := h'.started.trans h.started
  since := h'.since.trans h.since
  order := h.order.trans h'.order

theorem map_set_of_eq {α β : Type} {f : α → β} {l : List α} {i : Nat} {a : α} (hi : i < l.length)
    (hf : f a = f l[i]) : (l.set i a).map f = l.map f := by
  have hmap : i < (l.map f).length := by
    rw [List.length_map]
    exact hi
  rw [List.map_set, hf, ← List.getElem_map f (h := hmap), List.set_getElem_self]

/-- The thread that has the lock goes on to the last listener, and gives it back. -/
theorem exists_released {m : μ} {i : Nat} (hheld : s.holder = some (m, i)) : ∃ es s', SendsOut s s' es ∧
    s'.holder = none ∧ s'.waiting = s.waiting := by
  generalize hn : s.listeners.length - i = n
  induction n generalizing s i with
  | zero =>
    have hstep : s.step .release = some { s with holder := none, sent := s.sent ++ [m] } := by
      simp only [step, hheld]
      exact if_neg (by omega)
    exact ⟨[.release], _, .cons hstep trivial rfl rfl (.refl _), rfl, rfl⟩
  | succ n ih =>
    have hi : i < s.listeners.length := by omega
    have hl : s.listeners[i]? = some s.listeners[i] := List.getElem?_eq_getElem hi
    let l : Listener μ := { s.listeners[i] with written := s.listeners[i].written ++ [m] }
    let next : Broadcasts μ := { s with listeners := s.listeners.set i l, holder := some (m, i + 1) }
    have hstep : s.step .write = some next := by
      simp only [step, hheld, hl, Option.map_some]
      rfl
    have hlen : next.listeners.length - (i + 1) = n := by
      show (s.listeners.set i l).length - (i + 1) = n
      rw [List.length_set]
      omega
    have hsince : next.listeners.map (·.since) = s.listeners.map (·.since) := by
      exact map_set_of_eq hi rfl
    obtain ⟨es, s', hsends, hfree, hwaiting⟩ := ih (s := next) rfl hlen
    exact ⟨.write :: es, s', .cons hstep trivial rfl hsince hsends, hfree, hwaiting⟩

/-- **Nothing is stuck.** The threads that are there can send all their messages. -/
theorem exists_settled (s : Broadcasts μ) : ∃ es s', SendsOut s s' es ∧ s'.holder = none ∧ s'.waiting = [] := by
  obtain ⟨es, r, hr, hfree, -⟩ : ∃ es r, SendsOut s r es ∧ r.holder = none ∧ r.waiting = s.waiting := by
    cases hheld : s.holder with
    | none => exact ⟨[], s, .refl s, hheld, rfl⟩
    | some held => exact exists_released hheld
  suffices hall : ∀ n (r : Broadcasts μ), r.waiting.length = n → r.holder = none →
      ∃ es s', SendsOut r s' es ∧ s'.holder = none ∧ s'.waiting = [] by
    obtain ⟨fs, s', hs', hdone⟩ := hall _ r rfl hfree
    exact ⟨es ++ fs, s', hr.trans hs', hdone⟩
  intro n
  induction n with
  | zero => exact fun r hn hfree => ⟨[], r, .refl r, hfree, List.length_eq_zero_iff.mp hn⟩
  | succ n ih =>
    intro r hn hfree
    obtain ⟨m, rest, hwaiting⟩ := List.exists_cons_of_length_eq_add_one hn
    let next : Broadcasts μ := { r with waiting := rest, holder := some (m, 0) }
    have hstep : r.step (.acquire 0) = some next := by
      simp only [step, hfree, hwaiting, List.getElem?_cons_zero, List.eraseIdx_cons_zero]
      rfl
    obtain ⟨es, r', hr', hfree', hwaiting'⟩ := exists_released (s := next) rfl
    have hlen : r'.waiting.length = n := by
      rw [hwaiting']
      rw [hwaiting, List.length_cons] at hn
      exact Nat.succ.inj hn
    obtain ⟨fs, s', hs', hdone⟩ := ih r' hlen hfree'
    exact ⟨.acquire 0 :: (es ++ fs), s', .cons hstep trivial rfl rfl (hr'.trans hs'), hdone⟩

end Broadcasts

end Sockets
