/-
What would keep the uploads apart: a lock, held by a thread from where it lists
the directory to where it has made its file, and by one that deletes a file.

Then the loop of `getName`, though it is interleaved with what the others write,
finds the name it finds when it runs by itself (`Follows`); and if that name is
one of a file in the directory that no listed name denotes, each file is made
where there is none, so that all files are always as they were uploaded
(`intact_of_locked`). Without that the lock is no help: `getName` compares names,
and two of them may denote one file.
-/
import Sockets.Ftp.Uploads

namespace Sockets.Ftp.Shared

/-- The thread has listed the directory, and not yet made its file. -/
def Phase.Choosing : Phase → Prop
  | .naming .. | .named .. => True
  | .idle | .receiving .. | .writing .. | .measured .. | .ended => False

variable {φ : Type}

/-- No file is made or deleted while another thread is choosing its name. -/
def State.Locked (s : State φ) : Event → Prop
  | .create n => ∀ m < s.threads.length, m ≠ n → ∀ t ∈ s.threads[m]?, ¬ t.phase.Choosing
  | .delete _ => ∀ t ∈ s.threads, ¬ t.phase.Choosing
  | _ => True

/-- The system lists every file of the directory, by a name that denotes it. -/
structure Folder.Lists (folder : Folder φ) : Prop where
  all : ∀ names, ∀ name ∈ names, name ∈ folder.listFiles names
  denotes : ∀ name, folder.inside (folder.fileOf name) = true →
    folder.fileOf (folder.shown name) = folder.fileOf name

instance (p : Phase) : Decidable p.Choosing :=
  match p with
  | .naming .. | .named .. => .isTrue trivial
  | .idle | .receiving .. | .writing .. | .measured .. | .ended => .isFalse id

instance (s : State φ) (e : Event) : Decidable (s.Locked e) :=
  match e with
  | .create n =>
    inferInstanceAs (Decidable (∀ m < s.threads.length, m ≠ n → ∀ t ∈ s.threads[m]?, ¬ t.phase.Choosing))
  | .delete _ => inferInstanceAs (Decidable (∀ t ∈ s.threads, ¬ t.phase.Choosing))
  | .connect | .arrive .. | .upload _ | .download _ | .other _ | .look _ | .readFully _ | .write .. | .close _
  | .read _ | .fail _ | .collectInput _ | .collectOutput _ => .isTrue trivial

section Guards

variable [DecidableEq φ] (folder : Folder φ)

/-- The name is that of a file in the directory, and none that is listed denotes it. -/
def Folder.isNew (listed : List JString) (name : JString) : Bool :=
  folder.inside (folder.fileOf name) && listed.all fun other => folder.fileOf other != folder.fileOf name

/-- The name that `getName` finds in the directory `listed`, for the one the thread was asked for, is new. -/
def Phase.Safe (listed : List JString) : Phase → Prop
  | .named _ asked _ => (getName listed asked).any (folder.isNew listed) = true
  | .idle | .naming .. | .receiving .. | .writing .. | .measured .. | .ended => True

/-- The name is safe in the directory in which the file is made. -/
def State.Safe (s : State φ) : Event → Prop
  | .create n => ∀ t ∈ s.threads[n]?, t.phase.Safe folder (s.listed folder)
  | _ => True

instance (listed : List JString) (p : Phase) : Decidable (p.Safe folder listed) :=
  match p with
  | .named _ asked _ => inferInstanceAs (Decidable ((getName listed asked).any (folder.isNew listed) = true))
  | .idle | .naming .. | .receiving .. | .writing .. | .measured .. | .ended => .isTrue trivial

instance (s : State φ) (e : Event) : Decidable (s.Safe folder e) :=
  match e with
  | .create n => inferInstanceAs (Decidable (∀ t ∈ s.threads[n]?, t.phase.Safe folder (s.listed folder)))
  | .connect | .arrive .. | .delete _ | .upload _ | .download _ | .other _ | .look _ | .readFully _ | .write ..
  | .close _ | .read _ | .fail _ | .collectInput _ | .collectOutput _ => .isTrue trivial

/-- A file is made under the name that `getName` has for it at that moment, and there is none yet. -/
def State.MadeAfresh (s : State φ) : Event → Prop
  | .create n => ∀ t size asked Ufname, s.threads[n]? = some t → t.phase = .named size asked Ufname →
      getName (s.listed folder) asked = some Ufname ∧ s.store.files (folder.fileOf Ufname) = none
  | _ => True

end Guards

/-- The thread is where `getName` comes by itself in the directory `listed`, if it finds a name there. -/
def Phase.Follows (listed : List JString) : Phase → Prop
  | .naming _ asked loop => ∀ stored, getName listed asked = some stored → loop.fList = listed ∧
      ∃ rounds, getNameFrom listed rounds loop.Dfname loop.count loop.i = some stored
  | .named _ asked Ufname => ∀ stored, getName listed asked = some stored → Ufname = stored
  | .idle | .receiving .. | .writing .. | .measured .. | .ended => True

theorem Phase.Follows.of_not_choosing {p : Phase} (h : ¬ p.Choosing) (listed : List JString) :
    p.Follows listed := by
  cases p with
  | naming | named => exact absurd trivial h
  | idle | receiving | writing | measured | ended => trivial

/-- A round of the loop in the directory it has listed. -/
theorem look_of_getNameFrom {listed : List JString} {loop : Naming} (hlist : loop.fList = listed) {rounds : Nat}
    {stored : JString} (h : getNameFrom listed rounds loop.Dfname loop.count loop.i = some stored) :
    loop.look listed = some (.chosen stored) ∨ ∃ loop' left, loop.look listed = some (.next loop') ∧
      loop'.fList = listed ∧ getNameFrom listed left loop'.Dfname loop'.count loop'.i = some stored := by
  obtain ⟨fList, Dfname, count, i⟩ := loop
  obtain rfl := hlist
  cases rounds with
  | zero => cases h
  | succ rounds =>
    simp only [getNameFrom] at h
    simp only [Naming.look]
    cases hname : fList[i]? with
    | none =>
      rw [hname] at h
      obtain rfl := Option.some.inj h
      exact .inl rfl
    | some name =>
      rw [hname] at h
      dsimp only at h ⊢
      by_cases hsame : name = Dfname
      · rw [if_pos hsame] at h ⊢
        cases hopen : indexOf Dfname '[' with
        | none =>
          rw [hopen] at h
          obtain ⟨m, hm, h⟩ := Option.bind_eq_some_iff.mp h
          rw [hm]
          exact .inr ⟨_, rounds, rfl, rfl, h⟩
        | some l =>
          rw [hopen] at h
          obtain ⟨r, hr, h⟩ := Option.bind_eq_some_iff.mp h
          rw [hr]
          exact .inr ⟨_, rounds, rfl, rfl, h⟩
      · rw [if_neg hsame] at h ⊢
        exact .inr ⟨_, rounds, rfl, rfl, h⟩

theorem Moves.follows {listed : List JString} {p p' : Phase} (h : Moves listed p p') (hp : p.Follows listed) :
    p'.Follows listed := by
  cases h with
  | same => exact hp
  | fail | readFully | download => trivial
  | upload size asked => exact fun stored hstored => ⟨rfl, _, hstored⟩
  | chosen hlook =>
    intro stored hstored
    obtain ⟨hlist, rounds, hrounds⟩ := hp stored hstored
    rcases look_of_getNameFrom hlist hrounds with hchosen | ⟨loop', left, hnext, -⟩
    · cases hlook.symm.trans hchosen
      rfl
    · cases hlook.symm.trans hnext
  | next hlook =>
    intro stored hstored
    obtain ⟨hlist, rounds, hrounds⟩ := hp stored hstored
    rcases look_of_getNameFrom hlist hrounds with hchosen | ⟨loop', left, hnext, hlist', hleft⟩
    · cases hlook.symm.trans hchosen
    · cases hlook.symm.trans hnext
      exact ⟨hlist', left, hleft⟩

section Invariant

variable {folder : Folder φ} {stored : List (JString × List UInt8)} {s s' : State φ}

/-- The names change, when nobody else is choosing one. -/
theorem not_choosing_of_set {n : Nat} {t' : Thread} (hthreads : s'.threads = s.threads.set n t')
    (ht' : ¬ t'.phase.Choosing)
    (hothers : ∀ m < s.threads.length, m ≠ n → ∀ t ∈ s.threads[m]?, ¬ t.phase.Choosing) (m : Nat) (t : Thread)
    (hm : s'.threads[m]? = some t) : ¬ t.phase.Choosing := by
  obtain ⟨hlt, -⟩ := List.getElem?_eq_some_iff.mp hm
  rw [hthreads, List.length_set] at hlt
  by_cases hmn : m = n
  · subst hmn
    rw [hthreads, List.getElem?_set_self hlt] at hm
    exact Option.some.inj hm ▸ ht'
  · rw [hthreads, List.getElem?_set_ne (Ne.symm hmn)] at hm
    exact hothers m hlt hmn t hm

variable [DecidableEq φ]

variable (folder) in
def State.Follow (s : State φ) : Prop :=
  ∀ (n : Nat) (t : Thread), s.threads[n]? = some t → t.phase.Follows (s.listed folder)

variable (folder) in
/-- The files in the directory are listed by names that denote them. -/
def State.Shows (s : State φ) : Prop :=
  ∀ file ∈ s.store.names, folder.inside file = true → folder.fileOf (s.shown file) = file

theorem listed_congr (hnames : s'.store.names = s.store.names) (hshown : s'.shown = s.shown) :
    s'.listed folder = s.listed folder := by
  rw [State.listed, State.listed, hnames, hshown]

/-- The names stay, and so do the phases but for one thread's. -/
theorem State.Follow.set (h : s.Follow folder) (hlisted : s'.listed folder = s.listed folder) {n : Nat}
    {t' : Thread} (hthreads : s'.threads = s.threads.set n t') (ht' : t'.phase.Follows (s.listed folder)) :
    s'.Follow folder := by
  intro m t hm
  rw [hlisted]
  rw [hthreads] at hm
  rcases List.mem_or_eq_of_mem_set (List.mem_of_getElem? hm) with hmem | rfl
  · obtain ⟨j, hj⟩ := List.mem_iff_getElem?.mp hmem
    exact h j t hj
  · exact ht'

theorem State.Follow.same (h : s.Follow folder) (hlisted : s'.listed folder = s.listed folder)
    (hthreads : s'.threads = s.threads) : s'.Follow folder := by
  intro m t hm
  rw [hlisted]
  exact h m t (hthreads ▸ hm)

theorem State.Follow.step (h : s.Follow folder) {e : Event} (hs : s.step folder e = some s')
    (he : s.Locked e) : s'.Follow folder := by
  cases effect_of_step hs with
  | connect =>
    intro m t hm
    rcases List.mem_append.mp (List.mem_of_getElem? hm) with hmem | hmem
    · obtain ⟨j, hj⟩ := List.mem_iff_getElem?.mp hmem
      exact h j t hj
    · obtain rfl := List.mem_singleton.mp hmem
      trivial
  | @move e n t t' hn hmoves hapart => exact h.set rfl rfl (hmoves.follows (h n t hn))
  | @delete n t arrived name hn hidle =>
    intro m t hm
    refine .of_not_choosing (not_choosing_of_set (s := s) (n := n) rfl id ?_ m t hm) _
    exact fun m _ _ t hm => he t (List.mem_of_getElem? hm)
  | @create n t size asked Ufname hn hnamed =>
    intro m t hm
    exact .of_not_choosing (not_choosing_of_set (s := s) (n := n) rfl id he m t hm) _
  | write hn hwriting hstore => exact h.set (listed_congr (OpenFiles.names_write hstore) rfl) rfl trivial
  | close hn hwriting hend hstore => exact h.set (listed_congr (OpenFiles.names_close hstore) rfl) rfl trivial
  | read => exact h.set (listed_congr rfl rfl) rfl trivial
  | leaveOpen => exact h.set (listed_congr rfl rfl) rfl trivial
  | collectInput => exact h.same (listed_congr rfl rfl) rfl
  | collectOutput hfree hstore => exact h.same (listed_congr (OpenFiles.names_close hstore) rfl) rfl

/-- Files that are there are listed as before. -/
theorem State.Shows.same (h : s.Shows folder) (hshown : s'.shown = s.shown)
    (hnames : ∀ file ∈ s'.store.names, file ∈ s.store.names) : s'.Shows folder := by
  intro file hfile hinside
  rw [hshown]
  exact h file (hnames file hfile) hinside

theorem State.Shows.step (h : s.Shows folder) (hlists : folder.Lists) {e : Event}
    (hs : s.step folder e = some s') : s'.Shows folder := by
  cases effect_of_step hs with
  | connect => exact h.same rfl fun _ hfile => hfile
  | move => exact h.same rfl fun _ hfile => hfile
  | read => exact h.same rfl fun _ hfile => hfile
  | leaveOpen => exact h.same rfl fun _ hfile => hfile
  | collectInput => exact h.same rfl fun _ hfile => hfile
  | delete => exact h.same rfl fun _ hfile => OpenFiles.mem_names_of_delete hfile
  | write hn hwriting hstore => exact h.same rfl fun _ hfile => OpenFiles.names_write hstore ▸ hfile
  | close hn hwriting hend hstore => exact h.same rfl fun _ hfile => OpenFiles.names_close hstore ▸ hfile
  | collectOutput hfree hstore => exact h.same rfl fun _ hfile => OpenFiles.names_close hstore ▸ hfile
  | @create n t size asked Ufname hn hnamed =>
    intro file hfile hinside
    show folder.fileOf (s.shownAfter folder Ufname file) = file
    rw [State.shownAfter]
    rcases OpenFiles.mem_names_of_create hfile with hthere | rfl
    · split
      · exact h file hthere hinside
      next hnew =>
        have hne : file ≠ folder.fileOf Ufname := fun hsame => hnew (hsame ▸ hthere)
        rw [Function.update_of_ne hne]
        exact h file hthere hinside
    · split
      next hthere => exact h _ hthere hinside
      next =>
        rw [Function.update_self]
        exact hlists.denotes Ufname hinside

variable (folder) in
/-- What is kept by threads that hold the lock. -/
structure LockedInv (s : State φ) : Prop where
  intact : IntactInv folder s
  owned : s.store.Owned
  follow : s.Follow folder
  shows : s.Shows folder

/-- A name that is new denotes no file that is there. -/
theorem LockedInv.files_eq_none (h : LockedInv folder s) (hlists : folder.Lists) {name : JString}
    (hnew : folder.isNew (s.listed folder) name = true) : s.store.files (folder.fileOf name) = none := by
  rw [Folder.isNew, Bool.and_eq_true, List.all_eq_true] at hnew
  obtain ⟨hinside, hother⟩ := hnew
  cases hcontent : s.store.files (folder.fileOf name) with
  | none => rfl
  | some content =>
    obtain ⟨stream, hm, hfile, hstands⟩ := h.intact.server.covered _ content hcontent
    have hthere : folder.fileOf name ∈ s.store.names := OpenFiles.mem_names.mpr ⟨stream, hm, hstands, hfile⟩
    have hlisted : s.shown (folder.fileOf name) ∈ s.listed folder :=
      hlists.all _ _ (List.mem_map_of_mem (List.mem_filter.mpr ⟨hthere, hinside⟩))
    have hne := hother _ hlisted
    rw [h.shows _ hthere hinside, bne_self_eq_false] at hne
    cases hne

/-- Under the lock, files are made afresh if their names are safe. -/
theorem LockedInv.madeAfresh (h : LockedInv folder s) (hlists : folder.Lists) {e : Event}
    (hsafe : s.Safe folder e) : s.MadeAfresh folder e := by
  cases e with
  | create n =>
    intro t size asked Ufname hn hnamed
    have hstores := hsafe t hn
    have hfollows := h.follow n t hn
    rw [hnamed] at hstores hfollows
    obtain ⟨stored, hstored, hnew⟩ := (Option.any_eq_true _ _).mp hstores
    obtain rfl := hfollows stored hstored
    exact ⟨hstored, h.files_eq_none hlists hnew⟩
  | connect | arrive | delete | upload | download | other | look | readFully | write | close | read | fail
  | collectInput | collectOutput => trivial

/-- Files that are made afresh stay apart. -/
theorem owned_of_step (ho : s.store.Owned) (h : s.store.Intact) {e : Event} (hs : s.step folder e = some s')
    (he : s.MadeAfresh folder e) : s.Apart folder e ∧ s'.store.Owned := by
  have hstep : ∀ {f}, s.store.step 0 f = some s'.store → s.store.Fresh f →
      s.store.Apart f ∧ s'.store.Owned := fun hstore hfresh => ⟨ho.apart hstore hfresh, ho.step hstore hfresh⟩
  cases effect_of_step hs with
  | connect => exact ⟨trivial, ho⟩
  | move hn hmoves hapart => exact ⟨hapart, ho⟩
  | @read n t filename => exact hstep (f := .openRead (folder.fileOf filename)) rfl trivial
  | @leaveOpen n t file => exact hstep (f := .openRead file) rfl trivial
  | collectInput i => exact hstep (f := .release i) rfl trivial
  | @collectOutput k store hfree hstore => exact hstep (f := .close k) hstore trivial
  | @delete n t arrived name => exact hstep (f := .delete (folder.fileOf name)) rfl trivial
  | @create n t size asked Ufname hn hnamed =>
    have hfresh : folder.fileOf Ufname ∉ s.store.names := h.notMem_names (he t size asked Ufname hn hnamed).2
    have hnext := hstep (f := .create (folder.fileOf Ufname)) rfl hfresh
    exact ⟨(apart_create_iff hn hnamed).mpr hnext.1, hnext.2⟩
  | @write n size t Ufname k buffer pos store hn hwriting hstore =>
    have hnext := hstep (f := .write k ((buffer.drop pos).take size)) hstore trivial
    exact ⟨(apart_write_iff hn hwriting).mpr hnext.1, hnext.2⟩
  | @close n t Ufname k buffer pos store hn hwriting hend hstore => exact hstep (f := .close k) hstore trivial

theorem LockedInv.step (h : LockedInv folder s) (hlists : folder.Lists) {e : Event}
    (hs : s.step folder e = some s') (hlocked : s.Locked e) (he : s.MadeAfresh folder e) :
    LockedInv folder s' :=
  have ⟨hapart, howned⟩ := owned_of_step h.owned h.intact.stored hs he
  ⟨h.intact.step hs hapart, howned, h.follow.step hs hlocked, h.shows.step hlists hs⟩

theorem shows_start : (serverMachine folder stored).init.Shows folder := by
  intro file hfile _
  obtain ⟨stream, hm, -, rfl⟩ := OpenFiles.mem_names.mp hfile
  obtain ⟨p, hp, hsame⟩ := List.mem_map.mp (OpenFiles.mem_ofList hm).1
  have hsome : (stored.find? fun p => folder.fileOf p.1 = stream.file).isSome = true :=
    List.find?_isSome.mpr ⟨p, hp, decide_eq_true (congrArg Prod.fst hsame)⟩
  obtain ⟨q, hq⟩ := Option.isSome_iff_exists.mp hsome
  have hfile := List.find?_some hq
  simp only [serverMachine, hq, Option.elim_some]
  exact of_decide_eq_true hfile

theorem LockedInv.start (hstored : Distinct folder stored) :
    LockedInv folder (serverMachine folder stored).init where
  intact := .start hstored
  owned := OpenFiles.owned_ofList hstored.nodup
  follow n t hn := by cases hn
  shows := shows_start

end Invariant

variable [DecidableEq φ] (folder : Folder φ)

/-- **A lock on the names.** In every run in which no file is made or deleted while another thread is choosing a
name, and the names are safe, each file is made where there is none, under the name that `getName` has for it
in the directory as it is then; and the files are at every moment as they were uploaded. -/
theorem intact_of_locked {stored : List (JString × List UInt8)} (hstored : Distinct folder stored)
    (hlists : folder.Lists) {es : List Event}
    (h : (serverMachine folder stored).Along (fun s e _ => s.Locked e ∧ s.Safe folder e)
      (serverMachine folder stored).init es) :
    (serverMachine folder stored).Along (fun s e s' => s.MadeAfresh folder e ∧ s'.Intact folder)
      (serverMachine folder stored).init es := by
  refine Machine.Along.of_guard (I := LockedInv folder) ?_ (.start hstored) h
  intro s e s' hinv hs ⟨hlocked, hsafe⟩
  have hafresh := hinv.madeAfresh hlists hsafe
  have hnext := hinv.step hlists hs hlocked hafresh
  exact ⟨⟨hafresh, hnext.intact.intact⟩, hnext⟩

theorem lists_caseless : caseless.Lists where
  all _ _ hname := hname
  denotes _ _ := rfl

/-- Two clients upload under one name; the second thread lists the directory when the first has made its file,
and not yet written it. Then the first client downloads the file of the second, by another of its names, and
the second tries to delete it. -/
def oneByOne : List Event :=
  [.connect, .connect, .arrive 0 (uploadBytes (jstring "b.txt") [1, 2, 3]),
    .arrive 1 (uploadBytes (jstring "b.txt") [7, 8]), .upload 0, .look 0, .look 0, .create 0, .upload 1,
    .look 1, .readFully 0, .look 1, .look 1, .write 0 2, .create 1, .readFully 1, .write 1 2, .close 1,
    .write 0 5, .close 0, .arrive 0 (utf.enc (jstring "download B[1].txt")), .download 0, .read 0,
    .arrive 1 (utf.enc (jstring "delete b[1].txt")), .delete 1]

/-- The file is still there: the stream that the download opened is not closed. -/
theorem intact_of_locked_oneByOne : ∃ s : State JString, s.store.files (jstring "b.txt") = some [1, 2, 3] ∧
    s.store.files (jstring "b[1].txt") = some [7, 8] ∧ s.downloaded = [(jstring "B[1].txt", [7, 8])] ∧
      s.Intact caseless := by
  have hguard : ((serverMachine caseless justA).execBy (fun s e _ => s.Locked e ∧ s.Safe caseless e)
      (serverMachine caseless justA).init oneByOne).isSome = true := by decide +kernel
  have htest : (((serverMachine caseless justA).exec (serverMachine caseless justA).init oneByOne).any fun s =>
      s.store.files (jstring "b.txt") = some [1, 2, 3] ∧ s.store.files (jstring "b[1].txt") = some [7, 8] ∧
        s.downloaded = [(jstring "B[1].txt", [7, 8])]) = true := by
    decide +kernel
  obtain ⟨s, hs, htest⟩ := (Option.any_eq_true _ _).mp htest
  obtain ⟨hfirst, hsecond, hdownloaded⟩ := of_decide_eq_true htest
  have halong := intact_of_locked caseless distinct_justA lists_caseless (Machine.along_of_execBy hguard)
  have hintact : (serverMachine caseless justA).Along (fun _ _ s' => s'.Intact caseless)
      (serverMachine caseless justA).init oneByOne :=
    halong.of_guard (I := fun _ => True) (fun _ _ _ _ _ hr => ⟨hr.2, trivial⟩) trivial
  exact ⟨s, hfirst, hsecond, hdownloaded, hintact.final (IntactInv.start distinct_justA).intact hs⟩

end Sockets.Ftp.Shared
