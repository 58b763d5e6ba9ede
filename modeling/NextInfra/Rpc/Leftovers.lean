import Mathlib.Algebra.Order.BigOperators.Group.List
import Mathlib.Algebra.Order.Ring.Nat
import NextInfra.Rpc.OneHost

/-!
# What a host may find

A host that is gone leaves its socket behind, and the next one removes it, if it is as it
has to be. One that is gone between `bind` and `chmod` leaves a socket with another mode,
and that nobody removes: from a directory with nobody in it, some host comes to serve
exactly where each file there is as it has to be (`serves_again_iff`).
-/

namespace NextInfra

namespace Rpc

namespace Endpoint

/-- What has to be at a path, where there is anything. -/
def EndpointPath.expected : EndpointPath → ExpectedType × Nat
  | .runDir => (.directory, runDirMode)
  | .lock => (.regularFile, lockFileMode)
  | .socket => (.socket, socketMode)

def Valid (euid : Nat) (path : EndpointPath) (m : Metadata) : Prop :=
  validateMetadata euid path m path.expected.1 path.expected.2 = .ok ()

instance (euid : Nat) (path : EndpointPath) (m : Metadata) : Decidable (Valid euid path m) :=
  decidable_of_iff _ validateMetadata_ok_iff.symm

def Usable (euid : Nat) (s : Site) : Prop :=
  ∀ path ∈ [EndpointPath.runDir, .lock, .socket], ∀ m ∈ s.node path, Valid euid path m

instance (euid : Nat) (s : Site) : Decidable (Usable euid s) :=
  inferInstanceAs (Decidable (∀ path ∈ _, _))

/-! ## §1  A file in the way -/

/-- The calls that could change what is at a path, found there. -/
def Touches : EndpointPath → Call → Bool
  | .runDir, .fchmod .runDir _ => true
  | .lock, .fchmod .lock _ => true
  | .socket, .fchmod .listener _ => true
  | .socket, .unlink => true
  | .socket, .bind => true
  | .socket, .chmod _ => true
  | _, _ => false

/-- What may be answered with a file at a path. -/
def Finds (path : EndpointPath) (m : Metadata) : (c : Call) → c.Answer → Prop
  | .lstat asked, r => asked = path → r = .ok m ∨ ∃ code, r = .error (.other code)
  | .mkdir _, r => path = .runDir → r ≠ .ok ()
  | .createLock _, r => path = .lock → r ≠ .ok ()
  | _, _ => True

/-- Nobody touches the file, and everybody finds it. -/
def blocked (path : EndpointPath) (m : Metadata) : Discipline Call Call.Answer Unit where
  allowed := fun _ c => Touches path c = false
  possible := fun _ => Finds path m
  after := fun _ _ _ => ()

section

variable {euid : Nat} {path : EndpointPath} {m : Metadata} {α β ε : Type}

def Fails (_ : Unit) (r : Except ε α) : Prop := ∃ e, r = .error e

theorem stays_free {c : Call} (h : Touches path c = false) :
    Obeys (blocked path m) () (Stays ()) (sys c) :=
  obeys_sys h fun _ _ => rfl

/-- The first part fails, and so does the whole. -/
theorem fails_try {x : ExceptT ε Sys α} {f : α → ExceptT ε Sys β}
    (hx : Obeys (blocked path m) () Fails x) :
    Obeys (blocked path m) () Fails (x >>= f : ExceptT ε Sys β) := by
  refine .try_bind hx (fun _ a h => ?_) fun _ e _ => ⟨e, rfl⟩
  obtain ⟨e, he⟩ := h
  cases he

/-- Something comes first, and what follows fails. -/
theorem fails_after {x : ExceptT ε Sys α} {f : α → ExceptT ε Sys β}
    (hx : Obeys (blocked path m) () (Stays ()) x)
    (hf : ∀ a, Obeys (blocked path m) () Fails (f a)) :
    Obeys (blocked path m) () Fails (x >>= f : ExceptT ε Sys β) :=
  stays_try hx hf fun e => ⟨e, rfl⟩

theorem fails_adapt {ε' : Type} {f : ε → ε'} {x : ExceptT ε Sys α}
    (h : Obeys (blocked path m) () Fails x) : Obeys (blocked path m) () Fails (x.adapt f) := by
  refine obeys_adapt (h.mono fun _ r hr => ?_)
  obtain ⟨e, rfl⟩ := hr
  exact ⟨f e, rfl⟩

theorem fails_closingOnError {slot : Slot} {body : ExceptT SocketError Sys α}
    (h : Obeys (blocked path m) () Fails body) :
    Obeys (blocked path m) () Fails (closingOnError slot body) := by
  refine obeys_closingOnError (fun _ => by cases path <;> rfl) (h.mono fun _ r hr => ?_)
  obtain ⟨e, rfl⟩ := hr
  exact ⟨e, rfl⟩

theorem fails_known {x : Except ε Unit} (h : x ≠ .ok ()) :
    Obeys (blocked path m) () Fails (known x) := by
  cases x with
  | ok u => exact absurd rfl h
  | error e => exact ⟨e, rfl⟩

/-- Everybody finds the file, if the call does not fail. -/
theorem lstat_finds {Q : Unit → Except Errno Metadata → Prop} (hfound : Q () (.ok m))
    (hfault : ∀ code, Q () (.error (.other code))) :
    Obeys (blocked path m) () Q (sys (.lstat path)) := by
  refine obeys_sys (by cases path <;> rfl) fun r hr => ?_
  rcases hr rfl with rfl | ⟨code, rfl⟩
  · exact hfound
  · exact hfault code

theorem lstat_orPathIo {f : Metadata → ExceptT SocketError Sys α}
    (h : Obeys (blocked path m) () Fails (f m)) :
    Obeys (blocked path m) () Fails
      (orPathIo path (sys (.lstat path)) >>= f : ExceptT SocketError Sys α) := by
  refine .try_bind (S := fun _ r => r = .ok m ∨ ∃ e, r = .error e)
    (obeys_adapt (obeys_orIo (lstat_finds (Or.inl rfl) fun code => Or.inr ⟨_, rfl⟩)))
    (fun _ a ha => ?_) fun _ e _ => ⟨e, rfl⟩
  rcases ha with heq | ⟨e, he⟩
  · cases heq
    exact h
  · cases he

theorem OfDir.free (hpath : path ≠ .runDir) {c : Call} (h : OfDir c = true) :
    Touches path c = false := by
  unfold OfDir at h
  split at h
  all_goals
    cases path with
    | runDir => exact absurd rfl hpath
    | lock => first | rfl | cases h
    | socket => first | rfl | cases h

theorem ensureRunDir_free (hpath : path ≠ .runDir) :
    Obeys (blocked path m) () (Stays ()) (ensureRunDir euid) :=
  ensureRunDir_stays fun _ hc => stays_free (OfDir.free hpath hc)

theorem ensureRunDir_fails (hbad : ¬ Valid euid .runDir m) :
    Obeys (blocked .runDir m) () Fails (ensureRunDir euid) := by
  unfold ensureRunDir provideRunDir
  refine fails_try (.try_bind
    (S := fun _ r => r = .ok (.ok m) ∨ ∃ code, r = .ok (.error (.other code)))
    (obeys_lift (lstat_finds (Or.inl rfl) fun code => Or.inr ⟨code, rfl⟩)) (fun _ found h => ?_)
    fun _ e _ => ⟨e, rfl⟩)
  rcases h with heq | ⟨code, heq⟩
  · cases heq
    refine fails_after (stays_known _) fun _ => ?_
    exact fails_try (fails_known hbad)
  · cases heq
    exact ⟨_, rfl⟩

/-- The lock is not made where there is something. -/
theorem openLockFile_finds :
    Obeys (blocked .lock m) () (fun _ r => r ≠ .ok true) openLockFile := by
  unfold openLockFile
  refine .call rfl fun r hr => ?_
  cases r with
  | ok u => exact absurd rfl (hr rfl)
  | error e =>
      cases e with
      | exist =>
          refine .call rfl fun r _ => ?_
          cases r with
          | ok u => exact .done fun h => nomatch h
          | error e => cases e <;> exact .done fun h => nomatch h
      | _ => exact .done fun h => nomatch h

theorem acquire_fails (hbad : ¬ Valid euid .lock m) :
    Obeys (blocked .lock m) () Fails (UnixLock.acquire euid) := by
  unfold UnixLock.acquire
  refine .try_bind (S := fun _ r => r ≠ .ok true)
    (obeys_adapt (openLockFile_finds.mono fun _ r hr => ?_)) (fun _ created hmade => ?_)
    fun _ e _ => ⟨e, rfl⟩
  · cases r with
    | ok made => exact fun h => hr (congrArg Except.ok (Except.ok.inj h))
    | error e => exact fun h => nomatch h
  obtain rfl : created = false := by
    cases created with
    | false => rfl
    | true => exact absurd rfl hmade
  refine fails_closingOnError ?_
  unfold lockOpened
  refine fails_after (stays_known _) fun _ => ?_
  exact lstat_orPathIo (fails_try (fails_adapt (fails_known hbad)))

theorem stays_closingOnError {slot : Slot} {body : ExceptT SocketError Sys α}
    (h : Obeys (blocked path m) () (Stays ()) body) :
    Obeys (blocked path m) () (Stays ()) (closingOnError slot body) := by
  refine obeys_closingOnError (fun _ => by cases path <;> rfl) (h.mono fun _ r _ => ?_)
  cases r with
  | ok a => exact rfl
  | error e => exact rfl

theorem acquire_free : Obeys (blocked .socket m) () (Stays ()) (UnixLock.acquire euid) := by
  unfold UnixLock.acquire lockOpened
  refine stays_bind (stays_adapt (openLockFile_stays (stays_free rfl) (stays_free rfl)))
    fun created => stays_closingOnError ?_
  refine stays_bind (stays_onlyIf (stays_orPathIo (stays_free rfl))) fun _ => ?_
  refine stays_bind (stays_orPathIo (stays_free rfl)) fun metadata => ?_
  refine stays_bind (stays_adapt (stays_known _)) fun _ => ?_
  refine stays_bind (stays_orPathIo (stays_free rfl)) fun identity => ?_
  refine stays_bind (stays_known _) fun _ => ?_
  refine stays_bind (stays_lift (stays_free rfl)) fun taken => ?_
  split
  · exact stays_known _
  · exact stays_known _
  · exact stays_known _

theorem prepareSocketPath_fails (hbad : ¬ Valid euid .socket m) :
    Obeys (blocked .socket m) () Fails (prepareSocketPath euid) := by
  unfold prepareSocketPath
  refine .try_bind (S := fun _ r => r = .ok (.ok m) ∨ ∃ code, r = .ok (.error (.other code)))
    (obeys_lift (lstat_finds (Or.inl rfl) fun code => Or.inr ⟨code, rfl⟩)) (fun _ found h => ?_)
    fun _ e _ => ⟨e, rfl⟩
  rcases h with heq | ⟨code, heq⟩
  · cases heq
    refine fails_after (stays_known _) fun _ => ?_
    exact fails_try (fails_adapt (fails_known hbad))
  · cases heq
    exact ⟨_, rfl⟩

/-- A host does not get past the file, whichever it is. -/
theorem startHost_fails (hbad : ¬ Valid euid path m) :
    Obeys (blocked path m) () Fails (startHost euid) := by
  unfold startHost SecureUnixListener.bind
  cases path with
  | runDir => exact fails_try (fails_adapt (ensureRunDir_fails hbad))
  | lock =>
      refine fails_after (stays_adapt (ensureRunDir_free nofun)) fun _ => ?_
      refine fails_after (stays_adapt (ensureRunDir_free nofun)) fun _ => ?_
      exact fails_try (acquire_fails hbad)
  | socket =>
      refine fails_after (stays_adapt (ensureRunDir_free nofun)) fun _ => ?_
      refine fails_after (stays_adapt (ensureRunDir_free nofun)) fun _ => ?_
      refine fails_after acquire_free fun lock => fails_closingOnError ?_
      exact fails_try (prepareSocketPath_fails hbad)

theorem connectUnix_free (hbad : ¬ Valid euid path m) :
    Obeys (blocked path m) () (Stays ()) (connectUnix euid) := by
  by_cases hpath : path = .runDir
  · subst hpath
    have hfails : Obeys (blocked .runDir m) () Fails (connectUnix euid) :=
      fails_try (fails_adapt (ensureRunDir_fails hbad))
    exact hfails.mono fun _ _ _ => rfl
  · refine connectUnix_stays (fun _ hc => stays_free (OfDir.free hpath hc)) (stays_free ?_)
      (stays_free ?_)
    · cases path <;> rfl
    · cases path <;> rfl

/-- The files are as before. -/
theorem node_same {s s' : Site} (hnode : s.node path = some m) (hdir : s'.runDir = s.runDir)
    (hlock : s'.lockFile = s.lockFile) (hsocket : s'.socket = s.socket) :
    s'.node path = some m := by
  rw [← hnode]
  cases path with
  | runDir => exact hdir
  | lock => exact hlock
  | socket => exact hsocket

/-- A file is made where there was none. -/
theorem node_made {s : Site} (hnode : s.node path = some m) {other : EndpointPath}
    (hother : s.node other = none) : path ≠ other := by
  rintro rfl
  rw [hnode] at hother
  cases hother

/-! One call after the other: what it finds of the file, and the file afterwards. -/

theorem lstat_node {s : Site} (hnode : s.node path = some m) (asked : EndpointPath) :
    Finds path m (.lstat asked) (s.lstat asked).1 ∧ (s.lstat asked).2.node path = some m := by
  unfold Site.lstat
  constructor
  · rintro rfl
    rw [hnode]
    exact Or.inl rfl
  · split
    · exact hnode
    · exact hnode

theorem mkdir_node {s : Site} (hnode : s.node path = some m) (mode : Nat) (choice : Choice) :
    Finds path m (.mkdir mode) (s.mkdir euid mode choice).1 ∧
      (s.mkdir euid mode choice).2.node path = some m := by
  unfold Site.mkdir
  split
  · exact ⟨(fun _ h => nomatch h), hnode⟩
  · rename_i hdir
    have hpath : path ≠ .runDir := node_made hnode hdir
    refine ⟨fun h => absurd h hpath, ?_⟩
    cases path with
    | runDir => exact absurd rfl hpath
    | lock => exact hnode
    | socket => exact hnode

theorem openDir_node {s : Site} (hnode : s.node path = some m) (i : Nat) :
    (s.openDir i).2.node path = some m := by
  unfold Site.openDir
  split
  · exact hnode
  split
  · exact node_same hnode rfl rfl rfl
  · exact hnode

theorem createLock_node {s : Site} (hnode : s.node path = some m) (i mode : Nat)
    (choice : Choice) :
    Finds path m (.createLock mode) (s.createLock euid i mode choice).1 ∧
      (s.createLock euid i mode choice).2.node path = some m := by
  unfold Site.createLock
  split
  · exact ⟨(fun _ h => nomatch h), hnode⟩
  split
  · exact ⟨(fun _ h => nomatch h), hnode⟩
  · rename_i hlock
    have hpath : path ≠ .lock := node_made hnode hlock
    refine ⟨fun h => absurd h hpath, ?_⟩
    cases path with
    | runDir => exact hnode
    | lock => exact absurd rfl hpath
    | socket => exact hnode

theorem openLock_node {s : Site} (hnode : s.node path = some m) (i : Nat) :
    (s.openLock i).2.node path = some m := by
  unfold Site.openLock
  split
  · exact hnode
  split
  · exact hnode
  split
  · exact node_same hnode rfl rfl rfl
  · exact hnode

theorem fchmod_node {s : Site} (i : Nat) (slot : Slot) (mode : Nat) (choice : Choice)
    (hnode : s.node path = some m) (htouches : Touches path (.fchmod slot mode) = false) :
    (s.fchmod i slot mode choice).2.node path = some m := by
  unfold Site.fchmod
  split
  · exact hnode
  cases slot with
  | runDir =>
      cases path with
      | runDir => cases htouches
      | lock => exact hnode
      | socket => exact hnode
  | lock =>
      cases path with
      | runDir => exact hnode
      | lock => cases htouches
      | socket => exact hnode
  | listener =>
      dsimp only
      split
      · exact hnode
      split
      · cases path with
        | runDir => exact hnode
        | lock => exact hnode
        | socket => cases htouches
      · exact hnode

theorem fstat_node {s : Site} (hnode : s.node path = some m) (i : Nat) (slot : Slot) :
    (s.fstat i slot).2.node path = some m := by
  unfold Site.fstat
  split
  · exact hnode
  · exact hnode

theorem flock_node {s : Site} (hnode : s.node path = some m) (i : Nat) :
    (s.flock i).2.node path = some m := by
  unfold Site.flock
  split
  · exact hnode
  split
  · exact hnode
  · exact node_same hnode rfl rfl rfl

theorem connect_node {s : Site} (hnode : s.node path = some m) (choice : Choice) :
    (s.connect choice).2.node path = some m := by
  unfold Site.connect
  split
  · exact hnode
  split
  · exact hnode
  split
  · exact hnode
  · exact hnode

theorem unlink_node {s : Site} (hnode : s.node path = some m)
    (htouches : Touches path .unlink = false) :
    s.unlink.2.node path = some m := by
  unfold Site.unlink
  split
  · exact hnode
  split
  · exact hnode
  · cases path with
    | runDir => exact hnode
    | lock => exact hnode
    | socket => cases htouches

theorem bind_node {s : Site} (hnode : s.node path = some m) (i : Nat) (choice : Choice) :
    (s.bind euid i choice).2.node path = some m := by
  unfold Site.bind
  split
  · exact hnode
  split
  · exact hnode
  · rename_i hsocket
    have hpath : path ≠ .socket := node_made hnode hsocket
    cases path with
    | runDir => exact hnode
    | lock => exact hnode
    | socket => exact absurd rfl hpath

theorem listen_node {s : Site} (hnode : s.node path = some m) (i : Nat) :
    (s.listen i).2.node path = some m := by
  unfold Site.listen
  split
  · exact hnode
  · exact node_same hnode rfl rfl rfl

theorem accept_node {s : Site} (hnode : s.node path = some m) (i : Nat) (choice : Choice) :
    (s.accept i choice).2.node path = some m := by
  unfold Site.accept
  split
  · exact hnode
  split
  · exact hnode
  · exact hnode

theorem chmod_node {s : Site} (mode : Nat)
    (hnode : s.node path = some m) (htouches : Touches path (.chmod mode) = false) :
    (s.chmod mode).2.node path = some m := by
  unfold Site.chmod
  split
  · exact hnode
  split
  · exact hnode
  · cases path with
    | runDir => exact hnode
    | lock => exact hnode
    | socket => cases htouches

/-- A call that may not touch the file finds it, and leaves it. -/
theorem blocked_answers {s : Site} {i : Nat} {c : Call} {choice : Choice}
    (hnode : s.node path = some m) (htouches : Touches path c = false) :
    Finds path m c (s.answer euid i c choice).1 ∧
      (s.answer euid i c choice).2.node path = some m := by
  cases c with
  | lstat asked => exact lstat_node hnode asked
  | mkdir mode => exact mkdir_node hnode mode choice
  | openDir => exact ⟨trivial, openDir_node hnode i⟩
  | createLock mode => exact createLock_node hnode i mode choice
  | openLock => exact ⟨trivial, openLock_node hnode i⟩
  | fchmod slot mode => exact ⟨trivial, fchmod_node i slot mode choice hnode htouches⟩
  | fstat slot => exact ⟨trivial, fstat_node hnode i slot⟩
  | flock => exact ⟨trivial, flock_node hnode i⟩
  | connect => exact ⟨trivial, connect_node hnode choice⟩
  | unlink => exact ⟨trivial, unlink_node hnode htouches⟩
  | bind => exact ⟨trivial, bind_node hnode i choice⟩
  | listen => exact ⟨trivial, listen_node hnode i⟩
  | accept => exact ⟨trivial, accept_node hnode i choice⟩
  | chmod mode => exact ⟨trivial, chmod_node mode hnode htouches⟩
  | close slot => exact ⟨trivial, node_same hnode rfl rfl rfl⟩

theorem blocked_fails {s : Site} {i : Nat} {c : Call} {code : Nat} (hnode : s.node path = some m) :
    Finds path m c (s.failed i code c).1 ∧ (s.failed i code c).2.node path = some m := by
  cases c with
  | lstat asked => exact ⟨fun _ => Or.inr ⟨code, rfl⟩, hnode⟩
  | mkdir mode => exact ⟨(fun _ h => nomatch h), hnode⟩
  | createLock mode => exact ⟨(fun _ h => nomatch h), hnode⟩
  | close slot => exact ⟨trivial, node_same hnode rfl rfl rfl⟩
  | _ => exact ⟨trivial, hnode⟩

/-- Whatever is called that does not touch the file leaves it where it is. -/
theorem blocked_kept :
    (blocked path m).Kept (kernel euid) fun s _ => s.node path = some m := by
  intro s held i _ c choice hnode _ htouches _
  cases hfault : choice.fault with
  | some code =>
      rw [perform_failed hfault]
      exact blocked_fails hnode
  | none =>
      rw [perform_answers hfault]
      exact blocked_answers hnode htouches

/-! ## §2  It stays in the way -/

def Thread.Stuck (path : EndpointPath) (m : Metadata) : Thread → Prop
  | .binding p => Obeys (blocked path m) () Fails p
  | .connecting p => Obeys (blocked path m) () (Stays ()) p
  | .serving _ _ => False
  | .dropping _ => False
  | .gone => True

/-- The file is where it was, and nobody is past it. -/
structure Barred (path : EndpointPath) (m : Metadata) (w : World) : Prop where
  node : w.site.node path = some m
  stuck : ∀ (i : Nat) (t : Thread), w.threads[i]? = some t → t.Stuck path m

variable {w : World} {i : Nat} {t t' : Thread}

theorem Barred.moves (h : Barred path m w) {s : Site} (hnode : s.node path = some m)
    (hstuck : t'.Stuck path m) : Barred path m { site := s, threads := w.threads.set i t' } where
  node := hnode
  stuck := by
    intro j u hu
    rcases set_cases hu with ⟨_, rfl⟩ | ⟨_, hu⟩
    · exact hstuck
    · exact h.stuck j u hu

theorem Barred.joins (h : Barred path m w) (ht : t.Stuck path m) :
    Barred path m { w with threads := w.threads ++ [t] } where
  node := h.node
  stuck := by
    intro j u hu
    rw [List.getElem?_append] at hu
    split at hu
    · exact h.stuck j u hu
    · obtain rfl := List.mem_singleton.mp (List.mem_of_getElem? hu)
      exact ht

/-- A process that is not past the file makes its next call. -/
theorem Thread.Stuck.calls (hstuck : t.Stuck path m) {c : Call} {next : c.Answer → Thread}
    (hasks : t.asks = some ⟨c, next⟩) {s : Site} (hnode : s.node path = some m) {choice : Choice}
    (hchoice : s.Unused choice.fresh) :
    ((kernel euid).perform s i c choice).2.node path = some m ∧
      (next ((kernel euid).perform s i c choice).1).Stuck path m := by
  -- nothing is held here: any list that is long enough will do
  have hheld : (List.replicate (i + 1) ())[i]? = some () := by
    rw [List.getElem?_replicate, if_pos (Nat.lt_succ_self i)]
  cases t with
  | binding p =>
      cases p with
      | done a => cases hasks
      | call c' next' =>
          cases hasks
          exact Obeys.step blocked_kept hnode hheld hstuck hchoice
  | connecting p =>
      cases p with
      | done a => cases hasks
      | call c' next' =>
          cases hasks
          exact Obeys.step blocked_kept hnode hheld hstuck hchoice
  | serving listener p => exact hstuck.elim
  | dropping p => exact hstuck.elim
  | gone => cases hasks

theorem Thread.Stuck.returns (hstuck : t.Stuck path m) (hreturns : t.returns = some t') :
    t'.Stuck path m := by
  cases t with
  | binding p =>
      cases p with
      | call c next => cases hreturns
      | done a =>
          obtain ⟨e, rfl⟩ := hstuck
          cases hreturns
          trivial
  | connecting p =>
      cases p with
      | call c next => cases hreturns
      | done a =>
          cases hreturns
          trivial
  | serving listener p => exact hstuck.elim
  | dropping p => exact hstuck.elim
  | gone => cases hreturns

theorem Thread.Stuck.not_idle (hstuck : t.Stuck path m) : t.idle = none := by
  cases t with
  | serving listener p => exact hstuck.elim
  | _ => rfl

theorem barred_step (hbad : ¬ Valid euid path m) :
    (World.machine euid).Preserves (Barred path m) := by
  intro w call hen h
  cases call with
  -- a new host finds the file like the ones before it
  | startsHost => exact h.joins (startHost_fails hbad)
  | startsClient => exact h.joins (connectUnix_free hbad)
  | calls i choice =>
      show Barred path m (w.calls euid i choice)
      unfold World.calls
      cases ht : w.threads[i]? with
      | none => exact h
      | some t =>
          rw [Option.bind_some]
          cases hasks : t.asks with
          | none => exact h
          | some asked =>
              obtain ⟨c, next⟩ := asked
              obtain ⟨hnode, hnext⟩ := (h.stuck i t ht).calls hasks h.node hen
              exact h.moves hnode hnext
  | returns i =>
      show Barred path m (w.becomes i (w.threads[i]?.bind Thread.returns))
      cases hnext : w.threads[i]?.bind Thread.returns with
      | none => exact h
      | some t' =>
          obtain ⟨t, ht, hreturns⟩ := Option.bind_eq_some_iff.mp hnext
          exact h.moves h.node ((h.stuck i t ht).returns hreturns)
  | accepts i =>
      show Barred path m (w.becomes i ((w.threads[i]?.bind Thread.idle).map _))
      cases hidle : w.threads[i]?.bind Thread.idle with
      | none => exact h
      | some listener =>
          obtain ⟨t, ht, hidle⟩ := Option.bind_eq_some_iff.mp hidle
          rw [(h.stuck i t ht).not_idle] at hidle
          cases hidle
  | drops i =>
      show Barred path m (w.becomes i ((w.threads[i]?.bind Thread.idle).map _))
      cases hidle : w.threads[i]?.bind Thread.idle with
      | none => exact h
      | some listener =>
          obtain ⟨t, ht, hidle⟩ := Option.bind_eq_some_iff.mp hidle
          rw [(h.stuck i t ht).not_idle] at hidle
          cases hidle
  | dies i =>
      have hnode : (w.site.reaped i).node path = some m := node_same h.node rfl rfl rfl
      exact h.moves hnode trivial

/-- From a directory with a file that is not as it has to be, nobody ever serves, and the file
is never removed. -/
theorem barred_run {s : Site} (hnode : s.node path = some m) (hbad : ¬ Valid euid path m)
    {calls : List Step} (hrun : (World.machine euid).Run (.quiet s) calls w) : Barred path m w :=
  hrun.invariant (barred_step hbad) ⟨hnode, fun _ _ h => nomatch h⟩

end

/-! ## §3  A host alone -/

/-- An identity nothing has. -/
def Site.spare (s : Site) : FileIdentity where
  device := 0
  inode :=
    ([s.runDir, s.lockFile, s.socket].map fun node => node.elim 0 fun m => m.identity.inode).sum +
      (s.handles.map fun h => h.identity.inode).sum + 1

/-- Every call does what it is for. -/
def Site.favours (s : Site) : Choice where
  fresh := s.spare

theorem favours_unused (s : Site) : s.Unused s.favours.fresh := by
  refine ⟨fun path _ m hm hid => ?_, fun h hh hid => ?_⟩
  · have hin : m.identity.inode = s.spare.inode := congrArg FileIdentity.inode hid
    cases path
    all_goals
      replace hm := Option.mem_def.mp hm
      simp only [Site.node] at hm
      simp only [Site.spare, hm, List.map_cons, List.sum_cons, Option.elim_some] at hin
      omega
  · have hin : h.identity.inode = s.spare.inode := congrArg FileIdentity.inode hid
    have hle : h.identity.inode ≤ (s.handles.map fun h => h.identity.inode).sum :=
      List.le_sum_of_mem (List.mem_map_of_mem hh)
    simp only [Site.spare] at hin
    omega

section

variable {euid i : Nat} {α β ε : Type} {s s' s'' : Site}

/-- Alone, and with the calls in its favour, the program ends with `a`. -/
def Goes (euid i : Nat) (p : Sys α) (s : Site) (a : α) (s' : Site) : Prop :=
  p.alone (kernel euid) i Site.favours s = (a, s')

theorem goes_sys {c : Call} {r : c.Answer} (h : s.answer euid i c s.favours = (r, s')) :
    Goes euid i (sys c) s r s' := by
  have hperform : (kernel euid).perform s i c s.favours = (r, s') := (perform_answers rfl).trans h
  show (((kernel euid).perform s i c s.favours).1, ((kernel euid).perform s i c s.favours).2) = _
  rw [hperform]

theorem goes_bind {p : Sys α} {f : α → Sys β} {a : α} {b : β} (hp : Goes euid i p s a s')
    (hf : Goes euid i (f a) s' b s'') : Goes euid i (p >>= f) s b s'' :=
  (Program.alone_bind hp).trans hf

/-- The first part gets through, and the whole goes on with what it gives. -/
theorem goes_try {x : ExceptT ε Sys α} {f : α → ExceptT ε Sys β} {a : α} {r : Except ε β}
    (hx : Goes euid i x s (.ok a) s') (hf : Goes euid i (f a) s' r s'') :
    Goes euid i (x >>= f : ExceptT ε Sys β) s r s'' :=
  (Program.alone_bind hx).trans hf

theorem goes_lift {p : Sys α} {a : α} (h : Goes euid i p s a s') :
    Goes euid i (liftM p : ExceptT ε Sys α) s (.ok a) s' :=
  goes_bind h rfl

theorem goes_known {x : Except ε α} {r : Except ε α} (h : x = r) : Goes euid i (known x) s r s := by
  subst h
  rfl

theorem goes_orIo {path : EndpointPath} {x : Sys (Except Errno α)} {a : α}
    (h : Goes euid i x s (.ok a) s') : Goes euid i (orIo path x) s (.ok a) s' :=
  goes_bind h rfl

theorem goes_adapt {ε' : Type} {f : ε → ε'} {x : ExceptT ε Sys α} {a : α}
    (h : Goes euid i x s (.ok a) s') : Goes euid i (x.adapt f) s (.ok a) s' :=
  goes_bind h rfl

theorem goes_orPathIo {path : EndpointPath} {x : Sys (Except Errno α)} {a : α}
    (h : Goes euid i x s (.ok a) s') : Goes euid i (orPathIo path x) s (.ok a) s' :=
  goes_adapt (goes_orIo h)

theorem goes_closing {slot : Slot} {body : ExceptT ε Sys α} {r : Except ε α}
    (h : Goes euid i body s r s') :
    Goes euid i (closing slot body) s r (s'.closed i slot) :=
  goes_bind h rfl

theorem goes_closingOnError {slot : Slot} {body : ExceptT SocketError Sys α} {a : α}
    (h : Goes euid i body s (.ok a) s') :
    Goes euid i (closingOnError slot body) s (.ok a) s' :=
  goes_bind h rfl

theorem goes_refuseIf {c : Prop} [Decidable c] {e : ε} (h : ¬ c) :
    Goes euid i (refuseIf c e) s (.ok ()) s :=
  goes_known (if_neg h)

variable {dir l k : Option Metadata} {d m : Metadata}

theorem goes_lstat {path : EndpointPath} (h : s.node path = some m) :
    Goes euid i (sys (.lstat path)) s (.ok m) s := by
  refine goes_sys ?_
  show s.lstat path = _
  unfold Site.lstat
  rw [h]

theorem goes_absent {path : EndpointPath} (h : s.node path = none) :
    Goes euid i (sys (.lstat path)) s (.error .noEnt) s := by
  refine goes_sys ?_
  show s.lstat path = _
  unfold Site.lstat
  rw [h]

theorem goes_fstat {slot : Slot} {a : Handle} (h : s.handle i slot = some a) :
    Goes euid i (sys (.fstat slot)) s (.ok a.identity) s := by
  refine goes_sys ?_
  show s.fstat i slot = _
  unfold Site.fstat
  rw [h]

theorem handle_own (slot : Slot) (identity : FileIdentity) (active : Bool) :
    (⟨some d, l, k, [⟨i, slot, identity, active⟩]⟩ : Site).handle i slot =
      some ⟨i, slot, identity, active⟩ := by
  show List.find? _ [_] = _
  rw [List.find?_cons_of_pos]
  exact decide_eq_true ⟨rfl, rfl⟩

/-- The handle of the directory, open. -/
def ofDir (i : Nat) (d : Metadata) : Handle := ⟨i, .runDir, d.identity, false⟩

theorem checkOpenedDir_goes {created : Bool} (hkind : d.kind = .directory) (huid : d.uid = euid)
    (hmode : created = false → d.mode = runDirMode) :
    Goes euid i (checkOpenedDir euid created) ⟨some d, l, k, [ofDir i d]⟩ (.ok ())
      ⟨some { d with mode := runDirMode }, l, k, [ofDir i d]⟩ := by
  have hmodes : Goes euid i (onlyIf created (orIo .runDir (sys (.fchmod .runDir runDirMode))))
      ⟨some d, l, k, [ofDir i d]⟩ (.ok ())
      ⟨some { d with mode := runDirMode }, l, k, [ofDir i d]⟩ := by
    cases created with
    | false =>
        have heq : { d with mode := runDirMode } = d := by rw [← hmode rfl]
        rw [heq]
        exact goes_known rfl
    | true =>
        refine goes_orIo (goes_sys ?_)
        simp [Site.answer, Site.fchmod, ofDir, handle_own, withMode]
  unfold checkOpenedDir
  refine goes_try hmodes (goes_try (goes_orIo (goes_lstat rfl)) ?_)
  refine goes_try (goes_orIo (goes_fstat (handle_own _ _ _))) ?_
  refine goes_try (goes_refuseIf fun h => h rfl) ?_
  exact goes_known (validateMetadata_ok_iff.mpr ⟨hkind, huid, rfl⟩)

theorem openDir_goes (hkind : d.kind = .directory) :
    Goes euid i (sys .openDir) ⟨some d, l, k, []⟩ (.ok ()) ⟨some d, l, k, [ofDir i d]⟩ := by
  refine goes_sys ?_
  simp [Site.answer, Site.openDir, hkind, Site.opened, ofDir]

theorem closed_own : (⟨dir, l, k, [ofDir i d]⟩ : Site).closed i .runDir = ⟨dir, l, k, []⟩ := by
  simp [Site.closed, ofDir]

/-- The directory is there as it has to be, or is made. -/
theorem ensureRunDir_goes (hdir : ∀ d ∈ dir, Valid euid .runDir d) :
    ∃ d, Valid euid .runDir d ∧
      Goes euid i (ensureRunDir euid) ⟨dir, l, k, []⟩ (.ok ()) ⟨some d, l, k, []⟩ := by
  have hopened : ∀ {d : Metadata} {created : Bool},
      Goes euid i (provideRunDir euid) ⟨dir, l, k, []⟩ (.ok created) ⟨some d, l, k, []⟩ →
      d.kind = .directory → d.uid = euid → (created = false → d.mode = runDirMode) →
      Goes euid i (ensureRunDir euid) ⟨dir, l, k, []⟩ (.ok ())
        ⟨some { d with mode := runDirMode }, l, k, []⟩ := by
    intro d created hprovides hkind huid hmode
    have hchecks : Goes euid i (closing .runDir (checkOpenedDir euid created))
        ⟨some d, l, k, [ofDir i d]⟩ (.ok ()) _ :=
      goes_closing (checkOpenedDir_goes hkind huid hmode)
    rw [closed_own] at hchecks
    exact goes_try hprovides (goes_try (goes_orIo (openDir_goes hkind)) hchecks)
  have hvalid : ∀ {d : Metadata}, d.kind = .directory → d.uid = euid →
      Valid euid .runDir { d with mode := runDirMode } :=
    fun hkind huid => validateMetadata_ok_iff.mpr ⟨hkind, huid, rfl⟩
  cases dir with
  | some d =>
      obtain ⟨hkind, huid, hmode⟩ := validateMetadata_ok_iff.mp (hdir d rfl)
      have hplain : ¬ d.kind = .symlink := fun h => nomatch h.symm.trans hkind
      have hprovides : Goes euid i (provideRunDir euid) ⟨some d, l, k, []⟩ (.ok false)
          ⟨some d, l, k, []⟩ :=
        goes_try (goes_lift (goes_lstat rfl)) (goes_try (goes_refuseIf hplain)
          (goes_try (goes_known (hdir d rfl)) (goes_known rfl)))
      exact ⟨_, hvalid hkind huid, hopened hprovides hkind huid fun _ => hmode⟩
  | none =>
      have hprovides : Goes euid i (provideRunDir euid) ⟨none, l, k, []⟩ (.ok true)
          ⟨some ((Site.mk none l k []).favours.created euid .directory runDirMode), l, k, []⟩ :=
        goes_try (goes_lift (goes_absent rfl))
          (goes_try (goes_orIo (goes_sys rfl)) (goes_known rfl))
      exact ⟨_, hvalid rfl rfl, hopened hprovides rfl rfl nofun⟩

/-- The handle of the lock, with the lock taken or not. -/
def ofLock (i : Nat) (l : Metadata) (active : Bool) : Handle := ⟨i, .lock, l.identity, active⟩

variable {lock : Option Metadata} {node : Metadata}

theorem lockOpened_goes {created : Bool} (hkind : node.kind = .regularFile) (huid : node.uid = euid)
    (hmode : created = false → node.mode = lockFileMode) :
    Goes euid i (lockOpened euid created) ⟨some d, some node, k, [ofLock i node false]⟩
      (.ok ⟨node.identity⟩)
      ⟨some d, some { node with mode := lockFileMode }, k, [ofLock i node true]⟩ := by
  have hmodes : Goes euid i (onlyIf created (orPathIo .lock (sys (.fchmod .lock lockFileMode))))
      ⟨some d, some node, k, [ofLock i node false]⟩ (.ok ())
      ⟨some d, some { node with mode := lockFileMode }, k, [ofLock i node false]⟩ := by
    cases created with
    | false =>
        have heq : { node with mode := lockFileMode } = node := by rw [← hmode rfl]
        rw [heq]
        exact goes_known rfl
    | true =>
        refine goes_orPathIo (goes_sys ?_)
        simp [Site.answer, Site.fchmod, ofLock, handle_own, withMode]
  have htakes : Goes euid i (sys .flock)
      ⟨some d, some { node with mode := lockFileMode }, k, [ofLock i node false]⟩ (.ok ())
      ⟨some d, some { node with mode := lockFileMode }, k, [ofLock i node true]⟩ := by
    refine goes_sys ?_
    simp [Site.answer, Site.flock, ofLock, handle_own, Site.LockedBesides, Site.activated]
  unfold lockOpened
  refine goes_try hmodes (goes_try (goes_orPathIo (goes_lstat rfl)) ?_)
  refine goes_try (goes_adapt (goes_known (validateMetadata_ok_iff.mpr ⟨hkind, huid, rfl⟩))) ?_
  refine goes_try (goes_orPathIo (goes_fstat (handle_own _ _ _))) ?_
  refine goes_try (goes_refuseIf fun h => h rfl) ?_
  exact goes_try (goes_lift htakes) rfl

/-- The lock is there as it has to be, or is made, and nobody has it. -/
theorem acquire_goes (hlock : ∀ node ∈ lock, Valid euid .lock node) :
    ∃ taken node held, Goes euid i (UnixLock.acquire euid) ⟨some d, lock, k, []⟩ (.ok taken)
      ⟨some d, some node, k, [ofLock i held true]⟩ := by
  have hopened : ∀ {node : Metadata} {created : Bool},
      Goes euid i openLockFile ⟨some d, lock, k, []⟩ (.ok created)
        ⟨some d, some node, k, [ofLock i node false]⟩ →
      node.kind = .regularFile → node.uid = euid →
      (created = false → node.mode = lockFileMode) →
      Goes euid i (UnixLock.acquire euid) ⟨some d, lock, k, []⟩ (.ok ⟨node.identity⟩)
        ⟨some d, some { node with mode := lockFileMode }, k, [ofLock i node true]⟩ := by
    intro node created hopens hkind huid hmode
    exact goes_try (goes_adapt hopens) (goes_closingOnError (lockOpened_goes hkind huid hmode))
  cases lock with
  | some node =>
      obtain ⟨hkind, huid, hmode⟩ := validateMetadata_ok_iff.mp (hlock node rfl)
      have hkind : node.kind = .regularFile := hkind
      have hexists : Goes euid i (sys (.createLock lockFileMode)) ⟨some d, some node, k, []⟩
          (.error .exist) ⟨some d, some node, k, []⟩ := goes_sys rfl
      have hopens : Goes euid i (sys .openLock) ⟨some d, some node, k, []⟩ (.ok ())
          ⟨some d, some node, k, [ofLock i node false]⟩ := by
        refine goes_sys ?_
        simp [Site.answer, Site.openLock, hkind, Site.opened, ofLock]
      have hgets : Goes euid i openLockFile ⟨some d, some node, k, []⟩ (.ok false)
          ⟨some d, some node, k, [ofLock i node false]⟩ :=
        goes_try (goes_lift hexists) (goes_try (goes_lift hopens) rfl)
      exact ⟨_, _, _, hopened hgets hkind huid fun _ => hmode⟩
  | none =>
      have hcreates : Goes euid i (sys (.createLock lockFileMode)) ⟨some d, none, k, []⟩ (.ok ())
          ⟨some d, some ((Site.mk (some d) none k []).favours.created euid .regularFile
              lockFileMode), k,
            [ofLock i ((Site.mk (some d) none k []).favours.created euid .regularFile
              lockFileMode) false]⟩ := goes_sys rfl
      exact ⟨_, _, _, hopened (goes_try (goes_lift hcreates) rfl) rfl rfl nofun⟩

variable {socket : Option Metadata} {held : Metadata}

/-- A socket nobody listens on is removed. -/
theorem prepareSocketPath_goes (hsocket : ∀ m ∈ socket, Valid euid .socket m) :
    Goes euid i (prepareSocketPath euid) ⟨some d, l, socket, [ofLock i held true]⟩ (.ok ())
      ⟨some d, l, none, [ofLock i held true]⟩ := by
  unfold prepareSocketPath
  cases socket with
  | none => exact goes_try (goes_lift (goes_absent rfl)) rfl
  | some m =>
      have hvalid : Valid euid .socket m := hsocket m rfl
      obtain ⟨hkind, -, -⟩ := validateMetadata_ok_iff.mp hvalid
      have hkind : m.kind = .socket := hkind
      have hplain : ¬ m.kind = .symlink := fun h => nomatch h.symm.trans hkind
      -- the lock is all that is open, so nobody listens
      have hrefused : Goes euid i (sys .connect) ⟨some d, l, some m, [ofLock i held true]⟩
          (.error .connRefused) ⟨some d, l, some m, [ofLock i held true]⟩ := by
        refine goes_sys ?_
        simp [Site.answer, Site.connect, hkind, Site.Listens, ofLock]
      have hremoved : Goes euid i (sys .unlink) ⟨some d, l, some m, [ofLock i held true]⟩ (.ok ())
          ⟨some d, l, none, [ofLock i held true]⟩ := by
        refine goes_sys ?_
        simp [Site.answer, Site.unlink, hkind]
      have hstale : Goes euid i (removeStale euid m.identity)
          ⟨some d, l, some m, [ofLock i held true]⟩ (.ok ())
          ⟨some d, l, none, [ofLock i held true]⟩ := by
        have hsame : ¬ (m.kind = .symlink ∨ m.identity ≠ m.identity) := by
          rintro (h | h)
          · exact hplain h
          · exact h rfl
        unfold removeStale
        refine goes_try (goes_lift (goes_lstat rfl)) ?_
        dsimp only
        rw [if_neg hsame]
        exact goes_try (goes_adapt (goes_known hvalid)) (goes_orPathIo hremoved)
      refine goes_try (goes_lift (goes_lstat rfl)) ?_
      refine goes_try (goes_refuseIf hplain) ?_
      refine goes_try (goes_adapt (goes_known hvalid)) ?_
      exact goes_try (goes_lift hrefused) hstale

/-- The handle of the listener. -/
def ofListener (i : Nat) (m : Metadata) (active : Bool) : Handle :=
  ⟨i, .listener, m.identity, active⟩

theorem bindUnix_goes :
    ∃ m, m.kind = .socket ∧ m.uid = euid ∧
      Goes euid i bindUnix ⟨some d, l, none, [ofLock i held true]⟩ (.ok ())
        ⟨some d, l, some m, [ofLock i held true, ofListener i m true]⟩ := by
  have hbinds : Goes euid i (sys .bind) ⟨some d, l, none, [ofLock i held true]⟩ (.ok ())
      ⟨some d, l, some ((Site.mk (some d) l none [ofLock i held true]).favours.created euid .socket
          0o777), [ofLock i held true,
        ofListener i ((Site.mk (some d) l none [ofLock i held true]).favours.created euid .socket
          0o777) false]⟩ := goes_sys rfl
  have hlistens : ∀ m, Goes euid i (sys .listen)
      ⟨some d, l, some m, [ofLock i held true, ofListener i m false]⟩ (.ok ())
      ⟨some d, l, some m, [ofLock i held true, ofListener i m true]⟩ := by
    intro m
    refine goes_sys ?_
    simp [Site.answer, Site.listen, Site.handle, Site.activated, ofLock, ofListener]
  refine ⟨_, ?_, ?_, goes_try (goes_lift hbinds)
    (goes_closingOnError (goes_try (goes_lift (hlistens _)) rfl))⟩
  · rfl
  · rfl

theorem secureBound_goes {lock : UnixLock} (hkind : m.kind = .socket) (huid : m.uid = euid) :
    Goes euid i (secureBound euid lock)
      ⟨some d, l, some m, [ofLock i held true, ofListener i m true]⟩ (.ok ⟨lock, m.identity⟩)
      ⟨some d, l, some { m with mode := socketMode },
        [ofLock i held true, ofListener i m true]⟩ := by
  have hplain : ¬ m.kind = .symlink := fun h => nomatch h.symm.trans hkind
  -- the kernel does not take `fchmod` here, and the mode is set by the path
  have hrejected : Goes euid i (sys (.fchmod .listener socketMode))
      ⟨some d, l, some m, [ofLock i held true, ofListener i m true]⟩ (.error .inval)
      ⟨some d, l, some m, [ofLock i held true, ofListener i m true]⟩ := by
    refine goes_sys ?_
    simp [Site.answer, Site.fchmod, Site.handle, ofLock, ofListener, Site.favours]
  have hchanged : Goes euid i (sys (.chmod socketMode))
      ⟨some d, l, some m, [ofLock i held true, ofListener i m true]⟩ (.ok ())
      ⟨some d, l, some { m with mode := socketMode },
        [ofLock i held true, ofListener i m true]⟩ := by
    refine goes_sys ?_
    simp [Site.answer, Site.chmod, hkind]
  have hpath : Goes euid i chmodPath
      ⟨some d, l, some m, [ofLock i held true, ofListener i m true]⟩ (.ok ())
      ⟨some d, l, some { m with mode := socketMode },
        [ofLock i held true, ofListener i m true]⟩ := by
    unfold chmodPath
    refine goes_try (goes_adapt (goes_lstat rfl)) ?_
    refine goes_try (goes_refuseIf hplain) (goes_try (goes_refuseIf fun h => h hkind) ?_)
    refine goes_try (goes_adapt hchanged) (goes_try (goes_adapt (goes_lstat rfl)) ?_)
    exact goes_try (goes_refuseIf fun h => h hkind) (goes_refuseIf fun h => h rfl)
  unfold secureBound
  refine goes_try (goes_adapt (goes_try (goes_lift hrejected) hpath)) ?_
  refine goes_try (goes_orPathIo (goes_lstat rfl)) ?_
  exact goes_try (goes_adapt (goes_known (validateMetadata_ok_iff.mpr ⟨hkind, huid, rfl⟩))) rfl

theorem bindLocked_goes {lock : UnixLock} (hsocket : ∀ m ∈ socket, Valid euid .socket m) :
    ∃ listener s', Goes euid i (bindLocked euid lock)
      ⟨some d, l, socket, [ofLock i held true]⟩ (.ok listener) s' := by
  obtain ⟨m, hkind, huid, hbinds⟩ := bindUnix_goes
  exact ⟨_, _, goes_try (prepareSocketPath_goes hsocket)
    (goes_try hbinds (goes_closingOnError (secureBound_goes hkind huid)))⟩

/-- With every file as it has to be and nobody there, a host alone gets to its listener. -/
theorem startHost_goes (hs : s.Quiet) (husable : Usable euid s) :
    ∃ listener s', Goes euid i (startHost euid) s (.ok listener) s' := by
  obtain ⟨dir, lock, socket, handles⟩ := s
  obtain rfl : handles = [] := hs
  have hdir : ∀ d ∈ dir, Valid euid .runDir d := husable .runDir (by decide)
  have hlock : ∀ node ∈ lock, Valid euid .lock node := husable .lock (by decide)
  have hsocket : ∀ m ∈ socket, Valid euid .socket m := husable .socket (by decide)
  obtain ⟨d, hd, hprovides⟩ := ensureRunDir_goes hdir
  have hmade : ∀ m ∈ some d, Valid euid .runDir m := by
    intro m hm
    obtain rfl := Option.mem_some_iff.mp hm
    exact hd
  -- `bind` looks at the directory once more, with what the first look has left
  obtain ⟨d', -, hagain⟩ := ensureRunDir_goes hmade
  obtain ⟨taken, node, held, htakes⟩ := acquire_goes hlock
  obtain ⟨listener, s', hbinds⟩ := bindLocked_goes hsocket
  have hlistens : Goes euid i (SecureUnixListener.bind euid) ⟨some d, lock, socket, []⟩
      (.ok listener) s' :=
    goes_try (goes_adapt hagain) (goes_try htakes (goes_closingOnError hbinds))
  exact ⟨listener, s', goes_try (goes_adapt hprovides) hlistens⟩

/-- What a host does alone, it does in a run. -/
theorem goes_run {p : Sys (Except SocketError SecureUnixListener)}
    {r : Except SocketError SecureUnixListener} (h : Goes euid 0 p s r s') :
    ∃ calls, (World.machine euid).Run ⟨s, [.binding p]⟩ calls ⟨s', [.binding (.done r)]⟩ := by
  induction p generalizing s with
  | done a =>
      cases h
      exact ⟨[], .nil _⟩
  | call c next ih =>
      obtain ⟨calls, hrun⟩ := ih _ h
      exact ⟨.calls 0 s.favours :: calls, .cons (favours_unused s) hrun⟩

/-- From a directory with nobody in it, some host comes to serve in some run exactly where each
file that is there has the type, the owner and the mode it has to have. -/
theorem serves_again_iff (hs : s.Quiet) :
    (∃ (calls : List Step) (w : World) (i : Nat) (listener : SecureUnixListener)
      (p : Sys (Except SocketError Unit)), (World.machine euid).Run (.quiet s) calls w ∧
        w.threads[i]? = some (.serving listener p)) ↔ Usable euid s := by
  constructor
  · rintro ⟨calls, w, i, listener, p, hrun, ht⟩ path _ m hnode
    by_cases hvalid : Valid euid path m
    · exact hvalid
    · exact ((barred_run hnode hvalid hrun).stuck i _ ht).elim
  · intro husable
    obtain ⟨listener, s', hgoes⟩ := startHost_goes hs husable
    obtain ⟨calls, hrun⟩ := goes_run hgoes
    have hstarts : (World.machine euid).Run (.quiet s) [.startsHost]
        ⟨s, [.binding (startHost euid)]⟩ := .single trivial
    have hreturns : (World.machine euid).Run ⟨s', [.binding (.done (.ok listener))]⟩ [.returns 0]
        ⟨s', [.serving listener (.done (.ok ()))]⟩ := .single trivial
    exact ⟨_, _, 0, listener, _, hstarts.append (hrun.append hreturns), rfl⟩

end

namespace Fixture

/-- A host that is gone between `bind` and `chmod`. -/
def cutShort : List Step := [.startsHost] ++ callsOf 0 100 19 ++ [.dies 0]

end Fixture

/-- What it leaves is there for good: no host serves after it. -/
theorem serves_again_iff_left :
    ∃ left : World, (World.machine 501).Run (.quiet Fixture.bare) Fixture.cutShort left ∧
      left.site.Quiet ∧
      ¬ ∃ (calls : List Step) (w : World) (i : Nat) (listener : SecureUnixListener)
        (p : Sys (Except SocketError Unit)),
        (World.machine 501).Run (.quiet left.site) calls w ∧
          w.threads[i]? = some (.serving listener p) := by
  have hrun : (World.machine 501).Admits (.quiet Fixture.bare) Fixture.cutShort := by
    decide +kernel
  have hquiet : ((World.machine 501).replay (.quiet Fixture.bare) Fixture.cutShort).site.Quiet := by
    decide +kernel
  have hleft : ¬ Usable 501
      ((World.machine 501).replay (.quiet Fixture.bare) Fixture.cutShort).site := by
    decide +kernel
  exact ⟨_, Machine.run_replay hrun, hquiet, fun h => hleft ((serves_again_iff hquiet).mp h)⟩

end Endpoint

end Rpc

end NextInfra
