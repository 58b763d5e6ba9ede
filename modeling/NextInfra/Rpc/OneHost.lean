import NextInfra.Rpc.Endpoint

/-!
# One host at a time

Nobody but the holder of the lock touches the socket, and the lock is held by one host at
most: its file is never removed. So the path of the socket names a host's own socket from
its bind to its clean-up, in any order of the calls of any number of hosts and clients,
whichever of them are gone at whatever point (`serving_undisturbed`).
-/

namespace NextInfra

namespace Rpc

namespace Endpoint

/-! ## §1  What a process holds -/

/-- Outside the lock, inside it, or inside it with a socket of its own, whose identity it
may have seen, and its mode as it has to be. -/
inductive Grip
  | outside
  | inside
  | bound (seen : Option FileIdentity) (fit : Bool)
deriving DecidableEq

/-- A socket of the user, as far as its host knows it. -/
structure Own (euid : Nat) (seen : Option FileIdentity) (fit : Bool) (m : Metadata) : Prop where
  same : ∀ identity ∈ seen, m.identity = identity
  kind : m.kind = .socket
  uid : m.uid = euid
  mode : fit = true → m.mode = socketMode

namespace Grip

def sees (g : Grip) (m : Metadata) : Grip :=
  match g with
  | .bound _ fit => .bound (some m.identity) (fit || decide (m.mode = socketMode))
  | g => g

def loses (g : Grip) : Grip :=
  match g with
  | .bound _ _ => .inside
  | g => g

def after (g : Grip) : (c : Call) → c.Answer → Grip
  | .lstat .socket, .ok m => g.sees m
  | .flock, .ok () => .inside
  | .bind, .ok () => .bound none false
  | .unlink, .ok () => .inside
  | .close .listener, () => g.loses
  | .close .lock, () => .outside
  | _, _ => g

def Binds (g : Grip) : Prop := ∃ seen fit, g = .bound seen fit

/-- The socket is left alone by those outside the lock, and its mode by all but its host. -/
def Allowed (g : Grip) : Call → Prop
  | .flock => g = .outside
  | .bind => g = .inside
  | .unlink => g ≠ .outside
  | .chmod mode => g.Binds ∧ mode = socketMode
  | .fchmod .listener mode => g.Binds ∧ mode = socketMode
  | _ => True

/-- A host finds its own socket. -/
def Possible (euid : Nat) (g : Grip) : (c : Call) → c.Answer → Prop
  | .lstat .socket, .ok m => ∀ seen fit, g = .bound seen fit → Own euid seen fit m
  | _, _ => True

end Grip

def discipline (euid : Nat) : Discipline Call Call.Answer Grip where
  allowed := Grip.Allowed
  possible := Grip.Possible euid
  after := Grip.after

/-- The calls of `accept`. -/
def Looks (c : Call) : Prop := c = .lstat .socket ∨ c = .accept

/-- A host that accepts. -/
def looking (euid : Nat) : Discipline Call Call.Answer Grip where
  allowed := fun _ c => Looks c
  possible := Grip.Possible euid
  after := Grip.after

/-! ## §2  The programs keep the discipline -/

section

variable {γ α ε : Type} {d : Discipline Call Call.Answer γ} {g : γ}

theorem obeys_sys {c : Call} {Q : γ → c.Answer → Prop} (hallowed : d.allowed g c)
    (h : ∀ r, d.possible g c r → Q (d.after g c r) r) : Obeys d g Q (sys c) :=
  .call hallowed h

theorem obeys_lift {p : Sys α} {Q : γ → Except ε α → Prop}
    (h : Obeys d g (fun g a => Q g (.ok a)) p) :
    Obeys d g Q (liftM p : ExceptT ε Sys α) :=
  .bind h fun _ _ hq => hq

theorem obeys_orIo {path : EndpointPath} {x : Sys (Except Errno α)}
    {Q : γ → Except TransportPathError α → Prop}
    (h : Obeys d g (fun g r => Q g (r.mapError fun e => .io path (.os e))) x) :
    Obeys d g Q (orIo path x) :=
  .bind h fun _ _ hq => hq

theorem obeys_adapt {ε' : Type} {f : ε → ε'} {x : ExceptT ε Sys α} {Q : γ → Except ε' α → Prop}
    (h : Obeys d g (fun g r => Q g (r.mapError f)) x) : Obeys d g Q (x.adapt f) :=
  .bind h fun _ _ hq => hq

theorem obeys_known {x : Except ε α} {Q : γ → Except ε α → Prop} (h : Q g x) :
    Obeys d g Q (known x) := h

theorem obeys_closingOnError {slot : Slot} {body : ExceptT SocketError Sys α}
    {Q : γ → Except SocketError α → Prop} (hallowed : ∀ g, d.allowed g (.close slot))
    (h : Obeys d g (fun g r => match r with
      | .ok _ => Q g r
      | .error _ => Q (d.after g (.close slot) ()) r) body) :
    Obeys d g Q (closingOnError slot body) := by
  refine .bind h fun g r hq => ?_
  cases r with
  | ok a => exact hq
  | error e => exact .call (hallowed g) fun _ _ => hq

/-- Whatever comes of it, the process holds what it held. -/
def Stays {γ β : Type} (g g' : γ) (_ : β) : Prop := g' = g

theorem stays_bind {β : Type} {x : ExceptT ε Sys α} {f : α → ExceptT ε Sys β}
    (hx : Obeys d g (Stays g) x) (hf : ∀ a, Obeys d g (Stays g) (f a)) :
    Obeys d g (Stays g) (x >>= f : ExceptT ε Sys β) := by
  refine .try_bind hx (fun g' a h => ?_) fun g' e h => h
  obtain rfl : g' = g := h
  exact hf a

theorem stays_lift {p : Sys α} (h : Obeys d g (Stays g) p) :
    Obeys d g (Stays g) (liftM p : ExceptT ε Sys α) :=
  obeys_lift h

theorem stays_orIo {path : EndpointPath} {x : Sys (Except Errno α)} (h : Obeys d g (Stays g) x) :
    Obeys d g (Stays g) (orIo path x) :=
  obeys_orIo h

theorem stays_known (x : Except ε α) : Obeys d g (Stays g) (known x) := obeys_known rfl

theorem stays_onlyIf {c : Bool} {x : ExceptT ε Sys Unit} (h : Obeys d g (Stays g) x) :
    Obeys d g (Stays g) (onlyIf c x) := by
  unfold onlyIf
  split
  · exact h
  · exact stays_known _

/-- A first part that changes nothing. -/
theorem stays_try {β : Type} {x : ExceptT ε Sys α} {f : α → ExceptT ε Sys β}
    {Q : γ → Except ε β → Prop} (hx : Obeys d g (Stays g) x) (hf : ∀ a, Obeys d g Q (f a))
    (herror : ∀ e, Q g (.error e)) : Obeys d g Q (x >>= f : ExceptT ε Sys β) := by
  refine .try_bind hx (fun g' a h => ?_) fun g' e h => ?_
  · obtain rfl : g' = g := h
    exact hf a
  · obtain rfl : g' = g := h
    exact herror e

theorem stays_adapt {ε' : Type} {f : ε → ε'} {x : ExceptT ε Sys α} (h : Obeys d g (Stays g) x) :
    Obeys d g (Stays g) (x.adapt f) :=
  obeys_adapt h

theorem stays_orPathIo {path : EndpointPath} {x : Sys (Except Errno α)}
    (h : Obeys d g (Stays g) x) : Obeys d g (Stays g) (orPathIo path x) :=
  stays_adapt (stays_orIo h)

/-- However it ends. -/
def Always {γ β : Type} (_ : γ) (_ : β) : Prop := True

theorem always_try {β : Type} {x : ExceptT ε Sys α} {f : α → ExceptT ε Sys β}
    (hx : Obeys d g Always x) (hf : ∀ g a, Obeys d g Always (f a)) :
    Obeys d g Always (x >>= f : ExceptT ε Sys β) :=
  .try_bind hx (fun g a _ => hf g a) fun _ _ _ => trivial

theorem stays_closing {slot : Slot} {body : ExceptT ε Sys α}
    (hclose : Obeys d g (Stays g) (sys (.close slot))) (h : Obeys d g (Stays g) body) :
    Obeys d g (Stays g) (closing slot body) := by
  refine .bind h fun g' r hg => ?_
  obtain rfl : g' = g := hg
  exact .call hclose.1 hclose.2

/-- A call that concerns the run directory alone. -/
def OfDir : Call → Bool
  | .lstat .runDir => true
  | .mkdir _ => true
  | .openDir => true
  | .fchmod .runDir _ => true
  | .fstat .runDir => true
  | .close .runDir => true
  | _ => false

variable {euid : Nat}

theorem provideRunDir_stays (hdir : ∀ c, OfDir c = true → Obeys d g (Stays g) (sys c)) :
    Obeys d g (Stays g) (provideRunDir euid) := by
  unfold provideRunDir
  refine stays_bind (stays_lift (hdir _ rfl)) fun found => ?_
  split
  · refine stays_bind (stays_known _) fun _ => ?_
    exact stays_bind (stays_known _) fun _ => stays_known _
  · exact stays_bind (stays_orIo (hdir _ rfl)) fun _ => stays_known _
  · exact stays_known _

theorem checkOpenedDir_stays (hdir : ∀ c, OfDir c = true → Obeys d g (Stays g) (sys c))
    (created : Bool) : Obeys d g (Stays g) (checkOpenedDir euid created) := by
  unfold checkOpenedDir
  refine stays_bind (stays_onlyIf (stays_orIo (hdir _ rfl))) fun _ => ?_
  refine stays_bind (stays_orIo (hdir _ rfl)) fun metadata => ?_
  refine stays_bind (stays_orIo (hdir _ rfl)) fun identity => ?_
  exact stays_bind (stays_known _) fun _ => stays_known _

theorem ensureRunDir_stays (hdir : ∀ c, OfDir c = true → Obeys d g (Stays g) (sys c)) :
    Obeys d g (Stays g) (ensureRunDir euid) := by
  unfold ensureRunDir
  refine stays_bind (provideRunDir_stays hdir) fun created => ?_
  refine stays_bind (stays_orIo (hdir _ rfl)) fun _ => ?_
  exact stays_closing (hdir _ rfl) (checkOpenedDir_stays hdir created)

theorem openLockFile_stays (hcreate : Obeys d g (Stays g) (sys (.createLock lockFileMode)))
    (hopen : Obeys d g (Stays g) (sys .openLock)) : Obeys d g (Stays g) openLockFile := by
  unfold openLockFile
  refine stays_bind (stays_lift hcreate) fun made => ?_
  split
  · exact stays_known _
  · refine stays_bind (stays_lift hopen) fun opened => ?_
    split
    · exact stays_known _
    · exact stays_known _
    · exact stays_known _
  · exact stays_known _
  · exact stays_known _

theorem connectUnix_stays (hdir : ∀ c, OfDir c = true → Obeys d g (Stays g) (sys c))
    (hlooks : Obeys d g (Stays g) (sys (.lstat .socket)))
    (hconnect : Obeys d g (Stays g) (sys .connect)) :
    Obeys d g (Stays g) (connectUnix euid) := by
  unfold connectUnix
  refine stays_bind (stays_adapt (ensureRunDir_stays hdir)) fun _ => ?_
  refine stays_bind (stays_orPathIo hlooks) fun before => ?_
  refine stays_bind (stays_adapt (stays_known _)) fun _ => ?_
  refine stays_bind (stays_lift hconnect) fun connected => ?_
  split
  · exact stays_known _
  · refine stays_bind (stays_orPathIo hlooks) fun after => ?_
    exact stays_bind (stays_adapt (stays_known _)) fun _ => stays_known _

end

section

variable {euid : Nat} {g : Grip} {α ε : Type} {d : Discipline Call Call.Answer Grip}

/-- A call that concerns neither the lock nor the socket. -/
def Plain : Call → Bool
  | .lstat .socket => false
  | .flock => false
  | .unlink => false
  | .bind => false
  | .chmod _ => false
  | .fchmod .listener _ => false
  | .close .listener => false
  | .close .lock => false
  | _ => true

theorem Plain.allowed {c : Call} (h : Plain c = true) : g.Allowed c := by
  unfold Grip.Allowed
  split
  all_goals first | cases h | trivial

theorem Plain.after {c : Call} (h : Plain c = true) (r : c.Answer) : g.after c r = g := by
  unfold Grip.after
  split
  all_goals first | rfl | cases h

theorem Plain.possible {c : Call} (h : Plain c = true) (r : c.Answer) : g.Possible euid c r := by
  unfold Grip.Possible
  split
  · cases h
  · trivial

theorem stays_plain {c : Call} (h : Plain c = true) : Obeys (discipline euid) g (Stays g) (sys c) :=
  obeys_sys (Plain.allowed h) fun r _ => Plain.after h r

theorem OfDir.plain {c : Call} (h : OfDir c = true) : Plain c = true := by
  unfold OfDir at h
  split at h
  all_goals first | rfl | cases h

theorem ensureRunDir_plain : Obeys (discipline euid) g (Stays g) (ensureRunDir euid) :=
  ensureRunDir_stays fun _ hc => stays_plain (OfDir.plain hc)

theorem stays_lstat (path : EndpointPath) (h : ¬ g.Binds) :
    Obeys (discipline euid) g (Stays g) (sys (.lstat path)) := by
  refine obeys_sys ?_ fun r _ => ?_
  · cases path with
    | runDir => trivial
    | lock => trivial
    | socket => trivial
  · cases path with
    | runDir => exact Plain.after rfl r
    | lock => exact Plain.after rfl r
    | socket =>
        cases r with
        | error e => rfl
        | ok m =>
            cases g with
            | outside => rfl
            | inside => rfl
            | bound seen fit => exact absurd ⟨seen, fit, rfl⟩ h

/-- Only a value comes with a grip. -/
def EndsWith (good bad : Grip) {β : Type} (g : Grip) (r : Except ε β) : Prop :=
  match r with
  | .ok _ => g = good
  | .error _ => g = bad

theorem lockOpened_obeys (created : Bool) :
    Obeys (discipline euid) .outside (EndsWith .inside .outside) (lockOpened euid created) := by
  unfold lockOpened
  refine stays_try (stays_onlyIf (stays_orPathIo (stays_plain rfl))) (fun _ => ?_) fun _ => rfl
  refine stays_try (stays_orPathIo (stays_plain rfl)) (fun metadata => ?_) fun _ => rfl
  refine stays_try (stays_adapt (stays_known _)) (fun _ => ?_) fun _ => rfl
  refine stays_try (stays_orPathIo (stays_plain rfl)) (fun identity => ?_) fun _ => rfl
  refine stays_try (stays_known _) (fun _ => ?_) fun _ => rfl
  refine .call rfl fun r _ => ?_
  cases r with
  | ok u => exact rfl
  | error e => cases e <;> exact rfl

theorem acquire_obeys :
    Obeys (discipline euid) .outside (EndsWith .inside .outside) (UnixLock.acquire euid) := by
  unfold UnixLock.acquire
  refine stays_try (stays_adapt (openLockFile_stays (stays_plain rfl) (stays_plain rfl)))
    (fun created => ?_) fun _ => rfl
  refine obeys_closingOnError (fun _ => trivial) ((lockOpened_obeys created).mono fun g r h => ?_)
  cases r with
  | ok lock => exact h
  | error e => rfl

theorem not_binds_inside : ¬ Grip.Binds .inside := nofun

theorem removeStale_stays (identity : FileIdentity) :
    Obeys (discipline euid) .inside (Stays .inside) (removeStale euid identity) := by
  unfold removeStale
  refine stays_bind (stays_lift (stays_lstat .socket not_binds_inside)) fun latest => ?_
  split
  · exact stays_known _
  · exact stays_known _
  · split
    · exact stays_known _
    · refine stays_bind (stays_adapt (stays_known _)) fun _ => ?_
      refine stays_orPathIo (.call nofun fun r _ => ?_)
      cases r with
      | ok u => exact rfl
      | error e => exact rfl

theorem prepareSocketPath_stays :
    Obeys (discipline euid) .inside (Stays .inside) (prepareSocketPath euid) := by
  unfold prepareSocketPath
  refine stays_bind (stays_lift (stays_lstat .socket not_binds_inside)) fun found => ?_
  split
  · exact stays_known _
  · exact stays_known _
  · rename_i metadata
    refine stays_bind (stays_known _) fun _ => ?_
    refine stays_bind (stays_adapt (stays_known _)) fun _ => ?_
    refine stays_bind (stays_lift (stays_plain rfl)) fun connected => ?_
    split
    · exact stays_known _
    · exact removeStale_stays metadata.identity
    · exact removeStale_stays metadata.identity
    · exact stays_known _

theorem bindUnix_obeys :
    Obeys (discipline euid) .inside (EndsWith (.bound none false) .inside) bindUnix := by
  unfold bindUnix
  refine .call rfl fun r _ => ?_
  cases r with
  | error e => exact rfl
  | ok u =>
      refine obeys_closingOnError (fun _ => trivial) (.call trivial fun r _ => ?_)
      cases r with
      | error e => exact rfl
      | ok u => exact rfl

/-- With a socket of its own. -/
def BindsStill {β : Type} (g : Grip) (_ : β) : Prop := g.Binds

theorem binds_sees {m : Metadata} (h : g.Binds) : (g.sees m).Binds := by
  obtain ⟨seen, fit, rfl⟩ := h
  exact ⟨_, _, rfl⟩

theorem binds_lstat {c : Call} (h : g.Binds) (hc : c = .lstat .socket) :
    Obeys (discipline euid) g BindsStill (sys c) := by
  subst hc
  refine obeys_sys trivial fun r _ => ?_
  cases r with
  | ok m => exact binds_sees h
  | error e => exact h

/-- A first part after which the socket is still there. -/
theorem binds_try {β : Type} {x : ExceptT ε Sys α} {f : α → ExceptT ε Sys β}
    (hx : Obeys d g BindsStill x) (hf : ∀ g a, g.Binds → Obeys d g BindsStill (f a)) :
    Obeys d g BindsStill (x >>= f : ExceptT ε Sys β) :=
  .try_bind hx (fun g a h => hf g a h) fun _ _ h => h

theorem binds_chmod (h : g.Binds) :
    Obeys (discipline euid) g BindsStill (sys (.chmod socketMode)) :=
  obeys_sys ⟨h, rfl⟩ fun _ _ => h

theorem chmodPath_binds (h : g.Binds) : Obeys (discipline euid) g BindsStill chmodPath := by
  unfold chmodPath
  refine binds_try (obeys_adapt (binds_lstat h rfl)) fun g before h => ?_
  refine binds_try (obeys_known h) fun g _ h => ?_
  refine binds_try (obeys_known h) fun g _ h => ?_
  refine binds_try (obeys_adapt (binds_chmod h)) fun g _ h => ?_
  refine binds_try (obeys_adapt (binds_lstat h rfl)) fun g after h => ?_
  refine binds_try (obeys_known h) fun g _ h => ?_
  exact obeys_known h

theorem setSocketMode_binds (h : g.Binds) : Obeys (discipline euid) g BindsStill setSocketMode := by
  unfold setSocketMode
  refine binds_try (obeys_lift (obeys_sys ⟨h, rfl⟩ fun _ _ => h)) fun g changed h => ?_
  split
  · exact obeys_known h
  · exact chmodPath_binds h
  · exact obeys_known h

/-- What a result that is known says, where it is one. -/
theorem known_try {β ε' : Type} {x : Except ε' α} {h : ε' → ε} {f : α → ExceptT ε Sys β}
    {Q : Grip → Except ε β → Prop} (hok : ∀ a, x = .ok a → Obeys d g Q (f a))
    (herror : ∀ e, Q g (.error e)) :
    Obeys d g Q ((known x).adapt h >>= f : ExceptT ε Sys β) := by
  cases x with
  | ok a => exact hok a rfl
  | error e => exact herror _

/-- Bound, with the identity the host has seen; or as `bad` says. -/
def Serves (bad : Grip → Prop) (g : Grip) (r : Except SocketError SecureUnixListener) : Prop :=
  match r with
  | .ok listener => g = .bound (some listener.identity) true
  | .error _ => bad g

theorem secureBound_obeys (lock : UnixLock) (h : g.Binds) :
    Obeys (discipline euid) g (Serves Grip.Binds) (secureBound euid lock) := by
  unfold secureBound
  refine .try_bind (S := BindsStill) (obeys_adapt (setSocketMode_binds h)) (fun g _ h => ?_)
    fun _ _ h => h
  have hseen : Obeys (discipline euid) g
      (fun g r => match r with
        | .ok m => ∃ fit, g = .bound (some m.identity) fit ∧ (m.mode = socketMode → fit = true)
        | .error _ => g.Binds)
      (orPathIo .socket (sys (.lstat .socket)) : ExceptT SocketError Sys Metadata) := by
    refine obeys_adapt (obeys_orIo (obeys_sys trivial fun r _ => ?_))
    cases r with
    | error e => exact h
    | ok m =>
        obtain ⟨seen, fit, rfl⟩ := h
        refine ⟨_, rfl, fun hmode => ?_⟩
        rw [decide_eq_true hmode, Bool.or_true]
  refine .try_bind hseen (fun g metadata h => ?_) fun _ _ h => h
  obtain ⟨fit, rfl, hfit⟩ := h
  refine known_try (fun _ hvalid => ?_) fun _ => ⟨_, _, rfl⟩
  obtain rfl := hfit (validateMetadata_ok_iff.mp hvalid).2.2
  exact obeys_known rfl

theorem bindLocked_obeys (lock : UnixLock) :
    Obeys (discipline euid) .inside (Serves (· = .inside)) (bindLocked euid lock) := by
  unfold bindLocked
  refine stays_try prepareSocketPath_stays (fun _ => ?_) fun _ => rfl
  refine .try_bind bindUnix_obeys (fun g _ h => ?_) fun g _ h => h
  obtain rfl : g = .bound none false := h
  refine obeys_closingOnError (fun _ => trivial) ((secureBound_obeys lock ⟨_, _, rfl⟩).mono ?_)
  intro g r h
  cases r with
  | ok listener => exact h
  | error e =>
      obtain ⟨seen, fit, rfl⟩ := h
      rfl

theorem startHost_obeys :
    Obeys (discipline euid) .outside (Serves (· = .outside)) (startHost euid) := by
  unfold startHost SecureUnixListener.bind
  refine stays_try (stays_adapt ensureRunDir_plain) (fun _ => ?_) fun _ => rfl
  refine stays_try (stays_adapt ensureRunDir_plain) (fun _ => ?_) fun _ => rfl
  refine .try_bind acquire_obeys (fun g lock h => ?_) fun g _ h => h
  obtain rfl : g = .inside := h
  refine obeys_closingOnError (fun _ => trivial) ((bindLocked_obeys lock).mono fun g r h => ?_)
  cases r with
  | ok listener => exact h
  | error e => rfl

theorem connectUnix_obeys :
    Obeys (discipline euid) .outside (Stays .outside) (connectUnix euid) :=
  connectUnix_stays (fun _ hc => stays_plain (OfDir.plain hc)) (stays_lstat .socket nofun)
    (stays_plain rfl)

theorem cleanup_obeys (listener : SecureUnixListener) (h : g.Binds) :
    Obeys (discipline euid) g Always (listener.cleanup euid) := by
  unfold SecureUnixListener.cleanup
  refine .try_bind (S := BindsStill) (obeys_lift (binds_lstat h rfl)) (fun g found h => ?_)
    fun _ _ _ => trivial
  split
  · exact obeys_known trivial
  · exact obeys_known trivial
  split
  · exact obeys_known trivial
  split
  · exact obeys_known trivial
  refine .try_bind (S := BindsStill) (obeys_adapt (obeys_known h)) (fun g _ h => ?_)
    fun _ _ _ => trivial
  have hinside : g ≠ .outside := by
    obtain ⟨seen, fit, rfl⟩ := h
    exact nofun
  refine always_try (obeys_adapt (obeys_orIo (obeys_sys hinside fun _ _ => trivial))) fun g _ => ?_
  exact obeys_known trivial

/-- However the clean-up went, the lock is left at the end. -/
theorem drop_obeys (listener : SecureUnixListener) (h : g.Binds) :
    Obeys (discipline euid) g (fun g _ => g = .outside) (listener.drop euid) := by
  unfold SecureUnixListener.drop
  refine .bind (cleanup_obeys listener h) fun g _ _ => ?_
  exact .call trivial fun _ _ => .call trivial fun _ _ => .done rfl

theorem validateSocket_looks (listener : SecureUnixListener) :
    Obeys (looking euid) g Always (listener.validateSocket euid) := by
  unfold SecureUnixListener.validateSocket
  refine always_try (obeys_adapt (obeys_orIo (obeys_sys (Or.inl rfl) fun _ _ => trivial)))
    fun g m => ?_
  refine always_try (obeys_adapt (obeys_known trivial)) fun g _ => ?_
  exact obeys_known trivial

/-- A host that accepts only looks. -/
theorem accept_looks (listener : SecureUnixListener) :
    Obeys (looking euid) g Always (listener.accept euid) := by
  unfold SecureUnixListener.accept
  refine always_try (validateSocket_looks listener) fun g _ => ?_
  refine always_try (obeys_lift (obeys_sys (Or.inr rfl) fun _ _ => trivial)) fun g accepted => ?_
  split
  · exact obeys_known trivial
  · exact validateSocket_looks listener

end

/-! ## §3  What the discipline keeps -/

def Handle.Holds (h : Handle) : Prop := h.slot = .lock ∧ h.active = true

/-- The process has the listener open that is bound to this file. -/
def Site.Bound (s : Site) (thread : Nat) (m : Metadata) : Prop :=
  ∃ h ∈ s.handles, h.thread = thread ∧ h.slot = .listener ∧ h.identity = m.identity

/-- The lock is open nowhere but in place and held once, and a host's socket is where it
has bound it. -/
structure Kept (euid : Nat) (s : Site) (held : List Grip) : Prop where
  placed : ∀ h ∈ s.handles, h.slot = .lock → ∃ m, s.lockFile = some m ∧ m.identity = h.identity
  once : ∀ h ∈ s.handles, ∀ h' ∈ s.handles, h.Holds → h'.Holds → h.thread = h'.thread
  locked : ∀ (i : Nat) g, held[i]? = some g → g ≠ .outside → ∃ h ∈ s.handles, h.thread = i ∧ h.Holds
  bound : ∀ (i : Nat) seen fit, held[i]? = some (Grip.bound seen fit) →
    ∃ m, s.socket = some m ∧ Own euid seen fit m ∧ s.Bound i m

section

variable {euid : Nat} {s s' : Site} {held : List Grip} {i : Nat} {g g' : Grip}

/-- Two who are not outside the lock are one. -/
theorem Kept.same (h : Kept euid s held) {j : Nat} {g' : Grip} (hi : held[i]? = some g)
    (hj : held[j]? = some g') (hg : g ≠ .outside) (hg' : g' ≠ .outside) : i = j := by
  obtain ⟨a, ha, rfl, hholds⟩ := h.locked i g hi hg
  obtain ⟨b, hb, rfl, hholds'⟩ := h.locked j g' hj hg'
  exact h.once a ha b hb hholds hholds'

/-- What touches neither the socket nor who holds the lock. -/
theorem Kept.aside (h : Kept euid s held)
    (hlock : ∀ m, s.lockFile = some m → ∃ m', s'.lockFile = some m' ∧ m'.identity = m.identity)
    (hnew : ∀ a ∈ s'.handles, a.slot = .lock → a ∈ s.handles ∨
      a.active = false ∧ ∃ m, s'.lockFile = some m ∧ m.identity = a.identity)
    (hold : ∀ a ∈ s.handles, a.Holds → a ∈ s'.handles)
    (hears : ∀ (i : Nat) seen fit m, held[i]? = some (.bound seen fit) → s.Bound i m →
      s'.Bound i m)
    (hsocket : s'.socket = s.socket) : Kept euid s' held where
  placed := by
    intro a ha hslot
    rcases hnew a ha hslot with hmem | ⟨_, hplaced⟩
    · obtain ⟨m, hm, hid⟩ := h.placed a hmem hslot
      obtain ⟨m', hm', hid'⟩ := hlock m hm
      exact ⟨m', hm', hid'.trans hid⟩
    · exact hplaced
  once := by
    intro a ha b hb hholds hholds'
    have hfrom : ∀ c ∈ s'.handles, c.Holds → c ∈ s.handles := by
      intro c hc hcholds
      rcases hnew c hc hcholds.1 with hmem | ⟨hidle, _⟩
      · exact hmem
      · exact absurd hcholds.2 (by simp [hidle])
    exact h.once a (hfrom a ha hholds) b (hfrom b hb hholds') hholds hholds'
  locked := by
    intro i g hi hg
    obtain ⟨a, ha, hthread, hholds⟩ := h.locked i g hi hg
    exact ⟨a, hold a ha hholds, hthread, hholds⟩
  bound := by
    intro i seen fit hi
    rw [hsocket]
    obtain ⟨m, hm, hown, hopen⟩ := h.bound i seen fit hi
    exact ⟨m, hm, hown, hears i seen fit m hi hopen⟩

/-- One who is inside the lock changes the socket. -/
theorem Kept.resocket (h : Kept euid s held) (hi : held[i]? = some g) (hg : g ≠ .outside)
    (socket : Option Metadata)
    (hbound : ∀ seen fit, g' = .bound seen fit →
      ∃ m, socket = some m ∧ Own euid seen fit m ∧ s.Bound i m) :
    Kept euid { s with socket := socket } (held.set i g') where
  placed := h.placed
  once := h.once
  locked := by
    intro j a hj ha
    rcases set_cases hj with ⟨rfl, rfl⟩ | ⟨_, hj⟩
    · exact h.locked j g hi hg
    · exact h.locked j a hj ha
  bound := by
    intro j seen fit hj
    rcases set_cases hj with ⟨rfl, heq⟩ | ⟨hne, hj⟩
    · exact hbound seen fit heq.symm
    · exact absurd (h.same hj hi nofun hg) hne

/-- One who is inside the lock learns something, or leaves its socket. -/
theorem Kept.regrip (h : Kept euid s held) (hi : held[i]? = some g) (hg : g ≠ .outside)
    (hbound : ∀ seen fit, g' = .bound seen fit →
      ∃ m, s.socket = some m ∧ Own euid seen fit m ∧ s.Bound i m) :
    Kept euid s (held.set i g') :=
  h.resocket hi hg s.socket hbound

theorem handle_mem {slot : Slot} {a : Handle} (h : s.handle i slot = some a) :
    a ∈ s.handles ∧ a.thread = i ∧ a.slot = slot :=
  ⟨List.mem_of_find?_eq_some h, by simpa using List.find?_some h⟩

theorem mem_activated {slot : Slot} {a : Handle} (h : a ∈ (s.activated i slot).handles) :
    ∃ b ∈ s.handles, b.thread = a.thread ∧ b.slot = a.slot ∧ b.identity = a.identity ∧
      (a = b ∨ a.thread = i ∧ a.slot = slot) := by
  obtain ⟨b, hb, rfl⟩ := List.mem_map.mp h
  refine ⟨b, hb, ?_⟩
  split
  · rename_i hmine
    exact ⟨rfl, rfl, rfl, Or.inr hmine⟩
  · exact ⟨rfl, rfl, rfl, Or.inl rfl⟩

theorem activated_mem {slot : Slot} {a : Handle} (ha : a ∈ s.handles) :
    ∃ b ∈ (s.activated i slot).handles, b.thread = a.thread ∧ b.slot = a.slot ∧
      (b = a ∨ b.active = true) := by
  refine ⟨_, List.mem_map.mpr ⟨a, ha, rfl⟩, ?_⟩
  split
  · exact ⟨rfl, rfl, Or.inr rfl⟩
  · exact ⟨rfl, rfl, Or.inl rfl⟩

theorem bound_activated {j : Nat} {slot : Slot} {m : Metadata} (h : s.Bound j m) :
    (s.activated i slot).Bound j m := by
  obtain ⟨a, ha, hthread, hslot, hid⟩ := h
  refine ⟨_, List.mem_map.mpr ⟨a, ha, rfl⟩, ?_⟩
  split
  · exact ⟨hthread, hslot, hid⟩
  · exact ⟨hthread, hslot, hid⟩

/-- Nobody else has the lock, so the process gets it. -/
theorem Kept.enter (h : Kept euid s held) (hi : held[i]? = some .outside) {a : Handle}
    (ha : s.handle i .lock = some a) (hfree : ¬ s.LockedBesides i a.identity) :
    Kept euid (s.activated i .lock) (held.set i .inside) where
  placed := by
    intro b hb hslot
    obtain ⟨c, hc, _, hcslot, hcid, _⟩ := mem_activated hb
    obtain ⟨m, hm, hid⟩ := h.placed c hc (hcslot.trans hslot)
    exact ⟨m, hm, hid.trans hcid⟩
  once := by
    obtain ⟨hamem, hathread, haslot⟩ := handle_mem ha
    -- whoever has the lock afterwards is the process itself
    have hmine : ∀ b ∈ (s.activated i .lock).handles, b.Holds → b.thread = i := by
      intro b hb hholds
      obtain ⟨c, hc, _, _, _, rfl | hself⟩ := mem_activated hb
      · refine Decidable.byContradiction fun hother => ?_
        obtain ⟨m, hm, hid⟩ := h.placed b hc hholds.1
        obtain ⟨m', hm', hid'⟩ := h.placed a hamem haslot
        cases hm.symm.trans hm'
        exact hfree ⟨b, hc, hholds.1, hholds.2, hid.symm.trans hid', hother⟩
      · exact hself.1
    intro b hb c hc hholds hholds'
    rw [hmine b hb hholds, hmine c hc hholds']
  locked := by
    intro j g hj hg
    rcases set_cases hj with ⟨rfl, _⟩ | ⟨_, hj⟩
    · obtain ⟨hamem, hathread, haslot⟩ := handle_mem ha
      refine ⟨{ a with active := true }, List.mem_map.mpr ⟨a, hamem, ?_⟩, hathread, haslot, rfl⟩
      rw [if_pos ⟨hathread, haslot⟩]
    · obtain ⟨b, hb, hthread, hholds⟩ := h.locked j g hj hg
      obtain ⟨c, hc, hcthread, hcslot, hcactive⟩ := @activated_mem s i .lock b hb
      refine ⟨c, hc, hcthread.trans hthread, hcslot.trans hholds.1, ?_⟩
      rcases hcactive with rfl | hcactive
      · exact hholds.2
      · exact hcactive
  bound := by
    intro j seen fit hj
    rcases set_cases hj with ⟨_, heq⟩ | ⟨_, hj⟩
    · cases heq
    · obtain ⟨m, hm, hown, hopen⟩ := h.bound j seen fit hj
      exact ⟨m, hm, hown, bound_activated hopen⟩

/-- The process closes the lock, or is gone. -/
theorem Kept.leave (h : Kept euid s held) (hsub : ∀ a ∈ s'.handles, a ∈ s.handles)
    (hrest : ∀ a ∈ s.handles, a.thread ≠ i → a ∈ s'.handles) (hlock : s'.lockFile = s.lockFile)
    (hsocket : s'.socket = s.socket) : Kept euid s' (held.set i .outside) where
  placed := by
    intro a ha hslot
    rw [hlock]
    exact h.placed a (hsub a ha) hslot
  once := fun a ha b hb => h.once a (hsub a ha) b (hsub b hb)
  locked := by
    intro j g hj hg
    rcases set_cases hj with ⟨_, heq⟩ | ⟨hne, hj⟩
    · exact absurd heq hg
    · obtain ⟨a, ha, hthread, hholds⟩ := h.locked j g hj hg
      exact ⟨a, hrest a ha (hthread ▸ hne), hthread, hholds⟩
  bound := by
    intro j seen fit hj
    rcases set_cases hj with ⟨_, heq⟩ | ⟨hne, hj⟩
    · cases heq
    · rw [hsocket]
      obtain ⟨m, hm, hown, a, ha, hthread, hrest'⟩ := h.bound j seen fit hj
      exact ⟨m, hm, hown, a, hrest a ha (hthread ▸ hne), hthread, hrest'⟩

/-- An answer that is possible, and leaves what has to be kept. -/
def Keeps (euid : Nat) (held : List Grip) (i : Nat) (g : Grip) (c : Call) (p : c.Answer × Site) :
    Prop :=
  g.Possible euid c p.1 ∧ Kept euid p.2 (held.set i (g.after c p.1))

theorem set_same (hi : held[i]? = some g) : held.set i g = held := by
  apply List.ext_getElem?
  intro j
  rw [List.getElem?_set]
  split
  · rename_i hij
    subst hij
    obtain ⟨hlt, hget⟩ := List.getElem?_eq_some_iff.mp hi
    rw [if_pos hlt, hi]
  · rfl

theorem Kept.still (h : Kept euid s held) (hi : held[i]? = some g) {c : Call} {r : c.Answer}
    (hpossible : g.Possible euid c r) (hafter : g.after c r = g) :
    Keeps euid held i g c (r, s) := by
  refine ⟨hpossible, ?_⟩
  show Kept euid s (held.set i (g.after c r))
  rw [hafter, set_same hi]
  exact h

/-- A plain call whose effect is aside from the lock and the socket. -/
theorem Kept.plain (hi : held[i]? = some g) {c : Call} (hc : Plain c = true) {r : c.Answer}
    (h : Kept euid s' held) : Keeps euid held i g c (r, s') :=
  h.still hi (Plain.possible hc r) (Plain.after hc r)

theorem Kept.opens (h : Kept euid s held) (slot : Slot) (identity : FileIdentity)
    (hplaced : slot = .lock → ∃ m, s.lockFile = some m ∧ m.identity = identity) :
    Kept euid (s.opened i slot identity) held := by
  refine h.aside (fun m hm => ⟨m, hm, rfl⟩) ?_ (fun a ha _ => List.mem_append_left _ ha) ?_ rfl
  · intro a ha hslot
    rcases List.mem_append.mp ha with ha | ha
    · exact Or.inl ha
    · obtain rfl := List.mem_singleton.mp ha
      exact Or.inr ⟨rfl, hplaced hslot⟩
  · rintro j _ _ m _ ⟨a, ha, hopen⟩
    exact ⟨a, List.mem_append_left _ ha, hopen⟩

theorem closed_rest {slot : Slot} {a : Handle} (ha : a ∈ s.handles)
    (hother : a.thread ≠ i ∨ a.slot ≠ slot) : a ∈ (s.closed i slot).handles := by
  refine List.mem_filter.mpr ⟨ha, decide_eq_true fun hmine => ?_⟩
  rcases hother with hother | hother
  · exact hother hmine.1
  · exact hother hmine.2

/-- What is not the lock is closed, and no listener by a host that keeps its socket. -/
theorem Kept.closesAside (h : Kept euid s held) (hi : held[i]? = some g) {slot : Slot}
    (hslot : slot ≠ .lock) (hlistens : slot = .listener → ¬ g.Binds) :
    Kept euid (s.closed i slot) held := by
  refine h.aside (fun m hm => ⟨m, hm, rfl⟩)
    (fun a ha _ => Or.inl (List.mem_filter.mp ha).1) ?_ ?_ rfl
  · exact fun a ha hholds => closed_rest ha (Or.inr fun heq => hslot (heq ▸ hholds.1))
  · rintro j seen fit m hj ⟨a, ha, rfl, hopen, hid⟩
    refine ⟨a, ?_, rfl, hopen, hid⟩
    by_cases hmine : a.thread = i
    · refine closed_rest ha (Or.inr fun heq => ?_)
      have hg : g = .bound seen fit := Option.some.inj (hi.symm.trans (hmine ▸ hj))
      exact hlistens (heq.symm.trans hopen) ⟨seen, fit, hg⟩
    · exact closed_rest ha (Or.inl hmine)

theorem Kept.closes (h : Kept euid s held) (hi : held[i]? = some g) (slot : Slot) :
    Keeps euid held i g (.close slot) ((), s.closed i slot) := by
  cases slot with
  | runDir => exact Kept.plain hi rfl (h.closesAside hi nofun fun heq => nomatch heq)
  | lock =>
      refine ⟨trivial, h.leave (fun a ha => (List.mem_filter.mp ha).1) ?_ rfl rfl⟩
      exact fun a ha hother => closed_rest ha (Or.inl hother)
  | listener =>
      refine ⟨trivial, ?_⟩
      show Kept euid _ (held.set i g.loses)
      cases g with
      | outside =>
          rw [show Grip.loses .outside = .outside from rfl, set_same hi]
          exact h.closesAside hi nofun fun _ => nofun
      | inside =>
          rw [show Grip.loses .inside = .inside from rfl, set_same hi]
          exact h.closesAside hi nofun fun _ => nofun
      | bound seen fit =>
          -- first the socket is given up, then the listener closed
          have hset : Kept euid s (held.set i .inside) := h.regrip hi nofun fun _ _ => nofun
          have hlt := (List.getElem?_eq_some_iff.mp hi).1
          exact hset.closesAside (List.getElem?_set_self hlt) nofun fun _ => nofun

theorem own_sees {seen : Option FileIdentity} {fit : Bool} {m : Metadata}
    (h : Own euid seen fit m) :
    Own euid (some m.identity) (fit || decide (m.mode = socketMode)) m where
  same := fun _ hsame => Option.some.inj hsame
  kind := h.kind
  uid := h.uid
  mode := by
    intro hfit
    rcases (Bool.or_eq_true _ _).mp hfit with hfit | hmode
    · exact h.mode hfit
    · exact of_decide_eq_true hmode

theorem own_chmod {seen : Option FileIdentity} {fit : Bool} {m : Metadata}
    (h : Own euid seen fit m) : Own euid seen fit { m with mode := socketMode } where
  same := h.same
  kind := h.kind
  uid := h.uid
  mode := fun _ => rfl

theorem own_withMode {seen : Option FileIdentity} {fit : Bool} {m : Metadata}
    (identity : FileIdentity) (h : Own euid seen fit m) :
    Own euid seen fit (withMode identity socketMode m) := by
  unfold withMode
  split
  · exact own_chmod h
  · exact h

theorem withMode_identity (identity : FileIdentity) (mode : Nat) (m : Metadata) :
    (withMode identity mode m).identity = m.identity := by
  unfold withMode
  split
  · rfl
  · rfl

theorem Kept.looks (h : Kept euid s held) (hi : held[i]? = some g) (path : EndpointPath) :
    (∀ m, s.node path = some m → Keeps euid held i g (.lstat path) (.ok m, s)) ∧
      ∀ e, Keeps euid held i g (.lstat path) (.error e, s) := by
  cases path with
  | runDir => exact ⟨fun _ _ => h.plain hi rfl, fun _ => h.plain hi rfl⟩
  | lock => exact ⟨fun _ _ => h.plain hi rfl, fun _ => h.plain hi rfl⟩
  | socket =>
      refine ⟨fun m hsocket => ?_, fun _ => h.still (c := .lstat .socket) hi trivial rfl⟩
      have hown : ∀ seen fit, g = .bound seen fit → Own euid seen fit m ∧ s.Bound i m := by
        rintro seen fit rfl
        obtain ⟨m', hm', hown⟩ := h.bound i seen fit hi
        cases hsocket.symm.trans hm'
        exact hown
      refine ⟨fun seen fit hg => (hown seen fit hg).1, ?_⟩
      show Kept euid s (held.set i (g.sees m))
      cases g with
      | outside =>
          rw [show Grip.sees .outside m = .outside from rfl, set_same hi]
          exact h
      | inside =>
          rw [show Grip.sees .inside m = .inside from rfl, set_same hi]
          exact h
      | bound seen fit =>
          refine h.regrip hi nofun fun seen' fit' heq => ?_
          cases heq
          exact ⟨m, hsocket, own_sees (hown seen fit rfl).1, (hown seen fit rfl).2⟩

/-- The mode of the host's own socket is set. -/
theorem Kept.chmods (h : Kept euid s held) (hi : held[i]? = some g) (hbinds : g.Binds)
    {change : Metadata → Metadata}
    (hchange : ∀ seen fit m, Own euid seen fit m → Own euid seen fit (change m))
    (hsame : ∀ m, (change m).identity = m.identity) :
    Kept euid { s with socket := s.socket.map change } held := by
  obtain ⟨seen, fit, rfl⟩ := hbinds
  obtain ⟨m, hm, hown, a, ha, hthread, hslot, hid⟩ := h.bound i seen fit hi
  have hset : Kept euid { s with socket := s.socket.map change }
      (held.set i (.bound seen fit)) := by
    refine h.resocket hi nofun (s.socket.map change) fun seen' fit' heq => ?_
    cases heq
    exact ⟨change m, by rw [hm]; rfl, hchange seen fit m hown, a, ha, hthread, hslot,
      hid.trans (hsame m).symm⟩
  rw [set_same hi] at hset
  exact hset

/-! One call after the other, by a process whose grip allows it. -/

theorem Kept.lstat (h : Kept euid s held) (hi : held[i]? = some g) (path : EndpointPath) :
    Keeps euid held i g (.lstat path) (s.lstat path) := by
  unfold Site.lstat
  cases hnode : s.node path with
  | none => exact (h.looks hi path).2 _
  | some m => exact (h.looks hi path).1 m hnode

theorem Kept.mkdir (h : Kept euid s held) (hi : held[i]? = some g) (mode : Nat) (choice : Choice) :
    Keeps euid held i g (.mkdir mode) (s.mkdir euid mode choice) := by
  unfold Site.mkdir
  cases s.runDir with
  | some m => exact h.plain hi rfl
  | none =>
      exact Kept.plain hi rfl (h.aside (fun m hm => ⟨m, hm, rfl⟩) (fun a ha _ => Or.inl ha)
        (fun a ha _ => ha) (fun _ _ _ _ _ hopen => hopen) rfl)

theorem Kept.openDir (h : Kept euid s held) (hi : held[i]? = some g) :
    Keeps euid held i g .openDir (s.openDir i) := by
  unfold Site.openDir
  cases s.runDir with
  | none => exact h.plain hi rfl
  | some m =>
      simp only
      split
      · exact Kept.plain hi rfl (h.opens .runDir m.identity nofun)
      · exact h.plain hi rfl

theorem Kept.createLock (h : Kept euid s held) (hi : held[i]? = some g)
    (mode : Nat) (choice : Choice) :
    Keeps euid held i g (.createLock mode) (s.createLock euid i mode choice) := by
  unfold Site.createLock
  split
  · exact h.plain hi rfl
  cases hlock : s.lockFile with
  | some m => exact h.plain hi rfl
  | none =>
      have hmade : Kept euid
          { s with lockFile := some (choice.created euid .regularFile mode) } held := by
        refine h.aside (fun m hm => ?_) (fun a ha _ => Or.inl ha) (fun a ha _ => ha)
          (fun _ _ _ _ _ hopen => hopen) rfl
        cases hlock.symm.trans hm
      exact Kept.plain hi rfl (hmade.opens .lock choice.fresh fun _ => ⟨_, rfl, rfl⟩)

theorem Kept.openLock (h : Kept euid s held) (hi : held[i]? = some g) :
    Keeps euid held i g .openLock (s.openLock i) := by
  unfold Site.openLock
  cases hlock : s.lockFile with
  | none => exact h.plain hi rfl
  | some m =>
      simp only
      split
      · exact h.plain hi rfl
      split
      · exact Kept.plain hi rfl (h.opens .lock m.identity fun _ => ⟨m, hlock, rfl⟩)
      · exact h.plain hi rfl

theorem Kept.fchmod (h : Kept euid s held) (hi : held[i]? = some g) (slot : Slot) (mode : Nat)
    (hallowed : g.Allowed (.fchmod slot mode)) (choice : Choice) :
    Keeps euid held i g (.fchmod slot mode) (s.fchmod i slot mode choice) := by
  unfold Site.fchmod
  cases s.handle i slot with
  | none =>
      cases slot with
      | runDir => exact h.plain hi rfl
      | lock => exact h.plain hi rfl
      | listener => exact h.still (c := .fchmod .listener mode) hi trivial rfl
  | some a =>
      cases slot with
      | runDir =>
          exact Kept.plain hi rfl (h.aside (fun m hm => ⟨m, hm, rfl⟩) (fun a ha _ => Or.inl ha)
            (fun a ha _ => ha) (fun _ _ _ _ _ hopen => hopen) rfl)
      | lock =>
          refine Kept.plain hi rfl (h.aside (fun m hm => ?_) (fun a ha _ => Or.inl ha)
            (fun a ha _ => ha) (fun _ _ _ _ _ hopen => hopen) rfl)
          refine ⟨withMode a.identity mode m, ?_, withMode_identity a.identity mode m⟩
          show s.lockFile.map _ = _
          rw [hm]
          rfl
      | listener =>
          -- rejected, taken and done, or taken without an effect on the path
          obtain ⟨hbinds, rfl⟩ := hallowed
          simp only
          split
          · exact h.still (c := .fchmod .listener socketMode) hi trivial rfl
          split
          · exact (h.chmods hi hbinds (fun _ _ _ => own_withMode a.identity)
              (withMode_identity a.identity socketMode)).still
                (c := .fchmod .listener socketMode) hi trivial rfl
          · exact h.still (c := .fchmod .listener socketMode) hi trivial rfl

theorem Kept.fstat (h : Kept euid s held) (hi : held[i]? = some g) (slot : Slot) :
    Keeps euid held i g (.fstat slot) (s.fstat i slot) := by
  unfold Site.fstat
  cases s.handle i slot with
  | none => exact h.plain hi rfl
  | some a => exact h.plain hi rfl

/-- The lock is taken from outside, where nobody else has it. -/
theorem Kept.flock (h : Kept euid s held) (hi : held[i]? = some .outside) :
    Keeps euid held i .outside .flock (s.flock i) := by
  unfold Site.flock
  cases ha : s.handle i .lock with
  | none => exact h.still (c := .flock) hi trivial rfl
  | some a =>
      simp only
      split
      · exact h.still (c := .flock) hi trivial rfl
      · rename_i hfree
        exact ⟨trivial, h.enter hi ha hfree⟩

theorem Kept.connect (h : Kept euid s held) (hi : held[i]? = some g) (choice : Choice) :
    Keeps euid held i g .connect (s.connect choice) := by
  unfold Site.connect
  cases s.socket with
  | none => exact h.plain hi rfl
  | some m =>
      simp only
      split
      · exact h.plain hi rfl
      split
      · exact h.plain hi rfl
      · exact h.plain hi rfl

/-- Whoever removes the socket has the lock, and no socket of its own any more. -/
theorem Kept.unlink (h : Kept euid s held) (hi : held[i]? = some g) (hout : g ≠ .outside) :
    Keeps euid held i g .unlink (s.unlink) := by
  unfold Site.unlink
  cases s.socket with
  | none => exact h.still (c := .unlink) hi trivial rfl
  | some m =>
      simp only
      split
      · exact h.still (c := .unlink) hi trivial rfl
      · exact ⟨trivial, h.resocket hi hout none fun _ _ heq => nomatch heq⟩

/-- The new socket is the host's own, of a mode it does not know yet. -/
theorem Kept.bind (h : Kept euid s held) (hi : held[i]? = some .inside) (choice : Choice) :
    Keeps euid held i .inside .bind (s.bind euid i choice) := by
  unfold Site.bind
  split
  · exact h.still (c := .bind) hi trivial rfl
  cases s.socket with
  | some m => exact h.still (c := .bind) hi trivial rfl
  | none =>
      refine ⟨trivial, ?_⟩
      have hopened := @Kept.opens euid s held i h .listener choice.fresh nofun
      refine hopened.resocket hi nofun (some (choice.created euid .socket 0o777)) fun _ _ heq => ?_
      cases heq
      exact ⟨_, rfl, ⟨nofun, rfl, rfl, nofun⟩, _,
        List.mem_append_right _ (List.mem_singleton_self _), rfl, rfl, rfl⟩

theorem Kept.listen (h : Kept euid s held) (hi : held[i]? = some g) :
    Keeps euid held i g .listen (s.listen i) := by
  unfold Site.listen
  cases s.handle i .listener with
  | none => exact h.plain hi rfl
  | some a =>
      refine Kept.plain hi rfl (h.aside (fun m hm => ⟨m, hm, rfl⟩) ?_ ?_
        (fun _ _ _ _ _ => bound_activated) rfl)
      · intro a ha hslot
        obtain ⟨b, hb, _, _, _, rfl | hself⟩ := mem_activated ha
        · exact Or.inl hb
        · cases hslot.symm.trans hself.2
      · intro a ha hholds
        refine List.mem_map.mpr ⟨a, ha, if_neg fun hmine => ?_⟩
        cases hmine.2.symm.trans hholds.1

theorem Kept.accept (h : Kept euid s held) (hi : held[i]? = some g) (choice : Choice) :
    Keeps euid held i g .accept (s.accept i choice) := by
  unfold Site.accept
  cases s.handle i .listener with
  | none => exact h.plain hi rfl
  | some a =>
      simp only
      split
      · exact h.plain hi rfl
      · exact h.plain hi rfl

theorem Kept.chmod (h : Kept euid s held) (hi : held[i]? = some g) (hbinds : g.Binds) :
    Keeps euid held i g (.chmod socketMode) (s.chmod socketMode) := by
  unfold Site.chmod
  cases hsocket : s.socket with
  | none => exact h.still (c := .chmod socketMode) hi trivial rfl
  | some m =>
      simp only
      split
      · exact h.still (c := .chmod socketMode) hi trivial rfl
      · have hset := h.chmods hi hbinds (fun _ _ _ => own_chmod) fun _ => rfl
        rw [hsocket] at hset
        exact hset.still (c := .chmod socketMode) hi trivial rfl

/-- What a process may call keeps the law, whatever the kernel chooses. -/
theorem Kept.answers (h : Kept euid s held) (hi : held[i]? = some g) {c : Call}
    (hallowed : g.Allowed c) (choice : Choice) :
    Keeps euid held i g c (s.answer euid i c choice) := by
  cases c with
  | lstat path => exact h.lstat hi path
  | mkdir mode => exact h.mkdir hi mode choice
  | openDir => exact h.openDir hi
  | createLock mode => exact h.createLock hi mode choice
  | openLock => exact h.openLock hi
  | fchmod slot mode => exact h.fchmod hi slot mode hallowed choice
  | fstat slot => exact h.fstat hi slot
  | flock =>
      obtain rfl : g = .outside := hallowed
      exact h.flock hi
  | connect => exact h.connect hi choice
  | unlink => exact h.unlink hi hallowed
  | bind =>
      obtain rfl : g = .inside := hallowed
      exact h.bind hi choice
  | listen => exact h.listen hi
  | accept => exact h.accept hi choice
  | chmod mode =>
      obtain ⟨hbinds, rfl⟩ := hallowed
      exact h.chmod hi hbinds
  | close slot => exact h.closes hi slot

theorem Kept.fails (h : Kept euid s held) (hi : held[i]? = some g) (c : Call) (code : Nat) :
    Keeps euid held i g c (s.failed i code c) := by
  cases c with
  | lstat path => exact (h.looks hi path).2 _
  | fchmod slot mode =>
      cases slot with
      | runDir => exact h.plain hi rfl
      | lock => exact h.plain hi rfl
      | listener => exact h.still (c := .fchmod .listener mode) hi trivial rfl
  | flock => exact h.still (c := .flock) hi trivial rfl
  | unlink => exact h.still (c := .unlink) hi trivial rfl
  | bind => exact h.still (c := .bind) hi trivial rfl
  | chmod mode => exact h.still (c := .chmod mode) hi trivial rfl
  | close slot => exact h.closes hi slot
  | _ => exact h.plain hi rfl

theorem discipline_kept : (discipline euid).Kept (kernel euid) (Kept euid) := by
  intro s held i g c choice h hi hallowed _
  have hkeeps : Keeps euid held i g c ((kernel euid).perform s i c choice) := by
    cases hfault : choice.fault with
    | some code =>
        rw [perform_failed hfault]
        exact h.fails hi c code
    | none =>
        rw [perform_answers hfault]
        exact h.answers hi hallowed choice
  exact hkeeps

end

/-! ## §4  The law -/

/-- What a process still does, it does by what it holds. -/
def Thread.Follows (euid : Nat) (g : Grip) : Thread → Prop
  | .binding p => Obeys (discipline euid) g (Serves (· = .outside)) p
  | .serving listener p =>
      g = .bound (some listener.identity) true ∧ Obeys (looking euid) g Always p
  | .dropping p => Obeys (discipline euid) g (fun g _ => g = .outside) p
  | .connecting p => Obeys (discipline euid) g (Stays .outside) p
  | .gone => g = .outside

/-- Everybody follows, and what has to be kept is kept. -/
structure Orderly (euid : Nat) (w : World) (held : List Grip) : Prop where
  kept : Kept euid w.site held
  length : held.length = w.threads.length
  follows : ∀ (i : Nat) (t : Thread) (g : Grip), w.threads[i]? = some t → held[i]? = some g →
    t.Follows euid g

section

variable {euid : Nat} {w : World} {held : List Grip} {i : Nat} {t t' : Thread} {g g' : Grip}

theorem Orderly.each (h : Orderly euid w held) :
    EachHolds (fun t g => t.Follows euid g) w.threads held :=
  ⟨h.length, h.follows⟩

theorem Orderly.grip (h : Orderly euid w held) (ht : w.threads[i]? = some t) :
    ∃ g, held[i]? = some g ∧ t.Follows euid g :=
  h.each.holds ht

/-- One process has moved on. -/
theorem Orderly.moves (h : Orderly euid w held) {s : Site} (hkept : Kept euid s (held.set i g'))
    (hfollows : t'.Follows euid g') :
    Orderly euid { site := s, threads := w.threads.set i t' } (held.set i g') where
  kept := hkept
  length := (h.each.set i hfollows).length
  follows := (h.each.set i hfollows).follows

theorem Orderly.becomes (h : Orderly euid w held) (hi : held[i]? = some g)
    (hfollows : t'.Follows euid g) : Orderly euid (w.becomes i (some t')) held := by
  have hmoved : Orderly euid { site := w.site, threads := w.threads.set i t' } (held.set i g) :=
    h.moves (by rw [set_same hi]; exact h.kept) hfollows
  rw [set_same hi] at hmoved
  exact hmoved

theorem Kept.joins {s : Site} (h : Kept euid s held) : Kept euid s (held ++ [.outside]) := by
  have hold : ∀ {j : Nat} {a : Grip}, (held ++ [.outside])[j]? = some a →
      held[j]? = some a ∨ a = .outside := by
    intro j a hj
    rw [List.getElem?_append] at hj
    split at hj
    · exact Or.inl hj
    · exact Or.inr (List.mem_singleton.mp (List.mem_of_getElem? hj))
  refine ⟨h.placed, h.once, fun j a hj ha => ?_, fun j seen fit hj => ?_⟩
  · rcases hold hj with hj | rfl
    · exact h.locked j a hj ha
    · exact absurd rfl ha
  · rcases hold hj with hj | heq
    · exact h.bound j seen fit hj
    · cases heq

theorem Orderly.joins (h : Orderly euid w held) (ht : t.Follows euid .outside) :
    Orderly euid { w with threads := w.threads ++ [t] } (held ++ [.outside]) where
  kept := h.kept.joins
  length := (h.each.append ht).length
  follows := (h.each.append ht).follows

theorem Looks.allowed {c : Call} (h : Looks c) : g.Allowed c := by
  rcases h with rfl | rfl
  · trivial
  · trivial

/-- Looking, a host learns nothing new. -/
theorem Looks.after {c : Call} (h : Looks c) {identity : FileIdentity} {r : c.Answer}
    (hr : (Grip.bound (some identity) true).Possible euid c r) :
    (Grip.bound (some identity) true).after c r = .bound (some identity) true := by
  rcases h with rfl | rfl
  · cases r with
    | error e => rfl
    | ok m =>
        have hown := hr (some identity) true rfl
        show Grip.bound (some m.identity) _ = _
        rw [hown.same identity rfl]
        rfl
  · rfl

/-- A process that follows makes its next call, and follows. -/
theorem Thread.Follows.calls (hfollows : t.Follows euid g) {c : Call}
    {next : c.Answer → Thread} (hasks : t.asks = some ⟨c, next⟩) {s : Site}
    (hkept : Kept euid s held)
    (hi : held[i]? = some g) {choice : Choice} (hchoice : s.Unused choice.fresh) :
    Kept euid ((kernel euid).perform s i c choice).2
        (held.set i (g.after c ((kernel euid).perform s i c choice).1)) ∧
      (next ((kernel euid).perform s i c choice).1).Follows euid
        (g.after c ((kernel euid).perform s i c choice).1) := by
  cases t with
  | binding p =>
      cases p with
      | done a => cases hasks
      | call c' next' =>
          cases hasks
          exact Obeys.step discipline_kept hkept hi hfollows hchoice
  | serving listener p =>
      cases p with
      | done a => cases hasks
      | call c' next' =>
          cases hasks
          obtain ⟨rfl, hlooks, hnext⟩ := hfollows
          obtain ⟨hpossible, hkept'⟩ := discipline_kept s held i _ c choice hkept hi
            (Looks.allowed hlooks) hchoice
          exact ⟨hkept', Looks.after hlooks hpossible, hnext _ hpossible⟩
  | dropping p =>
      cases p with
      | done a => cases hasks
      | call c' next' =>
          cases hasks
          exact Obeys.step discipline_kept hkept hi hfollows hchoice
  | connecting p =>
      cases p with
      | done a => cases hasks
      | call c' next' =>
          cases hasks
          exact Obeys.step discipline_kept hkept hi hfollows hchoice
  | gone => cases hasks

theorem Thread.Follows.returns (hfollows : t.Follows euid g) (hreturns : t.returns = some t') :
    t'.Follows euid g := by
  cases t with
  | binding p =>
      cases p with
      | call c next => cases hreturns
      | done a =>
          cases a with
          | ok listener =>
              cases hreturns
              exact ⟨hfollows, trivial⟩
          | error e =>
              cases hreturns
              exact hfollows
  | serving listener p => cases hreturns
  | dropping p =>
      cases p with
      | call c next => cases hreturns
      | done a =>
          cases hreturns
          exact hfollows
  | connecting p =>
      cases p with
      | call c next => cases hreturns
      | done a =>
          cases hreturns
          exact hfollows
  | gone => cases hreturns

theorem Thread.Follows.idle (hfollows : t.Follows euid g) {listener : SecureUnixListener}
    (hidle : t.idle = some listener) : g = .bound (some listener.identity) true := by
  cases t with
  | serving listener' p =>
      cases p with
      | call c next => cases hidle
      | done a =>
          cases hidle
          exact hfollows.1
  | _ => cases hidle

theorem orderly_step (h : Orderly euid w held) {call : Step} (hen : w.Enabled call) :
    ∃ held', Orderly euid (w.step euid call) held' := by
  cases call with
  | startsHost => exact ⟨_, h.joins startHost_obeys⟩
  | startsClient => exact ⟨_, h.joins connectUnix_obeys⟩
  | calls i choice =>
      show ∃ held', Orderly euid (w.calls euid i choice) held'
      unfold World.calls
      cases ht : w.threads[i]? with
      | none => exact ⟨held, h⟩
      | some t =>
          obtain ⟨g, hi, hfollows⟩ := h.grip ht
          rw [Option.bind_some]
          cases hasks : t.asks with
          | none => exact ⟨held, h⟩
          | some asked =>
              obtain ⟨c, next⟩ := asked
              obtain ⟨hkept, hnext⟩ := hfollows.calls hasks h.kept hi hen
              exact ⟨_, h.moves hkept hnext⟩
  | returns i =>
      show ∃ held', Orderly euid (w.becomes i (w.threads[i]?.bind Thread.returns)) held'
      cases hnext : w.threads[i]?.bind Thread.returns with
      | none => exact ⟨held, h⟩
      | some t' =>
          obtain ⟨t, ht, hreturns⟩ := Option.bind_eq_some_iff.mp hnext
          obtain ⟨g, hi, hfollows⟩ := h.grip ht
          exact ⟨held, h.becomes hi (hfollows.returns hreturns)⟩
  | accepts i =>
      show ∃ held', Orderly euid (w.becomes i ((w.threads[i]?.bind Thread.idle).map _)) held'
      cases hidle : w.threads[i]?.bind Thread.idle with
      | none => exact ⟨held, h⟩
      | some listener =>
          obtain ⟨t, ht, hidle⟩ := Option.bind_eq_some_iff.mp hidle
          obtain ⟨g, hi, hfollows⟩ := h.grip ht
          obtain rfl := hfollows.idle hidle
          exact ⟨held, h.becomes hi ⟨rfl, accept_looks listener⟩⟩
  | drops i =>
      show ∃ held', Orderly euid (w.becomes i ((w.threads[i]?.bind Thread.idle).map _)) held'
      cases hidle : w.threads[i]?.bind Thread.idle with
      | none => exact ⟨held, h⟩
      | some listener =>
          obtain ⟨t, ht, hidle⟩ := Option.bind_eq_some_iff.mp hidle
          obtain ⟨g, hi, hfollows⟩ := h.grip ht
          obtain rfl := hfollows.idle hidle
          exact ⟨held, h.becomes hi (drop_obeys listener ⟨_, _, rfl⟩)⟩
  | dies i =>
      refine ⟨held.set i .outside, h.moves (h.kept.leave ?_ ?_ rfl rfl) rfl⟩
      · exact fun a ha => (List.mem_filter.mp ha).1
      · exact fun a ha hother => List.mem_filter.mpr ⟨ha, decide_eq_true hother⟩

/-- Nobody has anything open. -/
def Site.Quiet (s : Site) : Prop := s.handles = []

instance (s : Site) : Decidable s.Quiet := inferInstanceAs (Decidable (s.handles = []))

theorem orderly_quiet {s : Site} (hs : s.Quiet) : Orderly euid (.quiet s) [] where
  kept :=
    { placed := fun a ha => absurd (hs ▸ ha : a ∈ []) List.not_mem_nil
      once := fun a ha => absurd (hs ▸ ha : a ∈ []) List.not_mem_nil
      locked := fun _ _ hi => nomatch hi
      bound := fun _ _ _ hi => nomatch hi }
  length := rfl
  follows := fun _ _ _ hi => nomatch hi

theorem orderly_run {s : Site} (hs : s.Quiet) {calls : List Step}
    (hrun : (World.machine euid).Run (.quiet s) calls w) : ∃ held, Orderly euid w held := by
  have hpreserves : (World.machine euid).Preserves fun w => ∃ held, Orderly euid w held := by
    rintro w call hen ⟨held, h⟩
    exact orderly_step h hen
  have horderly := hrun.invariant hpreserves ⟨[], orderly_quiet hs⟩
  exact horderly

/-- From any directory nobody works in, in any order of the calls of any number of hosts and
clients, each of which may fail or be the last: while a host serves, the path of the socket
names the socket its listener is bound to, with its owner and mode, and no other host
serves. -/
theorem serving_undisturbed {s : Site} (hs : s.Quiet) {calls : List Step}
    (hrun : (World.machine euid).Run (.quiet s) calls w) {listener : SecureUnixListener}
    {p : Sys (Except SocketError Unit)} (ht : w.threads[i]? = some (.serving listener p)) :
    (∃ m, w.site.socket = some m ∧ m.identity = listener.identity ∧
      validateMetadata euid .socket m .socket socketMode = .ok ()) ∧
    (∃ h ∈ w.site.handles, h.thread = i ∧ h.slot = .listener ∧
      h.identity = listener.identity) ∧
    ∀ j other q, w.threads[j]? = some (.serving other q) → j = i := by
  obtain ⟨held, h⟩ := orderly_run hs hrun
  obtain ⟨g, hi, rfl, _⟩ := h.grip ht
  obtain ⟨m, hm, hown, a, ha, hthread, hslot, hid⟩ := h.kept.bound i _ _ hi
  have hsame : m.identity = listener.identity := hown.same _ rfl
  refine ⟨⟨m, hm, hsame, ?_⟩, ⟨a, ha, hthread, hslot, hid.trans hsame⟩, ?_⟩
  · exact validateMetadata_ok_iff.mpr ⟨hown.kind, hown.uid, hown.mode rfl⟩
  · intro j other q hother
    obtain ⟨g', hj, rfl, _⟩ := h.grip hother
    exact h.kept.same hj hi nofun nofun

theorem Thread.serving_of_idle {t : Thread} {listener : SecureUnixListener}
    (h : t.idle = some listener) : ∃ p, t = .serving listener p := by
  cases t with
  | serving listener' p =>
      cases p with
      | call c next => cases h
      | done a =>
          cases h
          exact ⟨_, rfl⟩
  | _ => cases h

end

/-! ## §5  Two hosts and a client -/

namespace Fixture

/-- Nothing is there yet. -/
def bare : Site := ⟨none, none, none, []⟩

/-- The next calls of a process, each with an identity of its own for a new file. -/
def callsOf (thread first n : Nat) : List Step :=
  (List.range n).map fun k => .calls thread { fresh := ⟨1, first + k⟩ }

/-- A host binds, and a client and a second host come to it. -/
def rivals : List Step :=
  [.startsHost] ++ callsOf 0 100 25 ++ [.returns 0, .startsClient, .startsHost] ++
    callsOf 1 200 12 ++ callsOf 2 300 17

end Fixture

theorem serving_undisturbed_rivals :
    (∃ m, ((World.machine 501).replay (.quiet Fixture.bare) Fixture.rivals).site.socket = some m ∧
      m.identity = ⟨1, 118⟩ ∧ validateMetadata 501 .socket m .socket socketMode = .ok ()) ∧
    (∃ h ∈ ((World.machine 501).replay (.quiet Fixture.bare) Fixture.rivals).site.handles,
      h.thread = 0 ∧ h.slot = .listener ∧ h.identity = ⟨1, 118⟩) ∧
    ∀ j other q, ((World.machine 501).replay (.quiet Fixture.bare) Fixture.rivals).threads[j]? =
      some (.serving other q) → j = 0 := by
  have hidle : ((World.machine 501).replay (.quiet Fixture.bare) Fixture.rivals).threads[0]?.bind
      Thread.idle = some ⟨⟨⟨1, 112⟩⟩, ⟨1, 118⟩⟩ := by decide +kernel
  obtain ⟨t, ht, hidle⟩ := Option.bind_eq_some_iff.mp hidle
  obtain ⟨p, rfl⟩ := Thread.serving_of_idle hidle
  have hquiet : Fixture.bare.Quiet := rfl
  exact serving_undisturbed hquiet (Machine.run_replay (by decide +kernel)) ht

end Endpoint

end Rpc

end NextInfra
