import Mathlib.Logic.Basic
import NextInfra.Lib.Programs
import NextInfra.Lib.Runs

/-!
# The endpoint of the local RPC

The run directory of a user with its lock and its socket, and the processes that work on
it: hosts, which take the lock, clear a socket nobody listens on, bind their own and
remove it at their end, and clients, which connect. Each does one system call at a time,
next to all the others, and may be gone at any point of its program.
-/

namespace NextInfra

namespace Rpc

namespace Endpoint

/-! ## §1  Files -/

inductive FileKind
  | directory
  | regularFile
  | socket
  | symlink
  | other
deriving DecidableEq

/-- Device and inode. -/
structure FileIdentity where
  device : Nat
  inode : Nat
deriving DecidableEq

/-- What `symlink_metadata` reports; `mode` is the permission bits. -/
structure Metadata where
  identity : FileIdentity
  kind : FileKind
  uid : Nat
  mode : Nat
deriving DecidableEq

inductive Errno
  | noEnt
  | exist
  | loop
  | wouldBlock
  | connRefused
  | addrInUse
  | inval
  | other (code : Nat)
deriving DecidableEq

/-- `io::Error`: of the system, or one the code makes itself. -/
inductive IoError
  | os (errno : Errno)
  | permissionDenied (message : String)
deriving DecidableEq

inductive EndpointPath
  | runDir
  | lock
  | socket
deriving DecidableEq

def runDirMode : Nat := 0o700

def lockFileMode : Nat := 0o600

def socketMode : Nat := 0o600

/-! ## §2  Errors -/

inductive ExpectedType
  | directory
  | regularFile
  | socket
deriving DecidableEq

inductive PathViolation
  | symlink
  | replaced
  | wrongType (expected : ExpectedType)
  | wrongOwner (expected actual : Nat)
  | wrongMode (expected actual : Nat)
deriving DecidableEq

inductive TransportPathError
  | io (path : EndpointPath) (source : IoError)
  | missing (path : EndpointPath)
  | invalid (path : EndpointPath) (violation : PathViolation)
deriving DecidableEq

inductive SocketErrorKind
  | active
  | security (violation : PathViolation)
  | alreadyRunning
  | replaced
deriving DecidableEq

inductive SocketError
  | io (error : IoError)
  | path (error : TransportPathError)
  | kind (path : EndpointPath) (kind : SocketErrorKind)
deriving DecidableEq

def ExpectedType.Matches : ExpectedType → FileKind → Prop
  | .directory, kind => kind = .directory
  | .regularFile, kind => kind = .regularFile
  | .socket, kind => kind = .socket

instance (expected : ExpectedType) (kind : FileKind) : Decidable (expected.Matches kind) := by
  cases expected <;> unfold ExpectedType.Matches <;> infer_instance

/-- `validate_metadata`. -/
def validateMetadata (euid : Nat) (path : EndpointPath) (metadata : Metadata)
    (expectedType : ExpectedType) (expectedMode : Nat) : Except TransportPathError Unit :=
  if ¬ expectedType.Matches metadata.kind then
    .error (.invalid path (.wrongType expectedType))
  else if metadata.uid ≠ euid then .error (.invalid path (.wrongOwner euid metadata.uid))
  else if metadata.mode ≠ expectedMode then
    .error (.invalid path (.wrongMode expectedMode metadata.mode))
  else .ok ()

theorem validateMetadata_ok_iff {euid : Nat} {path : EndpointPath} {metadata : Metadata}
    {expectedType : ExpectedType} {expectedMode : Nat} :
    validateMetadata euid path metadata expectedType expectedMode = .ok () ↔
      expectedType.Matches metadata.kind ∧ metadata.uid = euid ∧ metadata.mode = expectedMode := by
  unfold validateMetadata
  split
  · rename_i hkind
    exact ⟨nofun, fun h => absurd h.1 hkind⟩
  rename_i hkind
  split
  · rename_i hown
    exact ⟨nofun, fun h => absurd h.2.1 hown⟩
  rename_i hown
  split
  · rename_i hmode
    exact ⟨nofun, fun h => absurd h.2.2 hmode⟩
  rename_i hmode
  exact ⟨fun _ => ⟨not_not.mp hkind, not_not.mp hown, not_not.mp hmode⟩, fun _ => rfl⟩

/-! ## §3  System calls -/

/-- The descriptors a process holds, one of each at most. -/
inductive Slot
  | runDir
  | lock
  | listener
deriving DecidableEq

inductive Call
  | lstat (path : EndpointPath)
  | mkdir (mode : Nat)
  | openDir
  /-- `open` of the lock with `O_CREAT` and `O_EXCL`. -/
  | createLock (mode : Nat)
  | openLock
  | fchmod (slot : Slot) (mode : Nat)
  | fstat (slot : Slot)
  | flock
  | connect
  | unlink
  | bind
  | listen
  | accept
  /-- `chmod` of the socket's path. -/
  | chmod (mode : Nat)
  | close (slot : Slot)
deriving DecidableEq

@[reducible] def Call.Answer : Call → Type
  | .lstat _ => Except Errno Metadata
  | .fstat _ => Except Errno FileIdentity
  | .close _ => Unit
  | _ => Except Errno Unit

/-- A descriptor. The lock's is active where it holds the lock, the listener's where it
listens. -/
structure Handle where
  thread : Nat
  slot : Slot
  identity : FileIdentity
  active : Bool
deriving DecidableEq

/-- What is at the paths, and who has it open. -/
structure Site where
  runDir : Option Metadata
  lockFile : Option Metadata
  socket : Option Metadata
  handles : List Handle

/-- What the kernel is free to choose: whether a call fails for a reason of its own, the
inode of a new file, the mask on its mode, whether a listener has no room for one more
connection or nobody waiting to be accepted, and what `fchmod` does with a socket. -/
structure Choice where
  fault : Option Nat := none
  fresh : FileIdentity
  umask : Nat := 0o22
  refuses : Bool := false
  waits : Bool := true
  rejects : Bool := true
  reaches : Bool := true

namespace Site

def node (s : Site) : EndpointPath → Option Metadata
  | .runDir => s.runDir
  | .lock => s.lockFile
  | .socket => s.socket

/-- No file at the paths and no open one has this identity. -/
def Unused (s : Site) (identity : FileIdentity) : Prop :=
  (∀ path ∈ [EndpointPath.runDir, .lock, .socket], ∀ m ∈ s.node path, m.identity ≠ identity) ∧
    ∀ h ∈ s.handles, h.identity ≠ identity

instance (s : Site) (identity : FileIdentity) : Decidable (s.Unused identity) :=
  inferInstanceAs (Decidable (_ ∧ _))

def handle (s : Site) (thread : Nat) (slot : Slot) : Option Handle :=
  s.handles.find? fun h => decide (h.thread = thread ∧ h.slot = slot)

def opened (s : Site) (thread : Nat) (slot : Slot) (identity : FileIdentity) : Site :=
  { s with handles := s.handles ++ [⟨thread, slot, identity, false⟩] }

def activated (s : Site) (thread : Nat) (slot : Slot) : Site :=
  { s with
    handles := s.handles.map fun h =>
      if h.thread = thread ∧ h.slot = slot then { h with active := true } else h }

def closed (s : Site) (thread : Nat) (slot : Slot) : Site :=
  { s with handles := s.handles.filter fun h => decide (¬ (h.thread = thread ∧ h.slot = slot)) }

/-- A process is gone. -/
def reaped (s : Site) (thread : Nat) : Site :=
  { s with handles := s.handles.filter fun h => decide (h.thread ≠ thread) }

/-- The lock of this file is held by another process. -/
def LockedBesides (s : Site) (thread : Nat) (identity : FileIdentity) : Prop :=
  ∃ h ∈ s.handles, h.slot = .lock ∧ h.active = true ∧ h.identity = identity ∧ h.thread ≠ thread

instance (s : Site) (thread : Nat) (identity : FileIdentity) :
    Decidable (s.LockedBesides thread identity) :=
  inferInstanceAs (Decidable (∃ h ∈ s.handles, _))

def Listens (s : Site) (identity : FileIdentity) : Prop :=
  ∃ h ∈ s.handles, h.slot = .listener ∧ h.active = true ∧ h.identity = identity

instance (s : Site) (identity : FileIdentity) : Decidable (s.Listens identity) :=
  inferInstanceAs (Decidable (∃ h ∈ s.handles, _))

end Site

/-- A file that has this identity gets the mode. -/
def withMode (identity : FileIdentity) (mode : Nat) (metadata : Metadata) : Metadata :=
  if metadata.identity = identity then { metadata with mode := mode } else metadata

def masked (mode umask : Nat) : Nat := mode &&& (0o7777 ^^^ (umask &&& 0o7777))

section

variable (euid : Nat)

/-- A new file of the process. -/
def Choice.created (choice : Choice) (kind : FileKind) (mode : Nat) : Metadata where
  identity := choice.fresh
  kind := kind
  uid := euid
  mode := masked mode choice.umask

def badDescriptor : Errno := .other 9

namespace Site

variable (s : Site) (thread : Nat)

def lstat (path : EndpointPath) : Except Errno Metadata × Site :=
  match s.node path with
  | none => (.error .noEnt, s)
  | some metadata => (.ok metadata, s)

def mkdir (mode : Nat) (choice : Choice) : Except Errno Unit × Site :=
  match s.runDir with
  | some _ => (.error .exist, s)
  | none => (.ok (), { s with runDir := some (choice.created euid .directory mode) })

def openDir : Except Errno Unit × Site :=
  match s.runDir with
  | none => (.error .noEnt, s)
  | some metadata =>
      if metadata.kind = .directory then (.ok (), s.opened thread .runDir metadata.identity)
      else (.error (.other 20), s)

def createLock (mode : Nat) (choice : Choice) : Except Errno Unit × Site :=
  if s.runDir.isNone then (.error .noEnt, s)
  else
    match s.lockFile with
    | some _ => (.error .exist, s)
    | none =>
        (.ok (),
          { s with lockFile := some (choice.created euid .regularFile mode) }.opened thread .lock
            choice.fresh)

def openLock : Except Errno Unit × Site :=
  match s.lockFile with
  | none => (.error .noEnt, s)
  | some metadata =>
      if metadata.kind = .symlink then (.error .loop, s)
      else if metadata.kind = .regularFile then
        (.ok (), s.opened thread .lock metadata.identity)
      else (.error (.other 6), s)

def fchmod (slot : Slot) (mode : Nat) (choice : Choice) : Except Errno Unit × Site :=
  match s.handle thread slot with
  | none => (.error badDescriptor, s)
  | some h =>
      match slot with
      | .runDir => (.ok (), { s with runDir := s.runDir.map (withMode h.identity mode) })
      | .lock => (.ok (), { s with lockFile := s.lockFile.map (withMode h.identity mode) })
      | .listener =>
          if choice.rejects then (.error .inval, s)
          else if choice.reaches then
            (.ok (), { s with socket := s.socket.map (withMode h.identity mode) })
          else (.ok (), s)

def fstat (slot : Slot) : Except Errno FileIdentity × Site :=
  match s.handle thread slot with
  | none => (.error badDescriptor, s)
  | some h => (.ok h.identity, s)

def flock : Except Errno Unit × Site :=
  match s.handle thread .lock with
  | none => (.error badDescriptor, s)
  | some h =>
      if s.LockedBesides thread h.identity then (.error .wouldBlock, s)
      else (.ok (), s.activated thread .lock)

def connect (choice : Choice) : Except Errno Unit × Site :=
  match s.socket with
  | none => (.error .noEnt, s)
  | some metadata =>
      if metadata.kind ≠ .socket then (.error (.other 38), s)
      else if s.Listens metadata.identity ∧ choice.refuses = false then (.ok (), s)
      else (.error .connRefused, s)

def unlink : Except Errno Unit × Site :=
  match s.socket with
  | none => (.error .noEnt, s)
  | some metadata =>
      if metadata.kind = .directory then (.error (.other 1), s)
      else (.ok (), { s with socket := none })

def bind (choice : Choice) : Except Errno Unit × Site :=
  if s.runDir.isNone then (.error .noEnt, s)
  else
    match s.socket with
    | some _ => (.error .addrInUse, s)
    | none =>
        (.ok (),
          { s with socket := some (choice.created euid .socket 0o777) }.opened thread .listener
            choice.fresh)

def listen : Except Errno Unit × Site :=
  match s.handle thread .listener with
  | none => (.error badDescriptor, s)
  | some _ => (.ok (), s.activated thread .listener)

def accept (choice : Choice) : Except Errno Unit × Site :=
  match s.handle thread .listener with
  | none => (.error badDescriptor, s)
  | some _ => if choice.waits then (.error .wouldBlock, s) else (.ok (), s)

def chmod (mode : Nat) : Except Errno Unit × Site :=
  match s.socket with
  | none => (.error .noEnt, s)
  | some metadata =>
      if metadata.kind = .symlink then (.ok (), s)
      else (.ok (), { s with socket := some { metadata with mode := mode } })

/-- A call that does not fail for a reason of its own. -/
def answer : (c : Call) → Choice → c.Answer × Site
  | .lstat path, _ => s.lstat path
  | .mkdir mode, choice => s.mkdir euid mode choice
  | .openDir, _ => s.openDir thread
  | .createLock mode, choice => s.createLock euid thread mode choice
  | .openLock, _ => s.openLock thread
  | .fchmod slot mode, choice => s.fchmod thread slot mode choice
  | .fstat slot, _ => s.fstat thread slot
  | .flock, _ => s.flock thread
  | .connect, choice => s.connect choice
  | .unlink, _ => s.unlink
  | .bind, choice => s.bind euid thread choice
  | .listen, _ => s.listen thread
  | .accept, choice => s.accept thread choice
  | .chmod mode, _ => s.chmod mode
  | .close slot, _ => ((), s.closed thread slot)

/-- A call that does. A descriptor is closed all the same. -/
def failed (code : Nat) : (c : Call) → c.Answer × Site
  | .close slot => ((), s.closed thread slot)
  | .lstat _ => (.error (.other code), s)
  | .fstat _ => (.error (.other code), s)
  | .mkdir _ => (.error (.other code), s)
  | .openDir => (.error (.other code), s)
  | .createLock _ => (.error (.other code), s)
  | .openLock => (.error (.other code), s)
  | .fchmod _ _ => (.error (.other code), s)
  | .flock => (.error (.other code), s)
  | .connect => (.error (.other code), s)
  | .unlink => (.error (.other code), s)
  | .bind => (.error (.other code), s)
  | .listen => (.error (.other code), s)
  | .accept => (.error (.other code), s)
  | .chmod _ => (.error (.other code), s)

end Site

def kernel : Kernel Call Call.Answer Site Choice where
  possible := fun s choice => s.Unused choice.fresh
  perform := fun s thread c choice =>
    match choice.fault with
    | some code => s.failed thread code c
    | none => s.answer euid thread c choice

variable {euid} in
theorem perform_failed {s : Site} {thread : Nat} {c : Call} {choice : Choice} {code : Nat}
    (h : choice.fault = some code) :
    (kernel euid).perform s thread c choice = s.failed thread code c := by
  simp only [kernel, h]

variable {euid} in
theorem perform_answers {s : Site} {thread : Nat} {c : Call} {choice : Choice}
    (h : choice.fault = none) :
    (kernel euid).perform s thread c choice = s.answer euid thread c choice := by
  simp only [kernel, h]

/-! ## §4  The run directory and the lock -/

abbrev Sys := Program Call Call.Answer

def sys (c : Call) : Sys c.Answer := .ask c

/-- `map_err(|source| TransportPathError::io(path, source))?` -/
def orIo {α : Type} (path : EndpointPath) (x : Sys (Except Errno α)) :
    ExceptT TransportPathError Sys α :=
  ExceptT.mk do return (← x).mapError fun e => .io path (.os e)

/-- The same in a function that returns a `SocketError`. -/
def orPathIo {α : Type} (path : EndpointPath) (x : Sys (Except Errno α)) :
    ExceptT SocketError Sys α :=
  (orIo path x).adapt .path

/-- A result that is known without a call. -/
def known {α ε : Type} (x : Except ε α) : ExceptT ε Sys α := ExceptT.mk (pure x)

def refuseIf {ε : Type} (c : Prop) [Decidable c] (e : ε) : ExceptT ε Sys Unit :=
  known (if c then .error e else .ok ())

def onlyIf {ε : Type} (c : Bool) (x : ExceptT ε Sys Unit) : ExceptT ε Sys Unit :=
  if c then x else known (.ok ())

/-- The descriptor goes out of scope after the body, however that ends. -/
def closing {α ε : Type} (slot : Slot) (body : ExceptT ε Sys α) : ExceptT ε Sys α :=
  ExceptT.mk do
    let result ← body.run
    sys (.close slot)
    return result

/-- The last part of `ensure_run_dir`, with the directory open. -/
def checkOpenedDir (created : Bool) : ExceptT TransportPathError Sys Unit := do
  onlyIf created (orIo .runDir (sys (.fchmod .runDir runDirMode)))
  let metadata ← orIo .runDir (sys (.lstat .runDir))
  let identity ← orIo .runDir (sys (.fstat .runDir))
  refuseIf (identity ≠ metadata.identity) (.invalid .runDir .replaced)
  known (validateMetadata euid .runDir metadata .directory runDirMode)

/-- The first part: the directory is there, or is made. -/
def provideRunDir : ExceptT TransportPathError Sys Bool := do
  match ← sys (.lstat .runDir) with
  | .ok metadata =>
      refuseIf (metadata.kind = .symlink) (.invalid .runDir .symlink)
      known (validateMetadata euid .runDir metadata .directory runDirMode)
      return false
  | .error .noEnt =>
      orIo .runDir (sys (.mkdir runDirMode))
      return true
  | .error e => throw (.io .runDir (.os e))

def ensureRunDir : ExceptT TransportPathError Sys Unit := do
  let created ← provideRunDir euid
  orIo .runDir (sys .openDir)
  closing .runDir (checkOpenedDir euid created)

def openLockFile : ExceptT TransportPathError Sys Bool := do
  match ← sys (.createLock lockFileMode) with
  | .ok () => return true
  | .error .exist =>
      match ← sys .openLock with
      | .ok () => return false
      | .error .loop => throw (.invalid .lock .symlink)
      | .error e => throw (.io .lock (.os e))
  | .error .loop => throw (.invalid .lock .symlink)
  | .error e => throw (.io .lock (.os e))

structure UnixLock where
  identity : FileIdentity
deriving DecidableEq

/-- `UnixLock::acquire` with the file open. -/
def lockOpened (created : Bool) : ExceptT SocketError Sys UnixLock := do
  onlyIf created (orPathIo .lock (sys (.fchmod .lock lockFileMode)))
  let metadata ← orPathIo .lock (sys (.lstat .lock))
  (known (validateMetadata euid .lock metadata .regularFile lockFileMode)).adapt .path
  let identity ← orPathIo .lock (sys (.fstat .lock))
  refuseIf (identity ≠ metadata.identity) (.kind .lock .replaced)
  match ← sys .flock with
  | .ok () => return ⟨identity⟩
  | .error .wouldBlock => throw (.kind .lock .alreadyRunning)
  | .error e => throw (.path (.io .lock (.os e)))

/-- The file is closed where it is not handed over. -/
def closingOnError {α : Type} (slot : Slot) (body : ExceptT SocketError Sys α) :
    ExceptT SocketError Sys α :=
  ExceptT.mk do
    match ← body.run with
    | .ok a => return .ok a
    | .error e =>
        sys (.close slot)
        return .error e

def UnixLock.acquire : ExceptT SocketError Sys UnixLock := do
  let created ← openLockFile.adapt .path
  closingOnError .lock (lockOpened euid created)

/-! ## §5  The socket -/

/-- The part of `prepare_socket_path` after a refused connection. -/
def removeStale (identity : FileIdentity) : ExceptT SocketError Sys Unit := do
  match ← sys (.lstat .socket) with
  | .error .noEnt => return
  | .error e => throw (.path (.io .socket (.os e)))
  | .ok latest =>
      if latest.kind = .symlink ∨ latest.identity ≠ identity then return
      else do
        (known (validateMetadata euid .socket latest .socket socketMode)).adapt .path
        orPathIo .socket (sys .unlink)

def prepareSocketPath : ExceptT SocketError Sys Unit := do
  match ← sys (.lstat .socket) with
  | .error .noEnt => return
  | .error e => throw (.path (.io .socket (.os e)))
  | .ok metadata =>
      refuseIf (metadata.kind = .symlink) (.path (.invalid .socket .symlink))
      (known (validateMetadata euid .socket metadata .socket socketMode)).adapt .path
      match ← sys .connect with
      | .ok () => throw (.kind .socket .active)
      | .error .connRefused => removeStale euid metadata.identity
      | .error .noEnt => removeStale euid metadata.identity
      | .error e => throw (.io (.os e))

/-- `UnixListener::bind` of the standard library. -/
def bindUnix : ExceptT SocketError Sys Unit := do
  match ← sys .bind with
  | .error e => throw (.io (.os e))
  | .ok () =>
      closingOnError .listener do
        match ← sys .listen with
        | .error e => throw (.io (.os e))
        | .ok () => return

/-- The fallback of `set_socket_mode` for a descriptor that `fchmod` does not take. -/
def chmodPath : ExceptT IoError Sys Unit := do
  let before ← ExceptT.adapt .os (ExceptT.mk (sys (.lstat .socket)))
  refuseIf (before.kind = .symlink)
    (.permissionDenied "socket path was replaced by a symlink")
  refuseIf (before.kind ≠ .socket)
    (.permissionDenied "socket path was replaced by a non-socket")
  ExceptT.adapt .os (ExceptT.mk (sys (.chmod socketMode)))
  let after ← ExceptT.adapt .os (ExceptT.mk (sys (.lstat .socket)))
  refuseIf (after.kind ≠ .socket)
    (.permissionDenied "socket path was replaced by a non-socket")
  refuseIf (before.identity ≠ after.identity)
    (.permissionDenied "socket path was replaced while setting permissions")

def setSocketMode : ExceptT IoError Sys Unit := do
  match ← sys (.fchmod .listener socketMode) with
  | .ok () => return
  | .error .inval => chmodPath
  | .error e => throw (.os e)

/-! ## §6  The listener -/

structure SecureUnixListener where
  lock : UnixLock
  identity : FileIdentity
deriving DecidableEq

/-- `SecureUnixListener::bind` with the listener bound. -/
def secureBound (lock : UnixLock) : ExceptT SocketError Sys SecureUnixListener := do
  setSocketMode.adapt fun e => .path (.io .socket e)
  let metadata ← orPathIo .socket (sys (.lstat .socket))
  (known (validateMetadata euid .socket metadata .socket socketMode)).adapt .path
  return ⟨lock, metadata.identity⟩

/-- With the lock held. -/
def bindLocked (lock : UnixLock) : ExceptT SocketError Sys SecureUnixListener := do
  prepareSocketPath euid
  bindUnix
  closingOnError .listener (secureBound euid lock)

namespace SecureUnixListener

def bind : ExceptT SocketError Sys SecureUnixListener := do
  (ensureRunDir euid).adapt .path
  let lock ← UnixLock.acquire euid
  closingOnError .lock (bindLocked euid lock)

def validateSocket (listener : SecureUnixListener) : ExceptT SocketError Sys Unit := do
  let metadata ← orPathIo .socket (sys (.lstat .socket))
  (known (validateMetadata euid .socket metadata .socket socketMode)).adapt .path
  refuseIf (metadata.identity ≠ listener.identity) (.kind .socket .replaced)

/-- The accepted stream is somebody else's business. -/
def accept (listener : SecureUnixListener) : ExceptT SocketError Sys Unit := do
  listener.validateSocket euid
  match ← sys .accept with
  | .error e => throw (.io (.os e))
  | .ok () => listener.validateSocket euid

def cleanup (listener : SecureUnixListener) : ExceptT SocketError Sys Bool := do
  match ← sys (.lstat .socket) with
  | .error .noEnt => return false
  | .error e => throw (.path (.io .socket (.os e)))
  | .ok metadata =>
      if metadata.kind = .symlink then return false
      else if metadata.identity ≠ listener.identity then return false
      else do
        (known (validateMetadata euid .socket metadata .socket socketMode)).adapt .path
        orPathIo .socket (sys .unlink)
        return true

/-- `drop`: the clean-up, then the fields in their order. -/
def drop (listener : SecureUnixListener) : Sys Unit := do
  let _ ← (listener.cleanup euid).run
  sys (.close .listener)
  sys (.close .lock)

end SecureUnixListener

/-- What the Host does up to its listener: `TransportPaths::new`, then the bind. -/
def startHost : ExceptT SocketError Sys SecureUnixListener := do
  (ensureRunDir euid).adapt .path
  SecureUnixListener.bind euid

def connectUnix : ExceptT SocketError Sys Unit := do
  (ensureRunDir euid).adapt .path
  let before ← orPathIo .socket (sys (.lstat .socket))
  (known (validateMetadata euid .socket before .socket socketMode)).adapt .path
  match ← sys .connect with
  | .error e => throw (.io (.os e))
  | .ok () =>
      let after ← orPathIo .socket (sys (.lstat .socket))
      (known (validateMetadata euid .socket after .socket socketMode)).adapt .path
      refuseIf (before.identity ≠ after.identity) (.kind .socket .replaced)

/-! ## §7  Processes side by side -/

/-- A process: a host that binds, accepts now and then, and cleans up, or a client. -/
inductive Thread
  | binding (p : Sys (Except SocketError SecureUnixListener))
  | serving (listener : SecureUnixListener) (p : Sys (Except SocketError Unit))
  | dropping (p : Sys Unit)
  | connecting (p : Sys (Except SocketError Unit))
  | gone

/-- The next call of a process, and what it is after the answer. -/
def Thread.asks : Thread → Option ((c : Call) × (c.Answer → Thread))
  | .binding (.call c next) => some ⟨c, fun r => .binding (next r)⟩
  | .serving listener (.call c next) => some ⟨c, fun r => .serving listener (next r)⟩
  | .dropping (.call c next) => some ⟨c, fun r => .dropping (next r)⟩
  | .connecting (.call c next) => some ⟨c, fun r => .connecting (next r)⟩
  | _ => none

/-- Where a process is at the end of a program. -/
def Thread.returns : Thread → Option Thread
  | .binding (.done (.ok listener)) => some (.serving listener (.done (.ok ())))
  | .binding (.done (.error _)) => some .gone
  | .dropping (.done _) => some .gone
  | .connecting (.done _) => some .gone
  | _ => none

/-- The listener of a host between two calls of `accept`. -/
def Thread.idle : Thread → Option SecureUnixListener
  | .serving listener (.done _) => some listener
  | _ => none

structure World where
  site : Site
  threads : List Thread

inductive Step
  | startsHost
  | startsClient
  | calls (thread : Nat) (choice : Choice)
  | returns (thread : Nat)
  | accepts (thread : Nat)
  | drops (thread : Nat)
  | dies (thread : Nat)

namespace World

def quiet (s : Site) : World := ⟨s, []⟩

/-- The process makes its next call. -/
def calls (w : World) (thread : Nat) (choice : Choice) : World :=
  match w.threads[thread]?.bind Thread.asks with
  | none => w
  | some ⟨c, next⟩ =>
      { site := ((kernel euid).perform w.site thread c choice).2
        threads := w.threads.set thread (next ((kernel euid).perform w.site thread c choice).1) }

def becomes (w : World) (thread : Nat) (next : Option Thread) : World :=
  match next with
  | none => w
  | some t => { w with threads := w.threads.set thread t }

def Enabled (w : World) : Step → Prop
  | .startsHost => True
  | .startsClient => True
  | .calls _ choice => w.site.Unused choice.fresh
  | .returns _ => True
  | .accepts _ => True
  | .drops _ => True
  | .dies _ => True

instance (w : World) (call : Step) : Decidable (w.Enabled call) := by
  cases call <;> unfold Enabled <;> infer_instance

def step (w : World) : Step → World
  | .startsHost => { w with threads := w.threads ++ [.binding (startHost euid)] }
  | .startsClient => { w with threads := w.threads ++ [.connecting (connectUnix euid)] }
  | .calls thread choice => w.calls euid thread choice
  | .returns thread => w.becomes thread (w.threads[thread]?.bind Thread.returns)
  | .accepts thread =>
      w.becomes thread
        ((w.threads[thread]?.bind Thread.idle).map fun listener =>
          .serving listener (listener.accept euid))
  | .drops thread =>
      w.becomes thread
        ((w.threads[thread]?.bind Thread.idle).map fun listener => .dropping (listener.drop euid))
  | .dies thread => { site := w.site.reaped thread, threads := w.threads.set thread .gone }

def machine : Machine World Step where
  enabled := Enabled
  step := step euid

instance (w : World) (call : Step) : Decidable ((machine euid).enabled w call) :=
  inferInstanceAs (Decidable (w.Enabled call))

end World

end

end Endpoint

end Rpc

end NextInfra
