import NextInfra.Bridge.Availability
import NextInfra.Lib.SystemCalls

/-!
# The marker of the user's quit

`persist_user_quit` writes the marker beside its place and renames it over,
`clear_user_quit` removes it, and `inspect_user_quit` answers from whatever is in the
marker's place. The disk is what is at the integration's paths, and every system call of
the three may fail or be the last thing its process did.
-/

namespace NextInfra

namespace UserQuit

open Bridge (Metadata UserQuitInspection UserQuitMarker validateDirectory validateRegularFile)
open SystemCall (cleaning)

/-! ## §1  The disk -/

def directoryMode : Nat := 0o700

def recordMode : Nat := 0o600

inductive IntegrationError
  | missing (label : String)
  | invalid (label : String)
  | io
deriving DecidableEq

/-- The kinds of `std::io::Error` the routines tell apart. -/
inductive ErrorKind
  | notFound
  | other
deriving DecidableEq

structure DirEntry where
  metadata : Metadata
  content : String

/-- The state directory: the marker, and the temporary files by process id. -/
structure StateDir where
  metadata : Metadata
  marker : Option DirEntry
  temporary : Nat → Option DirEntry

structure Root where
  metadata : Metadata
  stateDir : Option StateDir

/-- What is at the paths of an integration, from the root down. -/
structure Disk where
  root : Option Root

inductive Directory
  | root
  | stateDir
deriving DecidableEq

namespace Disk

def empty : Disk := ⟨none⟩

def stateDir (disk : Disk) : Option StateDir := disk.root.bind (·.stateDir)

def marker (disk : Disk) : Option DirEntry := disk.stateDir.bind (·.marker)

def temporary (disk : Disk) (pid : Nat) : Option DirEntry :=
  disk.stateDir.bind (·.temporary pid)

def metadata (disk : Disk) : Directory → Option Metadata
  | .root => disk.root.map (·.metadata)
  | .stateDir => disk.stateDir.map (·.metadata)

def mapStateDir (disk : Disk) (f : StateDir → StateDir) : Disk :=
  ⟨disk.root.map fun root => { root with stateDir := root.stateDir.map f }⟩

def setMarker (disk : Disk) (entry : Option DirEntry) : Disk :=
  disk.mapStateDir fun dir => { dir with marker := entry }

def setTemporary (disk : Disk) (pid : Nat) (entry : Option DirEntry) : Disk :=
  disk.mapStateDir fun dir => { dir with temporary := Function.update dir.temporary pid entry }

/-- The permission bits of `st_mode` are replaced, its file type is kept. -/
def withMode (metadata : Metadata) (mode : Nat) : Metadata :=
  { metadata with mode := metadata.mode >>> 12 <<< 12 ||| mode }

def chmod (disk : Disk) (mode : Nat) : Directory → Disk
  | .root => ⟨disk.root.map fun root => { root with metadata := withMode root.metadata mode }⟩
  | .stateDir => disk.mapStateDir fun dir => { dir with metadata := withMode dir.metadata mode }

def mkdir (disk : Disk) (metadata : Metadata) : Directory → Disk
  | .root => ⟨some ⟨metadata, none⟩⟩
  | .stateDir =>
      ⟨disk.root.map fun root => { root with stateDir := some ⟨metadata, none, fun _ => none⟩ }⟩

end Disk

/-- A directory whose owner may look into it. -/
structure OwnDirectory (euid : Nat) (m : Metadata) : Prop where
  notSymlink : m.isSymlink = false
  isDir : m.isDir = true
  owner : m.uid = euid
  mode : m.mode &&& 0o700 = 0o700

/-- A marker as `validate_regular_file` wants it. -/
structure OwnFile (euid : Nat) (m : Metadata) : Prop where
  regular : validateRegularFile euid m recordMode = true
  notDir : m.isDir = false

/-- The kernel under the routines: how a lookup through a directory fails, and the
metadata of what is created. The process's file mode mask takes nothing from the owner. -/
structure Kernel where
  euid : Nat
  lookup : Option Metadata → Option ErrorKind
  newDirectory : Disk → Metadata
  newFile : Disk → Metadata
  lookup_none : lookup none = some .notFound
  lookup_own : ∀ m, OwnDirectory euid m → lookup (some m) = none
  newDirectory_own : ∀ disk, OwnDirectory euid (newDirectory disk)
  newFile_own : ∀ disk, OwnFile euid (newFile disk)

/-! ## §2  The routines -/

/-- The system calls of the routines, by their place in the code. `.lstatAgain` is the call
in `validate_directory`. -/
inductive Site
  | lstat (dir : Directory)
  | createDirAll (dir : Directory)
  | setPermissions (dir : Directory)
  | lstatAgain (dir : Directory)
  | openTemporary
  | write
  | syncFile
  | rename
  | openDirectory
  | syncDirectory
  | removeTemporary
  | lstatMarker
  | removeMarker
  | lstatMarkerAgain
  | readMarker
deriving DecidableEq

/-- How each call ends, and how much of a write that does not go is on disk. -/
structure Faults where
  fate : Site → Fate
  written : Nat

abbrev Calls := Attempt (Halt IntegrationError) Disk

def markerText : String := "\x7b\"schema_version\":1,\"user_quit\":true\x7d"

/-- `map_missing` -/
def mapMissing (label : String) : ErrorKind → IntegrationError
  | .notFound => .missing label
  | .other => .io

namespace Kernel

variable (kernel : Kernel)

/-- The lookup of a directory's own path. -/
def reach (disk : Disk) : Directory → Option ErrorKind
  | .root => none
  | .stateDir => kernel.lookup (disk.metadata .root)

/-- The lookup of a path in the state directory. -/
def inside (disk : Disk) : Option ErrorKind :=
  kernel.lookup (disk.metadata .root) <|> kernel.lookup (disk.metadata .stateDir)

def lstat (dir : Directory) : SystemCall ErrorKind Disk Metadata where
  effect disk :=
    match kernel.reach disk dir, disk.metadata dir with
    | some kind, _ => (.error kind, disk)
    | none, none => (.error .notFound, disk)
    | none, some m => (.ok m, disk)

/-- The parents of the root are not part of the disk. -/
def createDirAll (dir : Directory) : SystemCall ErrorKind Disk Unit where
  effect disk :=
    match kernel.reach disk dir, disk.metadata dir with
    | some kind, _ => (.error kind, disk)
    | none, none => (.ok (), disk.mkdir (kernel.newDirectory disk) dir)
    | none, some m => (if m.isDir then .ok () else .error .other, disk)

def setPermissions (dir : Directory) (mode : Nat) : SystemCall ErrorKind Disk Unit where
  effect disk :=
    match kernel.reach disk dir, disk.metadata dir with
    | some kind, _ => (.error kind, disk)
    | none, none => (.error .notFound, disk)
    | none, some _ => (.ok (), disk.chmod mode dir)

def lstatMarker : SystemCall ErrorKind Disk Metadata where
  effect disk :=
    match kernel.inside disk, disk.marker with
    | some kind, _ => (.error kind, disk)
    | none, none => (.error .notFound, disk)
    | none, some entry => (.ok entry.metadata, disk)

def readMarker : SystemCall ErrorKind Disk String where
  effect disk :=
    match kernel.inside disk, disk.marker with
    | some kind, _ => (.error kind, disk)
    | none, none => (.error .notFound, disk)
    | none, some entry => (if entry.metadata.isDir then .error .other else .ok entry.content, disk)

/-- `create_new` takes no file that is there already, and no link. -/
def openTemporary (pid : Nat) : SystemCall ErrorKind Disk Unit where
  effect disk :=
    match kernel.inside disk, disk.temporary pid with
    | some kind, _ => (.error kind, disk)
    | none, some _ => (.error .other, disk)
    | none, none => (.ok (), disk.setTemporary pid (some ⟨kernel.newFile disk, ""⟩))

/-- The file is open: its path is not looked up again. -/
def write (pid written : Nat) : SystemCall ErrorKind Disk Unit where
  effect disk :=
    (.ok (), disk.setTemporary pid
      ((disk.temporary pid).map fun entry => { entry with content := markerText }))
  torn disk :=
    disk.setTemporary pid
      ((disk.temporary pid).map fun entry =>
        { entry with content := (markerText.take written).toString })

/-- A file takes the place of another file, but not that of a directory. -/
def rename (pid : Nat) : SystemCall ErrorKind Disk Unit where
  effect disk :=
    match kernel.inside disk, disk.temporary pid with
    | some kind, _ => (.error kind, disk)
    | none, none => (.error .notFound, disk)
    | none, some entry =>
        if disk.marker.any (·.metadata.isDir) then (.error .other, disk)
        else (.ok (), (disk.setTemporary pid none).setMarker (some entry))

def openDirectory : SystemCall ErrorKind Disk Unit where
  effect disk :=
    match kernel.inside disk with
    | some kind => (.error kind, disk)
    | none => (.ok (), disk)

/-- `sync_all`, of a file or of a directory: readers see no difference. -/
def syncAll : SystemCall ErrorKind Disk Unit where
  effect disk := (.ok (), disk)

def removeTemporary (pid : Nat) : SystemCall ErrorKind Disk Unit where
  effect disk :=
    match kernel.inside disk, disk.temporary pid with
    | some kind, _ => (.error kind, disk)
    | none, none => (.error .notFound, disk)
    | none, some entry =>
        if entry.metadata.isDir then (.error .other, disk) else (.ok (), disk.setTemporary pid none)

def removeMarker : SystemCall ErrorKind Disk Unit where
  effect disk :=
    match kernel.inside disk, disk.marker with
    | some kind, _ => (.error kind, disk)
    | none, none => (.error .notFound, disk)
    | none, some entry =>
        if entry.metadata.isDir then (.error .other, disk) else (.ok (), disk.setMarker none)

end Kernel

section

variable (kernel : Kernel) (faults : Faults)

/-- A call whose error is `IntegrationError::Io`. -/
def io {α : Type} (call : SystemCall ErrorKind Disk α) (site : Site) : Calls α :=
  call.must .other (faults.fate site) fun _ => .io

def validateDirectoryAt (dir : Directory) : Calls Unit := do
  let metadata ← (kernel.lstat dir).must .other (faults.fate (.lstatAgain dir))
    (mapMissing "integration directory")
  if validateDirectory kernel.euid (some metadata) then pure ()
  else .fail (.returned (.invalid "integration directory"))

def ensureOwnerDirectory (dir : Directory) : Calls Unit := do
  match ← (kernel.lstat dir).run .other (faults.fate (.lstat dir)) with
  | .ok metadata =>
      if metadata.isSymlink || !metadata.isDir || decide (metadata.uid ≠ kernel.euid) then
        .fail (.returned (.invalid "integration directory"))
      else do
        if metadata.mode &&& 0o7777 ≠ directoryMode then
          io faults (kernel.setPermissions dir directoryMode) (.setPermissions dir)
        validateDirectoryAt kernel faults dir
  | .error .notFound =>
      io faults (kernel.createDirAll dir) (.createDirAll dir)
      io faults (kernel.setPermissions dir directoryMode) (.setPermissions dir)
      validateDirectoryAt kernel faults dir
  | .error .other => .fail (.returned .io)

def ensureStateDirectory : Calls Unit := do
  ensureOwnerDirectory kernel faults .root
  ensureOwnerDirectory kernel faults .stateDir

def syncDirectory : Calls Unit := do
  io faults kernel.openDirectory .openDirectory
  io faults Kernel.syncAll .syncDirectory

/-- The part of `persist_user_quit` that has a file to clean up after. -/
def publish (pid : Nat) : Calls Unit := do
  io faults (Kernel.write pid faults.written) .write
  io faults Kernel.syncAll .syncFile
  io faults (kernel.rename pid) .rename
  syncDirectory kernel faults

def persistUserQuit (pid : Nat) : Calls Unit := do
  ensureStateDirectory kernel faults
  io faults (kernel.openTemporary pid) .openTemporary
  cleaning (publish kernel faults pid) (io faults (kernel.removeTemporary pid) .removeTemporary)

def clearUserQuit : Calls Unit := do
  ensureStateDirectory kernel faults
  match ← kernel.lstatMarker.run .other (faults.fate .lstatMarker) with
  | .error .notFound => pure ()
  | .error .other => .fail (.returned .io)
  | .ok metadata =>
      if validateRegularFile kernel.euid metadata recordMode then do
        io faults kernel.removeMarker .removeMarker
        match ← kernel.lstatMarker.run .other (faults.fate .lstatMarkerAgain) with
        | .ok _ => .fail (.returned (.invalid "user quit marker replacement"))
        | .error _ => syncDirectory kernel faults
      else .fail (.returned (.invalid "integration file"))

/-- `decode` is `serde_json::from_slice::<UserQuitMarker>`. -/
def inspectUserQuit (decode : String → Option UserQuitMarker) : Calls UserQuitInspection := do
  match ← kernel.lstatMarker.run .other (faults.fate .lstatMarker) with
  | .error .notFound => pure .clear
  | .error .other => pure .suppressed
  | .ok metadata =>
      match ← (kernel.lstat .stateDir).run .other (faults.fate (.lstatAgain .stateDir)) with
      | .error _ => pure .suppressed
      | .ok stateDir =>
          if !validateDirectory kernel.euid (some stateDir) ||
              !validateRegularFile kernel.euid metadata recordMode then
            pure .suppressed
          else
            match ← kernel.readMarker.run .other (faults.fate .readMarker) with
            | .error _ => pure .suppressed
            | .ok content =>
                match decode content with
                | some ⟨1, true⟩ => pure .suppressed
                | _ => pure .suppressed

end

end UserQuit

end NextInfra
