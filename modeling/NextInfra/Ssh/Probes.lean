import Mathlib.Data.List.Sort
import Mathlib.Data.Prod.Lex
import NextInfra.Ssh.Config

/-!
# The probe parsers

One parser a probe, from the bytes of its output to what the connector keeps.
Provider text never enters an error: an error is a fixed module name and a reason.
-/

namespace NextInfra

namespace Ssh

open Text

/-! ## §1  Checked text -/

/-- `checked_text`: bounded, UTF-8, no control characters, no secrets. The three
errors are the parser's own. -/
def checkedText {ε : Type} (maxBytes : Nat) (sentinels : List String)
    (outputLimit invalidUtf8 unsafeOutput : ε) (input : List UInt8) : Except ε (List Char) :=
  if maxBytes < input.length then .error outputLimit
  else
    match String.fromUTF8? ⟨input.toArray⟩ with
    | none => .error invalidUtf8
    | some decoded =>
        let text := decoded.toList
        if text.any (fun c => isControl c && !(c == '\n' || c == '\r' || c == '\t')) then
          .error unsafeOutput
        else if sentinels.any (fun s => contains s.toList (Text.toAsciiLowercase text)) then
          .error unsafeOutput
        else .ok text

def isBlank (line : List Char) : Bool := decide (trim line = [])

def maxIdentityStdoutBytes : Nat := 64 * 1024
def maxUptimeStdoutBytes : Nat := 16 * 1024
def maxFilesystemStdoutBytes : Nat := 256 * 1024
def maxProcessStdoutBytes : Nat := 256 * 1024
def maxFilesystemEntries : Nat := 128
def maxProcessRows : Nat := 4096
def maxFilesystemFieldBytes : Nat := 256

def identityModule : String := "ssh.host.identity"
def uptimeModule : String := "ssh.host.uptime"
def filesystemModule : String := "ssh.host.filesystems"
def processModule : String := "ssh.host.process-summary"

inductive CommonParseErrorKind
  | missingOutput
  | invalidUtf8
  | unsafeOutput
  | outputLimit
  | missingHeader
  | malformed
  | overflow
  | rowLimit
deriving DecidableEq

structure CommonParseError where
  module_ : String
  kind : CommonParseErrorKind
deriving DecidableEq

def CommonParseError.bounded (error : CommonParseError) : Bool :=
  error.kind == .outputLimit || error.kind == .rowLimit

def CommonParseError.connectorFailure (_ : CommonParseError) : ConnectorFailure where
  code := .invalidResponse
  message := "SSH common probe response is invalid"
  retryable := false
  retryAfterMs := none

def commonText (input : List UInt8) (maxBytes : Nat) (module_ : String) :
    Except CommonParseError (List Char) :=
  checkedText maxBytes
    ["bearer ", "authorization:", "cookie:", "token=", "password=", "passwd=", "secret=",
      "-----begin", "private key"]
    ⟨module_, .outputLimit⟩ ⟨module_, .invalidUtf8⟩ ⟨module_, .unsafeOutput⟩ input

/-! ## §2  Identity -/

inductive HostPlatform
  | darwin
  | linux
deriving DecidableEq

def HostPlatform.asStr : HostPlatform → String
  | .darwin => "darwin"
  | .linux => "linux"

structure HostIdentityObservation where
  platform : HostPlatform
  architecture : String

def isArchitectureChar (c : Char) : Bool := c.isAlphanum || c == '_' || c == '.' || c == '-'

def parseIdentity (input : List UInt8) : Except CommonParseError HostIdentityObservation := do
  let malformed : CommonParseError := ⟨identityModule, .malformed⟩
  let text ← commonText input maxIdentityStdoutBytes identityModule
  let pieces := text.splitOn '\n'
  let lines := if pieces.getLast? = some [] then pieces.dropLast else pieces
  match lines with
  | [platformLine, architectureLine] =>
      let architecture := architectureLine.rdropWhile (· == '\r')
      let platform ←
        if platformLine.rdropWhile (· == '\r') = "Darwin".toList then .ok .darwin
        else if platformLine.rdropWhile (· == '\r') = "Linux".toList then .ok .linux
        else .error malformed
      if architecture = [] ∨ 64 < byteLength architecture ∨
          architecture.all isArchitectureChar = false then
        .error malformed
      else .ok { platform := platform, architecture := String.ofList architecture }
  | _ => .error malformed

/-! ## §3  Uptime -/

inductive UptimeBucket
  | lt1h
  | h1ToD1
  | d1ToD7
  | d7ToD30
  | ge30d
  | unknown
deriving DecidableEq

def UptimeBucket.asStr : UptimeBucket → String
  | .lt1h => "lt_1h"
  | .h1ToD1 => "1h_1d"
  | .d1ToD7 => "1d_7d"
  | .d7ToD30 => "7d_30d"
  | .ge30d => "ge_30d"
  | .unknown => "unknown"

def parseU64 (s : List Char) : Option Nat := parseUnsigned (2 ^ 64) s

/-- A count and a unit, and nothing after it. -/
def countedUnit (value : List Char) : Option (Nat × String) :=
  match splitAsciiWhitespace value with
  | [count, unit] => (parseU64 count).map fun n => (n, String.ofList (Text.toAsciiLowercase unit))
  | _ => none

def parseDayCount (value : List Char) : Option Nat := do
  let (count, unit) ← countedUnit value
  if unit ∈ ["day", "days"] then some count
  else if unit ∈ ["week", "weeks"] then checkedU64 (count * 7)
  else none

def parseClockMinutes (value : List Char) : Option Nat :=
  match value.splitOn ':' with
  | hours :: minutes :: rest => do
      let hours ← parseU64 hours
      let minutes ← parseU64 minutes
      -- seconds that do not parse are ignored
      let seconds := rest.head?.bind parseU64
      if 2 ≤ rest.length ∨ 60 ≤ minutes ∨ seconds.any (fun n => decide (60 ≤ n)) = true then none
      else do
        let inHours ← checkedU64 (hours * 60)
        checkedU64 (inHours + minutes)
  | _ => none

def parseUnitDurationMinutes (value : List Char) : Option Nat := do
  let (count, unit) ← countedUnit value
  if unit ∈ ["minute", "minutes", "min", "mins"] then some count
  else if unit ∈ ["hour", "hours", "hr", "hrs"] then checkedU64 (count * 60)
  else if unit ∈ ["second", "seconds", "sec", "secs"] then some (count / 60)
  else if unit ∈ ["day", "days"] then checkedU64 (count * (24 * 60))
  else if unit ∈ ["week", "weeks"] then checkedU64 (count * (7 * 24 * 60))
  else none

def bucketForMinutes (minutes : Nat) : UptimeBucket :=
  if minutes ≤ 59 then .lt1h
  else if minutes ≤ 1439 then .h1ToD1
  else if minutes ≤ 10079 then .d1ToD7
  else if minutes ≤ 43199 then .d7ToD30
  else .ge30d

/-- The minutes the segments after ` up ` write, if they write any. -/
def uptimeMinutes (first : List Char) (rest : List (List Char)) : Option Nat :=
  match parseDayCount first with
  | some days =>
      match (if days = 0 then rest.head?.bind parseClockMinutes else none) with
      | some clock => some clock
      | none => checkedU64 (days * (24 * 60))
  | none =>
      match parseClockMinutes first with
      | some clock => some clock
      | none => parseUnitDurationMinutes first

def parseUptime (input : List UInt8) : Except CommonParseError UptimeBucket := do
  let malformed : CommonParseError := ⟨uptimeModule, .malformed⟩
  let text ← commonText input maxUptimeStdoutBytes uptimeModule
  match after " up ".toList text with
  | none => .error malformed
  | some afterUp =>
      match (afterUp.splitOn ',').map trim with
      | [] => .error malformed
      | [] :: _ => .error malformed
      | first :: rest => .ok (((uptimeMinutes first rest).map bucketForMinutes).getD .unknown)

/-! ## §4  Filesystems -/

structure FilesystemEntry where
  filesystem : String
  blocksKib : Nat
  usedKib : Nat
  availableKib : Nat
  capacityPercent : Nat
  mount : String

/-- The sort key of an entry. -/
def FilesystemEntry.key (entry : FilesystemEntry) :
    String ×ₗ String ×ₗ Nat ×ₗ Nat ×ₗ Nat ×ₗ Nat :=
  toLex (entry.mount, toLex (entry.filesystem, toLex (entry.blocksKib,
    toLex (entry.usedKib, toLex (entry.availableKib, entry.capacityPercent)))))

structure FilesystemSummary where
  entries : List FilesystemEntry

def isPosixDfHeader (header : List Char) : Bool :=
  let fields := (splitAsciiWhitespace header).map String.ofList
  fields.take 5 == ["Filesystem", "1024-blocks", "Used", "Available", "Capacity"] &&
    decide (6 ≤ fields.length) &&
    (fields.zip fields.tail).any fun pair => pair == ("Mounted", "on")

def safeField (value : List Char) : Bool :=
  decide (value ≠ []) && decide (byteLength value ≤ maxFilesystemFieldBytes) &&
    !value.any isControl

def parseField (field : Option (List Char)) : Except CommonParseError Nat :=
  match field.bind digitsValue with
  | none => .error ⟨filesystemModule, .malformed⟩
  | some n => if n < 2 ^ 64 then .ok n else .error ⟨filesystemModule, .overflow⟩

def parseFilesystemRow (line : List Char) : Except CommonParseError FilesystemEntry :=
  let malformed : CommonParseError := ⟨filesystemModule, .malformed⟩
  match splitAsciiWhitespace line with
  | [] => .error malformed
  | filesystem :: fields => do
      let blocksKib ← parseField fields[0]?
      let usedKib ← parseField fields[1]?
      let availableKib ← parseField fields[2]?
      match fields[3]? with
      | none => .error malformed
      | some capacity =>
          let mount := [' '].intercalate (fields.drop 4)
          if mount = [] ∨ maxFilesystemFieldBytes < byteLength mount ∨
              maxFilesystemFieldBytes < byteLength filesystem ∨ safeField filesystem = false ∨
              safeField mount = false then
            .error malformed
          else
            match stripSuffix '%' capacity with
            | none => .error malformed
            | some digits =>
                match parseUnsigned (2 ^ 8) digits with
                | none => .error ⟨filesystemModule, .overflow⟩
                | some capacityPercent =>
                    if 100 < capacityPercent then .error malformed
                    else
                      .ok
                        { filesystem := String.ofList filesystem
                          blocksKib := blocksKib
                          usedKib := usedKib
                          availableKib := availableKib
                          capacityPercent := capacityPercent
                          mount := String.ofList mount }

/-- The loop over the rows, `count` entries in. -/
def parseFilesystemRows : Nat → List (List Char) → Except CommonParseError (List FilesystemEntry)
  | _, [] => .ok []
  | count, line :: rest =>
      if maxFilesystemEntries ≤ count then .error ⟨filesystemModule, .rowLimit⟩
      else do
        let entry ← parseFilesystemRow line
        let entries ← parseFilesystemRows (count + 1) rest
        .ok (entry :: entries)

def parseFilesystems (input : List UInt8) : Except CommonParseError FilesystemSummary := do
  let text ← commonText input maxFilesystemStdoutBytes filesystemModule
  match (lines text).filter fun line => !isBlank line with
  | [] => .error ⟨filesystemModule, .missingHeader⟩
  | header :: rows =>
      if isPosixDfHeader header = false then .error ⟨filesystemModule, .missingHeader⟩
      else do
        let entries ← parseFilesystemRows 0 rows
        .ok { entries := entries.insertionSort fun a b => a.key ≤ b.key }

/-! ## §5  Processes -/

structure ProcessSummary where
  total : Nat
  states : OrderedMap String Nat

def fixedStateCounts : OrderedMap String Nat :=
  ["running", "sleeping", "stopped", "zombie", "other"].foldl
    (fun counts state => OrderedMap.insert counts state 0) KeyedTable.empty

def stateBucket (state : Char) : String :=
  if state ∈ ['R', 'r'] then "running"
  else if state ∈ ['S', 's'] then "sleeping"
  else if state ∈ ['T', 't'] then "stopped"
  else if state ∈ ['Z', 'z'] then "zombie"
  else "other"

def countState (counts : OrderedMap String Nat) (bucket : String) : OrderedMap String Nat :=
  OrderedMap.insert counts bucket (((OrderedMap.lookup counts bucket).getD 0) + 1)

def parseProcessRows :
    ProcessSummary → List (List Char) → Except CommonParseError ProcessSummary
  | summary, [] => .ok summary
  | summary, line :: rest =>
      if maxProcessRows ≤ summary.total then .error ⟨processModule, .rowLimit⟩
      else
        match (splitAsciiWhitespace line).head?.bind List.head? with
        | none => .error ⟨processModule, .malformed⟩
        | some state =>
            -- the first byte of a character outside ASCII is not ASCII
            if 128 ≤ state.toNat then .error ⟨processModule, .malformed⟩
            else
              parseProcessRows
                { total := summary.total + 1
                  states := countState summary.states (stateBucket state) } rest

def parseProcessSummary (input : List UInt8) : Except CommonParseError ProcessSummary := do
  let text ← commonText input maxProcessStdoutBytes processModule
  parseProcessRows { total := 0, states := fixedStateCounts }
    ((lines text).filter fun line => !isBlank line)

/-! ## §6  Services -/

def serviceSentinels : List String :=
  ["bearer ", "authorization:", "token=", "password=", "secret=", "-----begin", "private key"]

inductive ServiceParseErrorKind
  | invalidUtf8
  | unsafeOutput
  | outputLimit
  /-- launchd only. -/
  | missingHeader
  | malformed
  | duplicate
  | rowLimit
deriving DecidableEq

def maxServiceStdoutBytes : Nat := 512 * 1024
def maxServiceRows : Nat := 2048
def maxServiceOutputs : Nat := 64

def serviceText (input : List UInt8) : Except ServiceParseErrorKind (List Char) :=
  checkedText maxServiceStdoutBytes serviceSentinels .outputLimit .invalidUtf8 .unsafeOutput input

/-- What the loop does with one row. -/
inductive RowStep (σ : Type)
  | skip
  | reject (kind : ServiceParseErrorKind)
  | keep (service : σ)

/-- The loop of both service parsers: `read` is a row's own part before the
duplicate check, `finish` what is read after it; `row` and `seen` are the row's
number and the ids met. Discovery (no allowlist) skips what sync rejects. -/
def parseServiceRows {ρ σ : Type} (discovery : Bool)
    (read : List Char → RowStep (ServiceId × ρ)) (finish : ServiceId → ρ → Option σ) :
    Nat → List ServiceId → List σ → List (List Char) → Except ServiceParseErrorKind (List σ)
  | _, _, services, [] => .ok services
  | row, seen, services, line :: rest =>
      if maxServiceRows ≤ row then .error .rowLimit
      else
        match read line with
        | .skip => parseServiceRows discovery read finish (row + 1) seen services rest
        | .reject kind =>
            if discovery then parseServiceRows discovery read finish (row + 1) seen services rest
            else .error kind
        | .keep (id, fields) =>
            if id ∈ seen then
              if discovery then
                parseServiceRows discovery read finish (row + 1) seen services rest
              else .error .duplicate
            else
              match finish id fields with
              | none =>
                  if discovery then
                    parseServiceRows discovery read finish (row + 1) (id :: seen) services rest
                  else .error .malformed
              | some service =>
                  if discovery && decide (maxServiceOutputs ≤ services.length) then .ok services
                  else if maxServiceOutputs < services.length + 1 then .error .rowLimit
                  else
                    parseServiceRows discovery read finish (row + 1) (id :: seen)
                      (services ++ [service]) rest

/-- The allowlist lets the id through. -/
def isAllowed (allowlist : Option (List ServiceId)) (id : List Char) : Bool :=
  match allowlist with
  | none => true
  | some ids => ids.any fun allowed => decide (allowed.val.toList = id)

structure SystemdService where
  unit : ServiceId
  loadState : String
  activeState : String
  subState : String

def validState (value : List Char) : Bool :=
  decide (value ≠ []) && decide (value.length ≤ 32) && value.all fun c => c.isLower || c == '-'

def readSystemdRow (allowlist : Option (List ServiceId)) (line : List Char) :
    RowStep (ServiceId × SystemdService) :=
  match splitAsciiWhitespace line with
  | [] => .skip
  | unit :: fields =>
      if isAllowed allowlist unit = false then .skip
      else
        match fields with
        | load :: active :: sub :: _ =>
            if h : IsServiceId unit then
              let id : ServiceId := ⟨String.ofList unit, by rw [String.toList_ofList]; exact h⟩
              if ".service".toList.isSuffixOf unit && validState load && validState active &&
                  validState sub then
                .keep (id,
                  { unit := id
                    loadState := String.ofList load
                    activeState := String.ofList active
                    subState := String.ofList sub })
              else .reject .malformed
            else .reject .malformed
        | _ => .reject .malformed

def parseSystemdServices (input : List UInt8) (allowlist : Option (List ServiceId)) :
    Except ServiceParseErrorKind (List SystemdService) := do
  let text ← serviceText input
  let services ← parseServiceRows allowlist.isNone (readSystemdRow allowlist)
    (fun _ service => some service) 0 [] [] ((lines text).filter fun line => !isBlank line)
  .ok (services.insertionSort fun a b => a.unit.val ≤ b.unit.val)

structure LaunchdService where
  serviceLabel : ServiceId
  pidPresent : Bool
  lastExitStatus : Int

def readLaunchdRow (allowlist : Option (List ServiceId)) (line : List Char) :
    RowStep (ServiceId × List Char × List Char) :=
  match (splitAsciiWhitespace line).getLast? with
  | none => .skip
  | some label =>
      if isAllowed allowlist label = false then .skip
      else
        match splitAsciiWhitespace line with
        | [pid, status, _] =>
            if h : IsServiceId label then
              .keep (⟨String.ofList label, by rw [String.toList_ofList]; exact h⟩, pid, status)
            else .reject .malformed
        | _ => .reject .malformed

/-- The columns read after the duplicate check. -/
def finishLaunchdRow (label : ServiceId) (fields : List Char × List Char) :
    Option LaunchdService :=
  let pidPresent := (parseUnsigned (2 ^ 32) fields.1).any fun pid => decide (0 < pid)
  if fields.1 ≠ ['-'] ∧ pidPresent = false then none
  else
    (parseI32 fields.2).map fun status =>
      { serviceLabel := label, pidPresent := pidPresent, lastExitStatus := status }

def parseLaunchdServices (input : List UInt8) (allowlist : Option (List ServiceId)) :
    Except ServiceParseErrorKind (List LaunchdService) := do
  let text ← serviceText input
  match (lines text).filter fun line => !isBlank line with
  | [] => .error .missingHeader
  | header :: rows =>
      if (splitAsciiWhitespace header).map String.ofList ≠ ["PID", "Status", "Label"] then
        .error .missingHeader
      else do
        let services ← parseServiceRows allowlist.isNone (readLaunchdRow allowlist)
          finishLaunchdRow 0 [] [] rows
        .ok (services.insertionSort fun a b => a.serviceLabel.val ≤ b.serviceLabel.val)

end Ssh

end NextInfra
