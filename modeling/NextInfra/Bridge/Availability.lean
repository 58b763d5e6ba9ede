import NextInfra.Lib.Attempt
import NextInfra.Rpc.Message

/-!
# How the bridge reaches the host

`ensure_host` connects, and where that fails looks for the user's quit, reads the
integration record, coordinates with other bridges, verifies and launches the App, and
then retries the connection until a deadline.

The world may change at every step: each question to it answers from its state and
moves the state on. Every question leaves an event in the trace, and the results of
§5 are about the traces of all worlds. Only the end of the retry loop needs a clock
(`Keeps`).
-/

namespace NextInfra

namespace Bridge

/-! ## §1  Durations and files -/

/-- `std::time::Duration` in nanoseconds: at most `u64::MAX` seconds. -/
structure Duration where
  nanos : Nat
  bounded : nanos < 2 ^ 64 * 10 ^ 9
deriving DecidableEq

namespace Duration

def isZero (d : Duration) : Bool := decide (d.nanos = 0)

def checkedAdd (a b : Duration) : Option Duration :=
  if h : a.nanos + b.nanos < 2 ^ 64 * 10 ^ 9 then some ⟨a.nanos + b.nanos, h⟩ else none

def saturatingSub (a b : Duration) : Duration :=
  ⟨a.nanos - b.nanos, Nat.lt_of_le_of_lt (Nat.sub_le _ _) a.bounded⟩

def saturatingDouble (a : Duration) : Duration :=
  ⟨min (a.nanos * 2) (2 ^ 64 * 10 ^ 9 - 1), by omega⟩

def least (a b : Duration) : Duration := if a.nanos ≤ b.nanos then a else b

theorem nanos_least (a b : Duration) : (a.least b).nanos = min a.nanos b.nanos := by
  unfold least
  split <;> omega

end Duration

/-- What `symlink_metadata` reports. -/
structure Metadata where
  isSymlink : Bool
  isDir : Bool
  isFile : Bool
  uid : Nat
  mode : Nat
  device : Nat
  inode : Nat
deriving DecidableEq

inductive UserQuitInspection
  | clear
  | suppressed
deriving DecidableEq

inductive MarkerFile
  | notFound
  | unreadable
  | found (metadata : Metadata)

structure UserQuitMarker where
  schemaVersion : Nat
  userQuit : Bool

/-- What `inspect_user_quit` sees: the marker's file, its directory, and what parses. -/
structure MarkerProbe where
  file : MarkerFile
  stateDir : Option Metadata
  marker : Option UserQuitMarker

def validateDirectory (euid : Nat) (metadata : Option Metadata) : Bool :=
  match metadata with
  | none => false
  | some m => !m.isSymlink && m.isDir && decide (m.uid = euid) && decide (m.mode &&& 0o7777 = 0o700)

def validateRegularFile (euid : Nat) (m : Metadata) (mode : Nat) : Bool :=
  !m.isSymlink && m.isFile && decide (m.uid = euid) && decide (m.mode &&& 0o7777 = mode)

/-- Whatever is in the marker's place suppresses; only a missing file is clear. -/
def inspectUserQuit (euid : Nat) (probe : MarkerProbe) : UserQuitInspection :=
  match probe.file with
  | .notFound => .clear
  | .unreadable => .suppressed
  | .found metadata =>
      if !validateDirectory euid probe.stateDir || !validateRegularFile euid metadata 0o600 then
        .suppressed
      else
        match probe.marker with
        | some ⟨1, true⟩ => .suppressed
        | _ => .suppressed

theorem inspectUserQuit_clear_iff {euid : Nat} {probe : MarkerProbe} :
    inspectUserQuit euid probe = .clear ↔ probe.file = .notFound := by
  unfold inspectUserQuit
  cases probe.file with
  | notFound => simp
  | unreadable => simp
  | found metadata =>
      simp only [reduceCtorEq, iff_false]
      split
      · exact nofun
      · split <;> exact nofun

structure ArtifactIdentity where
  device : Nat
  inode : Nat
  owner : Nat
  mode : Nat
deriving DecidableEq

inductive ArtifactKind
  | directory
  | regularFile

/-- `artifact_identity`, the answer of `symlink_metadata` given; none is its error. -/
def artifactIdentity (euid : Nat) (metadata : Option Metadata) (expected : ArtifactKind) :
    Option ArtifactIdentity :=
  match metadata with
  | none => none
  | some m =>
      if m.isSymlink || decide (m.uid ≠ euid) ||
          (match expected with
          | .directory => !m.isDir
          | .regularFile => !m.isFile || decide (m.mode &&& 0o7777 &&& 0o022 ≠ 0) ||
              decide (m.mode &&& 0o7777 &&& 0o100 = 0)) then none
      else
        some { device := m.device, inode := m.inode, owner := m.uid, mode := m.mode &&& 0o7777 }

/-- The artifacts as `capture` found them while they were verified. -/
structure VerifiedArtifacts where
  stableAppPath : String
  currentExecutable : String
  stableAppIdentity : ArtifactIdentity
  currentExecutableIdentity : ArtifactIdentity
deriving DecidableEq

/-- The record's field `ensure_host` reads, and those a verifier does. -/
structure IntegrationRecord where
  bundleId : String
  teamId : Option String
  appDesignatedRequirement : String
  bridgeDesignatedRequirement : String
  allowMcpAutoLaunch : Bool

def hostUnavailable : McpBridgeError where
  code := "host_unavailable"
  message :=
    "Next Infra is unavailable. Start it interactively or review MCP integration settings."
  retryable := true

structure AvailabilityPolicy where
  timeout : Duration
  initialDelay : Duration
  maximumDelay : Duration

def maxAvailabilityTimeout : Duration := ⟨10 * 10 ^ 9, by decide⟩

def initialConnectTimeout : Duration := ⟨500 * 10 ^ 6, by decide⟩

/-! ## §2  Asking the world -/

/-- The traits and the file system `ensure_host` runs against. Each call may find the
world changed and changes it. -/
structure Environment (σ Client : Type) where
  euid : Nat
  connect : Duration → σ → Except McpBridgeError Client × σ
  userQuit : σ → MarkerProbe × σ
  /-- `validate_integration_record`; none is its error. -/
  integrationRecord : σ → Option IntegrationRecord × σ
  /-- `coordinate`; the inner option is the launch guard. -/
  coordinate : σ → Option (Option Unit) × σ
  verify : IntegrationRecord → σ → Option VerifiedArtifacts × σ
  symlinkMetadata : String → σ → Option Metadata × σ
  launch : VerifiedArtifacts → σ → Option Unit × σ
  now : σ → Duration × σ
  sleep : Duration → σ → σ

/-- One question and its answer. -/
inductive Event
  | connected (timeout : Duration) (succeeded : Bool)
  | inspected (found : UserQuitInspection)
  | recordRead (allowed : Option Bool)
  | coordinated (guard : Option Bool)
  | verified (artifacts : Option VerifiedArtifacts)
  | identified (path : String) (identity : Option ArtifactIdentity)
  | launched (artifacts : VerifiedArtifacts) (succeeded : Bool)
  | read (time : Duration)
  | slept (duration : Duration)
deriving DecidableEq

structure Watch (σ : Type) where
  world : σ
  trace : List Event

/-- Why there is no client; `outOfFuel` is the model's own. -/
inductive Stop
  | unavailable (error : McpBridgeError)
  | outOfFuel
deriving DecidableEq

abbrev Watched (σ α : Type) : Type := Attempt Stop (Watch σ) α

section

variable {σ Client α β : Type}

/-- A question to the world, with the event it leaves. -/
def ask (question : σ → α × σ) (event : α → Event) : Watched σ α := fun s =>
  (.ok (question s.world).1,
    { world := (question s.world).2, trace := s.trace ++ [event (question s.world).1] })

theorem ask_bind (question : σ → α × σ) (event : α → Event) (next : α → Watched σ β) (s : Watch σ) :
    (ask question event >>= next) s =
      next (question s.world).1
        { world := (question s.world).2, trace := s.trace ++ [event (question s.world).1] } :=
  rfl

def unavailable : Watched σ α := Attempt.fail (.unavailable hostUnavailable)

namespace Environment

variable (env : Environment σ Client)

def connectFor (timeout : Duration) : Watched σ (Option Client) :=
  ask (fun w => ((env.connect timeout w).1.toOption, (env.connect timeout w).2))
    fun client => .connected timeout client.isSome

def inspect : Watched σ UserQuitInspection :=
  ask (fun w => (inspectUserQuit env.euid (env.userQuit w).1, (env.userQuit w).2)) .inspected

def identify (path : String) (kind : ArtifactKind) : Watched σ (Option ArtifactIdentity) :=
  ask (fun w => (artifactIdentity env.euid (env.symlinkMetadata path w).1 kind,
    (env.symlinkMetadata path w).2)) (.identified path)

def clock : Watched σ Duration := ask env.now .read

def rest (duration : Duration) : Watched σ Unit :=
  ask (fun w => ((), env.sleep duration w)) fun _ => .slept duration

/-- `VerifiedArtifacts::revalidate`: the second path is looked at if the first agrees. -/
def revalidate (verified : VerifiedArtifacts) : Watched σ Unit := do
  let app ← env.identify verified.stableAppPath .directory
  if app ≠ some verified.stableAppIdentity then unavailable
  else
    let executable ← env.identify verified.currentExecutable .regularFile
    if executable ≠ some verified.currentExecutableIdentity then unavailable
    else pure ()

/-- The part of `ensure_host` under the launch guard. -/
def launchVerified (record : IntegrationRecord) : Watched σ Unit := do
  let verified ← ask (env.verify record) .verified
  match verified with
  | none => unavailable
  | some verified =>
      let found ← env.inspect
      if found ≠ .clear then unavailable
      else
        env.revalidate verified
        let launched ← ask (env.launch verified) fun done => .launched verified done.isSome
        match launched with
        | none => unavailable
        | some _ => pure ()

/-- From the first failed connect to the retry loop. -/
def prepare : Watched σ Unit := do
  let found ← env.inspect
  if found ≠ .clear then unavailable
  else
    let record ← ask env.integrationRecord fun record =>
      .recordRead (record.map IntegrationRecord.allowMcpAutoLaunch)
    match record with
    | none => unavailable
    | some record =>
        if !record.allowMcpAutoLaunch then unavailable
        else
          let guard ← ask env.coordinate fun guard => .coordinated (guard.map Option.isSome)
          match guard with
          | none => unavailable
          | some none => pure ()
          | some (some _) => env.launchVerified record

/-- One iteration of the retry loop; none when it has slept and the loop goes on. -/
def retryOnce (deadline delay : Duration) : Watched σ (Option Client) := do
  let found ← env.inspect
  if found ≠ .clear then unavailable
  else
    let before ← env.clock
    if deadline.nanos ≤ before.nanos then unavailable
    else
      let start ← env.clock
      let client ← env.connectFor (deadline.saturatingSub start)
      match client with
      | some client =>
          let found ← env.inspect
          if found ≠ .clear then unavailable
          else
            let after ← env.clock
            if deadline.nanos ≤ after.nanos then unavailable else pure (some client)
      | none =>
          let now ← env.clock
          if deadline.nanos ≤ now.nanos then unavailable
          else
            env.rest (delay.least (deadline.saturatingSub now))
            pure none

/-- The retry loop, one iteration for each unit of fuel. -/
def retry (deadline maximumDelay : Duration) : Nat → Duration → Watched σ Client
  | 0, _ => Attempt.fail .outOfFuel
  | fuel + 1, delay => do
      let client ← env.retryOnce deadline delay
      match client with
      | some client => pure client
      | none => retry deadline maximumDelay fuel (delay.saturatingDouble.least maximumDelay)

/-- The retry phase: the deadline is the time left from here. -/
def awaitHost (fuel : Nat) (timeout : Duration) (policy : AvailabilityPolicy) :
    Watched σ Client := do
  let start ← env.clock
  match start.checkedAdd timeout with
  | none => unavailable
  | some deadline =>
      env.retry deadline policy.maximumDelay fuel (policy.initialDelay.least policy.maximumDelay)

def ensureHost (fuel : Nat) (policy : AvailabilityPolicy) : Watched σ Client := do
  let timeout := policy.timeout.least maxAvailabilityTimeout
  if timeout.isZero || policy.initialDelay.isZero || policy.maximumDelay.isZero then unavailable
  else
    let client ← env.connectFor (timeout.least initialConnectTimeout)
    match client with
    | some client => pure client
    | none =>
        env.prepare
        env.awaitHost fuel timeout policy

end Environment

end

/-! ## §3  What each part can do -/

/-- A question that neither starts anything nor looks at the clock. -/
def Event.checks : Event → Bool
  | .inspected _ => true
  | .recordRead _ => true
  | .coordinated _ => true
  | .verified _ => true
  | .identified _ _ => true
  | _ => false

/-- Neither a launch nor a sleep. -/
def Event.quiet : Event → Bool
  | .launched _ _ => false
  | .slept _ => false
  | _ => true

/-- The checks a launch of these artifacts comes after. -/
def authorization (verified : VerifiedArtifacts) : List Event :=
  [.inspected .clear, .recordRead (some true), .coordinated (some true), .verified (some verified),
    .inspected .clear,
    .identified verified.stableAppPath (some verified.stableAppIdentity),
    .identified verified.currentExecutable (some verified.currentExecutableIdentity)]

section

variable {σ Client α : Type} {env : Environment σ Client}

/-- A question answered in any way that `R` allows. -/
theorem ask_meets {β : Type} {question : σ → α × σ} {event : α → Event}
    {next : α → Watched σ β} {s : Watch σ} {Q : Except Stop β → Watch σ → Prop} (R : α → σ → Prop)
    (hanswer : R (question s.world).1 (question s.world).2)
    (hnext : ∀ a w, R a w →
      Attempt.Meets (next a) { world := w, trace := s.trace ++ [event a] } Q) :
    Attempt.Meets (ask question event >>= next) s Q :=
  hnext _ _ hanswer

/-- A question answered in any way. -/
theorem asks {β : Type} {question : σ → α × σ} {event : α → Event} {next : α → Watched σ β}
    {s : Watch σ} {Q : Except Stop β → Watch σ → Prop}
    (hnext : ∀ a w, Attempt.Meets (next a) { world := w, trace := s.trace ++ [event a] } Q) :
    Attempt.Meets (ask question event >>= next) s Q :=
  ask_meets (fun _ _ => True) trivial fun a w _ => hnext a w

/-- What comes before the retry loop: checks only, or a launch with every check before
it. -/
def Prepared (added : List Event) : Prop :=
  added.all Event.checks = true ∨
    ∃ verified done, added = authorization verified ++ [.launched verified done]

def Prepares (s : Watch σ) (r : Except Stop Unit) (t : Watch σ) : Prop :=
  r ≠ .error .outOfFuel ∧ ∃ added, t.trace = s.trace ++ added ∧ Prepared added

theorem prepares_of_checks {s t : Watch σ} {r : Except Stop Unit} (hr : r ≠ .error .outOfFuel)
    (added : List Event) (h : t.trace = s.trace ++ added)
    (hchecks : added.all Event.checks = true) : Prepares s r t :=
  ⟨hr, added, h, .inl hchecks⟩

theorem revalidate_spec (verified : VerifiedArtifacts) (s : Watch σ) :
    Attempt.Meets (env.revalidate verified) s fun r t =>
      r ≠ .error .outOfFuel ∧ ∃ added, t.trace = s.trace ++ added ∧
        added.all Event.checks = true ∧ (r = .ok () → added =
          [.identified verified.stableAppPath (some verified.stableAppIdentity),
            .identified verified.currentExecutable (some verified.currentExecutableIdentity)]) := by
  unfold Environment.revalidate Environment.identify
  refine asks fun app w => .ite (fun _ => ?_) fun happ => ?_
  · exact ⟨nofun, [_], rfl, rfl, nofun⟩
  refine asks fun executable w => .ite (fun _ => ?_) fun hexecutable => ?_
  · exact ⟨nofun, [_, _], List.append_assoc _ _ _, rfl, nofun⟩
  · refine ⟨nofun, [_, _], List.append_assoc _ _ _, rfl, fun _ => ?_⟩
    rw [not_not.mp happ, not_not.mp hexecutable]

theorem launchVerified_prepares {record : IntegrationRecord} {s s₀ : Watch σ}
    (h : s.trace = s₀.trace ++
      [.inspected .clear, .recordRead (some true), .coordinated (some true)]) :
    Attempt.Meets (env.launchVerified record) s (Prepares s₀) := by
  unfold Environment.launchVerified Environment.inspect
  refine asks fun verified w => ?_
  cases verified with
  | none =>
      refine prepares_of_checks nofun [.inspected .clear, .recordRead (some true),
        .coordinated (some true), .verified none] ?_ rfl
      show s.trace ++ _ = _
      rw [h, List.append_assoc]
      rfl
  | some verified =>
      refine asks fun found w => .ite (fun _ => ?_) fun hfound => ?_
      · refine prepares_of_checks nofun [.inspected .clear, .recordRead (some true),
          .coordinated (some true), .verified (some verified), .inspected found] ?_ rfl
        show (s.trace ++ _) ++ _ = _
        rw [h, List.append_assoc, List.append_assoc]
        rfl
      rw [not_not.mp hfound]
      refine (revalidate_spec verified _).bind ?_ ?_
      · rintro ⟨⟩ t ⟨-, added, htrace, -, hadded⟩
        rw [hadded rfl] at htrace
        have hchecked : t.trace = s₀.trace ++ authorization verified := by
          rw [htrace, h]
          simp [authorization]
        refine asks fun done w => ?_
        have hprepares : ∀ (r : Except Stop Unit) (u : Watch σ), r ≠ .error .outOfFuel →
            u.trace = t.trace ++ [.launched verified done.isSome] → Prepares s₀ r u := by
          intro r u hr hu
          refine ⟨hr, authorization verified ++ [.launched verified done.isSome], ?_,
            .inr ⟨verified, done.isSome, rfl⟩⟩
          rw [hu, hchecked, List.append_assoc]
        cases done with
        | none => exact hprepares _ _ nofun rfl
        | some _ => exact hprepares _ _ nofun rfl
      · rintro e t ⟨he, added, htrace, hchecks, -⟩
        refine prepares_of_checks (by simpa using he) ([.inspected .clear, .recordRead (some true),
          .coordinated (some true), .verified (some verified), .inspected .clear] ++ added) ?_ ?_
        · rw [htrace, h]
          simp
        · rw [List.all_append, hchecks]
          rfl

theorem prepare_prepares (s : Watch σ) : Attempt.Meets env.prepare s (Prepares s) := by
  unfold Environment.prepare Environment.inspect
  refine asks fun found w => .ite (fun _ => ?_) fun hfound => ?_
  · exact prepares_of_checks nofun _ rfl rfl
  rw [not_not.mp hfound]
  refine asks fun record w => ?_
  cases record with
  | none => exact prepares_of_checks nofun _ (List.append_assoc _ _ _) rfl
  | some record =>
      refine .ite (fun _ => ?_) fun hallowed => ?_
      · exact prepares_of_checks nofun _ (List.append_assoc _ _ _) rfl
      have hallowed : record.allowMcpAutoLaunch = true := by simpa using hallowed
      refine asks fun guard w => ?_
      match guard with
      | none => exact prepares_of_checks nofun _ (by simp only [List.append_assoc]; rfl) rfl
      | some none => exact prepares_of_checks nofun _ (by simp only [List.append_assoc]; rfl) rfl
      | some (some _) =>
          refine launchVerified_prepares ?_
          simp [hallowed]

end

/-! ## §4  The retry loop -/

/-- A clock that no step sets back and that a sleep moves on by at least its length. A
reading is not before the time it was asked at, up to the last a `Duration` holds. -/
structure Environment.Keeps {σ Client : Type} (env : Environment σ Client) (time : σ → Nat) :
    Prop where
  connect : ∀ timeout w, time w ≤ time (env.connect timeout w).2
  userQuit : ∀ w, time w ≤ time (env.userQuit w).2
  now : ∀ w, time w ≤ time (env.now w).2
  reading_le : ∀ w, (env.now w).1.nanos ≤ time (env.now w).2
  le_reading : ∀ w, min (time w) (2 ^ 64 * 10 ^ 9 - 1) ≤ (env.now w).1.nanos
  sleep : ∀ duration w, time w + duration.nanos ≤ time (env.sleep duration w)

def Event.launches : Event → Bool
  | .launched _ _ => true
  | _ => false

def Event.rests : Event → Nat
  | .slept duration => duration.nanos
  | _ => 0

/-- The time slept in a trace. -/
def sleptTime (trace : List Event) : Nat := (trace.map Event.rests).sum

theorem sleptTime_append (a b : List Event) : sleptTime (a ++ b) = sleptTime a + sleptTime b := by
  simp [sleptTime]

theorem Event.not_launches_of_quiet {event : Event} (h : event.quiet = true) :
    event.launches = false := by
  cases event <;> simp_all [Event.quiet, Event.launches]

theorem Event.rests_of_quiet {event : Event} (h : event.quiet = true) : event.rests = 0 := by
  cases event <;> simp_all [Event.quiet, Event.rests]

theorem sleptTime_of_quiet {added : List Event} (h : added.all Event.quiet = true) :
    sleptTime added = 0 := by
  induction added with
  | nil => rfl
  | cons event added ih =>
      rw [List.all_cons, Bool.and_eq_true] at h
      have hrests := Event.rests_of_quiet h.1
      have htail := ih h.2
      unfold sleptTime at htail ⊢
      rw [List.map_cons, List.sum_cons, hrests, htail]

theorem not_launches_of_quiet (added : List Event) (h : added.all Event.quiet = true) :
    ∀ event ∈ added, event.launches = false :=
  fun event hevent => Event.not_launches_of_quiet (List.all_eq_true.mp h event hevent)

/-- The last three answers before the loop returns a client. -/
def reaches (timeout last : Duration) : List Event :=
  [.connected timeout true, .inspected .clear, .read last]

section

variable {σ Client : Type} {env : Environment σ Client}

/-- All that one iteration can do. -/
inductive Iteration (env : Environment σ Client) (deadline delay : Duration) (s : Watch σ) :
    Except Stop (Option Client) → Watch σ → Prop
  | stopped {t : Watch σ} (added : List Event) (htrace : t.trace = s.trace ++ added)
      (hquiet : added.all Event.quiet = true) :
      Iteration env deadline delay s (.error (.unavailable hostUnavailable)) t
  | reached {t : Watch σ} (client : Client) (before : List Event) (timeout last : Duration)
      (htrace : t.trace = s.trace ++ (before ++ reaches timeout last))
      (hquiet : before.all Event.quiet = true) (htimely : last.nanos < deadline.nanos) :
      Iteration env deadline delay s (.ok (some client)) t
  | waited {t : Watch σ} (before : List Event) (now : Duration)
      (htrace : t.trace =
        s.trace ++ (before ++ [.slept (delay.least (deadline.saturatingSub now))]))
      (hquiet : before.all Event.quiet = true) (htimely : now.nanos < deadline.nanos)
      (hclock : ∀ time, env.Keeps time → time s.world ≤ now.nanos ∧
        now.nanos + (delay.least (deadline.saturatingSub now)).nanos ≤ time t.world) :
      Iteration env deadline delay s (.ok none) t

theorem retryOnce_iteration (deadline delay : Duration) (s : Watch σ) :
    Attempt.Meets (env.retryOnce deadline delay) s (Iteration env deadline delay s) := by
  unfold Environment.retryOnce Environment.inspect Environment.clock Environment.connectFor
    Environment.rest
  refine ask_meets (fun _ w => ∀ time, env.Keeps time → time s.world ≤ time w)
    (fun time h => h.userQuit _) fun found w₁ h₁ => .ite (fun _ => ?_) fun hfound => ?_
  · exact .stopped [_] rfl rfl
  refine ask_meets (fun _ w => ∀ time, env.Keeps time → time s.world ≤ time w)
    (fun time h => Nat.le_trans (h₁ time h) (h.now _)) fun before w₂ h₂ =>
      .ite (fun _ => ?_) fun _ => ?_
  · exact .stopped [_, _] (List.append_assoc _ _ _) rfl
  refine ask_meets (fun _ w => ∀ time, env.Keeps time → time s.world ≤ time w)
    (fun time h => Nat.le_trans (h₂ time h) (h.now _)) fun start w₃ h₃ => ?_
  refine ask_meets (fun _ w => ∀ time, env.Keeps time → time s.world ≤ time w)
    (fun time h => Nat.le_trans (h₃ time h) (h.connect _ _)) fun client w₄ h₄ => ?_
  cases client with
  | some client =>
      refine asks fun found' w₅ => .ite (fun _ => ?_) fun hfound' => ?_
      · exact .stopped [_, _, _, _, _] (by simp only [List.append_assoc]; rfl) rfl
      rw [not_not.mp hfound']
      refine asks fun after w₆ => .ite (fun _ => ?_) fun hafter => ?_
      · exact .stopped [_, _, _, _, _, _] (by simp only [List.append_assoc]; rfl) rfl
      · exact .reached client [_, _, _] _ after (by simp only [List.append_assoc]; rfl) rfl
          (Nat.lt_of_not_le hafter)
  | none =>
      refine ask_meets (fun now w => ∀ time, env.Keeps time →
          min (time w₄) (2 ^ 64 * 10 ^ 9 - 1) ≤ now.nanos ∧ now.nanos ≤ time w)
        (fun time h => ⟨h.le_reading _, h.reading_le _⟩) fun now w₅ h₅ =>
          .ite (fun _ => ?_) fun hnow => ?_
      · exact .stopped [_, _, _, _, _] (by simp only [List.append_assoc]; rfl) rfl
      have htimely : now.nanos < deadline.nanos := Nat.lt_of_not_le hnow
      refine ask_meets (fun _ w => ∀ time, env.Keeps time →
          time w₅ + (delay.least (deadline.saturatingSub now)).nanos ≤ time w)
        (fun time h => h.sleep _ _) fun _ w₆ h₆ => ?_
      refine .waited [_, _, _, _, _] now (by simp only [List.append_assoc]; rfl) rfl htimely
        fun time h => ?_
      have hbounded := deadline.bounded
      have hreading := h₅ time h
      have hlater := h₄ time h
      have hslept := h₆ time h
      constructor
      · omega
      · show _ ≤ time w₆
        omega

/-- What the loop leaves in the trace, and the answers before a client. -/
theorem retry_spec (deadline maximumDelay : Duration) (fuel : Nat) (delay : Duration)
    (s : Watch σ) :
    Attempt.Meets (env.retry deadline maximumDelay fuel delay) s fun r t =>
      ∃ added, t.trace = s.trace ++ added ∧ (∀ event ∈ added, event.launches = false) ∧
        (∀ client, r = .ok client → ∃ before timeout last,
          added = before ++ reaches timeout last ∧ last.nanos < deadline.nanos) ∧
        ∀ time, env.Keeps time → sleptTime added ≤ deadline.nanos - time s.world := by
  induction fuel generalizing delay s with
  | zero => exact ⟨[], (List.append_nil _).symm, nofun, nofun, fun _ _ => Nat.zero_le _⟩
  | succ fuel ih =>
      refine (retryOnce_iteration deadline delay s).bind ?_ ?_
      · intro client t h
        cases h with
        | reached client before timeout last htrace hquiet htimely =>
            have hquiet' : (before ++ reaches timeout last).all Event.quiet = true := by
              rw [List.all_append, hquiet]
              rfl
            refine ⟨_, htrace, not_launches_of_quiet _ hquiet', ?_, fun time _ => ?_⟩
            · exact fun _ _ => ⟨before, timeout, last, rfl, htimely⟩
            · rw [sleptTime_of_quiet hquiet']
              exact Nat.zero_le _
        | waited before now htrace hquiet htimely hclock =>
            refine (ih _ t).mono ?_
            rintro r u ⟨added, hadded, hlaunches, hclient, hslept⟩
            refine ⟨_, by rw [hadded, htrace, List.append_assoc], ?_, ?_, ?_⟩
            · intro event hevent
              simp only [List.mem_append, List.mem_singleton] at hevent
              obtain (hevent | rfl) | hevent := hevent
              · exact not_launches_of_quiet _ hquiet event hevent
              · rfl
              · exact hlaunches event hevent
            · intro client hr
              obtain ⟨rest, timeout, last, rfl, hlast⟩ := hclient client hr
              exact ⟨_, timeout, last, (List.append_assoc _ _ _).symm, hlast⟩
            · intro time h
              have hrest := hslept time h
              obtain ⟨hbefore, hafter⟩ := hclock time h
              have hone : sleptTime [Event.slept (delay.least (deadline.saturatingSub now))] =
                  (delay.least (deadline.saturatingSub now)).nanos := rfl
              have hd : (delay.least (deadline.saturatingSub now)).nanos ≤
                  deadline.nanos - now.nanos := by
                rw [Duration.nanos_least]
                exact Nat.min_le_right _ _
              rw [sleptTime_append, sleptTime_append, sleptTime_of_quiet hquiet, hone]
              omega
      · intro e t h
        cases h with
        | stopped added htrace hquiet =>
            refine ⟨added, htrace, not_launches_of_quiet _ hquiet, nofun, fun time _ => ?_⟩
            rw [sleptTime_of_quiet hquiet]
            exact Nat.zero_le _

/-- Each iteration that goes on uses up `step` of the time, or all of it. -/
theorem retry_ends (deadline : Duration) {maximumDelay : Duration} {step : Nat} {time : σ → Nat}
    (hkeeps : env.Keeps time) (hmax : step ≤ maximumDelay.nanos) (fuel : Nat) (delay : Duration)
    (s : Watch σ) (hdelay : step ≤ delay.nanos)
    (hfuel : deadline.nanos ≤ time s.world + fuel * step) :
    Attempt.Meets (env.retry deadline maximumDelay (fuel + 1) delay) s fun r _ =>
      r ≠ .error .outOfFuel := by
  induction fuel generalizing delay s with
  | zero =>
      refine (retryOnce_iteration deadline delay s).bind ?_ ?_
      · intro client t h
        cases h with
        | reached client before timeout last htrace hquiet htimely => exact nofun
        | waited before now htrace hquiet htimely hclock =>
            have hbefore := (hclock time hkeeps).1
            omega
      · intro e t h
        cases h
        exact nofun
  | succ fuel ih =>
      refine (retryOnce_iteration deadline delay s).bind ?_ ?_
      · intro client t h
        cases h with
        | reached client before timeout last htrace hquiet htimely => exact nofun
        | waited before now htrace hquiet htimely hclock =>
            obtain ⟨hbefore, hafter⟩ := hclock time hkeeps
            refine ih _ t ?_ ?_
            · rw [Duration.nanos_least]
              refine Nat.le_min.mpr ⟨?_, hmax⟩
              show step ≤ min (delay.nanos * 2) (2 ^ 64 * 10 ^ 9 - 1)
              have hbounded := delay.bounded
              omega
            · rw [Duration.nanos_least] at hafter
              have hsub : (deadline.saturatingSub now).nanos = deadline.nanos - now.nanos := rfl
              rw [hsub] at hafter
              have hsucc : (fuel + 1) * step = fuel * step + step := Nat.succ_mul _ _
              omega
      · intro e t h
        cases h
        exact nofun

/-- More fuel changes no run that did not run out. -/
theorem retry_mono {deadline maximumDelay : Duration} {fuel : Nat} (more : Nat) {delay : Duration}
    {s : Watch σ} (h : (env.retry deadline maximumDelay fuel delay s).1 ≠ .error .outOfFuel) :
    env.retry deadline maximumDelay (fuel + more) delay s =
      env.retry deadline maximumDelay fuel delay s := by
  induction fuel generalizing delay s with
  | zero => exact absurd rfl h
  | succ fuel ih =>
      rw [Nat.add_right_comm]
      unfold Environment.retry at h ⊢
      rw [Attempt.bind_apply] at h ⊢
      rw [Attempt.bind_apply]
      rcases hrun : env.retryOnce deadline delay s with ⟨e | _ | client, t⟩
      · rfl
      · rw [hrun] at h
        exact ih h
      · rfl

end

/-! ## §5  The whole of `ensure_host` -/

theorem Event.quiet_of_checks {event : Event} (h : event.checks = true) : event.quiet = true := by
  cases event <;> simp_all [Event.checks, Event.quiet]

/-- How many iterations the loop needs at most: one for each shortest delay in the time
there is, the last that finds the deadline passed, and the part of one that is left. -/
def iterationBound (policy : AvailabilityPolicy) : Nat :=
  (policy.timeout.least maxAvailabilityTimeout).nanos /
    (policy.initialDelay.least policy.maximumDelay).nanos + 2

section

variable {σ Client : Type} {env : Environment σ Client}

/-- What the retry phase leaves, and the answers before a client. -/
def Waits (env : Environment σ Client) (timeout : Duration) (r : Except Stop Client)
    (added : List Event) : Prop :=
  (∀ event ∈ added, event.launches = false) ∧
    (∀ client, r = .ok client → ∃ start before limit last,
      added = .read start :: (before ++ reaches limit last) ∧
        last.nanos < start.nanos + timeout.nanos) ∧
      ∀ time, env.Keeps time → sleptTime added ≤ timeout.nanos

theorem waits_nil {timeout : Duration} {e : Stop} :
    Waits env timeout (.error e : Except Stop Client) [] :=
  ⟨nofun, nofun, fun _ _ => Nat.zero_le _⟩

theorem checkedAdd_eq_some {a b c : Duration} (h : a.checkedAdd b = some c) :
    c.nanos = a.nanos + b.nanos := by
  unfold Duration.checkedAdd at h
  split at h
  · cases h
    rfl
  · cases h

theorem awaitHost_waits (fuel : Nat) (timeout : Duration) (policy : AvailabilityPolicy)
    (s : Watch σ) :
    Attempt.Meets (env.awaitHost fuel timeout policy) s fun r t =>
      ∃ added, t.trace = s.trace ++ added ∧ Waits env timeout r added := by
  unfold Environment.awaitHost Environment.clock
  refine ask_meets (fun start w => ∀ time, env.Keeps time → start.nanos ≤ time w)
    (fun time h => h.reading_le _) fun start w hstart => ?_
  cases hdeadline : start.checkedAdd timeout with
  | none =>
      refine ⟨[.read start], rfl, ?_, nofun, fun _ _ => Nat.zero_le _⟩
      exact not_launches_of_quiet [.read start] rfl
  | some deadline =>
      have hnanos := checkedAdd_eq_some hdeadline
      refine (retry_spec deadline policy.maximumDelay fuel _ _).mono ?_
      rintro r t ⟨added, htrace, hlaunches, hclient, hslept⟩
      refine ⟨.read start :: added, by rw [htrace, List.append_assoc]; rfl, ?_, ?_, ?_⟩
      · intro event hevent
        obtain rfl | hevent := List.mem_cons.mp hevent
        · rfl
        · exact hlaunches event hevent
      · intro client hr
        obtain ⟨before, limit, last, rfl, hlast⟩ := hclient client hr
        exact ⟨start, before, limit, last, rfl, by omega⟩
      · intro time h
        have hrest : sleptTime added ≤ deadline.nanos - time w := hslept time h
        have hread := hstart time h
        have hcons : sleptTime (.read start :: added) = sleptTime added := by
          simp [sleptTime, Event.rests]
        omega

/-- The three ways through `ensure_host`. -/
theorem ensureHost_paths (env : Environment σ Client) (fuel : Nat) (policy : AvailabilityPolicy) (w : σ) :
    Attempt.Meets (env.ensureHost fuel policy) { world := w, trace := [] } fun r t =>
      (t.trace = [] ∧ r = .error (.unavailable hostUnavailable)) ∨
        (∃ first, t.trace = [.connected first true]) ∨
          ∃ first added rest, t.trace = .connected first false :: (added ++ rest) ∧
            Prepared added ∧ Waits env (policy.timeout.least maxAvailabilityTimeout) r rest := by
  unfold Environment.ensureHost Environment.connectFor
  refine .ite (fun _ => .inl ⟨rfl, rfl⟩) fun _ => ?_
  refine asks fun client w₁ => ?_
  cases client with
  | some client => exact .inr (.inl ⟨_, rfl⟩)
  | none =>
      refine (prepare_prepares _).bind ?_ ?_
      · rintro ⟨⟩ t ⟨-, added, htrace, hprepared⟩
        refine (awaitHost_waits fuel _ policy t).mono ?_
        rintro r u ⟨rest, hrest, hwaits⟩
        refine .inr (.inr
          ⟨(policy.timeout.least maxAvailabilityTimeout).least initialConnectTimeout, added, rest,
            ?_, hprepared, hwaits⟩)
        rw [hrest, htrace]
        simp
      · rintro e t ⟨-, added, htrace, hprepared⟩
        refine .inr (.inr
          ⟨(policy.timeout.least maxAvailabilityTimeout).least initialConnectTimeout, added, [],
            ?_, hprepared, waits_nil⟩)
        rw [htrace]
        simp

/-- The launch is in the part of a trace that has launches. -/
theorem launch_in_front {a b past later : List Event} {verified : VerifiedArtifacts} {done : Bool}
    (hb : ∀ event ∈ b, event.launches = false)
    (h : a ++ b = past ++ .launched verified done :: later) :
    ∃ rest, a = past ++ .launched verified done :: rest ∧ later = rest ++ b := by
  obtain ⟨between, hpast, hlater⟩ | ⟨between, ha, hlater⟩ := List.append_eq_append_iff.mp h
  · have hmem : Event.launched verified done ∈ b := by
      rw [hlater]
      exact List.mem_append_right _ (List.mem_cons_self ..)
    cases hb _ hmem
  · cases between with
    | nil =>
        have hmem : Event.launched verified done ∈ b := by
          rw [List.nil_append] at hlater
          rw [← hlater]
          exact List.mem_cons_self ..
        cases hb _ hmem
    | cons event rest =>
        rw [List.cons_append] at hlater
        obtain ⟨rfl, hrest⟩ := List.cons.inj hlater
        exact ⟨rest, ha, hrest⟩

/-- The one launch of the first part comes after all of its checks. -/
theorem launch_authorized {first : Duration} {added past later : List Event}
    {verified : VerifiedArtifacts} {done : Bool} (hprepared : Prepared added)
    (h : .connected first false :: added = past ++ .launched verified done :: later) :
    past = .connected first false :: authorization verified ∧ later = [] := by
  obtain hchecks | ⟨verified', done', rfl⟩ := hprepared
  · have hmem : Event.launched verified done ∈ Event.connected first false :: added := by
      rw [h]
      exact List.mem_append_right _ (List.mem_cons_self ..)
    obtain hmem | hmem := List.mem_cons.mp hmem
    · cases hmem
    · cases List.all_eq_true.mp hchecks _ hmem
  · have hfront : ∀ event ∈ Event.connected first false :: authorization verified',
        event.launches = false := by
      intro event hevent
      simp only [authorization, List.mem_cons, List.not_mem_nil, or_false] at hevent
      rcases hevent with rfl | rfl | rfl | rfl | rfl | rfl | rfl | rfl <;> rfl
    rw [← List.cons_append] at h
    obtain ⟨between, hpast, hlast⟩ | ⟨between, hfirst, hlast⟩ := List.append_eq_append_iff.mp h
    · cases between with
      | nil =>
          obtain ⟨hevent, hlater⟩ := List.cons.inj hlast
          cases hevent
          rw [List.append_nil] at hpast
          exact ⟨hpast, hlater.symm⟩
      | cons event between =>
          obtain ⟨_, hlast⟩ := List.cons.inj hlast
          cases between <;> cases hlast
    · cases between with
      | nil =>
          obtain ⟨hevent, hlater⟩ := List.cons.inj hlast
          cases hevent
          rw [List.append_nil] at hfirst
          exact ⟨hfirst.symm, hlater⟩
      | cons event between =>
          rw [List.cons_append] at hlast
          obtain ⟨rfl, _⟩ := List.cons.inj hlast
          have hmem : Event.launched verified done ∈
              Event.connected first false :: authorization verified' := by
            rw [hfirst]
            exact List.mem_append_right _ (List.mem_cons_self ..)
          cases hfront _ hmem

theorem ensureHost_launches {fuel : Nat} {policy : AvailabilityPolicy} {w : σ}
    {past later : List Event} {verified : VerifiedArtifacts} {done : Bool}
    (h : (env.ensureHost fuel policy { world := w, trace := [] }).2.trace =
      past ++ .launched verified done :: later) :
    (∃ first, past = .connected first false :: authorization verified) ∧
      ∀ event ∈ later, event.launches = false := by
  obtain ⟨hnil, -⟩ | ⟨first, hdirect⟩ | ⟨first, added, rest, htrace, hprepared, hwaits⟩ :=
    ensureHost_paths env fuel policy w
  · rw [hnil] at h
    exact absurd h.symm (List.append_ne_nil_of_right_ne_nil _ (List.cons_ne_nil _ _))
  · rw [hdirect] at h
    obtain ⟨between, hfront, -⟩ :=
      launch_in_front (a := []) (b := [.connected first true])
        (not_launches_of_quiet [.connected first true] rfl) h
    exact absurd hfront.symm (List.append_ne_nil_of_right_ne_nil _ (List.cons_ne_nil _ _))
  · rw [htrace] at h
    obtain ⟨between, hfront, rfl⟩ :=
      launch_in_front (a := .connected first false :: added) hwaits.1 h
    obtain ⟨rfl, rfl⟩ := launch_authorized hprepared hfront
    exact ⟨⟨first, rfl⟩, hwaits.1⟩

theorem ensureHost_client {fuel : Nat} {policy : AvailabilityPolicy} {w : σ} {client : Client}
    (h : (env.ensureHost fuel policy { world := w, trace := [] }).1 = .ok client) :
    (∃ first, (env.ensureHost fuel policy { world := w, trace := [] }).2.trace =
        [.connected first true]) ∨
      ∃ first checks start before limit last,
        (env.ensureHost fuel policy { world := w, trace := [] }).2.trace =
          .connected first false :: (checks ++ .read start :: (before ++ reaches limit last)) ∧
        Prepared checks ∧
        last.nanos < start.nanos + (policy.timeout.least maxAvailabilityTimeout).nanos := by
  obtain ⟨-, herror⟩ | hdirect | ⟨first, added, rest, htrace, hprepared, hwaits⟩ :=
    ensureHost_paths env fuel policy w
  · rw [herror] at h
    cases h
  · exact .inl hdirect
  · obtain ⟨start, before, limit, last, rfl, hlast⟩ := hwaits.2.1 client h
    exact .inr ⟨first, added, start, before, limit, last, htrace, hprepared, hlast⟩

theorem ensureHost_slept {time : σ → Nat} (hkeeps : env.Keeps time) (fuel : Nat)
    (policy : AvailabilityPolicy) (w : σ) :
    sleptTime (env.ensureHost fuel policy { world := w, trace := [] }).2.trace ≤
      (policy.timeout.least maxAvailabilityTimeout).nanos := by
  obtain ⟨hnil, -⟩ | ⟨first, hdirect⟩ | ⟨first, added, rest, htrace, hprepared, hwaits⟩ :=
    ensureHost_paths env fuel policy w
  · rw [hnil]
    exact Nat.zero_le _
  · rw [hdirect]
    exact Nat.zero_le _
  · have hadded : sleptTime added = 0 := by
      obtain hchecks | ⟨verified, done, rfl⟩ := hprepared
      · refine sleptTime_of_quiet (List.all_eq_true.mpr fun event hevent => ?_)
        exact Event.quiet_of_checks (List.all_eq_true.mp hchecks event hevent)
      · rfl
    have hrest := hwaits.2.2 time hkeeps
    have hcons : sleptTime (Event.connected first false :: (added ++ rest)) =
        sleptTime (added ++ rest) := by
      simp [sleptTime, Event.rests]
    rw [htrace, hcons, sleptTime_append, hadded]
    omega

/-- With the fuel of `iterationBound` the retry phase ends, and more changes nothing. -/
theorem awaitHost_ends {time : σ → Nat} (hkeeps : env.Keeps time) {policy : AvailabilityPolicy}
    (hinitial : 0 < policy.initialDelay.nanos) (hmaximum : 0 < policy.maximumDelay.nanos)
    {fuel : Nat} (hfuel : iterationBound policy ≤ fuel) (s : Watch σ) :
    (env.awaitHost fuel (policy.timeout.least maxAvailabilityTimeout) policy s).1 ≠
        .error .outOfFuel ∧
      env.awaitHost fuel (policy.timeout.least maxAvailabilityTimeout) policy s =
        env.awaitHost (iterationBound policy) (policy.timeout.least maxAvailabilityTimeout) policy
          s := by
  obtain ⟨more, rfl⟩ := Nat.exists_eq_add_of_le hfuel
  unfold Environment.awaitHost Environment.clock
  rw [ask_bind, ask_bind]
  cases hdeadline : (env.now s.world).1.checkedAdd
      (policy.timeout.least maxAvailabilityTimeout) with
  | none => exact ⟨nofun, rfl⟩
  | some deadline =>
      have hnanos := checkedAdd_eq_some hdeadline
      have hread := hkeeps.reading_le s.world
      have hstep : 0 < (policy.initialDelay.least policy.maximumDelay).nanos := by
        rw [Duration.nanos_least]
        omega
      have hmax : (policy.initialDelay.least policy.maximumDelay).nanos ≤
          policy.maximumDelay.nanos := by
        rw [Duration.nanos_least]
        exact Nat.min_le_right _ _
      have hends := retry_ends deadline hkeeps hmax
        ((policy.timeout.least maxAvailabilityTimeout).nanos /
          (policy.initialDelay.least policy.maximumDelay).nanos + 1)
        (policy.initialDelay.least policy.maximumDelay)
        { world := (env.now s.world).2, trace := s.trace ++ [.read (env.now s.world).1] }
        (Nat.le_refl _) (by
          have hdiv := Nat.lt_mul_div_succ (policy.timeout.least maxAvailabilityTimeout).nanos hstep
          rw [Nat.mul_comm] at hdiv
          show deadline.nanos ≤ time (env.now s.world).2 + _
          omega)
      have hmore := retry_mono more hends
      refine ⟨?_, hmore⟩
      intro hout
      refine hends ?_
      rw [← hmore]
      exact hout

theorem ensureHost_ends {time : σ → Nat} (hkeeps : env.Keeps time) {policy : AvailabilityPolicy}
    {fuel : Nat} (hfuel : iterationBound policy ≤ fuel) (w : σ) :
    (env.ensureHost fuel policy { world := w, trace := [] }).1 ≠ .error .outOfFuel ∧
      env.ensureHost fuel policy { world := w, trace := [] } =
        env.ensureHost (iterationBound policy) policy { world := w, trace := [] } := by
  unfold Environment.ensureHost
  split
  · exact ⟨nofun, rfl⟩
  rename_i hpositive
  simp only [Bool.or_eq_true, not_or, Duration.isZero, decide_eq_true_eq] at hpositive
  have hawait := awaitHost_ends hkeeps (Nat.pos_of_ne_zero hpositive.1.2)
    (Nat.pos_of_ne_zero hpositive.2) hfuel
  constructor
  · unfold Environment.connectFor
    refine asks (Q := fun r _ => r ≠ .error .outOfFuel) fun client w => ?_
    cases client with
    | some client => exact nofun
    | none =>
        refine (prepare_prepares _).bind (fun _ t _ => (hawait t).1) ?_
        rintro e t ⟨he, -⟩ hout
        cases hout
        exact he rfl
  · rw [funext fun t => (hawait t).2]

/-- Launch safety in every world, and with a clock an end to the retry loop: one launch at
most, after all of its checks; a client after the first failure only with the marker clear
and the deadline still ahead; no more sleep than the effective timeout. -/
theorem ensure_host_safe (env : Environment σ Client) (policy : AvailabilityPolicy) (fuel : Nat)
    (w : σ) :
    (∀ past verified done later,
      (env.ensureHost fuel policy { world := w, trace := [] }).2.trace =
          past ++ .launched verified done :: later →
        (∃ first, past = .connected first false :: authorization verified) ∧
          ∀ event ∈ later, event.launches = false) ∧
    (∀ client, (env.ensureHost fuel policy { world := w, trace := [] }).1 = .ok client →
      (∃ first, (env.ensureHost fuel policy { world := w, trace := [] }).2.trace =
          [.connected first true]) ∨
        ∃ first checks start before limit last,
          (env.ensureHost fuel policy { world := w, trace := [] }).2.trace =
            .connected first false :: (checks ++ .read start :: (before ++ reaches limit last)) ∧
          Prepared checks ∧
          last.nanos < start.nanos + (policy.timeout.least maxAvailabilityTimeout).nanos) ∧
    ∀ time, env.Keeps time →
      sleptTime (env.ensureHost fuel policy { world := w, trace := [] }).2.trace ≤
          min policy.timeout.nanos (10 * 10 ^ 9) ∧
        (iterationBound policy ≤ fuel →
          (env.ensureHost fuel policy { world := w, trace := [] }).1 ≠ .error .outOfFuel ∧
            env.ensureHost fuel policy { world := w, trace := [] } =
              env.ensureHost (iterationBound policy) policy { world := w, trace := [] }) := by
  refine ⟨fun past verified done later h => ensureHost_launches h,
    fun client h => ensureHost_client h, fun time hkeeps => ⟨?_, fun hfuel => ?_⟩⟩
  · have hslept := ensureHost_slept hkeeps fuel policy w
    rw [Duration.nanos_least] at hslept
    exact hslept
  · exact ensureHost_ends hkeeps hfuel w

end

namespace Fixture

def record : IntegrationRecord where
  bundleId := "io.nextinfra.app"
  teamId := none
  appDesignatedRequirement := "app"
  bridgeDesignatedRequirement := "bridge"
  allowMcpAutoLaunch := true

def artifacts : VerifiedArtifacts where
  stableAppPath := "/Applications/Next Infra.app"
  currentExecutable := "/usr/local/bin/bridge"
  stableAppIdentity := { device := 1, inode := 7, owner := 501, mode := 0o755 }
  currentExecutableIdentity := { device := 1, inode := 9, owner := 501, mode := 0o755 }

/-- A host that answers from the third connection on; the world is the time and the number
of connections tried. -/
def starting : Environment (Nat × Nat) Unit where
  euid := 501
  connect _ w := (if w.2 < 2 then .error hostUnavailable else .ok (), (w.1, w.2 + 1))
  userQuit w := ({ file := .notFound, stateDir := none, marker := none }, w)
  integrationRecord w := (some record, w)
  coordinate w := (some (some ()), w)
  verify _ w := (some artifacts, w)
  symlinkMetadata path w :=
    (some { isSymlink := false, isDir := decide (path = artifacts.stableAppPath),
            isFile := decide (path = artifacts.currentExecutable), uid := 501, mode := 0o755,
            device := 1, inode := if path = artifacts.stableAppPath then 7 else 9 }, w)
  launch _ w := (some (), w)
  now w := (⟨min w.1 (2 ^ 64 * 10 ^ 9 - 1), by omega⟩, w)
  sleep duration w := (w.1 + duration.nanos, w.2)

theorem starting_keeps : starting.Keeps Prod.fst where
  connect _ _ := Nat.le_refl _
  userQuit _ := Nat.le_refl _
  now _ := Nat.le_refl _
  reading_le _ := Nat.min_le_left _ _
  le_reading _ := Nat.le_refl _
  sleep _ _ := Nat.le_refl _

/-- `AvailabilityPolicy::default`. -/
def policy : AvailabilityPolicy where
  timeout := ⟨10 * 10 ^ 9, by decide⟩
  initialDelay := ⟨50 * 10 ^ 6, by decide⟩
  maximumDelay := ⟨500 * 10 ^ 6, by decide⟩

end Fixture

open Fixture in
/-- The host starts: one launch, after its checks, and the client of the third connection. -/
theorem ensure_host_safe_starting :
    (starting.ensureHost 202 policy { world := (0, 0), trace := [] }).1 = .ok () ∧
      (∃ past later, (starting.ensureHost 202 policy { world := (0, 0), trace := [] }).2.trace =
          past ++ .launched artifacts true :: later ∧
        (∃ first, past = .connected first false :: authorization artifacts) ∧
        ∀ event ∈ later, event.launches = false) ∧
      sleptTime (starting.ensureHost 202 policy { world := (0, 0), trace := [] }).2.trace ≤
        10 * 10 ^ 9 := by
  have hsafe := ensure_host_safe starting policy 202 (0, 0)
  have hlaunch : (starting.ensureHost 202 policy { world := (0, 0), trace := [] }).2.trace =
      (starting.ensureHost 202 policy { world := (0, 0), trace := [] }).2.trace.take 8 ++
        .launched artifacts true ::
          (starting.ensureHost 202 policy { world := (0, 0), trace := [] }).2.trace.drop 9 := by
    decide +kernel
  refine ⟨by decide +kernel, ⟨_, _, hlaunch, hsafe.1 _ artifacts true _ hlaunch⟩, ?_⟩
  exact Nat.le_trans (hsafe.2.2 Prod.fst starting_keeps).1 (Nat.min_le_right _ _)

end Bridge

end NextInfra
