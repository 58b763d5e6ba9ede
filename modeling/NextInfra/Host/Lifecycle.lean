import NextInfra.Lib.Traces

/-!
# The desktop host's lifecycle

`dispatch` answers one event with a transition: the state before, the state after
and the effects the composition carries out. The quit latch lives in three places:
the state, `userQuitLatched` and the state remembered while a quit waits for its
marker.

§2 says what one dispatch can do. §3 states the quit law over whole event
sequences: its order and its separation hold of every sequence, and its latch
holds as long as no `UserQuitMarkerDurable` reaches a host that has given up the
quit it belongs to.
-/

namespace NextInfra

open Trace (Entry)

/-! ## §1  The state machine -/

inductive ShutdownPhase
  | markerPending
  | draining
  | checkpointing
  | stopping
deriving DecidableEq

inductive HostState
  | notRunning
  | startingInteractive
  | startingBackground
  | windowVisible
  | windowHidden
  | backgroundOnly
  | gracefulExit (phase : ShutdownPhase)
  | userQuitLatched
deriving DecidableEq

inductive LaunchSource
  | userInteractive
  | loginAutostart
  | mcpAuthorized
deriving DecidableEq

inductive SecondInstanceIntent
  | interactive
  | loginAutostartTuple
  | mcpBackgroundTuple
  | unknown
deriving DecidableEq

inductive HostEvent
  | launch (source : LaunchSource)
  | runtimeReady
  | secondInstance (intent : SecondInstanceIntent)
  | windowCloseRequested
  | trayRestore
  | dockReopen
  | explicitQuit
  | userQuitMarkerDurable
  | userQuitMarkerFailed
  | drainCompleted
  | checkpointCompleted
  | runtimeStopped
  | runtimeCrash
  | webViewReload
deriving DecidableEq

inductive HostEffect
  | startRuntimeInteractive
  | startRuntimeBackground
  | createTray
  | createWindow
  | setRegularActivation
  | preventWindowClose
  | hideWindow
  | showWindow
  | unminimizeWindow
  | focusWindow
  | requeryAfterRestore
  | requeryAfterReload
  | activateExistingInstance
  | persistUserQuit
  | clearUserQuit
  | rejectMcpLaunch
  | drainRuntime
  | checkpointWal
  | stopRuntime
  | exitProcess
  | cancelQuit
  | recordCrash
  | ignoreBackgroundSecondInstance
  | ignored
deriving DecidableEq

structure Transition where
  fromState : HostState
  toState : HostState
  effects : List HostEffect

structure HostLifecycle where
  state : HostState
  userQuitLatched : Bool
  preQuitState : Option HostState

namespace HostLifecycle

def new (userQuitLatched : Bool) : HostLifecycle where
  state := if userQuitLatched then .userQuitLatched else .notRunning
  userQuitLatched := userQuitLatched
  preQuitState := none

def runtimeRunning (host : HostLifecycle) : Bool :=
  match host.state with
  | .startingInteractive | .startingBackground | .windowVisible | .windowHidden
  | .backgroundOnly | .gracefulExit _ => true
  | .notRunning | .userQuitLatched => false

/-- The marker is cleared before the runtime starts, and only where it was set. -/
def clearMarkerIfLatched (host : HostLifecycle) : HostLifecycle × List HostEffect :=
  if host.userQuitLatched then ({ host with userQuitLatched := false }, [.clearUserQuit])
  else (host, [])

def launch (host : HostLifecycle) (source : LaunchSource) : HostLifecycle × List HostEffect :=
  match source with
  | .userInteractive =>
      let (cleared, effects) := { host with state := .startingInteractive }.clearMarkerIfLatched
      (cleared, effects ++ [.startRuntimeInteractive])
  | .loginAutostart =>
      let (cleared, effects) := { host with state := .startingBackground }.clearMarkerIfLatched
      (cleared, effects ++ [.startRuntimeBackground])
  | .mcpAuthorized =>
      if host.userQuitLatched then ({ host with state := .userQuitLatched }, [.rejectMcpLaunch])
      else ({ host with state := .startingBackground }, [.startRuntimeBackground])

def restoreWindow (host : HostLifecycle) : HostLifecycle × List HostEffect :=
  let shown : List HostEffect :=
    match host.state with
    | .backgroundOnly => [.createWindow]
    | .windowVisible => []
    | _ => [.showWindow, .unminimizeWindow]
  ({ host with state := .windowVisible },
    [.setRegularActivation] ++ shown ++ [.focusWindow, .requeryAfterRestore])

/-- The arms for a second instance, the same in the three window states. -/
def secondInstance (host : HostLifecycle) (intent : SecondInstanceIntent) :
    HostLifecycle × List HostEffect :=
  match intent with
  | .loginAutostartTuple | .mcpBackgroundTuple => (host, [.ignoreBackgroundSecondInstance])
  | .interactive | .unknown =>
      let (restored, effects) := host.restoreWindow
      (restored, effects ++ [.activateExistingInstance])

def requestQuit (host : HostLifecycle) : HostLifecycle × List HostEffect :=
  ({ host with preQuitState := some host.state, state := .gracefulExit .markerPending },
    [.persistUserQuit])

/-- The match of `dispatch`: the lifecycle after the event and the effects it pushed. -/
def respond (host : HostLifecycle) (event : HostEvent) : HostLifecycle × List HostEffect :=
  match host.state, event with
  | .userQuitLatched, .launch .mcpAuthorized => (host, [.rejectMcpLaunch])
  | .notRunning, .launch source => host.launch source
  | .userQuitLatched, .launch source => host.launch source
  | .startingInteractive, .runtimeReady =>
      ({ host with state := .windowVisible },
        [.createTray, .createWindow, .setRegularActivation, .focusWindow])
  | .startingBackground, .runtimeReady => ({ host with state := .backgroundOnly }, [.createTray])
  | .windowVisible, .secondInstance intent => host.secondInstance intent
  | .windowHidden, .secondInstance intent => host.secondInstance intent
  | .backgroundOnly, .secondInstance intent => host.secondInstance intent
  | .windowVisible, .windowCloseRequested =>
      ({ host with state := .windowHidden }, [.preventWindowClose, .hideWindow])
  | .windowHidden, .trayRestore => host.restoreWindow
  | .backgroundOnly, .trayRestore => host.restoreWindow
  | .windowHidden, .dockReopen => host.restoreWindow
  | .backgroundOnly, .dockReopen => host.restoreWindow
  | .windowVisible, .trayRestore =>
      (host, [.setRegularActivation, .focusWindow, .requeryAfterRestore])
  | .windowVisible, .dockReopen =>
      (host, [.setRegularActivation, .focusWindow, .requeryAfterRestore])
  | .windowVisible, .explicitQuit => host.requestQuit
  | .windowHidden, .explicitQuit => host.requestQuit
  | .backgroundOnly, .explicitQuit => host.requestQuit
  | .gracefulExit .markerPending, .userQuitMarkerDurable =>
      ({ state := .gracefulExit .draining, userQuitLatched := true, preQuitState := none },
        [.drainRuntime])
  | .gracefulExit .markerPending, .userQuitMarkerFailed =>
      ({ host with state := host.preQuitState.getD .windowVisible, preQuitState := none },
        [.cancelQuit])
  | .gracefulExit .draining, .drainCompleted =>
      ({ host with state := .gracefulExit .checkpointing }, [.checkpointWal])
  | .gracefulExit .checkpointing, .checkpointCompleted =>
      ({ host with state := .gracefulExit .stopping }, [.stopRuntime])
  | .gracefulExit .stopping, .runtimeStopped =>
      ({ host with state := .userQuitLatched }, [.exitProcess])
  | .startingInteractive, .runtimeCrash => ({ host with state := .notRunning }, [.recordCrash])
  | .startingBackground, .runtimeCrash => ({ host with state := .notRunning }, [.recordCrash])
  | .windowVisible, .runtimeCrash => ({ host with state := .notRunning }, [.recordCrash])
  | .windowHidden, .runtimeCrash => ({ host with state := .notRunning }, [.recordCrash])
  | .backgroundOnly, .runtimeCrash => ({ host with state := .notRunning }, [.recordCrash])
  | .gracefulExit phase, .runtimeCrash =>
      ({ host with state := if phase = .markerPending then .notRunning else .userQuitLatched },
        [.recordCrash])
  | .windowVisible, .webViewReload => (host, [.requeryAfterReload])
  | .windowHidden, .webViewReload => (host, [.requeryAfterReload])
  | .backgroundOnly, .webViewReload => (host, [.requeryAfterReload])
  | _, _ => (host, [.ignored])

def dispatch (host : HostLifecycle) (event : HostEvent) : HostLifecycle × Transition :=
  let (next, effects) := host.respond event
  (next, { fromState := host.state, toState := next.state, effects := effects })

/-! ## §2  What one dispatch does -/

end HostLifecycle

def HostEffect.startsRuntime (effect : HostEffect) : Bool :=
  decide (effect = .startRuntimeInteractive ∨ effect = .startRuntimeBackground)

/-- An answered event, as the log of a host records it. -/
abbrev HostStep := Entry HostLifecycle HostEvent Transition

namespace HostStep

def StartsRuntime (step : HostStep) : Prop :=
  ∃ effect ∈ step.reply.effects, effect.startsRuntime = true

/-- A crash, or the end of a completed quit. -/
def EndsRuntime (step : HostStep) : Prop :=
  .recordCrash ∈ step.reply.effects ∨ .exitProcess ∈ step.reply.effects

/-- A launch by the user or at login that gave up the marker. -/
def ClearsUserQuit (step : HostStep) : Prop :=
  (step.call = .launch .userInteractive ∨ step.call = .launch .loginAutostart) ∧
    .clearUserQuit ∈ step.reply.effects

end HostStep

namespace HostLifecycle

/-- A log entry of `dispatch`. -/
abbrev answered (host : HostLifecycle) (event : HostEvent) : HostStep :=
  Trace.entryOf dispatch host event

/-- The three states a quit is requested from. -/
def IsWindowState (state : HostState) : Prop :=
  state = .windowVisible ∨ state = .windowHidden ∨ state = .backgroundOnly

/-- The runtime is up and no quit is under way. -/
def Open (host : HostLifecycle) : Prop :=
  IsWindowState host.state ∨ host.state = .startingInteractive ∨ host.state = .startingBackground

end HostLifecycle

/-- Shows or hides something; neither the runtime nor the marker is concerned. -/
def HostEffect.onlyShows : HostEffect → Bool
  | .createTray | .createWindow | .setRegularActivation | .preventWindowClose | .hideWindow
  | .showWindow | .unminimizeWindow | .focusWindow | .requeryAfterRestore | .requeryAfterReload
  | .activateExistingInstance | .ignoreBackgroundSecondInstance => true
  | _ => false

namespace HostLifecycle

/-- What a dispatch can do: the event, the host after it and the effects. -/
inductive Dispatches (host : HostLifecycle) : HostEvent → HostLifecycle → List HostEffect → Prop
  | ignored {event : HostEvent} : Dispatches host event host [.ignored]
  | rejected (hstopped : host.runtimeRunning = false)
      (hlatched : host.state = .userQuitLatched ∨ host.userQuitLatched = true) :
      Dispatches host (.launch .mcpAuthorized) { host with state := .userQuitLatched }
        [.rejectMcpLaunch]
  | launched {source : LaunchSource} {state : HostState} {start : HostEffect}
      (hstopped : host.runtimeRunning = false)
      (hstart : state = .startingInteractive ∧ start = .startRuntimeInteractive ∨
        state = .startingBackground ∧ start = .startRuntimeBackground)
      (hmcp : source = .mcpAuthorized → host.userQuitLatched = false) :
      Dispatches host (.launch source) { host with state := state, userQuitLatched := false }
        ((if host.userQuitLatched then [.clearUserQuit] else []) ++ [start])
  | shown {event : HostEvent} {state : HostState} {effects : List HostEffect} (hopen : host.Open)
      (hstate : IsWindowState state) (heffects : effects.all HostEffect.onlyShows = true) :
      Dispatches host event { host with state := state } effects
  | asked (hwindow : IsWindowState host.state) :
      Dispatches host .explicitQuit
        { host with preQuitState := some host.state, state := .gracefulExit .markerPending }
        [.persistUserQuit]
  | durable (hstate : host.state = .gracefulExit .markerPending) :
      Dispatches host .userQuitMarkerDurable
        { state := .gracefulExit .draining, userQuitLatched := true, preQuitState := none }
        [.drainRuntime]
  | failed (hstate : host.state = .gracefulExit .markerPending) :
      Dispatches host .userQuitMarkerFailed
        { host with state := host.preQuitState.getD .windowVisible, preQuitState := none }
        [.cancelQuit]
  | drained (hstate : host.state = .gracefulExit .draining) :
      Dispatches host .drainCompleted { host with state := .gracefulExit .checkpointing }
        [.checkpointWal]
  | checkpointed (hstate : host.state = .gracefulExit .checkpointing) :
      Dispatches host .checkpointCompleted { host with state := .gracefulExit .stopping }
        [.stopRuntime]
  | stopped (hstate : host.state = .gracefulExit .stopping) :
      Dispatches host .runtimeStopped { host with state := .userQuitLatched } [.exitProcess]
  | crashed {state : HostState}
      (hstate : state = .notRunning ∧ (host.Open ∨ host.state = .gracefulExit .markerPending) ∨
        state = .userQuitLatched ∧
          ∃ phase, host.state = .gracefulExit phase ∧ phase ≠ .markerPending) :
      Dispatches host .runtimeCrash { host with state := state } [.recordCrash]

variable {host : HostLifecycle} {event : HostEvent}

theorem launch_dispatches (hstopped : host.runtimeRunning = false) (source : LaunchSource) :
    Dispatches host (.launch source) (host.launch source).1 (host.launch source).2 := by
  obtain ⟨state, latched, remembered⟩ := host
  cases source with
  | userInteractive => cases latched <;> exact .launched hstopped (.inl ⟨rfl, rfl⟩) nofun
  | loginAutostart => cases latched <;> exact .launched hstopped (.inr ⟨rfl, rfl⟩) nofun
  | mcpAuthorized =>
      cases latched with
      | false => exact .launched hstopped (.inr ⟨rfl, rfl⟩) fun _ => rfl
      | true => exact .rejected hstopped (.inr rfl)

theorem restore_dispatches (hwindow : IsWindowState host.state) (event : HostEvent) :
    Dispatches host event host.restoreWindow.1 host.restoreWindow.2 := by
  refine .shown (.inl hwindow) (.inl rfl) ?_
  unfold restoreWindow
  obtain h | h | h := hwindow <;> rw [h] <;> rfl

theorem secondInstance_dispatches (hwindow : IsWindowState host.state)
    (intent : SecondInstanceIntent) :
    Dispatches host (.secondInstance intent) (host.secondInstance intent).1
      (host.secondInstance intent).2 := by
  have hrestored : Dispatches host (.secondInstance intent) host.restoreWindow.1
      (host.restoreWindow.2 ++ [.activateExistingInstance]) := by
    refine .shown (.inl hwindow) (.inl rfl) ?_
    unfold restoreWindow
    obtain h | h | h := hwindow <;> rw [h] <;> rfl
  cases intent with
  | loginAutostartTuple => exact .shown (.inl hwindow) hwindow rfl
  | mcpBackgroundTuple => exact .shown (.inl hwindow) hwindow rfl
  | interactive => exact hrestored
  | unknown => exact hrestored

theorem dispatches (host : HostLifecycle) (event : HostEvent) :
    Dispatches host event (host.dispatch event).1 (host.dispatch event).2.effects := by
  show Dispatches host event (host.respond event).1 (host.respond event).2
  obtain ⟨state, latched, remembered⟩ := host
  cases state with
  | notRunning =>
      cases event with
      | launch source => exact launch_dispatches rfl source
      | _ => exact .ignored
  | userQuitLatched =>
      cases event with
      | launch source =>
          cases source with
          | mcpAuthorized => exact .rejected rfl (.inl rfl)
          | _ => exact launch_dispatches rfl _
      | _ => exact .ignored
  | startingInteractive =>
      have hopen : Open ⟨.startingInteractive, latched, remembered⟩ := .inr (.inl rfl)
      cases event with
      | runtimeReady => exact .shown hopen (.inl rfl) rfl
      | runtimeCrash => exact .crashed (.inl ⟨rfl, .inl hopen⟩)
      | _ => exact .ignored
  | startingBackground =>
      have hopen : Open ⟨.startingBackground, latched, remembered⟩ := .inr (.inr rfl)
      cases event with
      | runtimeReady => exact .shown hopen (.inr (.inr rfl)) rfl
      | runtimeCrash => exact .crashed (.inl ⟨rfl, .inl hopen⟩)
      | _ => exact .ignored
  | gracefulExit phase =>
      cases phase with
      | markerPending =>
          cases event with
          | userQuitMarkerDurable => exact .durable rfl
          | userQuitMarkerFailed => exact .failed rfl
          | runtimeCrash => exact .crashed (.inl ⟨rfl, .inr rfl⟩)
          | _ => exact .ignored
      | draining =>
          cases event with
          | drainCompleted => exact .drained rfl
          | runtimeCrash => exact .crashed (.inr ⟨rfl, _, rfl, nofun⟩)
          | _ => exact .ignored
      | checkpointing =>
          cases event with
          | checkpointCompleted => exact .checkpointed rfl
          | runtimeCrash => exact .crashed (.inr ⟨rfl, _, rfl, nofun⟩)
          | _ => exact .ignored
      | stopping =>
          cases event with
          | runtimeStopped => exact .stopped rfl
          | runtimeCrash => exact .crashed (.inr ⟨rfl, _, rfl, nofun⟩)
          | _ => exact .ignored
  | windowVisible =>
      have hwindow : IsWindowState .windowVisible := .inl rfl
      cases event with
      | secondInstance intent => exact secondInstance_dispatches hwindow intent
      | windowCloseRequested => exact .shown (.inl hwindow) (.inr (.inl rfl)) rfl
      | trayRestore => exact .shown (.inl hwindow) hwindow rfl
      | dockReopen => exact .shown (.inl hwindow) hwindow rfl
      | explicitQuit => exact .asked hwindow
      | runtimeCrash => exact .crashed (.inl ⟨rfl, .inl (.inl hwindow)⟩)
      | webViewReload => exact .shown (.inl hwindow) hwindow rfl
      | _ => exact .ignored
  | windowHidden =>
      have hwindow : IsWindowState .windowHidden := .inr (.inl rfl)
      cases event with
      | secondInstance intent => exact secondInstance_dispatches hwindow intent
      | trayRestore => exact restore_dispatches hwindow _
      | dockReopen => exact restore_dispatches hwindow _
      | explicitQuit => exact .asked hwindow
      | runtimeCrash => exact .crashed (.inl ⟨rfl, .inl (.inl hwindow)⟩)
      | webViewReload => exact .shown (.inl hwindow) hwindow rfl
      | _ => exact .ignored
  | backgroundOnly =>
      have hwindow : IsWindowState .backgroundOnly := .inr (.inr rfl)
      cases event with
      | secondInstance intent => exact secondInstance_dispatches hwindow intent
      | trayRestore => exact restore_dispatches hwindow _
      | dockReopen => exact restore_dispatches hwindow _
      | explicitQuit => exact .asked hwindow
      | runtimeCrash => exact .crashed (.inl ⟨rfl, .inl (.inl hwindow)⟩)
      | webViewReload => exact .shown (.inl hwindow) hwindow rfl
      | _ => exact .ignored

theorem Open.running (h : host.Open) : host.runtimeRunning = true := by
  unfold runtimeRunning
  obtain (h | h | h) | h | h := h <;> rw [h]

theorem running_of_window {state : HostState} (h : IsWindowState state) {latched : Bool}
    {remembered : Option HostState} : runtimeRunning ⟨state, latched, remembered⟩ = true :=
  Open.running (.inl h)

/-- A quit remembers a window state, and only a host with the latch set is past its
marker. -/
structure Settled (host : HostLifecycle) : Prop where
  remembered : ∀ state, host.preQuitState = some state → IsWindowState state
  unlatched : host.userQuitLatched = false →
    host.state ≠ .userQuitLatched ∧
      ∀ phase, host.state = .gracefulExit phase → phase = .markerPending

theorem settled_new (latched : Bool) : (new latched).Settled := by
  cases latched <;> constructor <;> simp [new]

/-- What a failed marker goes back to. -/
theorem Settled.restored (h : host.Settled) :
    IsWindowState (host.preQuitState.getD .windowVisible) := by
  cases hremembered : host.preQuitState with
  | none => exact .inl rfl
  | some state => exact h.remembered state hremembered

namespace Dispatches

variable {next : HostLifecycle} {effects : List HostEffect}

/-- Only a launch of a stopped host starts the runtime, and an MCP launch only where
the latch is clear. -/
theorem started (h : Dispatches host event next effects)
    (hstarts : ∃ effect ∈ effects, effect.startsRuntime = true) :
    host.runtimeRunning = false ∧ next.runtimeRunning = true ∧
      (event = .launch .mcpAuthorized → host.userQuitLatched = false) := by
  obtain ⟨effect, hmem, hstarts⟩ := hstarts
  cases h with
  | launched hstopped hstart hmcp =>
      refine ⟨hstopped, ?_, fun hevent => hmcp (HostEvent.launch.inj hevent)⟩
      obtain ⟨rfl, -⟩ | ⟨rfl, -⟩ := hstart <;> rfl
  | shown hopen hstate heffects =>
      have honly := List.all_eq_true.mp heffects effect hmem
      obtain rfl | rfl := of_decide_eq_true hstarts <;> cases honly
  | _ =>
      obtain rfl := List.mem_singleton.mp hmem
      cases hstarts

theorem starts_once (h : Dispatches host event next effects) :
    effects.countP HostEffect.startsRuntime ≤ 1 := by
  cases h with
  | @launched source state start hstopped hstart hmcp =>
      rw [List.countP_append]
      have hclear : (if host.userQuitLatched then [HostEffect.clearUserQuit] else []).countP
          HostEffect.startsRuntime = 0 := by
        split <;> rfl
      have hone := List.countP_le_length (p := HostEffect.startsRuntime) (l := [start])
      rw [List.length_singleton] at hone
      omega
  | shown hopen hstate heffects =>
      rw [List.countP_eq_zero.mpr]
      · exact Nat.zero_le 1
      intro effect hmem hstarts
      have honly := List.all_eq_true.mp heffects effect hmem
      obtain rfl | rfl := of_decide_eq_true hstarts <;> cases honly
  | _ => exact List.countP_le_length

theorem settled (h : Dispatches host event next effects) (hs : host.Settled) : next.Settled := by
  cases h with
  | ignored => exact hs
  | rejected hstopped hlatched =>
      refine ⟨hs.remembered, fun hunlatched => ?_⟩
      obtain hlatched | hlatched := hlatched
      · exact absurd hlatched (hs.unlatched hunlatched).1
      · cases hlatched.symm.trans hunlatched
  | launched hstopped hstart hmcp =>
      refine ⟨hs.remembered, fun _ => ?_⟩
      obtain ⟨rfl, -⟩ | ⟨rfl, -⟩ := hstart <;> exact ⟨nofun, nofun⟩
  | shown hopen hstate heffects =>
      refine ⟨hs.remembered, fun _ => ?_⟩
      obtain rfl | rfl | rfl := hstate <;> exact ⟨nofun, nofun⟩
  | asked hwindow =>
      refine ⟨fun state hstate => Option.some.inj hstate ▸ hwindow, fun _ => ⟨nofun, ?_⟩⟩
      exact fun phase hphase => (HostState.gracefulExit.inj hphase).symm
  | durable hstate => exact ⟨nofun, nofun⟩
  | failed hstate =>
      refine ⟨nofun, fun _ => ?_⟩
      show host.preQuitState.getD .windowVisible ≠ _ ∧
        ∀ phase, host.preQuitState.getD .windowVisible = _ → _
      obtain hback | hback | hback := hs.restored <;> rw [hback] <;> exact ⟨nofun, nofun⟩
  | crashed hstate =>
      refine ⟨hs.remembered, fun hunlatched => ?_⟩
      obtain ⟨rfl, -⟩ | ⟨rfl, phase, hphase, hpast⟩ := hstate
      · exact ⟨nofun, nofun⟩
      · exact absurd ((hs.unlatched hunlatched).2 phase hphase) hpast
  | drained hstate | checkpointed hstate | stopped hstate =>
      -- past its marker the host is latched
      refine ⟨hs.remembered, fun hunlatched => ?_⟩
      cases (hs.unlatched hunlatched).2 _ hstate

/-- Only a crash or a completed quit stops a running host. -/
theorem keeps_running (h : Dispatches host event next effects) (hs : host.Settled)
    (hrunning : host.runtimeRunning = true)
    (hends : ¬(.recordCrash ∈ effects ∨ .exitProcess ∈ effects)) :
    next.runtimeRunning = true := by
  cases h with
  | ignored => exact hrunning
  | rejected hstopped | launched hstopped => cases hstopped.symm.trans hrunning
  | shown hopen hstate heffects => exact running_of_window hstate
  | failed hstate => exact running_of_window hs.restored
  | stopped hstate => exact absurd (.inr (List.mem_singleton_self _)) hends
  | crashed hstate => exact absurd (.inl (List.mem_singleton_self _)) hends
  | _ => rfl

/-- Only a launch that clears the marker clears the latch. -/
theorem keeps_latch (h : Dispatches host event next effects)
    (hlatched : host.userQuitLatched = true)
    (hclears : ¬((event = .launch .userInteractive ∨ event = .launch .loginAutostart) ∧
      .clearUserQuit ∈ effects)) : next.userQuitLatched = true := by
  cases h with
  | @launched source state start hstopped hstart hmcp =>
      refine absurd ⟨?_, ?_⟩ hclears
      · cases source with
        | userInteractive => exact .inl rfl
        | loginAutostart => exact .inr rfl
        | mcpAuthorized => cases (hmcp rfl).symm.trans hlatched
      · rw [if_pos hlatched]
        exact List.mem_cons_self
  | durable hstate => rfl
  | _ => exact hlatched

/-- How a host comes to be in a phase of a quit. -/
theorem phase_reached {phase : ShutdownPhase} (h : Dispatches host event next effects)
    (hs : host.Settled) (hphase : next.state = .gracefulExit phase) :
    (event = .explicitQuit ∧ .persistUserQuit ∈ effects ∧ phase = .markerPending) ∨
    (host.state = .gracefulExit phase ∧ effects = [.ignored]) ∨
    (host.state = .gracefulExit .markerPending ∧ event = .userQuitMarkerDurable ∧
      phase = .draining) ∨
    (host.state = .gracefulExit .draining ∧ event = .drainCompleted ∧
      phase = .checkpointing) ∨
    (host.state = .gracefulExit .checkpointing ∧ event = .checkpointCompleted ∧
      phase = .stopping) := by
  cases h with
  | ignored => exact .inr (.inl ⟨hphase, rfl⟩)
  | launched hstopped hstart hmcp => obtain ⟨rfl, -⟩ | ⟨rfl, -⟩ := hstart <;> cases hphase
  | shown hopen hstate heffects => obtain rfl | rfl | rfl := hstate <;> cases hphase
  | asked hwindow =>
      exact .inl ⟨rfl, List.mem_cons_self, (HostState.gracefulExit.inj hphase).symm⟩
  | durable hstate =>
      exact .inr (.inr (.inl ⟨hstate, rfl, (HostState.gracefulExit.inj hphase).symm⟩))
  | failed hstate =>
      obtain hback | hback | hback := hs.restored <;> cases hback.symm.trans hphase
  | drained hstate =>
      exact .inr (.inr (.inr (.inl ⟨hstate, rfl, (HostState.gracefulExit.inj hphase).symm⟩)))
  | checkpointed hstate =>
      exact .inr (.inr (.inr (.inr ⟨hstate, rfl, (HostState.gracefulExit.inj hphase).symm⟩)))
  | crashed hstate => obtain ⟨rfl, -⟩ | ⟨rfl, -⟩ := hstate <;> cases hphase
  | rejected | stopped => cases hphase

/-- The runtime is stopped by a completed checkpoint, the process by a stopped runtime. -/
theorem stops_from (h : Dispatches host event next effects) :
    (.stopRuntime ∈ effects →
      host.state = .gracefulExit .checkpointing ∧ event = .checkpointCompleted) ∧
    (.exitProcess ∈ effects → host.state = .gracefulExit .stopping ∧ event = .runtimeStopped) := by
  cases h with
  | launched hstopped hstart hmcp =>
      obtain ⟨-, rfl⟩ | ⟨-, rfl⟩ := hstart <;> split <;> simp
  | shown hopen hstate heffects =>
      constructor
      · exact fun hmem => nomatch List.all_eq_true.mp heffects _ hmem
      · exact fun hmem => nomatch List.all_eq_true.mp heffects _ hmem
  | checkpointed hstate => simpa using hstate
  | stopped hstate => simpa using hstate
  | _ => simp

end Dispatches

/-- The host still waits for the marker, or has it already. -/
def ExpectsMarker (host : HostLifecycle) : Prop :=
  host.state = .gracefulExit .markerPending ∨ host.userQuitLatched = true

theorem latched_of_expected (h : host.ExpectsMarker) :
    (host.dispatch .userQuitMarkerDurable).1.userQuitLatched = true := by
  obtain hpending | hlatched := h
  · obtain ⟨state, latched, remembered⟩ := host
    obtain rfl : state = _ := hpending
    rfl
  · exact (dispatches host .userQuitMarkerDurable).keeps_latch hlatched fun hclears =>
      absurd hclears.1 (by decide)

/-- A marker nobody expects is ignored, and after a crash the host starts for MCP. -/
theorem starts_of_unexpected (hsettled : host.Settled) (h : ¬host.ExpectsMarker) :
    ((((host.dispatch .userQuitMarkerDurable).1.dispatch .runtimeCrash).1).answered
      (.launch .mcpAuthorized)).StartsRuntime := by
  obtain ⟨state, latched, remembered⟩ := host
  simp only [ExpectsMarker, not_or, Bool.not_eq_true] at h
  obtain ⟨hstate, rfl⟩ := h
  have hunlatched := hsettled.unlatched rfl
  have hstarts : HostEffect.startRuntimeBackground.startsRuntime = true := rfl
  cases state with
  | gracefulExit phase => exact absurd (congrArg _ (hunlatched.2 phase rfl)) hstate
  | userQuitLatched => exact absurd rfl hunlatched.1
  | _ => exact ⟨_, List.mem_cons_self, hstarts⟩

/-! ## §3  The order of a quit -/

/-- A log that ends inside a quit, in the phase it has reached. Every step of the
quit comes from its own event; whatever else arrives in between is ignored. -/
inductive Quitting : List HostStep → ShutdownPhase → Prop
  | begun {past : List HostStep} {step : HostStep} (hcall : step.call = .explicitQuit)
      (heffects : .persistUserQuit ∈ step.reply.effects) : Quitting (past ++ [step]) .markerPending
  | waits {past : List HostStep} {step : HostStep} {phase : ShutdownPhase}
      (heffects : step.reply.effects = [.ignored]) (h : Quitting past phase) :
      Quitting (past ++ [step]) phase
  | durable {past : List HostStep} {step : HostStep} (hcall : step.call = .userQuitMarkerDurable)
      (h : Quitting past .markerPending) : Quitting (past ++ [step]) .draining
  | drained {past : List HostStep} {step : HostStep} (hcall : step.call = .drainCompleted)
      (h : Quitting past .draining) : Quitting (past ++ [step]) .checkpointing
  | checkpointed {past : List HostStep} {step : HostStep}
      (hcall : step.call = .checkpointCompleted) (h : Quitting past .checkpointing) :
      Quitting (past ++ [step]) .stopping

abbrev hostLog (host : HostLifecycle) (events : List HostEvent) : List HostStep :=
  Trace.log dispatch host events

abbrev hostAfter (host : HostLifecycle) (events : List HostEvent) : HostLifecycle :=
  Trace.final dispatch host events

variable {host : HostLifecycle} {events : List HostEvent}

theorem settled_after (events : List HostEvent) (h : host.Settled) :
    (host.hostAfter events).Settled :=
  Trace.invariant dispatch (fun host event => (dispatches host event).settled) events h

/-- The phase a host is in is the phase its log has reached. -/
theorem quitting_log (hsettled : host.Settled) (hstart : ∀ phase, host.state ≠ .gracefulExit phase)
    (events : List HostEvent) (phase : ShutdownPhase)
    (h : (host.hostAfter events).state = .gracefulExit phase) :
    Quitting (host.hostLog events) phase := by
  have hrecorded := Trace.recorded dispatch
    (P := fun past host => host.Settled ∧
      ∀ phase, host.state = .gracefulExit phase → Quitting past phase)
    (s := host) ⟨hsettled, fun phase hphase => absurd hphase (hstart phase)⟩ ?_ events
  · exact hrecorded.2 phase h
  intro past host event ⟨hsettled, hquitting⟩
  refine ⟨(dispatches host event).settled hsettled, fun phase hphase => ?_⟩
  obtain ⟨hcall, heffects, rfl⟩ | ⟨hstate, heffects⟩ | ⟨hstate, hcall, rfl⟩ | ⟨hstate, hcall, rfl⟩ |
    ⟨hstate, hcall, rfl⟩ := (dispatches host event).phase_reached hsettled hphase
  · exact .begun hcall heffects
  · exact .waits heffects (hquitting phase hstate)
  · exact .durable hcall (hquitting _ hstate)
  · exact .drained hcall (hquitting _ hstate)
  · exact .checkpointed hcall (hquitting _ hstate)

theorem new_not_quitting (latched : Bool) (phase : ShutdownPhase) :
    (new latched).state ≠ .gracefulExit phase := by
  cases latched <;> simp [new]

/-! ## §4  The quit law -/

/-- A quit has asked for its marker. -/
def Asked (steps : List HostStep) : Prop :=
  ∃ step ∈ steps, step.call = .explicitQuit ∧ .persistUserQuit ∈ step.reply.effects

structure QuitLaw (steps : List HostStep) : Prop where
  /-- Once a marker that was asked for is durable, no MCP launch starts the runtime
  until a launch by the user or at login has cleared it. -/
  latch : ∀ past durable between launch future,
    steps = past ++ durable :: between ++ launch :: future →
    Asked past → durable.call = .userQuitMarkerDurable → launch.call = .launch .mcpAuthorized →
    (∀ step ∈ between, ¬step.ClearsUserQuit) → ¬launch.StartsRuntime
  /-- The runtime stops after the checkpoint of a quit, the process after its stop. -/
  ordered : ∀ past step future, steps = past ++ step :: future →
    (.stopRuntime ∈ step.reply.effects →
      step.call = .checkpointCompleted ∧ Quitting past .checkpointing) ∧
    (.exitProcess ∈ step.reply.effects → step.call = .runtimeStopped ∧ Quitting past .stopping)
  /-- Between two starts the runtime has ended. -/
  separated : ∀ past first between second future,
    steps = past ++ first :: between ++ second :: future →
    first.StartsRuntime → second.StartsRuntime → ∃ step ∈ between, step.EndsRuntime
  once : ∀ step ∈ steps, step.reply.effects.countP HostEffect.startsRuntime ≤ 1

/-- Every marker that arrives after a quit asked for one finds the host waiting for it,
or already latched. -/
def Timely (host : HostLifecycle) (events : List HostEvent) : Prop :=
  ∀ earlier later, events = earlier ++ .userQuitMarkerDurable :: later →
    Asked (host.hostLog earlier) → (host.hostAfter earlier).ExpectsMarker

theorem ordered_log (latched : Bool) {past future : List HostStep} {step : HostStep}
    (h : (new latched).hostLog events = past ++ step :: future) :
    (.stopRuntime ∈ step.reply.effects →
      step.call = .checkpointCompleted ∧ Quitting past .checkpointing) ∧
    (.exitProcess ∈ step.reply.effects →
      step.call = .runtimeStopped ∧ Quitting past .stopping) := by
  obtain ⟨earlier, event, later, rfl, rfl, rfl, rfl⟩ := Trace.log_cut dispatch h
  have hquitting :=
    quitting_log (settled_new latched) (new_not_quitting latched) earlier
  obtain ⟨hstop, hexit⟩ := (dispatches ((new latched).hostAfter earlier) event).stops_from
  constructor
  · intro heffect
    obtain ⟨hstate, hcall⟩ := hstop heffect
    exact ⟨hcall, hquitting _ hstate⟩
  · intro heffect
    obtain ⟨hstate, hcall⟩ := hexit heffect
    exact ⟨hcall, hquitting _ hstate⟩

/-- A log cut at two of its entries. -/
theorem log_cut_twice {past between future : List HostStep} {first second : HostStep}
    (h : host.hostLog events = past ++ first :: between ++ second :: future) :
    ∃ earlier event middle final later,
      events = earlier ++ event :: middle ++ final :: later ∧ past = host.hostLog earlier ∧
      first = (host.hostAfter earlier).answered event ∧
      between = ((host.hostAfter earlier).dispatch event).1.hostLog middle ∧
      second = (((host.hostAfter earlier).dispatch event).1.hostAfter middle).answered final := by
  obtain ⟨upTo, final, later, rfl, hupTo, hsecond, _⟩ := Trace.log_cut dispatch h
  obtain ⟨earlier, event, middle, rfl, hpast, hfirst, hbetween⟩ := Trace.log_cut dispatch hupTo.symm
  refine ⟨earlier, event, middle, final, later, rfl, hpast, hfirst, ?_, ?_⟩
  · rw [hbetween, Trace.final_append]
    rfl
  · rw [hsecond, Trace.final_append]
    rfl

theorem separated_log (hsettled : host.Settled) {past between future : List HostStep}
    {first second : HostStep}
    (h : host.hostLog events = past ++ first :: between ++ second :: future)
    (hfirst : first.StartsRuntime) (hsecond : second.StartsRuntime) :
    ∃ step ∈ between, step.EndsRuntime := by
  obtain ⟨earlier, event, middle, final, later, rfl, rfl, rfl, rfl, rfl⟩ := log_cut_twice h
  by_contra hnone
  have hstarted := ((dispatches _ event).started hfirst).2.1
  have hstopped := ((dispatches _ final).started hsecond).1
  have hkept := Trace.kept dispatch (Q := fun step => ¬HostStep.EndsRuntime step)
    (P := fun host => host.Settled ∧ host.runtimeRunning = true)
    (fun host event h hends => ⟨(dispatches host event).settled h.1,
      (dispatches host event).keeps_running h.1 h.2 hends⟩)
    ⟨(dispatches _ event).settled (settled_after earlier hsettled), hstarted⟩
    fun step hstep hends => hnone ⟨step, hstep, hends⟩
  exact absurd (hstopped.symm.trans hkept.2) Bool.false_ne_true

theorem latch_log {past between future : List HostStep} {durable launch : HostStep}
    (htimely : host.Timely events)
    (h : host.hostLog events = past ++ durable :: between ++ launch :: future)
    (hasked : Asked past) (hdurable : durable.call = .userQuitMarkerDurable)
    (hlaunch : launch.call = .launch .mcpAuthorized)
    (hclears : ∀ step ∈ between, ¬step.ClearsUserQuit) : ¬launch.StartsRuntime := by
  obtain ⟨earlier, event, middle, final, later, rfl, rfl, rfl, rfl, rfl⟩ := log_cut_twice h
  obtain rfl : event = .userQuitMarkerDurable := hdurable
  obtain rfl : final = .launch .mcpAuthorized := hlaunch
  intro hstarts
  have hexpects := htimely earlier (middle ++ .launch .mcpAuthorized :: later) (by simp) hasked
  have hkept := Trace.kept dispatch (Q := fun step => ¬HostStep.ClearsUserQuit step)
    (P := fun host => host.userQuitLatched = true)
    (fun host event => (dispatches host event).keeps_latch) (latched_of_expected hexpects) hclears
  have hunlatched := ((dispatches _ _).started hstarts).2.2 rfl
  exact absurd (hunlatched.symm.trans hkept) Bool.false_ne_true

theorem quit_law_of_timely (latched : Bool) (h : (new latched).Timely events) :
    QuitLaw ((new latched).hostLog events) where
  latch := fun _ _ _ _ _ hcut hasked hdurable hlaunch hclears =>
    latch_log h hcut hasked hdurable hlaunch hclears
  ordered := fun _ _ _ hcut => ordered_log latched hcut
  separated := fun _ _ _ _ _ hcut hfirst hsecond =>
    separated_log (settled_new latched) hcut hfirst hsecond
  once := by
    intro step hstep
    obtain ⟨earlier, event, later, rfl, rfl⟩ := Trace.mem_log dispatch hstep
    exact (dispatches _ event).starts_once

/-- A marker in a list that goes on without one is a marker of its first part. -/
theorem marker_before {past more earlier later : List HostEvent}
    (hmore : .userQuitMarkerDurable ∉ more)
    (h : past ++ more = earlier ++ .userQuitMarkerDurable :: later) :
    ∃ rest, past = earlier ++ .userQuitMarkerDurable :: rest := by
  obtain ⟨middle, hearlier, hmiddle⟩ | ⟨middle, hpast, hmiddle⟩ := List.append_eq_append_iff.mp h
  · exact absurd (hmiddle ▸ by simp) hmore
  · cases middle with
    | nil =>
        rw [List.nil_append] at hmiddle
        exact absurd (hmiddle ▸ by simp) hmore
    | cons event middle =>
        simp only [List.cons_append, List.cons.injEq] at hmiddle
        exact ⟨middle, hmiddle.1 ▸ hpast⟩

/-- A timely sequence stays timely as long as no further marker arrives. -/
theorem Timely.goes_on {past more : List HostEvent} (h : host.Timely events)
    (hpast : past <+: events) (hmore : .userQuitMarkerDurable ∉ more) :
    host.Timely (past ++ more) := by
  obtain ⟨rest, rfl⟩ := hpast
  intro earlier later hcut
  obtain ⟨after, rfl⟩ := marker_before hmore hcut
  exact h earlier (after ++ rest) (by simp)

/-- After an unexpected marker a crash and an MCP launch break the latch. -/
theorem expects_of_latch (hsettled : host.Settled) {earlier : List HostEvent}
    (hasked : Asked (host.hostLog earlier))
    (h : QuitLaw (host.hostLog (earlier ++ [.userQuitMarkerDurable] ++
      [.runtimeCrash, .launch .mcpAuthorized]))) :
    (host.hostAfter earlier).ExpectsMarker := by
  by_contra hunexpected
  have hstarts := starts_of_unexpected (settled_after earlier hsettled) hunexpected
  refine h.latch (host.hostLog earlier) ((host.hostAfter earlier).answered .userQuitMarkerDurable)
    [((host.hostAfter earlier).dispatch .userQuitMarkerDurable).1.answered .runtimeCrash] _ []
    ?_ hasked rfl rfl ?_ hstarts
  · simp [hostLog, Trace.log_append]
  · rintro step hstep ⟨hcall, -⟩
    obtain rfl := List.mem_singleton.mp hstep
    exact absurd hcall nofun

/-- The quit law holds whatever follows each part of the sequence exactly if every
marker is timely. -/
theorem quit_law_iff_timely (latched : Bool) (events : List HostEvent) :
    (new latched).Timely events ↔
      ∀ past, past <+: events → ∀ more, .userQuitMarkerDurable ∉ more →
        QuitLaw ((new latched).hostLog (past ++ more)) := by
  constructor
  · intro htimely past hpast more hmore
    exact quit_law_of_timely latched (htimely.goes_on hpast hmore)
  · rintro hlaw earlier later rfl hasked
    refine expects_of_latch (settled_new latched) hasked ?_
    exact hlaw _ ⟨later, by simp⟩ _ (by simp)

/-- The host crashes while its marker is written; the marker becomes durable and is
ignored, and the next MCP launch starts the runtime of a user who has quit. -/
theorem late_marker_forgotten :
    ¬QuitLaw ((new false).hostLog [.launch .userInteractive, .runtimeReady, .explicitQuit,
      .runtimeCrash, .userQuitMarkerDurable, .launch .mcpAuthorized]) := by
  intro hlaw
  -- the quit is the third step, and the crash that follows it drops it
  have hasked : Asked ((new false).hostLog [.launch .userInteractive, .runtimeReady, .explicitQuit,
      .runtimeCrash]) :=
    ⟨_, List.mem_cons_of_mem _ (List.mem_cons_of_mem _ List.mem_cons_self), rfl, by decide⟩
  refine hlaw.latch _ _ [] _ [] rfl hasked rfl rfl (by simp) ?_
  exact ⟨.startRuntimeBackground, by decide, by decide⟩

end HostLifecycle

end NextInfra
