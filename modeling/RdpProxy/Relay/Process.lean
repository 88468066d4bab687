import RdpProxy.Lib.Steps
import RdpProxy.Relay.Plugins

/-!
# One relay process

All sessions of a process share the registry of `run_server`. Its hooks run one at a time, in
any order that each session's own life allows.
-/

open Words Steps RdpProxy.Rdp

namespace RdpProxy.Relay

/-! ## Events -/

inductive Limit where
  | idle
  | duration
  deriving DecidableEq

inductive Event (S : Type) where
  | start (s : S)
  | packet (s : S) (d : Direction) (data : Bytes)
  | finish (s : S)
  /-- A call of `is_idle` or `is_duration_exceeded` by the kill checker of `s`. -/
  | check (s : S) (limit : Limit)
  | updateTimeouts (idleTimeout maxSessionDuration : Int)
  deriving DecidableEq

structure Timed (S : Type) where
  now : Rat
  event : Event S

variable {S : Type}

def Event.session : Event S → Option S
  | .start s => some s
  | .packet s _ _ => some s
  | .finish s => some s
  | .check s _ => some s
  | .updateTimeouts _ _ => none

/-! ## The plugins over an event -/

section
variable (ctx : S → SessionContext)

def McsPatchPlugin.after (m : McsPatchPlugin) : Event S → McsPatchPlugin
  | .start s => m.onSessionStart (ctx s)
  | .packet s d data => (m.onPacket d data (ctx s)).1
  | _ => m

def SessionMonitorPlugin.after (m : SessionMonitorPlugin) (now : Rat) : Event S → SessionMonitorPlugin
  | .start _ => m.onSessionStart now
  | .packet _ _ _ => { m with lastActivity := now }
  | .updateTimeouts idle duration => m.updateTimeouts idle duration
  | _ => m

def ConnectionQualityPlugin.after (q : ConnectionQualityPlugin) : Event S → ConnectionQualityPlugin
  | .start s => q.onSessionStart (ctx s)
  | .finish s => q.onSessionEnd (ctx s)
  | _ => q

/-- `updateTimeouts` of the listener, on the plugin that the registry shares. -/
def updateMonitor (idleTimeout maxSessionDuration : Int) : RelayPlugin → RelayPlugin
  | .sessionMonitor m => .sessionMonitor (m.updateTimeouts idleTimeout maxSessionDuration)
  | p => p

def pluginsAfter (plugins : PluginRegistry RelayPlugin) (e : Timed S) : PluginRegistry RelayPlugin :=
  match e.event with
  | .start s => plugins.onSessionStart e.now (ctx s)
  | .packet s d data => (plugins.onPacket e.now d data (ctx s)).1
  | .finish s => plugins.onSessionEnd e.now (ctx s)
  | .check _ _ => plugins
  | .updateTimeouts idle duration => ⟨plugins.plugins.map (updateMonitor idle duration)⟩

theorem pluginsAfter_relayRegistry (m : McsPatchPlugin) (mon : SessionMonitorPlugin)
    (q : ConnectionQualityPlugin) (e : Timed S) : pluginsAfter ctx (relayRegistry m mon q) e =
      relayRegistry (m.after ctx e.event) (mon.after e.now e.event) (q.after ctx e.event) := by
  unfold pluginsAfter
  cases h : e.event with
  | start s => rfl
  | packet s d data => simp only [relayRegistry_packet]; rfl
  | finish s => rfl
  | check s limit => rfl
  | updateTimeouts idle duration => rfl

end

/-! ## Steps -/

variable [DecidableEq S]

/-- The registry, and what has happened so far with the latest first. -/
structure Process (S : Type) where
  plugins : PluginRegistry RelayPlugin
  history : List (Timed S)

namespace Process

def Running (p : Process S) (s : S) : Prop :=
  (∃ e ∈ p.history, e.event = .start s) ∧ ∀ e ∈ p.history, e.event ≠ .finish s

/-- A session starts once, and the rest of it comes after its start and before its end. The
clock does not go back. -/
def Allows (p : Process S) (e : Timed S) : Prop :=
  (∀ past ∈ p.history, past.now ≤ e.now) ∧
    match e.event with
    | .start s => ∀ past ∈ p.history, past.event.session ≠ some s
    | .packet s _ _ | .finish s | .check s _ => p.Running s
    | .updateTimeouts _ _ => True

instance (p : Process S) (s : S) : Decidable (p.Running s) := inferInstanceAs (Decidable (_ ∧ _))

instance (p : Process S) : ∀ e : Timed S, Decidable (p.Allows e)
  | ⟨_, .start _⟩ | ⟨_, .packet _ _ _⟩ | ⟨_, .finish _⟩ | ⟨_, .check _ _⟩ | ⟨_, .updateTimeouts _ _⟩ =>
    inferInstanceAs (Decidable (_ ∧ _))

variable (ctx : S → SessionContext)

def step (p : Process S) (e : Timed S) : Option (Process S) :=
  if p.Allows e then some ⟨pluginsAfter ctx p.plugins e, e :: p.history⟩ else none

def initial (idleTimeout maxSessionDuration : Int) : Process S :=
  ⟨runServerPlugins idleTimeout maxSessionDuration, []⟩

/-- What `_pipe` writes for a packet. -/
def forwarded (p : Process S) (now : Rat) (s : S) (d : Direction) (data : Bytes) : Bytes :=
  (p.plugins.onPacket now d data (ctx s)).2

variable {ctx}

theorem step_eq_some {p p' : Process S} {e : Timed S} : step ctx p e = some p' ↔
    p.Allows e ∧ p' = ⟨pluginsAfter ctx p.plugins e, e :: p.history⟩ := by
  unfold step
  split_ifs with h <;> simp [h, eq_comm]

end Process

def plainContext (s : Bool) : SessionContext :=
  handlerContext (if s then "c1" else "c0") REQUESTED_PROTOCOLS_HYBRID requested_protocols_hybrid_lt

end RdpProxy.Relay
