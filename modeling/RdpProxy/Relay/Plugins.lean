import Mathlib.Data.Rat.Defs
import RdpProxy.Rdp.Mcs

/-!
# Plugins of the relay (`rdp_relay/plugins`)

A hook takes the plugin as it is and returns it as it is afterwards, with `none` for a packet
where it raised. No hook that touches a packet or a clock suspends, so a call is one step.
-/

open Words RdpProxy.Rdp

namespace RdpProxy.Relay

/-! ## The interface -/

/-- The parts of `SessionContext` that the hooks read: the id, and three entries of `extra`. -/
structure SessionContext where
  connectionId : String
  clientRequestedProtocols : Option Nat
  clientSocket : Bool
  backendSocket : Bool
  /-- The handler reads the protocols from four bytes. -/
  protocolsFit : ∀ v ∈ clientRequestedProtocols, v < 256 ^ 4

/-- What `patch_mcs_server` writes in this session. -/
def SessionContext.target (ctx : SessionContext) : Nat := ctx.clientRequestedProtocols.getD PROTOCOL_SSL

theorem SessionContext.target_lt (ctx : SessionContext) : ctx.target < 256 ^ 4 := by
  unfold SessionContext.target
  cases h : ctx.clientRequestedProtocols with
  | none => exact (by decide : PROTOCOL_SSL < 256 ^ 4)
  | some v => exact ctx.protocolsFit v h

def handlerContext (connectionId : String) (clientRequestedProtocols : Nat)
    (h : clientRequestedProtocols < 256 ^ 4) : SessionContext where
  connectionId := connectionId
  clientRequestedProtocols := some clientRequestedProtocols
  clientSocket := true
  backendSocket := true
  protocolsFit := by
    intro v hv
    cases hv
    exact h

inductive Direction where
  | clientToBackend
  | backendToClient
  deriving DecidableEq, Repr

instance (p : Direction → Prop) [DecidablePred p] : Decidable (∀ d, p d) :=
  decidable_of_iff (p .clientToBackend ∧ p .backendToClient)
    ⟨fun h d => match d with | .clientToBackend => h.1 | .backendToClient => h.2, fun h => ⟨h _, h _⟩⟩

/-- The hooks, with the reading of `time.monotonic` at the call. -/
class RdpPlugin (P : Type) where
  onSessionStart : P → Rat → SessionContext → P
  onClientPacket : P → Rat → Bytes → SessionContext → P × Option Bytes
  onBackendPacket : P → Rat → Bytes → SessionContext → P × Option Bytes
  onSessionEnd : P → Rat → SessionContext → P

structure PluginRegistry (P : Type) where
  plugins : List P

namespace PluginRegistry

variable {P : Type} [RdpPlugin P]

/-- The loop of a packet hook. Where a plugin raises, the next one gets what it got. -/
def passThrough (hook : P → Bytes → P × Option Bytes) : List P → Bytes → List P × Bytes
  | [], data => ([], data)
  | p :: rest, data =>
    let (p', result) := hook p data
    let (rest', out) := passThrough hook rest (result.getD data)
    (p' :: rest', out)

def getPlugin {Q : Type} (registry : PluginRegistry P) (pluginType : P → Option Q) : Option Q :=
  registry.plugins.findSome? pluginType

def onSessionStart (registry : PluginRegistry P) (now : Rat) (ctx : SessionContext) : PluginRegistry P :=
  ⟨registry.plugins.map fun p => RdpPlugin.onSessionStart p now ctx⟩

def onClientPacket (registry : PluginRegistry P) (now : Rat) (data : Bytes) (ctx : SessionContext) :
    PluginRegistry P × Bytes :=
  let (plugins, out) := passThrough (fun p data => RdpPlugin.onClientPacket p now data ctx) registry.plugins data
  (⟨plugins⟩, out)

def onBackendPacket (registry : PluginRegistry P) (now : Rat) (data : Bytes) (ctx : SessionContext) :
    PluginRegistry P × Bytes :=
  let (plugins, out) := passThrough (fun p data => RdpPlugin.onBackendPacket p now data ctx) registry.plugins data
  (⟨plugins⟩, out)

def onPacket (registry : PluginRegistry P) (now : Rat) (d : Direction) (data : Bytes) (ctx : SessionContext) :
    PluginRegistry P × Bytes :=
  match d with
  | .clientToBackend => registry.onClientPacket now data ctx
  | .backendToClient => registry.onBackendPacket now data ctx

def onSessionEnd (registry : PluginRegistry P) (now : Rat) (ctx : SessionContext) : PluginRegistry P :=
  ⟨registry.plugins.map fun p => RdpPlugin.onSessionEnd p now ctx⟩

end PluginRegistry

/-! ## The plugins -/

structure McsPatchPlugin where
  clientFirst : Bool := true
  backendFirst : Bool := true
  deriving DecidableEq

namespace McsPatchPlugin

def onSessionStart (_ : McsPatchPlugin) (_ : SessionContext) : McsPatchPlugin :=
  { clientFirst := true, backendFirst := true }

def onClientPacket (p : McsPatchPlugin) (data : Bytes) (_ : SessionContext) : McsPatchPlugin × Option Bytes :=
  if p.clientFirst then ({ p with clientFirst := false }, patchMcsClient data) else (p, some data)

def onBackendPacket (p : McsPatchPlugin) (data : Bytes) (ctx : SessionContext) : McsPatchPlugin × Option Bytes :=
  if p.backendFirst then
    let crp := ctx.clientRequestedProtocols
    ({ p with backendFirst := false }, patchMcsServer data crp)
  else (p, some data)

end McsPatchPlugin

def DEFAULT_IDLE_TIMEOUT : Int := 3600
def DEFAULT_MAX_SESSION_DURATION : Int := 0

structure SessionMonitorPlugin where
  idleTimeout : Int := DEFAULT_IDLE_TIMEOUT
  maxSessionDuration : Int := DEFAULT_MAX_SESSION_DURATION
  lastActivity : Rat := 0
  startedAt : Rat := 0

namespace SessionMonitorPlugin

def updateTimeouts (p : SessionMonitorPlugin) (idleTimeout maxSessionDuration : Int) : SessionMonitorPlugin :=
  { p with idleTimeout := idleTimeout, maxSessionDuration := maxSessionDuration }

def onSessionStart (p : SessionMonitorPlugin) (now : Rat) : SessionMonitorPlugin :=
  { p with lastActivity := now, startedAt := now }

/-- Both packet hooks. -/
def onPacket (p : SessionMonitorPlugin) (now : Rat) (data : Bytes) : SessionMonitorPlugin × Option Bytes :=
  ({ p with lastActivity := now }, some data)

def isIdle (p : SessionMonitorPlugin) (now : Rat) : Bool :=
  p.idleTimeout > 0 && now - p.lastActivity > p.idleTimeout

def isDurationExceeded (p : SessionMonitorPlugin) (now : Rat) : Bool :=
  if p.maxSessionDuration ≤ 0 then false else now - p.startedAt > p.maxSessionDuration

end SessionMonitorPlugin

/-- The connections with a monitoring task. What the tasks publish touches no packet. -/
structure ConnectionQualityPlugin where
  tasks : List String := []

namespace ConnectionQualityPlugin

def onSessionStart (p : ConnectionQualityPlugin) (ctx : SessionContext) : ConnectionQualityPlugin :=
  if ctx.clientSocket && ctx.backendSocket then ⟨ctx.connectionId :: p.tasks.erase ctx.connectionId⟩ else p

def onSessionEnd (p : ConnectionQualityPlugin) (ctx : SessionContext) : ConnectionQualityPlugin :=
  ⟨p.tasks.erase ctx.connectionId⟩

end ConnectionQualityPlugin

inductive RelayPlugin where
  | mcsPatch (p : McsPatchPlugin)
  | sessionMonitor (p : SessionMonitorPlugin)
  | connectionQuality (p : ConnectionQualityPlugin)

instance : RdpPlugin RelayPlugin where
  onSessionStart
    | .mcsPatch p, _, ctx => .mcsPatch (p.onSessionStart ctx)
    | .sessionMonitor p, now, _ => .sessionMonitor (p.onSessionStart now)
    | .connectionQuality p, _, ctx => .connectionQuality (p.onSessionStart ctx)
  onClientPacket
    | .mcsPatch p, _, data, ctx => (p.onClientPacket data ctx).map .mcsPatch id
    | .sessionMonitor p, now, data, _ => (p.onPacket now data).map .sessionMonitor id
    | .connectionQuality p, _, data, _ => (.connectionQuality p, some data)
  onBackendPacket
    | .mcsPatch p, _, data, ctx => (p.onBackendPacket data ctx).map .mcsPatch id
    | .sessionMonitor p, now, data, _ => (p.onPacket now data).map .sessionMonitor id
    | .connectionQuality p, _, data, _ => (.connectionQuality p, some data)
  onSessionEnd
    | .mcsPatch p, _, _ => .mcsPatch p
    | .sessionMonitor p, _, _ => .sessionMonitor p
    | .connectionQuality p, _, ctx => .connectionQuality (p.onSessionEnd ctx)

/-! ## The registry of `run_server` -/

def relayRegistry (p : McsPatchPlugin) (m : SessionMonitorPlugin) (q : ConnectionQualityPlugin) :
    PluginRegistry RelayPlugin :=
  ⟨[.mcsPatch p, .sessionMonitor m, .connectionQuality q]⟩

def runServerPlugins (idleTimeout maxSessionDuration : Int) : PluginRegistry RelayPlugin :=
  relayRegistry {} { idleTimeout := idleTimeout, maxSessionDuration := maxSessionDuration } {}

def sessionMonitor : RelayPlugin → Option SessionMonitorPlugin
  | .sessionMonitor m => some m
  | _ => none

namespace McsPatchPlugin

def onPacket (p : McsPatchPlugin) (d : Direction) (data : Bytes) (ctx : SessionContext) :
    McsPatchPlugin × Option Bytes :=
  match d with
  | .clientToBackend => p.onClientPacket data ctx
  | .backendToClient => p.onBackendPacket data ctx

/-- Whether the next packet of a direction is patched. -/
def first (p : McsPatchPlugin) : Direction → Bool
  | .clientToBackend => p.clientFirst
  | .backendToClient => p.backendFirst

def patch (d : Direction) (data : Bytes) (ctx : SessionContext) : Option Bytes :=
  match d with
  | .clientToBackend => patchMcsClient data
  | .backendToClient => patchMcsServer data ctx.clientRequestedProtocols

variable (p : McsPatchPlugin) (d : Direction) (data : Bytes) (ctx : SessionContext)

theorem onPacket_out : (p.onPacket d data ctx).2 = if p.first d then patch d data ctx else some data := by
  cases d with
  | clientToBackend => cases h : p.clientFirst <;> simp [onPacket, onClientPacket, first, patch, h]
  | backendToClient => cases h : p.backendFirst <;> simp [onPacket, onBackendPacket, first, patch, h]

theorem onPacket_first (d' : Direction) :
    (p.onPacket d data ctx).1.first d' = (p.first d' && decide (d' ≠ d)) := by
  cases d with
  | clientToBackend => cases h : p.clientFirst <;> cases d' <;> simp [onPacket, onClientPacket, first, h]
  | backendToClient => cases h : p.backendFirst <;> cases d' <;> simp [onPacket, onBackendPacket, first, h]

/-- The packet holds nothing for the patch of its direction to change. -/
def Untouched (d : Direction) (data : Bytes) (ctx : SessionContext) : Prop :=
  match d with
  | .clientToBackend => ∀ i, FirstAt (CsCoreAt data) i → unpackLE 4 data (i + 212) ≠ some PROTOCOL_SSL
  | .backendToClient => ∀ i, FirstAt (ScCoreAt data) i → unpackLE 4 data (i + 8) = some ctx.target

theorem patch_eq_self_iff : patch d data ctx = some data ↔ Untouched d data ctx := by
  cases d with
  | clientToBackend =>
    rcases patchMcsClient_cases data with ⟨i, hi, hres⟩ | ⟨hno, hres⟩
    · rw [patch, hres, Option.some.injEq, bridgeAt_eq_self_iff]
      exact ⟨fun h j hj => by rwa [hj.unique hi], fun h => h i hi⟩
    · rw [patch, hres]
      exact ⟨fun _ i hi => absurd hi.1 (hno i), fun _ => rfl⟩
  | backendToClient =>
    rcases patchMcsServer_cases data ctx.target_lt with ⟨i, hi, hres⟩ | ⟨hno, hres⟩
    · have hroom := hi.1.room (n := 12) (by omega)
      have hword : splice data (i + 8) (leBytes 4 ctx.target) = data ↔ unpackLE 4 data (i + 8) = some ctx.target := by
        rw [splice_eq_iff (by rw [leBytes_length]; omega), leBytes_length, unpackLE_iff_window ctx.target_lt]
        exact ⟨fun h => ⟨by omega, h⟩, fun h => h.2⟩
      rw [patch, hres, Option.some.injEq]
      refine hword.trans ⟨fun h j hj => by rwa [hj.unique hi], fun h => h i hi⟩
    · rw [patch, hres]
      exact ⟨fun _ i hi => absurd hi.1 (hno i), fun _ => rfl⟩

instance : Decidable (Untouched d data ctx) := decidable_of_iff _ (patch_eq_self_iff d data ctx)

theorem patch_isSome : ∃ out, patch d data ctx = some out := by
  cases d with
  | clientToBackend => rcases patchMcsClient_cases data with ⟨_, _, h⟩ | ⟨_, h⟩ <;> exact ⟨_, h⟩
  | backendToClient =>
    rcases patchMcsServer_cases data ctx.target_lt with ⟨_, _, h⟩ | ⟨_, h⟩ <;> exact ⟨_, h⟩

end McsPatchPlugin

section
variable (p : McsPatchPlugin) (m : SessionMonitorPlugin) (q : ConnectionQualityPlugin) (now : Rat)
  (ctx : SessionContext)

theorem relayRegistry_start : (relayRegistry p m q).onSessionStart now ctx =
    relayRegistry (p.onSessionStart ctx) (m.onSessionStart now) (q.onSessionStart ctx) := rfl

theorem relayRegistry_packet (d : Direction) (data : Bytes) : (relayRegistry p m q).onPacket now d data ctx =
    (relayRegistry (p.onPacket d data ctx).1 { m with lastActivity := now } q,
      (p.onPacket d data ctx).2.getD data) := by
  cases d <;> rfl

theorem relayRegistry_monitor : (relayRegistry p m q).getPlugin sessionMonitor = some m := rfl

end

end RdpProxy.Relay
