import RdpProxy.Rdp.X224
import RdpProxy.Relay.HandlerState
import RdpProxy.Relay.KillReason
import RdpProxy.Store.TokenKill

/-!
# The handler of one connection (`services/rdp_relay/handler.py`)

The calls of `RdpConnectionHandler.__call__`, with those of the tracker, in their order.
-/

open Words Faulty

namespace RdpProxy.Relay

open Rdp Tracker
open Store (TokenPayload)

/-! ## The calls -/

inductive Call where
  | readProxyProtocol
  | readTpkt
  | getSession
  | tokenFingerprintMatches
  | setTokenFingerprint
  | insertHistory
  | setActiveSession
  | setConnToken
  | event (eventType : String)
  | resolve
  | drain
  | makeTlsContext
  | startTls
  | connectAndAuthenticate
  | onSessionStart (plugin : String)
  | onSessionEnd (plugin : String)
  | getKillSession
  | updateHistory
  | deleteActiveSession
  | deleteSession
  | deleteConnToken
  deriving DecidableEq

/-- The calls whose failure is caught where they are made. -/
def Call.Swallowed : Call → Prop
  | .readProxyProtocol | .onSessionStart _ | .onSessionEnd _ => True
  | _ => False

inductive HandlerError where
  /-- `IncompleteReadError`, `ConnectionResetError`, `ConnectionAbortedError` or `BrokenPipeError`. -/
  | disconnected
  | other

abbrev HandlerFault := Fault Call HandlerError

abbrev HandlerWorld := World Call HandlerError Other HandlerState

abbrev Handler := Prog Call HandlerError Other HandlerState

/-- What the settings say and what the calls of one run answer. -/
structure Answers where
  instanceId : String
  connectionId : String
  /-- `proxy_protocol` is on and the peer is a trusted proxy. -/
  proxyProtocol : Bool
  peerIp : String
  srcAddr : String
  x224Request : Bytes
  session : Option TokenPayload
  tokenFingerprintEnforce : Bool
  fingerprintMatches : Bool
  startedAt : String
  resolvedHost : String
  relayResult : RelayResult
  durationExceeded : Bool
  deleteTokenOnDisconnect : Bool

/-! ## The tracker -/

def event (eventType : String) : Handler Unit := ask (.event eventType) ()

def deleteConnToken : Handler Unit := call .deleteConnToken fun s => ((), { s with connToken := none })

namespace ConnectionTracker

def payload (x : Answers) (session : TokenPayload) (clientIp : String) : ActivePayload where
  username := session.username
  serverDisplay := session.serverDisplay
  serverAddress := session.targetHost
  serverPort := session.targetPort
  clientIp := clientIp
  startedAt := x.startedAt
  instanceId := x.instanceId

def start (x : Answers) (session : TokenPayload) (clientIp : String) : Handler Unit := do
  call .insertHistory fun s => ((), { s with row := some (.started x.instanceId) })
  call .setActiveSession fun s => ((), { s with active := some (.object (payload x session clientIp).json) })

def finish (status disconnectReason : String) (bytesToClient bytesToBackend : Int) : Handler Unit := do
  let now ← own fun s => (s.clock, s)
  call .updateHistory fun s => ((), s.update ⟨now, status, some disconnectReason, bytesToClient, bytesToBackend⟩)
  call .deleteActiveSession fun s => ((), { s with active := none })

end ConnectionTracker

/-! ## The handler -/

/-- It swallows whatever `abort` and `close` raise. -/
def abortWriter : Handler Unit := wait fun s => ((), s)

def resolveClientIp (x : Answers) : Handler String :=
  if x.proxyProtocol then tryCatch (ask .readProxyProtocol x.srcAddr) fun _ => pure x.peerIp else pure x.peerIp

/-- The check of the fingerprint, which binds a token that has none. -/
def fingerprintPasses (x : Answers) (session : TokenPayload) : Handler Bool :=
  if x.tokenFingerprintEnforce then
    match session.fingerprint with
    | some _ => ask .tokenFingerprintMatches x.fingerprintMatches
    | none => do
      ask .setTokenFingerprint ()
      pure true
  else pure true

def logResolved (session : TokenPayload) (resolvedHost : String) : Handler Unit :=
  if resolvedHost ≠ session.targetHost then event "dns_resolved" else pure ()

/-- From the mapping of the token to the authentication at the backend. -/
def connect (x : Answers) (token : List Char) (session : TokenPayload) : Handler Unit := do
  call .setConnToken fun s => ((), { s with connToken := some token })
  event "token_resolved"
  let resolvedHost ← ask .resolve x.resolvedHost
  logResolved session resolvedHost
  ask .drain ()
  event "x224_cc_sent"
  ask .makeTlsContext ()
  ask .startTls ()
  event "client_tls_established"
  ask .connectAndAuthenticate ()
  event "credssp_authenticated"

def onSessionStart : Handler Unit := do
  guarded (ask (.onSessionStart "mcs_patch") ())
  guarded (ask (.onSessionStart "session_monitor") ())
  own fun s => ((), { s with monitoring := true })
  guarded (ask (.onSessionStart "connection_quality") ())

/-- The monitor is cancelled before anything in its hook can raise. -/
def onSessionEnd : Handler Unit := do
  guarded (ask (.onSessionEnd "mcs_patch") ())
  guarded (ask (.onSessionEnd "session_monitor") ())
  own fun s => ((), { s with monitoring := false })
  guarded (ask (.onSessionEnd "connection_quality") ())

/-- A failure in a leg or in the poller ends up in the result or in the log. -/
def relayBidirectional (x : Answers) : Handler RelayResult :=
  wait fun s => (x.relayResult, { s with relayed := some x.relayResult })

def RelayResult.wasKilled (result : RelayResult) : Bool := result.legs.any fun leg => leg.reason = "killed"

def readAdminKill (result : RelayResult) : Handler Bool :=
  if result.wasKilled then call .getKillSession fun s => (s.killSession, s) else pure false

def deleteToken (x : Answers) : Handler Unit :=
  if x.deleteTokenOnDisconnect then ask .deleteSession () else pure ()

def endSession (x : Answers) (result : RelayResult) : Handler Unit := do
  event "relay_finished"
  let adminKill ← readAdminKill result
  let fin := finishReason result adminKill x.durationExceeded
  ConnectionTracker.finish fin.1 fin.2 result.bytesToClient result.bytesToBackend
  deleteToken x
  deleteConnToken

def serve (x : Answers) : Handler Unit := do
  let clientIp ← resolveClientIp x
  let x224Request ← ask .readTpkt x.x224Request
  match extractCookieToken x224Request with
  | .error _ => throw .other
  | .ok token =>
    match ← ask .getSession x.session with
    | none => abortWriter
    | some session =>
      if ← fingerprintPasses x session then
        ConnectionTracker.start x session clientIp
        own fun s => ((), { s with trackedCid := some x.connectionId })
        connect x token session
        onSessionStart
        let result ← relayBidirectional x
        onSessionEnd
        endSession x result
      else abortWriter

/-- The body of an `except` branch. -/
def finalize (status disconnectReason : String) (logged : Handler Unit) : Handler Unit := do
  if ← own fun s => (s.trackedCid.isSome, s) then
    guarded do
      logged
      ConnectionTracker.finish status disconnectReason 0 0
      deleteConnToken
  abortWriter

def HandlerError.branch : HandlerError → Handler Unit
  | .disconnected => finalize "closed" "client_disconnect" (pure ())
  | .other => finalize "error" "exception" (event "error")

def handle (x : Answers) : Handler Unit := tryCatch (serve x) HandlerError.branch

/-- The stores when the handler has returned. -/
def handled (x : Answers) (clock : Int) (others : List (List Other)) (fault : Option HandlerFault) : HandlerState :=
  (exec (handle x) ⟨.initial clock, others, fault⟩).2.state

end RdpProxy.Relay
