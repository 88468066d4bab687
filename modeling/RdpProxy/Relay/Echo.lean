import RdpProxy.Rdp.ConnectResponse
import RdpProxy.Rdp.X224
import RdpProxy.Relay.Plugins

/-!
# The echo of the requested protocols

The handler reads `requestedProtocols` out of the client's X.224 request, and the first
backend packet of the session is to carry them back.
-/

open Words RdpProxy.Rdp

namespace RdpProxy.Relay

def requestContext (connectionId : String) (x224Request : Bytes) : SessionContext :=
  handlerContext connectionId (extractRequestedProtocols x224Request) (extractRequestedProtocols_lt x224Request)

def McsPatchPlugin.firstBackendPacket (plugin : McsPatchPlugin) (ctx : SessionContext) (data : Bytes) : Option Bytes :=
  ((plugin.onSessionStart ctx).onBackendPacket data ctx).2

/-- However the request is read and wherever the scan of the response stops, the bytes written
are those of the client's protocols in the field of the core. -/
def EchoesRequest (r : ConnectionRequest) (p : ConnectResponse) : Prop :=
  ∀ v, r.ReadAs v → ∀ i, FirstAt (ScCoreAt p.bytes) i →
    SameWrite p.bytes (i + 8) (leBytes 4 v) (p.coreOffset + 8) (leBytes 4 r.requestedProtocols)

theorem firstBackendPacket_eq (plugin : McsPatchPlugin) (connectionId : String) (request data : Bytes) :
    plugin.firstBackendPacket (requestContext connectionId request) data =
      patchMcsServer data (some (extractRequestedProtocols request)) := rfl

theorem echoes_iff (plugin : McsPatchPlugin) (connectionId : String) (r : ConnectionRequest)
    (p : ConnectResponse) : plugin.firstBackendPacket (requestContext connectionId r.payload) p.bytes =
      some (p.echoing r.requestedProtocols).bytes ↔ EchoesRequest r p := by
  have hread : r.ReadAs (extractRequestedProtocols r.payload) := (r.readAs_iff _).mpr rfl
  obtain ⟨i, _, hi⟩ := exists_firstAt p.core_scCoreAt
  have hroom := hi.1.room (n := 12) (by omega)
  have hcore := p.core_scCoreAt.room (n := 12) (by omega)
  have hpatch : patchMcsServer p.bytes (some (extractRequestedProtocols r.payload)) =
      some (splice p.bytes (i + 8) (leBytes 4 (extractRequestedProtocols r.payload))) :=
    patchMcsServer_first (extractRequestedProtocols_lt r.payload) hi
  rw [firstBackendPacket_eq, hpatch, Option.some.injEq, p.echoing_bytes,
    splice_eq_splice_iff (by rw [leBytes_length]; omega) (by rw [leBytes_length]; omega)]
  constructor
  · intro h v hv j hj
    rw [hj.unique hi, ← (r.readAs_iff v).mp hv]
    exact h
  · intro h
    exact h _ hread i hi

theorem echoesRequest_of_core_first (r : ConnectionRequest) (p : ConnectResponse)
    (h : FirstAt (ScCoreAt p.bytes) p.coreOffset) :
    EchoesRequest r p ↔ ∀ v, r.ReadAs v → v = r.requestedProtocols := by
  have hsame : ∀ v, r.ReadAs v → (SameWrite p.bytes (p.coreOffset + 8) (leBytes 4 v) (p.coreOffset + 8)
      (leBytes 4 r.requestedProtocols) ↔ v = r.requestedProtocols) := by
    intro v hv
    have hlt : v < 256 ^ 4 := by
      rw [← (r.readAs_iff v).mp hv]
      exact extractRequestedProtocols_lt _
    rw [sameWrite_iff_eq (by simp)]
    refine ⟨fun he => ?_, fun he => by rw [he]⟩
    rw [← leNat_leBytes_of_lt hlt, he, leNat_leBytes_of_lt r.protocolsFit]
  constructor
  · intro he v hv
    exact (hsame v hv).mp (he v hv _ h)
  · intro he v hv i hi
    rw [hi.unique h]
    exact (hsame v hv).mpr (he v hv)

/-! ## A request with a flag -/

/-- Restricted admin mode with SSL, HYBRID and HYBRID_EX, and no routing token. -/
def restrictedAdmin : ConnectionRequest :=
  { plainRequest 0x0B (by decide) with
    flags := 0x01
    flagsLegal := by decide
    announced := by decide }

/-- The flag hides the marker, so the default 3 is echoed to a client that asked for 11. -/
theorem flag_hides_protocols :
    (McsPatchPlugin.firstBackendPacket {} (requestContext "c0" restrictedAdmin.payload) shortResponse.bytes =
      some (shortResponse.echoing 3).bytes) ∧
    (shortResponse.echoing 3).bytes ≠ (shortResponse.echoing restrictedAdmin.requestedProtocols).bytes := by
  decide +kernel

end RdpProxy.Relay
