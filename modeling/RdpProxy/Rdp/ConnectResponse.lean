import RdpProxy.Rdp.ConnectPdu

/-!
# The backend's Connect-Response
-/

open Words Ber

namespace RdpProxy.Rdp

structure ConnectResponse extends ConnectPdu where
  result : Tlv [0x0A]
  calledConnectId : Natural
  domainParameters : DomainParameters
  nodeId : UInt8 × UInt8
  tag : Bytes
  conferenceResult : UInt8
  resultOctet : result.content.length = 1
  tagFits : tag ≠ [] ∧ tag.length < 128
  application : envelope.application = 0x66
  elements : envelope.elements = result.bytes ++ calledConnectId.bytes ++ domainParameters.bytes
  /-- The conference create response up to the length of its user data. The key is `McDn`. -/
  head : envelope.head = [0x14, nodeId.1, nodeId.2] ++ (UInt8.ofNat tag.length :: tag) ++
    [conferenceResult, 0x01, 0xC0, 0x00, 0x4D, 0x63, 0x44, 0x6E]
  coreType : core.blockType = TS_UD_SC_CORE
  otherTypes : ∀ block ∈ before ++ after, block.blockType ≠ TS_UD_SC_CORE
  /-- The version and `clientRequestedProtocols`, and maybe `earlyCapabilityFlags`. -/
  coreFields : core.data.length = 8 ∨ core.data.length = 12

namespace ConnectResponse

variable (p : ConnectResponse)

theorem echo_room : 4 + 4 ≤ p.core.data.length := by rcases p.coreFields with h | h <;> omega

def echoing (requestedProtocols : Nat) : ConnectPdu :=
  p.withCore (splice p.core.data 4 (leBytes 4 requestedProtocols))
    (splice_length (by rw [leBytes_length]; exact p.echo_room))

theorem echoing_bytes (requestedProtocols : Nat) : (p.echoing requestedProtocols).bytes =
    splice p.bytes (p.coreOffset + 8) (leBytes 4 requestedProtocols) :=
  (p.splice_core (k := 4) (by rw [leBytes_length]; exact p.echo_room)).symm

theorem core_scCoreAt : ScCoreAt p.bytes p.coreOffset := by
  have hat := p.core_blockAt 12 (by have := p.echo_room; omega)
  rwa [p.coreType] at hat

end ConnectResponse

/-! ## A short response -/

def shortEnvelope : Envelope where
  application := 0x66
  elements := (Tlv.short [0x00] (by decide) : Tlv [0x0A]).bytes ++ Natural.zero.bytes ++ usualDomain.bytes
  head := [0x14, 0x76, 0x0A, 0x01, 0x01, 0x00, 0x01, 0xC0, 0x00, 0x4D, 0x63, 0x44, 0x6E]
  bodyLength := .short 80 (by decide)
  userDataLength := .short 44 (by decide)
  pduLength := .long 35 (by decide)
  blocksLength := .long 20 (by decide)

/-- A backend that took part in HYBRID only, with an `SC_NET` of no channels behind the core. -/
def shortResponse : ConnectResponse where
  envelope := shortEnvelope
  before := []
  core := ⟨TS_UD_SC_CORE, [0x04, 0x00, 0x08, 0x00, 0x03, 0x00, 0x00, 0x00], by decide, by decide⟩
  after := [⟨0x0C03, [0xEB, 0x03, 0x00, 0x00], by decide, by decide⟩]
  fits := by constructor <;> decide +kernel
  result := .short [0x00] (by decide)
  calledConnectId := .zero
  domainParameters := usualDomain
  nodeId := (0x76, 0x0A)
  tag := [0x01]
  conferenceResult := 0x00
  resultOctet := rfl
  tagFits := by decide
  application := rfl
  elements := rfl
  head := rfl
  coreType := rfl
  otherTypes := by decide
  coreFields := Or.inl rfl

end RdpProxy.Rdp
