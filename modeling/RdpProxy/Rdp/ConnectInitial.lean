import RdpProxy.Rdp.ConnectPdu

/-!
# The client's Connect-Initial

`patch_mcs_client` looks for `CS_CORE` by its type bytes. Exactly when the scan meets them
earlier, with a length that fits, may it bridge the wrong word or none.
-/

open Words Ber

namespace RdpProxy.Rdp

/-! ## Well-formed packets -/

/-- The optional fields of `CS_CORE`, of which a client sends a prefix. The tenth is
`serverSelectedProtocol`. -/
def csCoreOptionalSizes : List Nat := [2, 2, 4, 2, 2, 2, 64, 1, 1, 4, 4, 4, 2, 4, 4]

/-- The conference create request up to the length of its user data. The key is `Duca`. -/
def createRequestHead : Bytes := [0x00, 0x08, 0x00, 0x10, 0x00, 0x01, 0xC0, 0x00, 0x44, 0x75, 0x63, 0x61]

structure ConnectInitial extends ConnectPdu where
  callingDomainSelector : Tlv [0x04]
  calledDomainSelector : Tlv [0x04]
  upwardFlag : Tlv [0x01]
  targetParameters : DomainParameters
  minimumParameters : DomainParameters
  maximumParameters : DomainParameters
  flagOctet : upwardFlag.content.length = 1
  application : envelope.application = 0x65
  elements : envelope.elements = callingDomainSelector.bytes ++ calledDomainSelector.bytes ++ upwardFlag.bytes ++
    targetParameters.bytes ++ minimumParameters.bytes ++ maximumParameters.bytes
  head : envelope.head = createRequestHead
  coreType : core.blockType = TS_UD_CS_CORE
  otherTypes : ∀ block ∈ before ++ after, block.blockType ≠ TS_UD_CS_CORE
  coreFields : ∃ n ≤ csCoreOptionalSizes.length,
    core.data.length = 128 + (csCoreOptionalSizes.take n).sum

namespace ConnectInitial

variable (p : ConnectInitial)

def serverSelectedProtocol : Option Nat := unpackLE 4 p.core.data 208

theorem selected_room {v : Nat} (h : p.serverSelectedProtocol = some v) : 212 ≤ p.core.data.length :=
  (unpackLE_eq_some.mp h).1

/-- What the backend should see: HYBRID in the field where the client wrote SSL. -/
def bridged : ConnectPdu :=
  if h : p.serverSelectedProtocol = some PROTOCOL_SSL then
    p.withCore (splice p.core.data 208 (leBytes 4 PROTOCOL_HYBRID))
      (splice_length (by rw [leBytes_length]; exact p.selected_room h))
  else p.toConnectPdu

/-- The first block the scan takes is the core, or else neither its word nor the field of the
core reads as SSL. -/
def ScanHarmless : Prop :=
  ∀ i, FirstAt (CsCoreAt p.bytes) i →
    i = p.coreOffset ∨
      unpackLE 4 p.bytes (i + 212) ≠ some PROTOCOL_SSL ∧ p.serverSelectedProtocol ≠ some PROTOCOL_SSL

/-! ## The patch -/

theorem unpack_selected (h : 212 ≤ p.core.data.length) :
    unpackLE 4 p.bytes (p.coreOffset + 212) = p.serverSelectedProtocol :=
  p.unpack_core (w := 4) (k := 208) h

theorem core_csCoreAt (h : 212 ≤ p.core.data.length) : CsCoreAt p.bytes p.coreOffset := by
  have hat := p.core_blockAt 216 (by omega)
  rwa [p.coreType] at hat

theorem bridged_ssl (h : p.serverSelectedProtocol = some PROTOCOL_SSL) :
    p.bridged.bytes = bridgeAt p.bytes (p.coreOffset + 212) := by
  have hroom := p.selected_room h
  rw [bridged, dif_pos h, bridgeAt, if_pos (by rw [p.unpack_selected hroom, h])]
  exact (p.splice_core (k := 208) (by rw [leBytes_length]; exact hroom)).symm

theorem bridged_other (h : p.serverSelectedProtocol ≠ some PROTOCOL_SSL) : p.bridged.bytes = p.bytes := by
  rw [bridged, dif_neg h]

theorem patch_of_ssl (i : Nat) (h : p.serverSelectedProtocol = some PROTOCOL_SSL) :
    bridgeAt p.bytes (i + 212) = p.bridged.bytes ↔ i = p.coreOffset := by
  rw [p.bridged_ssl h, bridgeAt_eq_iff, p.unpack_selected (p.selected_room h), h]
  constructor
  · rintro (h | ⟨_, h⟩)
    · omega
    · exact absurd rfl h
  · intro h
    exact Or.inl (by rw [h])

theorem patch_of_other {i : Nat} (hi : FirstAt (CsCoreAt p.bytes) i)
    (h : p.serverSelectedProtocol ≠ some PROTOCOL_SSL) : bridgeAt p.bytes (i + 212) = p.bridged.bytes ↔
      i = p.coreOffset ∨ unpackLE 4 p.bytes (i + 212) ≠ some PROTOCOL_SSL := by
  rw [p.bridged_other h, bridgeAt_eq_self_iff]
  refine ⟨Or.inr, ?_⟩
  rintro (rfl | hne)
  · -- The scan took the core, so the field is there.
    obtain ⟨len, _, hlen, h216, _⟩ := hi.1
    rw [p.unpack_length] at hlen
    cases hlen
    rwa [p.unpack_selected (by omega)]
  · exact hne

/-- The client patch does to a Connect-Initial what it is meant to, exactly when the scan is harmless. -/
theorem patch_bridges_iff : patchMcsClient p.bytes = some p.bridged.bytes ↔ p.ScanHarmless := by
  rcases patchMcsClient_cases p.bytes with ⟨i, hi, hres⟩ | ⟨hno, hres⟩
  · have hcond : p.ScanHarmless ↔ (i = p.coreOffset ∨
        unpackLE 4 p.bytes (i + 212) ≠ some PROTOCOL_SSL ∧ p.serverSelectedProtocol ≠ some PROTOCOL_SSL) := by
      refine ⟨fun h => h i hi, fun h j hj => ?_⟩
      rwa [hj.unique hi]
    rw [hres, Option.some.injEq, hcond]
    by_cases hssl : p.serverSelectedProtocol = some PROTOCOL_SSL
    · rw [p.patch_of_ssl i hssl]
      simp [hssl]
    · rw [p.patch_of_other hi hssl]
      simp [hssl]
  · -- Without a block to take there is no field either.
    have hother : p.serverSelectedProtocol ≠ some PROTOCOL_SSL := fun h =>
      hno _ (p.core_csCoreAt (p.selected_room h))
    rw [hres, p.bridged_other hother]
    exact ⟨fun _ i hi => absurd hi.1 (hno i), fun _ => rfl⟩

end ConnectInitial

/-! ## A large PDU size -/

/-- A desktop of 1024 by 768 that reports SSL as the protocol the server selected. -/
def desktopCore : TsUdBlock where
  blockType := TS_UD_CS_CORE
  data := [0x04, 0x00, 0x08, 0x00, 0x00, 0x04, 0x00, 0x03, 0x01, 0xCA, 0x03, 0xAA, 0x09, 0x04, 0x00, 0x00, 0x28,
    0x0A, 0x00, 0x00] ++ List.replicate 32 0 ++ [0x04, 0, 0, 0, 0, 0, 0, 0, 0x0C, 0, 0, 0] ++
    List.replicate 64 0 ++ [0x01, 0xCA, 0x01, 0, 0, 0, 0, 0, 0x10, 0, 0x07, 0, 0x01, 0] ++
    List.replicate 64 0 ++ [0, 0, 0x01, 0, 0, 0]
  typeFits := by decide
  lengthFits := by decide +kernel

def selector : Tlv [0x04] := .short [0x01] (by decide)
def upward : Tlv [0x01] := .short [0xFF] (by decide)

/-- 0x01C0D800. -/
def wideBound : Natural where
  toTlv := .short [0x01, 0xC0, 0xD8, 0x00] (by decide)
  minimal := ⟨0x01, [0xC0, 0xD8, 0x00], rfl, by decide, by simp⟩

/-- Domains of PDUs up to 1056 and 0x01C0D800 bytes. -/
def smallDomain : DomainParameters :=
  parametersUpTo (.ofOctets 0x04 [0x20] (by decide) (by decide) (by decide)) (by decide)
def wideDomain : DomainParameters := parametersUpTo wideBound (by decide)

def desktopEnvelope (maximum : DomainParameters) (bodyLength : Ber.Length) : Envelope where
  application := 0x65
  elements := selector.bytes ++ selector.bytes ++ upward.bytes ++ usualDomain.bytes ++ smallDomain.bytes ++
    maximum.bytes
  head := createRequestHead
  bodyLength := bodyLength
  userDataLength := .long [0xEF] (by decide)
  pduLength := .long 230 (by decide)
  blocksLength := .long 216 (by decide)

def desktop (maximum : DomainParameters) (bodyLength : Ber.Length)
    (fits : (desktopEnvelope maximum bodyLength).Fits desktopCore.bytes) : ConnectInitial where
  envelope := desktopEnvelope maximum bodyLength
  before := []
  core := desktopCore
  after := []
  fits := by simpa using fits
  callingDomainSelector := selector
  calledDomainSelector := selector
  upwardFlag := upward
  targetParameters := usualDomain
  minimumParameters := smallDomain
  maximumParameters := maximum
  flagOctet := rfl
  application := rfl
  elements := rfl
  head := rfl
  coreType := rfl
  otherTypes := by simp
  coreFields := ⟨10, by decide, by decide +kernel⟩

def usualClient : ConnectInitial :=
  desktop usualDomain (.long [0x01, 0x4E] (by decide)) (by constructor <;> decide +kernel)

def wideClient : ConnectInitial :=
  desktop wideDomain (.long [0x01, 0x4F] (by decide)) (by constructor <;> decide +kernel)

/-- The octets of the wide bound read as the start of a `CS_CORE` of 216 bytes. -/
theorem core_skipped : wideClient.serverSelectedProtocol = some PROTOCOL_SSL ∧
    patchMcsClient wideClient.bytes = some wideClient.bytes ∧
    wideClient.bridged.bytes ≠ wideClient.bytes := by
  decide +kernel

end RdpProxy.Rdp
