import RdpProxy.Rdp.Mcs
import RdpProxy.Rdp.Tpkt

/-!
# Connect PDUs

The first MCS packet of either side: GCC blocks in a conference PDU, in a Connect-Initial or
a Connect-Response, in an X.224 Data TPDU, in a TPKT. The grammar is that of the peers; the
relay only scans it.
-/

open Words Ber

namespace RdpProxy.Rdp

/-! ## Blocks -/

/-- A `TS_UD` block. Its length field counts the four bytes of the header. -/
structure TsUdBlock where
  blockType : Nat
  data : Bytes
  typeFits : blockType < 256 ^ 2
  lengthFits : data.length + 4 < 256 ^ 2

def TsUdBlock.header (block : TsUdBlock) : Bytes :=
  leBytes 2 block.blockType ++ leBytes 2 (block.data.length + 4)

def TsUdBlock.bytes (block : TsUdBlock) : Bytes := block.header ++ block.data

def TsUdBlock.withData (block : TsUdBlock) (data : Bytes) (h : data.length = block.data.length) : TsUdBlock :=
  ⟨block.blockType, data, block.typeFits, by rw [h]; exact block.lengthFits⟩

/-! ## Domain parameters -/

structure DomainParameters extends Tlv [0x30] where
  parameters : List Natural
  eight : parameters.length = 8
  encodes : content = parameters.flatMap fun n => n.bytes

def sizedParameters (parameters : List Natural) (h8 : parameters.length = 8)
    (h : (parameters.flatMap fun n => n.bytes).length < 128) : DomainParameters :=
  ⟨Tlv.short _ h, parameters, h8, rfl⟩

/-- The parameters of a client whose largest PDU has `size` bytes. -/
def parametersUpTo (size : Natural) (h : size.bytes.length ≤ 6) : DomainParameters :=
  sizedParameters [.octet 34, .octet 2, .zero, .octet 1, .zero, .octet 1, size, .octet 2] rfl (by
    have : ∀ b h, (Natural.octet b h).bytes.length = 3 := fun _ _ => rfl
    simp only [List.flatMap_cons, List.flatMap_nil, List.length_append, List.length_nil, Natural.zero, this]
    omega)

/-- 65535. -/
def usualBound : Natural where
  toTlv := .short [0x00, 0xFF, 0xFF] (by decide)
  minimal := ⟨0x00, [0xFF, 0xFF], rfl, by decide, by simp⟩

def usualDomain : DomainParameters := parametersUpTo usualBound (by decide)

/-! ## Envelopes -/

/-- What stands around the blocks. The lengths are those the sender chose to write, each in
one of its legal forms. -/
structure Envelope where
  /-- The second identifier octet of the MCS PDU, 101 or 102. -/
  application : UInt8
  /-- The encoded elements before the user data. -/
  elements : Bytes
  /-- The conference PDU up to the length of its user data. -/
  head : Bytes
  bodyLength : Ber.Length
  userDataLength : Ber.Length
  pduLength : PerLength
  blocksLength : PerLength

namespace Envelope

variable (e : Envelope)

def pdu (blocks : Bytes) : Bytes := e.head ++ e.blocksLength.bytes ++ blocks

def userData (blocks : Bytes) : Bytes :=
  [0x00, 0x05, 0x00, 0x14, 0x7C, 0x00, 0x01] ++ e.pduLength.bytes ++ e.pdu blocks

def body (blocks : Bytes) : Bytes := e.elements ++ [0x04] ++ e.userDataLength.bytes ++ e.userData blocks

def tpdu (blocks : Bytes) : Bytes :=
  [0x02, 0xF0, 0x80, 0x7F, e.application] ++ e.bodyLength.bytes ++ e.body blocks

def bytes (blocks : Bytes) : Bytes := tpktHeader (e.tpdu blocks) ++ e.tpdu blocks

structure Fits (blocks : Bytes) : Prop where
  blocksLength : e.blocksLength.value = blocks.length
  pduLength : e.pduLength.value = (e.pdu blocks).length
  userDataLength : e.userDataLength.value = (e.userData blocks).length
  bodyLength : e.bodyLength.value = (e.body blocks).length
  tpktLength : (e.tpdu blocks).length + 4 < 256 ^ 2

/-- The bytes before blocks of `n` bytes in all. -/
def lead (n : Nat) : Bytes :=
  let rest := [0x02, 0xF0, 0x80, 0x7F, e.application] ++ e.bodyLength.bytes ++ e.elements ++ [0x04] ++
    e.userDataLength.bytes ++ [0x00, 0x05, 0x00, 0x14, 0x7C, 0x00, 0x01] ++ e.pduLength.bytes ++ e.head ++
    e.blocksLength.bytes
  [UInt8.ofNat TPKT_VERSION, 0] ++ beBytes 2 (rest.length + n + 4) ++ rest

theorem bytes_eq (blocks : Bytes) : e.bytes blocks = e.lead blocks.length ++ blocks := by
  simp [bytes, tpktHeader, tpdu, body, userData, pdu, lead]
  congr 1
  omega

variable {e}

theorem Fits.of_length {blocks blocks' : Bytes} (h : e.Fits blocks) (hl : blocks'.length = blocks.length) :
    e.Fits blocks' := by
  obtain ⟨h1, h2, h3, h4, h5⟩ := h
  constructor
  · rw [hl]; exact h1
  · simpa [pdu, hl] using h2
  · simpa [userData, pdu, hl] using h3
  · simpa [body, userData, pdu, hl] using h4
  · simpa [tpdu, body, userData, pdu, hl] using h5

end Envelope

/-! ## PDUs -/

structure ConnectPdu where
  envelope : Envelope
  before : List TsUdBlock
  core : TsUdBlock
  after : List TsUdBlock
  fits : envelope.Fits (before.flatMap TsUdBlock.bytes ++ core.bytes ++ after.flatMap TsUdBlock.bytes)

namespace ConnectPdu

variable (p : ConnectPdu)

def blocks : Bytes := p.before.flatMap TsUdBlock.bytes ++ p.core.bytes ++ p.after.flatMap TsUdBlock.bytes

def bytes : Bytes := p.envelope.bytes p.blocks

/-- Everything before the core block. -/
def lead : Bytes := p.envelope.lead p.blocks.length ++ p.before.flatMap TsUdBlock.bytes

def coreOffset : Nat := p.lead.length

def withCore (data : Bytes) (h : data.length = p.core.data.length) : ConnectPdu where
  envelope := p.envelope
  before := p.before
  core := p.core.withData data h
  after := p.after
  fits := p.fits.of_length (by simp [TsUdBlock.bytes, TsUdBlock.header, TsUdBlock.withData, h])

theorem bytes_eq : p.bytes = p.lead ++ (p.core.header ++ (p.core.data ++ p.after.flatMap TsUdBlock.bytes)) := by
  rw [bytes, Envelope.bytes_eq, lead]
  simp only [blocks, TsUdBlock.bytes, List.append_assoc]

theorem withCore_lead (data : Bytes) (h : data.length = p.core.data.length) :
    (p.withCore data h).lead = p.lead := by
  have hl : (p.withCore data h).blocks.length = p.blocks.length := by
    simp [blocks, withCore, TsUdBlock.bytes, TsUdBlock.header, TsUdBlock.withData, h]
  rw [lead, lead, hl]
  rfl

theorem withCore_bytes (data : Bytes) (h : data.length = p.core.data.length) : (p.withCore data h).bytes =
    p.lead ++ (p.core.header ++ (data ++ p.after.flatMap TsUdBlock.bytes)) := by
  rw [bytes_eq, withCore_lead]
  have hh : (p.withCore data h).core.header = p.core.header := by
    simp only [withCore, TsUdBlock.header, TsUdBlock.withData, h]
  rw [hh]
  rfl

/-! ### Reading the core block -/

@[simp] theorem header_length : p.core.header.length = 4 := by simp [TsUdBlock.header]

theorem room : p.coreOffset + 4 + p.core.data.length ≤ p.bytes.length := by
  rw [bytes_eq]
  simp only [coreOffset, List.length_append, header_length]
  omega

theorem unpack_type : unpackLE 2 p.bytes p.coreOffset = some p.core.blockType := by
  have h := unpackLE_append_right 2 p.lead (p.core.header ++ (p.core.data ++ p.after.flatMap TsUdBlock.bytes)) 0
  rw [Nat.add_zero] at h
  rw [bytes_eq, coreOffset, h, TsUdBlock.header, List.append_assoc]
  exact unpackLE_leBytes p.core.typeFits _

theorem unpack_length : unpackLE 2 p.bytes (p.coreOffset + 2) = some (p.core.data.length + 4) := by
  have h := unpackLE_append_right 2 (leBytes 2 p.core.blockType)
    (leBytes 2 (p.core.data.length + 4) ++ (p.core.data ++ p.after.flatMap TsUdBlock.bytes)) 0
  rw [leBytes_length] at h
  rw [bytes_eq, coreOffset, unpackLE_append_right, TsUdBlock.header, List.append_assoc, h]
  exact unpackLE_leBytes p.core.lengthFits _

theorem unpack_core {w k : Nat} (h : k + w ≤ p.core.data.length) :
    unpackLE w p.bytes (p.coreOffset + (4 + k)) = unpackLE w p.core.data k := by
  have h4 := unpackLE_append_right w p.core.header (p.core.data ++ p.after.flatMap TsUdBlock.bytes) k
  rw [header_length] at h4
  rw [bytes_eq, coreOffset, unpackLE_append_right, h4, unpackLE_append_left h]

theorem splice_core {k : Nat} {s : Bytes} (h : k + s.length ≤ p.core.data.length) :
    splice p.bytes (p.coreOffset + (4 + k)) s = (p.withCore (splice p.core.data k s) (splice_length h)).bytes := by
  have h4 := splice_append_right p.core.header (p.core.data ++ p.after.flatMap TsUdBlock.bytes) s k
  rw [header_length] at h4
  rw [withCore_bytes, bytes_eq, coreOffset, splice_append_right, h4, splice_append_left h]

theorem core_blockAt (least : Nat) (h : least ≤ p.core.data.length + 4) :
    BlockAt p.core.blockType least p.bytes p.coreOffset :=
  ⟨p.core.data.length + 4, p.unpack_type, p.unpack_length, h, by have := p.room; omega⟩

end ConnectPdu

end RdpProxy.Rdp
