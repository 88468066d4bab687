import RdpProxy.Lib.ByteIndex
import RdpProxy.Rdp.Credssp

/-!
# The public key of the backend (`_extract_raw_pubkey`)

The key is taken out of a SubjectPublicKeyInfo by offsets that are added up over its three elements.
-/

open Words Ber ByteIndex

namespace RdpProxy.Rdp

/-! ## The source -/

inductive PubkeyError where
  | noSequence
  | noAlgorithm
  | noBitString
  | indexError
  deriving DecidableEq

abbrev PubkeyReader := Program PubkeyError

def byteAt (i : Nat) : PubkeyReader UInt8 := subscript .indexError i

/-- Behind the first length. -/
def contentOffset : PubkeyReader Nat := do
  let lenByte ← byteAt 1
  if 128 ≤ lenByte.toNat then do
    let lenByte ← byteAt 1
    pure (2 + lenByte.toNat % 128)
  else pure 2

/-- Behind the AlgorithmIdentifier that begins at the offset. -/
def skipAlgorithm (offset : Nat) : PubkeyReader Nat := do
  let algoLenByte ← byteAt (offset + 1)
  if 128 ≤ algoLenByte.toNat then do
    let n := algoLenByte.toNat % 128
    let octets ← slice (offset + 2) (offset + 2 + n)
    pure (offset + (2 + n + beNat octets))
  else pure (offset + (2 + algoLenByte.toNat))

/-- Behind the length and the unused bits of the BIT STRING that begins at the offset. -/
def keyOffset (offset : Nat) : PubkeyReader Nat := do
  let bitLenByte ← byteAt (offset + 1)
  if 128 ≤ bitLenByte.toNat then pure (offset + 1 + 1 + bitLenByte.toNat % 128 + 1)
  else pure (offset + 1 + 1 + 1)

/-- `_extract_raw_pubkey`, where the argument has at least one byte. -/
def extractFromSpki : PubkeyReader Bytes := do
  let tag ← byteAt 0
  if tag ≠ 0x30 then raise .noSequence
  else do
    let offset ← contentOffset
    let algoTag ← byteAt offset
    if algoTag ≠ 0x30 then raise .noAlgorithm
    else do
      let offset ← skipAlgorithm offset
      let bitTag ← byteAt offset
      if bitTag ≠ 0x03 then raise .noBitString
      else do
        let offset ← keyOffset offset
        sliceFrom offset

def extractRawPubkey : PubkeyReader Bytes := fun spkiDer =>
  if spkiDer = [] then raise .noSequence spkiDer else extractFromSpki spkiDer

/-! ## SubjectPublicKeyInfo -/

/-- Every length may have either form, and the algorithm any content. -/
structure Spki where
  algorithm : Tlv [0x30]
  bits : Tlv [0x03]
  unusedBits : UInt8
  key : Bytes
  bits_content : bits.content = unusedBits :: key
  outer : Tlv [0x30]
  outer_content : outer.content = algorithm.bytes ++ bits.bytes

def Spki.bytes (s : Spki) : Bytes := s.outer.bytes

/-- A length as the source takes it apart: its first octet, and those behind. -/
structure Split (length : Length) (first : UInt8) (octets : Bytes) : Prop where
  bytes : length.bytes = first :: octets
  short : ¬ 128 ≤ first.toNat → octets = [] ∧ length.value = first.toNat
  long : 128 ≤ first.toNat → first.toNat % 128 = octets.length ∧ length.value = beNat octets

theorem length_split (length : Length) : ∃ first octets, Split length first octets := by
  rcases length with ⟨n, hn⟩ | ⟨octets, hne, hmost⟩
  · have hfirst : (UInt8.ofNat n).toNat = n := by
      rw [UInt8.toNat_ofNat']
      omega
    refine ⟨UInt8.ofNat n, [], rfl, fun _ => ⟨rfl, hfirst.symm⟩, fun h => ?_⟩
    omega
  · have hfirst := longByte_toNat hmost
    refine ⟨UInt8.ofNat (128 + octets.length), octets, rfl, fun h => ?_, fun _ => ⟨?_, rfl⟩⟩
    · omega
    · omega

theorem getElem?_at {front : Bytes} {x : UInt8} (rest : Bytes) {i : Nat} (hi : i = front.length) :
    (front ++ x :: rest)[i]? = some x := by
  subst hi
  rw [List.getElem?_append_right (Nat.le_refl _), Nat.sub_self]
  rfl

variable {front content rest : Bytes} {length : Length} {tag : UInt8}

theorem contentOffset_returns : Returns contentOffset ([tag] ++ length.bytes ++ rest) (1 + length.bytes.length) := by
  obtain ⟨first, octets, hbytes, hshort, hlong⟩ := length_split length
  have hfirst : ([tag] ++ length.bytes ++ rest)[1]? = some first := by
    rw [hbytes]
    rfl
  refine Returns.bind (subscript_returns hfirst) ?_
  rw [hbytes, List.length_cons]
  split_ifs with h
  · refine Returns.bind (subscript_returns (by rw [← hbytes]; exact hfirst)) ?_
    rw [(hlong h).1, show 2 + octets.length = 1 + (octets.length + 1) by omega]
    exact Returns.pure _
  · rw [(hshort h).1]
    exact Returns.pure _

theorem skipAlgorithm_returns (hfits : length.value = content.length) :
    Returns (skipAlgorithm front.length) (front ++ ([tag] ++ length.bytes ++ content) ++ rest)
      (front.length + ([tag] ++ length.bytes ++ content).length) := by
  obtain ⟨first, octets, hbytes, hshort, hlong⟩ := length_split length
  have hsplit : front ++ ([tag] ++ length.bytes ++ content) ++ rest =
      (front ++ [tag]) ++ first :: (octets ++ (content ++ rest)) := by
    rw [hbytes]
    simp
  have hlength : (front ++ ([tag] ++ length.bytes ++ content) ++ rest).length =
      front.length + (1 + (1 + octets.length) + content.length) + rest.length := by
    rw [hbytes]
    simp only [List.length_append, List.length_cons, List.length_nil]
    omega
  have hfirst : (front ++ ([tag] ++ length.bytes ++ content) ++ rest)[front.length + 1]? = some first := by
    rw [hsplit]
    exact getElem?_at _ (by rw [List.length_append]; rfl)
  refine Returns.bind (subscript_returns hfirst) ?_
  have htotal : ([tag] ++ length.bytes ++ content).length = 2 + octets.length + content.length := by
    rw [hbytes]
    simp only [List.length_append, List.length_cons, List.length_nil]
    omega
  rw [htotal]
  split_ifs with h
  · obtain ⟨hcount, hvalue⟩ := hlong h
    have hwindow : window (front ++ ([tag] ++ length.bytes ++ content) ++ rest) (front.length + 2)
        (front.length + 2 + first.toNat % 128 - (front.length + 2)) = octets := by
      rw [hsplit, Nat.add_sub_cancel_left, hcount,
        show (front ++ [tag]) ++ first :: (octets ++ (content ++ rest)) =
          (front ++ [tag, first]) ++ (octets ++ (content ++ rest)) by simp,
        show front.length + 2 = (front ++ [tag, first]).length + 0 by simp, window_append_right]
      exact List.take_left
    refine Returns.bind (slice_returns ⟨by omega, by omega⟩) ?_
    rw [hwindow, ← hvalue, hfits, hcount]
    exact Returns.pure _
  · obtain ⟨hnone, hvalue⟩ := hshort h
    rw [← hvalue, hfits, hnone, List.length_nil, Nat.add_zero]
    exact Returns.pure _

theorem keyOffset_returns (unusedBits : UInt8) (key : Bytes) :
    Returns (keyOffset front.length) (front ++ ([tag] ++ length.bytes ++ unusedBits :: key))
      (front.length + (1 + length.bytes.length + 1)) := by
  obtain ⟨first, octets, hbytes, hshort, hlong⟩ := length_split length
  have hfirst : (front ++ ([tag] ++ length.bytes ++ unusedBits :: key))[front.length + 1]? = some first := by
    rw [hbytes, show front ++ ([tag] ++ first :: octets ++ unusedBits :: key) =
      (front ++ [tag]) ++ first :: (octets ++ unusedBits :: key) by simp]
    exact getElem?_at _ (by rw [List.length_append]; rfl)
  refine Returns.bind (subscript_returns hfirst) ?_
  rw [hbytes, List.length_cons]
  split_ifs with h
  · rw [(hlong h).1, show front.length + 1 + 1 + octets.length + 1 = front.length + (1 + (octets.length + 1) + 1) by omega]
    exact Returns.pure _
  · rw [(hshort h).1]
    exact Returns.pure _

namespace Spki

variable (s : Spki)

/-- The bytes in front of the AlgorithmIdentifier. -/
def lead : Bytes := [0x30] ++ s.outer.length.bytes

def beforeBits : Bytes := s.lead ++ s.algorithm.bytes

/-- The identifier and length of the BIT STRING, and the octet in front of the key. -/
def bitsHeader : Bytes := [0x03] ++ s.bits.length.bytes ++ [s.unusedBits]

theorem bytes_lead : s.bytes = s.lead ++ s.algorithm.bytes ++ s.bits.bytes := by
  unfold bytes lead Tlv.bytes
  rw [s.outer_content]
  exact (List.append_assoc ..).symm

theorem bits_bytes : s.bits.bytes = [0x03] ++ s.bits.length.bytes ++ s.unusedBits :: s.key := by
  unfold Tlv.bytes
  rw [s.bits_content]

theorem bytes_key : s.bytes = s.beforeBits ++ s.bitsHeader ++ s.key := by
  rw [bytes_lead, bits_bytes]
  simp [beforeBits, bitsHeader]

theorem algorithm_tag : s.bytes[s.lead.length]? = some 0x30 := by
  rw [bytes_lead, List.append_assoc]
  exact getElem?_at (s.algorithm.length.bytes ++ s.algorithm.content ++ s.bits.bytes) rfl

theorem bits_tag : s.bytes[s.beforeBits.length]? = some 0x03 := by
  rw [bytes_key, List.append_assoc]
  exact getElem?_at (s.bits.length.bytes ++ [s.unusedBits] ++ s.key) rfl

theorem lead_returns : Returns contentOffset s.bytes s.lead.length := by
  have hlead : s.lead.length = 1 + s.outer.length.bytes.length := by
    unfold lead
    rw [List.length_append]
    rfl
  rw [bytes_lead, List.append_assoc, hlead]
  exact contentOffset_returns

theorem algorithm_returns : Returns (skipAlgorithm s.lead.length) s.bytes s.beforeBits.length := by
  unfold beforeBits
  rw [bytes_lead, List.length_append]
  exact skipAlgorithm_returns s.algorithm.fits

theorem bits_returns : Returns (keyOffset s.beforeBits.length) s.bytes (s.beforeBits ++ s.bitsHeader).length := by
  have hheader : s.bitsHeader.length = 1 + s.bits.length.bytes.length + 1 := by
    unfold bitsHeader
    rw [List.length_append, List.length_append]
    rfl
  rw [List.length_append, hheader, bytes_lead, bits_bytes]
  exact keyOffset_returns s.unusedBits s.key

theorem key_returns : Returns (sliceFrom (s.beforeBits ++ s.bitsHeader).length : PubkeyReader Bytes) s.bytes s.key := by
  have hkey : s.bytes.drop (s.beforeBits ++ s.bitsHeader).length = s.key := by
    rw [bytes_key]
    exact List.drop_left
  have hinside : (s.beforeBits ++ s.bitsHeader).length ≤ s.bytes.length := by
    rw [bytes_key]
    exact (List.prefix_append ..).length_le
  have hreturns := sliceFrom_returns (E := PubkeyError) hinside
  rwa [hkey] at hreturns

end Spki

/-- The key comes out whole whatever forms the three lengths have, and no index is outside of the bytes. -/
theorem extractRawPubkey_spki (s : Spki) : Returns extractRawPubkey s.bytes s.key := by
  have htag : s.bytes[0]? = some 0x30 := by
    rw [s.bytes_lead]
    rfl
  have hrun : Returns extractFromSpki s.bytes s.key := by
    refine Returns.bind (subscript_returns htag) ?_
    rw [if_neg (by simp)]
    refine Returns.bind s.lead_returns ?_
    refine Returns.bind (subscript_returns s.algorithm_tag) ?_
    rw [if_neg (by simp)]
    refine Returns.bind s.algorithm_returns ?_
    refine Returns.bind (subscript_returns s.bits_tag) ?_
    rw [if_neg (by simp)]
    exact Returns.bind s.bits_returns s.key_returns
  unfold Returns extractRawPubkey
  rw [if_neg (by rintro hnil; rw [hnil] at htag; cases htag)]
  exact hrun

example : (extractRawPubkey [0x30, 0x0A, 0x30, 0x81, 0x01, 0x05, 0x03, 0x81, 0x03, 0x00, 0xAA, 0xBB]).1 = .ok [0xAA, 0xBB] := by
  decide

end RdpProxy.Rdp
