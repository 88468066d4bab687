import RdpProxy.Rdp.Tpkt

/-!
# The records of CredSSP (`rdp/credssp.py`)

`asn1encode` comes from a library. All that is asked of it is the definite length of DER in front
of its argument.
-/

open Words Ber StreamReader

namespace RdpProxy.Rdp

/-! ## The source -/

def MAX_CREDSSP_RECORD_LEN : Nat := 64 * 1024

def ASN1_CONTEXT_0 : UInt8 := 0xA0
def ASN1_CONTEXT_1 : UInt8 := 0xA1
def ASN1_CONTEXT_2 : UInt8 := 0xA2
def ASN1_CONTEXT_3 : UInt8 := 0xA3
def ASN1_INTEGER : UInt8 := 0x02
def ASN1_OCTET_STR : UInt8 := 0x04
def ASN1_SEQUENCE : UInt8 := 0x30

/-- The content behind a length, and how many bytes the two take up. -/
def asn1decode : Bytes → Bytes × Nat
  | [] => ([], 0)
  | lengthByte :: data =>
    let num := lengthByte.toNat % 128
    let (length, offset) := if 128 ≤ lengthByte.toNat then (beNat (data.take num), 1 + num) else (num, 1)
    (window (lengthByte :: data) offset length, offset + length)

inductive DecodeError where
  | indexError
  | expectedSequence
  deriving DecidableEq

/-- `_extract_octet_from_nego_data`: the token inside its wrappers, as far as there are any. -/
def extractOctetFromNegoData : Bytes → Except DecodeError Bytes
  | [] => .error .indexError
  | tag :: rest =>
    let raw := tag :: rest
    if tag ≠ ASN1_SEQUENCE then .ok raw
    else
      match (asn1decode rest).1 with
      | [] => .ok raw
      | tag :: rest =>
        let inner := tag :: rest
        if tag ≠ ASN1_SEQUENCE then .ok inner
        else
          match (asn1decode rest).1 with
          | [] => .ok inner
          | tag :: rest =>
            let inner2 := tag :: rest
            if tag ≠ ASN1_CONTEXT_0 then .ok inner2
            else
              match (asn1decode rest).1 with
              | [] => .ok []
              | tag :: rest =>
                if tag = ASN1_OCTET_STR then .ok (asn1decode rest).1 else .ok (tag :: rest)

/-- The fields that are set. -/
structure TSRequest where
  negoData : Option Bytes
  authInfo : Option Bytes
  pubKeyAuth : Option Bytes
  deriving DecidableEq

namespace TSRequest

def empty : TSRequest := ⟨none, none, none⟩

/-- The OCTET STRING that a field holds, and nothing where it holds something else. -/
def octetString : Bytes → Except DecodeError (Option Bytes)
  | [] => .error .indexError
  | tag :: rest => if tag = ASN1_OCTET_STR then .ok (some (asn1decode rest).1) else .ok none

/-- What the loop of `from_string` does with one element. -/
def setField (tag : UInt8) (content : Bytes) (fields : TSRequest) : Except DecodeError TSRequest :=
  if tag = ASN1_CONTEXT_0 then .ok fields
  else if tag = ASN1_CONTEXT_1 then
    (extractOctetFromNegoData content).map fun token => { fields with negoData := some token }
  else if tag = ASN1_CONTEXT_2 then
    (octetString content).map fun payload => { fields with authInfo := payload.or fields.authInfo }
  else if tag = ASN1_CONTEXT_3 then
    (octetString content).map fun payload => { fields with pubKeyAuth := payload.or fields.pubKeyAuth }
  else .ok fields

def setFields : Bytes → TSRequest → Except DecodeError TSRequest
  | [], fields => .ok fields
  | tag :: data, fields =>
    (setField tag (asn1decode data).1 fields).bind fun fields => setFields (data.drop (asn1decode data).2) fields
  termination_by data => data.length
  decreasing_by
    simp only [List.length_drop, List.length_cons]
    omega

def fromString : Bytes → TSRequest → Except DecodeError TSRequest
  | [], _ => .error .indexError
  | tag :: data, fields => if tag ≠ ASN1_SEQUENCE then .error .expectedSequence else setFields (asn1decode data).1 fields

/-- `TSRequest(data)` -/
def ofData (data : Bytes) : Except DecodeError TSRequest := if data ≠ [] then fromString data empty else .ok empty

variable (asn1encode : Bytes → Bytes) (r : TSRequest)

/-- `pack("B", tag) + asn1encode(content)` -/
def element (tag : UInt8) (content : Bytes) : Bytes := [tag] ++ asn1encode content

def versionBlob : Bytes := element asn1encode ASN1_CONTEXT_0 (element asn1encode ASN1_INTEGER [2])

/-- The content of the element with the token. -/
def negoContent (token : Bytes) : Bytes :=
  element asn1encode ASN1_SEQUENCE (element asn1encode ASN1_SEQUENCE
    (element asn1encode ASN1_CONTEXT_0 (element asn1encode ASN1_OCTET_STR token)))

def negoBlob : Bytes :=
  match r.negoData with
  | none => []
  | some token => element asn1encode ASN1_CONTEXT_1 (negoContent asn1encode token)

def authBlob : Bytes :=
  match r.authInfo with
  | none => []
  | some payload => element asn1encode ASN1_CONTEXT_2 (element asn1encode ASN1_OCTET_STR payload)

def pubkeyBlob : Bytes :=
  match r.pubKeyAuth with
  | none => []
  | some payload => element asn1encode ASN1_CONTEXT_3 (element asn1encode ASN1_OCTET_STR payload)

/-- The body of the record. -/
def inner : Bytes := versionBlob asn1encode ++ negoBlob asn1encode r ++ authBlob asn1encode r ++ pubkeyBlob asn1encode r

def getData : Bytes := element asn1encode ASN1_SEQUENCE (inner asn1encode r)

end TSRequest

inductive CredsspError where
  | structError
  | unexpectedTag
  | tooLarge
  deriving DecidableEq

/-- The header up to the length, and the length. -/
def readRecordHeader (first : Bytes) : Reader CredsspError (Bytes × Nat) := do
  let lenB ← readexactly 1
  let header := first ++ lenB
  let num := (lenB.getD 0 0).toNat % 128
  if 128 ≤ (lenB.getD 0 0).toNat then do
    let lenExt ← readexactly num
    pure (header ++ lenExt, beNat lenExt)
  else pure (header, num)

def readCredsspRecord : Reader CredsspError Bytes := do
  let first ← readexactly 1
  if (first.getD 0 0).toNat = TPKT_VERSION then do
    let _rest ← readexactly 3
    -- `rest[2:4]` is one byte long, and no `H` can be unpacked from it.
    raise .structError
  else if first.getD 0 0 ≠ ASN1_SEQUENCE then raise .unexpectedTag
  else do
    let header ← readRecordHeader first
    if MAX_CREDSSP_RECORD_LEN < header.2 then raise .tooLarge
    else do
      let payload ← readexactly header.2
      pure (header.1 ++ payload)

/-! ## Any definite length is read -/

variable {length : Length} {content : Bytes}

theorem longByte_toNat {octets : Bytes} (h : octets.length ≤ 126) :
    (UInt8.ofNat (128 + octets.length)).toNat = 128 + octets.length := by
  rw [UInt8.toNat_ofNat']
  omega

theorem asn1decode_short {b : UInt8} (h : b.toNat < 128) (data : Bytes) :
    asn1decode (b :: data) = (data.take b.toNat, 1 + b.toNat) := by
  simp only [asn1decode, if_neg (Nat.not_le.mpr h), Nat.mod_eq_of_lt h]
  rfl

theorem asn1decode_long {b : UInt8} {n : Nat} (h : b.toNat = 128 + n) (data : Bytes) :
    asn1decode (b :: data) = (window data n (beNat (data.take n)), 1 + n + beNat (data.take n)) := by
  have hn : (128 + n) % 128 = n := by
    have := b.toNat_lt
    omega
  simp only [asn1decode, h, if_pos (Nat.le_add_right 128 n), hn]
  rw [window, Nat.add_comm 1, List.drop_succ_cons]
  rfl

theorem asn1decode_length (h : length.value = content.length) (tail : Bytes) :
    asn1decode (length.bytes ++ content ++ tail) = (content, (length.bytes ++ content).length) := by
  rw [List.append_assoc]
  rcases length with ⟨n, hn⟩ | ⟨octets, hne, hmost⟩
  · have hbyte : (UInt8.ofNat n).toNat = n := by
      rw [UInt8.toNat_ofNat']
      omega
    have hvalue : n = content.length := h
    simp only [Length.bytes, List.cons_append, List.nil_append, List.length_cons]
    rw [asn1decode_short (by omega), hbyte, hvalue, List.take_left, Nat.add_comm]
  · have hvalue : beNat octets = content.length := h
    simp only [Length.bytes, List.cons_append, List.length_cons, List.length_append]
    rw [asn1decode_long (longByte_toNat hmost), List.take_left, hvalue, window, List.drop_left, List.take_left,
      Prod.mk.injEq]
    exact ⟨rfl, by omega⟩

theorem readRecordHeader_reads (first : Bytes) :
    Reads (readRecordHeader first) length.bytes (first ++ length.bytes, length.value) := by
  rcases length with ⟨n, hn⟩ | ⟨octets, hne, hmost⟩
  · have hbyte : (UInt8.ofNat n).toNat = n := by
      rw [UInt8.toNat_ofNat']
      omega
    have hone : Reads (readexactly 1 : Reader CredsspError Bytes) [UInt8.ofNat n] _ := readexactly_reads rfl
    refine Reads.bind_pure hone ?_
    simp only [List.getD_cons_zero, hbyte, if_neg (Nat.not_le.mpr hn), Nat.mod_eq_of_lt hn]
    exact Reads.pure _
  · have hbyte := longByte_toNat hmost
    have hnum : (128 + octets.length) % 128 = octets.length := by omega
    have hone : Reads (readexactly 1 : Reader CredsspError Bytes) [UInt8.ofNat (128 + octets.length)] _ :=
      readexactly_reads rfl
    have hext : Reads (readexactly octets.length : Reader CredsspError Bytes) octets _ := readexactly_reads rfl
    refine hone.bind ?_
    simp only [List.getD_cons_zero, hbyte, hnum, if_pos (Nat.le_add_right 128 _)]
    refine hext.bind_pure ?_
    rw [List.append_assoc]
    exact Reads.pure _

theorem readCredsspRecord_reads (h : length.value = content.length) (hmax : content.length ≤ MAX_CREDSSP_RECORD_LEN) :
    Reads readCredsspRecord ([ASN1_SEQUENCE] ++ (length.bytes ++ content))
      ([ASN1_SEQUENCE] ++ (length.bytes ++ content)) := by
  have hone : Reads (readexactly 1 : Reader CredsspError Bytes) [ASN1_SEQUENCE] _ := readexactly_reads rfl
  refine hone.bind ?_
  rw [if_neg (by decide), if_neg (by decide)]
  refine (readRecordHeader_reads [ASN1_SEQUENCE]).bind ?_
  rw [if_neg (by rw [h]; omega)]
  refine (readexactly_reads h.symm).bind_pure ?_
  rw [List.append_assoc]
  exact Reads.pure _

/-! ## What is encoded is decoded -/

namespace TSRequest

section

variable {asn1encode : Bytes → Bytes} (henc : ∀ data, asn1encode data = derLength data.length ++ data)

include henc

theorem length_le_element (tag : UInt8) (content : Bytes) :
    content.length ≤ (element asn1encode tag content).length := by
  unfold element
  rw [henc, List.length_append, List.length_append]
  omega

theorem element_definite (tag : UInt8) {content : Bytes} (hfits : content.length ≤ MAX_CREDSSP_RECORD_LEN) :
    ∃ length : Length, length.value = content.length ∧
      element asn1encode tag content = [tag] ++ (length.bytes ++ content) := by
  unfold MAX_CREDSSP_RECORD_LEN at hfits
  obtain ⟨length, hbytes, hvalue⟩ := derLength_definite (n := content.length) (by omega)
  refine ⟨length, hvalue, ?_⟩
  unfold element
  rw [henc, hbytes]

theorem element_decoded (tag : UInt8) {content : Bytes} (hfits : content.length ≤ MAX_CREDSSP_RECORD_LEN) :
    ∃ data, (element asn1encode tag content) = tag :: data ∧
      ∀ tail, asn1decode (data ++ tail) = (content, data.length) := by
  obtain ⟨length, hvalue, hbytes⟩ := element_definite henc tag hfits
  exact ⟨length.bytes ++ content, hbytes, asn1decode_length hvalue⟩

theorem element_content (tag : UInt8) {content : Bytes} (hfits : content.length ≤ MAX_CREDSSP_RECORD_LEN) :
    ∃ data, (element asn1encode tag content) = tag :: data ∧ (asn1decode data).1 = content := by
  obtain ⟨data, hdata, hdecode⟩ := element_decoded henc tag hfits
  have hlast := hdecode []
  rw [List.append_nil] at hlast
  exact ⟨data, hdata, congrArg Prod.fst hlast⟩

theorem setFields_element (tag : UInt8) {content : Bytes} (hfits : content.length ≤ MAX_CREDSSP_RECORD_LEN)
    (rest : Bytes) (fields : TSRequest) : setFields (element asn1encode tag content ++ rest) fields =
      (setField tag content fields).bind (setFields rest) := by
  obtain ⟨data, hdata, hdecode⟩ := element_decoded henc tag hfits
  rw [hdata, List.cons_append, setFields, hdecode]
  simp only [List.drop_left]

theorem setFields_field {tag : UInt8} {content : Bytes} {fields fields' : TSRequest}
    (hfits : content.length ≤ MAX_CREDSSP_RECORD_LEN) (hfield : setField tag content fields = .ok fields')
    (rest : Bytes) : setFields (element asn1encode tag content ++ rest) fields = setFields rest fields' := by
  rw [setFields_element henc tag hfits, hfield]
  rfl

theorem octetString_element {payload : Bytes} (hfits : payload.length ≤ MAX_CREDSSP_RECORD_LEN) :
    octetString (element asn1encode ASN1_OCTET_STR payload) = .ok (some payload) := by
  obtain ⟨data, hdata, hdecode⟩ := element_content henc ASN1_OCTET_STR hfits
  rw [hdata, octetString, if_pos rfl, hdecode]

theorem extractOctet_negoContent {token : Bytes}
    (hfits : (negoContent asn1encode token).length ≤ MAX_CREDSSP_RECORD_LEN) :
    extractOctetFromNegoData (negoContent asn1encode token) = .ok token := by
  unfold negoContent at hfits
  have hsequence := (length_le_element henc _ _).trans hfits
  have hcontext := (length_le_element henc _ _).trans hsequence
  have hoctet := (length_le_element henc _ _).trans hcontext
  have htoken := (length_le_element henc _ _).trans hoctet
  obtain ⟨data₁, hdata₁, hdecode₁⟩ := element_content henc ASN1_SEQUENCE hsequence
  obtain ⟨data₂, hdata₂, hdecode₂⟩ := element_content henc ASN1_SEQUENCE hcontext
  obtain ⟨data₃, hdata₃, hdecode₃⟩ := element_content henc ASN1_CONTEXT_0 hoctet
  obtain ⟨data₄, hdata₄, hdecode₄⟩ := element_content henc ASN1_OCTET_STR htoken
  unfold negoContent
  rw [hdata₁, extractOctetFromNegoData, if_neg (by simp), hdecode₁, hdata₂]
  simp only [ne_eq, not_true_eq_false, if_false]
  rw [hdecode₂, hdata₃]
  simp only [not_true_eq_false, if_false]
  rw [hdecode₃, hdata₄]
  simp only [if_true, hdecode₄]

/-! ### The fields -/

theorem setFields_versionBlob (rest : Bytes) (fields : TSRequest) :
    setFields (versionBlob asn1encode ++ rest) fields = setFields rest fields := by
  have hfits : (element asn1encode ASN1_INTEGER [2]).length ≤ MAX_CREDSSP_RECORD_LEN := by
    unfold element
    rw [henc]
    decide
  exact setFields_field henc hfits rfl rest

theorem setFields_negoBlob {r : TSRequest} (hfits : (negoBlob asn1encode r).length ≤ MAX_CREDSSP_RECORD_LEN)
    (rest : Bytes) (fields : TSRequest) : setFields (negoBlob asn1encode r ++ rest) fields =
      setFields rest { fields with negoData := r.negoData.or fields.negoData } := by
  unfold negoBlob at *
  rcases hset : r.negoData with _ | token
  · rfl
  · rw [hset] at hfits
    have hcontent := (length_le_element henc _ _).trans hfits
    refine setFields_field henc hcontent ?_ rest
    unfold setField
    rw [if_neg (by decide), if_pos rfl, extractOctet_negoContent henc hcontent]
    rfl

theorem setFields_authBlob {r : TSRequest} (hfits : (authBlob asn1encode r).length ≤ MAX_CREDSSP_RECORD_LEN)
    (rest : Bytes) (fields : TSRequest) : setFields (authBlob asn1encode r ++ rest) fields =
      setFields rest { fields with authInfo := r.authInfo.or fields.authInfo } := by
  unfold authBlob at *
  rcases hset : r.authInfo with _ | payload
  · rfl
  · rw [hset] at hfits
    have hcontent := (length_le_element henc _ _).trans hfits
    refine setFields_field henc hcontent ?_ rest
    unfold setField
    rw [if_neg (by decide), if_neg (by decide), if_pos rfl,
      octetString_element henc ((length_le_element henc _ _).trans hcontent)]
    rfl

theorem setFields_pubkeyBlob {r : TSRequest} (hfits : (pubkeyBlob asn1encode r).length ≤ MAX_CREDSSP_RECORD_LEN)
    (rest : Bytes) (fields : TSRequest) : setFields (pubkeyBlob asn1encode r ++ rest) fields =
      setFields rest { fields with pubKeyAuth := r.pubKeyAuth.or fields.pubKeyAuth } := by
  unfold pubkeyBlob at *
  rcases hset : r.pubKeyAuth with _ | payload
  · rfl
  · rw [hset] at hfits
    have hcontent := (length_le_element henc _ _).trans hfits
    refine setFields_field henc hcontent ?_ rest
    unfold setField
    rw [if_neg (by decide), if_neg (by decide), if_neg (by decide), if_pos rfl,
      octetString_element henc ((length_le_element henc _ _).trans hcontent)]
    rfl

theorem setFields_inner {r : TSRequest} (hfits : (inner asn1encode r).length ≤ MAX_CREDSSP_RECORD_LEN) :
    setFields (inner asn1encode r) empty = .ok r := by
  unfold inner at *
  simp only [List.length_append] at hfits
  rw [← List.append_nil (pubkeyBlob asn1encode r), List.append_assoc, List.append_assoc, setFields_versionBlob henc,
    setFields_negoBlob henc (by omega), setFields_authBlob henc (by omega), setFields_pubkeyBlob henc (by omega),
    setFields]
  simp [empty]

/-- A request that fits into a record is read from the stream as it was written, up to its last
byte, and decoded to its fields. -/
theorem request_read_back (r : TSRequest) (hfits : (inner asn1encode r).length ≤ MAX_CREDSSP_RECORD_LEN) :
    Reads readCredsspRecord (getData asn1encode r) (getData asn1encode r) ∧ ofData (getData asn1encode r) = .ok r := by
  obtain ⟨length, hvalue, hbytes⟩ := element_definite henc ASN1_SEQUENCE hfits
  obtain ⟨data, hdata, hdecode⟩ := element_content henc ASN1_SEQUENCE hfits
  unfold getData
  constructor
  · rw [hbytes]
    exact readCredsspRecord_reads hvalue hfits
  · rw [hdata, ofData, if_pos (by simp), fromString, if_neg (by simp), hdecode]
    exact setFields_inner henc hfits

end

/-- A token that looks like the wrapper around it. -/
theorem request_read_back_wrapper :
    Reads readCredsspRecord (getData (fun data => derLength data.length ++ data) ⟨some [0x30, 2, 0xA0, 0], some [], none⟩)
        (getData (fun data => derLength data.length ++ data) ⟨some [0x30, 2, 0xA0, 0], some [], none⟩) ∧
      ofData (getData (fun data => derLength data.length ++ data) ⟨some [0x30, 2, 0xA0, 0], some [], none⟩) =
        .ok ⟨some [0x30, 2, 0xA0, 0], some [], none⟩ :=
  request_read_back (fun _ => rfl) _ (by decide)

end TSRequest

end RdpProxy.Rdp
