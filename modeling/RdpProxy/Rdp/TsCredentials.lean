import RdpProxy.Lib.Der
import RdpProxy.Lib.Utf16
import RdpProxy.Rdp.Credssp

/-!
# The credentials for the backend (`rdp/credssp.py`)

The last two records of `connect_and_authenticate`, and what the other side finds in them. The tokens of NTLM and the
cipher come from a library.
-/

open Words Ber

namespace RdpProxy.Rdp

/-! ## The source -/

section

variable (asn1encode : Bytes → Bytes)

structure TSPasswordCreds where
  domainName : Bytes
  userName : Bytes
  password : Bytes

/-- `field(ctx_tag, value_bytes)` -/
def credsField (ctxTag : UInt8) (valueBytes : Bytes) : Bytes :=
  TSRequest.element asn1encode (0xA0 + ctxTag) (TSRequest.element asn1encode ASN1_OCTET_STR valueBytes)

def TSPasswordCreds.getData (c : TSPasswordCreds) : Bytes :=
  TSRequest.element asn1encode ASN1_SEQUENCE
    (credsField asn1encode 0 c.domainName ++ credsField asn1encode 1 c.userName ++ credsField asn1encode 2 c.password)

structure TSCredentials where
  credType : UInt8
  credentials : Bytes

def TSCredentials.getData (c : TSCredentials) : Bytes :=
  TSRequest.element asn1encode ASN1_SEQUENCE
    (TSRequest.element asn1encode 0xA0 (TSRequest.element asn1encode ASN1_INTEGER [c.credType]) ++
      TSRequest.element asn1encode 0xA1 (TSRequest.element asn1encode ASN1_OCTET_STR c.credentials))

/-- `s.split(c, 1)`, of a text with `c` in it. -/
def splitOnce (c : Char) (s : List Char) : List Char × List Char := (s.takeWhile (· ≠ c), (s.dropWhile (· ≠ c)).tail)

/-- The domain and the user. -/
def splitDomainUser (upper : List Char → List Char) (username fallbackDomain : List Char) : List Char × List Char :=
  if '\\' ∈ username then splitOnce '\\' username
  else if '@' ∈ username then (splitOnce '@' username).swap
  else (upper (if '.' ∈ fallbackDomain then (splitOnce '.' fallbackDomain).1 else fallbackDomain), username)

/-- `SPNEGOCipher`: its state goes on from one message to the next. A message comes as its signature and its ciphertext. -/
structure SpnegoCipher (S : Type) where
  encrypt : S → Bytes → (Bytes × Bytes) × S
  /-- The other side, with the same key. -/
  decrypt : S → Bytes → Bytes → Option (Bytes × S)
  signature_length : ∀ s data, (encrypt s data).1.1.length = 16
  ciphertext_length : ∀ s data, (encrypt s data).1.2.length = data.length
  decrypt_encrypt : ∀ s data, decrypt s (encrypt s data).1.1 (encrypt s data).1.2 = some (data, (encrypt s data).2)

/-- The signature in front of the ciphertext, and the state after. -/
def SpnegoCipher.seal {S : Type} (cipher : SpnegoCipher S) (s : S) (data : Bytes) : Bytes × S :=
  ((cipher.encrypt s data).1.1 ++ (cipher.encrypt s data).1.2, (cipher.encrypt s data).2)

/-- `ts3` and `ts5`, once the challenge is answered by `token`. -/
def finalRecords {S : Type} (cipher : SpnegoCipher S) (s : S) (upper : List Char → List Char) (token serverPubKey : Bytes)
    (username password fallbackDomain : List Char) : Bytes × Bytes :=
  let (domain, user) := splitDomainUser upper username fallbackDomain
  let (sealedKey, s) := cipher.seal s serverPubKey
  let ts3 : TSRequest := ⟨some token, none, some sealedKey⟩
  let tsp : TSPasswordCreds := ⟨Utf16.encode domain, Utf16.encode user, Utf16.encode password⟩
  let tsc : TSCredentials := ⟨1, tsp.getData asn1encode⟩
  let (sealedCreds, _) := cipher.seal s (tsc.getData asn1encode)
  let ts5 : TSRequest := ⟨none, some sealedCreds, none⟩
  (ts3.getData asn1encode, ts5.getData asn1encode)

end

/-! ## The backend -/

/-- The fields of a record, after the version. -/
def recordFields (data : Bytes) : Option (List Der) := (Der.read data).bind (Der.child ASN1_SEQUENCE)

def fieldOctets (tag : UInt8) (fields : List Der) : Option Bytes := (Der.child tag fields).bind (Der.leaf ASN1_OCTET_STR)

/-- The three texts of a `TSPasswordCreds`. -/
def readPasswordCreds (data : Bytes) : Option (List Char × List Char × List Char) := do
  let fields ← recordFields data
  let domain ← fieldOctets 0xA0 fields
  let user ← fieldOctets 0xA1 fields
  let password ← fieldOctets 0xA2 fields
  return (← Utf16.decode domain, ← Utf16.decode user, ← Utf16.decode password)

/-- A `TSCredentials` with a password in it. -/
def readCredentials (data : Bytes) : Option (List Char × List Char × List Char) := do
  let fields ← recordFields data
  let credType ← (Der.child 0xA0 fields).bind (Der.leaf ASN1_INTEGER)
  if credType = [1] then readPasswordCreds (← fieldOctets 0xA1 fields) else none

def negoToken (fields : List Der) : Option Bytes := do
  let negoData ← Der.child ASN1_CONTEXT_1 fields
  let tokens ← Der.child ASN1_SEQUENCE negoData
  fieldOctets ASN1_CONTEXT_0 (← Der.child ASN1_SEQUENCE tokens)

structure Login where
  token : Bytes
  domain : List Char
  user : List Char
  password : List Char
  deriving DecidableEq

/-- The other side of the two records: the key must be its own. -/
def backendReads {S : Type} (cipher : SpnegoCipher S) (s : S) (ownKey : Bytes) (records : Bytes × Bytes) :
    Option Login := do
  let answer ← recordFields records.1
  let token ← negoToken answer
  let sealedKey ← fieldOctets ASN1_CONTEXT_3 answer
  let (key, s) ← cipher.decrypt s (sealedKey.take 16) (sealedKey.drop 16)
  if key = ownKey then
    let sealedCreds ← fieldOctets ASN1_CONTEXT_2 (← recordFields records.2)
    let (creds, _) ← cipher.decrypt s (sealedCreds.take 16) (sealedCreds.drop 16)
    let (domain, user, password) ← readCredentials creds
    return ⟨token, domain, user, password⟩
  else none

/-! ## The records as trees -/

def octetsTree (tag : UInt8) (octets : Bytes) : Der := .node tag [.prim ASN1_OCTET_STR octets]

def TSPasswordCreds.tree (c : TSPasswordCreds) : Der :=
  .node ASN1_SEQUENCE [octetsTree 0xA0 c.domainName, octetsTree 0xA1 c.userName, octetsTree 0xA2 c.password]

def TSCredentials.tree (c : TSCredentials) : Der :=
  .node ASN1_SEQUENCE [.node 0xA0 [.prim ASN1_INTEGER [c.credType]], octetsTree 0xA1 c.credentials]

def versionTree : Der := .node ASN1_CONTEXT_0 [.prim ASN1_INTEGER [2]]

def negoTree (token : Bytes) : Der :=
  .node ASN1_CONTEXT_1 [.node ASN1_SEQUENCE [.node ASN1_SEQUENCE [octetsTree ASN1_CONTEXT_0 token]]]

def TSRequest.tree (r : TSRequest) : Der :=
  .node ASN1_SEQUENCE (versionTree :: (r.negoData.toList.map negoTree ++ r.authInfo.toList.map (octetsTree ASN1_CONTEXT_2) ++
    r.pubKeyAuth.toList.map (octetsTree ASN1_CONTEXT_3)))

section

variable {asn1encode : Bytes → Bytes}
  (henc : ∀ data : Bytes, data.length < 256 ^ 3 → asn1encode data = derLength data.length ++ data)

include henc

theorem element_elementBytes (tag : UInt8) {content : Bytes} (h : content.length < 256 ^ 3) :
    TSRequest.element asn1encode tag content = Der.elementBytes tag content := by
  rw [TSRequest.element, henc content h, Der.elementBytes]

theorem element_node {tag : UInt8} {children : List Der} (h : (Der.node tag children).WellFormed) :
    TSRequest.element asn1encode tag (Der.allBytes children) = (Der.node tag children).bytes :=
  element_elementBytes henc tag h.2.1

theorem element_octets {tag : UInt8} {octets : Bytes} (h : (octetsTree tag octets).WellFormed) :
    TSRequest.element asn1encode tag (TSRequest.element asn1encode ASN1_OCTET_STR octets) =
      (octetsTree tag octets).bytes := by
  rw [element_elementBytes henc _ h.2.2.1.2, octetsTree, ← element_node henc h]
  simp [Der.allBytes, Der.bytes]

theorem credsField_bytes {ctxTag tag : UInt8} {valueBytes : Bytes} (htag : 0xA0 + ctxTag = tag)
    (h : (octetsTree tag valueBytes).WellFormed) :
    credsField asn1encode ctxTag valueBytes = (octetsTree tag valueBytes).bytes := by
  rw [credsField, htag, element_octets henc h]

theorem passwordCreds_bytes {c : TSPasswordCreds} (h : c.tree.WellFormed) : c.getData asn1encode = c.tree.bytes := by
  have ⟨_, _, hdomain, huser, hpassword, _⟩ := h
  rw [TSPasswordCreds.getData, credsField_bytes henc rfl hdomain, credsField_bytes henc rfl huser,
    credsField_bytes henc rfl hpassword, TSPasswordCreds.tree, ← element_node henc h]
  simp [Der.allBytes]

theorem credentials_bytes {c : TSCredentials} (h : c.tree.WellFormed) : c.getData asn1encode = c.tree.bytes := by
  have ⟨_, _, htype, hcreds, _⟩ := h
  have htypeBytes := element_node henc htype
  rw [TSCredentials.getData, element_octets henc hcreds, element_elementBytes henc _ htype.2.2.1.2, TSCredentials.tree,
    ← element_node henc h]
  simp only [Der.allBytes, Der.bytes, List.append_nil] at htypeBytes ⊢
  rw [htypeBytes]

theorem versionBlob_bytes (h : versionTree.WellFormed) : TSRequest.versionBlob asn1encode = versionTree.bytes := by
  rw [TSRequest.versionBlob, element_elementBytes henc _ h.2.2.1.2, versionTree, ← element_node henc h]
  simp [Der.allBytes, Der.bytes]

theorem negoBlob_bytes {r : TSRequest} (h : Der.AllWellFormed (r.negoData.toList.map negoTree)) :
    TSRequest.negoBlob asn1encode r = Der.allBytes (r.negoData.toList.map negoTree) := by
  unfold TSRequest.negoBlob TSRequest.negoContent
  cases hdata : r.negoData with
  | none => rfl
  | some token =>
    simp only [hdata, Option.toList_some, List.map_cons, List.map_nil] at h ⊢
    obtain ⟨h, _⟩ := h
    have ⟨_, _, hseq, _⟩ := h
    have ⟨_, _, hseq', _⟩ := hseq
    have ⟨_, _, hoctets, _⟩ := hseq'
    have houter := element_node henc h
    have hmiddle := element_node henc hseq
    have hinner := element_node henc hseq'
    simp only [Der.allBytes, List.append_nil] at houter hmiddle hinner ⊢
    rw [element_octets henc hoctets, hinner, hmiddle, houter]
    rfl

theorem octetsBlob_bytes {tag : UInt8} {payload : Option Bytes}
    (h : Der.AllWellFormed (payload.toList.map (octetsTree tag))) :
    payload.elim [] (fun octets => TSRequest.element asn1encode tag (TSRequest.element asn1encode ASN1_OCTET_STR octets)) =
      Der.allBytes (payload.toList.map (octetsTree tag)) := by
  cases payload with
  | none => rfl
  | some octets =>
    simp only [Option.elim_some, Option.toList_some, List.map_cons, List.map_nil] at h ⊢
    rw [element_octets henc h.1]
    simp [Der.allBytes]

theorem request_bytes {r : TSRequest} (h : r.tree.WellFormed) : r.getData asn1encode = r.tree.bytes := by
  have ⟨_, _, hversion, hfields⟩ := h
  obtain ⟨hfront, hpubkey⟩ := Der.allWellFormed_append hfields
  obtain ⟨hnego, hauth⟩ := Der.allWellFormed_append hfront
  have hauthBlob : TSRequest.authBlob asn1encode r = Der.allBytes (r.authInfo.toList.map (octetsTree ASN1_CONTEXT_2)) := by
    rw [← octetsBlob_bytes henc hauth, TSRequest.authBlob]
    cases r.authInfo <;> rfl
  have hpubkeyBlob :
      TSRequest.pubkeyBlob asn1encode r = Der.allBytes (r.pubKeyAuth.toList.map (octetsTree ASN1_CONTEXT_3)) := by
    rw [← octetsBlob_bytes henc hpubkey, TSRequest.pubkeyBlob]
    cases r.pubKeyAuth <;> rfl
  rw [TSRequest.getData, TSRequest.inner, versionBlob_bytes henc hversion, negoBlob_bytes henc hnego, hauthBlob, hpubkeyBlob,
    TSRequest.tree, ← element_node henc h]
  simp [Der.allBytes, Der.allBytes_append]

end

/-! ## What the backend finds -/

theorem recordFields_tree {children : List Der} (h : (Der.node ASN1_SEQUENCE children).WellFormed) :
    recordFields (Der.node ASN1_SEQUENCE children).bytes = some children := by
  rw [recordFields, Der.read_bytes h]
  rfl

theorem readPasswordCreds_tree {domain user password : List Char}
    (h : (TSPasswordCreds.tree ⟨Utf16.encode domain, Utf16.encode user, Utf16.encode password⟩).WellFormed) :
    readPasswordCreds (TSPasswordCreds.tree ⟨Utf16.encode domain, Utf16.encode user, Utf16.encode password⟩).bytes =
      some (domain, user, password) := by
  rw [readPasswordCreds, TSPasswordCreds.tree, recordFields_tree h]
  simp [fieldOctets, octetsTree, Der.child, Der.leaf, Utf16.decode_encode]

theorem readCredentials_tree {data : Bytes} (h : (TSCredentials.tree ⟨1, data⟩).WellFormed) :
    readCredentials (TSCredentials.tree ⟨1, data⟩).bytes = readPasswordCreds data := by
  rw [readCredentials, TSCredentials.tree, recordFields_tree h]
  simp [fieldOctets, octetsTree, Der.child, Der.leaf]

theorem negoToken_tree (token : Bytes) (more : List Der) :
    negoToken (versionTree :: negoTree token :: more) = some token := by
  rfl

theorem seal_opened {S : Type} (cipher : SpnegoCipher S) (s : S) (data : Bytes) :
    cipher.decrypt s ((cipher.seal s data).1.take 16) ((cipher.seal s data).1.drop 16) =
      some (data, (cipher.seal s data).2) := by
  have hlen := cipher.signature_length s data
  rw [SpnegoCipher.seal, List.take_left' hlen, List.drop_left' hlen, cipher.decrypt_encrypt]

theorem seal_length {S : Type} (cipher : SpnegoCipher S) (s : S) (data : Bytes) :
    (cipher.seal s data).1.length = data.length + 16 := by
  rw [SpnegoCipher.seal, List.length_append, cipher.signature_length, cipher.ciphertext_length, Nat.add_comm]

/-! ### The sizes -/

theorem passwordCreds_light (domain user password : List Char)
    (h : 4 * (domain.length + user.length + password.length) ≤ 16000000) :
    (TSPasswordCreds.tree ⟨Utf16.encode domain, Utf16.encode user, Utf16.encode password⟩).WellFormed ∧
    (TSPasswordCreds.tree ⟨Utf16.encode domain, Utf16.encode user, Utf16.encode password⟩).bytes.length ≤ 16000050 := by
  have hdomain := Utf16.encode_length_le domain
  have huser := Utf16.encode_length_le user
  have hpassword := Utf16.encode_length_le password
  have hweight :
      (TSPasswordCreds.tree ⟨Utf16.encode domain, Utf16.encode user, Utf16.encode password⟩).weight ≤ 16000050 := by
    simp [TSPasswordCreds.tree, octetsTree, Der.weight, Der.allWeight]
    omega
  have htags : (TSPasswordCreds.tree ⟨Utf16.encode domain, Utf16.encode user, Utf16.encode password⟩).Tagged := by
    simp [TSPasswordCreds.tree, octetsTree, Der.Tagged, Der.AllTagged]
    decide
  obtain ⟨hwell, hlength⟩ := Der.wellFormed_of_weight htags (by omega)
  exact ⟨hwell, by omega⟩

theorem credentials_light {data : Bytes} (h : data.length ≤ 16000050) :
    (TSCredentials.tree ⟨1, data⟩).WellFormed ∧ (TSCredentials.tree ⟨1, data⟩).bytes.length ≤ 16000100 := by
  have hweight : (TSCredentials.tree ⟨1, data⟩).weight ≤ 16000100 := by
    simp [TSCredentials.tree, octetsTree, Der.weight, Der.allWeight]
    omega
  have htags : (TSCredentials.tree ⟨1, data⟩).Tagged := by
    simp [TSCredentials.tree, octetsTree, Der.Tagged, Der.AllTagged]
    decide
  obtain ⟨hwell, hlength⟩ := Der.wellFormed_of_weight htags (by omega)
  exact ⟨hwell, by omega⟩

theorem answer_light (token sealedKey : Bytes) (h : token.length + sealedKey.length ≤ 16000100) :
    (TSRequest.tree ⟨some token, none, some sealedKey⟩).WellFormed := by
  have hweight : (TSRequest.tree ⟨some token, none, some sealedKey⟩).weight ≤ 16000200 := by
    simp [TSRequest.tree, versionTree, negoTree, octetsTree, Der.weight, Der.allWeight]
    omega
  have htags : (TSRequest.tree ⟨some token, none, some sealedKey⟩).Tagged := by
    simp [TSRequest.tree, versionTree, negoTree, octetsTree, Der.Tagged, Der.AllTagged]
    decide
  exact (Der.wellFormed_of_weight htags (by omega)).1

theorem last_light (sealedCreds : Bytes) (h : sealedCreds.length ≤ 16000200) :
    (TSRequest.tree ⟨none, some sealedCreds, none⟩).WellFormed := by
  have hweight : (TSRequest.tree ⟨none, some sealedCreds, none⟩).weight ≤ 16000300 := by
    simp [TSRequest.tree, versionTree, octetsTree, Der.weight, Der.allWeight]
    omega
  have htags : (TSRequest.tree ⟨none, some sealedCreds, none⟩).Tagged := by
    simp [TSRequest.tree, versionTree, octetsTree, Der.Tagged, Der.AllTagged]
    decide
  exact (Der.wellFormed_of_weight htags (by omega)).1

theorem backendReads_trees {S : Type} {cipher : SpnegoCipher S} {s s' s'' : S}
    {token key sealedKey creds sealedCreds : Bytes} {domain user password : List Char}
    (hanswer : (TSRequest.tree ⟨some token, none, some sealedKey⟩).WellFormed)
    (hlast : (TSRequest.tree ⟨none, some sealedCreds, none⟩).WellFormed)
    (hkey : cipher.decrypt s (sealedKey.take 16) (sealedKey.drop 16) = some (key, s'))
    (hcreds : cipher.decrypt s' (sealedCreds.take 16) (sealedCreds.drop 16) = some (creds, s''))
    (hread : readCredentials creds = some (domain, user, password)) :
    backendReads cipher s key ((TSRequest.tree ⟨some token, none, some sealedKey⟩).bytes,
      (TSRequest.tree ⟨none, some sealedCreds, none⟩).bytes) = some ⟨token, domain, user, password⟩ := by
  have hfields := recordFields_tree hanswer
  have hfields' := recordFields_tree hlast
  unfold backendReads
  rw [TSRequest.tree, TSRequest.tree, hfields, hfields']
  have htoken := negoToken_tree token [octetsTree ASN1_CONTEXT_3 sealedKey]
  simp only [Option.toList_some, Option.toList_none, List.map_cons, List.map_nil, List.append_nil, List.nil_append,
    List.cons_append, Option.bind_eq_bind, Option.bind_some, htoken]
  have hfound : fieldOctets ASN1_CONTEXT_3 [versionTree, negoTree token, octetsTree ASN1_CONTEXT_3 sealedKey] =
      some sealedKey := rfl
  have hfound' : fieldOctets ASN1_CONTEXT_2 [versionTree, octetsTree ASN1_CONTEXT_2 sealedCreds] = some sealedCreds := rfl
  rw [hfound, hfound', Option.bind_some, hkey]
  simp [hcreds, hread]

/-- The backend finds the token, its own key, and the domain, the user and the password, whatever characters they have. -/
theorem credentials_reach_backend (asn1encode : Bytes → Bytes)
    (henc : ∀ data : Bytes, data.length < 256 ^ 3 → asn1encode data = derLength data.length ++ data)
    {S : Type} (cipher : SpnegoCipher S) (s : S) (upper : List Char → List Char)
    (token serverPubKey : Bytes) (username password fallbackDomain : List Char)
    (hsize : token.length + serverPubKey.length + 4 * ((splitDomainUser upper username fallbackDomain).1.length +
      (splitDomainUser upper username fallbackDomain).2.length + password.length) ≤ 16000000) :
    backendReads cipher s serverPubKey
        (finalRecords asn1encode cipher s upper token serverPubKey username password fallbackDomain) =
      some ⟨token, (splitDomainUser upper username fallbackDomain).1, (splitDomainUser upper username fallbackDomain).2,
        password⟩ := by
  cases hsplit : splitDomainUser upper username fallbackDomain with
  | mk domain user =>
    rw [hsplit] at hsize
    dsimp only at hsize
    obtain ⟨htsp, htspLength⟩ := passwordCreds_light domain user password (by omega)
    obtain ⟨htsc, htscLength⟩ := credentials_light htspLength
    have hread := (readCredentials_tree htsc).trans (readPasswordCreds_tree htsp)
    have hanswer := answer_light token (cipher.seal s serverPubKey).1 (by rw [seal_length]; omega)
    unfold finalRecords
    rw [hsplit]
    dsimp only
    rw [passwordCreds_bytes henc htsp, credentials_bytes henc htsc, request_bytes henc hanswer,
      request_bytes henc (last_light _ (by rw [seal_length]; omega))]
    exact backendReads_trees hanswer (last_light _ (by rw [seal_length]; omega)) (seal_opened cipher s serverPubKey)
      (seal_opened cipher _ _) hread

/-- The signature is the number of the message. -/
def countingCipher : SpnegoCipher Nat where
  encrypt n data := ((List.replicate 16 (UInt8.ofNat n), data.map (· ^^^ 0x5A)), n + 1)
  decrypt n signature ciphertext :=
    if signature = List.replicate 16 (UInt8.ofNat n) then some (ciphertext.map (· ^^^ 0x5A), n + 1) else none
  signature_length _ _ := List.length_replicate
  ciphertext_length _ _ := List.length_map _
  decrypt_encrypt n data := by
    have hback : (fun b : UInt8 => b ^^^ 0x5A) ∘ (fun b => b ^^^ 0x5A) = id := by
      funext b
      show b ^^^ 0x5A ^^^ 0x5A = b
      rw [UInt8.xor_assoc, UInt8.xor_self, UInt8.xor_zero]
    simp [hback]

theorem ivan_reaches_backend :
    backendReads countingCipher 0 [0x30, 0x0A] (finalRecords (fun data => derLength data.length ++ data) countingCipher 0
        (List.map Char.toUpper) [0x4E, 0x54] [0x30, 0x0A] "ivan".toList "p🔑".toList "corp.local".toList) =
      some ⟨[0x4E, 0x54], "CORP".toList, "ivan".toList, "p🔑".toList⟩ :=
  credentials_reach_backend (fun data => derLength data.length ++ data) (fun _ _ => rfl) countingCipher 0 _ _ _ _ _ _
    (by decide)

end RdpProxy.Rdp
