import RdpProxy.Lib.Text
import RdpProxy.Rdp.Tpkt
import RdpProxy.Rdp.Mcs

/-!
# X.224 connection requests (`rdp/x224.py`)
-/

open Words Ber Text

namespace RdpProxy.Rdp

/-! ## The source -/

def buildX224Cr (requestedProtocols : Nat) : Option Bytes :=
  let x224 : Bytes := [0x0E, 0xE0, 0x00, 0x00, 0x00, 0x00, 0x00]
  if requestedProtocols < 256 ^ 4 then
    let rdpNegReq : Bytes := [0x01, 0x00, 0x08, 0x00] ++ leBytes 4 requestedProtocols
    buildTpkt (x224 ++ rdpNegReq)
  else none

def buildX224CcSsl : Option Bytes :=
  let x224Cc : Bytes := [0x0E, 0xD0, 0x00, 0x00, 0x12, 0x34, 0x00]
  let rdpNegRsp : Bytes := [0x02, 0x00, 0x08, 0x00] ++ leBytes 4 PROTOCOL_SSL
  buildTpkt (x224Cc ++ rdpNegRsp)

def crlf : Bytes := [0x0D, 0x0A]

def markedText (x224Payload marker : Bytes) : Option (List Char) := do
  let start ← find x224Payload marker 0
  let start := start + marker.length
  let stop := (find x224Payload crlf start).getD x224Payload.length
  let text := strip (decodeIgnore ((x224Payload.take stop).drop start))
  if text = [] then none else some text

def msts : Bytes := ascii "Cookie: msts="
def mstsLower : Bytes := ascii "cookie: msts="
def mstshash : Bytes := ascii "Cookie: mstshash="
def mstshashLower : Bytes := ascii "cookie: mstshash="

/-- A byte of `[A-Za-z0-9_-]`. -/
def isTokenByte (b : UInt8) : Bool :=
  (65 ≤ b && b ≤ 90) || (97 ≤ b && b ≤ 122) || (48 ≤ b && b ≤ 57) || b == 95 || b == 45

/-- Whether a candidate is taken for a token. It is ASCII. -/
def looksLikeToken (token : List Char) : Bool :=
  token.contains '-' || token.contains '_' ||
    (32 ≤ token.length && token.any Char.isDigit && token.any Char.isAlpha)

def extractCookieToken (x224Payload : Bytes) : Except String (List Char) :=
  match [msts, mstsLower, mstshash, mstshashLower].findSome? (markedText x224Payload) with
  | some token => .ok token
  | none =>
    match ((findRuns isTokenByte 20 x224Payload).map decodeIgnore).find? looksLikeToken with
    | some token => .ok token
    | none => .error "loadbalanceinfo token not found in initial X.224 payload"

def extractRdpClientHint (x224Payload : Bytes) : List Char :=
  ([mstshash, mstshashLower].findSome? (markedText x224Payload)).getD []

/-- `sha256Hex` is `hashlib.sha256(...).hexdigest()`. -/
def buildRdpClientFingerprint (sha256Hex : Bytes → String) (x224Payload : Bytes) (token : List Char) : String :=
  let hint := extractRdpClientHint x224Payload
  let tokenBytes := utf8 token
  let redacted := replace x224Payload tokenBytes (ascii "<TOKEN>")
  let digest := sha256Hex redacted
  String.ofList hint ++ "|" ++ digest

def negotiationMarker : Bytes := [0x01, 0x00, 0x08, 0x00]

/-- The marker of an `RDP_NEG_REQ` without flags stands at `i`. -/
abbrev MarkerAt (b : Bytes) (i : Nat) : Prop := window b i 4 = negotiationMarker

def extractRequestedProtocols (x224Payload : Bytes) : Nat :=
  match find x224Payload negotiationMarker 0 with
  | some marker =>
    if marker + 8 ≤ x224Payload.length then leNat (window x224Payload (marker + 4) 4)
    else REQUESTED_PROTOCOLS_HYBRID
  | none => REQUESTED_PROTOCOLS_HYBRID

theorem markedText_length {x224Payload marker : Bytes} {t : List Char} (h : markedText x224Payload marker = some t) :
    ∃ i, find x224Payload marker 0 = some i ∧ t.length ≤ x224Payload.length - (i + marker.length) := by
  unfold markedText at h
  simp only [Option.bind_eq_bind, Option.bind_eq_some_iff] at h
  obtain ⟨i, hi, h⟩ := h
  refine ⟨i, hi, ?_⟩
  split_ifs at h with hne
  cases h
  refine Nat.le_trans (strip_length_le _) (Nat.le_trans (decodeIgnore_length_le _) ?_)
  rw [List.length_drop]
  have := List.length_take_le' ((find x224Payload crlf (i + marker.length)).getD x224Payload.length) x224Payload
  omega

theorem extractRequestedProtocols_lt (x224Payload : Bytes) : extractRequestedProtocols x224Payload < 256 ^ 4 := by
  unfold extractRequestedProtocols
  cases find x224Payload negotiationMarker 0 with
  | none => exact requested_protocols_hybrid_lt
  | some marker =>
    simp only
    split_ifs with h
    · have := leNat_lt (window x224Payload (marker + 4) 4)
      rwa [window_length (by omega)] at this
    · decide

/-! ## Well-formed requests

The grammar of what a client sends.
-/

structure CorrelationInfo where
  correlationId : Bytes
  size : correlationId.length = 16
  first : correlationId.head? ≠ some 0x00 ∧ correlationId.head? ≠ some 0xF4
  noReturn : 0x0D ∉ correlationId

def CorrelationInfo.bytes (info : CorrelationInfo) : Bytes :=
  [0x06, 0x00, 0x24, 0x00] ++ info.correlationId ++ List.replicate 16 0

structure Routing where
  text : Bytes
  noNull : 0x00 ∉ text

def Routing.bytes (routing : Routing) : Bytes := routing.text ++ crlf

/-- An X.224 Connection Request with an `RDP_NEG_REQ`. -/
structure ConnectionRequest where
  srcRef : UInt8 × UInt8
  routing : Option Routing
  flags : UInt8
  requestedProtocols : Nat
  correlation : Option CorrelationInfo
  /-- Restricted admin, redirected authentication and correlation info are the flags there are. -/
  flagsLegal : flags &&& 0xF4 = 0
  protocolsFit : requestedProtocols < 256 ^ 4
  announced : correlation.isSome ↔ flags &&& 0x08 ≠ 0
  lengthFits : 6 + ((routing.map Routing.bytes).getD []).length + 8 +
    ((correlation.map CorrelationInfo.bytes).getD []).length < 255

namespace ConnectionRequest

variable (r : ConnectionRequest)

def routingBytes : Bytes := (r.routing.map Routing.bytes).getD []

/-- What follows the four bytes at the start of the `RDP_NEG_REQ`. -/
def protocolBytes : Bytes :=
  leBytes 4 r.requestedProtocols ++ (r.correlation.map CorrelationInfo.bytes).getD []

def lead : Bytes :=
  let lengthIndicator := 6 + r.routingBytes.length + 4 + r.protocolBytes.length
  [UInt8.ofNat lengthIndicator, 0xE0, 0x00, 0x00, r.srcRef.1, r.srcRef.2, 0x00] ++ r.routingBytes

/-- The payload that `read_tpkt` returns. -/
def payload : Bytes := r.lead ++ ([0x01, r.flags, 0x08, 0x00] ++ r.protocolBytes)

/-! ### The protocols as read -/

/-- What is read of a request. A flag breaks up the marker, and then the search goes on behind it. -/
inductive ReadAs : Nat → Prop where
  | field (h : r.flags = 0) : ReadAs r.requestedProtocols
  | stray {k v : Nat} (h : r.flags ≠ 0) (first : FirstAt (MarkerAt r.protocolBytes) k)
      (word : unpackLE 4 r.protocolBytes (k + 4) = some v) : ReadAs v
  | cut {k : Nat} (h : r.flags ≠ 0) (first : FirstAt (MarkerAt r.protocolBytes) k)
      (noWord : unpackLE 4 r.protocolBytes (k + 4) = none) : ReadAs REQUESTED_PROTOCOLS_HYBRID
  | absent (h : r.flags ≠ 0) (nowhere : ∀ i, ¬ MarkerAt r.protocolBytes i) : ReadAs REQUESTED_PROTOCOLS_HYBRID

theorem extract_of_first {b : Bytes} {k : Nat} (h : FirstAt (MarkerAt b) k) :
    extractRequestedProtocols b = (unpackLE 4 b (k + 4)).getD REQUESTED_PROTOCOLS_HYBRID := by
  have hfind : find b negotiationMarker 0 = some k :=
    (find_eq_some (by decide)).mpr ⟨⟨Nat.zero_le k, h.1⟩, fun j hj hw => h.2 j hj hw.2⟩
  simp only [extractRequestedProtocols, hfind, unpackLE, Nat.add_assoc]
  split_ifs <;> rfl

theorem extract_of_nowhere {b : Bytes} (h : ∀ i, ¬ MarkerAt b i) :
    extractRequestedProtocols b = REQUESTED_PROTOCOLS_HYBRID := by
  have hfind : find b negotiationMarker 0 = none := (find_eq_none (by decide)).mpr fun i _ => h i
  simp only [extractRequestedProtocols, hfind]

theorem extract_append {a b : Bytes} (h : ∀ i < a.length, ¬ MarkerAt (a ++ b) i) :
    extractRequestedProtocols (a ++ b) = extractRequestedProtocols b := by
  unfold extractRequestedProtocols
  rw [find_append_right (by decide) h]
  cases find b negotiationMarker 0 with
  | none => rfl
  | some k =>
    simp only [Option.map_some, List.length_append, Nat.add_assoc, Nat.add_le_add_iff_left,
      window_append_right]

theorem markerAt_iff {b : Bytes} {i : Nat} :
    MarkerAt b i ↔ b[i]? = some 1 ∧ b[i + 1]? = some 0 ∧ b[i + 2]? = some 8 ∧ b[i + 3]? = some 0 := by
  refine (@window_eq_iff b negotiationMarker i).trans ⟨fun h => ?_, fun h k hk => ?_⟩
  · exact ⟨h 0 (by decide), h 1 (by decide), h 2 (by decide), h 3 (by decide)⟩
  · match k, hk with
    | 0, _ => exact h.1
    | 1, _ => exact h.2.1
    | 2, _ => exact h.2.2.1
    | 3, _ => exact h.2.2.2

theorem routing_ne_null {k : Nat} {b : UInt8} (h : r.routingBytes[k]? = some b) : b ≠ 0 := by
  have hmem := List.mem_of_getElem? h
  unfold routingBytes at hmem
  cases hr : r.routing with
  | none => simp [hr] at hmem
  | some routing =>
    simp only [hr, Option.map_some, Option.getD_some, Routing.bytes, List.mem_append] at hmem
    rintro rfl
    rcases hmem with hmem | hmem
    · exact routing.noNull hmem
    · exact absurd hmem (by decide)

theorem routing_length : r.routingBytes.length = 0 ∨ 1 < r.routingBytes.length := by
  unfold routingBytes
  cases r.routing with
  | none => exact Or.inl rfl
  | some routing =>
    right
    simp only [Option.map_some, Option.getD_some, Routing.bytes, List.length_append, crlf, List.length_cons]
    omega

/-- The marker does not start before the `RDP_NEG_REQ`: no byte of a routing token is null. -/
theorem lead_no_marker {tail : Bytes} (ht : tail[0]? = some 1) (i : Nat) (hi : i < r.lead.length) :
    ¬ MarkerAt (r.lead ++ tail) i := by
  have hbyte : ∀ k, (r.lead ++ tail)[7 + k]? = (r.routingBytes ++ tail)[k]? := by
    intro k
    simp [lead, Nat.add_comm 7 k]
  have hrouting : ∀ k, k < r.routingBytes.length → (r.routingBytes ++ tail)[k]? ≠ some 0 := by
    intro k hk h
    rw [List.getElem?_append_left hk] at h
    exact r.routing_ne_null h rfl
  have hend : (r.routingBytes ++ tail)[r.routingBytes.length]? = some 1 := by
    rw [List.getElem?_append_right (Nat.le_refl _), Nat.sub_self, ht]
  rw [markerAt_iff]
  rintro ⟨h0, h1, h2, h3⟩
  by_cases hi7 : 7 ≤ i
  · -- Behind a byte of the routing token stands another one, or the type of the request.
    obtain ⟨k, rfl⟩ := Nat.exists_eq_add_of_le hi7
    have hk : k < r.routingBytes.length := by simp [lead] at hi; omega
    rw [Nat.add_assoc, hbyte] at h1
    by_cases hlast : k + 1 < r.routingBytes.length
    · exact hrouting _ hlast h1
    · have : k + 1 = r.routingBytes.length := by omega
      rw [this, hend] at h1
      exact absurd h1 (by decide)
  · match i, hi7 with
    | 0, _ => simp [lead] at h1
    | 1, _ => simp [lead] at h0
    | 2, _ => simp [lead] at h0
    | 3, _ => simp [lead] at h0
    | 4, _ => simp [lead] at h2
    | 6, _ => simp [lead] at h0
    | 5, _ =>
      have h2 := (hbyte 0).symm.trans h2
      have h3 := (hbyte 1).symm.trans h3
      rcases r.routing_length with h | h
      · rw [← h, hend] at h2
        exact absurd h2 (by decide)
      · exact hrouting 1 h h3
    | i + 7, h => exact absurd (Nat.le_add_left 7 i) h

theorem extract_payload : extractRequestedProtocols r.payload =
    extractRequestedProtocols ([0x01, r.flags, 0x08, 0x00] ++ r.protocolBytes) :=
  extract_append (r.lead_no_marker rfl)

theorem extract_tail (h : r.flags ≠ 0) : extractRequestedProtocols ([0x01, r.flags, 0x08, 0x00] ++ r.protocolBytes) =
    extractRequestedProtocols r.protocolBytes := by
  apply extract_append
  intro i hi
  rw [markerAt_iff]
  match i, hi with
  | 0, _ => simp [h]
  | 1, _ => simp
  | 2, _ => simp
  | 3, _ => simp

theorem readAs_eq {v : Nat} (h : r.ReadAs v) : extractRequestedProtocols r.payload = v := by
  rw [extract_payload]
  cases h with
  | field h =>
    have hat : FirstAt (MarkerAt ([0x01, r.flags, 0x08, 0x00] ++ r.protocolBytes)) 0 :=
      ⟨by rw [h]; rfl, fun _ hj => absurd hj (Nat.not_lt_zero _)⟩
    have hword := unpackLE_append_right 4 [0x01, r.flags, 0x08, 0x00] r.protocolBytes 0
    rw [extract_of_first hat]
    simp only [List.length_cons, List.length_nil, Nat.zero_add, Nat.add_zero] at hword ⊢
    rw [hword, protocolBytes, unpackLE_leBytes r.protocolsFit, Option.getD_some]
  | stray h first word => rw [extract_tail r h, extract_of_first first, word, Option.getD_some]
  | cut h first noWord => rw [extract_tail r h, extract_of_first first, noWord, Option.getD_none]
  | absent h nowhere => rw [extract_tail r h, extract_of_nowhere nowhere]

theorem readAs_iff (v : Nat) : r.ReadAs v ↔ extractRequestedProtocols r.payload = v := by
  refine ⟨r.readAs_eq, ?_⟩
  rintro rfl
  obtain ⟨v, hv⟩ : ∃ v, r.ReadAs v := by
    by_cases hflags : r.flags = 0
    · exact ⟨_, .field hflags⟩
    · by_cases hat : ∃ i, MarkerAt r.protocolBytes i
      · obtain ⟨i, hi⟩ := hat
        obtain ⟨k, _, hk⟩ := exists_firstAt hi
        cases hw : unpackLE 4 r.protocolBytes (k + 4) with
        | none => exact ⟨_, .cut hflags hk hw⟩
        | some v => exact ⟨v, .stray hflags hk hw⟩
      · exact ⟨_, .absent hflags fun i hi => hat ⟨i, hi⟩⟩
  rwa [r.readAs_eq hv]

end ConnectionRequest

/-! ## A request without token and flags -/

def plainRequest (requestedProtocols : Nat) (h : requestedProtocols < 256 ^ 4) : ConnectionRequest where
  srcRef := (0, 0)
  routing := none
  flags := 0x00
  requestedProtocols := requestedProtocols
  correlation := none
  flagsLegal := rfl
  protocolsFit := h
  announced := by simp
  lengthFits := by simp

theorem buildX224Cr_eq {requestedProtocols : Nat} (h : requestedProtocols < 256 ^ 4) :
    buildX224Cr requestedProtocols = buildTpkt (plainRequest requestedProtocols h).payload := by
  unfold buildX224Cr
  rw [if_pos h]
  rfl

end RdpProxy.Rdp
