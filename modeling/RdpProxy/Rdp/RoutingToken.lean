import RdpProxy.Rdp.X224

/-!
# Routing tokens

The token that `create_session` mints reaches the relay in the first line of the client's
X.224 request. `extract_cookie_token` finds it behind its marker, or by its looks.
-/

open Words Text

namespace RdpProxy.Rdp

/-! ## Minting -/

def urlsafeChar (n : Nat) : UInt8 :=
  if n < 26 then UInt8.ofNat (65 + n)
  else if n < 52 then UInt8.ofNat (71 + n)
  else if n < 62 then UInt8.ofNat (n - 4)
  else if n = 62 then 45
  else 95

/-- `base64.urlsafe_b64encode` without its padding. -/
def urlsafeB64 : Bytes → Bytes
  | a :: b :: c :: rest =>
    let n := 65536 * a.toNat + 256 * b.toNat + c.toNat
    urlsafeChar (n / 262144) :: urlsafeChar (n / 4096 % 64) :: urlsafeChar (n / 64 % 64) ::
      urlsafeChar (n % 64) :: urlsafeB64 rest
  | [a, b] =>
    let n := 256 * a.toNat + b.toNat
    [urlsafeChar (n / 1024), urlsafeChar (n / 16 % 64), urlsafeChar (n % 16 * 4)]
  | [a] => [urlsafeChar (a.toNat / 4), urlsafeChar (a.toNat % 4 * 16)]
  | [] => []

/-- `secrets.token_urlsafe` of these random bytes. -/
def tokenUrlsafe (random : Bytes) : Bytes := urlsafeB64 random

theorem urlsafeB64_length (l : Bytes) : (urlsafeB64 l).length = (4 * l.length + 2) / 3 := by
  induction l using urlsafeB64.induct with
  | case1 a b c rest ih =>
    simp only [urlsafeB64, List.length_cons, ih]
    omega
  | case2 a b => simp [urlsafeB64]
  | case3 a => simp [urlsafeB64]
  | case4 => simp [urlsafeB64]

theorem urlsafeChar_isTokenByte (n : Nat) : isTokenByte (urlsafeChar n) = true := by
  by_cases hn : n < 64
  · have hall : ∀ k < 64, isTokenByte (urlsafeChar k) = true := by decide
    exact hall n hn
  · have h95 : urlsafeChar n = 95 := by
      rw [urlsafeChar, if_neg (by omega), if_neg (by omega), if_neg (by omega), if_neg (by omega)]
    rw [h95]
    decide

theorem urlsafeB64_isTokenByte (l : Bytes) : ∀ b ∈ urlsafeB64 l, isTokenByte b = true := by
  induction l using urlsafeB64.induct with
  | case1 a b c rest ih =>
    simp only [urlsafeB64, List.mem_cons]
    rintro x (rfl | rfl | rfl | rfl | hx)
    · exact urlsafeChar_isTokenByte _
    · exact urlsafeChar_isTokenByte _
    · exact urlsafeChar_isTokenByte _
    · exact urlsafeChar_isTokenByte _
    · exact ih x hx
  | case2 a b =>
    simp only [urlsafeB64, List.mem_cons, List.not_mem_nil, or_false]
    rintro x (rfl | rfl | rfl) <;> exact urlsafeChar_isTokenByte _
  | case3 a =>
    simp only [urlsafeB64, List.mem_cons, List.not_mem_nil, or_false]
    rintro x (rfl | rfl) <;> exact urlsafeChar_isTokenByte _
  | case4 => simp [urlsafeB64]

/-! ## Token bytes -/

theorem isTokenByte_spec {b : UInt8} (h : isTokenByte b = true) :
    b < 0x80 ∧ isSpace (Char.ofNat b.toNat) = false ∧ b ≠ 0 ∧ b ≠ 0x0D ∧ b ≠ 58 := by
  have hall : ∀ n < 256, isTokenByte (UInt8.ofNat n) = true → UInt8.ofNat n < 0x80 ∧
      isSpace (Char.ofNat (UInt8.ofNat n).toNat) = false ∧ UInt8.ofNat n ≠ 0 ∧ UInt8.ofNat n ≠ 0x0D ∧
      UInt8.ofNat n ≠ 58 := by decide +kernel
  have := hall b.toNat b.toNat_lt
  rw [UInt8.ofNat_toNat] at this
  exact this h

def isDigitByte (b : UInt8) : Bool := 48 ≤ b && b ≤ 57
def isLetterByte (b : UInt8) : Bool := (65 ≤ b && b ≤ 90) || (97 ≤ b && b ≤ 122)

/-- What tells a token from other text: a hyphen, an underscore, or a digit and a letter. -/
def Telling (token : Bytes) : Prop :=
  45 ∈ token ∨ 95 ∈ token ∨ (∃ b ∈ token, isDigitByte b = true) ∧ ∃ b ∈ token, isLetterByte b = true

instance (token : Bytes) : Decidable (Telling token) := inferInstanceAs (Decidable (_ ∨ _))

theorem char_of_tokenByte {b : UInt8} (h : isTokenByte b = true) :
    (Char.ofNat b.toNat = '-' ↔ b = 45) ∧ (Char.ofNat b.toNat = '_' ↔ b = 95) ∧
      (Char.ofNat b.toNat).isDigit = isDigitByte b ∧ (Char.ofNat b.toNat).isAlpha = isLetterByte b := by
  have hall : ∀ n < 256, isTokenByte (UInt8.ofNat n) = true →
      (Char.ofNat (UInt8.ofNat n).toNat = '-' ↔ UInt8.ofNat n = 45) ∧
      (Char.ofNat (UInt8.ofNat n).toNat = '_' ↔ UInt8.ofNat n = 95) ∧
      (Char.ofNat (UInt8.ofNat n).toNat).isDigit = isDigitByte (UInt8.ofNat n) ∧
      (Char.ofNat (UInt8.ofNat n).toNat).isAlpha = isLetterByte (UInt8.ofNat n) := by decide +kernel
  have := hall b.toNat b.toNat_lt
  rw [UInt8.ofNat_toNat] at this
  exact this h

theorem looksLikeToken_iff {token : Bytes} (h : ∀ b ∈ token, isTokenByte b = true) (hl : 32 ≤ token.length) :
    looksLikeToken (chars token) = true ↔ Telling token := by
  have hhyphen : '-' ∈ chars token ↔ 45 ∈ token := by
    simp only [chars, List.mem_map]
    constructor
    · rintro ⟨b, hb, he⟩
      rwa [← (char_of_tokenByte (h b hb)).1.mp he]
    · exact fun hb => ⟨45, hb, rfl⟩
  have hunderscore : '_' ∈ chars token ↔ 95 ∈ token := by
    simp only [chars, List.mem_map]
    constructor
    · rintro ⟨b, hb, he⟩
      rwa [← (char_of_tokenByte (h b hb)).2.1.mp he]
    · exact fun hb => ⟨95, hb, rfl⟩
  have hdigit : (chars token).any Char.isDigit = true ↔ ∃ b ∈ token, isDigitByte b = true := by
    simp only [chars, List.any_map, List.any_eq_true, Function.comp_apply]
    refine exists_congr fun b => and_congr_right fun hb => ?_
    rw [(char_of_tokenByte (h b hb)).2.2.1]
  have hletter : (chars token).any Char.isAlpha = true ↔ ∃ b ∈ token, isLetterByte b = true := by
    simp only [chars, List.any_map, List.any_eq_true, Function.comp_apply]
    refine exists_congr fun b => and_congr_right fun hb => ?_
    rw [(char_of_tokenByte (h b hb)).2.2.2]
  simp only [looksLikeToken, Bool.or_eq_true, Bool.and_eq_true, List.contains_iff_mem, hhyphen, hunderscore,
    hdigit, hletter, chars_length, decide_eq_true_eq, hl, true_and, Telling, or_assoc]

theorem strip_decode_token {token : Bytes} (h : ∀ b ∈ token, isTokenByte b = true) :
    strip (decodeIgnore token) = chars token := by
  rw [decodeIgnore_ascii token fun b hb => (isTokenByte_spec (h b hb)).1, strip_eq_self]
  intro c hc
  obtain ⟨b, hb, rfl⟩ := List.mem_map.mp hc
  exact (isTokenByte_spec (h b hb)).2.1

/-! ## Requests with a token -/

/-- The two ways a client sends the line of `loadbalanceinfo`. -/
inductive Layout where
  | raw
  | cookie
  deriving DecidableEq

def Layout.text : Layout → Bytes → Bytes
  | .raw, token => token
  | .cookie, token => msts ++ token

structure TokenRequest extends ConnectionRequest where
  random : Bytes
  layout : Layout
  size : random.length = 32
  carries : toConnectionRequest.routingBytes = layout.text (tokenUrlsafe random) ++ crlf

namespace TokenRequest

variable (r : TokenRequest)

def token : Bytes := tokenUrlsafe r.random

theorem token_length : r.token.length = 43 := by
  rw [token, tokenUrlsafe, urlsafeB64_length, r.size]

theorem token_bytes : ∀ b ∈ r.token, isTokenByte b = true := urlsafeB64_isTokenByte r.random

/-- The payload up to the class options, whose octet is null. -/
def head : Bytes :=
  [UInt8.ofNat (6 + r.routingBytes.length + 4 + r.protocolBytes.length), 0xE0, 0x00, 0x00, r.srcRef.1, r.srcRef.2]

theorem payload_eq : r.payload = (r.head ++ [0x00]) ++ (r.layout.text r.token ++
    (crlf ++ ([0x01, r.flags, 0x08, 0x00] ++ r.protocolBytes))) := by
  simp [ConnectionRequest.payload, ConnectionRequest.lead, head, r.carries, token]

/-! ### Behind the marker -/

theorem markedText_cookie (h : r.layout = .cookie) : markedText r.payload msts = some (chars r.token) := by
  have hnull : (0 : UInt8) ∉ msts := by decide
  have hreturn : ∀ i < r.token.length, ∀ rest, window (r.token ++ rest) i crlf.length ≠ crlf := by
    intro i hi rest hw
    have h0 := window_eq_iff.mp hw 0 (by decide)
    rw [Nat.add_zero, List.getElem?_append_left hi] at h0
    exact (isTokenByte_spec (r.token_bytes _ (List.mem_of_getElem? h0))).2.2.2.1 rfl
  -- The marker does not start before the routing token, over the null of the class options.
  have hstart : find r.payload msts 0 = some 7 := by
    rw [payload_eq, h, find_append_right (by decide)]
    · rw [Layout.text, List.append_assoc, find_prefix (by decide)]
      rfl
    · intro i hi
      refine window_ne_of_not_mem (j := 6) hnull ?_ (by simp [head] at hi; omega) ?_
      · simp [head]
      · have : msts.length = 13 := by decide
        omega
  have hlead : r.payload = ((r.head ++ [0x00]) ++ msts) ++ (r.token ++ (crlf ++ ([0x01, r.flags, 0x08, 0x00] ++
      r.protocolBytes))) := by
    rw [payload_eq, h, Layout.text]
    simp only [List.append_assoc]
  have hlen : ((r.head ++ [0x00]) ++ msts).length = 7 + msts.length := by
    simp [head]
    omega
  have hstop : find r.payload crlf (7 + msts.length) = some (7 + msts.length + r.token.length) := by
    rw [hlead, ← hlen, find_from_length (by decide), find_append_right (by decide) fun i hi => hreturn i hi _,
      find_prefix (by decide)]
    rfl
  have hslice : (r.payload.take (7 + msts.length + r.token.length)).drop (7 + msts.length) = r.token := by
    rw [hlead, ← hlen, List.take_length_add_append, List.take_left, List.drop_left]
  have hne : chars r.token ≠ [] := by
    intro he
    have := congrArg List.length he
    rw [chars_length, r.token_length] at this
    simp at this
  simp only [markedText, hstart, Option.bind_eq_bind, Option.bind_some, hstop, Option.getD_some, hslice,
    strip_decode_token r.token_bytes, if_neg hne]

/-! ### Without a marker -/

/-- The payload of a raw token, up to what follows the start of the `RDP_NEG_REQ`. -/
def frame (rest : Bytes) : Bytes :=
  r.head ++ 0x00 :: (r.token ++ 0x0D :: ([0x0A, 0x01, r.flags, 0x08] ++ 0x00 :: rest))

theorem payload_raw (h : r.layout = .raw) : r.payload = r.frame r.protocolBytes := by
  rw [payload_eq, h]
  simp [frame, Layout.text, crlf]

theorem frame_append (a b : Bytes) : r.frame (a ++ b) = r.frame a ++ b := by
  simp [frame]

theorem correlation_bytes (info : CorrelationInfo) :
    info.bytes = [0x06] ++ 0x00 :: ([0x24] ++ 0x00 :: (info.correlationId ++ 0x00 :: List.replicate 15 0)) := by
  simp [CorrelationInfo.bytes, List.replicate]

structure IsMarker (marker : Bytes) : Prop where
  noNull : 0x00 ∉ marker
  noReturn : 0x0D ∉ marker
  colon : 58 ∈ marker
  long : 13 ≤ marker.length

def markers : List Bytes := [msts, mstsLower, mstshash, mstshashLower]

theorem isMarker_of_mem {marker : Bytes} (h : marker ∈ markers) : IsMarker marker := by
  have hall : ∀ m ∈ markers, (0x00 ∉ m ∧ 0x0D ∉ m) ∧ 58 ∈ m ∧ 13 ≤ m.length := by decide
  obtain ⟨⟨h1, h2⟩, h3, h4⟩ := hall marker h
  exact ⟨h1, h2, h3, h4⟩

theorem IsMarker.ne_nil {marker : Bytes} (h : IsMarker marker) : marker ≠ [] := by
  intro he
  have := h.long
  rw [he] at this
  simp at this

theorem IsMarker.not_infix_short {marker l : Bytes} (h : IsMarker marker) (hl : l.length < 13) :
    ¬ marker <:+: l := by
  intro hin
  have := hin.length_le
  have := h.long
  omega

theorem IsMarker.not_infix_token {marker : Bytes} (h : IsMarker marker) : ¬ marker <:+: r.token := fun hin =>
  (isTokenByte_spec (r.token_bytes _ (hin.subset h.colon))).2.2.2.2 rfl

theorem infix_frame {marker : Bytes} (h : IsMarker marker) (rest : Bytes) :
    marker <:+: r.frame rest ↔ marker <:+: rest := by
  rw [frame, infix_split h.noNull, infix_split h.noReturn, infix_split h.noNull]
  have h1 : ¬ marker <:+: r.head := h.not_infix_short (by simp [head])
  have h2 := h.not_infix_token r
  have h3 : ¬ marker <:+: [0x0A, 0x01, r.flags, 0x08] := h.not_infix_short (by simp)
  simp only [h1, h2, h3, false_or]

theorem infix_correlation {marker : Bytes} (h : IsMarker marker) (info : CorrelationInfo) :
    marker <:+: leBytes 4 r.requestedProtocols ++ info.bytes ↔ marker <:+: info.correlationId := by
  rw [correlation_bytes, ← List.append_assoc, infix_split h.noNull, infix_split h.noNull, infix_split h.noNull]
  have h1 : ¬ marker <:+: leBytes 4 r.requestedProtocols ++ [0x06] := h.not_infix_short (by simp)
  have h2 : ¬ marker <:+: [0x24] := h.not_infix_short (by simp)
  have h3 : ¬ marker <:+: List.replicate 15 (0x00 : UInt8) := by
    intro hin
    have := List.eq_of_mem_replicate (hin.subset h.colon)
    exact absurd this (by decide)
  simp only [h1, h2, h3, false_or, or_false]

theorem findRuns_raw (h : r.layout = .raw) : findRuns isTokenByte 20 r.payload = [r.token] := by
  have hrest : findRuns isTokenByte 20 r.protocolBytes = [] := by
    rw [ConnectionRequest.protocolBytes]
    cases r.correlation with
    | none => exact findRuns_eq_nil (by simp)
    | some info =>
      rw [Option.map_some, Option.getD_some, correlation_bytes, ← List.append_assoc,
        findRuns_short (by decide) _ (by simp), findRuns_short (by decide) _ (by simp),
        findRuns_short (by decide) _ (by rw [info.size]; decide)]
      exact findRuns_eq_nil (by simp)
  rw [r.payload_raw h, frame, findRuns_short (by decide) _ (by simp [head]),
    findRuns_run r.token_bytes (by decide) _ (by rw [token_length]; decide),
    findRuns_short (by decide) _ (by simp), hrest]

/-! ### A marker in the correlation id -/

/-- The id has room for a `msts` marker. -/
def MarkedId : Prop := ∃ info ∈ r.correlation, msts <:+: info.correlationId ∨ mstsLower <:+: info.correlationId

theorem marked_iff (h : r.layout = .raw) : (∃ m ∈ markers, m <:+: r.payload) ↔ r.MarkedId := by
  have hin : ∀ m ∈ markers, (m <:+: r.payload ↔ ∃ info ∈ r.correlation, m <:+: info.correlationId) := by
    intro m hm
    have hmarker := isMarker_of_mem hm
    rw [r.payload_raw h, r.infix_frame hmarker, ConnectionRequest.protocolBytes]
    cases hc : r.correlation with
    | none => simpa using hmarker.not_infix_short (l := leBytes 4 r.requestedProtocols) (by simp)
    | some info =>
      rw [Option.map_some, Option.getD_some, r.infix_correlation hmarker]
      simp
  constructor
  · rintro ⟨m, hm, hp⟩
    obtain ⟨info, hinfo, hid⟩ := (hin m hm).mp hp
    refine ⟨info, hinfo, ?_⟩
    have hlen := hid.length_le
    rw [info.size] at hlen
    simp only [markers, List.mem_cons, List.not_mem_nil, or_false] at hm
    rcases hm with rfl | rfl | rfl | rfl
    · exact Or.inl hid
    · exact Or.inr hid
    · exact absurd hlen (by decide)
    · exact absurd hlen (by decide)
  · rintro ⟨info, hinfo, hid | hid⟩
    · exact ⟨msts, by simp [markers], (hin msts (by simp [markers])).mpr ⟨info, hinfo, hid⟩⟩
    · exact ⟨mstsLower, by simp [markers], (hin mstsLower (by simp [markers])).mpr ⟨info, hinfo, hid⟩⟩

theorem protocolBytes_length : r.protocolBytes.length ≤ 40 := by
  rw [ConnectionRequest.protocolBytes]
  cases r.correlation with
  | none => simp
  | some info => simp [CorrelationInfo.bytes, info.size]

/-- Behind a marker in a raw payload there is too little room for a token. -/
theorem markedText_ne_token (h : r.layout = .raw) {m : Bytes} (hm : m ∈ markers) :
    markedText r.payload m ≠ some (chars r.token) := by
  intro ht
  have hmarker := isMarker_of_mem hm
  obtain ⟨i, hi, hle⟩ := markedText_length ht
  have hsplit : r.payload = r.frame [] ++ r.protocolBytes := by rw [r.payload_raw h, ← frame_append, List.nil_append]
  have hnot : ¬ m <:+: r.frame [] := by
    rw [r.infix_frame hmarker]
    exact hmarker.not_infix_short (by simp)
  rw [hsplit] at hi hle
  have := find_reaches hmarker.ne_nil hnot hi
  have := r.protocolBytes_length
  rw [chars_length, token_length, List.length_append] at hle
  omega

theorem payload_split (h : r.layout = .raw) {info : CorrelationInfo} (hinfo : info ∈ r.correlation) {m : Bytes}
    (hm : IsMarker m) : ∃ front, r.payload = front ++ (info.correlationId ++ List.replicate 16 0) ∧
      ¬ m <:+: front := by
  refine ⟨r.frame (leBytes 4 r.requestedProtocols ++ [0x06] ++ 0x00 :: ([0x24] ++ 0x00 :: [])), ?_, ?_⟩
  · rw [r.payload_raw h, ← frame_append, ConnectionRequest.protocolBytes, Option.mem_def.mp hinfo]
    simp [CorrelationInfo.bytes]
  · rw [r.infix_frame hm, infix_split hm.noNull, infix_split hm.noNull]
    rintro (hin | hin | hin)
    · exact hm.not_infix_short (by simp) hin
    · exact hm.not_infix_short (by simp) hin
    · exact hm.not_infix_short (by simp) hin

theorem markedText_isSome (h : r.layout = .raw) {m : Bytes} (hm : m ∈ markers) (hin : m <:+: r.payload) :
    ∃ t, markedText r.payload m = some t := by
  have hmarker := isMarker_of_mem hm
  obtain ⟨info, hinfo, _⟩ := (r.marked_iff h).mp ⟨m, hm, hin⟩
  obtain ⟨front, hsplit, hfront⟩ := r.payload_split h hinfo hmarker
  obtain ⟨i, hi⟩ : ∃ i, find r.payload m 0 = some i :=
    Option.ne_none_iff_exists'.mp fun hno => (find_none_iff hmarker.ne_nil).mp hno hin
  obtain ⟨⟨_, hw⟩, _⟩ := (find_eq_some hmarker.ne_nil).mp hi
  have hreach : front.length < i + m.length := by
    rw [hsplit] at hi
    exact find_reaches hmarker.ne_nil hfront hi
  have hstop : find r.payload crlf (i + m.length) = none := by
    rw [find_eq_none (by decide)]
    intro j hj hw
    have hreturn : r.payload[j]? = some 0x0D := window_eq_iff.mp hw 0 (by decide)
    rw [hsplit, List.getElem?_append_right (by omega)] at hreturn
    rcases List.mem_append.mp (List.mem_of_getElem? hreturn) with hid | hzero
    · exact info.noReturn hid
    · exact absurd (List.eq_of_mem_replicate hzero) (by decide)
  have hlast : r.payload[r.payload.length - 1]? = some 0 := by
    rw [hsplit, ← List.getLast?_eq_getElem?]
    simp [List.replicate]
  have hroom : i + m.length ≤ r.payload.length - 1 := by
    by_contra hlt
    have := lt_of_window_eq hmarker.ne_nil hw
    exact window_ne_of_not_mem hmarker.noNull hlast (by omega) (by omega) hw
  have hnull : (0 : UInt8) ∈ r.payload.drop (i + m.length) := by
    apply List.mem_of_getElem? (i := r.payload.length - 1 - (i + m.length))
    rw [List.getElem?_drop, Nat.add_sub_cancel' hroom, hlast]
  have hne : strip (decodeIgnore (r.payload.drop (i + m.length))) ≠ [] :=
    List.ne_nil_of_mem (mem_strip (mem_decodeIgnore_of_ascii (by decide) hnull) (by decide))
  refine ⟨strip (decodeIgnore (r.payload.drop (i + m.length))), ?_⟩
  simp only [markedText, hi, Option.bind_eq_bind, Option.bind_some, hstop, Option.getD_none, List.take_length,
    if_neg hne]

/-! ### The token found -/

/-- The token is behind its own marker, or it tells itself from other text and no marker comes later. -/
def Recognizable : Prop := r.layout = .cookie ∨ Telling r.token ∧ ¬ r.MarkedId

theorem extract_raw_marked (h : r.layout = .raw) (hm : r.MarkedId) :
    extractCookieToken r.payload ≠ .ok (chars r.token) := by
  obtain ⟨m, hm, hin⟩ := (r.marked_iff h).mpr hm
  obtain ⟨t, ht⟩ := r.markedText_isSome h hm hin
  obtain ⟨t', ht'⟩ : ∃ t', markers.findSome? (markedText r.payload) = some t' := by
    apply Option.ne_none_iff_exists'.mp
    intro hno
    rw [List.findSome?_eq_none_iff.mp hno m hm] at ht
    exact absurd ht (by simp)
  obtain ⟨m', hm', hres⟩ := List.exists_of_findSome?_eq_some ht'
  rw [extractCookieToken, ← markers, ht']
  simp only [ne_eq, Except.ok.injEq]
  rintro rfl
  exact r.markedText_ne_token h hm' hres

theorem extract_raw_unmarked (h : r.layout = .raw) (hm : ¬ r.MarkedId) :
    extractCookieToken r.payload = .ok (chars r.token) ↔ Telling r.token := by
  have hnone : markers.findSome? (markedText r.payload) = none := by
    rw [List.findSome?_eq_none_iff]
    intro m hmem
    have hfind : find r.payload m 0 = none := (find_none_iff (isMarker_of_mem hmem).ne_nil).mpr fun hin =>
      hm ((r.marked_iff h).mp ⟨m, hmem, hin⟩)
    rw [markedText, hfind]
    rfl
  have hlooks := looksLikeToken_iff r.token_bytes (by rw [token_length]; decide)
  have hdecode : decodeIgnore r.token = chars r.token :=
    decodeIgnore_ascii _ fun b hb => (isTokenByte_spec (r.token_bytes b hb)).1
  rw [extractCookieToken, ← markers, hnone, r.findRuns_raw h, List.map_cons, List.map_nil, hdecode,
    List.find?_cons, ← hlooks]
  cases looksLikeToken (chars r.token) <;> simp

theorem extract_token_iff : extractCookieToken r.payload = .ok (chars r.token) ↔ r.Recognizable := by
  cases hl : r.layout with
  | cookie =>
    have hfound : extractCookieToken r.payload = .ok (chars r.token) := by
      rw [extractCookieToken, List.findSome?_cons, r.markedText_cookie hl]
    exact ⟨fun _ => Or.inl hl, fun _ => hfound⟩
  | raw =>
    have hraw : r.Recognizable ↔ Telling r.token ∧ ¬ r.MarkedId := by simp [Recognizable, hl]
    rw [hraw]
    by_cases hm : r.MarkedId
    · exact ⟨fun h => absurd h (r.extract_raw_marked hl hm), fun h => absurd hm h.2⟩
    · rw [r.extract_raw_unmarked hl hm]
      exact ⟨fun h => ⟨h, hm⟩, fun h => h.1⟩

end TokenRequest

/-! ## A token of one letter -/

/-- 32 zero bytes are minted as 43 letters A. The client sends them raw. -/
def zeroToken : TokenRequest where
  toConnectionRequest := { plainRequest REQUESTED_PROTOCOLS_HYBRID requested_protocols_hybrid_lt with
    routing := some ⟨tokenUrlsafe (List.replicate 32 0), by decide +kernel⟩
    lengthFits := by decide +kernel }
  random := List.replicate 32 0
  layout := .raw
  size := by decide
  carries := rfl

theorem zero_token_rejected : extractCookieToken zeroToken.payload =
    .error "loadbalanceinfo token not found in initial X.224 payload" := by
  decide +kernel

end RdpProxy.Rdp
