import RdpProxy.Lib.JsonFields
import RdpProxy.Store.TokenKill

/-!
# The payloads as JSON text (`redis_store/sessions.py`)

What `create_session` and `create_web_session` write, and what the lookups read. A value of a type that
neither of the two writes is not read.
-/

open JsonText

namespace RdpProxy.Store

/-- A digest that is stored. The empty text counts as none. -/
def digestOf (s : Option String) : Option HexDigest :=
  match s with
  | none => none
  | some hex => if h : hex ≠ "" then some ⟨hex, h⟩ else none

/-! ## Records -/

def TokenPayload.doc (p : TokenPayload) : Doc :=
  .dict [("username".toList, strDoc p.username), ("password_enc".toList, strDoc p.passwordEnc),
    ("target_host".toList, strDoc p.targetHost), ("target_port".toList, .int p.targetPort),
    ("fingerprint".toList, optStrDoc (p.fingerprint.map HexDigest.hex)), ("server_id".toList, optStrDoc p.serverId),
    ("server_display".toList, optStrDoc p.serverDisplay)]

def TokenPayload.ofDoc (d : Doc) : Option TokenPayload := do
  let username ← strAt d "username"
  let passwordEnc ← strAt d "password_enc"
  let targetHost ← strAt d "target_host"
  let targetPort ← intAt d "target_port"
  let fingerprint ← optStrAt d "fingerprint"
  let serverId ← optStrAt d "server_id"
  let serverDisplay ← optStrAt d "server_display"
  return ⟨username, passwordEnc, targetHost, targetPort, digestOf fingerprint, serverId, serverDisplay⟩

abbrev WebPayload := Payload WebFields

def WebPayload.doc (p : WebPayload) : Doc :=
  .dict ([("username".toList, strDoc p.fields.username), ("password_enc".toList, strDoc p.fields.passwordEnc),
    ("groups".toList, .list (p.fields.groups.map strDoc)),
    ("group_guids".toList, .list (p.fields.groupGuids.map strDoc)),
    ("browser_fingerprint".toList, optStrDoc (p.browserFingerprint.map HexDigest.hex))] ++
    (p.lastSeenTs.map fun ts => ("last_seen_ts".toList, Doc.int ts)).toList)

def WebPayload.ofDoc (d : Doc) : Option WebPayload := do
  let username ← strAt d "username"
  let passwordEnc ← strAt d "password_enc"
  let groups ← strsAt d "groups"
  let groupGuids ← strsAt d "group_guids"
  let browserFingerprint ← optStrAt d "browser_fingerprint"
  let lastSeenTs ← optIntAt d "last_seen_ts"
  return ⟨digestOf browserFingerprint, lastSeenTs, ⟨username, passwordEnc, groups, groupGuids⟩⟩

/-- `json.dumps(payload)` -/
def TokenPayload.text (p : TokenPayload) : List Char := dumps true p.doc

def WebPayload.text (p : WebPayload) : List Char := dumps true (WebPayload.doc p)

/-- `json.loads(raw)` -/
def TokenPayload.ofText (raw : List Char) : Option TokenPayload := (loads raw).bind TokenPayload.ofDoc

def WebPayload.ofText (raw : List Char) : Option WebPayload := (loads raw).bind WebPayload.ofDoc

/-! ## What is written is read back -/

theorem digestOf_hex (d : Option HexDigest) : digestOf (d.map HexDigest.hex) = d := by
  cases d with
  | none => rfl
  | some d => simp [digestOf, d.nonempty]

theorem TokenPayload.ofDoc_doc (p : TokenPayload) : TokenPayload.ofDoc p.doc = some p := by
  unfold TokenPayload.ofDoc
  rw [strAt_strDoc (s := p.username) rfl, strAt_strDoc (s := p.passwordEnc) rfl, strAt_strDoc (s := p.targetHost) rfl,
    show intAt p.doc "target_port" = some p.targetPort from rfl,
    optStr_optStrDoc (p.fingerprint.map HexDigest.hex) p.doc "fingerprint" rfl,
    optStr_optStrDoc p.serverId p.doc "server_id" rfl, optStr_optStrDoc p.serverDisplay p.doc "server_display" rfl]
  simp only [Option.bind_eq_bind, Option.bind_some, digestOf_hex]
  rfl

theorem WebPayload.get?_doc {k : List Char} (h : "last_seen_ts".toList ≠ k) (p : WebPayload) :
    (WebPayload.doc p).get? k = (WebPayload.doc { p with lastSeenTs := none }).get? k := by
  obtain ⟨fp, ts, f⟩ := p
  cases ts with
  | none => rfl
  | some ts =>
    exact get?_append_of_ne h _ _

theorem WebPayload.ofDoc_doc (p : WebPayload) : WebPayload.ofDoc (WebPayload.doc p) = some p := by
  obtain ⟨fp, ts, username, passwordEnc, groups, guids⟩ := p
  have hts : optIntAt (WebPayload.doc ⟨fp, ts, ⟨username, passwordEnc, groups, guids⟩⟩) "last_seen_ts" = some ts := by
    cases ts with
    | none => rfl
    | some ts => rfl
  unfold WebPayload.ofDoc
  rw [strAt_strDoc (s := username) (by rw [WebPayload.get?_doc (by decide)]; rfl),
    strAt_strDoc (s := passwordEnc) (by rw [WebPayload.get?_doc (by decide)]; rfl),
    strsAt_strDocs (l := groups) (by rw [WebPayload.get?_doc (by decide)]; rfl),
    strsAt_strDocs (l := guids) (by rw [WebPayload.get?_doc (by decide)]; rfl),
    optStr_optStrDoc (fp.map HexDigest.hex) _ "browser_fingerprint" (by rw [WebPayload.get?_doc (by decide)]; rfl),
    hts]
  simp only [Option.bind_eq_bind, Option.bind_some, digestOf_hex]
  rfl

theorem TokenPayload.ofText_text (p : TokenPayload) : TokenPayload.ofText p.text = some p := by
  rw [TokenPayload.ofText, TokenPayload.text, loads_dumps, Option.bind_some, TokenPayload.ofDoc_doc]

theorem WebPayload.ofText_text (p : WebPayload) : WebPayload.ofText (WebPayload.text p) = some p := by
  rw [WebPayload.ofText, WebPayload.text, loads_dumps, Option.bind_some, WebPayload.ofDoc_doc]

theorem TokenPayload.text_ne_nil (p : TokenPayload) : p.text ≠ [] := dumps_ne_nil true p.doc

theorem WebPayload.text_ne_nil (p : WebPayload) : WebPayload.text p ≠ [] := dumps_ne_nil true (WebPayload.doc p)

/-! ## Updates -/

theorem TokenPayload.set_fingerprint (p : TokenPayload) (d : HexDigest) :
    Doc.set "fingerprint".toList (strDoc d.hex) p.doc = TokenPayload.doc { p with fingerprint := some d } := rfl

theorem WebPayload.set_lastSeenTs (p : WebPayload) (now : Int) :
    Doc.set "last_seen_ts".toList (.int now) (WebPayload.doc p) = WebPayload.doc (p.touch now) := by
  obtain ⟨fp, ts, f⟩ := p
  cases ts with
  | none => rfl
  | some ts => rfl

end RdpProxy.Store
