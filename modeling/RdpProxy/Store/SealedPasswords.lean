import RdpProxy.Lib.Aead
import RdpProxy.Lib.Base64
import RdpProxy.Lib.Keyspace
import RdpProxy.Lib.Utf8
import RdpProxy.Store.PayloadText

/-!
# Passwords in the session payloads (`redis_store/encryption.py`, `redis_store/sessions.py`)

The methods of `SessionStore` for tokens and portal sessions, on the texts under the Redis keys. A method is
one step: what its WATCH lets others do in between is that its own write is given up.
-/

open RedisKey Words Text JsonText

namespace RdpProxy.Store

/-! ## `AESEncryptor` -/

/-- `secrets.token_bytes(12)` -/
structure Nonce where
  bytes : Bytes
  length_eq : bytes.length = 12

def aesEncrypt (aesgcm : Aead) (nonce : Nonce) (plaintext : String) (aad : Bytes) : String :=
  String.ofList (Base64.encode (nonce.bytes ++ aesgcm.encrypt nonce.bytes (utf8 plaintext.toList) aad))

/-- `none` where it raises. -/
def aesDecrypt (aesgcm : Aead) (blob : String) (aad : Bytes) : Option String :=
  if blob.toList.all fun c => c.toNat < 128 then do
    let raw ← Base64.decode blob.toList
    let plain ← aesgcm.decrypt (raw.take 12) (raw.drop 12) aad
    let text ← decodeUtf8 plain
    return String.ofList text
  else none

theorem aesDecrypt_aesEncrypt (aesgcm : Aead) (nonce : Nonce) (plaintext : String) (aad other : Bytes) :
    aesDecrypt aesgcm (aesEncrypt aesgcm nonce plaintext aad) other = if other = aad then some plaintext else none := by
  have hascii : (aesEncrypt aesgcm nonce plaintext aad).toList.all (fun c => c.toNat < 128) = true := by
    rw [aesEncrypt, String.toList_ofList, List.all_eq_true]
    intro c hc
    exact decide_eq_true (Base64.encode_ascii _ c hc)
  have htake : ∀ l : Bytes, (nonce.bytes ++ l).take 12 = nonce.bytes := by
    intro l
    rw [← nonce.length_eq, List.take_left]
  have hdrop : ∀ l : Bytes, (nonce.bytes ++ l).drop 12 = l := by
    intro l
    rw [← nonce.length_eq, List.drop_left]
  rw [aesDecrypt, if_pos hascii, aesEncrypt, String.toList_ofList, Base64.decode_encode]
  simp only [Option.bind_eq_bind, Option.bind_some, htake, hdrop, Aead.decrypt_eq]
  split_ifs with h
  · simp [decodeUtf8_utf8]
  · rfl

/-! ## `_password_aad` -/

/-- What `secrets.token_urlsafe` returns. -/
@[ext] structure SessionId where
  text : List Char
  urlSafe : ∀ c ∈ text, c.isAlphanum = true ∨ c = '-' ∨ c = '_'

theorem SessionId.colon_notMem (i : SessionId) : ':' ∉ i.text := by
  intro h
  rcases i.urlSafe ':' h with hc | hc | hc
  · exact absurd hc (by decide)
  · exact absurd hc (by decide)
  · exact absurd hc (by decide)

inductive PasswordKind where
  | token
  | web

def PasswordKind.label : PasswordKind → List Char
  | .token => "rdp:token".toList
  | .web => "rdp:web".toList

def passwordAad (label identifier : List Char) (username : String) : Bytes :=
  utf8 (label ++ ':' :: (identifier ++ ':' :: username.toList))

theorem cut_at_first {c : Char} {a a' b b' : List Char} (ha : c ∉ a) (ha' : c ∉ a')
    (h : a ++ c :: b = a' ++ c :: b') : a = a' ∧ b = b' := by
  induction a generalizing a' with
  | nil =>
    cases a' with
    | nil => exact ⟨rfl, (List.cons.inj h).2⟩
    | cons d a' =>
      have hcd : c = d := (List.cons.inj h).1
      exact absurd (hcd ▸ List.mem_cons_self) ha'
  | cons d a ih =>
    cases a' with
    | nil =>
      have hdc : d = c := (List.cons.inj h).1
      exact absurd (hdc ▸ List.mem_cons_self) ha
    | cons d' a' =>
      obtain ⟨hd, htail⟩ := List.cons.inj h
      obtain ⟨hrest, hb⟩ := ih (fun hc => ha (List.mem_cons_of_mem d hc))
        (fun hc => ha' (List.mem_cons_of_mem d' hc)) htail
      exact ⟨by rw [hd, hrest], hb⟩

theorem label_append_ne (x y : List Char) : PasswordKind.token.label ++ x ≠ PasswordKind.web.label ++ y := by
  intro h
  have hchar : some 't' = some 'w' := congrArg (fun l : List Char => l[4]?) h
  exact absurd hchar (by decide)

/-- The labels differ at a character that both have, and what follows a label is cut at the first colon, which an
id has not. -/
theorem passwordAad_injective {k k' : PasswordKind} {i i' : SessionId} {username username' : String}
    (h : passwordAad k.label i.text username = passwordAad k'.label i'.text username') :
    k = k' ∧ i = i' ∧ username = username' := by
  have htext := utf8_injective h
  have hk : k = k' := by
    cases k with
    | token =>
      cases k' with
      | token => rfl
      | web => exact absurd htext (label_append_ne _ _)
    | web =>
      cases k' with
      | token => exact absurd htext.symm (label_append_ne _ _)
      | web => rfl
  subst hk
  have hrest := (List.cons.inj (List.append_cancel_left htext)).2
  obtain ⟨hid, hname⟩ := cut_at_first i.colon_notMem i'.colon_notMem hrest
  exact ⟨rfl, SessionId.ext hid, String.toList_injective hname⟩

/-! ## The methods -/

abbrev Redis := Keyspace (List Char) (List Char)

def tokenKeyOf (token : List Char) : List Char := "rdp:token:".toList ++ token

def webKeyOf (sessionId : List Char) : List Char := "rdp:web:".toList ++ sessionId

structure SessionData where
  token : List Char
  username : String
  targetHost : String
  targetPort : Int
  password : String
  fingerprint : Option HexDigest
  serverId : Option String
  serverDisplay : Option String
  deriving DecidableEq

structure WebSessionData where
  sessionId : List Char
  username : String
  groups : List String
  groupGuids : List String
  password : String
  deriving DecidableEq

/-- What a lookup raises: the payload cannot be read, or the password cannot be decrypted. -/
inductive LookupError where
  | badPayload
  | badPassword
  deriving DecidableEq

structure RedisSessionStore extends SessionStore where
  aesgcm : Aead
  rdpTokenTtl : Nat
  webTtl : Nat

namespace RedisSessionStore

/-- The arguments of `create_session`. -/
structure TokenRequest where
  username : String
  password : String
  targetHost : String
  targetPort : Int
  serverId : Option String
  serverDisplay : Option String

/-- The arguments of `create_web_session`. -/
structure WebLogin where
  username : String
  password : String
  groups : List String
  groupGuids : List String
  browserFingerprint : String

variable (store : RedisSessionStore)

def tokenPayload (token : SessionId) (nonce : Nonce) (q : TokenRequest) : TokenPayload where
  username := q.username
  passwordEnc :=
    aesEncrypt store.aesgcm nonce q.password (passwordAad PasswordKind.token.label token.text q.username)
  targetHost := q.targetHost
  targetPort := q.targetPort
  fingerprint := none
  serverId := q.serverId
  serverDisplay := q.serverDisplay

def createSession (r : Redis) (token : SessionId) (nonce : Nonce) (q : TokenRequest) : Redis :=
  r.setex (tokenKeyOf token.text) store.rdpTokenTtl (store.tokenPayload token nonce q).text

def getSession (r : Redis) (token : List Char) : Except LookupError (Option SessionData) :=
  match r.raw (tokenKeyOf token) with
  | none => .ok none
  | some raw =>
    match TokenPayload.ofText raw with
    | none => .error .badPayload
    | some payload =>
      match aesDecrypt store.aesgcm payload.passwordEnc
          (passwordAad PasswordKind.token.label token payload.username) with
      | none => .error .badPassword
      | some password =>
        .ok (some ⟨token, payload.username, payload.targetHost, payload.targetPort, password, payload.fingerprint,
          payload.serverId, payload.serverDisplay⟩)

/-- The round of the loop in which EXEC goes through. -/
def setTokenFingerprint (r : Redis) (token : List Char) (fingerprint : String) : Redis :=
  match r.raw (tokenKeyOf token) with
  | none => r
  | some raw =>
    match loads raw with
    | some (.dict entries) =>
      let ttl := (r.keys (tokenKeyOf token)).ttl r.clock
      let payload := Doc.set "fingerprint".toList (strDoc (store.fingerprintDigest fingerprint).hex) (.dict entries)
      if ttl ≤ 0 then r
      else r.setex (tokenKeyOf token) ttl.toNat (dumps true payload)
    | _ => r

def deleteSession (r : Redis) (token : List Char) : Redis := r.delete (tokenKeyOf token)

def webPayload (sessionId : SessionId) (nonce : Nonce) (q : WebLogin) (now : Int) : WebPayload where
  browserFingerprint := some (store.fingerprintDigest q.browserFingerprint)
  lastSeenTs := some now
  fields :=
    { username := q.username
      passwordEnc :=
        aesEncrypt store.aesgcm nonce q.password (passwordAad PasswordKind.web.label sessionId.text q.username)
      groups := q.groups
      groupGuids := q.groupGuids }

def createWebSession (r : Redis) (sessionId : SessionId) (nonce : Nonce) (q : WebLogin) (now : Int) : Redis :=
  r.setex (webKeyOf sessionId.text) store.webTtl (WebPayload.text (store.webPayload sessionId nonce q now))

def openWebPayload (sessionId : List Char) (payload : WebPayload) : Except LookupError (Option WebSessionData) :=
  match aesDecrypt store.aesgcm payload.fields.passwordEnc
      (passwordAad PasswordKind.web.label sessionId payload.fields.username) with
  | none => .error .badPassword
  | some password =>
    .ok (some ⟨sessionId, payload.fields.username, payload.fields.groups, payload.fields.groupGuids, password⟩)

/-- Where the lookup is `contended` its EXEC raises `WatchError`, and it goes on to return the payload, a refused
one too. -/
def getWebSession (r : Redis) (sessionId : List Char) (fingerprint : String) (now : Int) (contended : Bool) :
    Redis × Except LookupError (Option WebSessionData) :=
  match r.raw (webKeyOf sessionId) with
  | none => (r, .ok none)
  | some raw =>
    match WebPayload.ofText raw, loads raw with
    | some payload, some doc =>
      if store.fingerprintMismatch fingerprint payload || store.idleTooLong now payload then
        if contended then (r, store.openWebPayload sessionId payload)
        else (r.delete (webKeyOf sessionId), .ok none)
      else
        let ttl := (r.keys (webKeyOf sessionId)).ttl r.clock
        if ttl ≤ 0 ∨ contended then (r, store.openWebPayload sessionId payload)
        else
          (r.setex (webKeyOf sessionId) ttl.toNat (dumps true (Doc.set "last_seen_ts".toList (.int now) doc)),
            store.openWebPayload sessionId payload)
    | _, _ => (r, .error .badPayload)

def deleteWebSession (r : Redis) (sessionId : List Char) : Redis := r.delete (webKeyOf sessionId)

/-! ## Runs -/

inductive SessionAct where
  | createSession (token : SessionId) (nonce : Nonce) (q : TokenRequest)
  | setTokenFingerprint (token : List Char) (fingerprint : String)
  | deleteSession (token : List Char)
  | createWebSession (sessionId : SessionId) (nonce : Nonce) (q : WebLogin) (now : Int)
  | getWebSession (sessionId : List Char) (fingerprint : String) (now : Int) (contended : Bool)
  | deleteWebSession (sessionId : List Char)
  | tick (ms : Nat)

def act (r : Redis) : SessionAct → Redis
  | .createSession token nonce q => store.createSession r token nonce q
  | .setTokenFingerprint token fingerprint => store.setTokenFingerprint r token fingerprint
  | .deleteSession token => deleteSession r token
  | .createWebSession sessionId nonce q now => store.createWebSession r sessionId nonce q now
  | .getWebSession sessionId fingerprint now contended => (store.getWebSession r sessionId fingerprint now contended).1
  | .deleteWebSession sessionId => deleteWebSession r sessionId
  | .tick ms => r.tick ms

def SessionAct.mints : SessionAct → Option (PasswordKind × SessionId)
  | .createSession token _ _ => some (.token, token)
  | .createWebSession sessionId _ _ _ => some (.web, sessionId)
  | _ => none

/-! ## What an act does to a key -/

def SessionAct.key : SessionAct → Option (List Char)
  | .createSession token _ _ => some (tokenKeyOf token.text)
  | .setTokenFingerprint token _ | .deleteSession token => some (tokenKeyOf token)
  | .createWebSession sessionId _ _ _ => some (webKeyOf sessionId.text)
  | .getWebSession sessionId _ _ _ | .deleteWebSession sessionId => some (webKeyOf sessionId)
  | .tick _ => none

theorem tokenKeyOf_ne_webKeyOf (token sessionId : List Char) : tokenKeyOf token ≠ webKeyOf sessionId := by
  intro h
  have hchar : some 't' = some 'w' := congrArg (fun l : List Char => l[4]?) h
  exact absurd hchar (by decide)

theorem tokenKeyOf_injective {token token' : List Char} (h : tokenKeyOf token = tokenKeyOf token') : token = token' :=
  List.append_cancel_left h

theorem webKeyOf_injective {sessionId sessionId' : List Char} (h : webKeyOf sessionId = webKeyOf sessionId') :
    sessionId = sessionId' :=
  List.append_cancel_left h

variable {store : RedisSessionStore} {r : Redis}

theorem setTokenFingerprint_keys_of_ne {token key : List Char} (h : key ≠ tokenKeyOf token) (fingerprint : String) :
    (store.setTokenFingerprint r token fingerprint).keys key = r.keys key := by
  unfold setTokenFingerprint
  split
  · rfl
  · split
    · dsimp only
      split_ifs
      · rfl
      · exact r.keys_setex_of_ne h _ _
    · rfl

theorem getWebSession_keys_of_ne {sessionId key : List Char} (h : key ≠ webKeyOf sessionId) (fingerprint : String)
    (now : Int) (contended : Bool) :
    (store.getWebSession r sessionId fingerprint now contended).1.keys key = r.keys key := by
  unfold getWebSession
  split
  · rfl
  · split
    · dsimp only
      split_ifs
      · rfl
      · exact r.keys_delete_of_ne h
      · rfl
      · exact r.keys_setex_of_ne h _ _
    · rfl

theorem act_frame {a : SessionAct} {key : List Char} (h : a.key ≠ some key) :
    ((store.act r a).keys key).get = none ∨ (store.act r a).keys key = r.keys key := by
  have hne : ∀ k, a.key = some k → key ≠ k := by
    rintro k hk rfl
    exact h hk
  cases a with
  | createSession token nonce q => exact Or.inr (r.keys_setex_of_ne (hne _ rfl) _ _)
  | setTokenFingerprint token fingerprint => exact Or.inr (setTokenFingerprint_keys_of_ne (hne _ rfl) fingerprint)
  | deleteSession token => exact Or.inr (r.keys_delete_of_ne (hne _ rfl))
  | createWebSession sessionId nonce q now => exact Or.inr (r.keys_setex_of_ne (hne _ rfl) _ _)
  | getWebSession sessionId fingerprint now contended =>
    exact Or.inr (getWebSession_keys_of_ne (hne _ rfl) fingerprint now contended)
  | deleteWebSession sessionId => exact Or.inr (r.keys_delete_of_ne (hne _ rfl))
  | tick ms => exact r.get_keys_tick ms key

/-! ## Tokens -/

/-- The payload is gone, or it is `p` with some fingerprint. -/
def TokenKept (p : TokenPayload) (key : Key (List Char)) : Prop :=
  key.get = none ∨ ∃ d, key.get = some (TokenPayload.text { p with fingerprint := d })

theorem setTokenFingerprint_kept {p : TokenPayload} {token : List Char}
    (h : TokenKept p (r.keys (tokenKeyOf token))) (fingerprint : String) :
    TokenKept p ((store.setTokenFingerprint r token fingerprint).keys (tokenKeyOf token)) := by
  rcases h with hnone | ⟨d, hget⟩
  · rw [setTokenFingerprint, Keyspace.raw_of_none hnone]
    exact Or.inl hnone
  · rw [setTokenFingerprint, Keyspace.raw_of_get hget (TokenPayload.text_ne_nil _)]
    dsimp only
    rw [TokenPayload.text, loads_dumps]
    dsimp only [TokenPayload.doc]
    split_ifs
    · exact Or.inr ⟨d, hget⟩
    · refine Or.inr ⟨some (store.fingerprintDigest fingerprint), ?_⟩
      rw [Keyspace.get_keys_setex]
      exact congrArg (fun v => some (dumps true v))
        (TokenPayload.set_fingerprint { p with fingerprint := d } (store.fingerprintDigest fingerprint))

theorem act_tokenKept {p : TokenPayload} {token : SessionId} {a : SessionAct} (hmint : a.mints ≠ some (.token, token))
    (h : TokenKept p (r.keys (tokenKeyOf token.text))) :
    TokenKept p ((store.act r a).keys (tokenKeyOf token.text)) := by
  by_cases hkey : a.key = some (tokenKeyOf token.text)
  · cases a with
    | createSession token' nonce q =>
      have htoken : token' = token := SessionId.ext (tokenKeyOf_injective (Option.some.inj hkey))
      exact absurd (by rw [← htoken]; rfl) hmint
    | setTokenFingerprint token' fingerprint =>
      obtain rfl := tokenKeyOf_injective (Option.some.inj hkey)
      exact setTokenFingerprint_kept h fingerprint
    | deleteSession token' =>
      obtain rfl := tokenKeyOf_injective (Option.some.inj hkey)
      exact Or.inl (r.get_keys_delete _)
    | createWebSession sessionId nonce q now => exact absurd (Option.some.inj hkey).symm (tokenKeyOf_ne_webKeyOf _ _)
    | getWebSession sessionId fingerprint now contended =>
      exact absurd (Option.some.inj hkey).symm (tokenKeyOf_ne_webKeyOf _ _)
    | deleteWebSession sessionId => exact absurd (Option.some.inj hkey).symm (tokenKeyOf_ne_webKeyOf _ _)
    | tick ms => cases hkey
  · rcases act_frame hkey with hnone | hsame
    · exact Or.inl hnone
    · rw [hsame]
      exact h

theorem run_tokenKept {p : TokenPayload} {token : SessionId} {acts : List SessionAct}
    (hmint : ∀ a ∈ acts, a.mints ≠ some (.token, token)) (h : TokenKept p (r.keys (tokenKeyOf token.text))) :
    TokenKept p ((acts.foldl store.act r).keys (tokenKeyOf token.text)) := by
  induction acts generalizing r with
  | nil => exact h
  | cons a acts ih =>
    exact ih (fun b hb => hmint b (List.mem_cons_of_mem a hb)) (act_tokenKept (hmint a List.mem_cons_self) h)

/-! ## Portal sessions -/

/-- The payload is gone, or it is `p` with some stamp. -/
def WebKept (p : WebPayload) (key : Key (List Char)) : Prop :=
  key.get = none ∨ ∃ ts, key.get = some (WebPayload.text (p.touch ts))

theorem getWebSession_of_none {sessionId : List Char} (h : (r.keys (webKeyOf sessionId)).get = none)
    (fingerprint : String) (now : Int) (contended : Bool) :
    store.getWebSession r sessionId fingerprint now contended = (r, .ok none) := by
  rw [getWebSession, Keyspace.raw_of_none h]

theorem getWebSession_of_raw {p : WebPayload} {doc : Doc} {raw sessionId : List Char}
    (hraw : r.raw (webKeyOf sessionId) = some raw) (hp : WebPayload.ofText raw = some p) (hdoc : loads raw = some doc)
    (fingerprint : String) (now : Int) (contended : Bool) :
    store.getWebSession r sessionId fingerprint now contended =
      if store.Admits fingerprint now p then
        if (r.keys (webKeyOf sessionId)).ttl r.clock ≤ 0 ∨ contended then (r, store.openWebPayload sessionId p)
        else
          (r.setex (webKeyOf sessionId) ((r.keys (webKeyOf sessionId)).ttl r.clock).toNat
              (dumps true (Doc.set "last_seen_ts".toList (.int now) doc)),
            store.openWebPayload sessionId p)
      else if contended then (r, store.openWebPayload sessionId p)
      else (r.delete (webKeyOf sessionId), .ok none) := by
  have hrefused : (store.fingerprintMismatch fingerprint p || store.idleTooLong now p) = true ↔
      ¬ store.Admits fingerprint now p := by
    rw [admits_iff, not_not, Bool.or_eq_true]
  rw [getWebSession, hraw]
  dsimp only
  rw [hp, hdoc]
  dsimp only
  by_cases hadmits : store.Admits fingerprint now p
  · rw [if_pos hadmits, if_neg fun hr => hrefused.mp hr hadmits]
  · rw [if_neg hadmits, if_pos (hrefused.mpr hadmits)]

theorem getWebSession_snd {p : WebPayload} {doc : Doc} {raw sessionId : List Char}
    (hraw : r.raw (webKeyOf sessionId) = some raw) (hp : WebPayload.ofText raw = some p) (hdoc : loads raw = some doc)
    (fingerprint : String) (now : Int) (contended : Bool) :
    (store.getWebSession r sessionId fingerprint now contended).2 =
      if contended ∨ store.Admits fingerprint now p then store.openWebPayload sessionId p else .ok none := by
  rw [getWebSession_of_raw hraw hp hdoc]
  by_cases hadmits : store.Admits fingerprint now p
  · rw [if_pos hadmits, if_pos (Or.inr hadmits)]
    split_ifs
    · rfl
    · rfl
  · rw [if_neg hadmits]
    by_cases hc : contended = true
    · rw [if_pos hc, if_pos (Or.inl hc)]
    · rw [if_neg hc, if_neg (not_or.mpr ⟨hc, hadmits⟩)]

theorem loads_text (p : WebPayload) : loads (WebPayload.text p) = some (WebPayload.doc p) := loads_dumps true _

theorem getWebSession_kept {p : WebPayload} {sessionId : List Char} (h : WebKept p (r.keys (webKeyOf sessionId)))
    (fingerprint : String) (now : Int) (contended : Bool) :
    WebKept p ((store.getWebSession r sessionId fingerprint now contended).1.keys (webKeyOf sessionId)) := by
  rcases h with hnone | ⟨ts, hget⟩
  · rw [getWebSession_of_none hnone]
    exact Or.inl hnone
  · rw [getWebSession_of_raw (Keyspace.raw_of_get hget (WebPayload.text_ne_nil _)) (WebPayload.ofText_text _)
      (loads_text _)]
    split_ifs
    · exact Or.inr ⟨ts, hget⟩
    · dsimp only
      rw [WebPayload.set_lastSeenTs]
      exact Or.inr ⟨now, r.get_keys_setex _ _ _⟩
    · exact Or.inr ⟨ts, hget⟩
    · exact Or.inl (r.get_keys_delete _)

theorem act_webKept {p : WebPayload} {sessionId : SessionId} {a : SessionAct} (hmint : a.mints ≠ some (.web, sessionId))
    (h : WebKept p (r.keys (webKeyOf sessionId.text))) :
    WebKept p ((store.act r a).keys (webKeyOf sessionId.text)) := by
  by_cases hkey : a.key = some (webKeyOf sessionId.text)
  · cases a with
    | createSession token nonce q => exact absurd (Option.some.inj hkey) (tokenKeyOf_ne_webKeyOf _ _)
    | setTokenFingerprint token fingerprint => exact absurd (Option.some.inj hkey) (tokenKeyOf_ne_webKeyOf _ _)
    | deleteSession token => exact absurd (Option.some.inj hkey) (tokenKeyOf_ne_webKeyOf _ _)
    | createWebSession other nonce q now =>
      have hid : other = sessionId := SessionId.ext (webKeyOf_injective (Option.some.inj hkey))
      exact absurd (by rw [← hid]; rfl) hmint
    | getWebSession other fingerprint now contended =>
      obtain rfl := webKeyOf_injective (Option.some.inj hkey)
      exact getWebSession_kept h fingerprint now contended
    | deleteWebSession other =>
      obtain rfl := webKeyOf_injective (Option.some.inj hkey)
      exact Or.inl (r.get_keys_delete _)
    | tick ms => cases hkey
  · rcases act_frame hkey with hnone | hsame
    · exact Or.inl hnone
    · rw [hsame]
      exact h

theorem run_webKept {p : WebPayload} {sessionId : SessionId} {acts : List SessionAct}
    (hmint : ∀ a ∈ acts, a.mints ≠ some (.web, sessionId)) (h : WebKept p (r.keys (webKeyOf sessionId.text))) :
    WebKept p ((acts.foldl store.act r).keys (webKeyOf sessionId.text)) := by
  induction acts generalizing r with
  | nil => exact h
  | cons a acts ih =>
    exact ih (fun b hb => hmint b (List.mem_cons_of_mem a hb)) (act_webKept (hmint a List.mem_cons_self) h)

/-! ## Lookups -/

def TokenRequest.session (q : TokenRequest) (token : List Char) (d : Option HexDigest) : SessionData :=
  ⟨token, q.username, q.targetHost, q.targetPort, q.password, d, q.serverId, q.serverDisplay⟩

def WebLogin.session (q : WebLogin) (sessionId : List Char) : WebSessionData :=
  ⟨sessionId, q.username, q.groups, q.groupGuids, q.password⟩

theorem getSession_of_none {token : List Char} (h : (r.keys (tokenKeyOf token)).get = none) :
    store.getSession r token = .ok none := by
  rw [getSession, Keyspace.raw_of_none h]

theorem getSession_of_text {token : SessionId} {nonce : Nonce} {q : TokenRequest} {d : Option HexDigest}
    (h : (r.keys (tokenKeyOf token.text)).get =
      some (TokenPayload.text { store.tokenPayload token nonce q with fingerprint := d })) :
    store.getSession r token.text = .ok (some (q.session token.text d)) := by
  rw [getSession, Keyspace.raw_of_get h (TokenPayload.text_ne_nil _)]
  dsimp only
  rw [TokenPayload.ofText_text]
  dsimp only [tokenPayload]
  rw [aesDecrypt_aesEncrypt, if_pos rfl]
  rfl

theorem openWebPayload_of_login (sessionId : SessionId) (nonce : Nonce) (q : WebLogin) (created ts : Int) :
    store.openWebPayload sessionId.text ((store.webPayload sessionId nonce q created).touch ts) =
      .ok (some (q.session sessionId.text)) := by
  rw [openWebPayload]
  dsimp only [webPayload, Payload.touch]
  rw [aesDecrypt_aesEncrypt, if_pos rfl]
  rfl

theorem foreign_ne {k k' : PasswordKind} {i i' : SessionId} {username username' : String}
    (h : (k, i, username) ≠ (k', i', username')) :
    passwordAad k'.label i'.text username' ≠ passwordAad k.label i.text username := by
  intro haad
  obtain ⟨hk, hi, hname⟩ := passwordAad_injective haad
  exact h (by rw [hk, hi, hname])

theorem getSession_of_foreign {token i : SessionId} {raw : List Char} {p : TokenPayload} {k : PasswordKind}
    {username password : String} {nonce : Nonce} (hraw : r.raw (tokenKeyOf token.text) = some raw)
    (hp : TokenPayload.ofText raw = some p)
    (hblob : p.passwordEnc = aesEncrypt store.aesgcm nonce password (passwordAad k.label i.text username))
    (h : (k, i, username) ≠ (.token, token, p.username)) : store.getSession r token.text = .error .badPassword := by
  rw [getSession, hraw]
  dsimp only
  rw [hp]
  dsimp only
  rw [hblob, aesDecrypt_aesEncrypt, if_neg (foreign_ne h)]

theorem openWebPayload_of_foreign {sessionId i : SessionId} {p : WebPayload} {k : PasswordKind}
    {username password : String} {nonce : Nonce}
    (hblob : p.fields.passwordEnc = aesEncrypt store.aesgcm nonce password (passwordAad k.label i.text username))
    (h : (k, i, username) ≠ (.web, sessionId, p.fields.username)) :
    store.openWebPayload sessionId.text p = .error .badPassword := by
  rw [openWebPayload, hblob, aesDecrypt_aesEncrypt, if_neg (foreign_ne h)]

theorem token_round_trip {token : SessionId} {acts : List SessionAct}
    (hmint : ∀ a ∈ acts, a.mints ≠ some (.token, token)) (r : Redis) (nonce : Nonce) (q : TokenRequest) :
    ∃ d, store.getSession (acts.foldl store.act (store.createSession r token nonce q)) token.text = .ok
      (if ((acts.foldl store.act (store.createSession r token nonce q)).keys (tokenKeyOf token.text)).get = none then
        none
      else some (q.session token.text d)) := by
  have hcreated : TokenKept (store.tokenPayload token nonce q)
      ((store.createSession r token nonce q).keys (tokenKeyOf token.text)) := by
    exact Or.inr ⟨none, r.get_keys_setex _ _ _⟩
  rcases run_tokenKept hmint hcreated with hnone | ⟨d, hget⟩
  · exact ⟨none, by rw [getSession_of_none hnone, if_pos hnone]⟩
  · exact ⟨d, by rw [getSession_of_text hget, if_neg (by rw [hget]; exact Option.some_ne_none _)]⟩

theorem getWebSession_of_login {sessionId : SessionId} {nonce : Nonce} {q : WebLogin} {created ts : Int}
    (h : (r.keys (webKeyOf sessionId.text)).get =
      some (WebPayload.text ((store.webPayload sessionId nonce q created).touch ts))) (fingerprint : String) (now : Int)
    (contended : Bool) :
    (store.getWebSession r sessionId.text fingerprint now contended).2 = .ok
      (if contended ∨ store.Admits fingerprint now ((store.webPayload sessionId nonce q created).touch ts) then
        some (q.session sessionId.text)
      else none) := by
  rw [getWebSession_snd (Keyspace.raw_of_get h (WebPayload.text_ne_nil _)) (WebPayload.ofText_text _) (loads_text _),
    openWebPayload_of_login]
  split_ifs
  · rfl
  · rfl

theorem web_round_trip {sessionId : SessionId} {acts : List SessionAct}
    (hmint : ∀ a ∈ acts, a.mints ≠ some (.web, sessionId)) (r : Redis) (nonce : Nonce) (q : WebLogin) (created : Int) :
    ∃ ts, ∀ fingerprint now contended,
      (store.getWebSession (acts.foldl store.act (store.createWebSession r sessionId nonce q created)) sessionId.text
        fingerprint now contended).2 = .ok
      (if ((acts.foldl store.act (store.createWebSession r sessionId nonce q created)).keys
          (webKeyOf sessionId.text)).get ≠ none ∧ (contended = true ∨
          store.Admits fingerprint now ((store.webPayload sessionId nonce q created).touch ts)) then
        some (q.session sessionId.text)
      else none) := by
  have hcreated : WebKept (store.webPayload sessionId nonce q created)
      ((store.createWebSession r sessionId nonce q created).keys (webKeyOf sessionId.text)) := by
    exact Or.inr ⟨created, r.get_keys_setex _ _ _⟩
  rcases run_webKept hmint hcreated with hnone | ⟨ts, hget⟩
  · refine ⟨created, ?_⟩
    intro fingerprint now contended
    rw [getWebSession_of_none hnone, if_neg fun h => h.1 hnone]
  · refine ⟨ts, ?_⟩
    intro fingerprint now contended
    have hsome : ((acts.foldl store.act (store.createWebSession r sessionId nonce q created)).keys
        (webKeyOf sessionId.text)).get ≠ none := by
      rw [hget]
      exact Option.some_ne_none _
    rw [getWebSession_of_login hget]
    simp only [hsome, ne_eq, not_false_eq_true, true_and]

/-- What is stored comes back until the key is gone, and a blob opens only where it was stored. -/
theorem password_opens_where_it_was_stored (store : RedisSessionStore) :
    (∀ (k k' : PasswordKind) (i i' : SessionId) (username username' : String),
      passwordAad k.label i.text username = passwordAad k'.label i'.text username' →
        k = k' ∧ i = i' ∧ username = username') ∧
    (∀ (k k' : PasswordKind) (i i' : SessionId) (username username' password : String) (nonce : Nonce),
      (k, i, username) ≠ (k', i', username') →
        aesDecrypt store.aesgcm
          (aesEncrypt store.aesgcm nonce password (passwordAad k.label i.text username))
          (passwordAad k'.label i'.text username') = none) ∧
    (∀ (r : Redis) (k : PasswordKind) (i token : SessionId) (username password : String) (nonce : Nonce)
        (raw : List Char) (p : TokenPayload),
      r.raw (tokenKeyOf token.text) = some raw → TokenPayload.ofText raw = some p →
        p.passwordEnc = aesEncrypt store.aesgcm nonce password (passwordAad k.label i.text username) →
        (k, i, username) ≠ (.token, token, p.username) → store.getSession r token.text = .error .badPassword) ∧
    (∀ (r : Redis) (k : PasswordKind) (i sessionId : SessionId) (username password fingerprint : String)
        (nonce : Nonce) (raw : List Char) (p : WebPayload) (now : Int) (contended : Bool),
      r.raw (webKeyOf sessionId.text) = some raw → WebPayload.ofText raw = some p →
        p.fields.passwordEnc = aesEncrypt store.aesgcm nonce password (passwordAad k.label i.text username) →
        (k, i, username) ≠ (.web, sessionId, p.fields.username) →
        (store.getWebSession r sessionId.text fingerprint now contended).2 =
          if contended ∨ store.Admits fingerprint now p then .error .badPassword else .ok none) ∧
    (∀ (r : Redis) (token : SessionId) (nonce : Nonce) (q : TokenRequest) (acts : List SessionAct),
      store.getSession (store.createSession r token nonce q) token.text = .ok (some (q.session token.text none)) ∧
      ((∀ a ∈ acts, a.mints ≠ some (.token, token)) →
        ∃ d, store.getSession (acts.foldl store.act (store.createSession r token nonce q)) token.text = .ok
          (if ((acts.foldl store.act (store.createSession r token nonce q)).keys (tokenKeyOf token.text)).get = none
            then none
          else some (q.session token.text d)))) ∧
    (∀ (r : Redis) (sessionId : SessionId) (nonce : Nonce) (q : WebLogin) (created : Int) (acts : List SessionAct),
      (∀ now contended, now - created ≤ store.webIdleTtl →
        (store.getWebSession (store.createWebSession r sessionId nonce q created) sessionId.text q.browserFingerprint
          now contended).2 = .ok (some (q.session sessionId.text))) ∧
      ((∀ a ∈ acts, a.mints ≠ some (.web, sessionId)) →
        ∃ ts, ∀ fingerprint now contended,
          (store.getWebSession (acts.foldl store.act (store.createWebSession r sessionId nonce q created))
            sessionId.text fingerprint now contended).2 = .ok
          (if ((acts.foldl store.act (store.createWebSession r sessionId nonce q created)).keys
              (webKeyOf sessionId.text)).get ≠ none ∧ (contended = true ∨
              store.Admits fingerprint now ((store.webPayload sessionId nonce q created).touch ts)) then
            some (q.session sessionId.text)
          else none))) := by
  refine ⟨?_, ?_, ?_, ?_, ?_, ?_⟩
  · intro k k' i i' username username' h
    exact passwordAad_injective h
  · intro k k' i i' username username' password nonce h
    rw [aesDecrypt_aesEncrypt, if_neg (foreign_ne h)]
  · intro r k i token username password nonce raw p hraw hp hblob h
    exact getSession_of_foreign hraw hp hblob h
  · intro r k i sessionId username password fingerprint nonce raw p now contended hraw hp hblob h
    obtain ⟨doc, hdoc, -⟩ := Option.bind_eq_some_iff.mp hp
    rw [getWebSession_snd hraw hp hdoc, openWebPayload_of_foreign hblob h]
  · intro r token nonce q acts
    constructor
    · exact getSession_of_text (r.get_keys_setex _ _ _)
    · intro hmint
      exact token_round_trip hmint r nonce q
  · intro r sessionId nonce q created acts
    constructor
    · intro now contended hidle
      have hget : ((store.createWebSession r sessionId nonce q created).keys (webKeyOf sessionId.text)).get =
          some (WebPayload.text ((store.webPayload sessionId nonce q created).touch created)) :=
        r.get_keys_setex _ _ _
      rw [getWebSession_of_login hget, if_pos (Or.inr ⟨Or.inr rfl, hidle⟩)]
    · intro hmint
      exact web_round_trip hmint r nonce q created

def sampleStore : RedisSessionStore where
  webIdleTtl := 1800
  fingerprintDigest _ := ⟨"d", by decide⟩
  aesgcm := Aead.transparent
  rdpTokenTtl := 300
  webTtl := 28800

def sampleId : SessionId := ⟨['a'], by simp⟩

def sampleNonce : Nonce := ⟨List.replicate 12 7, rfl⟩

def sampleRequest : TokenRequest := ⟨"ann", "pw", "host", 3389, none, none⟩

def sampleActs : List SessionAct := [.setTokenFingerprint ['a'] "c", .tick 5]

theorem moved_blob_does_not_open :
    aesDecrypt sampleStore.aesgcm
      (aesEncrypt sampleStore.aesgcm sampleNonce "pw" (passwordAad PasswordKind.token.label sampleId.text "ann"))
      (passwordAad PasswordKind.web.label sampleId.text "ann") = none ∧
    ∃ d, sampleStore.getSession (sampleActs.foldl sampleStore.act
        (sampleStore.createSession (Keyspace.empty 0) sampleId sampleNonce sampleRequest)) sampleId.text = .ok
      (if ((sampleActs.foldl sampleStore.act (sampleStore.createSession (Keyspace.empty 0) sampleId sampleNonce
          sampleRequest)).keys (tokenKeyOf sampleId.text)).get = none then none
      else some (sampleRequest.session sampleId.text d)) :=
  ⟨(password_opens_where_it_was_stored sampleStore).2.1 .token .web sampleId sampleId "ann" "ann" "pw" sampleNonce
      (by simp),
    ((password_opens_where_it_was_stored sampleStore).2.2.2.2.1 (Keyspace.empty 0) sampleId sampleNonce
      sampleRequest sampleActs).2 (by simp [sampleActs, SessionAct.mints])⟩

end RedisSessionStore

end RdpProxy.Store
